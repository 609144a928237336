import Quotation.Engine.Build
import Quotation.Proofs.Outcome
import Quotation.Proofs.Renaming.Specials

namespace Quotation

structure State.Renamed (ρ : Renaming) (s s' : State) : Prop where
  heap : s.heap.Renamed ρ s'.heap
  world : s'.world = s.world
  depth : s'.depth = s.depth

inductive Outcome.Renamed (ρ : Renaming) {α β : Type} (f : α → β) : Outcome α → Outcome β → Prop
  | ok {a s s'} : s.Renamed ρ s' → Renamed ρ f (.ok a s) (.ok (f a) s')
  | error {h s s'} : s.Renamed ρ s' → Renamed ρ f (.error h s) (.error h s')

def Eval.Renamed (ρ : Renaming) {α β : Type} (f : α → β) (x : Eval α) (y : Eval β) : Prop :=
  ∀ s s', s.Renamed ρ s' → Outcome.Renamed ρ f (x s) (y s')

def Evaluator.Renamed (ρ : Renaming) (ev : Evaluator) : Prop :=
  ∀ t env mask, Eval.Renamed ρ (Value.rename ρ) (ev t env mask)
    (ev (t.rename ρ) (ρ.frame env) (Mask.rename ρ mask))

namespace State.Renamed

variable {ρ : Renaming} {s s' : State}

theorem mapHeap (h : s.Renamed ρ s') {g g' : Heap → Heap}
    (hg : (g s.heap).Renamed ρ (g' s'.heap)) : (s.mapHeap g).Renamed ρ (s'.mapHeap g') :=
  ⟨hg, h.world, h.depth⟩

theorem mapDepth (h : s.Renamed ρ s') (g : Nat → Nat) : (s.mapDepth g).Renamed ρ (s'.mapDepth g) :=
  ⟨h.heap, h.world, congrArg g h.depth⟩

theorem record (h : s.Renamed ρ s') (r r' : Log.Record) : (s.record r).Renamed ρ (s'.record r') :=
  ⟨h.heap, h.world, h.depth⟩

theorem traced (h : s.Renamed ρ s') (on : Bool) (m m' : String) :
    (s.traced on m).Renamed ρ (s'.traced on m') := by
  cases on
  · exact h
  · exact h.record _ _

end State.Renamed

section

variable {ρ : Renaming} {α β α' β' : Type} {f : α → α'} {g : β → β'}

theorem Outcome.Renamed.follow {r : Outcome α} {r' : Outcome α'} (h : Outcome.Renamed ρ f r r')
    {k : α → State → Outcome β} {k' : α' → State → Outcome β'} {l l' : State → State}
    (hok : ∀ a s s', s.Renamed ρ s' → Outcome.Renamed ρ g (k a s) (k' (f a) s'))
    (herr : ∀ s s', s.Renamed ρ s' → (l s).Renamed ρ (l' s')) :
    Outcome.Renamed ρ g (r.follow k l) (r'.follow k' l') := by
  cases h with
  | ok h => exact hok _ _ _ h
  | error h => exact .error (herr _ _ h)

namespace Eval.Renamed

theorem pure {a : α} {a' : α'} (h : f a = a') : Eval.Renamed ρ f (pure a) (pure a') := by
  subst h
  exact fun _ _ h => .ok h

theorem fail {e e' : Error} (h : e' = e) : Eval.Renamed ρ f (Eval.fail e) (Eval.fail e') := by
  subst h
  exact fun _ _ h => .error h

theorem ofExcept {x : Except Error α} {x' : Except Error α'} (h : x' = x.map f) :
    Eval.Renamed ρ f (Eval.ofExcept x) (Eval.ofExcept x') := by
  subst h
  cases x with
  | error e => exact .fail rfl
  | ok a => exact .pure rfl

theorem bind {x : Eval α} {x' : Eval α'} {k : α → Eval β} {k' : α' → Eval β'}
    (hx : Eval.Renamed ρ f x x') (hk : ∀ a, Eval.Renamed ρ g (k a) (k' (f a))) :
    Eval.Renamed ρ g (x >>= k) (x' >>= k') := by
  intro s s' h
  rw [Eval.bind_apply, Eval.bind_apply]
  exact (hx s s' h).follow (fun a t t' ht => hk a t t' ht) fun _ _ h => h

theorem heap {k : Heap → Eval β} {k' : Heap → Eval β'}
    (hk : ∀ h h' : Heap, h.Renamed ρ h' → Eval.Renamed ρ g (k h) (k' h')) :
    Eval.Renamed ρ g (Eval.heap >>= k) (Eval.heap >>= k') :=
  fun s s' h => hk s.heap s'.heap h.heap s s' h

theorem depth {k : Nat → Eval β} {k' : Nat → Eval β'}
    (hk : ∀ n, Eval.Renamed ρ g (k n) (k' n)) :
    Eval.Renamed ρ g (Eval.depth >>= k) (Eval.depth >>= k') := by
  intro s s' h
  rw [Eval.depth_bind_apply, Eval.depth_bind_apply, h.depth]
  exact hk s.depth s s' h

theorem debug (m m' : String) : Eval.Renamed ρ id (Eval.debug m) (Eval.debug m') :=
  fun _ _ h => .ok (a := ()) (h.record _ _)

theorem trace (on : Bool) (m m' : String) :
    Eval.Renamed ρ id (Eval.trace on m) (Eval.trace on m') := by
  intro s s' h
  rw [Eval.trace_apply, Eval.trace_apply]
  exact .ok (a := ()) (h.traced on m m')

theorem onHeap {k : Heap → α × Heap} {k' : Heap → α' × Heap}
    (hk : ∀ h h' : Heap, h.Renamed ρ h' → (k' h').1 = f (k h).1 ∧ (k h).2.Renamed ρ (k' h').2) :
    Eval.Renamed ρ f (Eval.onHeap k) (Eval.onHeap k') := by
  intro s s' h
  obtain ⟨hresult, hheap⟩ := hk s.heap s'.heap h.heap
  rw [Eval.onHeap_apply, Eval.onHeap_apply, hresult]
  exact .ok (h.mapHeap hheap)

theorem onWorld {k : World → Except Error α × World} {k' : World → Except Error α' × World}
    (hk : ∀ w, k' w = ((k w).1.map f, (k w).2)) :
    Eval.Renamed ρ f (Eval.onWorld k) (Eval.onWorld k') := by
  intro s s' h
  simp only [Eval.onWorld, hk, h.world]
  cases k s.world with
  | mk r w =>
    cases r with
    | error e => exact .error ⟨h.heap, rfl, h.depth⟩
    | ok a => exact .ok ⟨h.heap, rfl, h.depth⟩

theorem identity : Eval.Renamed ρ id Eval.freshIdentity Eval.freshIdentity :=
  .onWorld fun _ => rfl

theorem attempt {x : Eval α} {x' : Eval α'} (hx : Eval.Renamed ρ f x x') :
    Eval.Renamed ρ (Except.map f) x.attempt x'.attempt := by
  intro s s' h
  have hends := hx s s' h
  rw [Eval.attempt_apply, Eval.attempt_apply]
  generalize x s = r at hends
  generalize x' s' = r' at hends
  cases hends with
  | ok ht => exact .ok (a := Except.ok _) ht
  | @error halt _ _ ht =>
    cases halt with
    | failed e => exact .ok (a := Except.error e) ht
    | outOfFuel => exact .error ht

theorem nested {x : Eval α} {x' : Eval α'} (maxDepth : Nat) (hx : Eval.Renamed ρ f x x') :
    Eval.Renamed ρ f (Eval.nested maxDepth x) (Eval.nested maxDepth x') := by
  intro s s' h
  rw [Eval.nested_apply, Eval.nested_apply, h.depth]
  split
  · exact (hx _ _ (h.mapDepth _)).follow (fun a t t' ht => .ok (ht.mapDepth _))
      fun t t' ht => ht.mapDepth _
  · exact .error h

end Eval.Renamed

end

section

variable {ρ : Renaming} {eng : Engine} {ev : Evaluator} (hev : ev.Renamed ρ)

include hev

theorem force_renamed (p : PromiseId) :
    Eval.Renamed ρ (Value.rename ρ) (force ev p) (force ev (ρ.promise p)) := by
  intro s s' h
  have hpromise := h.heap.promise p
  cases hv : (s.heap.promise p).value? with
  | some v =>
    have hv' : (s'.heap.promise (ρ.promise p)).value? = some (v.rename ρ) := by
      rw [hpromise, Promise.rename, hv, Option.map_some]
    rw [force_apply_of_value ev hv, force_apply_of_value ev hv']
    exact .ok h
  | none =>
    -- The second promise is in the same condition: pending, or under evaluation.
    have hv' : (s'.heap.promise (ρ.promise p)).value? = none := by
      rw [hpromise, Promise.rename, hv, Option.map_none]
    have hf' : (s'.heap.promise (ρ.promise p)).forcing = (s.heap.promise p).forcing := by
      rw [hpromise, Promise.rename]
    cases hf : (s.heap.promise p).forcing with
    | true =>
      rw [force_apply_of_forcing ev hv hf, force_apply_of_forcing ev hv' (hf'.trans hf)]
      exact .error h
    | false =>
      have hrun := hev (s.heap.promise p).expr (s.heap.promise p).env (s.heap.promise p).mask
        (s.mapHeap (·.beginForce p)) (s'.mapHeap (·.beginForce (ρ.promise p)))
        (h.mapHeap (h.heap.modifyPromise p fun _ => rfl))
      rw [force_apply_of_pending ev ⟨hv, hf⟩, force_apply_of_pending ev ⟨hv', hf'.trans hf⟩,
        hpromise]
      refine hrun.follow (fun v t t' ht => .ok ?_) fun t t' ht => ?_
      · exact ht.mapHeap (ht.heap.modifyPromise p fun _ => rfl)
      · exact ht.mapHeap (ht.heap.modifyPromise p fun _ => rfl)

theorem lookupVariable_renamed (name : String) (env : FrameId) (mask : Option Mask) :
    Eval.Renamed ρ (Value.rename ρ) (lookupVariable ev name env mask)
      (lookupVariable ev name (ρ.frame env) (Mask.rename ρ mask)) := by
  unfold lookupVariable
  rw [Mask.find?_rename]
  cases Mask.find? mask name with
  | some v => exact .pure rfl
  | none =>
    refine .heap fun h h' hh => ?_
    rw [hh.lookup]
    cases h.lookup env name with
    | none => exact .fail rfl
    | some b =>
      cases b with
      | value v => exact .pure rfl
      | promise p => exact force_renamed hev p
      | dots args => exact .fail rfl
      | missing => exact .fail rfl

theorem findFunction_renamed (name : String) (chain : List FrameId) :
    Eval.Renamed ρ (Value.rename ρ) (findFunction ev name chain)
      (findFunction ev name (chain.map ρ.frame)) := by
  induction chain with
  | nil => exact .fail rfl
  | cons f rest ih =>
    refine .heap fun h h' hh => ?_
    rw [hh.binding?]
    cases h.binding? f name with
    | none => exact ih
    | some b =>
      cases b with
      | value v =>
        simp only [Option.map_some, Binding.rename, Value.isCallable_rename]
        split
        · exact .pure rfl
        · exact ih
      | promise p =>
        refine (force_renamed hev p).bind fun v => ?_
        rw [Value.isCallable_rename]
        split
        · exact .pure rfl
        · exact ih
      | dots args => exact ih
      | missing => exact ih

theorem lookupFunction_renamed (name : String) (env : FrameId) (mask : Option Mask) :
    Eval.Renamed ρ (Value.rename ρ) (lookupFunction ev name env mask)
      (lookupFunction ev name (ρ.frame env) (Mask.rename ρ mask)) := by
  have hfilter : (Mask.find? (Mask.rename ρ mask) name).filter Value.isCallable =
      ((Mask.find? mask name).filter Value.isCallable).map (Value.rename ρ) := by
    rw [Mask.find?_rename, Option.filter_map]
    simp [Function.comp_def]
  unfold lookupFunction
  rw [hfilter]
  cases (Mask.find? mask name).filter Value.isCallable with
  | some v => exact .pure rfl
  | none =>
    refine .heap fun h h' hh => ?_
    rw [hh.chain]
    exact findFunction_renamed hev name (h.chain env)

theorem resolveHead_renamed (head : Tree) (env : FrameId) (mask : Option Mask) :
    Eval.Renamed ρ (Value.rename ρ) (resolveHead ev head env mask)
      (resolveHead ev (head.rename ρ) (ρ.frame env) (Mask.rename ρ mask)) := by
  have hvalue : ∀ t, Eval.Renamed ρ (Value.rename ρ)
      (ev t env mask >>= fun v =>
        if v.isCallable then pure v else Eval.fail (.notCallable v.typeName))
      (ev (t.rename ρ) (ρ.frame env) (Mask.rename ρ mask) >>= fun v =>
        if v.isCallable then pure v else Eval.fail (.notCallable v.typeName)) := by
    refine fun t => (hev t env mask).bind fun v => ?_
    rw [Value.isCallable_rename, Value.typeName_rename]
    split
    · exact .pure rfl
    · exact .fail rfl
  cases head with
  | reference name => exact lookupFunction_renamed hev name env mask
  | _ => exact hvalue _

theorem resolveUnquote_renamed (e : Tree) (env : FrameId) (mask : Option Mask) :
    Eval.Renamed ρ (Tree.rename ρ) (resolveUnquote eng ev e env mask)
      (resolveUnquote eng ev (e.rename ρ) (ρ.frame env) (Mask.rename ρ mask)) := by
  refine (hev e env mask).bind fun v => ?_
  refine (Eval.Renamed.ofExcept (Tree.ofValue_rename ρ v)).bind fun t => ?_
  exact (Eval.Renamed.trace _ _ _).bind fun _ => .pure rfl

theorem resolveSplice_renamed (e : Tree) (env : FrameId) (mask : Option Mask) :
    Eval.Renamed ρ (List.map (Named.map (Tree.rename ρ))) (resolveSplice eng ev e env mask)
      (resolveSplice eng ev (e.rename ρ) (ρ.frame env) (Mask.rename ρ mask)) := by
  refine (hev e env mask).bind fun v => ?_
  refine (Eval.Renamed.ofExcept (Slot.ofSequence_rename ρ v)).bind fun slots => ?_
  exact (Eval.Renamed.trace _ _ _).bind fun _ => .pure rfl

theorem resolveName_renamed (n : Tree) (env : FrameId) (mask : Option Mask) :
    Eval.Renamed ρ id (resolveName ev n env mask)
      (resolveName ev (n.rename ρ) (ρ.frame env) (Mask.rename ρ mask)) := by
  refine (hev n env mask).bind fun v => .ofExcept ?_
  rw [Value.toName_rename]
  cases v.toName <;> rfl

theorem resolve_parts_renamed (env : FrameId) (mask : Option Mask) :
    (∀ t, Eval.Renamed ρ (Tree.rename ρ) (resolveTree eng ev env mask t)
        (resolveTree eng ev (ρ.frame env) (Mask.rename ρ mask) (t.rename ρ))) ∧
      (∀ l, Eval.Renamed ρ (List.map (Named.map (Tree.rename ρ))) (resolveSlots eng ev env mask l)
        (resolveSlots eng ev (ρ.frame env) (Mask.rename ρ mask)
          (l.map (Named.map (Tree.rename ρ))))) ∧
      ∀ slot, Eval.Renamed ρ (List.map (Named.map (Tree.rename ρ)))
        (resolveSlot eng ev env mask slot)
        (resolveSlot eng ev (ρ.frame env) (Mask.rename ρ mask) (slot.map (Tree.rename ρ))) := by
  refine resolveTree.mutual_induct _ _ _ ?literal ?reference ?call ?finishedCall ?pairlist
    ?finishedPairlist ?unquote ?splice ?define ?nil ?cons ?spliceSlot ?defineSplice ?defineSlot
    ?plainSlot
  case literal => exact fun _ => .pure rfl
  case reference => exact fun _ => .pure rfl
  case call =>
    intro head args hm hhead hargs
    simp only [Tree.rename_call, resolveTree, Tree.hasMarkers_rename, Slot.anyMarkers_map_rename,
      hm, if_true]
    exact .nested _ (hhead.bind fun head => hargs.bind fun args => .pure (Tree.rename_call ρ _ _))
  case finishedCall =>
    intro head args hm
    simp only [Tree.rename_call, resolveTree, Tree.hasMarkers_rename, Slot.anyMarkers_map_rename,
      hm]
    exact .pure (Tree.rename_call ρ _ _)
  case pairlist =>
    intro args hm hargs
    simp only [Tree.rename_pairlist, resolveTree, Slot.anyMarkers_map_rename, hm, if_true]
    exact .nested _ (hargs.bind fun args => .pure (Tree.rename_pairlist ρ _))
  case finishedPairlist =>
    intro args hm
    simp only [Tree.rename_pairlist, resolveTree, Slot.anyMarkers_map_rename, hm]
    exact .pure (Tree.rename_pairlist ρ _)
  case unquote => exact fun e => resolveUnquote_renamed hev e env mask
  case splice => exact fun _ => .fail rfl
  case define => exact fun _ _ => .fail rfl
  case nil => exact .pure rfl
  case cons =>
    exact fun slot rest hslot hrest =>
      hslot.bind fun here => hrest.bind fun there => .pure List.map_append
  case spliceSlot => exact fun _ e => resolveSplice_renamed hev e env mask
  case defineSplice =>
    intro _ n e
    refine (resolveName_renamed hev n env mask).bind fun name => ?_
    refine (resolveSplice_renamed hev e env mask).bind fun slots => .pure ?_
    simp [Named.map, Named.nameOr]
  case defineSlot =>
    intro _ n v hv ht
    -- No splice, and so under new numbers none either: each other constructor is a slot like this.
    have hslot : ∀ name : String, Eval.Renamed ρ (List.map (Named.map (Tree.rename ρ)))
        (resolveTree eng ev env mask v >>= fun t => pure [⟨some name, t⟩])
        (resolveTree eng ev (ρ.frame env) (Mask.rename ρ mask) (v.rename ρ) >>= fun t =>
          pure [⟨some name, t⟩]) :=
      fun name => ht.bind fun t => .pure rfl
    have hname := resolveName_renamed hev n env mask
    cases v with
    | splice e => exact (hv e rfl).elim
    | _ => exact hname.bind hslot
  case plainSlot =>
    intro name t h₁ h₂ h₃ ht
    have hslot : Eval.Renamed ρ (List.map (Named.map (Tree.rename ρ)))
        (resolveTree eng ev env mask t >>= fun t => pure [⟨name, t⟩])
        (resolveTree eng ev (ρ.frame env) (Mask.rename ρ mask) (t.rename ρ) >>= fun t =>
          pure [⟨name, t⟩]) :=
      ht.bind fun t => .pure rfl
    cases t with
    | splice e => exact (h₁ e rfl).elim
    | define n v => exact (h₃ n v rfl).elim
    | _ => exact hslot

theorem resolve_renamed (t : Tree) (env : FrameId) (mask : Option Mask) :
    Eval.Renamed ρ (Tree.rename ρ) (resolve eng ev t env mask)
      (resolve eng ev (t.rename ρ) (ρ.frame env) (Mask.rename ρ mask)) :=
  (Eval.Renamed.debug _ _).bind fun _ => (resolve_parts_renamed hev env mask).1 t

omit hev in
theorem visibleDots_renamed (env : FrameId) :
    Eval.Renamed ρ (List.map (Named.map ρ.promise)) (visibleDots env)
      (visibleDots (ρ.frame env)) := by
  refine .heap fun h h' hh => ?_
  rw [hh.dots?]
  cases h.dots? env with
  | some args => exact .pure rfl
  | none => exact .fail rfl

theorem forceAll_renamed (args : List (Named PromiseId)) :
    Eval.Renamed ρ (List.map (Named.map (Value.rename ρ))) (forceAll ev args)
      (forceAll ev (args.map (Named.map ρ.promise))) := by
  induction args with
  | nil => exact .pure rfl
  | cons a rest ih =>
    exact (force_renamed hev a.val).bind fun v => ih.bind fun vs => .pure rfl

theorem evalSlot_renamed (env : FrameId) (mask : Option Mask) (slot : Slot) :
    Eval.Renamed ρ (List.map (Named.map (Value.rename ρ))) (evalSlot ev env mask slot)
      (evalSlot ev (ρ.frame env) (Mask.rename ρ mask) (slot.map (Tree.rename ρ))) := by
  unfold evalSlot
  rw [Named.map_val, Tree.isDots_rename]
  split
  · exact (visibleDots_renamed env).bind fun args => forceAll_renamed hev args
  · exact (hev slot.val env mask).bind fun v => .pure rfl

theorem evalSlots_renamed (env : FrameId) (mask : Option Mask) (args : List Slot) :
    Eval.Renamed ρ (List.map (Named.map (Value.rename ρ))) (evalSlots ev env mask args)
      (evalSlots ev (ρ.frame env) (Mask.rename ρ mask) (args.map (Named.map (Tree.rename ρ)))) := by
  induction args with
  | nil => exact .pure rfl
  | cons slot rest ih =>
    exact (evalSlot_renamed hev env mask slot).bind fun here =>
      ih.bind fun there => .pure List.map_append

theorem spliceItems_renamed (e : Tree) (env : FrameId) (mask : Option Mask) :
    Eval.Renamed ρ (List.map (Named.map (Value.rename ρ))) (spliceItems ev e env mask)
      (spliceItems ev (e.rename ρ) (ρ.frame env) (Mask.rename ρ mask)) :=
  (hev e env mask).bind fun v => .ofExcept (Item.ofSequence_rename ρ v)

theorem evalInjected_renamed (env : FrameId) (mask : Option Mask) (t : Tree) :
    Eval.Renamed ρ (Value.rename ρ) (evalInjected eng ev env mask t)
      (evalInjected eng ev (ρ.frame env) (Mask.rename ρ mask) (t.rename ρ)) := by
  have hplain : Eval.Renamed ρ (Value.rename ρ)
      (if t.hasMarkers then resolve eng ev t env mask >>= fun t => ev t env mask
        else ev t env mask)
      (if (t.rename ρ).hasMarkers then
        resolve eng ev (t.rename ρ) (ρ.frame env) (Mask.rename ρ mask) >>= fun t =>
          ev t (ρ.frame env) (Mask.rename ρ mask)
        else ev (t.rename ρ) (ρ.frame env) (Mask.rename ρ mask)) := by
    rw [Tree.hasMarkers_rename]
    split
    · exact (resolve_renamed hev t env mask).bind fun t => hev t env mask
    · exact hev t env mask
  cases t with
  | unquote e => exact hev e env mask
  | _ => exact hplain

theorem evalDynamicSlot_renamed (env : FrameId) (mask : Option Mask) (slot : Slot) :
    Eval.Renamed ρ (List.map (Named.map (Value.rename ρ))) (evalDynamicSlot eng ev env mask slot)
      (evalDynamicSlot eng ev (ρ.frame env) (Mask.rename ρ mask) (slot.map (Tree.rename ρ))) := by
  obtain ⟨name, t⟩ := slot
  have hplain : Eval.Renamed ρ (List.map (Named.map (Value.rename ρ)))
      (if t.isDots then evalSlot ev env mask ⟨name, t⟩
        else evalInjected eng ev env mask t >>= fun v => pure [⟨name, v⟩])
      (if (t.rename ρ).isDots then
        evalSlot ev (ρ.frame env) (Mask.rename ρ mask) ⟨name, t.rename ρ⟩
        else evalInjected eng ev (ρ.frame env) (Mask.rename ρ mask) (t.rename ρ) >>= fun v =>
          pure [⟨name, v⟩]) := by
    rw [Tree.isDots_rename]
    split
    · exact evalSlot_renamed hev env mask ⟨name, t⟩
    · exact (evalInjected_renamed hev env mask t).bind fun v => .pure rfl
  cases t with
  | splice e => exact spliceItems_renamed hev e env mask
  | define n v =>
    refine (resolveName_renamed hev n env mask).bind fun name => ?_
    rw [Tree.spliced?_rename]
    cases v.spliced? with
    | some e =>
      refine (spliceItems_renamed hev e env mask).bind fun items => .pure ?_
      simp [Named.map, Named.nameOr]
    | none => exact (evalInjected_renamed hev env mask v).bind fun v => .pure rfl
  | _ => exact hplain

theorem evalDynamicSlots_renamed (env : FrameId) (mask : Option Mask) (args : List Slot) :
    Eval.Renamed ρ (List.map (Named.map (Value.rename ρ))) (evalDynamicSlots eng ev env mask args)
      (evalDynamicSlots eng ev (ρ.frame env) (Mask.rename ρ mask)
        (args.map (Named.map (Tree.rename ρ)))) := by
  induction args with
  | nil => exact .pure rfl
  | cons slot rest ih =>
    exact (evalDynamicSlot_renamed hev env mask slot).bind fun here =>
      ih.bind fun there => .pure List.map_append

omit hev in
theorem capturePromise_renamed (p : PromiseId) :
    Eval.Renamed ρ (Capture.rename ρ) (capturePromise p) (capturePromise (ρ.promise p)) := by
  refine .onHeap fun h h' hh => ⟨?_, hh.modifyPromise p fun _ => rfl⟩
  rw [hh.promise]
  rfl

omit hev in
theorem captureAll_renamed (args : List (Named PromiseId)) :
    Eval.Renamed ρ (List.map (Named.map (Capture.rename ρ))) (captureAll args)
      (captureAll (args.map (Named.map ρ.promise))) := by
  induction args with
  | nil => exact .pure rfl
  | cons a rest ih =>
    exact (capturePromise_renamed a.val).bind fun c => ih.bind fun cs => .pure rfl

omit hev in
theorem captureParameter_renamed (env : FrameId) (name : String) :
    Eval.Renamed ρ (Capture.rename ρ) (captureParameter env name)
      (captureParameter (ρ.frame env) name) := by
  refine (Eval.Renamed.debug _ _).bind fun _ => .heap fun h h' hh => ?_
  rw [hh.callFrame?]
  cases h.callFrame? env with
  | none => exact .fail rfl
  | some f =>
    simp only [Option.map_some, hh.binding?]
    cases h.binding? f name with
    | none => exact .fail rfl
    | some b =>
      cases b with
      | promise p => exact capturePromise_renamed p
      | _ => exact .fail rfl

omit hev in
theorem captureDots_renamed (env : FrameId) :
    Eval.Renamed ρ (List.map (Named.map (Capture.rename ρ))) (captureDots env)
      (captureDots (ρ.frame env)) := by
  refine (Eval.Renamed.debug _ _).bind fun _ => .heap fun h h' hh => ?_
  rw [hh.callFrame?]
  cases h.callFrame? env with
  | none => exact .fail rfl
  | some f =>
    simp only [Option.map_some, hh.binding?]
    cases h.binding? f dotsName with
    | none => exact .fail rfl
    | some b =>
      cases b with
      | dots args => exact captureAll_renamed args
      | _ => exact .fail rfl

omit hev in
theorem promiseSlot_renamed (env : FrameId) (mask : Option Mask) (slot : Slot) :
    Eval.Renamed ρ (List.map (Named.map ρ.promise)) (promiseSlot env mask slot)
      (promiseSlot (ρ.frame env) (Mask.rename ρ mask) (slot.map (Tree.rename ρ))) := by
  unfold promiseSlot
  rw [Named.map_val, Tree.isDots_rename]
  split
  · exact visibleDots_renamed env
  · refine Eval.Renamed.bind (f := ρ.promise) (.onHeap fun h h' hh => ?_) fun p => .pure rfl
    exact ⟨hh.promises.next.symm, hh.newPromise { expr := slot.val, env, mask }⟩

omit hev in
theorem promiseSlots_renamed (env : FrameId) (mask : Option Mask) (args : List Slot) :
    Eval.Renamed ρ (List.map (Named.map ρ.promise)) (promiseSlots env mask args)
      (promiseSlots (ρ.frame env) (Mask.rename ρ mask)
        (args.map (Named.map (Tree.rename ρ)))) := by
  induction args with
  | nil => exact .pure rfl
  | cons slot rest ih =>
    exact (promiseSlot_renamed env mask slot).bind fun here =>
      ih.bind fun there => .pure List.map_append

omit hev in
theorem openFrame_renamed (c : Closure Tree) (supplied : List (Named PromiseId)) :
    Eval.Renamed ρ ρ.frame (openFrame c supplied)
      (openFrame (c.rename ρ) (supplied.map (Named.map ρ.promise))) := by
  intro s s' h
  have hnew := h.heap.newFrame (some c.env) true
  rw [openFrame_apply, openFrame_apply, Closure.rename, matchArguments_rename,
    ← h.heap.frames.next]
  cases matchArguments c.formals supplied with
  | error e => exact .error (h.mapHeap hnew)
  | ok m =>
    have hbound := hnew.bindMatching s.heap.frames.size c.formals m
    rw [h.heap.frames.next] at hbound
    exact .ok (h.mapHeap hbound)

omit hev in
theorem Heap.Renamed.markedArguments {h h' : Heap} (hh : h.Renamed ρ h')
    (supplied : List (Named PromiseId)) :
    Quotation.markedArguments h' (supplied.map (Named.map ρ.promise)) =
      (Quotation.markedArguments h supplied).map ρ.promise := by
  simp [Quotation.markedArguments, List.filter_map, Function.comp_def, hh.promise,
    Promise.rename]

omit hev in
theorem Heap.Renamed.uncapturedMarker? {h h' : Heap} (hh : h.Renamed ρ h')
    (marked : List PromiseId) :
    Quotation.uncapturedMarker? h' (marked.map ρ.promise) =
      (Quotation.uncapturedMarker? h marked).map (Marker.rename ρ) := by
  simp only [Quotation.uncapturedMarker?, List.filter_map, Function.comp_def, hh.promise,
    Promise.rename, List.findSome?_map, hh.exposed?]
  induction marked.filter fun p => !(h.promise p).captured with
  | nil => rfl
  | cons p rest ih =>
    simp only [List.findSome?_cons, ih]
    cases h.exposed? (h.promise p).env (h.promise p).mask (h.promise p).expr <;> rfl

theorem applyClosure_renamed (c : Closure Tree) (args : List Slot) (env : FrameId)
    (mask : Option Mask) :
    Eval.Renamed ρ (Value.rename ρ) (applyClosure eng ev c args env mask)
      (applyClosure eng ev (c.rename ρ) (args.map (Named.map (Tree.rename ρ))) (ρ.frame env)
        (Mask.rename ρ mask)) := by
  refine (promiseSlots_renamed env mask args).bind fun supplied => .heap fun h h' hh => ?_
  rw [hh.markedArguments]
  refine (openFrame_renamed c supplied).bind fun frame => .depth fun n => ?_
  refine (Eval.Renamed.trace _ _ _).bind fun _ => ?_
  refine (hev c.body frame none).bind fun v => .heap fun h h' hh => ?_
  rw [hh.uncapturedMarker?]
  cases uncapturedMarker? h _ with
  | none => exact .pure rfl
  | some m => exact .fail (congrArg Error.unresolvedMarker (m.kind_rename ρ))

theorem answer_renamed (hhost : eng.host.Uniform ρ) (d : Demand) :
    Eval.Renamed ρ (d.renameAnswer ρ) (answer eng ev d) (answer eng ev (d.rename ρ)) := by
  cases d with
  | evaluate t env mask => exact hev t env mask
  | force p => exact force_renamed hev p
  | arguments args env mask => exact evalDynamicSlots_renamed hev env mask args
  | resolve t env mask => exact resolve_renamed hev t env mask
  | capture env name => exact captureParameter_renamed env name
  | captureDots env => exact captureDots_renamed env
  | perform name args => exact .onWorld (hhost.builtin name args)

theorem runRoutine_renamed (hhost : eng.host.Uniform ρ) {α β : Type} {f : α → β} {r : Routine α}
    {r' : Routine β} (hr : r.Renamed ρ f r') :
    Eval.Renamed ρ f (runRoutine eng ev r) (runRoutine eng ev r') := by
  induction hr with
  | done a => exact .pure rfl
  | fail e => exact .fail rfl
  | ask _ ih => exact (answer_renamed hev hhost _).attempt.bind ih
  | inspect _ ih => exact .heap ih
  | newFrame _ ih =>
    refine Eval.Renamed.bind (f := ρ.frame) (.onHeap fun h h' hh => ?_) ih
    exact ⟨hh.frames.next.symm, hh.newFrame _ _⟩
  | newPromise _ ih =>
    refine Eval.Renamed.bind (f := ρ.promise) (.onHeap fun h h' hh => ?_) ih
    exact ⟨hh.promises.next.symm, hh.newPromise _⟩
  | rebind _ ih =>
    refine Eval.Renamed.bind (f := id) (fun s s' h => ?_) fun _ => ih
    exact .ok (a := ()) ⟨h.heap.rebind _ _ _, h.world, h.depth⟩
  | identity _ ih => exact Eval.Renamed.identity.bind ih
  | depth _ ih => exact .depth ih

theorem runSpecial_renamed (hhost : eng.host.Uniform ρ) (s : Special) (call : SpecialCall) :
    Eval.Renamed ρ (Value.rename ρ) (runSpecial eng ev s call)
      (runSpecial eng ev s (call.rename ρ)) :=
  runRoutine_renamed hev hhost (s.op.routine_renamed hhost call)

omit hev in
theorem runBuiltin_renamed (hhost : eng.host.Uniform ρ) (b : Builtin) (args : List Item) :
    Eval.Renamed ρ (Value.rename ρ) (runBuiltin eng b args)
      (runBuiltin eng b (args.map (Named.map (Value.rename ρ)))) :=
  .onWorld (Builtin.Op.run_rename ρ args hhost.builtin b.op)

theorem apply_renamed (hhost : eng.host.Uniform ρ) (func : Value) (args : List Slot) (env : FrameId)
    (mask : Option Mask) :
    Eval.Renamed ρ (Value.rename ρ) (apply eng ev func args env mask)
      (apply eng ev (func.rename ρ) (args.map (Named.map (Tree.rename ρ))) (ρ.frame env)
        (Mask.rename ρ mask)) := by
  cases func with
  | builtin b =>
    exact (evalSlots_renamed hev env mask args).bind fun items => runBuiltin_renamed hhost b items
  | special s => exact runSpecial_renamed hev hhost s ⟨args, env, mask⟩
  | closure c =>
    rw [Value.rename_closure]
    exact applyClosure_renamed hev c args env mask
  | _ => exact .fail rfl

omit hev in
theorem rejectExposed_renamed (t : Tree) (env : FrameId) (mask : Option Mask) :
    Eval.Renamed ρ id (rejectExposed t env mask)
      (rejectExposed (t.rename ρ) (ρ.frame env) (Mask.rename ρ mask)) := by
  refine .heap fun h h' hh => ?_
  rw [hh.exposed?]
  cases h.exposed? env mask t with
  | none => exact .pure (a := ()) rfl
  | some m => exact .fail (congrArg Error.unresolvedMarker (m.kind_rename ρ))

theorem callHead_renamed (head : Tree) (args : List Slot) (env : FrameId) (mask : Option Mask) :
    Eval.Renamed ρ (Value.rename ρ) (callHead ev head args env mask)
      (callHead ev (head.rename ρ) (args.map (Named.map (Tree.rename ρ))) (ρ.frame env)
        (Mask.rename ρ mask)) := by
  intro s s' h
  have hends := resolveHead_renamed hev head env mask s s' h
  rw [callHead_apply, callHead_apply]
  generalize resolveHead ev head env mask s = r at hends
  generalize resolveHead ev (head.rename ρ) (ρ.frame env) (Mask.rename ρ mask) s' = r' at hends
  cases hends with
  | ok ht => exact .ok ht
  | @error halt t t' ht =>
    cases halt with
    | outOfFuel => exact .error ht
    | failed e =>
      have hfailure : t'.heap.headFailure
          (.call (head.rename ρ) (args.map (Named.map (Tree.rename ρ)))) (ρ.frame env)
          (Mask.rename ρ mask) e = t.heap.headFailure (.call head args) env mask e := by
        rw [← Tree.rename_call, Heap.headFailure, ht.heap.exposed?, Heap.headFailure]
        cases t.heap.exposed? env mask (.call head args) <;> simp
      simp only [hfailure]
      exact .error ht

omit hev in
theorem rejectMarkers_renamed (func : Value) (t : Tree) (env : FrameId) (mask : Option Mask) :
    Eval.Renamed ρ id (rejectMarkers func t env mask)
      (rejectMarkers (func.rename ρ) (t.rename ρ) (ρ.frame env) (Mask.rename ρ mask)) := by
  cases func with
  | builtin b => exact rejectExposed_renamed t env mask
  | _ => exact .pure (a := ()) rfl

theorem evaluateCall_renamed (hhost : eng.host.Uniform ρ) (head : Tree) (args : List Slot)
    (env : FrameId) (mask : Option Mask) :
    Eval.Renamed ρ (Value.rename ρ) (evaluateCall eng ev head args env mask)
      (evaluateCall eng ev (head.rename ρ) (args.map (Named.map (Tree.rename ρ))) (ρ.frame env)
        (Mask.rename ρ mask)) := by
  refine .depth fun n => (Eval.Renamed.trace _ _ _).bind fun _ => ?_
  refine (callHead_renamed hev head args env mask).bind fun func => ?_
  rw [← Tree.rename_call]
  refine (rejectMarkers_renamed func (.call head args) env mask).bind fun _ => ?_
  exact apply_renamed hev hhost func args env mask

theorem evaluateStep_renamed (hhost : eng.host.Uniform ρ) (t : Tree) (env : FrameId)
    (mask : Option Mask) :
    Eval.Renamed ρ (Value.rename ρ) (evaluateStep eng ev t env mask)
      (evaluateStep eng ev (t.rename ρ) (ρ.frame env) (Mask.rename ρ mask)) := by
  cases t with
  | literal v => exact .pure rfl
  | reference name => exact lookupVariable_renamed hev name env mask
  | call head args =>
    rw [Tree.rename_call]
    exact .nested _ (evaluateCall_renamed hev hhost head args env mask)
  | pairlist args =>
    rw [Tree.rename_pairlist]
    exact (evalSlots_renamed hev env mask args).bind fun items => .pure (Value.rename_list ρ items)
  | unquote e => exact .fail rfl
  | splice e => exact .fail rfl
  | define n v => exact .fail rfl

omit hev in
/-- The numbers of frames and promises do not matter to evaluation, nor does what else there is. -/
theorem evaluate_renamed (hhost : eng.host.Uniform ρ) (fuel : Nat) :
    (evaluate eng fuel).Renamed ρ := by
  induction fuel with
  | zero => exact fun _ _ _ _ _ h => .error h
  | succ fuel ih => exact fun t env mask => evaluateStep_renamed ih hhost t env mask

end

end Quotation

import Quotation.Engine.Evaluate
import Quotation.Proofs.Relocation

namespace Quotation.Relocation

variable {eng : Engine} {L : Relocation eng} {α β γ δ : Type}

inductive Ends (L : Relocation eng) (R : α → β → Prop) : Outcome α → Outcome β → Prop
  | ok {a b s s'} : R a b → L.AlikeStates s s' → Ends L R (.ok a s) (.ok b s')
  | error {h s s'} : L.AlikeStates s s' → Ends L R (.error h s) (.error h s')

def Related (L : Relocation eng) (R : α → β → Prop) (x : Eval α) (y : Eval β) : Prop :=
  ∀ s s', L.AlikeStates s s' → L.Ends R (x s) (y s')

def Same (P : α → Prop) (a b : α) : Prop := b = a ∧ P a

abbrev RelatedEvaluators (L : Relocation eng) (ev ev' : Evaluator) : Prop :=
  ∀ {t f m f' m'}, L.place t f m f' m' → L.Related (Same L.value) (ev t f m) (ev' t f' m')

class Specials (L : Relocation eng) : Prop where
  special : ∀ {ev ev' : Evaluator} {s : Special} {head : Tree} {args : List Slot} {f m f' m'},
    L.RelatedEvaluators ev ev' → L.value (.special s) → L.place (.call head args) f m f' m' →
      L.Related (Same L.value) (runSpecial eng ev s ⟨args, f, m⟩)
        (runSpecial eng ev' s ⟨args, f', m'⟩)

theorem AlikeStates.mapHeap {s s' : State} (hs : L.AlikeStates s s') {g g' : Heap → Heap}
    (hg : L.Alike (g s.heap) (g' s'.heap)) : L.AlikeStates (s.mapHeap g) (s'.mapHeap g') :=
  ⟨hg, hs.depth, hs.world, hs.log⟩

theorem AlikeStates.record {s s' : State} (hs : L.AlikeStates s s') (r : Log.Record) :
    L.AlikeStates (s.record r) (s'.record r) :=
  ⟨hs.heap, hs.depth, hs.world, congrArg (List.cons r) hs.log⟩

theorem AlikeStates.traced {s s' : State} (hs : L.AlikeStates s s') (on : Bool) (m : String) :
    L.AlikeStates (s.traced on m) (s'.traced on m) := by
  cases on with
  | true => exact hs.record _
  | false => exact hs

theorem AlikeStates.mapDepth {s s' : State} (hs : L.AlikeStates s s') (g : Nat → Nat) :
    L.AlikeStates (s.mapDepth g) (s'.mapDepth g) :=
  ⟨hs.heap, congrArg g hs.depth, hs.world, hs.log⟩

theorem Ends.follow {R : α → β → Prop} {S : γ → δ → Prop} {r : Outcome α} {r' : Outcome β}
    (hr : L.Ends R r r') {f : α → State → Outcome γ} {g : β → State → Outcome δ}
    {k k' : State → State}
    (hok : ∀ a b s s', R a b → L.AlikeStates s s' → L.Ends S (f a s) (g b s'))
    (herr : ∀ s s', L.AlikeStates s s' → L.AlikeStates (k s) (k' s')) :
    L.Ends S (r.follow f k) (r'.follow g k') := by
  cases hr with
  | ok h hs => exact hok _ _ _ _ h hs
  | error hs => exact .error (herr _ _ hs)

namespace Related

variable {R : α → β → Prop} {S : γ → δ → Prop} {P : α → Prop}

theorem mono {R' : α → β → Prop} {x : Eval α} {y : Eval β} (hxy : L.Related R x y)
    (hR : ∀ a b, R a b → R' a b) : L.Related R' x y := by
  intro s s' hs
  have hends := hxy s s' hs
  generalize x s = r at hends ⊢
  generalize y s' = r' at hends ⊢
  cases hends with
  | ok h hs => exact .ok (hR _ _ h) hs
  | error hs => exact .error hs

theorem pure {a : α} {b : β} (h : R a b) : L.Related R (Pure.pure a) (Pure.pure b) :=
  fun _ _ hs => .ok h hs

theorem same {a : α} (h : P a) : L.Related (Same P) (Pure.pure a) (Pure.pure a) := pure ⟨rfl, h⟩

theorem fail (e : Error) : L.Related R (Eval.fail e) (Eval.fail e) := fun _ _ hs => .error hs

theorem bind {x : Eval α} {y : Eval β} {f : α → Eval γ} {g : β → Eval δ} (hxy : L.Related R x y)
    (hfg : ∀ a b, R a b → L.Related S (f a) (g b)) : L.Related S (x >>= f) (y >>= g) := by
  intro s s' hs
  rw [Eval.bind_apply, Eval.bind_apply]
  exact (hxy s s' hs).follow (fun a b t t' h ht => hfg a b h t t' ht) fun _ _ ht => ht

theorem andThen {x y : Eval α} {f : α → Eval γ} {g : α → Eval δ} (hxy : L.Related (Same P) x y)
    (hfg : ∀ a, P a → L.Related S (f a) (g a)) : L.Related S (x >>= f) (y >>= g) :=
  hxy.bind fun a _ h => h.1 ▸ hfg a h.2

theorem heap {f : Heap → Eval α} {g : Heap → Eval β}
    (hfg : ∀ h h', L.Alike h h' → L.Related R (f h) (g h')) :
    L.Related R (Eval.heap >>= f) (Eval.heap >>= g) :=
  fun s s' hs => hfg s.heap s'.heap hs.heap s s' hs

theorem depth {f : Nat → Eval α} {g : Nat → Eval β} (hfg : ∀ n, L.Related R (f n) (g n)) :
    L.Related R (Eval.depth >>= f) (Eval.depth >>= g) := by
  intro s s' hs
  rw [Eval.depth_bind_apply, Eval.depth_bind_apply, hs.depth]
  exact hfg _ s s' hs

theorem trace (on : Bool) (m : String) :
    L.Related (Same fun _ => True) (Eval.trace on m) (Eval.trace on m) := by
  intro s s' hs
  rw [Eval.trace_apply, Eval.trace_apply]
  exact .ok ⟨rfl, trivial⟩ (hs.traced on m)

theorem debug (m : String) : L.Related (Same fun _ => True) (Eval.debug m) (Eval.debug m) :=
  fun _ _ hs => .ok ⟨rfl, trivial⟩ (hs.record _)

theorem onHeap {g : Heap → α × Heap} {g' : Heap → β × Heap}
    (hg : ∀ h h', L.Alike h h' → R (g h).1 (g' h').1 ∧ L.Alike (g h).2 (g' h').2) :
    L.Related R (Eval.onHeap g) (Eval.onHeap g') := by
  intro s s' hs
  obtain ⟨hresult, hheap⟩ := hg _ _ hs.heap
  rw [Eval.onHeap_apply, Eval.onHeap_apply]
  have hs' : L.AlikeStates (s.mapHeap fun h => (g h).2) (s'.mapHeap fun h => (g' h).2) :=
    hs.mapHeap hheap
  exact .ok hresult hs'

theorem modifyHeap {g g' : Heap → Heap} (hg : ∀ h h', L.Alike h h' → L.Alike (g h) (g' h')) :
    L.Related (Same fun _ => True) (Eval.modifyHeap g) (Eval.modifyHeap g') :=
  fun _ _ hs => .ok ⟨rfl, trivial⟩ (hs.mapHeap (hg _ _ hs.heap))

theorem onWorld {g : World → Except Error α × World} (hg : ∀ w a, (g w).1 = .ok a → P a) :
    L.Related (Same P) (Eval.onWorld g) (Eval.onWorld g) := by
  intro s s' hs
  have hw := hg s.world
  simp only [Eval.onWorld, hs.world]
  cases hr : g s.world with
  | mk r w =>
    rw [hr] at hw
    have hs' : L.AlikeStates { s with world := w } { s' with world := w } :=
      ⟨hs.heap, hs.depth, rfl, hs.log⟩
    cases r with
    | error e => exact .error hs'
    | ok a => exact .ok ⟨rfl, hw a rfl⟩ hs'

theorem nested {maxDepth : Nat} {x : Eval α} {y : Eval β} (hxy : L.Related R x y) :
    L.Related R (Eval.nested maxDepth x) (Eval.nested maxDepth y) := by
  intro s s' hs
  rw [Eval.nested_apply, Eval.nested_apply, hs.depth]
  split
  · exact (hxy _ _ (hs.mapDepth _)).follow (fun a b t t' h ht => .ok h (ht.mapDepth _))
      fun t t' ht => ht.mapDepth _
  · exact .error hs

end Related

section

variable {ev ev' : Evaluator} {f f' : FrameId} {m m' : Option Mask} {name : String}

theorem force_related (hev : L.RelatedEvaluators ev ev') {p : PromiseId} (hp : L.promise p) :
    L.Related (Same L.value) (force ev p) (force ev' p) := by
  intro s s' hs
  have hpromise := hs.heap.promise p hp
  cases hv : (s.heap.promise p).value? with
  | some v =>
    rw [force_apply_of_value _ hv, force_apply_of_value _ (hpromise.value?.trans hv)]
    exact .ok ⟨rfl, hpromise.value v hv⟩ hs
  | none =>
    have hv' := hpromise.value?.trans hv
    cases hf : (s.heap.promise p).forcing with
    | true =>
      rw [force_apply_of_forcing _ hv hf,
        force_apply_of_forcing _ hv' (hpromise.forcing.trans hf)]
      exact .error hs
    | false =>
      rw [force_apply_of_pending _ ⟨hv, hf⟩,
        force_apply_of_pending _ ⟨hv', hpromise.forcing.trans hf⟩, hpromise.expr]
      refine (hev hpromise.place _ _ (hs.mapHeap (hs.heap.beginForce p))).follow ?_ ?_
      · rintro v _ t t' ⟨rfl, hvalue⟩ ht
        exact .ok ⟨rfl, hvalue⟩ (ht.mapHeap (ht.heap.finishForce p hvalue))
      · exact fun t t' ht => ht.mapHeap (ht.heap.abandonForce p)

theorem lookupVariable_eq_seek (ev : Evaluator) (name : String) (f : FrameId) (m : Option Mask) :
    lookupVariable ev name f m = Eval.heap >>= fun h =>
      match h.seek f m name with
      | some (.value v) => pure v
      | some (.promise p) => force ev p
      | some .missing => Eval.fail (.missingArgument name)
      | some (.dots _) => Eval.fail .dotsOutsideFunction
      | none =>
        Eval.fail (if name = dotsName then .dotsOutsideFunction else .undefinedVariable name) := by
  funext s
  unfold lookupVariable
  rw [Eval.heap_bind_apply]
  unfold Heap.seek
  cases Mask.find? m name with
  | some v => rfl
  | none => rfl

theorem Sight.frame (hs : L.Sees name f m f' m') : L.frame f := by
  cases hs with
  | same hf => exact hf
  | aside hf => exact hf

theorem lookupVariable_related (hev : L.RelatedEvaluators ev ev')
    (ht : L.place (.reference name) f m f' m') :
    L.Related (Same L.value) (lookupVariable ev name f m) (lookupVariable ev' name f' m') := by
  obtain ⟨hsight, hmask⟩ := L.sight ht
  rw [lookupVariable_eq_seek, lookupVariable_eq_seek]
  refine .heap fun h h' ha => ?_
  rw [ha.seek hsight]
  cases hb : h.seek f m name with
  | none => exact .fail _
  | some b =>
    have hbinding := ha.binding_of_seek (Sight.frame hsight) hmask hb
    cases b with
    | value v => exact .same hbinding
    | promise p => exact force_related hev hbinding
    | dots _ => exact .fail _
    | missing => exact .fail _

theorem findFunction_related (hev : L.RelatedEvaluators ev ev') (name : String)
    {chain : List FrameId} (hchain : ∀ g ∈ chain, L.frame g) :
    L.Related (Same L.value) (findFunction ev name chain)
      (findFunction ev' name (chain.map L.up)) := by
  induction chain with
  | nil => exact .fail _
  | cons g rest ih =>
    obtain ⟨hg, hrest⟩ := List.forall_mem_cons.1 hchain
    refine .heap fun h h' ha => ?_
    rw [ha.binding? hg]
    cases hb : h.binding? g name with
    | none => exact ih hrest
    | some b =>
      have hbinding := ha.bindings g hg name b hb
      cases b with
      | value v =>
        dsimp only
        split
        · exact .same hbinding
        · exact ih hrest
      | promise p =>
        refine (force_related hev hbinding).andThen fun v hv => ?_
        split
        · exact .same hv
        · exact ih hrest
      | dots _ => exact ih hrest
      | missing => exact ih hrest

theorem findFunction_aside (ev : Evaluator) {s : State} {b : Option Binding}
    {chain : List FrameId} (hb : s.heap.binding? f name = b)
    (hvalue : b = none ∨ ∃ v, b = some (.value v) ∧ v.isCallable = false) :
    findFunction ev name (f :: chain) s = findFunction ev name chain s := by
  rw [findFunction, Eval.heap_bind_apply, hb]
  obtain rfl | ⟨v, rfl, hv⟩ := hvalue
  · rfl
  · simp only [hv, Bool.false_eq_true, if_false]

theorem lookupFunction_related (hev : L.RelatedEvaluators ev ev')
    (ht : L.place (.reference name) f m f' m') :
    L.Related (Same L.value) (lookupFunction ev name f m) (lookupFunction ev' name f' m') := by
  obtain ⟨hsight, hmask⟩ := L.sight ht
  unfold lookupFunction
  cases hsight with
  | same hf hm =>
    rw [hm]
    cases hfind : (Mask.find? m name).filter Value.isCallable with
    | some v => exact .same (hmask v (Option.filter_eq_some_iff.1 hfind).1)
    | none =>
      refine .heap fun h h' ha => ?_
      rw [ha.chain hf]
      exact findFunction_related hev name (ha.frame_of_mem_chain hf)
  | aside hf hf' hm' hb =>
    rw [hm', Option.filter_none]
    change L.Related _ _ (Eval.heap >>= fun h => findFunction ev' name (h.chain f'))
    have hframes : ∀ s s', L.AlikeStates s s' → (∃ b, s'.heap.binding? f' name = b ∧
          (b = none ∨ ∃ v, b = some (.value v) ∧ v.isCallable = false)) →
        L.Ends (Same L.value) ((Eval.heap >>= fun h => findFunction ev name (h.chain f)) s)
          ((Eval.heap >>= fun h => findFunction ev' name (h.chain f')) s') := by
      rintro s s' hs ⟨b, hbinding, hskip⟩
      rw [Eval.heap_bind_apply, Eval.heap_bind_apply, hs.heap.chain_aside hf',
        findFunction_aside ev' hbinding hskip]
      exact findFunction_related hev name (hs.heap.frame_of_mem_chain hf) s s' hs
    cases hfind : Mask.find? m name with
    | none =>
      rw [hfind] at hb
      exact fun s s' hs => hframes s s' hs
        ⟨none, (hs.heap.binding?_aside hf').trans hb, .inl rfl⟩
    | some v =>
      rw [hfind] at hb
      cases hv : v.isCallable with
      | true =>
        rw [Option.filter_some, if_pos hv]
        intro s s' hs
        rw [Eval.heap_bind_apply, hs.heap.chain_aside hf', findFunction, Eval.heap_bind_apply,
          hs.heap.binding?_aside hf', hb]
        simp only [Option.map_some, hv, if_true]
        exact .ok ⟨rfl, hmask v hfind⟩ hs
      | false =>
        rw [Option.filter_some, if_neg (ne_true_of_eq_false hv)]
        exact fun s s' hs => hframes s s' hs
          ⟨_, (hs.heap.binding?_aside hf').trans hb, .inr ⟨v, rfl, hv⟩⟩

theorem resolveHead_related (hev : L.RelatedEvaluators ev ev') {head : Tree}
    (ht : L.place head f m f' m') :
    L.Related (Same L.value) (resolveHead ev head f m) (resolveHead ev' head f' m') := by
  unfold resolveHead
  split
  · exact lookupFunction_related hev ht
  · refine (hev ht).andThen fun v hv => ?_
    split
    · exact .same hv
    · exact .fail _

theorem visibleDots_related {t : Tree} (hdots : t.isDots = true) (ht : L.place t f m f' m') :
    L.Related (Same fun args => ∀ a ∈ args, L.promise a.val) (visibleDots f) (visibleDots f') := by
  rw [(Tree.isDots_iff t).1 hdots] at ht
  obtain ⟨hsight, -⟩ := L.sight ht
  refine .heap fun h h' ha => ?_
  rw [ha.dots? hsight]
  cases hargs : h.dots? f with
  | some args => exact .same (ha.promise_of_dots? (Sight.frame hsight) hargs)
  | none => exact .fail _

abbrev Items (L : Relocation eng) (items : List Item) : Prop := ∀ i ∈ items, L.value i.val

theorem forceAll_related (hev : L.RelatedEvaluators ev ev') {args : List (Named PromiseId)}
    (hargs : ∀ a ∈ args, L.promise a.val) :
    L.Related (Same L.Items) (forceAll ev args) (forceAll ev' args) := by
  induction args with
  | nil => exact .same nofun
  | cons a rest ih =>
    obtain ⟨ha, hrest⟩ := List.forall_mem_cons.1 hargs
    exact (force_related hev ha).andThen fun v hv => (ih hrest).andThen fun vs hvs =>
      .same (List.forall_mem_cons.2 ⟨hv, hvs⟩)

theorem evalSlot_related (hev : L.RelatedEvaluators ev ev') {slot : Slot}
    (ht : L.place slot.val f m f' m') :
    L.Related (Same L.Items) (evalSlot ev f m slot) (evalSlot ev' f' m' slot) := by
  unfold evalSlot
  split
  · rename_i hdots
    exact (visibleDots_related hdots ht).andThen fun args hargs => forceAll_related hev hargs
  · exact (hev ht).andThen fun v hv => .same (List.forall_mem_singleton.2 hv)

theorem evalSlots_related (hev : L.RelatedEvaluators ev ev') {args : List Slot}
    (hargs : ∀ slot ∈ args, L.place slot.val f m f' m') :
    L.Related (Same L.Items) (evalSlots ev f m args) (evalSlots ev' f' m' args) := by
  induction args with
  | nil => exact .same nofun
  | cons slot rest ih =>
    obtain ⟨hslot, hrest⟩ := List.forall_mem_cons.1 hargs
    exact (evalSlot_related hev hslot).andThen fun here hhere => (ih hrest).andThen
      fun there hthere => .same (List.forall_mem_append.2 ⟨hhere, hthere⟩)

theorem promiseSlot_related {slot : Slot} (ht : L.place slot.val f m f' m') :
    L.Related (Same fun args => ∀ a ∈ args, L.promise a.val) (promiseSlot f m slot)
      (promiseSlot f' m' slot) := by
  unfold promiseSlot
  split
  · rename_i hdots
    exact visibleDots_related hdots ht
  · refine Related.andThen (P := L.promise) (.onHeap fun h h' ha => ?_) fun p hp =>
      .same (List.forall_mem_singleton.2 hp)
    exact ⟨⟨ha.promises, ha.freshPromise _ (Nat.le_refl _)⟩, ha.newPromise ht⟩

theorem promiseSlots_related {args : List Slot} (hargs : ∀ slot ∈ args, L.place slot.val f m f' m') :
    L.Related (Same fun args => ∀ a ∈ args, L.promise a.val) (promiseSlots f m args)
      (promiseSlots f' m' args) := by
  induction args with
  | nil => exact .same nofun
  | cons slot rest ih =>
    obtain ⟨hslot, hrest⟩ := List.forall_mem_cons.1 hargs
    exact (promiseSlot_related hslot).andThen fun here hhere => (ih hrest).andThen
      fun there hthere => .same (List.forall_mem_append.2 ⟨hhere, hthere⟩)

theorem openFrame_related {c : Closure Tree} (hc : L.value (.closure c))
    {supplied : List (Named PromiseId)} (hs : ∀ a ∈ supplied, L.promise a.val) :
    L.Related (fun frame frame' => frame' = L.up frame ∧ L.frame frame) (openFrame c supplied)
      (openFrame c supplied) := by
  intro s s' hstates
  obtain ⟨henv, hup, -⟩ := L.closure hc
  rw [openFrame_apply, openFrame_apply]
  cases hm : matchArguments c.formals supplied with
  | error e =>
    exact .error (hstates.mapHeap (hstates.heap.newFrame true (congrArg some hup.symm)
      fun f hf => Option.some.inj hf ▸ henv))
  | ok matching =>
    obtain ⟨hslots, hdots⟩ := matchArguments_forall c.formals hs matching hm
    exact .ok ⟨hstates.heap.counts.next.symm, hstates.heap.fresh _ (Nat.le_refl _)⟩
      (hstates.mapHeap (hstates.heap.formals hc hslots hdots))

theorem mem_supplied_of_markedArguments {h : Heap} {supplied : List (Named PromiseId)}
    {P : PromiseId → Prop} (hs : ∀ a ∈ supplied, P a.val) :
    ∀ p ∈ markedArguments h supplied, P p := by
  intro p hp
  obtain ⟨a, ha, rfl⟩ := List.mem_map.1 (List.mem_of_mem_filter hp)
  exact hs a ha

theorem applyClosure_related (hev : L.RelatedEvaluators ev ev') {c : Closure Tree}
    (hc : L.value (.closure c)) {args : List Slot}
    (hargs : ∀ slot ∈ args, L.place slot.val f m f' m') :
    L.Related (Same L.value) (applyClosure eng ev c args f m)
      (applyClosure eng ev' c args f' m') := by
  refine (promiseSlots_related hargs).andThen fun supplied hs => .heap fun h h' ha => ?_
  have hbody := (L.closure hc).2.2.1
  rw [ha.markedArguments hs]
  refine (openFrame_related hc hs).bind ?_
  rintro frame _ ⟨rfl, hframe⟩
  refine .depth fun n => (Related.trace _ _).andThen fun _ _ => ?_
  refine (hev (L.body hbody hframe)).andThen fun v hv => .heap fun h₁ h₁' ha₁ => ?_
  rw [ha₁.uncapturedMarker? (mem_supplied_of_markedArguments hs)]
  split
  · exact .fail _
  · exact .same hv

theorem runBuiltin_related {b : Builtin} (hb : L.value (.builtin b)) {items : List Item}
    (hitems : L.Items items) :
    L.Related (Same L.value) (runBuiltin eng b items) (runBuiltin eng b items) :=
  .onWorld fun _ _ => L.builtin hb hitems

theorem apply_related [L.Specials] (hev : L.RelatedEvaluators ev ev') {func : Value}
    (hfunc : L.value func) {head : Tree} {args : List Slot}
    (ht : L.place (.call head args) f m f' m') :
    L.Related (Same L.value) (apply eng ev func args f m) (apply eng ev' func args f' m') := by
  have hargs := L.argument ht
  unfold apply
  split
  · exact (evalSlots_related hev hargs).andThen fun items hitems => runBuiltin_related hfunc hitems
  · exact Specials.special hev hfunc ht
  · exact applyClosure_related hev hfunc hargs
  · exact .fail _

theorem rejectExposed_related {t : Tree} (ht : L.place t f m f' m') :
    L.Related (Same fun _ => True) (rejectExposed t f m) (rejectExposed t f' m') := by
  refine .heap fun h h' ha => ?_
  rw [ha.exposed? ht]
  split
  · exact .fail _
  · exact .same trivial

theorem callHead_related (hev : L.RelatedEvaluators ev ev') {head : Tree} {args : List Slot}
    (ht : L.place (.call head args) f m f' m') :
    L.Related (Same L.value) (callHead ev head args f m) (callHead ev' head args f' m') := by
  intro s s' hs
  have hr := resolveHead_related hev (L.head ht) s s' hs
  rw [callHead_apply, callHead_apply]
  generalize resolveHead ev head f m s = r at hr
  generalize resolveHead ev' head f' m' s' = r' at hr
  cases hr with
  | ok h ht' => exact .ok h ht'
  | @error halt t t' hstates =>
    cases halt with
    | outOfFuel => exact .error hstates
    | failed e =>
      dsimp only
      rw [Heap.headFailure, Heap.headFailure, hstates.heap.exposed? ht]
      exact .error hstates

theorem rejectMarkers_related (func : Value) {t : Tree} (ht : L.place t f m f' m') :
    L.Related (Same fun _ => True) (rejectMarkers func t f m) (rejectMarkers func t f' m') := by
  unfold rejectMarkers
  split
  · exact rejectExposed_related ht
  · exact .same trivial

theorem evaluateCall_related [L.Specials] (hev : L.RelatedEvaluators ev ev') {head : Tree}
    {args : List Slot} (ht : L.place (.call head args) f m f' m') :
    L.Related (Same L.value) (evaluateCall eng ev head args f m)
      (evaluateCall eng ev' head args f' m') := by
  refine .depth fun n => (Related.trace _ _).andThen fun _ _ => ?_
  refine (callHead_related hev ht).andThen fun func hfunc => ?_
  exact (rejectMarkers_related func ht).andThen fun _ _ => apply_related hev hfunc ht

theorem evaluateStep_related [L.Specials] (hev : L.RelatedEvaluators ev ev') :
    L.RelatedEvaluators (evaluateStep eng ev) (evaluateStep eng ev') := by
  intro t f m f' m' ht
  cases t with
  | literal v => exact .same (L.literal ht)
  | reference name => exact lookupVariable_related hev ht
  | call head args => exact .nested (evaluateCall_related hev ht)
  | pairlist args =>
    exact (evalSlots_related hev (L.element ht)).andThen fun items hitems =>
      .same (L.list hitems)
  | unquote e => exact .fail _
  | splice e => exact .fail _
  | define n v => exact .fail _

end

/-- A run does the same in places that belong together. -/
theorem evaluate_related [L.Specials] (fuel : Nat) :
    L.RelatedEvaluators (evaluate eng fuel) (evaluate eng fuel) := by
  induction fuel with
  | zero => exact fun _ _ _ hs => .error hs
  | succ fuel ih => exact evaluateStep_related ih

end Quotation.Relocation

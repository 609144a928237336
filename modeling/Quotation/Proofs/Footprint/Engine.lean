import Quotation.Engine.Build
import Quotation.Proofs.Footprint.Specials
import Quotation.Proofs.Outcome
import Quotation.Proofs.Termination.Frames

namespace Quotation

structure Territory.Follows (R : Territory) (h h' : Heap) : Prop where
  conserves : h.Conserves h'
  owns : R.Owns h'

namespace Territory.Follows

variable {R : Territory} {h h' h'' : Heap}

theorem promises (hf : R.Follows h h') : h.promises.size ≤ h'.promises.size :=
  hf.conserves.promises

theorem refl (hR : R.Owns h) : R.Follows h h := ⟨.refl h, hR⟩

theorem trans (hf : R.Follows h h') (hf' : R.Follows h' h'') : R.Follows h h'' :=
  ⟨hf.conserves.trans hf'.conserves, hf'.owns⟩

theorem ofClosed (hR : R.Owns h) (hc : h.Conserves h') (hclosed : R.Closed h') : R.Follows h h' :=
  ⟨hc, hR.later hclosed hc.frames hc.promises⟩

theorem newFrame (hR : R.Owns h) {env : FrameId} (henv : R.frame env) (isCall : Bool) :
    R.Follows h (h.newFrame (some env) isCall).2 :=
  .ofClosed hR (.newFrame _ _ _) <|
    hR.newFrame (some env) isCall fun _ hf => Option.some.inj hf ▸ henv

theorem newPromise (hR : R.Owns h) {pr : Promise} (hpr : pr.Native R.frame) :
    R.Follows h (h.newPromise pr).2 := .ofClosed hR (.newPromise _ _) (hR.newPromise hpr)

theorem bind (hf : R.Follows h h') {f : FrameId} (hnew : h.frames.size ≤ f) (name : String)
    {b : Binding} (hb : b.Native R h'.promises.size) : R.Follows h (h'.bind f name b) :=
  ⟨hf.conserves.bind hnew name b,
    hf.owns.later (hf.owns.rebind f name fun _ => hb) (by simp) (by simp)⟩

theorem force (hR : R.Owns h) {p : PromiseId} (hp : (h.promise p).Pending)
    (hf : R.Follows (h.beginForce p) h') {k : Promise → Promise}
    (htree : ∀ q : Promise, q.KeepsTree (k q)) (hmark : ∀ q, (k q).forcing = false)
    (hk : (h'.promise p).Native R.frame → (k (h'.promise p)).Native R.frame) :
    R.Follows h (h'.modifyPromise p k) :=
  .ofClosed hR (hf.conserves.force hp htree hmark) (hf.owns.modifyPromise p hk)

end Territory.Follows

def Leaves {α : Type} (R : Territory) (s : State) (act : Eval α) (Q : Heap → α → Prop) : Prop :=
  (∃ a s', act s = .ok a s' ∧ R.Follows s.heap s'.heap ∧ Q s'.heap a) ∨
    ∃ e s', act s = .error e s' ∧ R.Follows s.heap s'.heap

namespace Leaves

variable {α β : Type} {R : Territory} {s : State} {Q Q' : Heap → α → Prop} {C : Heap → β → Prop}

theorem state {act : Eval α} (h : Leaves R s act Q) :
    R.Follows s.heap (Outcome.state (act s)).heap := by
  obtain ⟨a, s', hact, hs, -⟩ | ⟨e, s', hact, hs⟩ := h <;> rw [hact] <;> exact hs

theorem step {act : Eval α} {a : α} {s' : State} (hact : act s = .ok a s')
    (hs : R.Follows s.heap s'.heap) (ha : Q s'.heap a) : Leaves R s act Q :=
  .inl ⟨a, s', hact, hs, ha⟩

theorem pure {a : α} (hR : R.Owns s.heap) (ha : Q s.heap a) : Leaves R s (Pure.pure a) Q :=
  step rfl (.refl hR) ha

theorem fail (hR : R.Owns s.heap) (e : Error) : Leaves R s (Eval.fail e) Q :=
  .inr ⟨_, s, rfl, .refl hR⟩

theorem ofExcept {x : Except Error α} (hR : R.Owns s.heap) (hx : Gives (Q s.heap) x) :
    Leaves R s (Eval.ofExcept x) Q := by
  cases x with
  | error e => exact fail hR e
  | ok a => exact pure hR (hx a rfl)

theorem bind {act : Eval α} {f : α → Eval β} (hact : Leaves R s act Q)
    (hf : ∀ a s', R.Follows s.heap s'.heap → Q s'.heap a → Leaves R s' (f a) C) :
    Leaves R s (act >>= f) C := by
  obtain ⟨a, s', hrun, hs, ha⟩ | ⟨e, s', hrun, hs⟩ := hact
  · have hbind : (act >>= f) s = f a s' := by rw [Eval.bind_apply, hrun, Outcome.follow_ok_eval]
    obtain ⟨b, s'', hnext, hs', hb⟩ | ⟨e, s'', hnext, hs'⟩ := hf a s' hs ha
    · exact step (hbind.trans hnext) (hs.trans hs') hb
    · exact .inr ⟨e, s'', hbind.trans hnext, hs.trans hs'⟩
  · refine .inr ⟨e, s', ?_, hs⟩
    rw [Eval.bind_apply, hrun]
    rfl

theorem attempt {act : Eval α} (h : Leaves R s act Q) :
    Leaves R s act.attempt fun k r => ∀ a, r = .ok a → Q k a := by
  obtain ⟨a, s', hact, hs, ha⟩ | ⟨e, s', hact, hs⟩ := h
  · refine step (a := .ok a) ?_ hs fun b hb => Except.ok.inj hb ▸ ha
    rw [Eval.attempt_apply, hact]
  · cases e with
    | failed e =>
      refine step (a := .error e) ?_ hs fun b hb => nomatch hb
      rw [Eval.attempt_apply, hact]
    | outOfFuel =>
      refine .inr ⟨.outOfFuel, s', ?_, hs⟩
      rw [Eval.attempt_apply, hact]

theorem heap {f : Heap → Eval β} (h : Leaves R s (f s.heap) C) : Leaves R s (Eval.heap >>= f) C := h

theorem depth {f : Nat → Eval β} (h : Leaves R s (f s.depth) C) :
    Leaves R s (Eval.depth >>= f) C := h

theorem debug (hR : R.Owns s.heap) (m : String) : Leaves R s (Eval.debug m) fun _ _ => True :=
  step (Eval.debug_apply m s) (.refl hR) trivial

theorem trace (hR : R.Owns s.heap) (on : Bool) (m : String) :
    Leaves R s (Eval.trace on m) fun _ _ => True := by
  refine step (Eval.trace_apply on m s) ?_ trivial
  rw [State.heap_traced]
  exact .refl hR

theorem onHeap {g : Heap → α × Heap} (hg : R.Follows s.heap (g s.heap).2)
    (ha : Q (g s.heap).2 (g s.heap).1) : Leaves R s (Eval.onHeap g) Q :=
  step (Eval.onHeap_apply g s) hg ha

theorem onWorld {g : World → Except Error α × World} (hR : R.Owns s.heap)
    (hg : Gives (Q s.heap) (g s.world).1) : Leaves R s (Eval.onWorld g) Q := by
  cases hr : g s.world with
  | mk x w =>
    rw [hr] at hg
    cases x with
    | error e =>
      have hrun : Eval.onWorld g s = .error (.failed e) { s with world := w } := by
        simp only [Eval.onWorld, hr]
      exact .inr ⟨_, _, hrun, .refl hR⟩
    | ok a =>
      have hrun : Eval.onWorld g s = .ok a { s with world := w } := by simp only [Eval.onWorld, hr]
      exact step hrun (.refl hR) (hg a rfl)

theorem follow {act act' : Eval α} {s₀ : State} {k : α → State → State} {j : State → State}
    (h : Leaves R s₀ act Q)
    (hact : act' s = Outcome.follow (act s₀) (fun a t => .ok a (k a t)) j)
    (hok : ∀ a t, R.Follows s₀.heap t.heap → Q t.heap a →
      R.Follows s.heap (k a t).heap ∧ Q' (k a t).heap a)
    (herr : ∀ t, R.Follows s₀.heap t.heap → R.Follows s.heap (j t).heap) :
    Leaves R s act' Q' := by
  obtain ⟨a, t, hrun, hs, ha⟩ | ⟨e, t, hrun, hs⟩ := h
  · obtain ⟨hs', ha'⟩ := hok a t hs ha
    rw [hrun] at hact
    exact step hact hs' ha'
  · rw [hrun] at hact
    exact .inr ⟨e, j t, hact, herr t hs⟩

theorem nested {act : Eval α} {maxDepth : Nat} (hR : R.Owns s.heap)
    (h : Leaves R (s.mapDepth (· + 1)) act Q) : Leaves R s (Eval.nested maxDepth act) Q := by
  by_cases hd : s.depth < maxDepth
  · refine follow (k := fun _ t => t.mapDepth (· - 1)) (j := fun t => t.mapDepth (· - 1)) h ?_
      (fun a t ht ha => ⟨ht, ha⟩) fun t ht => ht
    rw [Eval.nested_apply, if_pos hd]
  · exact .inr ⟨_, s, (Eval.nested_apply _ _ s).trans (if_neg hd), .refl hR⟩

end Leaves

namespace Territory

variable {R : Territory} {eng : Engine} {ev : Evaluator} {s : State} {env : FrameId}
  {mask : Option Mask}

abbrev GivesValue (R : Territory) (s : State) (act : Eval Value) : Prop :=
  Leaves R s act fun _ v => v.Native R.frame

abbrev GivesTree (R : Territory) (s : State) (act : Eval Tree) : Prop :=
  Leaves R s act fun _ t => t.Native R.frame

abbrev GivesItems (R : Territory) (s : State) (act : Eval (List Item)) : Prop :=
  Leaves R s act fun _ items => Item.AllNative R.frame items

abbrev GivesSlots (R : Territory) (s : State) (act : Eval (List Slot)) : Prop :=
  Leaves R s act fun _ slots => Slot.AllNative R.frame slots

def HasPromises (R : Territory) (h : Heap) (args : List (Named PromiseId)) : Prop :=
  ∀ a ∈ args, R.promise a.val ∧ a.val < h.promises.size

theorem HasPromises.later {h h' : Heap} {args : List (Named PromiseId)}
    (hargs : R.HasPromises h args) (hf : R.Follows h h') : R.HasPromises h' args :=
  fun a ha => ⟨(hargs a ha).1, Nat.lt_of_lt_of_le (hargs a ha).2 hf.promises⟩

def Evaluates (R : Territory) (ev : Evaluator) : Prop :=
  ∀ s t env mask, R.Owns s.heap → t.Native R.frame → Located R.frame env mask →
    R.GivesValue s (ev t env mask)

section

variable (hev : R.Evaluates ev)

include hev

theorem force (hR : R.Owns s.heap) {p : PromiseId} (hp : R.promise p)
    (hsize : p < s.heap.promises.size) : R.GivesValue s (force ev p) := by
  have hnative := hR.promises p hsize hp
  cases hv : (s.heap.promise p).value? with
  | some v => exact .step (force_apply_of_value ev hv) (.refl hR) (hnative.value v hv)
  | none =>
    cases hf : (s.heap.promise p).forcing with
    | true => exact .inr ⟨_, s, force_apply_of_forcing ev hv hf, .refl hR⟩
    | false =>
      have hpending : (s.heap.promise p).Pending := ⟨hv, hf⟩
      have hbegin : R.Owns (s.mapHeap (·.beginForce p)).heap := by
        have hclosed : R.Closed (s.heap.beginForce p) :=
          hR.modifyPromise p fun h => ⟨h.expr, h.env, h.mask, h.value⟩
        exact hR.later hclosed (Nat.le_refl _) (by simp [State.mapHeap, Heap.beginForce])
      refine (hev _ _ _ _ hbegin hnative.expr ⟨hnative.env, hnative.mask⟩).follow
        (force_apply_of_pending ev hpending) (fun v t ht hv => ⟨?_, hv⟩) fun t ht => ?_
      · refine ht.force hR hpending (fun _ => ⟨rfl, rfl, rfl, id⟩) (fun _ => rfl) fun h => ?_
        refine ⟨h.expr, h.env, h.mask, fun w hw => ?_⟩
        cases hw
        exact hv
      · refine ht.force hR hpending (fun _ => ⟨rfl, rfl, rfl, id⟩) (fun _ => rfl) fun h => ?_
        exact ⟨h.expr, h.env, h.mask, h.value⟩

theorem lookupVariable (hR : R.Owns s.heap) (hplace : Located R.frame env mask) (name : String) :
    R.GivesValue s (lookupVariable ev name env mask) := by
  unfold Quotation.lookupVariable
  cases hm : Mask.find? mask name with
  | some v => exact .pure hR (hplace.mask name v hm)
  | none =>
    refine .heap ?_
    cases hb : s.heap.lookup env name with
    | none => exact .fail hR _
    | some b =>
      have hnative := hR.lookup hplace.env hb
      cases b with
      | value v => exact .pure hR hnative
      | promise p => exact force hev hR hnative.1 hnative.2
      | dots args => exact .fail hR _
      | missing => exact .fail hR _

theorem findFunction (hR : R.Owns s.heap) (name : String) {chain : List FrameId}
    (hchain : ∀ f ∈ chain, R.frame f) : R.GivesValue s (findFunction ev name chain) := by
  induction chain generalizing s with
  | nil => exact .fail hR _
  | cons f rest ih =>
    obtain ⟨hf, hrest⟩ := List.forall_mem_cons.1 hchain
    refine .heap ?_
    cases hb : s.heap.binding? f name with
    | none => exact ih hR hrest
    | some b =>
      have hnative := hR.bindings f hf name b hb
      cases b with
      | value v =>
        dsimp only
        split
        · exact .pure hR hnative
        · exact ih hR hrest
      | promise p =>
        refine .bind (force hev hR hnative.1 hnative.2) fun v s₁ h₁ hv => ?_
        split
        · exact .pure h₁.owns hv
        · exact ih h₁.owns hrest
      | dots args => exact ih hR hrest
      | missing => exact ih hR hrest

theorem resolveHead (hR : R.Owns s.heap) {head : Tree} (hhead : head.Native R.frame)
    (hplace : Located R.frame env mask) : R.GivesValue s (resolveHead ev head env mask) := by
  have hother : R.GivesValue s (do
      let v ← ev head env mask
      if v.isCallable then return v else Eval.fail (.notCallable v.typeName)) := by
    refine .bind (hev s head env mask hR hhead hplace) fun v s₁ h₁ hv => ?_
    split
    · exact .pure h₁.owns hv
    · exact .fail h₁.owns _
  cases head with
  | reference name =>
    simp only [Quotation.resolveHead, lookupFunction]
    cases hm : (Mask.find? mask name).filter Value.isCallable with
    | some v =>
      have hfind := Option.eq_some_of_filter_eq_some hm
      exact .pure hR (hplace.mask name v hfind)
    | none => exact .heap (findFunction hev hR name (hR.chain hplace.env))
  | literal | call | pairlist | unquote | splice | define => exact hother

theorem callHead (hR : R.Owns s.heap) {head : Tree} (hhead : head.Native R.frame) (args : List Slot)
    (hplace : Located R.frame env mask) : R.GivesValue s (callHead ev head args env mask) := by
  have hrun := callHead_apply ev head args env mask s
  obtain ⟨v, s', hok, hs, hv⟩ | ⟨e, s', herr, hs⟩ := resolveHead hev hR hhead hplace
  · rw [hok] at hrun
    exact .step hrun hs hv
  · rw [herr] at hrun
    cases e with
    | failed e => exact .inr ⟨_, s', hrun, hs⟩
    | outOfFuel => exact .inr ⟨_, s', hrun, hs⟩

theorem resolveUnquote (hR : R.Owns s.heap) {e : Tree} (he : e.Native R.frame)
    (hplace : Located R.frame env mask) : R.GivesTree s (resolveUnquote eng ev e env mask) := by
  refine .bind (hev s e env mask hR he hplace) fun v s₁ h₁ hv => ?_
  have hconvert := (hereditary_native R.frame).treeOfValue hv
  refine .bind (Q := fun _ t => t.Native R.frame) (.ofExcept h₁.owns hconvert) fun t s₂ h₂ ht => ?_
  exact .bind (.trace h₂.owns _ _) fun _ s₃ h₃ _ => .pure h₃.owns ht

theorem resolveSplice (hR : R.Owns s.heap) {e : Tree} (he : e.Native R.frame)
    (hplace : Located R.frame env mask) : R.GivesSlots s (resolveSplice eng ev e env mask) := by
  refine .bind (hev s e env mask hR he hplace) fun v s₁ h₁ hv => ?_
  have hconvert := ((hereditary_native R.frame).slotsOfSequence hv).mono fun _ =>
    Slot.allNative_iff.2
  refine .bind (Q := fun _ slots => Slot.AllNative R.frame slots) (.ofExcept h₁.owns hconvert)
    fun slots s₂ h₂ hslots => ?_
  exact .bind (.trace h₂.owns _ _) fun _ s₃ h₃ _ => .pure h₃.owns hslots

theorem resolveName (hR : R.Owns s.heap) {n : Tree} (hn : n.Native R.frame)
    (hplace : Located R.frame env mask) :
    Leaves R s (resolveName ev n env mask) fun _ _ => True :=
  .bind (hev s n env mask hR hn hplace) fun _ _ h₁ _ => .ofExcept h₁.owns (.trivial _)

theorem resolve_parts (hplace : Located R.frame env mask) :
    (∀ t s, R.Owns s.heap → t.Native R.frame → R.GivesTree s (resolveTree eng ev env mask t)) ∧
      (∀ l s, R.Owns s.heap → Slot.AllNative R.frame l →
        R.GivesSlots s (resolveSlots eng ev env mask l)) ∧
      ∀ slot s, R.Owns s.heap → slot.val.Native R.frame →
        R.GivesSlots s (resolveSlot eng ev env mask slot) := by
  refine resolveTree.mutual_induct _ _ _ ?literal ?reference ?call ?finishedCall ?pairlist
    ?finishedPairlist ?unquote ?splice ?define ?nil ?cons ?spliceSlot ?defineSplice ?defineSlot
    ?plainSlot
  case literal => exact fun v s hR hv => .pure hR hv
  case reference => exact fun name s hR _ => .pure hR trivial
  case call =>
    intro head args hm hhead hargs s hR ht
    simp only [resolveTree, hm, if_true]
    refine .nested hR ?_
    refine .bind (hhead _ hR ht.1) fun head s₁ h₁ hhead => ?_
    exact .bind (hargs s₁ h₁.owns ht.2) fun args s₂ h₂ hargs => .pure h₂.owns ⟨hhead, hargs⟩
  case finishedCall =>
    intro head args hm s hR ht
    simp only [resolveTree, hm]
    exact .pure hR ht
  case pairlist =>
    intro args hm hargs s hR ht
    simp only [resolveTree, hm, if_true]
    exact .nested hR (.bind (hargs _ hR ht) fun args s₁ h₁ hargs => .pure h₁.owns hargs)
  case finishedPairlist =>
    intro args hm s hR ht
    simp only [resolveTree, hm]
    exact .pure hR ht
  case unquote => exact fun e s hR he => resolveUnquote hev hR he hplace
  case splice => exact fun _ s hR _ => .fail hR _
  case define => exact fun _ _ s hR _ => .fail hR _
  case nil => exact fun s hR _ => .pure hR trivial
  case cons =>
    intro slot rest hhere hthere s hR hl
    refine .bind (hhere s hR hl.1) fun here s₁ h₁ hhere => ?_
    exact .bind (hthere s₁ h₁.owns hl.2) fun there s₂ h₂ hthere =>
      .pure h₂.owns (hhere.append hthere)
  case spliceSlot => exact fun _ e s hR he => resolveSplice hev hR he hplace
  case defineSplice =>
    intro _ n e s hR ht
    refine .bind (resolveName hev hR ht.1 hplace) fun name s₁ h₁ _ => ?_
    exact .bind (resolveSplice hev h₁.owns ht.2 hplace) fun l s₂ h₂ hl =>
      .pure h₂.owns (hl.nameOr name)
  case defineSlot =>
    intro _ n v hsplice hv s hR ht
    simp only [resolveSlot.eq_3 _ _ _ _ _ _ _ hsplice]
    refine .bind (resolveName hev hR ht.1 hplace) fun name s₁ h₁ _ => ?_
    exact .bind (hv s₁ h₁.owns ht.2) fun t s₂ h₂ ht => .pure h₂.owns ⟨ht, trivial⟩
  case plainSlot =>
    intro name t h₁ h₂ h₃ ih s hR ht
    simp only [resolveSlot.eq_4 _ _ _ _ _ _ h₁ h₂ h₃]
    exact .bind (ih s hR ht) fun t s₁ h₁ ht => .pure h₁.owns ⟨ht, trivial⟩

theorem resolve (hR : R.Owns s.heap) {t : Tree} (ht : t.Native R.frame)
    (hplace : Located R.frame env mask) : R.GivesTree s (resolve eng ev t env mask) :=
  .bind (.debug hR _) fun _ s₁ h₁ _ => (resolve_parts hev hplace).1 t s₁ h₁.owns ht

omit hev in
theorem visibleDots (hR : R.Owns s.heap) (henv : R.frame env) :
    Leaves R s (visibleDots env) R.HasPromises := by
  refine .heap ?_
  cases hdots : s.heap.dots? env with
  | none => exact .fail hR _
  | some args => exact .pure hR (hR.lookup henv (Heap.lookup_of_dots? hdots))

theorem forceAll (hR : R.Owns s.heap) {args : List (Named PromiseId)}
    (hargs : R.HasPromises s.heap args) : R.GivesItems s (forceAll ev args) := by
  induction args generalizing s with
  | nil => exact .pure hR trivial
  | cons a rest ih =>
    obtain ⟨ha, hrest⟩ := List.forall_mem_cons.1 hargs
    refine .bind (force hev hR ha.1 ha.2) fun v s₁ h₁ hv => ?_
    have hrest₁ : R.HasPromises s₁.heap rest := HasPromises.later hrest h₁
    exact .bind (ih h₁.owns hrest₁) fun vs s₂ h₂ hvs => .pure h₂.owns ⟨hv, hvs⟩

theorem evalSlot (hR : R.Owns s.heap) {slot : Slot} (hslot : slot.val.Native R.frame)
    (hplace : Located R.frame env mask) : R.GivesItems s (evalSlot ev env mask slot) := by
  unfold Quotation.evalSlot
  split
  · exact .bind (visibleDots hR hplace.env) fun args s₁ h₁ hargs => forceAll hev h₁.owns hargs
  · exact .bind (hev s _ env mask hR hslot hplace) fun v s₁ h₁ hv => .pure h₁.owns ⟨hv, trivial⟩

theorem evalSlots (hR : R.Owns s.heap) {args : List Slot} (hargs : Slot.AllNative R.frame args)
    (hplace : Located R.frame env mask) : R.GivesItems s (evalSlots ev env mask args) := by
  induction args generalizing s with
  | nil => exact .pure hR trivial
  | cons slot rest ih =>
    refine .bind (evalSlot hev hR hargs.1 hplace) fun here s₁ h₁ hhere => ?_
    exact .bind (ih h₁.owns hargs.2) fun there s₂ h₂ hthere =>
      .pure h₂.owns (hhere.append hthere)

theorem spliceItems (hR : R.Owns s.heap) {e : Tree} (he : e.Native R.frame)
    (hplace : Located R.frame env mask) : R.GivesItems s (spliceItems ev e env mask) :=
  .bind (hev s e env mask hR he hplace) fun _ _ h₁ hv => .ofExcept h₁.owns <|
    ((hereditary_native R.frame).itemsOfSequence hv).mono fun _ => Item.allNative_iff.2

theorem evalInjected (hR : R.Owns s.heap) {t : Tree} (ht : t.Native R.frame)
    (hplace : Located R.frame env mask) : R.GivesValue s (evalInjected eng ev env mask t) := by
  have hother : R.GivesValue s (if t.hasMarkers = true then
      Quotation.resolve eng ev t env mask >>= fun t => ev t env mask else ev t env mask) := by
    split
    · exact .bind (resolve hev hR ht hplace) fun t s₁ h₁ ht => hev s₁ t env mask h₁.owns ht hplace
    · exact hev s t env mask hR ht hplace
  cases t with
  | unquote e => exact hev s e env mask hR ht hplace
  | literal | reference | call | pairlist | splice | define => exact hother

theorem evalDynamicSlot (hR : R.Owns s.heap) {slot : Slot} (hslot : slot.val.Native R.frame)
    (hplace : Located R.frame env mask) :
    R.GivesItems s (evalDynamicSlot eng ev env mask slot) := by
  unfold Quotation.evalDynamicSlot
  split
  · rename_i e heq
    rw [heq] at hslot
    exact spliceItems hev hR hslot hplace
  · rename_i n v heq
    rw [heq] at hslot
    refine .bind (resolveName hev hR hslot.1 hplace) fun name s₁ h₁ _ => ?_
    cases hsplice : v.spliced? with
    | some e =>
      have he : e.Native R.frame := by
        cases v <;> cases hsplice
        exact hslot.2
      exact .bind (spliceItems hev h₁.owns he hplace) fun items s₂ h₂ hitems =>
        .pure h₂.owns (hitems.nameOr name)
    | none =>
      exact .bind (evalInjected hev h₁.owns hslot.2 hplace) fun v s₂ h₂ hv =>
        .pure h₂.owns ⟨hv, trivial⟩
  · split
    · exact evalSlot hev hR hslot hplace
    · exact .bind (evalInjected hev hR hslot hplace) fun v s₁ h₁ hv => .pure h₁.owns ⟨hv, trivial⟩

theorem evalDynamicSlots (hR : R.Owns s.heap) {args : List Slot}
    (hargs : Slot.AllNative R.frame args) (hplace : Located R.frame env mask) :
    R.GivesItems s (evalDynamicSlots eng ev env mask args) := by
  induction args generalizing s with
  | nil => exact .pure hR trivial
  | cons slot rest ih =>
    refine .bind (evalDynamicSlot hev hR hargs.1 hplace) fun here s₁ h₁ hhere => ?_
    exact .bind (ih h₁.owns hargs.2) fun there s₂ h₂ hthere =>
      .pure h₂.owns (hhere.append hthere)

omit hev

theorem capturePromise (hR : R.Owns s.heap) {p : PromiseId} (hp : R.promise p)
    (hsize : p < s.heap.promises.size) :
    Leaves R s (capturePromise p) fun _ c => c.Native R.frame := by
  have hnative := hR.promises p hsize hp
  have hclosed : R.Closed (s.heap.markCaptured p) :=
    hR.modifyPromise p fun h => ⟨h.expr, h.env, h.mask, h.value⟩
  exact .onHeap (.ofClosed hR (.markCaptured _ p) hclosed) ⟨hnative.expr, hnative.env⟩

theorem captureAll (hR : R.Owns s.heap) {args : List (Named PromiseId)}
    (hargs : R.HasPromises s.heap args) :
    Leaves R s (captureAll args) fun _ cs => CapturesNative R.frame cs := by
  induction args generalizing s with
  | nil => exact .pure hR fun _ h => nomatch h
  | cons a rest ih =>
    obtain ⟨ha, hrest⟩ := List.forall_mem_cons.1 hargs
    refine .bind (capturePromise hR ha.1 ha.2) fun c s₁ h₁ hc => ?_
    have hrest₁ : R.HasPromises s₁.heap rest := HasPromises.later hrest h₁
    exact .bind (ih h₁.owns hrest₁) fun cs s₂ h₂ hcs =>
      .pure h₂.owns (List.forall_mem_cons.2 ⟨hc, hcs⟩)

theorem captureParameter (hR : R.Owns s.heap) (henv : R.frame env) (name : String) :
    Leaves R s (captureParameter env name) fun _ c => c.Native R.frame := by
  refine .bind (.debug hR _) fun _ s₁ h₁ _ => .heap ?_
  cases hf : s₁.heap.callFrame? env with
  | none => exact .fail h₁.owns _
  | some f =>
    dsimp only
    split
    · rename_i p hb
      have hp := h₁.owns.bindings f (h₁.owns.callFrame henv hf) name _ hb
      exact capturePromise h₁.owns hp.1 hp.2
    all_goals exact .fail h₁.owns _

theorem captureDots (hR : R.Owns s.heap) (henv : R.frame env) :
    Leaves R s (captureDots env) fun _ cs => CapturesNative R.frame cs := by
  refine .bind (.debug hR _) fun _ s₁ h₁ _ => .heap ?_
  cases hf : s₁.heap.callFrame? env with
  | none => exact .fail h₁.owns _
  | some f =>
    dsimp only
    split
    · rename_i args hb
      exact captureAll h₁.owns (h₁.owns.bindings f (h₁.owns.callFrame henv hf) dotsName _ hb)
    · exact .fail h₁.owns _

theorem promiseSlot (hR : R.Owns s.heap) {slot : Slot} (hslot : slot.val.Native R.frame)
    (hplace : Located R.frame env mask) :
    Leaves R s (promiseSlot env mask slot) R.HasPromises := by
  unfold Quotation.promiseSlot
  split
  · exact visibleDots hR hplace.env
  · have hpr : Promise.Native R.frame { expr := slot.val, env, mask } :=
      ⟨hslot, hplace.env, hplace.mask, fun _ h => nomatch h⟩
    refine .bind (Q := fun h p => R.promise p ∧ p < h.promises.size)
      (.onHeap (.newPromise hR hpr) ⟨hR.newPromises _ (Nat.le_refl _), ?_⟩)
      fun p s₁ h₁ hp => .pure h₁.owns (List.forall_mem_singleton.2 hp)
    simp

theorem promiseSlots (hR : R.Owns s.heap) {args : List Slot} (hargs : Slot.AllNative R.frame args)
    (hplace : Located R.frame env mask) :
    Leaves R s (promiseSlots env mask args) R.HasPromises := by
  induction args generalizing s with
  | nil => exact .pure hR fun _ h => nomatch h
  | cons slot rest ih =>
    refine .bind (promiseSlot hR hargs.1 hplace) fun here s₁ h₁ hhere => ?_
    refine .bind (ih h₁.owns hargs.2) fun there s₂ h₂ hthere => .pure h₂.owns ?_
    exact List.forall_mem_append.2 ⟨hhere.later h₂, hthere⟩

theorem bindMatching (hR : R.Owns s.heap) {c : Closure Tree}
    (hc : (Value.closure c).Native R.frame) {m : Matching}
    (hslots : ∀ p, some p ∈ m.slots → R.promise p ∧ p < s.heap.promises.size)
    (hdots : ∀ args, m.dots = some args → R.HasPromises s.heap args) :
    R.Follows s.heap (bindMatching s.heap.frames.size c.formals m
      (s.heap.newFrame (some c.env) true).2) := by
  have hnew : s.heap.frames.size ≤ s.heap.frames.size := Nat.le_refl _
  refine Heap.bindMatching_induction (P := R.Follows s.heap) (T := Tree.Native R.frame)
    (Q := fun p => R.promise p ∧ p < s.heap.promises.size) ?_ ?_ ?_ ?_
    (Formal.allNative_iff.1 hc.1) hslots hdots (.newFrame hR hc.2.2 true)
  · intro h name p hf hp
    exact hf.bind hnew name ⟨hp.1, Nat.lt_of_lt_of_le hp.2 hf.promises⟩
  · intro h name t hf ht
    have hpr : Promise.Native R.frame { expr := t, env := s.heap.frames.size, mask := none } :=
      ⟨ht, hR.newFrames _ hnew, Mask.native_none, fun _ h => nomatch h⟩
    refine (hf.trans (.newPromise hf.owns hpr)).bind hnew name ⟨?_, by simp⟩
    exact hf.owns.newPromises _ (Nat.le_refl _)
  · exact fun h name hf => hf.bind hnew name trivial
  · exact fun h args hf hargs => hf.bind hnew dotsName (HasPromises.later hargs hf)

theorem openFrame (hR : R.Owns s.heap) {c : Closure Tree} (hc : (Value.closure c).Native R.frame)
    {supplied : List (Named PromiseId)} (hsupplied : R.HasPromises s.heap supplied) :
    Leaves R s (openFrame c supplied) fun _ f => R.frame f := by
  have hrun := openFrame_apply c supplied s
  have hmatch := matchArguments_forall (P := fun p => R.promise p ∧ p < s.heap.promises.size)
    c.formals hsupplied
  cases hm : matchArguments c.formals supplied with
  | error e =>
    rw [hm] at hrun
    exact .inr ⟨_, _, hrun, .newFrame hR hc.2.2 true⟩
  | ok m =>
    rw [hm] at hrun
    obtain ⟨hslots, hdots⟩ := hmatch m hm
    exact .step hrun (bindMatching hR hc hslots hdots) (hR.newFrames _ (Nat.le_refl _))

include hev

theorem applyClosure (hR : R.Owns s.heap) {c : Closure Tree}
    (hc : (Value.closure c).Native R.frame) {args : List Slot}
    (hargs : Slot.AllNative R.frame args) (hplace : Located R.frame env mask) :
    R.GivesValue s (applyClosure eng ev c args env mask) := by
  refine .bind (promiseSlots hR hargs hplace) fun supplied s₁ h₁ hsupplied => .heap ?_
  refine .bind (openFrame h₁.owns hc hsupplied) fun frame s₂ h₂ hframe => .depth ?_
  refine .bind (.trace h₂.owns _ _) fun _ s₃ h₃ _ => ?_
  refine .bind (hev s₃ c.body frame none h₃.owns hc.2.1 (.unmasked hframe))
    fun v s₄ h₄ hv => .heap ?_
  split
  · exact .fail h₄.owns _
  · exact .pure h₄.owns hv

theorem answer (hR : R.Owns s.heap) {d : Demand} (hd : d.Native R.frame) :
    Leaves R s (answer eng ev d) fun _ a => d.AnswerNative R.frame a := by
  cases d with
  | evaluate t env mask => exact hev s t env mask hR hd.1 hd.2
  | force p => exact hd.elim
  | arguments args env mask => exact evalDynamicSlots hev hR (Slot.allNative_iff.2 hd.1) hd.2
  | resolve t env mask => exact resolve hev hR hd.1 hd.2
  | capture env name => exact captureParameter hR hd name
  | captureDots env => exact captureDots hR hd
  | perform name args => exact hd.elim

theorem runRoutine {α : Type} {good : α → Prop} (hR : R.Owns s.heap) {r : Routine α}
    (hr : r.Asks R.frame good) : Leaves R s (runRoutine eng ev r) fun _ a => good a := by
  induction r generalizing s with
  | done a => exact .pure hR hr
  | fail e => exact .fail hR e
  | ask d next ih =>
    refine .bind (answer hev hR hr.1).attempt fun r s₁ h₁ ha => ?_
    exact ih r h₁.owns (hr.2 r ha)
  | _ => exact hr.elim

theorem apply (hR : R.Owns s.heap) {func : Value} (hfunc : func.Native R.frame) {args : List Slot}
    (hargs : Slot.AllNative R.frame args) (hplace : Located R.frame env mask) :
    R.GivesValue s (apply eng ev func args env mask) := by
  unfold Quotation.apply
  cases func with
  | builtin b =>
    refine .bind (evalSlots hev hR hargs hplace) fun items s₁ h₁ hitems => .onWorld h₁.owns ?_
    exact b.op.run_native eng.host.builtin hfunc (Item.allNative_iff.1 hitems) s₁.world
  | special sp =>
    have hcall : SpecialCall.Native R.frame ⟨args, env, mask⟩ :=
      ⟨Slot.allNative_iff.1 hargs, hplace⟩
    exact runRoutine hev hR (Special.Op.routine_asks eng.host.special hfunc hcall)
  | closure c => exact applyClosure hev hR hfunc hargs hplace
  | _ => exact .fail hR _

omit hev in
theorem rejectMarkers (hR : R.Owns s.heap) (func : Value) (t : Tree) :
    Leaves R s (rejectMarkers func t env mask) fun _ _ => True := by
  unfold Quotation.rejectMarkers
  split
  · refine .heap ?_
    split
    · exact .fail hR _
    · exact .pure hR trivial
  · exact .pure hR trivial

theorem evaluateCall (hR : R.Owns s.heap) {head : Tree} {args : List Slot}
    (ht : (Tree.call head args).Native R.frame) (hplace : Located R.frame env mask) :
    R.GivesValue s (evaluateCall eng ev head args env mask) := by
  refine .depth (.bind (.trace hR _ _) fun _ s₁ h₁ _ => ?_)
  refine .bind (callHead hev h₁.owns ht.1 args hplace) fun func s₂ h₂ hfunc => ?_
  refine .bind (rejectMarkers h₂.owns func _) fun _ s₃ h₃ _ => ?_
  exact apply hev h₃.owns hfunc ht.2 hplace

theorem evaluateStep (hR : R.Owns s.heap) {t : Tree} (ht : t.Native R.frame)
    (hplace : Located R.frame env mask) : R.GivesValue s (evaluateStep eng ev t env mask) := by
  cases t with
  | literal v => exact .pure hR ht
  | reference name => exact lookupVariable hev hR hplace name
  | call head args => exact .nested hR (evaluateCall hev (s := s.mapDepth (· + 1)) hR ht hplace)
  | pairlist args =>
    exact .bind (evalSlots hev hR ht hplace) fun items s₁ h₁ hitems => .pure h₁.owns hitems
  | unquote | splice | define => exact .fail hR _

end

theorem evaluates (R : Territory) (eng : Engine) (fuel : Nat) :
    R.Evaluates (evaluate eng fuel) := by
  induction fuel with
  | zero => exact fun s t env mask hR _ _ => .inr ⟨_, s, rfl, .refl hR⟩
  | succ fuel ih => exact fun s t env mask hR ht hplace => evaluateStep ih hR ht hplace

end Territory

end Quotation

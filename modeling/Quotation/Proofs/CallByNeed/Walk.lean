import Quotation.Proofs.CallByNeed.Calls
import Quotation.Proofs.CallByNeed.Variant

/-! Evaluation against meaning. What a computation gives is what is meant, and what has a meaning is
given. The first holds of any run. For the second, there have to be enough fuel and enough levels,
and no promise under evaluation may be asked for: that is so as long as none of them has a meaning
yet, at the fuel that the meaning in question takes. -/

namespace Quotation.Ground

variable {G : Ground} {eng : Engine} {limit fuel slack : Nat} {bounded : Prop}
  {σ σ' : FrameId → Scope} {s s' : State} {α β : Type}

def Unmarked (G : Ground) (k r : Nat) (σ : FrameId → Scope) (h : Heap) : Prop :=
  ∀ p, G.HasPromise h p → (h.promise p).forcing = true →
    ∀ j < k, ∀ i ≤ r, (G.meaning j i).argument (h.suspension σ p) = none

theorem Unmarked.mono {k k' r r' : Nat} {h : Heap} (hu : G.Unmarked k r σ h) (hk : k' ≤ k)
    (hr : r' ≤ r) : G.Unmarked k' r' σ h :=
  fun p hp hmark j hj i hi => hu p hp hmark j (Nat.lt_of_lt_of_le hj hk) i (Nat.le_trans hi hr)

theorem Unmarked.later {k r : Nat} {h h' : Heap} (hu : G.Unmarked k r σ h) (hl : G.Labelled σ h)
    (hg : h.Grows σ σ' h') : G.Unmarked k r σ' h' := by
  intro p hp hmark j hj i hi
  have hmark := hg.marks p hmark
  have hlt : p < h.promises.size := by
    refine Nat.lt_of_not_le fun hle => ?_
    rw [Heap.promise_of_size_le hle] at hmark
    cases hmark
  have hp : G.HasPromise h p := ⟨hp.1, hlt⟩
  rw [hl.suspension_eq hg.toKeepsLabels hp]
  exact hu p hp hmark j hj i hi

/-- A meaning that is known from some fuel and some levels on. If the levels are counted, those that
are left do. -/
def Known (bounded : Prop) (levels : Nat) (d : Nat → Nat → Option α) (a : α) : Prop :=
  ∃ k₀ r₀, (bounded → r₀ ≤ levels) ∧ ∀ k r, k₀ ≤ k → r₀ ≤ r → d k r = some a

theorem Known.bind {levels : Nat} {d : Nat → Nat → Option α} {e : α → Nat → Nat → Option β} {a : α}
    {b : β} (hd : Known bounded levels d a) (he : Known bounded levels (e a) b) :
    Known bounded levels (fun k r => (d k r).bind fun a => e a k r) b := by
  obtain ⟨k₀, r₀, hr₀, hd⟩ := hd
  obtain ⟨k₁, r₁, hr₁, he⟩ := he
  refine ⟨max k₀ k₁, max r₀ r₁, fun h => Nat.max_le.2 ⟨hr₀ h, hr₁ h⟩, fun k r hk hr => ?_⟩
  obtain ⟨hk₀, hk₁⟩ := Nat.max_le.1 hk
  obtain ⟨hr₀, hr₁⟩ := Nat.max_le.1 hr
  exact Option.bind_eq_some_iff.2 ⟨a, hd k r hk₀ hr₀, he k r hk₁ hr₁⟩

/-- A computation gives what is meant, and what is meant is given. -/
structure Meets (G : Ground) (limit fuel slack : Nat) (bounded : Prop) (P : α → Prop)
    (σ : FrameId → Scope) (s : State) (act : Eval α) (d : Nat → Nat → Option α) : Prop where
  sound : ∀ a s', act s = .ok a s' →
    (∃ σ', G.Reaches σ s σ' s') ∧ P a ∧ Known bounded (limit - s.depth) d a
  complete : ∀ k r, k ≤ fuel → r ≤ limit - s.depth → G.Unmarked (k + slack) r σ s.heap →
    ∀ a, d k r = some a → ∃ s', act s = .ok a s'

namespace Meets

variable {P : α → Prop} {Q : β → Prop} {act act' : Eval α} {d : Nat → Nat → Option α}

theorem pure (hl : G.Labelled σ s.heap) {a : α} (ha : P a) :
    G.Meets limit fuel slack bounded P σ s (Pure.pure a) fun _ _ => some a where
  sound := by
    rintro _ _ ⟨⟩
    exact ⟨⟨σ, .refl hl⟩, ha, 0, 0, fun _ => Nat.zero_le _, fun _ _ _ _ => rfl⟩
  complete := by
    rintro k r - - - _ ⟨⟩
    exact ⟨s, rfl⟩

theorem none (hact : ∃ e s', act s = .error e s') (hd : ∀ k r, d k r = none) :
    G.Meets limit fuel slack bounded P σ s act d where
  sound a s' ha := by
    obtain ⟨e, s'', hact⟩ := hact
    rw [hact] at ha
    cases ha
  complete k r _ _ _ a ha := by
    rw [hd] at ha
    cases ha

theorem fail (e : Error) :
    G.Meets limit fuel slack bounded P σ s (Eval.fail e : Eval α) fun _ _ => Option.none :=
  none ⟨_, _, rfl⟩ fun _ _ => rfl

theorem congr (h : G.Meets limit fuel slack bounded P σ s act d)
    (hact : ∀ a s', act' s = .ok a s' ↔ act s = .ok a s') :
    G.Meets limit fuel slack bounded P σ s act' d where
  sound a s' ha := h.sound a s' ((hact a s').1 ha)
  complete k r hk hr hu a ha := by
    obtain ⟨s', hs'⟩ := h.complete k r hk hr hu a ha
    exact ⟨s', (hact a s').2 hs'⟩

theorem after (hl : G.Labelled σ s.heap) (hreaches : G.Reaches σ s σ' s')
    (h : G.Meets limit fuel slack bounded P σ' s' act d) (hact : act' s = act s') :
    G.Meets limit fuel slack bounded P σ s act' d where
  sound a t ha := by
    obtain ⟨⟨σ'', ht⟩, hP, hknown⟩ := h.sound a t (hact ▸ ha)
    exact ⟨⟨σ'', hreaches.trans ht⟩, hP, hreaches.depth ▸ hknown⟩
  complete k r hk hr hu a ha := by
    rw [hact]
    exact h.complete k r hk (hreaches.depth.symm ▸ hr) (hu.later hl hreaches.grows) a ha

theorem bind (hl : G.Labelled σ s.heap) (h : G.Meets limit fuel slack bounded P σ s act d)
    {f : α → Eval β} {e : α → Nat → Nat → Option β}
    (hf : ∀ a σ' s', G.Reaches σ s σ' s' → P a →
      G.Meets limit fuel slack bounded Q σ' s' (f a) (e a)) :
    G.Meets limit fuel slack bounded Q σ s (act >>= f) fun k r => (d k r).bind fun a => e a k r where
  sound b s'' hb := by
    obtain ⟨a, s', ha, hb⟩ := Eval.bind_eq_ok.1 hb
    obtain ⟨⟨σ', hreaches⟩, hP, hd⟩ := h.sound a s' ha
    obtain ⟨⟨σ'', hreaches'⟩, hQ, he⟩ := (hf a σ' s' hreaches hP).sound b s'' hb
    rw [hreaches.depth] at he
    exact ⟨⟨σ'', hreaches.trans hreaches'⟩, hQ, hd.bind he⟩
  complete k r hk hr hu b hb := by
    obtain ⟨a, ha, hb⟩ := Option.bind_eq_some_iff.1 hb
    obtain ⟨s', hs'⟩ := h.complete k r hk hr hu a ha
    obtain ⟨⟨σ', hreaches⟩, hP, -⟩ := h.sound a s' hs'
    obtain ⟨s'', hs''⟩ := (hf a σ' s' hreaches hP).complete k r hk (hreaches.depth.symm ▸ hr)
      (hu.later hl hreaches.grows) b hb
    exact ⟨s'', Eval.bind_eq_ok.2 ⟨a, s', hs', hs''⟩⟩

theorem heap {f : Heap → Eval α} (h : G.Meets limit fuel slack bounded P σ s (f s.heap) d) :
    G.Meets limit fuel slack bounded P σ s (Eval.heap >>= f) d :=
  h.congr fun _ _ => .rfl

theorem nested {d : Nat → Nat → Option α}
    (h : G.Meets limit fuel slack bounded P σ (s.mapDepth (· + 1)) act d) :
    G.Meets limit fuel slack bounded P σ s (Eval.nested limit act) fun k r =>
      match r with
      | 0 => Option.none
      | r + 1 => d k r where
  sound a s' ha := by
    rw [Eval.nested_apply] at ha
    split at ha
    · rename_i hdepth
      cases hact : act (s.mapDepth (· + 1)) with
      | error e t =>
        rw [hact] at ha
        cases ha
      | ok b t =>
        rw [hact] at ha
        cases ha
        obtain ⟨⟨σ', hreaches⟩, hP, k₀, r₀, hr₀, hd⟩ := h.sound a t hact
        have hback : (t.mapDepth (· - 1)).depth = s.depth := by
          simp [State.mapDepth, hreaches.depth]
        refine ⟨⟨σ', hreaches.labels, hreaches.grows, hback⟩, hP, k₀, r₀ + 1, fun hb => ?_, ?_⟩
        · have hr₀ : r₀ ≤ limit - (s.depth + 1) := hr₀ hb
          omega
        · intro k r hk hr
          obtain ⟨r, rfl⟩ := Nat.exists_eq_add_of_le' (Nat.lt_of_lt_of_le (Nat.succ_pos r₀) hr)
          exact hd k r hk (Nat.le_of_succ_le_succ hr)
    · cases ha
  complete k r hk hr hu a ha := by
    cases r with
    | zero => cases ha
    | succ r =>
      have hdepth : s.depth < limit := by omega
      have hr : r ≤ limit - (s.mapDepth (· + 1)).depth := by
        change r ≤ limit - (s.depth + 1)
        omega
      obtain ⟨t, ht⟩ := h.complete k r hk hr (hu.mono (Nat.le_refl _) (Nat.le_succ r)) a ha
      exact ⟨t.mapDepth (· - 1), by rw [Eval.nested_apply, if_pos hdepth, ht]; rfl⟩

theorem loosen (h : G.Meets limit fuel 0 bounded P σ s act d) :
    G.Meets limit fuel 1 bounded P σ s act d where
  sound := h.sound
  complete k r hk hr hu := h.complete k r hk hr (hu.mono (Nat.le_succ k) (Nat.le_refl r))

end Meets

abbrev Evaluates (G : Ground) (limit fuel : Nat) (bounded : Prop) (ev : Evaluator) : Prop :=
  ∀ {t env mask σ s}, G.Labelled σ s.heap → G.HasFrame s.heap env → t.Ordinary G.region →
    Mask.Ordinary G.region mask →
      G.Meets limit fuel 0 bounded (Value.Ordinary G.region) σ s (ev t env mask) fun k r =>
        G.meaning k r t (σ env) mask

abbrev Forces (G : Ground) (limit fuel : Nat) (bounded : Prop) (fo : Forcer) : Prop :=
  ∀ {p σ s}, G.Labelled σ s.heap → G.HasPromise s.heap p →
    G.Meets limit fuel 1 bounded (Value.Ordinary G.region) σ s (fo p) fun k r =>
      (G.meaning k r).argument (s.heap.suspension σ p)

structure Follows (G : Ground) (limit fuel : Nat) (bounded : Prop) (ev : Evaluator) (fo : Forcer) :
    Prop where
  eval : G.Evaluates limit fuel bounded ev
  force : G.Forces limit fuel bounded fo

section

variable {ev : Evaluator} {fo : Forcer} (hf : G.Follows limit fuel bounded ev fo) {env : FrameId}
  {mask : Option Mask} (hl : G.Labelled σ s.heap) (henv : G.HasFrame s.heap env)
  (hmask : Mask.Ordinary G.region mask)

include hf hl

theorem eval_meets {t : Tree} (henv : G.HasFrame s.heap env) (hmask : Mask.Ordinary G.region mask)
    (ht : t.Ordinary G.region) :
    G.Meets limit fuel 1 bounded (Value.Ordinary G.region) σ s (ev t env mask) fun k r =>
      G.meaning k r t (σ env) mask :=
  (hf.eval hl henv ht hmask).loosen

include henv hmask in
theorem lookupVariable_meets (name : String) :
    G.Meets limit fuel 1 bounded (Value.Ordinary G.region) σ s (fo.lookupVariable name env mask)
      fun k r => G.reference? (G.meaning k r) name (σ env) mask := by
  unfold Forcer.lookupVariable reference?
  cases hfind : Mask.find? mask name with
  | some v => exact .pure hl (hmask name v hfind)
  | none =>
    refine .heap ?_
    rw [← hl.lookup_eq henv name]
    cases hb : s.heap.lookup env name with
    | none => exact .fail _
    | some b =>
      have hb := hl.mayBind_of_lookup henv hb
      cases b with
      | value v => exact .pure hl hb
      | promise p => exact hf.force hl hb
      | dots args => exact .fail _
      | missing => exact .fail _

theorem findFunction_meets (name : String) {chain : List FrameId}
    (hchain : ∀ g ∈ chain, G.HasFrame s.heap g) :
    G.Meets limit fuel 1 bounded (Value.Ordinary G.region) σ s (fo.findFunction name chain)
      fun k r => firstCallable? (G.meaning k r) name (chain.map fun g => G.own (σ g)) := by
  induction chain generalizing σ s with
  | nil => exact .fail _
  | cons g rest ih =>
    obtain ⟨hg, hrest⟩ := List.forall_mem_cons.1 hchain
    refine .heap ?_
    rw [List.map_cons]
    unfold firstCallable?
    rw [← hl.entries g hg, Heap.entries]
    cases hb : s.heap.binding? g name with
    | none => exact ih hl hrest
    | some b =>
      have hb := hl.binds g hg name b hb
      cases b with
      | value v =>
        simp only [Option.map_some, Heap.entry]
        split
        · exact .pure hl hb
        · exact ih hl hrest
      | promise p =>
        refine .bind hl (hf.force hl hb) fun v σ' s' hreaches hv => ?_
        have hlabels : rest.map (fun g => G.own (σ g)) = rest.map fun g => G.own (σ' g) :=
          List.map_congr_left fun g hg => by rw [hreaches.label hl (hrest g hg)]
        rw [hlabels]
        split
        · exact .pure hreaches.labels hv
        · exact ih hreaches.labels fun g hg => hreaches.hasFrame (hrest g hg)
      | dots args => exact ih hl hrest
      | missing => exact ih hl hrest

include henv hmask

theorem lookupFunction_meets (name : String) :
    G.Meets limit fuel 1 bounded (Value.Ordinary G.region) σ s (fo.lookupFunction name env mask)
      fun k r => G.function? (G.meaning k r) name (σ env) mask := by
  unfold Forcer.lookupFunction function?
  cases hfind : (Mask.find? mask name).filter Value.isCallable with
  | some v => exact .pure hl (hmask name v (Option.filter_eq_some_iff.1 hfind).1)
  | none =>
    refine .heap ?_
    have hchain := hl.hasFrame_of_mem_chain henv
    have hsight : G.sight (σ env) = (s.heap.chain env).map fun g => G.own (σ g) := by
      rw [← hl.entries_chain henv]
      exact List.map_congr_left fun g hg => hl.entries g (hchain g hg)
    rw [hsight]
    exact findFunction_meets hf hl name hchain

theorem resolveHead_meets {head : Tree} (hhead : head.Ordinary G.region) :
    G.Meets limit fuel 1 bounded (Value.Ordinary G.region) σ s (fo.resolveHead ev head env mask)
      fun k r => G.head? (G.meaning k r) head (σ env) mask := by
  have hother : G.Meets limit fuel 1 bounded (Value.Ordinary G.region) σ s
      (ev head env mask >>= fun v =>
        if v.isCallable then pure v else Eval.fail (.notCallable v.typeName))
      fun k r => (G.meaning k r head (σ env) mask).bind fun v =>
        if v.isCallable then some v else none := by
    refine .bind hl (eval_meets hf hl henv hmask hhead) fun v σ' s' hreaches hv => ?_
    split
    · exact .pure hreaches.labels hv
    · exact .fail _
  cases head with
  | reference name => exact lookupFunction_meets hf hl henv hmask name
  | _ => exact hother

omit henv hmask in
theorem forceAll_meets {supplied : List (Named PromiseId)} {args : List (Named (Suspension Scope))}
    (hsupplied : G.Supplies σ s.heap supplied args) :
    G.Meets limit fuel 1 bounded (fun items => ∀ i ∈ items, i.val.Ordinary G.region) σ s
      (fo.forceAll supplied) fun k r => (G.meaning k r).arguments args := by
  induction supplied generalizing σ s args with
  | nil =>
    obtain rfl := hsupplied.suspensions
    exact .pure hl nofun
  | cons a rest ih =>
    obtain rfl := hsupplied.suspensions
    obtain ⟨ha, hrest⟩ := List.forall_mem_cons.1 hsupplied.promises
    refine .bind hl (hf.force hl ha) fun v σ' s' hreaches hv => ?_
    have hrest := Supplies.later ⟨hrest, rfl⟩ hl hreaches.grows.toKeepsLabels
    refine .bind hreaches.labels (ih hreaches.labels hrest) fun vs σ'' s'' hreaches' hvs => ?_
    exact .pure hreaches'.labels (List.forall_mem_cons.2 ⟨hv, hvs⟩)

theorem evalSlot_meets {slot : Slot} (hslot : slot.val.Ordinary G.region) :
    G.Meets limit fuel 1 bounded (fun items => ∀ i ∈ items, i.val.Ordinary G.region) σ s
      (fo.evalSlot ev env mask slot) fun k r => G.slot? (G.meaning k r) (σ env) mask slot := by
  unfold Forcer.evalSlot slot?
  cases hdots : slot.val.isDots with
  | true =>
    have hvisible := visibleDots_labelled hl henv
    simp only [if_true]
    cases hargs : G.dots? (σ env) with
    | none =>
      rw [hargs] at hvisible
      obtain ⟨e, hvisible⟩ := hvisible
      exact .none ⟨e, s, by rw [Eval.bind_apply, hvisible]; rfl⟩ fun _ _ => rfl
    | some args =>
      rw [hargs] at hvisible
      obtain ⟨supplied, hvisible, hsupplied⟩ := hvisible
      refine .after hl (.refl hl) (forceAll_meets hf hl hsupplied) ?_
      rw [Eval.bind_apply, hvisible]
      rfl
  | false =>
    simp only [Bool.false_eq_true, if_false]
    exact .bind hl (eval_meets hf hl henv hmask hslot) fun v σ' s' hreaches hv =>
      .pure hreaches.labels (List.forall_mem_singleton.2 hv)

theorem evalSlots_meets {slots : List Slot} (hslots : ∀ slot ∈ slots, slot.val.Ordinary G.region) :
    G.Meets limit fuel 1 bounded (fun items => ∀ i ∈ items, i.val.Ordinary G.region) σ s
      (fo.evalSlots ev env mask slots) fun k r => G.slots? (G.meaning k r) (σ env) mask slots := by
  induction slots generalizing σ s with
  | nil => exact .pure hl nofun
  | cons slot rest ih =>
    obtain ⟨hslot, hrest⟩ := List.forall_mem_cons.1 hslots
    refine .bind hl (evalSlot_meets hf hl henv hmask hslot) fun here σ' s' hreaches hhere => ?_
    rw [← hreaches.label hl henv]
    refine .bind hreaches.labels (ih hreaches.labels (hreaches.hasFrame henv) hrest)
      fun there σ'' s'' hreaches' hthere => ?_
    exact .pure hreaches'.labels (List.forall_mem_append.2 ⟨hhere, hthere⟩)

omit hf henv hmask in
theorem runBuiltin_meets (hhost : eng.host = G.host) {b : Builtin} (hb : G.region.builtin b.op)
    {items : List Item} (hitems : ∀ i ∈ items, i.val.Ordinary G.region) :
    G.Meets limit fuel slack bounded (Value.Ordinary G.region) σ s (runBuiltin eng b items)
      fun _ _ => (b.op.run G.host.builtin items {}).1.toOption := by
  have hsame := G.stateless b.op hb items {} s.world
  have hrun := G.hosts.run hb hitems s.world
  rw [runBuiltin, hhost, ← hsame]
  cases hresult : b.op.run G.host.builtin items s.world with
  | mk result w =>
    rw [hresult] at hrun
    have hact : Eval.onWorld (b.op.run G.host.builtin items) s =
        match result with
        | .ok v => .ok v { s with world := w }
        | .error e => .error (.failed e) { s with world := w } := by
      simp only [Eval.onWorld, hresult]
      cases result <;> rfl
    cases result with
    | error e => exact .none ⟨_, _, hact⟩ fun _ _ => rfl
    | ok v =>
      have hreaches : G.Reaches σ s σ { s with world := w } := ⟨hl, .refl _ _, rfl⟩
      exact .after hl hreaches (.pure (s := { s with world := w }) hl (hrun v rfl)) hact

def returnUnmarked (marked : List PromiseId) (v : Value) : Eval Value := do
  match uncapturedMarker? (← Eval.heap) marked with
  | some m => Eval.fail (.unresolvedMarker m.kind)
  | none => return v

omit hf henv hmask in
theorem returnUnmarked_meets {σ' : FrameId → Scope} {s' : State} (hreaches : G.Reaches σ s σ' s')
    {supplied : List (Named PromiseId)} {us : List (Named (Suspension Scope))}
    (hsupplies : G.Supplies σ s.heap supplied us) {v : Value} (hv : v.Ordinary G.region) :
    G.Meets limit fuel slack bounded (Value.Ordinary G.region) σ' s'
      (returnUnmarked (markedArguments s.heap supplied) v)
      fun _ _ => if us.any fun a => a.val.expr.hasMarkers then none else some v := by
  have hlook := hl.uncapturedMarker?_eq_none_iff hreaches.labels hreaches.grows.toKeepsLabels
    hsupplies.promises
  rw [hsupplies.suspensions] at hlook
  refine .heap ?_
  cases hmarkers : us.any fun a => a.val.expr.hasMarkers with
  | false =>
    rw [hlook.2 hmarkers]
    exact .pure hreaches.labels hv
  | true =>
    cases hfound : uncapturedMarker? s'.heap (markedArguments s.heap supplied) with
    | none => exact absurd (hlook.1 hfound) (by rw [hmarkers]; exact Bool.noConfusion)
    | some m => exact .fail _

theorem applyClosure_meets {c : Closure Tree} (hc : (Value.closure c).Ordinary G.region)
    {args : List Slot} (hargs : ∀ slot ∈ args, slot.val.Ordinary G.region) :
    G.Meets limit fuel 1 bounded (Value.Ordinary G.region) σ s (applyClosure eng ev c args env mask)
      fun k r => (G.allSuspended? (σ env) mask args).bind (closure? (G.meaning k r) c) := by
  have hsupplied := promiseSlots_labelled hl henv hmask hargs
  cases hall : G.allSuspended? (σ env) mask args with
  | none =>
    rw [hall] at hsupplied
    obtain ⟨e, s', hsupplied⟩ := hsupplied
    exact .none ⟨e, s', by rw [applyClosure, Eval.bind_apply, hsupplied]; rfl⟩ fun _ _ => rfl
  | some us =>
    rw [hall] at hsupplied
    obtain ⟨supplied, s₁, hsupplied, hreaches, hsupplies⟩ := hsupplied
    have hact : applyClosure eng ev c args env mask s = (do
        let frame ← openFrame c supplied
        let depth ← Eval.depth
        Eval.trace eng.trace
          ("call " ++ c.name.getD "<anonymous>" ++ " at depth " ++ toString depth)
        let v ← ev c.body frame none
        returnUnmarked (markedArguments s₁.heap supplied) v) s₁ := by
      rw [applyClosure, Eval.bind_apply, hsupplied]
      rfl
    refine .after hl hreaches ?_ hact
    simp only [Option.bind_some]
    unfold closure?
    have hopen := openFrame_labelled hreaches.labels hc hsupplies
    cases hm : matchArguments c.formals (Scope.positions us) with
    | error e =>
      rw [hm] at hopen
      obtain ⟨e', s', hopen⟩ := hopen
      exact .none ⟨e', s', by rw [Eval.bind_apply, hopen]; rfl⟩ fun _ _ => rfl
    | ok m =>
      rw [hm] at hopen
      obtain ⟨frame, s₂, σ', hopen, hreaches₂, hframe, hscope⟩ := hopen
      have hreaches₃ : G.Reaches σ s₁ σ' (s₂.calling eng.trace c) := hreaches₂.traced _ _
      have hframe₃ : G.HasFrame (s₂.calling eng.trace c).heap frame := by
        rwa [State.calling, State.heap_traced]
      have hbody := eval_meets hf hreaches₃.labels hframe₃ Mask.ordinary_none
        (Value.Ordinary.closure hc).2.1
      rw [hscope] at hbody
      refine .after hreaches.labels hreaches₃ (hbody.bind hreaches₃.labels
        fun v σ'' s'' hreaches'' hv => returnUnmarked_meets hreaches.labels
          (hreaches₃.trans hreaches'') hsupplies hv) ?_
      rw [Eval.bind_apply, hopen, Outcome.follow_ok_eval, Eval.depth_bind_apply, Eval.bind_apply,
        Eval.trace_apply, Outcome.follow_ok_eval]
      rfl

theorem apply_meets (hhost : eng.host = G.host) {func : Value} (hfunc : func.Ordinary G.region)
    {args : List Slot} (hargs : ∀ slot ∈ args, slot.val.Ordinary G.region) :
    G.Meets limit fuel 1 bounded (Value.Ordinary G.region) σ s (fo.apply eng ev func args env mask)
      fun k r => G.applied? (G.meaning k r) func args (σ env) mask := by
  cases func with
  | builtin b =>
    exact .bind hl (evalSlots_meets hf hl henv hmask hargs) fun items σ' s' hreaches hitems =>
      runBuiltin_meets hreaches.labels hhost hfunc hitems
  | closure c => exact applyClosure_meets hf hl henv hmask hfunc hargs
  | special sp => exact hfunc.elim
  | _ => exact .fail _

theorem callHead_meets {head : Tree} (hhead : head.Ordinary G.region) (args : List Slot) :
    G.Meets limit fuel 1 bounded (Value.Ordinary G.region) σ s
      (fo.callHead ev head args env mask)
      fun k r => G.head? (G.meaning k r) head (σ env) mask := by
  refine (resolveHead_meets hf hl henv hmask hhead).congr fun v s' => ?_
  rw [Forcer.callHead, Eval.tryCatch_apply]
  cases fo.resolveHead ev head env mask s with
  | ok w t => rfl
  | error e t =>
    refine ⟨fun h => ?_, fun h => by cases h⟩
    cases e with
    | outOfFuel => cases h
    | failed e =>
      obtain ⟨_, t', -, h⟩ := Eval.bind_eq_ok.1 h
      cases h

omit hf in
theorem rejectMarkers_labelled (func : Value) {t : Tree} (ht : t.Ordinary G.region) :
    (accepts func t = true → rejectMarkers func t env mask s = .ok () s) ∧
      (accepts func t = false → ∃ e, rejectMarkers func t env mask s = .error e s) := by
  have hexposed := hl.exposed?_eq_none_iff henv hmask ht
  cases func with
  | builtin b =>
    rw [rejectMarkers, rejectExposed_apply, accepts]
    cases hmarkers : t.hasMarkers with
    | false => exact ⟨fun _ => by rw [hexposed.2 hmarkers], fun h => by cases h⟩
    | true =>
      refine ⟨fun h => (by cases h), fun _ => ?_⟩
      cases hfound : s.heap.exposed? env mask t with
      | none => exact absurd (hexposed.1 hfound) (by rw [hmarkers]; exact Bool.noConfusion)
      | some m => exact ⟨_, rfl⟩
  | _ => exact ⟨fun _ => rfl, fun h => by cases h⟩

theorem evaluateCall_meets (hhost : eng.host = G.host) {head : Tree} (hhead : head.Ordinary G.region)
    {args : List Slot} (hargs : Slot.AllOrdinary G.region args) :
    G.Meets limit fuel 1 bounded (Value.Ordinary G.region) σ s
      (fo.evaluateCall eng ev head args env mask)
      fun k r => G.call? (G.meaning k r) head args (σ env) mask := by
  have hreaches := (Reaches.refl hl).traced eng.trace
    ("eval " ++ (Tree.call head args).text ++ " at depth " ++ toString s.depth)
  have hl₁ := hreaches.labels
  have henv₁ := hreaches.hasFrame henv
  refine .after hl hreaches (.bind hl₁ (callHead_meets hf hl₁ henv₁ hmask hhead args)
    (f := fun func => do
      rejectMarkers func (.call head args) env mask
      fo.apply eng ev func args env mask) fun func σ' s' hreaches' hfunc => ?_) ?_
  · have henv' := hreaches'.hasFrame henv₁
    have happly := apply_meets hf hreaches'.labels henv' hmask hhost hfunc
      (Slot.allOrdinary_iff.1 hargs)
    rw [hreaches'.label hl₁ henv₁, hreaches.label hl henv] at happly
    have hreject := rejectMarkers_labelled hreaches'.labels henv' hmask func (t := .call head args)
      ⟨hhead, hargs⟩
    cases haccepts : accepts func (.call head args) with
    | false =>
      obtain ⟨e, hreject⟩ := hreject.2 haccepts
      exact .none ⟨e, s', by rw [Eval.bind_apply, hreject]; rfl⟩ fun _ _ => rfl
    | true =>
      refine .after hreaches'.labels (.refl hreaches'.labels) happly ?_
      rw [Eval.bind_apply, hreject.1 haccepts]
      rfl
  · rw [Forcer.evaluateCall, Eval.depth_bind_apply, Eval.bind_apply, Eval.trace_apply,
      Outcome.follow_ok_eval]

theorem evaluateStep_meets (hhost : eng.host = G.host) (hlimit : eng.maxDepth = limit) {t : Tree}
    (ht : t.Ordinary G.region) :
    G.Meets limit fuel 1 bounded (Value.Ordinary G.region) σ s (fo.evaluateStep eng ev t env mask)
      fun k r => G.step (G.meaning k) r t (σ env) mask := by
  cases t with
  | literal v => exact .pure hl ht
  | reference name => exact lookupVariable_meets hf hl henv hmask name
  | call head args =>
    subst hlimit
    exact .nested (evaluateCall_meets (s := s.mapDepth (· + 1)) hf hl henv hmask hhost ht.1 ht.2)
  | pairlist args =>
    refine .bind hl (evalSlots_meets hf hl henv hmask (Slot.allOrdinary_iff.1 ht))
      fun items σ' s' hreaches hitems => ?_
    exact .pure hreaches.labels (Item.allOrdinary_iff.2 hitems)
  | unquote | splice | define => exact .fail _

end

end Quotation.Ground

import Quotation.Proofs.Termination.Engine

/-! Evaluation ends. Every call takes up a level, of which there are finitely many. Between two
calls, evaluation stays in the frames that were there when the level was entered: references lead it
from promise to promise, but those frames acquire no promises, and a promise that is under
evaluation is not pending. So at each level there are fewer pending promises to come to, or the tree
is smaller. -/

namespace Quotation

section

variable {eng : Engine} {d n m : Nat} {s s' : State}

/-- A state at level `d` whose first `n` frames lead to the first `m` promises only. -/
structure AtLevel (eng : Engine) (d n m : Nat) (s : State) : Prop where
  depth : s.depth = d
  closed : s.heap.Closed
  host : eng.host.Scoped s.heap
  within : s.heap.Sealed n m

theorem AtLevel.next (h : AtLevel eng d n m s) (hs : Advances s s') : AtLevel eng d n m s' :=
  ⟨hs.depth.trans h.depth, hs.closed, hs.scoped h.host, h.within.ofKeeps hs.keeps⟩

theorem AtLevel.beginForce (h : AtLevel eng d n m s) (p : PromiseId) :
    AtLevel eng d n m (s.mapHeap (·.beginForce p)) :=
  have hkeeps := Heap.Keeps.beginForce s.heap p
  ⟨h.depth, h.closed.beginForce p, h.host.mono hkeeps.frames hkeeps.promises,
    h.within.ofKeeps hkeeps⟩

def SettlesUpTo (eng : Engine) (d n m k z : Nat) : Prop :=
  ∀ s t env mask, AtLevel eng d n m s → s.heap.pendingCount m ≤ k → sizeOf t ≤ z →
    InScope s.heap.frames.size t.reach env mask → env < n →
      Settles (fun fuel => evaluate eng fuel t env mask) s Heap.HasValue

theorem AtLevel.force_settles {k : Nat} (hfewer : ∀ j < k, ∀ z, SettlesUpTo eng d n m j z)
    (h : AtLevel eng d n m s) (hk : s.heap.pendingCount m ≤ k) {p : PromiseId} (hp : p < m) :
    Settles (fun fuel => force (evaluate eng fuel) p) s Heap.HasValue := by
  have hsize := Nat.lt_of_lt_of_le hp h.within.promises
  refine Quotation.force_settles h.closed hsize fun hpending => ?_
  have hlt := Heap.pendingCount_beginForce_lt hp h.within.promises hpending
  have hwithin := h.closed.promises p hsize
  exact hfewer _ (Nat.lt_of_lt_of_le hlt hk) _ _ _ _ _ (h.beginForce p) (Nat.le_refl _)
    (Nat.le_refl _) ⟨hwithin.expr, hwithin.env, hwithin.mask⟩ (h.within.env p hp)

theorem Tree.sizeOf_slot_lt {slot : Slot} {args : List Slot} (h : slot ∈ args) :
    sizeOf slot.val < sizeOf (Tree.pairlist args) := by
  have hmem := List.sizeOf_lt_of_mem h
  have hval : sizeOf slot.val < sizeOf slot := by
    cases slot
    simp only [Named.mk.sizeOf_spec]
    omega
  simp only [Tree.pairlist.sizeOf_spec]
  omega

theorem settlesUpTo_step (hdeeper : d < eng.maxDepth → Ready eng (d + 1)) {k z : Nat}
    (hfewer : ∀ j < k, ∀ z, SettlesUpTo eng d n m j z)
    (hsmaller : ∀ y < z, SettlesUpTo eng d n m k y) : SettlesUpTo eng d n m k z := by
  intro s t env mask h hk hz hscope henv
  -- Whatever happens at deeper levels in between, no more promises become pending.
  have hcount : ∀ s', Advances s s' → s'.heap.pendingCount m ≤ k := fun s' hs' =>
    Nat.le_trans (hs'.keeps.pendingCount_le h.within.promises) hk
  have hforce : ∀ s', Advances s s' → ∀ p < m,
      Settles (fun fuel => force (evaluate eng fuel) p) s' Heap.HasValue := fun s' hs' p hp =>
    (h.next hs').force_settles hfewer (hcount s' hs') hp
  have hforceAll : ∀ s', Advances s s' → ∀ args, s'.heap.dots? env = some args →
      Settles (fun fuel => forceAll (evaluate eng fuel) args) s' Heap.HasItems := by
    intro s' hs' args ha
    have hargs := (h.next hs').within.lookup henv (Heap.lookup_of_dots? ha)
    exact forceAll_settles hs'.closed fun s'' hs'' a ha =>
      hforce s'' (hs'.trans hs'') _ (hargs a ha)
  refine .succ (G := fun fuel => evaluateStep eng (evaluate eng fuel) t env mask) ?_ fun _ => rfl
  cases t with
  | literal v => exact .pure h.closed hscope.tree
  | reference name =>
    refine lookupVariable_settles h.closed hscope.mask fun p hp => ?_
    exact hforce s (.refl h.closed) p (h.within.lookup henv hp)
  | call head args =>
    refine .nested h.closed fun hd => ?_
    have hready : ReadyAt eng (d + 1) (s.mapDepth (· + 1)) :=
      ⟨hdeeper (h.depth ▸ hd), Nat.succ_le_succ (Nat.le_of_eq h.depth.symm), h.closed, h.host⟩
    exact hready.evaluateCall hscope
  | pairlist args =>
    refine .bind (evalSlots_settles h.closed fun s' hs' slot hslot => ?_) fun items s' hs' hitems =>
      .pure hs'.closed hitems
    have hslotScope := (hscope.mono hs'.keeps.frames).part
      (Slot.reach_le_iff.1 (Nat.le_refl _) slot hslot)
    refine evalSlot_settles hs'.closed
      (fun s'' hs'' args ha => hforceAll s'' (hs'.trans hs'') args ha) ?_
    exact hsmaller _ (Nat.lt_of_lt_of_le (Tree.sizeOf_slot_lt hslot) hz) s' slot.val env mask
      (h.next hs') (hcount s' hs') (Nat.le_refl _) hslotScope henv
  | unquote | splice | define => exact .fail h.closed _

theorem settlesUpTo (hdeeper : d < eng.maxDepth → Ready eng (d + 1)) (k z : Nat) :
    SettlesUpTo eng d n m k z := by
  induction k using Nat.strong_induction_on generalizing z with
  | _ k hfewer =>
    induction z using Nat.strong_induction_on with
    | _ z hsmaller => exact settlesUpTo_step hdeeper hfewer hsmaller

theorem ready (eng : Engine) (d : Nat) : Ready eng d := by
  induction hlevels : eng.maxDepth - d using Nat.strong_induction_on generalizing d with
  | _ levels ih =>
    intro s t env mask hd hs hhost hscope
    refine settlesUpTo (fun hlt => ?_) _ _ s t env mask ⟨rfl, hs, hhost, .ofClosed hs⟩
      (Nat.le_refl _) (Nat.le_refl _) hscope hscope.env
    exact ih _ (by omega) _ rfl

end

/-- From some amount of fuel on, a computation ends with one and the same value or error, and leaves
a closed heap. -/
def Terminates {α : Type} (F : Nat → Eval α) (s : State) : Prop :=
  ∃ n r, (∀ m ≥ n, F m s = r) ∧ (∀ s', r ≠ .error .outOfFuel s') ∧ (Outcome.state r).heap.Closed

theorem Settles.terminates {α : Type} {F : Nat → Eval α} {s : State} {Q : Heap → α → Prop}
    (h : Settles F s Q) : Terminates F s := by
  obtain ⟨n, ⟨a, s', hF, hs, -⟩ | ⟨e, s', hF, hs⟩⟩ := h
  · exact ⟨n, .ok a s', hF, (fun _ h => nomatch h), hs.closed⟩
  · exact ⟨n, .error (.failed e) s', hF, (fun _ h => nomatch h), hs.closed⟩

/-- Evaluation, forcing and substitution end with a value or an error, whatever the frames bind and
however the promises refer to one another. The routines of the host are finite. What the host holds
has to be in the heap, and it has to bind no promise in a frame that was there when it was called. -/
theorem evaluation_terminates (eng : Engine) (s : State) (hs : s.heap.Closed)
    (hhost : eng.host.Scoped s.heap) :
    (∀ t env mask, InScope s.heap.frames.size t.reach env mask →
      Terminates (fun fuel => evaluate eng fuel t env mask) s) ∧
    (∀ p < s.heap.promises.size, Terminates (fun fuel => force (evaluate eng fuel) p) s) ∧
    ∀ t env mask, InScope s.heap.frames.size t.reach env mask →
      Terminates (fun fuel => resolve eng (evaluate eng fuel) t env mask) s := by
  have h : ReadyAt eng 0 s := ⟨ready eng 0, Nat.zero_le _, hs, hhost⟩
  refine ⟨?evaluate, ?force, ?resolve⟩
  case evaluate => exact fun t env mask hscope => (h.eval hscope).terminates
  case force => exact fun p hp => (h.force hp).terminates
  case resolve => exact fun t env mask hscope => (h.resolve hscope).terminates

def cyclicHeap : Heap where
  frames := #[{ bindings := NameTable.empty.insert "x" (.promise 0) }]
  promises := #[{ expr := .reference "x", env := 0, mask := none }]

theorem cyclicHeap_closed : cyclicHeap.Closed where
  enclosing f g hg := by
    cases f with
    | zero => cases hg
    | succ f => cases hg
  bindings f name b hb := by
    cases f with
    | zero =>
      change (NameTable.empty.insert "x" (Binding.promise 0)).get? name = some b at hb
      rw [NameTable.get?_insert] at hb
      split at hb
      · cases hb
        exact ⟨Nat.zero_lt_one, fun _ hv => nomatch hv⟩
      · cases hb
    | succ f => cases hb
  promises p hp := by
    obtain rfl : p = 0 := Nat.lt_one_iff.1 hp
    exact ⟨Nat.zero_lt_one, Nat.zero_le _, Mask.within_none, fun _ hv => nomatch hv⟩

theorem cyclicHeap_terminates :
    let eng : Engine := { host := Session.host }
    let s : State := { heap := cyclicHeap }
    Terminates (fun fuel => evaluate eng fuel (.reference "x") 0 none) s ∧
      Terminates (fun fuel => force (evaluate eng fuel) 0) s ∧
        Terminates (fun fuel => resolve eng (evaluate eng fuel) (.unquote (.reference "x")) 0 none) s :=
  have h := evaluation_terminates { host := Session.host } { heap := cyclicHeap } cyclicHeap_closed
    (Session.host_scoped _)
  have hscope : InScope 1 0 0 none := ⟨Nat.zero_le 1, Nat.zero_lt_one, Mask.within_none⟩
  ⟨h.1 _ _ _ hscope, h.2.1 0 Nat.zero_lt_one, h.2.2 _ _ _ hscope⟩

end Quotation

import Quotation.Proofs.Limit
import Quotation.Proofs.Lockstep.Stopping

/-! A higher limit. A run that does not come to its limit is the same under every higher one, whatever
the host does. A run that came to it ends with the overflow, or with a marker in its place, unless a
special of the host goes on after that: no other place in the engine loses an error. -/

namespace Quotation

/-- An operation comes to an end, and in its course no call is refused for its depth: the overflow is
not what it ends with, and it is not caught on its way either. -/
structure StaysBelow {α : Type} (eng : Engine) (fuel : Nat) (op : Evaluator → Eval α) (s : State) :
    Prop where
  level : s.depth ≤ eng.maxDepth
  ends : Outcome.halt? (op (evaluate eng fuel) s) ≠ some .outOfFuel
  clear : Outcome.halt? (op (evaluate eng fuel) s) ≠ some (.failed eng.overflow)
  uncaught : ¬ CaughtIn eng fuel eng.overflow op s

/-- One engine with two limits. The run on the left is stopped where it catches the overflow. -/
def Lockstep.below (eng : Engine) {m m' : Nat} (hm : m ≤ m') :
    Lockstep (eng.withLimit m) (eng.withLimit m') where
  Origin := Nat
  rel d s₁ s₂ := s₁ = s₂ ∧ s₁.depth = d ∧ d ≤ m
  excused h := h = .outOfFuel ∨ h = .failed (eng.withLimit m).overflow
  err _ := True
  write _ _ _ := True
  reads := True
  host := .limits eng m m'
  heap h := congrArg State.heap h.1
  world h := congrArg State.world h.1
  depth _ h := congrArg State.depth h.1
  plain _ := trivial
  builtin _ := trivial
  setWorld h w := ⟨by rw [h.1], h.2⟩
  debug h m := ⟨by rw [h.1], h.2⟩
  trace {_ s₁ _} h message := by
    refine ⟨by rw [h.1]; rfl, ?_⟩
    unfold State.traced
    split <;> exact h.2
  enter := by
    rintro d s _ ⟨rfl, rfl, hd⟩ hlt
    refine ⟨Nat.lt_of_lt_of_le hlt hm, s.depth + 1, ⟨rfl, rfl, hlt⟩, ?_⟩
    rintro t _ ⟨rfl, ht, -⟩
    exact ⟨rfl, congrArg (· - 1) ht, hd⟩
  overflow {_ s₁ _} h hlt := by
    have hmax : s₁.depth = m := Nat.le_antisymm (h.2.1 ▸ h.2.2) (Nat.le_of_not_lt hlt)
    exact .inl (.inr (by rw [hmax]; rfl))
  capture h p := ⟨by rw [h.1], h.2⟩
  promise h expr env mask := ⟨by rw [h.1], h.2⟩
  frame h parent isCall := ⟨by rw [h.1], h.2⟩
  formals h parent formals m := ⟨by rw [h.1], h.2⟩
  rebind h _ := ⟨by rw [h.1], h.2⟩

section

variable {eng : Engine} {m m' : Nat} {hm : m ≤ m'} {α : Type}

instance : (Lockstep.below eng hm).Forces where
  force := by
    rintro d s _ p ⟨rfl, hd⟩ -
    refine ⟨d, ⟨rfl, hd⟩, ?_⟩
    rintro t _ ⟨rfl, ht⟩
    exact ⟨fun v => ⟨rfl, ht⟩, rfl, ht⟩

theorem below_stopsAfter : (Lockstep.below eng hm).StopsAfter (eng.withLimit m).overflow where
  stop := .inl rfl
  error_iff e := by
    change (Halt.failed e = .outOfFuel ∨ Halt.failed e = .failed (eng.withLimit m).overflow) ↔ _
    simp
  err _ := trivial
  uncarried _ h := h

theorem evaluateUntil_eq_of_not_caught {fuel : Nat} {e : Error} {op : Evaluator → Eval α}
    {s : State} (hop : (Lockstep.sameUntil eng fun _ => False).Related
      (op (evaluateUntil eng e { caught := true } fuel)) (op (evaluateUntil eng e {} fuel)))
    (hends : Outcome.halt? (op (evaluate eng fuel) s) ≠ some .outOfFuel)
    (hcaught : ¬ CaughtIn eng fuel e op s) :
    op (evaluateUntil eng e { caught := true } fuel) s = op (evaluate eng fuel) s := by
  have hrun : Outcome.halt? (op (evaluateUntil eng e { caught := true } fuel) s) ≠
      some .outOfFuel := fun h => hcaught ⟨hends, h⟩
  have hsame := hop () s s rfl
  rw [evaluateUntil_nowhere] at hsame
  generalize op (evaluateUntil eng e { caught := true } fuel) s = r₁ at hsame hrun ⊢
  generalize op (evaluate eng fuel) s = r₂ at hsame ⊢
  cases hsame with
  | ok h | failed h | outOfFuel h => rw [h]
  | @excused halt _ _ he =>
    cases halt with
    | outOfFuel => exact absurd rfl hrun
    | failed e' => exact he.elim
  | carried _ he => exact he.elim

theorem StaysBelow.eq {fuel : Nat} {op : Evaluator → Eval α} {s : State}
    (h : StaysBelow (eng.withLimit m) fuel op s) (hm : m ≤ m') (op' : Evaluator → Eval α)
    (hop : (Lockstep.sameUntil (eng.withLimit m) fun _ => False).Related
      (op (evaluateUntil (eng.withLimit m) (eng.withLimit m).overflow { caught := true } fuel))
      (op (evaluateUntil (eng.withLimit m) (eng.withLimit m).overflow {} fuel)))
    (hop' : (Lockstep.below eng hm).Related
      (op (evaluateUntil (eng.withLimit m) (eng.withLimit m).overflow { caught := true } fuel))
      (op' (evaluate (eng.withLimit m') fuel))) :
    op' (evaluate (eng.withLimit m') fuel) s = op (evaluate (eng.withLimit m) fuel) s := by
  have hends := hop' s.depth s s ⟨rfl, rfl, h.level⟩
  rw [evaluateUntil_eq_of_not_caught hop h.ends h.uncaught] at hends
  have hend := h.ends
  have hclear := h.clear
  generalize op (evaluate (eng.withLimit m) fuel) s = r₁ at hends hend hclear ⊢
  generalize op' (evaluate (eng.withLimit m') fuel) s = r₂ at hends ⊢
  cases hends with
  | ok h | failed h | outOfFuel h => rw [h.1]
  | excused he =>
    rcases he with rfl | rfl
    · exact absurd rfl hend
    · exact absurd rfl hclear
  | carried _ he => exact he.elim

end

end Quotation

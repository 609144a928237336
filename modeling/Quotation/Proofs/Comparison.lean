import Quotation.Prelude.Builtins
import Quotation.Proofs.Comparison.Doubles

namespace Quotation.Builtin

open Binary64 (nearest nearest_mono orderFloats?_ofInt)

def Distinct (x y : Int64) : Prop := x = y ∨ nearest x.toInt ≠ nearest y.toInt

theorem natAbs_toInt_lt (x : Int64) : x.toInt.natAbs < 2 ^ 64 := by
  have := x.le_toInt
  have := x.toInt_lt
  omega

theorem ordering_ints (op : String) (x y : Int64) :
    ordering op (.int x) (.int y) = .ok (compare (nearest x.toInt) (nearest y.toInt)) := by
  have hfloats : Number.orderFloats? (Number.int x).toFloat (Number.int y).toFloat =
      some (compare (nearest x.toInt) (nearest y.toInt)) :=
    orderFloats?_ofInt (natAbs_toInt_lt x) (natAbs_toInt_lt y)
  have hoperand (n : Int64) : Number.ofOperand op (.int n) = .ok (.int n) := rfl
  rw [ordering, hoperand, hoperand]
  · simp only [bind, Except.bind, hfloats]
  · simp

theorem order_ints (op : Order) (m n : Option String) (x y : Int64) :
    order op [⟨m, .int x⟩, ⟨n, .int y⟩] =
      .ok (.bool (op.test (compare (nearest x.toInt) (nearest y.toInt)))) := by
  change (do let o ← ordering op.symbol (.int x) (.int y); Except.ok (Value.bool (op.test o))) = _
  rw [ordering_ints]
  rfl

theorem compare_nearest_iff (x y : Int64) :
    compare (nearest x.toInt) (nearest y.toInt) = compare x.toInt y.toInt ↔ Distinct x y := by
  unfold Distinct
  rw [← Int64.toInt_inj]
  rcases lt_trichotomy x.toInt y.toInt with h | h | h
  · rw [compare_lt_iff_lt.2 h, compare_lt_iff_lt, (nearest_mono h.le).lt_iff_ne]
    simp [h.ne]
  · simp [h]
  · rw [compare_gt_iff_gt.2 h, compare_gt_iff_gt, (nearest_mono h.le).lt_iff_ne, ne_comm]
    simp [h.ne']

theorem Order.test_injective {o o' : Ordering} (h : ∀ op : Order, op.test o = op.test o') :
    o = o' := by
  have lt : o.isLT = o'.isLT := h .lt
  have gt : o.isGT = o'.isGT := h .gt
  cases o <;> cases o' <;> simp_all [Ordering.isLT, Ordering.isGT]

section Runs

variable (host : String → List Item → World → Except Error Value × World)
  (m n : Option String) (x y : Int64) (w : World)

theorem run_order_ints (op : Order) :
    Op.run host (.order op) [⟨m, .int x⟩, ⟨n, .int y⟩] w =
      (.ok (.bool (op.test (compare (nearest x.toInt) (nearest y.toInt)))), w) := by
  rw [Op.run, order_ints]

theorem run_equal_ints :
    Op.run host .equal [⟨m, .int x⟩, ⟨n, .int y⟩] w = (.ok (.bool (x == y)), w) :=
  rfl

theorem run_lt_iff : Op.run host (.order .lt) [⟨m, .int x⟩, ⟨n, .int y⟩] w =
    (.ok (.bool true), w) ↔ nearest x.toInt < nearest y.toInt := by
  simp [run_order_ints, Order.test, Ordering.isLT_eq_beq_lt, compare_lt_iff_lt]

theorem run_gt_iff : Op.run host (.order .gt) [⟨m, .int x⟩, ⟨n, .int y⟩] w =
    (.ok (.bool true), w) ↔ nearest y.toInt < nearest x.toInt := by
  simp [run_order_ints, Order.test, Ordering.isGT_eq_beq_gt, compare_gt_iff_gt]

theorem run_equal_iff : Op.run host .equal [⟨m, .int x⟩, ⟨n, .int y⟩] w =
    (.ok (.bool true), w) ↔ x = y := by
  simp [run_equal_ints]

theorem existsUnique_run_iff :
    (∃! op, op ∈ [Op.order .lt, .equal, .order .gt] ∧
      op.run host [⟨m, .int x⟩, ⟨n, .int y⟩] w = (.ok (.bool true), w)) ↔ Distinct x y := by
  have iff : ∀ op, (op ∈ [Op.order .lt, .equal, .order .gt] ∧
      op.run host [⟨m, .int x⟩, ⟨n, .int y⟩] w = (.ok (.bool true), w)) ↔
      op = .order .lt ∧ nearest x.toInt < nearest y.toInt ∨ op = .equal ∧ x = y ∨
        op = .order .gt ∧ nearest y.toInt < nearest x.toInt := by
    intro op
    simp only [List.mem_cons, List.not_mem_nil, or_false]
    constructor
    · rintro ⟨rfl | rfl | rfl, h⟩
      · exact .inl ⟨rfl, (run_lt_iff host m n x y w).1 h⟩
      · exact .inr (.inl ⟨rfl, (run_equal_iff host m n x y w).1 h⟩)
      · exact .inr (.inr ⟨rfl, (run_gt_iff host m n x y w).1 h⟩)
    · rintro (⟨rfl, h⟩ | ⟨rfl, h⟩ | ⟨rfl, h⟩)
      · exact ⟨.inl rfl, (run_lt_iff host m n x y w).2 h⟩
      · exact ⟨.inr (.inl rfl), (run_equal_iff host m n x y w).2 h⟩
      · exact ⟨.inr (.inr rfl), (run_gt_iff host m n x y w).2 h⟩
  simp only [iff, Distinct]
  constructor
  · rintro ⟨_, ⟨rfl, h⟩ | ⟨rfl, h⟩ | ⟨rfl, h⟩, -⟩
    · exact .inr h.ne
    · exact .inl h
    · exact .inr h.ne'
  · rintro (rfl | h)
    · exact ⟨.equal, .inr (.inl ⟨rfl, rfl⟩), by simp⟩
    · have hxy : x ≠ y := fun e => h (e ▸ rfl)
      rcases lt_or_gt_of_ne h with h | h
      · exact ⟨.order .lt, .inl ⟨rfl, h⟩, by simp [hxy, h.not_gt]⟩
      · exact ⟨.order .gt, .inr (.inr ⟨rfl, h⟩), by simp [hxy, h.not_gt]⟩

end Runs

/-- What the comparisons and `==` give for two integers. The comparisons follow the order of the
integers, and exactly one of `<`, `==` and `>` holds, where the integers are not made equal by
turning them into doubles, and only there. -/
theorem comparisons_exact_iff (host : String → List Item → World → Except Error Value × World)
    (m n : Option String) (x y : Int64) (w : World) :
    let run (op : Op) := op.run host [⟨m, .int x⟩, ⟨n, .int y⟩] w
    (∀ op : Order, run (.order op) =
        (.ok (.bool (op.test (compare (nearest x.toInt) (nearest y.toInt)))), w)) ∧
      run .equal = (.ok (.bool (x == y)), w) ∧
      ((∀ op : Order, run (.order op) = (.ok (.bool (op.test (compare x.toInt y.toInt))), w)) ↔
        Distinct x y) ∧
      ((∃! op, op ∈ [Op.order .lt, .equal, .order .gt] ∧ run op = (.ok (.bool true), w)) ↔
        Distinct x y) := by
  refine ⟨run_order_ints host m n x y w, run_equal_ints host m n x y w, ?_,
    existsUnique_run_iff host m n x y w⟩
  rw [← compare_nearest_iff]
  constructor
  · intro h
    refine Order.test_injective fun op => ?_
    simpa [run_order_ints] using h op
  · intro h op
    exact h ▸ run_order_ints host m n x y w op

/-- The first two neighbours that a double cannot tell apart. -/
theorem neighbours_unordered :
    let args : List Item := [⟨none, .int 9007199254740992⟩, ⟨none, .int 9007199254740993⟩]
    (9007199254740992 : Int64).toInt < (9007199254740993 : Int64).toInt ∧
      order .lt args = .ok (.bool false) ∧ order .gt args = .ok (.bool false) ∧
      equal "==" args = .ok false := by
  refine ⟨by decide, ?_, ?_, rfl⟩ <;> rw [order_ints] <;> rfl

end Quotation.Builtin

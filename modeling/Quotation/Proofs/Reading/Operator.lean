import Quotation.Proofs.Reading.Operand

namespace Quotation.Source

def Expr.isOperand : Expr → Bool
  | .literal _ => true
  | .bool _ => true
  | .path _ _ => true
  | .paren _ => true
  | .not _ => true
  | .neg _ => true
  | .call _ _ => true
  | _ => false

namespace Expr

variable {e : Expr}

theorem isVerbatim_of_isOperand (h : e.isOperand = true) : e.isVerbatim = false := by
  cases e <;> simp_all [isOperand, isVerbatim]

theorem isRange_of_isOperand (h : e.isOperand = true) : e.isRange = false := by
  cases e <;> simp_all [isOperand, isRange]

theorem isComparison_of_isOperand (h : e.isOperand = true) : e.isComparison = false := by
  cases e <;> simp_all [isOperand, isComparison]

theorem isAssignment_of_isOperand (h : e.isOperand = true) : e.isAssignment = false := by
  cases e <;> simp_all [isOperand, isAssignment]

end Expr

theorem operator?_operator {op : String} (h : binaryOperators.contains op = true) :
    ∃ p : Precedence, Precedence.range.rank < p.rank ∧
      ∀ ts, operator? (Token.operator op.toList ++ ts) = some (op, p) := by
  have hmem := List.contains_iff_mem.1 h
  simp only [binaryOperators, List.mem_cons, List.not_mem_nil, or_false] at hmem
  rcases hmem with rfl | rfl | rfl | rfl | rfl | rfl | rfl | rfl | rfl | rfl | rfl | rfl | rfl
  all_goals exact ⟨_, by decide, fun ts => rfl⟩

theorem EndsOperand.operator {op : String} (h : binaryOperators.contains op = true)
    (ts : List Token) : EndsOperand (Token.operator op.toList ++ ts) := by
  have hmem := List.contains_iff_mem.1 h
  simp only [binaryOperators, List.mem_cons, List.not_mem_nil, or_false] at hmem
  rcases hmem with rfl | rfl | rfl | rfl | rfl | rfl | rfl | rfl | rfl | rfl | rfl | rfl | rfl
  all_goals exact ⟨⟨rfl, rfl, rfl, rfl⟩, rfl, rfl, rfl, rfl⟩

namespace Grammar

open Rule

variable (g : Grammar) {ts rest : List Token} {post : Expr → Prop}

theorem climb_reads_none (hr : EndsExpr rest) (fuel start floor : Nat) {lhs : Expr}
    (hrange : lhs.isRange = false) :
    Reads (g.climb true (fuel + 1) start floor lhs) [] rest (· = lhs) := by
  rw [climb, if_neg (by simp [hrange])]
  refine .peek ?_
  rw [List.nil_append, hr.noOperator]
  refine .ifFalse ?_ (.ifFalse ?_ (.ifFalse ?_ (.pure rfl)))
  · simp [hr.noAssignment]
  · simp [hr.noRange]
  · simp [hr.noCast]

theorem climb_reads_operator {op : String} (hop : binaryOperators.contains op = true)
    (hr : EndsExpr rest) (fuel start : Nat) {floor : Nat} (hfloor : floor ≤ Precedence.range.rank)
    {lhs : Expr} (hlhs : lhs.isOperand = true) (hpost : ∀ e, post e → e.isRange = false)
    (h : Reads (g.unary true) ts rest post) :
    Reads (g.climb true (fuel + 2) start floor lhs) (Token.operator op.toList ++ ts) rest
      (fun e => ∃ rhs, e = .binary op lhs rhs ∧ post rhs) := by
  obtain ⟨p, hp, hfound⟩ := operator?_operator hop
  have hrank : ¬ p.rank < floor := by omega
  have hassign : p ≠ .assign := by
    rintro rfl
    exact absurd hp (by decide)
  have hoperand : ∀ floor, Reads (do
      let start ← place
      let e ← g.unary true
      g.climb true (fuel + 1) start floor e) ts rest post := by
    refine fun floor => .place fun start => h.last fun e he => ?_
    refine (g.climb_reads_none hr fuel start floor (hpost e he)).mono ?_
    rintro r rfl
    exact he
  have hright : Reads (do
      mark op
      let rhs ← (do
        let start ← place
        let e ← g.unary true
        g.climb true (fuel + 1) start p.rightFloor e)
      g.climb true (fuel + 1) start floor (.binary op lhs rhs))
      (Token.operator op.toList ++ ts) rest
      (fun e => ∃ rhs, e = .binary op lhs rhs ∧ post rhs) := by
    refine (mark_reads op).bind fun _ _ => (hoperand p.rightFloor).last fun rhs hrhs => ?_
    exact (g.climb_reads_none hr fuel start floor rfl).mono fun e he => ⟨rhs, he, hrhs⟩
  have hrange : ¬ lhs.isRange = true := by simp [Expr.isRange_of_isOperand hlhs]
  have hcompare : ¬ (decide (p = .compare) && lhs.isComparison) = true := by
    simp [Expr.isComparison_of_isOperand hlhs]
  have henclosed : ¬ (decide (p = .assign) && lhs.isAssignment) = true := by simp [hassign]
  rw [climb, if_neg hrange]
  refine .peek ?_
  rw [List.append_assoc, hfound]
  simp only []
  rw [if_neg hrank, if_neg hcompare, if_neg henclosed]
  exact hright

theorem climb_reads_assignment (hr : EndsExpr rest) (fuel start : Nat) {floor : Nat}
    (hfloor : floor ≤ Precedence.assign.rank) {lhs : Expr} (hlhs : lhs.isOperand = true)
    (h : Reads (do
      let start ← place
      let e ← g.unary true
      g.climb true (fuel + 1) start Precedence.assign.rightFloor e) ts rest post) :
    Reads (g.climb true (fuel + 2) start floor lhs) (.mark '=' false :: ts) rest
      (fun e => ∃ value target text, e = .assign lhs value target text ∧ post value) := by
  have hrange : ¬ lhs.isRange = true := by simp [Expr.isRange_of_isOperand hlhs]
  have henclosed : ¬ lhs.isAssignment = true := by simp [Expr.isAssignment_of_isOperand hlhs]
  have hbegins : beginsAssignment (.mark '=' false :: ts ++ rest) = true := rfl
  rw [climb, if_neg hrange]
  refine .peek (.ifTrue (by simp only [hfloor, hbegins]; rfl) ?_)
  refine .writtenSince _ fun target => ?_
  rw [if_neg henclosed]
  refine mark_bind rfl (h.last fun value hvalue => ?_)
  refine .writtenSince _ fun text => ?_
  exact (g.climb_reads_none hr fuel start floor rfl).mono
    fun e he => ⟨value, target, text, he, hvalue⟩

end Grammar

end Quotation.Source

import Quotation.Proofs.Reading.Operator
import Quotation.Source.Tree

namespace Quotation

namespace Source

open Rule

namespace Expr

structure Spells (e : Expr) (t : Tree) : Prop where
  toTree : e.toTree = .ok t
  shape : e.isOperand = true ∨ ∃ op a b, e = .binary op a b

structure SpellsOperand (e : Expr) (t : Tree) : Prop where
  toTree : e.toTree = .ok t
  isOperand : e.isOperand = true

def SpellsSlot (e : Expr) (s : Slot) : Prop :=
  ∀ es slots, toSlots es = .ok slots → toSlots (e :: es) = .ok (s :: slots)

variable {e : Expr} {t : Tree}

theorem SpellsOperand.spells (h : e.SpellsOperand t) : e.Spells t := ⟨h.toTree, .inl h.isOperand⟩

theorem Spells.isRange (h : e.Spells t) : e.isRange = false := by
  rcases h.shape with hop | ⟨op, a, b, rfl⟩
  · exact isRange_of_isOperand hop
  · rfl

theorem Spells.unnamed (h : e.Spells t) : e.SpellsSlot (.positional t) := by
  intro es slots hes
  have hpos : toSlots (e :: es) = (do
      let t ← e.toTree
      let slots ← toSlots es
      .ok (.positional t :: slots)) := by
    rcases h.shape with hop | ⟨op, a, b, rfl⟩
    · cases e with
      | assign => simp [isOperand] at hop
      | _ => rfl
    · rfl
  rw [hpos, h.toTree, hes]
  rfl

theorem Spells.named (h : e.Spells t) (name target text : String) :
    (Expr.assign (.path false [name]) e target text).SpellsSlot (.labelled name t) := by
  intro es slots hes
  have hassign : toSlots (.assign (.path false [name]) e target text :: es) = (do
      let v ← e.toTree
      let name ← Expr.toSlotName target (.path false [name])
      let slots ← toSlots es
      .ok (.labelled name v :: slots)) := rfl
  rw [hassign, h.toTree, hes]
  rfl

theorem toSlots_of_forall₂ {es : List Expr} {args : List Slot}
    (h : List.Forall₂ SpellsSlot es args) : toSlots es = .ok args := by
  induction h with
  | nil => rfl
  | cons h _ ih => exact h _ _ ih

end Expr

namespace Grammar

structure Continues (g : Grammar) (p : Nat → Expr → Rule Expr) : Prop where
  none : ∀ {rest start lhs}, EndsExpr rest → lhs.isRange = false →
    Reads (p start lhs) [] rest (· = lhs)
  operator : ∀ {op : String} {ts rest : List Token} {start : Nat} {lhs : Expr} {post : Expr → Prop},
    binaryOperators.contains op = true → EndsExpr rest → lhs.isOperand = true →
    (∀ e, post e → e.isRange = false) → Reads (g.unary true) ts rest post →
    Reads (p start lhs) (Token.operator op.toList ++ ts) rest
      (fun e => ∃ rhs, e = .binary op lhs rhs ∧ post rhs)

theorem climb_continues (g : Grammar) (fuel : Nat) {floor : Nat}
    (hfloor : floor ≤ Precedence.range.rank) :
    g.Continues (fun start lhs => g.climb true (fuel + 2) start floor lhs) where
  none hr hrange := g.climb_reads_none hr _ _ _ hrange
  operator hop hr hlhs hpost h := g.climb_reads_operator hop hr _ _ hfloor hlhs hpost h

theorem length_operator_pos {op : String} (h : binaryOperators.contains op = true) :
    0 < (Token.operator op.toList).length := by
  have hall : ∀ o ∈ binaryOperators, 0 < o.toList.length := by decide
  rw [length_operator]
  exact hall op (List.contains_iff_mem.1 h)

theorem climbFrom_continues (g : Grammar) {floor : Nat} (hfloor : floor ≤ Precedence.range.rank) :
    g.Continues (fun start lhs => g.climbFrom true start floor lhs) where
  none hr hrange := .remaining (g.climb_reads_none hr _ _ _ hrange)
  operator {op ts rest start lhs post} hop hr hlhs hpost h := by
    have hpos := length_operator_pos hop
    obtain ⟨fuel, hfuel⟩ : ∃ k, (Token.operator op.toList ++ ts ++ rest).length = k + 1 :=
      ⟨(Token.operator op.toList ++ ts ++ rest).length - 1, by
        simp only [List.length_append]
        omega⟩
    refine .remaining ?_
    rw [hfuel]
    exact g.climb_reads_operator hop hr _ _ hfloor hlhs hpost h

theorem climbFrom_reads_assignment (g : Grammar) {ts rest : List Token} {post : Expr → Prop}
    (hr : EndsExpr rest) (hts : ts ≠ []) (start : Nat) {lhs : Expr} (hlhs : lhs.isOperand = true)
    (h : ∀ p, g.Continues p → Reads (do
      let start ← place
      let e ← g.unary true
      p start e) ts rest post) :
    Reads (g.climbFrom true start 0 lhs) (.mark '=' false :: ts) rest
      (fun e => ∃ value target text, e = .assign lhs value target text ∧ post value) := by
  obtain ⟨fuel, hfuel⟩ : ∃ k, (.mark '=' false :: ts ++ rest).length = k + 2 := by
    have hpos := List.length_pos_iff.2 hts
    exact ⟨(ts ++ rest).length - 1, by simp only [List.length_cons, List.length_append]; omega⟩
  refine .remaining ?_
  rw [hfuel]
  exact g.climb_reads_assignment hr (fuel + 1) start (by decide) hlhs
    (h _ (g.climb_continues fuel (by decide)))

/-- The tokens of the tree are read as the tree, wherever an operand and wherever an expression may
stand. -/
structure Readable (t : Tree) : Prop where
  begins : ∀ rest, Peek.atEnd (t.tokens ++ rest) = false
  operand : ∀ {depth rest}, t.operandTokens.length < depth → EndsOperand rest →
    Reads ((ofDepth depth).unary true) t.operandTokens rest (·.SpellsOperand t)
  continued : ∀ {depth inner rest p}, (ofDepth inner).Continues p → t.tokens.length < depth →
    t.tokens.length ≤ inner → EndsExpr rest → Reads (do
      let start ← place
      let e ← (ofDepth depth).unary true
      p start e) t.tokens rest (·.Spells t)

theorem operation_reads_parenthesized {t : Tree} {ts rest : List Token} {depth : Nat}
    (hbegins : Peek.atEnd (ts ++ .closing .paren :: rest) = false) (hr : EndsOperand rest)
    (h : Reads ((ofDepth depth).expr true) ts (.closing .paren :: rest) (·.Spells t)) :
    Reads ((ofDepth depth).operation true) (parenthesizedTokens ts) rest
      (fun e => ∃ inner, e = .paren inner ∧ inner.Spells t) :=
  (ofDepth depth).operation_reads_atom (.opening _ _) hr
    ((ofDepth depth).atom_reads_parenthesized hbegins h)

theorem expr_reads {ts rest : List Token} {post : Expr → Prop} {depth : Nat}
    (h : ∀ p, (ofDepth depth).Continues p → Reads (do
      let start ← place
      let e ← (ofDepth (depth + 1)).unary true
      p start e) ts rest post) : Reads ((ofDepth (depth + 1)).expr true) ts rest post :=
  h _ ((ofDepth depth).climbFrom_continues (by decide : 0 ≤ _))

theorem unary_reads {t : Tree} {ts rest : List Token} {depth : Nat}
    (h : Reads ((ofDepth depth).operation true) ts rest (·.SpellsOperand t)) :
    Reads ((ofDepth (depth + 1)).unary true) ts rest (·.SpellsOperand t) :=
  (ofDepth depth).unaryOf_reads (fun _ he => Expr.isVerbatim_of_isOperand he.isOperand) h

namespace Readable

variable {t : Tree} {rest : List Token}

theorem ofOperation (hinfixed : t.isInfix = false)
    (hbegins : ∀ rest, Peek.atEnd (t.tokens ++ rest) = false)
    (h : ∀ {depth rest}, t.tokens.length ≤ depth → EndsOperand rest →
      Reads ((ofDepth depth).operation true) t.tokens rest (·.SpellsOperand t)) : Readable t := by
  have hunary : ∀ {depth rest}, t.tokens.length < depth → EndsOperand rest →
      Reads ((ofDepth depth).unary true) t.tokens rest (·.SpellsOperand t) := by
    intro depth rest hdepth hr
    obtain ⟨depth, rfl⟩ : ∃ k, depth = k + 1 := ⟨depth - 1, by omega⟩
    exact unary_reads (h (by omega) hr)
  refine ⟨hbegins, ?_, ?_⟩
  · intro depth rest hdepth hr
    have htokens : t.operandTokens = t.tokens := by
      rw [Tree.operandTokens, hinfixed]
      rfl
    rw [htokens] at hdepth ⊢
    exact hunary hdepth hr
  · intro depth inner rest p hp hdepth hinner hr
    refine .place fun start => (hunary hdepth hr.toEndsOperand).last fun e he => ?_
    refine (hp.none hr he.spells.isRange).mono ?_
    rintro r rfl
    exact he.spells

theorem ofExpression (hinfixed : t.isInfix = true)
    (hbegins : ∀ rest, Peek.atEnd (t.tokens ++ rest) = false)
    (h : ∀ {depth inner rest p}, (ofDepth inner).Continues p → t.tokens.length < depth →
      t.tokens.length ≤ inner → EndsExpr rest → Reads (do
        let start ← place
        let e ← (ofDepth depth).unary true
        p start e) t.tokens rest (·.Spells t)) : Readable t := by
  refine ⟨hbegins, ?_, h⟩
  intro depth rest hdepth hr
  have htokens : t.operandTokens = parenthesizedTokens t.tokens := by
    rw [Tree.operandTokens, hinfixed]
    rfl
  rw [htokens] at hdepth ⊢
  simp only [parenthesizedTokens, List.length_cons, List.length_append, List.length_nil] at hdepth
  obtain ⟨depth, rfl⟩ : ∃ k, depth = k + 2 := ⟨depth - 2, by omega⟩
  have hexpr : Reads ((ofDepth (depth + 1)).expr true) t.tokens (.closing .paren :: rest)
      (·.Spells t) :=
    expr_reads fun p hp => h hp (by omega) (by omega) (.closing _ _)
  refine unary_reads ((operation_reads_parenthesized (hbegins _) hr hexpr).mono ?_)
  rintro e ⟨inner, rfl, he⟩
  exact ⟨he.toTree, rfl⟩

theorem expr (h : Readable t) {depth : Nat} (hdepth : t.tokens.length < depth)
    (hr : EndsExpr rest) : Reads ((ofDepth depth).expr true) t.tokens rest (·.Spells t) := by
  obtain ⟨inner, rfl⟩ : ∃ k, depth = k + 1 := ⟨depth - 1, by omega⟩
  exact expr_reads fun p hp => h.continued hp hdepth (by omega) hr

theorem parenthesized (h : Readable t) {depth : Nat} (hdepth : t.tokens.length < depth)
    (hr : EndsOperand rest) :
    Reads ((ofDepth depth).operation true) (parenthesizedTokens t.tokens) rest
      (fun e => ∃ inner, e = .paren inner ∧ inner.Spells t) :=
  operation_reads_parenthesized (h.begins _) hr (h.expr hdepth (.closing _ _))

theorem bool (b : Bool) : Readable (.literal (.bool b)) := by
  refine ofOperation rfl (fun _ => rfl) fun {depth rest} _ hr => ?_
  refine ((ofDepth depth).operation_reads_atom (.word _ _) hr
    ((ofDepth depth).atom_reads_bool b)).mono ?_
  rintro e rfl
  exact ⟨rfl, rfl⟩

theorem str (s : String) : Readable (.literal (.str s)) := by
  refine ofOperation rfl (fun _ => rfl) fun {depth rest} _ hr => ?_
  refine ((ofDepth depth).operation_reads_atom (.literal _ _) hr
    ((ofDepth depth).atom_reads_literal _)).mono ?_
  rintro e rfl
  exact ⟨rfl, rfl⟩

theorem reference {name : String} (h : isIdentifier name = true) : Readable (.reference name) := by
  have htokens : (Tree.reference name).tokens = [.word name] := by
    rw [Tree.tokens, nameToken_of_isIdentifier h]
  refine ofOperation rfl (fun _ => by rw [htokens]; rfl) fun {depth rest} _ hr => ?_
  rw [htokens]
  refine ((ofDepth depth).operation_reads_atom (.word _ _) hr
    ((ofDepth depth).atom_reads_word (isName_of_isIdentifier h) hr.toEndsPath)).mono ?_
  rintro e rfl
  exact ⟨rfl, rfl⟩

theorem toValue_int {spelling : String} {n : Nat} (h : n < Nat.pow 2 63) :
    (Literal.int spelling n).toValue = .ok (.int (Int64.ofNat n)) := by
  rw [Literal.toValue, if_pos h]

theorem natural {n : Int64} {k : Nat} (hn : n.toInt = .ofNat k) :
    Readable (.literal (.int n)) := by
  have htokens : (Tree.literal (.int n)).tokens = intTokens n.toInt := rfl
  have hk : k < Nat.pow 2 63 := by
    have hpow : Nat.pow 2 63 = 9223372036854775808 := by decide
    have hhi := n.toInt_lt
    rw [hn] at hhi
    simp only [Int.ofNat_eq_natCast] at hhi
    omega
  have hvalue : Int64.ofNat k = n := by
    rw [← Int64.ofInt_eq_ofNat, ← Int.ofNat_eq_natCast, ← hn, n.ofInt_toInt]
  rw [hn] at htokens
  refine ofOperation rfl (fun _ => by rw [htokens]; rfl) fun {depth rest} _ hr => ?_
  rw [htokens]
  refine ((ofDepth depth).operation_reads_atom (.literal _ _) hr
    ((ofDepth depth).atom_reads_literal _)).mono ?_
  rintro e rfl
  refine ⟨?_, rfl⟩
  rw [Expr.toTree, toValue_int hk, hvalue]
  rfl

theorem negative {n : Int64} {k : Nat} (hn : n.toInt = .negSucc k) (hmin : n ≠ Int64.minValue) :
    Readable (.literal (.int n)) := by
  have htokens : (Tree.literal (.int n)).tokens = intTokens n.toInt := rfl
  have hk : k + 1 < Nat.pow 2 63 := by
    have hpow : Nat.pow 2 63 = 9223372036854775808 := by decide
    have hlo := n.le_toInt
    rw [Ne, ← Int64.toInt_inj, Int64.toInt_minValue] at hmin
    rw [hn] at hlo hmin
    omega
  have hvalue : -Int64.ofNat (k + 1) = n := by
    have hneg : -((k + 1 : Nat) : Int) = n.toInt := by
      rw [hn]
      rfl
    rw [← Int64.ofInt_eq_ofNat, ← Int64.ofInt_neg, hneg, n.ofInt_toInt]
  rw [hn] at htokens
  refine ofOperation rfl (fun _ => by rw [htokens]; rfl) fun {depth rest} hdepth hr => ?_
  rw [htokens] at hdepth ⊢
  obtain ⟨inner, rfl⟩ : ∃ j, depth = j + 1 := ⟨depth - 1, by simp [intTokens] at hdepth; omega⟩
  have hdigits : Reads ((ofDepth (inner + 1)).unary true)
      [.literal (.int (toString (k + 1)) (k + 1))] rest
      (· = .literal (.int (toString (k + 1)) (k + 1))) := by
    refine (ofDepth inner).unaryOf_reads ?_ ((ofDepth inner).operation_reads_atom
      (.literal _ _) hr ((ofDepth inner).atom_reads_literal _))
    rintro e rfl
    rfl
  refine ((ofDepth (inner + 1)).operation_reads_neg hdigits).mono ?_
  rintro e ⟨d, rfl, rfl⟩
  refine ⟨?_, rfl⟩
  rw [Expr.toTree, Expr.toTree, toValue_int hk]
  simp only [Except.map, negated, hvalue]

theorem int (n : Int64) (h : n ≠ Int64.minValue) : Readable (.literal (.int n)) := by
  cases hn : n.toInt with
  | ofNat k => exact natural hn
  | negSucc k => exact negative hn h

theorem unary_parenthesized (h : Readable t) {depth : Nat} (hdepth : t.tokens.length < depth)
    (hr : EndsOperand rest) :
    Reads ((ofDepth (depth + 1)).unary true) (parenthesizedTokens t.tokens) rest
      (fun e => ∃ inner, e = .paren inner ∧ inner.Spells t) := by
  refine (ofDepth depth).unaryOf_reads ?_ (h.parenthesized hdepth hr)
  rintro e ⟨inner, rfl, -⟩
  rfl

theorem ofPrefix (h : Readable t) {op : String} {c : Char} {make : Expr → Expr}
    (hop : nameToken op = .mark c false)
    (hmake : ∀ inner, inner.Spells t → (make (.paren inner)).SpellsOperand (.callNamed op [t]))
    (hread : ∀ (depth : Nat) {ts rest : List Token} {post : Expr → Prop},
      Reads ((ofDepth depth).unary true) ts rest post →
      Reads ((ofDepth depth).operation true) (.mark c false :: ts) rest
        (fun e => ∃ inner, e = make inner ∧ post inner)) : Readable (.callNamed op [t]) := by
  have htokens : (Tree.callNamed op [t]).tokens = .mark c false :: parenthesizedTokens t.tokens := by
    rw [Tree.tokens_unary, hop]
  refine ofOperation (Tree.isInfix_callNamed_single op t) (fun _ => by rw [htokens]; rfl)
    fun {depth rest} hdepth hr => ?_
  rw [htokens] at hdepth ⊢
  simp only [parenthesizedTokens, List.length_cons, List.length_append, List.length_nil] at hdepth
  obtain ⟨depth, rfl⟩ : ∃ k, depth = k + 1 := ⟨depth - 1, by omega⟩
  have hdepth : t.tokens.length < depth := by omega
  refine (hread (depth + 1) (h.unary_parenthesized hdepth hr)).mono ?_
  rintro e ⟨operand, rfl, inner, rfl, hinner⟩
  exact hmake inner hinner

theorem not (h : Readable t) : Readable (.callNamed "!" [t]) := by
  refine h.ofPrefix rfl ?_ fun depth => (ofDepth depth).operation_reads_not
  intro inner hinner
  refine ⟨?_, rfl⟩
  have htree : (Expr.not (.paren inner)).toTree =
      inner.toTree.map fun t => .callNamed "!" [t] := rfl
  rw [htree, hinner.toTree]
  rfl

theorem negated_of_not_number (h : t.isNumber = false) : negated t = .callNamed "-" [t] := by
  unfold negated
  split <;> simp_all [Tree.isNumber]

theorem neg (h : Readable t) (hnumber : t.isNumber = false) : Readable (.callNamed "-" [t]) := by
  refine h.ofPrefix rfl ?_ fun depth => (ofDepth depth).operation_reads_neg
  intro inner hinner
  refine ⟨?_, rfl⟩
  have htree : (Expr.neg (.paren inner)).toTree = inner.toTree.map negated := rfl
  rw [htree, hinner.toTree, ← negated_of_not_number hnumber]
  rfl

theorem begins_operandTokens (h : Readable t) (rest : List Token) :
    Peek.atEnd (t.operandTokens ++ rest) = false := by
  rw [Tree.operandTokens]
  cases t.isInfix with
  | true => rfl
  | false => exact h.begins rest

theorem operator {op : String} {a b : Tree} (hop : binaryOperators.contains op = true)
    (ha : Readable a) (hb : Readable b) : Readable (.callNamed op [a, b]) := by
  have htokens := Tree.tokens_operator op a b hop
  refine ofExpression (Tree.isInfix_callNamed a b hop) ?_ ?_
  · intro rest
    rw [htokens, List.append_assoc, List.append_assoc]
    exact ha.begins_operandTokens _
  · intro depth inner rest p hp hdepth hinner hr
    rw [htokens, List.append_assoc] at hdepth hinner ⊢
    simp only [List.length_append] at hdepth hinner
    have hpos : 0 < (Token.operator op.toList).length := length_operator_pos hop
    have ha' : a.operandTokens.length < depth := by omega
    have hb' : b.operandTokens.length < inner := by omega
    have hleft := ha.operand ha' (.operator hop (b.operandTokens ++ rest))
    have hright := hb.operand hb' hr.toEndsOperand
    refine .place fun start => Reads.bind (by simpa using hleft) fun e he => ?_
    refine (hp.operator hop hr he.isOperand (fun e he => he.spells.isRange) hright).mono ?_
    rintro r ⟨rhs, rfl, hrhs⟩
    refine ⟨?_, .inr ⟨op, e, rhs, rfl⟩⟩
    rw [Expr.toTree, if_pos hop, he.toTree, hrhs.toTree]
    rfl

theorem begins_headTokens (h : Readable t) (rest : List Token) :
    Peek.atEnd (t.headTokens ++ rest) = false := by
  rw [Tree.headTokens]
  cases t.isReference with
  | true => exact h.begins rest
  | false => rfl

theorem head (hsource : t.HasSource) (h : Readable t) {depth : Nat}
    (hdepth : t.tokens.length < depth) (hr : EndsPath rest) :
    Reads ((ofDepth depth).atom true) t.headTokens rest (·.SpellsOperand t) := by
  cases hreference : t.isReference with
  | true =>
    obtain ⟨name, rfl⟩ : ∃ name, t = .reference name := by
      cases t <;> simp_all [Tree.isReference]
    have hname := hsource.isIdentifier
    have htokens : (Tree.reference name).headTokens = [.word name] := by
      rw [Tree.headTokens, Tree.tokens, nameToken_of_isIdentifier hname]
      rfl
    rw [htokens]
    refine ((ofDepth depth).atom_reads_word (isName_of_isIdentifier hname) hr).mono ?_
    rintro e rfl
    exact ⟨rfl, rfl⟩
  | false =>
    have htokens : t.headTokens = parenthesizedTokens t.tokens := by
      rw [Tree.headTokens, hreference]
      rfl
    rw [htokens]
    refine ((ofDepth depth).atom_reads_parenthesized (h.begins _)
      (h.expr hdepth (.closing _ _))).mono ?_
    rintro e ⟨inner, rfl, he⟩
    exact ⟨he.toTree, rfl⟩

theorem slot {s : Slot} (hname : ∀ name ∈ s.name, isIdentifier name = true)
    (h : Readable s.val) {depth : Nat} (hdepth : s.tokens.length < depth) (hr : EndsExpr rest) :
    Reads ((ofDepth depth).expr true) s.tokens rest (·.SpellsSlot s) := by
  obtain ⟨name, t⟩ := s
  cases name with
  | none => exact (h.expr hdepth hr).mono fun e he => he.unnamed
  | some name =>
    have h : Readable t := h
    have hname := isName_of_isIdentifier (hname name rfl)
    have htokens : Slot.tokens ⟨some name, t⟩ = [.word name] ++ (.mark '=' false :: t.tokens) := rfl
    rw [htokens] at hdepth ⊢
    simp only [List.length_append, List.length_cons, List.length_nil] at hdepth
    obtain ⟨depth, rfl⟩ : ∃ k, depth = k + 1 := ⟨depth - 1, by omega⟩
    have hword : Reads ((ofDepth (depth + 1)).unary true) [.word name]
        (.mark '=' false :: t.tokens ++ rest) (· = .path false [name]) := by
      refine (ofDepth depth).unaryOf_reads ?_ ((ofDepth depth).operation_reads_atom
        (.word _ _) (.assignment _) ((ofDepth depth).atom_reads_word hname
          (EndsOperand.assignment _).toEndsPath))
      rintro e rfl
      rfl
    have hnonempty : t.tokens ≠ [] := by
      intro hnil
      have hbegins := h.begins []
      rw [hnil] at hbegins
      exact absurd hbegins (by decide)
    have hvalue : ∀ start, Reads ((ofDepth depth).climbFrom true start 0 (.path false [name]))
        (.mark '=' false :: t.tokens) rest (·.SpellsSlot ⟨some name, t⟩) := by
      intro start
      refine ((ofDepth depth).climbFrom_reads_assignment hr hnonempty start rfl fun p hp =>
        h.continued hp (by omega) (by omega) hr).mono ?_
      rintro e ⟨value, target, text, rfl, hv⟩
      exact hv.named name target text
    exact .place fun start => hword.bind fun e he => he ▸ hvalue start

theorem length_le_of_mem {items : List (List Token)} {ts : List Token} (h : ts ∈ items) :
    ts.length ≤ (commaTokens items).length := by
  induction items with
  | nil => simp at h
  | cons us items ih =>
    cases items with
    | nil =>
      obtain rfl := List.mem_singleton.1 h
      simp [commaTokens]
    | cons vs items =>
      simp only [commaTokens] at ih ⊢
      rw [List.intercalate_cons_cons]
      simp only [List.length_append]
      rcases List.mem_cons.1 h with rfl | h
      · omega
      · have := ih h
        omega

theorem beginsOperand_headTokens (hsource : t.HasSource) (rest : List Token) :
    BeginsOperand (t.headTokens ++ rest) := by
  rw [Tree.headTokens]
  cases hreference : t.isReference with
  | true =>
    obtain ⟨name, rfl⟩ : ∃ name, t = .reference name := by
      cases t <;> simp_all [Tree.isReference]
    rw [Tree.tokens, nameToken_of_isIdentifier hsource.isIdentifier]
    exact .word name rest
  | false => exact .opening _ _

theorem begins_slot {s : Slot} (h : Readable s.val) (rest : List Token) :
    Peek.atEnd (s.tokens ++ rest) = false := by
  obtain ⟨name, t⟩ := s
  cases name with
  | none => exact h.begins rest
  | some name => rfl

theorem call {args : List Slot} (hsource : t.HasSource) (h : Readable t)
    (hargs : ∀ s ∈ args, Readable s.val)
    (hnames : ∀ s ∈ args, ∀ name ∈ s.name, isIdentifier name = true) :
    Readable (.call t args) := by
  have hinfixed := hsource.isInfix_call args
  have htokens := Tree.tokens_call t args hinfixed
  refine ofOperation hinfixed ?_ fun {depth rest} hdepth hr => ?_
  · intro rest
    rw [htokens, List.append_assoc]
    exact h.begins_headTokens _
  rw [htokens] at hdepth ⊢
  have hhead : t.tokens.length ≤ t.headTokens.length := by
    rw [Tree.headTokens]
    cases t.isReference with
    | true => exact Nat.le_refl _
    | false =>
      simp only [parenthesizedTokensIf, parenthesizedTokens, Bool.not_false, if_true,
        List.length_cons, List.length_append]
      omega
  rw [List.length_append] at hdepth
  have hinner : (commaTokens (args.map Slot.tokens)).length < depth ∧ t.tokens.length < depth := by
    simp only [parenthesizedTokens, List.length_cons, List.length_append] at hdepth
    omega
  have hslots : ∀ s ∈ args, ∀ rest, EndsExpr rest →
      Reads ((ofDepth depth).expr true) s.tokens rest (·.SpellsSlot s) := by
    intro s hs rest hr
    have hlength := length_le_of_mem (List.mem_map_of_mem (f := Slot.tokens) hs)
    exact slot (hnames s hs) (hargs s hs) (by omega) hr
  have harguments : Reads (ofDepth depth).arguments
      (parenthesizedTokens (commaTokens (args.map Slot.tokens))) rest
      (List.Forall₂ Expr.SpellsSlot · args) :=
    (ofDepth depth).arguments_reads (fun s hs rest => begins_slot (hargs s hs) rest) hslots
  refine (ofDepth depth).operation_reads_attributed ?_ (head hsource h hinner.2 (.opening _)) ?_
  · rw [List.append_assoc]
    exact beginsOperand_headTokens hsource _
  · intro start e he
    refine ((ofDepth depth).trailersFrom_reads_arguments hr harguments start e).mono ?_
    rintro r ⟨es, rfl, hes⟩
    refine ⟨?_, rfl⟩
    rw [Expr.toTree, he.toTree, Expr.toSlots_of_forall₂ hes]
    rfl

end Readable

end Grammar

end Source

open Source Grammar

namespace Tree

variable {t : Tree}

theorem HasSource.readable (h : t.HasSource) : Readable t := by
  induction h with
  | int n h => exact .int n h
  | bool b => exact .bool b
  | str s => exact .str s
  | reference name h => exact .reference h
  | operator op a b h _ _ iha ihb => exact .operator h iha ihb
  | not x _ ih => exact ih.not
  | neg x _ h ih => exact ih.neg h
  | call head args hhead _ hnames ih ihargs => exact .call hhead ih ihargs hnames

theorem HasSource.ofTokens?_tokens (h : t.HasSource) :
    ∃ e, Expr.ofTokens? t.tokens = some e ∧ e.toTree = .ok t := by
  have hdepth : t.tokens.length < 2 * t.tokens.length + 2 := by omega
  obtain ⟨e, written, he, hspells⟩ := h.readable.expr hdepth .nil []
  rw [List.append_nil] at he
  exact ⟨e, by rw [Expr.ofTokens?, he], hspells.toTree⟩

end Tree

end Quotation

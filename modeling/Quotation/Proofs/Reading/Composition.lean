import Quotation.Proofs.Hereditary
import Quotation.Source.Tree

namespace Quotation.Source

/-- Trees in `P` and arguments in `Q`, closed under the ways in which reading makes a tree. -/
structure Composition (P Q : Tree → Prop) : Prop where
  constant : ∀ l : Literal, Gives (fun v => P (.literal v)) l.toValue
  bool : ∀ b, P (.literal (.bool b))
  null : P (.literal .null)
  reference : ∀ name, P (.reference name)
  call : ∀ {head args}, P head → (∀ u ∈ args.map Named.val, Q u) → P (.call head args)
  unquote : ∀ {t}, P t → P (.unquote t)
  splice : ∀ {t}, P t → P (.splice t)
  negated : ∀ {t}, P t → P (negated t)
  argument : ∀ {t}, P t → Q t
  definition : ∀ {n v}, P n → P v → Q (.define n v)

namespace Composition

variable {P Q : Tree → Prop}

theorem callNamed (h : Composition P Q) (name : String) {ts : List Tree} (hts : ∀ t ∈ ts, P t) :
    P (.callNamed name ts) := by
  refine h.call (h.reference name) ?_
  simpa [Named.positional] using fun t ht => h.argument (hts t ht)

theorem toTree_gives (h : Composition P Q) :
    (∀ e : Expr, Gives P e.toTree) ∧
      ∀ l : List Expr, Gives (fun slots => ∀ u ∈ slots.map Named.val, Q u) (Expr.toSlots l) := by
  refine Expr.toTree.mutual_induct _ _ ?literal ?bool ?path ?genericPath ?paren ?group ?unit ?dots
    ?deref ?splice ?unquote ?not ?neg ?binary ?noOperator ?call ?turbofish ?method ?array ?assign
    ?other ?nil ?define ?named ?unnamed
  case literal => exact fun l => (h.constant l).map fun _ hv => hv
  case bool => exact fun b => .ok (h.bool b)
  case path => exact fun _ names => .ok (h.reference _)
  case genericPath => exact fun _ => .error _
  case paren | group => exact fun e he => he
  case unit => exact .ok h.null
  case dots => exact .ok (h.reference _)
  case deref => exact fun _ => .error _
  case splice => exact fun e he => he.map fun t ht => h.splice ht
  case unquote =>
    intro e hplain he
    rw [Expr.toTree.eq_11 _ hplain]
    exact he.map fun t ht => h.unquote ht
  case not =>
    intro e hplain hplain' he
    rw [Expr.toTree.eq_12 _ hplain hplain']
    exact he.map fun t ht => h.callNamed "!" (List.forall_mem_singleton.2 ht)
  case neg => exact fun e he => he.map fun t ht => h.negated ht
  case binary =>
    intro op a b hop ha hb
    rw [Expr.toTree, if_pos hop]
    refine ha.bind fun t ht => hb.bind fun u hu => .ok ?_
    exact h.callNamed op (by simp [ht, hu])
  case noOperator =>
    intro op a b hop
    rw [Expr.toTree, if_neg hop]
    exact .error _
  case call =>
    exact fun head args hhead hargs =>
      hhead.bind fun t ht => hargs.bind fun slots hslots => .ok (h.call ht hslots)
  case turbofish => exact fun _ _ _ _ => .error _
  case method =>
    exact fun receiver name args hreceiver hargs =>
      hreceiver.bind fun t ht => hargs.bind fun slots hslots =>
        .ok (h.call (h.reference name) (List.forall_mem_cons.2 ⟨h.argument ht, hslots⟩))
  case array =>
    exact fun elements helements =>
      helements.bind fun slots hslots => .ok (h.call (h.reference "list") hslots)
  case assign => exact fun _ _ _ _ => .error _
  case other => exact fun _ _ => .error _
  case nil => exact .ok nofun
  case define =>
    exact fun name value _ _ rest hvalue hname hrest =>
      hvalue.bind fun v hv => hname.bind fun n hn => hrest.bind fun slots hslots =>
        .ok (List.forall_mem_cons.2 ⟨h.definition hn hv, hslots⟩)
  case named =>
    intro target value targetText text rest hplain hvalue hrest
    rw [Expr.toSlots.eq_3 _ _ _ _ _ hplain]
    refine hvalue.bind fun v hv => (Gives.trivial _).bind fun name _ => ?_
    exact hrest.bind fun slots hslots => .ok (List.forall_mem_cons.2 ⟨h.argument hv, hslots⟩)
  case unnamed =>
    intro e rest hdefine hassign he hrest
    rw [Expr.toSlots.eq_4 _ _ hdefine hassign]
    exact he.bind fun t ht => hrest.bind fun slots hslots =>
      .ok (List.forall_mem_cons.2 ⟨h.argument ht, hslots⟩)

theorem parse_gives (h : Composition P Q) (source : String) : Gives P (parse source) := by
  unfold parse
  split
  · exact h.toTree_gives.1 _
  · exact .error _

end Composition

end Quotation.Source

import Mathlib.Data.List.Forall2
import Quotation.Proofs.Reading.Rule
import Quotation.Proofs.Reading.Spelling

namespace Quotation.Source

structure EndsPath (ts : List Token) : Prop where
  noSegment : Peek.mark "::" ts = false
  noMacro : Grammar.beginsMacro ts = false
  noFields : Peek.opening .brace ts = false
  noBuiltin : Peek.mark "#" ts = false

structure EndsOperand (ts : List Token) : Prop extends EndsPath ts where
  noArguments : Peek.opening .paren ts = false
  noMember : Grammar.beginsPoint ts = false
  noIndex : Peek.opening .bracket ts = false
  noQuestion : Peek.mark "?" ts = false

structure EndsExpr (ts : List Token) : Prop extends EndsOperand ts where
  noOperator : operator? ts = none
  noAssignment : Grammar.beginsAssignment ts = false
  noRange : Peek.mark ".." ts = false
  noCast : Peek.word "as" ts = false

theorem EndsPath.opening (ts : List Token) : EndsPath (.opening .paren :: ts) :=
  ⟨rfl, rfl, rfl, rfl⟩

theorem EndsExpr.nil : EndsExpr [] :=
  ⟨⟨⟨rfl, rfl, rfl, rfl⟩, rfl, rfl, rfl, rfl⟩, rfl, rfl, rfl, rfl⟩

theorem EndsExpr.closing (d : Delimiter) (ts : List Token) : EndsExpr (.closing d :: ts) :=
  ⟨⟨⟨rfl, rfl, rfl, rfl⟩, rfl, rfl, rfl, rfl⟩, rfl, rfl, rfl, rfl⟩

theorem EndsExpr.comma (ts : List Token) : EndsExpr (.mark ',' false :: ts) :=
  ⟨⟨⟨rfl, rfl, rfl, rfl⟩, rfl, rfl, rfl, rfl⟩, rfl, rfl, rfl, rfl⟩

theorem EndsOperand.assignment (ts : List Token) : EndsOperand (.mark '=' false :: ts) :=
  ⟨⟨rfl, rfl, rfl, rfl⟩, rfl, rfl, rfl, rfl⟩

namespace Grammar

open Rule

variable (g : Grammar) {rest : List Token}

theorem isName_ne {w : String} (hw : isName w = true) {keyword : String}
    (hk : isName keyword = false) : w ≠ keyword := by
  rintro rfl
  simp [hw] at hk

theorem anyOf_word {w : String} (hw : isName w = true) {words : List String}
    (hwords : ∀ u ∈ words, isName u = false) : Peek.anyOf words (.word w :: rest) = false := by
  simp only [Peek.anyOf, Peek.word, List.any_eq_false, beq_iff_eq]
  exact fun u hu => isName_ne hw (hwords u hu)

theorem segment_reads {w : String} (hw : isName w = true) (hr : EndsPath rest) :
    Reads (g.segment true) [.word w] rest (· = (w, false)) := by
  intro written
  have hbare : Peek.anyOf bareWords (.word w :: rest) = false := anyOf_word hw (by decide)
  have hself : w ≠ "Self" := isName_ne hw (by decide)
  refine ⟨_, .word w :: written, ?_, rfl⟩
  simp [segment, bind_apply, Rule.peek, hbare, Peek.word, hself, Rule.name, hw, beginsArguments,
    hr.noSegment]

theorem segments_read_none (hr : EndsPath rest) (fuel : Nat) :
    Reads (g.segments true fuel) [] rest (· = []) := by
  cases fuel with
  | zero => exact .pure rfl
  | succ fuel =>
    refine .ifFalse ?_ (.pure rfl)
    simp [hr.noSegment]

theorem path_reads {w : String} (hw : isName w = true) (hr : EndsPath rest) :
    Reads (g.path true) [.word w] rest (· = ⟨false, false, [(w, false)]⟩) := by
  have hafter : Reads (g.segmentsAfter true (w, false)) [] rest (· = [(w, false)]) := by
    refine .remaining (.silent (g.segments_read_none hr _) ?_)
    rintro segments rfl
    exact .pure rfl
  have hunqualified : Reads (g.unqualifiedPath true) [.word w] rest
      (· = ⟨false, false, [(w, false)]⟩) := by
    have hmark : Reads (optionalMark "::") [] ([.word w] ++ rest) fun _ => True :=
      .ifFalse rfl (.pure trivial)
    refine .peek (.silent hmark fun _ _ => ?_)
    refine (g.segment_reads hw hr).last ?_
    rintro first rfl
    refine .silent hafter ?_
    rintro segments rfl
    exact .pure rfl
  exact .ifFalse rfl hunqualified

theorem pathExpr_reads {w : String} (hw : isName w = true) (hr : EndsPath rest) :
    Reads (g.pathExpr true) [.word w] rest (· = .path false [w]) := by
  refine .place fun start => (g.path_reads hw hr).last ?_
  rintro p rfl
  refine .ifFalse ?_ (.ifFalse ?_ ?_)
  · simp [hr.noMacro]
  · simp [hr.noFields]
  · exact .pure rfl

theorem beginsLiteral_word {w : String} (hw : isName w = true) :
    beginsLiteral (.word w :: rest) = false := by
  have htrue : w ≠ "true" := isName_ne hw (by decide)
  have hfalse : w ≠ "false" := isName_ne hw (by decide)
  simp [beginsLiteral, Peek.bool, htrue, hfalse]

theorem atom_reads_word {w : String} (hw : isName w = true) (hr : EndsPath rest) :
    Reads (g.atom true) [.word w] rest (· = .path false [w]) := by
  refine .ifFalse (beginsLiteral_word hw) (.ifFalse ?_ (.ifTrue ?_ (g.pathExpr_reads hw hr)))
  · simp [beginsBuiltin, Peek.next, hr.noBuiltin]
  · simp [beginsPathExpr, beginsPath, Peek.name, hw]

theorem atom_reads_literal (l : Literal) :
    Reads (g.atom true) [.literal l] rest (· = .literal l) := by
  refine .ifTrue (by simp [beginsLiteral]) fun written => ?_
  exact ⟨.literal l, .literal l :: written, rfl, rfl⟩

theorem atom_reads_bool (b : Bool) :
    Reads (g.atom true) [.word (boolText b)] rest (· = .bool b) := by
  refine .ifTrue ?_ fun written => ?_
  · cases b <;> rfl
  · refine ⟨.bool b, .word (boolText b) :: written, ?_, rfl⟩
    cases b <;> rfl

theorem atom_reads_parenthesized {ts : List Token} {post : Expr → Prop}
    (hts : Peek.atEnd (ts ++ .closing .paren :: rest) = false)
    (h : Reads (g.expr true) ts (.closing .paren :: rest) post) :
    Reads (g.atom true) (parenthesizedTokens ts) rest
      (fun e => ∃ inner, e = .paren inner ∧ post inner) := by
  have hparens : Reads g.parenthesized (parenthesizedTokens ts) rest
      (fun e => ∃ inner, e = .paren inner ∧ post inner) := by
    refine .place fun start => (opening_reads .paren).bind fun _ _ => .ifFalse ?_ ?_
    · simpa using hts
    · refine h.bind fun e he => .ifTrue rfl ?_
      exact (closing_reads .paren).bind fun _ _ => .pure ⟨e, rfl, he⟩
  exact .ifFalse rfl (.ifFalse rfl (.ifFalse rfl (.ifTrue rfl hparens)))

theorem separated_reads {α β : Type} {item : Rule α} {tokens : β → List Token}
    {goal : α → β → Prop} {items : List β} (d : Delimiter)
    (hbegin : ∀ b ∈ items, ∀ rest, Peek.atEnd (tokens b ++ rest) = false)
    (hitem : ∀ b ∈ items, ∀ rest, EndsExpr rest → Reads item (tokens b) rest (goal · b))
    (fuel : Nat) (hfuel : items.length < fuel) :
    Reads (separated Peek.atEnd item fuel) (commaTokens (items.map tokens)) (.closing d :: rest)
      (List.Forall₂ goal · items) := by
  induction items generalizing fuel with
  | nil =>
    obtain ⟨fuel, rfl⟩ : ∃ k, fuel = k + 1 := ⟨fuel - 1, by simp at hfuel; omega⟩
    exact .ifTrue rfl (.pure .nil)
  | cons b items ih =>
    rw [List.length_cons] at hfuel
    obtain ⟨fuel, rfl⟩ : ∃ k, fuel = k + 1 := ⟨fuel - 1, by omega⟩
    have ih := ih (fun c hc => hbegin c (by simp [hc])) (fun c hc => hitem c (by simp [hc])) fuel
      (by omega)
    have hb := hbegin b (by simp)
    cases items with
    | nil =>
      have hread := hitem b (by simp) (.closing d :: rest) (.closing d rest)
      have hts : commaTokens ([b].map tokens) = tokens b ++ [] := by simp [commaTokens]
      rw [hts]
      refine .ifFalse (by simpa using hb (.closing d :: rest)) (hread.bind fun a ha => ?_)
      exact .ifTrue rfl (.pure (.cons ha .nil))
    | cons c items =>
      have hts : commaTokens ((b :: c :: items).map tokens) =
          tokens b ++ (Token.operator [','] ++ commaTokens ((c :: items).map tokens)) := by
        simp [commaTokens, List.intercalate_cons_cons, Token.operator]
      rw [hts]
      refine .ifFalse (by simpa using hb _) ?_
      refine (hitem b (by simp) _ (.comma _)).bind fun a ha => .ifFalse rfl ?_
      refine (mark_reads ",").bind fun _ _ => ?_
      exact ih.last fun as has => .pure (.cons ha has)

theorem length_le_commaTokens (items : List (List Token)) :
    items.length ≤ (commaTokens items).length + 1 := by
  induction items with
  | nil => simp
  | cons ts items ih =>
    cases items with
    | nil => simp
    | cons us items =>
      simp only [commaTokens] at ih ⊢
      rw [List.intercalate_cons_cons]
      simp only [List.length_append, List.length_cons, List.length_nil] at ih ⊢
      omega

theorem arguments_reads {β : Type} {tokens : β → List Token} {goal : Expr → β → Prop}
    {items : List β} (hbegin : ∀ b ∈ items, ∀ rest, Peek.atEnd (tokens b ++ rest) = false)
    (hitem : ∀ b ∈ items, ∀ rest, EndsExpr rest → Reads (g.expr true) (tokens b) rest (goal · b)) :
    Reads g.arguments (parenthesizedTokens (commaTokens (items.map tokens))) rest
      (List.Forall₂ goal · items) := by
  refine delimited_reads .paren (.remaining ?_)
  refine separated_reads .paren hbegin hitem _ ?_
  have hlength := length_le_commaTokens (items.map tokens)
  rw [List.length_map] at hlength
  rw [List.length_append, List.length_cons]
  omega

theorem trailers_read_none (hr : EndsOperand rest) (fuel start : Nat) (e : Expr) :
    Reads (g.trailers (fuel + 1) start e) [] rest (· = e) := by
  refine .ifFalse hr.noArguments (.ifFalse ?_ (.ifFalse hr.noIndex (.ifFalse ?_ (.pure rfl))))
  · simp [hr.noMember]
  · simp [hr.noQuestion]

theorem trailersFrom_reads_none (hr : EndsOperand rest) (start : Nat) (e : Expr) :
    Reads (g.trailersFrom start e) [] rest (· = e) :=
  .remaining (g.trailers_read_none hr _ start e)

theorem trailersFrom_reads_arguments {ts : List Token} {post : List Expr → Prop}
    (hr : EndsOperand rest) (h : Reads g.arguments (parenthesizedTokens ts) rest post) (start : Nat)
    (e : Expr) :
    Reads (g.trailersFrom start e) (parenthesizedTokens ts) rest
      (fun r => ∃ args, r = .call e args ∧ post args) := by
  refine .remaining (.ifTrue rfl ?_)
  refine h.last fun args hargs => ?_
  obtain ⟨fuel, hfuel⟩ : ∃ k, (parenthesizedTokens ts ++ rest).length = k + 1 :=
    ⟨(ts ++ [Token.closing .paren] ++ rest).length, by simp [parenthesizedTokens]⟩
  rw [hfuel]
  exact (g.trailers_read_none hr fuel start _).mono fun r hr => ⟨args, hr, hargs⟩

theorem attributes_apply (c : Cursor) (h : Peek.mark "#" c.rest = false) :
    g.attributes c = some ((), c) := by
  have houter : ∀ fuel, g.outerAttributes fuel c = some ((), c) := by
    intro fuel
    cases fuel with
    | zero => rfl
    | succ fuel => simp [outerAttributes, bind_apply, Rule.peek, h]
  exact houter c.rest.length

structure BeginsOperand (ts : List Token) : Prop where
  noAttribute : Peek.mark "#" ts = false
  noNot : Peek.mark "!" ts = false
  noMinus : Peek.mark "-" ts = false
  noDeref : Peek.mark "*" ts = false
  noReference : Peek.mark "&" ts = false

theorem BeginsOperand.word (w : String) (ts : List Token) : BeginsOperand (.word w :: ts) :=
  ⟨rfl, rfl, rfl, rfl, rfl⟩

theorem BeginsOperand.literal (l : Literal) (ts : List Token) : BeginsOperand (.literal l :: ts) :=
  ⟨rfl, rfl, rfl, rfl, rfl⟩

theorem BeginsOperand.opening (d : Delimiter) (ts : List Token) :
    BeginsOperand (.opening d :: ts) :=
  ⟨rfl, rfl, rfl, rfl, rfl⟩

variable {ts : List Token} {post mid : Expr → Prop}

theorem unattributed_reads {f : Nat → String → Rule Expr}
    (hts : Peek.mark "#" (ts ++ rest) = false) (h : ∀ start, Reads (f start "") ts rest post) :
    Reads (do let start ← place; g.attributes; let text ← writtenSince start; f start text)
      ts rest post := by
  intro written
  have hwritten : writtenSince written.length ⟨ts ++ rest, written⟩ =
      some ("", ⟨ts ++ rest, written⟩) := by
    simp [writtenSince, Token.render]
  rw [bind_apply]
  simp only [place]
  rw [bind_apply, g.attributes_apply _ hts]
  simp only []
  rw [bind_apply, hwritten]
  exact h written.length written

theorem operation_reads_attributed {us : List Token} (hts : BeginsOperand (ts ++ us ++ rest))
    (hatom : Reads (g.atom true) ts (us ++ rest) mid)
    (htrailers : ∀ start e, mid e → Reads (g.trailersFrom start e) us rest post) :
    Reads (g.operation true) (ts ++ us) rest post := by
  have hattributed : Reads (g.attributed true "") (ts ++ us) rest post := by
    refine .place fun start => hatom.bind fun e he => ?_
    exact (htrailers start e he).last fun r hr => .pure hr
  refine g.unattributed_reads hts.noAttribute fun start => ?_
  exact .ifFalse hts.noNot (.ifFalse hts.noMinus (.ifFalse hts.noDeref
    (.ifFalse hts.noReference hattributed)))

theorem operation_reads_atom (hts : BeginsOperand (ts ++ rest)) (hr : EndsOperand rest)
    (h : Reads (g.atom true) ts rest post) : Reads (g.operation true) ts rest post := by
  have hatom : Reads (g.operation true) (ts ++ []) rest post :=
    g.operation_reads_attributed (by simpa using hts) h fun start e he =>
      (g.trailersFrom_reads_none hr start e).mono fun r hr => hr ▸ he
  rwa [List.append_nil] at hatom

theorem operation_reads_not (h : Reads (g.unary true) ts rest post) :
    Reads (g.operation true) (.mark '!' false :: ts) rest
      (fun e => ∃ inner, e = .not inner ∧ post inner) := by
  refine g.unattributed_reads rfl fun start => .ifTrue rfl ?_
  refine mark_bind rfl ?_
  exact h.last fun e he => .pure ⟨e, rfl, he⟩

theorem operation_reads_neg (h : Reads (g.unary true) ts rest post) :
    Reads (g.operation true) (.mark '-' false :: ts) rest
      (fun e => ∃ inner, e = .neg inner ∧ post inner) := by
  refine g.unattributed_reads rfl fun start => .ifFalse rfl (.ifTrue rfl ?_)
  refine mark_bind rfl ?_
  exact h.last fun e he => .pure ⟨e, rfl, he⟩

theorem unaryOf_reads (hpost : ∀ e, post e → e.isVerbatim = false)
    (h : Reads (g.operation true) ts rest post) : Reads (g.unaryOf true) ts rest post := by
  have hverbatim : Reads (verbatimWhen Expr.isVerbatim (g.operation true)) ts rest post := by
    intro written
    obtain ⟨e, written', he, hp⟩ := h written
    refine ⟨e, written', ?_, hp⟩
    simp [verbatimWhen, he, hpost e hp]
  refine .place fun start => hverbatim.last fun e he => ?_
  rw [hpost e he]
  exact .pure he

end Grammar

end Quotation.Source

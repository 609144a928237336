import Quotation.Proofs.Reading.Spelling

/-! The text of a tree is read as the tokens of the tree. A piece of text is read alone, whatever
stands after it, as long as that does not go on with its last word; so the pieces of a tree are read
one after another. -/

namespace Quotation

open Text

namespace Source

def Lexed (nesting : List Delimiter) (cs : List Char) (ts : List Token) : Prop :=
  ∀ fuel, cs.length < fuel → lex fuel nesting cs = some ts

namespace Lexed

variable {nesting : List Delimiter} {cs rest : List Char} {ts : List Token}

theorem nil : Lexed [] [] [] := by
  intro fuel hfuel
  obtain ⟨fuel, rfl⟩ : ∃ k, fuel = k + 1 := ⟨fuel - 1, by simp at hfuel; omega⟩
  rfl

theorem of_step {c : Char}
    (h : ∀ fuel, cs.length < fuel → lex (fuel + 1) nesting (c :: cs) = some ts) :
    Lexed nesting (c :: cs) ts := by
  intro fuel hfuel
  rw [List.length_cons] at hfuel
  obtain ⟨fuel, rfl⟩ : ∃ k, fuel = k + 1 := ⟨fuel - 1, by omega⟩
  exact h fuel (by omega)

theorem blank {c : Char} (hc : isBlank c = true) (h : Lexed nesting cs ts) :
    Lexed nesting (c :: cs) ts := by
  apply of_step
  intro fuel hfuel
  rw [lex, if_pos hc, h fuel hfuel]

theorem errorText_eq :
    errorText = ['(', '/', '*', 'E', 'R', 'R', 'O', 'R', '*', '/', ')'] := by
  decide

theorem opening (hs : cs.head? ≠ some '/') (h : Lexed (.paren :: nesting) cs ts) :
    Lexed nesting ('(' :: cs) (.opening .paren :: ts) := by
  have herror : error? ('(' :: cs) = none := by
    cases cs with
    | nil => rfl
    | cons d cs =>
      have hd : ('/' == d) = false := by
        rw [beq_eq_false_iff_ne]
        rintro rfl
        exact hs rfl
      simp [error?, errorText_eq, List.isPrefixOf, hd]
  apply of_step
  intro fuel hfuel
  have hblank : isBlank '(' = false := by decide
  simp only [lex, hblank, herror]
  simp [comment?, Delimiter.ofOpening?, h fuel hfuel]

theorem closing (h : Lexed nesting cs ts) :
    Lexed (.paren :: nesting) (')' :: cs) (.closing .paren :: ts) := by
  apply of_step
  intro fuel hfuel
  have hblank : isBlank ')' = false := by decide
  have herror : error? (')' :: cs) = none := rfl
  simp only [lex, hblank, herror]
  simp [comment?, Delimiter.ofOpening?, Delimiter.ofClosing?, h fuel hfuel]

theorem leaf {c : Char} {t : Token} (hleaf : leaf? (c :: cs) = some (t, rest))
    (hlength : rest.length ≤ cs.length) (hblank : isBlank c = false)
    (hcomment : comment? (c :: cs) = none) (hopening : Delimiter.ofOpening? c = none)
    (hclosing : Delimiter.ofClosing? c = none) (h : Lexed nesting rest ts) :
    Lexed nesting (c :: cs) (t :: ts) := by
  have herror : error? (c :: cs) = none := by
    have hc : ('(' == c) = false := by
      rw [beq_eq_false_iff_ne]
      rintro rfl
      exact absurd hopening (by decide)
    simp [error?, errorText_eq, List.isPrefixOf, hc]
  apply of_step
  intro fuel hfuel
  simp only [lex, hblank, hcomment, herror, hopening, hclosing, hleaf, h fuel (by omega)]
  rfl

def operatorChars : List Char := ['+', '-', '*', '%', '=', '!', '<', '>', '&', '|', ',']

theorem startsMark_operatorChar {c : Char} (hc : c ∈ operatorChars) (cs : List Char) :
    startsMark (c :: cs) = true := by
  have hall : ∀ d ∈ operatorChars, markChars.contains d = true ∧ d ≠ '/' :=
    List.all_iff_forall_prop.1 (by decide)
  obtain ⟨hmark, hslash⟩ := hall c hc
  unfold startsMark
  split <;> simp_all

theorem mark {c : Char} (hc : c ∈ operatorChars) (h : Lexed nesting cs ts) :
    Lexed nesting (c :: cs) (.mark c (startsMark cs) :: ts) := by
  have hall : ∀ d ∈ operatorChars, d ∈ markChars ∧ d ≠ '\'' ∧ d ≠ '/' ∧ isBlank d = false ∧
    Delimiter.ofOpening? d = none ∧ Delimiter.ofClosing? d = none :=
      List.all_iff_forall_prop.1 (by decide)
  obtain ⟨hmark, hquote, hslash, hblank, hopening, hclosing⟩ := hall c hc
  have hcomment : comment? (c :: cs) = none := by
    unfold comment?
    split <;> simp_all
  exact leaf (leaf?_mark hmark hquote (startsMark_operatorChar hc cs)) (by simp) hblank hcomment
    hopening hclosing h

theorem startsMark_blank (cs : List Char) : startsMark (' ' :: cs) = false := rfl

theorem marks {op : List Char} (hop : ∀ c ∈ op, c ∈ operatorChars)
    (h : Lexed nesting (' ' :: cs) ts) :
    Lexed nesting (op ++ ' ' :: cs) (Token.operator op ++ ts) := by
  induction op with
  | nil => exact h
  | cons c op ih =>
    have ih := ih fun d hd => hop d (by simp [hd])
    have hmark := mark (hop c (by simp)) ih
    cases op with
    | nil => exact hmark
    | cons d op =>
      have hjoint : startsMark (d :: op ++ ' ' :: cs) = true :=
        startsMark_operatorChar (hop d (by simp)) _
      rw [hjoint] at hmark
      exact hmark

theorem operator {op : String} (hop : binaryOperators.contains op = true)
    (h : Lexed nesting cs ts) :
    Lexed nesting (' ' :: (op.toList ++ ' ' :: cs)) (Token.operator op.toList ++ ts) := by
  have hall : ∀ o ∈ binaryOperators, o = "/" ∨ o.toList.all operatorChars.contains = true := by
    decide
  have hafter : Lexed nesting (' ' :: cs) ts := blank (by decide) h
  apply blank (by decide)
  rcases hall op (List.contains_iff_mem.1 hop) with rfl | hop
  · exact leaf (leaf?_mark (by decide) (by decide) rfl) (Nat.le_refl _) (by decide) rfl rfl rfl
      hafter
  · exact marks (fun c hc => List.contains_iff_mem.1 (List.all_eq_true.1 hop c hc)) hafter

end Lexed

theorem spellsWord_head {name : String} (h : spellsWord name = true) :
    ∃ c cs, name.toList = c :: cs ∧ isIdentStart c = true := by
  unfold spellsWord at h
  split at h
  · rename_i cs hname
    exact ⟨'r', '#' :: cs, hname, by decide⟩
  · cases hname : name.toList with
    | nil => simp [hname, isWord] at h
    | cons c cs =>
      rw [hname] at h
      exact ⟨c, cs, rfl, (isWord_cons.1 h).1⟩

theorem toString_nat_head (n : Nat) :
    ∃ c cs, (toString n).toList = c :: cs ∧ c.isDigit = true := by
  have htext : (toString n).toList = Nat.toDigits 10 n := Nat.toList_repr
  obtain ⟨c, cs, hcs⟩ := List.exists_cons_of_ne_nil (Nat.toDigits_ne_nil (n := n) (b := 10))
  refine ⟨c, cs, htext.trans hcs, ?_⟩
  exact Nat.isDigit_of_mem_toDigits (b := 10) (n := n) (by decide) (by decide) (by simp [hcs])

theorem toList_quoted (s : String) :
    (quoted s).toList = '"' :: (s.toList.flatMap escape ++ ['"']) := by
  simp [quoted]

/-- A text is read as some tokens whatever stands after it, if that does not go on with it. -/
def Lexes (cs : List Char) (ts : List Token) : Prop :=
  ∀ ⦃nesting rest out⦄, Breaks rest → Lexed nesting rest out →
    Lexed nesting (cs ++ rest) (ts ++ out)

def Starts (cs : List Char) : Prop := ∀ c ∈ cs.head?, c ≠ '/' ∧ c ≠ '\ufeff'

theorem Starts.cons {c : Char} (h : c ≠ '/' ∧ c ≠ '\ufeff') (cs : List Char) :
    Starts (c :: cs) := by
  intro d hd
  obtain rfl : c = d := by simpa using hd
  exact h

theorem Starts.ofClass {p : Char → Bool} (hslash : p '/' = false) (hmark : p '\ufeff' = false)
    {c : Char} (hc : p c = true) (cs : List Char) : Starts (c :: cs) := by
  refine .cons ⟨?_, ?_⟩ cs
  · rintro rfl
    simp [hslash] at hc
  · rintro rfl
    simp [hmark] at hc

theorem Starts.append {cs ds : List Char} (hcs : Starts cs) (hds : Starts ds) :
    Starts (cs ++ ds) := by
  cases cs with
  | nil => exact hds
  | cons c cs => exact .cons (hcs c rfl) (cs ++ ds)

namespace Lexes

variable {cs ds : List Char} {ts us : List Token}

theorem nil : Lexes [] [] := fun _ _ _ _ h => h

theorem append (hcs : Lexes cs ts) (hds : Lexes ds us)
    (hbreaks : ∀ rest, Breaks rest → Breaks (ds ++ rest)) : Lexes (cs ++ ds) (ts ++ us) := by
  intro nesting rest out hr h
  rw [List.append_assoc, List.append_assoc]
  exact hcs (hbreaks rest hr) (hds hr h)

theorem parenthesized (hs : Starts cs) (h : Lexes cs ts) :
    Lexes ('(' :: (cs ++ [')'])) (parenthesizedTokens ts) := by
  intro nesting rest out hr hrest
  have hclosing := h (.cons (by decide) rest) hrest.closing
  have hhead : (cs ++ ')' :: rest).head? ≠ some '/' := by
    cases cs with
    | nil => simp
    | cons c cs => simpa using (hs c rfl).1
  simpa [parenthesizedTokens] using hclosing.opening hhead

theorem mark {c : Char} (hc : c ∈ Lexed.operatorChars)
    (hcs : ∀ rest, startsMark (cs ++ rest) = false) (h : Lexes cs ts) :
    Lexes (c :: cs) (.mark c false :: ts) := by
  intro nesting rest out hr hrest
  have hmark := (h hr hrest).mark hc
  rw [hcs rest] at hmark
  exact hmark

theorem operator {op : String} (hop : binaryOperators.contains op = true) (hcs : Lexes cs ts)
    (hds : Lexes ds us) :
    Lexes (cs ++ ' ' :: (op.toList ++ ' ' :: ds)) (ts ++ Token.operator op.toList ++ us) := by
  intro nesting rest out hr h
  have hop := (hds hr h).operator hop
  have hall := hcs (.cons (by decide) _) hop
  simpa using hall

theorem ofLeaf {c : Char} {t : Token}
    (hleaf : ∀ rest, Breaks rest → leaf? (c :: cs ++ rest) = some (t, rest))
    (hc : isBlank c = false ∧ c ∉ ['/', '(', ')', '[', ']', '\x7b', '\x7d']) :
    Lexes (c :: cs) [t] := by
  obtain ⟨hblank, hc⟩ := hc
  simp only [List.mem_cons, List.not_mem_nil, or_false, not_or] at hc
  obtain ⟨hslash, hopen, hclose, hbracket, hbracket', hbrace, hbrace'⟩ := hc
  intro nesting rest out hr h
  have hcomment : comment? (c :: (cs ++ rest)) = none := by
    unfold comment?
    split <;> simp_all
  have hopening : Delimiter.ofOpening? c = none := by simp [Delimiter.ofOpening?, *]
  have hclosing : Delimiter.ofClosing? c = none := by simp [Delimiter.ofClosing?, *]
  exact h.leaf (hleaf rest hr) (by simp) hblank hcomment hopening hclosing

theorem word {name : String} (h : spellsWord name = true) : Lexes name.toList [.word name] := by
  obtain ⟨c, cs, hname, hc⟩ := spellsWord_head h
  have hleaf : ∀ rest, Breaks rest → leaf? (c :: cs ++ rest) = some (.word name, rest) := by
    intro rest hr
    rw [← hname]
    exact leaf?_word h hr
  rw [hname]
  exact ofLeaf hleaf ⟨isBlank_of_isIdentStart hc, not_mem_of_class (by decide) hc⟩

theorem nat (n : Nat) : Lexes (toString n).toList [.literal (.int (toString n) n)] := by
  obtain ⟨c, cs, hn, hc⟩ := toString_nat_head n
  have hleaf : ∀ rest, Breaks rest →
      leaf? (c :: cs ++ rest) = some (.literal (.int (toString n) n), rest) := by
    intro rest hr
    rw [← hn]
    exact leaf?_nat n hr
  rw [hn]
  exact ofLeaf hleaf ⟨isBlank_of_isDigit hc, not_mem_of_class (by decide) hc⟩

theorem int (n : Int) : Lexes (toString n).toList (intTokens n) := by
  cases n with
  | ofNat n => exact nat n
  | negSucc n =>
    obtain ⟨c, cs, hn, hc⟩ := toString_nat_head (n + 1)
    have hsign : ∀ rest, startsMark ((toString (n + 1)).toList ++ rest) = false := by
      intro rest
      rw [hn]
      exact startsMark_eq_false (not_mem_markChars_of_isDigit hc) (cs ++ rest)
    have htext : (toString (Int.negSucc n)).toList = '-' :: (toString (n + 1)).toList := by
      change ("-" ++ toString (n + 1)).toList = _
      rw [String.toList_append]
      rfl
    rw [htext]
    exact mark (c := '-') (by decide) hsign (nat (n + 1))

theorem quoted (s : String) : Lexes (quoted s).toList [.literal (.str (Text.quoted s) s)] := by
  have hleaf : ∀ rest, Breaks rest → leaf? ('"' :: (s.toList.flatMap escape ++ ['"']) ++ rest) =
      some (.literal (.str (Text.quoted s) s), rest) := by
    intro rest hr
    rw [← toList_quoted]
    exact leaf?_quoted s hr
  rw [toList_quoted]
  exact ofLeaf hleaf (by decide)

theorem commas {α : Type} {text : α → String} {tokens : α → List Token} {items : List α}
    (h : ∀ a ∈ items, Lexes (text a).toList (tokens a)) :
    Lexes (commaSeparated (items.map text)).toList (commaTokens (items.map tokens)) := by
  induction items with
  | nil => exact nil
  | cons a items ih =>
    have ha := h a (by simp)
    have ih := ih fun b hb => h b (by simp [hb])
    cases items with
    | nil => simpa [commaSeparated, separatedBy, commaTokens] using ha
    | cons b items =>
      intro nesting rest out hr hrest
      have hblank := (ih hr hrest).blank (c := ' ') (by decide)
      have hcomma := hblank.mark (c := ',') (by decide)
      rw [Lexed.startsMark_blank] at hcomma
      have hall := ha (.cons (by decide) _) hcomma
      simpa [commaSeparated, separatedBy, commaTokens, List.intercalate_cons_cons] using hall

end Lexes

theorem toList_parenthesized (s : String) :
    (parenthesized s).toList = '(' :: (s.toList ++ [')']) := by
  simp [Quotation.parenthesized]

theorem starts_parenthesizedIf (b : Bool) {s : String} (h : Starts s.toList) :
    Starts (parenthesizedIf b s).toList := by
  cases b with
  | false => exact h
  | true =>
    rw [parenthesizedIf, if_pos rfl, toList_parenthesized]
    exact .cons (by decide) _

theorem Lexes.parenthesizedIf (b : Bool) {s : String} {ts : List Token} (hs : Starts s.toList)
    (h : Lexes s.toList ts) :
    Lexes (parenthesizedIf b s).toList (parenthesizedTokensIf b ts) := by
  cases b with
  | false => exact h
  | true =>
    rw [Quotation.parenthesizedIf, if_pos rfl, toList_parenthesized]
    exact h.parenthesized hs

theorem starts_commas {α : Type} {text : α → String} {items : List α}
    (h : ∀ a ∈ items, Starts (text a).toList) :
    Starts (commaSeparated (items.map text)).toList := by
  cases items with
  | nil => simp [commaSeparated, separatedBy, Starts]
  | cons a items =>
    have ha := h a (by simp)
    cases items with
    | nil => simpa [commaSeparated, separatedBy] using ha
    | cons b items =>
      simp only [commaSeparated, List.map_cons, separatedBy, String.toList_append,
        List.append_assoc]
      exact ha.append (.cons (by decide) _)

theorem starts_word {name : String} (h : spellsWord name = true) : Starts name.toList := by
  obtain ⟨c, cs, hname, hc⟩ := spellsWord_head h
  rw [hname]
  exact .ofClass (by decide) (by decide +kernel) hc cs

theorem starts_int (n : Int) : Starts (toString n).toList := by
  cases n with
  | ofNat n =>
    obtain ⟨c, cs, hn, hc⟩ := toString_nat_head n
    change Starts (toString n).toList
    rw [hn]
    exact .ofClass (by decide) (by decide) hc cs
  | negSucc n =>
    change Starts ("-" ++ toString (n + 1)).toList
    rw [String.toList_append]
    exact .cons (by decide) _

theorem spellsWord_boolText (b : Bool) : spellsWord (boolText b) = true := by
  cases b <;> decide

end Source

open Source

namespace Tree

variable {t : Tree}

theorem HasSource.starts (h : t.HasSource) : Starts t.text.toList := by
  induction h with
  | int n => exact starts_int n.toInt
  | bool b => exact starts_word (spellsWord_boolText b)
  | str s =>
    change Starts (Text.quoted s).toList
    rw [toList_quoted]
    exact .cons (by decide) _
  | reference name h => exact starts_word (spellsWord_of_isIdentifier h)
  | operator op a b h ha hb iha ihb =>
    rw [callNamed, List.map_cons, List.map_cons, List.map_nil, text_call_infix op a b h]
    simp only [String.toList_append, List.append_assoc]
    exact (starts_parenthesizedIf _ iha).append (.cons (by decide) _)
  | not x hx ih =>
    rw [text_unary, String.toList_append]
    exact .cons (by decide) _
  | neg x hx h ih =>
    rw [text_unary, String.toList_append]
    exact .cons (by decide) _
  | call head args hhead hargs hnames ih ihargs =>
    rw [text_call _ _ (hhead.isInfix_call args), String.toList_append, toList_parenthesized]
    exact (starts_parenthesizedIf _ ih).append (.cons (by decide) _)

end Tree

namespace Slot

variable {s : Slot}

theorem starts (hname : ∀ name ∈ s.name, isIdentifier name = true) (h : Starts s.val.text.toList) :
    Starts s.text.toList := by
  obtain ⟨name, t⟩ := s
  cases name with
  | none => simpa [Slot.text, nameText] using h
  | some name =>
    simp only [Slot.text, nameText, String.toList_append, List.append_assoc]
    exact (starts_word (spellsWord_of_isIdentifier (hname name rfl))).append (.cons (by decide) _)

theorem lexes (hname : ∀ name ∈ s.name, isIdentifier name = true)
    (h : Lexes s.val.text.toList s.val.tokens) : Lexes s.text.toList s.tokens := by
  obtain ⟨name, t⟩ := s
  cases name with
  | none => simpa [Slot.text, nameText, Slot.tokens, labelTokens] using h
  | some name =>
    have hword := Lexes.word (spellsWord_of_isIdentifier (hname name rfl))
    intro nesting rest out hr hrest
    have hblank := (h hr hrest).blank (c := ' ') (by decide)
    have hmark := (hblank.mark (c := '=') (by decide)).blank (c := ' ') (by decide)
    rw [Lexed.startsMark_blank] at hmark
    have hall := hword (.cons (by decide) _) hmark
    simpa [Slot.text, nameText, Slot.tokens, labelTokens] using hall

end Slot

namespace Tree

variable {t : Tree}

theorem HasSource.lexes (h : t.HasSource) : Lexes t.text.toList t.tokens := by
  induction h with
  | int n => exact .int n.toInt
  | bool b => exact .word (spellsWord_boolText b)
  | str s => exact .quoted s
  | reference name h =>
    rw [tokens, nameToken_of_isIdentifier h]
    exact .word (spellsWord_of_isIdentifier h)
  | operator op a b h ha hb iha ihb =>
    have hoperands := Lexes.operator h (Lexes.parenthesizedIf a.isInfix ha.starts iha)
      (Lexes.parenthesizedIf b.isInfix hb.starts ihb)
    rw [tokens_operator op a b h, callNamed, List.map_cons, List.map_cons, List.map_nil,
      text_call_infix op a b h]
    simpa [operandText, operandTokens] using hoperands
  | not x hx ih =>
    rw [text_unary, tokens_unary, String.toList_append, toList_parenthesized]
    exact (ih.parenthesized hx.starts).mark (c := '!') (by decide) fun _ => rfl
  | neg x hx h ih =>
    rw [text_unary, tokens_unary, String.toList_append, toList_parenthesized]
    exact (ih.parenthesized hx.starts).mark (c := '-') (by decide) fun _ => rfl
  | call head args hhead hargs hnames ih ihargs =>
    have hslots : ∀ s ∈ args, Lexes s.text.toList s.tokens :=
      fun s hs => Slot.lexes (hnames s hs) (ihargs s hs)
    have hstarts : ∀ s ∈ args, Starts s.text.toList :=
      fun s hs => Slot.starts (hnames s hs) (hargs s hs).starts
    have hall := (Lexes.commas hslots).parenthesized (starts_commas hstarts)
    rw [text_call _ _ (hhead.isInfix_call args), tokens_call _ _ (hhead.isInfix_call args),
      String.toList_append, toList_parenthesized]
    exact (ih.parenthesizedIf _ hhead.starts).append hall fun rest _ => .cons (by decide) _

theorem HasSource.tokens?_text (h : t.HasSource) : tokens? t.text = some t.tokens := by
  have hmark : dropByteOrderMark t.text.toList = t.text.toList := by
    unfold dropByteOrderMark
    split
    · rename_i heq
      exact absurd rfl (h.starts '\ufeff' (by simp [heq])).2
    · rfl
  have hlexed := h.lexes .nil .nil
  rw [List.append_nil, List.append_nil] at hlexed
  simp only [tokens?, hmark]
  exact hlexed _ (Nat.lt_succ_self _)

end Tree

end Quotation

import Quotation.Source.Grammar

/-! Rules that read a list of tokens off the front of any other. A rule that reads one list and then
another reads both together, and a question about what comes next is answered by what the rule reads
and by what follows it. What may follow an operand or an expression is said by what it does not
begin with. -/

namespace Quotation.Source

namespace Rule

variable {α β : Type} {ts us rest : List Token} {post mid : α → Prop} {goal : β → Prop}

/-- The rule reads some tokens before others and gives a result of a kind. -/
def Reads (p : Rule α) (ts rest : List Token) (post : α → Prop) : Prop :=
  ∀ written, ∃ a written', p ⟨ts ++ rest, written⟩ = some (a, ⟨rest, written'⟩) ∧ post a

namespace Reads

theorem pure {a : α} (h : post a) : Reads (pure a) [] rest post :=
  fun written => ⟨a, written, rfl, h⟩

theorem mono {p : Rule α} (h : Reads p ts rest mid) (hpost : ∀ a, mid a → post a) :
    Reads p ts rest post := by
  intro written
  obtain ⟨a, written', hp, ha⟩ := h written
  exact ⟨a, written', hp, hpost a ha⟩

theorem bind {p : Rule α} {f : α → Rule β} (hp : Reads p ts (us ++ rest) mid)
    (hf : ∀ a, mid a → Reads (f a) us rest goal) : Reads (p >>= f) (ts ++ us) rest goal := by
  intro written
  obtain ⟨a, written', hpa, ha⟩ := hp written
  obtain ⟨b, written'', hfb, hb⟩ := hf a ha written'
  refine ⟨b, written'', ?_, hb⟩
  rw [List.append_assoc, bind_apply, hpa]
  exact hfb

theorem last {p : Rule α} {f : α → Rule β} (hp : Reads p ts rest mid)
    (hf : ∀ a, mid a → Reads (f a) [] rest goal) : Reads (p >>= f) ts rest goal := by
  have h : Reads (p >>= f) (ts ++ []) rest goal := bind hp hf
  rwa [List.append_nil] at h

theorem silent {p : Rule α} {f : α → Rule β} (hp : Reads p [] (ts ++ rest) mid)
    (hf : ∀ a, mid a → Reads (f a) ts rest goal) : Reads (p >>= f) ts rest goal :=
  hp.bind hf

theorem peek {q : List Token → α} {f : α → Rule β} (h : Reads (f (q (ts ++ rest))) ts rest goal) :
    Reads (Rule.peek q >>= f) ts rest goal :=
  fun written => h written

theorem ifTrue {q : List Token → Bool} {yes no : Rule α} (hq : q (ts ++ rest) = true)
    (h : Reads yes ts rest post) : Reads (do if ← Rule.peek q then yes else no) ts rest post := by
  apply peek
  rw [if_pos hq]
  exact h

theorem ifFalse {q : List Token → Bool} {yes no : Rule α} (hq : q (ts ++ rest) = false)
    (h : Reads no ts rest post) : Reads (do if ← Rule.peek q then yes else no) ts rest post := by
  apply peek
  rw [hq]
  exact h

theorem place {f : Nat → Rule α} (h : ∀ n, Reads (f n) ts rest post) :
    Reads (Rule.place >>= f) ts rest post :=
  fun written => h written.length written

theorem writtenSince (n : Nat) {f : String → Rule α} (h : ∀ s, Reads (f s) ts rest post) :
    Reads (Rule.writtenSince n >>= f) ts rest post :=
  fun written => h _ written

theorem remaining {f : Nat → Rule α} (h : Reads (f (ts ++ rest).length) ts rest post) :
    Reads (Rule.remaining >>= f) ts rest post :=
  fun written => h written

end Reads

theorem opening_reads (d : Delimiter) : Reads (opening d) [.opening d] rest fun _ => True := by
  intro written
  refine ⟨(), .opening d :: written, ?_, trivial⟩
  simp [opening, one, Peek.opening]

theorem closing_reads (d : Delimiter) : Reads (closing d) [.closing d] rest fun _ => True := by
  intro written
  refine ⟨(), .closing d :: written, ?_, trivial⟩
  simp [closing]

theorem delimited_reads (d : Delimiter) {p : Rule α} (h : Reads p ts (.closing d :: rest) post) :
    Reads (delimited d p) (.opening d :: (ts ++ [.closing d])) rest post := by
  have hinner : Reads (do let a ← p; closing d; return a) (ts ++ [.closing d]) rest post :=
    h.bind fun a ha => (closing_reads d).bind fun _ _ => .pure ha
  exact (opening_reads d).bind fun _ _ => hinner

theorem marks_operator (cs : List Char) (rest : List Token) :
    Peek.marks cs (Token.operator cs ++ rest) = true := by
  induction cs with
  | nil => cases rest <;> rfl
  | cons c cs ih =>
    cases cs with
    | nil => simp [Token.operator, Peek.marks]
    | cons d cs => simpa [Token.operator, Peek.marks] using ih

theorem length_operator (cs : List Char) : (Token.operator cs).length = cs.length := by
  induction cs with
  | nil => rfl
  | cons c cs ih =>
    cases cs with
    | nil => rfl
    | cons d cs => simpa [Token.operator] using ih

theorem mark_reads (s : String) :
    Reads (mark s) (Token.operator s.toList) rest fun _ => True := by
  intro written
  have hmarks : Peek.mark s (Token.operator s.toList ++ rest) = true := marks_operator _ _
  have hlength : s.length = (Token.operator s.toList).length := by
    rw [length_operator, String.length_toList]
  refine ⟨(), (Token.operator s.toList).reverse ++ written, ?_, trivial⟩
  rw [mark, if_pos hmarks, hlength, List.drop_left]

theorem mark_bind {c : Char} {s : String} (hs : s.toList = [c]) {f : Unit → Rule α}
    (h : Reads (f ()) ts rest post) : Reads (mark s >>= f) (.mark c false :: ts) rest post := by
  have hmark : Reads (mark s) [.mark c false] (ts ++ rest) fun _ => True := by
    have hread : Reads (mark s) (Token.operator s.toList) (ts ++ rest) fun _ => True := mark_reads s
    rwa [hs] at hread
  exact hmark.bind fun _ _ => h

end Rule

end Quotation.Source

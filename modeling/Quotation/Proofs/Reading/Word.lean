import Mathlib.Data.Bool.AllAny
import Quotation.Source.Rule

namespace Quotation.Source

open Quotation.Text

def breaks : List Char := [' ', ',', '(', ')']

def Breaks (rest : List Char) : Prop := ∀ c ∈ rest.head?, c ∈ breaks

theorem Breaks.nil : Breaks [] := by simp [Breaks]

theorem Breaks.cons {c : Char} (h : c ∈ breaks) (rest : List Char) : Breaks (c :: rest) := by
  intro d hd
  obtain rfl : c = d := by simpa using hd
  exact h

theorem Breaks.first {c : Char} {rest : List Char} (hr : Breaks (c :: rest)) {p : Char → Bool}
    (hp : breaks.any p = false) : p c = false := by
  simpa using List.any_eq_false.1 hp c (hr c rfl)

variable {rest : List Char}

theorem Breaks.span (hr : Breaks rest) {p : Char → Bool} (hp : breaks.any p = false)
    {cs : List Char} (hcs : ∀ c ∈ cs, p c = true) :
    (cs ++ rest).takeWhile p = cs ∧ (cs ++ rest).dropWhile p = rest := by
  rw [List.takeWhile_append_of_pos hcs, List.dropWhile_append_of_pos hcs]
  cases rest with
  | nil => simp
  | cons c rest =>
    simp [hr.first hp]

theorem Breaks.head (hr : Breaks rest) {p : Char → Bool} {cs : List Char}
    (hcs : ∀ c ∈ cs, p c = true) {c : Char} (h : c ∈ (cs ++ rest).head?) :
    p c = true ∨ c ∈ breaks := by
  cases cs with
  | nil => exact .inr (hr c h)
  | cons d cs =>
    obtain rfl : d = c := by simpa using h
    exact .inl (hcs d (by simp))

theorem suffix_of_breaks (hr : Breaks rest) : suffix rest = ([], rest) := by
  cases rest with
  | nil => rfl
  | cons c rest =>
    have hc : isIdentStart c = false := hr.first (by decide)
    simp [suffix, identifier?, hc]

theorem endsWord_of_breaks (hr : Breaks rest) : endsWord rest = true := by
  cases rest with
  | nil => rfl
  | cons c rest =>
    have hc : isIdentContinue c = false := hr.first (by decide)
    simp [endsWord, hc]

theorem inRanges_disjoint {s t : List (Nat × Nat)}
    (h : (s.all fun a => t.all fun b => a.2 < b.1 || b.2 < a.1) = true) {c : Char}
    (hs : inRanges s c = true) : inRanges t c = false := by
  rw [Bool.eq_false_iff, Ne, inRanges_iff]
  rintro ⟨b, hb, hlb, hub⟩
  obtain ⟨a, ha, hla, hua⟩ := (inRanges_iff s c).1 hs
  have := List.all_eq_true.1 (List.all_eq_true.1 h a ha) b hb
  simp only [Bool.or_eq_true, decide_eq_true_eq] at this
  omega

def identStartRanges : List (Nat × Nat) :=
  (0x41, 0x5a) :: (0x5f, 0x5f) :: (0x61, 0x7a) :: xidStartRanges

theorem inRanges_of_isIdentStart {c : Char} (h : isIdentStart c = true) :
    inRanges identStartRanges c = true := by
  rw [inRanges_iff]
  simp only [isIdentStart, isXidStart, Bool.or_eq_true, beq_iff_eq] at h
  rcases h with rfl | h
  · exact ⟨(0x5f, 0x5f), by decide, by decide, by decide⟩
  · split at h
    · have hletter : (c.isUpper || c.isLower) = true := h
      rcases (Bool.or_eq_true _ _).mp hletter with hupper | hlower
      · obtain ⟨hlo, hhi⟩ : 'A'.val ≤ c.val ∧ c.val ≤ 'Z'.val := of_decide_eq_true hupper
        exact ⟨(0x41, 0x5a), by simp [identStartRanges], hlo, hhi⟩
      · have hlower : (decide ('a'.val ≤ c.val) && decide (c.val ≤ 'z'.val)) = true := hlower
        obtain ⟨hlo, hhi⟩ := (Bool.and_eq_true _ _).mp hlower
        exact ⟨(0x61, 0x7a), by simp [identStartRanges], of_decide_eq_true hlo,
          of_decide_eq_true hhi⟩
    · obtain ⟨r, hr, hc⟩ := (inRanges_iff _ c).1 h
      exact ⟨r, by simp [identStartRanges, hr], hc⟩

def blankRanges : List (Nat × Nat) := (0x200e, 0x200f) :: whiteSpaceRanges

theorem isBlank_eq_false {c : Char} (h : inRanges blankRanges c = false) : isBlank c = false := by
  rw [blankRanges, inRanges, List.any_cons, Bool.or_eq_false_iff] at h
  have hleft : c ≠ '\u200e' := by
    rintro rfl
    simp at h
  have hright : c ≠ '\u200f' := by
    rintro rfl
    simp at h
  simp [isBlank, isWhiteSpace, inRanges, h.2, hleft, hright]

theorem isBlank_of_isIdentStart {c : Char} (h : isIdentStart c = true) : isBlank c = false :=
  isBlank_eq_false (inRanges_disjoint (by decide +kernel) (inRanges_of_isIdentStart h))

theorem inRanges_of_isDigit {c : Char} (h : c.isDigit = true) :
    inRanges [(0x30, 0x39)] c = true := by
  simp only [Char.isDigit, Bool.and_eq_true, decide_eq_true_eq] at h
  exact (inRanges_iff _ c).2 ⟨(0x30, 0x39), by simp, h.1, h.2⟩

theorem isBlank_of_isDigit {c : Char} (h : c.isDigit = true) : isBlank c = false :=
  isBlank_eq_false (inRanges_disjoint (by decide) (inRanges_of_isDigit h))

theorem isDigit_of_isIdentStart {c : Char} (h : isIdentStart c = true) : c.isDigit = false := by
  rw [Bool.eq_false_iff]
  intro hdigit
  have hd : inRanges [(0x30, 0x39)] c = false :=
    inRanges_disjoint (by decide +kernel) (inRanges_of_isIdentStart h)
  rw [inRanges_of_isDigit hdigit] at hd
  exact absurd hd (by decide)

theorem not_mem_of_class {p : Char → Bool} {l : List Char} (hl : l.any p = false) {c : Char}
    (hc : p c = true) : c ∉ l := fun hmem => List.any_eq_false.1 hl c hmem hc

theorem startsMark_eq_false {c : Char} (h : c ∉ markChars) (cs : List Char) :
    startsMark (c :: cs) = false := by
  unfold startsMark
  split <;> simp_all

theorem not_mem_markChars_of_isDigit {c : Char} (h : c.isDigit = true) : c ∉ markChars :=
  not_mem_of_class (by decide) h

theorem not_mem_markChars_of_isIdentStart {c : Char} (h : isIdentStart c = true) :
    c ∉ markChars :=
  not_mem_of_class (by decide) h

def isWord : List Char → Bool
  | [] => false
  | c :: rest => isIdentStart c && rest.all isIdentContinue

def spellsWord (name : String) : Bool :=
  match name.toList with
  | 'r' :: '#' :: cs => isWord cs && !pathWords.contains (String.ofList cs)
  | cs => isWord cs

def isIdentifier (name : String) : Bool := isName name && spellsWord name

theorem isName_of_isIdentifier {name : String} (h : isIdentifier name = true) :
    isName name = true :=
  ((Bool.and_eq_true _ _).mp h).1

theorem spellsWord_of_isIdentifier {name : String} (h : isIdentifier name = true) :
    spellsWord name = true :=
  ((Bool.and_eq_true _ _).mp h).2

theorem isWord_cons {c : Char} {cs : List Char} :
    isWord (c :: cs) = true ↔ isIdentStart c = true ∧ ∀ d ∈ cs, isIdentContinue d = true := by
  simp [isWord]

theorem ne_of_isIdentStart {c d : Char} (hc : isIdentStart c = true) (hd : isIdentStart d = false) :
    c ≠ d := by
  rintro rfl
  simp [hc] at hd

theorem identifier?_append {cs : List Char} (h : isWord cs = true) (hr : Breaks rest) :
    identifier? (cs ++ rest) = some (cs, rest) := by
  cases cs with
  | nil => simp [isWord] at h
  | cons c cs =>
    obtain ⟨hc, hcs⟩ := isWord_cons.1 h
    obtain ⟨htake, hdrop⟩ := hr.span (by decide) hcs
    simp [identifier?, hc, htake, hdrop]

theorem drop_length_takeWhile (p : Char → Bool) (cs : List Char) :
    cs.drop (cs.takeWhile p).length = cs.dropWhile p := by
  induction cs with
  | nil => rfl
  | cons c cs ih => by_cases hc : p c = true <;> simp [hc, ih]

theorem raw?_eq_none {q : Quotable} {cs : List Char}
    (h : ∀ c ∈ (cs.dropWhile (· == '#')).head?, c ≠ '"') : raw? q cs = none := by
  simp only [raw?, drop_length_takeWhile]
  split
  · rename_i heq
    exact absurd rfl (h '"' (by simp [heq]))
  · rfl

theorem not_quoting {w : List Char} (hw : ∀ c ∈ w, isIdentContinue c = true) (hr : Breaks rest)
    {c : Char} (hc : c ∈ (w ++ rest).head?) : c ≠ '"' ∧ c ≠ '#' ∧ c ≠ '\'' := by
  rcases hr.head hw hc with h | h
  · refine ⟨?_, ?_, ?_⟩ <;> rintro rfl <;> exact absurd h (by decide)
  · have hall : ∀ d ∈ breaks, d ≠ '"' ∧ d ≠ '#' ∧ d ≠ '\'' :=
      List.all_iff_forall_prop.1 (by decide)
    exact hall c h

theorem raw?_word {q : Quotable} {w : List Char} (hw : ∀ c ∈ w, isIdentContinue c = true)
    (hr : Breaks rest) : raw? q (w ++ rest) = none := by
  apply raw?_eq_none
  intro c hc
  cases h : w ++ rest with
  | nil => simp [h] at hc
  | cons d ds =>
    obtain ⟨hquote, hhash, -⟩ := not_quoting hw hr (c := d) (by simp [h])
    obtain rfl : d = c := by simpa [h, hhash] using hc
    exact hquote

theorem word_tail {w : List Char} (hw : ∀ c ∈ w, isIdentContinue c = true) (hr : Breaks rest)
    {d : Char} (hd : d ∉ breaks) {ds : List Char} (h : w ++ rest = d :: ds) :
    ∃ v, (∀ c ∈ v, isIdentContinue c = true) ∧ ds = v ++ rest := by
  cases w with
  | nil => exact absurd (hr d (by simpa using congrArg List.head? h)) hd
  | cons c w =>
    obtain ⟨-, rfl⟩ := List.cons.inj h
    exact ⟨w, fun c hc => hw c (by simp [hc]), rfl⟩

theorem textLiteral?_word {c : Char} {w : List Char} (hc : isIdentStart c = true)
    (hw : ∀ d ∈ w, isIdentContinue d = true) (hr : Breaks rest) :
    textLiteral? (c :: (w ++ rest)) = none := by
  simp only [textLiteral?]
  split
  · rename_i heq
    simp only [List.cons.injEq] at heq
    rw [heq.1] at hc
    exact absurd hc (by decide)
  · rename_i heq
    simp only [List.cons.injEq] at heq
    rw [← heq.2, raw?_word hw hr]
    rfl
  · rfl

theorem bytesEnd?_word {c : Char} {w : List Char}
    (hw : ∀ d ∈ w, isIdentContinue d = true) (hr : Breaks rest) :
    bytesEnd? (c :: (w ++ rest)) = none := by
  have hquote : ∀ {d ds}, w ++ rest = d :: ds → d ≠ '"' ∧ d ≠ '#' ∧ d ≠ '\'' :=
    fun h => not_quoting hw hr (by simp [h])
  have hraw : ∀ {q ds}, w ++ rest = 'r' :: ds → raw? q ds = none := by
    intro q ds h
    obtain ⟨v, hv, rfl⟩ := word_tail hw hr (by decide) h
    exact raw?_word hv hr
  unfold bytesEnd?
  split
  · rename_i heq
    exact absurd rfl (hquote (List.cons.inj heq).2).1
  · rename_i heq
    rw [hraw (List.cons.inj heq).2, Option.map_none]
  · rename_i heq
    exact absurd rfl (hquote (List.cons.inj heq).2).1
  · rename_i heq
    rw [hraw (List.cons.inj heq).2, Option.map_none]
  · rename_i heq
    exact absurd rfl (hquote (List.cons.inj heq).2).2.2
  · rfl

theorem startsLiteral_eq (cs : List Char) :
    startsLiteral cs = [['r', '"'], ['r', '#', '"'], ['r', '#', '#'], ['b', '"'], ['b', '\''],
      ['b', 'r', '"'], ['b', 'r', '#'], ['c', '"'], ['c', 'r', '"'], ['c', 'r', '#']].any
        fun s => s.isPrefixOf cs := by
  rfl

theorem startsLiteral_word {c : Char} {w : List Char}
    (hw : ∀ d ∈ w, isIdentContinue d = true) (hr : Breaks rest) :
    startsLiteral (c :: (w ++ rest)) = false := by
  rw [startsLiteral_eq]
  cases hd : w ++ rest with
  | nil => simp [List.isPrefixOf]
  | cons d ds =>
    obtain ⟨hquote, hhash, hsingle⟩ := not_quoting hw hr (c := d) (by simp [hd])
    by_cases hdr : d = 'r'
    · obtain ⟨v, hv, rfl⟩ := word_tail hw hr (hdr ▸ by decide) hd
      cases he : v ++ rest with
      | nil => simp [List.isPrefixOf, hdr]
      | cons e es =>
        obtain ⟨hquote', hhash', -⟩ := not_quoting hv hr (c := e) (by simp [he])
        simp [List.isPrefixOf, hdr, hquote'.symm, hhash'.symm]
    · simp [List.isPrefixOf, hquote.symm, hhash.symm, hsingle.symm, Ne.symm hdr]

theorem startsLiteral_rawWord {c : Char} {cs : List Char} (hc : isIdentStart c = true) :
    startsLiteral ('r' :: '#' :: c :: cs) = false := by
  have hquote : c ≠ '"' := ne_of_isIdentStart hc (by decide)
  have hhash : c ≠ '#' := ne_of_isIdentStart hc (by decide)
  simp [startsLiteral_eq, List.isPrefixOf, hquote.symm, hhash.symm]

theorem literal?_of_isIdentStart {c : Char} {cs : List Char} (hc : isIdentStart c = true)
    (ht : textLiteral? (c :: cs) = none) (hb : bytesEnd? (c :: cs) = none) :
    literal? (c :: cs) = none := by
  have hchar : charLiteral? (c :: cs) = none := by
    have hquote : c ≠ '\'' := ne_of_isIdentStart hc (by decide)
    simp [charLiteral?, hquote]
  simp [literal?, ht, bytesLiteral?, hb, hchar, number?, isDigit_of_isIdentStart hc]

theorem mark?_of_isIdentStart {c : Char} {cs : List Char} (hc : isIdentStart c = true) :
    mark? (c :: cs) = none := by
  have hmark := startsMark_eq_false (not_mem_markChars_of_isIdentStart hc) cs
  have hquote : c ≠ '\'' := ne_of_isIdentStart hc (by decide)
  simp only [mark?, hmark]
  simp

theorem word?_word {cs : List Char} (h : isWord cs = true) (hr : Breaks rest) :
    word? (cs ++ rest) = some (String.ofList cs, rest) := by
  have hid := identifier?_append h hr
  unfold word?
  split
  · rename_i tail heq
    cases cs with
    | nil => simp [isWord] at h
    | cons c w =>
      have hw := (isWord_cons.1 h).2
      rw [List.cons_append, List.cons.injEq] at heq
      exact absurd rfl (not_quoting hw hr (c := '#') (by simp [heq.2])).2.1
  · simp [hid]

theorem word?_rawWord {cs : List Char} (h : isWord cs = true)
    (hp : pathWords.contains (String.ofList cs) = false) (hr : Breaks rest) :
    word? ('r' :: '#' :: (cs ++ rest)) = some (String.ofList ('r' :: '#' :: cs), rest) := by
  simp only [word?, identifier?_append h hr, Option.bind_eq_bind, Option.bind_some, hp]
  rfl

theorem leaf?_word {name : String} (h : spellsWord name = true) (hr : Breaks rest) :
    leaf? (name.toList ++ rest) = some (.word name, rest) := by
  unfold spellsWord at h
  split at h
  · rename_i cs hname
    simp only [Bool.and_eq_true, Bool.not_eq_true'] at h
    obtain ⟨hw, hp⟩ := h
    obtain ⟨c, w, rfl⟩ : ∃ c w, cs = c :: w :=
      List.exists_cons_of_ne_nil (by rintro rfl; simp [isWord] at hw)
    have hc := (isWord_cons.1 hw).1
    have hhash : c ≠ '#' := ne_of_isIdentStart hc (by decide)
    have hquote : c ≠ '"' := ne_of_isIdentStart hc (by decide)
    have hraw : ∀ q, raw? q ('#' :: c :: (w ++ rest)) = none :=
      fun q => raw?_eq_none (by simp [hhash, hquote])
    have hlit : literal? ('r' :: '#' :: c :: (w ++ rest)) = none :=
      literal?_of_isIdentStart (by decide) (by simp [textLiteral?, hraw]) (by simp [bytesEnd?])
    have hmark : mark? ('r' :: '#' :: c :: (w ++ rest)) = none := mark?_of_isIdentStart (by decide)
    have hword := word?_rawWord hw hp hr
    rw [List.cons_append, ← hname, String.ofList_toList] at hword
    rw [hname]
    simp [leaf?, hlit, hmark, wordToken?, startsLiteral_rawWord hc, hword]
  · obtain ⟨c, w, hname⟩ : ∃ c w, name.toList = c :: w :=
      List.exists_cons_of_ne_nil (by rintro hnil; simp [hnil, isWord] at h)
    rw [hname] at h
    obtain ⟨hc, hw⟩ := isWord_cons.1 h
    have hlit : literal? (c :: (w ++ rest)) = none :=
      literal?_of_isIdentStart hc (textLiteral?_word hc hw hr) (bytesEnd?_word hw hr)
    have hword := word?_word h hr
    rw [List.cons_append, ← hname, String.ofList_toList] at hword
    rw [hname]
    simp [leaf?, hlit, mark?_of_isIdentStart hc, wordToken?, startsLiteral_word hw hr, hword]

end Quotation.Source

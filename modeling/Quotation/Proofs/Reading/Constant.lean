import Quotation.Proofs.Reading.Word

namespace Quotation.Source

open Quotation.Text

variable {rest : List Char}

theorem literal?_eq_number? {c : Char} (cs : List Char) (hc : c ∉ ['"', 'r', 'b', 'c', '\'']) :
    literal? (c :: cs) = number? (c :: cs) := by
  have htext : textLiteral? (c :: cs) = none := by
    unfold textLiteral?
    split <;> simp_all
  have hbytes : bytesEnd? (c :: cs) = none := by
    unfold bytesEnd?
    split <;> simp_all
  have hchar : charLiteral? (c :: cs) = none := by
    unfold charLiteral?
    split <;> simp_all
  simp [literal?, htext, bytesLiteral?, hbytes, hchar]

theorem literal?_mark {c : Char} {cs : List Char} (hc : c ∈ markChars) (hq : c ≠ '\'') :
    literal? (c :: cs) = none := by
  have hall : ∀ d ∈ markChars, (d ∈ ['"', 'r', 'b', 'c', '\''] → d = '\'') ∧ d.isDigit = false :=
    List.all_iff_forall_prop.1 (by decide)
  obtain ⟨hquote, hdigit⟩ := hall c hc
  rw [literal?_eq_number? cs fun h => hq (hquote h)]
  simp [number?, hdigit]

theorem leaf?_mark {c : Char} {cs : List Char} (hc : c ∈ markChars) (hq : c ≠ '\'')
    (hs : startsMark (c :: cs) = true) : leaf? (c :: cs) = some (.mark c (startsMark cs), cs) := by
  have hmark : mark? (c :: cs) = some (.mark c (startsMark cs), cs) := by
    simp only [mark?, hs]
    simp
  simp [leaf?, literal?_mark hc hq, hmark]

theorem digitValue?_digit {c : Char} (h : c.isDigit = true) :
    digitValue? c = some (c.toNat - '0'.toNat) := by
  simp [digitValue?, h]

theorem toNat_digit {c : Char} (h : c.isDigit = true) : c.toNat - '0'.toNat < 10 := by
  simp only [Char.isDigit, Bool.and_eq_true, decide_eq_true_eq] at h
  have h' : c.toNat ≤ 57 := h.2
  have h0 : '0'.toNat = 48 := rfl
  omega

theorem digitRun_digits (hr : Breaks rest) {ds : List Char} (hds : ∀ c ∈ ds, c.isDigit = true) :
    digitRun 10 (ds ++ rest) = some (ds, rest) := by
  induction ds with
  | nil =>
    cases rest with
    | nil => rfl
    | cons c rest =>
      have hall : ∀ d ∈ breaks, d ≠ '_' ∧ digitValue? d = none :=
        List.all_iff_forall_prop.1 (by decide)
      obtain ⟨h₁, h₂⟩ := hall c (hr c rfl)
      simp [digitRun, h₁, h₂]
  | cons c ds ih =>
    have hc : c.isDigit = true := hds c (by simp)
    have hne : (c == '_') = false := by
      rw [beq_eq_false_iff_ne]
      rintro rfl
      exact absurd hc (by decide)
    have ih := ih fun d hd => hds d (by simp [hd])
    simp only [List.cons_append, digitRun, hne, digitValue?_digit hc, toNat_digit hc, ih]
    rfl

def withDigit (base n : Nat) (c : Char) : Nat :=
  match digitValue? c with
  | some d => n * base + d
  | none => n

theorem numeral_eq_foldl (base : Nat) (cs : List Char) :
    numeral base cs = cs.foldl (withDigit base) 0 := rfl

theorem digitValue?_digitChar {d : Nat} (h : d < 16) : digitValue? (Nat.digitChar d) = some d := by
  have hall : ∀ d < 16, digitValue? (Nat.digitChar d) = some d := by decide
  exact hall d h

section Digits

variable {base : Nat} (hlo : 1 < base) (hhi : base ≤ 16)

include hlo hhi

theorem numeral_toDigits (n : Nat) : numeral base (Nat.toDigits base n) = n := by
  induction n using Nat.strongRecOn with
  | ind n ih =>
    rw [Nat.toDigits_eq_if hlo]
    split
    · rename_i h
      simp [numeral_eq_foldl, withDigit, digitValue?_digitChar (Nat.lt_of_lt_of_le h hhi)]
    · rename_i h
      have hmod : n % base < 16 := Nat.lt_of_lt_of_le (Nat.mod_lt n (by omega)) hhi
      have ih := ih (n / base) (Nat.div_lt_self (by omega) hlo)
      rw [numeral_eq_foldl] at ih
      rw [numeral_eq_foldl, List.foldl_append, ih, List.foldl_cons, List.foldl_nil, withDigit,
        digitValue?_digitChar hmod]
      exact Nat.div_add_mod' n base

theorem isSome_digitValue?_of_mem (n : Nat) {c : Char} (hc : c ∈ Nat.toDigits base n) :
    (digitValue? c).isSome = true := by
  induction n using Nat.strongRecOn with
  | ind n ih =>
    rw [Nat.toDigits_eq_if hlo] at hc
    split at hc
    · rename_i h
      obtain rfl := List.mem_singleton.1 hc
      simp [digitValue?_digitChar (Nat.lt_of_lt_of_le h hhi)]
    · have hmod : n % base < 16 := Nat.lt_of_lt_of_le (Nat.mod_lt n (by omega)) hhi
      rcases List.mem_append.1 hc with hc | hc
      · exact ih (n / base) (Nat.div_lt_self (by omega) hlo) hc
      · obtain rfl := List.mem_singleton.1 hc
        simp [digitValue?_digitChar hmod]

end Digits

theorem baseOf_digits (hr : Breaks rest) {c : Char} {ds : List Char}
    (hds : ∀ d ∈ ds, d.isDigit = true) :
    baseOf (c :: (ds ++ rest)) = (10, [], c :: (ds ++ rest)) := by
  -- What follows the first digit is a digit or a break, and so no letter of a base.
  have hsecond : ∀ {d tail}, ds ++ rest = d :: tail → d.isDigit = true ∨ d ∈ breaks := by
    intro d tail h
    exact hr.head hds (by simp [h])
  unfold baseOf
  split
  case h_4 => rfl
  all_goals
    rename_i heq
    rcases hsecond (List.cons.inj heq).2 with h | h <;> exact absurd h (by decide)

theorem double?_digits (hr : Breaks rest) {ds : List Char} (hds : ∀ c ∈ ds, c.isDigit = true) :
    double? (ds ++ rest) = none := by
  have hpart : ∀ c ∈ ds, isDecimalPart c = true := fun c hc => by simp [isDecimalPart, hds c hc]
  obtain ⟨-, hdrop⟩ := hr.span (by decide) hpart
  have hexp : exponent? rest = none := by
    cases rest with
    | nil => rfl
    | cons c rest =>
      have hc := hr.first (p := fun d => d == 'e' || d == 'E') (by decide)
      simp only [exponent?, hc]
      rfl
  simp only [double?, hdrop]
  split
  · exact absurd (hr '.' rfl) (by decide)
  · simp [hexp]

theorem integer?_digits (hr : Breaks rest) {c : Char} {ds : List Char}
    (hds : ∀ d ∈ c :: ds, d.isDigit = true) :
    integer? (c :: ds ++ rest) =
      some (.int (String.ofList (c :: ds)) (numeral 10 (c :: ds)), rest) := by
  have hc : (c == '_') = false := by
    rw [beq_eq_false_iff_ne]
    rintro rfl
    exact absurd (hds '_' (by simp)) (by decide)
  have hall : (c :: ds).all (· == '_') = false := by rw [List.all_cons, hc, Bool.false_and]
  have hhead : ((c :: (ds ++ rest)).head? == some '_') = false := hc
  have htail : ∀ d ∈ ds, d.isDigit = true := fun d hd => hds d (by simp [hd])
  have hrun := digitRun_digits hr hds
  rw [List.cons_append] at hrun ⊢
  rw [integer?, baseOf_digits hr htail]
  dsimp only
  rw [hhead, Bool.and_false, if_neg Bool.false_ne_true, hrun, Option.bind_eq_bind, Option.bind_some]
  dsimp only
  rw [hall, if_neg Bool.false_ne_true, suffix_of_breaks hr]
  dsimp only
  rw [endsWord_of_breaks hr, if_pos rfl, List.nil_append, List.append_nil]

theorem leaf?_nat (n : Nat) (hr : Breaks rest) :
    leaf? ((toString n).toList ++ rest) = some (.literal (.int (toString n) n), rest) := by
  have htext : (toString n).toList = Nat.toDigits 10 n := Nat.toList_repr
  have hdigits : ∀ c ∈ Nat.toDigits 10 n, c.isDigit = true :=
    fun c hc => Nat.isDigit_of_mem_toDigits (by decide) (by decide) hc
  have hvalue := @numeral_toDigits 10 (by decide) (by decide) n
  have hspelling : String.ofList (Nat.toDigits 10 n) = toString n := by
    rw [← htext, String.ofList_toList]
  rw [htext]
  obtain ⟨c, ds, hcs⟩ := List.exists_cons_of_ne_nil (Nat.toDigits_ne_nil (n := n) (b := 10))
  rw [hcs] at hdigits hvalue hspelling ⊢
  have hc := hdigits c (by simp)
  have hlit : literal? (c :: ds ++ rest) = number? (c :: ds ++ rest) := by
    exact literal?_eq_number? _ (not_mem_of_class (by decide) hc)
  have hnumber : number? (c :: ds ++ rest) = some (.int (toString n) n, rest) := by
    rw [number?, double?_digits hr hdigits, integer?_digits hr hdigits, hvalue, hspelling]
    simp [hc]
  rw [leaf?, hlit, hnumber]
  rfl

theorem scalarDigits_append {ds : List Char} (hds : ∀ c ∈ ds, (digitValue? c).isSome = true)
    {value count : Nat} (hcount : count + ds.length ≤ 6) (hpos : 0 < count + ds.length)
    (tail : List Char) :
    scalarDigits value count (ds ++ '\x7d' :: tail) =
      some (ds.foldl (withDigit 16) value, tail) := by
  induction ds generalizing value count with
  | nil =>
    have hpos : 0 < count := hpos
    simp [scalarDigits, hpos]
  | cons c ds ih =>
    obtain ⟨d, hd⟩ := Option.isSome_iff_exists.1 (hds c (by simp))
    have hunder : (c == '_') = false := by
      rw [beq_eq_false_iff_ne]
      rintro rfl
      exact absurd (hds '_' (by simp)) (by decide)
    have hbrace : (c == '\x7d') = false := by
      rw [beq_eq_false_iff_ne]
      rintro rfl
      exact absurd (hds '\x7d' (by simp)) (by decide)
    rw [List.length_cons] at hcount hpos
    have hlt : count < 6 := by omega
    have ih := @ih (fun e he => hds e (by simp [he])) (value * 16 + d) (count + 1) (by omega)
      (by omega)
    simp only [List.cons_append, scalarDigits, hunder, hbrace, hd, hlt, ih, List.foldl_cons,
      withDigit]
    simp

theorem toNat_isValidChar (c : Char) : c.toNat.isValidChar := c.valid

theorem escape?_codePoint (c : Char) (tail : List Char) :
    escape? .text ('u' :: '\x7b' :: (Nat.toDigits 16 c.toNat ++ '\x7d' :: tail)) =
      some (c, tail) := by
  have hlt : c.toNat < 16 ^ 6 := by
    have := toNat_isValidChar c
    simp only [Nat.isValidChar] at this
    omega
  have hlength : (Nat.toDigits 16 c.toNat).length ≤ 6 :=
    (Nat.length_toDigits_le_iff (by decide) (by decide)).2 hlt
  have hpos : 0 < (Nat.toDigits 16 c.toNat).length :=
    List.length_pos_iff.2 Nat.toDigits_ne_nil
  have hvalue := @numeral_toDigits 16 (by decide) (by decide) c.toNat
  rw [numeral_eq_foldl] at hvalue
  have hall : ∀ d ∈ Nat.toDigits 16 c.toNat, (digitValue? d).isSome = true :=
    fun d hd => isSome_digitValue?_of_mem (by decide) (by decide) c.toNat hd
  have hdigits := @scalarDigits_append _ hall 0 0 (by omega) (by omega) tail
  rw [hvalue] at hdigits
  simp [escape?, hdigits, toNat_isValidChar, Quotable.text]

theorem escape_cases (c : Char) :
    (∃ d ds, escape c = '\\' :: d :: ds ∧ d ≠ '\n' ∧ d ≠ '\r' ∧
      ∀ tail, escape? .text (d :: (ds ++ tail)) = some (c, tail)) ∨
    (escape c = [c] ∧ c ∉ ['"', '\\', '\r']) := by
  by_cases hletter : c ∈ ['"', '\\', '\n', '\t', '\r', '\x00']
  · left
    simp only [List.mem_cons, List.not_mem_nil, or_false] at hletter
    rcases hletter with rfl | rfl | rfl | rfl | rfl | rfl <;>
      exact ⟨_, [], rfl, by decide, by decide, fun _ => rfl⟩
  · simp only [List.mem_cons, List.not_mem_nil, or_false, not_or] at hletter
    obtain ⟨hquote, hslash, hline, htab, hreturn, hnul⟩ := hletter
    by_cases hcode : (isGraphemeExtend c || !isPrintable c) = true
    · left
      refine ⟨'u', '\x7b' :: (Nat.toDigits 16 c.toNat ++ ['\x7d']), ?_, by decide, by decide, ?_⟩
      · simp only [escape, hquote, hslash, hline, htab, hreturn, hnul, hcode, if_true, if_false]
        rfl
      · intro tail
        simpa using escape?_codePoint c tail
    · right
      refine ⟨?_, by simp [hquote, hslash, hreturn]⟩
      simp only [escape, hquote, hslash, hline, htab, hreturn, hnul, hcode, if_false]
      rfl

theorem quotedBody_escape (c : Char) (fuel : Nat) (tail : List Char) :
    quotedBody .text (fuel + 1) (escape c ++ tail) =
      (quotedBody .text fuel tail).map fun r => (c :: r.1, r.2) := by
  rcases escape_cases c with ⟨d, ds, hescape, hline, hreturn, hread⟩ | ⟨hescape, hplain⟩
  · have hbreaks : breaksLine (d :: (ds ++ tail)) = false := by simp [breaksLine, hline, hreturn]
    rw [hescape, List.cons_append, List.cons_append, quotedBody, hbreaks, hread tail]
    cases h : quotedBody .text fuel tail <;> simp [h]
  · simp only [List.mem_cons, List.not_mem_nil, or_false, not_or] at hplain
    obtain ⟨hquote, hslash, hreturn⟩ := hplain
    rw [hescape, List.singleton_append, quotedBody]
    · cases quotedBody .text fuel tail <;> simp [Quotable.text]
    all_goals simp_all

theorem quotedBody_flatMap (cs : List Char) (fuel : Nat) (hfuel : cs.length < fuel)
    (tail : List Char) :
    quotedBody .text fuel (cs.flatMap escape ++ '"' :: tail) = some (cs, tail) := by
  induction cs generalizing fuel with
  | nil =>
    obtain ⟨fuel, rfl⟩ : ∃ k, fuel = k + 1 := ⟨fuel - 1, by simp at hfuel; omega⟩
    simp [quotedBody]
  | cons c cs ih =>
    rw [List.length_cons] at hfuel
    obtain ⟨fuel, rfl⟩ : ∃ k, fuel = k + 1 := ⟨fuel - 1, by omega⟩
    rw [List.flatMap_cons, List.append_assoc, quotedBody_escape, ih fuel (by omega)]
    rfl

theorem length_le_flatMap_escape (cs : List Char) : cs.length ≤ (cs.flatMap escape).length := by
  induction cs with
  | nil => simp
  | cons c cs ih =>
    have hpos : 0 < (escape c).length := by
      rcases escape_cases c with ⟨d, ds, h, -⟩ | ⟨h, -⟩ <;> simp [h]
    rw [List.flatMap_cons, List.length_append, List.length_cons]
    omega

theorem leaf?_quoted (s : String) (hr : Breaks rest) :
    leaf? ((quoted s).toList ++ rest) = some (.literal (.str (quoted s) s), rest) := by
  have htext : (quoted s).toList ++ rest = '"' :: (s.toList.flatMap escape ++ '"' :: rest) := by
    simp [quoted]
  have hlength := length_le_flatMap_escape s.toList
  have hbody := quotedBody_flatMap s.toList ((s.toList.flatMap escape ++ '"' :: rest).length + 1)
    (by rw [List.length_append]; omega) rest
  have hspelling : spelling ((quoted s).toList ++ rest) rest = quoted s := by
    simp [spelling]
  have hliteral : literal? ((quoted s).toList ++ rest) = some (.str (quoted s) s, rest) := by
    have htextLiteral : textLiteral? ((quoted s).toList ++ rest) =
        some (.str (quoted s) s, rest) := by
      rw [htext] at hspelling ⊢
      simp only [textLiteral?, hbody, Option.bind_eq_bind, Option.bind_some, finishLiteral,
        suffix_of_breaks hr, hspelling, String.ofList_toList]
    rw [literal?, htextLiteral]
    rfl
  rw [leaf?, hliteral]
  rfl

end Quotation.Source

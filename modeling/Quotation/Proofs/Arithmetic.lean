import Mathlib.Algebra.Order.Group.Unbundled.Int
import Quotation.Prelude.Builtins

namespace Quotation

def Fits (z : Int) : Prop := -2 ^ 63 ≤ z ∧ z < 2 ^ 63

theorem fits_toInt (n : Int64) : Fits n.toInt := ⟨n.le_toInt, n.toInt_lt⟩

def Value.integer? : Value → Option Int
  | .int n => some n.toInt
  | .bool b => some (if b then 1 else 0)
  | _ => none

theorem Value.ofOperand_of_integer? {v : Value} {z : Int} (h : v.integer? = some z) :
    ∃ n : Int64, n.toInt = z ∧ ∀ op, Number.ofOperand op v = .ok (.int n) := by
  cases v with
  | int n =>
    cases h
    exact ⟨n, rfl, fun _ => rfl⟩
  | bool b =>
    cases h
    cases b
    · exact ⟨0, rfl, fun _ => rfl⟩
    · exact ⟨1, rfl, fun _ => rfl⟩
  | _ => cases h

theorem map_int_eq_ok_iff {r : Except Error Int64} {v : Value} :
    r.map Value.int = .ok v ↔ ∃ n, r = .ok n ∧ v = .int n := by
  cases r <;> simp [Except.map, eq_comm]

theorem map_int_eq_error_iff {r : Except Error Int64} {e : Error} :
    r.map Value.int = .error e ↔ r = .error e := by
  cases r <;> simp [Except.map]

namespace Builtin

/-- An outcome is that of exact arithmetic: the integer if there is one and it fits, and an error of
the host if not. -/
structure Exact (z? : Option Int) (r : Except Error Value) : Prop where
  result : ∀ v, r = .ok v ↔ ∃ n : Int64, v = .int n ∧ z? = some n.toInt
  defined : (∃ v, r = .ok v) ↔ ∃ z, z? = some z ∧ Fits z
  failure : ∀ e, r = .error e → ∃ text, e = .host text

def Arithmetic.integral? : Arithmetic → Int → Int → Option Int
  | .add, x, y => some (x + y)
  | .sub, x, y => some (x - y)
  | .mul, x, y => some (x * y)
  | .div, x, y => if y = 0 then none else some (x.tdiv y)
  | .rem, x, y => if y = 0 then none else some (x.tmod y)

end Builtin

namespace Number

theorem checked_of_fits {z : Int} (h : Fits z) : checked z = .ok (Int64.ofInt z) :=
  if_pos ⟨h.1, Int.le_of_lt_add_one h.2⟩

theorem checked_of_not_fits {z : Int} (h : ¬ Fits z) :
    checked z = .error (.host "integer overflow") :=
  if_neg fun hz => h ⟨hz.1, Int.lt_add_one_of_le hz.2⟩

theorem checked_eq_ok_iff {z : Int} {n : Int64} : checked z = .ok n ↔ n.toInt = z := by
  by_cases hz : Fits z
  · rw [checked_of_fits hz, Except.ok.injEq, ← Int64.toInt_inj,
      Int64.toInt_ofInt_of_le hz.1 hz.2, eq_comm]
  · rw [checked_of_not_fits hz]
    refine iff_of_false nofun ?_
    rintro rfl
    exact hz (fits_toInt n)

theorem checked_exact (z : Int) : Builtin.Exact (some z) ((checked z).map Value.int) := by
  by_cases hz : Fits z
  · have htoInt : (Int64.ofInt z).toInt = z := Int64.toInt_ofInt_of_le hz.1 hz.2
    rw [checked_of_fits hz]
    refine ⟨fun v => ⟨?_, ?_⟩, iff_of_true ⟨_, rfl⟩ ⟨z, rfl, hz⟩, nofun⟩
    · rintro ⟨⟩
      exact ⟨_, rfl, by rw [htoInt]⟩
    · rintro ⟨n, rfl, hn⟩
      rw [Option.some.inj hn, Int64.ofInt_toInt]
      rfl
  · rw [checked_of_not_fits hz]
    refine ⟨fun v => iff_of_false nofun ?_, iff_of_false nofun ?_, ?_⟩
    · rintro ⟨n, -, hn⟩
      cases hn
      exact hz (fits_toInt n)
    · rintro ⟨_, ⟨⟩, h⟩
      exact hz h
    · rintro _ ⟨⟩
      exact ⟨_, rfl⟩

theorem undefined_exact (text : String) : Builtin.Exact none (.error (.host text)) := by
  refine ⟨fun _ => iff_of_false nofun nofun, iff_of_false nofun nofun, ?_⟩
  rintro _ ⟨⟩
  exact ⟨text, rfl⟩

theorem onInts_exact {op : Builtin.Arithmetic} (hop : op ≠ .rem) (x y : Int64) :
    Builtin.Exact (op.integral? x.toInt y.toInt) ((onInts op x y).map Value.int) := by
  have hzero : y.toInt = 0 ↔ y = 0 := Int64.toInt_inj (y := 0)
  cases op with
  | add => exact checked_exact _
  | sub => exact checked_exact _
  | mul => exact checked_exact _
  | div =>
    simp only [onInts, Builtin.Arithmetic.integral?, hzero]
    split
    · exact undefined_exact _
    · exact checked_exact _
  | rem => exact absurd rfl hop

theorem onInts_rem_eq_ok_iff {x y r : Int64} :
    onInts .rem x y = .ok r ↔ (∃ q, onInts .div x y = .ok q) ∧ r.toInt = x.toInt.tmod y.toInt := by
  simp only [onInts]
  split
  · simp
  · cases checked (x.toInt.tdiv y.toInt) with
    | error e => simp [bind, Except.bind]
    | ok q => simp [bind, Except.bind, checked_eq_ok_iff]

theorem onInts_div_eq_ok {x y q : Int64} (h : onInts .div x y = .ok q) :
    y ≠ 0 ∧ q.toInt = x.toInt.tdiv y.toInt := by
  simp only [onInts] at h
  split at h
  · cases h
  · rename_i hy
    exact ⟨hy, checked_eq_ok_iff.1 h⟩

theorem checked_error {z : Int} {e : Error} (h : checked z = .error e) : ∃ text, e = .host text :=
  (checked_exact z).failure e (map_int_eq_error_iff.2 h)

theorem onInts_error {op : Builtin.Arithmetic} {x y : Int64} {e : Error}
    (h : onInts op x y = .error e) : ∃ text, e = .host text := by
  by_cases hop : op = .rem
  · subst hop
    simp only [onInts] at h
    split at h
    · cases h
      exact ⟨_, rfl⟩
    · cases hq : checked (x.toInt.tdiv y.toInt) with
      | error e' =>
        rw [hq] at h
        cases h
        exact checked_error hq
      | ok q =>
        rw [hq] at h
        exact checked_error h
  · exact (onInts_exact hop x y).failure e (map_int_eq_error_iff.2 h)

end Number

namespace Builtin

variable {a b : Value} {x y : Int64} {op : Arithmetic}

theorem fits_tmod {x y : Int} (hy : Fits y) (hzero : y ≠ 0) : Fits (x.tmod y) := by
  have hlt : (x.tmod y).natAbs < y.natAbs := by
    rw [Int.natAbs_tmod]
    exact Nat.mod_lt _ (Int.natAbs_pos.2 hzero)
  unfold Fits at *
  omega

theorem onInts_div_isOk_iff :
    (∃ q, Number.onInts .div x y = .ok q) ↔ ∃ r, Number.onInts .rem x y = .ok r := by
  constructor
  · rintro ⟨q, hq⟩
    obtain ⟨hy, -⟩ := Number.onInts_div_eq_ok hq
    have hfits : Fits (x.toInt.tmod y.toInt) :=
      fits_tmod (fits_toInt y) fun h => hy (Int64.toInt_inj.1 h)
    exact ⟨Int64.ofInt (x.toInt.tmod y.toInt), Number.onInts_rem_eq_ok_iff.2
      ⟨⟨q, hq⟩, Int64.toInt_ofInt_of_le hfits.1 hfits.2⟩⟩
  · rintro ⟨r, hr⟩
    exact (Number.onInts_rem_eq_ok_iff.1 hr).1

theorem quotient_remainder {q r : Int64} (hq : Number.onInts .div x y = .ok q)
    (hr : Number.onInts .rem x y = .ok r) :
    x.toInt = q.toInt * y.toInt + r.toInt ∧ |r.toInt| < |y.toInt| ∧
      (r.toInt = 0 ∨ r.toInt.sign = x.toInt.sign) := by
  obtain ⟨hy, hq⟩ := Number.onInts_div_eq_ok hq
  obtain ⟨-, hr⟩ := Number.onInts_rem_eq_ok_iff.1 hr
  have hzero : y.toInt ≠ 0 := fun h => hy (Int64.toInt_inj.1 h)
  rw [hq, hr]
  refine ⟨(Int.tdiv_mul_add_tmod _ _).symm, ?_, ?_⟩
  · rw [Int.abs_eq_natAbs, Int.abs_eq_natAbs, Int.natAbs_tmod]
    exact_mod_cast Nat.mod_lt _ (Int.natAbs_pos.2 hzero)
  · rw [Int.sign_tmod]
    split
    · rename_i hdvd
      exact .inl (Int.tmod_eq_zero_of_dvd hdvd)
    · exact .inr rfl

theorem arithmetic_ints (m n : Option String) (ha : Number.ofOperand op.symbol a = .ok (.int x))
    (hb : Number.ofOperand op.symbol b = .ok (.int y)) :
    arithmetic op [⟨m, a⟩, ⟨n, b⟩] = (Number.onInts op x y).map Value.int := by
  have hbinary : arithmetic op [⟨m, a⟩, ⟨n, b⟩] = (do
      let p ← Number.ofOperand op.symbol a
      let q ← Number.ofOperand op.symbol b
      (Number.binary op p q).map Number.toValue) := rfl
  rw [hbinary, ha, hb]
  cases hxy : Number.onInts op x y <;> simp [bind, Except.bind, Except.map, Number.binary, hxy,
    Number.toValue]

theorem negative_int (m : Option String)
    (ha : Number.ofOperand Arithmetic.sub.symbol a = .ok (.int x)) :
    arithmetic .sub [⟨m, a⟩] = (Number.checked (-x.toInt)).map Value.int := by
  have hnegate : arithmetic .sub [⟨m, a⟩] = (do
      let p ← Number.ofOperand Arithmetic.sub.symbol a
      p.negate.map Number.toValue) := rfl
  rw [hnegate, ha]
  cases hx : Number.checked (-x.toInt) <;> simp [bind, Except.bind, Except.map, Number.negate, hx,
    Number.toValue]

/-- What the operators of the prelude give for operands that count as the integers `x` and `y`.
`+`, `-`, `*` and `/` are exact, as is `-` before one operand, and all errors are of the host; `/`
and `%` fail together, and where they do not, the remainder completes the quotient. -/
theorem integer_arithmetic_exact
    (host : String → List Item → World → Except Error Value × World) (w : World)
    (m n : Option String) {a b : Value} {x y : Int} (ha : a.integer? = some x)
    (hb : b.integer? = some y) :
    let run (op : Arithmetic) := Op.run host (.arithmetic op) [⟨m, a⟩, ⟨n, b⟩] w
    let negative := Op.run host (.arithmetic .sub) [⟨m, a⟩] w
    (∀ op, op ≠ .rem → Exact (op.integral? x y) (run op).1) ∧
      Exact (some (-x)) negative.1 ∧
      (∀ op e, (run op).1 = .error e → ∃ text, e = .host text) ∧
      ((∃ v, (run .div).1 = .ok v) ↔ ∃ v, (run .rem).1 = .ok v) ∧
      (∀ v u, (run .div).1 = .ok v → (run .rem).1 = .ok u → ∃ q r : Int64,
        v = .int q ∧ u = .int r ∧ x = q.toInt * y + r.toInt ∧ |r.toInt| < |y| ∧
          (r.toInt = 0 ∨ r.toInt.sign = x.sign)) ∧
      negative.2 = w ∧ ∀ op, (run op).2 = w := by
  intro run negative
  obtain ⟨i, rfl, hi⟩ := Value.ofOperand_of_integer? ha
  obtain ⟨j, rfl, hj⟩ := Value.ofOperand_of_integer? hb
  have hrun (op : Arithmetic) : (run op).1 = (Number.onInts op i j).map Value.int :=
    arithmetic_ints m n (hi _) (hj _)
  have hnegative : negative.1 = (Number.checked (-i.toInt)).map Value.int := negative_int m (hi _)
  refine ⟨fun op hop => ?_, ?_, fun op e he => ?_, ?_, fun v u hv hu => ?_, rfl, fun _ => rfl⟩
  · rw [hrun]
    exact Number.onInts_exact hop i j
  · rw [hnegative]
    exact Number.checked_exact _
  · rw [hrun, map_int_eq_error_iff] at he
    exact Number.onInts_error he
  · simp only [hrun, map_int_eq_ok_iff]
    constructor
    · rintro ⟨_, q, hq, rfl⟩
      obtain ⟨r, hr⟩ := onInts_div_isOk_iff.1 ⟨q, hq⟩
      exact ⟨_, r, hr, rfl⟩
    · rintro ⟨_, r, hr, rfl⟩
      obtain ⟨q, hq⟩ := onInts_div_isOk_iff.2 ⟨r, hr⟩
      exact ⟨_, q, hq, rfl⟩
  · rw [hrun, map_int_eq_ok_iff] at hv hu
    obtain ⟨q, hq, rfl⟩ := hv
    obtain ⟨r, hr, rfl⟩ := hu
    exact ⟨q, r, rfl, rfl, quotient_remainder hq hr⟩

theorem least_by_minus_one :
    let run (op : Arithmetic) := (Op.run (fun _ _ w => (.error (.host ""), w)) (.arithmetic op)
      [⟨none, .int Int64.minValue⟩, ⟨some "by", .int (-1)⟩] {}).1
    (Value.int Int64.minValue).integer? = some (-2 ^ 63) ∧
      (Value.int (-1)).integer? = some (-1) ∧ Exact (some (2 ^ 63)) (run .div) ∧
      ¬ ∃ v, run .rem = .ok v := by
  intro run
  obtain ⟨hexact, -, -, htogether, -⟩ := integer_arithmetic_exact
    (fun _ _ w => (.error (.host ""), w)) {} none (some "by") (a := .int Int64.minValue)
    (b := .int (-1)) rfl rfl
  have hdiv : Exact (some (2 ^ 63)) (run .div) := hexact .div (by decide)
  refine ⟨rfl, rfl, hdiv, fun h => ?_⟩
  obtain ⟨_, ⟨⟩, hfits⟩ := hdiv.defined.1 (htogether.2 h)
  exact absurd hfits.2 (by decide)

end Builtin

end Quotation

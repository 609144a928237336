import Quotation.Prelude.Number
import Quotation.Proofs.Comparison.Rounding

/-! The double that an integer is turned into stands for `nearest` of it, so the order of two
integers as doubles is the order of the whole numbers that these stand for. The proof follows the
digits of an integer through the operations that doubles are made of. -/

open Float.Model
open Float.Model.UnpackedFloat

namespace Quotation.Binary64

theorem shiftRight_exact (m k : Nat) :
    (⟨m, false, false⟩ : ExtendedMantissa) >>> k =
      ⟨m / 2 ^ k, decide (2 ^ k ≤ 2 * (m % 2 ^ k)), decide (2 * (m % 2 ^ k) % 2 ^ k ≠ 0)⟩ := by
  induction k with
  | zero => simp [HShiftRight.hShiftRight, Nat.repeat, Nat.mod_one]
  | succ k ih =>
    change ExtendedMantissa.shiftRightOne ((⟨m, false, false⟩ : ExtendedMantissa) >>> k) = _
    have hlt : m % 2 ^ k < 2 ^ k := Nat.mod_lt m (Nat.two_pow_pos k)
    have hmod : m % 2 ^ (k + 1) = m % 2 ^ k + 2 ^ k * (m / 2 ^ k % 2) := Nat.mod_mul
    rw [ih]
    simp only [ExtendedMantissa.shiftRightOne, ExtendedMantissa.mk.injEq]
    refine ⟨by rw [Nat.div_div_eq_div_mul, Nat.pow_succ], ?_, ?_⟩
    · rcases Nat.mod_two_eq_zero_or_one (m / 2 ^ k) with hb | hb <;>
        · rw [hmod, hb, Nat.pow_succ]
          simp
          omega
    · -- the digits below the new first one are all the digits that were out before
      have hsticky : 2 * (m % 2 ^ (k + 1)) % 2 ^ (k + 1) = 2 * (m % 2 ^ k) := by
        rw [Nat.pow_succ', Nat.mul_mod_mul_left, Nat.mod_mul_left_mod]
      rw [hsticky]
      rcases Nat.lt_or_ge (2 * (m % 2 ^ k)) (2 ^ k) with h | h
      · simp [Nat.mod_eq_of_lt h, Nat.not_le.2 h]
      · simp [h]
        omega

theorem roundedMantissa_shiftRight (m k : Nat) :
    ((⟨m, false, false⟩ : ExtendedMantissa) >>> k).roundedMantissa = halfEven m (2 ^ k) := by
  have hlt : m % 2 ^ k < 2 ^ k := Nat.mod_lt m (Nat.two_pow_pos k)
  rw [shiftRight_exact]
  unfold halfEven
  rcases Nat.lt_trichotomy (2 * (m % 2 ^ k)) (2 ^ k) with h | h | h
  · rw [if_pos h, decide_eq_false (Nat.not_le.2 h)]
    cases decide (2 * (m % 2 ^ k) % 2 ^ k ≠ 0) <;> rfl
  · simp [h, ExtendedMantissa.roundedMantissa, ExtendedMantissa.accuracy,
      Accuracy.roundToNearestEven]
  · have hrest : 2 * (m % 2 ^ k) % 2 ^ k ≠ 0 := by
      rw [Nat.mod_eq_sub_mod h.le, Nat.mod_eq_of_lt (by omega)]
      omega
    rw [if_neg (by omega), if_neg (by omega), decide_eq_true h.le, decide_eq_true hrest]
    rfl

/-- The natural number `n` is `m * 2 ^ e`, where `m` has 53 digits. -/
structure Digits (m : Nat) (e : Int) (n : Nat) : Prop where
  low : 2 ^ 52 ≤ m
  high : m < 2 ^ 53
  least : -52 ≤ e
  greatest : e ≤ 971
  value : m * 2 ^ (e + 52).toNat = n * 2 ^ 52

inductive StandsFor : UnpackedFloat → Int → Prop
  | zero (s : Sign) : StandsFor (.zero s) 0
  | positive {m : Nat} {e : Int} {n : Nat} (pos : 0 < m) (digits : Digits m e n) :
    StandsFor (.finite .positive m e pos) n
  | negative {m : Nat} {e : Int} {n : Nat} (pos : 0 < m) (digits : Digits m e n) :
    StandsFor (.finite .negative m e pos) (-n)

theorem shiftToTargetExponent_exact {m k : Nat} {e : Int} (h : m.log2 = 52 + k)
    (least : -1074 ≤ e + k) :
    shiftToTargetExponent Format.binary64 m e .exact =
      ((⟨m, false, false⟩ : ExtendedMantissa) >>> k, e + k) := by
  have htarget : Format.binary64.targetExponent (totalExponent m e) = e + k := by
    simp [Format.targetExponent, totalExponent, Format.mantissaBits, Format.minExponent]
    omega
  have hshift : (e + k - e : Int).toNat = k := by omega
  simp only [shiftToTargetExponent, shiftToExponent, htarget, hshift,
    ExtendedMantissa.ofMantissaAndAccuracy]

theorem roundWithAccuracy_exact (s : Sign) {m k : Nat} {e : Int} (h : m.log2 = 52 + k)
    (least : -1074 ≤ e + k) (low : 2 ^ 52 ≤ halfEven m (2 ^ k))
    (high : halfEven m (2 ^ k) ≤ 2 ^ 53) :
    roundWithAccuracy Format.binary64 s m e .exact =
      if halfEven m (2 ^ k) < 2 ^ 53 then
        .finite s (halfEven m (2 ^ k)) (e + k) (Nat.lt_of_lt_of_le (by decide) low)
      else .finite s (2 ^ 52) (e + k + 1) (by decide) := by
  rw [roundWithAccuracy]
  simp only [shiftToTargetExponent_exact h least, roundedMantissa_shiftRight]
  have hne : halfEven m (2 ^ k) ≠ 0 := by omega
  rcases Nat.lt_or_ge (halfEven m (2 ^ k)) (2 ^ 53) with hlt | hge
  · have hlog : (halfEven m (2 ^ k)).log2 = 52 + 0 := (Nat.log2_eq_iff hne).2 ⟨low, hlt⟩
    rw [if_pos hlt]
    simp [shiftToTargetExponent_exact hlog (by omega : -1074 ≤ e + k + (0 : Nat)), shiftRight_exact,
      hne]
  · have heq : halfEven m (2 ^ k) = 2 ^ 53 := by omega
    have hlog : (halfEven m (2 ^ k)).log2 = 52 + 1 := by rw [heq, Nat.log2_two_pow]
    simp only [shiftToTargetExponent_exact hlog (by omega : -1074 ≤ e + k + (1 : Nat)),
      shiftRight_exact]
    simp [heq]

theorem log2_mul_two_pow {n : Nat} (hn : 0 < n) (j : Nat) : (n * 2 ^ j).log2 = n.log2 + j := by
  rw [Nat.log2_eq_iff (Nat.mul_pos hn (Nat.two_pow_pos j)).ne']
  constructor
  · rw [Nat.pow_add]
    exact Nat.mul_le_mul_right _ (Nat.log2_self_le hn.ne')
  · rw [Nat.add_right_comm, Nat.pow_add]
    exact Nat.mul_lt_mul_of_pos_right Nat.lt_log2_self (Nat.two_pow_pos j)

theorem halfEven_digits {n j k : Nat} (hn : 0 < n) (hk : n.log2 + j = 52 + k) :
    2 ^ 52 ≤ halfEven (n * 2 ^ j) (2 ^ k) ∧ halfEven (n * 2 ^ j) (2 ^ k) ≤ 2 ^ 53 ∧
      halfEven (n * 2 ^ j) (2 ^ k) * 2 ^ n.log2 = nearestNat n * 2 ^ 52 := by
  rcases Nat.lt_or_ge 52 n.log2 with h | h
  · have hexcess : n.log2 = 52 + excess n := by
      unfold excess
      omega
    have hdigits : halfEven (n * 2 ^ j) (2 ^ k) = leading n := by
      rw [show k = excess n + j by omega, Nat.pow_add, halfEven_mul_mul _ _ (Nat.two_pow_pos j)]
      rfl
    rw [hdigits]
    refine ⟨le_leading (by omega), leading_le n, ?_⟩
    rw [nearestNat, Nat.mul_assoc, ← Nat.pow_add, hexcess, Nat.add_comm 52]
  · have hdigits : halfEven (n * 2 ^ j) (2 ^ k) = n * 2 ^ (52 - n.log2) := by
      rw [show j = 52 - n.log2 + k by omega, Nat.pow_add, ← Nat.mul_assoc,
        halfEven_mul_self _ (Nat.two_pow_pos k)]
    have hlog : (n * 2 ^ (52 - n.log2)).log2 = 52 := by
      rw [log2_mul_two_pow hn]
      omega
    obtain ⟨low, high⟩ := (Nat.log2_eq_iff (Nat.mul_pos hn (Nat.two_pow_pos _)).ne').1 hlog
    rw [hdigits, nearestNat_of_lt ((Nat.log2_lt hn.ne').1 (by omega)), Nat.mul_assoc,
      ← Nat.pow_add, Nat.sub_add_cancel h]
    exact ⟨low, high.le, rfl⟩

theorem standsFor_round {n j : Nat} (hn : 0 < n) (hj : 52 ≤ n.log2 + j) (hmax : n.log2 < 1000) :
    StandsFor (roundWithAccuracy Format.binary64 .positive (n * 2 ^ j) (-j) .exact)
      (nearestNat n) := by
  obtain ⟨k, hk⟩ := Nat.exists_eq_add_of_le hj
  obtain ⟨low, high, value⟩ := halfEven_digits hn hk
  rw [roundWithAccuracy_exact _ ((log2_mul_two_pow hn j).trans hk) (by omega) low high]
  split_ifs with hlt
  · refine .positive _ ⟨low, hlt, by omega, by omega, ?_⟩
    rwa [show (-(j : Int) + k + 52).toNat = n.log2 by omega]
  · refine .positive _ ⟨by decide, by decide, by omega, by omega, ?_⟩
    rw [show (-(j : Int) + k + 1 + 52).toNat = n.log2 + 1 by omega, ← value,
      Nat.le_antisymm high (Nat.le_of_not_lt hlt), Nat.pow_succ]
    omega

theorem unpackSign_packComponents (s : Sign) (e : BitVec 11) (m : BitVec 52) :
    Sign.ofBitVec (unpackSign (packComponents Format.binary64 s e m)) = s := by
  have hsign : unpackSign (packComponents Format.binary64 s e m) = s.toBitVec := by
    ext i hi
    obtain rfl : i = 0 := by omega
    suffices (s.toBitVec ++ e ++ m).getLsbD 63 = s.toBitVec[0] by
      simpa [unpackSign, packComponents]
    rw [BitVec.getLsbD_append, BitVec.getLsbD_append]
    simp [BitVec.getLsbD_eq_getElem]
  rw [hsign]
  cases s <;> rfl

theorem pack_finite (s : Sign) {m b : Nat} {e : Int} (pos : 0 < m) (hlog : m.log2 = 52)
    (hb : e + 1075 = b) (hlt : b < 2047) :
    UnpackedFloat.pack Format.binary64 (.finite s m e pos) =
      packComponents Format.binary64 s (BitVec.ofNat 11 b) (BitVec.ofNat 52 m) := by
  have hbias : (e + Format.binary64.exponentBias + (52 : Nat)).toNat = b := by
    have : Format.binary64.exponentBias = 1023 := rfl
    omega
  simp only [UnpackedFloat.pack, hbias, hlog]
  rw [if_neg (by omega)]
  rfl

theorem unpack_packComponents (s : Sign) {b : Nat} (f : BitVec 52) (hpos : 0 < b)
    (hlt : b < 2047) :
    UnpackedFloat.unpack Format.binary64 (packComponents Format.binary64 s (BitVec.ofNat 11 b) f) =
      .finite s (2 ^ 52 + f.toNat) (b - 1075) (by omega) := by
  have hzero : BitVec.ofNat 11 b ≠ 0#11 := by
    rw [Ne, ← BitVec.toNat_inj, BitVec.toNat_ofNat, BitVec.toNat_ofNat]
    omega
  have hones : BitVec.ofNat 11 b ≠ -1#11 := by
    rw [Ne, ← BitVec.toNat_inj, BitVec.toNat_ofNat]
    simp
    omega
  have himplicit : (1#1 ++ f).toNat = 2 ^ 52 + f.toNat := by
    rw [BitVec.toNat_append, ← Nat.shiftLeft_add_eq_or_of_lt f.isLt]
    rfl
  simp only [UnpackedFloat.unpack, unpackExponent_packComponents, unpackMantissa_packComponents,
    unpackSign_packComponents, hzero, hones, if_false]
  congr 1
  rw [BitVec.toNat_ofNat, Nat.mod_eq_of_lt (by omega)]
  rfl

theorem Digits.unpack_pack {m n : Nat} {e : Int} (h : Digits m e n) (s : Sign) (pos : 0 < m) :
    (Float.Model.pack (.finite s m e pos)).unpack = .finite s m e pos := by
  obtain ⟨low, high, least, greatest, -⟩ := h
  have hlog : m.log2 = 52 := (Nat.log2_eq_iff pos.ne').2 ⟨low, high⟩
  have hb : e + 1075 = ((e + 1075).toNat : Nat) := by omega
  have hf : 2 ^ 52 + (BitVec.ofNat 52 m).toNat = m := by
    rw [BitVec.toNat_ofNat]
    omega
  change UnpackedFloat.unpack _ (UnpackedFloat.pack Format.binary64 _) = _
  rw [pack_finite s pos hlog hb (by omega), unpack_packComponents s _ (by omega) (by omega)]
  congr 1
  omega

theorem StandsFor.pack {u : UnpackedFloat} {z : Int} (h : StandsFor u z) :
    StandsFor (Float.Model.pack u).unpack z := by
  have hpack : (Float.Model.pack u).unpack = u := by
    cases h with
    | zero s => cases s <;> rfl
    | positive pos digits => exact digits.unpack_pack _ pos
    | negative pos digits => exact digits.unpack_pack _ pos
  exact hpack.symm ▸ h

theorem StandsFor.neg {u : UnpackedFloat} {z : Int} (h : StandsFor u z) : StandsFor u.neg (-z) := by
  cases h with
  | zero s => exact .zero (-s)
  | positive pos digits => exact .negative pos digits
  | negative pos digits => exact (Int.neg_neg _).symm ▸ .positive pos digits

theorem compare_congr {α β : Type} [LinearOrder α] [LinearOrder β] {x y : α} {a b : β}
    (hlt : x < y ↔ a < b) (hgt : y < x ↔ b < a) : compare x y = compare a b := by
  rcases lt_trichotomy a b with h | h | h
  · rw [compare_lt_iff_lt.2 h, compare_lt_iff_lt.2 (hlt.2 h)]
  · have hxy : x = y := le_antisymm (not_lt.1 (hgt.not.2 h.not_gt)) (not_lt.1 (hlt.not.2 h.not_lt))
    rw [compare_eq_iff_eq.2 h, compare_eq_iff_eq.2 hxy]
  · rw [compare_gt_iff_gt.2 h, compare_gt_iff_gt.2 (hgt.2 h)]

theorem Digits.pos {m n : Nat} {e : Int} (h : Digits m e n) : 0 < n := by
  have hpos : 0 < n * 2 ^ 52 := h.value ▸ Nat.mul_pos (by have := h.low; omega) (Nat.two_pow_pos _)
  exact Nat.pos_of_mul_pos_right hpos

theorem Digits.lt {m n x y : Nat} {d e : Int} (hx : Digits m d x) (hy : Digits n e y)
    (h : d < e) : x < y := by
  have hd := hx.least
  refine Nat.lt_of_mul_lt_mul_right (a := 2 ^ 52) ?_
  calc x * 2 ^ 52 = m * 2 ^ (d + 52).toNat := hx.value.symm
    _ < 2 ^ 53 * 2 ^ (d + 52).toNat := Nat.mul_lt_mul_of_pos_right hx.high (Nat.two_pow_pos _)
    _ = 2 ^ 52 * 2 ^ ((d + 52).toNat + 1) := by rw [Nat.pow_succ]; omega
    _ ≤ n * 2 ^ (e + 52).toNat :=
      Nat.mul_le_mul hy.low (Nat.pow_le_pow_right (by decide) (by omega))
    _ = y * 2 ^ 52 := hy.value

theorem Digits.lt_iff {m n x y : Nat} {e : Int} (hx : Digits m e x) (hy : Digits n e y) :
    m < n ↔ x < y := by
  rw [← Nat.mul_lt_mul_right (Nat.two_pow_pos (e + 52).toNat), hx.value, hy.value,
    Nat.mul_lt_mul_right (Nat.two_pow_pos 52)]

theorem Digits.compare_eq {m n x y : Nat} {d e : Int} (hx : Digits m d x) (hy : Digits n e y) :
    (compare d e).then (compare m n) = compare x y := by
  rcases lt_trichotomy d e with h | rfl | h
  · rw [compare_lt_iff_lt.2 h, compare_lt_iff_lt.2 (hx.lt hy h)]
    rfl
  · rw [compare_eq_iff_eq.2 rfl]
    exact compare_congr (hx.lt_iff hy) (hy.lt_iff hx)
  · rw [compare_gt_iff_gt.2 h, compare_gt_iff_gt.2 (hy.lt hx h)]
    rfl

theorem StandsFor.compare_eq {u v : UnpackedFloat} {x y : Int} (hx : StandsFor u x)
    (hy : StandsFor v y) : u.compare v = some (compare x y) := by
  have of_lt {x y : Int} (h : x < y) : some Ordering.lt = some (compare x y) :=
    congrArg some (compare_lt_iff_lt.2 h).symm
  have of_gt {x y : Int} (h : y < x) : some Ordering.gt = some (compare x y) :=
    congrArg some (compare_gt_iff_gt.2 h).symm
  cases hx with
  | zero s =>
    cases hy with
    | zero t => rfl
    | positive _ hy => exact of_lt (by have := hy.pos; omega)
    | negative _ hy => exact of_gt (by have := hy.pos; omega)
  | positive _ hx =>
    have hx' := hx.pos
    cases hy with
    | zero t => exact of_gt (by omega)
    | positive _ hy =>
      exact congrArg some ((hx.compare_eq hy).trans (compare_congr (by omega) (by omega)))
    | negative _ hy => exact of_gt (by have := hy.pos; omega)
  | negative _ hx =>
    have hx' := hx.pos
    cases hy with
    | zero t => exact of_lt (by omega)
    | positive _ hy => exact of_lt (by have := hy.pos; omega)
    | negative _ hy =>
      refine congrArg some ?_
      rw [hx.compare_eq hy, Nat.compare_swap]
      exact compare_congr (by omega) (by omega)

theorem StandsFor.digits {u : UnpackedFloat} {n : Nat} (h : StandsFor u n) (hn : 0 < n) :
    ∃ m e pos, u = .finite .positive m e pos ∧ Digits m e n := by
  generalize hz : (n : Int) = z at h
  cases h with
  | zero s => omega
  | positive pos digits => exact ⟨_, _, pos, rfl, Int.ofNat_inj.1 hz ▸ digits⟩
  | negative pos digits => omega

theorem Digits.standsFor_round {m n : Nat} {e : Int} (h : Digits m e n) (k : Nat) :
    StandsFor (roundWithAccuracy Format.binary64 .positive (m * 2 ^ k) (e - k) .exact) n := by
  have pos : 0 < m := Nat.lt_of_lt_of_le (by decide) h.low
  have hlog : (m * 2 ^ k).log2 = 52 + k := by
    rw [log2_mul_two_pow pos, (Nat.log2_eq_iff pos.ne').2 ⟨h.low, h.high⟩]
  have hround : halfEven (m * 2 ^ k) (2 ^ k) = m := halfEven_mul_self m (Nat.two_pow_pos k)
  have hleast := h.least
  rw [roundWithAccuracy_exact _ hlog (by omega) (by rw [hround]; exact h.low)
    (by rw [hround]; exact h.high.le)]
  simp only [hround, h.high, if_true, Int.sub_add_cancel]
  exact .positive pos h

theorem standsFor_ofUInt64 {n : Nat} (hn : 0 < n) (h : n < 2 ^ 53) :
    StandsFor (Float.Model.ofUInt64 n.toUInt64).unpack n := by
  have hlog : n.log2 < 53 := (Nat.log2_lt hn.ne').2 h
  have hround : UnpackedFloat.ofUInt64 Format.binary64 n.toUInt64 =
      roundWithAccuracy Format.binary64 .positive (n * 2 ^ (52 - n.log2))
        (-(52 - n.log2 : Nat)) .exact := by
    have htarget : Format.binary64.targetExponent (totalExponent n 0) = -(52 - n.log2 : Nat) := by
      simp [Format.targetExponent, totalExponent, Format.mantissaBits, Format.minExponent]
      omega
    have hn' : n.toUInt64.toNat = n := Nat.mod_eq_of_lt (by omega)
    have hgt : compare (n : Int) 0 = .gt := compare_gt_iff_gt.2 (by omega)
    simp [UnpackedFloat.ofUInt64, UnpackedFloat.ofNat, UnpackedFloat.ofInt,
      UnpackedFloat.normalize, hn', hgt, UnpackedFloat.round, decreaseExponent, htarget,
      Nat.shiftLeft_eq]
  have hstands := standsFor_round hn (j := 52 - n.log2) (by omega) (by omega)
  rw [nearestNat_of_lt h, ← hround] at hstands
  exact hstands.pack

theorem standsFor_ofScientific_small {n : Nat} (hn : 0 < n) (h : n < 2 ^ 53) :
    StandsFor (Float.ofScientific n false 0).toModel.unpack n := by
  have hfast : Float.ofScientific n false 0 =
      n.toUInt64.toFloat * Float.ofBits 0x3FF0000000000000 := by
    rw [Float.ofScientific, dif_pos ⟨h, by decide⟩]
    rfl
  have hone : (Float.Model.ofBits 0x3FF0000000000000).unpack =
      .finite .positive (2 ^ 52) (-52) (by decide) := rfl
  obtain ⟨m, e, pos, hunpack, digits⟩ := (standsFor_ofUInt64 hn h).digits hn
  have hstands := digits.standsFor_round 52
  rw [hfast]
  change StandsFor (Float.Model.pack (UnpackedFloat.mul Format.binary64
    (Float.Model.ofUInt64 n.toUInt64).unpack
    (Float.Model.ofBits 0x3FF0000000000000).unpack)).unpack n
  rw [hunpack, hone]
  exact hstands.pack

theorem standsFor_ofScientific_large {n : Nat} (h : 2 ^ 53 ≤ n) (hmax : n < 2 ^ 64) :
    StandsFor (Float.ofScientific n false 0).toModel.unpack (nearestNat n) := by
  have hn : 0 < n := by omega
  have hlog : n.log2 < 64 := (Nat.log2_lt hn.ne').2 hmax
  have hslow : Float.ofScientific n false 0 = .ofModel (Float.Model.ofScientific n 0) := by
    rw [Float.ofScientific, dif_neg (by omega)]
    rfl
  have hround : UnpackedFloat.ofScientific Format.binary64 n 0 =
      roundWithAccuracy Format.binary64 .positive (n * 2 ^ 53) (-(53 : Nat)) .exact := by
    have hleast : ¬ (0 : Int) < -((2 ^ 11 : Int) + n.log2) := by omega
    rw [UnpackedFloat.ofScientific, dif_neg hn.ne', if_neg (by decide), if_neg hleast,
      if_pos (Int.le_refl 0), UnpackedFloat.mul]
    simp [Nat.shiftLeft_eq, Format.mantissaBits]
    rfl
  have hstands := standsFor_round hn (j := 53) (by omega) (by omega)
  rw [← hround] at hstands
  exact hslow ▸ hstands.pack

theorem standsFor_ofNat {n : Nat} (h : n < 2 ^ 64) :
    StandsFor (Float.ofNat n).toModel.unpack (nearestNat n) := by
  rcases Nat.eq_zero_or_pos n with rfl | hn
  · exact .zero .positive
  · rcases Nat.lt_or_ge n (2 ^ 53) with hsmall | hlarge
    · rw [nearestNat_of_lt hsmall]
      exact standsFor_ofScientific_small hn hsmall
    · exact standsFor_ofScientific_large hlarge h

theorem standsFor_ofInt {z : Int} (h : z.natAbs < 2 ^ 64) :
    StandsFor (Float.ofInt z).toModel.unpack (nearest z) := by
  cases z with
  | ofNat n => exact nearest_natCast n ▸ standsFor_ofNat h
  | negSucc n =>
    have hneg := (standsFor_ofNat (n := n + 1) h).neg
    rw [Int.negSucc_eq, ← Int.natCast_succ, nearest_neg, nearest_natCast]
    exact hneg.pack

theorem lt_iff_compare (x y : Float) :
    x < y ↔ x.toModel.unpack.compare y.toModel.unpack = some .lt := by
  change decide (x.toModel.unpack.lt y.toModel.unpack = true) = true ↔ _
  simp [UnpackedFloat.lt]

theorem beq_iff_compare (x y : Float) :
    (x == y) = true ↔ x.toModel.unpack.compare y.toModel.unpack = some .eq := by
  change x.toModel.unpack.beq y.toModel.unpack = true ↔ _
  simp [UnpackedFloat.beq]

theorem orderFloats?_ofInt {x y : Int} (hx : x.natAbs < 2 ^ 64) (hy : y.natAbs < 2 ^ 64) :
    Number.orderFloats? (Float.ofInt x) (Float.ofInt y) =
      some (compare (nearest x) (nearest y)) := by
  have hxy := (standsFor_ofInt hx).compare_eq (standsFor_ofInt hy)
  have hyx := (standsFor_ofInt hy).compare_eq (standsFor_ofInt hx)
  simp only [Number.orderFloats?, lt_iff_compare, beq_iff_compare, hxy, hyx, Option.some.injEq,
    compare_lt_iff_lt, compare_eq_iff_eq]
  rcases lt_trichotomy (nearest x) (nearest y) with h | h | h
  · rw [if_pos h, compare_lt_iff_lt.2 h]
  · rw [if_neg h.not_lt, if_pos h, compare_eq_iff_eq.2 h]
  · rw [if_neg h.not_gt, if_neg h.ne', if_pos h, compare_gt_iff_gt.2 h]

end Quotation.Binary64

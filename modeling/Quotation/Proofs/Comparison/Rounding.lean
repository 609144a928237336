import Mathlib

namespace Quotation.Binary64

def halfEven (n d : Nat) : Nat :=
  if 2 * (n % d) < d then n / d
  else if 2 * (n % d) = d then n / d + n / d % 2
  else n / d + 1

def excess (n : Nat) : Nat := n.log2 - 52

def leading (n : Nat) : Nat := halfEven n (2 ^ excess n)

def nearestNat (n : Nat) : Nat := leading n * 2 ^ excess n

/-- The whole number with at most 53 significant binary digits that is closest to `z`. -/
def nearest (z : Int) : Int := z.sign * nearestNat z.natAbs

theorem le_halfEven (n d : Nat) : n / d ≤ halfEven n d := by
  unfold halfEven
  split_ifs <;> omega

theorem halfEven_le (n d : Nat) : halfEven n d ≤ n / d + 1 := by
  unfold halfEven
  split_ifs <;> omega

theorem halfEven_mono {m n : Nat} (d : Nat) (h : m ≤ n) : halfEven m d ≤ halfEven n d := by
  rcases Nat.lt_or_ge (m / d) (n / d) with hq | hq
  · exact (halfEven_le m d).trans (Nat.le_trans hq (le_halfEven n d))
  · -- the quotients are the same, so the remainders are in order
    have hq : m / d = n / d := Nat.le_antisymm (Nat.div_le_div_right h) hq
    have hr : m % d ≤ n % d := by
      have hm := Nat.div_add_mod m d
      have hn := Nat.div_add_mod n d
      rw [hq] at hm
      omega
    simp only [halfEven, hq]
    split_ifs <;> omega

theorem halfEven_mul_self (n : Nat) {d : Nat} (hd : 0 < d) : halfEven (n * d) d = n := by
  simp [halfEven, Nat.mul_mod_left, Nat.mul_div_cancel _ hd, hd]

theorem halfEven_mul_mul (n d : Nat) {c : Nat} (hc : 0 < c) :
    halfEven (n * c) (d * c) = halfEven n d := by
  have hlt : 2 * (n % d * c) < d * c ↔ 2 * (n % d) < d := by
    rw [← Nat.mul_assoc, Nat.mul_lt_mul_right hc]
  have heq : 2 * (n % d * c) = d * c ↔ 2 * (n % d) = d := by
    rw [← Nat.mul_assoc, Nat.mul_left_inj hc.ne']
  simp only [halfEven, Nat.mul_mod_mul_right, Nat.mul_div_mul_right _ _ hc, hlt, heq]

theorem lt_two_pow_excess (n : Nat) : n < 2 ^ 53 * 2 ^ excess n := by
  rw [← Nat.pow_add]
  refine Nat.lt_of_lt_of_le Nat.lt_log2_self (Nat.pow_le_pow_right (by decide) ?_)
  unfold excess
  omega

theorem two_pow_excess_le {n : Nat} (h : 0 < excess n) : 2 ^ 52 * 2 ^ excess n ≤ n := by
  have hlog : 52 + excess n = n.log2 := by
    unfold excess at h ⊢
    omega
  have hn : n ≠ 0 := by
    rintro rfl
    simp [excess] at h
  rw [← Nat.pow_add, hlog]
  exact Nat.log2_self_le hn

theorem leading_le (n : Nat) : leading n ≤ 2 ^ 53 := by
  have h := halfEven_mono (2 ^ excess n) (lt_two_pow_excess n).le
  rwa [halfEven_mul_self _ (Nat.two_pow_pos _)] at h

theorem le_leading {n : Nat} (h : 0 < excess n) : 2 ^ 52 ≤ leading n := by
  have h := halfEven_mono (2 ^ excess n) (two_pow_excess_le h)
  rwa [halfEven_mul_self _ (Nat.two_pow_pos _)] at h

theorem excess_eq_zero {n : Nat} (h : n < 2 ^ 53) : excess n = 0 := by
  rcases Nat.eq_zero_or_pos n with rfl | hn
  · rfl
  · have := (Nat.log2_lt hn.ne').2 h
    unfold excess
    omega

theorem nearestNat_of_lt {n : Nat} (h : n < 2 ^ 53) : nearestNat n = n := by
  simp [nearestNat, leading, halfEven, excess_eq_zero h, Nat.mod_one]

theorem excess_mono : Monotone excess := by
  intro m n h
  refine Nat.sub_le_sub_right ?_ 52
  rw [Nat.log2_eq_log_two, Nat.log2_eq_log_two]
  exact Nat.log_mono_right h

theorem nearestNat_mono : Monotone nearestNat := by
  intro m n h
  rcases (excess_mono h).lt_or_eq with hlt | heq
  · -- a power of two stands between the two
    calc nearestNat m ≤ 2 ^ 53 * 2 ^ excess m := Nat.mul_le_mul_right _ (leading_le m)
      _ = 2 ^ 52 * 2 ^ (excess m + 1) := by rw [Nat.pow_succ]; omega
      _ ≤ 2 ^ 52 * 2 ^ excess n := Nat.mul_le_mul_left _ (Nat.pow_le_pow_right (by decide) hlt)
      _ ≤ nearestNat n := Nat.mul_le_mul_right _ (le_leading (by omega))
  · unfold nearestNat leading
    rw [heq]
    exact Nat.mul_le_mul_right _ (halfEven_mono _ h)

@[simp]
theorem nearest_natCast (n : Nat) : nearest n = nearestNat n := by
  rcases Nat.eq_zero_or_pos n with rfl | hn
  · rfl
  · simp [nearest, Int.sign_natCast_of_ne_zero hn.ne']

@[simp]
theorem nearest_neg (z : Int) : nearest (-z) = -nearest z := by
  simp [nearest]

theorem nearest_mono : Monotone nearest := by
  have nonneg : ∀ n : Nat, (0 : Int) ≤ nearest n := by simp
  intro x y h
  obtain ⟨m, rfl | rfl⟩ := x.eq_nat_or_neg <;> obtain ⟨n, rfl | rfl⟩ := y.eq_nat_or_neg
  · simpa using nearestNat_mono (by omega)
  · obtain ⟨rfl, rfl⟩ : m = 0 ∧ n = 0 := by omega
    rfl
  · have hm := nonneg m
    have hn := nonneg n
    rw [nearest_neg]
    omega
  · simpa using nearestNat_mono (by omega)

example : nearest 9007199254740993 = 9007199254740992 := by decide +kernel

end Quotation.Binary64

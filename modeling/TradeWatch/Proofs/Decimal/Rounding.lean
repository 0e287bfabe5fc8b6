/-
Rounding to a double depends on the value alone: two ratios of one value have the same nearest
double, whether they are decimals or dyadic numbers. Every finite double is its own nearest one, and
the exponents that are settled without forming a power are settled rightly.
-/
import Mathlib.Tactic
import Mathlib.Data.Int.Log
import TradeWatch.Decimal.Binary64

namespace TradeWatch.Decimal

/-! ## Rounding a quotient -/

theorem roundDiv_mul_right (num den : ℕ) {c : ℕ} (hc : 0 < c) :
    roundDiv (num * c) (den * c) = roundDiv num den := by
  unfold roundDiv
  rw [Nat.mul_div_mul_right _ _ hc, Nat.mul_mod_mul_right]
  have h1 : 2 * (num % den * c) < den * c ↔ 2 * (num % den) < den := by
    rw [← mul_assoc, Nat.mul_lt_mul_right hc]
  have h2 : den * c < 2 * (num % den * c) ↔ den < 2 * (num % den) := by
    rw [← mul_assoc, Nat.mul_lt_mul_right hc]
  simp only [h1, h2]

theorem roundDiv_congr {n₁ d₁ n₂ d₂ : ℕ} (h₁ : 0 < d₁) (h₂ : 0 < d₂) (h : n₁ * d₂ = n₂ * d₁) :
    roundDiv n₁ d₁ = roundDiv n₂ d₂ := by
  rw [← roundDiv_mul_right n₁ d₁ h₂, ← roundDiv_mul_right n₂ d₂ h₁, h, mul_comm d₁]

theorem roundDiv_mul_self (n : ℕ) {c : ℕ} (hc : 0 < c) : roundDiv (n * c) c = n := by
  unfold roundDiv
  rw [Nat.mul_div_cancel _ hc, Nat.mul_mod_left, if_pos (by omega)]

theorem roundDiv_eq_zero {num den : ℕ} (h : 2 * num < den) : roundDiv num den = 0 := by
  unfold roundDiv
  rw [Nat.mod_eq_of_lt (by omega), if_pos h, Nat.div_eq_of_lt (by omega)]

theorem div_le_roundDiv (num den : ℕ) : num / den ≤ roundDiv num den := by
  unfold roundDiv
  simp only
  split_ifs <;> omega

/-! ## Powers with an exponent of either sign -/

theorem pow2_pos (k : ℕ) : 0 < pow2 k :=
  Nat.two_pow_pos k

theorem pow10_pos (k : ℕ) : 0 < pow10 k :=
  Nat.pow_pos (by decide)

theorem pow2_eq (k : ℕ) : pow2 k = 2 ^ k :=
  rfl

theorem pow10_eq (k : ℕ) : pow10 k = 10 ^ k :=
  rfl

theorem cast_pow2 (k : ℕ) : ((pow2 k : ℕ) : ℚ) = 2 ^ k := by
  rw [pow2_eq]
  push_cast
  rfl

theorem cast_pow10 (k : ℕ) : ((pow10 k : ℕ) : ℚ) = 10 ^ k := by
  rw [pow10_eq]
  push_cast
  rfl

/-- A power with any exponent, as the quotient of two powers one of which is 1. -/
theorem zpow_eq_div {b : ℚ} (hb : b ≠ 0) (k : ℤ) : b ^ k = b ^ k.toNat / b ^ (-k).toNat := by
  rw [← zpow_natCast, ← zpow_natCast, ← zpow_sub₀ hb]
  congr 1
  omega

theorem ratio_lt_zpow_iff {num den : ℕ} (hd : 0 < den) (k : ℤ) :
    num * pow2 (-k).toNat < den * pow2 k.toNat ↔ (num : ℚ) / den < 2 ^ k := by
  have hden : (0 : ℚ) < den := by exact_mod_cast hd
  rw [zpow_eq_div (by norm_num) k, div_lt_div_iff₀ hden (by positivity), ← cast_pow2, ← cast_pow2,
    mul_comm den]
  exact_mod_cast Iff.rfl

theorem log_eq {v : ℚ} (hv : 0 < v) {k : ℤ} (h₁ : 2 ^ k ≤ v) (h₂ : v < 2 ^ (k + 1)) :
    Int.log 2 v = k := by
  have h1 := (Int.zpow_le_iff_le_log (b := 2) (by decide) hv).1 (by exact_mod_cast h₁)
  have h2 := (Int.lt_zpow_iff_log_lt (b := 2) (by decide) hv).1 (by exact_mod_cast h₂)
  omega

/-- The quotient of two numbers lies within a factor of two of the quotient of the greatest powers
of two in them. -/
theorem ratio_bounds {num den : ℕ} (hn : 0 < num) (hd : 0 < den) :
    2 ^ ((num.log2 : ℤ) - den.log2 - 1) < (num : ℚ) / den ∧
      (num : ℚ) / den < 2 ^ ((num.log2 : ℤ) - den.log2 + 1) := by
  have hnq : (0 : ℚ) < num := by exact_mod_cast hn
  have hdq : (0 : ℚ) < den := by exact_mod_cast hd
  -- each number lies between the greatest power of two in it and the next one
  have n1 : (2 : ℚ) ^ (num.log2 : ℤ) ≤ num := by
    rw [zpow_natCast]; exact_mod_cast Nat.log2_self_le hn.ne'
  have n2 : (num : ℚ) < 2 ^ ((num.log2 : ℤ) + 1) := by
    have := Nat.lt_log2_self (n := num)
    rw [← Nat.cast_succ, zpow_natCast]; exact_mod_cast this
  have d1 : (2 : ℚ) ^ (den.log2 : ℤ) ≤ den := by
    rw [zpow_natCast]; exact_mod_cast Nat.log2_self_le hd.ne'
  have d2 : (den : ℚ) < 2 ^ ((den.log2 : ℤ) + 1) := by
    have := Nat.lt_log2_self (n := den)
    rw [← Nat.cast_succ, zpow_natCast]; exact_mod_cast this
  constructor
  · rw [lt_div_iff₀ hdq]
    calc (2 : ℚ) ^ ((num.log2 : ℤ) - den.log2 - 1) * den
        < 2 ^ ((num.log2 : ℤ) - den.log2 - 1) * 2 ^ ((den.log2 : ℤ) + 1) := by gcongr
      _ = 2 ^ (num.log2 : ℤ) := by rw [← zpow_add₀ (by norm_num)]; congr 1; ring
      _ ≤ num := n1
  · rw [div_lt_iff₀ hdq]
    calc (num : ℚ) < 2 ^ ((num.log2 : ℤ) + 1) := n2
      _ = 2 ^ ((num.log2 : ℤ) - den.log2 + 1) * 2 ^ (den.log2 : ℤ) := by
        rw [← zpow_add₀ (by norm_num)]; congr 1; ring
      _ ≤ 2 ^ ((num.log2 : ℤ) - den.log2 + 1) * den := by gcongr

/-- The exponent found by comparing the lengths of two numbers is the exact logarithm of their
quotient. -/
theorem binaryExponent_eq {num den : ℕ} (hn : 0 < num) (hd : 0 < den) :
    binaryExponent num den = Int.log 2 ((num : ℚ) / den) := by
  have hv : (0 : ℚ) < (num : ℚ) / den := by positivity
  obtain ⟨h1, h2⟩ := ratio_bounds hn hd
  unfold binaryExponent
  simp only
  split
  · rename_i h
    rw [ratio_lt_zpow_iff hd] at h
    exact (log_eq hv h1.le (by simpa using h)).symm
  · rename_i h
    rw [ratio_lt_zpow_iff hd, not_lt] at h
    exact (log_eq hv h h2).symm

/-! ## The nearest double of a value -/

theorem nearestBits_congr {n₁ d₁ n₂ d₂ : ℕ} (h₁ : 0 < d₁) (h₂ : 0 < d₂)
    (h : (n₁ : ℚ) / d₁ = (n₂ : ℚ) / d₂) : nearestBits n₁ d₁ = nearestBits n₂ d₂ := by
  have hx : n₁ * d₂ = n₂ * d₁ := by
    have := (div_eq_div_iff (by exact_mod_cast h₁.ne') (by exact_mod_cast h₂.ne')).1 h
    exact_mod_cast this
  unfold nearestBits
  by_cases hz : n₁ = 0
  · have : n₂ = 0 := by
      subst hz
      rw [zero_mul, eq_comm, Nat.mul_eq_zero] at hx
      omega
    rw [if_pos hz, if_pos this]
  · have hz₂ : n₂ ≠ 0 := by
      rintro rfl
      rw [zero_mul, Nat.mul_eq_zero] at hx
      omega
    rw [if_neg hz, if_neg hz₂, binaryExponent_eq (by omega) h₁, binaryExponent_eq (by omega) h₂, h]
    simp only
    congr 2
    refine roundDiv_congr (Nat.mul_pos h₁ (pow2_pos _)) (Nat.mul_pos h₂ (pow2_pos _)) ?_
    rw [mul_mul_mul_comm, hx, mul_mul_mul_comm]

/-- Values from `2 ^ 1024` on are infinite. -/
theorem nearestBits_of_ge {num den : ℕ} (hn : 0 < num) (hd : 0 < den)
    (h : (2 : ℚ) ^ (1024 : ℤ) ≤ (num : ℚ) / den) : nearestBits num den = infinityBits := by
  have hv : (0 : ℚ) < (num : ℚ) / den := by positivity
  have hlog : 1024 ≤ Int.log 2 ((num : ℚ) / den) :=
    (Int.zpow_le_iff_le_log (b := 2) (by decide) hv).1 (by exact_mod_cast h)
  have hlow := Int.zpow_log_le_self (b := 2) (by decide) hv
  unfold nearestBits
  rw [if_neg (by omega), binaryExponent_eq hn hd]
  simp only
  generalize Int.log 2 ((num : ℚ) / den) = k at hlog hlow ⊢
  rw [max_eq_left (by omega)]
  refine min_eq_right ?_
  -- the quotient in units of the last place has 53 bits
  have hm : implicitBit ≤ roundDiv (num * pow2 (-(k - 52)).toNat) (den * pow2 (k - 52).toNat) := by
    refine le_trans ?_ (div_le_roundDiv _ _)
    rw [Nat.le_div_iff_mul_le (Nat.mul_pos hd (pow2_pos _))]
    have hk : ¬ (num : ℚ) / den < 2 ^ k := not_lt.2 (by exact_mod_cast hlow)
    rw [← ratio_lt_zpow_iff hd, not_lt] at hk
    have e1 : (-(k - 52)).toNat = 0 := by omega
    have e2 : (-k).toNat = 0 := by omega
    have e3 : k.toNat = 52 + (k - 52).toNat := by omega
    rw [e2, e3, pow2_eq, pow2_eq, pow_add] at hk
    rw [e1]
    calc implicitBit * (den * pow2 (k - 52).toNat)
        = den * (2 ^ 52 * 2 ^ (k - 52).toNat) := by
          rw [implicitBit, pow2_eq, pow2_eq]; ring
      _ ≤ num * pow2 0 := hk
  have hq : 2046 ≤ (k - 52 + 1074).toNat := by omega
  calc infinityBits = 2046 * implicitBit + implicitBit := by unfold infinityBits; ring
    _ ≤ (k - 52 + 1074).toNat * implicitBit + _ := Nat.add_le_add (Nat.mul_le_mul_right _ hq) hm

/-- Values below `2 ^ -1075` are zero. -/
theorem nearestBits_of_lt {num den : ℕ} (hd : 0 < den)
    (h : (num : ℚ) / den < (2 : ℚ) ^ (-1075 : ℤ)) : nearestBits num den = 0 := by
  unfold nearestBits
  split
  · rfl
  rename_i hz
  have hn : 0 < num := by omega
  have hv : (0 : ℚ) < (num : ℚ) / den := by positivity
  have hlog : Int.log 2 ((num : ℚ) / den) < -1075 :=
    (Int.lt_zpow_iff_log_lt (b := 2) (by decide) hv).1 (by exact_mod_cast h)
  rw [binaryExponent_eq hn hd]
  simp only
  rw [max_eq_right (by omega)]
  rw [← ratio_lt_zpow_iff hd] at h
  -- the quotient is less than half of the least double
  have hm : roundDiv (num * pow2 (-(-1074 : ℤ)).toNat) (den * pow2 (-1074 : ℤ).toNat) = 0 := by
    refine roundDiv_eq_zero ?_
    have e1 : (-(-1075 : ℤ)).toNat = (-(-1074 : ℤ)).toNat + 1 := by omega
    have e2 : (-1075 : ℤ).toNat = (-1074 : ℤ).toNat := by omega
    rw [e1, e2, pow2_eq, pow_succ] at h
    calc 2 * (num * pow2 (-(-1074 : ℤ)).toNat) = num * (2 ^ (-(-1074 : ℤ)).toNat * 2) := by
          rw [pow2_eq]; ring
      _ < _ := h
  rw [hm]
  rfl

/-! ## Dyadic numbers -/

namespace Dyadic

theorem denominator_pos (d : Dyadic) : 0 < d.denominator :=
  pow2_pos _

def value (d : Dyadic) : ℚ :=
  d.mantissa * 2 ^ d.exponent

theorem ratio_eq_value (d : Dyadic) : (d.numerator : ℚ) / d.denominator = d.value := by
  unfold numerator denominator value
  rw [zpow_eq_div (by norm_num) d.exponent]
  push_cast
  rw [cast_pow2, cast_pow2, mul_div_assoc]

end Dyadic

/-- The parts of a magnitude: at most 53 bits, of which the first is set unless the exponent is the
least; and the bits as the exponent and the mantissa give them. -/
theorem dyadicOfBits_parts (bits : ℕ) :
    (dyadicOfBits bits).mantissa < 2 ^ 53 ∧ -1074 ≤ (dyadicOfBits bits).exponent ∧
      ((dyadicOfBits bits).exponent = -1074 ∨ 2 ^ 52 ≤ (dyadicOfBits bits).mantissa) ∧
      bits = ((dyadicOfBits bits).exponent + 1074).toNat * implicitBit +
        (dyadicOfBits bits).mantissa := by
  have hi : implicitBit = 2 ^ 52 := rfl
  unfold dyadicOfBits
  simp only [hi]
  split
  · refine ⟨?_, le_refl _, .inl rfl, ?_⟩ <;> simp only
    · omega
    · rw [show (-1074 + 1074 : ℤ).toNat = 0 from rfl]
      omega
  · refine ⟨?_, ?_, .inr ?_, ?_⟩ <;> simp only <;> omega

/-- A magnitude already has the exponent at which its value is rounded. -/
theorem max_log_dyadicOfBits {bits : ℕ} (h : (dyadicOfBits bits).mantissa ≠ 0) :
    max (Int.log 2 (dyadicOfBits bits).value - 52) (-1074) = (dyadicOfBits bits).exponent := by
  obtain ⟨hm, he, hcase, -⟩ := dyadicOfBits_parts bits
  unfold Dyadic.value
  generalize (dyadicOfBits bits).mantissa = m at *
  generalize (dyadicOfBits bits).exponent = e at *
  have hpos : (0 : ℚ) < 2 ^ e := zpow_pos (by norm_num) e
  have hmq : (0 : ℚ) < m := by exact_mod_cast Nat.pos_of_ne_zero h
  have hv : (0 : ℚ) < m * 2 ^ e := by positivity
  have h53 : (m : ℚ) * 2 ^ e < 2 ^ (e + 52 + 1) := by
    rw [show e + 52 + 1 = ((53 : ℕ) : ℤ) + e by push_cast; ring, zpow_add₀ (by norm_num),
      zpow_natCast]
    gcongr
    exact_mod_cast hm
  -- with all 53 bits the logarithm gives the exponent back, with fewer the least one is taken
  by_cases hlow : 2 ^ 52 ≤ m
  · have h52 : (2 : ℚ) ^ (e + 52) ≤ m * 2 ^ e := by
      rw [show e + 52 = ((52 : ℕ) : ℤ) + e by push_cast; ring, zpow_add₀ (by norm_num),
        zpow_natCast]
      gcongr
      exact_mod_cast hlow
    rw [log_eq hv h52 h53]
    omega
  · have hlog := (Int.lt_zpow_iff_log_lt (b := 2) (by decide) hv).1 (by exact_mod_cast h53)
    have he' : e = -1074 := hcase.resolve_right hlow
    omega

/-- Every finite double is the one nearest to its value. -/
theorem nearestBits_dyadicOfBits {bits : ℕ} (h : bits < infinityBits) :
    nearestBits (dyadicOfBits bits).numerator (dyadicOfBits bits).denominator = bits := by
  obtain ⟨-, -, hcase, hbits⟩ := dyadicOfBits_parts bits
  by_cases hm : (dyadicOfBits bits).mantissa = 0
  · have hz : (dyadicOfBits bits).numerator = 0 := by rw [Dyadic.numerator, hm, Nat.zero_mul]
    have he : (dyadicOfBits bits).exponent = -1074 := hcase.resolve_right (by omega)
    rw [hm, he] at hbits
    rw [nearestBits, if_pos hz]
    exact hbits.symm
  · have hnum : 0 < (dyadicOfBits bits).numerator :=
      Nat.mul_pos (Nat.pos_of_ne_zero hm) (pow2_pos _)
    unfold nearestBits
    rw [if_neg (by omega), binaryExponent_eq hnum (Dyadic.denominator_pos _), Dyadic.ratio_eq_value,
      max_log_dyadicOfBits hm]
    simp only
    -- in units of its own exponent the value is the mantissa
    have hround : roundDiv ((dyadicOfBits bits).numerator * pow2 (-(dyadicOfBits bits).exponent).toNat)
        ((dyadicOfBits bits).denominator * pow2 (dyadicOfBits bits).exponent.toNat) =
          (dyadicOfBits bits).mantissa := by
      unfold Dyadic.numerator Dyadic.denominator
      rw [mul_assoc, mul_comm (pow2 (-(dyadicOfBits bits).exponent).toNat)]
      exact roundDiv_mul_self _ (Nat.mul_pos (pow2_pos _) (pow2_pos _))
    rw [hround, ← hbits]
    exact min_eq_left h.le

/-! ## Decimals -/

theorem two_pow_1024_le : 2 ^ 1024 ≤ 10 ^ 310 := by decide +kernel
theorem two_pow_1075_lt : 2 ^ 1075 < 10 ^ 330 := by decide +kernel

namespace Scientific

theorem denominator_pos (d : Scientific) : 0 < d.denominator :=
  pow10_pos _

def value (d : Scientific) : ℚ :=
  d.digits * 10 ^ d.exponent

theorem ratio_eq_value (d : Scientific) : (d.numerator : ℚ) / d.denominator = d.value := by
  unfold numerator denominator value
  rw [zpow_eq_div (by norm_num) d.exponent]
  push_cast
  rw [cast_pow10, cast_pow10, mul_div_assoc]

theorem huge_of_exponent {d : Scientific} (hd : d.digits ≠ 0) (h : 310 < d.exponent) :
    (2 : ℚ) ^ (1024 : ℤ) ≤ d.value := by
  have hone : (1 : ℚ) ≤ d.digits := by exact_mod_cast Nat.pos_of_ne_zero hd
  calc (2 : ℚ) ^ (1024 : ℤ) = ((2 ^ 1024 : ℕ) : ℚ) := by
        rw [show (1024 : ℤ) = ((1024 : ℕ) : ℤ) from rfl, zpow_natCast, Nat.cast_pow]; rfl
    _ ≤ ((10 ^ 310 : ℕ) : ℚ) := by exact_mod_cast two_pow_1024_le
    _ = (10 : ℚ) ^ (310 : ℤ) := by
        rw [show (310 : ℤ) = ((310 : ℕ) : ℤ) from rfl, zpow_natCast, Nat.cast_pow]; rfl
    _ ≤ 10 ^ d.exponent := zpow_le_zpow_right₀ (by norm_num) h.le
    _ = 1 * 10 ^ d.exponent := (one_mul _).symm
    _ ≤ d.value := by unfold value; gcongr

theorem tiny_of_exponent {d : Scientific} (h : d.exponent + d.digits.log2 < -330) :
    d.value < (2 : ℚ) ^ (-1075 : ℤ) := by
  have hlog : (d.digits : ℚ) < 2 ^ ((d.digits.log2 : ℤ) + 1) := by
    have := Nat.lt_log2_self (n := d.digits)
    rw [← Nat.cast_succ, zpow_natCast]; exact_mod_cast this
  calc d.value < 2 ^ ((d.digits.log2 : ℤ) + 1) * 10 ^ d.exponent := by
        unfold value; gcongr
    _ ≤ 10 ^ ((d.digits.log2 : ℤ) + 1) * 10 ^ d.exponent := by
        refine mul_le_mul_of_nonneg_right ?_ (by positivity)
        exact zpow_le_zpow_left₀ (by omega) (by norm_num) (by norm_num)
    _ = 10 ^ ((d.digits.log2 : ℤ) + 1 + d.exponent) := (zpow_add₀ (by norm_num) _ _).symm
    _ ≤ (10 : ℚ) ^ (-(330 : ℕ) : ℤ) := zpow_le_zpow_right₀ (by norm_num) (by omega)
    _ = ((10 ^ 330 : ℕ) : ℚ)⁻¹ := by rw [zpow_neg, zpow_natCast, Nat.cast_pow]; rfl
    _ < ((2 ^ 1075 : ℕ) : ℚ)⁻¹ := by
        refine inv_strictAnti₀ (by positivity) ?_
        exact_mod_cast two_pow_1075_lt
    _ = (2 : ℚ) ^ (-1075 : ℤ) := by
        rw [show (-1075 : ℤ) = -((1075 : ℕ) : ℤ) from rfl, zpow_neg, zpow_natCast, Nat.cast_pow]; rfl

/-- The exponents settled without a power get the nearest double all the same. -/
theorem nearestBits_eq (d : Scientific) :
    d.nearestBits = Decimal.nearestBits d.numerator d.denominator := by
  unfold nearestBits
  split_ifs with hz hhuge htiny
  · rw [Decimal.nearestBits, numerator, hz, Nat.zero_mul, if_pos rfl]
  · have hpos : 0 < d.numerator := Nat.mul_pos (Nat.pos_of_ne_zero hz) (pow10_pos _)
    refine (nearestBits_of_ge hpos d.denominator_pos ?_).symm
    rw [ratio_eq_value]
    exact huge_of_exponent hz hhuge
  · refine (nearestBits_of_lt d.denominator_pos ?_).symm
    rw [ratio_eq_value]
    exact tiny_of_exponent htiny
  · rfl

/-- The nearest double of a decimal depends on its value alone. -/
theorem nearestBits_congr {d e : Scientific} (h : d.value = e.value) :
    d.nearestBits = e.nearestBits := by
  rw [nearestBits_eq, nearestBits_eq]
  refine Decimal.nearestBits_congr d.denominator_pos e.denominator_pos ?_
  rw [ratio_eq_value, ratio_eq_value, h]

end Scientific

end TradeWatch.Decimal

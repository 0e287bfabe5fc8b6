/-
The shortest decimal of a double reads back as the double: the search accepts nothing else, and the
exact decimal stands behind it. Moving zeros into the exponent changes no value.
-/
import TradeWatch.Decimal.Shortest
import TradeWatch.Proofs.Decimal.Rounding

namespace TradeWatch.Decimal

theorem value_exactDecimal (d : Dyadic) : (exactDecimal d).value = d.value := by
  -- a negative power of two becomes one of ten with as many fives in the digits
  have hten : (10 : ℚ) ^ min d.exponent 0 = 1 / (5 ^ (-d.exponent).toNat * 2 ^ (-d.exponent).toNat) := by
    rw [show min d.exponent 0 = -((-d.exponent).toNat : ℤ) by omega, zpow_neg, zpow_natCast,
      ← mul_pow, one_div]
    norm_num
  have hfive : ((pow5 (-d.exponent).toNat : ℕ) : ℚ) = 5 ^ (-d.exponent).toNat := by
    rw [show pow5 (-d.exponent).toNat = 5 ^ (-d.exponent).toNat from rfl]
    push_cast
    rfl
  rw [← d.ratio_eq_value]
  unfold exactDecimal Scientific.value Dyadic.denominator
  push_cast
  rw [hten, hfive, cast_pow2]
  field_simp

theorem value_withoutTrailingZeros (fuel : ℕ) (d : Scientific) :
    (withoutTrailingZeros fuel d).value = d.value := by
  induction fuel generalizing d with
  | zero => rfl
  | succ fuel ih =>
    unfold withoutTrailingZeros
    split
    · rename_i h
      rw [ih]
      unfold Scientific.value
      have hdigits : (d.digits : ℚ) = (d.digits / 10 : ℕ) * 10 := by
        exact_mod_cast (Nat.div_mul_cancel (Nat.dvd_of_mod_eq_zero h.2)).symm
      simp only
      rw [zpow_add₀ (by norm_num), zpow_one, hdigits]
      ring
    · rfl

/-- The exact decimal of a double reads back. -/
theorem nearestBits_exactDecimal {bits : ℕ} (h : bits < infinityBits) :
    (exactDecimal (dyadicOfBits bits)).nearestBits = bits := by
  rw [Scientific.nearestBits_eq]
  refine Eq.trans (nearestBits_congr (Scientific.denominator_pos _) (Dyadic.denominator_pos _) ?_)
    (nearestBits_dyadicOfBits h)
  rw [Scientific.ratio_eq_value, Dyadic.ratio_eq_value, value_exactDecimal]

/-- The shortest decimal of a double reads back. -/
theorem nearestBits_shortest {bits : ℕ} (h : bits < infinityBits) :
    (shortest bits).nearestBits = bits := by
  unfold shortest
  simp only
  split
  · rename_i hm
    have hz := nearestBits_exactDecimal h
    have hd : (exactDecimal (dyadicOfBits bits)).digits = 0 := by
      simp [exactDecimal, Dyadic.numerator, hm]
    rw [Scientific.nearestBits, if_pos hd] at hz
    exact hz
  · rw [Scientific.nearestBits_congr (value_withoutTrailingZeros _ _)]
    generalize List.flatMap _ _ = candidates
    -- whatever the search finds was read back before
    cases hf : candidates.find? (readsBack bits) with
    | none => exact nearestBits_exactDecimal h
    | some d =>
      have hd : readsBack bits d = true := List.find?_some hf
      exact beq_iff_eq.1 hd

end TradeWatch.Decimal

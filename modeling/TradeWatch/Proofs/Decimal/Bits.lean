/-
Doubles and their bits. The sign of a double and its remaining bits make it up again, and it is
finite just when these lie below those of infinity.
-/
import Mathlib
import TradeWatch.Decimal.Binary64

namespace TradeWatch.Decimal

open Float.Model hiding pack unpack
open Float.Model.UnpackedFloat

/-! ## Sign and magnitude -/

theorem toBits_eq (x : Float) :
    x.toBits.toNat = (if isNegative x then signedEnd else 0) + magnitudeBits x := by
  have h := x.toBits.toNat_lt
  unfold isNegative magnitudeBits signedEnd
  split <;> rename_i hs <;> rw [beq_iff_eq] at hs <;> omega

/-- The sign and the magnitude of a double make it up again. -/
theorem ofMagnitudeBits_magnitudeBits (x : Float) :
    ofMagnitudeBits (isNegative x) (magnitudeBits x) = x := by
  have h := toBits_eq x
  unfold ofMagnitudeBits
  rw [← Float.ofBits_toBits x]
  refine congrArg Float.ofBits (UInt64.toNat_inj.1 ?_)
  rw [UInt64.toNat_ofNat', Float.ofBits_toBits]
  have := x.toBits.toNat_lt
  split <;> rename_i hs <;> simp only [hs, if_true, Bool.false_eq_true, if_false] at h <;> omega

/-! ## Finite doubles -/

theorem toNat_unpackExponent (b : BitVec Format.binary64.numBits) :
    (unpackExponent b).toNat = b.toNat / 2 ^ 52 % 2 ^ 11 := by
  simp [unpackExponent, BitVec.extractLsb_toNat, Nat.shiftRight_eq_div_pow]

theorem isFinite_unpack_iff (b : BitVec Format.binary64.numBits) :
    (unpack Format.binary64 b).isFinite = true ↔ (unpackExponent b).toNat ≠ 2047 := by
  have hone : unpackExponent b = -1#11 ↔ (unpackExponent b).toNat = 2047 :=
    ⟨fun h => by rw [h]; rfl, fun h => BitVec.eq_of_toNat_eq h⟩
  -- the exponent of an infinity and of what is no number is all ones
  unfold unpack
  simp only [hone]
  split_ifs with hinf <;> simp [UnpackedFloat.isFinite, hinf]

theorem isFinite_iff (x : Float) : x.isFinite = true ↔ magnitudeBits x < infinityBits := by
  refine (isFinite_unpack_iff x.toBits.toBitVec).trans ?_
  rw [toNat_unpackExponent]
  have h := x.toBits.toNat_lt
  have hn : x.toBits.toBitVec.toNat = x.toBits.toNat := rfl
  have hp : pow2 52 = 2 ^ 52 := rfl
  unfold magnitudeBits infinityBits implicitBit signedEnd
  omega

theorem isNaN_of_isFinite {x : Float} (h : x.isFinite = true) : x.isNaN = false := by
  unfold Float.isFinite Float.Model.isFinite UnpackedFloat.isFinite at h
  unfold Float.isNaN Float.Model.isNaN UnpackedFloat.isNaN
  split at h <;> simp_all

theorem isInf_of_isFinite {x : Float} (h : x.isFinite = true) : x.isInf = false := by
  unfold Float.isFinite Float.Model.isFinite UnpackedFloat.isFinite at h
  unfold Float.isInf Float.Model.isInf UnpackedFloat.isInf
  split at h <;> simp_all

end TradeWatch.Decimal

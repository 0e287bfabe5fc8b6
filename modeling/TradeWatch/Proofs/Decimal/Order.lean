/-
The order of doubles. Doubles that are numbers stand in a linear order, in which the two zeros share
a place; one that is no number is neither below nor above anything, and no sum, difference or
quotient makes a number of it. The double of a count is zero for the count zero alone.
-/
import Mathlib
import TradeWatch.Proofs.Decimal.Rounding

namespace TradeWatch.Decimal

open Float.Model (UnpackedFloat)
open Float.Model.UnpackedFloat (Sign isNaN_iff)

/-! ## Places -/

/-- Where a double stands: by its sign, and among finite ones of a sign by exponent and mantissa. -/
def placeOf : UnpackedFloat → ℤ ×ₗ ℤ ×ₗ ℤ
  | .infinity .negative => toLex (-2, toLex (0, 0))
  | .finite .negative m e _ => toLex (-1, toLex (-e, -m))
  | .notANumber | .zero _ => toLex (0, toLex (0, 0))
  | .finite .positive m e _ => toLex (1, toLex (e, m))
  | .infinity .positive => toLex (2, toLex (0, 0))

def place (x : Float) : ℤ ×ₗ ℤ ×ₗ ℤ :=
  placeOf x.toModel.unpack

theorem compare_eq_lt_iff {a b : UnpackedFloat} :
    a.compare b = some .lt ↔ a.isNaN = false ∧ b.isNaN = false ∧ placeOf a < placeOf b := by
  rcases a with (_ | _) | _ | s | ⟨_ | _, m, e, hm⟩ <;>
    rcases b with (_ | _) | _ | s' | ⟨_ | _, m', e', hm'⟩ <;>
    simp [UnpackedFloat.compare, UnpackedFloat.isNaN, placeOf, Prod.Lex.toLex_lt_toLex,
      Ordering.then_eq_lt, Ordering.then_eq_gt, Ordering.swap_eq_lt, Int.compare_eq_lt,
      Int.compare_eq_gt, Nat.compare_eq_lt, Nat.compare_eq_gt]
  rfl

theorem lt_iff {x y : Float} :
    x < y ↔ x.isNaN = false ∧ y.isNaN = false ∧ place x < place y := by
  refine Iff.trans ?_ (compare_eq_lt_iff (a := x.toModel.unpack) (b := y.toModel.unpack))
  change decide (x.toModel.unpack.lt y.toModel.unpack = true) = true ↔ _
  rw [decide_eq_true_iff, UnpackedFloat.lt, beq_iff_eq]

theorem not_lt_of_lt {x y : Float} (h : x < y) : ¬ y < x := by
  intro hback
  exact lt_asymm (lt_iff.1 h).2.2 (lt_iff.1 hback).2.2

/-- Between numbers the order is total. -/
theorem place_le_of_not_lt {x y : Float} (hx : x.isNaN = false) (hy : y.isNaN = false)
    (h : ¬ y < x) : place x ≤ place y :=
  not_lt.1 fun hplace => h (lt_iff.2 ⟨hy, hx, hplace⟩)

theorem lt_of_not_lt_of_lt {x y z : Float} (hx : x.isNaN = false) (hxy : ¬ y < x) (hyz : y < z) :
    x < z := by
  obtain ⟨hy, hz, hplace⟩ := lt_iff.1 hyz
  exact lt_iff.2 ⟨hx, hz, lt_of_le_of_lt (place_le_of_not_lt hx hy hxy) hplace⟩

theorem lt_of_lt_of_not_lt {x y z : Float} (hz : z.isNaN = false) (hxy : x < y) (hyz : ¬ z < y) :
    x < z := by
  obtain ⟨hx, hy, hplace⟩ := lt_iff.1 hxy
  exact lt_iff.2 ⟨hx, hz, lt_of_lt_of_le hplace (place_le_of_not_lt hy hz hyz)⟩

theorem isGE_then_iff {o p : Ordering} :
    (o.then p).isGE = true ↔ o = .gt ∨ o = .eq ∧ p.isGE = true := by
  cases o <;> simp

theorem le_eq_true_iff {a b : UnpackedFloat} :
    a.le b = true ↔ a.isNaN = false ∧ b.isNaN = false ∧ placeOf a ≤ placeOf b := by
  rcases a with (_ | _) | _ | s | ⟨_ | _, m, e, hm⟩ <;>
    rcases b with (_ | _) | _ | s' | ⟨_ | _, m', e', hm'⟩ <;>
    simp [UnpackedFloat.le, UnpackedFloat.compare, UnpackedFloat.isNaN, placeOf,
      Prod.Lex.toLex_le_toLex, Ordering.isLE_then_iff_or, isGE_then_iff,
      Int.compare_eq_lt, Int.compare_eq_gt, Nat.isLE_compare, Nat.isGE_compare]
  all_goals decide

theorem le_iff {x y : Float} :
    x ≤ y ↔ x.isNaN = false ∧ y.isNaN = false ∧ place x ≤ place y := by
  refine Iff.trans ?_ (le_eq_true_iff (a := x.toModel.unpack) (b := y.toModel.unpack))
  exact decide_eq_true_iff

theorem lt_of_lt_of_le {x y z : Float} (hxy : x < y) (hyz : y ≤ z) : x < z := by
  obtain ⟨hx, -, hlt⟩ := lt_iff.1 hxy
  obtain ⟨-, hz, hle⟩ := le_iff.1 hyz
  exact lt_iff.2 ⟨hx, hz, hlt.trans_le hle⟩

/-- Two numbers that are not in one order are in the other. -/
theorem lt_of_not_le {x y : Float} (hx : x.isNaN = false) (hy : y.isNaN = false)
    (h : ¬ x ≤ y) : y < x := by
  refine lt_iff.2 ⟨hy, hx, not_le.1 fun hplace => ?_⟩
  exact h (le_iff.2 ⟨hx, hy, hplace⟩)

theorem le_of_not_lt {x y : Float} (hx : x.isNaN = false) (hy : y.isNaN = false)
    (h : ¬ y < x) : x ≤ y :=
  le_iff.2 ⟨hx, hy, place_le_of_not_lt hx hy h⟩

theorem beq_eq_false_of_lt {x y : Float} (h : x < y) : (x == y) = false := by
  have hlt : x.toModel.unpack.compare y.toModel.unpack = some .lt :=
    compare_eq_lt_iff.2 (lt_iff.1 h)
  change (x.toModel.unpack.compare y.toModel.unpack == some .eq) = false
  rw [hlt]
  rfl

/-- What equals zero is at most zero. -/
theorem beq_zero_eq_false {x : Float} (h : ¬ x ≤ 0.0) : (x == 0.0) = false := by
  rw [Bool.eq_false_iff]
  intro hzero
  obtain ⟨-, -, rfl | ⟨rfl, -⟩ | ⟨rfl, -⟩⟩ := Float.beq_iff_ne_nan_and_eq.1 hzero
  · exact h (by decide +kernel)
  · exact h (by decide +kernel)
  · exact h (by decide +kernel)

/-! ## What is no number -/

/-- Only numbers are compared. -/
theorem isNaN_of_le {x y : Float} (h : x ≤ y) : x.isNaN = false ∧ y.isNaN = false := by
  have hle : x.toModel.unpack.le y.toModel.unpack = true := of_decide_eq_true h
  constructor
  · rw [Bool.eq_false_iff]
    intro hx
    rw [isNaN_iff.1 hx] at hle
    cases hle
  · rw [Bool.eq_false_iff]
    intro hy
    rw [isNaN_iff.1 hy] at hle
    cases hx : x.toModel.unpack <;> rw [hx] at hle <;> cases hle

theorem isNaN_pack_notANumber : (Float.ofModel (.pack .notANumber)).isNaN = true := by
  decide +kernel

theorem isNaN_add_left {x : Float} (h : x.isNaN = true) (y : Float) : (x + y).isNaN = true := by
  change (Float.ofModel (.pack (UnpackedFloat.add _ x.toModel.unpack _))).isNaN = true
  rw [isNaN_iff.1 h]
  exact isNaN_pack_notANumber

theorem isNaN_add_right (x : Float) {y : Float} (h : y.isNaN = true) : (x + y).isNaN = true := by
  change (Float.ofModel (.pack (UnpackedFloat.add _ _ y.toModel.unpack))).isNaN = true
  rw [isNaN_iff.1 h]
  cases x.toModel.unpack <;> exact isNaN_pack_notANumber

theorem isNaN_div_left {x : Float} (h : x.isNaN = true) (y : Float) : (x / y).isNaN = true := by
  change (Float.ofModel (.pack (UnpackedFloat.div _ x.toModel.unpack _))).isNaN = true
  rw [isNaN_iff.1 h]
  exact isNaN_pack_notANumber

theorem isNaN_div_right (x : Float) {y : Float} (h : y.isNaN = true) : (x / y).isNaN = true := by
  change (Float.ofModel (.pack (UnpackedFloat.div _ _ y.toModel.unpack))).isNaN = true
  rw [isNaN_iff.1 h]
  cases x.toModel.unpack <;> exact isNaN_pack_notANumber

theorem isNaN_sub_left {x : Float} (h : x.isNaN = true) (y : Float) : (x - y).isNaN = true := by
  change (Float.ofModel (.pack (UnpackedFloat.sub _ x.toModel.unpack _))).isNaN = true
  rw [isNaN_iff.1 h]
  exact isNaN_pack_notANumber

/-! ## Counts -/

theorem nearestBits_pos {n : ℕ} (h : n ≠ 0) : 0 < nearestBits n 1 := by
  have hbinade : -1 ≤ binaryExponent n 1 := by
    unfold binaryExponent
    simp only [show Nat.log2 1 = 0 from rfl]
    split <;> omega
  unfold nearestBits
  rw [if_neg h]
  refine lt_min (Nat.add_pos_left (Nat.mul_pos ?_ (pow2_pos 52)) _) (by decide)
  omega

theorem nearestBits_le (num den : ℕ) : nearestBits num den ≤ infinityBits := by
  unfold nearestBits
  split
  · exact Nat.zero_le _
  · exact min_le_right _ _

/-- Bits of either zero are read back from no others. -/
theorem magnitudeBits_ofMagnitudeBits_pos {bits : ℕ} (hpos : 0 < bits) (hle : bits ≤ infinityBits) :
    0 < magnitudeBits (ofMagnitudeBits false bits) := by
  have hinf : infinityBits < signedEnd := by decide
  have hsize : signedEnd < UInt64.size := by decide
  have hread : (ofMagnitudeBits false bits).toBits.toBitVec =
      (UnpackedFloat.unpack .binary64 (UInt64.ofNat bits).toBitVec).pack .binary64 := rfl
  have hnan : (UnpackedFloat.packedNaN .binary64).toNat % signedEnd ≠ 0 := by decide +kernel
  rw [UnpackedFloat.pack_unpack] at hread
  unfold magnitudeBits
  rw [← UInt64.toNat_toBitVec, hread]
  split
  · exact Nat.pos_of_ne_zero hnan
  · rw [UInt64.toNat_toBitVec, UInt64.toNat_ofNat_of_lt' (by omega), Nat.mod_eq_of_lt (by omega)]
    exact hpos

/-- Whoever divides by a count that is not zero does not divide by zero. -/
theorem ofNat_beq_zero {n : ℕ} (h : n ≠ 0) : (ofNat n == 0.0) = false := by
  have hpos : 0 < magnitudeBits (ofNat n) :=
    magnitudeBits_ofMagnitudeBits_pos (nearestBits_pos h) (nearestBits_le n 1)
  rw [Bool.eq_false_iff]
  intro hzero
  obtain ⟨-, -, heq | ⟨heq, -⟩ | ⟨heq, -⟩⟩ := Float.beq_iff_ne_nan_and_eq.1 hzero
  all_goals
    rw [heq] at hpos
    exact absurd hpos (by decide +kernel)

end TradeWatch.Decimal

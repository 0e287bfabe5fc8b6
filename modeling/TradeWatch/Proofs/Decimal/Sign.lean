/-
The signs of differences and quotients. Rounding and packing keep the sign of a result, though a
result may become zero or infinite on the way. So a quotient by a double above zero is above zero
only if what is divided is, and a difference is above zero only if the first double is above the
second.
-/
import Mathlib
import TradeWatch.Proofs.Decimal.Order

namespace TradeWatch.Decimal

open Float.Model hiding pack unpack
open Float.Model.UnpackedFloat

/-! ## Signs -/

/-- The sign of a number; zeros and infinities have one too. -/
def signOf : UnpackedFloat → Option Sign
  | .notANumber => none
  | .infinity s => some s
  | .zero s => some s
  | .finite s _ _ _ => some s

theorem unpackSign_packComponents {spec : Format} {s : Sign} {e : BitVec spec.exponentBits}
    {m : BitVec spec.mantissaBitsWithoutImplicit} :
    unpackSign (packComponents spec s e m) = s.toBitVec := by
  ext i hi
  obtain rfl : i = 0 := by omega
  simp [unpackSign, packComponents, BitVec.getLsbD_append, BitVec.getElem_append]

theorem ofBitVec_toBitVec (s : Sign) : Sign.ofBitVec s.toBitVec = s := by
  cases s <;> rfl

theorem signOf_unpack_packComponents (s : Sign) {e : BitVec Format.binary64.exponentBits}
    (he : e ≠ -1#_) (m : BitVec Format.binary64.mantissaBitsWithoutImplicit) :
    signOf (unpack .binary64 (packComponents .binary64 s e m)) = some s := by
  unfold unpack
  simp only [unpackMantissa_packComponents, unpackExponent_packComponents,
    unpackSign_packComponents, ofBitVec_toBitVec, if_neg he]
  split_ifs <;> rfl

theorem signOf_unpack_packedInfinity (s : Sign) :
    signOf (unpack .binary64 (packedInfinity .binary64 s)) = some s := by
  cases s <;> rfl

/-- A double has the sign of what it was packed from. -/
theorem signOf_unpack_pack (x : UnpackedFloat) :
    signOf (unpack .binary64 (pack .binary64 x)) = signOf x := by
  cases x with
  | notANumber => rfl
  | infinity s => exact signOf_unpack_packedInfinity s
  | zero s => exact signOf_unpack_packComponents s (by decide) _
  | finite s m e hm =>
    unfold pack
    simp only
    split_ifs with hover hnormal
    · exact signOf_unpack_packedInfinity s
    · refine signOf_unpack_packComponents s (fun he => ?_) _
      -- the exponent of an infinity is all ones, and this one is less
      have hones : (-1 : BitVec 11).toNat = 2047 := rfl
      have htoNat := (congrArg BitVec.toNat he).trans hones
      rw [BitVec.toNat_ofNat] at htoNat
      omega
    · exact signOf_unpack_packComponents s (by decide) _

theorem signOf_roundWithAccuracy (s : Sign) (m : ℕ) (e : ℤ) (accuracy : Accuracy) :
    signOf (roundWithAccuracy .binary64 s m e accuracy) = some s := by
  unfold roundWithAccuracy
  simp only
  split <;> rfl

/-- What is above zero has the positive sign and is no zero of either sign. -/
theorem zero_lt_iff {x : Float} :
    0.0 < x ↔ signOf x.toModel.unpack = some .positive ∧ ∀ s, x.toModel.unpack ≠ .zero s := by
  have hzero : (0.0 : Float).isNaN = false ∧ place 0.0 = toLex (0, toLex (0, 0)) := by
    decide +kernel
  have hx : x.isNaN = x.toModel.unpack.isNaN := rfl
  rw [lt_iff, hzero.1, hzero.2, hx]
  unfold place
  rcases x.toModel.unpack with (_ | _) | _ | (_ | _) | ⟨_ | _, m, e, hm⟩ <;>
    simp [signOf, placeOf, UnpackedFloat.isNaN, Prod.Lex.toLex_lt_toLex]

theorem unpack_pack_zero (s : Sign) :
    unpack .binary64 (pack .binary64 (.zero s)) = .zero s := by
  cases s <;> rfl

/-! ## Quotients -/

theorem sign_div_positive (s : Sign) : s / .positive = s := by
  cases s <;> rfl

theorem signOf_div_finite (s t : Sign) {m n : ℕ} (d e : ℤ) (hm : 0 < m) (hn : 0 < n) :
    signOf (UnpackedFloat.div .binary64 (.finite s m d hm) (.finite t n e hn)) = some (s / t) := by
  unfold UnpackedFloat.div
  exact signOf_roundWithAccuracy ..

/-- A quotient by what is above zero is above zero only if what is divided is. -/
theorem zero_lt_of_zero_lt_div {x y : Float} (hy : 0.0 < y) (h : 0.0 < x / y) : 0.0 < x := by
  have hdiv : (x / y).toModel.unpack = unpack .binary64 (pack .binary64
      (UnpackedFloat.div .binary64 x.toModel.unpack y.toModel.unpack)) := rfl
  rw [zero_lt_iff] at h hy ⊢
  rw [hdiv, signOf_unpack_pack] at h
  generalize x.toModel.unpack = a at *
  generalize y.toModel.unpack = b at *
  obtain ⟨hsign, hnonzero⟩ := h
  obtain ⟨hbsign, hbzero⟩ := hy
  cases b with
  | notANumber => cases hbsign
  | zero s => exact absurd rfl (hbzero s)
  | infinity s =>
    -- nothing above zero comes of a division by infinity
    cases a with
    | notANumber => cases hsign
    | infinity t => cases hsign
    | zero t => exact absurd (unpack_pack_zero (t / s)) (hnonzero _)
    | finite t m e hm => exact absurd (unpack_pack_zero (t / s)) (hnonzero _)
  | finite s m e hm =>
    have hdivide : ∀ t : Sign, t / s = t := fun t => by
      rw [show s = .positive from Option.some.inj hbsign, sign_div_positive]
    cases a with
    | notANumber => cases hsign
    | infinity t =>
      have hquotient : signOf (.infinity (t / s)) = some .positive := hsign
      rw [hdivide] at hquotient
      exact ⟨hquotient, by simp⟩
    | zero t => exact absurd (unpack_pack_zero (t / s)) (hnonzero _)
    | finite t m' e' hm' =>
      rw [signOf_div_finite, hdivide] at hsign
      exact ⟨hsign, by simp⟩

/-! ## Differences -/

/-- A finite double has at most 53 bits, and the first is set unless the exponent is the least. -/
theorem bounds_of_unpack {b : BitVec Format.binary64.numBits} {s : Sign} {m : ℕ} {e : ℤ}
    {hm : 0 < m} (h : unpack .binary64 b = .finite s m e hm) :
    m < 2 ^ 53 ∧ -1074 ≤ e ∧ (e = -1074 ∨ 2 ^ 52 ≤ m) := by
  have happend : ∀ v : BitVec 52, (1#1 ++ v).toNat = 2 ^ 52 + v.toNat := fun v => by
    rw [BitVec.toNat_append, ← Nat.shiftLeft_add_eq_or_of_lt v.isLt]
    rfl
  have hmantissa : (unpackMantissa b).toNat < 2 ^ 52 := (unpackMantissa b).isLt
  have hbias : Format.binary64.exponentBias = 1023 := rfl
  have hleast : unpackExponent b ≠ 0#_ → 1 ≤ (unpackExponent b).toNat := fun hne =>
    Nat.one_le_iff_ne_zero.2 fun hzero => hne (BitVec.eq_of_toNat_eq hzero)
  unfold unpack at h
  simp only at h
  split at h
  · split at h <;> cases h
  · split at h
    · rename_i hzero
      have hexponent : (unpackExponent b).toNat = 0 := congrArg BitVec.toNat hzero
      split at h
      · cases h
      · injection h with hs hmantissa he
        omega
    · rename_i hnonzero
      have hexponent := hleast hnonzero
      injection h with hs hmantissa he
      rw [happend] at hmantissa
      omega

/-- Of two such doubles the greater has the greater exponent, or the greater mantissa at the same
exponent. -/
theorem lex_of_lt_shifted {m n : ℕ} {d e : ℤ} (hm : m < 2 ^ 53) (hd : -1074 ≤ d)
    (hn : e = -1074 ∨ 2 ^ 52 ≤ n)
    (h : n * 2 ^ (e - min d e).toNat < m * 2 ^ (d - min d e).toNat) : e < d ∨ e = d ∧ n < m := by
  rcases lt_trichotomy e d with hlt | rfl | hgt
  · exact .inl hlt
  · rw [min_self, Int.sub_self] at h
    exact .inr ⟨rfl, by simpa using h⟩
  · -- with a greater exponent the second one has all its bits, and is the greater
    exfalso
    obtain ⟨k, hk⟩ : ∃ k, (e - min d e).toNat = k + 1 := ⟨(e - d).toNat - 1, by omega⟩
    have hbits : 2 ^ 52 ≤ n := by omega
    have hone : 1 ≤ 2 ^ k := Nat.one_le_two_pow
    rw [hk, show (d - min d e).toNat = 0 by omega, pow_zero, mul_one] at h
    have hshift : 2 ^ 53 ≤ n * 2 ^ (k + 1) :=
      calc 2 ^ 53 = 2 ^ 52 * 2 ^ (0 + 1) := by norm_num
        _ ≤ n * 2 ^ (k + 1) := Nat.mul_le_mul hbits (Nat.pow_le_pow_right (by decide) (by omega))
    omega

theorem signOf_round (s : Sign) (m : ℕ) (e : ℤ) : signOf (round .binary64 s m e) = some s :=
  signOf_roundWithAccuracy ..

/-- What is rounded to something above zero is above zero. -/
theorem pos_of_normalize {n e : ℤ}
    (hsign : signOf (UnpackedFloat.normalize .binary64 n e .positive) = some .positive)
    (hnonzero : UnpackedFloat.normalize .binary64 n e .positive ≠ .zero .positive) : 0 < n := by
  unfold UnpackedFloat.normalize at hsign hnonzero
  cases hn : compare n 0 with
  | lt =>
    rw [hn] at hsign
    cases (signOf_round .negative _ e).symm.trans hsign
  | eq =>
    rw [hn] at hnonzero
    exact absurd rfl hnonzero
  | gt => exact Int.compare_eq_gt.1 hn

/-- Of two finite doubles that differ by something above zero the first one has the higher place. -/
theorem placeOf_lt_of_finite {s t : Sign} {m n : ℕ} {d e : ℤ} {hm : 0 < m} {hn : 0 < n}
    (ha : m < 2 ^ 53 ∧ -1074 ≤ d ∧ (d = -1074 ∨ 2 ^ 52 ≤ m))
    (hb : n < 2 ^ 53 ∧ -1074 ≤ e ∧ (e = -1074 ∨ 2 ^ 52 ≤ n))
    (h : 0 < s.apply (m * 2 ^ (d - min d e).toNat : ℕ) -
      t.apply (n * 2 ^ (e - min d e).toNat : ℕ)) :
    placeOf (.finite t n e hn) < placeOf (.finite s m d hm) := by
  cases s with
  | negative =>
    cases t with
    | negative =>
      have hshift : m * 2 ^ (d - min e d).toNat < n * 2 ^ (e - min e d).toNat := by
        rw [min_comm e d]
        simp only [Sign.apply] at h
        omega
      have hlex := lex_of_lt_shifted hb.1 hb.2.1 ha.2.2 hshift
      simp [placeOf, Prod.Lex.toLex_lt_toLex]
      omega
    | positive =>
      simp only [Sign.apply] at h
      omega
  | positive =>
    cases t with
    | negative => simp [placeOf, Prod.Lex.toLex_lt_toLex]
    | positive =>
      have hshift : n * 2 ^ (e - min d e).toNat < m * 2 ^ (d - min d e).toNat := by
        simp only [Sign.apply] at h
        omega
      have hlex := lex_of_lt_shifted ha.1 ha.2.1 hb.2.2 hshift
      simp [placeOf, Prod.Lex.toLex_lt_toLex]
      omega

/-- Where a difference is above zero, the first double has the higher place. -/
theorem placeOf_lt_of_sub {a b : UnpackedFloat}
    (ha : ∀ {s m e hm}, a = .finite s m e hm → m < 2 ^ 53 ∧ -1074 ≤ e ∧ (e = -1074 ∨ 2 ^ 52 ≤ m))
    (hb : ∀ {s m e hm}, b = .finite s m e hm → m < 2 ^ 53 ∧ -1074 ≤ e ∧ (e = -1074 ∨ 2 ^ 52 ≤ m))
    (hsign : signOf (UnpackedFloat.sub .binary64 a b) = some .positive)
    (hnonzero : ∀ s, UnpackedFloat.sub .binary64 a b ≠ .zero s) :
    b.isNaN = false ∧ a.isNaN = false ∧ placeOf b < placeOf a := by
  have hneg : ∀ {t : Sign}, -t = .positive → t = .negative := fun {t} h => by
    cases t
    · rfl
    · cases h
  cases a with
  | notANumber => cases hsign
  | infinity s =>
    cases b with
    | notANumber => cases hsign
    | infinity t =>
      cases s with
      | negative => cases t <;> cases hsign
      | positive =>
        cases t with
        | negative => exact ⟨rfl, rfl, by decide⟩
        | positive => cases hsign
    | zero t =>
      obtain rfl : s = .positive := Option.some.inj hsign
      exact ⟨rfl, rfl, by simp [placeOf, Prod.Lex.toLex_lt_toLex]⟩
    | finite t n e hn =>
      obtain rfl : s = .positive := Option.some.inj hsign
      exact ⟨rfl, rfl, by cases t <;> simp [placeOf, Prod.Lex.toLex_lt_toLex]⟩
  | zero s =>
    cases b with
    | notANumber => cases hsign
    | infinity t =>
      obtain rfl := hneg (Option.some.inj hsign)
      exact ⟨rfl, rfl, by simp [placeOf, Prod.Lex.toLex_lt_toLex]⟩
    | zero t => cases s <;> cases t <;> exact absurd rfl (hnonzero _)
    | finite t n e hn =>
      obtain rfl := hneg (Option.some.inj hsign)
      exact ⟨rfl, rfl, by simp [placeOf, Prod.Lex.toLex_lt_toLex]⟩
  | finite s m d hm =>
    cases b with
    | notANumber => cases hsign
    | infinity t =>
      obtain rfl := hneg (Option.some.inj hsign)
      exact ⟨rfl, rfl, by cases s <;> simp [placeOf, Prod.Lex.toLex_lt_toLex]⟩
    | zero t =>
      obtain rfl : s = .positive := Option.some.inj hsign
      exact ⟨rfl, rfl, by simp [placeOf, Prod.Lex.toLex_lt_toLex]⟩
    | finite t n e hn =>
      refine ⟨rfl, rfl, placeOf_lt_of_finite (ha rfl) (hb rfl) ?_⟩
      have hpos := pos_of_normalize hsign (hnonzero .positive)
      simpa only [decreaseExponent, Nat.shiftLeft_eq] using hpos

/-- A difference is above zero only if the first double is above the second. -/
theorem lt_of_zero_lt_sub {x y : Float} (h : 0.0 < x - y) : y < x := by
  have hsub : (x - y).toModel.unpack = unpack .binary64 (pack .binary64
      (UnpackedFloat.sub .binary64 x.toModel.unpack y.toModel.unpack)) := rfl
  rw [zero_lt_iff, hsub, signOf_unpack_pack] at h
  refine lt_iff.2 (placeOf_lt_of_sub (b := y.toModel.unpack) (a := x.toModel.unpack)
    bounds_of_unpack bounds_of_unpack h.1 fun s hs => ?_)
  exact h.2 s (by rw [hs, unpack_pack_zero])

end TradeWatch.Decimal

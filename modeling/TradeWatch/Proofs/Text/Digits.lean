/-
Decimal digits and the numbers they stand for. The digits of a number have that number as their
value, zeros in front do not count, and every zero behind is a factor of ten.
-/
import Mathlib.Tactic
import TradeWatch.Text.Padded

namespace TradeWatch.Text

/-! ## The value of digits -/

theorem valueOf_eq (ds : List Char) : valueOf ds = Nat.ofDigitChars 10 ds 0 :=
  rfl

theorem valueOf_append (xs ys : List Char) :
    valueOf (xs ++ ys) = 10 ^ ys.length * valueOf xs + valueOf ys := by
  rw [valueOf_eq, Nat.ofDigitChars_append, Nat.ofDigitChars_eq_ofDigitChars_zero]
  rfl

theorem valueOf_zeros (n : ℕ) : valueOf (List.replicate n '0') = 0 := by
  rw [valueOf_eq, Nat.ofDigitChars_replicate_zero, Nat.mul_zero]

theorem valueOf_zeros_append (n : ℕ) (ds : List Char) :
    valueOf (List.replicate n '0' ++ ds) = valueOf ds := by
  rw [valueOf_append, valueOf_zeros, Nat.mul_zero, Nat.zero_add]

theorem valueOf_append_zeros (ds : List Char) (n : ℕ) :
    valueOf (ds ++ List.replicate n '0') = 10 ^ n * valueOf ds := by
  rw [valueOf_append, valueOf_zeros, List.length_replicate, Nat.add_zero]

theorem valueOf_singleton_lt {c : Char} (h : c.isDigit = true) : valueOf [c] < 10 := by
  rw [Char.isDigit, Bool.and_eq_true, decide_eq_true_eq, decide_eq_true_eq] at h
  have hle : c.toNat ≤ 57 := UInt32.le_iff_toNat_le.1 h.2
  have hvalue : valueOf [c] = c.toNat - 48 := Nat.zero_add _
  omega

/-- So many digits do not reach further. -/
theorem valueOf_lt {ds : List Char} (h : ds.all Char.isDigit = true) :
    valueOf ds < 10 ^ ds.length := by
  induction ds with
  | nil => decide
  | cons c ds ih =>
    rw [List.all_cons, Bool.and_eq_true] at h
    have hc := valueOf_singleton_lt h.1
    have hds := ih h.2
    have hcons : valueOf (c :: ds) = 10 ^ ds.length * valueOf [c] + valueOf ds :=
      valueOf_append [c] ds
    calc valueOf (c :: ds) < 10 ^ ds.length * valueOf [c] + 10 ^ ds.length := by omega
      _ = 10 ^ ds.length * (valueOf [c] + 1) := by ring
      _ ≤ 10 ^ ds.length * 10 := Nat.mul_le_mul_left _ hc
      _ = 10 ^ (c :: ds).length := (pow_succ _ _).symm

/-! ## The digits of a number -/

theorem valueOf_digitsOf (n : ℕ) : valueOf (digitsOf n) = n :=
  Nat.ofDigitChars_ten_toDigits

theorem digitsOf_ne_nil (n : ℕ) : digitsOf n ≠ [] :=
  Nat.toDigits_ne_nil

theorem isDigit_of_mem_digitsOf {n : ℕ} {c : Char} (h : c ∈ digitsOf n) : c.isDigit = true :=
  Nat.isDigit_of_mem_toDigits (by decide) (by decide) h

theorem all_isDigit_digitsOf (n : ℕ) : (digitsOf n).all Char.isDigit = true :=
  List.all_eq_true.2 fun _ => isDigit_of_mem_digitsOf

/-- The digits of a positive number do not start with a zero. -/
theorem head_digitsOf_ne_zero {n : ℕ} (h : n ≠ 0) : (digitsOf n).head? ≠ some '0' := by
  induction n using Nat.strong_induction_on with
  | _ n ih =>
    unfold digitsOf
    rw [Nat.toDigits_eq_if (by decide)]
    split
    · simpa using h
    · -- the first digit of the quotient by ten is the first digit of the whole
      have hlt : n / 10 < n := by omega
      have hne : n / 10 ≠ 0 := by omega
      rw [List.head?_append_of_ne_nil _ Nat.toDigits_ne_nil]
      exact ih _ hlt hne

/-- The first digit and the others. -/
theorem exists_digitsOf_eq_cons {n : ℕ} (h : n ≠ 0) :
    ∃ c cs, digitsOf n = c :: cs ∧ c.isDigit = true ∧ c ≠ '0' := by
  cases hd : digitsOf n with
  | nil => exact absurd hd (digitsOf_ne_nil n)
  | cons c cs =>
    refine ⟨c, cs, rfl, isDigit_of_mem_digitsOf (n := n) (by rw [hd]; exact List.mem_cons_self), ?_⟩
    rintro rfl
    exact head_digitsOf_ne_zero h (by rw [hd]; rfl)

/-! ## Runs of digits -/

/-- The text does not go on with a digit. -/
def EndsDigits (rest : List Char) : Prop :=
  ∀ c cs, rest = c :: cs → c.isDigit = false

theorem endsDigits_cons {c : Char} (cs : List Char) (h : c.isDigit = false) :
    EndsDigits (c :: cs) := by
  intro d ds e
  cases e
  exact h

section Runs

variable {ds rest : List Char} (hd : ds.all Char.isDigit = true) (hr : EndsDigits rest)
include hd hr

theorem takeWhile_isDigit_append : (ds ++ rest).takeWhile Char.isDigit = ds := by
  rw [List.takeWhile_append_of_pos (List.all_eq_true.1 hd)]
  cases rest with
  | nil => simp
  | cons c cs =>
    rw [List.takeWhile_cons_of_neg (by simp [hr c cs rfl]), List.append_nil]

theorem dropWhile_isDigit_append : (ds ++ rest).dropWhile Char.isDigit = rest := by
  rw [List.dropWhile_append_of_pos (List.all_eq_true.1 hd)]
  cases rest with
  | nil => rfl
  | cons c cs => rw [List.dropWhile_cons_of_neg (by simp [hr c cs rfl])]

end Runs

/-! ## A least width -/

theorem toList_zeroPadded (width n : ℕ) :
    (zeroPadded width n).toList =
      List.replicate (width - (digitsOf n).length) '0' ++ digitsOf n := by
  simp [zeroPadded]

theorem length_zeroPadded {width n : ℕ} (hw : 0 < width) (h : n < 10 ^ width) :
    (zeroPadded width n).toList.length = width := by
  have hlen : (digitsOf n).length ≤ width := (Nat.length_toDigits_le_iff (by decide) hw).2 h
  rw [toList_zeroPadded, List.length_append, List.length_replicate]
  omega

theorem valueOf_zeroPadded (width n : ℕ) : valueOf (zeroPadded width n).toList = n := by
  rw [toList_zeroPadded, valueOf_zeros_append, valueOf_digitsOf]

theorem all_isDigit_zeroPadded (width n : ℕ) :
    (zeroPadded width n).toList.all Char.isDigit = true := by
  rw [toList_zeroPadded, List.all_append, all_isDigit_digitsOf, Bool.and_true]
  exact List.all_eq_true.2 fun c hc => by rw [List.eq_of_mem_replicate hc]; rfl

end TradeWatch.Text

/-
The calendar both ways: every day has a real date, and the date has that day.
-/
import Mathlib.Tactic
import TradeWatch.Time.Civil

namespace TradeWatch.Time

/-! ## Years -/

theorem daysBeforeYear_succ (y : ℤ) :
    daysBeforeYear (y + 1) = daysBeforeYear y + (if isLeapYear y then 366 else 365) := by
  unfold daysBeforeYear isLeapYear
  split <;> rename_i h <;> simp at h <;> omega

/-- A day lies in its year. -/
theorem yearOfDay_spec (n : ℤ) :
    daysBeforeYear (yearOfDay n) ≤ n ∧ n < daysBeforeYear (yearOfDay n + 1) := by
  unfold yearOfDay
  -- dividing by the mean length of a year is off by one year at most
  have h1 : n * 400 / 146097 * 146097 ≤ n * 400 := by omega
  have h2 : n * 400 < (n * 400 / 146097 + 1) * 146097 := by omega
  generalize n * 400 / 146097 = e at h1 h2
  have hlow : daysBeforeYear (e - 1) ≤ n := by unfold daysBeforeYear; omega
  have hhigh : n < daysBeforeYear (e + 1 + 1) := by unfold daysBeforeYear; omega
  simp only
  split_ifs with h3 h4
  · rw [Int.sub_add_cancel]
    exact ⟨hlow, h3⟩
  · exact ⟨h4, hhigh⟩
  · exact ⟨by omega, by omega⟩

/-! ## Months -/

theorem sum_monthLengths (y : ℤ) :
    (monthLengths y).sum = if isLeapYear y then 366 else 365 := by
  unfold monthLengths
  split <;> simp

/-- The place of a day among consecutive months. -/
theorem monthAndDay_spec (lengths : List ℕ) (month k : ℕ) (h : k < lengths.sum) :
    ∃ i j, monthAndDay lengths month k = (month + i, j + 1) ∧ i < lengths.length ∧
      j < (lengths[i]?).getD 0 ∧ (lengths.take i).sum + j = k := by
  induction lengths generalizing month k with
  | nil => exact absurd h (Nat.not_lt_zero _)
  | cons length lengths ih =>
    unfold monthAndDay
    split
    · rename_i hk
      exact ⟨0, k, rfl, by simp, by simpa using hk, by simp⟩
    · rename_i hk
      rw [List.sum_cons] at h
      obtain ⟨i, j, heq, hi, hj, hsum⟩ := ih (month + 1) (k - length) (by omega)
      refine ⟨i + 1, j, ?_, by simpa using hi, by simpa using hj, ?_⟩
      · rw [heq, Nat.add_right_comm, Nat.add_assoc]
      · rw [List.take_succ_cons, List.sum_cons]
        omega

theorem daysBeforeMonth_eq (year : ℤ) (month : ℕ) :
    daysBeforeMonth year month = ((monthLengths year).take (month - 1)).sum := by
  unfold daysBeforeMonth
  rw [List.sum_eq_foldl]

/-! ## Dates -/

theorem monthLengths_le (year : ℤ) (i : ℕ) : ((monthLengths year)[i]?).getD 0 ≤ 31 := by
  cases h : (monthLengths year)[i]? with
  | none => simp
  | some length =>
    have hmem := List.mem_of_getElem? h
    unfold monthLengths at hmem
    simp only [List.mem_cons, List.not_mem_nil, or_false] at hmem
    rw [Option.getD_some]
    split at hmem <;> omega

/-- A real date has a month of the year and a day of at most the longest month. -/
theorem Date.bounds_of_isReal {d : Date} (h : d.isReal = true) :
    1 ≤ d.month ∧ d.month ≤ 12 ∧ 1 ≤ d.day ∧ d.day ≤ 31 := by
  unfold Date.isReal at h
  simp only [Bool.and_eq_true, bne_iff_ne, decide_eq_true_eq] at h
  obtain ⟨⟨hm, hd⟩, hlen⟩ := h
  have hle := monthLengths_le d.year (d.month - 1)
  refine ⟨by omega, ?_, by omega, by omega⟩
  by_contra hgt
  have hnone : (monthLengths d.year)[d.month - 1]? = none :=
    List.getElem?_eq_none (by simp only [monthLengths, List.length_cons, List.length_nil]; omega)
  rw [hnone, Option.getD_none] at hlen
  omega

/-- The parts of the date of a day. -/
theorem ofDay_spec (n : ℤ) : (Date.ofDay n).isReal = true ∧ (Date.ofDay n).toDay = n := by
  obtain ⟨hlow, hhigh⟩ := yearOfDay_spec (n + epochOffset)
  unfold Date.ofDay
  simp only
  generalize yearOfDay (n + epochOffset) = year at *
  -- the place of the day within its year falls into one of the months
  have hk : (n + epochOffset - daysBeforeYear year).toNat < (monthLengths year).sum := by
    rw [daysBeforeYear_succ] at hhigh
    rw [sum_monthLengths]
    split at hhigh <;> rename_i h <;> simp only [h, if_true, Bool.false_eq_true, if_false] <;> omega
  obtain ⟨i, j, heq, hi, hj, hsum⟩ := monthAndDay_spec (monthLengths year) 1 _ hk
  rw [heq]
  constructor
  · unfold Date.isReal
    simp only [Bool.and_eq_true, bne_iff_ne, decide_eq_true_eq, Nat.add_sub_cancel_left]
    exact ⟨⟨by omega, by omega⟩, by omega⟩
  · unfold Date.toDay
    simp only [daysBeforeMonth_eq, Nat.add_sub_cancel_left]
    omega

theorem Date.isReal_ofDay (n : ℤ) : (Date.ofDay n).isReal = true :=
  (ofDay_spec n).1

theorem Date.toDay_ofDay (n : ℤ) : (Date.ofDay n).toDay = n :=
  (ofDay_spec n).2

end TradeWatch.Time

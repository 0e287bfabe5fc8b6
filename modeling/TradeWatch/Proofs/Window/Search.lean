/-
Looking up bounds. Where whatever lies behind a row of the second part belongs to it too, halving
finds the number of rows before the bound, and the rows between two bounds are those that lie before
the second one and not before the first.
-/
import TradeWatch.Proofs.Sorting
import TradeWatch.Window.Search

namespace TradeWatch.Window

section Search

variable {α : Type} {before : α → Bool} {rows : List α}

/-- The point at which the first part ends stays within the stretch, and the stretch shrinks to
it. -/
theorem halve_eq {point : ℕ} (h : ∀ place, isBefore before rows place = true ↔ place < point)
    (base size : ℕ) (hlow : base ≤ point) (hhigh : point ≤ base + size) :
    halve before rows base size = point := by
  fun_induction halve before rows base size with
  | case1 base size hsize half ih =>
    refine ih ?_ ?_
    · split
      · rename_i hmiddle
        exact ((h _).1 hmiddle).le
      · exact hlow
    · split
      · omega
      · rename_i hmiddle
        rw [h] at hmiddle
        omega
  | case2 base size hsize hbase =>
    rw [h] at hbase
    omega
  | case3 base size hsize hbase =>
    rw [h] at hbase
    omega

/-- The rows before the bound are those of a first part. -/
theorem isBefore_iff (h : rows.Pairwise fun a b => before b = true → before a = true)
    (place : ℕ) : isBefore before rows place = true ↔ place < (rows.takeWhile before).length := by
  unfold isBefore
  induction rows generalizing place with
  | nil => simp
  | cons a rows ih =>
    obtain ⟨ha, hrows⟩ := List.pairwise_cons.1 h
    cases hb : before a with
    | true =>
      rw [List.takeWhile_cons_of_pos hb]
      cases place with
      | zero => simp [hb]
      | succ place => simpa using ih hrows place
    | false =>
      rw [List.takeWhile_cons_of_neg (by simp [hb])]
      simp only [List.length_nil, Nat.not_lt_zero, iff_false, Bool.not_eq_true,
        Option.any_eq_false]
      intro b hplace
      cases place with
      | zero =>
        cases hplace
        exact hb
      | succ place =>
        have hmem : b ∈ rows := List.mem_of_getElem? hplace
        exact Bool.eq_false_of_not_eq_true fun hbb => by simp [ha b hmem hbb] at hb

theorem partitionPoint_eq (h : rows.Pairwise fun a b => before b = true → before a = true) :
    partitionPoint before rows = (rows.takeWhile before).length := by
  refine halve_eq (isBefore_iff h) 0 rows.length (Nat.zero_le _) ?_
  rw [Nat.zero_add]
  exact (List.takeWhile_sublist before).length_le

/-- The rows between two places that were looked up one without the other. -/
theorem drop_take_partitionPoint {beforeStop : α → Bool}
    (hstart : rows.Pairwise fun a b => before b = true → before a = true)
    (hstop : rows.Pairwise fun a b => beforeStop b = true → beforeStop a = true) :
    (rows.take (partitionPoint beforeStop rows)).drop (partitionPoint before rows) =
      rows.filter fun x => !before x && beforeStop x := by
  rw [partitionPoint_eq hstart, partitionPoint_eq hstop]
  induction rows with
  | nil => rfl
  | cons a rows ih =>
    obtain ⟨ha, hrows⟩ := List.pairwise_cons.1 hstart
    obtain ⟨hsa, hsrows⟩ := List.pairwise_cons.1 hstop
    cases hs : beforeStop a with
    | false =>
      -- nothing from here on lies before the stop
      have hnone : (a :: rows).takeWhile beforeStop = [] :=
        List.takeWhile_cons_of_neg (by simp [hs])
      rw [hnone, List.length_nil, List.take_zero, List.drop_nil, eq_comm, List.filter_eq_nil_iff]
      intro b hb hkept
      rw [Bool.and_eq_true] at hkept
      rcases List.mem_cons.1 hb with rfl | hb
      · simp [hs] at hkept
      · simp [hsa b hb hkept.2] at hs
    | true =>
      rw [List.takeWhile_cons_of_pos hs, List.length_cons, List.take_succ_cons]
      cases hb : before a with
      | true =>
        rw [List.takeWhile_cons_of_pos hb, List.length_cons, List.drop_succ_cons,
          List.filter_cons_of_neg (by simp [hb]), ih hrows hsrows]
      | false =>
        -- nothing from here on lies before the start
        have hnone : rows.takeWhile before = [] := by
          rw [takeWhile_eq_filter hrows, List.filter_eq_nil_iff]
          exact fun b hmem hbb => by simp [ha b hmem hbb] at hb
        have hrest := ih hrows hsrows
        rw [hnone, List.length_nil, List.drop_zero] at hrest
        rw [List.takeWhile_cons_of_neg (by simp [hb]), List.length_nil, List.drop_zero,
          List.filter_cons_of_pos (by simp [hb, hs]), hrest]

end Search

end TradeWatch.Window

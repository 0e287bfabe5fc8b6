/-
Counting by label. A tally names every label that occurs, once and in ascending order, with the
number of its members, so it does not depend on the order of the members, its counts add up to their
number, and the counts of two lists add up label by label.
-/
import Mathlib.Tactic
import TradeWatch.Proofs.Dict

namespace TradeWatch.Dict

/-! ## Dictionaries by what is found in them -/

section Found

variable {α : Type}

theorem get?_eq_none_of_lt {k : String} {d : Dict α} (h : ∀ e ∈ d, k < e.1) : d.get? k = none := by
  induction d with
  | nil => rfl
  | cons f d ih =>
    obtain ⟨l, y⟩ := f
    have hl : k < l := h (l, y) List.mem_cons_self
    unfold get?
    rw [if_neg (ne_of_lt hl)]
    exact ih fun e he => h e (List.mem_cons_of_mem _ he)

theorem mem_iff_get? {k : String} {x : α} {d : Dict α} (hd : Sorted d) :
    (k, x) ∈ d ↔ d.get? k = some x := by
  refine ⟨fun h => ?_, mem_of_get?⟩
  induction d with
  | nil => cases h
  | cons f d ih =>
    obtain ⟨l, y⟩ := f
    obtain ⟨hl, hd⟩ := List.pairwise_cons.1 hd
    unfold get?
    rcases List.mem_cons.1 h with heq | h
    · cases heq
      rw [if_pos rfl]
    · rw [if_neg (ne_of_gt (hl (k, x) h))]
      exact ih hd h

theorem Sorted.nodup {d : Dict α} (h : Sorted d) : d.Nodup :=
  h.imp fun hlt heq => ne_of_lt hlt (congrArg Prod.fst heq)

/-- Two dictionaries in which the same is found are the same. -/
theorem eq_of_get?_eq {d e : Dict α} (hd : Sorted d) (he : Sorted e)
    (h : ∀ k, d.get? k = e.get? k) : d = e := by
  have hmem : ∀ entry, entry ∈ d ↔ entry ∈ e := by
    rintro ⟨k, x⟩
    rw [mem_iff_get? hd, mem_iff_get? he, h k]
  have hperm : d.Perm e := (List.perm_ext_iff_of_nodup hd.nodup he.nodup).2 hmem
  exact hperm.eq_of_pairwise (fun a b _ _ hab hba => absurd hab (lt_asymm hba)) hd he

end Found

/-! ## Counts -/

/-- The number recorded for a key, and zero if there is none. -/
def countOf (d : Dict Nat) (k : String) : Nat :=
  (d.get? k).getD 0

/-- All recorded numbers together. -/
def sum (d : Dict Nat) : Nat :=
  (d.map (·.2)).sum

theorem countOf_eq_zero_of_lt {k : String} {d : Dict Nat} (h : ∀ e ∈ d, k < e.1) :
    d.countOf k = 0 := by
  rw [countOf, get?_eq_none_of_lt h]
  rfl

/-- What is put in counts in place of what was there before. -/
theorem sum_insert (k : String) (n : Nat) {d : Dict Nat} (hd : Sorted d) :
    (d.insert k n).sum + d.countOf k = d.sum + n := by
  induction d with
  | nil => simp [insert, sum, countOf, get?]
  | cons f d ih =>
    obtain ⟨l, m⟩ := f
    obtain ⟨hl, hd'⟩ := List.pairwise_cons.1 hd
    unfold insert
    split
    · rename_i hkl
      subst hkl
      simp only [sum, List.map_cons, List.sum_cons, countOf, get?, if_true, Option.getD_some]
      omega
    · rename_i hkl
      split
      · rename_i hlt
        -- before the first key there is nothing to replace
        have hnone : countOf ((l, m) :: d) k = 0 := countOf_eq_zero_of_lt fun e he => by
          rcases List.mem_cons.1 he with rfl | he
          · exact hlt
          · exact lt_trans hlt (hl e he)
        rw [hnone]
        simp only [sum, List.map_cons, List.sum_cons]
        omega
      · have hrest := ih hd'
        simp only [sum, countOf, List.map_cons, List.sum_cons, get?, if_neg hkl] at hrest ⊢
        omega

theorem counts_concat (xs : List String) (x : String) :
    counts (xs ++ [x]) = (counts xs).insert x ((counts xs).countOf x + 1) :=
  List.foldl_append

theorem sorted_counts (xs : List String) : Sorted (counts xs) := by
  induction xs using List.reverseRecOn with
  | nil => exact .nil
  | append_singleton xs x ih =>
    rw [counts_concat]
    exact sorted_insert _ _ ih

/-- Every member is counted, and nothing else. -/
theorem get?_counts (xs : List String) (k : String) :
    (counts xs).get? k = if k ∈ xs then some (xs.count k) else none := by
  induction xs using List.reverseRecOn with
  | nil => rfl
  | append_singleton xs x ih =>
    rw [counts_concat, get?_insert]
    by_cases hkx : k = x
    · subst hkx
      rw [if_pos rfl, if_pos (by simp), countOf, ih, List.count_append, List.count_singleton_self]
      by_cases hk : k ∈ xs
      · rw [if_pos hk]
        rfl
      · rw [if_neg hk, List.count_eq_zero.2 hk]
        rfl
    · have hlast : [x].count k = 0 := List.count_eq_zero.2 (by simpa using hkx)
      rw [if_neg hkx, ih, List.count_append, hlast]
      simp [hkx]

theorem countOf_counts (xs : List String) (k : String) : (counts xs).countOf k = xs.count k := by
  rw [countOf, get?_counts]
  by_cases hk : k ∈ xs
  · rw [if_pos hk]
    rfl
  · rw [if_neg hk, List.count_eq_zero.2 hk]
    rfl

theorem sum_counts (xs : List String) : (counts xs).sum = xs.length := by
  induction xs using List.reverseRecOn with
  | nil => rfl
  | append_singleton xs x ih =>
    have hsum := sum_insert x ((counts xs).countOf x + 1) (sorted_counts xs)
    rw [counts_concat, List.length_append, List.length_singleton, ← ih]
    omega

theorem counts_perm {xs ys : List String} (h : xs.Perm ys) : counts xs = counts ys := by
  refine eq_of_get?_eq (sorted_counts xs) (sorted_counts ys) fun k => ?_
  rw [get?_counts, get?_counts, h.count_eq k, if_congr h.mem_iff rfl rfl]

theorem countOf_counts_append (xs ys : List String) (k : String) :
    (counts (xs ++ ys)).countOf k = (counts xs).countOf k + (counts ys).countOf k := by
  rw [countOf_counts, countOf_counts, countOf_counts, List.count_append]

/-! ## Tallies -/

/-- The dictionary says how many members have each label: a label that is recorded is one that
occurs, and every label that occurs is recorded. -/
structure Tallies {α : Type} (d : Dict Nat) (label : α → String) (members : List α) : Prop where
  sorted : Sorted d
  recorded : ∀ entry ∈ d, 0 < entry.2 ∧ entry.2 = members.countP fun x => label x == entry.1
  complete : ∀ x ∈ members, ∃ n, (label x, n) ∈ d
  sum_eq : d.sum = members.length

theorem tallies_counts {α : Type} (label : α → String) (members : List α) :
    (counts (members.map label)).Tallies label members where
  sorted := sorted_counts _
  recorded := by
    rintro ⟨k, n⟩ he
    rw [mem_iff_get? (sorted_counts _), get?_counts] at he
    split at he
    · rename_i hk
      cases he
      exact ⟨List.count_pos_iff.2 hk, List.countP_map⟩
    · cases he
  complete := by
    intro x hx
    refine ⟨(members.map label).count (label x), ?_⟩
    rw [mem_iff_get? (sorted_counts _), get?_counts, if_pos (List.mem_map_of_mem hx)]
  sum_eq := by rw [sum_counts, List.length_map]

end TradeWatch.Dict

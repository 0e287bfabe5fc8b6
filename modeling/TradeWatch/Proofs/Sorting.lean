/-
Sorting by a key, where members of one key keep the order in which they stood. A sorted list is
determined by its members of each key; so sorting undoes every rearrangement that leaves the members
of each key in their order, and a part of a list, sorted, is that part of the sorted list. In a
sorted list the members up to a bound stand in front of all others. Grouping by a key gives the same
groups after such a rearrangement.
-/
import TradeWatch.Proofs.Ascending

namespace TradeWatch

/-- A part that is left within a larger one is a part of the whole. -/
theorem filter_filter_of_imp {α : Type} {p q : α → Bool} (h : ∀ x, q x = true → p x = true)
    (xs : List α) : (xs.filter p).filter q = xs.filter q := by
  rw [List.filter_filter]
  refine List.filter_congr fun x _ => ?_
  cases hq : q x with
  | false => rfl
  | true => rw [h x hq, Bool.and_self]

/-! ## Rearranged lists -/

section KeepsOrder

variable {κ α : Type} [DecidableEq κ] {key : α → κ} {xs ys : List α}

/-- The second list has the members of the first one, and those of one key in the same order. -/
def KeepsOrder (key : α → κ) (xs ys : List α) : Prop :=
  ∀ k, ys.filter (fun x => key x = k) = xs.filter fun x => key x = k

/-- Only keys that occur have to be looked at. -/
theorem keepsOrder_iff : KeepsOrder key xs ys ↔ ∀ k ∈ (xs ++ ys).map key,
    ys.filter (fun x => key x = k) = xs.filter fun x => key x = k := by
  constructor
  · exact fun h k _ => h k
  · intro h k
    by_cases hk : k ∈ (xs ++ ys).map key
    · exact h k hk
    · have hnone : ∀ l : List α, l ⊆ xs ++ ys → (l.filter fun x => key x = k) = [] := by
        intro l hl
        rw [List.filter_eq_nil_iff]
        intro x hx hkey
        exact hk (List.mem_map.2 ⟨x, hl hx, of_decide_eq_true hkey⟩)
      rw [hnone ys (List.subset_append_right xs ys), hnone xs (List.subset_append_left xs ys)]

instance [DecidableEq α] (key : α → κ) (xs ys : List α) : Decidable (KeepsOrder key xs ys) :=
  decidable_of_iff _ keepsOrder_iff.symm

/-- Such lists are permutations of each other. -/
theorem KeepsOrder.perm (h : KeepsOrder key xs ys) : ys.Perm xs := by
  classical
  rw [List.perm_iff_count]
  intro x
  have hcount : ∀ l : List α, l.count x = (l.filter fun y => key y = key x).count x :=
    fun l => (List.count_filter (by simp)).symm
  rw [hcount ys, hcount xs, h (key x)]

/-- A part with members of one key only is the same in both lists. -/
theorem KeepsOrder.filter_eq (h : KeepsOrder key xs ys) {p : α → Bool} {k : κ}
    (hp : ∀ x, p x = true → key x = k) : ys.filter p = xs.filter p := by
  have hsplit : ∀ l : List α, (l.filter fun x => key x = k).filter p = l.filter p :=
    filter_filter_of_imp fun x hx => decide_eq_true (hp x hx)
  rw [← hsplit ys, ← hsplit xs, h k]

theorem KeepsOrder.filter_beq [BEq κ] [LawfulBEq κ] (h : KeepsOrder key xs ys) (k : κ) :
    (ys.filter fun x => key x == k) = xs.filter fun x => key x == k :=
  h.filter_eq fun _ hx => eq_of_beq hx

/-- Members that share a finer key share the coarser one. -/
theorem KeepsOrder.of_coarser {ι : Type} [DecidableEq ι] (h : KeepsOrder key xs ys)
    {fine : α → ι} (hf : ∀ x y, fine x = fine y → key x = key y) : KeepsOrder fine xs ys := by
  intro i
  by_cases hi : ∃ x, fine x = i
  · obtain ⟨x, rfl⟩ := hi
    exact h.filter_eq (k := key x) fun y hy => hf y x (of_decide_eq_true hy)
  · have hnone : ∀ l : List α, (l.filter fun x => fine x = i) = [] := by
      intro l
      rw [List.filter_eq_nil_iff]
      exact fun x _ hx => hi ⟨x, of_decide_eq_true hx⟩
    rw [hnone, hnone]

/-- Among the members of one first key, those of each second key keep their order. -/
theorem KeepsOrder.among {ι : Type} [DecidableEq ι] [BEq ι] [LawfulBEq ι] {first : α → ι}
    (h : KeepsOrder (fun x => (first x, key x)) xs ys) (i : ι) :
    KeepsOrder key (xs.filter fun x => first x == i) (ys.filter fun x => first x == i) := by
  intro k
  rw [List.filter_filter, List.filter_filter]
  refine h.filter_eq (k := (i, k)) fun x hx => ?_
  rw [Bool.and_eq_true, decide_eq_true_eq, beq_iff_eq] at hx
  rw [hx.1, hx.2]

/-- Grouping forgets how the members of different keys stood to each other. -/
theorem KeepsOrder.grouped_eq [BEq κ] [LawfulBEq κ] (h : KeepsOrder key xs ys)
    {le : κ → κ → Bool} (hle : LinearLe le) : grouped le key ys = grouped le key xs := by
  have hkeys : ascending le (ys.map key) = ascending le (xs.map key) := by
    refine ascending_congr hle fun k => ?_
    simp only [List.mem_map, h.perm.mem_iff]
  unfold grouped
  rw [hkeys]
  refine List.map_congr_left fun k _ => ?_
  rw [h.filter_beq k]

end KeepsOrder

/-! ## Sorted lists -/

section Sorted

variable {κ α : Type} [LinearOrder κ] {key : α → κ} {xs ys : List α}

/-- The order of the keys. -/
def keyLe (key : α → κ) (a b : α) : Bool :=
  decide (key a ≤ key b)

theorem keyLe_trans (key : α → κ) (a b c : α) : keyLe key a b → keyLe key b c → keyLe key a c := by
  intro hab hbc
  exact decide_eq_true (le_trans (of_decide_eq_true hab) (of_decide_eq_true hbc))

theorem keyLe_total (key : α → κ) (a b : α) : keyLe key a b || keyLe key b a := by
  rw [Bool.or_eq_true]
  exact (le_total (key a) (key b)).imp decide_eq_true decide_eq_true

theorem pairwise_mergeSort_keyLe (key : α → κ) (xs : List α) :
    (xs.mergeSort (keyLe key)).Pairwise fun a b => key a ≤ key b :=
  (List.pairwise_mergeSort (keyLe_trans key) (keyLe_total key) xs).imp of_decide_eq_true

theorem keepsOrder_mergeSort (key : α → κ) (xs : List α) :
    KeepsOrder key xs (xs.mergeSort (keyLe key)) := by
  intro k
  -- members of one key are in order already, so sorting keeps them as they stand
  have hsorted : (xs.filter fun x => key x = k).Pairwise fun a b => keyLe key a b := by
    refine List.pairwise_of_forall_mem_list fun a ha b hb => ?_
    have hka : key a = k := of_decide_eq_true (List.mem_filter.1 ha).2
    have hkb : key b = k := of_decide_eq_true (List.mem_filter.1 hb).2
    exact decide_eq_true (hka.trans hkb.symm).le
  have hsub : (xs.filter fun x => key x = k).Sublist (xs.mergeSort (keyLe key)) :=
    List.sublist_mergeSort (keyLe_trans key) (keyLe_total key) hsorted List.filter_sublist
  have hpart := hsub.filter fun x => key x = k
  rw [List.filter_filter] at hpart
  simp only [Bool.and_self] at hpart
  have hperm := (List.mergeSort_perm xs (keyLe key)).filter fun x => key x = k
  exact (hpart.eq_of_length hperm.length_eq.symm).symm

/-- Only one list in order has given members of each key. -/
theorem KeepsOrder.eq_of_pairwise (h : KeepsOrder key xs ys)
    (hx : xs.Pairwise fun a b => key a ≤ key b) (hy : ys.Pairwise fun a b => key a ≤ key b) :
    ys = xs := by
  induction xs generalizing ys with
  | nil =>
    rw [← List.isEmpty_iff, h.perm.isEmpty_eq]
    rfl
  | cons a xs ih =>
    cases ys with
    | nil =>
      have hempty := h.perm.isEmpty_eq
      cases hempty
    | cons b ys =>
      obtain ⟨hax, hxs⟩ := List.pairwise_cons.1 hx
      obtain ⟨hby, hys⟩ := List.pairwise_cons.1 hy
      -- both heads have the least key, and the first member of that key is the head
      have hab : key a ≤ key b := by
        rcases List.mem_cons.1 (h.perm.mem_iff.1 List.mem_cons_self) with rfl | hb
        · exact le_rfl
        · exact hax b hb
      have hba : key b ≤ key a := by
        rcases List.mem_cons.1 (h.perm.mem_iff.2 List.mem_cons_self) with rfl | ha
        · exact le_rfl
        · exact hby a ha
      have hkey : key b = key a := le_antisymm hba hab
      have hhead := h (key a)
      rw [List.filter_cons_of_pos (by simp [hkey]), List.filter_cons_of_pos (by simp)] at hhead
      obtain ⟨rfl, -⟩ := List.cons.inj hhead
      rw [ih (fun k => ?_) hxs hys]
      have hk := h k
      by_cases hbk : key b = k
      · rw [List.filter_cons_of_pos (by simp [hbk]), List.filter_cons_of_pos (by simp [hbk])] at hk
        exact (List.cons.inj hk).2
      · rwa [List.filter_cons_of_neg (by simp [hbk]), List.filter_cons_of_neg (by simp [hbk])] at hk

/-- Sorting undoes a rearrangement. -/
theorem KeepsOrder.mergeSort_eq (h : KeepsOrder key xs ys) :
    ys.mergeSort (keyLe key) = xs.mergeSort (keyLe key) := by
  have hsorted : KeepsOrder key (xs.mergeSort (keyLe key)) (ys.mergeSort (keyLe key)) := by
    intro k
    rw [keepsOrder_mergeSort key ys k, keepsOrder_mergeSort key xs k, h k]
  exact hsorted.eq_of_pairwise (pairwise_mergeSort_keyLe key xs) (pairwise_mergeSort_keyLe key ys)

/-- A part of the sorted list is that part of the list, sorted. -/
theorem filter_mergeSort (key : α → κ) (p : α → Bool) (xs : List α) :
    (xs.mergeSort (keyLe key)).filter p = (xs.filter p).mergeSort (keyLe key) := by
  have hkeeps : KeepsOrder key ((xs.filter p).mergeSort (keyLe key))
      ((xs.mergeSort (keyLe key)).filter p) := by
    intro k
    rw [keepsOrder_mergeSort key (xs.filter p) k, List.filter_filter, List.filter_filter]
    have hp : ∀ x : α, (decide (key x = k) && p x) = (p x && decide (key x = k)) :=
      fun x => Bool.and_comm _ _
    simp only [hp]
    rw [← List.filter_filter, ← List.filter_filter, keepsOrder_mergeSort key xs k]
  exact hkeeps.eq_of_pairwise (pairwise_mergeSort_keyLe key (xs.filter p))
    ((pairwise_mergeSort_keyLe key xs).filter p)

end Sorted

/-! ## Bounds -/

section Bounds

variable {α : Type} {p : α → Bool} {xs : List α}

/-- What holds of a member holds of those before it, so it holds of a first part of the list. -/
theorem takeWhile_eq_filter (h : xs.Pairwise fun a b => p b = true → p a = true) :
    xs.takeWhile p = xs.filter p := by
  induction xs with
  | nil => rfl
  | cons a xs ih =>
    obtain ⟨ha, hxs⟩ := List.pairwise_cons.1 h
    cases hp : p a with
    | true => rw [List.takeWhile_cons_of_pos hp, List.filter_cons_of_pos hp, ih hxs]
    | false =>
      rw [List.takeWhile_cons_of_neg (by simp [hp]), List.filter_cons_of_neg (by simp [hp])]
      symm
      rw [List.filter_eq_nil_iff]
      intro b hb hpb
      rw [ha b hb hpb] at hp
      cases hp

end Bounds

end TradeWatch

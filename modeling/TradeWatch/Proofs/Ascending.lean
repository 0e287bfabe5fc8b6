/-
The order in which results stand, and grouping by key: `ascending` lists the different members of a
list in strictly ascending order, and `grouped` gives each key of a list its members and no others.
Both go along with a map that keeps the order of the keys. Texts compared by code points stand in
the order of the bytes of their UTF-8 form.
-/
import Mathlib.Data.Finset.Card
import Mathlib.Data.List.Lex
import Mathlib.Data.Prod.Lex
import Mathlib.Data.String.Basic
import TradeWatch.Grouping

namespace TradeWatch

/-! ## Texts and their bytes -/

namespace Text

/-- The bytes of a text in UTF-8. -/
def bytes (s : String) : List UInt8 :=
  s.toUTF8.data.toList

theorem bytes_eq (s : String) : bytes s = s.toList.flatMap String.utf8EncodeChar := by
  unfold bytes
  conv => lhs; rw [← String.ofList_toList (s := s)]
  rw [String.toUTF8_eq_toByteArray, String.toByteArray_ofList, List.utf8Encode]
  simp

theorem utf8EncodeChar_append_lt {c d : Char} (h : c < d) (xs ys : List UInt8) :
    String.utf8EncodeChar c ++ xs < String.utf8EncodeChar d ++ ys := by
  have hcd : c.val.toNat < d.val.toNat := h
  have hd : d.val.toNat < 0x110000 := by
    have := d.valid; unfold UInt32.isValidChar Nat.isValidChar at this; omega
  unfold String.utf8EncodeChar
  generalize c.val.toNat = v at *
  generalize d.val.toNat = w at *
  -- the bytes carry the digits of the code point to the base 64
  have e1 : ∀ n : ℕ, n / 4096 = n / 64 / 64 := fun n => by rw [Nat.div_div_eq_div_mul]
  have e2 : ∀ n : ℕ, n / 262144 = n / 64 / 64 / 64 := fun n => by
    rw [Nat.div_div_eq_div_mul, Nat.div_div_eq_div_mul]
  simp only [e1, e2]
  split_ifs <;>
    simp only [List.cons_append, List.nil_append, List.cons_lt_cons_iff, UInt8.lt_iff_toNat_lt,
      ← UInt8.toNat_inj, UInt8.toNat_ofNat'] <;> omega

theorem flatMap_utf8EncodeChar_lt : ∀ {cs ds : List Char}, cs < ds →
    cs.flatMap String.utf8EncodeChar < ds.flatMap String.utf8EncodeChar
  | [], [], h => absurd h (lt_irrefl _)
  | [], d :: ds, _ => by
    rw [List.flatMap_nil, List.flatMap_cons]
    cases he : String.utf8EncodeChar d with
    | nil => exact absurd he String.utf8EncodeChar_ne_nil
    | cons b bs => exact List.nil_lt_cons _ _
  | _ :: _, [], h => absurd h (List.not_lt_nil _)
  | c :: cs, d :: ds, h => by
    rw [List.flatMap_cons, List.flatMap_cons]
    rcases List.cons_lt_cons_iff.1 h with hcd | ⟨rfl, hrest⟩
    · exact utf8EncodeChar_append_lt hcd _ _
    · exact List.append_left_lt (flatMap_utf8EncodeChar_lt hrest)

/-- The order of texts is the order of their bytes. -/
theorem lt_iff_bytes_lt {s t : String} : s < t ↔ bytes s < bytes t := by
  have mono : ∀ {s t : String}, s < t → bytes s < bytes t := fun h => by
    rw [bytes_eq, bytes_eq]
    exact flatMap_utf8EncodeChar_lt (String.lt_iff_toList_lt.1 h)
  refine ⟨mono, fun h => ?_⟩
  rcases lt_trichotomy s t with hst | rfl | hts
  · exact hst
  · exact absurd h (List.lt_irrefl _)
  · exact absurd h (List.lt_asymm (mono hts))

end Text

/-! ## Different members in order -/

/-- `le` decides a linear order. -/
structure LinearLe {κ : Type} (le : κ → κ → Bool) : Prop where
  trans : ∀ a b c, le a b → le b c → le a c
  total : ∀ a b, le a b || le b a
  antisymm : ∀ a b, le a b → le b a → a = b

theorem textLe_iff {a b : String} : textLe a b = true ↔ a ≤ b :=
  decide_eq_true_iff

theorem pairLe_iff {a b : String × String} : pairLe a b = true ↔ toLex a ≤ toLex b := by
  simp only [pairLe, Bool.or_eq_true, Bool.and_eq_true, decide_eq_true_eq, beq_iff_eq, textLe_iff,
    Prod.Lex.toLex_le_toLex]

theorem linearLe_text : LinearLe textLe := by
  refine ⟨fun a b c => ?_, fun a b => ?_, fun a b => ?_⟩
  · simp only [textLe_iff]; exact le_trans
  · simp only [Bool.or_eq_true, textLe_iff]; exact le_total a b
  · simp only [textLe_iff]; exact le_antisymm

theorem linearLe_int : LinearLe intLe := by
  refine ⟨fun a b c => ?_, fun a b => ?_, fun a b => ?_⟩
  · simp only [intLe, decide_eq_true_eq]; exact le_trans
  · simp only [intLe, Bool.or_eq_true, decide_eq_true_eq]; exact le_total a b
  · simp only [intLe, decide_eq_true_eq]; exact le_antisymm

theorem linearLe_pair : LinearLe pairLe := by
  refine ⟨fun a b c => ?_, fun a b => ?_, fun a b h1 h2 => ?_⟩
  · simp only [pairLe_iff]; exact le_trans
  · simp only [Bool.or_eq_true, pairLe_iff]; exact le_total (toLex a) (toLex b)
  · rw [pairLe_iff] at h1 h2
    exact toLex_inj.1 (le_antisymm h1 h2)

section Ascending

variable {κ : Type} [BEq κ] [LawfulBEq κ]

theorem nodup_eraseDups : ∀ xs : List κ, xs.eraseDups.Nodup
  | [] => by simp
  | x :: xs => by
    rw [List.eraseDups_cons, List.nodup_cons]
    exact ⟨by simp, nodup_eraseDups (xs.filter fun y => !y == x)⟩
termination_by xs => xs.length
decreasing_by exact Nat.lt_succ_of_le (List.length_filter_le _ _)

@[simp] theorem mem_ascending {le : κ → κ → Bool} {xs : List κ} {x : κ} :
    x ∈ ascending le xs ↔ x ∈ xs := by
  rw [ascending, List.mem_mergeSort, List.mem_eraseDups]

theorem nodup_ascending (le : κ → κ → Bool) (xs : List κ) : (ascending le xs).Nodup :=
  (List.mergeSort_perm _ _).nodup_iff.2 (nodup_eraseDups xs)

/-- Each member stands strictly before all that follow it. -/
theorem pairwise_ascending {le : κ → κ → Bool} (hle : LinearLe le) (xs : List κ) :
    (ascending le xs).Pairwise fun a b => le a b = true ∧ a ≠ b :=
  (List.pairwise_mergeSort hle.trans hle.total _).and (nodup_ascending le xs)

/-- There is one way to put members into strictly ascending order. -/
theorem LinearLe.eq_of_mem_iff {κ : Type} {le : κ → κ → Bool} (hle : LinearLe le) {xs ys : List κ}
    (hxs : xs.Pairwise fun a b => le a b = true ∧ a ≠ b)
    (hys : ys.Pairwise fun a b => le a b = true ∧ a ≠ b) (h : ∀ x, x ∈ xs ↔ x ∈ ys) : xs = ys := by
  have hperm : xs.Perm ys :=
    (List.perm_ext_iff_of_nodup (hxs.imp And.right) (hys.imp And.right)).2 h
  refine hperm.eq_of_pairwise (fun a b _ _ hab hba => hle.antisymm a b hab hba) ?_ ?_
  · exact hxs.imp And.left
  · exact hys.imp And.left

/-- Only the members matter, not how often and in which order they occur. -/
theorem ascending_congr {le : κ → κ → Bool} (hle : LinearLe le) {xs ys : List κ}
    (h : ∀ x, x ∈ xs ↔ x ∈ ys) : ascending le xs = ascending le ys := by
  refine hle.eq_of_mem_iff (pairwise_ascending hle xs) (pairwise_ascending hle ys) fun x => ?_
  rw [mem_ascending, mem_ascending, h]

/-- What keeps a linear order keeps different members apart. -/
theorem LinearLe.injective {κ : Type} {le : κ → κ → Bool} (hle : LinearLe le) {g : κ → κ}
    (hg : ∀ a b, le (g a) (g b) = le a b) : Function.Injective g := by
  intro a b h
  have hself : le (g b) (g b) = true := by simpa using hle.total (g b) (g b)
  refine hle.antisymm a b ?_ ?_
  · rw [← hg, h, hself]
  · rw [← hg, h, hself]

theorem ascending_map {le : κ → κ → Bool} (hle : LinearLe le) {g : κ → κ}
    (hg : ∀ a b, le (g a) (g b) = le a b) (xs : List κ) :
    ascending le (xs.map g) = (ascending le xs).map g := by
  refine hle.eq_of_mem_iff (pairwise_ascending hle _) ?_ fun k => ?_
  · refine List.pairwise_map.2 ((pairwise_ascending hle xs).imp fun {a b} h => ?_)
    rw [hg]
    exact h.imp_right (hle.injective hg).ne
  · simp only [mem_ascending, List.mem_map]

/-- Where keys move along with their members in one order, so do the groups. -/
theorem grouped_map {α β : Type} {le : κ → κ → Bool} (hle : LinearLe le) {key : α → κ}
    {key' : β → κ} {f : α → β} {g : κ → κ} (hg : ∀ a b, le (g a) (g b) = le a b) {xs : List α}
    (hkey : ∀ x ∈ xs, key' (f x) = g (key x)) :
    grouped le key' (xs.map f) =
      (grouped le key xs).map fun group => (g group.1, group.2.map f) := by
  have hkeys : (xs.map f).map key' = (xs.map key).map g := by
    rw [List.map_map, List.map_map]
    exact List.map_congr_left hkey
  unfold grouped
  rw [hkeys, ascending_map hle hg, List.map_map, List.map_map]
  refine List.map_congr_left fun k _ => ?_
  simp only [Function.comp_apply, List.filter_map, Prod.mk.injEq, true_and]
  congr 1
  refine List.filter_congr fun x hx => ?_
  rw [Function.comp_apply, hkey x hx, Bool.eq_iff_iff, beq_iff_eq, beq_iff_eq]
  exact (hle.injective hg).eq_iff

/-- A key that stays groups the same members. -/
theorem grouped_map_of_key_eq {α β : Type} {le : κ → κ → Bool} (hle : LinearLe le) {key : α → κ}
    {key' : β → κ} {f : α → β} {xs : List α} (hkey : ∀ x ∈ xs, key' (f x) = key x) :
    grouped le key' (xs.map f) = (grouped le key xs).map fun group => (group.1, group.2.map f) :=
  grouped_map hle (fun _ _ => rfl) hkey

omit [LawfulBEq κ] in
theorem subset_of_mem_grouped {α : Type} {le : κ → κ → Bool} {key : α → κ} {xs members : List α}
    {k : κ} (h : (k, members) ∈ grouped le key xs) : members ⊆ xs := by
  obtain ⟨k, -, heq⟩ := List.mem_map.1 h
  cases heq
  exact List.filter_subset_self _

theorem lookup_map_self {β : Type} (f : κ → β) (keys : List κ) (k : κ) :
    (keys.map fun k => (k, f k)).lookup k = if k ∈ keys then some (f k) else none := by
  induction keys with
  | nil => rfl
  | cons l keys ih =>
    rw [List.map_cons, List.lookup_cons]
    by_cases hkl : k = l
    · subst hkl
      simp
    · rw [beq_false_of_ne hkl, ih]
      simp [hkl]

/-- What is made of the members of each key, looked up by key. -/
theorem lookup_grouped {α β : Type} (le : κ → κ → Bool) (key : α → κ) (f : List α → β)
    (xs : List α) (k : κ) :
    ((grouped le key xs).map fun (k, members) => (k, f members)).lookup k =
      if k ∈ xs.map key then some (f (xs.filter fun x => key x == k)) else none := by
  unfold grouped
  rw [List.map_map]
  refine (lookup_map_self (fun k => f (xs.filter fun x => key x == k)) _ k).trans ?_
  simp only [mem_ascending]

end Ascending

theorem length_ascending (le : String → String → Bool) (xs : List String) :
    (ascending le xs).length = xs.toFinset.card := by
  rw [← List.toFinset_card_of_nodup (nodup_ascending le xs)]
  congr 1
  ext x
  rw [List.mem_toFinset, List.mem_toFinset, mem_ascending]

/-- `ys` lists the different texts among `xs`, in strictly ascending order of their bytes. -/
structure SortedDistinct (ys xs : List String) : Prop where
  pairwise : ys.Pairwise fun s t => Text.bytes s < Text.bytes t
  mem_iff : ∀ s, s ∈ ys ↔ s ∈ xs

theorem sortedDistinct_ascending (xs : List String) : SortedDistinct (ascending textLe xs) xs := by
  refine ⟨(pairwise_ascending linearLe_text xs).imp fun {a b} h => ?_, fun s => mem_ascending⟩
  exact Text.lt_iff_bytes_lt.1 (lt_of_le_of_ne (textLe_iff.1 h.1) h.2)

end TradeWatch

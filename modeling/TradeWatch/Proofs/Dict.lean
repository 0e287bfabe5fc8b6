/-
Laws of dictionaries: what `get?` finds after an insertion, and that insertion keeps the keys in
strictly ascending order, so that a list in that order is already the dictionary made of it.
-/
import Mathlib.Data.String.Basic
import TradeWatch.Dict

namespace TradeWatch.Dict

variable {α : Type}

/-! ## Look-up -/

theorem get?_insert (k l : String) (x : α) (d : Dict α) :
    (d.insert k x).get? l = if l = k then some x else d.get? l := by
  induction d with
  | nil => rfl
  | cons e d ih =>
    obtain ⟨m, y⟩ := e
    unfold insert
    split
    · rename_i hkm
      subst hkm
      simp only [get?]
      split <;> rfl
    · rename_i hkm
      split
      · rfl
      · simp only [get?, ih]
        split
        · rename_i hlm
          subst hlm
          rw [if_neg (Ne.symm hkm)]
        · rfl

@[simp] theorem get?_insert_self (k : String) (x : α) (d : Dict α) :
    (d.insert k x).get? k = some x := by
  rw [get?_insert, if_pos rfl]

theorem get?_insert_of_ne {k l : String} (h : l ≠ k) (x : α) (d : Dict α) :
    (d.insert k x).get? l = d.get? l := by
  rw [get?_insert, if_neg h]

theorem mem_of_get? {key : String} {value : α} {d : Dict α}
    (h : d.get? key = some value) : (key, value) ∈ d := by
  induction d with
  | nil => cases h
  | cons entry d ih =>
    obtain ⟨k, v⟩ := entry
    unfold get? at h
    split at h
    · rename_i hk
      cases h
      rw [hk]
      exact List.mem_cons_self
    · exact List.mem_cons_of_mem _ (ih h)

/-- What is put in under some keys shows only when one of those is looked up. -/
theorem get?_ofList_congr {keys : List String} {ps qs : List (String × α)}
    (h : List.Forall₂ (fun p q => q.1 = p.1 ∧ (p.1 ∈ keys → q.2 = p.2)) ps qs) {k : String}
    (hk : k ∈ keys) : (ofList qs).get? k = (ofList ps).get? k := by
  -- the dictionaries that the folds start with have to vary
  have hfold : ∀ d e : Dict α, e.get? k = d.get? k →
      (qs.foldl (fun d p => d.insert p.1 p.2) e).get? k =
        (ps.foldl (fun d p => d.insert p.1 p.2) d).get? k := by
    induction h with
    | nil => exact fun d e hde => hde
    | @cons p q ps qs hpq _ ih =>
      intro d e hde
      refine ih _ _ ?_
      obtain ⟨hkey, hvalue⟩ := hpq
      rw [get?_insert, get?_insert, hkey, hde]
      split
      · rename_i hkp
        rw [hvalue (hkp ▸ hk)]
      · rfl
  exact hfold [] [] rfl

/-! ## The order of the keys -/

/-- The keys ascend strictly. -/
def Sorted (d : Dict α) : Prop :=
  d.Pairwise fun a b => a.1 < b.1

instance (d : Dict α) : Decidable (Sorted d) :=
  inferInstanceAs (Decidable (d.Pairwise fun a b => a.1 < b.1))

theorem mem_insert {k : String} {x : α} {d : Dict α} {e : String × α} (h : e ∈ d.insert k x) :
    e = (k, x) ∨ e ∈ d := by
  induction d with
  | nil => exact .inl (List.mem_singleton.1 h)
  | cons f d ih =>
    unfold insert at h
    split at h
    · exact (List.mem_cons.1 h).imp_right fun h => List.mem_cons_of_mem _ h
    · split at h
      · exact List.mem_cons.1 h
      · rcases List.mem_cons.1 h with rfl | h
        · exact .inr List.mem_cons_self
        · exact (ih h).imp_right fun h => List.mem_cons_of_mem _ h

theorem sorted_insert (k : String) (x : α) {d : Dict α} (h : Sorted d) : Sorted (d.insert k x) := by
  induction d with
  | nil => exact List.pairwise_singleton _ _
  | cons f d ih =>
    obtain ⟨l, y⟩ := f
    obtain ⟨hl, hd⟩ := List.pairwise_cons.1 h
    unfold insert
    split
    · rename_i hkl
      subst hkl
      exact List.pairwise_cons.2 ⟨hl, hd⟩
    · rename_i hne
      split
      · rename_i hlt
        refine List.pairwise_cons.2 ⟨fun e he => ?_, h⟩
        rcases List.mem_cons.1 he with rfl | he
        · exact hlt
        · exact lt_trans hlt (hl e he)
      · rename_i hge
        refine List.pairwise_cons.2 ⟨fun e he => ?_, ih hd⟩
        rcases mem_insert he with rfl | he
        · exact lt_of_le_of_ne (not_lt.1 hge) (Ne.symm hne)
        · exact hl e he

theorem sorted_ofList (pairs : List (String × α)) : Sorted (ofList pairs) := by
  -- the dictionary that the fold starts with has to vary
  have hfold : ∀ (pairs : List (String × α)) (d : Dict α), Sorted d →
      Sorted (pairs.foldl (fun d e => d.insert e.1 e.2) d) := by
    intro pairs
    induction pairs with
    | nil => exact fun d h => h
    | cons e pairs ih => exact fun d h => ih _ (sorted_insert _ _ h)
  exact hfold pairs [] .nil

theorem mem_ofList {pairs : List (String × α)} {e : String × α} (h : e ∈ ofList pairs) :
    e ∈ pairs := by
  have hfold : ∀ (pairs : List (String × α)) (d : Dict α),
      e ∈ pairs.foldl (fun d e => d.insert e.1 e.2) d → e ∈ d ∨ e ∈ pairs := by
    intro pairs
    induction pairs with
    | nil => exact fun d h => .inl h
    | cons f pairs ih =>
      intro d h
      rcases ih _ h with h | h
      · rcases mem_insert h with rfl | h
        · exact .inr List.mem_cons_self
        · exact .inl h
      · exact .inr (List.mem_cons_of_mem _ h)
  exact (hfold pairs [] h).resolve_left List.not_mem_nil

theorem insert_of_forall_lt {k : String} (x : α) {d : Dict α} (h : ∀ e ∈ d, e.1 < k) :
    d.insert k x = d ++ [(k, x)] := by
  induction d with
  | nil => rfl
  | cons f d ih =>
    obtain ⟨l, y⟩ := f
    have hl : l < k := h (l, y) List.mem_cons_self
    unfold insert
    rw [if_neg (ne_of_gt hl), if_neg (not_lt_of_gt hl),
      ih fun e he => h e (List.mem_cons_of_mem _ he)]
    rfl

/-- A list whose keys ascend is the dictionary made of it. -/
theorem ofList_of_sorted {d : Dict α} (h : Sorted d) : ofList d = d := by
  -- each key stands behind all that were inserted before it
  have hfold : ∀ (es d : Dict α), Sorted (d ++ es) →
      es.foldl (fun d e => d.insert e.1 e.2) d = d ++ es := by
    intro es
    induction es with
    | nil => exact fun d _ => (List.append_nil d).symm
    | cons e es ih =>
      intro d hs
      have hlt : ∀ f ∈ d, f.1 < e.1 := fun f hf =>
        (List.pairwise_append.1 hs).2.2 f hf e List.mem_cons_self
      rw [List.foldl_cons, insert_of_forall_lt _ hlt, ih _ (by simpa using hs)]
      simp
  exact hfold d [] h

end TradeWatch.Dict

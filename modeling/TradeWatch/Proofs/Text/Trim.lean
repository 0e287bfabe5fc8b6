/-
Texts trimmed and cut. What is stripped from a text are the characters at its ends and no others, so
a text stripped once has nothing left to strip, and what surrounds a stripped text does not count.
Cutting at a character loses only that character, and undoes putting it between pieces without it.
-/
import Mathlib.Data.List.DropRight
import TradeWatch.Text.Trim

namespace TradeWatch.Text

/-! ## Both ends -/

section Strip

variable {p : Char → Bool}

/-- Neither the first character nor the last satisfies `p`. -/
structure Stripped (p : Char → Bool) (cs : List Char) : Prop where
  head : ∀ c ∈ cs.head?, p c = false
  last : ∀ c ∈ cs.getLast?, p c = false

theorem Stripped.nil : Stripped p [] :=
  ⟨nofun, nofun⟩

theorem stripEnd_eq (p : Char → Bool) (cs : List Char) : stripEnd p cs = cs.rdropWhile p :=
  rfl

/-- Stripping takes characters that satisfy `p` off both ends. -/
theorem exists_strip (p : Char → Bool) (cs : List Char) :
    ∃ before after, cs = before ++ strip p cs ++ after ∧ (∀ c ∈ before, p c = true) ∧
      ∀ c ∈ after, p c = true := by
  refine ⟨cs.takeWhile p, (cs.dropWhile p).rtakeWhile p, ?_, fun c => List.mem_takeWhile_imp,
    fun c => List.mem_rtakeWhile_imp⟩
  unfold strip
  rw [List.append_assoc, stripEnd_eq, List.rdropWhile_append_rtakeWhile,
    List.takeWhile_append_dropWhile]

theorem stripped_strip (p : Char → Bool) (cs : List Char) : Stripped p (strip p cs) := by
  unfold strip
  have hlast := List.rdropWhile_last_not p (cs.dropWhile p)
  obtain ⟨after, hafter⟩ := List.rdropWhile_prefix p (cs.dropWhile p)
  have hfirst := List.head?_dropWhile_not p cs
  rw [stripEnd_eq]
  generalize (cs.dropWhile p).rdropWhile p = stripped at hlast hafter
  cases stripped with
  | nil => exact .nil
  | cons c rest =>
    rw [← hafter] at hfirst
    refine ⟨fun d hd => ?_, fun d hd => ?_⟩
    · cases hd
      exact hfirst
    · rw [List.getLast?_eq_some_getLast (List.cons_ne_nil c rest)] at hd
      cases hd
      simpa using hlast (List.cons_ne_nil c rest)

theorem stripEnd_append {cs after : List Char} (hcs : Stripped p cs)
    (hafter : ∀ c ∈ after, p c = true) : stripEnd p (cs ++ after) = cs := by
  induction after using List.reverseRecOn with
  | nil =>
    rw [List.append_nil, stripEnd_eq, List.rdropWhile_eq_self_iff]
    intro hne
    simpa using hcs.last _ (List.getLast?_eq_some_getLast hne)
  | append_singleton after c ih =>
    rw [← List.append_assoc, stripEnd_eq,
      List.rdropWhile_concat_pos _ _ _ (hafter c (by simp))]
    exact ih fun d hd => hafter d (List.mem_append_left _ hd)

/-- What surrounds a stripped text is stripped off. -/
theorem strip_append {before cs after : List Char} (hbefore : ∀ c ∈ before, p c = true)
    (hcs : Stripped p cs) (hafter : ∀ c ∈ after, p c = true) :
    strip p (before ++ cs ++ after) = cs := by
  unfold strip
  rw [List.append_assoc, List.dropWhile_append_of_pos hbefore]
  cases cs with
  | nil =>
    rw [List.nil_append, List.dropWhile_eq_nil_iff.2 hafter]
    rfl
  | cons c rest =>
    have hc : p c = false := hcs.head c rfl
    rw [List.cons_append, List.dropWhile_cons_of_neg (by simp [hc]), ← List.cons_append]
    exact stripEnd_append hcs hafter

theorem Stripped.strip_eq {cs : List Char} (h : Stripped p cs) : strip p cs = cs := by
  have happend : strip p ([] ++ cs ++ []) = cs := strip_append nofun h nofun
  rwa [List.nil_append, List.append_nil] at happend

/-- Where no character satisfies `p` nothing is stripped. -/
theorem stripped_of_forall {cs : List Char} (h : ∀ c ∈ cs, p c = false) : Stripped p cs :=
  ⟨fun c hc => h c (List.mem_of_head? hc), fun c hc => h c (List.mem_of_getLast? hc)⟩

end Strip

/-! ## White space at the ends -/

/-- The text neither starts nor ends with white space. -/
def IsTrimmed (s : String) : Prop :=
  Stripped isBlank s.toList

/-- `t` is `s` without the white space at both ends. -/
structure Trims (s t : String) : Prop where
  around : ∃ before after, s.toList = before ++ t.toList ++ after ∧
    (∀ c ∈ before, isBlank c = true) ∧ ∀ c ∈ after, isBlank c = true
  isTrimmed : IsTrimmed t

theorem trims_iff {s t : String} : Trims s t ↔ t = trim s := by
  constructor
  · rintro ⟨⟨before, after, hs, hbefore, hafter⟩, ht⟩
    unfold trim trimChars
    rw [hs, strip_append hbefore ht hafter, String.ofList_toList]
  · rintro rfl
    unfold trim
    refine ⟨?_, ?_⟩
    · rw [String.toList_ofList]
      exact exists_strip isBlank s.toList
    · unfold IsTrimmed
      rw [String.toList_ofList]
      exact stripped_strip isBlank s.toList

theorem trims_trim (s : String) : Trims s (trim s) :=
  trims_iff.2 rfl

theorem IsTrimmed.trim_eq {s : String} (h : IsTrimmed s) : trim s = s := by
  unfold trim trimChars
  rw [h.strip_eq, String.ofList_toList]

/-! ## Cutting -/

theorem cut_ne_nil (sep : Char) (cs : List Char) : cut sep cs ≠ [] := by
  cases cs with
  | nil => simp [cut]
  | cons c cs =>
    unfold cut
    split
    · simp
    · split <;> simp

theorem cut_of_not_mem {sep : Char} {cs : List Char} (h : sep ∉ cs) : cut sep cs = [cs] := by
  induction cs with
  | nil => rfl
  | cons c cs ih =>
    rw [List.mem_cons, not_or] at h
    unfold cut
    rw [if_neg (Ne.symm h.1), ih h.2]

theorem cut_append (sep : Char) (xs ys : List Char) :
    cut sep (xs ++ sep :: ys) = cut sep xs ++ cut sep ys := by
  induction xs with
  | nil => simp [cut]
  | cons x xs ih =>
    by_cases hx : x = sep
    · simp [cut, hx, ih]
    · simp only [List.cons_append, cut, if_neg hx, ih]
      cases hcut : cut sep xs with
      | nil => exact absurd hcut (cut_ne_nil sep xs)
      | cons piece pieces => simp

/-- Cutting loses only the separators. -/
theorem mem_of_mem_cut {sep : Char} {cs piece : List Char} (h : piece ∈ cut sep cs) {c : Char}
    (hc : c ∈ piece) : c ∈ cs := by
  induction cs generalizing piece with
  | nil =>
    rw [cut, List.mem_singleton] at h
    rw [h] at hc
    exact hc
  | cons x cs ih =>
    unfold cut at h
    split at h
    · rcases List.mem_cons.1 h with rfl | h
      · cases hc
      · exact List.mem_cons_of_mem _ (ih h hc)
    · cases hcut : cut sep cs with
      | nil => exact absurd hcut (cut_ne_nil sep cs)
      | cons first pieces =>
        rw [hcut] at h ih
        rcases List.mem_cons.1 h with rfl | h
        · rcases List.mem_cons.1 hc with rfl | hc
          · exact List.mem_cons_self
          · exact List.mem_cons_of_mem _ (ih List.mem_cons_self hc)
        · exact List.mem_cons_of_mem _ (ih (List.mem_cons_of_mem _ h) hc)

/-- A joined text holds only what its separator and its parts hold. -/
theorem mem_of_mem_intercalate {sep : List Char} {parts : List (List Char)} {c : Char}
    (h : c ∈ sep.intercalate parts) : c ∈ sep ∨ ∃ part ∈ parts, c ∈ part := by
  induction parts with
  | nil => cases h
  | cons part parts ih =>
    cases parts with
    | nil =>
      rw [List.intercalate_singleton] at h
      exact .inr ⟨part, List.mem_cons_self, h⟩
    | cons next parts =>
      rw [List.intercalate_cons_cons, List.mem_append, List.mem_append] at h
      rcases h with (h | h) | h
      · exact .inr ⟨part, List.mem_cons_self, h⟩
      · exact .inl h
      · rcases ih h with h | ⟨other, hother, h⟩
        · exact .inl h
        · exact .inr ⟨other, List.mem_cons_of_mem _ hother, h⟩

end TradeWatch.Text

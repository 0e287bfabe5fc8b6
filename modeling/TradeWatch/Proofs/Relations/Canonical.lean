/-
Relations in a cell, in canonical form. Whatever the cell holds, the ids are trimmed, none is empty
and none occurs twice. The JSON text of a list gives its members, each trimmed and where it occurs
first, so the JSON text of what was read is read as the same again.
-/
import TradeWatch.Proofs.Json.RoundTrip
import TradeWatch.Proofs.Text.Trim
import TradeWatch.Relations

namespace TradeWatch.Relations

open Text (IsTrimmed Stripped Trims isBlank trim)

/-! ## First occurrences -/

/-- The members of `ids`, each where it occurs first. -/
structure FirstsOf (ids firsts : List String) : Prop where
  mem_iff : ∀ id, id ∈ firsts ↔ id ∈ ids
  ordered : firsts.Pairwise fun a b => ids.idxOf a < ids.idxOf b

theorem FirstsOf.nodup {ids firsts : List String} (h : FirstsOf ids firsts) : firsts.Nodup := by
  refine h.ordered.imp fun {a b} hab => ?_
  rintro rfl
  exact lt_irrefl _ hab

theorem FirstsOf.unique {ids firsts firsts' : List String} (h : FirstsOf ids firsts)
    (h' : FirstsOf ids firsts') : firsts = firsts' := by
  have hperm : firsts.Perm firsts' :=
    (List.perm_ext_iff_of_nodup h.nodup h'.nodup).2 fun id =>
      (h.mem_iff id).trans (h'.mem_iff id).symm
  exact hperm.eq_of_pairwise (fun a b _ _ hab hba => absurd hab (lt_asymm hba)) h.ordered h'.ordered

/-- One more id is kept just when it is not there yet. -/
theorem FirstsOf.concat {ids firsts : List String} (h : FirstsOf ids firsts) (id : String) :
    FirstsOf (ids ++ [id]) (if id ∈ ids then firsts else firsts ++ [id]) := by
  have hplace : ∀ a ∈ firsts, (ids ++ [id]).idxOf a = ids.idxOf a := fun a ha =>
    List.idxOf_append_of_mem ((h.mem_iff a).1 ha)
  have hordered : firsts.Pairwise fun a b => (ids ++ [id]).idxOf a < (ids ++ [id]).idxOf b :=
    h.ordered.imp_of_mem fun {a b} ha hb hab => by rwa [hplace a ha, hplace b hb]
  split
  · rename_i hid
    refine ⟨fun a => ?_, hordered⟩
    rw [h.mem_iff, List.mem_append, List.mem_singleton]
    exact ⟨.inl, fun ha => ha.elim (fun ha => ha) fun ha => ha ▸ hid⟩
  · rename_i hid
    refine ⟨fun a => ?_, List.pairwise_append.2 ⟨hordered, List.pairwise_singleton _ _, ?_⟩⟩
    · rw [List.mem_append, List.mem_append, h.mem_iff]
    · intro a ha b hb
      rw [List.mem_singleton.1 hb, hplace a ha, List.idxOf_append_of_notMem hid]
      have hlt := List.idxOf_lt_length_iff.2 ((h.mem_iff a).1 ha)
      omega

theorem firstsOf_eraseDups (ids : List String) : FirstsOf ids ids.eraseDups := by
  induction ids using List.reverseRecOn with
  | nil => exact ⟨fun id => Iff.rfl, .nil⟩
  | append_singleton ids id ih =>
    have hconcat := ih.concat id
    rw [List.eraseDups_append]
    by_cases hid : id ∈ ids <;>
      simpa [List.removeAll, List.eraseDups_cons, hid] using hconcat

theorem firstsOf_self {ids : List String} (h : ids.Nodup) : FirstsOf ids ids := by
  refine ⟨fun id => Iff.rfl, List.pairwise_iff_getElem.2 fun i j hi hj hij => ?_⟩
  rwa [h.idxOf_getElem, h.idxOf_getElem]

/-! ## The canonical form -/

/-- The id can stand in a list of relations. -/
structure IsCanonical (id : String) : Prop where
  ne_empty : id ≠ ""
  isTrimmed : IsTrimmed id

theorem firstsOf_canonical (ids : List String) :
    FirstsOf ((ids.map trim).filter fun id => id ≠ "") (canonical ids) := by
  unfold canonical
  simpa only [bne_iff_ne, ne_eq, decide_not] using! firstsOf_eraseDups _

theorem isCanonical_of_mem {ids : List String} {id : String} (h : id ∈ canonical ids) :
    IsCanonical id := by
  rw [(firstsOf_canonical ids).mem_iff, List.mem_filter, decide_eq_true_iff] at h
  obtain ⟨hid, hne⟩ := h
  obtain ⟨written, -, rfl⟩ := List.mem_map.1 hid
  exact ⟨hne, (Text.trims_trim written).isTrimmed⟩

/-- A list in canonical form stays as it is. -/
theorem canonical_eq_self {ids : List String} (hids : ∀ id ∈ ids, IsCanonical id)
    (hnodup : ids.Nodup) : canonical ids = ids := by
  have hmap : ids.map trim = ids := by
    conv_rhs => rw [← List.map_id ids]
    exact List.map_congr_left fun id hid => (hids id hid).isTrimmed.trim_eq
  have hfilter : (ids.filter fun id => id ≠ "") = ids :=
    List.filter_eq_self.2 fun id hid => decide_eq_true (hids id hid).ne_empty
  have hfirsts := firstsOf_canonical ids
  rw [hmap, hfilter] at hfirsts
  exact hfirsts.unique (firstsOf_self hnodup)

/-! ## What surrounds a cell -/

/-- A text that stands for no list at all. -/
def SaysNothing (cs : List Char) : Prop :=
  cs = [] ∨ ∃ mark ∈ emptyMarks, Text.sameIgnoringCase (String.ofList cs) mark = true

theorem parse_surrounded {before cs after : List Char} (hbefore : ∀ c ∈ before, isBlank c = true)
    (hcs : Stripped isBlank cs) (hafter : ∀ c ∈ after, isBlank c = true) :
    (SaysNothing cs → parse (String.ofList (before ++ cs ++ after)) = []) ∧
      (¬ SaysNothing cs → parse (String.ofList (before ++ cs ++ after)) = canonical (rawIds cs)) := by
  have htrim : Text.trimChars (String.ofList (before ++ cs ++ after)).toList = cs := by
    rw [String.toList_ofList]
    exact Text.strip_append hbefore hcs hafter
  have hnothing : (cs.isEmpty || emptyMarks.any (Text.sameIgnoringCase (String.ofList cs))) = true ↔
      SaysNothing cs := by
    rw [Bool.or_eq_true, List.isEmpty_iff, List.any_eq_true]
    rfl
  unfold parse
  simp only [htrim]
  constructor
  · intro h
    rw [if_pos (hnothing.2 h)]
  · intro h
    rw [if_neg fun hcs => h (hnothing.1 hcs)]

/-- The relations in a cell are in canonical form, whatever the cell holds. -/
theorem parse_eq (cell : String) : parse cell = [] ∨ ∃ ids, parse cell = canonical ids := by
  unfold parse
  simp only
  split
  · exact .inl rfl
  · exact .inr ⟨_, rfl⟩

theorem isCanonical_of_mem_parse {cell id : String} (h : id ∈ parse cell) : IsCanonical id := by
  rcases parse_eq cell with hnil | ⟨ids, hids⟩
  · rw [hnil] at h
    cases h
  · rw [hids] at h
    exact isCanonical_of_mem h

theorem nodup_parse (cell : String) : (parse cell).Nodup := by
  rcases parse_eq cell with hnil | ⟨ids, hids⟩
  · rw [hnil]
    exact List.nodup_nil
  · rw [hids]
    exact (firstsOf_canonical ids).nodup

/-! ## Lists in brackets -/

theorem stripped_brackets (inner : List Char) : Stripped isBlank ('[' :: (inner ++ [']'])) := by
  refine ⟨fun c hc => ?_, fun c hc => ?_⟩
  · cases hc
    rfl
  · rw [← List.cons_append, List.getLast?_append] at hc
    cases hc
    rfl

/-- Brackets say nothing only where nothing stands between them. -/
theorem not_saysNothing_brackets {inner : List Char} (h : inner ≠ []) :
    ¬ SaysNothing ('[' :: (inner ++ [']'])) := by
  rintro (hnil | ⟨mark, hmark, hsame⟩)
  · cases hnil
  · unfold Text.sameIgnoringCase at hsame
    rw [beq_iff_eq, String.toList_ofList, List.map_cons, List.map_append] at hsame
    simp only [emptyMarks, List.mem_cons, List.not_mem_nil, or_false] at hmark
    rcases hmark with rfl | rfl | rfl | rfl
    · -- as long as the empty brackets, so nothing is between these
      have hlength := congrArg List.length hsame
      simp at hlength
      exact h hlength
    all_goals
      have hhead := congrArg List.head? hsame
      rw [List.head?_cons] at hhead
      exact absurd hhead (by decide)

theorem parse_brackets {before inner after : List Char} {ids : List String} (hne : inner ≠ [])
    (hbefore : ∀ c ∈ before, isBlank c = true) (hafter : ∀ c ∈ after, isBlank c = true)
    (hids : rawIds ('[' :: (inner ++ [']'])) = ids) :
    parse (String.ofList (before ++ '[' :: (inner ++ [']']) ++ after)) = canonical ids := by
  rw [← hids]
  exact (parse_surrounded hbefore (stripped_brackets inner) hafter).2 (not_saysNothing_brackets hne)

/-! ## JSON text -/

theorem exists_itemChars (xs : List Json) : ∃ inner, Json.itemChars xs = inner ++ [']'] := by
  induction xs with
  | nil => exact ⟨[], rfl⟩
  | cons x xs ih =>
    obtain ⟨inner, hinner⟩ := ih
    refine ⟨',' :: x.chars ++ inner, ?_⟩
    unfold Json.itemChars
    rw [hinner, List.append_assoc]

/-- The JSON text of a list is read as a list, whatever its members hold. -/
theorem parse_strings (ids : List String) : parse (Json.strings ids).compact = canonical ids := by
  cases ids with
  | nil => decide
  | cons id ids =>
    obtain ⟨inner, hinner⟩ := exists_itemChars (ids.map Json.str)
    have hchars : (Json.strings (id :: ids)).chars =
        '[' :: ((Json.quoteChars id ++ inner) ++ [']']) := by
      unfold Json.strings
      rw [List.map_cons, Json.chars, hinner, Json.chars]
      simp
    have hread := Json.parseStrings_compact (id :: ids)
    unfold Json.compact at hread ⊢
    rw [hchars] at hread ⊢
    have hraw : rawIds ('[' :: ((Json.quoteChars id ++ inner) ++ [']'])) = id :: ids := by
      unfold rawIds
      rw [hread]
    have hparse : parse (String.ofList ([] ++ '[' :: ((Json.quoteChars id ++ inner) ++ [']']) ++ [])) =
        canonical (id :: ids) := parse_brackets (by simp [Json.quoteChars]) (List.forall_mem_nil _)
          (List.forall_mem_nil _) hraw
    rwa [List.nil_append, List.append_nil] at hparse

/-! ## What is read -/

/-- The relations of any cell are in canonical form. The JSON text of a list is read as the list
with every member trimmed, without the empty ones and without all but the first of equal ones; so
that of a list in canonical form is read as that list. -/
theorem parse_canonical :
    (∀ cell, (∀ id ∈ parse cell, id ≠ "" ∧ IsTrimmed id) ∧ (parse cell).Nodup) ∧
      (∀ ids, ∃ trimmed, List.Forall₂ Trims ids trimmed ∧
        FirstsOf (trimmed.filter fun id => id ≠ "") (parse (Json.strings ids).compact)) ∧
      ∀ cell, parse (Json.strings (parse cell)).compact = parse cell := by
  refine ⟨fun cell => ⟨fun id hid => ?_, nodup_parse cell⟩, fun ids => ⟨ids.map trim, ?_, ?_⟩,
    fun cell => ?_⟩
  · exact ⟨(isCanonical_of_mem_parse hid).ne_empty, (isCanonical_of_mem_parse hid).isTrimmed⟩
  · exact List.forall₂_map_right_iff.2 (List.forall₂_same.2 fun id _ => Text.trims_trim id)
  · rw [parse_strings]
    exact firstsOf_canonical ids
  · rw [parse_strings]
    exact canonical_eq_self (fun id => isCanonical_of_mem_parse) (nodup_parse cell)

/-- White space that is no blank of JSON, an empty id, an escaped quote and an id that comes again. -/
theorem parse_canonical_untidyCell :
    let cell := "[ \"\\tA2\u0085\", \"\", \"A\\\"3\", \"A2\" ]"
    "A\"3" ∈ parse cell ∧ ("A\"3" ≠ "" ∧ IsTrimmed "A\"3") ∧
      parse (Json.strings (parse cell)).compact = ["A2", "A\"3"] := by
  intro cell
  have hparse : parse cell = ["A2", "A\"3"] := by decide +kernel
  have hmem : "A\"3" ∈ parse cell := by
    rw [hparse]
    decide
  refine ⟨hmem, (parse_canonical.1 cell).1 _ hmem, ?_⟩
  rw [parse_canonical.2.2 cell, hparse]

end TradeWatch.Relations

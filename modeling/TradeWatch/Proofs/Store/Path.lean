/-
The pieces of joined texts. Whatever the text of a directory looks like, with or without a slash at
its end or empty, a name joined to it adds one piece to those that lead to the directory.
-/
import TradeWatch.Proofs.Text.Trim
import TradeWatch.Store.Path

namespace TradeWatch

/-! ## Names -/

/-- The character that no text of a path may hold. -/
def Path.nul : Char := Char.ofNat 0

/-- A piece that names an entry of a directory. -/
structure Path.IsEntry (piece : String) : Prop where
  slash : '/' ∉ piece.toList
  nul : Path.nul ∉ piece.toList
  step : Path.isStep piece = false

/-- A name without dots, so that it differs from every name with an extension. -/
structure Path.IsPlain (name : String) : Prop where
  ne_empty : name ≠ ""
  slash : '/' ∉ name.toList
  dot : '.' ∉ name.toList
  nul : Path.nul ∉ name.toList

namespace Path

instance (name : String) : Decidable (IsPlain name) :=
  decidable_of_iff (name ≠ "" ∧ '/' ∉ name.toList ∧ '.' ∉ name.toList ∧ nul ∉ name.toList)
    ⟨fun h => ⟨h.1, h.2.1, h.2.2.1, h.2.2.2⟩, fun h => ⟨h.1, h.2, h.3, h.4⟩⟩

theorem IsEntry.ne_empty {piece : String} (h : IsEntry piece) : piece ≠ "" := by
  rintro rfl
  exact absurd h.step (by decide)

theorem IsPlain.isEntry {name : String} (h : IsPlain name) : IsEntry name := by
  refine ⟨h.slash, h.nul, ?_⟩
  unfold isStep
  rw [Bool.or_eq_false_iff, Bool.or_eq_false_iff, beq_eq_false_iff_ne, beq_eq_false_iff_ne,
    beq_eq_false_iff_ne]
  refine ⟨⟨h.ne_empty, ?_⟩, ?_⟩
  · rintro rfl
    exact h.dot (by decide)
  · rintro rfl
    exact h.dot (by decide)

/-- A plain name with an extension names a file. -/
theorem IsPlain.isEntry_append {name extension : String} (h : IsPlain name)
    (hslash : '/' ∉ extension.toList) (hnul : Path.nul ∉ extension.toList)
    (hlong : 2 ≤ extension.toList.length) : IsEntry (name ++ extension) := by
  have hlength : 3 ≤ (name ++ extension).toList.length := by
    have hname : name.toList ≠ [] := fun hnil => h.ne_empty (String.toList_eq_nil_iff.1 hnil)
    have hpos := List.length_pos_iff.2 hname
    rw [String.toList_append, List.length_append]
    omega
  refine ⟨?_, ?_, ?_⟩
  · rw [String.toList_append, List.mem_append, not_or]
    exact ⟨h.slash, hslash⟩
  · rw [String.toList_append, List.mem_append, not_or]
    exact ⟨h.nul, hnul⟩
  · have hshort : ∀ step : String, step.toList.length ≤ 2 →
        (name ++ extension == step) = false := by
      intro step hstep
      rw [beq_eq_false_iff_ne]
      rintro rfl
      omega
    unfold isStep
    rw [hshort "" (by decide), hshort "." (by decide), hshort ".." (by decide)]
    rfl

/-! ## Pieces -/

theorem pieces_ne_nil (text : String) : pieces text ≠ [] := by
  unfold pieces
  rw [Ne, List.map_eq_nil_iff]
  exact Text.cut_ne_nil _ _

theorem pieces_of_isEntry {piece : String} (h : IsEntry piece) : pieces piece = [piece] := by
  unfold pieces
  rw [Text.cut_of_not_mem h.slash, List.map_singleton, String.ofList_toList]

theorem pieces_append (a b : String) : pieces (a ++ "/" ++ b) = pieces a ++ pieces b := by
  unfold pieces
  rw [String.toList_append, String.toList_append, List.append_assoc]
  exact (congrArg _ (Text.cut_append '/' a.toList b.toList)).trans (List.map_append ..)

theorem pieces_append_slash (a : String) : pieces (a ++ "/") = pieces a ++ [""] := by
  have happend := pieces_append a ""
  rwa [String.append_empty] at happend

theorem pieces_eq (text : String) : pieces text = parents text ++ [lastPiece text] := by
  unfold parents lastPiece
  rw [List.getLast?_eq_some_getLast (pieces_ne_nil text), Option.getD_some,
    List.dropLast_append_getLast]

theorem exists_of_getLast?_slash {text : String} (h : text.toList.getLast? = some '/') :
    ∃ front, text = front ++ "/" := by
  obtain ⟨cs, hcs⟩ := List.getLast?_eq_some_iff.1 h
  refine ⟨String.ofList cs, ?_⟩
  rw [← String.toList_inj, hcs, String.toList_append, String.toList_ofList]
  rfl

/-- The pieces that lead to what a text names as a directory: an empty piece at the end stays. -/
def dirPieces (text : String) : List String :=
  if text = "" ∨ text.toList.getLast? = some '/' then parents text else pieces text

variable {a b : String}

theorem IsEntry.head_ne (h : IsEntry b) : b.toList.head? ≠ some '/' := by
  intro hhead
  exact h.slash (List.mem_of_head? hhead)

theorem IsEntry.getLast_ne (h : IsEntry b) : b.toList.getLast? ≠ some '/' := by
  intro hlast
  exact h.slash (List.mem_of_getLast? hlast)

/-- A name joined to a text is one more piece. -/
theorem pieces_joinText (h : IsEntry b) : pieces (joinText a b) = dirPieces a ++ [b] := by
  unfold joinText dirPieces
  rw [if_neg h.head_ne]
  split
  · rename_i hend
    rcases hend with rfl | hlast
    · rw [String.empty_append, pieces_of_isEntry h]
      rfl
    · obtain ⟨front, rfl⟩ := exists_of_getLast?_slash hlast
      unfold parents
      rw [pieces_append, pieces_append_slash, List.dropLast_concat, pieces_of_isEntry h]
  · rw [pieces_append, pieces_of_isEntry h]

theorem parents_joinText (h : IsEntry b) : parents (joinText a b) = dirPieces a := by
  unfold parents
  rw [pieces_joinText h, List.dropLast_concat]

theorem lastPiece_joinText (h : IsEntry b) : lastPiece (joinText a b) = b := by
  unfold lastPiece
  rw [pieces_joinText h, List.getLast?_concat]
  rfl

theorem dirPieces_joinText (h : IsEntry b) : dirPieces (joinText a b) = dirPieces a ++ [b] := by
  have hend : joinText a b ≠ "" ∧ (joinText a b).toList.getLast? ≠ some '/' := by
    have hb : b.toList ≠ [] := fun hnil => h.ne_empty (String.toList_eq_nil_iff.1 hnil)
    have hsuffix : ∃ cs, (joinText a b).toList = cs ++ b.toList := by
      unfold joinText
      rw [if_neg h.head_ne]
      split
      · exact ⟨a.toList, String.toList_append⟩
      · exact ⟨(a ++ "/").toList, String.toList_append⟩
    obtain ⟨cs, hcs⟩ := hsuffix
    refine ⟨fun hempty => hb ?_, ?_⟩
    · rw [hempty] at hcs
      exact (List.append_eq_nil_iff.1 hcs.symm).2
    · rw [hcs, List.getLast?_append_of_ne_nil _ hb]
      exact h.getLast_ne
  unfold dirPieces
  rw [if_neg (not_or.2 hend)]
  exact pieces_joinText h

theorem start_joinText (h : IsEntry b) (base : Path) :
    start base (joinText a b) = start base a := by
  unfold start joinText
  rw [if_neg h.head_ne]
  by_cases ha : a = ""
  · have hempty : ("" : String).toList.head? ≠ some '/' := by decide
    rw [ha, if_neg hempty, String.empty_append, if_pos (Or.inl rfl), if_neg h.head_ne]
  · have hhead : ∀ c : String, (a ++ c).toList.head? = a.toList.head? := by
      intro c
      have hne : a.toList ≠ [] := fun hnil => ha (String.toList_eq_nil_iff.1 hnil)
      rw [String.toList_append, List.head?_append_of_ne_nil _ hne]
    split
    · rw [hhead]
    · rw [String.append_assoc, hhead]

/-! ## Texts without NUL -/

theorem nul_not_mem_joinText (ha : nul ∉ a.toList) (hb : nul ∉ b.toList) :
    nul ∉ (joinText a b).toList := by
  have hslash : nul ∉ "/".toList := by decide
  unfold joinText
  split
  · exact hb
  split
  · rw [String.toList_append, List.mem_append, not_or]
    exact ⟨ha, hb⟩
  · rw [String.toList_append, String.toList_append, List.mem_append, List.mem_append, not_or,
      not_or]
    exact ⟨⟨ha, hslash⟩, hb⟩

theorem nul_not_mem_parentText (h : nul ∉ a.toList) : nul ∉ (parentText a).toList := by
  intro hmem
  unfold parentText at hmem
  rw [String.toList_intercalate] at hmem
  rcases Text.mem_of_mem_intercalate hmem with hslash | ⟨part, hpart, hnul⟩
  · exact absurd hslash (by decide)
  · obtain ⟨piece, hpiece, rfl⟩ := List.mem_map.1 hpart
    obtain ⟨cs, hcs, rfl⟩ := List.mem_map.1 ((List.dropLast_sublist _).subset hpiece)
    rw [String.toList_ofList] at hnul
    exact h (Text.mem_of_mem_cut hcs hnul)

end Path

end TradeWatch

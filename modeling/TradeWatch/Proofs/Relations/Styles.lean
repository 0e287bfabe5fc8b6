/-
Three ways of writing a list of relations: JSON, the same with single quotes, and ids between commas
alone. Ids that need no escapes are read alike from all three, whatever spaces stand behind the
commas and around the whole.
-/
import TradeWatch.Proofs.Relations.Canonical

namespace TradeWatch.Relations

open Text (IsTrimmed Stripped isBlank)

/-! ## Three ways of writing a list -/

/-- An id that reads the same with quotes of either kind around it and without. -/
structure IsPlainId (id : String) : Prop where
  ne_empty : id ≠ ""
  isTrimmed : IsTrimmed id
  plain : ∀ c ∈ id.toList, c ∉ [',', '\'', '"', '[', ']', '\\'] ∧ 0x20 ≤ c.toNat

inductive Style
  /-- In brackets, with double quotes. -/
  | json
  /-- In brackets, with single quotes. -/
  | singleQuoted
  /-- Without brackets and quotes. -/
  | bare
deriving DecidableEq

/-- The pieces, each after a comma and as many spaces as `gaps` says. -/
def spacedItems (gaps : ℕ → ℕ) : List (List Char) → List Char
  | [] => []
  | piece :: pieces =>
    ',' :: (List.replicate (gaps 0) ' ' ++ piece) ++ spacedItems (fun i => gaps (i + 1)) pieces

def spaced (gaps : ℕ → ℕ) : List (List Char) → List Char
  | [] => []
  | piece :: pieces => piece ++ spacedItems gaps pieces

/-- The list as it is written, with `gaps i` spaces behind the comma after the id at place `i`. -/
def Style.write (gaps : ℕ → ℕ) (ids : List String) : Style → List Char
  | .json => '[' :: (spaced gaps (ids.map fun id => '"' :: id.toList ++ ['"']) ++ [']'])
  | .singleQuoted => '[' :: (spaced gaps (ids.map fun id => '\'' :: id.toList ++ ['\'']) ++ [']'])
  | .bare => spaced gaps (ids.map String.toList)

/-- A single id that is one of the words for no list. -/
def IsWordForNone (ids : List String) : Prop :=
  ∃ id word, ids = [id] ∧ word ∈ ["null", "none", "nan"] ∧ Text.sameIgnoringCase id word = true

theorem IsPlainId.isCanonical {id : String} (h : IsPlainId id) : IsCanonical id :=
  ⟨h.ne_empty, h.isTrimmed⟩

/-- A plain id needs no escapes. -/
theorem IsPlainId.quoteChars_eq {id : String} (h : IsPlainId id) :
    Json.quoteChars id = '"' :: id.toList ++ ['"'] := by
  have hescape : ∀ c ∈ id.toList, Json.escapeChar c = [c] := by
    intro c hc
    obtain ⟨hplain, hcontrol⟩ := h.plain c hc
    simp only [List.mem_cons, List.not_mem_nil, or_false, not_or] at hplain
    obtain ⟨-, -, hquote, -, -, hslash⟩ := hplain
    have hne : ∀ d : Char, d.toNat < 0x20 → c ≠ d := by
      rintro d hd rfl
      omega
    unfold Json.escapeChar
    rw [if_neg hquote, if_neg hslash, if_neg (hne _ (by decide)), if_neg (hne _ (by decide)),
      if_neg (hne _ (by decide)), if_neg (hne _ (by decide)), if_neg (hne _ (by decide)),
      if_neg (by omega)]
  unfold Json.quoteChars
  rw [List.flatMap_congr hescape, List.flatMap_singleton']

/-! ### Between quotes -/

theorem nextElement_spaces {cs : List Char} (h : Json.Starts cs) (n : ℕ) (rest : List Char) :
    Json.nextElement false (',' :: (List.replicate n ' ' ++ (cs ++ rest))) =
      .ok (.more (cs ++ rest)) := by
  have hspaces : Json.skipSpace (List.replicate n ' ' ++ (cs ++ rest)) = cs ++ rest := by
    rw [← Json.skipSpace_of_starts h rest]
    unfold Json.skipSpace
    rw [List.dropWhile_append_of_pos fun c hc => by rw [List.eq_of_mem_replicate hc]; rfl,
      List.dropWhile_idempotent]
  unfold Json.nextElement
  rw [show Json.skipSpace (',' :: _) = ',' :: _ from rfl]
  simp only
  rw [if_neg (by decide), if_neg (by decide), if_pos trivial, hspaces]
  obtain ⟨c, ds, rfl, -, hc⟩ := h
  simp only [List.cons_append]
  rw [if_neg hc]

theorem elements_spacedItems (gaps : ℕ → ℕ) (ids : List String) {fuel : ℕ}
    (hfuel : ids.length < fuel) (rest : List Char) :
    Json.elements Json.stringValue fuel false
      (spacedItems gaps (ids.map Json.quoteChars) ++ ']' :: rest) = .ok (ids, rest) := by
  induction ids generalizing gaps fuel with
  | nil =>
    obtain ⟨n, rfl⟩ : ∃ n, fuel = n + 1 := ⟨fuel - 1, by omega⟩
    rfl
  | cons id ids ih =>
    obtain ⟨n, rfl⟩ : ∃ n, fuel = n + 1 := ⟨fuel - 1, by omega⟩
    have hid := Json.readsText_stringValue id
    have hids := ih (fun i => gaps (i + 1)) (by simpa using hfuel)
    have hends : Json.EndsNumber
        (spacedItems (fun i => gaps (i + 1)) (ids.map Json.quoteChars) ++ ']' :: rest) := by
      cases ids <;> exact Json.endsNumber_cons _ (by decide)
    have hread := hid.reads _ hends
    rw [Json.chars] at hread
    have hstep := nextElement_spaces hid.starts (gaps 0)
      (spacedItems (fun i => gaps (i + 1)) (ids.map Json.quoteChars) ++ ']' :: rest)
    rw [Json.chars] at hstep
    have hshape : spacedItems gaps ((id :: ids).map Json.quoteChars) ++ ']' :: rest =
        ',' :: (List.replicate (gaps 0) ' ' ++ (Json.quoteChars id ++
          (spacedItems (fun i => gaps (i + 1)) (ids.map Json.quoteChars) ++ ']' :: rest))) := by
      simp [spacedItems]
    unfold Json.elements
    rw [hshape, hstep]
    simp only [Bind.bind, Except.bind, hread, hids]

theorem length_le_length_spacedItems (gaps : ℕ → ℕ) (pieces : List (List Char)) :
    pieces.length ≤ (spacedItems gaps pieces).length := by
  induction pieces generalizing gaps with
  | nil => exact le_rfl
  | cons piece pieces ih =>
    have hlength := ih fun i => gaps (i + 1)
    unfold spacedItems
    simp only [List.length_cons, List.length_append]
    omega

/-- A list with double quotes is read as JSON, with any spaces behind the commas. -/
theorem parseStrings_spaced (gaps : ℕ → ℕ) (ids : List String) :
    Json.parseStrings (String.ofList ('[' :: (spaced gaps (ids.map Json.quoteChars) ++ [']']))) =
      .ok ids := by
  refine Json.whole_of_read ?_
  unfold Json.stringList
  rw [show Json.skipSpace ('[' :: _) = '[' :: _ from rfl]
  simp only
  rw [if_pos trivial]
  cases ids with
  | nil => rfl
  | cons id ids =>
    have hid := Json.readsText_stringValue id
    have hends : Json.EndsNumber (spacedItems gaps (ids.map Json.quoteChars) ++ [']']) := by
      cases ids <;> exact Json.endsNumber_cons _ (by decide)
    have hread := hid.reads _ hends
    have hstep := Json.nextElement_first hid.starts
      (spacedItems gaps (ids.map Json.quoteChars) ++ [']'])
    rw [Json.chars] at hread hstep
    rw [List.map_cons, spaced, List.append_assoc]
    have hlength := length_le_length_spacedItems gaps (ids.map Json.quoteChars)
    -- each piece takes up a comma at least, so the fuel outlasts the pieces
    have hfuel : ids.length < (Json.quoteChars id ++
        (spacedItems gaps (ids.map Json.quoteChars) ++ [']'])).length := by
      rw [List.length_map] at hlength
      simp only [List.length_append, List.length_singleton]
      omega
    have hids := elements_spacedItems gaps ids hfuel []
    unfold Json.elements
    rw [hstep]
    simp only [Bind.bind, Except.bind, hread, hids]

theorem rawIds_of_parseStrings {cs : List Char} {ids : List String}
    (h : Json.parseStrings (String.ofList cs) = .ok ids) : rawIds cs = ids := by
  unfold rawIds
  rw [h]

/-- With single quotes the list is no JSON text. -/
theorem parseStrings_singleQuote (cs : List Char) :
    Json.parseStrings (String.ofList ('[' :: '\'' :: cs)) = .error (Json.mismatch ('\'' :: cs)) := by
  unfold Json.parseStrings Json.whole
  rw [String.toList_ofList]
  rfl

theorem map_spacedItems {f : Char → Char} (hcomma : f ',' = ',') (hspace : f ' ' = ' ')
    (gaps : ℕ → ℕ) (pieces : List (List Char)) :
    (spacedItems gaps pieces).map f = spacedItems gaps (pieces.map (List.map f)) := by
  induction pieces generalizing gaps with
  | nil => rfl
  | cons piece pieces ih => simp [spacedItems, ih, hcomma, hspace]

theorem map_spaced {f : Char → Char} (hcomma : f ',' = ',') (hspace : f ' ' = ' ')
    (gaps : ℕ → ℕ) (pieces : List (List Char)) :
    (spaced gaps pieces).map f = spaced gaps (pieces.map (List.map f)) := by
  cases pieces with
  | nil => rfl
  | cons piece pieces =>
    rw [spaced, List.map_append, map_spacedItems hcomma hspace]
    rfl

theorem IsPlainId.withDoubleQuotes_eq {id : String} (h : IsPlainId id) :
    withDoubleQuotes id.toList = id.toList := by
  unfold withDoubleQuotes
  conv_rhs => rw [← List.map_id id.toList]
  refine List.map_congr_left fun c hc => if_neg ?_
  rintro rfl
  exact (h.plain _ hc).1 (by simp)

section Formats

variable {ids : List String} (hids : ∀ id ∈ ids, IsPlainId id) (gaps : ℕ → ℕ)
include hids

theorem parseStrings_json : Json.parseStrings (String.ofList (Style.json.write gaps ids)) = .ok ids := by
  have hquoted : (ids.map fun id => '"' :: id.toList ++ ['"']) = ids.map Json.quoteChars :=
    List.map_congr_left fun id hid => (hids id hid).quoteChars_eq.symm
  unfold Style.write
  rw [hquoted]
  exact parseStrings_spaced gaps ids

/-- The other quotes turn the list into the JSON text. -/
theorem withDoubleQuotes_write :
    withDoubleQuotes (Style.singleQuoted.write gaps ids) = Style.json.write gaps ids := by
  have hpieces : (ids.map fun id => '\'' :: id.toList ++ ['\'']).map
      (List.map fun c => if c = '\'' then '"' else c) =
        ids.map fun id => '"' :: id.toList ++ ['"'] := by
    rw [List.map_map]
    refine List.map_congr_left fun id hid => ?_
    have hid := (hids id hid).withDoubleQuotes_eq
    unfold withDoubleQuotes at hid
    simp [hid]
  unfold withDoubleQuotes Style.write
  rw [List.map_cons, List.map_append, map_spaced (by decide) (by decide), hpieces]
  rfl

/-- With single quotes the list is no JSON text, unless it is empty; with double quotes it is. -/
theorem rawIds_singleQuoted (hne : ids ≠ []) :
    rawIds (Style.singleQuoted.write gaps ids) = ids := by
  have hjson := parseStrings_json hids gaps
  rw [← withDoubleQuotes_write hids] at hjson
  have hfault : ∃ e, Json.parseStrings (String.ofList (Style.singleQuoted.write gaps ids)) =
      .error e := by
    cases ids with
    | nil => exact absurd rfl hne
    | cons id ids => exact ⟨_, parseStrings_singleQuote _⟩
  obtain ⟨e, hfault⟩ := hfault
  unfold rawIds
  rw [hfault]
  simp only [hjson]

end Formats

/-! ### Without quotes -/

theorem mem_spacedItems {gaps : ℕ → ℕ} {pieces : List (List Char)} {c : Char}
    (h : c ∈ spacedItems gaps pieces) : c = ',' ∨ c = ' ' ∨ ∃ piece ∈ pieces, c ∈ piece := by
  induction pieces generalizing gaps with
  | nil => cases h
  | cons piece pieces ih =>
    simp only [spacedItems, List.cons_append, List.mem_cons, List.mem_append,
      List.mem_replicate] at h
    rcases h with rfl | (⟨-, rfl⟩ | h) | h
    · exact .inl rfl
    · exact .inr (.inl rfl)
    · exact .inr (.inr ⟨piece, List.mem_cons_self, h⟩)
    · exact (ih h).imp_right (.imp_right fun ⟨other, hother, hc⟩ =>
        ⟨other, List.mem_cons_of_mem _ hother, hc⟩)

theorem mem_spaced {gaps : ℕ → ℕ} {pieces : List (List Char)} {c : Char}
    (h : c ∈ spaced gaps pieces) : c = ',' ∨ c = ' ' ∨ ∃ piece ∈ pieces, c ∈ piece := by
  cases pieces with
  | nil => cases h
  | cons piece pieces =>
    rw [spaced, List.mem_append] at h
    rcases h with h | h
    · exact .inr (.inr ⟨piece, List.mem_cons_self, h⟩)
    · exact (mem_spacedItems h).imp_right (.imp_right fun ⟨other, hother, hc⟩ =>
        ⟨other, List.mem_cons_of_mem _ hother, hc⟩)

/-- The last character is that of the last piece. -/
theorem last_spacedItems {p : Char → Bool} {gaps : ℕ → ℕ} {piece : List Char}
    {pieces : List (List Char)} (hpiece : ∀ c ∈ piece.getLast?, p c = false)
    (hpieces : ∀ piece ∈ pieces, piece ≠ [] ∧ Stripped p piece) :
    ∀ c ∈ (piece ++ spacedItems gaps pieces).getLast?, p c = false := by
  induction pieces generalizing piece gaps with
  | nil => simpa [spacedItems] using hpiece
  | cons next pieces ih =>
    obtain ⟨hne, hnext⟩ := hpieces next List.mem_cons_self
    have hlast : ∀ c ∈ (',' :: (List.replicate (gaps 0) ' ' ++ next)).getLast?, p c = false := by
      rw [← List.cons_append, List.getLast?_append_of_ne_nil _ hne]
      exact hnext.last
    have hrest := @ih (fun i => gaps (i + 1)) _ hlast fun other hother =>
      hpieces other (List.mem_cons_of_mem _ hother)
    unfold spacedItems
    rw [List.getLast?_append_of_ne_nil _ (by simp)]
    exact hrest

theorem stripped_spaced {p : Char → Bool} (gaps : ℕ → ℕ) {pieces : List (List Char)}
    (h : ∀ piece ∈ pieces, piece ≠ [] ∧ Stripped p piece) : Stripped p (spaced gaps pieces) := by
  cases pieces with
  | nil => exact .nil
  | cons piece pieces =>
    obtain ⟨hne, hpiece⟩ := h piece List.mem_cons_self
    refine ⟨fun c hc => ?_, ?_⟩
    · rw [spaced, List.head?_append_of_ne_nil _ hne] at hc
      exact hpiece.head c hc
    · exact last_spacedItems hpiece.last fun other hother => h other (List.mem_cons_of_mem _ hother)

/-- The id in a piece between commas. -/
def pieceId (piece : List Char) : String :=
  String.ofList (Text.strip isQuote (Text.trimChars piece))

theorem bareIds_eq (cs : List Char) :
    bareIds cs = (Text.cut ',' (Text.stripEnd (· == ']') (cs.dropWhile (· == '[')))).map pieceId :=
  rfl

theorem pieceId_spaces (n : ℕ) (piece : List Char) :
    pieceId (List.replicate n ' ' ++ piece) = pieceId piece := by
  unfold pieceId Text.trimChars Text.strip
  rw [List.dropWhile_append_of_pos fun c hc => by rw [List.eq_of_mem_replicate hc]; rfl]

/-- Cutting at the commas gives back the pieces, up to the spaces in front of them. -/
theorem map_cut_spacedItems (gaps : ℕ → ℕ) {piece : List Char} {pieces : List (List Char)}
    (hpiece : ',' ∉ piece) (hpieces : ∀ piece ∈ pieces, ',' ∉ piece) :
    (Text.cut ',' (piece ++ spacedItems gaps pieces)).map pieceId =
      (piece :: pieces).map pieceId := by
  induction pieces generalizing piece gaps with
  | nil => rw [spacedItems, List.append_nil, Text.cut_of_not_mem hpiece]
  | cons next pieces ih =>
    have hnext : ',' ∉ List.replicate (gaps 0) ' ' ++ next := by
      rw [List.mem_append, not_or]
      exact ⟨fun h => absurd (List.eq_of_mem_replicate h) (by decide),
        hpieces next List.mem_cons_self⟩
    have hrest := ih (fun i => gaps (i + 1)) hnext fun other hother =>
      hpieces other (List.mem_cons_of_mem _ hother)
    rw [spacedItems, List.cons_append, Text.cut_append, Text.cut_of_not_mem hpiece,
      List.map_append, hrest]
    simp [pieceId_spaces]

theorem IsPlainId.ne_nil {id : String} (h : IsPlainId id) : id.toList ≠ [] := fun hnil =>
  h.ne_empty (String.toList_eq_nil_iff.1 hnil)

theorem IsPlainId.ne {id : String} (h : IsPlainId id) {c d : Char} (hc : c ∈ id.toList)
    (hd : d ∈ [',', '\'', '"', '[', ']', '\\']) : c ≠ d := by
  rintro rfl
  exact (h.plain c hc).1 hd

/-- There is nothing to take off a plain id. -/
theorem IsPlainId.pieceId_eq {id : String} (h : IsPlainId id) : pieceId id.toList = id := by
  have htrim : Text.trimChars id.toList = id.toList := h.isTrimmed.strip_eq
  have hquotes : Stripped isQuote id.toList := by
    refine Text.stripped_of_forall fun c hc => ?_
    unfold isQuote
    rw [Bool.or_eq_false_iff, beq_eq_false_iff_ne, beq_eq_false_iff_ne]
    exact ⟨h.ne hc (by simp), h.ne hc (by simp)⟩
  unfold pieceId
  rw [htrim, hquotes.strip_eq, String.ofList_toList]

section Bare

variable {ids : List String} (hids : ∀ id ∈ ids, IsPlainId id) (gaps : ℕ → ℕ)
include hids

/-- Without brackets and quotes none come in. -/
theorem ne_of_mem_bare {c d : Char} (hc : c ∈ Style.bare.write gaps ids)
    (hd : d ∈ ['\'', '"', '[', ']', '\\']) : c ≠ d := by
  rcases mem_spaced hc with rfl | rfl | ⟨piece, hpiece, hc⟩
  · rintro rfl
    exact absurd hd (by decide)
  · rintro rfl
    exact absurd hd (by decide)
  · obtain ⟨id, hid, rfl⟩ := List.mem_map.1 hpiece
    exact (hids id hid).ne hc (List.mem_cons_of_mem _ hd)

theorem stripped_bare : Stripped isBlank (Style.bare.write gaps ids) := by
  refine stripped_spaced gaps fun piece hpiece => ?_
  obtain ⟨id, hid, rfl⟩ := List.mem_map.1 hpiece
  exact ⟨(hids id hid).ne_nil, (hids id hid).isTrimmed⟩

theorem withDoubleQuotes_bare :
    withDoubleQuotes (Style.bare.write gaps ids) = Style.bare.write gaps ids := by
  unfold withDoubleQuotes
  conv_rhs => rw [← List.map_id (Style.bare.write gaps ids)]
  exact List.map_congr_left fun c hc => if_neg (ne_of_mem_bare hids gaps hc (by simp))

theorem bareIds_bare (hne : ids ≠ []) : bareIds (Style.bare.write gaps ids) = ids := by
  have hopen : (Style.bare.write gaps ids).dropWhile (· == '[') = Style.bare.write gaps ids := by
    rw [List.dropWhile_eq_self_iff]
    intro hl
    simpa using ne_of_mem_bare hids gaps (List.getElem_mem hl) (d := '[') (by simp)
  have hclose : Text.stripEnd (· == ']') (Style.bare.write gaps ids) = Style.bare.write gaps ids := by
    rw [Text.stripEnd_eq, List.rdropWhile_eq_self_iff]
    intro hl
    simpa using ne_of_mem_bare hids gaps (List.getLast_mem hl) (d := ']') (by simp)
  have hcomma : ∀ id ∈ ids, ',' ∉ id.toList := fun id hid hc => (hids id hid).ne hc (by simp) rfl
  have hread : (ids.map String.toList).map pieceId = ids := by
    rw [List.map_map]
    conv_rhs => rw [← List.map_id ids]
    exact List.map_congr_left fun id hid => (hids id hid).pieceId_eq
  rw [bareIds_eq, hopen, hclose]
  cases ids with
  | nil => exact absurd rfl hne
  | cons id ids =>
    rw [List.forall_mem_cons] at hcomma
    refine (map_cut_spacedItems gaps hcomma.1 fun piece hpiece => ?_).trans hread
    obtain ⟨other, hother, rfl⟩ := List.mem_map.1 hpiece
    exact hcomma.2 other hother

theorem bare_ne_nil (hne : ids ≠ []) : Style.bare.write gaps ids ≠ [] := by
  cases ids with
  | nil => exact absurd rfl hne
  | cons id ids => exact List.append_ne_nil_of_left_ne_nil (hids id List.mem_cons_self).ne_nil _

/-- The text does not start like a list, so it is no JSON text of one. -/
theorem exists_parseStrings_bare (hne : ids ≠ []) :
    ∃ e, Json.parseStrings (String.ofList (Style.bare.write gaps ids)) = .error e := by
  have hblank := (stripped_bare hids gaps).head
  have hopen : ∀ c ∈ Style.bare.write gaps ids, c ≠ '[' := fun c hc =>
    ne_of_mem_bare hids gaps hc (by simp)
  obtain ⟨c, cs, hcs⟩ := List.exists_cons_of_ne_nil (bare_ne_nil hids gaps hne)
  rw [hcs] at hblank hopen ⊢
  have hspace : Json.isSpace c = false := by
    have hc := hblank c rfl
    by_contra hspace
    rw [Bool.not_eq_false, Json.isSpace] at hspace
    simp only [Bool.or_eq_true, beq_iff_eq] at hspace
    rcases hspace with ((rfl | rfl) | rfl) | rfl <;> exact absurd hc (by decide)
  refine ⟨Json.mismatch (c :: cs), ?_⟩
  unfold Json.parseStrings Json.whole Json.stringList Json.skipSpace
  rw [String.toList_ofList, List.dropWhile_cons_of_neg (by simp [hspace])]
  simp only
  rw [if_neg (hopen c List.mem_cons_self)]
  rfl

theorem rawIds_bare (hne : ids ≠ []) : rawIds (Style.bare.write gaps ids) = ids := by
  obtain ⟨e, hfault⟩ := exists_parseStrings_bare hids gaps hne
  unfold rawIds
  rw [withDoubleQuotes_bare hids, hfault]
  exact bareIds_bare hids gaps hne

omit hids in
theorem toLower_ne_bracket {c : Char} (h : c ≠ '[') : c.toLower ≠ '[' := by
  unfold Char.toLower
  split
  · rename_i hupper
    -- the letters from A to Z become the letters from a to z
    have hlow : 65 ≤ c.toNat := UInt32.le_iff_toNat_le.1 hupper.1
    have hhigh : c.toNat ≤ 90 := UInt32.le_iff_toNat_le.1 hupper.2
    intro hc
    have hval : (c.toNat + 32) % 4294967296 = 91 := congrArg Char.toNat hc
    omega
  · exact h

omit hids in
theorem write_bare_singleton (id : String) : Style.bare.write gaps [id] = id.toList :=
  List.append_nil id.toList

/-- A text without brackets says nothing only as one of the three words. -/
theorem saysNothing_bare_iff (hne : ids ≠ []) :
    SaysNothing (Style.bare.write gaps ids) ↔ IsWordForNone ids := by
  constructor
  · rintro (hnil | ⟨mark, hmark, hsame⟩)
    · exact absurd hnil (bare_ne_nil hids gaps hne)
    · have hletters := hsame
      unfold Text.sameIgnoringCase at hletters
      rw [beq_iff_eq, String.toList_ofList] at hletters
      rcases List.mem_cons.1 hmark with rfl | hword
      · have hopen : '[' ∈ (Style.bare.write gaps ids).map Char.toLower := by
          rw [hletters]
          decide
        obtain ⟨c, hc, hbracket⟩ := List.mem_map.1 hopen
        exact absurd hbracket (toLower_ne_bracket (ne_of_mem_bare hids gaps hc (by simp)))
      · cases ids with
        | nil => exact absurd rfl hne
        | cons id ids =>
          cases ids with
          | nil =>
            rw [write_bare_singleton, String.ofList_toList] at hsame
            exact ⟨id, mark, rfl, hword, hsame⟩
          | cons next ids =>
            -- a comma stands between two ids, and in none of the words
            have hcomma : ',' ∈ mark.toList.map Char.toLower := by
              rw [← hletters]
              exact List.mem_map.2 ⟨',', by simp [Style.write, spaced, spacedItems], rfl⟩
            simp only [List.mem_cons, List.not_mem_nil, or_false] at hword
            rcases hword with rfl | rfl | rfl <;> exact absurd hcomma (by decide)
  · rintro ⟨id, word, rfl, hword, hsame⟩
    refine .inr ⟨word, List.mem_cons_of_mem _ hword, ?_⟩
    rwa [write_bare_singleton, String.ofList_toList]

end Bare

/-! ### Any style -/

section Any

variable {ids : List String} (hids : ∀ id ∈ ids, IsPlainId id) (gaps : ℕ → ℕ) (style : Style)
include hids

theorem stripped_write : Stripped isBlank (style.write gaps ids) := by
  cases style with
  | json => exact stripped_brackets _
  | singleQuoted => exact stripped_brackets _
  | bare => exact stripped_bare hids gaps

theorem rawIds_write (hne : ids ≠ []) : rawIds (style.write gaps ids) = ids := by
  cases style with
  | json => exact rawIds_of_parseStrings (parseStrings_json hids gaps)
  | singleQuoted => exact rawIds_singleQuoted hids gaps hne
  | bare => exact rawIds_bare hids gaps hne

theorem saysNothing_write_iff (hne : ids ≠ []) :
    SaysNothing (style.write gaps ids) ↔ style = .bare ∧ IsWordForNone ids := by
  obtain ⟨id, rest, rfl⟩ := List.exists_cons_of_ne_nil hne
  cases style with
  | json =>
    exact iff_of_false (not_saysNothing_brackets (by simp [spaced])) fun h => nomatch h.1
  | singleQuoted =>
    exact iff_of_false (not_saysNothing_brackets (by simp [spaced])) fun h => nomatch h.1
  | bare => rw [saysNothing_bare_iff hids gaps hne, and_iff_right rfl]

end Any

theorem saysNothing_write_nil (gaps : ℕ → ℕ) (style : Style) : SaysNothing (style.write gaps []) := by
  have hbrackets : SaysNothing ['[', ']'] := .inr ⟨"[]", by decide, by decide⟩
  cases style with
  | json => exact hbrackets
  | singleQuoted => exact hbrackets
  | bare => exact .inl rfl

/-- However a list of different plain ids is written, with any spaces behind the commas and any
white space around the whole, the ids are read; but a single id without quotes that is one of the
words for no list is read as none. -/
theorem parse_written (style : Style) {ids : List String} (hnodup : ids.Nodup)
    (hids : ∀ id ∈ ids, IsPlainId id) (gaps : ℕ → ℕ) {before after : List Char}
    (hbefore : ∀ c ∈ before, isBlank c = true) (hafter : ∀ c ∈ after, isBlank c = true) :
    let cell := String.ofList (before ++ style.write gaps ids ++ after)
    (¬ (style = .bare ∧ IsWordForNone ids) → parse cell = ids) ∧
      (style = .bare ∧ IsWordForNone ids → parse cell = []) := by
  intro cell
  obtain ⟨hnothing, hsomething⟩ := parse_surrounded hbefore (stripped_write hids gaps style) hafter
  by_cases hne : ids = []
  · subst hne
    have hnil := hnothing (saysNothing_write_nil gaps style)
    exact ⟨fun _ => hnil, fun _ => hnil⟩
  · rw [saysNothing_write_iff hids gaps style hne] at hnothing hsomething
    rw [rawIds_write hids gaps style hne,
      canonical_eq_self (fun id hid => (hids id hid).isCanonical) hnodup] at hsomething
    exact ⟨hsomething, hnothing⟩

instance (id : String) : Decidable (IsPlainId id) :=
  decidable_of_iff (id ≠ "" ∧ id.toList.head?.any isBlank = false ∧
      id.toList.getLast?.any isBlank = false ∧
        id.toList.all fun c => c ∉ [',', '\'', '"', '[', ']', '\\'] ∧ 0x20 ≤ c.toNat) <| by
    rw [Option.any_eq_false, Option.any_eq_false, List.all_eq_true]
    simp only [decide_eq_true_iff]
    exact ⟨fun h => ⟨h.1, ⟨h.2.1, h.2.2.1⟩, h.2.2.2⟩,
      fun h => ⟨h.ne_empty, h.isTrimmed.head, h.isTrimmed.last, h.plain⟩⟩

/-- Ids that look like words and numbers in single quotes, and one of the words alone. -/
theorem parse_written_lookalikes :
    (["null", "1e5", "São 7"].Nodup ∧ (∀ id ∈ ["null", "1e5", "São 7"], IsPlainId id)) ∧
      parse "\u2003['null',  '1e5','São 7']\t" = ["null", "1e5", "São 7"] ∧
      (IsPlainId "NaN" ∧ IsWordForNone ["NaN"]) ∧ parse "NaN " = [] := by
  have hblank : ∀ c, isBlank c = true → ∀ d ∈ [c], isBlank d = true := fun c hc d hd =>
    List.mem_singleton.1 hd ▸ hc
  have hnodup : ["null", "1e5", "São 7"].Nodup := by decide
  have hids : ∀ id ∈ ["null", "1e5", "São 7"], IsPlainId id := by decide +kernel
  have hplain : ∀ id ∈ ["NaN"], IsPlainId id := by decide +kernel
  have hword : IsWordForNone ["NaN"] := ⟨"NaN", "nan", rfl, by decide, by decide⟩
  have hquoted := (@parse_written .singleQuoted _ hnodup hids (fun i => if i = 0 then 2 else 0)
    ['\u2003'] ['\t'] (hblank _ rfl) (hblank _ rfl)).1 fun h => nomatch h.1
  have hbare := (@parse_written .bare _ (List.nodup_singleton _) hplain (fun _ => 0) [] [' ']
    nofun (hblank _ rfl)).2 ⟨rfl, hword⟩
  exact ⟨⟨hnodup, hids⟩, hquoted, ⟨hplain _ List.mem_cons_self, hword⟩, hbare⟩

end TradeWatch.Relations

/-
The grammar of JSON text, said apart from the readers: blanks, strings with their escapes, lists and
objects with blanks between all their parts. A string that spells a text is read as that text, and a
value of any nesting is passed over, whatever follows it that is no part of a number.
-/
import TradeWatch.Proofs.Json.Remainder
import TradeWatch.Proofs.Json.RoundTrip

namespace TradeWatch.Json

/-! ## Blanks -/

def Blank (cs : List Char) : Prop :=
  ∀ c ∈ cs, isSpace c = true

theorem blank_nil : Blank [] := by
  simp [Blank]

theorem Blank.skipSpace_append {bs : List Char} (h : Blank bs) (cs : List Char) :
    skipSpace (bs ++ cs) = skipSpace cs :=
  List.dropWhile_append_of_pos h

theorem Blank.skipSpace_eq {bs : List Char} (h : Blank bs) : skipSpace bs = [] :=
  List.dropWhile_eq_nil_iff.2 h

/-- Blanks keep what follows them from going on with a number. -/
theorem Blank.endsNumber_append {bs cs : List Char} (h : Blank bs) (hcs : EndsNumber cs) :
    EndsNumber (bs ++ cs) := by
  cases bs with
  | nil => exact hcs
  | cons b bs =>
    have hb : isSpace b = true := h b List.mem_cons_self
    refine endsNumber_cons _ ?_
    unfold isSpace at hb
    simp only [Bool.or_eq_true, beq_iff_eq] at hb
    rcases hb with ((rfl | rfl) | rfl) | rfl <;> decide

theorem Starts.blank_append {bs x : List Char} (hb : Blank bs) (hx : Starts x) (rest : List Char) :
    skipSpace (bs ++ (x ++ rest)) = x ++ rest := by
  rw [hb.skipSpace_append, skipSpace_of_starts hx]

/-! ## Strings -/

/-- Four hexadecimal digits and their value. -/
structure HexCode (ds : List Char) (n : ℕ) : Prop where
  length : ds.length = 4
  isHex : ds.all isHex = true
  value : ds.foldl (fun n c => 16 * n + hexValue c) 0 = n

theorem length_le_utf8Len (cs : List Char) : cs.length ≤ String.utf8Len cs := by
  induction cs with
  | nil => simp
  | cons c cs ih =>
    have hsize := c.utf8Size_pos
    simp only [List.length_cons, String.utf8Len_cons]
    omega

theorem HexCode.hex4_append {ds : List Char} {n : ℕ} (h : HexCode ds n) (rest : List Char) :
    hex4 (ds ++ rest) = .ok (n, rest) := by
  obtain ⟨hlength, hhex, hvalue⟩ := h
  have hsize := length_le_utf8Len ds
  unfold hex4
  simp only [List.take_left' hlength, List.drop_left' hlength, String.utf8ByteSize_ofList, hhex,
    hvalue]
  rw [if_neg (by omega), if_pos trivial]

/-- What stands between two quotes, and the characters it spells. Halves of surrogate pairs stand
together and spell one character. -/
inductive Spells : List Char → List Char → Prop
  | nil : Spells [] []
  | plain {c : Char} {cs chars : List Char} (hquote : c ≠ '"') (hslash : c ≠ '\\')
    (hcontrol : 0x20 ≤ c.toNat) (h : Spells cs chars) : Spells (c :: cs) (c :: chars)
  | short {e c : Char} {cs chars : List Char} (he : shortEscape? e = some c) (h : Spells cs chars) :
    Spells ('\\' :: e :: cs) (c :: chars)
  | code {ds cs chars : List Char} {n : ℕ} (hd : HexCode ds n) (hn : n < 0xD800 ∨ 0xDFFF < n)
    (h : Spells cs chars) : Spells ('\\' :: 'u' :: (ds ++ cs)) (Char.ofNat n :: chars)
  | pair {ds es cs chars : List Char} {n m : ℕ} (hd : HexCode ds n) (he : HexCode es m)
    (hn : 0xD800 ≤ n ∧ n ≤ 0xDBFF) (hm : 0xDC00 ≤ m ∧ m ≤ 0xDFFF) (h : Spells cs chars) :
    Spells ('\\' :: 'u' :: (ds ++ '\\' :: 'u' :: (es ++ cs)))
      (Char.ofNat (0x10000 + (n - 0xD800) * 0x400 + (m - 0xDC00)) :: chars)

theorem codePoint_code {ds rest : List Char} {n : ℕ} (hd : HexCode ds n)
    (hn : n < 0xD800 ∨ 0xDFFF < n) : codePoint (ds ++ rest) = .ok (Char.ofNat n, rest) := by
  unfold codePoint
  rw [hd.hex4_append]
  simp only [Bind.bind, Except.bind]
  rw [if_neg (by omega), if_neg (by omega)]

theorem codePoint_pair {ds es rest : List Char} {n m : ℕ} (hd : HexCode ds n) (he : HexCode es m)
    (hn : 0xD800 ≤ n ∧ n ≤ 0xDBFF) (hm : 0xDC00 ≤ m ∧ m ≤ 0xDFFF) :
    codePoint (ds ++ '\\' :: 'u' :: (es ++ rest)) =
      .ok (Char.ofNat (0x10000 + (n - 0xD800) * 0x400 + (m - 0xDC00)), rest) := by
  unfold codePoint
  rw [hd.hex4_append]
  simp only [Bind.bind, Except.bind]
  rw [if_neg (by omega), if_pos hn]
  simp only [lowerHalf, he.hex4_append, Bind.bind, Except.bind]
  rw [if_pos hm]

theorem Spells.stringChars_append {body chars : List Char} (h : Spells body chars)
    (rest : List Char) {fuel : ℕ} (hf : body.length < fuel) :
    stringChars escape fuel (body ++ '"' :: rest) = .ok (chars, rest) := by
  induction h generalizing fuel with
  | nil =>
    obtain ⟨n, rfl⟩ : ∃ n, fuel = n + 1 := ⟨fuel - 1, by omega⟩
    rfl
  | plain hquote hslash hcontrol _ ih =>
    obtain ⟨n, rfl⟩ : ∃ n, fuel = n + 1 := ⟨fuel - 1, by omega⟩
    refine stringChars_plain hquote hslash (by omega) (ih ?_)
    simpa using hf
  | @short e c cs chars he _ ih =>
    obtain ⟨n, rfl⟩ : ∃ n, fuel = n + 1 := ⟨fuel - 1, by omega⟩
    have hu : e ≠ 'u' := by
      rintro rfl
      cases he
    refine stringChars_escape (escape_short hu he _) (ih ?_)
    simp only [List.length_cons] at hf
    omega
  | @code ds cs chars n hd hn _ ih =>
    obtain ⟨k, rfl⟩ : ∃ k, fuel = k + 1 := ⟨fuel - 1, by omega⟩
    simp only [List.cons_append, List.append_assoc]
    refine stringChars_escape (codePoint_code hd hn) (ih ?_)
    simp only [List.length_cons, List.length_append] at hf
    omega
  | @pair ds es cs chars n m hd he hn hm _ ih =>
    obtain ⟨k, rfl⟩ : ∃ k, fuel = k + 1 := ⟨fuel - 1, by omega⟩
    simp only [List.cons_append, List.append_assoc]
    refine stringChars_escape (codePoint_pair hd he hn hm) (ih ?_)
    simp only [List.length_cons, List.length_append] at hf
    omega

/-- A string is read as what it spells. -/
theorem Spells.string_append {body chars : List Char} (h : Spells body chars) (rest : List Char) :
    string (body ++ '"' :: rest) = .ok (String.ofList chars, rest) := by
  unfold string
  rw [h.stringChars_append rest (by rw [List.length_append]; omega)]
  rfl

/-- A text that needs no escapes spells itself. -/
theorem spells_self {cs : List Char} (h : ∀ c ∈ cs, c ≠ '"' ∧ c ≠ '\\' ∧ 0x20 ≤ c.toNat) :
    Spells cs cs := by
  induction cs with
  | nil => exact .nil
  | cons c cs ih =>
    obtain ⟨hquote, hslash, hcontrol⟩ := h c List.mem_cons_self
    exact .plain hquote hslash hcontrol (ih fun d hd => h d (List.mem_cons_of_mem _ hd))

/-- What stands between two quotes, whether or not its escapes pair up. -/
inductive Quotable : List Char → Prop
  | nil : Quotable []
  | plain {c : Char} {cs : List Char} (hquote : c ≠ '"') (hslash : c ≠ '\\')
    (hcontrol : 0x20 ≤ c.toNat) (h : Quotable cs) : Quotable (c :: cs)
  | short {e c : Char} {cs : List Char} (he : shortEscape? e = some c) (h : Quotable cs) :
    Quotable ('\\' :: e :: cs)
  | code {ds cs : List Char} {n : ℕ} (hd : HexCode ds n) (h : Quotable cs) :
    Quotable ('\\' :: 'u' :: (ds ++ cs))

theorem Quotable.stringChars_append {body : List Char} (h : Quotable body) (rest : List Char)
    {fuel : ℕ} (hf : body.length < fuel) :
    ∃ chars, stringChars skipEscape fuel (body ++ '"' :: rest) = .ok (chars, rest) := by
  induction h generalizing fuel with
  | nil =>
    obtain ⟨n, rfl⟩ : ∃ n, fuel = n + 1 := ⟨fuel - 1, by omega⟩
    exact ⟨[], rfl⟩
  | plain hquote hslash hcontrol _ ih =>
    obtain ⟨n, rfl⟩ : ∃ n, fuel = n + 1 := ⟨fuel - 1, by omega⟩
    obtain ⟨chars, hchars⟩ := @ih n (by simpa using hf)
    exact ⟨_, stringChars_plain hquote hslash (by omega) hchars⟩
  | @short e c cs he _ ih =>
    obtain ⟨n, rfl⟩ : ∃ n, fuel = n + 1 := ⟨fuel - 1, by omega⟩
    simp only [List.length_cons] at hf
    obtain ⟨chars, hchars⟩ := @ih n (by omega)
    have hskip : skipEscape (e :: (cs ++ '"' :: rest)) = .ok (e, cs ++ '"' :: rest) := by
      have hu : e ≠ 'u' := by
        rintro rfl
        cases he
      simp [skipEscape, hu, he]
    exact ⟨_, stringChars_escape hskip hchars⟩
  | @code ds cs n hd _ ih =>
    obtain ⟨k, rfl⟩ : ∃ k, fuel = k + 1 := ⟨fuel - 1, by omega⟩
    simp only [List.length_cons, List.length_append] at hf
    obtain ⟨chars, hchars⟩ := @ih k (by omega)
    have hskip : skipEscape ('u' :: (ds ++ (cs ++ '"' :: rest))) =
        .ok ('u', cs ++ '"' :: rest) := by
      simp [skipEscape, hd.hex4_append, Bind.bind, Except.bind]
    simp only [List.cons_append, List.append_assoc]
    exact ⟨_, stringChars_escape hskip hchars⟩

theorem Quotable.skipString_append {body : List Char} (h : Quotable body) (rest : List Char) :
    skipString (body ++ '"' :: rest) = .ok ((), rest) := by
  have hfuel : body.length < (body ++ '"' :: rest).length + 1 := by
    rw [List.length_append]
    omega
  obtain ⟨chars, hchars⟩ := h.stringChars_append rest hfuel
  unfold skipString
  rw [hchars]
  rfl

/-! ## Lists and objects -/

/-- What stands in front of an item: blanks, and between them a comma unless it is the first one. -/
inductive Gap : Bool → List Char → Prop
  | first {bs : List Char} (hb : Blank bs) : Gap true bs
  | comma {bs cs : List Char} (hb : Blank bs) (hc : Blank cs) : Gap false (bs ++ ',' :: cs)

/-- The text of some items up to the character that closes them. -/
inductive Listed (close : Char) : Bool → List (List Char) → List Char → Prop
  | close {first : Bool} {bs : List Char} (hb : Blank bs) : Listed close first [] (bs ++ [close])
  | item {first : Bool} {gap x cs : List Char} {xs : List (List Char)} (hgap : Gap first gap)
    (hrest : Listed close false xs cs) : Listed close first (x :: xs) (gap ++ (x ++ cs))

/-- A member of an object, with the blanks around its colon. -/
structure Member where
  key : List Char
  beforeColon : List Char
  behindColon : List Char
  value : List Char
  blank_before : Blank beforeColon
  blank_behind : Blank behindColon

def Member.text (m : Member) : List Char :=
  '"' :: (m.key ++ '"' :: (m.beforeColon ++ ':' :: (m.behindColon ++ m.value)))

section Items

variable {close : Char} {first : Bool} {bs gap x cs rest : List Char} {xs : List (List Char)}

theorem Blank.nextElement_append (h : Blank bs) (first : Bool) (cs : List Char) :
    nextElement first (bs ++ cs) = nextElement first cs := by
  unfold nextElement
  rw [h.skipSpace_append]

theorem Blank.nextMember_append (h : Blank bs) (first : Bool) (cs : List Char) :
    nextMember first (bs ++ cs) = nextMember first cs := by
  unfold nextMember
  rw [h.skipSpace_append]

theorem Gap.nextElement_append (h : Gap first gap) (hx : Starts x) (rest : List Char) :
    nextElement first (gap ++ (x ++ rest)) = .ok (.more (x ++ rest)) := by
  cases h with
  | first hb => rw [hb.nextElement_append, nextElement_first hx]
  | @comma bs cs hb hc =>
    have hcomma : nextElement false (',' :: (cs ++ (x ++ rest))) =
        nextElement false (',' :: (x ++ rest)) := by
      have hskip : ∀ ds : List Char, skipSpace (',' :: ds) = ',' :: ds := fun _ => rfl
      unfold nextElement
      simp only [hskip, hc.skipSpace_append]
      rfl
    rw [List.append_assoc, List.cons_append, hb.nextElement_append, hcomma, nextElement_comma hx]

theorem Gap.nextMember_append (h : Gap first gap) (rest : List Char) :
    nextMember first (gap ++ '"' :: rest) = .ok (.more rest) := by
  cases h with
  | first hb =>
    rw [hb.nextMember_append]
    rfl
  | @comma bs cs hb hc =>
    have hcomma : nextMember false (',' :: (cs ++ '"' :: rest)) =
        nextMember false (',' :: '"' :: rest) := by
      have hskip : ∀ ds : List Char, skipSpace (',' :: ds) = ',' :: ds := fun _ => rfl
      unfold nextMember
      simp only [hskip, hc.skipSpace_append]
      rfl
    rw [List.append_assoc, List.cons_append, hb.nextMember_append, hcomma, nextMember_comma]

/-- Behind an item stands no further part of a number. -/
theorem Listed.endsNumber_append (h : Listed close false xs cs)
    (hclose : close = ']' ∨ close = '\x7d') (rest : List Char) : EndsNumber (cs ++ rest) := by
  cases h with
  | close hb =>
    rw [List.append_assoc]
    refine hb.endsNumber_append (endsNumber_cons _ ?_)
    rcases hclose with rfl | rfl <;> decide
  | item hgap _ =>
    cases hgap with
    | comma hb hc =>
      simp only [List.append_assoc, List.cons_append]
      exact hb.endsNumber_append (endsNumber_cons _ (by decide))

/-- The text is longer than each item, and than their number. -/
theorem Listed.length_lt (h : Listed close first xs cs) (hne : ∀ x ∈ xs, x ≠ []) :
    xs.length < cs.length ∧ ∀ x ∈ xs, x.length < cs.length := by
  induction h with
  | close hb => simp
  | @item first gap x cs xs hgap hrest ih =>
    obtain ⟨hcount, hitems⟩ := ih fun y hy => hne y (List.mem_cons_of_mem _ hy)
    have hx := List.length_pos_iff.2 (hne x List.mem_cons_self)
    simp only [List.length_append, List.length_cons]
    refine ⟨by omega, fun y hy => ?_⟩
    rcases List.mem_cons.1 hy with rfl | hy
    · omega
    · have hlength := hitems y hy
      omega

theorem colon_append (m : Member) (rest : List Char) :
    colon (m.beforeColon ++ ':' :: rest) = .ok ((), rest) := by
  unfold colon
  rw [m.blank_before.skipSpace_append]
  rfl

end Items

/-- A list is read if each of its items is. -/
theorem Listed.exists_elements {α : Type} {read : Reader α} {first : Bool}
    {items : List (List Char)} {cs : List Char} (h : Listed ']' first items cs)
    (hitems : ∀ x ∈ items, Starts x ∧
      ∀ rest, EndsNumber rest → ∃ y, read (x ++ rest) = .ok (y, rest))
    {fuel : ℕ} (hf : items.length < fuel) (rest : List Char) :
    ∃ ys, elements read fuel first (cs ++ rest) = .ok (ys, rest) := by
  induction h generalizing fuel with
  | @close first bs hb =>
    obtain ⟨n, rfl⟩ : ∃ n, fuel = n + 1 := ⟨fuel - 1, by omega⟩
    have hclose : nextElement first (bs ++ [']'] ++ rest) = .ok (.close rest) := by
      rw [List.append_assoc, hb.nextElement_append]
      rfl
    refine ⟨[], ?_⟩
    rw [elements, hclose]
    rfl
  | @item first gap x cs xs hgap hrest ih =>
    obtain ⟨n, rfl⟩ : ∃ n, fuel = n + 1 := ⟨fuel - 1, by omega⟩
    obtain ⟨hstarts, hread⟩ := hitems x List.mem_cons_self
    obtain ⟨y, hy⟩ := hread _ (hrest.endsNumber_append (.inl rfl) rest)
    obtain ⟨ys, hys⟩ := @ih (fun z hz => hitems z (List.mem_cons_of_mem _ hz)) n (by simpa using hf)
    refine ⟨y :: ys, ?_⟩
    rw [List.append_assoc, List.append_assoc, elements, hgap.nextElement_append hstarts]
    simp only [Bind.bind, Except.bind, hy, hys]

/-- An object is read if each of its keys and values is. -/
theorem Listed.exists_members {κ α : Type} {key : Reader κ} {value : Reader α} {ms : List Member}
    (hkeys : ∀ m ∈ ms, ∀ rest, ∃ k, key (m.key ++ '"' :: rest) = .ok (k, rest))
    (hvalues : ∀ m ∈ ms, ∀ rest, EndsNumber rest →
      ∃ y, value (m.behindColon ++ (m.value ++ rest)) = .ok (y, rest))
    {first : Bool} {cs : List Char} (h : Listed '\x7d' first (ms.map Member.text) cs)
    {fuel : ℕ} (hf : ms.length < fuel) (rest : List Char) :
    ∃ ys, members key value fuel first (cs ++ rest) = .ok (ys, rest) := by
  induction ms generalizing first cs fuel with
  | nil =>
    obtain ⟨n, rfl⟩ : ∃ n, fuel = n + 1 := ⟨fuel - 1, by omega⟩
    cases h with
    | @close _ bs hb =>
      have hclose : nextMember first (bs ++ ['\x7d'] ++ rest) = .ok (.close rest) := by
        rw [List.append_assoc, hb.nextMember_append]
        rfl
      refine ⟨[], ?_⟩
      rw [members, hclose]
      rfl
  | cons m ms ih =>
    obtain ⟨n, rfl⟩ : ∃ n, fuel = n + 1 := ⟨fuel - 1, by omega⟩
    cases h with
    | @item _ gap _ cs _ hgap hrest =>
      obtain ⟨k, hk⟩ := hkeys m List.mem_cons_self
        (m.beforeColon ++ ':' :: (m.behindColon ++ (m.value ++ (cs ++ rest))))
      obtain ⟨y, hy⟩ := hvalues m List.mem_cons_self _ (hrest.endsNumber_append (.inr rfl) rest)
      obtain ⟨ys, hys⟩ := @ih (fun o ho => hkeys o (List.mem_cons_of_mem _ ho))
        (fun o ho => hvalues o (List.mem_cons_of_mem _ ho)) _ _ hrest n (by simpa using hf)
      refine ⟨(k, y) :: ys, ?_⟩
      simp only [Member.text, List.append_assoc, List.cons_append]
      rw [members, hgap.nextMember_append]
      simp only [Bind.bind, Except.bind, hk, colon_append, hy, hys]

/-- All of a text is these items between two brackets, among blanks. -/
def Encloses (opening closing : Char) (items : List (List Char)) (text : String) : Prop :=
  ∃ front cs back, Blank front ∧ Blank back ∧ Listed closing true items cs ∧
    text.toList = front ++ opening :: (cs ++ back)

theorem exists_listed (close : Char) (first : Bool) (xs : List (List Char)) :
    ∃ cs, Listed close first xs cs := by
  induction xs generalizing first with
  | nil => exact ⟨_, .close blank_nil⟩
  | cons x xs ih =>
    obtain ⟨cs, hcs⟩ := ih false
    cases first with
    | true => exact ⟨_, .item (.first blank_nil) hcs⟩
    | false => exact ⟨_, .item (.comma blank_nil blank_nil) hcs⟩

theorem exists_encloses (opening closing : Char) (items : List (List Char)) :
    ∃ text, Encloses opening closing items text := by
  obtain ⟨cs, hcs⟩ := exists_listed closing true items
  refine ⟨String.ofList (opening :: cs), [], cs, [], blank_nil, blank_nil, hcs, ?_⟩
  rw [String.toList_ofList, List.append_nil, List.nil_append]

/-! ## Values -/

/-- A value of any nesting. Neither the range of a number nor the pairing of escapes counts. -/
inductive IsValue : List Char → Prop
  | null : IsValue ['n', 'u', 'l', 'l']
  | bool (b : Bool) : IsValue (if b then ['t', 'r', 'u', 'e'] else ['f', 'a', 'l', 's', 'e'])
  | number {cs : List Char} {d : Decimal.Scientific} (negative : Bool) (h : Numeral cs d) :
    IsValue (sign negative ++ cs)
  | string {cs : List Char} (h : Quotable cs) : IsValue ('"' :: (cs ++ ['"']))
  | list {items : List (List Char)} {cs : List Char} (hitems : ∀ x ∈ items, IsValue x)
    (hcs : Listed ']' true items cs) : IsValue ('[' :: cs)
  | object {ms : List Member} {cs : List Char} (hkeys : ∀ m ∈ ms, Quotable m.key)
    (hvalues : ∀ m ∈ ms, IsValue m.value) (hcs : Listed '\x7d' true (ms.map Member.text) cs) :
    IsValue ('\x7b' :: cs)

theorem Numeral.starts {cs : List Char} {d : Decimal.Scientific} (h : Numeral cs d)
    (negative : Bool) :
    ∃ c ds, sign negative ++ cs = c :: ds ∧ (c = '-' ∨ c.isDigit = true) :=
  starts_sign h.exists_eq_cons

theorem IsValue.starts {x : List Char} (h : IsValue x) : Starts x := by
  cases h with
  | null => exact ⟨_, _, rfl, rfl, by decide⟩
  | bool b => cases b <;> exact ⟨_, _, rfl, rfl, by decide⟩
  | number negative h => exact starts_of_number (h.starts negative)
  | string h => exact ⟨_, _, rfl, rfl, by decide⟩
  | list hitems hcs => exact ⟨_, _, rfl, rfl, by decide⟩
  | object hkeys hvalues hcs => exact ⟨_, _, rfl, rfl, by decide⟩

theorem Starts.ne_nil {x : List Char} (h : Starts x) : x ≠ [] := by
  obtain ⟨c, ds, rfl, -⟩ := h
  exact List.cons_ne_nil _ _

theorem skipNumber_append {cs rest : List Char} {d : Decimal.Scientific} (h : Numeral cs d)
    (negative : Bool) (hr : EndsNumber rest) :
    skipNumber (sign negative ++ cs ++ rest) = .ok ((), rest) := by
  obtain ⟨p, -, -, -, hparts⟩ := h.exists_parts negative
  unfold skipNumber
  refine (match_sign (fun negative cs => numberParts .malformed negative cs >>= fun parts =>
    .ok ((), parts.2)) negative h.exists_eq_cons rest).trans ?_
  rw [hparts _ hr]
  rfl

theorem Blank.skipNested_append {bs : List Char} (h : Blank bs) (fuel : ℕ) (cs : List Char) :
    skipNested fuel (bs ++ cs) = skipNested fuel cs := by
  cases fuel with
  | zero => rfl
  | succ fuel =>
    unfold skipNested
    rw [h.skipSpace_append]

/-- Whatever starts like a number is passed over as one. -/
theorem skipNested_number (fuel : ℕ) {cs : List Char} (rest : List Char)
    (h : ∃ c ds, cs = c :: ds ∧ (c = '-' ∨ c.isDigit = true)) :
    skipNested (fuel + 1) (cs ++ rest) = skipNumber (cs ++ rest) := by
  have hskip := skipSpace_of_starts (starts_of_number h) rest
  obtain ⟨c, ds, rfl, hc⟩ := h
  have hne := ne_of_startsNumber hc
  unfold skipNested
  rw [hskip]
  simp only [List.cons_append]
  -- a literal and a string start with something else
  rw [if_neg (hne _ (by decide) (by decide)), if_neg (hne _ (by decide) (by decide)),
    if_neg (hne _ (by decide) (by decide)), if_neg (hne _ (by decide) (by decide)), if_pos hc]

/-- With fuel for each character a value is passed over. -/
theorem IsValue.skipNested_append {x : List Char} (h : IsValue x) {fuel : ℕ} {rest : List Char}
    (hf : x.length < fuel) (hr : EndsNumber rest) :
    skipNested fuel (x ++ rest) = .ok ((), rest) := by
  induction h generalizing fuel rest with
  | null =>
    obtain ⟨n, rfl⟩ : ∃ n, fuel = n + 1 := ⟨fuel - 1, by omega⟩
    rfl
  | bool b =>
    obtain ⟨n, rfl⟩ : ∃ n, fuel = n + 1 := ⟨fuel - 1, by omega⟩
    cases b <;> rfl
  | number negative h =>
    obtain ⟨n, rfl⟩ : ∃ n, fuel = n + 1 := ⟨fuel - 1, by omega⟩
    rw [skipNested_number n rest (h.starts negative)]
    exact skipNumber_append h negative hr
  | @string cs h =>
    obtain ⟨n, rfl⟩ : ∃ n, fuel = n + 1 := ⟨fuel - 1, by omega⟩
    have hskip := h.skipString_append rest
    rw [List.cons_append, List.append_assoc]
    exact hskip
  | @list items cs hitems hcs ih =>
    obtain ⟨n, rfl⟩ : ∃ n, fuel = n + 1 := ⟨fuel - 1, by omega⟩
    obtain ⟨hcount, hlength⟩ := hcs.length_lt fun x hx => (hitems x hx).starts.ne_nil
    rw [List.length_cons] at hf
    have hread : ∀ x ∈ items, Starts x ∧
        ∀ rest, EndsNumber rest → ∃ u, skipNested n (x ++ rest) = .ok (u, rest) := by
      intro x hx
      have hx' := hlength x hx
      exact ⟨(hitems x hx).starts, fun rest hr => ⟨(), ih x hx (by omega) hr⟩⟩
    obtain ⟨us, hus⟩ := hcs.exists_elements hread (show items.length < n by omega) rest
    show (elements (skipNested n) n true (cs ++ rest) >>= _) = _
    rw [hus]
    rfl
  | @object ms cs hkeys hvalues hcs ih =>
    obtain ⟨n, rfl⟩ : ∃ n, fuel = n + 1 := ⟨fuel - 1, by omega⟩
    obtain ⟨hcount, hlength⟩ := hcs.length_lt fun x hx => by
      obtain ⟨m, -, rfl⟩ := List.mem_map.1 hx
      exact List.cons_ne_nil _ _
    rw [List.length_cons] at hf
    rw [List.length_map] at hcount
    have hkey : ∀ m ∈ ms, ∀ rest, ∃ u, skipString (m.key ++ '"' :: rest) = .ok (u, rest) :=
      fun m hm rest => ⟨(), (hkeys m hm).skipString_append rest⟩
    have hvalue : ∀ m ∈ ms, ∀ rest, EndsNumber rest →
        ∃ u, skipNested n (m.behindColon ++ (m.value ++ rest)) = .ok (u, rest) := by
      intro m hm rest hr
      have hm' := hlength _ (List.mem_map_of_mem hm)
      simp only [Member.text, List.length_cons, List.length_append] at hm'
      rw [m.blank_behind.skipNested_append]
      exact ⟨(), ih m hm (by omega) hr⟩
    obtain ⟨us, hus⟩ := hcs.exists_members hkey hvalue (show ms.length < n by omega) rest
    show (members skipString (skipNested n) n true (cs ++ rest) >>= _) = _
    rw [hus]
    rfl

/-- A value is passed over, with the blanks in front of it. -/
theorem IsValue.skip_append {bs x rest : List Char} (h : IsValue x) (hb : Blank bs)
    (hr : EndsNumber rest) : skip (bs ++ (x ++ rest)) = .ok ((), rest) := by
  unfold skip
  rw [hb.skipNested_append]
  refine h.skipNested_append ?_ hr
  simp only [List.length_append]
  omega

/-! ## Values of a given type -/

section Typed

variable {bs cs x rest left : List Char} {d : Decimal.Scientific} {n : ℕ}

theorem numberValue_append (hb : Blank bs)
    (h : ∃ c ds, cs = c :: ds ∧ (c = '-' ∨ c.isDigit = true)) (rest : List Char) :
    numberValue (bs ++ (cs ++ rest)) = number (cs ++ rest) := by
  have hskip := (starts_of_number h).blank_append hb rest
  obtain ⟨c, ds, rfl, hc⟩ := h
  unfold numberValue
  rw [hskip]
  exact if_pos hc

/-- Every way to write a number gives the double nearest to it. -/
theorem Numeral.double_append (h : Numeral cs d) {negative : Bool}
    (hfinite : (Decimal.ofScientific negative d).isInf = false) (hb : Blank bs)
    (hr : EndsNumber rest) :
    double (bs ++ (sign negative ++ cs ++ rest)) = .ok (Decimal.ofScientific negative d, rest) := by
  obtain ⟨p, rfl, rfl, hint, hparts⟩ := h.exists_parts negative
  have hnumber : ∀ {v : Json}, p.value = .ok v →
      numberValue (bs ++ (sign p.negative ++ cs ++ rest)) = .ok (v, rest) := fun hv => by
    rw [numberValue_append hb (h.starts _)]
    exact number_of_parts _ h.exists_eq_cons (hparts _ hr) hv
  unfold double
  rcases NumberParts.value_cases hint hfinite with ⟨n, hv, hn⟩ | hv
  · rw [hnumber hv, ← hn]
    rfl
  · rw [hnumber hv]
    rfl

theorem integer_append {range : Int → Bool} {n : ℤ} (hrange : range n = true)
    (hn : -(signedEnd : ℤ) ≤ n ∧ n < words64) (hb : Blank bs) (hr : EndsNumber rest) :
    integer range (bs ++ ((Text.intDigits n).toList ++ rest)) = .ok (n, rest) := by
  have hstart : ∃ c ds, (Text.intDigits n).toList = c :: ds ∧ (c = '-' ∨ c.isDigit = true) :=
    starts_int n
  unfold integer
  rw [numberValue_append hb hstart, number_int hn hr]
  simp [Bind.bind, Except.bind, hrange]

theorem signed_append {n : ℤ} (hn : isSigned64 n = true) (hb : Blank bs) (hr : EndsNumber rest) :
    signed (bs ++ ((Text.intDigits n).toList ++ rest)) = .ok (n, rest) := by
  have hbounds := of_decide_eq_true hn
  refine integer_append hn ⟨hbounds.1, ?_⟩ hb hr
  have hless : signedEnd < words64 := by decide
  omega

theorem toList_intDigits_natCast (n : ℕ) : (Text.intDigits n).toList = Text.digitsOf n := by
  rw [toList_intDigits]
  simp [sign]

theorem unsigned_append (hn : n < words64) (hb : Blank bs) (hr : EndsNumber rest) :
    unsigned (bs ++ (Text.digitsOf n ++ rest)) = .ok (n, rest) := by
  have hrange : isUnsigned64 n = true := decide_eq_true ⟨by omega, by exact_mod_cast hn⟩
  unfold unsigned
  rw [← toList_intDigits_natCast, integer_append hrange (by omega) hb hr]
  rfl

theorem optional_append {α : Type} {read : Reader α} {v : α}
    (hstart : ∃ c ds, cs = c :: ds ∧ (c = '-' ∨ c.isDigit = true)) (hb : Blank bs)
    (hread : read (cs ++ rest) = .ok (v, rest)) :
    optional read (bs ++ (cs ++ rest)) = .ok (some v, rest) := by
  have hskip := (starts_of_number hstart).blank_append hb rest
  obtain ⟨c, ds, rfl, hc⟩ := hstart
  have hne : c ≠ 'n' := ne_of_startsNumber hc _ (by decide) (by decide)
  unfold optional
  rw [hskip]
  split
  · rename_i heq
    exact absurd (List.cons.inj heq).1 hne
  · rw [hread]
    rfl

/-- Whoever reads a value of some type stops behind it. -/
theorem IsValue.rest_of_read {α : Type} {read : Reader α} (hread : EndsAsSkipped read) {v : α}
    (h : IsValue x) (hb : Blank bs) (hr : EndsNumber rest)
    (hv : read (bs ++ (x ++ rest)) = .ok (v, left)) : left = rest := by
  have hskip := h.skip_append hb hr
  unfold skip at hskip
  rw [hread hv] at hskip
  exact rest_eq hskip

end Typed

end TradeWatch.Json

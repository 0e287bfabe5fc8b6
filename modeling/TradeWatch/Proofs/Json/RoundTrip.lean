/-
JSON values and their text. The text of a value without blanks is read as that value: the escapes
of a string are undone, numbers keep every bit, and lists and objects come back as long as their
nesting stays within the depth of the reader.
-/
import TradeWatch.Json.Reader
import TradeWatch.Proofs.Dict
import TradeWatch.Proofs.Json.Number

namespace TradeWatch.Json

/-! ## Strings -/

/-- The four digits of a control character. -/
theorem hex4_control {n : ℕ} (h : n < 32) (rest : List Char) :
    hex4 ('0' :: '0' :: Nat.digitChar (n / 16) :: Nat.digitChar (n % 16) :: rest) =
      .ok (n, rest) := by
  interval_cases n <;> rfl

theorem codePoint_control {c : Char} (h : c.toNat < 32) (rest : List Char) :
    codePoint ('0' :: '0' :: Nat.digitChar (c.toNat / 16) :: Nat.digitChar (c.toNat % 16) :: rest) =
      .ok (c, rest) := by
  unfold codePoint
  rw [hex4_control h]
  simp only [Bind.bind, Except.bind]
  -- a control character is neither half of a surrogate pair
  rw [if_neg (by omega), if_neg (by omega), Char.ofNat_toNat]

section StringChars

variable {escaped : Reader Char} {c : Char} {es rest chars tail : List Char} {fuel : ℕ}

theorem stringChars_escape (he : escaped es = .ok (c, rest))
    (h : stringChars escaped fuel rest = .ok (chars, tail)) :
    stringChars escaped (fuel + 1) ('\\' :: es) = .ok (c :: chars, tail) := by
  simp only [stringChars, he, h, Bind.bind, Except.bind]
  rfl

theorem stringChars_plain (hquote : c ≠ '"') (hslash : c ≠ '\\') (hcontrol : ¬ c.toNat < 0x20)
    (h : stringChars escaped fuel rest = .ok (chars, tail)) :
    stringChars escaped (fuel + 1) (c :: rest) = .ok (c :: chars, tail) := by
  simp only [stringChars, h, Bind.bind, Except.bind]
  rw [if_neg hquote, if_neg hslash, if_neg hcontrol]

end StringChars

theorem escape_short {c e : Char} (hu : e ≠ 'u') (he : shortEscape? e = some c) (rest : List Char) :
    escape (e :: rest) = .ok (c, rest) := by
  simp only [escape, he]
  rw [if_neg hu]

/-- What an escaped character adds to a string is that character. -/
theorem stringChars_escapeChar (c : Char) {rest chars tail : List Char} {fuel : ℕ}
    (h : stringChars escape fuel rest = .ok (chars, tail)) :
    stringChars escape (fuel + 1) (escapeChar c ++ rest) = .ok (c :: chars, tail) := by
  unfold escapeChar
  split_ifs with h1 h2 h3 h4 h5 h6 h7 h8
  · subst h1; exact stringChars_escape (escape_short (by decide) rfl rest) h
  · subst h2; exact stringChars_escape (escape_short (by decide) rfl rest) h
  · subst h3; exact stringChars_escape (escape_short (by decide) rfl rest) h
  · subst h4; exact stringChars_escape (escape_short (by decide) rfl rest) h
  · subst h5; exact stringChars_escape (escape_short (by decide) rfl rest) h
  · subst h6; exact stringChars_escape (escape_short (by decide) rfl rest) h
  · subst h7; exact stringChars_escape (escape_short (by decide) rfl rest) h
  · exact stringChars_escape (codePoint_control h8 rest) h
  · exact stringChars_plain h1 h2 h8 h

theorem escapeChar_ne_nil (c : Char) : escapeChar c ≠ [] := by
  unfold escapeChar
  split_ifs <;> simp

/-- A string is read up to its closing quote. -/
theorem stringChars_flatMap (cs rest : List Char) {fuel : ℕ} (h : cs.length < fuel) :
    stringChars escape fuel (cs.flatMap escapeChar ++ '"' :: rest) = .ok (cs, rest) := by
  induction cs generalizing fuel with
  | nil =>
    obtain ⟨n, rfl⟩ : ∃ n, fuel = n + 1 := ⟨fuel - 1, by omega⟩
    rfl
  | cons c cs ih =>
    obtain ⟨n, rfl⟩ : ∃ n, fuel = n + 1 := ⟨fuel - 1, by omega⟩
    rw [List.flatMap_cons, List.append_assoc]
    exact stringChars_escapeChar c (ih (by simpa using h))

theorem length_le_length_flatMap (cs : List Char) :
    cs.length ≤ (cs.flatMap escapeChar).length := by
  induction cs with
  | nil => simp
  | cons c cs ih =>
    have := List.length_pos_iff.2 (escapeChar_ne_nil c)
    rw [List.flatMap_cons, List.length_append, List.length_cons]
    omega

/-- The quoted form of a text is read as the text, after the quote that opens it. -/
theorem string_quoteChars (s : String) (rest : List Char) :
    ∃ cs, quoteChars s ++ rest = '"' :: cs ∧ string cs = .ok (s, rest) := by
  refine ⟨s.toList.flatMap escapeChar ++ '"' :: rest, by simp [quoteChars], ?_⟩
  have hlen := length_le_length_flatMap s.toList
  unfold string
  rw [stringChars_flatMap s.toList rest (by rw [List.length_append]; omega)]
  simp [Bind.bind, Except.bind]

/-! ## Values -/

/-- A value with at most `depth` lists and objects inside one another. Its integers have 64 bits,
its doubles are finite, and the keys of its objects ascend strictly. -/
inductive Nested : ℕ → Json → Prop
  | null (depth : ℕ) : Nested depth .null
  | bool (depth : ℕ) (b : Bool) : Nested depth (.bool b)
  | int (depth : ℕ) {n : ℤ} (h : -(signedEnd : ℤ) ≤ n ∧ n < words64) : Nested depth (.int n)
  | float (depth : ℕ) {x : Float} (h : x.isFinite = true) : Nested depth (.float x)
  | str (depth : ℕ) (s : String) : Nested depth (.str s)
  | arr {depth : ℕ} {items : List Json} (h : ∀ x ∈ items, Nested depth x) :
    Nested (depth + 1) (.arr items)
  | obj {depth : ℕ} {members : List (String × Json)}
    (hk : Dict.Sorted members) (h : ∀ m ∈ members, Nested depth m.2) :
    Nested (depth + 1) (.obj members)

/-- The text starts with something that is neither a blank nor a closing bracket. -/
def Starts (cs : List Char) : Prop :=
  ∃ c ds, cs = c :: ds ∧ isSpace c = false ∧ c ≠ ']'

theorem skipSpace_of_starts {cs : List Char} (h : Starts cs) (rest : List Char) :
    skipSpace (cs ++ rest) = cs ++ rest := by
  obtain ⟨c, ds, rfl, hc, -⟩ := h
  unfold skipSpace
  rw [List.cons_append, List.dropWhile_cons_of_neg (by simp [hc])]

/-- A number starts with a sign or a digit. -/
theorem starts_sign {negative : Bool} {cs : List Char}
    (h : ∃ c rest, cs = c :: rest ∧ c.isDigit = true) :
    ∃ c rest, sign negative ++ cs = c :: rest ∧ (c = '-' ∨ c.isDigit = true) := by
  obtain ⟨c, rest, rfl, hc⟩ := h
  cases negative
  · exact ⟨c, rest, rfl, .inr hc⟩
  · exact ⟨'-', c :: rest, rfl, .inl rfl⟩

theorem starts_int (n : ℤ) :
    ∃ c rest, chars (.int n) = c :: rest ∧ (c = '-' ∨ c.isDigit = true) := by
  unfold chars
  rw [toList_intDigits]
  exact starts_sign (Whole.ofNat _).exists_eq_cons

theorem starts_float {x : Float} (h : x.isFinite = true) :
    ∃ c rest, chars (.float x) = c :: rest ∧ (c = '-' ∨ c.isDigit = true) := by
  unfold chars
  rw [toList_write h]
  exact starts_sign (writes_writeChars _).starts

theorem starts_of_number {cs : List Char}
    (h : ∃ c rest, cs = c :: rest ∧ (c = '-' ∨ c.isDigit = true)) : Starts cs := by
  obtain ⟨c, rest, rfl, hc⟩ := h
  refine ⟨c, rest, rfl, ?_, ?_⟩
  · rcases hc with rfl | hc
    · rfl
    · -- no blank is a digit
      by_contra hs
      rw [Bool.not_eq_false, isSpace] at hs
      simp only [Bool.or_eq_true, beq_iff_eq] at hs
      rcases hs with ((rfl | rfl) | rfl) | rfl <;> exact absurd hc (by decide)
  · rintro rfl
    rcases hc with hc | hc <;> exact absurd hc (by decide)

theorem Nested.starts {depth : ℕ} {j : Json} (h : Nested depth j) : Starts (chars j) := by
  cases h with
  | null => exact ⟨_, _, rfl, rfl, by decide⟩
  | bool _ b => cases b <;> exact ⟨_, _, rfl, rfl, by decide⟩
  | int _ h => exact starts_of_number (starts_int _)
  | float _ h => exact starts_of_number (starts_float h)
  | str _ s => exact ⟨_, _, rfl, rfl, by decide⟩
  | @arr _ items h => cases items <;> exact ⟨_, _, rfl, rfl, by decide⟩
  | @obj _ members hk h => cases members <;> exact ⟨_, _, rfl, rfl, by decide⟩

/-- Whatever starts like a number is read as one. -/
theorem value_number (depth : ℕ) {cs : List Char} (rest : List Char)
    (h : ∃ c ds, cs = c :: ds ∧ (c = '-' ∨ c.isDigit = true)) :
    value depth (cs ++ rest) = number (cs ++ rest) := by
  have hskip := skipSpace_of_starts (starts_of_number h) rest
  obtain ⟨c, ds, rfl, hc⟩ := h
  have hne := ne_of_startsNumber hc
  unfold value
  rw [hskip]
  simp only [List.cons_append]
  -- a literal, a string, a list and an object all start with something else
  rw [if_neg (hne _ (by decide) (by decide)), if_neg (hne _ (by decide) (by decide)),
    if_neg (hne _ (by decide) (by decide)), if_neg (hne _ (by decide) (by decide)), if_pos hc]

/-! ## Lists and objects -/

theorem endsNumber_itemChars (xs : List Json) (rest : List Char) :
    EndsNumber (itemChars xs ++ rest) := by
  cases xs <;> exact endsNumber_cons _ (by decide)

theorem endsNumber_memberChars (xs : List (String × Json)) (rest : List Char) :
    EndsNumber (memberChars xs ++ rest) := by
  cases xs <;> exact endsNumber_cons _ (by decide)

theorem length_lt_length_itemChars (xs : List Json) : xs.length < (itemChars xs).length := by
  induction xs with
  | nil => simp [itemChars]
  | cons x xs ih =>
    unfold itemChars
    simp only [List.length_cons, List.length_append]
    omega

theorem length_lt_length_memberChars (xs : List (String × Json)) :
    xs.length < (memberChars xs).length := by
  induction xs with
  | nil => simp [memberChars]
  | cons x xs ih =>
    obtain ⟨k, x⟩ := x
    unfold memberChars
    simp only [List.length_cons, List.length_append]
    omega

section Lists

variable {α : Type} {read : Reader α} {f : α → Json}

/-- `read` reads the text that `f` gives a value, whatever follows it. -/
structure ReadsText (read : Reader α) (f : α → Json) (x : α) : Prop where
  starts : Starts (chars (f x))
  reads : ∀ rest, EndsNumber rest → read (chars (f x) ++ rest) = .ok (x, rest)

theorem nextElement_first {cs : List Char} (h : Starts cs) (rest : List Char) :
    nextElement true (cs ++ rest) = .ok (.more (cs ++ rest)) := by
  unfold nextElement
  rw [skipSpace_of_starts h]
  obtain ⟨c, ds, rfl, -, hc⟩ := h
  simp only [List.cons_append]
  rw [if_neg hc, if_pos trivial]

theorem nextElement_comma {cs : List Char} (h : Starts cs) (rest : List Char) :
    nextElement false (',' :: (cs ++ rest)) = .ok (.more (cs ++ rest)) := by
  unfold nextElement
  rw [show skipSpace (',' :: (cs ++ rest)) = ',' :: (cs ++ rest) from rfl]
  simp only
  rw [if_neg (by decide), if_neg (by decide), if_pos trivial, skipSpace_of_starts h]
  obtain ⟨c, ds, rfl, -, hc⟩ := h
  simp only [List.cons_append]
  rw [if_neg hc]

/-- The items after the first one are read up to the closing bracket. -/
theorem elements_itemChars (xs : List α) (h : ∀ x ∈ xs, ReadsText read f x) {fuel : ℕ}
    (hf : xs.length < fuel) (rest : List Char) :
    elements read fuel false (itemChars (xs.map f) ++ rest) = .ok (xs, rest) := by
  induction xs generalizing fuel with
  | nil =>
    obtain ⟨n, rfl⟩ : ∃ n, fuel = n + 1 := ⟨fuel - 1, by omega⟩
    rfl
  | cons x xs ih =>
    obtain ⟨n, rfl⟩ : ∃ n, fuel = n + 1 := ⟨fuel - 1, by omega⟩
    have hx := h x List.mem_cons_self
    have hxs := ih (fun y hy => h y (List.mem_cons_of_mem _ hy)) (by simpa using hf)
    have hshape : itemChars ((x :: xs).map f) ++ rest =
        ',' :: (chars (f x) ++ (itemChars (xs.map f) ++ rest)) := by simp [itemChars]
    unfold elements
    rw [hshape, nextElement_comma hx.starts]
    simp only [Bind.bind, Except.bind, hx.reads _ (endsNumber_itemChars _ rest), hxs]

/-- A list is read from its opening bracket on. -/
theorem elements_arr (xs : List α) (h : ∀ x ∈ xs, ReadsText read f x) (rest : List Char) :
    ∃ cs, chars (.arr (xs.map f)) ++ rest = '[' :: cs ∧
      elements read (cs.length + 1) true cs = .ok (xs, rest) := by
  cases xs with
  | nil => exact ⟨']' :: rest, rfl, rfl⟩
  | cons x xs =>
    have hx := h x List.mem_cons_self
    have hlen := length_lt_length_itemChars (xs.map f)
    refine ⟨chars (f x) ++ (itemChars (xs.map f) ++ rest), by simp [chars], ?_⟩
    -- each item takes up a comma at least, so the fuel outlasts the items
    have hfuel : xs.length < (chars (f x) ++ (itemChars (xs.map f) ++ rest)).length := by
      simp only [List.length_append]
      rw [List.length_map] at hlen
      omega
    have hxs := elements_itemChars xs (fun y hy => h y (List.mem_cons_of_mem _ hy)) hfuel rest
    unfold elements
    rw [nextElement_first hx.starts]
    simp only [Bind.bind, Except.bind, hx.reads _ (endsNumber_itemChars _ rest), hxs]

end Lists

section Objects

variable {read : Reader Json}

theorem nextMember_comma (cs : List Char) :
    nextMember false (',' :: '"' :: cs) = .ok (.more cs) := by
  rfl

/-- A member is read after the quote that opens its key. -/
theorem member_append {x : Json} (hx : ReadsText read id x) (k : String) (rest : List Char)
    (hr : EndsNumber rest) : ∃ cs ds, quoteChars k ++ ':' :: chars x ++ rest = '"' :: cs ∧
      string cs = .ok (k, ':' :: ds) ∧ colon (':' :: ds) = .ok ((), ds) ∧
        read ds = .ok (x, rest) := by
  obtain ⟨cs, hcs, hs⟩ := string_quoteChars k (':' :: (chars x ++ rest))
  refine ⟨cs, chars x ++ rest, ?_, hs, rfl, hx.reads rest hr⟩
  rw [← hcs]
  simp

/-- The members after the first one are read up to the closing brace. -/
theorem members_memberChars (ms : List (String × Json)) (h : ∀ m ∈ ms, ReadsText read id m.2)
    {fuel : ℕ} (hf : ms.length < fuel) (rest : List Char) :
    members string read fuel false (memberChars ms ++ rest) = .ok (ms, rest) := by
  induction ms generalizing fuel with
  | nil =>
    obtain ⟨n, rfl⟩ : ∃ n, fuel = n + 1 := ⟨fuel - 1, by omega⟩
    rfl
  | cons m ms ih =>
    obtain ⟨k, x⟩ := m
    obtain ⟨n, rfl⟩ : ∃ n, fuel = n + 1 := ⟨fuel - 1, by omega⟩
    have hms := ih (fun y hy => h y (List.mem_cons_of_mem _ hy)) (by simpa using hf)
    have hx : ReadsText read id x := h (k, x) List.mem_cons_self
    obtain ⟨cs, ds, hcs, hk, hc, hv⟩ := member_append hx k (memberChars ms ++ rest)
      (endsNumber_memberChars ms rest)
    have hshape : memberChars ((k, x) :: ms) ++ rest = ',' :: '"' :: cs := by
      rw [← hcs]; simp [memberChars]
    unfold members
    rw [hshape, nextMember_comma]
    simp only [Bind.bind, Except.bind, hk, hc, hv, hms]

/-- An object is read from its opening brace on. -/
theorem members_obj (ms : List (String × Json)) (h : ∀ m ∈ ms, ReadsText read id m.2)
    (rest : List Char) : ∃ cs, chars (.obj ms) ++ rest = '\x7b' :: cs ∧
      members string read (cs.length + 1) true cs = .ok (ms, rest) := by
  cases ms with
  | nil => exact ⟨'\x7d' :: rest, rfl, rfl⟩
  | cons m ms =>
    obtain ⟨k, x⟩ := m
    have hlen := length_lt_length_memberChars ms
    have hx : ReadsText read id x := h (k, x) List.mem_cons_self
    obtain ⟨cs, ds, hcs, hk, hc, hv⟩ := member_append hx k (memberChars ms ++ rest)
      (endsNumber_memberChars ms rest)
    refine ⟨'"' :: cs, by rw [← hcs]; simp [chars], ?_⟩
    have hfuel : ms.length < ('"' :: cs).length := by
      rw [← hcs]
      simp only [List.length_append, List.length_cons]
      omega
    have hms := members_memberChars ms (fun y hy => h y (List.mem_cons_of_mem _ hy)) hfuel rest
    unfold members
    rw [show nextMember true ('"' :: cs) = .ok (.more cs) from rfl]
    simp only [Bind.bind, Except.bind, hk, hc, hv, hms]

end Objects

/-! ## Whole values -/

/-- The text of a value is read as that value, whatever follows that is no part of a number. -/
theorem value_chars {depth : ℕ} {j : Json} (h : Nested depth j) {rest : List Char}
    (hr : EndsNumber rest) : value depth (chars j ++ rest) = .ok (j, rest) := by
  -- the depth that is left to the reader goes down with the nesting of the value
  induction h generalizing rest with
  | null => unfold value; rfl
  | bool _ b => unfold value; cases b <;> rfl
  | int depth h => rw [value_number depth rest (starts_int _)]; exact number_int h hr
  | float depth h => rw [value_number depth rest (starts_float h)]; exact number_float h hr
  | str depth s =>
    obtain ⟨cs, hcs, hs⟩ := string_quoteChars s rest
    unfold value
    rw [chars, hcs, show skipSpace ('"' :: cs) = '"' :: cs from rfl]
    simp only [hs, Bind.bind, Except.bind]
    rfl
  | @arr depth items h ih =>
    have hread : ∀ x ∈ items, ReadsText (value depth) id x := fun x hx =>
      ⟨(h x hx).starts, fun rest hr => ih x hx hr⟩
    obtain ⟨cs, hcs, hs⟩ := elements_arr items hread rest
    rw [List.map_id] at hcs
    unfold value
    rw [hcs, show skipSpace ('[' :: cs) = '[' :: cs from rfl]
    simp only [hs, Bind.bind, Except.bind]
    rfl
  | @obj depth ms hk h ih =>
    have hread : ∀ m ∈ ms, ReadsText (value depth) id m.2 := fun m hm =>
      ⟨(h m hm).starts, fun rest hr => ih m hm hr⟩
    obtain ⟨cs, hcs, hs⟩ := members_obj ms hread rest
    unfold value
    rw [hcs, show skipSpace ('\x7b' :: cs) = '\x7b' :: cs from rfl]
    simp only [hs, Bind.bind, Except.bind, Dict.ofList_of_sorted hk]
    rfl

theorem whole_of_read {α : Type} {read : Reader α} {cs : List Char} {x : α}
    (h : read cs = .ok (x, [])) : whole read (String.ofList cs) = .ok x := by
  unfold whole
  rw [String.toList_ofList, h]
  rfl

/-- Any value within the depth of the reader comes back from its text. -/
theorem parse_compact {j : Json} (h : Nested maxDepth j) : parse j.compact = .ok j := by
  have hv := value_chars h endsNumber_nil
  rw [List.append_nil] at hv
  exact whole_of_read hv

theorem readsText_stringValue (s : String) : ReadsText stringValue Json.str s := by
  refine ⟨(Nested.str 0 s).starts, fun rest _ => ?_⟩
  obtain ⟨cs, hcs, hs⟩ := string_quoteChars s rest
  unfold stringValue
  rw [chars, hcs, show skipSpace ('"' :: cs) = '"' :: cs from rfl]
  simp only [hs]
  rfl

/-- A list of texts comes back from its text. -/
theorem parseStrings_compact (xs : List String) : parseStrings (strings xs).compact = .ok xs := by
  obtain ⟨cs, hcs, hs⟩ := elements_arr xs (fun s _ => readsText_stringValue s) []
  rw [List.append_nil] at hcs
  refine whole_of_read ?_
  unfold stringList strings
  rw [hcs, show skipSpace ('[' :: cs) = '[' :: cs from rfl]
  simp only [hs]
  rfl

/-- A dictionary of values, itself a level of the nesting, comes back from its text. -/
theorem parseObject_compact {d : Dict Json} (h : Nested maxDepth (.obj d)) :
    parseObject (Json.obj d).compact = .ok d := by
  -- the outermost level is read apart, and its members have one level less
  obtain ⟨hk, hms⟩ : Dict.Sorted d ∧ ∀ m ∈ d, Nested (maxDepth - 1) m.2 := by
    cases h with | obj hk h => exact ⟨hk, h⟩
  have hread : ∀ m ∈ d, ReadsText (value (maxDepth - 1)) id m.2 := fun m hm =>
    ⟨(hms m hm).starts, fun rest hr => value_chars (hms m hm) hr⟩
  obtain ⟨cs, hcs, hs⟩ := members_obj d hread []
  rw [List.append_nil] at hcs
  refine whole_of_read ?_
  unfold object
  rw [hcs, show skipSpace ('\x7b' :: cs) = '\x7b' :: cs from rfl]
  simp only [hs, Bind.bind, Except.bind, Dict.ofList_of_sorted hk]
  rfl

end TradeWatch.Json

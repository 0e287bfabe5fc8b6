/-
Reading JSON text from left to right, up to the first fault: blanks, literals, strings, numbers,
and the punctuation of lists and objects.
-/
import TradeWatch.Json.Basic
import TradeWatch.Decimal.Numeral

namespace TradeWatch.Json

inductive Fault
  /-- The text ends too soon. -/
  | endOfInput
  /-- A value of the wrong type or range, or a member given twice. -/
  | wrongType
  /-- Everything else. -/
  | malformed
deriving DecidableEq, Repr

/-- A reader takes what it needs from the front of the text. -/
abbrev Reader (α : Type) := List Char → Except Fault (α × List Char)

def isSpace (c : Char) : Bool :=
  c == ' ' || c == '\n' || c == '\t' || c == '\r'

def skipSpace (cs : List Char) : List Char :=
  cs.dropWhile isSpace

/-- The rest of a word whose first letter has been seen. -/
def word : List Char → Reader Unit
  | [], cs => .ok ((), cs)
  | _ :: _, [] => .error .endOfInput
  | w :: ws, c :: cs => if c = w then word ws cs else .error .malformed

/-! ## Strings -/

def isHex (c : Char) : Bool :=
  c.isDigit || ('a' ≤ c && c ≤ 'f') || ('A' ≤ c && c ≤ 'F')

def hexValue (c : Char) : Nat :=
  if c.isDigit then c.toNat - 48 else c.toLower.toNat - 87

/-- Four hexadecimal digits. -/
def hex4 : Reader Nat := fun cs =>
  let ds := cs.take 4
  if (String.ofList ds).utf8ByteSize < 4 then .error .endOfInput
  else if ds.all isHex then .ok (ds.foldl (fun n c => 16 * n + hexValue c) 0, cs.drop 4)
  else .error .malformed

/-- The lower half of a pair whose upper half has been read. -/
def lowerHalf : Reader Nat
  | [] => .error .endOfInput
  | '\\' :: [] => .error .endOfInput
  | '\\' :: 'u' :: cs => do
    let (n, cs) ← hex4 cs
    if 0xDC00 ≤ n ∧ n ≤ 0xDFFF then .ok (n, cs) else .error .malformed
  | _ => .error .malformed

/-- The character of `\u` and its digits; two halves of a pair make one character. -/
def codePoint : Reader Char := fun cs => do
  let (n, cs) ← hex4 cs
  if 0xDC00 ≤ n ∧ n ≤ 0xDFFF then .error .malformed
  else if 0xD800 ≤ n ∧ n ≤ 0xDBFF then
    let (m, cs) ← lowerHalf cs
    .ok (Char.ofNat (0x10000 + (n - 0xD800) * 0x400 + (m - 0xDC00)), cs)
  else .ok (Char.ofNat n, cs)

/-- The escapes of one letter. -/
def shortEscape? : Char → Option Char
  | '"' => some '"'
  | '\\' => some '\\'
  | '/' => some '/'
  | 'b' => some '\x08'
  | 'f' => some '\x0c'
  | 'n' => some '\n'
  | 'r' => some '\r'
  | 't' => some '\t'
  | _ => none

/-- What stands behind a backslash. -/
def escape : Reader Char
  | [] => .error .endOfInput
  | c :: cs =>
    if c = 'u' then codePoint cs
    else match shortEscape? c with
      | some e => .ok (e, cs)
      | none => .error .malformed

/-- The characters up to the closing quote, with `escaped` reading the escapes. -/
def stringChars (escaped : Reader Char) : Nat → Reader (List Char)
  | 0, _ => .error .endOfInput
  | _ + 1, [] => .error .endOfInput
  | fuel + 1, c :: cs =>
    if c = '"' then .ok ([], cs)
    else if c = '\\' then do
      let (e, cs) ← escaped cs
      let (rest, cs) ← stringChars escaped fuel cs
      .ok (e :: rest, cs)
    else if c.toNat < 0x20 then .error .malformed
    else do
      let (rest, cs) ← stringChars escaped fuel cs
      .ok (c :: rest, cs)

/-- A string after its opening quote. -/
def string : Reader String := fun cs => do
  let (chars, cs) ← stringChars escape (cs.length + 1) cs
  .ok (String.ofList chars, cs)

/-! ## Numbers -/

structure NumberParts where
  negative : Bool
  whole : List Char
  /-- The digits after the point. -/
  part : List Char
  exponent : Int
  /-- Neither a point nor an exponent was written. -/
  integral : Bool

/-- The digits before the point; a zero stands alone. -/
def wholeDigits (short : Fault) : Reader (List Char)
  | [] => .error short
  | c :: cs =>
    if c = '0' then
      if (cs.take 1).all Char.isDigit && !cs.isEmpty then .error .malformed else .ok (['0'], cs)
    else if c.isDigit then .ok (Decimal.takeDigits (c :: cs))
    else .error .malformed

/-- At least one digit. -/
def someDigits (short : Fault) : Reader (List Char) := fun cs =>
  let (ds, rest) := Decimal.takeDigits cs
  if ds.isEmpty then .error (if cs.isEmpty then short else .malformed) else .ok (ds, rest)

/-- The parts of a number after its minus sign, if any. A number that breaks off at the end of the
text has the fault `short`. -/
def numberParts (short : Fault) (negative : Bool) : Reader NumberParts := fun cs => do
  let (whole, cs) ← wholeDigits short cs
  let (part, cs) ← match cs with
    | '.' :: cs => someDigits short cs
    | cs => .ok ([], cs)
  let integral := part.isEmpty
  match cs with
  | [] => .ok (⟨negative, whole, part, 0, integral⟩, cs)
  | c :: after =>
    if c = 'e' ∨ c = 'E' then
      let (minus, after) := Decimal.takeSign after
      let (ds, cs) ← someDigits short after
      let e : Int := if minus then -(Text.valueOf ds : Int) else Text.valueOf ds
      .ok (⟨negative, whole, part, e, false⟩, cs)
    else .ok (⟨negative, whole, part, 0, integral⟩, cs)

/-- Integers of 64 bits are kept as such, other numbers become doubles; so does -0. -/
def NumberParts.value (p : NumberParts) : Except Fault Json :=
  let n := Text.valueOf p.whole
  if p.integral ∧ ¬p.negative ∧ n < words64 then .ok (.int n)
  else if p.integral ∧ p.negative ∧ n ≠ 0 ∧ n ≤ signedEnd then .ok (.int (-n))
  else
    let x := Decimal.ofScientific p.negative
      ⟨Text.valueOf (p.whole ++ p.part), p.exponent - p.part.length⟩
    if x.isInf then .error .malformed else .ok (.float x)

/-- A number from its minus sign or its first digit on. -/
def number : Reader Json := fun cs => do
  let (parts, cs) ← match cs with
    | '-' :: cs => numberParts .endOfInput true cs
    | cs => numberParts .endOfInput false cs
  let v ← parts.value
  .ok (v, cs)

/-! ## Lists and objects -/

/-- What comes next inside a bracket or a brace. -/
inductive Step
  /-- It is closed. -/
  | close (rest : List Char)
  /-- An element or a member follows. -/
  | more (rest : List Char)

/-- Looks for the next element of a list. -/
def nextElement (first : Bool) (cs : List Char) : Except Fault Step :=
  match skipSpace cs with
  | [] => .error .endOfInput
  | c :: cs =>
    if c = ']' then .ok (.close cs)
    else if first then .ok (.more (c :: cs))
    else if c = ',' then
      match skipSpace cs with
      | [] => .error .endOfInput
      | d :: cs => if d = ']' then .error .malformed else .ok (.more (d :: cs))
    else .error .malformed

/-- Looks for the next member of an object; the text then goes on after the quote of its key. -/
def nextMember (first : Bool) (cs : List Char) : Except Fault Step :=
  match skipSpace cs with
  | [] => .error .endOfInput
  | c :: cs =>
    if c = '\x7d' then .ok (.close cs)
    else if first then (if c = '"' then .ok (.more cs) else .error .malformed)
    else if c = ',' then
      match skipSpace cs with
      | [] => .error .endOfInput
      | d :: cs => if d = '"' then .ok (.more cs) else .error .malformed
    else .error .malformed

def colon : Reader Unit := fun cs =>
  match skipSpace cs with
  | [] => .error .endOfInput
  | c :: cs => if c = ':' then .ok ((), cs) else .error .malformed

/-- The elements of a list from the opening bracket on. -/
def elements {α : Type} (element : Reader α) : Nat → Bool → Reader (List α)
  | 0, _, _ => .error .malformed
  | fuel + 1, first, cs => do
    match ← nextElement first cs with
    | .close rest => .ok ([], rest)
    | .more rest =>
      let (x, rest) ← element rest
      let (xs, rest) ← elements element fuel false rest
      .ok (x :: xs, rest)

/-- The members of an object from the opening brace on. -/
def members {κ α : Type} (key : Reader κ) (value : Reader α) : Nat → Bool → Reader (List (κ × α))
  | 0, _, _ => .error .malformed
  | fuel + 1, first, cs => do
    match ← nextMember first cs with
    | .close rest => .ok ([], rest)
    | .more rest =>
      let (k, rest) ← key rest
      let (_, rest) ← colon rest
      let (x, rest) ← value rest
      let (xs, rest) ← members key value fuel false rest
      .ok ((k, x) :: xs, rest)

end TradeWatch.Json

/-
What the fields of a comma-separated column look like, and the one type that fits all of them.
Digits of every script count when a field is classified.
-/
import TradeWatch.Decimal.Numeral
import TradeWatch.Text.Digit
import TradeWatch.Text.Trim
import TradeWatch.Time.Stamp

namespace TradeWatch.Csv

open TradeWatch.Text (isScriptDigit)
open TradeWatch.Time (Resolution)

inductive Kind
  | flag
  | int
  | real
  | date
  | time (unit : Resolution)
  | text
deriving DecidableEq, Repr

/-! ## Shapes -/

def isDigits (cs : List Char) : Bool :=
  !cs.isEmpty && cs.all isScriptDigit

def withoutMinus : List Char → List Char
  | '-' :: cs => cs
  | cs => cs

/-- True or false in any case; a long s is a small one. -/
def isFlag (cs : List Char) : Bool :=
  let folded := cs.map fun c => if c = 'ſ' then 's' else c.toLower
  folded == ['t', 'r', 'u', 'e'] || folded == ['f', 'a', 'l', 's', 'e']

def isExponent : List Char → Bool
  | [] => false
  | c :: cs => (c == 'e' || c == 'E') && isDigits (Decimal.takeSign cs).2

/-- Digits with a point or an exponent or both. -/
def isReal (cs : List Char) : Bool :=
  let cs := withoutMinus cs
  let whole := cs.takeWhile isScriptDigit
  match cs.dropWhile isScriptDigit with
  | [] => false
  | c :: rest =>
    if c = '.' then
      let part := rest.takeWhile isScriptDigit
      let tail := rest.dropWhile isScriptDigit
      (!whole.isEmpty || !part.isEmpty) && (tail.isEmpty || isExponent tail)
    else !whole.isEmpty && isExponent (c :: rest)

/-- The text after a shape in which `d` stands for a digit and every other character for itself. -/
def afterShape? : List Char → List Char → Option (List Char)
  | [], cs => some cs
  | _ :: _, [] => none
  | s :: shape, c :: cs =>
    if (if s = 'd' then isScriptDigit c else s == c) then afterShape? shape cs else none

def dateShape : List Char := "dddd-dd-dd".toList
def clockShape : List Char := "dd:dd:dd".toList

/-- Nothing, or a character that is no digit and the rest of its line. -/
def isTail : List Char → Bool
  | [] => true
  | c :: cs => !isScriptDigit c && !cs.contains '\n'

/-- The unit of a time, from what follows its seconds. -/
def unit? : List Char → Option Resolution
  | [] => some .second
  | c :: cs =>
    if c = '.' then
      let digits := (cs.takeWhile isScriptDigit).length
      if digits = 0 || 9 < digits || !isTail (cs.dropWhile isScriptDigit) then none
      else if digits ≤ 3 then some .milli
      else if digits ≤ 6 then some .micro
      else some .nano
    else if isTail (c :: cs) then some .second
    else none

/-- The unit of a field that looks like a time. -/
def time? (cs : List Char) : Option Resolution := do
  match ← afterShape? dateShape cs with
  | [] => none
  | c :: rest =>
    if c = 'T' ∨ c = ' ' then unit? (← afterShape? clockShape rest) else none

def realWords : List String := ["NaN", "nan", "inf", "-inf"]

/-- An integer of 64 bits. -/
def integer? (s : String) : Option Int :=
  (Decimal.integer? true s).filter isSigned64

namespace Kind

def ofField (s : String) : Kind :=
  let cs := s.toList
  if cs.head? = some '"' then .text
  else if isFlag cs then .flag
  else if isDigits (withoutMinus cs) then
    if 19 ≤ s.utf8ByteSize ∧ (integer? s).isNone then .text else .int
  else if isReal cs then .real
  else if afterShape? dateShape cs = some [] then .date
  else match time? cs with
    | some unit => .time unit
    | none => if realWords.contains s then .real else .text

def fineness : Resolution → Nat
  | .second => 0
  | .milli => 1
  | .micro => 2
  | .nano => 3

def finer (a b : Resolution) : Resolution :=
  if fineness a < fineness b then b else a

/-- The kind that fits two kinds. -/
def join : Kind → Kind → Kind
  | .flag, .flag => .flag
  | .int, .int => .int
  | .int, .real => .real
  | .real, .int => .real
  | .real, .real => .real
  | .date, .date => .date
  | .date, .time u => .time u
  | .time u, .date => .time u
  | .time u, .time v => .time (finer u v)
  | _, _ => .text

/-- The kind that fits all fields; there is none without fields. -/
def ofFields? : List String → Option Kind
  | [] => none
  | s :: rest => some (rest.foldl (fun kind field => kind.join (ofField field)) (ofField s))

end Kind

end TradeWatch.Csv

/-
Times read from text: a date, or a date and a time of day with an optional offset from UTC. The
second 60 is the one after :59 and is kept as a part of a second above one.
-/
import TradeWatch.Time.Civil
import TradeWatch.Text.Padded
import TradeWatch.Text.Trim

namespace TradeWatch.Time

/-- How finely a stored time is counted. -/
inductive Resolution
  | second
  | milli
  | micro
  | nano
deriving DecidableEq, Repr

/-- Seconds since the start of 1970 UTC, and nanoseconds on top. -/
structure Stamp where
  seconds : Int
  nanos : Nat
deriving DecidableEq, Repr

/-! ## Parts -/

/-- Exactly `n` digits and their value. -/
def digits? (n : Nat) (cs : List Char) : Option (Nat × List Char) :=
  let ds := cs.take n
  if ds.length = n ∧ ds.all Char.isDigit then some (Text.valueOf ds, cs.drop n) else none

def expect? (c : Char) : List Char → Option (List Char)
  | [] => none
  | d :: cs => if d = c then some cs else none

/-- A real date as `YYYY-MM-DD`. -/
def date? (cs : List Char) : Option (Date × List Char) := do
  let (year, cs) ← digits? 4 cs
  let cs ← expect? '-' cs
  let (month, cs) ← digits? 2 cs
  let cs ← expect? '-' cs
  let (day, cs) ← digits? 2 cs
  let date : Date := ⟨year, month, day⟩
  if date.isReal then some (date, cs) else none

/-- A date alone. -/
def wholeDate? (s : String) : Option Date :=
  match date? s.toList with
  | some (date, []) => some date
  | _ => none

/-- The first nine digits after a point as nanoseconds. -/
def nanosOfDigits (ds : List Char) : Nat :=
  Text.valueOf ((ds ++ List.replicate 9 '0').take 9)

/-- An optional point with at least one digit; a point without one has no reading. -/
def fraction? : List Char → Option (Nat × List Char)
  | '.' :: cs =>
    let ds := cs.takeWhile Char.isDigit
    if ds.isEmpty then none else some (nanosOfDigits ds, cs.dropWhile Char.isDigit)
  | cs => some (0, cs)

/-- Seconds since midnight and nanoseconds. -/
def ofClock? (hour minute second nanos : Nat) : Option (Nat × Nat) :=
  if 23 < hour ∨ 59 < minute ∨ 60 < second then none
  else
    let start := hour * 3600 + minute * 60
    if second = 60 then some (start + 59, 1000000000 + nanos) else some (start + second, nanos)

/-- The time of day as `HH:MM:SS` with an optional fraction. -/
def clockWithColons? (cs : List Char) : Option ((Nat × Nat) × List Char) := do
  let (hour, cs) ← digits? 2 cs
  let cs ← expect? ':' cs
  let (minute, cs) ← digits? 2 cs
  let cs ← expect? ':' cs
  let (second, cs) ← digits? 2 cs
  let (nanos, cs) ← fraction? cs
  let clock ← ofClock? hour minute second nanos
  some (clock, cs)

/-- The time of day as `HHMMSS`, where neither of the next two characters is a digit. -/
def clockCompact? (cs : List Char) : Option ((Nat × Nat) × List Char) := do
  let (hour, cs) ← digits? 2 cs
  let (minute, cs) ← digits? 2 cs
  let (second, cs) ← digits? 2 cs
  if (cs.take 2).any Char.isDigit then none
  else
    let clock ← ofClock? hour minute second 0
    some (clock, cs)

/-- An offset `+HH:MM`, `+HHMM` or `+HH`, or with `-`, in seconds; less than a day. -/
def offset? (cs : List Char) : Option Int := do
  let (sign, ds) ← match cs with
    | [s, a, b, ':', c, d] => some (s, [a, b, c, d])
    | [s, a, b, c, d] => some (s, [a, b, c, d])
    | [s, a, b] => some (s, [a, b, '0', '0'])
    | _ => none
  let (hours, rest) ← digits? 2 ds
  let (minutes, _) ← digits? 2 rest
  let seconds : Int := hours * 3600 + minutes * 60
  if 86400 ≤ seconds then none
  else if sign = '+' then some seconds
  else if sign = '-' then some (-seconds)
  else none

/-- What follows the time of day: nothing, `Z`, or an offset after optional blanks. -/
def zone? : List Char → Option Int
  | [] => some 0
  | ['Z'] => some 0
  | ['z'] => some 0
  | cs => offset? (cs.dropWhile Text.isBlank)

/-! ## The whole -/

def Stamp.read? (s : String) : Option Stamp := do
  let (date, rest) ← date? s.toList
  let midnight := date.toDay * 86400
  match rest with
  | [] => some ⟨midnight, 0⟩
  | separator :: cs =>
    if separator = 'T' ∨ separator = 't' ∨ separator = ' ' then
      let ((seconds, nanos), cs) ← (clockWithColons? cs).orElse fun _ => clockCompact? cs
      let offset ← zone? cs
      some ⟨midnight + seconds - offset, nanos⟩
    else none

/-- The stamp as a whole number of units; what lies below the unit is cut. -/
def Stamp.count (t : Stamp) : Resolution → Int
  | .second => t.seconds
  | .milli => t.seconds * 1000 + t.nanos / 1000000
  | .micro => t.seconds * 1000000 + t.nanos / 1000
  | .nano => t.seconds * 1000000000 + t.nanos

end TradeWatch.Time

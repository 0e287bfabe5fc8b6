/-
The written form of times. Years from 0 to 9999 have four digits, others a sign and at least four;
the part below a second has three, six or nine digits, the fewest that are exact, and none when it
is zero.
-/
import TradeWatch.Time.Civil
import TradeWatch.Time.Instant
import TradeWatch.Text.Padded

namespace TradeWatch.Time

def hasPlainYear (year : Int) : Bool :=
  decide (0 ≤ year ∧ year ≤ 9999)

def yearText (year : Int) : String :=
  if hasPlainYear year then Text.zeroPadded 4 year.toNat
  else (if year < 0 then "-" else "+") ++ Text.zeroPadded 4 year.natAbs

def dateText (d : Date) : String :=
  yearText d.year ++ "-" ++ Text.zeroPadded 2 d.month ++ "-" ++ Text.zeroPadded 2 d.day

def fractionText (nanos : Nat) : String :=
  if nanos = 0 then ""
  else if nanos % 1000000 = 0 then "." ++ Text.zeroPadded 3 (nanos / 1000000)
  else if nanos % 1000 = 0 then "." ++ Text.zeroPadded 6 (nanos / 1000)
  else "." ++ Text.zeroPadded 9 nanos

/-- The time of day, given in nanoseconds since midnight. -/
def clockText (nanos : Nat) : String :=
  let seconds := nanos / 1000000000
  Text.zeroPadded 2 (seconds / 3600) ++ ":" ++ Text.zeroPadded 2 (seconds / 60 % 60) ++ ":" ++
    Text.zeroPadded 2 (seconds % 60) ++ fractionText (nanos % 1000000000)

/-- A time given in nanoseconds since the start of 1970, without a zone. -/
def localText (nanos : Int) : String :=
  dateText (Date.ofDay (nanos / nanosPerDay)) ++ "T" ++ clockText (nanos % nanosPerDay).toNat

namespace Instant

def date (t : Instant) : Date :=
  Date.ofDay t.day

def text (t : Instant) : String :=
  localText t.nanos ++ "Z"

end Instant

/-- A fixed offset from UTC, in seconds; none at all is written `Z`. -/
def offsetText (seconds : Int) : String :=
  if seconds = 0 then "Z"
  else
    let minutes := seconds.natAbs / 60
    (if seconds < 0 then "-" else "+") ++ Text.zeroPadded 2 (minutes / 60) ++ ":" ++
      Text.zeroPadded 2 (minutes % 60)

end TradeWatch.Time

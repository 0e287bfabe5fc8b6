/-
Instants: nanoseconds since 1970-01-01T00:00:00 UTC within a calendar of whole years, from
-262143-01-01 up to and excluding 262143-01-01. Arithmetic that leaves the calendar has no result.
-/
namespace TradeWatch.Time

def nanosPerMilli : Int := 1000000
def nanosPerSecond : Int := 1000000000
def nanosPerDay : Int := 86400000000000

/-- The first instant of the calendar. -/
def calendarStart : Int := -8334601228800000000000

/-- The first instant after the calendar. -/
def calendarEnd : Int := 8210266876800000000000

structure Instant where
  nanos : Int
  inCalendar : calendarStart ≤ nanos ∧ nanos < calendarEnd
deriving DecidableEq

namespace Instant

instance : Inhabited Instant := ⟨⟨0, by decide⟩⟩

def ofNanos? (n : Int) : Option Instant :=
  if h : calendarStart ≤ n ∧ n < calendarEnd then some ⟨n, h⟩ else none

def ofMillis? (n : Int) : Option Instant :=
  ofNanos? (n * nanosPerMilli)

/-- The instant `d` nanoseconds later, or earlier when `d` is negative. -/
def shift? (t : Instant) (d : Int) : Option Instant :=
  ofNanos? (t.nanos + d)

/-- Midnight of a day counted from 1970-01-01. -/
def ofDay? (day : Int) : Option Instant :=
  ofNanos? (day * nanosPerDay)

/-- The day of an instant, rounded down also before 1970. -/
def day (t : Instant) : Int :=
  t.nanos / nanosPerDay

/-- Whole milliseconds since 1970, rounded down. -/
def millis (t : Instant) : Int :=
  t.nanos / nanosPerMilli

/-- The instant without the part below the millisecond. -/
def floorMillis (t : Instant) : Instant :=
  ⟨t.millis * nanosPerMilli, by
    have h := t.inCalendar
    unfold millis nanosPerMilli calendarStart calendarEnd at *
    omega⟩

def before (s t : Instant) : Bool :=
  decide (s.nanos < t.nanos)

def atMost (s t : Instant) : Bool :=
  decide (s.nanos ≤ t.nanos)

end Instant

end TradeWatch.Time

/-
Lengths of windows. A setting in days or hours is a length in nanoseconds as long as it lies within
the limit of its unit, in either direction.
-/
import TradeWatch.Time.Instant

namespace TradeWatch.Window

/-- A unit of window settings: its length and the greatest number of them. -/
structure Measure where
  nanos : Int
  limit : Int

def days : Measure := ⟨86400000000000, 106751991167⟩
def hours : Measure := ⟨3600000000000, 2562047788015⟩

/-- The length of `value` units in nanoseconds. -/
def length? (m : Measure) (value : Int) : Option Int :=
  if -m.limit ≤ value ∧ value ≤ m.limit then some (value * m.nanos) else none

end TradeWatch.Window

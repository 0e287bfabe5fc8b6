/-
Sums, means and extremes of doubles. Sums go from left to right, and the order of the terms is part
of the result. An extreme passes over values that are no numbers, and of two equal values, which can
differ in the sign of a zero, it keeps the later one.
-/
import TradeWatch.Decimal.Binary64

namespace TradeWatch.Stats

def sumFrom (start : Float) (xs : List Float) : Float :=
  xs.foldl (· + ·) start

/-- The sum of a list by itself; that of no terms is -0.0, which changes no other sum. -/
def total (xs : List Float) : Float :=
  sumFrom (-0.0) xs

def average (xs : List Float) : Float :=
  total xs / Decimal.ofNat xs.length

/-- The average, and zero of nothing. -/
def mean (xs : List Float) : Float :=
  if xs.isEmpty then 0.0 else average xs

def larger (a b : Float) : Float :=
  if a.isNaN then b else if a ≤ b then b else a

def lesser (a b : Float) : Float :=
  if a.isNaN then b else if b ≤ a then b else a

def largest (xs : List Float) : Float :=
  xs.foldl larger (-1.0 / 0.0)

/-- The deviation of a sample of at least two values, and zero of fewer. -/
def sampleDeviation (xs : List Float) : Float :=
  if xs.length ≤ 1 then 0.0
  else
    let m := average xs
    let squares := xs.map fun x => (x - m) * (x - m)
    (total squares / Decimal.ofNat (xs.length - 1)).sqrt

end TradeWatch.Stats

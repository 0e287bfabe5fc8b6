/-
Doubles as exact numbers. A finite double is `mantissa · 2 ^ exponent` with a sign; a ratio of
naturals, or a decimal, is rounded to the nearest double, a tie going to the even neighbour.
-/
import TradeWatch.Word

namespace TradeWatch.Decimal

/-! ## Reading a double -/

/-- The number `mantissa · 2 ^ exponent`. -/
structure Dyadic where
  mantissa : Nat
  exponent : Int
deriving DecidableEq, Repr

/-- The sign bit is set; so also of -0.0. -/
def isNegative (x : Float) : Bool :=
  x.toBits.toNat / signedEnd == 1

/-- The bits of a double without its sign. -/
def magnitudeBits (x : Float) : Nat :=
  x.toBits.toNat % signedEnd

/-- The bit above the 52 that are written; it is part of every mantissa that is not the least. -/
def implicitBit : Nat := pow2 52

/-- The bits of infinity without a sign; those of every finite magnitude are fewer. -/
def infinityBits : Nat := 2047 * implicitBit

/-- The finite magnitude that the bits stand for. -/
def dyadicOfBits (bits : Nat) : Dyadic :=
  let fraction : Nat := bits % implicitBit
  let field : Nat := bits / implicitBit
  if field = 0 then ⟨fraction, -1074⟩ else ⟨implicitBit + fraction, (field : Int) - 1075⟩

def magnitude (x : Float) : Dyadic :=
  dyadicOfBits (magnitudeBits x)

namespace Dyadic

def numerator (d : Dyadic) : Nat :=
  d.mantissa * pow2 d.exponent.toNat

def denominator (d : Dyadic) : Nat :=
  pow2 (-d.exponent).toNat

end Dyadic

/-- A finite double without its part below one. -/
def truncated? (x : Float) : Option Int :=
  if x.isFinite then
    let d := magnitude x
    let n : Int := (d.numerator / d.denominator : Nat)
    some (if isNegative x then -n else n)
  else none

/-! ## Rounding to a double -/

/-- The quotient rounded to the nearest integer, a tie to the even one. -/
def roundDiv (num den : Nat) : Nat :=
  let q := num / den
  let r := num % den
  if 2 * r < den then q else if den < 2 * r then q + 1 else q + q % 2

/-- The `k` with `2 ^ k ≤ num / den < 2 ^ (k + 1)`, for positive arguments. -/
def binaryExponent (num den : Nat) : Int :=
  let k : Int := (num.log2 : Int) - den.log2
  if num * pow2 (-k).toNat < den * pow2 k.toNat then k - 1 else k

/-- The magnitude bits of the double nearest to `num / den`. -/
def nearestBits (num den : Nat) : Nat :=
  if num = 0 then 0
  else
    let q := max (binaryExponent num den - 52) (-1074)
    let m := roundDiv (num * pow2 (-q).toNat) (den * pow2 q.toNat)
    min ((q + 1074).toNat * implicitBit + m) infinityBits

def ofMagnitudeBits (negative : Bool) (bits : Nat) : Float :=
  Float.ofBits (UInt64.ofNat (if negative then signedEnd + bits else bits))

/-- The double nearest to an integer. -/
def ofInt (n : Int) : Float :=
  ofMagnitudeBits (decide (n < 0)) (nearestBits n.natAbs 1)

def ofNat (n : Nat) : Float :=
  ofMagnitudeBits false (nearestBits n 1)

/-! ## Decimals -/

/-- The decimal `digits · 10 ^ exponent`. -/
structure Scientific where
  digits : Nat
  exponent : Int
deriving DecidableEq, Repr

namespace Scientific

def numerator (d : Scientific) : Nat :=
  d.digits * pow10 d.exponent.toNat

def denominator (d : Scientific) : Nat :=
  pow10 (-d.exponent).toNat

/-- The magnitude bits of the nearest double. Exponents far outside the range of doubles are
settled without forming the power. -/
def nearestBits (d : Scientific) : Nat :=
  if d.digits = 0 then 0
  else if 310 < d.exponent then infinityBits
  else if d.exponent + d.digits.log2 < -330 then 0
  else Decimal.nearestBits d.numerator d.denominator

end Scientific

/-- The double nearest to a decimal with a sign; one too large is infinite. -/
def ofScientific (negative : Bool) (d : Scientific) : Float :=
  ofMagnitudeBits negative d.nearestBits

end TradeWatch.Decimal

/-
The shortest decimal of a double: the fewest significant digits that read back as the same double,
and among those the decimal nearest to its value, the even one on a tie. Seventeen digits always
suffice; the exact decimal stands behind them.
-/
import TradeWatch.Decimal.Binary64

namespace TradeWatch.Decimal

/-- The `k` with `10 ^ k ≤ num / den < 10 ^ (k + 1)`, for positive arguments. -/
def decimalExponent (num den : Nat) : Int :=
  let k := binaryExponent num den * 30103 / 100000
  if den * pow10 (k + 1).toNat ≤ num * pow10 (-(k + 1)).toNat then k + 1
  else if num * pow10 (-k).toNat < den * pow10 k.toNat then k - 1
  else k

/-- The two multiples of `10 ^ p` around a value, the nearer first. -/
def neighbours (num den : Nat) (p : Int) : List Scientific :=
  let n := num * pow10 (-p).toNat
  let d := den * pow10 p.toNat
  let low := n / d
  let near := roundDiv n d
  let far := if near = low then low + 1 else low
  [⟨near, p⟩, ⟨far, p⟩]

def readsBack (bits : Nat) (d : Scientific) : Bool :=
  d.nearestBits == bits

/-- A dyadic number written in decimal without rounding. -/
def exactDecimal (d : Dyadic) : Scientific :=
  ⟨d.numerator * pow5 (-d.exponent).toNat, min d.exponent 0⟩

/-- Moves the zeros at the end of the digits into the exponent. -/
def withoutTrailingZeros (fuel : Nat) (d : Scientific) : Scientific :=
  match fuel with
  | 0 => d
  | fuel + 1 =>
    if d.digits ≠ 0 ∧ d.digits % 10 = 0 then
      withoutTrailingZeros fuel ⟨d.digits / 10, d.exponent + 1⟩
    else d

/-- The shortest decimal of the magnitude with these bits. -/
def shortest (bits : Nat) : Scientific :=
  let d := dyadicOfBits bits
  if d.mantissa = 0 then ⟨0, 0⟩
  else
    let num := d.numerator
    let den := d.denominator
    let k := decimalExponent num den
    let candidates := (List.range 17).flatMap fun (n : Nat) => neighbours num den (k - n)
    let found := ((candidates.find? (readsBack bits)).getD (exactDecimal d))
    withoutTrailingZeros found.digits.log2 found

end TradeWatch.Decimal

/-
Numbers in text cells, comma-separated files and command-line flags. A real number is an optional
sign and decimal digits with an optional point and an optional exponent, or one of the words for
infinity and for what is no number, in any case. Integers are digits with an optional sign.
-/
import TradeWatch.Decimal.Binary64
import TradeWatch.Text.Padded
import TradeWatch.Text.Trim

namespace TradeWatch.Decimal

/-- An optional sign, and whether it is negative. -/
def takeSign : List Char → Bool × List Char
  | '-' :: cs => (true, cs)
  | '+' :: cs => (false, cs)
  | cs => (false, cs)

def takeDigits (cs : List Char) : List Char × List Char :=
  (cs.takeWhile Char.isDigit, cs.dropWhile Char.isDigit)

/-- All of `cs` is an exponent, or nothing. -/
def exponentValue? : List Char → Option Int
  | [] => some 0
  | c :: cs =>
    if c = 'e' ∨ c = 'E' then
      let (negative, ds) := takeSign cs
      if ds.isEmpty || !ds.all Char.isDigit then none
      else some (if negative then -(Text.valueOf ds : Int) else Text.valueOf ds)
    else none

/-- Digits with an optional point and an optional exponent. -/
def scientific? (cs : List Char) : Option Scientific :=
  let (whole, rest) := takeDigits cs
  let (part, rest) := match rest with
    | '.' :: after => takeDigits after
    | other => ([], other)
  if whole.isEmpty && part.isEmpty then none
  else (exponentValue? rest).map fun e => ⟨Text.valueOf (whole ++ part), e - part.length⟩

def positiveInfinity : Float := ofMagnitudeBits false infinityBits
def negativeInfinity : Float := ofMagnitudeBits true infinityBits
def notANumber : Float := ofMagnitudeBits false (infinityBits + pow2 51)

def real? (s : String) : Option Float :=
  let (negative, cs) := takeSign s.toList
  let word := String.ofList cs
  if Text.sameIgnoringCase word "nan" then some notANumber
  else if Text.sameIgnoringCase word "inf" || Text.sameIgnoringCase word "infinity" then
    some (if negative then negativeInfinity else positiveInfinity)
  else (scientific? cs).map (ofScientific negative)

/-- Digits with an optional sign; `-` only where `signed` allows it. -/
def integer? (signed : Bool) (s : String) : Option Int :=
  let (negative, ds) := takeSign s.toList
  if ds.isEmpty || !ds.all Char.isDigit || (negative && !signed) then none
  else some (if negative then -(Text.valueOf ds : Int) else Text.valueOf ds)

end TradeWatch.Decimal

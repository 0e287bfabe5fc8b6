/-
A double with a fixed number of decimal places, rounded from its exact value, a half to the even
neighbour. The sign stays when the digits round to zero.
-/
import TradeWatch.Decimal.Binary64
import TradeWatch.Text.Padded

namespace TradeWatch.Decimal

def fixed (places : Nat) (x : Float) : String :=
  if x.isNaN then "NaN"
  else if x.isInf then (if isNegative x then "-inf" else "inf")
  else
    let d := magnitude x
    let scaled := roundDiv (d.numerator * pow10 places) d.denominator
    let whole := String.ofList (Text.digitsOf (scaled / pow10 places))
    let part := Text.zeroPadded places (scaled % pow10 places)
    (if isNegative x then "-" else "") ++ whole ++ "." ++ part

end TradeWatch.Decimal

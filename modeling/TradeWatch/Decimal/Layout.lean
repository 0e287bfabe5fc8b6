/-
How a double is written. Decimals between the two bounds of a layout are written out with a point
and at least one digit on each side of it; the others have one digit before the point and an
exponent. The two layouts differ in the mark of a positive exponent.
-/
import TradeWatch.Decimal.Shortest
import TradeWatch.Text.Padded

namespace TradeWatch.Decimal

structure Layout where
  /-- Least exponent of the first digit that is written out. -/
  least : Int
  /-- Greatest exponent of the first digit that is written out. -/
  greatest : Int
  /-- Stands between `e` and a positive exponent. -/
  plus : String

/-- Doubles in text cells. -/
def Layout.cell : Layout := ⟨-5, 15, ""⟩

/-- Doubles in JSON text. -/
def Layout.json : Layout := ⟨-5, 15, "+"⟩

/-- Digits with `e10` as the exponent of the first one, written out. -/
def positional (ds : List Char) (e10 : Int) : List Char :=
  if e10 < 0 then
    ['0', '.'] ++ List.replicate (-e10 - 1).toNat '0' ++ ds
  else
    let whole := e10.toNat + 1
    let before := ds.take whole ++ List.replicate (whole - ds.length) '0'
    let after := ds.drop whole
    before ++ '.' :: (if after.isEmpty then ['0'] else after)

def withExponent (plus : String) (ds : List Char) (e10 : Int) : List Char :=
  ds.take 1 ++ (if ds.length ≤ 1 then [] else '.' :: ds.drop 1) ++ 'e' ::
    ((if e10 < 0 then "-" else plus).toList ++ Text.digitsOf e10.natAbs)

def Layout.writeChars (layout : Layout) (d : Scientific) : List Char :=
  let ds := Text.digitsOf d.digits
  if d.digits = 0 then ['0', '.', '0']
  else
    let e10 := d.exponent + ds.length - 1
    if layout.least ≤ e10 ∧ e10 ≤ layout.greatest then positional ds e10
    else withExponent layout.plus ds e10

/-- The text of a double; the values that are no numbers have words of their own. -/
def Layout.write (layout : Layout) (x : Float) : String :=
  if x.isNaN then "NaN"
  else if x.isInf then (if isNegative x then "-inf" else "inf")
  else (if isNegative x then "-" else "") ++
    String.ofList (layout.writeChars (shortest (magnitudeBits x)))

end TradeWatch.Decimal

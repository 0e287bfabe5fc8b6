/-
Numbers and labels brought to a least width: numbers with zeros on the left, labels with spaces on
the right. A text that is already wide enough is left alone.
-/
namespace TradeWatch.Text

def digitsOf (n : Nat) : List Char :=
  Nat.toDigits 10 n

/-- The decimal digits of `n`, with zeros in front up to `width` digits. -/
def zeroPadded (width n : Nat) : String :=
  let ds := digitsOf n
  String.ofList (List.replicate (width - ds.length) '0' ++ ds)

/-- The text followed by spaces up to `width` characters. -/
def leftAligned (width : Nat) (s : String) : String :=
  s ++ String.ofList (List.replicate (width - s.length) ' ')

/-- The value of a run of ASCII digits, the most significant first. -/
def valueOf (ds : List Char) : Nat :=
  ds.foldl (fun n c => 10 * n + (c.toNat - '0'.toNat)) 0

/-- An integer in decimal, with `-` in front when negative. -/
def intDigits (n : Int) : String :=
  (if n < 0 then "-" else "") ++ String.ofList (digitsOf n.natAbs)

end TradeWatch.Text

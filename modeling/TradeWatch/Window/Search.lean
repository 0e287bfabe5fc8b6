/-
Looking up a bound among rows of which a first part lies before it and the others do not. The
stretch in which that part may end is halved until one row is left.
-/
namespace TradeWatch.Window

section Search

variable {α : Type} (before : α → Bool) (rows : List α)

/-- There is a row at that place and it lies before the bound. -/
def isBefore (place : Nat) : Bool :=
  (rows[place]?).any before

/-- The place behind the last row that lies before the bound, looked for among the `size` rows from
`base` on. -/
def halve (base size : Nat) : Nat :=
  if 1 < size then
    let half := size / 2
    halve (if isBefore before rows (base + half) then base + half else base) (size - half)
  else if isBefore before rows base then base + 1
  else base
termination_by size

/-- How many rows lie before the bound. -/
def partitionPoint : Nat :=
  halve before rows 0 rows.length

end Search

end TradeWatch.Window

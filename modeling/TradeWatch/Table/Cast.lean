/-
Columns read as texts, as numbers and as instants. A cell that does not fit is missing in the
result; a column whose type does not fit at all is a fault of the table.
-/
import TradeWatch.Table.Basic
import TradeWatch.Decimal.Layout
import TradeWatch.Time.Printed

namespace TradeWatch.Column

open TradeWatch.Time (Resolution Instant)

/-! ## Texts -/

def nanosPerUnit : Resolution → Int
  | .second => 1000000000
  | .milli => 1000000
  | .micro => 1000
  | .nano => 1

/-- A time in a column as text. One outside the calendar has none, and one that the offset moves out
of the calendar is a fault of its own. -/
def timeText (unit : Resolution) (offset : Option Int) (n : Int) : Except Fault String :=
  match Instant.ofNanos? (n * nanosPerUnit unit) with
  | none => .error .table
  | some t =>
    match offset with
    | none => .ok (Time.localText t.nanos)
    | some o =>
      match t.shift? (o * Time.nanosPerSecond) with
      | none => .error .calendar
      | some moved => .ok (Time.localText moved.nanos ++ Time.offsetText o)

def dayText (n : Int) : Except Fault String :=
  match Instant.ofDay? n with
  | none => .error .table
  | some t => .ok (Time.dateText t.date)

def flagText (b : Bool) : String :=
  if b then "true" else "false"

def listText (items : List String) : String :=
  "[" ++ ", ".intercalate items ++ "]"

/-- The cells that are there, each through `f`, up to the first fault. -/
def mapCells {α β : Type} (f : α → Except Fault β) (cells : List (Option α)) :
    Except Fault (List (Option β)) :=
  cells.mapM fun
    | none => .ok none
    | some x => (f x).map some

def toTexts : Column → Except Fault (List (Option String))
  | text cells => .ok cells
  | int cells => .ok (cells.map (·.map Text.intDigits))
  | real cells => .ok (cells.map (·.map Decimal.Layout.cell.write))
  | flag cells => .ok (cells.map (·.map flagText))
  | date cells => mapCells dayText cells
  | time unit none cells => mapCells (timeText unit none) cells
  | time unit (some zone) cells =>
    match Time.offset? zone.toList with
    | none => .error .table
    | some offset => mapCells (timeText unit (some offset)) cells
  | blank count => .ok (List.replicate count none)
  | texts cells => .ok (cells.map (·.map listText))
  | ints cells =>
    .ok (cells.map (·.map fun items => listText (items.map fun n => (n.map Text.intDigits).getD "")))

/-! ## Numbers -/

def toReals : Column → Except Fault (List (Option Float))
  | text cells => .ok (cells.map (·.bind Decimal.real?))
  | int cells => .ok (cells.map (·.map Decimal.ofInt))
  | real cells => .ok cells
  | flag cells => .ok (cells.map (·.map fun b => if b then 1.0 else 0.0))
  | time _ _ cells => .ok (cells.map (·.map Decimal.ofInt))
  | blank count => .ok (List.replicate count none)
  | date _ => .error .table
  | texts _ => .error .table
  | ints _ => .error .table

/-! ## Instants -/

/-- A time in a column in whole milliseconds; finer ones are cut toward zero. -/
def millisOf : Resolution → Int → Int
  | .second, n => n * 1000
  | .milli, n => n
  | .micro, n => n.tdiv 1000
  | .nano, n => n.tdiv 1000000

def toMillis : Column → Except Fault (List (Option Int))
  | text cells => .ok (cells.map (·.bind millisOfText?))
  | int cells => .ok cells
  | real cells => .ok (cells.map (·.bind Decimal.truncated?))
  | date cells => .ok (cells.map (·.map (· * 86400000)))
  | time unit _ cells => .ok (cells.map (·.map (millisOf unit)))
  | blank count => .ok (List.replicate count none)
  | flag _ => .error .table
  | texts _ => .error .table
  | ints _ => .error .table

/-- Instants to the millisecond; a time outside the calendar is missing. -/
def toInstants (c : Column) : Except Fault (List (Option Instant)) :=
  c.toMillis.map fun cells => cells.map (·.bind Instant.ofMillis?)

end TradeWatch.Column

namespace TradeWatch.Table

def texts (t : Table) (table name : String) : Except Fault (List (Option String)) := do
  (← t.column table name).toTexts

def reals (t : Table) (table name : String) : Except Fault (List (Option Float)) := do
  (← t.column table name).toReals

def instants (t : Table) (table name : String) : Except Fault (List (Option Time.Instant)) := do
  (← t.column table name).toInstants

end TradeWatch.Table

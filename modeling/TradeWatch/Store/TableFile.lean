/-
Tables as the text of a file: the name, the type and the cells of each column as JSON. Doubles are
kept as their bits, so that each of them comes back as it was.
-/
import TradeWatch.Json.Printer
import TradeWatch.Json.Reader
import TradeWatch.Table.Basic

namespace TradeWatch.TableFile

/-! ## Writing -/

def cells {α : Type} (f : α → Json) (xs : List (Option α)) : Json :=
  .arr (xs.map fun
    | none => .null
    | some x => f x)

def resolutionName : Time.Resolution → String
  | .second => "seconds"
  | .milli => "millis"
  | .micro => "micros"
  | .nano => "nanos"

def bitsOf (x : Float) : Json :=
  .ofNat x.toBits.toNat

/-- The type of a column by name, and its cells. -/
def columnMembers : Column → List (String × Json)
  | .text xs => [("type", .str "text"), ("cells", cells .str xs)]
  | .int xs => [("type", .str "int"), ("cells", cells .int xs)]
  | .real xs => [("type", .str "real"), ("cells", cells bitsOf xs)]
  | .flag xs => [("type", .str "flag"), ("cells", cells .bool xs)]
  | .date xs => [("type", .str "date"), ("cells", cells .int xs)]
  | .time unit none xs => [("type", .str (resolutionName unit)), ("cells", cells .int xs)]
  | .time unit (some zone) xs =>
    [("type", .str (resolutionName unit)), ("zone", .str zone), ("cells", cells .int xs)]
  | .blank n => [("type", .str "blank"), ("cells", .arr (List.replicate n .null))]
  | .texts xs => [("type", .str "texts"), ("cells", cells .strings xs)]
  | .ints xs => [("type", .str "ints"), ("cells", cells (cells .int) xs)]

def json (t : Table) : Json :=
  .obj [("columns", .arr (t.columns.map fun (name, c) =>
    .obj (("name", .str name) :: columnMembers c)))]

def encode (t : Table) : String :=
  (json t).compact

/-! ## Reading -/

def member? (name : String) : Json → Option Json
  | .obj ms => Dict.get? name ms
  | _ => none

def text? : Json → Option String
  | .str s => some s
  | _ => none

def int? : Json → Option Int
  | .int n => some n
  | _ => none

def flag? : Json → Option Bool
  | .bool b => some b
  | _ => none

def items? : Json → Option (List Json)
  | .arr xs => some xs
  | _ => none

def ofBits? (j : Json) : Option Float :=
  j.count?.map fun n => Float.ofBits (UInt64.ofNat n)

def cells? {α : Type} (f : Json → Option α) (j : Json) : Option (List (Option α)) := do
  (← items? j).mapM fun
    | .null => some none
    | x => (f x).map some

def resolution? (name : String) : Option Time.Resolution :=
  [Time.Resolution.second, .milli, .micro, .nano].find? fun u => resolutionName u == name

def column? (j : Json) : Option (String × Column) := do
  let name ← (member? "name" j).bind text?
  let type ← (member? "type" j).bind text?
  let xs ← member? "cells" j
  let column ←
    if type = "text" then (cells? text? xs).map .text
    else if type = "int" then (cells? int? xs).map .int
    else if type = "real" then (cells? ofBits? xs).map .real
    else if type = "flag" then (cells? flag? xs).map .flag
    else if type = "date" then (cells? int? xs).map .date
    else if type = "blank" then (items? xs).map fun items => .blank items.length
    else if type = "texts" then
      (cells? (fun x => (items? x).bind (·.mapM text?)) xs).map .texts
    else if type = "ints" then (cells? (cells? int?) xs).map .ints
    else do
      let unit ← resolution? type
      (cells? int? xs).map (.time unit ((member? "zone" j).bind text?))
  some (name, column)

/-- The table of a text; `none` for a text that no table is written as. -/
def decode (s : String) : Option Table := do
  let j ← (Json.parse s).toOption
  let columns ← ((member? "columns" j).bind items?)
  Table.ofColumns? (← columns.mapM column?)

end TradeWatch.TableFile

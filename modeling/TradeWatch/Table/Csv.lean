/-
Tables from comma-separated text: the first record names the columns, and each column has the type
that fits all its fields. An empty field is a missing cell; a field that looks like its type and
has no value of it makes the whole text unreadable.
-/
import TradeWatch.Table.Basic
import TradeWatch.Table.Csv.Kind
import TradeWatch.Table.Csv.Records

namespace TradeWatch.Csv

/-! ## Cells -/

def flag? (s : String) : Option Bool :=
  if Text.sameIgnoringCase s "true" then some true
  else if Text.sameIgnoringCase s "false" then some false
  else none

def day? (s : String) : Option Int :=
  (Time.wholeDate? s).map (·.toDay)

/-- A time as a count of units that fits into 64 bits. -/
def time64? (unit : Time.Resolution) (s : String) : Option Int :=
  ((Time.Stamp.read? s).map (·.count unit)).filter isSigned64

/-- The cells of a column; fields that are not empty have to have a value. -/
def cells? {α : Type} (read : String → Option α) (fields : List String) :
    Option (List (Option α)) :=
  fields.mapM fun s => if s = "" then some none else (read s).map some

def column? (fields : List String) : Option Column :=
  match Kind.ofFields? (fields.filter fun s => s != "") with
  | none => some (.blank fields.length)
  | some .flag => (cells? flag? fields).map .flag
  | some .int => (cells? integer? fields).map .int
  | some .real => (cells? Decimal.real? fields).map .real
  | some .date => (cells? day? fields).map .date
  | some (.time unit) => (cells? (time64? unit) fields).map (.time unit none)
  | some .text => (cells? some fields).map .text

/-! ## Tables -/

/-- The columns of records that all have one field for each name. -/
def columns? : List String → List (List String) → Option (List (String × Column))
  | [], _ => some []
  | name :: names, records => do
    let column ← column? (records.map fun r => r.headD "")
    let rest ← columns? names (records.map List.tail)
    some ((name, column) :: rest)

/-- A byte order mark in front of a text. -/
def byteOrderMark : Char := '\ufeff'

def withoutMark (cs : List Char) : List Char :=
  if cs.head? = some byteOrderMark then cs.tail else cs

/-- The table of a text. Without any character there is a table without columns; with blank lines
only there is none. -/
def table? (cs : List Char) : Option Table :=
  let cs := withoutMark cs
  match ofText cs with
  | [] => if cs.isEmpty then Table.ofColumns? [] else none
  | names :: records =>
    if records.all fun r => r.length == names.length then do
      Table.ofColumns? (← columns? names records)
    else none

/-- The table of the bytes of a file. -/
def read (bytes : ByteArray) : Except Fault Table :=
  match (String.fromUTF8? bytes).bind fun s => table? s.toList with
  | some t => .ok t
  | none => .error .table

end TradeWatch.Csv

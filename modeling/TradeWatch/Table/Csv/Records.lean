/-
Comma-separated text as records of fields. A quote opens a quoted field only as its first
character; inside, two quotes stand for one, and what follows the closing quote belongs to the
field as it is. A record ends with its line; empty lines are no records, and nothing is trimmed.
-/
namespace TradeWatch.Csv

/-- Where in a record the reader is. -/
inductive Mode
  | recordStart
  | fieldStart
  | bare
  | quoted
  /-- Behind a quote in a quoted field. -/
  | afterQuote
deriving DecidableEq, Repr

/-- What has been read of the current record, the last field and character first. -/
structure Pending where
  fields : List String
  field : List Char

namespace Pending

def empty : Pending := ⟨[], []⟩

def add (p : Pending) (c : Char) : Pending :=
  { p with field := c :: p.field }

def endField (p : Pending) : Pending :=
  ⟨String.ofList p.field.reverse :: p.fields, []⟩

def record (p : Pending) : List String :=
  p.endField.fields.reverse

end Pending

def isLineEnd (c : Char) : Bool :=
  c == '\n' || c == '\r'

def records : Mode → Pending → List Char → List (List String)
  | mode, p, [] => if mode = .recordStart then [] else [p.record]
  | mode, p, c :: cs =>
    match mode with
    | .recordStart =>
      if isLineEnd c then records .recordStart .empty cs
      else if c = '"' then records .quoted p cs
      else if c = ',' then records .fieldStart p.endField cs
      else records .bare (p.add c) cs
    | .fieldStart =>
      if isLineEnd c then p.record :: records .recordStart .empty cs
      else if c = '"' then records .quoted p cs
      else if c = ',' then records .fieldStart p.endField cs
      else records .bare (p.add c) cs
    | .bare =>
      if isLineEnd c then p.record :: records .recordStart .empty cs
      else if c = ',' then records .fieldStart p.endField cs
      else records .bare (p.add c) cs
    | .quoted =>
      if c = '"' then records .afterQuote p cs else records .quoted (p.add c) cs
    | .afterQuote =>
      if isLineEnd c then p.record :: records .recordStart .empty cs
      else if c = '"' then records .quoted (p.add c) cs
      else if c = ',' then records .fieldStart p.endField cs
      else records .bare (p.add c) cs

def ofText (cs : List Char) : List (List String) :=
  records .recordStart .empty cs

end TradeWatch.Csv

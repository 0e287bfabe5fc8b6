/-
The related accounts of an account, as they stand in one text cell: a JSON list, the same list with
single quotes, or ids between commas. The ids are trimmed, and only the first of equal ones and
none that is empty is kept.
-/
import TradeWatch.Json.Reader
import TradeWatch.Text.Trim

namespace TradeWatch.Relations

/-- Texts that stand for no list at all. -/
def emptyMarks : List String := ["[]", "null", "none", "nan"]

def isQuote (c : Char) : Bool :=
  c == '"' || c == '\''

/-- The pieces between commas, without brackets around the whole and quotes around each. -/
def bareIds (cs : List Char) : List String :=
  let inner := Text.stripEnd (· == ']') (cs.dropWhile (· == '['))
  (Text.cut ',' inner).map fun piece =>
    String.ofList (Text.strip isQuote (Text.trimChars piece))

def withDoubleQuotes (cs : List Char) : List Char :=
  cs.map fun c => if c = '\'' then '"' else c

/-- The ids as written, before trimming. -/
def rawIds (trimmed : List Char) : List String :=
  match Json.parseStrings (String.ofList trimmed) with
  | .ok ids => ids
  | .error _ =>
    match Json.parseStrings (String.ofList (withDoubleQuotes trimmed)) with
    | .ok ids => ids
    | .error _ => bareIds trimmed

/-- The members that are not empty, each where it occurs first. -/
def canonical (ids : List String) : List String :=
  ((ids.map Text.trim).filter fun id => id != "").eraseDups

def parse (cell : String) : List String :=
  let trimmed := Text.trimChars cell.toList
  if trimmed.isEmpty || emptyMarks.any (Text.sameIgnoringCase (String.ofList trimmed)) then []
  else canonical (rawIds trimmed)

end TradeWatch.Relations

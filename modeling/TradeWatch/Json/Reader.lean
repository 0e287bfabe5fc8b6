/-
Reading values. Lists and objects may be nested up to a depth; of members with one key the last
counts. A value of another type than the one asked for is read far enough to know that it is one.
-/
import TradeWatch.Json.Scan

namespace TradeWatch.Json

/-- How many lists and objects may be open at once. -/
def maxDepth : Nat := 127

/-- Any value, with `depth` levels of nesting left. -/
def value : Nat → Reader Json
  | depth, cs =>
    match skipSpace cs with
    | [] => .error .endOfInput
    | c :: cs =>
      if c = 'n' then do
        let (_, cs) ← word ['u', 'l', 'l'] cs
        .ok (.null, cs)
      else if c = 't' then do
        let (_, cs) ← word ['r', 'u', 'e'] cs
        .ok (.bool true, cs)
      else if c = 'f' then do
        let (_, cs) ← word ['a', 'l', 's', 'e'] cs
        .ok (.bool false, cs)
      else if c = '"' then do
        let (s, cs) ← string cs
        .ok (.str s, cs)
      else if c = '-' ∨ c.isDigit then number (c :: cs)
      else if c = '[' then
        match depth with
        | 0 => .error .malformed
        | depth + 1 => do
          let (items, cs) ← elements (value depth) (cs.length + 1) true cs
          .ok (.arr items, cs)
      else if c = '\x7b' then
        match depth with
        | 0 => .error .malformed
        | depth + 1 => do
          let (pairs, cs) ← members string (value depth) (cs.length + 1) true cs
          .ok (.obj (Dict.ofList pairs), cs)
      else .error .malformed

/-- The fault of a value that is not of the type asked for. -/
def mismatch (cs : List Char) : Fault :=
  match cs with
  | [] => .malformed
  | c :: rest =>
    if c = '[' ∨ c = '\x7b' then .wrongType
    else match value 0 (c :: rest) with
      | .error e => e
      | .ok _ => .wrongType

/-- All of a text; only blanks may follow what is read. -/
def whole {α : Type} (read : Reader α) (s : String) : Except Fault α := do
  let (x, rest) ← read s.toList
  if (skipSpace rest).isEmpty then .ok x else .error .malformed

def parse (s : String) : Except Fault Json :=
  whole (value maxDepth) s

/-- A string value. -/
def stringValue : Reader String := fun cs =>
  match skipSpace cs with
  | [] => .error .endOfInput
  | c :: cs => if c = '"' then string cs else .error (mismatch (c :: cs))

/-- A list of strings. -/
def stringList : Reader (List String) := fun cs =>
  match skipSpace cs with
  | [] => .error .endOfInput
  | c :: cs =>
    if c = '[' then elements stringValue (cs.length + 1) true cs
    else .error (mismatch (c :: cs))

/-- A number of any kind. -/
def numberValue : Reader Json := fun cs =>
  match skipSpace cs with
  | [] => .error .endOfInput
  | c :: cs => if c = '-' ∨ c.isDigit then number (c :: cs) else .error (mismatch (c :: cs))

/-- An integer within a range. -/
def integer (range : Int → Bool) : Reader Int := fun cs => do
  match ← numberValue cs with
  | (.int n, cs) => if range n then .ok (n, cs) else .error .wrongType
  | _ => .error .wrongType

/-- A signed integer of 64 bits. -/
def signed : Reader Int :=
  integer isSigned64

/-- A count of 64 bits. -/
def unsigned : Reader Nat := fun cs => do
  let (n, cs) ← integer isUnsigned64 cs
  .ok (n.toNat, cs)

/-- A double; integers are accepted and rounded. -/
def double : Reader Float := fun cs => do
  match ← numberValue cs with
  | (.int n, cs) => .ok (Decimal.ofInt n, cs)
  | (.float x, cs) => .ok (x, cs)
  | _ => .error .wrongType

def boolean : Reader Bool := fun cs =>
  match skipSpace cs with
  | [] => .error .endOfInput
  | c :: cs =>
    if c = 't' then do
      let (_, cs) ← word ['r', 'u', 'e'] cs
      .ok (true, cs)
    else if c = 'f' then do
      let (_, cs) ← word ['a', 'l', 's', 'e'] cs
      .ok (false, cs)
    else .error (mismatch (c :: cs))

/-- `null`, or what `read` reads. -/
def optional {α : Type} (read : Reader α) : Reader (Option α) := fun cs =>
  match skipSpace cs with
  | 'n' :: cs => do
    let (_, cs) ← word ['u', 'l', 'l'] cs
    .ok (none, cs)
  | cs => do
    let (x, cs) ← read cs
    .ok (some x, cs)

/-- An object with any values. -/
def object : Reader (Dict Json) := fun cs =>
  match skipSpace cs with
  | [] => .error .endOfInput
  | c :: cs =>
    if c = '\x7b' then do
      let (pairs, cs) ← members string (value (maxDepth - 1)) (cs.length + 1) true cs
      .ok (Dict.ofList pairs, cs)
    else .error (mismatch (c :: cs))

def parseStrings (s : String) : Except Fault (List String) :=
  whole stringList s

def parseObject (s : String) : Except Fault (Dict Json) :=
  whole object s

end TradeWatch.Json

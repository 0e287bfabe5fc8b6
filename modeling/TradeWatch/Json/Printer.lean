/-
JSON text, without blanks or over several lines. Quotes, backslashes and control characters are
escaped and nothing else; doubles have the fewest digits that read back.
-/
import TradeWatch.Json.Basic
import TradeWatch.Decimal.Layout

namespace TradeWatch.Json

/-! ## Strings -/

def escapeChar (c : Char) : List Char :=
  if c = '"' then ['\\', '"']
  else if c = '\\' then ['\\', '\\']
  else if c = '\x08' then ['\\', 'b']
  else if c = '\x0c' then ['\\', 'f']
  else if c = '\n' then ['\\', 'n']
  else if c = '\r' then ['\\', 'r']
  else if c = '\t' then ['\\', 't']
  else if c.toNat < 0x20 then
    ['\\', 'u', '0', '0', Nat.digitChar (c.toNat / 16), Nat.digitChar (c.toNat % 16)]
  else [c]

def quoteChars (s : String) : List Char :=
  '"' :: s.toList.flatMap escapeChar ++ ['"']

/-! ## Values -/

mutual

def chars : Json → List Char
  | .null => ['n', 'u', 'l', 'l']
  | .bool true => ['t', 'r', 'u', 'e']
  | .bool false => ['f', 'a', 'l', 's', 'e']
  | .int n => (Text.intDigits n).toList
  | .float x => (Decimal.Layout.json.write x).toList
  | .str s => quoteChars s
  | .arr [] => ['[', ']']
  | .arr (x :: xs) => '[' :: chars x ++ itemChars xs
  | .obj [] => ['\x7b', '\x7d']
  | .obj ((k, x) :: xs) => '\x7b' :: quoteChars k ++ ':' :: chars x ++ memberChars xs

/-- The items after the first one, and the closing bracket. -/
def itemChars : List Json → List Char
  | [] => [']']
  | x :: xs => ',' :: chars x ++ itemChars xs

/-- The members after the first one, and the closing brace. -/
def memberChars : List (String × Json) → List Char
  | [] => ['\x7d']
  | (k, x) :: xs => ',' :: quoteChars k ++ ':' :: chars x ++ memberChars xs

end

def compact (j : Json) : String :=
  String.ofList j.chars

/-! ## Over several lines -/

/-- A new line with `depth` levels of indentation. -/
def lineBreak (depth : Nat) : List Char :=
  '\n' :: List.replicate (2 * depth) ' '

mutual

/-- A value that starts at some level of indentation; empty lists and objects stay on one line. -/
def indentedChars (depth : Nat) : Json → List Char
  | .arr [] => ['[', ']']
  | .arr (x :: xs) =>
    '[' :: lineBreak (depth + 1) ++ indentedChars (depth + 1) x ++ indentedItems depth xs
  | .obj [] => ['\x7b', '\x7d']
  | .obj ((k, x) :: xs) =>
    '\x7b' :: lineBreak (depth + 1) ++ quoteChars k ++ [':', ' '] ++ indentedChars (depth + 1) x ++
      indentedMembers depth xs
  | .null => chars .null
  | .bool b => chars (.bool b)
  | .int n => chars (.int n)
  | .float x => chars (.float x)
  | .str s => chars (.str s)

def indentedItems (depth : Nat) : List Json → List Char
  | [] => lineBreak depth ++ [']']
  | x :: xs =>
    ',' :: lineBreak (depth + 1) ++ indentedChars (depth + 1) x ++ indentedItems depth xs

def indentedMembers (depth : Nat) : List (String × Json) → List Char
  | [] => lineBreak depth ++ ['\x7d']
  | (k, x) :: xs =>
    ',' :: lineBreak (depth + 1) ++ quoteChars k ++ [':', ' '] ++ indentedChars (depth + 1) x ++
      indentedMembers depth xs

end

/-- The value over several lines, each level indented by two blanks. -/
def pretty (j : Json) : String :=
  String.ofList (j.indentedChars 0)

end TradeWatch.Json

/-
Values that nobody keeps. They have to be well formed, but may be nested to any depth, and neither
the range of a number nor the pairing of escapes is looked at.
-/
import TradeWatch.Json.Reader

namespace TradeWatch.Json

/-- An escape, whatever character it stands for. -/
def skipEscape : Reader Char
  | [] => .error .endOfInput
  | c :: cs =>
    if c = 'u' then do
      let (_, cs) ← hex4 cs
      .ok (c, cs)
    else if (shortEscape? c).isSome then .ok (c, cs)
    else .error .malformed

def skipString : Reader Unit := fun cs => do
  let (_, cs) ← stringChars skipEscape (cs.length + 1) cs
  .ok ((), cs)

def skipNumber : Reader Unit := fun cs => do
  let (_, cs) ← match cs with
    | '-' :: cs => numberParts .malformed true cs
    | cs => numberParts .malformed false cs
  .ok ((), cs)

/-- Any value, passed over. The fuel bounds the nesting and the items of a list; more than the
length of the text is enough. -/
def skipNested : Nat → Reader Unit
  | 0, _ => .error .malformed
  | fuel + 1, cs =>
    match skipSpace cs with
    | [] => .error .endOfInput
    | c :: cs =>
      if c = 'n' then word ['u', 'l', 'l'] cs
      else if c = 't' then word ['r', 'u', 'e'] cs
      else if c = 'f' then word ['a', 'l', 's', 'e'] cs
      else if c = '"' then skipString cs
      else if c = '-' ∨ c.isDigit then skipNumber (c :: cs)
      else if c = '[' then do
        let (_, cs) ← elements (skipNested fuel) fuel true cs
        .ok ((), cs)
      else if c = '\x7b' then do
        let (_, cs) ← members skipString (skipNested fuel) fuel true cs
        .ok ((), cs)
      else .error .malformed

def skip : Reader Unit := fun cs =>
  skipNested (cs.length + 1) cs

end TradeWatch.Json

/-
Paths and the texts that name them. A path is the list of the names from the root on. A text is a
path only with respect to files and directories, which decide where its pieces lead; here stand the
parts of that which depend on the text alone.
-/
import TradeWatch.Text.Trim

namespace TradeWatch

abbrev Path := List String

/-! ## Limits -/

/-- The most bytes that a name and a whole text may have, where there is a bound. -/
structure PathLimits where
  name : Option Nat
  text : Option Nat
deriving DecidableEq, Repr

namespace PathLimits

def unlimited : PathLimits := ⟨none, none⟩

/-- The limits of most file systems. -/
def usual : PathLimits := ⟨some 255, some 4095⟩

def within (limit : Option Nat) (s : String) : Bool :=
  match limit with
  | none => true
  | some n => decide (s.utf8ByteSize ≤ n)

def admitsName (l : PathLimits) (name : String) : Bool :=
  within l.name name

/-- Whether a text can name anything; one with a NUL in it cannot. -/
def admitsText (l : PathLimits) (text : String) : Bool :=
  within l.text text && !text.toList.contains (Char.ofNat 0)

end PathLimits

namespace Path

/-! ## Texts -/

/-- The pieces of a text between its slashes, of which there is at least one. -/
def pieces (text : String) : List String :=
  (Text.cut '/' text.toList).map String.ofList

/-- The pieces that have to lead through directories. -/
def parents (text : String) : List String :=
  (pieces text).dropLast

/-- The piece after the last slash. -/
def lastPiece (text : String) : String :=
  (pieces text).getLast?.getD ""

/-- The text up to its last slash. -/
def parentText (text : String) : String :=
  "/".intercalate (parents text)

/-- Whether a piece stays in a directory or goes back from it; any other piece is a name. -/
def isStep (piece : String) : Bool :=
  piece == "" || piece == "." || piece == ".."

/-- Where a text starts: at the root if it has a slash there, and in `base` otherwise. -/
def start (base : Path) (text : String) : Path :=
  if text.toList.head? = some '/' then [] else base

/-- A text below another one: with a slash between them unless there is one, and the second text
alone if it starts at the root. -/
def joinText (a b : String) : String :=
  if b.toList.head? = some '/' then b
  else if a = "" ∨ a.toList.getLast? = some '/' then a ++ b
  else a ++ "/" ++ b

def text (p : Path) : String :=
  "/".intercalate p

end Path

end TradeWatch

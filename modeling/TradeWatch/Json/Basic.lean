/-
JSON values. The members of an object that is read or stored stand in ascending key order, one for
each key. Integers and doubles are different numbers even when they have the same value.
-/
import TradeWatch.Dict
import TradeWatch.Word

namespace TradeWatch

inductive Json
  | null
  | bool (b : Bool)
  | int (n : Int)
  | float (x : Float)
  | str (s : String)
  | arr (items : List Json)
  | obj (members : List (String × Json))
deriving Inhabited

namespace Json

/-- A double as a value; JSON has no infinities and nothing that is no number. -/
def ofFloat (x : Float) : Json :=
  if x.isFinite then .float x else .null

def ofNat (n : Nat) : Json :=
  .int n

def strings (xs : List String) : Json :=
  .arr (xs.map .str)

/-- The value as a count. An integer is a value of its own only within 64 bits, so the upper bound
is not looked at again. -/
def count? : Json → Option Nat
  | .int n => if 0 ≤ n then some n.toNat else none
  | _ => none

mutual

/-- Equality of values, with doubles compared as numbers. -/
def agrees : Json → Json → Bool
  | .null, .null => true
  | .bool a, .bool b => a == b
  | .int m, .int n => m == n
  | .float x, .float y => x == y
  | .str s, .str t => s == t
  | .arr xs, .arr ys => agreesAll xs ys
  | .obj ms, .obj ns => agreesMembers ms ns
  | _, _ => false

def agreesAll : List Json → List Json → Bool
  | [], [] => true
  | x :: xs, y :: ys => agrees x y && agreesAll xs ys
  | _, _ => false

def agreesMembers : List (String × Json) → List (String × Json) → Bool
  | [], [] => true
  | (k, x) :: xs, (l, y) :: ys => k == l && agrees x y && agreesMembers xs ys
  | _, _ => false

end

end Json

end TradeWatch

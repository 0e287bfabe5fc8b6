/-
Dictionaries with text keys as lists of pairs in ascending key order. `insert` keeps the order and
replaces the value of a key that is already present.
-/
namespace TradeWatch

abbrev Dict (α : Type) := List (String × α)

namespace Dict

def insert {α : Type} (key : String) (value : α) : Dict α → Dict α
  | [] => [(key, value)]
  | (k, v) :: rest =>
    if key = k then (key, value) :: rest
    else if key < k then (key, value) :: (k, v) :: rest
    else (k, v) :: insert key value rest

def get? {α : Type} (key : String) : Dict α → Option α
  | [] => none
  | (k, v) :: rest => if key = k then some v else get? key rest

def erase {α : Type} (key : String) (d : Dict α) : Dict α :=
  d.filter fun entry => entry.1 != key

/-- Inserts the pairs one after the other, so the last value of a key stands. -/
def ofList {α : Type} (pairs : List (String × α)) : Dict α :=
  pairs.foldl (fun d entry => d.insert entry.1 entry.2) []

/-- How often each text occurs. -/
def counts (xs : List String) : Dict Nat :=
  xs.foldl (fun d x => d.insert x ((d.get? x).getD 0 + 1)) []

end Dict

end TradeWatch

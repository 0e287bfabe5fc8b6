/-
Grouping by key. The distinct keys of a list come in ascending order, and the members of a key keep
the order in which they were met. Text is ordered by code point, which is also the order of its
bytes.
-/
namespace TradeWatch

def textLe (a b : String) : Bool :=
  decide (a ≤ b)

/-- Pairs of texts, the first component deciding first. -/
def pairLe (a b : String × String) : Bool :=
  decide (a.1 < b.1) || (a.1 == b.1 && textLe a.2 b.2)

def intLe (a b : Int) : Bool :=
  decide (a ≤ b)

/-- The distinct members in ascending order. -/
def ascending {κ : Type} [BEq κ] (le : κ → κ → Bool) (xs : List κ) : List κ :=
  xs.eraseDups.mergeSort le

/-- Each key with its members, keys ascending. -/
def grouped {κ α : Type} [BEq κ] (le : κ → κ → Bool) (key : α → κ) (xs : List α) :
    List (κ × List α) :=
  (ascending le (xs.map key)).map fun k => (k, xs.filter fun x => key x == k)

end TradeWatch

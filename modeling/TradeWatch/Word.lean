/-
Integers of 64 bits by their ranges, and powers of small bases.
-/
namespace TradeWatch

/-- The number of words of 32 bits. -/
def words32 : Nat := 4294967296

/-- The number of words of 64 bits; unsigned ones lie below. -/
def words64 : Nat := 18446744073709551616

/-- Signed words of 64 bits lie below. -/
def signedEnd : Nat := 9223372036854775808

def isSigned64 (n : Int) : Bool :=
  decide (-(signedEnd : Int) ≤ n ∧ n < signedEnd)

def isUnsigned64 (n : Int) : Bool :=
  decide (0 ≤ n ∧ n < words64)

def pow2 (k : Nat) : Nat := Nat.pow 2 k
def pow5 (k : Nat) : Nat := Nat.pow 5 k
def pow10 (k : Nat) : Nat := Nat.pow 10 k

end TradeWatch

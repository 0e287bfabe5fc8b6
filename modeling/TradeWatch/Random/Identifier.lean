/-
Random identifiers: 128 bits from a stream of random words in hexadecimal groups, six of the bits
saying that they are random.
-/
import TradeWatch.Random.ChaCha

namespace TradeWatch.Random

/-- The lowest `count` hexadecimal digits of a number, the most significant first. -/
def hexDigits : Nat → Nat → List Char
  | 0, _ => []
  | count + 1, n => hexDigits count (n / 16) ++ [Nat.digitChar (n % 16)]

/-- The identifier made of two numbers of 64 bits. -/
def identifierOf (high low : Nat) : String :=
  let high := high / 0x10000 * 0x10000 + 0x4000 + high % 0x1000
  let low := signedEnd + low % pow2 62
  let hs := hexDigits 16 high
  let ls := hexDigits 16 low
  "-".intercalate ([hs.take 8, (hs.drop 8).take 4, hs.drop 12, ls.take 4, ls.drop 4].map
    String.ofList)

/-- The identifier with this number in the stream of a seed. -/
def identifier (seed : UInt64) (number : Nat) : String :=
  let (high, g) := (Generator.ofSeed (seed + UInt64.ofNat number)).wide
  let (low, _) := g.wide
  identifierOf high low

end TradeWatch.Random

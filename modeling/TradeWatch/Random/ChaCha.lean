/-
A stream of pseudo-random words from a seed of 64 bits: ChaCha with twelve rounds over a block
counter, the key being spread from the seed. Numbers below a bound are drawn without bias, by
drawing again when a draw falls into the incomplete last part of the range.
-/
import TradeWatch.Word

namespace TradeWatch.Random

/-! ## The block function -/

/-- Four words side by side. -/
structure Row where
  w0 : UInt32
  w1 : UInt32
  w2 : UInt32
  w3 : UInt32
deriving DecidableEq, Repr

def rotated (w : UInt32) (k : UInt32) : UInt32 :=
  (w <<< k) ||| (w >>> (32 - k))

namespace Row

def add (a b : Row) : Row :=
  ⟨a.w0 + b.w0, a.w1 + b.w1, a.w2 + b.w2, a.w3 + b.w3⟩

/-- Exclusive or, then a rotation of each word to the left. -/
def mix (a b : Row) (k : UInt32) : Row :=
  ⟨rotated (a.w0 ^^^ b.w0) k, rotated (a.w1 ^^^ b.w1) k, rotated (a.w2 ^^^ b.w2) k,
    rotated (a.w3 ^^^ b.w3) k⟩

/-- The words moved one place to the front. -/
def turn (r : Row) : Row :=
  ⟨r.w1, r.w2, r.w3, r.w0⟩

def toList (r : Row) : List UInt32 :=
  [r.w0, r.w1, r.w2, r.w3]

end Row

/-- Sixteen words in four rows. -/
structure Block where
  a : Row
  b : Row
  c : Row
  d : Row
deriving DecidableEq, Repr

namespace Block

/-- A quarter round on each of the four columns. -/
def columnRound (s : Block) : Block :=
  let a := s.a.add s.b
  let d := s.d.mix a 16
  let c := s.c.add d
  let b := s.b.mix c 12
  let a := a.add b
  let d := d.mix a 8
  let c := c.add d
  let b := b.mix c 7
  ⟨a, b, c, d⟩

/-- The columns, and then the diagonals. -/
def doubleRound (s : Block) : Block :=
  let s := s.columnRound
  let s := columnRound ⟨s.a, s.b.turn, s.c.turn.turn, s.d.turn.turn.turn⟩
  ⟨s.a, s.b.turn.turn.turn, s.c.turn.turn, s.d.turn⟩

def rounds : Nat → Block → Block
  | 0, s => s
  | n + 1, s => rounds n s.doubleRound

def add (s t : Block) : Block :=
  ⟨s.a.add t.a, s.b.add t.b, s.c.add t.c, s.d.add t.d⟩

def words (s : Block) : List UInt32 :=
  s.a.toList ++ s.b.toList ++ s.c.toList ++ s.d.toList

end Block

/-- The first row of every block. -/
def constants : Row :=
  ⟨0x61707865, 0x3320646e, 0x79622d32, 0x6b206574⟩

structure Key where
  low : Row
  high : Row
deriving DecidableEq, Repr

/-- The block with this number in the stream of a key. -/
def Key.block (key : Key) (number : UInt64) : Block :=
  let start : Block :=
    ⟨constants, key.low, key.high, ⟨number.toUInt32, (number >>> 32).toUInt32, 0, 0⟩⟩
  (Block.rounds 6 start).add start

/-! ## The key of a seed -/

def nextSeed (s : UInt64) : UInt64 :=
  s * 6364136223846793005 + 11634580027462260723

/-- A word of the key from a state of the seed. -/
def seedWord (s : UInt64) : UInt32 :=
  let x := (((s >>> 18) ^^^ s) >>> 27).toUInt32
  let k := (s >>> 59).toUInt32
  (x >>> k) ||| (x <<< ((32 - k) % 32))

def seedRow (s : UInt64) : Row × UInt64 :=
  let s0 := nextSeed s
  let s1 := nextSeed s0
  let s2 := nextSeed s1
  let s3 := nextSeed s2
  (⟨seedWord s0, seedWord s1, seedWord s2, seedWord s3⟩, s3)

def Key.ofSeed (seed : UInt64) : Key :=
  let (low, s) := seedRow seed
  let (high, _) := seedRow s
  ⟨low, high⟩

/-! ## Drawing -/

/-- The words of the current block that are still unused, and the number of the next block. -/
structure Generator where
  key : Key
  pending : List UInt32
  nextBlock : UInt64
deriving DecidableEq, Repr

namespace Generator

def ofSeed (seed : UInt64) : Generator :=
  ⟨Key.ofSeed seed, [], 0⟩

def word (g : Generator) : UInt32 × Generator :=
  match g.pending with
  | w :: rest => (w, { g with pending := rest })
  | [] =>
    match (g.key.block g.nextBlock).words with
    | w :: rest => (w, ⟨g.key, rest, g.nextBlock + 1⟩)
    | [] => (0, g)

/-- Two words as one of 64 bits, the first being the lower half. -/
def wide (g : Generator) : Nat × Generator :=
  let (low, g) := g.word
  let (high, g) := g.word
  (high.toNat * words32 + low.toNat, g)

/-- The greatest remainder that is kept: the bound times a power of two, less one. -/
def acceptance (bound : Nat) : Nat :=
  bound * pow2 (63 - bound.log2) - 1

/-- The number does not fall into the incomplete last part of the range. -/
def isKept (bound v : Nat) : Bool :=
  decide (v * bound % words64 ≤ acceptance bound)

instance : Nonempty (Nat × Generator) :=
  ⟨0, ofSeed 0⟩

/-- One round of a draw: the number below `bound` if it is kept, else the place to go on from. -/
def attempt (bound : Nat) (g : Generator) : Generator ⊕ (Nat × Generator) :=
  let (v, g) := g.wide
  if isKept bound v then .inr (v * bound / words64, g) else .inl g

/-- A number below `bound`, drawn again until one is kept. Of a stream in which none is ever kept
this says nothing. -/
def index (bound : Nat) (g : Generator) : Nat × Generator :=
  repeatM (m := Id) (attempt bound) g

end Generator

end TradeWatch.Random

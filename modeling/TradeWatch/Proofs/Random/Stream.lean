/-
The stream behind the draws. A generator is a place in a stream of numbers of 64 bits, and to draw
below a bound is to go on to the next number of the stream that is kept. The stream of a seed comes
round again after all its blocks, so if there is one number to keep there is always another one.
-/
import Mathlib.Tactic
import TradeWatch.Random.ChaCha

namespace TradeWatch.Random.Generator

/-! ## Places in a stream -/

/-- The generator that many numbers of 64 bits further on. -/
def skip : ℕ → Generator → Generator
  | 0, g => g
  | n + 1, g => skip n g.wide.2

/-- The first numbers of the stream. -/
def numbers : ℕ → Generator → List ℕ
  | 0, _ => []
  | n + 1, g => g.wide.1 :: numbers n g.wide.2

/-- The first numbers of the stream that are kept, made into numbers below the bound. -/
def kept (bound n : ℕ) (g : Generator) : List ℕ :=
  ((g.numbers n).filter (isKept bound)).map fun v => v * bound / words64

/-- There is a number to keep from here on, so a draw comes to its end. -/
def Ends (bound : ℕ) (g : Generator) : Prop :=
  ∃ n, isKept bound (g.skip n).wide.1 = true

/-- Each draw comes to its end, however many there were before. -/
def Lasts (bound : ℕ) (g : Generator) : Prop :=
  ∀ n, (g.skip n).Ends bound

theorem skip_add (n m : ℕ) (g : Generator) : g.skip (n + m) = (g.skip n).skip m := by
  induction n generalizing g with
  | zero => rw [Nat.zero_add, skip]
  | succ n ih => rw [Nat.succ_add, skip, skip, ih]

theorem numbers_add (n m : ℕ) (g : Generator) :
    g.numbers (n + m) = g.numbers n ++ (g.skip n).numbers m := by
  induction n generalizing g with
  | zero => rw [Nat.zero_add, numbers, skip, List.nil_append]
  | succ n ih => rw [Nat.succ_add, numbers, numbers, skip, ih, List.cons_append]

theorem kept_add (bound n m : ℕ) (g : Generator) :
    g.kept bound (n + m) = g.kept bound n ++ (g.skip n).kept bound m := by
  unfold kept
  rw [numbers_add, List.filter_append, List.map_append]

theorem kept_isPrefix (bound : ℕ) (g : Generator) {n m : ℕ} (h : n ≤ m) :
    g.kept bound n <+: g.kept bound m := by
  obtain ⟨k, rfl⟩ := Nat.exists_eq_add_of_le h
  rw [kept_add]
  exact List.prefix_append _ _

theorem Lasts.skip {bound : ℕ} {g : Generator} (h : g.Lasts bound) (n : ℕ) :
    (g.skip n).Lasts bound := by
  intro m
  rw [← skip_add]
  exact h (n + m)

theorem Lasts.ends {bound : ℕ} {g : Generator} (h : g.Lasts bound) : g.Ends bound :=
  h 0

theorem index_of_kept {bound : ℕ} {g : Generator} (h : isKept bound g.wide.1 = true) :
    g.index bound = (g.wide.1 * bound / words64, g.skip 1) := by
  have hround : attempt bound g = .inr (g.wide.1 * bound / words64, g.skip 1) := if_pos h
  unfold index
  rw [repeatM_eq_of_monadTail, repeatM.body, hround]
  rfl

theorem index_of_not_kept {bound : ℕ} {g : Generator} (h : ¬ isKept bound g.wide.1 = true) :
    g.index bound = (g.skip 1).index bound := by
  have hround : attempt bound g = .inl (g.skip 1) := if_neg h
  unfold index
  rw [repeatM_eq_of_monadTail, repeatM.body, hround]
  rfl

theorem kept_one (bound : ℕ) (g : Generator) :
    g.kept bound 1 = if isKept bound g.wide.1 then [g.wide.1 * bound / words64] else [] := by
  simp only [kept, numbers, List.filter_cons, List.filter_nil]
  split <;> rfl

/-- A draw goes on up to the next number that is kept and takes just that one. -/
theorem exists_index_eq {bound : ℕ} {g : Generator} (h : g.Ends bound) :
    ∃ n i, g.index bound = (i, g.skip n) ∧ g.kept bound n = [i] := by
  obtain ⟨n, hn⟩ := h
  induction n generalizing g with
  | zero => exact ⟨1, _, index_of_kept hn, (kept_one bound g).trans (if_pos hn)⟩
  | succ n ih =>
    by_cases hg : isKept bound g.wide.1 = true
    · exact ⟨1, _, index_of_kept hg, (kept_one bound g).trans (if_pos hg)⟩
    · obtain ⟨m, i, hindex, hkept⟩ := ih hn
      refine ⟨1 + m, i, ?_, ?_⟩
      · rw [index_of_not_kept hg, skip_add]
        exact hindex
      · rw [kept_add, kept_one, if_neg hg, List.nil_append]
        exact hkept

/-! ## Numbers of 64 bits -/

theorem wide_lt (g : Generator) : g.wide.1 < words64 := by
  have hlow := g.word.1.toNat_lt
  have hhigh := g.word.2.word.1.toNat_lt
  have hwide : g.wide.1 = g.word.2.word.1.toNat * words32 + g.word.1.toNat := rfl
  unfold words64
  unfold words32 at hwide
  omega

theorem lt_of_mem_numbers {n v : ℕ} {g : Generator} (h : v ∈ g.numbers n) : v < words64 := by
  induction n generalizing g with
  | zero => cases h
  | succ n ih =>
    rcases List.mem_cons.1 h with rfl | h
    · exact g.wide_lt
    · exact ih h

/-- What is drawn lies below the bound. -/
theorem lt_of_mem_kept {bound n i : ℕ} {g : Generator} (hbound : 0 < bound)
    (h : i ∈ g.kept bound n) : i < bound := by
  obtain ⟨v, hv, rfl⟩ := List.mem_map.1 h
  have hlt := lt_of_mem_numbers (List.mem_filter.1 hv).1
  rw [Nat.div_lt_iff_lt_mul (by decide), Nat.mul_comm]
  exact Nat.mul_lt_mul_of_pos_left hlt hbound

/-! ## The stream of a seed -/

/-- A block has eight numbers of 64 bits. -/
theorem skip_block (key : Key) (block : UInt64) :
    skip 8 ⟨key, [], block⟩ = ⟨key, [], block + 1⟩ := by
  rfl

theorem skip_blocks (key : Key) (block : UInt64) (n : ℕ) :
    skip (8 * n) ⟨key, [], block⟩ = ⟨key, [], block + UInt64.ofNat n⟩ := by
  induction n with
  | zero => simp [skip]
  | succ n ih =>
    rw [Nat.mul_succ, skip_add, ih, skip_block, UInt64.ofNat_add, ← UInt64.add_assoc]
    rfl

/-- After all blocks the first one comes again. -/
theorem skip_cycles (seed : UInt64) (n : ℕ) :
    (ofSeed seed).skip (8 * (words64 * n)) = ofSeed seed := by
  have hround : UInt64.ofNat (words64 * n) = 0 := by
    rw [← UInt64.toNat_inj, UInt64.toNat_ofNat']
    exact Nat.mul_mod_right words64 n
  unfold ofSeed
  rw [skip_blocks, hround, UInt64.add_zero]

theorem lasts_ofSeed {bound : ℕ} {seed : UInt64} (h : (ofSeed seed).Ends bound) :
    (ofSeed seed).Lasts bound := by
  obtain ⟨k, hk⟩ := h
  intro n
  -- the number to keep comes again in a cycle behind the place
  have hle : n ≤ 8 * (words64 * n) + k := by unfold words64; omega
  refine ⟨8 * (words64 * n) + k - n, ?_⟩
  rw [← skip_add, Nat.add_sub_cancel' hle, skip_add, skip_cycles]
  exact hk

end TradeWatch.Random.Generator

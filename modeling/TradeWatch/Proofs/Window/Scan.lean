/-
Windows against a plain scan. To scan the history is to go through it occurrence by occurrence, a
trade being told from an equal one by its place, and to put those that match in order of time and
then of place. There is just one outcome, and the window has it, however the bounds lie.
-/
import TradeWatch.Proofs.Window

namespace TradeWatch.TradeIndex

open Time (Instant)

/-! ## Scans -/

/-- Earlier in time, or at the same moment and earlier in the history. -/
def ComesBefore (s t : Trade × ℕ) : Prop :=
  s.1.time.nanos < t.1.time.nanos ∨ s.1.time.nanos = t.1.time.nanos ∧ s.2 < t.2

/-- The trades of the history that satisfy `P`, each with its place, in order. -/
structure Occurrences (trades : List Trade) (P : Trade → Prop) (found : List (Trade × ℕ)) :
    Prop where
  mem_iff : ∀ o, o ∈ found ↔ o ∈ trades.zipIdx ∧ P o.1
  ordered : found.Pairwise ComesBefore

/-- What is left of the history where only the trades that satisfy `P` are taken, in order. -/
def Scan (trades : List Trade) (P : Trade → Prop) (rows : List Trade) : Prop :=
  ∃ found, Occurrences trades P found ∧ rows = found.map (·.1)

section Scan

variable {trades : List Trade} {P : Trade → Prop}

theorem Occurrences.nodup {found : List (Trade × ℕ)} (h : Occurrences trades P found) :
    found.Nodup := by
  refine h.ordered.imp fun {s t} hst => ?_
  rintro rfl
  exact hst.elim (lt_irrefl _) fun h => lt_irrefl _ h.2

theorem Occurrences.unique {found found' : List (Trade × ℕ)} (h : Occurrences trades P found)
    (h' : Occurrences trades P found') : found = found' := by
  have hperm : found.Perm found' :=
    (List.perm_ext_iff_of_nodup h.nodup h'.nodup).2 fun o =>
      (h.mem_iff o).trans (h'.mem_iff o).symm
  refine hperm.eq_of_pairwise (fun s t _ _ hst hts => ?_) h.ordered h'.ordered
  unfold ComesBefore at hst hts
  omega

/-- What is in order of its keys, and for each key in some other order, is in the order of both. -/
theorem pairwise_lex {α : Type} {key : α → ℤ} {R : α → α → Prop} {xs : List α}
    (h : xs.Pairwise fun a b => key a ≤ key b)
    (hR : ∀ k, (xs.filter fun a => key a = k).Pairwise R) :
    xs.Pairwise fun a b => key a < key b ∨ key a = key b ∧ R a b := by
  induction xs with
  | nil => exact .nil
  | cons a xs ih =>
    obtain ⟨ha, hxs⟩ := List.pairwise_cons.1 h
    refine List.pairwise_cons.2 ⟨fun b hb => ?_, ih hxs fun k => ?_⟩
    · refine (lt_or_eq_of_le (ha b hb)).imp_right fun hab => ⟨hab, ?_⟩
      have hsame := hR (key a)
      rw [List.filter_cons_of_pos (by simp)] at hsame
      exact List.rel_of_pairwise_cons hsame
        (List.mem_filter.2 ⟨hb, decide_eq_true hab.symm⟩)
    · exact (hR k).sublist ((List.sublist_cons_self a xs).filter _)

theorem occurrences_of_perm [DecidablePred P] {found : List (Trade × ℕ)}
    (h : found.Perm (trades.zipIdx.filter fun o => P o.1)) (ordered : found.Pairwise ComesBefore) :
    Occurrences trades P found := by
  refine ⟨fun o => ?_, ordered⟩
  rw [h.mem_iff, List.mem_filter, decide_eq_true_iff]

/-- To sort the trades that satisfy `P` by time is to put their occurrences in order. -/
theorem occurrences_mergeSort (trades : List Trade) (P : Trade → Prop) [DecidablePred P] :
    Occurrences trades P ((trades.zipIdx.filter fun o => P o.1).mergeSort
      (keyLe fun o => o.1.time.nanos)) := by
  refine occurrences_of_perm (List.mergeSort_perm _ _) ?_
  refine pairwise_lex (pairwise_mergeSort_keyLe _ _) fun nanos => ?_
  rw [keepsOrder_mergeSort]
  -- the places of the whole history ascend, and so do those of a part of it
  have hplaces : trades.zipIdx.Pairwise fun s t => s.2 < t.2 := by
    rw [← List.pairwise_map, List.zipIdx_map_snd]
    exact List.pairwise_lt_range'
  exact (hplaces.filter _).filter _

theorem scan_iff [DecidablePred P] {rows : List Trade} :
    Scan trades P rows ↔ rows = (trades.filter fun t => P t).mergeSort earlier := by
  have hfound := occurrences_mergeSort trades P
  have hrows : ((trades.zipIdx.filter fun o => P o.1).mergeSort
      (keyLe fun o => o.1.time.nanos)).map (·.1) =
        (trades.filter fun t => P t).mergeSort earlier := by
    have hplain : (trades.zipIdx.filter fun o => P o.1).map (·.1) = trades.filter fun t => P t := by
      conv_rhs => rw [← List.zipIdx_map_fst 0 trades, List.filter_map]
      rfl
    rw [← hplain]
    exact List.map_mergeSort fun _ _ _ _ => rfl
  constructor
  · rintro ⟨found, h, rfl⟩
    rw [h.unique hfound, hrows]
  · rintro rfl
    exact ⟨_, hfound, hrows.symm⟩

/-- Where nothing matches there is nothing to scan. -/
theorem scan_nil (h : ∀ t ∈ trades, ¬ P t) : Scan trades P [] :=
  ⟨[], ⟨fun o => iff_of_false nofun fun ho => h o.1 (List.fst_mem_of_mem_zipIdx ho.1) ho.2, .nil⟩,
    rfl⟩

end Scan

/-! ## Windows -/

section Windows

variable {trades : List Trade} {instrument : String} {start stop : Instant}

theorem scan_window_iff {rows : List Trade} :
    Scan trades (fun t => t.instrument = instrument ∧
        start.nanos ≤ t.time.nanos ∧ t.time.nanos < stop.nanos) rows ↔
      rows = (ofTrades trades).window instrument start stop := by
  rw [scan_iff, window_ofTrades]
  simp only [← inWindow_iff, Bool.decide_eq_true]

theorem scan_windowInclusive_iff {rows : List Trade} :
    Scan trades (fun t => t.instrument = instrument ∧
        start.nanos ≤ t.time.nanos ∧ t.time.nanos ≤ stop.nanos) rows ↔
      rows = (ofTrades trades).windowInclusive instrument start stop := by
  rw [scan_iff, windowInclusive_ofTrades]
  simp only [← inWindowInclusive_iff, Bool.decide_eq_true]

/-- A window is what a scan of the history finds between its bounds. Nothing is found for an
instrument that never trades, nor where the stop lies before the start. -/
theorem windows_scan (trades : List Trade) (instrument : String) (start stop : Instant) :
    (∀ rows, Scan trades (fun t => t.instrument = instrument ∧
        start.nanos ≤ t.time.nanos ∧ t.time.nanos < stop.nanos) rows ↔
      rows = (ofTrades trades).window instrument start stop) ∧
    (∀ rows, Scan trades (fun t => t.instrument = instrument ∧
        start.nanos ≤ t.time.nanos ∧ t.time.nanos ≤ stop.nanos) rows ↔
      rows = (ofTrades trades).windowInclusive instrument start stop) ∧
    ((∀ t ∈ trades, t.instrument ≠ instrument) →
      (ofTrades trades).window instrument start stop = [] ∧
        (ofTrades trades).windowInclusive instrument start stop = []) ∧
    (stop.nanos ≤ start.nanos → (ofTrades trades).window instrument start stop = []) ∧
    (stop.nanos < start.nanos → (ofTrades trades).windowInclusive instrument start stop = []) := by
  refine ⟨fun _ => scan_window_iff, fun _ => scan_windowInclusive_iff, fun hnone => ⟨?_, ?_⟩,
    fun hbounds => ?_, fun hbounds => ?_⟩
  · exact (scan_window_iff.1 (scan_nil fun t ht h => hnone t ht h.1)).symm
  · exact (scan_windowInclusive_iff.1 (scan_nil fun t ht h => hnone t ht h.1)).symm
  · exact (scan_window_iff.1 (scan_nil fun t _ h => by omega)).symm
  · exact (scan_windowInclusive_iff.1 (scan_nil fun t _ h => by omega)).symm

end Windows

/-! ### Equal moments -/

def moment (second : Fin 60) : Instant :=
  ⟨second * 1000000000, by
    unfold Time.calendarStart Time.calendarEnd
    omega⟩

def boughtAt (instrument buyer : String) (second : Fin 60) : Trade :=
  ⟨"", moment second, instrument, buyer, "S1", 10.0, 2.0, 20.0⟩

/-- Trades of two instruments, out of order; at both bounds of the window below and also between
them there is more than one trade. -/
def crowdedHistory : List Trade := [
  boughtAt "ACME" "A1" 2, boughtAt "ACME" "A2" 3, boughtAt "ACME" "A3" 1, boughtAt "ZINC" "A4" 2,
  boughtAt "ACME" "A5" 2, boughtAt "ACME" "A6" 1, boughtAt "ACME" "A7" 3]

theorem windows_scan_crowdedHistory :
    (ofTrades crowdedHistory).windowInclusive "ACME" (moment 1) (moment 3) =
        [boughtAt "ACME" "A3" 1, boughtAt "ACME" "A6" 1, boughtAt "ACME" "A1" 2,
          boughtAt "ACME" "A5" 2, boughtAt "ACME" "A2" 3, boughtAt "ACME" "A7" 3] ∧
      (ofTrades crowdedHistory).window "IRON" (moment 1) (moment 3) = [] ∧
      (ofTrades crowdedHistory).window "ACME" (moment 2) (moment 2) = [] ∧
      (ofTrades crowdedHistory).windowInclusive "ACME" (moment 3) (moment 1) = [] := by
  refine ⟨?_, ?_, ?_, ?_⟩
  · have hfound : Occurrences crowdedHistory (fun t => t.instrument = "ACME" ∧
        (moment 1).nanos ≤ t.time.nanos ∧ t.time.nanos ≤ (moment 3).nanos)
        [(boughtAt "ACME" "A3" 1, 2), (boughtAt "ACME" "A6" 1, 5), (boughtAt "ACME" "A1" 2, 0),
          (boughtAt "ACME" "A5" 2, 4), (boughtAt "ACME" "A2" 3, 1), (boughtAt "ACME" "A7" 3, 6)] :=
      occurrences_of_perm (by decide +kernel) (by unfold ComesBefore; decide)
    exact (((windows_scan crowdedHistory "ACME" (moment 1) (moment 3)).2.1 _).1
      ⟨_, hfound, rfl⟩).symm
  · exact ((windows_scan crowdedHistory "IRON" (moment 1) (moment 3)).2.2.1 (by decide)).1
  · exact (windows_scan crowdedHistory "ACME" (moment 2) (moment 2)).2.2.2.1 (by decide)
  · exact (windows_scan crowdedHistory "ACME" (moment 3) (moment 1)).2.2.2.2 (by decide)

end TradeWatch.TradeIndex

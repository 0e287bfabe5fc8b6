/-
Windows of trades and volume baselines, said over the trade history itself: a window holds the
trades of its instrument between its bounds in order of time, those of one moment in the order of
the history, and the baseline of an instrument is made from its own trades. Where trades move and
none overtakes another, the windows hold what they move to. A history that is rearranged without
exchanging trades of one instrument and one moment has the same windows, and one without exchanges
within a day also the same baselines.
-/
import TradeWatch.Baseline
import TradeWatch.Proofs.Ascending
import TradeWatch.Proofs.Sorting
import TradeWatch.Proofs.Window.Search
import TradeWatch.Window.Index

namespace TradeWatch

open Time (Instant)

theorem Time.Instant.eq_of_nanos_eq {s t : Instant} (h : s.nanos = t.nanos) : s = t := by
  obtain ⟨n, hn⟩ := s
  obtain ⟨m, hm⟩ := t
  obtain rfl : n = m := h
  rfl

theorem Time.Instant.nanos_of_shift? {s t : Instant} {d : Int} (h : t.shift? d = some s) :
    s.nanos = t.nanos + d := by
  unfold Instant.shift? Instant.ofNanos? at h
  split at h
  · cases h
    rfl
  · cases h

/-! ## Windows -/

namespace TradeIndex

/-- A trade of the instrument from `start` on and before `stop`. -/
def inWindow (instrument : String) (start stop : Instant) (t : Trade) : Bool :=
  t.instrument == instrument && (!t.time.before start && t.time.before stop)

/-- A trade of the instrument from `start` on up to and including `stop`. -/
def inWindowInclusive (instrument : String) (start stop : Instant) (t : Trade) : Bool :=
  t.instrument == instrument && (!t.time.before start && t.time.atMost stop)

theorem inWindow_iff {instrument : String} {start stop : Instant} {t : Trade} :
    inWindow instrument start stop t = true ↔
      t.instrument = instrument ∧ start.nanos ≤ t.time.nanos ∧ t.time.nanos < stop.nanos := by
  simp [inWindow, Instant.before]

theorem inWindowInclusive_iff {instrument : String} {start stop : Instant} {t : Trade} :
    inWindowInclusive instrument start stop t = true ↔
      t.instrument = instrument ∧ start.nanos ≤ t.time.nanos ∧ t.time.nanos ≤ stop.nanos := by
  simp [inWindowInclusive, Instant.before, Instant.atMost]

theorem earlier_eq : earlier = keyLe fun t => t.time.nanos :=
  rfl

theorem timeline_ofTrades (trades : List Trade) (instrument : String) :
    (ofTrades trades).timeline instrument =
      (trades.filter fun t => t.instrument == instrument).mergeSort earlier := by
  unfold timeline ofTrades
  rw [lookup_grouped textLe (·.instrument) (·.mergeSort earlier)]
  split
  · rfl
  · rename_i hnot
    -- an instrument that never trades has no timeline, and none of the trades is its own
    have hempty : (trades.filter fun t => t.instrument == instrument) = [] := by
      rw [List.filter_eq_nil_iff]
      intro t ht hi
      exact hnot (List.mem_map.2 ⟨t, ht, eq_of_beq hi⟩)
    rw [hempty, List.mergeSort_nil]
    rfl

/-- The rows between two bounds are those of the history, in order of time. Nothing is asked of the
two bounds together: where the stop lies before the start there are no such rows. -/
theorem slice_ofTrades (trades : List Trade) (instrument : String)
    {beforeStart beforeStop : Trade → Bool}
    (hstart : ∀ a b : Trade, a.time.nanos ≤ b.time.nanos → beforeStart b = true →
      beforeStart a = true)
    (hstop : ∀ a b : Trade, a.time.nanos ≤ b.time.nanos → beforeStop b = true →
      beforeStop a = true) :
    (ofTrades trades).slice instrument beforeStart beforeStop =
      (trades.filter fun t =>
        t.instrument == instrument && (!beforeStart t && beforeStop t)).mergeSort earlier := by
  have hsorted := pairwise_mergeSort_keyLe (fun t : Trade => t.time.nanos)
    (trades.filter fun t => t.instrument == instrument)
  unfold slice
  rw [timeline_ofTrades, earlier_eq]
  simp only
  rw [ite_eq_right_iff.2 fun hle => ?_, Window.drop_take_partitionPoint, filter_mergeSort,
    List.filter_filter]
  · congr 1
    exact List.filter_congr fun t _ => Bool.and_comm _ _
  · exact hsorted.imp fun {a b} hab => hstart a b hab
  · exact hsorted.imp fun {a b} hab => hstop a b hab
  · exact (List.drop_eq_nil_of_le ((List.length_take_le _ _).trans hle)).symm

/-- What is before a bound has only such trades ahead of it. -/
theorem before_of_le (stop : Instant) (a b : Trade) (hab : a.time.nanos ≤ b.time.nanos)
    (hb : b.time.before stop = true) : a.time.before stop = true :=
  decide_eq_true (lt_of_le_of_lt hab (of_decide_eq_true hb))

theorem window_ofTrades (trades : List Trade) (instrument : String) (start stop : Instant) :
    (ofTrades trades).window instrument start stop =
      (trades.filter (inWindow instrument start stop)).mergeSort earlier :=
  slice_ofTrades trades instrument (before_of_le start) (before_of_le stop)

theorem windowInclusive_ofTrades (trades : List Trade) (instrument : String)
    (start stop : Instant) :
    (ofTrades trades).windowInclusive instrument start stop =
      (trades.filter (inWindowInclusive instrument start stop)).mergeSort earlier := by
  refine slice_ofTrades trades instrument (before_of_le start) fun a b hab hb => ?_
  exact decide_eq_true (le_trans hab (of_decide_eq_true hb))

/-- Trades outside a window may be left out. -/
theorem window_filter {instrument : String} {start stop : Instant} {p : Trade → Bool}
    (h : ∀ t, inWindow instrument start stop t = true → p t = true) (trades : List Trade) :
    (ofTrades (trades.filter p)).window instrument start stop =
      (ofTrades trades).window instrument start stop := by
  rw [window_ofTrades, window_ofTrades, filter_filter_of_imp h]

theorem windowInclusive_filter {instrument : String} {start stop : Instant} {p : Trade → Bool}
    (h : ∀ t, inWindowInclusive instrument start stop t = true → p t = true)
    (trades : List Trade) :
    (ofTrades (trades.filter p)).windowInclusive instrument start stop =
      (ofTrades trades).windowInclusive instrument start stop := by
  rw [windowInclusive_ofTrades, windowInclusive_ofTrades, filter_filter_of_imp h]

section Moved

variable {f : Trade → Trade} {trades : List Trade} {instrument : String}
  {start stop start' stop' : Instant}

/-- Trades that stay in one order are chosen and sorted before they move as well as after. -/
theorem mergeSort_filter_map {p q : Trade → Bool}
    (hearlier : ∀ s ∈ trades, ∀ t ∈ trades, earlier (f s) (f t) = earlier s t)
    (hpq : ∀ t ∈ trades, p (f t) = q t) :
    ((trades.map f).filter p).mergeSort earlier = ((trades.filter q).mergeSort earlier).map f := by
  have hchosen : trades.filter (p ∘ f) = trades.filter q := List.filter_congr hpq
  rw [List.filter_map, hchosen]
  refine (List.map_mergeSort fun s hs t ht => (hearlier s ?_ t ?_).symm).symm
  · exact (List.mem_filter.1 hs).1
  · exact (List.mem_filter.1 ht).1

/-- Where trades move along with a window, it holds what its trades move to. -/
theorem window_map (hearlier : ∀ s ∈ trades, ∀ t ∈ trades, earlier (f s) (f t) = earlier s t)
    (hwindow : ∀ t ∈ trades,
      inWindow instrument start' stop' (f t) = inWindow instrument start stop t) :
    (ofTrades (trades.map f)).window instrument start' stop' =
      ((ofTrades trades).window instrument start stop).map f := by
  rw [window_ofTrades, window_ofTrades, mergeSort_filter_map hearlier hwindow]

theorem windowInclusive_map
    (hearlier : ∀ s ∈ trades, ∀ t ∈ trades, earlier (f s) (f t) = earlier s t)
    (hwindow : ∀ t ∈ trades,
      inWindowInclusive instrument start' stop' (f t) = inWindowInclusive instrument start stop t) :
    (ofTrades (trades.map f)).windowInclusive instrument start' stop' =
      ((ofTrades trades).windowInclusive instrument start stop).map f := by
  rw [windowInclusive_ofTrades, windowInclusive_ofTrades, mergeSort_filter_map hearlier hwindow]

end Moved

theorem mem_window_ofTrades {trades : List Trade} {instrument : String} {start stop : Instant}
    {t : Trade} :
    t ∈ (ofTrades trades).window instrument start stop ↔
      t ∈ trades ∧ inWindow instrument start stop t = true := by
  rw [window_ofTrades, List.mem_mergeSort, List.mem_filter]

end TradeIndex

/-! ## Baselines -/

namespace VolumeBaseline

theorem find_ofHistory (trades : List Trade) (instrument : String) :
    find (ofHistory trades) instrument =
      if instrument ∈ trades.map (·.instrument) then
        ofTrades (trades.filter fun t => t.instrument == instrument)
      else none := by
  unfold find ofHistory
  rw [lookup_grouped textLe (·.instrument) ofTrades]
  split <;> rfl

/-- Trades of other instruments may be left out. -/
theorem find_ofHistory_filter {instrument : String} {p : Trade → Bool}
    (h : ∀ t : Trade, (t.instrument == instrument) = true → p t = true) (trades : List Trade) :
    find (ofHistory (trades.filter p)) instrument = find (ofHistory trades) instrument := by
  have hoccurs : instrument ∈ (trades.filter p).map (·.instrument) ↔
      instrument ∈ trades.map (·.instrument) := by
    constructor
    · rintro hmem
      obtain ⟨t, ht, hi⟩ := List.mem_map.1 hmem
      exact List.mem_map.2 ⟨t, (List.mem_filter.1 ht).1, hi⟩
    · rintro hmem
      obtain ⟨t, ht, hi⟩ := List.mem_map.1 hmem
      exact List.mem_map.2 ⟨t, List.mem_filter.2 ⟨ht, h t (beq_iff_eq.2 hi)⟩, hi⟩
  rw [find_ofHistory, find_ofHistory, filter_filter_of_imp h]
  simp only [hoccurs]

section Moved

variable {f : Trade → Trade} {trades : List Trade} {n : Int}

theorem dayTotals_map (hquantity : ∀ t, (f t).quantity = t.quantity)
    (hday : ∀ t ∈ trades, (f t).time.day = t.time.day + n) :
    dayTotals (trades.map f) = dayTotals trades := by
  have hdays : ∀ a b : Int, intLe (a + n) (b + n) = intLe a b := by
    intro a b
    rw [intLe, intLe, decide_eq_decide]
    omega
  have hgroups : grouped intLe (·.time.day) (trades.map f) =
      (grouped intLe (·.time.day) trades).map fun group => (group.1 + n, group.2.map f) :=
    grouped_map linearLe_int hdays hday
  unfold dayTotals
  rw [hgroups, List.map_map]
  refine List.map_congr_left fun group _ => ?_
  simp only [Function.comp_def, List.map_map, hquantity]

/-- Which days they are does not matter to the baselines, as long as they stay apart. -/
theorem ofHistory_map (hinstrument : ∀ t, (f t).instrument = t.instrument)
    (hquantity : ∀ t, (f t).quantity = t.quantity)
    (hday : ∀ t ∈ trades, (f t).time.day = t.time.day + n) :
    ofHistory (trades.map f) = ofHistory trades := by
  have hgroups : grouped textLe (·.instrument) (trades.map f) =
      (grouped textLe (·.instrument) trades).map fun group => (group.1, group.2.map f) :=
    grouped_map_of_key_eq linearLe_text fun t _ => hinstrument t
  unfold ofHistory
  rw [hgroups, List.map_map]
  refine List.map_congr_left fun group hgroup => ?_
  have hgroup : group.2 ⊆ trades := subset_of_mem_grouped hgroup
  simp only [Function.comp_apply, ofTrades]
  rw [dayTotals_map hquantity fun t ht => hday t (hgroup ht)]

end Moved

end VolumeBaseline

/-! ## Rearranged histories -/

section Rearranged

variable {trades trades' : List Trade}

/-- What is made of the trades of each instrument is the same if it is so for each instrument. -/
theorem map_grouped_congr {β : Type} {f : List Trade → β}
    (hperm : trades'.Perm trades)
    (hf : ∀ k, f (trades'.filter fun t => t.instrument == k) =
      f (trades.filter fun t => t.instrument == k)) :
    ((grouped textLe (·.instrument) trades').map fun (k, rows) => (k, f rows)) =
      (grouped textLe (·.instrument) trades).map fun (k, rows) => (k, f rows) := by
  have hkeys : ascending textLe (trades'.map (·.instrument)) =
      ascending textLe (trades.map (·.instrument)) := by
    refine ascending_congr linearLe_text fun k => ?_
    simp only [List.mem_map, hperm.mem_iff]
  unfold grouped
  rw [hkeys, List.map_map, List.map_map]
  refine List.map_congr_left fun k _ => ?_
  simp only [Function.comp_apply, hf]

/-- Exchanges of trades of different instruments or moments do not show in the windows. -/
theorem TradeIndex.ofTrades_congr
    (h : KeepsOrder (fun t : Trade => (t.instrument, t.time)) trades trades') :
    ofTrades trades' = ofTrades trades := by
  unfold ofTrades
  congr 1
  refine map_grouped_congr (f := (·.mergeSort earlier)) h.perm fun k => ?_
  have htimes : KeepsOrder (fun t : Trade => t.time.nanos)
      (trades.filter fun t => t.instrument == k) (trades'.filter fun t => t.instrument == k) :=
    (h.among k).of_coarser fun s t hst => Instant.eq_of_nanos_eq hst
  exact htimes.mergeSort_eq

/-- Nor do they show in the baselines if the trades of each day keep their order. -/
theorem VolumeBaseline.ofHistory_congr
    (h : KeepsOrder (fun t : Trade => (t.instrument, t.time.day)) trades trades') :
    ofHistory trades' = ofHistory trades := by
  unfold ofHistory
  refine map_grouped_congr (f := ofTrades) h.perm fun k => ?_
  unfold ofTrades dayTotals
  rw [(h.among k).grouped_eq linearLe_int]

end Rearranged

end TradeWatch

/-
Trading ahead of announcements, event by event: of those who buy the instrument in the window ahead
of an event, the rule finds the ones whose volume reaches the multiple of the usual one, each once,
in the order of their bytes.
-/
import TradeWatch.Proofs.DailyVolume
import TradeWatch.Proofs.Decimal.Order
import TradeWatch.Proofs.EventByEvent

namespace TradeWatch.Rule

open Time (InCalendar)

namespace PreAnnouncementCandidate

/-- How many times the usual volume an account bought; one is added to the usual volume. -/
def ratioOf (usual : VolumeBaseline) (rows : List Trade) (account : String) : Float :=
  boughtBy rows account / (usual.mean + 1.0)

/-- What is reported of a buyer. -/
def ofBuyer (event : CorporateEvent) (usual : VolumeBaseline) (rows : List Trade)
    (account : String) : PreAnnouncementCandidate where
  event := event.id
  instrument := event.instrument
  account := account
  announced := event.announced
  trades := (purchasesOf rows account).length
  volume := boughtBy rows account
  baselineMean := usual.mean
  baselineDeviation := usual.deviation
  volumeRatio := ratioOf usual rows account

/-- What there is to find for one event, where the window goes `length` nanoseconds back. -/
structure Found (trades : List Trade) (multiplier : Float) (length : Int) (event : CorporateEvent)
    (found : List PreAnnouncementCandidate) : Prop where
  leftOut : ¬ InCalendar (event.announced.nanos - length) → found = []
  lookedAt : InCalendar (event.announced.nanos - length) → ∃ rows active usual,
    Chronicle trades (IsAhead event length) rows ∧ Buying trades (IsAhead event length) active ∧
      DailyVolume trades event.instrument usual ∧
      found = (active.filter fun a => multiplier ≤ ratioOf usual rows a).map
        (ofBuyer event usual rows)
  /-- No buyer is found twice for one event. -/
  once : (found.map (·.account)).Nodup
  named : ∀ f ∈ found, f.account ≠ ""
  numbers : ∀ f ∈ found, f.volumeRatio.isNaN = false

theorem found_unique (trades : List Trade) (multiplier : Float) (length : Int) :
    Relator.RightUnique (Found trades multiplier length) := by
  intro event found found' h h'
  by_cases hin : InCalendar (event.announced.nanos - length)
  · obtain ⟨rows, active, usual, hrows, hactive, husual, rfl⟩ := h.lookedAt hin
    obtain ⟨rows', active', usual', hrows', hactive', husual', rfl⟩ := h'.lookedAt hin
    rw [hrows.unique hrows', hactive.unique hactive', husual.unique husual']
  · rw [h.leftOut hin, h'.leftOut hin]

section OfEvent

variable {trades : List Trade} {multiplier : Float} {length : Int} {event : CorporateEvent}

/-- Where anybody buys, the baseline is that of the trades of the instrument. -/
theorem find_of_mem_buyers {a : String} (h : a ∈ buyers (rowsAhead trades event length)) :
    VolumeBaseline.find (VolumeBaseline.ofHistory trades) event.instrument =
      .ofTrades (trades.filter fun t => t.instrument == event.instrument) := by
  obtain ⟨-, t, ht, hahead, -⟩ := ((chronicle_ahead trades event length).buying.mem_iff a).1 h
  rw [VolumeBaseline.find_ofHistory, if_pos (List.mem_map.2 ⟨t, ht, hahead.1⟩)]

theorem ofEvent_of_shift? {start : Time.Instant}
    (h : event.announced.shift? (-length) = some start) :
    ofEvent (.ofTrades trades) (VolumeBaseline.ofHistory trades) multiplier length event =
      let rows := rowsAhead trades event length
      let usual := VolumeBaseline.ofTrades (trades.filter fun t => t.instrument == event.instrument)
      ((buyers rows).filter fun a => multiplier ≤ ratioOf usual rows a).map
        (ofBuyer event usual rows) := by
  unfold ofEvent
  simp only [h, window_eq_rowsAhead h, buyActivity_eq, List.map_map, List.filter_map]
  rw [List.filter_congr fun a ha => ?_]
  · refine List.map_congr_left fun a ha => ?_
    rw [Function.comp_apply, find_of_mem_buyers (List.mem_filter.1 ha).1]
    rfl
  · rw [Function.comp_apply, Function.comp_apply, find_of_mem_buyers ha]
    rfl

theorem found_ofEvent (trades : List Trade) (multiplier : Float) (length : Int)
    (event : CorporateEvent) :
    Found trades multiplier length event
      (ofEvent (.ofTrades trades) (VolumeBaseline.ofHistory trades) multiplier length event) := by
  by_cases hin : InCalendar (event.announced.nanos - length)
  · obtain ⟨start, hs⟩ := Time.Instant.exists_shift? hin
    have hrows := chronicle_ahead trades event length
    rw [ofEvent_of_shift? hs]
    refine ⟨fun hout => absurd hin hout, fun _ => ?_, ?_, fun f hf => ?_, fun f hf => ?_⟩
    · exact ⟨_, _, _, hrows, hrows.buying, VolumeBaseline.dailyVolume_ofTrades .., rfl⟩
    · rw [List.map_map]
      exact (hrows.buying.nodup.filter _).map fun a b h => h
    · obtain ⟨a, ha, rfl⟩ := List.mem_map.1 hf
      exact ne_empty_of_mem_buyers (List.mem_filter.1 ha).1
    · obtain ⟨a, ha, rfl⟩ := List.mem_map.1 hf
      exact (Decimal.isNaN_of_le (of_decide_eq_true (List.mem_filter.1 ha).2)).2
  · have hnone : ofEvent (.ofTrades trades) (VolumeBaseline.ofHistory trades) multiplier length
        event = [] := by
      simp only [ofEvent, Time.Instant.shift?_of_not_inCalendar hin]
    rw [hnone]
    exact ⟨fun _ => rfl, fun h => absurd h hin, List.nodup_nil, by simp, by simp⟩

end OfEvent

end PreAnnouncementCandidate

end TradeWatch.Rule

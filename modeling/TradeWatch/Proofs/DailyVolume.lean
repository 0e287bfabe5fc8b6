/-
The usual volume of an instrument, said over the trade history: its trading days are the days with
a trade of it, the volume of a day is what is traded on it, summed in the order of the history, and
the usual volume is the mean and the deviation of these days. Trades without a buyer count like all
others.
-/
import Mathlib.Data.List.Sort
import TradeWatch.Proofs.Window

namespace TradeWatch

/-- What is traded of an instrument on one day. -/
def dayVolume (trades : List Trade) (instrument : String) (day : Int) : Float :=
  Stats.sumFrom 0.0 ((trades.filter fun t => t.instrument = instrument ∧ t.time.day = day).map
    (·.quantity))

/-- `usual` is made of the volumes of the days on which the instrument is traded, each day taken
once, the earliest first. -/
def DailyVolume (trades : List Trade) (instrument : String) (usual : VolumeBaseline) : Prop :=
  ∃ days : List Int, days.Pairwise (· < ·) ∧
    (∀ d, d ∈ days ↔ ∃ t ∈ trades, t.instrument = instrument ∧ t.time.day = d) ∧
    usual = ⟨Stats.average (days.map (dayVolume trades instrument)),
      Stats.sampleDeviation (days.map (dayVolume trades instrument)), days.length⟩

theorem DailyVolume.unique {trades : List Trade} {instrument : String}
    {usual usual' : VolumeBaseline} (h : DailyVolume trades instrument usual)
    (h' : DailyVolume trades instrument usual') : usual = usual' := by
  obtain ⟨days, hascend, hdays, rfl⟩ := h
  obtain ⟨days', hascend', hdays', rfl⟩ := h'
  rw [hascend.eq_of_mem_iff hascend' fun d => (hdays d).trans (hdays' d).symm]

namespace VolumeBaseline

variable (trades : List Trade) (instrument : String)

/-- The days on which an instrument is traded. -/
def tradingDaysOf : List Int :=
  ascending intLe ((trades.filter fun t => t.instrument == instrument).map (·.time.day))

theorem pairwise_tradingDaysOf : (tradingDaysOf trades instrument).Pairwise (· < ·) :=
  (pairwise_ascending linearLe_int _).imp fun h => lt_of_le_of_ne (of_decide_eq_true h.1) h.2

theorem dayTotals_filter :
    dayTotals (trades.filter fun t => t.instrument == instrument) =
      (tradingDaysOf trades instrument).map (dayVolume trades instrument) := by
  unfold dayTotals grouped
  rw [List.map_map]
  refine List.map_congr_left fun day _ => ?_
  simp only [Function.comp_apply, dayVolume]
  rw [List.filter_filter]
  congr 2
  refine List.filter_congr fun t _ => ?_
  rw [Bool.eq_iff_iff]
  simp [and_comm]

theorem dailyVolume_ofTrades :
    DailyVolume trades instrument
      (ofTrades (trades.filter fun t => t.instrument == instrument)) := by
  refine ⟨_, pairwise_tradingDaysOf trades instrument, fun d => ?_, ?_⟩
  · unfold tradingDaysOf
    simp only [mem_ascending, List.mem_map, List.mem_filter, beq_iff_eq, and_assoc]
  · simp only [ofTrades, dayTotals_filter, List.length_map]

end VolumeBaseline

end TradeWatch

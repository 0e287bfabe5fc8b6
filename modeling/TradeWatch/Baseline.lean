/-
The usual daily volume of each instrument: mean and deviation of the quantities traded on a day,
over the days with at least one trade.
-/
import TradeWatch.Grouping
import TradeWatch.Records
import TradeWatch.Stats

namespace TradeWatch

structure VolumeBaseline where
  mean : Float
  deviation : Float
  tradingDays : Nat
deriving DecidableEq

namespace VolumeBaseline

/-- The baseline of an instrument without trades. -/
def none : VolumeBaseline := ⟨0.0, 0.0, 0⟩

/-- The quantity of each trading day, the earliest day first. -/
def dayTotals (trades : List Trade) : List Float :=
  (grouped intLe (·.time.day) trades).map fun (_, rows) =>
    Stats.sumFrom 0.0 (rows.map (·.quantity))

/-- The baseline of the trades of one instrument. -/
def ofTrades (trades : List Trade) : VolumeBaseline :=
  let totals := dayTotals trades
  ⟨Stats.average totals, Stats.sampleDeviation totals, totals.length⟩

/-- The baselines of a trade history, by instrument. -/
def ofHistory (trades : List Trade) : List (String × VolumeBaseline) :=
  (grouped textLe (·.instrument) trades).map fun (instrument, rows) =>
    (instrument, ofTrades rows)

/-- The baseline of one instrument. -/
def find (baselines : List (String × VolumeBaseline)) (instrument : String) : VolumeBaseline :=
  (baselines.lookup instrument).getD none

end VolumeBaseline

end TradeWatch

/-
Trades in a window of time. The trades of an instrument stand in order of time, trades of one
moment in the order of the history; a window is the part of them between two bounds.
-/
import TradeWatch.Grouping
import TradeWatch.Records
import TradeWatch.Window.Search

namespace TradeWatch

open Time (Instant)

/-- The trades of each instrument in order of time. -/
structure TradeIndex where
  timelines : List (String × List Trade)

namespace TradeIndex

def earlier (a b : Trade) : Bool :=
  a.time.atMost b.time

def ofTrades (trades : List Trade) : TradeIndex :=
  ⟨(grouped textLe (·.instrument) trades).map fun (instrument, rows) =>
    (instrument, rows.mergeSort earlier)⟩

/-- The trades of an instrument in order of time. -/
def timeline (index : TradeIndex) (instrument : String) : List Trade :=
  (index.timelines.lookup instrument).getD []

/-- The trades of an instrument from the first one that is not before the start on up to the last
one before the stop. Both ends are looked up in the whole timeline, so they may come out in either
order. -/
def slice (index : TradeIndex) (instrument : String) (beforeStart beforeStop : Trade → Bool) :
    List Trade :=
  let rows := index.timeline instrument
  let low := Window.partitionPoint beforeStart rows
  let high := Window.partitionPoint beforeStop rows
  if high ≤ low then [] else (rows.take high).drop low

/-- From `start` on and before `stop`. -/
def window (index : TradeIndex) (instrument : String) (start stop : Instant) : List Trade :=
  index.slice instrument (fun t => t.time.before start) fun t => t.time.before stop

/-- From `start` on up to and including `stop`. -/
def windowInclusive (index : TradeIndex) (instrument : String) (start stop : Instant) :
    List Trade :=
  index.slice instrument (fun t => t.time.before start) fun t => t.time.atMost stop

end TradeIndex

end TradeWatch

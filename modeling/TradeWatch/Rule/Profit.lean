/-
Rule 5.3, abnormal profits: an account that buys an instrument before an announcement at a price
well below the average one of the week after it.
-/
import TradeWatch.Decimal.Fixed
import TradeWatch.Rule.Activity
import TradeWatch.Rule.Basic
import TradeWatch.Window.Index

namespace TradeWatch.Rule

structure ProfitCandidate where
  event : String
  instrument : String
  account : String
  announced : Time.Instant
  averageBuyPrice : Float
  averagePostPrice : Float
  /-- The return as a fraction of the buying price. -/
  gain : Float
  quantity : Float
deriving DecidableEq

namespace ProfitCandidate

/-- The window after an announcement, in nanoseconds. -/
def postLength : Int := 7 * Time.nanosPerDay

/-- The candidate of a buyer, whatever the threshold; there is none at a price that is not
positive. -/
def ofActivity? (event : CorporateEvent) (averagePostPrice : Float) (a : BuyActivity) :
    Option ProfitCandidate :=
  let price := a.averagePrice
  if price ≤ 0.0 then none
  else some ⟨event.id, event.instrument, a.account, event.announced, price, averagePostPrice,
    (averagePostPrice - price) / price, a.quantity⟩

/-- The candidates of one event, where the window goes `length` nanoseconds back. -/
def ofEvent (index : TradeIndex) (threshold : Float) (length : Int) (event : CorporateEvent) :
    List ProfitCandidate :=
  match event.announced.shift? (-length), event.announced.shift? postLength with
  | some start, some stop =>
    let pre := index.window event.instrument start event.announced
    let post := index.windowInclusive event.instrument event.announced stop
    if pre.isEmpty || post.isEmpty then []
    else
      ((buyActivity pre).filterMap
        (ofActivity? event (Stats.average (post.map (·.price))))).filter fun c =>
          decide (threshold ≤ c.gain)
  | _, _ => []

def alert (engine : AlertEngine) (g : Group String ProfitCandidate) : Alert :=
  let n := g.occurrences
  let gains := g.members.map (·.gain)
  let instruments := g.distinct (·.instrument)
  engine.raise .abnormalProfit .account n {
    accounts := [g.key]
    instruments := instruments
    description := "Account " ++ g.key ++ " bought ahead of " ++ toString n ++
      " announcements and gained " ++ Decimal.fixed 1 (Stats.mean gains * 100.0) ++ "% on average"
    evidence := .ofList [
      ("avg_return_pct", .ofFloat (Stats.mean gains)),
      ("max_return_pct", .ofFloat (Stats.largest gains)),
      ("total_quantity", .ofFloat (Stats.sumFrom 0.0 (g.members.map (·.quantity)))),
      ("num_instruments", .ofNat instruments.length)] }

end ProfitCandidate

def abnormalProfit (trades : List Trade) (events : List CorporateEvent) (c : Config)
    (engine : AlertEngine) : Outcome ProfitCandidate :=
  if trades.isEmpty || events.isEmpty then .nothing .abnormalProfit
  else match Window.length? Window.days c.preAnnouncementWindowDays with
    | none => .skipped .abnormalProfit .preAnnouncementWindowDays c.preAnnouncementWindowDays
    | some length =>
      let candidates := events.flatMap
        (ProfitCandidate.ofEvent (.ofTrades trades) c.profitThreshold length)
      let gs := groups textLe (·.account) (·.event) candidates
      ⟨.abnormalProfit, candidates,
        alertsOf c.minSuspiciousEvents (ProfitCandidate.alert engine) gs, []⟩

end TradeWatch.Rule

/-
Rule 5.1, trading ahead of announcements: an account that buys an instrument shortly before an
announcement in a volume that is abnormal for the instrument.
-/
import TradeWatch.Baseline
import TradeWatch.Rule.Activity
import TradeWatch.Rule.Basic
import TradeWatch.Window.Index

namespace TradeWatch.Rule

structure PreAnnouncementCandidate where
  event : String
  instrument : String
  account : String
  announced : Time.Instant
  trades : Nat
  volume : Float
  baselineMean : Float
  baselineDeviation : Float
  volumeRatio : Float
deriving DecidableEq

namespace PreAnnouncementCandidate

/-- The candidate of a buyer, whatever the threshold. -/
def ofActivity (event : CorporateEvent) (baseline : VolumeBaseline) (a : BuyActivity) :
    PreAnnouncementCandidate :=
  ⟨event.id, event.instrument, a.account, event.announced, a.trades, a.quantity, baseline.mean,
    baseline.deviation, a.quantity / (baseline.mean + 1.0)⟩

/-- The candidates of one event, where the window goes `length` nanoseconds back. -/
def ofEvent (index : TradeIndex) (baselines : List (String × VolumeBaseline)) (multiplier : Float)
    (length : Int) (event : CorporateEvent) : List PreAnnouncementCandidate :=
  match event.announced.shift? (-length) with
  | none => []
  | some start =>
    let rows := index.window event.instrument start event.announced
    let baseline := VolumeBaseline.find baselines event.instrument
    ((buyActivity rows).map (ofActivity event baseline)).filter fun c =>
      decide (multiplier ≤ c.volumeRatio)

def key (c : PreAnnouncementCandidate) : String × String :=
  (c.account, c.instrument)

def alert (engine : AlertEngine) (g : Group (String × String) PreAnnouncementCandidate) : Alert :=
  let n := g.occurrences
  let ratios := g.members.map (·.volumeRatio)
  engine.raise .preAnnouncementTrading .account n {
    accounts := [g.key.1]
    instruments := [g.key.2]
    description := "Account " ++ g.key.1 ++ " bought " ++ g.key.2 ++
      " at abnormal volume ahead of " ++ toString n ++ " corporate announcements"
    evidence := .ofList [
      ("avg_volume_ratio", .ofFloat (Stats.mean ratios)),
      ("max_volume_ratio", .ofFloat (Stats.largest ratios)),
      ("total_pre_window_volume", .ofFloat (Stats.sumFrom 0.0 (g.members.map (·.volume)))),
      ("event_ids", .strings g.events)] }

end PreAnnouncementCandidate

def preAnnouncement (trades : List Trade) (events : List CorporateEvent) (c : Config)
    (engine : AlertEngine) : Outcome PreAnnouncementCandidate :=
  if trades.isEmpty || events.isEmpty then .nothing .preAnnouncementTrading
  else match Window.length? Window.days c.preAnnouncementWindowDays with
    | none =>
      .skipped .preAnnouncementTrading .preAnnouncementWindowDays c.preAnnouncementWindowDays
    | some length =>
      let candidates := events.flatMap (PreAnnouncementCandidate.ofEvent (.ofTrades trades)
        (VolumeBaseline.ofHistory trades) c.abnormalVolumeMultiplier length)
      let gs := groups pairLe PreAnnouncementCandidate.key (·.event) candidates
      ⟨.preAnnouncementTrading, candidates,
        alertsOf c.minSuspiciousEvents (PreAnnouncementCandidate.alert engine) gs, []⟩

end TradeWatch.Rule

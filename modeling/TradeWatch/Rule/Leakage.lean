/-
Rule 5.4, leaking information: many accounts that buy one instrument within hours before an
announcement.
-/
import TradeWatch.Rule.Activity
import TradeWatch.Rule.Basic
import TradeWatch.Window.Index

namespace TradeWatch.Rule

structure LeakageCandidate where
  event : String
  instrument : String
  announced : Time.Instant
  accounts : Nat
  volume : Float
  /-- The account that bought most. -/
  topAccount : String
deriving DecidableEq

namespace LeakageCandidate

/-- The account with the greatest quantity, the first of equal ones. -/
def topBuyer : List BuyActivity → String
  | [] => ""
  | a :: as => (as.foldl (fun top b => if top.quantity < b.quantity then b else top) a).account

/-- The candidate of one event, where the window goes `length` nanoseconds back. The volume counts
trades without a buyer too. -/
def ofEvent? (index : TradeIndex) (leastAccounts : Nat) (length : Int) (event : CorporateEvent) :
    Option LeakageCandidate :=
  match event.announced.shift? (-length) with
  | none => none
  | some start =>
    let rows := index.window event.instrument start event.announced
    let activity := buyActivity rows
    if activity.length < leastAccounts then none
    else some ⟨event.id, event.instrument, event.announced, activity.length,
      Stats.total (rows.map (·.quantity)), topBuyer activity⟩

/-- The severity of an instrument, from the settings themselves and not from the engine. -/
def severity (c : Config) (occurrences : Nat) : Severity :=
  if c.severityHighOccurrences ≤ occurrences then .high
  else if c.severityMediumOccurrences ≤ occurrences then .medium
  else .low

def alert (c : Config) (engine : AlertEngine) (g : Group String LeakageCandidate) : Alert :=
  let n := g.occurrences
  engine.raiseScored .informationLeakage (severity c n) (ConfidenceProfile.leakage.score n) n {
    accounts := []
    instruments := [g.key]
    description := "Clustered buying in " ++ g.key ++ " shortly before " ++ toString n ++
      " corporate announcements"
    evidence := .ofList [
      ("avg_accounts_per_cluster",
        .ofFloat (Stats.mean (g.members.map fun c => Decimal.ofNat c.accounts))),
      ("total_volume", .ofFloat (Stats.sumFrom 0.0 (g.members.map (·.volume)))),
      ("top_accounts", .strings (g.distinct (·.topAccount)))] }

end LeakageCandidate

def informationLeakage (trades : List Trade) (events : List CorporateEvent) (c : Config)
    (engine : AlertEngine) : Outcome LeakageCandidate :=
  if trades.isEmpty || events.isEmpty then .nothing .informationLeakage
  else match Window.length? Window.hours c.leakageWindowHours with
    | none => .skipped .informationLeakage .leakageWindowHours c.leakageWindowHours
    | some length =>
      let candidates := events.filterMap
        (LeakageCandidate.ofEvent? (.ofTrades trades) c.leakageMinAccounts length)
      let gs := groups textLe (·.instrument) (·.event) candidates
      ⟨.informationLeakage, candidates,
        alertsOf c.minSuspiciousEvents (LeakageCandidate.alert c engine) gs, []⟩

end TradeWatch.Rule

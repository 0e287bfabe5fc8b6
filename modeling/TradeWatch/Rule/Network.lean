/-
Rule 5.2, trading in a network: an account that buys an instrument shortly before an announcement
when accounts related to it do so too.
-/
import TradeWatch.Rule.Activity
import TradeWatch.Rule.Basic
import TradeWatch.Window.Index

namespace TradeWatch.Rule

structure NetworkCandidate where
  event : String
  instrument : String
  account : String
  announced : Time.Instant
  /-- The related accounts that bought in the window, in the order in which they are listed. -/
  related : List String
  relatedCount : Nat
deriving DecidableEq

namespace NetworkCandidate

/-- The related accounts of an account; of several rows with relations the last one counts. -/
def relations (accounts : List Account) (id : String) : List String :=
  match (accounts.filter fun a => a.id == id && !a.related.isEmpty).getLast? with
  | none => []
  | some a => a.related

/-- The candidate of one of the buyers of a window, if a related account is among them. -/
def ofBuyer? (accounts : List Account) (event : CorporateEvent) (active : List String)
    (account : String) : Option NetworkCandidate :=
  let related := (relations accounts account).filter fun r => r != account && active.contains r
  if related.isEmpty then none
  else some ⟨event.id, event.instrument, account, event.announced, related, related.length⟩

/-- The candidates of one event, where the window goes `length` nanoseconds back. -/
def ofEvent (index : TradeIndex) (accounts : List Account) (length : Int)
    (event : CorporateEvent) : List NetworkCandidate :=
  match event.announced.shift? (-length) with
  | none => []
  | some start =>
    let active := buyers (index.window event.instrument start event.announced)
    if active.length < 2 then []
    else active.filterMap (ofBuyer? accounts event active)

def alert (engine : AlertEngine) (g : Group String NetworkCandidate) : Alert :=
  let n := g.occurrences
  let related := ascending textLe (g.members.flatMap (·.related))
  let instruments := g.distinct (·.instrument)
  engine.raise .networkTrading .account n {
    accounts := g.key :: related
    instruments := instruments
    description := "Account " ++ g.key ++ " traded alongside related accounts ahead of " ++
      toString n ++ " corporate announcements"
    evidence := .ofList [
      ("avg_related_accounts",
        .ofFloat (Stats.mean (g.members.map fun c => Decimal.ofNat c.relatedCount))),
      ("num_instruments", .ofNat instruments.length),
      ("related_accounts", .strings related)] }

end NetworkCandidate

def network (trades : List Trade) (accounts : List Account) (events : List CorporateEvent)
    (c : Config) (engine : AlertEngine) : Outcome NetworkCandidate :=
  if accounts.all (·.related.isEmpty) || trades.isEmpty || events.isEmpty then
    .nothing .networkTrading
  else match Window.length? Window.days c.networkWindowDays with
    | none => .skipped .networkTrading .networkWindowDays c.networkWindowDays
    | some length =>
      let candidates := events.flatMap (NetworkCandidate.ofEvent (.ofTrades trades) accounts length)
      let gs := groups textLe (·.account) (·.event) candidates
      ⟨.networkTrading, candidates,
        alertsOf c.minSuspiciousEvents (NetworkCandidate.alert engine) gs, []⟩

end TradeWatch.Rule

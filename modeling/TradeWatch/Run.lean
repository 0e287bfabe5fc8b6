/-
A detection run: the sources are loaded, the four rules are evaluated in their order, and the
results are written. A run stops at its first fault; what was written before stays written, and
what was reported before stays reported.
-/
import TradeWatch.Alert.Stored
import TradeWatch.Alert.Summary
import TradeWatch.Rule.Tables
import TradeWatch.Store.Basic
import TradeWatch.Synthesis
import TradeWatch.Table.Rows
import TradeWatch.Timing

namespace TradeWatch

/-! ## Detectors -/

/-- A configuration that passed its validation. -/
structure Detector where
  config : Config
  accepted : config.validate = .ok ()

namespace Detector

def ofConfig (c : Config) : Except Fault Detector :=
  match h : c.validate with
  | .ok _ => .ok ⟨c, h⟩
  | .error e => .error (.config e)

end Detector

/-- What a run takes from its surroundings. -/
structure RunContext where
  time : Time.Instant
  /-- The ids of the alerts, by their position. -/
  alertId : Nat → String
  /-- Seeds the made-up events when the configuration has no seed. -/
  entropy : UInt64

/-! ## Loading -/

structure Inputs where
  trades : List Trade
  accounts : List Account
  events : List CorporateEvent
  source : EventSource

namespace Detector

variable {σ : Type} [TableStore σ]

/-- A source that has to be there. -/
def required (store : σ) (table : String) (columns : List String) : Except Fault Table := do
  match ← TableStore.load? store table columns with
  | some t => .ok t
  | none => .error (.missingTable table)

def loadTrades (store : σ) : Logged (List Trade) := do
  let t ← Logged.ofExcept (required store tradesTable Table.tradeColumns)
  t.trades

def loadAccounts (store : σ) : Except Fault (List Account) := do
  let t ← required store accountsTable Table.accountColumns
  t.accounts

/-- The columns read from a table of events. -/
def eventColumnsOf (t : Table) : List String :=
  if (t.column? Table.effectiveColumn).isSome then Table.eventColumns ++ [Table.effectiveColumn]
  else Table.eventColumns

def seed (d : Detector) (entropy : UInt64) : UInt64 :=
  match d.config.syntheticEventSeed with
  | some s => UInt64.ofNat s
  | none => entropy

/-- Events for want of an event table; that they are made up is reported. -/
def synthesizeEvents (seed : UInt64) (trades : List Trade) : Logged (List CorporateEvent) := do
  match Synthesis.events? trades (.ofSeed seed) with
  | none => throw .calendar
  | some (events, _) =>
    Logged.report (.eventsSynthesized events.length)
    return events

/-- The events of the event table, or made-up ones if there is none. -/
def loadEvents (d : Detector) (store : σ) (entropy : UInt64) (trades : List Trade) :
    Logged (List CorporateEvent × EventSource) := do
  match ← Logged.ofExcept (TableStore.load? store eventsTable []) with
  | some t =>
    let t ← Logged.ofExcept (t.project eventsTable (eventColumnsOf t))
    return (← t.events, .loaded)
  | none => return (← synthesizeEvents (d.seed entropy) trades, .synthesized)

def load (d : Detector) (store : σ) (entropy : UInt64) : Logged Inputs := do
  let trades ← loadTrades store
  let accounts ← Logged.ofExcept (loadAccounts store)
  let (events, source) ← d.loadEvents store entropy trades
  return ⟨trades, accounts, events, source⟩

end Detector

/-! ## Evaluating -/

/-- What the four rules found. -/
structure Findings where
  preAnnouncement : Rule.Outcome Rule.PreAnnouncementCandidate
  network : Rule.Outcome Rule.NetworkCandidate
  abnormalProfit : Rule.Outcome Rule.ProfitCandidate
  informationLeakage : Rule.Outcome Rule.LeakageCandidate

namespace Findings

/-- All alerts in the order of the rules. -/
def alerts (f : Findings) : List Alert :=
  f.preAnnouncement.alerts ++ f.network.alerts ++ f.abnormalProfit.alerts ++
    f.informationLeakage.alerts

def notices (f : Findings) : List Notice :=
  f.preAnnouncement.notices ++ f.network.notices ++ f.abnormalProfit.notices ++
    f.informationLeakage.notices

def candidateCounts (f : Findings) : Dict Nat := [
  (RuleId.preAnnouncementTrading.code, f.preAnnouncement.candidates.length),
  (RuleId.networkTrading.code, f.network.candidates.length),
  (RuleId.abnormalProfit.code, f.abnormalProfit.candidates.length),
  (RuleId.informationLeakage.code, f.informationLeakage.candidates.length)]

end Findings

namespace Findings

/-- The stage in which a rule is evaluated. -/
def stageOf (rule : RuleId) : String :=
  "rule_" ++ rule.code

/-- The four rules in their order over the same inputs. -/
def evaluate {m : Type → Type} [Monad m] (watch : Stopwatch m) (timer : RunTimer)
    (inputs : Inputs) (c : Config) (engine : AlertEngine) : m (Findings × RunTimer) := do
  let (pre, timer) ← timer.time watch (stageOf .preAnnouncementTrading) fun _ =>
    Rule.preAnnouncement inputs.trades inputs.events c engine
  let (network, timer) ← timer.time watch (stageOf .networkTrading) fun _ =>
    Rule.network inputs.trades inputs.accounts inputs.events c engine
  let (profit, timer) ← timer.time watch (stageOf .abnormalProfit) fun _ =>
    Rule.abnormalProfit inputs.trades inputs.events c engine
  let (leakage, timer) ← timer.time watch (stageOf .informationLeakage) fun _ =>
    Rule.informationLeakage inputs.trades inputs.events c engine
  return (⟨pre, network, profit, leakage⟩, timer)

end Findings

/-! ## Writing -/

namespace Output

def alerts : OutputKey := ⟨"alerts", alertCategory, "alerts"⟩
def summary : OutputKey := ⟨"alerts", alertCategory, "summary"⟩

/-- Where the candidates of a rule go. -/
def candidates (rule : RuleId) : OutputKey :=
  ⟨"surveillance", "intermediate", rule.candidateTable⟩

/-- Everything that a run may write. -/
def all : List OutputKey :=
  RuleId.all.map candidates ++ [alerts, summary]

/-- A table and where it goes; the table may turn out not to exist. -/
abbrev Planned := OutputKey × Except Fault Table

def candidateTables (f : Findings) : List Planned := [
  (candidates .preAnnouncementTrading, Rule.toTable f.preAnnouncement.candidates),
  (candidates .networkTrading, Rule.toTable f.network.candidates),
  (candidates .abnormalProfit, Rule.toTable f.abnormalProfit.candidates),
  (candidates .informationLeakage, Rule.toTable f.informationLeakage.candidates)]

def alertTables (alerts : List Alert) (summary : AlertSummary) : List Planned := [
  (Output.alerts, Alert.toTable alerts),
  (Output.summary, summary.toTable)]

/-- The results of a run in the order in which they are written. -/
def plan (c : Config) (f : Findings) (alerts : List Alert) (summary : Option AlertSummary) :
    List Planned :=
  (if c.saveIntermediates then candidateTables f else []) ++
    match summary with
    | none => []
    | some s => alertTables alerts s

/-- Writes the tables one after the other, up to the first fault. -/
def writeAll {σ : Type} [TableStore σ] (store : σ) : List Planned → σ × Except Fault Unit
  | [] => (store, .ok ())
  | (key, table) :: rest =>
    match table with
    | .error e => (store, .error e)
    | .ok t =>
      match TableStore.write store key t with
      | (store, .error e) => (store, .error e)
      | (store, .ok _) => writeAll store rest

end Output

/-! ## The whole run -/

structure Report where
  time : Time.Instant
  alerts : List Alert
  /-- There is one when there are alerts. -/
  summary : Option AlertSummary
  candidateCounts : Dict Nat
  source : EventSource
  timings : List StageTiming

/-- A run and what it left behind. -/
structure Ran (σ : Type) where
  store : σ
  notices : List Notice
  result : Except Fault Report

namespace Detector

variable {σ : Type} [TableStore σ]

/-- The notices of a run that failed. -/
def failureNotices : Fault → List Notice
  | .calendar => []
  | _ => [.aborted]

/-- Alerts with their ids. -/
def identified (alertId : Nat → String) (alerts : List Alert) : List Alert :=
  alerts.zipIdx.map fun (a, i) => { a with id := alertId i }

def summaryOf (alerts : List Alert) (source : EventSource) : Option AlertSummary :=
  if alerts.isEmpty then none else some (.ofAlerts alerts source)

def execute {m : Type → Type} [Monad m] (watch : Stopwatch m) (d : Detector) (store : σ)
    (context : RunContext) : m (Ran σ) := do
  let (loaded, timer) ← RunTimer.start.time watch "load" fun _ =>
    (d.load store context.entropy).run
  match loaded with
  | (.error e, notices) => return ⟨store, notices ++ failureNotices e, .error e⟩
  | (.ok inputs, notices) =>
    let engine := AlertEngine.ofConfig d.config context.time
    let (findings, timer) ← Findings.evaluate watch timer inputs d.config engine
    let notices := notices ++ findings.notices
    let alerts := identified context.alertId findings.alerts
    let summary := summaryOf alerts inputs.source
    let ((store, written), timer) ← timer.time watch "persist" fun _ =>
      Output.writeAll store (Output.plan d.config findings alerts summary)
    match written with
    | .error e => return ⟨store, notices ++ failureNotices e, .error e⟩
    | .ok _ =>
      return ⟨store, notices, .ok {
        time := engine.time
        alerts := alerts
        summary := summary
        candidateCounts := findings.candidateCounts
        source := inputs.source
        timings := timer.stages }⟩

/-- A run without a clock. -/
def run (d : Detector) (store : σ) (context : RunContext) : Ran σ :=
  Id.run (d.execute .still store context)

end Detector

end TradeWatch

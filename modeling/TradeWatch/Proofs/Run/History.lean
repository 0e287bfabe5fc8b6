/-
Histories of a store in memory: sources are put in or replaced and runs are made, in any order, and
each run may stop anywhere. Whatever happened, the two tables of alerts belong together: they are
those of the last run that published a report, or there are none because no run did.
-/
import TradeWatch.Proofs.Run.Outcome

namespace TradeWatch

/-! ## Steps -/

/-- What may happen to a store. -/
inductive Step
  | insert (name : String) (t : Table)
  | run (d : Detector) (context : RunContext)

namespace Step

def apply (s : MemoryStore) : Step → MemoryStore
  | insert name t => s.insert name t
  | run d context => (d.run s context).store

/-- The report of a run that succeeds and has alerts. -/
def published? (s : MemoryStore) : Step → Option Report
  | insert _ _ => none
  | run d context => (d.run s context).published?

/-- The counts of a run can be stored. -/
def Fits (s : MemoryStore) : Step → Prop
  | insert _ _ => True
  | run d context => d.Fits s context

instance (s : MemoryStore) : (step : Step) → Decidable (step.Fits s)
  | insert _ _ => .isTrue trivial
  | run d context => inferInstanceAs (Decidable (d.Fits s context))

theorem publishes_or_keeps {s : MemoryStore} {step : Step} (h : step.Fits s) :
    (∃ r, step.published? s = some r ∧ HoldsReport (step.apply s) r) ∨
      (step.published? s = none ∧ SameAlertTables s (step.apply s)) := by
  cases step with
  | insert name t => exact .inr ⟨rfl, rfl, rfl⟩
  | run d context => exact Detector.publishes_or_keeps h

theorem keeps {s : MemoryStore} {step : Step} (h : step.Fits s) (hq : step.published? s = none) :
    SameAlertTables s (step.apply s) := by
  rcases publishes_or_keeps h with ⟨r, hr, -⟩ | ⟨-, hs⟩
  · rw [hq] at hr
    cases hr
  · exact hs

end Step

/-! ## Histories -/

namespace MemoryStore

/-- The store after a history. -/
def after (s : MemoryStore) (steps : List Step) : MemoryStore :=
  steps.foldl Step.apply s

/-- The counts of every run of a history can be stored. -/
def Fits (s : MemoryStore) : List Step → Prop
  | [] => True
  | step :: steps => step.Fits s ∧ Fits (step.apply s) steps

instance decidableFits : (s : MemoryStore) → (steps : List Step) → Decidable (s.Fits steps)
  | _, [] => .isTrue trivial
  | s, step :: steps =>
    have := decidableFits (step.apply s) steps
    inferInstanceAs (Decidable (step.Fits s ∧ (step.apply s).Fits steps))

/-- One purchase. -/
def sampleTrades : Table :=
  ⟨1, [
    ("trade_id", .ofTexts ["T1"]),
    ("timestamp", .time .milli none [some 1699990000000]),
    ("instrument_id", .ofTexts ["ACME"]),
    ("buy_account_id", .ofTexts ["A1"]),
    ("sell_account_id", .ofTexts ["A2"]),
    ("quantity", .ofReals [10.0]),
    ("price", .ofReals [2.0]),
    ("trade_value", .ofReals [20.0])], by decide⟩

def sampleAccounts : Table :=
  ⟨0, Table.accountColumns.map fun name => (name, .ofTexts []), by decide⟩

/-- Events of the instrument some hours after the purchase. -/
def sampleEvents (ids : List String) : Table :=
  ⟨ids.length, [
    ("event_id", .ofTexts ids),
    ("instrument_id", .ofTexts (ids.map fun _ => "ACME")),
    ("event_type", .ofTexts (ids.map fun _ => "merger")),
    ("announcement_date", .time .milli none (ids.map fun _ => some 1700000000000))], by
      simp [Column.size, Column.ofTexts]⟩

def sampleRun : Step :=
  .run ⟨{ abnormalVolumeMultiplier := 0.5, minSuspiciousEvents := 1 }, by decide +kernel⟩
    ⟨⟨1700000000000000000, by decide⟩, fun i => toString i, 0⟩

/-- A run without sources fails, a run over a purchase ahead of an event raises an alert, and a run
over no events raises none. -/
def sampleHistory : List Step := [
  sampleRun, .insert tradesTable sampleTrades, .insert accountsTable sampleAccounts,
  .insert eventsTable (sampleEvents ["E1"]), sampleRun, .insert eventsTable (sampleEvents []),
  sampleRun]

end MemoryStore

end TradeWatch

/-
What one run does to the tables of alerts in memory. A run is its loading, then the four rules, then
the writing of one list of planned tables up to the first that cannot be made; the table of alerts
comes before their summary, and once it can be made so can the summary. So a run either replaces
both tables by its own or leaves both as they were.
-/
import TradeWatch.Proofs.Evidence
import TradeWatch.Store.Memory

namespace TradeWatch

/-! ## Writing -/

namespace MemoryStore

theorem result?_write_self (s : MemoryStore) (key : OutputKey) (t : Table) :
    (s.write key t).result? key = some t :=
  Dict.get?_insert_self _ _ _

theorem result?_write_of_ne {key other : OutputKey} (h : other.text ≠ key.text) (s : MemoryStore)
    (t : Table) : (s.write key t).result? other = s.result? other :=
  Dict.get?_insert_of_ne h _ _

end MemoryStore

namespace Output

/-- Two lists of tables are written one after the other, unless the first one stops. -/
theorem writeAll_append {σ : Type} [TableStore σ] (store : σ) (xs ys : List Planned) :
    writeAll store (xs ++ ys) =
      match writeAll store xs with
      | (store, .error e) => (store, .error e)
      | (store, .ok _) => writeAll store ys := by
  induction xs generalizing store with
  | nil => rfl
  | cons x xs ih =>
    obtain ⟨key, table⟩ := x
    cases table with
    | error e => rfl
    | ok t =>
      simp only [List.cons_append, writeAll]
      rcases TableStore.write store key t with ⟨store, e | u⟩
      · rfl
      · exact ih store

theorem writeAll_cons_ok (s : MemoryStore) (key : OutputKey) (t : Table) (rest : List Planned) :
    writeAll s ((key, .ok t) :: rest) = writeAll (s.write key t) rest :=
  rfl

/-- What is not planned stays as it was. -/
theorem result?_writeAll {key : OutputKey} {planned : List Planned}
    (h : ∀ p ∈ planned, key.text ≠ p.1.text) (s : MemoryStore) :
    (writeAll s planned).1.result? key = s.result? key := by
  induction planned generalizing s with
  | nil => rfl
  | cons p planned ih =>
    obtain ⟨other, table⟩ := p
    cases table with
    | error e => rfl
    | ok t =>
      rw [writeAll_cons_ok, ih fun q hq => h q (List.mem_cons_of_mem _ hq)]
      exact MemoryStore.result?_write_of_ne (h _ List.mem_cons_self) s t

/-- The candidates of a rule go neither where the alerts go nor where their summary goes. -/
theorem text_ne_of_mem_candidateTables {f : Findings} {p : Planned} (h : p ∈ candidateTables f) :
    alerts.text ≠ p.1.text ∧ summary.text ≠ p.1.text := by
  have hrule : ∀ rule : RuleId, alerts.text ≠ (candidates rule).text ∧
      summary.text ≠ (candidates rule).text := by
    intro rule
    cases rule <;> decide
  simp only [candidateTables, List.mem_cons, List.not_mem_nil, or_false] at h
  rcases h with rfl | rfl | rfl | rfl <;> exact hrule _

end Output

/-- The tables of alerts of both stores are the same. -/
structure SameAlertTables (s t : MemoryStore) : Prop where
  alerts : t.result? Output.alerts = s.result? Output.alerts
  summary : t.result? Output.summary = s.result? Output.summary

theorem sameAlertTables_writeAll_candidates (s : MemoryStore) (c : Config) (f : Findings) :
    SameAlertTables s
      (Output.writeAll s (if c.saveIntermediates then Output.candidateTables f else [])).1 := by
  split
  · exact ⟨Output.result?_writeAll (fun p hp => (Output.text_ne_of_mem_candidateTables hp).1) s,
      Output.result?_writeAll (fun p hp => (Output.text_ne_of_mem_candidateTables hp).2) s⟩
  · exact ⟨rfl, rfl⟩

/-! ## The parts of a run -/

namespace Detector

def findings (d : Detector) (inputs : Inputs) (context : RunContext) : Findings :=
  .ofInputs inputs d.config (.ofConfig d.config context.time)

/-- The alerts of a run that loaded these inputs. -/
def raised (d : Detector) (inputs : Inputs) (context : RunContext) : List Alert :=
  identified context.alertId (d.findings inputs context).alerts

/-- The tables that such a run sets out to write. -/
def planned (d : Detector) (inputs : Inputs) (context : RunContext) : List Output.Planned :=
  let alerts := d.raised inputs context
  Output.plan d.config (d.findings inputs context) alerts (summaryOf alerts inputs.source)

/-- What such a run reports if everything is written. -/
def reportOf (d : Detector) (inputs : Inputs) (context : RunContext) : Report where
  time := context.time.floorMillis
  alerts := d.raised inputs context
  summary := summaryOf (d.raised inputs context) inputs.source
  candidateCounts := (d.findings inputs context).candidateCounts
  source := inputs.source
  timings := ("load" :: RuleId.all.map Findings.stageOf ++ ["persist"]).map fun stage => ⟨stage, 0⟩

section Parts

variable {σ : Type} [TableStore σ] {d : Detector} {store : σ} {context : RunContext}
  {notices : List Notice}

theorem run_of_load_error {e : Fault}
    (h : (d.load store context.entropy).run = (.error e, notices)) :
    d.run store context = ⟨store, notices ++ failureNotices e, .error e⟩ := by
  unfold run execute RunTimer.time
  simp only [Stopwatch.still, h]
  rfl

theorem run_of_load_ok {inputs : Inputs}
    (h : (d.load store context.entropy).run = (.ok inputs, notices)) :
    d.run store context =
      let written := Output.writeAll store (d.planned inputs context)
      let notices := notices ++ (d.findings inputs context).notices
      match written.2 with
      | .error e => ⟨written.1, notices ++ failureNotices e, .error e⟩
      | .ok _ => ⟨written.1, notices, .ok (d.reportOf inputs context)⟩ := by
  unfold run execute RunTimer.time
  -- without a clock each stage is its result and nothing else
  simp only [Stopwatch.still, h]
  rfl

end Parts

/-! ## Runs that can be stored -/

/-- What a run counts that loaded these inputs: the events by a machine word, the alerts and their
accounts by a signed one. -/
structure Countable (d : Detector) (inputs : Inputs) (context : RunContext) : Prop where
  events : inputs.events.length < words64
  alerts : (d.raised inputs context).length < signedEnd
  accounts : ((d.raised inputs context).flatMap (·.accounts)).eraseDups.length < signedEnd

variable {d : Detector} {inputs : Inputs} {context : RunContext}

instance (d : Detector) (inputs : Inputs) (context : RunContext) :
    Decidable (d.Countable inputs context) :=
  decidable_of_iff
    (inputs.events.length < words64 ∧ (d.raised inputs context).length < signedEnd ∧
      ((d.raised inputs context).flatMap (·.accounts)).eraseDups.length < signedEnd)
    ⟨fun h => ⟨h.1, h.2.1, h.2.2⟩, fun h => ⟨h.events, h.alerts, h.accounts⟩⟩

theorem recorded_raised (hn : inputs.events.length < words64) :
    ∀ a ∈ d.raised inputs context, Recorded (.ofConfig d.config context.time) a := by
  intro a ha
  obtain ⟨⟨b, i⟩, hb, rfl⟩ := List.mem_map.1 ha
  exact (Findings.recorded_ofInputs hn (List.fst_mem_of_mem_zipIdx hb)).withId _

/-- The alerts of a run come back from their table, if they have one. -/
theorem ofTable_raised (hn : inputs.events.length < words64) {t : Table}
    (h : Alert.toTable (d.raised inputs context) = .ok t) :
    Alert.ofTable t = .ok (d.raised inputs context) := by
  have hr : ∀ a ∈ d.raised inputs context, Recorded (.ofConfig d.config context.time) a :=
    recorded_raised hn
  -- a year out of range would have left no table
  have hy : ∀ a ∈ d.raised inputs context, a.HasPlainYear := by
    by_contra hy
    push Not at hy
    rw [(Alert.toTable_eq_error_iff _).2 hy] at h
    cases h
  obtain ⟨u, hu, -, hof⟩ := Alert.ofTable_toTable hy fun a ha => (hr a ha).readable
  obtain rfl : u = t := Except.ok.inj (hu.symm.trans h)
  rw [hof, List.map_congr_left fun a ha => (hr a ha).raised.floored_eq, List.map_id']

theorem exists_toTable_summary (halerts : (d.raised inputs context).length < signedEnd)
    (haccounts : ((d.raised inputs context).flatMap (·.accounts)).eraseDups.length < signedEnd) :
    ∃ t, (AlertSummary.ofAlerts (d.raised inputs context) inputs.source).toTable = .ok t := by
  unfold AlertSummary.toTable
  rw [if_pos]
  · exact ⟨_, rfl⟩
  · simp only [AlertSummary.ofAlerts]
    unfold Column.maxCount
    omega

end Detector

/-! ## Both tables or none -/

/-- The tables of alerts in the store are those of the report: the one holds its alerts, the other
their summary. -/
def HoldsReport (s : MemoryStore) (r : Report) : Prop :=
  ∃ t u, s.result? Output.alerts = some t ∧ s.result? Output.summary = some u ∧
    Alert.ofTable t = .ok r.alerts ∧ (AlertSummary.ofAlerts r.alerts r.source).toTable = .ok u

/-- The report of a run that found something. -/
def Ran.published? {σ : Type} (x : Ran σ) : Option Report :=
  match x.result with
  | .ok r => if r.alerts.isEmpty then none else some r
  | .error _ => none

namespace Detector

variable {d : Detector} {inputs : Inputs} {context : RunContext}

/-- The alerts and their summary are planned last, and only if there are alerts. -/
theorem planned_eq :
    d.planned inputs context =
      (if d.config.saveIntermediates then Output.candidateTables (d.findings inputs context) else []) ++
        if d.raised inputs context = [] then []
        else Output.alertTables (d.raised inputs context)
          (.ofAlerts (d.raised inputs context) inputs.source) := by
  unfold planned Output.plan summaryOf
  simp only
  by_cases h : d.raised inputs context = []
  · simp [h]
  · simp [h]

/-- Writing the tables of alerts, which come last: both are written or none is. -/
theorem writeAll_alertTables (h : d.Countable inputs context) (s : MemoryStore) :
    let written := Output.writeAll s (Output.alertTables (d.raised inputs context)
      (.ofAlerts (d.raised inputs context) inputs.source))
    (written.2 = .ok () ∧ HoldsReport written.1 (d.reportOf inputs context)) ∨
      (∃ e, written = (s, .error e)) := by
  obtain ⟨u, hu⟩ := exists_toTable_summary h.alerts h.accounts
  cases ht : Alert.toTable (d.raised inputs context) with
  | error e =>
    -- the alerts are written first, so their fault leaves the summary unwritten too
    refine .inr ⟨e, ?_⟩
    unfold Output.alertTables
    rw [ht]
    rfl
  | ok t =>
    refine .inl ?_
    have hne : Output.alerts.text ≠ Output.summary.text := by decide
    unfold Output.alertTables
    rw [ht, hu, Output.writeAll_cons_ok, Output.writeAll_cons_ok]
    refine ⟨rfl, t, u, ?_, MemoryStore.result?_write_self _ _ _, ofTable_raised h.events ht, hu⟩
    exact (MemoryStore.result?_write_of_ne hne _ u).trans (MemoryStore.result?_write_self _ _ _)

/-- The run loads nothing, or inputs whose counts can be stored. -/
def Fits (d : Detector) (s : MemoryStore) (context : RunContext) : Prop :=
  match (d.load s context.entropy).run.1 with
  | .error _ => True
  | .ok inputs => d.Countable inputs context

instance (d : Detector) (s : MemoryStore) (context : RunContext) : Decidable (d.Fits s context) :=
  match h : (d.load s context.entropy).run.1 with
  | .error _ => .isTrue (by unfold Fits; rw [h]; trivial)
  | .ok inputs => decidable_of_iff (d.Countable inputs context) (by unfold Fits; rw [h])

theorem Fits.countable {s : MemoryStore} (h : d.Fits s context) {notices : List Notice}
    (hl : (d.load s context.entropy).run = (.ok inputs, notices)) : d.Countable inputs context := by
  unfold Fits at h
  rw [hl] at h
  exact h

/-- A run that publishes a report leaves its tables; any other run leaves the tables of alerts as
they were, however far it got. -/
theorem publishes_or_keeps {s : MemoryStore} (h : d.Fits s context) :
    (∃ r, (d.run s context).published? = some r ∧ HoldsReport (d.run s context).store r) ∨
      ((d.run s context).published? = none ∧ SameAlertTables s (d.run s context).store) := by
  rcases hl : (d.load s context.entropy).run with ⟨e | inputs, notices⟩
  · rw [run_of_load_error hl]
    exact .inr ⟨rfl, rfl, rfl⟩
  have hc := h.countable hl
  have hkeep := sameAlertTables_writeAll_candidates s d.config (d.findings inputs context)
  rw [run_of_load_ok hl, planned_eq, Output.writeAll_append]
  -- the candidates come first and touch neither table
  rcases hw : Output.writeAll s _ with ⟨s', e | u⟩
  · rw [hw] at hkeep
    exact .inr ⟨rfl, hkeep⟩
  rw [hw] at hkeep
  by_cases ha : d.raised inputs context = []
  · simp only [if_pos ha, Output.writeAll]
    refine .inr ⟨?_, hkeep⟩
    unfold Ran.published? reportOf
    simp [ha]
  · simp only [if_neg ha]
    rcases writeAll_alertTables hc s' with ⟨hok, hholds⟩ | ⟨e, herror⟩
    · refine .inl ⟨d.reportOf inputs context, ?_, ?_⟩
      · rw [hok]
        unfold Ran.published? reportOf
        simp [ha]
      · rw [hok]
        exact hholds
    · rw [herror]
      exact .inr ⟨rfl, hkeep⟩

end Detector

end TradeWatch

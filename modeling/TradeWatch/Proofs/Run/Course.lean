/-
The course of one run. Its steps are the loading of the trades, of the accounts and of the events,
and then the writing of the planned tables, each made and handed to the store before the next one
is made. The first step that fails stops the run with its fault and leaves what was written before;
the alerts and their summary are planned last and their tables can be made or not made together, so
a failed run leaves tables of candidates only. Whatever happens, sources and foreign results stay.
-/
import TradeWatch.Proofs.Run.History
import TradeWatch.Proofs.Run.Loading

namespace TradeWatch

/-! ## Tables one after the other -/

/-- The store with some results written in their order. -/
def MemoryStore.writeEach (s : MemoryStore) (done : List (OutputKey × Table)) : MemoryStore :=
  done.foldl (fun s p => s.write p.1 p.2) s

theorem MemoryStore.sources_writeEach (s : MemoryStore) (done : List (OutputKey × Table)) :
    (s.writeEach done).sources = s.sources := by
  induction done generalizing s with
  | nil => rfl
  | cons p done ih => exact ih (s.write p.1 p.2)

theorem MemoryStore.get?_writeEach {name : String} {done : List (OutputKey × Table)}
    (h : ∀ p ∈ done, name ≠ p.1.text) (s : MemoryStore) :
    (s.writeEach done).results.get? name = s.results.get? name := by
  induction done generalizing s with
  | nil => rfl
  | cons p done ih =>
    have hrest := ih (fun q hq => h q (List.mem_cons_of_mem _ hq)) (s.write p.1 p.2)
    exact hrest.trans (Dict.get?_insert_of_ne (h p List.mem_cons_self) _ _)

namespace Output

/-- Planned tables that exist. -/
def made (done : List (OutputKey × Table)) : List Planned :=
  done.map fun p => (p.1, .ok p.2)

theorem writeAll_made_append (s : MemoryStore) (done : List (OutputKey × Table))
    (rest : List Planned) :
    writeAll s (made done ++ rest) = writeAll (s.writeEach done) rest := by
  induction done generalizing s with
  | nil => rfl
  | cons p done ih => exact ih (s.write p.1 p.2)

/-- Either all planned tables exist or there is a first one that does not. -/
theorem made_or_stops (planned : List Planned) :
    (∃ done, planned = made done) ∨
      ∃ done key e rest, planned = made done ++ (key, .error e) :: rest := by
  induction planned with
  | nil => exact .inl ⟨[], rfl⟩
  | cons p planned ih =>
    obtain ⟨key, e | t⟩ := p
    · exact .inr ⟨[], key, e, planned, rfl⟩
    · rcases ih with ⟨done, rfl⟩ | ⟨done, other, e, rest, rfl⟩
      · exact .inl ⟨(key, t) :: done, rfl⟩
      · exact .inr ⟨(key, t) :: done, other, e, rest, rfl⟩

end Output

namespace Detector

variable {d : Detector} {s t : MemoryStore} {context : RunContext} {inputs : Inputs}
  {result : Except Fault Report}

/-! ## The steps of a run -/

/-- The inputs that the sources stand for. -/
structure Loads (d : Detector) (s : MemoryStore) (entropy : UInt64) (inputs : Inputs) : Prop where
  trades : (loadTrades s).run.1 = .ok inputs.trades
  accounts : loadAccounts s = .ok inputs.accounts
  events : (d.loadEvents s entropy inputs.trades).run.1 = .ok (inputs.events, inputs.source)

/-- What a run leaves and what it returns, by the first of its steps that fails: each step is made
only after the ones before it, and a table is written before the next one is made. -/
inductive Course (d : Detector) (s : MemoryStore) (context : RunContext) :
    MemoryStore → Except Fault Report → Prop
  | noTrades {e : Fault} (h : (loadTrades s).run.1 = .error e) : Course d s context s (.error e)
  | noAccounts {trades : List Trade} {e : Fault} (ht : (loadTrades s).run.1 = .ok trades)
      (h : loadAccounts s = .error e) : Course d s context s (.error e)
  | noEvents {trades : List Trade} {accounts : List Account} {e : Fault}
      (ht : (loadTrades s).run.1 = .ok trades) (ha : loadAccounts s = .ok accounts)
      (h : (d.loadEvents s context.entropy trades).run.1 = .error e) :
      Course d s context s (.error e)
  | stopped {inputs : Inputs} {done : List (OutputKey × Table)} {key : OutputKey} {e : Fault}
      {rest : List Output.Planned} (hl : d.Loads s context.entropy inputs)
      (hp : d.planned inputs context = Output.made done ++ (key, .error e) :: rest) :
      Course d s context (s.writeEach done) (.error e)
  | completed {inputs : Inputs} {done : List (OutputKey × Table)}
      (hl : d.Loads s context.entropy inputs) (hp : d.planned inputs context = Output.made done) :
      Course d s context (s.writeEach done) (.ok (d.reportOf inputs context))

theorem Loads.result_load (h : d.Loads s context.entropy inputs) :
    (d.load s context.entropy).run.1 = .ok inputs := by
  rw [Detector.result_load, h.trades, Except.bind, h.accounts, Except.bind, h.events, Except.bind]

section AnyStore

variable {σ : Type} [TableStore σ] {store : σ}

theorem run_of_result_error {e : Fault} (h : (d.load store context.entropy).run.1 = .error e) :
    (d.run store context).store = store ∧ (d.run store context).result = .error e := by
  rcases hl : (d.load store context.entropy).run with ⟨r, notices⟩
  rw [hl] at h
  obtain rfl : r = .error e := h
  rw [run_of_load_error hl]
  exact ⟨rfl, rfl⟩

/-- Loaded inputs leave the writing of the planned tables. -/
theorem run_of_result_ok (h : (d.load store context.entropy).run.1 = .ok inputs) :
    (d.run store context).store = (Output.writeAll store (d.planned inputs context)).1 ∧
      (d.run store context).result =
        (Output.writeAll store (d.planned inputs context)).2.map fun _ =>
          d.reportOf inputs context := by
  rcases hl : (d.load store context.entropy).run with ⟨r, notices⟩
  rw [hl] at h
  obtain rfl : r = .ok inputs := h
  rw [run_of_load_ok hl]
  rcases Output.writeAll store (d.planned inputs context) with ⟨written, e | u⟩
  · exact ⟨rfl, rfl⟩
  · exact ⟨rfl, rfl⟩

end AnyStore

theorem Loads.run_eq (h : d.Loads s context.entropy inputs) :
    (d.run s context).store = (Output.writeAll s (d.planned inputs context)).1 ∧
      (d.run s context).result =
        (Output.writeAll s (d.planned inputs context)).2.map fun _ =>
          d.reportOf inputs context :=
  run_of_result_ok h.result_load

/-- There is one course that a run can take, and the run takes it. -/
theorem Course.run_eq (h : d.Course s context t result) :
    (d.run s context).store = t ∧ (d.run s context).result = result := by
  cases h with
  | noTrades h =>
    refine run_of_result_error ?_
    rw [result_load, h, Except.bind]
  | noAccounts ht h =>
    refine run_of_result_error ?_
    rw [result_load, ht, Except.bind, h, Except.bind]
  | noEvents ht ha h =>
    refine run_of_result_error ?_
    rw [result_load, ht, Except.bind, ha, Except.bind, h, Except.bind]
  | stopped hl hp =>
    obtain ⟨hstore, hresult⟩ := hl.run_eq
    rw [hp, Output.writeAll_made_append] at hstore hresult
    exact ⟨hstore, hresult⟩
  | @completed inputs done hl hp =>
    obtain ⟨hstore, hresult⟩ := hl.run_eq
    rw [hp, ← List.append_nil (Output.made done), Output.writeAll_made_append] at hstore hresult
    exact ⟨hstore, hresult⟩

theorem exists_course (d : Detector) (s : MemoryStore) (context : RunContext) :
    ∃ t result, d.Course s context t result := by
  cases ht : (loadTrades s).run.1 with
  | error e => exact ⟨_, _, .noTrades ht⟩
  | ok trades =>
    cases ha : loadAccounts s with
    | error e => exact ⟨_, _, .noAccounts ht ha⟩
    | ok accounts =>
      cases he : (d.loadEvents s context.entropy trades).run.1 with
      | error e => exact ⟨_, _, .noEvents ht ha he⟩
      | ok loaded =>
        obtain ⟨events, source⟩ := loaded
        have hl : d.Loads s context.entropy ⟨trades, accounts, events, source⟩ := ⟨ht, ha, he⟩
        rcases Output.made_or_stops (d.planned ⟨trades, accounts, events, source⟩ context) with
          ⟨done, hp⟩ | ⟨done, key, e, rest, hp⟩
        · exact ⟨_, _, .completed hl hp⟩
        · exact ⟨_, _, .stopped hl hp⟩

theorem course_iff :
    d.Course s context t result ↔
      (d.run s context).store = t ∧ (d.run s context).result = result := by
  refine ⟨Course.run_eq, ?_⟩
  rintro ⟨rfl, rfl⟩
  obtain ⟨t, result, h⟩ := exists_course d s context
  obtain ⟨rfl, rfl⟩ := h.run_eq
  exact h

/-! ## The frame -/

/-- The candidates go first, rule by rule, if they are asked for; alerts, if there are any, go
before their summary. -/
theorem map_fst_planned (d : Detector) (inputs : Inputs) (context : RunContext) :
    (d.planned inputs context).map (·.1) =
      (if d.config.saveIntermediates then RuleId.all.map Output.candidates else []) ++
        if d.raised inputs context = [] then [] else [Output.alerts, Output.summary] := by
  rw [planned_eq, List.map_append]
  congr 1
  · split <;> rfl
  · split <;> rfl

theorem mem_all_of_mem_planned {p : Output.Planned} (h : p ∈ d.planned inputs context) :
    p.1 ∈ Output.all := by
  have hkey : p.1 ∈ (d.planned inputs context).map (·.1) := List.mem_map_of_mem h
  rw [map_fst_planned, List.mem_append] at hkey
  unfold Output.all
  rw [List.mem_append]
  refine hkey.imp (fun h => ?_) fun h => ?_
  · split at h
    · exact h
    · cases h
  · split at h
    · cases h
    · exact h

theorem Course.exists_writeEach (h : d.Course s context t result) :
    ∃ done, t = s.writeEach done ∧ ∀ p ∈ done, p.1 ∈ Output.all := by
  have hmade : ∀ {inputs : Inputs} {done : List (OutputKey × Table)} {rest : List Output.Planned},
      d.planned inputs context = Output.made done ++ rest → ∀ p ∈ done, p.1 ∈ Output.all := by
    intro inputs done rest hp p hdone
    have hmem : (p.1, .ok p.2) ∈ d.planned inputs context := by
      rw [hp, List.mem_append]
      exact .inl (List.mem_map_of_mem hdone)
    exact mem_all_of_mem_planned hmem
  cases h with
  | noTrades _ => exact ⟨[], rfl, nofun⟩
  | noAccounts _ _ => exact ⟨[], rfl, nofun⟩
  | noEvents _ _ _ => exact ⟨[], rfl, nofun⟩
  | stopped _ hp => exact ⟨_, rfl, hmade hp⟩
  | completed _ hp => exact ⟨_, rfl, hmade (hp.trans (List.append_nil _).symm)⟩

/-! ## Runs that fail -/

/-- The alerts and the accounts they concern can be counted by a signed word. -/
structure SummaryFits (d : Detector) (inputs : Inputs) (context : RunContext) : Prop where
  alerts : (d.raised inputs context).length < signedEnd
  accounts : ((d.raised inputs context).flatMap (·.accounts)).eraseDups.length < signedEnd

/-- The tables of candidates that a run sets out to write. -/
def plannedCandidates (d : Detector) (inputs : Inputs) (context : RunContext) :
    List Output.Planned :=
  if d.config.saveIntermediates then Output.candidateTables (d.findings inputs context) else []

/-- The table that cannot be made is the one of the alerts at the latest. -/
theorem SummaryFits.made_isPrefix (h : d.SummaryFits inputs context)
    {done : List (OutputKey × Table)} {key : OutputKey} {e : Fault} {rest : List Output.Planned}
    (hp : d.planned inputs context = Output.made done ++ (key, .error e) :: rest) :
    Output.made done <+: d.plannedCandidates inputs context := by
  obtain ⟨u, hu⟩ := exists_toTable_summary h.alerts h.accounts
  rw [planned_eq] at hp
  rcases List.append_eq_append_iff.1 hp with ⟨more, hmade, htail⟩ | ⟨more, hmade, -⟩
  · cases more with
    | nil =>
      rw [hmade, List.append_nil]
      exact List.prefix_rfl
    | cons p more =>
      -- the alerts are made, so the summary would be what cannot be made
      split at htail
      · cases htail
      · unfold Output.alertTables at htail
        rw [hu] at htail
        obtain ⟨-, htail⟩ := List.cons.inj htail
        cases more with
        | nil => cases htail
        | cons q more =>
          obtain ⟨-, htail⟩ := List.cons.inj htail
          cases more <;> cases htail
  · exact ⟨more, hmade.symm⟩

theorem Course.made_isPrefix {e : Fault} (h : d.Course s context t (.error e))
    (hload : (d.load s context.entropy).run.1 = .ok inputs) (hfits : d.SummaryFits inputs context) :
    ∃ done, t = s.writeEach done ∧ Output.made done <+: d.plannedCandidates inputs context := by
  cases h with
  | noTrades _ => exact ⟨[], rfl, List.nil_prefix⟩
  | noAccounts _ _ => exact ⟨[], rfl, List.nil_prefix⟩
  | noEvents _ _ _ => exact ⟨[], rfl, List.nil_prefix⟩
  | @stopped loaded done key _ rest hl hp =>
    obtain rfl : loaded = inputs := Except.ok.inj (hl.result_load.symm.trans hload)
    exact ⟨done, rfl, hfits.made_isPrefix hp⟩

/-! ## What every run promises -/

/-- What a run promises whether it succeeds or fails. -/
structure Orderly (d : Detector) (s : MemoryStore) (context : RunContext)
    (ran : Ran MemoryStore) : Prop where
  sources : ran.store.sources = s.sources
  results : ∀ name ∉ Output.all.map (·.text), ran.store.results.get? name = s.results.get? name
  /-- The run takes its one course, with the fault of the first step that fails. -/
  course : ∀ t result, d.Course s context t result ↔ ran.store = t ∧ ran.result = result
  /-- The order in which the tables are made and written. -/
  order : ∀ inputs, (d.planned inputs context).map (·.1) =
    (if d.config.saveIntermediates then RuleId.all.map Output.candidates else []) ++
      if d.raised inputs context = [] then [] else [Output.alerts, Output.summary]
  noTrades : s.sources.get? tradesTable = none →
    ran.result = .error (.missingTable tradesTable)
  noAccounts : ∀ trades, (loadTrades s).run.1 = .ok trades →
    s.sources.get? accountsTable = none → ran.result = .error (.missingTable accountsTable)
  noEvents : s.sources.get? eventsTable = none → ∀ trades,
    (d.loadEvents s context.entropy trades).run.1 =
      match Synthesis.events? trades (.ofSeed (d.seed context.entropy)) with
      | some (events, _) => .ok (events, .synthesized)
      | none => .error .calendar
  unloaded : ∀ e, (d.load s context.entropy).run.1 = .error e →
    ran.store = s ∧ ran.result = .error e
  /-- What a failed run wrote are the first of the tables of candidates. -/
  failed : ∀ inputs e, (d.load s context.entropy).run.1 = .ok inputs →
    d.SummaryFits inputs context → ran.result = .error e →
    ∃ done, ran.store = s.writeEach done ∧
      Output.made done <+: d.plannedCandidates inputs context

theorem run_orderly (d : Detector) (s : MemoryStore) (context : RunContext) :
    d.Orderly s context (d.run s context) := by
  have hcourse : d.Course s context (d.run s context).store (d.run s context).result :=
    course_iff.2 ⟨rfl, rfl⟩
  obtain ⟨done, hdone, hkeys⟩ := hcourse.exists_writeEach
  refine {
    sources := ?_
    results := fun name hname => ?_
    course := fun t result => course_iff
    order := fun inputs => map_fst_planned d inputs context
    noTrades := fun h => ?_
    noAccounts := fun trades ht h => ?_
    noEvents := fun h trades => loadEvents_of_missing h context.entropy trades
    unloaded := fun e h => run_of_result_error h
    failed := fun inputs e hload hfits hresult => ?_ }
  · rw [hdone]
    exact s.sources_writeEach done
  · rw [hdone]
    refine MemoryStore.get?_writeEach (fun p hp heq => hname ?_) s
    rw [heq]
    exact List.mem_map_of_mem (hkeys p hp)
  · exact (Course.noTrades (loadTrades_of_missing h)).run_eq.2
  · exact (Course.noAccounts ht (loadAccounts_of_missing h)).run_eq.2
  · rw [hresult] at hcourse
    exact hcourse.made_isPrefix hload hfits

example : Output.all.map (·.text) = [
    "surveillance/intermediate/insider_pre_announcement_candidates",
    "surveillance/intermediate/insider_network_candidates",
    "surveillance/intermediate/insider_abnormal_profit_candidates",
    "surveillance/intermediate/insider_information_leakage_candidates",
    "alerts/insider_trading/alerts", "alerts/insider_trading/summary"] := by
  decide

/-! ### A run that fails at the last table of candidates -/

/-- A purchase in a year of five digits. -/
def remoteTrades : Table :=
  ⟨1, [
    ("trade_id", .ofTexts ["T1"]),
    ("timestamp", .time .milli none [some 316516000000000]),
    ("instrument_id", .ofTexts ["ACME"]),
    ("buy_account_id", .ofTexts ["A1"]),
    ("sell_account_id", .ofTexts ["A2"]),
    ("quantity", .ofReals [10.0]),
    ("price", .ofReals [2.0]),
    ("trade_value", .ofReals [20.0])], by decide⟩

/-- An event one hour after the purchase. -/
def remoteEvents : Table :=
  ⟨1, [
    ("event_id", .ofTexts ["E1"]),
    ("instrument_id", .ofTexts ["ACME"]),
    ("event_type", .ofTexts ["merger"]),
    ("announcement_date", .time .milli none [some 316516003600000])], by decide⟩

def remoteStore : MemoryStore :=
  ((MemoryStore.empty.insert tradesTable remoteTrades).insert accountsTable
    MemoryStore.sampleAccounts).insert eventsTable remoteEvents

def savingDetector : Detector :=
  ⟨{ saveIntermediates := true, leakageMinAccounts := 1 }, by decide +kernel⟩

/-- The time of the event has no text, which only the last rule finds out; the tables of the other
rules stay. -/
theorem run_orderly_remoteStore :
    let context : RunContext := ⟨⟨1700600000000000000, by decide⟩, fun i => toString i, 0⟩
    let ran := savingDetector.run remoteStore context
    ran.result = .error .table ∧ ran.store.sources = remoteStore.sources ∧
      ran.store.results.map (·.1) = [
        "surveillance/intermediate/insider_abnormal_profit_candidates",
        "surveillance/intermediate/insider_network_candidates",
        "surveillance/intermediate/insider_pre_announcement_candidates"] ∧
      ∃ inputs done, (savingDetector.load remoteStore context.entropy).run.1 = .ok inputs ∧
        savingDetector.SummaryFits inputs context ∧ ran.store = remoteStore.writeEach done ∧
        Output.made done <+: savingDetector.plannedCandidates inputs context := by
  intro context ran
  have horderly := run_orderly savingDetector remoteStore context
  have hresult : ran.result = .error .table := by
    have hfault : (ran.result.map fun _ => ()) = .error .table := by decide +kernel
    cases h : ran.result with
    | error e =>
      rw [h] at hfault
      exact congrArg Except.error (Except.error.inj hfault)
    | ok r =>
      rw [h] at hfault
      cases hfault
  have hfits : savingDetector.Fits remoteStore context := by decide +kernel
  unfold Fits at hfits
  refine ⟨hresult, horderly.sources, by decide +kernel, ?_⟩
  cases hload : (savingDetector.load remoteStore context.entropy).run.1 with
  | error e =>
    have hloaded : (savingDetector.load remoteStore context.entropy).run.1.isOk = true := by
      decide +kernel
    rw [hload] at hloaded
    cases hloaded
  | ok inputs =>
    rw [hload] at hfits
    have hsummary : savingDetector.SummaryFits inputs context := ⟨hfits.alerts, hfits.accounts⟩
    obtain ⟨done, hstore, hprefix⟩ := horderly.failed inputs .table hload hsummary hresult
    exact ⟨inputs, done, rfl, hsummary, hstore, hprefix⟩

end Detector

end TradeWatch

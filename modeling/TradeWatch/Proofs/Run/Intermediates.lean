/-
Keeping the candidates. A run that keeps them writes one more table for each rule and is otherwise
the run that does not keep them: same report or same fault, same alerts and summary. There is one
exception: the years of announcements have to have four digits, or a table of candidates cannot be
made, and the run fails before it gets to the alerts.
-/
import TradeWatch.Proofs.CandidateTables
import TradeWatch.Proofs.Run.Anonymous
import TradeWatch.Proofs.Run.Inputs

namespace TradeWatch

open Time (Instant)

/-! ## Candidates by rule -/

namespace Findings

/-- When the events of the candidates of a rule were announced. -/
def announcedBy (f : Findings) : RuleId → List Instant
  | .preAnnouncementTrading => f.preAnnouncement.candidates.map (·.announced)
  | .networkTrading => f.network.candidates.map (·.announced)
  | .abnormalProfit => f.abnormalProfit.candidates.map (·.announced)
  | .informationLeakage => f.informationLeakage.candidates.map (·.announced)

/-- The candidates of a rule, field by field. -/
def fieldsBy (f : Findings) : RuleId → List (List (String × Cell))
  | .preAnnouncementTrading => f.preAnnouncement.candidates.map (·.fields)
  | .networkTrading => f.network.candidates.map (·.fields)
  | .abnormalProfit => f.abnormalProfit.candidates.map (·.fields)
  | .informationLeakage => f.informationLeakage.candidates.map (·.fields)

/-- Every candidate is of an event in a year of four digits. -/
def HasPlainYears (f : Findings) : Prop :=
  ∀ rule, ∀ t ∈ f.announcedBy rule, 0 ≤ t.date.year ∧ t.date.year ≤ 9999

instance (f : Findings) : Decidable f.HasPlainYears :=
  decidable_of_iff (∀ rule ∈ RuleId.all, ∀ t ∈ f.announcedBy rule,
    0 ≤ t.date.year ∧ t.date.year ≤ 9999)
    ⟨fun h rule => h rule (by cases rule <;> decide), fun h rule _ => h rule⟩

/-- The counts of the candidates fit into their columns, and their times are whole milliseconds. -/
structure Keepable (f : Findings) : Prop where
  preAnnouncement : ∀ c ∈ f.preAnnouncement.candidates, Rule.fitsColumn c.trades
  network : ∀ c ∈ f.network.candidates, Rule.fitsColumn c.relatedCount
  informationLeakage : ∀ c ∈ f.informationLeakage.candidates, Rule.fitsColumn c.accounts
  millis : ∀ rule, ∀ t ∈ f.announcedBy rule, t.floorMillis = t

theorem candidateCounts_get? (f : Findings) (rule : RuleId) :
    f.candidateCounts.get? rule.code = some (f.fieldsBy rule).length := by
  cases rule <;> simp [candidateCounts, fieldsBy, Dict.get?, RuleId.code]

end Findings

/-! ## What rules find in loaded inputs -/

/-- Few trades, different related accounts, and announcements at whole milliseconds. -/
structure Inputs.Countable (inputs : Inputs) : Prop where
  trades : inputs.trades.length < signedEnd
  related : ∀ a ∈ inputs.accounts, a.related.Nodup
  announced : ∀ e ∈ inputs.events, e.announced.floorMillis = e.announced

namespace Findings

variable {inputs : Inputs} {c : Config} {engine : AlertEngine}

theorem ofEvent_of_mem_preAnnouncement :
    ∀ x ∈ (ofInputs inputs c engine).preAnnouncement.candidates,
      ∃ e ∈ inputs.events, Rule.OfEvent inputs.trades e x.announced x.trades := by
  refine Rule.preAnnouncement_elim (P := fun candidates _ => ∀ x ∈ candidates,
    ∃ e ∈ inputs.events, Rule.OfEvent inputs.trades e x.announced x.trades) ?_ fun length x hx => ?_
  · intro x hx
    cases hx
  obtain ⟨e, he, hx⟩ := List.mem_flatMap.1 hx
  exact ⟨e, he, Rule.PreAnnouncementCandidate.ofEvent_of_mem hx⟩

theorem ofEvent_of_mem_network (h : ∀ a ∈ inputs.accounts, a.related.Nodup) :
    ∀ x ∈ (ofInputs inputs c engine).network.candidates,
      ∃ e ∈ inputs.events, Rule.OfEvent inputs.trades e x.announced x.relatedCount := by
  refine Rule.network_elim (P := fun candidates _ => ∀ x ∈ candidates,
    ∃ e ∈ inputs.events, Rule.OfEvent inputs.trades e x.announced x.relatedCount) ?_
    fun length x hx => ?_
  · intro x hx
    cases hx
  obtain ⟨e, he, hx⟩ := List.mem_flatMap.1 hx
  exact ⟨e, he, Rule.NetworkCandidate.ofEvent_of_mem h hx⟩

theorem ofEvent_of_mem_informationLeakage :
    ∀ x ∈ (ofInputs inputs c engine).informationLeakage.candidates,
      ∃ e ∈ inputs.events, Rule.OfEvent inputs.trades e x.announced x.accounts := by
  refine Rule.informationLeakage_elim (P := fun candidates _ => ∀ x ∈ candidates,
    ∃ e ∈ inputs.events, Rule.OfEvent inputs.trades e x.announced x.accounts) ?_
    fun length x hx => ?_
  · intro x hx
    cases hx
  obtain ⟨e, he, hx⟩ := List.mem_filterMap.1 hx
  exact ⟨e, he, Rule.LeakageCandidate.ofEvent_of_eq_some hx⟩

theorem keepable_ofInputs (h : inputs.Countable) : (ofInputs inputs c engine).Keepable := by
  have hfits : ∀ {n : Nat}, n ≤ inputs.trades.length → Rule.fitsColumn n = true := by
    intro n hn
    have htrades := h.trades
    unfold Rule.fitsColumn Column.maxCount
    exact decide_eq_true (by omega)
  have hmillis : ∀ {t : Instant}, (∃ e ∈ inputs.events, t = e.announced) →
      t.floorMillis = t := by
    rintro t ⟨e, he, rfl⟩
    exact h.announced e he
  refine ⟨fun x hx => ?_, fun x hx => ?_, fun x hx => ?_, fun rule t ht => ?_⟩
  · obtain ⟨e, -, hof⟩ := ofEvent_of_mem_preAnnouncement x hx
    exact hfits hof.count
  · obtain ⟨e, -, hof⟩ := ofEvent_of_mem_network h.related x hx
    exact hfits hof.count
  · obtain ⟨e, -, hof⟩ := ofEvent_of_mem_informationLeakage x hx
    exact hfits hof.count
  · refine hmillis ?_
    cases rule with
    | preAnnouncementTrading =>
      obtain ⟨x, hx, rfl⟩ := List.mem_map.1 ht
      obtain ⟨e, he, hof⟩ := ofEvent_of_mem_preAnnouncement x hx
      exact ⟨e, he, hof.announced⟩
    | networkTrading =>
      obtain ⟨x, hx, rfl⟩ := List.mem_map.1 ht
      obtain ⟨e, he, hof⟩ := ofEvent_of_mem_network h.related x hx
      exact ⟨e, he, hof.announced⟩
    | abnormalProfit =>
      obtain ⟨x, hx, rfl⟩ := List.mem_map.1 ht
      exact Rule.exists_announced_abnormalProfit x hx
    | informationLeakage =>
      obtain ⟨x, hx, rfl⟩ := List.mem_map.1 ht
      obtain ⟨e, he, hof⟩ := ofEvent_of_mem_informationLeakage x hx
      exact ⟨e, he, hof.announced⟩

end Findings

/-! ## The tables of candidates -/

namespace Output

/-- The tables of the candidates, whether they can be made or not. -/
def candidateRows (f : Findings) : List (OutputKey × Table) := [
  (candidates .preAnnouncementTrading, Rule.Tabular.table f.preAnnouncement.candidates),
  (candidates .networkTrading, Rule.Tabular.table f.network.candidates),
  (candidates .abnormalProfit, Rule.Tabular.table f.abnormalProfit.candidates),
  (candidates .informationLeakage, Rule.Tabular.table f.informationLeakage.candidates)]

theorem isStorable_of_plainYear {t : Instant} (h : 0 ≤ t.date.year ∧ t.date.year ≤ 9999) :
    Rule.isStorable t = true := by
  have hyear : Time.hasPlainYear t.date.year = true := decide_eq_true h
  unfold Rule.isStorable
  rw [Column.storedMillis?_eq, if_pos hyear]
  rfl

theorem plainYear_of_isStorable {t : Instant} (h : Rule.isStorable t = true) :
    0 ≤ t.date.year ∧ t.date.year ≤ 9999 := by
  unfold Rule.isStorable at h
  rw [Column.storedMillis?_eq] at h
  split at h
  · rename_i hyear
    exact of_decide_eq_true hyear
  · cases h

theorem toTable_of_fits {γ : Type} [Rule.Tabular γ] {rows : List γ}
    (h : ∀ c ∈ rows, Rule.Tabular.fits c = true) :
    Rule.toTable rows = .ok (Rule.Tabular.table rows) := by
  unfold Rule.toTable
  rw [if_pos (List.all_eq_true.2 h)]

theorem candidateTables_eq_made {f : Findings} (hk : f.Keepable) (hyears : f.HasPlainYears) :
    candidateTables f = made (candidateRows f) := by
  have hstorable : ∀ rule, ∀ t ∈ f.announcedBy rule, Rule.isStorable t = true :=
    fun rule t ht => isStorable_of_plainYear (hyears rule t ht)
  unfold candidateTables
  rw [toTable_of_fits fun c hc => ?_, toTable_of_fits fun c hc => ?_,
    toTable_of_fits fun c hc => ?_, toTable_of_fits fun c hc => ?_]
  · rfl
  · exact Bool.and_eq_true_iff.2
      ⟨hstorable .informationLeakage _ (List.mem_map_of_mem hc), hk.informationLeakage c hc⟩
  · exact hstorable .abnormalProfit _ (List.mem_map_of_mem hc)
  · exact Bool.and_eq_true_iff.2
      ⟨hstorable .networkTrading _ (List.mem_map_of_mem hc), hk.network c hc⟩
  · exact Bool.and_eq_true_iff.2
      ⟨hstorable .preAnnouncementTrading _ (List.mem_map_of_mem hc), hk.preAnnouncement c hc⟩

/-- The tables record the candidates of their rules. -/
theorem exists_candidateRows {f : Findings} (hk : f.Keepable) (hyears : f.HasPlainYears)
    (rule : RuleId) :
    ∃ t, (candidates rule, t) ∈ candidateRows f ∧ t.Records (f.fieldsBy rule) := by
  have hrecordable : ∀ rule, ∀ t ∈ f.announcedBy rule, Rule.Recordable t :=
    fun rule t ht => ⟨hyears rule t ht, hk.millis rule t ht⟩
  cases rule with
  | preAnnouncementTrading =>
    refine ⟨_, .head _, Rule.PreAnnouncementCandidate.records_table fun c hc => ?_⟩
    exact hrecordable .preAnnouncementTrading _ (List.mem_map_of_mem hc)
  | networkTrading =>
    refine ⟨_, .tail _ (.head _), Rule.NetworkCandidate.records_table fun c hc => ?_⟩
    exact hrecordable .networkTrading _ (List.mem_map_of_mem hc)
  | abnormalProfit =>
    refine ⟨_, .tail _ (.tail _ (.head _)), Rule.ProfitCandidate.records_table fun c hc => ?_⟩
    exact hrecordable .abnormalProfit _ (List.mem_map_of_mem hc)
  | informationLeakage =>
    refine ⟨_, .tail _ (.tail _ (.tail _ (.head _))),
      Rule.LeakageCandidate.records_table fun c hc => ?_⟩
    exact hrecordable .informationLeakage _ (List.mem_map_of_mem hc)

/-! ### Candidates that make no table -/

theorem toTable_eq_error {γ : Type} [Rule.Tabular γ] {rows : List γ} {e : Fault}
    (h : Rule.toTable rows = .error e) : e = .table := by
  unfold Rule.toTable at h
  split at h
  · cases h
  · exact (Except.error.inj h).symm

theorem fits_of_toTable_ok {γ : Type} [Rule.Tabular γ] {rows : List γ} {t : Table}
    (h : Rule.toTable rows = .ok t) : ∀ c ∈ rows, Rule.Tabular.fits c = true := by
  unfold Rule.toTable at h
  split at h
  · rename_i hall
    exact List.all_eq_true.1 hall
  · cases h

/-- If all four tables can be made, the years have four digits. -/
theorem plainYears_of_made {f : Findings} {done : List (OutputKey × Table)}
    (h : candidateTables f = made done) : f.HasPlainYears := by
  have hmade : ∀ p ∈ candidateTables f, ∃ t, p.2 = .ok t := by
    rw [h]
    intro p hp
    obtain ⟨q, -, rfl⟩ := List.mem_map.1 hp
    exact ⟨q.2, rfl⟩
  intro rule t ht
  refine plainYear_of_isStorable ?_
  cases rule with
  | preAnnouncementTrading =>
    obtain ⟨c, hc, rfl⟩ := List.mem_map.1 ht
    obtain ⟨u, hu⟩ := hmade _ (.head _)
    exact (Bool.and_eq_true_iff.1 (fits_of_toTable_ok hu c hc)).1
  | networkTrading =>
    obtain ⟨c, hc, rfl⟩ := List.mem_map.1 ht
    obtain ⟨u, hu⟩ := hmade _ (.tail _ (.head _))
    exact (Bool.and_eq_true_iff.1 (fits_of_toTable_ok hu c hc)).1
  | abnormalProfit =>
    obtain ⟨c, hc, rfl⟩ := List.mem_map.1 ht
    obtain ⟨u, hu⟩ := hmade _ (.tail _ (.tail _ (.head _)))
    exact fits_of_toTable_ok hu c hc
  | informationLeakage =>
    obtain ⟨c, hc, rfl⟩ := List.mem_map.1 ht
    obtain ⟨u, hu⟩ := hmade _ (.tail _ (.tail _ (.tail _ (.head _))))
    exact (Bool.and_eq_true_iff.1 (fits_of_toTable_ok hu c hc)).1

theorem error_of_mem_candidateTables {f : Findings} {key : OutputKey} {e : Fault}
    (h : (key, .error e) ∈ candidateTables f) : e = .table := by
  simp only [candidateTables, List.mem_cons, List.not_mem_nil, or_false, Prod.mk.injEq] at h
  rcases h with ⟨-, h⟩ | ⟨-, h⟩ | ⟨-, h⟩ | ⟨-, h⟩ <;> exact toTable_eq_error h.symm

/-- A year of more or fewer digits stops the writing at a table of candidates. -/
theorem writeAll_candidateTables_of_not {f : Findings} (h : ¬ f.HasPlainYears) (s : MemoryStore) :
    (writeAll s (candidateTables f)).2 = .error .table := by
  rcases made_or_stops (candidateTables f) with ⟨done, hp⟩ | ⟨done, key, e, rest, hp⟩
  · exact absurd (plainYears_of_made hp) h
  · have hmem : (key, .error e) ∈ candidateTables f := by
      rw [hp]
      exact List.mem_append_right _ (.head _)
    rw [hp, writeAll_made_append, error_of_mem_candidateTables hmem]
    rfl

end Output

/-! ## Runs with and without -/

theorem MemoryStore.result?_writeEach_of_mem {key : OutputKey} {t : Table}
    {done : List (OutputKey × Table)} (h : (key, t) ∈ done)
    (hdistinct : (done.map fun p => p.1.text).Nodup) (s : MemoryStore) :
    (s.writeEach done).result? key = some t := by
  induction done generalizing s with
  | nil => cases h
  | cons p done ih =>
    rw [List.map_cons, List.nodup_cons] at hdistinct
    rcases List.mem_cons.1 h with rfl | h
    · have hlater : ∀ q ∈ done, key.text ≠ q.1.text := by
        intro q hq heq
        exact hdistinct.1 (heq ▸ List.mem_map_of_mem hq)
      exact (MemoryStore.get?_writeEach hlater (s.write key t)).trans
        (MemoryStore.result?_write_self s key t)
    · exact ih h hdistinct.2 (s.write p.1 p.2)

namespace Output

theorem nodup_candidateRows (f : Findings) :
    ((candidateRows f).map fun p => p.1.text).Nodup := by
  have hkeys : ((candidateRows f).map fun p => p.1.text) =
      RuleId.all.map fun rule => (candidates rule).text := rfl
  rw [hkeys]
  decide

/-- No candidates go where the alerts or their summary go. -/
theorem text_ne_candidates {key : OutputKey} (h : key = alerts ∨ key = summary) (rule : RuleId) :
    key.text ≠ (candidates rule).text := by
  rcases h with rfl | rfl <;> cases rule <;> decide

/-- A summary holds no ids. -/
theorem eq_of_sameResult_summary {x y : Option Table}
    (h : Option.Rel (SameResult summary) x y) : x = y := by
  cases h with
  | none => rfl
  | some h =>
    generalize hkey : summary = key at h
    cases h with
    | refl => rfl
    | renamed _ => exact absurd hkey (by decide)

/-- Results that are the same but for ids still are when such tables are written over both. -/
theorem sameResult_writeEach {key : OutputKey} {done done' : List (OutputKey × Table)}
    (h : List.Forall₂ SameWritten done done') {s s' : MemoryStore}
    (hs : Option.Rel (SameResult key) (s.result? key) (s'.result? key))
    (hkeys : ∀ p ∈ done, p.1.text = key.text → p.1 = key) :
    Option.Rel (SameResult key) ((s.writeEach done).result? key)
      ((s'.writeEach done').result? key) := by
  induction h generalizing s s' with
  | nil => exact hs
  | @cons p q done done' hpq _ ih =>
    obtain ⟨htu⟩ := hpq
    rename_i other t u
    refine ih ?_ fun p hp => hkeys p (List.mem_cons_of_mem _ hp)
    by_cases hkey : other.text = key.text
    · obtain rfl : other = key := hkeys _ List.mem_cons_self hkey
      rw [MemoryStore.result?_write_self, MemoryStore.result?_write_self]
      exact .some htu
    · rw [MemoryStore.result?_write_of_ne (Ne.symm hkey),
        MemoryStore.result?_write_of_ne (Ne.symm hkey)]
      exact hs

end Output

namespace Detector

variable {d : Detector} {s : MemoryStore} {context context' : RunContext} {inputs : Inputs}

/-- The detector that keeps the candidates or does not, and is the same otherwise. -/
def saving (d : Detector) (keep : Bool) : Detector :=
  ⟨{ d.config with saveIntermediates := keep }, d.accepted⟩

/-- Keeping the candidates does not reach what is found. -/
theorem sameFindings_saving (htime : context.time = context'.time) (inputs : Inputs) :
    (d.saving false).SameFindings (d.saving true) inputs inputs context context' := by
  refine ⟨?_, rfl, htime⟩
  unfold findings
  rw [htime]
  rfl

theorem loads_iff :
    d.Loads s context.entropy inputs ↔ (d.load s context.entropy).run.1 = .ok inputs := by
  refine ⟨Loads.result_load, fun h => ?_⟩
  rw [result_load] at h
  obtain ⟨trades, htrades, h⟩ := bind_eq_ok_iff.1 h
  obtain ⟨accounts, haccounts, h⟩ := bind_eq_ok_iff.1 h
  obtain ⟨⟨events, source⟩, hevents, h⟩ := bind_eq_ok_iff.1 h
  cases h
  exact ⟨htrades, haccounts, hevents⟩

/-- With an event table or a seed both runs load the same, whatever their entropies. -/
theorem result_load_saving
    (h : (s.sources.get? eventsTable).isSome ∨ d.config.syntheticEventSeed.isSome) (keep : Bool)
    (entropy entropy' : UInt64) :
    ((d.saving keep).load s entropy).run.1 = (d.load s entropy').run.1 := by
  have hevents : ∀ trades,
      (d.saving keep).loadEvents s entropy trades = d.loadEvents s entropy' trades :=
    fun trades => loadEvents_eq_of_seeded h entropy entropy' trades
  rw [result_load, result_load]
  simp only [hevents]

theorem Loads.countable (h : d.Loads s context.entropy inputs)
    (hrows : ∀ p ∈ s.sources, p.2.rows < signedEnd) : inputs.Countable := by
  refine ⟨?_, nodup_related_of_loadAccounts h.accounts, floorMillis_of_loadEvents h.events⟩
  obtain ⟨t, ht, hlength⟩ := length_le_rows_of_loadTrades h.trades
  exact hlength.trans_lt (hrows _ (Dict.mem_of_get? ht))

theorem planned_saving_false :
    (d.saving false).planned inputs context =
      SameFindings.alertsPlanned (d.saving false) inputs context := by
  rw [planned_eq, if_neg (by simp [saving]), List.nil_append]
  rfl

theorem planned_saving_true :
    (d.saving true).planned inputs context =
      Output.candidateTables (d.findings inputs context) ++
        SameFindings.alertsPlanned (d.saving true) inputs context := by
  rw [planned_eq, if_pos (by simp [saving])]
  rfl

/-- The alerts and their summary go where no candidates go. -/
theorem key_of_mem_alertsPlanned {p : Output.Planned}
    (h : p ∈ SameFindings.alertsPlanned d inputs context) :
    p.1 = Output.alerts ∨ p.1 = Output.summary := by
  unfold SameFindings.alertsPlanned at h
  split at h
  · cases h
  · simp only [Output.alertTables, List.mem_cons, List.not_mem_nil, or_false] at h
    exact h.imp (congrArg Prod.fst) (congrArg Prod.fst)

/-- What keeping the candidates changes: nothing else, and each rule has a table of all that it
found, even of nothing. -/
structure OnlyObserves (f : Findings) (off on : Ran MemoryStore) : Prop where
  result : off.result.map Report.anonymous = on.result.map Report.anonymous
  alerts : Option.Rel (Output.SameResult Output.alerts) (off.store.result? Output.alerts)
    (on.store.result? Output.alerts)
  summary : off.store.result? Output.summary = on.store.result? Output.summary
  candidates : ∀ rule, ∃ t, on.store.result? (Output.candidates rule) = some t ∧
    t.Records (f.fieldsBy rule) ∧ f.candidateCounts.get? rule.code = some t.rows
  counts : ∀ r, on.result = .ok r → r.candidateCounts = f.candidateCounts

/-- A run that ends before the alerts because of a table that cannot be made. -/
structure StopsBeforeAlerts (s : MemoryStore) (ran : Ran MemoryStore) : Prop where
  result : ran.result = .error .table
  alerts : ran.store.result? Output.alerts = s.result? Output.alerts
  summary : ran.store.result? Output.summary = s.result? Output.summary

theorem stopsBeforeAlerts_of_not (hl : (d.saving true).Loads s context.entropy inputs)
    (hyears : ¬ (d.findings inputs context).HasPlainYears) :
    StopsBeforeAlerts s ((d.saving true).run s context) := by
  have hstopped := Output.writeAll_candidateTables_of_not hyears s
  obtain ⟨hstore, hresult⟩ := hl.run_eq
  rw [planned_saving_true, Output.writeAll_append] at hstore hresult
  rcases hw : Output.writeAll s (Output.candidateTables (d.findings inputs context)) with ⟨t, e | u⟩
  · rw [hw] at hstopped hstore hresult
    obtain rfl : e = .table := Except.error.inj hstopped
    have ht : t = (Output.writeAll s (Output.candidateTables (d.findings inputs context))).1 := by
      rw [hw]
    refine ⟨hresult, ?_, ?_⟩
    · rw [hstore, ht]
      exact Output.result?_writeAll (fun p hp => (Output.text_ne_of_mem_candidateTables hp).1) s
    · rw [hstore, ht]
      exact Output.result?_writeAll (fun p hp => (Output.text_ne_of_mem_candidateTables hp).2) s
  · rw [hw] at hstopped
    cases hstopped

theorem onlyObserves_of_plainYears (hloff : (d.saving false).Loads s context.entropy inputs)
    (hlon : (d.saving true).Loads s context'.entropy inputs) (hc : inputs.Countable)
    (htime : context.time = context'.time) (hyears : (d.findings inputs context).HasPlainYears) :
    OnlyObserves (d.findings inputs context) ((d.saving false).run s context)
      ((d.saving true).run s context') := by
  have hk : (d.findings inputs context).Keepable := Findings.keepable_ofInputs hc
  have hsame : (d.saving false).SameFindings (d.saving true) inputs inputs context context' :=
    sameFindings_saving htime inputs
  have hfindings : d.findings inputs context' = d.findings inputs context := by
    unfold findings
    rw [htime]
  -- with the candidates written first, both runs go on to write the same
  have hplanned : (d.saving true).planned inputs context' =
      Output.made (Output.candidateRows (d.findings inputs context)) ++
        SameFindings.alertsPlanned (d.saving true) inputs context' := by
    rw [planned_saving_true, hfindings, Output.candidateTables_eq_made hk hyears]
  obtain ⟨hstore, hresult⟩ := hloff.run_eq
  obtain ⟨hstore', hresult'⟩ := hlon.run_eq
  rw [planned_saving_false] at hstore hresult
  rw [hplanned, Output.writeAll_made_append] at hstore' hresult'
  obtain ⟨done, done', hdone, hkeys, hwrite, hwrite', hwritten⟩ :=
    Output.writeAll_of_samePlanned hsame.samePlanned_alerts s
      (s.writeEach (Output.candidateRows (d.findings inputs context)))
  have hkept : ∀ key : OutputKey, key = Output.alerts ∨ key = Output.summary →
      (s.writeEach (Output.candidateRows (d.findings inputs context))).result? key =
        s.result? key := by
    intro key hkey
    refine MemoryStore.get?_writeEach (fun p hp => ?_) s
    simp only [Output.candidateRows, List.mem_cons, List.not_mem_nil, or_false] at hp
    rcases hp with rfl | rfl | rfl | rfl <;> exact Output.text_ne_candidates hkey _
  have hover : ∀ key : OutputKey, key = Output.alerts ∨ key = Output.summary →
      Option.Rel (Output.SameResult key) (((d.saving false).run s context).store.result? key)
        (((d.saving true).run s context').store.result? key) := by
    intro key hkey
    have hstart : Option.Rel (Output.SameResult key) (s.result? key) (s.result? key) := by
      cases s.result? key with
      | none => exact .none
      | some t => exact .some (.refl key t)
    rw [hstore, hstore', hwrite, hwrite']
    refine Output.sameResult_writeEach hdone ((hkept key hkey).symm ▸ hstart) fun p hp htext => ?_
    obtain ⟨q, hq, hqp⟩ := List.mem_map.1 (hkeys p hp)
    rw [← hqp] at htext ⊢
    rcases key_of_mem_alertsPlanned hq with h | h <;> rcases hkey with rfl | rfl <;>
      rw [h] at htext ⊢ <;> revert htext <;> decide
  refine ⟨?_, hover _ (.inl rfl), ?_, fun rule => ?_, fun r hr => ?_⟩
  · rw [hresult, hresult', hwritten]
    cases (Output.writeAll (s.writeEach (Output.candidateRows (d.findings inputs context)))
      (SameFindings.alertsPlanned (d.saving true) inputs context')).2 with
    | error e => rfl
    | ok _ => exact congrArg Except.ok hsame.anonymous_reportOf
  · exact Output.eq_of_sameResult_summary (hover _ (.inr rfl))
  · obtain ⟨t, ht, hrecords⟩ := Output.exists_candidateRows hk hyears rule
    refine ⟨t, ?_, hrecords, ?_⟩
    · rw [hstore', Output.result?_writeAll fun p hp =>
        (Output.text_ne_candidates (key_of_mem_alertsPlanned hp) rule).symm]
      exact MemoryStore.result?_writeEach_of_mem ht (Output.nodup_candidateRows _) s
    · rw [Findings.candidateCounts_get?, hrecords.count]
  · rw [hresult'] at hr
    obtain ⟨u, -, rfl⟩ := map_eq_ok_iff.1 hr
    exact congrArg Findings.candidateCounts hfindings

/-- Keeping the candidates only observes. Without loaded inputs both runs return the same fault and
leave the store alone. If all candidates are of years of four digits, both runs return the same and
leave the same alerts and summary, and the one that keeps the candidates leaves a table of them for
each rule besides; otherwise it fails and writes neither alerts nor summary. -/
theorem saving_only_observes (d : Detector) {s : MemoryStore}
    (hrows : ∀ p ∈ s.sources, p.2.rows < signedEnd)
    (hevents : (s.sources.get? eventsTable).isSome ∨ d.config.syntheticEventSeed.isSome)
    {context context' : RunContext} (htime : context.time = context'.time) :
    let off := (d.saving false).run s context
    let on := (d.saving true).run s context'
    (∀ e, (d.load s context.entropy).run.1 = .error e →
      off.result = .error e ∧ on.result = .error e ∧ off.store = s ∧ on.store = s) ∧
    ∀ inputs, (d.load s context.entropy).run.1 = .ok inputs →
      ((d.findings inputs context).HasPlainYears →
        OnlyObserves (d.findings inputs context) off on) ∧
      (¬ (d.findings inputs context).HasPlainYears → StopsBeforeAlerts s on) := by
  intro off on
  refine ⟨fun e h => ?_, fun inputs h => ?_⟩
  · obtain ⟨hstore, hresult⟩ :=
      run_of_result_error ((result_load_saving hevents false context.entropy _).trans h)
    obtain ⟨hstore', hresult'⟩ :=
      run_of_result_error ((result_load_saving hevents true context'.entropy _).trans h)
    exact ⟨hresult, hresult', hstore, hstore'⟩
  · have hloff : (d.saving false).Loads s context.entropy inputs :=
      loads_iff.2 ((result_load_saving hevents false _ _).trans h)
    have hlon : (d.saving true).Loads s context'.entropy inputs :=
      loads_iff.2 ((result_load_saving hevents true _ _).trans h)
    have hc : inputs.Countable := hloff.countable hrows
    refine ⟨onlyObserves_of_plainYears hloff hlon hc htime, fun hyears => ?_⟩
    refine stopsBeforeAlerts_of_not hlon fun hplain => hyears ?_
    unfold findings at hplain ⊢
    rwa [htime]

/-! ### A year of four digits and one of five -/

theorem saving_only_observes_sampleEvents :
    let context : RunContext := ⟨⟨1700600000000000000, by decide⟩, fun i => toString i, 0⟩
    let context' : RunContext :=
      { context with alertId := fun i => "A" ++ toString i, entropy := 5 }
    let near := MemoryStore.empty.after [.insert tradesTable MemoryStore.sampleTrades,
      .insert accountsTable MemoryStore.sampleAccounts,
      .insert eventsTable (MemoryStore.sampleEvents ["E1"])]
    (∃ inputs, (savingDetector.load near context.entropy).run.1 = .ok inputs ∧
        (savingDetector.findings inputs context).informationLeakage.candidates ≠ [] ∧
        OnlyObserves (savingDetector.findings inputs context)
          ((savingDetector.saving false).run near context)
          ((savingDetector.saving true).run near context')) ∧
      StopsBeforeAlerts remoteStore ((savingDetector.saving true).run remoteStore context') := by
  intro context context' near
  have hnear : (savingDetector.load near context.entropy).run.1.map (fun inputs =>
      decide ((savingDetector.findings inputs context).HasPlainYears ∧
        (savingDetector.findings inputs context).informationLeakage.candidates ≠ [])) = .ok true := by
    decide +kernel
  have hremote : (savingDetector.load remoteStore context.entropy).run.1.map (fun inputs =>
      decide ((savingDetector.findings inputs context).HasPlainYears)) = .ok false := by
    decide +kernel
  obtain ⟨inputs, hload, hplain⟩ := map_eq_ok_iff.1 hnear
  obtain ⟨inputs', hload', hplain'⟩ := map_eq_ok_iff.1 hremote
  have htime : context.time = context'.time := rfl
  have hobserves := saving_only_observes savingDetector (s := near) (by decide +kernel)
    (.inl (by decide +kernel)) htime
  have hstops := saving_only_observes savingDetector (s := remoteStore) (by decide +kernel)
    (.inl (by decide +kernel)) htime
  refine ⟨⟨inputs, hload, (of_decide_eq_true hplain).2, ?_⟩, ?_⟩
  · exact (hobserves.2 inputs hload).1 (of_decide_eq_true hplain).1
  · exact (hstops.2 inputs' hload').2 (of_decide_eq_false hplain')

end Detector

end TradeWatch

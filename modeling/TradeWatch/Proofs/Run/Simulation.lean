/-
Runs over two stores in step. If one store is in memory, and the two of them load the same and stay
in step when they are handed results that are the same but for the ids of alerts, then they stay in
step over a whole run, and the runs report the same but for ids and timings, or fail for the same
reason. The ids and the time that the stages take are all that a run draws from its surroundings,
if its events come from a table or are made up from a seed.
-/
import TradeWatch.Proofs.Run.Anonymous
import TradeWatch.Proofs.Run.Inputs

namespace TradeWatch.Detector

/-- The sources of a run. -/
def sourceTables : List String := [tradesTable, accountsTable, eventsTable]

variable {σ : Type} [TableStore σ] {s : σ} {m : MemoryStore} {R : σ → MemoryStore → Prop}
  {d : Detector} {context context' : RunContext}

/-- Stores in step load the same sources, and stay in step when they are handed the same result. -/
structure Simulation (R : σ → MemoryStore → Prop) : Prop where
  load : ∀ s m, R s m → ∀ name ∈ sourceTables, ∀ columns,
    TableStore.load? s name columns = TableStore.load? m name columns
  write : ∀ s m, R s m → ∀ key ∈ Output.all, ∀ t u, Output.SameResult key t u →
    R (TableStore.write s key t).1 (m.write key u) ∧ (TableStore.write s key t).2 = .ok ()

/-- The events of a run are those of a table or made up from a seed. -/
def Settled (d : Detector) (m : MemoryStore) : Prop :=
  d.config.syntheticEventSeed.isSome ∨ (m.sources.get? eventsTable).isSome

theorem Simulation.load_eq (h : Simulation R) (hR : R s m) (d : Detector) (entropy : UInt64) :
    d.load s entropy = d.load m entropy := by
  have htrades : loadTrades s = loadTrades m := by
    unfold loadTrades required
    rw [h.load s m hR tradesTable (by decide)]
  have haccounts : loadAccounts s = loadAccounts m := by
    unfold loadAccounts required
    rw [h.load s m hR accountsTable (by decide)]
  have hevents : ∀ trades, d.loadEvents s entropy trades = d.loadEvents m entropy trades := by
    intro trades
    unfold loadEvents
    rw [h.load s m hR eventsTable (by decide)]
  unfold Detector.load
  simp only [htrades, haccounts, hevents]

theorem load_eq_of_settled (h : d.Settled m) (entropy entropy' : UInt64) :
    d.load m entropy = d.load m entropy' := by
  unfold load
  simp only [loadEvents_eq_of_seeded h.symm entropy entropy']

theorem Simulation.writeAll (h : Simulation R) (hR : R s m) {ps qs : List Output.Planned}
    (hpq : List.Forall₂ Output.SamePlanned ps qs) (hkeys : ∀ p ∈ ps, p.1 ∈ Output.all) :
    R (Output.writeAll s ps).1 (Output.writeAll m qs).1 ∧
      (Output.writeAll s ps).2 = (Output.writeAll m qs).2 := by
  induction hpq generalizing s m with
  | nil => exact ⟨hR, rfl⟩
  | @cons p q ps qs hpq _ ih =>
    cases hpq with
    | failed key e => exact ⟨hR, rfl⟩
    | @made key t u htu =>
      have hkey : key ∈ Output.all := hkeys (key, .ok t) List.mem_cons_self
      obtain ⟨hR', hok⟩ := h.write s m hR key hkey t u htu
      have hstep : Output.writeAll s ((key, .ok t) :: ps) =
          Output.writeAll (TableStore.write s key t).1 ps := by
        rw [Output.writeAll]
        rcases hw : TableStore.write s key t with ⟨v, r⟩
        rw [hw] at hok
        cases hok
        rfl
      rw [hstep]
      exact ih hR' fun p hp => hkeys p (List.mem_cons_of_mem _ hp)

/-- A whole run keeps two stores in step. -/
theorem Simulation.run (h : Simulation R) (hR : R s m) (hsettled : d.Settled m)
    (htime : context.time = context'.time) :
    R (d.run s context).store (d.run m context').store ∧
      (d.run s context).result.map Report.anonymous =
        (d.run m context').result.map Report.anonymous := by
  have hload : d.load s context.entropy = d.load m context'.entropy :=
    (h.load_eq hR d context.entropy).trans
      (load_eq_of_settled hsettled context.entropy context'.entropy)
  cases hloaded : (d.load m context'.entropy).run.1 with
  | error e =>
    obtain ⟨hstore, hresult⟩ := run_of_result_error hloaded
    rw [← hload] at hloaded
    obtain ⟨hstore', hresult'⟩ := run_of_result_error hloaded
    rw [hstore, hstore', hresult, hresult']
    exact ⟨hR, rfl⟩
  | ok inputs =>
    obtain ⟨hstore, hresult⟩ := run_of_result_ok hloaded
    rw [← hload] at hloaded
    obtain ⟨hstore', hresult'⟩ := run_of_result_ok hloaded
    have hsame : d.SameFindings d inputs inputs context context' := by
      refine ⟨?_, rfl, htime⟩
      unfold findings
      rw [htime]
    obtain ⟨hwritten, hok⟩ := h.writeAll hR (hsame.samePlanned rfl) fun _ => mem_all_of_mem_planned
    rw [hstore, hstore', hresult, hresult', hok]
    refine ⟨hwritten, ?_⟩
    cases (Output.writeAll m (d.planned inputs context')).2 with
    | error e => rfl
    | ok _ => exact congrArg Except.ok hsame.anonymous_reportOf

end TradeWatch.Detector

/-
What a run loads, source by source. Notices are added and never read, so each source is loaded as
if the others had reported nothing: the loading is that of the trades, then of the accounts, then of
the events, and its fault is the first among theirs. A missing table of events is no fault.
-/
import TradeWatch.Run
import TradeWatch.Store.Memory

namespace TradeWatch

/-! ## Computations with notices -/

namespace Logged

variable {α β : Type}

/-- A computation that goes on after some notices. -/
def runFrom (notices : List Notice) (x : Logged α) : Except Fault α × List Notice :=
  StateT.run (ExceptT.run x) notices

/-- The computation adds to the notices and does not read them. -/
def Appends (x : Logged α) : Prop :=
  ∀ notices, x.runFrom notices = (x.run.1, notices ++ x.run.2)

theorem appends_ofExcept (x : Except Fault α) : Appends (ofExcept x) := by
  intro notices
  exact congrArg (x, ·) (List.append_nil notices).symm

theorem appends_pure (a : α) : Appends (pure a) :=
  appends_ofExcept (.ok a)

theorem appends_report (n : Notice) : Appends (report n) :=
  fun _ => rfl

theorem runFrom_bind (x : Logged α) (f : α → Logged β) (notices : List Notice) :
    (x >>= f).runFrom notices =
      match x.runFrom notices with
      | (.error e, notices) => (.error e, notices)
      | (.ok a, notices) => (f a).runFrom notices := by
  unfold runFrom
  rw [ExceptT.run_bind, StateT.run_bind]
  rcases StateT.run (ExceptT.run x) notices with ⟨e | a, notices'⟩
  · rfl
  · rfl

theorem run_bind (x : Logged α) (f : α → Logged β) :
    (x >>= f).run =
      match x.run with
      | (.error e, notices) => (.error e, notices)
      | (.ok a, notices) => (f a).runFrom notices :=
  runFrom_bind x f []

theorem Appends.bind {x : Logged α} {f : α → Logged β} (hx : x.Appends)
    (hf : ∀ a, (f a).Appends) : (x >>= f).Appends := by
  intro notices
  rw [runFrom_bind, hx, run_bind]
  rcases x.run with ⟨e | a, reported⟩
  · rfl
  · simp only
    rw [hf a, hf a reported, List.append_assoc]

/-- The results of computations that add only are joined as if there were no notices. -/
theorem result_bind (x : Logged α) {f : α → Logged β} (hf : ∀ a, (f a).Appends) :
    (x >>= f).run.1 = x.run.1.bind fun a => (f a).run.1 := by
  rw [run_bind]
  rcases x.run with ⟨e | a, reported⟩
  · rfl
  · simp only
    rw [hf a]
    rfl

end Logged

/-! ## The sources -/

theorem Table.appends_events (t : Table) : t.events.Appends := by
  refine (Logged.appends_ofExcept _).bind fun cells => ?_
  dsimp only
  split
  · exact (Logged.appends_report _).bind fun _ => Logged.appends_pure _
  · exact Logged.appends_pure _

namespace Detector

theorem appends_synthesizeEvents (seed : UInt64) (trades : List Trade) :
    (synthesizeEvents seed trades).Appends := by
  unfold synthesizeEvents
  split
  · exact Logged.appends_ofExcept _
  · exact (Logged.appends_report _).bind fun _ => Logged.appends_pure _

section Load

variable {σ : Type} [TableStore σ] (d : Detector) (store : σ) (entropy : UInt64)

theorem appends_loadEvents (trades : List Trade) : (d.loadEvents store entropy trades).Appends := by
  refine (Logged.appends_ofExcept _).bind fun loaded => ?_
  split
  · refine (Logged.appends_ofExcept _).bind fun t => ?_
    exact t.appends_events.bind fun _ => Logged.appends_pure _
  · exact (appends_synthesizeEvents _ _).bind fun _ => Logged.appends_pure _

/-- The loading is that of the trades, then of the accounts, then of the events. -/
theorem result_load :
    (d.load store entropy).run.1 =
      (loadTrades store).run.1.bind fun trades =>
        (loadAccounts store).bind fun accounts =>
          (d.loadEvents store entropy trades).run.1.bind fun (events, source) =>
            .ok ⟨trades, accounts, events, source⟩ := by
  have hlast : ∀ trades accounts, (d.loadEvents store entropy trades >>= fun (events, source) =>
      (return ⟨trades, accounts, events, source⟩ : Logged Inputs)).Appends :=
    fun trades _ => (d.appends_loadEvents store entropy trades).bind fun _ => Logged.appends_pure _
  unfold load
  rw [Logged.result_bind _ fun trades => (Logged.appends_ofExcept _).bind (hlast trades)]
  congr 1
  funext trades
  rw [Logged.result_bind _ (hlast trades)]
  congr 1
  funext accounts
  rw [Logged.result_bind _ fun _ => Logged.appends_pure _]
  rfl

end Load

/-! ## Missing tables -/

section Missing

variable {d : Detector} {s : MemoryStore}

theorem loadTrades_of_missing (h : s.sources.get? tradesTable = none) :
    (loadTrades s).run.1 = .error (.missingTable tradesTable) := by
  unfold loadTrades required
  simp only [TableStore.load?, MemoryStore.load?, h]
  rfl

theorem loadAccounts_of_missing (h : s.sources.get? accountsTable = none) :
    loadAccounts s = .error (.missingTable accountsTable) := by
  unfold loadAccounts required
  simp only [TableStore.load?, MemoryStore.load?, h]
  rfl

/-- For want of an event table events are made up, unless they leave the calendar. -/
theorem loadEvents_of_missing (h : s.sources.get? eventsTable = none) (entropy : UInt64)
    (trades : List Trade) :
    (d.loadEvents s entropy trades).run.1 =
      match Synthesis.events? trades (.ofSeed (d.seed entropy)) with
      | some (events, _) => .ok (events, .synthesized)
      | none => .error .calendar := by
  unfold loadEvents synthesizeEvents
  simp only [TableStore.load?, MemoryStore.load?, h]
  cases Synthesis.events? trades (.ofSeed (d.seed entropy)) with
  | none => rfl
  | some made => rfl

end Missing

end Detector

end TradeWatch

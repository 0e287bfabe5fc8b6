/-
Stores that can stand in for each other. Whatever is asked of a store in a directory that was empty
at first, in any order and however its sources are cut into batches, a store in memory gives the
same answers, if names are plain and runs make no events up at random. The answers leave open what
is drawn anew in each run: the ids of alerts. So results are never read as sources, and a run over
the same sources at the same time reports the same.
-/
import TradeWatch.Proofs.Store.Mirror

namespace TradeWatch

/-! ## Requests -/

/-- What may be asked of a store. -/
inductive Request
  | install (name : String) (b : Batched)
  | load (name : String) (columns : List String)
  | write (key : OutputKey) (t : Table)
  | read (key : OutputKey)
  | run (d : Detector) (context : RunContext)

inductive Answer
  | done (r : Except Fault Unit)
  | source (r : Except Fault (Option Table))
  | result (key : OutputKey) (r : Except Fault (Option Table))
  | report (r : Except Fault Report)

/-- A store that can also be given sources and asked for results. -/
class ManagedStore (σ : Type) extends TableStore σ where
  install : σ → String → Batched → σ × Except Fault Unit
  result? : σ → OutputKey → Except Fault (Option Table)

instance : ManagedStore DirectoryStore where
  install := DirectoryStore.install
  result? := DirectoryStore.result?

instance : ManagedStore MemoryStore where
  install s name b := (s.insert name b.whole, .ok ())
  result? s key := .ok (s.result? key)

section Serving

variable {σ : Type} [ManagedStore σ]

namespace Request

/-- The store after a request, and its answer. -/
def serve (s : σ) : Request → σ × Answer
  | install name b => (ManagedStore.install s name b).map id .done
  | load name columns => (s, .source (TableStore.load? s name columns))
  | write key t => (TableStore.write s key t).map id .done
  | read key => (s, .result key (ManagedStore.result? s key))
  | run d context => ((d.run s context).store, .report (d.run s context).result)

end Request

/-- The store after some requests. -/
def storeAfter (s : σ) (requests : List Request) : σ :=
  requests.foldl (fun s r => (r.serve s).1) s

theorem storeAfter_concat (s : σ) (past : List Request) (r : Request) :
    storeAfter s (past ++ [r]) = (r.serve (storeAfter s past)).1 := by
  unfold storeAfter
  rw [List.foldl_append, List.foldl_cons, List.foldl_nil]

/-- The answers to some requests, one after the other. -/
def answersTo (s : σ) : List Request → List Answer
  | [] => []
  | r :: requests => (r.serve s).2 :: answersTo (r.serve s).1 requests

end Serving

/-! ## The same answers -/

/-- The same answers but for the ids of alerts and the timings of a report. -/
inductive Answer.Same : Answer → Answer → Prop
  | refl (a : Answer) : Same a a
  | result {key : OutputKey} {t u : Table} (h : Output.SameResult key t u) :
      Same (.result key (.ok (some t))) (.result key (.ok (some u)))
  | report {r r' : Except Fault Report} (h : r.map Report.anonymous = r'.map Report.anonymous) :
      Same (.report r) (.report r')

namespace Request

/-- The same requests, but each run draws its ids and its entropy anew. -/
inductive Alike : Request → Request → Prop
  | refl (r : Request) : Alike r r
  | run (d : Detector) {context context' : RunContext} (h : context.time = context'.time) :
      Alike (.run d context) (.run d context')

/-- All names in the request are plain. -/
def IsPlain : Request → Prop
  | install name _ => Path.IsPlain name
  | load name _ => Path.IsPlain name
  | write key _ => key.IsPlain
  | read key => key.IsPlain
  | run _ _ => True

instance : (r : Request) → Decidable r.IsPlain
  | install name _ => inferInstanceAs (Decidable (Path.IsPlain name))
  | load name _ => inferInstanceAs (Decidable (Path.IsPlain name))
  | write key _ => inferInstanceAs (Decidable key.IsPlain)
  | read key => inferInstanceAs (Decidable key.IsPlain)
  | run _ _ => .isTrue trivial

/-- The request puts a source of that name in. -/
def Installs (name : String) : Request → Prop
  | install other _ => other = name
  | _ => False

/-- Each run makes its events up from a seed, or finds the event table in `m` or put in before. -/
def Settled (m : MemoryStore) (requests : List Request) : Prop :=
  ∀ past d context, past ++ [.run d context] <+: requests →
    d.Settled m ∨ ∃ r ∈ past, r.Installs eventsTable

theorem Alike.installs {r r' : Request} (h : r.Alike r') {name : String} (hr : r.Installs name) :
    r'.Installs name := by
  cases h with
  | refl => exact hr
  | run => exact hr.elim

/-! ### Sources in memory -/

variable {m : MemoryStore} {r : Request} {name : String} {past : List Request}

theorem get?_sources_serve (h : ¬ r.Installs name) :
    (r.serve m).1.sources.get? name = m.sources.get? name := by
  cases r with
  | install other b => exact Dict.get?_insert_of_ne (Ne.symm h) _ _
  | load other columns => rfl
  | write key t => rfl
  | read key => rfl
  | run d context =>
    obtain ⟨t, result, hcourse⟩ := Detector.exists_course d m context
    obtain ⟨done, hdone, -⟩ := hcourse.exists_writeEach
    change (d.run m context).store.sources.get? name = _
    rw [hcourse.run_eq.1, hdone, m.sources_writeEach]

/-- A source stays once it was put in, itself or another one of its name. -/
theorem isSome_serve (h : (m.sources.get? name).isSome ∨ r.Installs name) :
    ((r.serve m).1.sources.get? name).isSome := by
  by_cases hr : r.Installs name
  · cases r with
    | install other b =>
      obtain rfl : other = name := hr
      change ((m.sources.insert other b.whole).get? other).isSome
      rw [Dict.get?_insert_self]
      rfl
    | _ => exact hr.elim
  · rw [get?_sources_serve hr]
    exact h.resolve_right hr

theorem isSome_storeAfter
    (h : (m.sources.get? name).isSome ∨ ∃ r ∈ past, r.Installs name) :
    ((storeAfter m past).sources.get? name).isSome := by
  induction past generalizing m with
  | nil =>
    refine h.resolve_right ?_
    rintro ⟨r, hr, -⟩
    cases hr
  | cons r past ih =>
    refine ih (m := (r.serve m).1) ?_
    rcases h with h | ⟨r', hr', hinstalls⟩
    · exact .inl (isSome_serve (.inl h))
    · rcases List.mem_cons.1 hr' with rfl | hr'
      · exact .inl (isSome_serve (.inr hinstalls))
      · exact .inr ⟨r', hr', hinstalls⟩

theorem Settled.storeAfter {requests : List Request} (h : Settled m requests) {d : Detector}
    {context : RunContext} (hpast : past ++ [.run d context] <+: requests) :
    d.Settled (storeAfter m past) := by
  rcases h past d context hpast with (hseed | hevents) | hinstalled
  · exact .inl hseed
  · exact .inr (isSome_storeAfter (.inl hevents))
  · exact .inr (isSome_storeAfter (.inr hinstalled))

theorem Settled.cons {r' : Request} {requests : List Request} (h : Settled m (r :: requests))
    (hr : r.Alike r') : Settled (r'.serve m).1 requests := by
  intro past d context hpast
  rcases h (r :: past) d context (List.cons_prefix_cons.2 ⟨rfl, hpast⟩) with
    (hseed | hevents) | ⟨other, hother, hinstalls⟩
  · exact .inl (.inl hseed)
  · exact .inl (.inr (isSome_serve (.inl hevents)))
  · rcases List.mem_cons.1 hother with rfl | hother
    · exact .inl (.inr (isSome_serve (.inr (hr.installs hinstalls))))
    · exact .inr ⟨other, hother, hinstalls⟩

end Request

/-! ## Stores in step -/

namespace DirectoryStore

variable {s : DirectoryStore} {p : Path} {m : MemoryStore} {requests requests' : List Request}

/-- One request keeps a mirror, and the answers are the same. -/
theorem Mirrors.serve (h : s.Mirrors p m) {r r' : Request} (hplain : r.IsPlain)
    (halike : r.Alike r') (hsettled : ∀ d context, r = .run d context → d.Settled m) :
    (r.serve s).1.Mirrors p (r'.serve m).1 ∧ (r.serve s).2.Same (r'.serve m).2 := by
  cases halike with
  | @run d context context' htime =>
    obtain ⟨hmirrors, hresult⟩ := (simulation_mirrors p).run h (hsettled d context rfl) htime
    exact ⟨hmirrors, .report hresult⟩
  | refl =>
    cases r with
    | install name b =>
      obtain ⟨u, hu, hmirrors⟩ := h.exists_install hplain b
      have hserve : Request.serve s (.install name b) = (u, .done (.ok ())) :=
        congrArg (Prod.map id Answer.done) hu
      rw [hserve]
      exact ⟨hmirrors, .refl _⟩
    | load name columns =>
      refine ⟨h, ?_⟩
      change Answer.Same (.source (s.load? name columns)) (.source (m.load? name columns))
      rw [h.load?_eq hplain columns]
      exact .refl _
    | write key t =>
      obtain ⟨v, hv, hmirrors, -⟩ := h.exists_write hplain (.refl key t)
      have hserve : Request.serve s (.write key t) = (v, .done (.ok ())) :=
        congrArg (Prod.map id Answer.done) hv
      rw [hserve]
      exact ⟨hmirrors, .refl _⟩
    | read key =>
      refine ⟨h, ?_⟩
      obtain ⟨found, hfound, hrel⟩ := h.exists_result? hplain
      change Answer.Same (.result key (s.result? key)) (.result key (.ok (m.result? key)))
      rw [hfound]
      generalize m.result? key = found' at hrel ⊢
      cases hrel with
      | none => exact .refl _
      | some hsame => exact .result hsame
    | run d context =>
      obtain ⟨hmirrors, hresult⟩ := (simulation_mirrors p).run h (hsettled d context rfl) rfl
      exact ⟨hmirrors, .report hresult⟩

/-- And so do all of them, one after the other. -/
theorem Mirrors.serve_all (h : s.Mirrors p m) (hplain : ∀ r ∈ requests, r.IsPlain)
    (halike : List.Forall₂ Request.Alike requests requests')
    (hsettled : Request.Settled m requests) :
    (storeAfter s requests).Mirrors p (storeAfter m requests') ∧
      List.Forall₂ Answer.Same (answersTo s requests) (answersTo m requests') := by
  induction halike generalizing s m with
  | nil => exact ⟨h, .nil⟩
  | @cons r r' requests requests' hr _ ih =>
    have hfirst : ∀ d context, r = .run d context → d.Settled m := by
      rintro d context rfl
      have hstart : [] ++ [.run d context] <+: .run d context :: requests :=
        List.prefix_append [Request.run d context] requests
      exact hsettled.storeAfter hstart
    obtain ⟨hmirrors, hanswer⟩ := h.serve (hplain r List.mem_cons_self) hr hfirst
    obtain ⟨hafter, hanswers⟩ := ih hmirrors (fun r hr => hplain r (List.mem_cons_of_mem _ hr))
      (hsettled.cons hr)
    exact ⟨hafter, .cons hanswer hanswers⟩

/-- What is loaded after a request that puts in something else, or nothing. -/
theorem Mirrors.load?_serve (h : s.Mirrors p m) {r : Request}
    (hserve : (r.serve s).1.Mirrors p (r.serve m).1) {name : String} (hname : Path.IsPlain name)
    (hr : ¬ r.Installs name) (columns : List String) :
    (r.serve s).1.load? name columns = s.load? name columns := by
  rw [hserve.load?_eq hname, h.load?_eq hname]
  unfold MemoryStore.load?
  rw [Request.get?_sources_serve hr]

theorem Mirrors.load?_install (h : s.Mirrors p m) {name : String} (hname : Path.IsPlain name)
    (b : Batched) (columns : List String) :
    ((Request.install name b).serve s).1.load? name columns =
      (b.whole.project name columns).map some := by
  obtain ⟨u, hu, hmirrors⟩ := h.exists_install hname b
  change (s.install name b).1.load? name columns = _
  rw [hu, hmirrors.load?_eq hname]
  unfold MemoryStore.load? MemoryStore.insert
  rw [Dict.get?_insert_self]

theorem Mirrors.result?_write (h : s.Mirrors p m) {key : OutputKey} (hkey : key.IsPlain)
    (t : Table) : ((Request.write key t).serve s).1.result? key = .ok (some t) := by
  obtain ⟨v, hv, -, hresult⟩ := h.exists_write hkey (.refl key t)
  change (s.write key t).1.result? key = _
  rw [hv]
  exact hresult

/-! ## Stores in place of each other -/

/-- What is true of a store in a directory that served some requests, beside a store in memory that
served those like them. -/
structure Interchangeable (s : DirectoryStore) (requests requests' : List Request) : Prop where
  answers : List.Forall₂ Answer.Same (answersTo s requests) (answersTo MemoryStore.empty requests')
  /-- What was put in is loaded, however it was cut into batches. -/
  installed : ∀ past name b, past ++ [.install name b] <+: requests → ∀ columns,
    (storeAfter s (past ++ [.install name b])).load? name columns =
      (b.whole.project name columns).map some
  /-- What was written is read. -/
  written : ∀ past key t, past ++ [.write key t] <+: requests →
    (storeAfter s (past ++ [.write key t])).result? key = .ok (some t)
  /-- Nothing that is written, also by a run, is loaded: a source changes only when it is put in. -/
  sources : ∀ past r, past ++ [r] <+: requests → ∀ name, Path.IsPlain name → ¬ r.Installs name →
    ∀ columns,
      (storeAfter s (past ++ [r])).load? name columns = (storeAfter s past).load? name columns
  /-- Runs at one time over the same sources report the same, whatever happened between them. -/
  reports : ∀ past past' d context context', past ++ [.run d context] <+: requests →
    past' ++ [.run d context'] <+: requests → context.time = context'.time →
    (∀ name ∈ Detector.sourceTables,
      (storeAfter s past).load? name [] = (storeAfter s past').load? name []) →
    (d.run (storeAfter s past) context).result.map Report.anonymous =
      (d.run (storeAfter s past') context').result.map Report.anonymous

/-- A store in a directory that was empty at first and a store in memory can stand in for each
other: for any requests with plain names, whatever is put in, loaded, written, read and run in any
order, if each run finds an event table or has a seed for its events. -/
theorem interchangeable (h : s.IsEmptyAt p) (hplain : ∀ r ∈ requests, r.IsPlain)
    (halike : List.Forall₂ Request.Alike requests requests')
    (hevents : ∀ past d context, past ++ [.run d context] <+: requests →
      d.config.syntheticEventSeed.isSome ∨ ∃ r ∈ past, r.Installs eventsTable) :
    s.Interchangeable requests requests' := by
  have hsettled : Request.Settled .empty requests := fun past d context hpast =>
    (hevents past d context hpast).imp_left .inl
  -- after each part of the requests there is a mirror that served the very same ones
  have hmirrors : ∀ past, past <+: requests →
      (storeAfter s past).Mirrors p (storeAfter MemoryStore.empty past) := by
    intro past hpast
    refine (h.mirrors.serve_all (fun r hr => hplain r (hpast.subset hr))
      (List.forall₂_same.2 fun r _ => .refl r) fun old d context hold => ?_).1
    exact hsettled old d context (hold.trans hpast)
  have hbefore : ∀ {past : List Request} {r : Request}, past ++ [r] <+: requests →
      (storeAfter s past).Mirrors p (storeAfter MemoryStore.empty past) :=
    fun hpast => hmirrors _ ((List.prefix_append _ _).trans hpast)
  have hlast : ∀ {past : List Request} {r : Request}, past ++ [r] <+: requests → r.IsPlain :=
    fun hpast => hplain _ (hpast.subset (List.mem_append_right _ List.mem_cons_self))
  refine ⟨(h.mirrors.serve_all hplain halike hsettled).2, ?_, ?_, ?_, ?_⟩
  · intro past name b hpast columns
    rw [storeAfter_concat]
    exact (hbefore hpast).load?_install (hlast hpast) b columns
  · intro past key t hpast
    rw [storeAfter_concat]
    exact (hbefore hpast).result?_write (hlast hpast) t
  · intro past r hpast name hname hr columns
    have hafter := hmirrors _ hpast
    rw [storeAfter_concat, storeAfter_concat] at hafter
    rw [storeAfter_concat]
    exact (hbefore hpast).load?_serve hafter hname hr columns
  · intro past past' d context context' hpast hpast' htime hsame
    exact (hbefore hpast).report_eq (hbefore hpast') (hsettled.storeAfter hpast) htime hsame

/-! ### A directory and its requests -/

/-- A store in a directory `data`, in which nothing stands yet. -/
def sampleDirectory : DirectoryStore :=
  ⟨⟨.unlimited, ["home"], [(["home"], .directory), (["home", "data"], .directory)]⟩, "data"⟩

theorem isEmptyAt_sampleDirectory : sampleDirectory.IsEmptyAt ["home", "data"] where
  limits := rfl
  located := by decide
  directory := by decide
  nothing := by
    intro q hq
    obtain ⟨x, q, rfl⟩ := List.exists_cons_of_ne_nil hq
    rfl

/-- One event between two batches without any. -/
def sampleBatches : Batched where
  first := MemoryStore.sampleEvents []
  rest := [MemoryStore.sampleEvents ["E1"], MemoryStore.sampleEvents []]
  whole := MemoryStore.sampleEvents ["E1"]
  joined := rfl

def oneBatch (t : Table) : Batched where
  first := t
  rest := []
  whole := t
  joined := rfl

def sampleDetector : Detector :=
  ⟨{ abnormalVolumeMultiplier := 0.5, leakageWindowHours := 24, minSuspiciousEvents := 1 },
    by decide +kernel⟩

def sampleSources : List Request := [
  .install tradesTable (oneBatch MemoryStore.sampleTrades),
  .install accountsTable (oneBatch MemoryStore.sampleAccounts),
  .install eventsTable sampleBatches]

/-- The sources are put in and used twice. The tables of the first run are asked for as results and
as sources, and one of them is replaced. -/
def sampleRequests (context : RunContext) : List Request :=
  sampleSources ++ [
    .run sampleDetector context, .read Output.alerts, .load "alerts" [],
    .write Output.summary MemoryStore.sampleTrades, .load eventsTable ["event_id", "none"],
    .run sampleDetector context, .read Output.summary]

theorem interchangeable_sampleRequests :
    let context : RunContext := ⟨⟨1700000000000000000, by decide⟩, fun i => toString i, 0⟩
    let context' : RunContext :=
      { context with alertId := fun i => "A" ++ toString i, entropy := 5 }
    (sampleDetector.run (storeAfter sampleDirectory sampleSources) context).result.map
        (·.alerts.length) = .ok 1 ∧
      sampleDirectory.Interchangeable (sampleRequests context) (sampleRequests context') := by
  intro context context'
  refine ⟨by decide +kernel, ?_⟩
  refine interchangeable isEmptyAt_sampleDirectory (by decide +kernel) ?_ ?_
  · refine List.rel_append (List.forall₂_same.2 fun r _ => .refl r) ?_
    exact .cons (.run _ rfl) (.cons (.refl _) (.cons (.refl _) (.cons (.refl _) (.cons (.refl _)
      (.cons (.run _ rfl) (.cons (.refl _) .nil))))))
  · -- the event table is put in before any run
    rintro past d other ⟨rest, hrest⟩
    rcases past with _ | ⟨a, _ | ⟨b, _ | ⟨c, past⟩⟩⟩
    · cases hrest
    · cases hrest
    · cases hrest
    · obtain ⟨-, hrest⟩ := List.cons.inj hrest
      obtain ⟨-, hrest⟩ := List.cons.inj hrest
      obtain ⟨rfl, -⟩ := List.cons.inj hrest
      exact .inr ⟨.install eventsTable sampleBatches, by simp, rfl⟩

end DirectoryStore

end TradeWatch

/-
Runs compared without the ids of their alerts. The ids are drawn anew in each run, so two runs that
find the same differ in them: in their reports, and in one column of the table of alerts. Everything
else that a run reports or writes is decided by its findings, and the writing of two such plans,
from whatever stores, succeeds or stops at the same place with the same fault.
-/
import TradeWatch.Proofs.Run.Course

namespace TradeWatch

/-! ## Without ids -/

/-- The alert without its id. -/
def Alert.unnamed (a : Alert) : Alert :=
  { a with id := "" }

/-- The report without the ids of its alerts and without timings. -/
def Report.anonymous (r : Report) : Report :=
  { r with alerts := r.alerts.map Alert.unnamed, timings := [] }

/-- The same alerts but for their ids. -/
def SameAlerts (as bs : List Alert) : Prop :=
  as.map Alert.unnamed = bs.map Alert.unnamed

namespace Output

/-- Results in one place that are the same, or tables of alerts that are the same but for ids. -/
inductive SameResult : OutputKey → Table → Table → Prop
  | refl (key : OutputKey) (t : Table) : SameResult key t t
  | renamed {as bs : List Alert} (h : SameAlerts as bs) :
      SameResult alerts (Alert.rowsOf as) (Alert.rowsOf bs)

/-- Two written tables that are the same but for the ids of alerts. -/
inductive SameWritten : OutputKey × Table → OutputKey × Table → Prop
  | intro {key : OutputKey} {t u : Table} (h : SameResult key t u) : SameWritten (key, t) (key, u)

/-- Two planned tables that cannot be made for one reason, or are the same but for the ids of
alerts. -/
inductive SamePlanned : Planned → Planned → Prop
  | failed (key : OutputKey) (e : Fault) : SamePlanned (key, .error e) (key, .error e)
  | made {key : OutputKey} {t u : Table} (h : SameResult key t u) :
      SamePlanned (key, .ok t) (key, .ok u)

theorem SamePlanned.refl (p : Planned) : SamePlanned p p := by
  obtain ⟨key, e | t⟩ := p
  · exact .failed key e
  · exact .made (.refl key t)

/-- Two plans in step: what is written before the first fault is the same, and so is the fault. -/
theorem writeAll_of_samePlanned {ps qs : List Planned} (h : List.Forall₂ SamePlanned ps qs)
    (s s' : MemoryStore) :
    ∃ done done', List.Forall₂ SameWritten done done' ∧ (∀ p ∈ done, p.1 ∈ ps.map (·.1)) ∧
      (writeAll s ps).1 = s.writeEach done ∧ (writeAll s' qs).1 = s'.writeEach done' ∧
      (writeAll s ps).2 = (writeAll s' qs).2 := by
  induction h generalizing s s' with
  | nil => exact ⟨[], [], .nil, nofun, rfl, rfl, rfl⟩
  | @cons p q ps qs hpq hrest ih =>
    cases hpq with
    | failed key e => exact ⟨[], [], .nil, nofun, rfl, rfl, rfl⟩
    | @made key t u htu =>
      obtain ⟨done, done', hdone, hkeys, hs, hs', hresult⟩ := ih (s.write key t) (s'.write key u)
      refine ⟨(key, t) :: done, (key, u) :: done', .cons (.intro htu) hdone, ?_, hs, hs', hresult⟩
      intro p hp
      rw [List.map_cons, List.mem_cons]
      exact (List.mem_cons.1 hp).imp (congrArg Prod.fst) (hkeys p)

end Output

/-! ## The same alerts -/

namespace SameAlerts

variable {as bs : List Alert}

/-- What does not look at the ids is the same for both lists. -/
theorem map_eq (h : SameAlerts as bs) {β : Type} {f : Alert → β}
    (hf : ∀ a, f a.unnamed = f a) : as.map f = bs.map f := by
  have hmap : ∀ xs : List Alert, (xs.map Alert.unnamed).map f = xs.map f := by
    intro xs
    rw [List.map_map]
    exact List.map_congr_left fun a _ => hf a
  rw [← hmap as, h, hmap bs]

theorem length_eq (h : SameAlerts as bs) : as.length = bs.length := by
  have hlength : (as.map Alert.unnamed).length = (bs.map Alert.unnamed).length :=
    congrArg List.length h
  rwa [List.length_map, List.length_map] at hlength

theorem isEmpty_eq (h : SameAlerts as bs) : as.isEmpty = bs.isEmpty := by
  have hmap : ∀ xs : List Alert, (xs.map Alert.unnamed).isEmpty = xs.isEmpty := fun xs =>
    List.isEmpty_map
  rw [← hmap as, h, hmap bs]

theorem summary_eq (h : SameAlerts as bs) (source : EventSource) :
    AlertSummary.ofAlerts as source = AlertSummary.ofAlerts bs source := by
  have haccounts : as.flatMap (·.accounts) = bs.flatMap (·.accounts) := by
    rw [List.flatMap_def, List.flatMap_def, h.map_eq fun _ => rfl]
  unfold AlertSummary.ofAlerts
  rw [h.length_eq, haccounts, h.map_eq (f := (·.severity.label)) fun _ => rfl,
    h.map_eq (f := (·.rule.code)) fun _ => rfl, h.map_eq (f := (·.confidence)) fun _ => rfl]

theorem summaryOf_eq (h : SameAlerts as bs) (source : EventSource) :
    Detector.summaryOf as source = Detector.summaryOf bs source := by
  unfold Detector.summaryOf
  rw [h.isEmpty_eq, h.summary_eq]

theorem all_isStorable_eq (h : SameAlerts as bs) :
    as.all Alert.isStorable = bs.all Alert.isStorable := by
  have hmap : ∀ xs : List Alert, (xs.map Alert.isStorable).all id = xs.all Alert.isStorable := by
    intro xs
    rw [List.all_map, Function.id_comp]
  rw [← hmap as, h.map_eq fun _ => rfl, hmap bs]

theorem samePlanned (h : SameAlerts as bs) :
    Output.SamePlanned (Output.alerts, Alert.toTable as) (Output.alerts, Alert.toTable bs) := by
  unfold Alert.toTable
  rw [h.all_isStorable_eq]
  split
  · exact .made (.renamed h)
  · exact .failed _ _

end SameAlerts

/-! ## The same findings -/

namespace Detector

theorem sameAlerts_identified (f g : Nat → String) (alerts : List Alert) :
    SameAlerts (identified f alerts) (identified g alerts) := by
  have hunnamed : ∀ h : Nat → String,
      (identified h alerts).map Alert.unnamed = alerts.map Alert.unnamed := by
    intro h
    unfold identified
    rw [List.map_map]
    conv => rhs; rw [← List.zipIdx_map_fst 0 alerts, List.map_map]
    rfl
  exact (hunnamed f).trans (hunnamed g).symm

variable {d d' : Detector} {inputs inputs' : Inputs} {context context' : RunContext}

/-- Two runs that find the same at the same time, from events of the same source. -/
structure SameFindings (d d' : Detector) (inputs inputs' : Inputs)
    (context context' : RunContext) : Prop where
  findings : d.findings inputs context = d'.findings inputs' context'
  source : inputs.source = inputs'.source
  time : context.time = context'.time

namespace SameFindings

theorem sameAlerts (h : SameFindings d d' inputs inputs' context context') :
    SameAlerts (d.raised inputs context) (d'.raised inputs' context') := by
  unfold raised
  rw [h.findings]
  exact sameAlerts_identified _ _ _

theorem anonymous_reportOf (h : SameFindings d d' inputs inputs' context context') :
    (d.reportOf inputs context).anonymous = (d'.reportOf inputs' context').anonymous := by
  have halerts : (d.raised inputs context).map Alert.unnamed =
      (d'.raised inputs' context').map Alert.unnamed := h.sameAlerts
  unfold reportOf Report.anonymous
  simp only
  rw [halerts, h.sameAlerts.summaryOf_eq, h.findings, h.source, h.time]

/-- The tables of the alerts and of their summary, if there are alerts. -/
def alertsPlanned (d : Detector) (inputs : Inputs) (context : RunContext) : List Output.Planned :=
  if d.raised inputs context = [] then []
  else Output.alertTables (d.raised inputs context)
    (.ofAlerts (d.raised inputs context) inputs.source)

theorem samePlanned_alerts (h : SameFindings d d' inputs inputs' context context') :
    List.Forall₂ Output.SamePlanned (alertsPlanned d inputs context)
      (alertsPlanned d' inputs' context') := by
  have hempty : d.raised inputs context = [] ↔ d'.raised inputs' context' = [] := by
    rw [← List.isEmpty_iff, h.sameAlerts.isEmpty_eq, List.isEmpty_iff]
  unfold alertsPlanned
  by_cases hnone : d.raised inputs context = []
  · rw [if_pos hnone, if_pos (hempty.1 hnone)]
    exact .nil
  · rw [if_neg hnone, if_neg fun hnone' => hnone (hempty.2 hnone')]
    refine .cons h.sameAlerts.samePlanned (.cons ?_ .nil)
    rw [h.sameAlerts.summary_eq, h.source]
    exact .refl _

theorem samePlanned (h : SameFindings d d' inputs inputs' context context')
    (hsave : d.config.saveIntermediates = d'.config.saveIntermediates) :
    List.Forall₂ Output.SamePlanned (d.planned inputs context) (d'.planned inputs' context') := by
  rw [planned_eq, planned_eq, hsave, h.findings]
  refine List.rel_append ?_ h.samePlanned_alerts
  exact List.forall₂_same.2 fun p _ => .refl p

end SameFindings

end Detector

end TradeWatch

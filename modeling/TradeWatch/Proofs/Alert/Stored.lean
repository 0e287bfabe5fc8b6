/-
Alerts stored and read again. A list of alerts has a table just when every year has four digits, and
the table gives back the list with nothing changed but what lies below the millisecond of the times.
-/
import TradeWatch.Alert.Engine
import TradeWatch.Alert.Stored
import TradeWatch.Proofs.Json.RoundTrip
import TradeWatch.Proofs.Time.Text

namespace TradeWatch

open Time (Instant hasPlainYear)

/-! ## Codes -/

theorem RuleId.ofCode?_code (rule : RuleId) : RuleId.ofCode? rule.code = some rule := by
  cases rule <;> rfl

theorem Severity.ofLabel?_label (severity : Severity) :
    Severity.ofLabel? severity.label = some severity := by
  cases severity <;> rfl

/-! ## Times -/

namespace Time.Instant

theorem ofMillis?_millis (t : Instant) : ofMillis? t.millis = some t.floorMillis := by
  unfold ofMillis? ofNanos? floorMillis
  rw [dif_pos]

theorem floorMillis_floorMillis (t : Instant) : t.floorMillis.floorMillis = t.floorMillis := by
  simp only [floorMillis, mk.injEq, millis]
  unfold nanosPerMilli
  omega

/-- The part below the millisecond does not reach the date. -/
theorem date_floorMillis (t : Instant) : t.floorMillis.date = t.date := by
  unfold date day floorMillis millis
  simp only
  congr 1
  unfold nanosPerMilli nanosPerDay
  omega

end Time.Instant

namespace Alert

/-- The year of the alert has four digits. -/
def HasPlainYear (a : Alert) : Prop :=
  0 ≤ a.time.date.year ∧ a.time.date.year ≤ 9999

/-- The alert without the part of its time below the millisecond. -/
def floored (a : Alert) : Alert :=
  { a with time := a.time.floorMillis }

theorem storedMillis?_of_plainYear {a : Alert} (h : a.HasPlainYear) :
    Column.storedMillis? a.time = some a.time.millis := by
  rw [Column.storedMillis?_eq, if_pos]
  exact decide_eq_true h

theorem isStorable_iff (a : Alert) : a.isStorable = true ↔ a.HasPlainYear := by
  unfold isStorable
  rw [Column.storedMillis?_eq]
  unfold HasPlainYear hasPlainYear
  split <;> rename_i h <;> simpa using h

/-! ## One row -/

/-- The cells that are written for an alert. -/
def cells (a : Alert) : Cells where
  id := some a.id
  category := some a.category
  rule := some a.rule.code
  severity := some a.severity.label
  time := (Column.storedMillis? a.time).bind Instant.ofMillis?
  accounts := some (Json.strings a.accounts).compact
  instruments := some (Json.strings a.instruments).compact
  description := some a.description
  evidence := some (Json.obj a.evidence).compact
  confidence := some a.confidence

/-- A row gives back its alert, whatever its place. -/
theorem alert_cells {a : Alert} (hy : a.HasPlainYear) (he : Json.Nested Json.maxDepth (.obj a.evidence))
    (row : ℕ) : a.cells.alert row = .ok a.floored := by
  unfold Cells.alert cells
  simp only [storedMillis?_of_plainYear hy, Option.getD_some, RuleId.ofCode?_code,
    Severity.ofLabel?_label, Option.bind_some, Instant.ofMillis?_millis, orFault, ofJson,
    Json.parseStrings_compact, Json.parseObject_compact he, Bind.bind, Except.bind]
  rfl

/-! ## The whole table -/

theorem texts_rowsOf (alerts : List Alert) (name : String) (f : Alert → String)
    (h : (rowsOf alerts).column? name = some (.ofTexts (alerts.map f))) :
    (rowsOf alerts).texts storedTable name = .ok (alerts.map fun a => some (f a)) := by
  unfold Table.texts Table.column
  rw [h]
  simp [Column.ofTexts, Column.toTexts, Bind.bind, Except.bind]

theorem instants_rowsOf (alerts : List Alert) :
    (rowsOf alerts).instants storedTable "timestamp" =
      .ok (alerts.map fun a => (Column.storedMillis? a.time).bind Instant.ofMillis?) := by
  have h : (rowsOf alerts).column? "timestamp" = some (.ofInstants (alerts.map (·.time))) := by
    simp [rowsOf, Table.column?, Table.find?]
  unfold Table.instants Table.column
  have hunit : Column.millisOf .milli = fun n : ℤ => n := rfl
  rw [h]
  simp [Column.ofInstants, Column.toInstants, Column.toMillis, hunit, Bind.bind, Except.bind,
    Except.map]

theorem reals_rowsOf (alerts : List Alert) :
    (rowsOf alerts).reals storedTable "confidence_score" =
      .ok (alerts.map fun a => some a.confidence) := by
  have h : (rowsOf alerts).column? "confidence_score" =
      some (.ofReals (alerts.map (·.confidence))) := by
    simp [rowsOf, Table.column?, Table.find?]
  unfold Table.reals Table.column
  rw [h]
  simp [Column.ofReals, Column.toReals, Bind.bind, Except.bind]

/-- The rows that are read are those that were written. -/
theorem cellsOf_rowsOf (alerts : List Alert) : cellsOf (rowsOf alerts) = .ok (alerts.map cells) := by
  -- one fact for each column, in the order in which the columns are read
  have hid := texts_rowsOf alerts "alert_id" (·.id)
    (by simp [rowsOf, Table.column?, Table.find?])
  have hcategory := texts_rowsOf alerts "category" (·.category)
    (by simp [rowsOf, Table.column?, Table.find?])
  have hrule := texts_rowsOf alerts "rule_id" (·.rule.code)
    (by simp [rowsOf, Table.column?, Table.find?])
  have hseverity := texts_rowsOf alerts "severity" (·.severity.label)
    (by simp [rowsOf, Table.column?, Table.find?])
  have haccounts := texts_rowsOf alerts "account_ids"
    (fun a => (Json.strings a.accounts).compact) (by simp [rowsOf, Table.column?, Table.find?])
  have hinstruments := texts_rowsOf alerts "instrument_ids"
    (fun a => (Json.strings a.instruments).compact)
    (by simp [rowsOf, Table.column?, Table.find?])
  have hdescription := texts_rowsOf alerts "description" (·.description)
    (by simp [rowsOf, Table.column?, Table.find?])
  have hevidence := texts_rowsOf alerts "evidence"
    (fun a => (Json.obj a.evidence).compact) (by simp [rowsOf, Table.column?, Table.find?])
  unfold cellsOf
  rw [hid, hcategory, hrule, hseverity, instants_rowsOf, haccounts, hinstruments, hdescription,
    hevidence, reals_rowsOf]
  simp only [Bind.bind, Except.bind, List.zip_map', List.map_map]
  refine congrArg Except.ok (List.map_congr_left fun a _ => ?_)
  simp only [Function.comp_apply, cells]

/-- A step that succeeds at every place gives a list that succeeds. -/
theorem mapM_zipIdx_eq_ok {ε α β γ : Type} {f : α → ℕ → Except ε β} {g : γ → α} {h : γ → β}
    (xs : List γ) (hf : ∀ x ∈ xs, ∀ i, f (g x) i = .ok (h x)) (start : ℕ) :
    ((xs.map g).zipIdx start).mapM (fun p => f p.1 p.2) = .ok (xs.map h) := by
  induction xs generalizing start with
  | nil => rfl
  | cons x xs ih =>
    rw [List.map_cons, List.zipIdx_cons, List.mapM_cons, hf x List.mem_cons_self,
      ih fun y hy => hf y (List.mem_cons_of_mem _ hy)]
    rfl

/-- Evidence that can be read back. -/
def HasReadableEvidence (a : Alert) : Prop :=
  Json.Nested Json.maxDepth (.obj a.evidence)

theorem ofTable_rowsOf {alerts : List Alert} (hy : ∀ a ∈ alerts, a.HasPlainYear)
    (he : ∀ a ∈ alerts, a.HasReadableEvidence) :
    ofTable (rowsOf alerts) = .ok (alerts.map floored) := by
  unfold ofTable
  rw [cellsOf_rowsOf]
  exact mapM_zipIdx_eq_ok alerts (fun a ha => alert_cells (hy a ha) (he a ha)) 0

theorem toTable_of_plainYears {alerts : List Alert} (h : ∀ a ∈ alerts, a.HasPlainYear) :
    toTable alerts = .ok (rowsOf alerts) := by
  unfold toTable
  rw [if_pos (List.all_eq_true.2 fun a ha => (isStorable_iff a).2 (h a ha))]

/-- There is no table just when some year has not four digits. -/
theorem toTable_eq_error_iff (alerts : List Alert) :
    toTable alerts = .error .table ↔ ∃ a ∈ alerts, ¬ a.HasPlainYear := by
  constructor
  · intro h
    by_contra hall
    push Not at hall
    rw [toTable_of_plainYears hall] at h
    cases h
  · rintro ⟨a, ha, hy⟩
    unfold toTable
    rw [if_neg]
    intro hall
    exact hy ((isStorable_iff a).1 (List.all_eq_true.1 hall a ha))

/-! ## Alerts of an engine -/

/-- The engine raises the alert, which gets its id later. -/
def RaisedBy (e : AlertEngine) (a : Alert) : Prop :=
  ∃ rule severity confidence occurrences subject id,
    a = { e.raiseScored rule severity confidence occurrences subject with id := id }

theorem RaisedBy.time_eq {c : Config} {time : Instant} {a : Alert}
    (h : a.RaisedBy (.ofConfig c time)) : a.time = time.floorMillis := by
  obtain ⟨rule, severity, confidence, occurrences, subject, id, rfl⟩ := h
  rfl

/-- The alerts of an engine have no time below the millisecond. -/
theorem RaisedBy.floored_eq {c : Config} {time : Instant} {a : Alert}
    (h : a.RaisedBy (.ofConfig c time)) : a.floored = a := by
  unfold floored
  rw [h.time_eq, Instant.floorMillis_floorMillis, ← h.time_eq]

theorem RaisedBy.hasPlainYear {c : Config} {time : Instant} {a : Alert}
    (h : a.RaisedBy (.ofConfig c time)) (hy : 0 ≤ time.date.year ∧ time.date.year ≤ 9999) :
    a.HasPlainYear := by
  unfold HasPlainYear
  rw [h.time_eq, Instant.date_floorMillis]
  exact hy

/-- A list of alerts comes back from its table. -/
theorem ofTable_toTable {alerts : List Alert} (hy : ∀ a ∈ alerts, a.HasPlainYear)
    (he : ∀ a ∈ alerts, a.HasReadableEvidence) :
    ∃ t, toTable alerts = .ok t ∧ t.rows = alerts.length ∧ ofTable t = .ok (alerts.map floored) :=
  ⟨rowsOf alerts, toTable_of_plainYears hy, rfl, ofTable_rowsOf hy he⟩

end Alert

end TradeWatch

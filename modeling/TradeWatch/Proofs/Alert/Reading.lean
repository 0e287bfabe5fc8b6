/-
Alerts read from any table. Reading gives one alert for each row, made of that row alone, when the
columns can be read and every row stands for an alert. Otherwise it gives nothing but one fault: that
of the first column that cannot be read, or that of the first bad field of the first bad row.
-/
import TradeWatch.Proofs.Alert.Stored
import TradeWatch.Proofs.Table.Faults

namespace TradeWatch

/-! ## Unknown codes -/

theorem RuleId.ofCode?_eq_some_iff {s : String} {rule : RuleId} :
    RuleId.ofCode? s = some rule ↔ s = rule.code := by
  constructor
  · intro h
    have hcode := List.find?_some h
    exact (beq_iff_eq.1 hcode).symm
  · rintro rfl
    exact RuleId.ofCode?_code rule

theorem Severity.ofLabel?_eq_some_iff {s : String} {severity : Severity} :
    Severity.ofLabel? s = some severity ↔ s = severity.label := by
  constructor
  · intro h
    have hlabel := List.find?_some h
    exact (beq_iff_eq.1 hlabel).symm
  · rintro rfl
    exact Severity.ofLabel?_label severity

namespace Alert

open Table (Row)

/-! ## Columns -/

/-- What the cells of a column are read as. -/
inductive CellKind
  | text
  | instant
  | real

namespace CellKind

/-- The columns that can be read so. -/
def Fits : CellKind → Column → Prop
  | text => Column.IsTextual
  | instant => Column.IsTemporal
  | real => Column.IsNumeric

/-- Why one cannot. -/
def CastFault : CellKind → Column → Fault → Prop
  | text => Column.TextFault
  | instant => fun c e => ¬ c.IsTemporal ∧ e = .table
  | real => fun c e => ¬ c.IsNumeric ∧ e = .table

theorem fits_iff {kind : CellKind} {c : Column} : kind.Fits c ↔ ∀ e, ¬ kind.CastFault c e := by
  cases kind with
  | text => exact Column.isTextual_iff
  | instant => simp [Fits, CastFault]
  | real => simp [Fits, CastFault]

end CellKind

/-- The columns of a table of alerts in the order in which they are read. -/
def storedColumns : List (String × CellKind) := [
  ("alert_id", .text), ("category", .text), ("rule_id", .text), ("severity", .text),
  ("timestamp", .instant), ("account_ids", .text), ("instrument_ids", .text),
  ("description", .text), ("evidence", .text), ("confidence_score", .real)]

/-- One of the columns is missing or cannot be read, for this reason. -/
def BadColumn (t : Table) (column : String × CellKind) (e : Fault) : Prop :=
  t.Refuses storedTable column.1 column.2.CastFault e

/-- Every column is there and can be read. -/
def HasAlerts (t : Table) : Prop :=
  ∀ column ∈ storedColumns, t.Has column.1 column.2.Fits

variable {t : Table} {e : Fault}

theorem has_iff (column : String × CellKind) :
    t.Has column.1 column.2.Fits ↔ ∀ e, ¬ BadColumn t column e := by
  unfold Table.Has BadColumn Table.Refuses
  cases t.column? column.1 with
  | none => simp
  | some c => simp [CellKind.fits_iff]

theorem hasAlerts_iff : HasAlerts t ↔ ∀ e, ¬ FirstFailure (BadColumn t) storedColumns e := by
  rw [← not_exists, exists_firstFailure_iff]
  unfold HasAlerts
  simp only [has_iff]
  push Not
  rfl

/-- The cells of a row. -/
def cellsOfRow (r : Row) : Cells where
  id := r.text? "alert_id"
  category := r.text? "category"
  rule := r.text? "rule_id"
  severity := r.text? "severity"
  time := r.instant? "timestamp"
  accounts := r.text? "account_ids"
  instruments := r.text? "instrument_ids"
  description := r.text? "description"
  evidence := r.text? "evidence"
  confidence := r.real? "confidence_score"

theorem cellsOf_eq_error_iff : cellsOf t = .error e ↔ FirstFailure (BadColumn t) storedColumns e := by
  have htexts : ∀ name e, t.texts storedTable name = .error e ↔ BadColumn t (name, .text) e :=
    fun _ _ => Table.texts_eq_error_iff
  unfold cellsOf storedColumns
  refine bind_eq_error_iff (htexts _) (fun _ => ?_) e
  refine bind_eq_error_iff (htexts _) fun _ => ?_
  refine bind_eq_error_iff (htexts _) fun _ => ?_
  refine bind_eq_error_iff (htexts _) fun _ => ?_
  refine bind_eq_error_iff (fun _ => Table.instants_eq_error_iff) fun _ => ?_
  refine bind_eq_error_iff (htexts _) fun _ => ?_
  refine bind_eq_error_iff (htexts _) fun _ => ?_
  refine bind_eq_error_iff (htexts _) fun _ => ?_
  refine bind_eq_error_iff (htexts _) fun _ => ?_
  refine bind_eq_error_iff (fun _ => Table.reals_eq_error_iff) fun _ => ?_
  exact fun _ => iff_of_false (by simp) not_firstFailure_nil

theorem HasAlerts.cellsOf_eq (h : HasAlerts t) : cellsOf t = .ok (t.rowList.map cellsOfRow) := by
  have htexts : ∀ name, (name, CellKind.text) ∈ storedColumns →
      t.texts storedTable name = .ok (t.rowList.map fun r => r.text? name) :=
    fun name hname => Table.texts_eq_ok_iff.2 ⟨h _ hname, rfl⟩
  have htimes : t.instants storedTable "timestamp" =
      .ok (t.rowList.map fun r => r.instant? "timestamp") :=
    Table.instants_eq_ok_iff.2 ⟨h ("timestamp", .instant) (by simp [storedColumns]), rfl⟩
  have hconfidences : t.reals storedTable "confidence_score" =
      .ok (t.rowList.map fun r => r.real? "confidence_score") :=
    Table.reals_eq_ok_iff.2 ⟨h ("confidence_score", .real) (by simp [storedColumns]), rfl⟩
  unfold cellsOf
  rw [htexts "alert_id" (by simp [storedColumns]), htexts "category" (by simp [storedColumns]),
    htexts "rule_id" (by simp [storedColumns]), htexts "severity" (by simp [storedColumns]), htimes,
    htexts "account_ids" (by simp [storedColumns]), htexts "instrument_ids" (by simp [storedColumns]),
    htexts "description" (by simp [storedColumns]), htexts "evidence" (by simp [storedColumns]),
    hconfidences]
  simp only [Bind.bind, Except.bind, List.zip_map', List.map_map]
  rfl

/-! ## Rows -/

/-- The value that a cell stands for, which without a text is that of an empty one. -/
def Holds {α : Type} (read : String → Except Json.Fault α) (empty : α) (cell : Option String) (x : α) :
    Prop :=
  match cell with
  | none => x = empty
  | some s => read s = .ok x

/-- The text in the cell has no reading, for this reason. -/
def BadText {α : Type} (read : String → Except Json.Fault α) (cell : Option String) (e : Fault) :
    Prop :=
  ∃ s fault, cell = some s ∧ read s = .error fault ∧ e = .json fault

/-- The row stands for this alert. -/
structure IsAlert (r : Row) (a : Alert) : Prop where
  rule : r.text? "rule_id" = some a.rule.code
  severity : r.text? "severity" = some a.severity.label
  time : r.instant? "timestamp" = some a.time
  accounts : Holds Json.parseStrings [] (r.text? "account_ids") a.accounts
  instruments : Holds Json.parseStrings [] (r.text? "instrument_ids") a.instruments
  evidence : Holds Json.parseObject [] (r.text? "evidence") a.evidence
  id : a.id = (r.text? "alert_id").getD ""
  category : a.category = (r.text? "category").getD ""
  description : a.description = (r.text? "description").getD ""
  confidence : a.confidence = (r.real? "confidence_score").getD 0.0

/-- The row stands for some alert: its codes are known, it has a time, and the texts that it has for
the lists and the evidence can be read. -/
structure HasFields (r : Row) : Prop where
  rule : ∃ rule : RuleId, r.text? "rule_id" = some rule.code
  severity : ∃ severity : Severity, r.text? "severity" = some severity.label
  time : ∃ time, r.instant? "timestamp" = some time
  accounts : ∀ s, r.text? "account_ids" = some s → ∃ ids, Json.parseStrings s = .ok ids
  instruments : ∀ s, r.text? "instrument_ids" = some s → ∃ ids, Json.parseStrings s = .ok ids
  evidence : ∀ s, r.text? "evidence" = some s → ∃ members, Json.parseObject s = .ok members

/-- The parts of an alert that a row may fail to give. -/
inductive Field
  | rule
  | severity
  | time
  | accounts
  | instruments
  | evidence

/-- The fields in the order in which they are read. -/
def Field.all : List Field := [rule, severity, time, accounts, instruments, evidence]

/-- What is wrong with a field in the row of this number. -/
def BadField (r : Row) (number : ℕ) : Field → Fault → Prop
  | .rule, e =>
    (∀ rule : RuleId, r.text? "rule_id" ≠ some rule.code) ∧
      e = .undecodable storedTable (.unknownRule number ((r.text? "rule_id").getD ""))
  | .severity, e =>
    (∀ severity : Severity, r.text? "severity" ≠ some severity.label) ∧
      e = .undecodable storedTable (.unknownSeverity number ((r.text? "severity").getD ""))
  | .time, e =>
    r.instant? "timestamp" = none ∧ e = .undecodable storedTable (.noTimestamp number)
  | .accounts, e => BadText Json.parseStrings (r.text? "account_ids") e
  | .instruments, e => BadText Json.parseStrings (r.text? "instrument_ids") e
  | .evidence, e => BadText Json.parseObject (r.text? "evidence") e

/-! ### Steps of a row -/

theorem orFault_eq_ok_iff {α : Type} {x : Option α} {reason : RowFault} {a : α} :
    orFault x reason = .ok a ↔ x = some a := by
  cases x with
  | none => simp [orFault]
  | some y => simp [orFault]

theorem orFault_eq_error_iff {α : Type} {x : Option α} {reason : RowFault} :
    orFault x reason = .error e ↔ x = none ∧ e = .undecodable storedTable reason := by
  cases x with
  | none => simp [orFault, eq_comm]
  | some y => simp [orFault]

/-- No rule has the empty code, so a cell without a text has no known one. -/
theorem ofCode?_getD {cell : Option String} {rule : RuleId} :
    RuleId.ofCode? (cell.getD "") = some rule ↔ cell = some rule.code := by
  rw [RuleId.ofCode?_eq_some_iff]
  cases cell with
  | none => cases rule <;> simp [RuleId.code]
  | some s => simp

theorem ofLabel?_getD {cell : Option String} {severity : Severity} :
    Severity.ofLabel? (cell.getD "") = some severity ↔ cell = some severity.label := by
  rw [Severity.ofLabel?_eq_some_iff]
  cases cell with
  | none => cases severity <;> simp [Severity.label]
  | some s => simp

section Text

variable {α : Type} {read : String → Except Json.Fault α} {empty : String} {x₀ x : α}
  {cell : Option String}

theorem ofJson_eq_ok_iff (hempty : read empty = .ok x₀) :
    ofJson (read (cell.getD empty)) = .ok x ↔ Holds read x₀ cell x := by
  cases cell with
  | none => simp [Holds, hempty, ofJson, eq_comm]
  | some s =>
    rw [Option.getD_some, Holds]
    cases read s with
    | error fault => simp [ofJson]
    | ok y => simp [ofJson]

theorem ofJson_eq_error_iff (hempty : read empty = .ok x₀) :
    ofJson (read (cell.getD empty)) = .error e ↔ BadText read cell e := by
  cases cell with
  | none => simp [BadText, hempty, ofJson]
  | some s =>
    unfold BadText
    rw [Option.getD_some]
    cases hread : read s with
    | error fault => simp [ofJson, hread, eq_comm]
    | ok y => simp [ofJson, hread]

theorem exists_holds_iff : (∃ x, Holds read x₀ cell x) ↔ ∀ s, cell = some s → ∃ x, read s = .ok x := by
  cases cell with
  | none => simp [Holds]
  | some s => simp [Holds]

end Text

theorem parseStrings_empty : Json.parseStrings "[]" = .ok [] :=
  Json.parseStrings_compact []

theorem parseObject_empty : Json.parseObject "\x7b\x7d" = .ok [] :=
  Json.parseObject_compact (.obj List.Pairwise.nil fun _ h => absurd h List.not_mem_nil)

variable {r : Row} {number : ℕ}

theorem hasFields_iff : HasFields r ↔ ∃ a, IsAlert r a := by
  constructor
  · intro h
    obtain ⟨rule, hrule⟩ := h.rule
    obtain ⟨severity, hseverity⟩ := h.severity
    obtain ⟨time, htime⟩ := h.time
    obtain ⟨accounts, haccounts⟩ := exists_holds_iff.2 h.accounts
    obtain ⟨instruments, hinstruments⟩ := exists_holds_iff.2 h.instruments
    obtain ⟨evidence, hevidence⟩ := exists_holds_iff.2 h.evidence
    exact ⟨⟨_, _, rule, severity, time, accounts, instruments, _, evidence, _⟩, hrule, hseverity,
      htime, haccounts, hinstruments, hevidence, rfl, rfl, rfl, rfl⟩
  · rintro ⟨a, h⟩
    exact {
      rule := ⟨_, h.rule⟩
      severity := ⟨_, h.severity⟩
      time := ⟨_, h.time⟩
      accounts := exists_holds_iff.1 ⟨_, h.accounts⟩
      instruments := exists_holds_iff.1 ⟨_, h.instruments⟩
      evidence := exists_holds_iff.1 ⟨_, h.evidence⟩ }

theorem alert_eq_ok_iff {a : Alert} : (cellsOfRow r).alert number = .ok a ↔ IsAlert r a := by
  unfold Cells.alert cellsOfRow
  simp only [bind_eq_ok_iff, orFault_eq_ok_iff, ofCode?_getD, ofLabel?_getD,
    ofJson_eq_ok_iff parseStrings_empty, ofJson_eq_ok_iff parseObject_empty]
  constructor
  · rintro ⟨rule, hrule, severity, hseverity, time, htime, accounts, haccounts, instruments,
      hinstruments, evidence, hevidence, h⟩
    cases h
    exact ⟨hrule, hseverity, htime, haccounts, hinstruments, hevidence, rfl, rfl, rfl, rfl⟩
  · rintro h
    refine ⟨_, h.rule, _, h.severity, _, h.time, _, h.accounts, _, h.instruments, _, h.evidence, ?_⟩
    rw [← h.id, ← h.category, ← h.description, ← h.confidence]

theorem alert_eq_error_iff :
    (cellsOfRow r).alert number = .error e ↔ FirstFailure (BadField r number) Field.all e := by
  have hrule : ∀ e, orFault (RuleId.ofCode? ((r.text? "rule_id").getD ""))
      (.unknownRule number ((r.text? "rule_id").getD "")) = .error e ↔ BadField r number .rule e :=
    fun e => by
      rw [orFault_eq_error_iff, Option.eq_none_iff_forall_ne_some, BadField]
      simp only [ne_eq, ofCode?_getD]
  have hseverity : ∀ e, orFault (Severity.ofLabel? ((r.text? "severity").getD ""))
      (.unknownSeverity number ((r.text? "severity").getD "")) = .error e ↔
        BadField r number .severity e :=
    fun e => by
      rw [orFault_eq_error_iff, Option.eq_none_iff_forall_ne_some, BadField]
      simp only [ne_eq, ofLabel?_getD]
  unfold Cells.alert Field.all
  refine bind_eq_error_iff hrule (fun _ => ?_) e
  refine bind_eq_error_iff hseverity fun _ => ?_
  refine bind_eq_error_iff (fun _ => orFault_eq_error_iff) fun _ => ?_
  refine bind_eq_error_iff (fun _ => ofJson_eq_error_iff parseStrings_empty) fun _ => ?_
  refine bind_eq_error_iff (fun _ => ofJson_eq_error_iff parseStrings_empty) fun _ => ?_
  refine bind_eq_error_iff (fun _ => ofJson_eq_error_iff parseObject_empty) fun _ => ?_
  exact fun _ => iff_of_false (by simp) not_firstFailure_nil

/-! ## Tables -/

/-- Something is wrong with a row, which comes with its number. -/
def BadRow (row : Row × ℕ) (e : Fault) : Prop :=
  FirstFailure (BadField row.1 row.2) Field.all e

theorem HasAlerts.ofTable_eq (h : HasAlerts t) :
    ofTable t = t.rowList.zipIdx.mapM fun row => (cellsOfRow row.1).alert row.2 := by
  unfold ofTable
  rw [h.cellsOf_eq]
  change ((t.rowList.map cellsOfRow).zipIdx.mapM fun row => row.1.alert row.2) = _
  rw [List.zipIdx_map, List.mapM_map]
  rfl

/-- The numbers of the rows decide nothing about the alerts. -/
theorem forall₂_zipIdx_iff {α β : Type} {R : α → β → Prop} {xs : List α} {ys : List β} :
    List.Forall₂ (fun p y => R p.1 y) xs.zipIdx ys ↔ List.Forall₂ R xs ys := by
  rw [← List.forall₂_map_left_iff, List.zipIdx_map_fst]

theorem ofTable_eq_error_iff :
    ofTable t = .error e ↔
      FirstFailure (BadColumn t) storedColumns e ∨
        HasAlerts t ∧ FirstFailure BadRow t.rowList.zipIdx e := by
  by_cases h : HasAlerts t
  · rw [h.ofTable_eq, mapM_eq_error_iff]
    simp only [alert_eq_error_iff, hasAlerts_iff.1 h e, h, true_and, false_or]
    rfl
  · simp only [h, false_and, or_false, ← cellsOf_eq_error_iff]
    unfold ofTable
    cases hcells : cellsOf t with
    | error e' => simp [Bind.bind, Except.bind]
    | ok cells =>
      refine absurd (hasAlerts_iff.2 fun e' he' => ?_) h
      rw [cellsOf_eq_error_iff.2 he'] at hcells
      cases hcells

theorem ofTable_eq_ok_iff {alerts : List Alert} :
    ofTable t = .ok alerts ↔ HasAlerts t ∧ List.Forall₂ IsAlert t.rowList alerts := by
  by_cases h : HasAlerts t
  · rw [h.ofTable_eq, mapM_eq_ok_iff]
    simp only [alert_eq_ok_iff, h, true_and]
    exact forall₂_zipIdx_iff
  · refine iff_of_false (fun hok => ?_) fun hok => h hok.1
    obtain ⟨e, he⟩ := not_forall_not.1 (mt hasAlerts_iff.2 h)
    rw [ofTable_eq_error_iff.2 (.inl he)] at hok
    cases hok

theorem exists_forall₂_iff {α β : Type} {R : α → β → Prop} {xs : List α} :
    (∃ ys, List.Forall₂ R xs ys) ↔ ∀ x ∈ xs, ∃ y, R x y := by
  induction xs with
  | nil => simp
  | cons x xs ih =>
    rw [List.forall_mem_cons, ← ih]
    constructor
    · rintro ⟨_, h⟩
      cases h with
      | cons hx hxs => exact ⟨⟨_, hx⟩, _, hxs⟩
    · rintro ⟨⟨y, hx⟩, ys, hxs⟩
      exact ⟨y :: ys, .cons hx hxs⟩

/-- Reading a table of alerts is all or nothing. It gives alerts when the columns can be read and
every row stands for an alert, and then one for each row, in order, made of that row alone; otherwise
the fault is that of the first column that is missing or cannot be read, or else that of the first
bad field of the first bad row. -/
theorem ofTable_decoding (t : Table) :
    (∀ alerts, ofTable t = .ok alerts ↔ HasAlerts t ∧ List.Forall₂ IsAlert t.rowList alerts) ∧
      ((∃ alerts, ofTable t = .ok alerts ∧ alerts.length = t.rows) ↔
        HasAlerts t ∧ ∀ r ∈ t.rowList, HasFields r) ∧
      ∀ e, ofTable t = .error e ↔
        FirstFailure (BadColumn t) storedColumns e ∨
          HasAlerts t ∧ FirstFailure BadRow t.rowList.zipIdx e := by
  refine ⟨fun alerts => ofTable_eq_ok_iff, ?_, fun e => ofTable_eq_error_iff⟩
  simp only [hasFields_iff, ← exists_forall₂_iff, ofTable_eq_ok_iff]
  constructor
  · rintro ⟨alerts, ⟨h, hrows⟩, -⟩
    exact ⟨h, alerts, hrows⟩
  · rintro ⟨h, alerts, hrows⟩
    exact ⟨alerts, ⟨h, hrows⟩, hrows.length_eq.symm.trans (Table.length_rowList t)⟩

/-- A table of alerts with rows that someone changed. -/
def changed : Table :=
  ⟨3, [
    ("alert_id", .text [some "A", some "B", some "C"]),
    ("category", .text [none, none, none]),
    ("rule_id", .text [some "5.1", some "9.9", some "5.2"]),
    ("severity", .text [some "low", some "urgent", none]),
    ("timestamp", .int [some 0, none, none]),
    ("account_ids", .text [none, some "[1]", none]),
    ("instrument_ids", .text [none, none, none]),
    ("description", .blank 3),
    ("evidence", .text [none, none, none]),
    ("confidence_score", .int [none, none, none])], by decide⟩

example : ofTable changed = .error (.undecodable "alerts" (.unknownRule 1 "9.9")) := by
  rfl

end Alert

end TradeWatch

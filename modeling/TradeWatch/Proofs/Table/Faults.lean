/-
Columns that cannot be read, and why. A column without a reading as numbers or instants has a type
that fits nothing; one without a reading as texts may instead have a date or a time outside the
calendar, and the first such cell is the reason.
-/
import TradeWatch.Proofs.FirstFailure
import TradeWatch.Proofs.Table.Cells

namespace TradeWatch

open Time (Instant nanosPerDay nanosPerSecond)

/-! ## Cells without a text -/

namespace Datum

/-- A date or a time outside the calendar has no text; nor has a time that the clocks of its zone
show outside of it, which is a fault of its own. -/
def NoText : Datum → Fault → Prop
  | date (some n), e => ¬ Time.InCalendar (n * nanosPerDay) ∧ e = .table
  | time unit zone (some n), e =>
    (¬ Time.InCalendar (n * Column.nanosPerUnit unit) ∧ e = .table) ∨
      Time.InCalendar (n * Column.nanosPerUnit unit) ∧
        ¬ Time.InCalendar (n * Column.nanosPerUnit unit + (offset? zone).getD 0 * nanosPerSecond) ∧
        e = .calendar
  | _, _ => False

theorem inCalendar_iff {d : Datum} : d.InCalendar ↔ ∀ e, ¬ d.NoText e := by
  cases d with
  | date x =>
    cases x with
    | none => simp [InCalendar, NoText]
    | some n => simp [InCalendar, NoText]
  | time unit zone x =>
    cases x with
    | none => simp [InCalendar, NoText]
    | some n =>
      simp only [InCalendar, NoText]
      constructor
      · rintro ⟨hin, hzone⟩ e (⟨hout, -⟩ | ⟨-, hout, -⟩)
        · exact hout hin
        · exact hout hzone
      · intro h
        have hin : Time.InCalendar (n * Column.nanosPerUnit unit) := by
          by_contra hout
          exact h .table (.inl ⟨hout, rfl⟩)
        refine ⟨hin, ?_⟩
        by_contra hout
        exact h .calendar (.inr ⟨hin, hout, rfl⟩)
  | _ => simp [InCalendar, NoText]

end Datum

/-! ## Columns without a reading -/

namespace Column

variable {c : Column} {e : Fault}

/-- The column has no reading as texts, and this is the reason. -/
def TextFault (c : Column) (e : Fault) : Prop :=
  (¬ c.type.HasTexts ∧ e = .table) ∨ c.type.HasTexts ∧ FirstFailure Datum.NoText c.data e

theorem isTextual_iff : c.IsTextual ↔ ∀ e, ¬ c.TextFault e := by
  unfold IsTextual TextFault
  by_cases htype : c.type.HasTexts
  · have hcells : (∃ e, FirstFailure Datum.NoText c.data e) ↔ ∃ d ∈ c.data, ∃ e, d.NoText e :=
      exists_firstFailure_iff
    simp only [htype, not_true_eq_false, false_and, true_and, false_or, Datum.inCalendar_iff]
    rw [← not_exists, hcells]
    push Not
    rfl
  · simp [htype]

theorem mapCells_eq_error_iff {α β : Type} {f : α → Except Fault β} {g : Option α → Datum}
    (hnone : ∀ e, ¬ (g none).NoText e) (hsome : ∀ x e, f x = .error e ↔ (g (some x)).NoText e)
    (cells : List (Option α)) :
    mapCells f cells = .error e ↔ FirstFailure Datum.NoText (cells.map g) e := by
  unfold mapCells
  rw [mapM_eq_error_iff, firstFailure_map]
  refine firstFailure_congr fun cell _ e => ?_
  cases cell with
  | none => exact iff_of_false (by simp) (hnone e)
  | some x => rw [map_eq_error_iff, hsome]

theorem dayText_eq_error_iff (n : ℤ) (e : Fault) :
    dayText n = .error e ↔ (Datum.date (some n)).NoText e := by
  unfold dayText Instant.ofDay? Datum.NoText
  by_cases h : Time.InCalendar (n * nanosPerDay)
  · simp [Instant.ofNanos?_of_inCalendar h, h]
  · simp [Instant.ofNanos?_of_not_inCalendar h, h, eq_comm]

theorem timeText_eq_error_iff (unit : Time.Resolution) (zone : Option String) (n : ℤ) (e : Fault) :
    timeText unit (Datum.offset? zone) n = .error e ↔
      (Datum.time unit zone (some n)).NoText e := by
  unfold timeText Datum.NoText
  by_cases h : Time.InCalendar (n * nanosPerUnit unit)
  · rw [Instant.ofNanos?_of_inCalendar h]
    cases hoffset : Datum.offset? zone with
    | none => simp [h, hoffset]
    | some o =>
      by_cases ho : Time.InCalendar (n * nanosPerUnit unit + o * nanosPerSecond)
      · simp [Instant.shift?, Instant.ofNanos?_of_inCalendar ho, h, ho, hoffset]
      · simp [Instant.shift?, Instant.ofNanos?_of_not_inCalendar ho, h, ho, hoffset, eq_comm]
  · simp [Instant.ofNanos?_of_not_inCalendar h, h, eq_comm]

theorem not_textFault {xs : List (Option String)} (h : c.toTexts = .ok xs) : ¬ c.TextFault e :=
  isTextual_iff.1 (toTexts_eq_ok_iff.1 h).1 e

theorem toTexts_eq_error_iff : c.toTexts = .error e ↔ c.TextFault e := by
  cases c with
  | date cells =>
    rw [toTexts, mapCells_eq_error_iff (g := Datum.date) (fun _ h => h) dayText_eq_error_iff]
    simp [TextFault, type, ColumnType.HasTexts, data]
  | time unit zone cells =>
    -- the zone is looked at before any cell
    cases zone with
    | none =>
      have hoffset : (none : Option ℤ) = Datum.offset? none := rfl
      rw [toTexts, hoffset, mapCells_eq_error_iff (g := Datum.time unit none) (fun _ h => h)
        (timeText_eq_error_iff unit none)]
      simp [TextFault, type, ColumnType.HasTexts, data]
    | some zone =>
      cases hzone : Time.offset? zone.toList with
      | none => simp [toTexts, TextFault, type, ColumnType.HasTexts, hzone, eq_comm]
      | some offset =>
        have hoffset : some offset = Datum.offset? (some zone) := hzone.symm
        rw [toTexts, hzone]
        simp only [hoffset]
        rw [mapCells_eq_error_iff (g := Datum.time unit (some zone)) (fun _ h => h)
          (timeText_eq_error_iff unit (some zone))]
        simp [TextFault, type, ColumnType.HasTexts, data, hzone]
  | _ => exact iff_of_false (by simp [toTexts]) (not_textFault rfl)

theorem toReals_eq_error_iff : c.toReals = .error e ↔ ¬ c.IsNumeric ∧ e = .table := by
  cases c <;> simp [toReals, IsNumeric, type, ColumnType.HasReals, eq_comm]

theorem toInstants_eq_error_iff : c.toInstants = .error e ↔ ¬ c.IsTemporal ∧ e = .table := by
  cases c <;>
    simp [toInstants, toMillis, Except.map, IsTemporal, type, ColumnType.HasInstants, eq_comm]

end Column

/-! ## Names without a reading -/

namespace Table

variable {t : Table} {table name : String} {e : Fault}

/-- The table has no column of the name, or the column cannot be read for the given reason. -/
def Refuses (t : Table) (table name : String) (CastFault : Column → Fault → Prop) (e : Fault) : Prop :=
  (t.column? name = none ∧ e = .missingColumn table name) ∨
    ∃ c, t.column? name = some c ∧ CastFault c e

theorem read_eq_error_iff {β : Type} {read : Column → Except Fault β}
    {CastFault : Column → Fault → Prop}
    (hread : ∀ {c : Column} {e : Fault}, read c = .error e ↔ CastFault c e) :
    (t.column table name >>= read) = .error e ↔ t.Refuses table name CastFault e := by
  unfold column Refuses
  cases t.column? name with
  | none => simp [Bind.bind, Except.bind, eq_comm]
  | some c => simp [Bind.bind, Except.bind, hread]

theorem texts_eq_error_iff :
    t.texts table name = .error e ↔ t.Refuses table name Column.TextFault e :=
  read_eq_error_iff Column.toTexts_eq_error_iff

theorem reals_eq_error_iff :
    t.reals table name = .error e ↔
      t.Refuses table name (fun c e => ¬ c.IsNumeric ∧ e = .table) e :=
  read_eq_error_iff Column.toReals_eq_error_iff

theorem instants_eq_error_iff :
    t.instants table name = .error e ↔
      t.Refuses table name (fun c e => ¬ c.IsTemporal ∧ e = .table) e :=
  read_eq_error_iff Column.toInstants_eq_error_iff

end Table

end TradeWatch

/-
Cells and rows. A column is read cell by cell, as texts, as numbers or as instants, whenever its
type can be read so; a cell without such a reading is missing in the result. A name stands in every
row for a cell of one column, so what a column reads as is read row by row. The rows of two tables
of one layout stand in their joined table one after the other.
-/
import Mathlib.Tactic
import TradeWatch.Proofs.Table.Reading
import TradeWatch.Proofs.Time.Calendar

namespace TradeWatch

open Time (Instant nanosPerDay nanosPerSecond)

/-! ## Cells -/

/-- What one row has in one column. -/
inductive Datum
  | text (x : Option String)
  | int (x : Option Int)
  | real (x : Option Float)
  | flag (x : Option Bool)
  | date (x : Option Int)
  | time (unit : Time.Resolution) (zone : Option String) (x : Option Int)
  | blank
  | texts (x : Option (List String))
  | ints (x : Option (List (Option Int)))

namespace Datum

/-- The offset of a zone from UTC in seconds. -/
def offset? (zone : Option String) : Option Int :=
  zone.bind fun z => Time.offset? z.toList

def text? : Datum → Option String
  | text x => x
  | int x => x.map Text.intDigits
  | real x => x.map Decimal.Layout.cell.write
  | flag x => x.map Column.flagText
  | date x => x.bind fun n => (Column.dayText n).toOption
  | time unit zone x => x.bind fun n => (Column.timeText unit (offset? zone) n).toOption
  | blank => none
  | texts x => x.map Column.listText
  | ints x => x.map fun items => Column.listText (items.map fun n => (n.map Text.intDigits).getD "")

def real? : Datum → Option Float
  | text x => x.bind Decimal.real?
  | int x => x.map Decimal.ofInt
  | real x => x
  | flag x => x.map fun b => if b then 1.0 else 0.0
  | time _ _ x => x.map Decimal.ofInt
  | _ => none

/-- The cell as milliseconds since the start of 1970. -/
def millis? : Datum → Option Int
  | text x => x.bind Column.millisOfText?
  | int x => x
  | real x => x.bind Decimal.truncated?
  | date x => x.map (· * 86400000)
  | time unit _ x => x.map (Column.millisOf unit)
  | _ => none

def instant? (d : Datum) : Option Instant :=
  d.millis?.bind Instant.ofMillis?

/-- A date or a time, if the cell is one, is within the calendar, also on the clocks of its zone. -/
def InCalendar : Datum → Prop
  | date (some n) => Time.InCalendar (n * nanosPerDay)
  | time unit zone (some n) =>
    Time.InCalendar (n * Column.nanosPerUnit unit) ∧
      Time.InCalendar (n * Column.nanosPerUnit unit + (offset? zone).getD 0 * nanosPerSecond)
  | _ => True

end Datum

/-! ## Columns -/

namespace ColumnType

/-- Times are read as texts only with a zone that is a fixed offset, or without any. -/
def HasTexts : ColumnType → Prop
  | time _ (some zone) => (Time.offset? zone.toList).isSome
  | _ => True

def HasReals : ColumnType → Prop
  | date => False
  | texts => False
  | ints => False
  | _ => True

def HasInstants : ColumnType → Prop
  | flag => False
  | texts => False
  | ints => False
  | _ => True

end ColumnType

namespace Column

variable {a b c : Column}

def data : Column → List Datum
  | text cells => cells.map .text
  | int cells => cells.map .int
  | real cells => cells.map .real
  | flag cells => cells.map .flag
  | date cells => cells.map .date
  | time unit zone cells => cells.map (.time unit zone)
  | blank count => List.replicate count .blank
  | texts cells => cells.map .texts
  | ints cells => cells.map .ints

theorem length_data (c : Column) : c.data.length = c.size := by
  cases c <;> simp [data, size]

/-! ### Reading cell by cell -/

/-- Every cell of the column can be read as a text. -/
def IsTextual (c : Column) : Prop :=
  c.type.HasTexts ∧ ∀ d ∈ c.data, d.InCalendar

def IsNumeric (c : Column) : Prop :=
  c.type.HasReals

def IsTemporal (c : Column) : Prop :=
  c.type.HasInstants

theorem mapCells_eq_ok_iff {α β : Type} {f : α → Except Fault β} {cells : List (Option α)}
    {xs : List (Option β)} :
    mapCells f cells = .ok xs ↔
      (∀ x, some x ∈ cells → ∃ y, f x = .ok y) ∧
        xs = cells.map fun cell => cell.bind fun x => (f x).toOption := by
  unfold mapCells
  induction cells generalizing xs with
  | nil => simp [pure, Except.pure, eq_comm]
  | cons cell cells ih =>
    rw [List.mapM_cons, bind_eq_ok_iff]
    constructor
    · rintro ⟨y, hy, hrest⟩
      obtain ⟨ys, hys, hxs⟩ := bind_eq_ok_iff.1 hrest
      obtain ⟨hall, rfl⟩ := ih.1 hys
      cases hxs
      cases cell with
      | none =>
        cases hy
        exact ⟨fun x hx => hall x (by simpa using hx), by simp⟩
      | some x =>
        obtain ⟨z, hz, rfl⟩ := map_eq_ok_iff.1 hy
        refine ⟨fun x' hx' => ?_, by simp [hz, Except.toOption]⟩
        rcases List.mem_cons.1 hx' with heq | hx'
        · cases heq
          exact ⟨z, hz⟩
        · exact hall x' hx'
    · rintro ⟨hall, rfl⟩
      have htail := ih.2 ⟨fun x hx => hall x (List.mem_cons_of_mem _ hx), rfl⟩
      rw [htail]
      cases cell with
      | none => exact ⟨none, rfl, rfl⟩
      | some x =>
        obtain ⟨y, hy⟩ := hall x List.mem_cons_self
        refine ⟨some y, map_eq_ok_iff.2 ⟨y, hy, rfl⟩, ?_⟩
        rw [List.map_cons, Option.bind_some, hy]
        rfl

theorem exists_dayText_iff (n : Int) :
    (∃ s, dayText n = .ok s) ↔ Time.InCalendar (n * nanosPerDay) := by
  unfold dayText Instant.ofDay?
  by_cases h : Time.InCalendar (n * nanosPerDay)
  · simp [Instant.ofNanos?_of_inCalendar h, h]
  · simp [Instant.ofNanos?_of_not_inCalendar h, h]

theorem exists_timeText_iff (unit : Time.Resolution) (offset : Option Int) (n : Int) :
    (∃ s, timeText unit offset n = .ok s) ↔
      Time.InCalendar (n * nanosPerUnit unit) ∧
        Time.InCalendar (n * nanosPerUnit unit + offset.getD 0 * nanosPerSecond) := by
  unfold timeText
  by_cases h : Time.InCalendar (n * nanosPerUnit unit)
  · rw [Instant.ofNanos?_of_inCalendar h]
    cases offset with
    | none => simp [h]
    | some o =>
      by_cases ho : Time.InCalendar (n * nanosPerUnit unit + o * nanosPerSecond)
      · simp [Instant.shift?, Instant.ofNanos?_of_inCalendar ho, h, ho]
      · simp [Instant.shift?, Instant.ofNanos?_of_not_inCalendar ho, ho]
  · simp [Instant.ofNanos?_of_not_inCalendar h, h]

/-- Missing cells stand in the way of nothing. -/
theorem forall_some_mem_iff {α : Type} {P : α → Prop} {Q : Option α → Prop} (hnone : Q none)
    (hsome : ∀ x, P x ↔ Q (some x)) (cells : List (Option α)) :
    (∀ x, some x ∈ cells → P x) ↔ ∀ cell ∈ cells, Q cell := by
  constructor
  · intro h cell hcell
    cases cell with
    | none => exact hnone
    | some x => exact (hsome x).1 (h x hcell)
  · exact fun h x hx => (hsome x).2 (h _ hx)

theorem toTexts_eq_ok_iff {xs : List (Option String)} :
    c.toTexts = .ok xs ↔ c.IsTextual ∧ xs = c.data.map Datum.text? := by
  unfold IsTextual
  cases c with
  | date cells =>
    rw [toTexts, mapCells_eq_ok_iff,
      forall_some_mem_iff (Q := fun cell => (Datum.date cell).InCalendar) trivial
        exists_dayText_iff]
    simp only [type, data, ColumnType.HasTexts, List.forall_mem_map, List.map_map, true_and]
    rfl
  | time unit zone cells =>
    -- a zone that is no fixed offset stops the reading, also of no cells
    cases zone with
    | none =>
      rw [toTexts, mapCells_eq_ok_iff,
        forall_some_mem_iff (Q := fun cell => (Datum.time unit none cell).InCalendar) trivial
          (exists_timeText_iff unit none)]
      simp only [type, data, ColumnType.HasTexts, List.forall_mem_map, List.map_map, true_and]
      rfl
    | some zone =>
      cases hzone : Time.offset? zone.toList with
      | none => simp [toTexts, type, ColumnType.HasTexts, hzone]
      | some offset =>
        have hoffset : Datum.offset? (some zone) = some offset := hzone
        rw [toTexts, hzone]
        simp only [type, data, ColumnType.HasTexts, List.forall_mem_map, List.map_map, hzone,
          Option.isSome_some, true_and]
        rw [mapCells_eq_ok_iff,
          forall_some_mem_iff (Q := fun cell => (Datum.time unit (some zone) cell).InCalendar)
            trivial fun n => (exists_timeText_iff unit (some offset) n).trans (by
              rw [Datum.InCalendar, hoffset]),
          ← hoffset]
        rfl
  | blank count =>
    have hnothing : ∀ d ∈ List.replicate count Datum.blank, d.InCalendar := fun d hd => by
      rw [List.eq_of_mem_replicate hd]
      trivial
    simp only [toTexts, Except.ok.injEq, type, data, ColumnType.HasTexts, List.map_replicate,
      Datum.text?, eq_true hnothing, true_and, eq_comm]
  | text cells =>
    simp only [toTexts, Except.ok.injEq, type, data, ColumnType.HasTexts, List.forall_mem_map,
      Datum.InCalendar, List.map_map, Function.comp_def, Datum.text?, List.map_id', implies_true,
      true_and, eq_comm]
  | _ =>
    simp only [toTexts, Except.ok.injEq, type, data, ColumnType.HasTexts, List.forall_mem_map,
      Datum.InCalendar, List.map_map, Function.comp_def, Datum.text?, implies_true, true_and,
      eq_comm]

theorem toReals_eq_ok_iff {xs : List (Option Float)} :
    c.toReals = .ok xs ↔ c.IsNumeric ∧ xs = c.data.map Datum.real? := by
  cases c <;>
    simp [toReals, IsNumeric, type, data, ColumnType.HasReals, Function.comp_def, Datum.real?, eq_comm]

theorem toMillis_eq_ok_iff {xs : List (Option Int)} :
    c.toMillis = .ok xs ↔ c.IsTemporal ∧ xs = c.data.map Datum.millis? := by
  cases c <;>
    simp [toMillis, IsTemporal, type, data, ColumnType.HasInstants, Function.comp_def, Datum.millis?,
      eq_comm]

theorem toInstants_eq_ok_iff {xs : List (Option Instant)} :
    c.toInstants = .ok xs ↔ c.IsTemporal ∧ xs = c.data.map Datum.instant? := by
  unfold toInstants
  rw [map_eq_ok_iff]
  simp only [toMillis_eq_ok_iff]
  constructor
  · rintro ⟨_, ⟨htype, rfl⟩, rfl⟩
    exact ⟨htype, List.map_map⟩
  · rintro ⟨htype, rfl⟩
    exact ⟨_, ⟨htype, rfl⟩, List.map_map⟩

theorem isTextual_text (cells : List (Option String)) : (text cells).IsTextual :=
  ⟨trivial, List.forall_mem_map.2 fun _ _ => trivial⟩

/-! ### Joined columns -/

theorem exists_append? (h : a.type = b.type) : ∃ c, a.append? b = some c := by
  cases a <;> cases b <;> simp_all [type, append?]

theorem type_append? (h : a.append? b = some c) : c.type = a.type ∧ a.type = b.type := by
  cases a <;> cases b <;> simp only [append?, Option.some.injEq, reduceCtorEq] at h
  case time =>
    split at h
    · rename_i hsame
      cases h
      exact ⟨rfl, congrArg₂ ColumnType.time hsame.1 hsame.2⟩
    · cases h
  all_goals
    subst h
    exact ⟨rfl, rfl⟩

theorem data_append? (h : a.append? b = some c) : c.data = a.data ++ b.data := by
  cases a <;> cases b <;> simp only [append?, Option.some.injEq, reduceCtorEq] at h
  case time =>
    split at h
    · rename_i hsame
      obtain ⟨rfl, rfl⟩ := hsame
      cases h
      exact List.map_append
    · cases h
  case blank =>
    subst h
    exact List.replicate_add _ _ _
  all_goals
    subst h
    exact List.map_append

/-- What holds of two columns holds of them joined. -/
def Joins (P : Column → Prop) : Prop :=
  ∀ a b c : Column, a.append? b = some c → P a → P b → P c

theorem joins_isTextual : Joins IsTextual := by
  intro a b c h ha hb
  refine ⟨(type_append? h).1 ▸ ha.1, fun d hd => ?_⟩
  rw [data_append? h] at hd
  exact (List.mem_append.1 hd).elim (ha.2 d) (hb.2 d)

theorem joins_isNumeric : Joins IsNumeric :=
  fun _ _ _ h ha _ => show ColumnType.HasReals _ from (type_append? h).1 ▸ ha

theorem joins_isTemporal : Joins IsTemporal :=
  fun _ _ _ h ha _ => show ColumnType.HasInstants _ from (type_append? h).1 ▸ ha

end Column

/-! ## Rows -/

namespace Table

variable {t a b whole : Table} {table name : String}

/-- The cells of one row, each with the name of its column. -/
abbrev Row := List (String × Datum)

namespace Row

/-- The cell of the column that a name means. -/
def cell (r : Row) (name : String) : Datum :=
  ((r.find? fun f => f.1 == name).map (·.2)).getD .blank

def text? (r : Row) (name : String) : Option String :=
  (r.cell name).text?

def real? (r : Row) (name : String) : Option Float :=
  (r.cell name).real?

def instant? (r : Row) (name : String) : Option Instant :=
  (r.cell name).instant?

end Row

def row (t : Table) (i : ℕ) : Row :=
  t.columns.map fun c => (c.1, c.2.data[i]?.getD .blank)

/-- The rows of the table from the first to the last. -/
def rowList (t : Table) : List Row :=
  (List.range t.rows).map t.row

theorem length_rowList (t : Table) : t.rowList.length = t.rows := by
  simp [rowList]

theorem size_of_column? {c : Column} (h : t.column? name = some c) : c.size = t.rows := by
  obtain ⟨named, hnamed, rfl⟩ := Option.map_eq_some_iff.1 h
  exact t.aligned named (List.mem_of_find?_eq_some hnamed)

theorem cell_row {c : Column} (h : t.column? name = some c) (i : ℕ) :
    (t.row i).cell name = c.data[i]?.getD .blank := by
  obtain ⟨named, hnamed, rfl⟩ := Option.map_eq_some_iff.1 h
  unfold Row.cell row
  rw [List.find?_map]
  simp only [Function.comp_def]
  rw [show t.columns.find? (fun c => c.1 == name) = some named from hnamed]
  rfl

/-- A column goes through the rows. -/
theorem map_cell_rowList {c : Column} (h : t.column? name = some c) :
    (t.rowList.map fun r => r.cell name) = c.data := by
  have hsize : c.data.length = t.rows := c.length_data.trans (size_of_column? h)
  refine List.ext_getElem (by simp [rowList, hsize]) fun i hi hi' => ?_
  simp [rowList, cell_row h, hi']

/-! ### Names that can be read -/

/-- The table has a column of the name with the property. -/
def Has (t : Table) (name : String) (P : Column → Prop) : Prop :=
  ∃ c, t.column? name = some c ∧ P c

theorem column_eq_ok_iff {c : Column} : t.column table name = .ok c ↔ t.column? name = some c := by
  unfold column
  cases t.column? name with
  | none => simp
  | some c => simp

/-- A way of reading columns cell by cell reads a named column row by row. -/
theorem read_eq_ok_iff {β : Type} {read : Column → Except Fault (List β)} {P : Column → Prop}
    {f : Datum → β} (hread : ∀ {c : Column} {xs : List β}, read c = .ok xs ↔ P c ∧ xs = c.data.map f)
    {xs : List β} :
    (t.column table name >>= read) = .ok xs ↔
      t.Has name P ∧ xs = t.rowList.map fun r => f (r.cell name) := by
  rw [bind_eq_ok_iff]
  simp only [column_eq_ok_iff, hread]
  have hmap : ∀ {c : Column}, t.column? name = some c →
      (t.rowList.map fun r => f (r.cell name)) = c.data.map f := fun hc => by
    rw [← map_cell_rowList hc, List.map_map]
    rfl
  constructor
  · rintro ⟨c, hc, hP, rfl⟩
    exact ⟨⟨c, hc, hP⟩, (hmap hc).symm⟩
  · rintro ⟨⟨c, hc, hP⟩, rfl⟩
    exact ⟨c, hc, hP, hmap hc⟩

theorem texts_eq_ok_iff {xs : List (Option String)} :
    t.texts table name = .ok xs ↔
      t.Has name Column.IsTextual ∧ xs = t.rowList.map fun r => r.text? name :=
  read_eq_ok_iff Column.toTexts_eq_ok_iff

theorem reals_eq_ok_iff {xs : List (Option Float)} :
    t.reals table name = .ok xs ↔
      t.Has name Column.IsNumeric ∧ xs = t.rowList.map fun r => r.real? name :=
  read_eq_ok_iff Column.toReals_eq_ok_iff

theorem instants_eq_ok_iff {xs : List (Option Instant)} :
    t.instants table name = .ok xs ↔
      t.Has name Column.IsTemporal ∧ xs = t.rowList.map fun r => r.instant? name :=
  read_eq_ok_iff Column.toInstants_eq_ok_iff

/-! ### Joined tables -/

section Append

variable {cs ds es : List (String × Column)}

/-- Named columns are joined pair by pair. -/
theorem appendColumns?_cons {k : String} {x : Column}
    (h : appendColumns? ((k, x) :: cs) ds = some es) :
    ∃ y ys z zs, ds = (k, y) :: ys ∧ x.append? y = some z ∧ appendColumns? cs ys = some zs ∧
      es = (k, z) :: zs := by
  cases ds with
  | nil => cases h
  | cons d ys =>
    obtain ⟨l, y⟩ := d
    unfold appendColumns? at h
    split at h
    · rename_i hkl
      obtain ⟨z, hz, h⟩ := Option.bind_eq_some_iff.1 h
      obtain ⟨zs, hzs, h⟩ := Option.bind_eq_some_iff.1 h
      cases h
      exact ⟨y, ys, z, zs, by rw [hkl], hz, hzs, rfl⟩
    · cases h

theorem appendColumns?_nil (h : appendColumns? [] ds = some es) : ds = [] ∧ es = [] := by
  cases ds with
  | nil =>
    cases h
    exact ⟨rfl, rfl⟩
  | cons d ds => cases h

theorem exists_appendColumns? (h : cs.map (fun c => (c.1, c.2.type)) = ds.map fun c => (c.1, c.2.type)) :
    ∃ es, appendColumns? cs ds = some es := by
  induction cs generalizing ds with
  | nil =>
    rw [List.map_nil, eq_comm, List.map_eq_nil_iff] at h
    exact ⟨[], by rw [h]; rfl⟩
  | cons c cs ih =>
    cases ds with
    | nil => cases h
    | cons d ds =>
      simp only [List.map_cons, List.cons.injEq, Prod.mk.injEq] at h
      obtain ⟨⟨hname, htype⟩, hrest⟩ := h
      obtain ⟨z, hz⟩ := Column.exists_append? htype
      obtain ⟨zs, hzs⟩ := ih hrest
      refine ⟨(c.1, z) :: zs, ?_⟩
      obtain ⟨k, x⟩ := c
      obtain ⟨l, y⟩ := d
      unfold appendColumns?
      rw [if_pos hname, hz, hzs]
      rfl

theorem find?_appendColumns? (h : appendColumns? cs ds = some es) {x y : String × Column}
    (hx : cs.find? (fun c => c.1 == name) = some x)
    (hy : ds.find? (fun c => c.1 == name) = some y) :
    ∃ z, x.2.append? y.2 = some z ∧
      (es.find? fun c => c.1 == name).map (·.2) = some z := by
  induction cs generalizing ds es with
  | nil => cases hx
  | cons c cs ih =>
    obtain ⟨k, x'⟩ := c
    obtain ⟨y', ys, z', zs, rfl, hz', hzs, rfl⟩ := appendColumns?_cons h
    rw [List.find?_cons] at hx hy ⊢
    by_cases hk : (k == name) = true
    · simp only [hk, Option.some.injEq] at hx hy ⊢
      subst hx hy
      exact ⟨z', hz', rfl⟩
    · simp only [hk] at hx hy ⊢
      exact ih hzs hx hy

/-- Up to the end of the first columns the rows are theirs. -/
theorem row_appendColumns?_left {m i : ℕ} (h : appendColumns? cs ds = some es)
    (hm : ∀ c ∈ cs, c.2.size = m) (hi : i < m) :
    (es.map fun c => (c.1, c.2.data[i]?.getD .blank)) =
      cs.map fun c => (c.1, c.2.data[i]?.getD .blank) := by
  induction cs generalizing ds es with
  | nil =>
    obtain ⟨-, rfl⟩ := appendColumns?_nil h
    rfl
  | cons c cs ih =>
    obtain ⟨k, x⟩ := c
    obtain ⟨y, ys, z, zs, rfl, hz, hzs, rfl⟩ := appendColumns?_cons h
    have hx : x.data.length = m := (Column.length_data x).trans (hm _ List.mem_cons_self)
    rw [List.map_cons, List.map_cons, ih hzs fun c hc => hm c (List.mem_cons_of_mem _ hc),
      Column.data_append? hz, List.getElem?_append_left (hi.trans_eq hx.symm)]

/-- Behind it they are those of the second columns. -/
theorem row_appendColumns?_right {m : ℕ} (h : appendColumns? cs ds = some es)
    (hm : ∀ c ∈ cs, c.2.size = m) (i : ℕ) :
    (es.map fun c => (c.1, c.2.data[m + i]?.getD .blank)) =
      ds.map fun c => (c.1, c.2.data[i]?.getD .blank) := by
  induction cs generalizing ds es with
  | nil =>
    obtain ⟨rfl, rfl⟩ := appendColumns?_nil h
    rfl
  | cons c cs ih =>
    obtain ⟨k, x⟩ := c
    obtain ⟨y, ys, z, zs, rfl, hz, hzs, rfl⟩ := appendColumns?_cons h
    have hx : x.data.length = m := (Column.length_data x).trans (hm _ List.mem_cons_self)
    rw [List.map_cons, List.map_cons, ih hzs fun c hc => hm c (List.mem_cons_of_mem _ hc),
      Column.data_append? hz, List.getElem?_append_right (by omega), hx, Nat.add_sub_cancel_left]

end Append

/-- The joined columns of a joined table. -/
theorem columns_append? (h : a.append? b = some whole) :
    whole.rows = a.rows + b.rows ∧ appendColumns? a.columns b.columns = some whole.columns := by
  unfold append? at h
  split at h
  · cases h
  · rename_i columns hcolumns
    cases h
    exact ⟨rfl, hcolumns⟩

/-- Tables of one layout can be joined. -/
theorem exists_append? (h : a.layout = b.layout) : ∃ whole, a.append? b = some whole := by
  obtain ⟨columns, hcolumns⟩ := exists_appendColumns? h
  unfold append?
  split
  · rename_i hnone
    rw [hcolumns] at hnone
    cases hnone
  · exact ⟨_, rfl⟩

theorem rowList_append? (h : a.append? b = some whole) :
    whole.rowList = a.rowList ++ b.rowList := by
  obtain ⟨hrows, hcolumns⟩ := columns_append? h
  unfold rowList
  rw [hrows, List.range_add, List.map_append, List.map_map]
  congr 1
  · exact List.map_congr_left fun i hi =>
      row_appendColumns?_left hcolumns a.aligned (List.mem_range.1 hi)
  · exact List.map_congr_left fun i _ => row_appendColumns?_right hcolumns a.aligned i

theorem Has.append? {P : Column → Prop} (ha : a.Has name P) (hb : b.Has name P)
    (hP : Column.Joins P) (h : a.append? b = some whole) : whole.Has name P := by
  obtain ⟨x, hx, hPx⟩ := ha
  obtain ⟨y, hy, hPy⟩ := hb
  obtain ⟨x', hx', rfl⟩ := Option.map_eq_some_iff.1 hx
  obtain ⟨y', hy', rfl⟩ := Option.map_eq_some_iff.1 hy
  obtain ⟨z, hz, hwhole⟩ := find?_appendColumns? (columns_append? h).2 hx' hy'
  exact ⟨z, hwhole, hP _ _ _ hz hPx hPy⟩

end Table

end TradeWatch

/-
Events row by row. The events of a table are the rows that have an announcement and an instrument, in
their order, and a row without an id gets one from its number among all rows. These ids are all
different, so an event that got one is an occurrence of its own unless a row brings that very id. The
column of effective dates decides nothing but these dates.
-/
import TradeWatch.Proofs.Run.Occurrences
import TradeWatch.Proofs.Table.Faults
import TradeWatch.Proofs.Table.Records

namespace TradeWatch.Table

variable {t u : Table} {kept : List CorporateEvent}

/-! ## Rows -/

def Row.keepsEvent (r : Row) : Bool :=
  (r.instant? "announcement_date").isSome && (r.text? "instrument_id").isSome

/-- The rows of events that are kept, each with its number among all rows. -/
def eventRows (t : Table) : List (Row × ℕ) :=
  t.rowList.zipIdx.filter fun row => row.1.keepsEvent

/-- The event is that of the row: a missing id comes from the number of the row, and a missing kind is
unknown. -/
structure EventOf (row : Row × ℕ) (e : CorporateEvent) : Prop where
  announced : row.1.instant? "announcement_date" = some e.announced
  instrument : row.1.text? "instrument_id" = some e.instrument
  id : e.id = (row.1.text? "event_id").getD ("EVT-" ++ Text.zeroPadded 6 row.2)
  kind : e.kind = (row.1.text? "event_type").getD "unknown"
  effective : e.effective = row.1.instant? effectiveColumn

/-- What is reported of rows that are left out. -/
def droppingEvents (count : ℕ) : List Notice :=
  if count = 0 then [] else [.droppedEvents count]

def Row.eventCells (r : Row) : EventCells where
  id := r.text? "event_id"
  instrument := r.text? "instrument_id"
  kind := r.text? "event_type"
  announced := r.instant? "announcement_date"
  effective := r.instant? effectiveColumn

def Row.event? (row : Row × ℕ) : Option CorporateEvent :=
  row.1.eventCells.event? row.2

theorem isSome_event? (row : Row × ℕ) : (Row.event? row).isSome = row.1.keepsEvent := by
  unfold Row.event? EventCells.event? Row.keepsEvent Row.eventCells
  cases row.1.instant? "announcement_date" with
  | none => rfl
  | some announced =>
    cases row.1.text? "instrument_id" with
    | none => rfl
    | some instrument => rfl

theorem eventOf_of_event? (row : Row × ℕ) (e : CorporateEvent) (h : Row.event? row = some e) :
    EventOf row e := by
  unfold Row.event? EventCells.event? at h
  obtain ⟨announced, hannounced, h⟩ := Option.bind_eq_some_iff.1 h
  obtain ⟨instrument, hinstrument, h⟩ := Option.bind_eq_some_iff.1 h
  cases h
  exact ⟨hannounced, hinstrument, rfl, rfl, rfl⟩

/-- The events that a table of events has. -/
def rowEvents (t : Table) : List CorporateEvent :=
  t.rowList.zipIdx.filterMap Row.event?

theorem forall₂_eventOf (t : Table) : List.Forall₂ EventOf t.eventRows t.rowEvents :=
  forall₂_filterMap isSome_event? eventOf_of_event? t.rowList.zipIdx

/-! ## Reading -/

theorem cell_of_none {name : String} (h : t.column? name = none) (i : ℕ) :
    (t.row i).cell name = .blank := by
  unfold Row.cell row
  rw [List.find?_map]
  have hnone : t.columns.find? (fun c => c.1 == name) = none := Option.map_eq_none_iff.1 h
  simp only [Function.comp_def, hnone]
  rfl

/-- A column that is absent reads as one without cells. -/
theorem HasEvents.effectiveDates_eq (h : t.HasEvents) :
    t.effectiveDates = .ok (t.rowList.map fun r => r.instant? effectiveColumn) := by
  unfold effectiveDates
  cases hc : t.column? effectiveColumn with
  | none =>
    have hcells : (t.rowList.map fun r => r.instant? effectiveColumn) =
        List.replicate t.rows none := by
      refine List.eq_replicate_iff.2 ⟨by rw [List.length_map, length_rowList], fun x hx => ?_⟩
      obtain ⟨r, hr, rfl⟩ := List.mem_map.1 hx
      obtain ⟨i, -, rfl⟩ := List.mem_map.1 hr
      unfold Row.instant?
      rw [cell_of_none hc]
      rfl
    rw [hcells]
    rfl
  | some c => exact instants_eq_ok_iff.2 ⟨⟨c, hc, h.effective c hc⟩, rfl⟩

theorem HasEvents.hasEventCells (h : t.HasEvents) :
    HasEventCells t (t.rowList.map Row.eventCells) := by
  constructor
  · exact texts_eq_ok_iff.2 ⟨h.ids, List.map_map⟩
  · exact texts_eq_ok_iff.2 ⟨h.instruments, List.map_map⟩
  · exact texts_eq_ok_iff.2 ⟨h.kinds, List.map_map⟩
  · exact instants_eq_ok_iff.2 ⟨h.announced, List.map_map⟩
  · rw [h.effectiveDates_eq, List.map_map]
    rfl

theorem HasEventCells.hasEvents {cells : List EventCells} (h : HasEventCells t cells) :
    t.HasEvents where
  ids := (texts_eq_ok_iff.1 h.ids).1
  instruments := (texts_eq_ok_iff.1 h.instruments).1
  kinds := (texts_eq_ok_iff.1 h.kinds).1
  announced := (instants_eq_ok_iff.1 h.announced).1
  effective := fun c hc => by
    have hread := h.effective
    unfold effectiveDates at hread
    rw [hc] at hread
    obtain ⟨c', hc', htemporal⟩ := (instants_eq_ok_iff.1 hread).1
    rw [hc] at hc'
    cases hc'
    exact htemporal

/-- A table of events gives its events, and reports what it leaves out. -/
theorem HasEvents.run_events (h : t.HasEvents) :
    t.events.run = (.ok t.rowEvents, droppingEvents (t.rows - t.rowEvents.length)) := by
  have hrows : ((t.rowList.map Row.eventCells).zipIdx.filterMap fun row => row.1.event? row.2) =
      t.rowEvents := by
    rw [List.zipIdx_map, List.filterMap_map]
    rfl
  have hdropped : (t.rowList.map Row.eventCells).length = t.rows := by
    rw [List.length_map, length_rowList]
  unfold events
  rw [Logged.run_bind, h.hasEventCells.eventCells_eq, ← hrows, ← hdropped]
  generalize t.rowList.map Row.eventCells = cells
  unfold droppingEvents
  by_cases hkept : cells.length - (cells.zipIdx.filterMap fun row => row.1.event? row.2).length = 0
  · rw [if_pos hkept]
    change Logged.runFrom [] (ite _ _ _) = _
    rw [if_neg (not_not.2 hkept)]
    rfl
  · rw [if_neg hkept]
    change Logged.runFrom [] (ite _ _ _) = _
    rw [if_pos hkept]
    rfl

theorem hasEvents_of_result (h : t.events.run.1 = .ok kept) : t.HasEvents := by
  rw [result_events] at h
  obtain ⟨cells, hcells, -⟩ := map_eq_ok_iff.1 h
  exact (eventCells_eq_ok_iff.1 hcells).hasEvents

theorem eq_rowEvents_of_result (h : t.events.run.1 = .ok kept) : kept = t.rowEvents := by
  rw [(hasEvents_of_result h).run_events] at h
  exact (Except.ok.inj h).symm

/-! ## Ids -/

theorem padded_inj {i j : ℕ} (h : "EVT-" ++ Text.zeroPadded 6 i = "EVT-" ++ Text.zeroPadded 6 j) :
    i = j := by
  have hchars := congrArg String.toList h
  rw [String.toList_append, String.toList_append] at hchars
  have hvalue := congrArg Text.valueOf (List.append_cancel_left hchars)
  rwa [Text.valueOf_zeroPadded, Text.valueOf_zeroPadded] at hvalue

/-- A number stands for one row. -/
theorem eq_of_number_eq {p q : Row × ℕ} (hp : p ∈ t.eventRows) (hq : q ∈ t.eventRows)
    (h : p.2 = q.2) : p = q := by
  obtain ⟨r, i⟩ := p
  obtain ⟨r', j⟩ := q
  obtain rfl : i = j := h
  have hr := List.mem_zipIdx (List.mem_filter.1 hp).1
  have hr' := List.mem_zipIdx (List.mem_filter.1 hq).1
  rw [hr.2.2, hr'.2.2]

theorem nodup_eventRows (t : Table) : t.eventRows.Nodup := by
  have hnumbers : (t.rowList.zipIdx.map Prod.snd).Nodup := by
    rw [List.zipIdx_map_snd]
    exact List.nodup_range'
  exact (List.Nodup.of_map _ hnumbers).filter _

theorem eventOf_of_mem_zip {p : (Row × ℕ) × CorporateEvent} (h : p ∈ t.eventRows.zip t.rowEvents) :
    p.1 ∈ t.eventRows ∧ EventOf p.1 p.2 :=
  ⟨(List.of_mem_zip h).1, (List.forall₂_iff_zip.1 t.forall₂_eventOf).2 h⟩

/-- The id that a row gets for want of one is that of no other row, unless that row brings it. -/
theorem id_eq_iff {p q : (Row × ℕ) × CorporateEvent} (hp : p ∈ t.eventRows.zip t.rowEvents)
    (hq : q ∈ t.eventRows.zip t.rowEvents) (hnone : p.1.1.text? "event_id" = none) :
    p.2.id = q.2.id ↔
      p.1 = q.1 ∨ q.1.1.text? "event_id" = some ("EVT-" ++ Text.zeroPadded 6 p.1.2) := by
  obtain ⟨hprow, hpevent⟩ := eventOf_of_mem_zip hp
  obtain ⟨hqrow, hqevent⟩ := eventOf_of_mem_zip hq
  rw [hpevent.id, hqevent.id, hnone, Option.getD_none]
  cases hsome : q.1.1.text? "event_id" with
  | none =>
    rw [Option.getD_none]
    constructor
    · exact fun h => .inl (eq_of_number_eq hprow hqrow (padded_inj h))
    · rintro (h | h)
      · rw [h]
      · cases h
  | some id =>
    rw [Option.getD_some, Option.some.injEq]
    constructor
    · exact fun h => .inr h.symm
    · rintro (h | h)
      · rw [h, hsome] at hnone
        cases hnone
      · exact h.symm

/-! ## Occurrences -/

/-- The row has no id, and no kept row brings the one that it gets. -/
def IsAlone (t : Table) (row : Row × ℕ) : Prop :=
  row.1.text? "event_id" = none ∧
    ∀ other ∈ t.eventRows, other.1.text? "event_id" ≠ some ("EVT-" ++ Text.zeroPadded 6 row.2)

instance : DecidablePred t.IsAlone := fun _ =>
  inferInstanceAs (Decidable (_ ∧ _))

/-- The events of the rows that are alone with the id that they get. -/
def aloneEvents (t : Table) (kept : List CorporateEvent) : List CorporateEvent :=
  ((t.eventRows.zip kept).filter fun p => t.IsAlone p.1).map (·.2)

def otherEvents (t : Table) (kept : List CorporateEvent) : List CorporateEvent :=
  ((t.eventRows.zip kept).filter fun p => ¬ t.IsAlone p.1).map (·.2)

theorem apart_rowEvents (t : Table) :
    Rule.Apart t.rowEvents (t.aloneEvents t.rowEvents) (t.otherEvents t.rowEvents) := by
  have hlength : t.eventRows.length = t.rowEvents.length := t.forall₂_eventOf.length_eq
  constructor
  · have hperm := List.filter_append_perm (fun p => decide (t.IsAlone p.1))
      (t.eventRows.zip t.rowEvents)
    have hmap := (hperm.map Prod.snd).symm
    rw [List.map_snd_zip hlength.ge, List.map_append] at hmap
    simpa only [aloneEvents, otherEvents, decide_not] using hmap
  · have hrows : ((t.eventRows.zip t.rowEvents).map Prod.fst).Nodup := by
      rw [List.map_fst_zip hlength.le]
      exact t.nodup_eventRows
    unfold aloneEvents
    rw [List.map_map]
    refine List.Nodup.map_on (fun p hp q hq h => ?_) ((List.Nodup.of_map _ hrows).filter _)
    obtain ⟨hp, halone⟩ := List.mem_filter.1 hp
    obtain ⟨hq, halone'⟩ := List.mem_filter.1 hq
    have hnone := (decide_eq_true_iff.1 halone).1
    have hnone' := (decide_eq_true_iff.1 halone').1
    rcases (id_eq_iff hp hq hnone).1 h with h | h
    · exact List.inj_on_of_nodup_map hrows hp hq h
    · rw [hnone'] at h
      cases h
  · intro e he e' he' h
    obtain ⟨p, hp, rfl⟩ := List.mem_map.1 he
    obtain ⟨q, hq, rfl⟩ := List.mem_map.1 he'
    obtain ⟨hp, halone⟩ := List.mem_filter.1 hp
    obtain ⟨hq, hother⟩ := List.mem_filter.1 hq
    have halone := decide_eq_true_iff.1 halone
    rcases (id_eq_iff hp hq halone.1).1 h with h | h
    · rw [← h] at hother
      exact decide_eq_true_iff.1 hother halone
    · exact halone.2 q.1 (List.of_mem_zip hq).1 h

/-! ## Effective dates -/

/-- The columns that a table of events cannot do without are there and can be read. -/
structure HasEventColumns (t : Table) : Prop where
  ids : t.Has "event_id" Column.IsTextual
  instruments : t.Has "instrument_id" Column.IsTextual
  kinds : t.Has "event_type" Column.IsTextual
  announced : t.Has "announcement_date" Column.IsTemporal

/-- The column of effective dates can be read, if it is there. -/
def HasReadableDates (t : Table) : Prop :=
  ∀ c, t.column? effectiveColumn = some c → c.IsTemporal

theorem hasEvents_iff : t.HasEvents ↔ t.HasEventColumns ∧ t.HasReadableDates :=
  ⟨fun h => ⟨⟨h.ids, h.instruments, h.kinds, h.announced⟩, h.effective⟩,
    fun ⟨h, hdates⟩ => ⟨h.ids, h.instruments, h.kinds, h.announced, hdates⟩⟩

/-- Effective dates of a type that fits no date stop the reading. -/
theorem HasEventColumns.run_events_of_unreadable (h : t.HasEventColumns)
    (hdates : ¬ t.HasReadableDates) : t.events.run = (.error .table, []) := by
  unfold HasReadableDates at hdates
  push Not at hdates
  obtain ⟨c, hc, hflags⟩ := hdates
  have hread : t.effectiveDates = .error .table := by
    unfold effectiveDates
    rw [hc]
    exact instants_eq_error_iff.2 (.inr ⟨c, hc, hflags, rfl⟩)
  have hcells : t.eventCells = .error .table := by
    rw [eventCells_eq, texts_eq_ok_iff.2 ⟨h.ids, rfl⟩, texts_eq_ok_iff.2 ⟨h.instruments, rfl⟩,
      texts_eq_ok_iff.2 ⟨h.kinds, rfl⟩, instants_eq_ok_iff.2 ⟨h.announced, rfl⟩, hread]
    rfl
  unfold events
  rw [Logged.run_bind, hcells]
  rfl

/-- The table without its columns of a name. -/
def without (t : Table) (name : String) : Table :=
  ⟨t.rows, t.columns.filter fun c => c.1 != name, fun c hc => t.aligned c (List.mem_filter.1 hc).1⟩

theorem column?_without {name other : String} (h : other ≠ name) :
    (t.without name).column? other = t.column? other := by
  unfold column? find? without
  rw [List.find?_filter]
  congr 2
  funext c
  by_cases hc : c.1 = other
  · simp [hc, h]
  · simp [hc]

section Dates

variable (h : t.without effectiveColumn = u.without effectiveColumn)
include h

theorem rows_eq_of_without : t.rows = u.rows := by
  have hrows := congrArg Table.rows h
  exact hrows

theorem column?_eq_of_without {name : String} (hname : name ≠ effectiveColumn) :
    t.column? name = u.column? name := by
  rw [← column?_without hname, h, column?_without hname]

theorem cell_eq_of_without {name : String} (hname : name ≠ effectiveColumn) (i : ℕ) :
    (t.row i).cell name = (u.row i).cell name := by
  have hcolumn := column?_eq_of_without h hname
  cases hc : t.column? name with
  | none => rw [cell_of_none hc, cell_of_none (hcolumn.symm.trans hc)]
  | some c => rw [cell_row hc, cell_row (hcolumn.symm.trans hc)]

theorem HasEventColumns.of_without (ht : t.HasEventColumns) : u.HasEventColumns := by
  have hhas : ∀ {name P}, name ≠ effectiveColumn → t.Has name P → u.Has name P :=
    fun hname ⟨c, hc, hP⟩ => ⟨c, (column?_eq_of_without h hname).symm.trans hc, hP⟩
  exact ⟨hhas (by decide) ht.ids, hhas (by decide) ht.instruments, hhas (by decide) ht.kinds,
    hhas (by decide) ht.announced⟩

end Dates

/-- The event without its effective date. -/
def undated (e : CorporateEvent) : CorporateEvent :=
  { e with effective := none }

theorem map_undated_event? (h : t.without effectiveColumn = u.without effectiveColumn) (i : ℕ) :
    (Row.event? (t.row i, i)).map undated = (Row.event? (u.row i, i)).map undated := by
  have hcell : ∀ {name}, name ≠ effectiveColumn → (t.row i).cell name = (u.row i).cell name :=
    fun hname => cell_eq_of_without h hname i
  have hid : (t.row i).text? "event_id" = (u.row i).text? "event_id" :=
    congrArg Datum.text? (hcell (by decide))
  have hinstrument : (t.row i).text? "instrument_id" = (u.row i).text? "instrument_id" :=
    congrArg Datum.text? (hcell (by decide))
  have hkind : (t.row i).text? "event_type" = (u.row i).text? "event_type" :=
    congrArg Datum.text? (hcell (by decide))
  have hannounced : (t.row i).instant? "announcement_date" = (u.row i).instant? "announcement_date" :=
    congrArg Datum.instant? (hcell (by decide))
  unfold Row.event? EventCells.event? Row.eventCells
  simp only [hid, hinstrument, hkind, hannounced]
  cases (u.row i).instant? "announcement_date" with
  | none => rfl
  | some announced =>
    cases (u.row i).text? "instrument_id" with
    | none => rfl
    | some instrument => rfl

theorem rowEvents_eq (t : Table) :
    t.rowEvents = (List.range t.rows).filterMap fun i => Row.event? (t.row i, i) := by
  have hzip : t.rowList.zipIdx = (List.range t.rows).map fun i => (t.row i, i) :=
    List.ext_getElem (by simp [rowList]) fun i hi hi' => by simp [rowList]
  rw [rowEvents, hzip, List.filterMap_map]
  rfl

theorem map_undated_rowEvents (h : t.without effectiveColumn = u.without effectiveColumn) :
    t.rowEvents.map undated = u.rowEvents.map undated := by
  rw [rowEvents_eq, rowEvents_eq, List.map_filterMap, List.map_filterMap, rows_eq_of_without h]
  exact List.filterMap_congr fun i _ => map_undated_event? h i

/-! ## The whole table -/

/-- A table whose event columns can be read gives one event of each row with an announcement and an
instrument, in order, and one notice with the number of the other rows, if there are any, provided
that the column of effective dates can be read or is absent; otherwise it gives nothing. The id that
a row gets for want of one is that of no other event unless a row brings that very id, and so the
event of a row that is alone with its id is an occurrence of its own in every rule. Effective dates
that are added or taken away change nothing else. -/
theorem events_row_by_row (t : Table) :
    (t.HasEventColumns ∧ t.HasReadableDates ↔ ∃ kept,
      t.events.run = (.ok kept, droppingEvents (t.rows - kept.length)) ∧
        List.Forall₂ EventOf t.eventRows kept) ∧
      (t.HasEventColumns → ¬ t.HasReadableDates → t.events.run = (.error .table, [])) ∧
      (∀ kept, t.events.run.1 = .ok kept →
        (∀ p ∈ t.eventRows.zip kept, ∀ q ∈ t.eventRows.zip kept, p.1.1.text? "event_id" = none →
          (p.2.id = q.2.id ↔
            p.1 = q.1 ∨ q.1.1.text? "event_id" = some ("EVT-" ++ Text.zeroPadded 6 p.1.2))) ∧
          ∀ trades accounts c engine, Rule.OccurApart trades accounts c engine kept
            (t.aloneEvents kept) (t.otherEvents kept)) ∧
      ∀ u : Table, t.without effectiveColumn = u.without effectiveColumn → t.HasEventColumns →
        t.HasReadableDates → u.HasReadableDates →
          ∃ xs ys notices, t.events.run = (.ok xs, notices) ∧ u.events.run = (.ok ys, notices) ∧
            xs.map undated = ys.map undated := by
  refine ⟨?_, fun h hdates => h.run_events_of_unreadable hdates, fun kept h => ?_,
    fun u h hcolumns ht hu => ?_⟩
  · rw [← hasEvents_iff]
    constructor
    · exact fun h => ⟨_, h.run_events, t.forall₂_eventOf⟩
    · rintro ⟨kept, h, -⟩
      exact hasEvents_of_result (congrArg Prod.fst h)
  · obtain rfl := eq_rowEvents_of_result h
    exact ⟨fun p hp q hq => id_eq_iff hp hq, t.apart_rowEvents.occurApart⟩
  · have hevents := map_undated_rowEvents h
    have hlength : t.rowEvents.length = u.rowEvents.length := by
      have hsame := congrArg List.length hevents
      rwa [List.length_map, List.length_map] at hsame
    refine ⟨_, _, _, (hasEvents_iff.2 ⟨hcolumns, ht⟩).run_events, ?_, hevents⟩
    rw [(hasEvents_iff.2 ⟨hcolumns.of_without h, hu⟩).run_events, hlength, rows_eq_of_without h]

/-- Four rows of events: the first has no announcement, and the third brings the id that the second
gets. -/
def filingColumns : List (String × Column) := [
  ("event_id", .text [none, none, some "EVT-000001", none]),
  ("instrument_id", .text [some "ACME", some "ACME", some "ACME", some "ZINC"]),
  ("event_type", .text [none, some "merger", none, none]),
  ("announcement_date", .int [none, some 0, some 86400000, some 172800000])]

def filings : Table where
  rows := 4
  columns := filingColumns
  aligned := by simp [filingColumns, Column.size]

/-- The same rows with effective dates. -/
def datedFilings : Table where
  rows := 4
  columns := filingColumns ++ [("event_date", .date [none, some 1, none, some 3])]
  aligned := by simp [filingColumns, Column.size]

/-- The same rows with flags for dates. -/
def flaggedFilings : Table where
  rows := 4
  columns := filingColumns ++ [("event_date", .flag [none, some true, none, none])]
  aligned := by simp [filingColumns, Column.size]

theorem events_row_by_row_filings :
    (∃ kept, filings.events.run = (.ok kept, [.droppedEvents 1]) ∧
      kept.map (·.id) = ["EVT-000001", "EVT-000001", "EVT-000003"] ∧
      (filings.aloneEvents kept).map (·.id) = ["EVT-000003"] ∧
      Rule.OccurApart [] [] {} (.ofConfig {} ⟨0, by decide⟩) kept (filings.aloneEvents kept)
        (filings.otherEvents kept)) ∧
      (∃ xs ys notices, filings.events.run = (.ok xs, notices) ∧
        datedFilings.events.run = (.ok ys, notices) ∧ xs.map undated = ys.map undated) ∧
      flaggedFilings.events.run = (.error .table, []) := by
  have hcolumns : filings.HasEventColumns :=
    ⟨⟨_, rfl, Column.isTextual_text _⟩, ⟨_, rfl, Column.isTextual_text _⟩,
      ⟨_, rfl, Column.isTextual_text _⟩, ⟨_, rfl, trivial⟩⟩
  have hundated : filings.HasReadableDates := fun c hc => by cases hc
  have hdated : datedFilings.HasReadableDates := fun c hc => by
    cases hc
    trivial
  have hflagged : flaggedFilings.HasEventColumns :=
    HasEventColumns.of_without (t := filings) (u := flaggedFilings) rfl hcolumns
  have hflags : ¬ flaggedFilings.HasReadableDates := fun h => h _ rfl
  have hrun : filings.events.run.1 = .ok filings.rowEvents := by
    rw [(hasEvents_iff.2 ⟨hcolumns, hundated⟩).run_events]
  refine ⟨⟨filings.rowEvents, ?_, ?_, ?_, ?_⟩, ?_, ?_⟩
  · rw [(hasEvents_iff.2 ⟨hcolumns, hundated⟩).run_events]
    decide +kernel
  · decide +kernel
  · decide +kernel
  · exact ((events_row_by_row filings).2.2.1 _ hrun).2 _ _ _ _
  · exact (events_row_by_row filings).2.2.2 datedFilings rfl hcolumns hundated hdated
  · exact (events_row_by_row flaggedFilings).2.1 hflagged hflags

/-- Readable event columns alone are not enough: with flags for dates no row is read, although three
of them have an announcement and an instrument. -/
theorem flaggedFilings_unread :
    flaggedFilings.HasEventColumns ∧ (flaggedFilings.row 1).keepsEvent = true ∧
      ¬ ∃ kept, flaggedFilings.events.run.1 = .ok kept := by
  refine ⟨⟨⟨_, rfl, Column.isTextual_text _⟩, ⟨_, rfl, Column.isTextual_text _⟩,
    ⟨_, rfl, Column.isTextual_text _⟩, ⟨_, rfl, trivial⟩⟩, by decide +kernel, ?_⟩
  rintro ⟨kept, h⟩
  exact (hasEvents_of_result h).effective _ rfl

end TradeWatch.Table

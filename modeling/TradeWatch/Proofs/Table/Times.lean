/-
The form in which times are stored does not matter. A column may count milliseconds, with any zone
or as plain integers, or coarser and finer units without a zone, or days, or have the texts of times
in UTC; where it stores the same times, to the millisecond, the records are the same. A missing cell
and a text that is no time leave the row without its time in the same way.
-/
import TradeWatch.Proofs.Table.Records
import TradeWatch.Proofs.Time.Text

namespace TradeWatch

open Time (Instant nanosPerDay nanosPerMilli)

/-! ## Cells that store a time -/

/-- An instant in whole milliseconds is known by their number. -/
theorem Time.Instant.ofMillis?_eq_some {t : Instant} {m : Int} (h : t.nanos = m * nanosPerMilli) :
    ofMillis? m = some t := by
  unfold ofMillis? ofNanos?
  rw [← h, dif_pos t.inCalendar]

/-- Times in whole milliseconds lose nothing, in whatever unit they are counted. -/
theorem Column.millisOf_eq (unit : Time.Resolution) {k m : Int}
    (h : k * nanosPerUnit unit = m * nanosPerMilli) : millisOf unit k = m := by
  unfold nanosPerMilli at h
  cases unit with
  | second =>
    simp only [nanosPerUnit, millisOf] at *
    omega
  | milli =>
    simp only [nanosPerUnit, millisOf] at *
    omega
  | micro =>
    have hk : k = m * 1000 := by
      simp only [nanosPerUnit] at h
      omega
    rw [millisOf, hk, Int.mul_tdiv_cancel _ (by decide)]
  | nano =>
    have hk : k = m * 1000000 := by
      simp only [nanosPerUnit] at h
      omega
    rw [millisOf, hk, Int.mul_tdiv_cancel _ (by decide)]

namespace Datum

/-- The cell counts the time in units of so many nanoseconds, or both are missing. -/
def CountedIn (size : Int) (x : Option Instant) (n : Option Int) : Prop :=
  x.map (·.nanos) = n.map (· * size)

/-- The cell stores the time, if there is one, in one of the forms that agree. -/
inductive Stores : Option Instant → Datum → Prop
  /-- Milliseconds, whatever the zone says. -/
  | millis {x n} (zone : Option String) (h : CountedIn nanosPerMilli x n) :
    Stores x (.time .milli zone n)
  | count {x n} (h : CountedIn nanosPerMilli x n) : Stores x (.int n)
  | micros {x n} (h : CountedIn 1000 x n) : Stores x (.time .micro none n)
  | nanos {x n} (h : CountedIn 1 x n) : Stores x (.time .nano none n)
  | seconds {x n} (h : CountedIn 1000000000 x n) : Stores x (.time .second none n)
  | midnight {x n} (h : CountedIn nanosPerDay x n) : Stores x (.date n)
  | utc {t s} (h : t.WritesUtc s) : Stores (some t) (.text (some s))
  | missing : Stores none (.text none)
  /-- A text without a reading as a time. -/
  | noTime {s} (h : Time.Stamp.read? s = none) : Stores none (.text (some s))

theorem CountedIn.bind_eq {size : Int} {x : Option Instant} {n : Option Int}
    (h : CountedIn size x n) (hwhole : ∀ t ∈ x, nanosPerMilli ∣ t.nanos) {f : Int → Int}
    (hf : ∀ k m, k * size = m * nanosPerMilli → f k = m) :
    (n.map f).bind Instant.ofMillis? = x := by
  unfold CountedIn at h
  cases n with
  | none =>
    rw [Option.map_none, Option.map_eq_none_iff] at h
    rw [h]
    rfl
  | some k =>
    obtain ⟨t, rfl, hk⟩ := Option.map_eq_some_iff.1 h
    obtain ⟨m, hm⟩ := hwhole t rfl
    rw [mul_comm] at hm
    rw [Option.map_some, Option.bind_some, hf k m (hk.symm.trans hm),
      Instant.ofMillis?_eq_some hm]

theorem instant?_text (s : String) :
    (Datum.text (some s)).instant? = (Column.millisOfText? s).bind Instant.ofMillis? :=
  rfl

theorem instant?_utc {t : Instant} {s : String} (h : t.WritesUtc s)
    (hwhole : nanosPerMilli ∣ t.nanos) : (Datum.text (some s)).instant? = some t := by
  rw [instant?_text, Column.millisOfText?_of_writesUtc h, Option.bind_some]
  exact Instant.ofMillis?_eq_some (Int.ediv_mul_cancel hwhole).symm

/-- Whatever the form, the time is read back to the millisecond. -/
theorem Stores.instant?_eq {x : Option Instant} {d : Datum} (h : Stores x d)
    (hwhole : ∀ t ∈ x, nanosPerMilli ∣ t.nanos) : d.instant? = x := by
  cases h with
  | millis zone h => exact h.bind_eq hwhole fun _ _ => Column.millisOf_eq .milli
  | micros h => exact h.bind_eq hwhole fun _ _ => Column.millisOf_eq .micro
  | nanos h => exact h.bind_eq hwhole fun _ _ => Column.millisOf_eq .nano
  | seconds h => exact h.bind_eq hwhole fun _ _ => Column.millisOf_eq .second
  | count h =>
    have hread := h.bind_eq hwhole (f := id) fun _ _ => Column.millisOf_eq .milli
    rwa [Option.map_id] at hread
  | midnight h =>
    exact h.bind_eq hwhole fun k m hkm => by
      unfold nanosPerMilli nanosPerDay at hkm
      omega
  | utc h => exact instant?_utc h (hwhole _ rfl)
  | missing => rfl
  | noTime h =>
    rw [instant?_text, Column.millisOfText?, h]
    rfl

theorem map_instant?_eq {xs : List (Option Instant)} {ds : List Datum}
    (h : List.Forall₂ Stores xs ds) (hwhole : ∀ x ∈ xs, ∀ t ∈ x, nanosPerMilli ∣ t.nanos) :
    ds.map instant? = xs := by
  induction h with
  | nil => rfl
  | cons hcell _ ih =>
    rw [List.map_cons, hcell.instant?_eq (hwhole _ List.mem_cons_self),
      ih fun x hx => hwhole x (List.mem_cons_of_mem _ hx)]

end Datum

/-- The column stores these times, all in one form. -/
structure Column.StoresTimes (xs : List (Option Instant)) (c : Column) : Prop where
  isTemporal : c.IsTemporal
  cells : List.Forall₂ Datum.Stores xs c.data

/-! ## Tables with times -/

namespace Table

variable {t u : Table} {table name : String} {xs : List (Option Instant)}

theorem rows_eq_length (h : t.Has name (·.StoresTimes xs)) : t.rows = xs.length := by
  obtain ⟨c, hc, hstores⟩ := h
  rw [← size_of_column? hc, ← c.length_data, hstores.cells.length_eq]

section Reading

variable (hwhole : ∀ x ∈ xs, ∀ t ∈ x, nanosPerMilli ∣ t.nanos)
include hwhole

/-- What is read of the rows are the times that are stored. -/
theorem map_instant?_rowList (h : t.Has name (·.StoresTimes xs)) :
    (t.rowList.map fun r => r.instant? name) = xs := by
  obtain ⟨c, hc, hstores⟩ := h
  rw [← Datum.map_instant?_eq hstores.cells hwhole, ← map_cell_rowList hc, List.map_map]
  rfl

theorem instants_eq_ok (h : t.Has name (·.StoresTimes xs)) : t.instants table name = .ok xs := by
  have hrows := map_instant?_rowList hwhole h
  obtain ⟨c, hc, hstores⟩ := h
  exact instants_eq_ok_iff.2 ⟨⟨c, hc, hstores.isTemporal⟩, hrows.symm⟩

theorem effectiveDates_eq_ok (h : t.Has effectiveColumn (·.StoresTimes xs)) :
    t.effectiveDates = .ok xs := by
  have hread : t.instants eventsTable effectiveColumn = .ok xs := instants_eq_ok hwhole h
  obtain ⟨c, hc, -⟩ := h
  unfold effectiveDates
  rw [hc]
  exact hread

end Reading

/-! ### The times of the records -/

/-- Records kept of some rows have a part of what the rows have. -/
theorem sublist_map_filterMap {α β γ : Type} {f : α → Option β} {g : β → γ} {h : α → γ}
    (hf : ∀ a b, f a = some b → g b = h a) (xs : List α) :
    ((xs.filterMap f).map g).Sublist (xs.map h) := by
  induction xs with
  | nil => exact .slnil
  | cons x xs ih =>
    cases hx : f x with
    | none =>
      rw [List.filterMap_cons_none hx]
      exact ih.cons _
    | some y =>
      rw [List.filterMap_cons_some hx, List.map_cons, List.map_cons, hf x y hx]
      exact ih.cons_cons _

/-- The times of the trades are among those of the rows, in their order. -/
theorem sublist_times {kept : List Trade} (h : t.trades.run.1 = .ok kept)
    (hxs : t.instants tradesTable "timestamp" = .ok xs) :
    (kept.map fun x => some x.time).Sublist xs := by
  rw [result_trades] at h
  obtain ⟨cells, hcells, rfl⟩ := map_eq_ok_iff.1 h
  obtain rfl : cells.map (·.time) = xs :=
    Except.ok.inj ((tradeCells_eq_ok_iff.1 hcells).times.symm.trans hxs)
  refine sublist_map_filterMap (fun c x hx => ?_) cells
  unfold TradeCells.trade? at hx
  obtain ⟨time, htime, hx⟩ := Option.bind_eq_some_iff.1 hx
  obtain ⟨instrument, -, hx⟩ := Option.bind_eq_some_iff.1 hx
  cases hx
  exact htime.symm

theorem times_of_event? {c : EventCells} {row : ℕ} {e : CorporateEvent}
    (h : c.event? row = some e) : some e.announced = c.announced ∧ e.effective = c.effective := by
  unfold EventCells.event? at h
  obtain ⟨announced, hannounced, h⟩ := Option.bind_eq_some_iff.1 h
  obtain ⟨instrument, -, h⟩ := Option.bind_eq_some_iff.1 h
  cases h
  exact ⟨hannounced.symm, rfl⟩

/-- What the events say from one cell of their rows is among what the rows have there. -/
theorem sublist_eventTimes {kept : List CorporateEvent} (h : t.events.run.1 = .ok kept)
    {g : CorporateEvent → Option Instant} {f : EventCells → Option Instant}
    (hfg : ∀ c row e, EventCells.event? c row = some e → g e = f c)
    (hxs : ∀ cells, HasEventCells t cells → cells.map f = xs) : (kept.map g).Sublist xs := by
  rw [result_events] at h
  obtain ⟨cells, hcells, rfl⟩ := map_eq_ok_iff.1 h
  have hrows : cells.zipIdx.map (fun p => f p.1) = xs := by
    rw [← hxs cells (eventCells_eq_ok_iff.1 hcells)]
    conv_rhs => rw [← List.zipIdx_map_fst 0 cells, List.map_map]
    rfl
  rw [← hrows]
  exact sublist_map_filterMap (fun p e he => hfg p.1 p.2 e he) _

theorem sublist_announced {kept : List CorporateEvent} (h : t.events.run.1 = .ok kept)
    (hxs : t.instants eventsTable "announcement_date" = .ok xs) :
    (kept.map fun e => some e.announced).Sublist xs :=
  sublist_eventTimes h (fun _ _ _ he => (times_of_event? he).1)
    fun _ hcells => Except.ok.inj (hcells.announced.symm.trans hxs)

theorem sublist_effective {kept : List CorporateEvent} (h : t.events.run.1 = .ok kept)
    (hxs : t.effectiveDates = .ok xs) : (kept.map fun e => e.effective).Sublist xs :=
  sublist_eventTimes h (fun _ _ _ he => (times_of_event? he).2)
    fun _ hcells => Except.ok.inj (hcells.effective.symm.trans hxs)

/-! ### One column in two forms -/

/-- The tables agree in every column but that of the name. -/
def AgreeBeside (t u : Table) (name : String) : Prop :=
  ∀ other, other ≠ name → t.column? other = u.column? other

section Forms

variable (hwhole : ∀ x ∈ xs, ∀ t ∈ x, nanosPerMilli ∣ t.nanos)
  (ht : t.Has name (·.StoresTimes xs)) (hu : u.Has name (·.StoresTimes xs))
  (hbeside : t.AgreeBeside u name)
include hwhole ht hu hbeside

theorem trades_eq_of_storesTimes (hname : name = "timestamp") : t.trades = u.trades := by
  subst hname
  have hcells : t.tradeCells = u.tradeCells := by
    unfold tradeCells
    rw [instants_eq_ok hwhole ht, instants_eq_ok hwhole hu,
      texts_congr (hbeside "trade_id" (by decide)),
      texts_congr (hbeside "instrument_id" (by decide)),
      texts_congr (hbeside "buy_account_id" (by decide)),
      texts_congr (hbeside "sell_account_id" (by decide)),
      reals_congr (hbeside "quantity" (by decide)), reals_congr (hbeside "price" (by decide)),
      reals_congr (hbeside "trade_value" (by decide))]
  unfold trades
  rw [hcells]

theorem effectiveDates_eq_of_storesTimes : t.effectiveDates = u.effectiveDates := by
  by_cases hname : name = effectiveColumn
  · subst hname
    rw [effectiveDates_eq_ok hwhole ht, effectiveDates_eq_ok hwhole hu]
  · have hcolumn := hbeside effectiveColumn (Ne.symm hname)
    unfold effectiveDates
    rw [instants_congr hcolumn, hcolumn, rows_eq_length ht, rows_eq_length hu]

theorem events_eq_of_storesTimes (hname : name = "announcement_date" ∨ name = effectiveColumn) :
    t.events = u.events := by
  have hannounced : t.instants eventsTable "announcement_date" =
      u.instants eventsTable "announcement_date" := by
    rcases hname with rfl | rfl
    · rw [instants_eq_ok hwhole ht, instants_eq_ok hwhole hu]
    · exact instants_congr (hbeside "announcement_date" (by decide))
  have htexts : ∀ other, other ≠ "announcement_date" → other ≠ effectiveColumn →
      t.texts eventsTable other = u.texts eventsTable other := by
    intro other h1 h2
    exact texts_congr (hbeside other (by rcases hname with rfl | rfl <;> assumption))
  have hcells : t.eventCells = u.eventCells := by
    rw [eventCells_eq, eventCells_eq, hannounced,
      effectiveDates_eq_of_storesTimes hwhole ht hu hbeside,
      htexts "event_id" (by decide) (by decide), htexts "instrument_id" (by decide) (by decide),
      htexts "event_type" (by decide) (by decide)]
  unfold events
  rw [hcells]

end Forms

/-- Two tables that store the same times under one name, each in its own form, and agree otherwise,
give the same records and the same notices. What is read are the times that are stored, so a row
whose time is missing, or is a text that is none, has no time in either; where the other columns can
be read, the records are there, and their times are among those that are stored. -/
theorem times_in_any_form {xs : List (Option Instant)}
    (hwhole : ∀ x ∈ xs, ∀ t ∈ x, nanosPerMilli ∣ t.nanos) {t u : Table} {name : String}
    (ht : t.Has name (·.StoresTimes xs)) (hu : u.Has name (·.StoresTimes xs))
    (hbeside : t.AgreeBeside u name) :
    (t.rowList.map fun r => r.instant? name) = xs ∧
      (u.rowList.map fun r => r.instant? name) = xs ∧
      (name = "timestamp" → t.trades.run = u.trades.run ∧
        (t.HasTrades → ∃ kept : List Trade,
          t.trades.run = (.ok kept, droppingTrades (xs.length - kept.length)) ∧
            (kept.map fun x => some x.time).Sublist xs)) ∧
      (name = "announcement_date" → t.events.run = u.events.run ∧
        (t.HasEvents → ∃ kept, t.events.run.1 = .ok kept ∧
          (kept.map fun e => some e.announced).Sublist xs)) ∧
      (name = "event_date" → t.events.run = u.events.run ∧
        (t.HasEvents → ∃ kept, t.events.run.1 = .ok kept ∧
          (kept.map fun e => e.effective).Sublist xs)) := by
  refine ⟨map_instant?_rowList hwhole ht, map_instant?_rowList hwhole hu, fun hname => ⟨?_, ?_⟩,
    fun hname => ⟨?_, ?_⟩, fun hname => ⟨?_, ?_⟩⟩
  · rw [trades_eq_of_storesTimes hwhole ht hu hbeside hname]
  · subst hname
    intro h
    have hrun := h.run_trades
    rw [rows_eq_length ht] at hrun
    exact ⟨_, hrun, sublist_times (congrArg Prod.fst hrun) (instants_eq_ok hwhole ht)⟩
  · rw [events_eq_of_storesTimes hwhole ht hu hbeside (.inl hname)]
  · subst hname
    intro h
    obtain ⟨kept, hkept⟩ := h.exists_events
    exact ⟨kept, hkept, sublist_announced hkept (instants_eq_ok hwhole ht)⟩
  · rw [events_eq_of_storesTimes hwhole ht hu hbeside (.inr hname)]
  · subst hname
    intro h
    obtain ⟨kept, hkept⟩ := h.exists_events
    exact ⟨kept, hkept, sublist_effective hkept (effectiveDates_eq_ok hwhole ht)⟩

/-- The millisecond before 1970. -/
def lastMillisecond : Instant :=
  ⟨-1000000, by decide⟩

/-- 2024-03-01T10:00:00.25Z. -/
def quarterPastTen : Instant :=
  ⟨1709287200250000000, by decide⟩

/-- Four trades with these times. -/
def tradesAt (c : Column) (h : c.size = 4) : Table where
  rows := 4
  columns := [
    ("timestamp", c),
    ("trade_id", .text [some "T1", some "T2", some "T3", some "T4"]),
    ("instrument_id", .text [some "ACME", some "ACME", some "ACME", some "ACME"]),
    ("buy_account_id", .text [some "A1", some "A1", some "A1", some "A1"]),
    ("sell_account_id", .text [none, none, none, none]),
    ("quantity", .int [some 10, some 20, some 30, some 40]),
    ("price", .real [some 1.5, some 1.5, some 1.5, none]),
    ("trade_value", .blank 4)]
  aligned := List.forall_mem_cons.2 ⟨h, by simp [Column.size]⟩

def inMicroseconds : Column :=
  .time .micro none [some (-1000), some 1709287200250000, none, none]

/-- A text with zeros to spare, a missing one, and one that is no time. -/
def inTexts : Column :=
  .text [some lastMillisecond.text, some "2024-03-01 10:00:00.2500000000+00:00", none, some "soon"]

theorem agreeBeside_tradesAt (c d : Column) (hc : c.size = 4) (hd : d.size = 4) :
    (tradesAt c hc).AgreeBeside (tradesAt d hd) "timestamp" := by
  intro other hother
  unfold column? find? tradesAt
  simp only [List.find?_cons, beq_false_of_ne (Ne.symm hother)]

theorem writesUtc_quarterPastTen :
    quarterPastTen.WritesUtc "2024-03-01 10:00:00.2500000000+00:00" := by
  have hshape : "2024-03-01 10:00:00.2500000000+00:00" =
      Time.dateText ⟨2024, 3, 1⟩ ++ String.singleton ' ' ++ Time.clockDigits 10 0 0 ++
        ".2500000000" ++ "+00:00" := by decide +kernel
  rw [hshape]
  refine @Time.Instant.WritesUtc.intro quarterPastTen ⟨2024, 3, 1⟩ 10 0 0 250000000 ' ' _ _
    (by decide) (by decide) (by decide) (by decide) (by decide) (by decide) (.inr ?_) (by decide)
    (by decide)
  exact ⟨"2500000000".toList, by decide, by decide, by decide, by decide⟩

theorem hasTrades_tradesAt {c : Column} (h : c.size = 4) (hc : c.IsTemporal) :
    (tradesAt c h).HasTrades where
  ids := ⟨_, rfl, Column.isTextual_text _⟩
  times := ⟨c, rfl, hc⟩
  instruments := ⟨_, rfl, Column.isTextual_text _⟩
  buyers := ⟨_, rfl, Column.isTextual_text _⟩
  sellers := ⟨_, rfl, Column.isTextual_text _⟩
  quantities := ⟨_, rfl, trivial⟩
  prices := ⟨_, rfl, trivial⟩
  values := ⟨_, rfl, trivial⟩

theorem times_in_any_form_twoForms :
    (∀ x ∈ [some lastMillisecond, some quarterPastTen, none, none], ∀ t ∈ x,
      nanosPerMilli ∣ t.nanos) ∧
      inMicroseconds.StoresTimes [some lastMillisecond, some quarterPastTen, none, none] ∧
      inTexts.StoresTimes [some lastMillisecond, some quarterPastTen, none, none] ∧
      ∃ kept : List Trade,
        (tradesAt inMicroseconds rfl).trades.run = (.ok kept, droppingTrades (4 - kept.length)) ∧
          (tradesAt inTexts rfl).trades.run = (.ok kept, droppingTrades (4 - kept.length)) := by
  have hwhole : ∀ x ∈ [some lastMillisecond, some quarterPastTen, none, none], ∀ t ∈ x,
      nanosPerMilli ∣ t.nanos := by
    simp only [List.forall_mem_cons, Option.mem_some_iff, forall_eq']
    exact ⟨by decide, by decide, by simp⟩
  have hcounts : inMicroseconds.StoresTimes
      [some lastMillisecond, some quarterPastTen, none, none] :=
    ⟨trivial, .cons (.micros rfl) (.cons (.micros rfl) (.cons (.micros rfl)
      (.cons (.micros rfl) .nil)))⟩
  have htexts : inTexts.StoresTimes [some lastMillisecond, some quarterPastTen, none, none] :=
    ⟨trivial, .cons (.utc (Time.Instant.writesUtc_text (by decide)))
      (.cons (.utc writesUtc_quarterPastTen) (.cons .missing
        (.cons (.noTime (by decide +kernel)) .nil)))⟩
  obtain ⟨-, -, htrades, -⟩ := times_in_any_form hwhole (t := tradesAt inMicroseconds rfl)
    (u := tradesAt inTexts rfl) ⟨_, rfl, hcounts⟩ ⟨_, rfl, htexts⟩
    (agreeBeside_tradesAt _ _ rfl rfl)
  obtain ⟨hsame, hkept⟩ := htrades rfl
  obtain ⟨kept, hrun, -⟩ := hkept (hasTrades_tradesAt rfl trivial)
  exact ⟨hwhole, hcounts, htexts, kept, hrun, hsame ▸ hrun⟩

end Table

end TradeWatch

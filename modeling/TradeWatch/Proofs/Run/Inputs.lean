/-
What loaded inputs are like, whatever the sources hold. There are no more trades than rows of their
table, the relations of an account are different ids, and every event was announced at a whole
millisecond: times in columns are read to the millisecond, and made-up events fall on midnight.
Without an event table the seed alone decides what is made up.
-/
import TradeWatch.Proofs.Alert.Stored
import TradeWatch.Proofs.Relations.Canonical
import TradeWatch.Proofs.Synthesis.Weeks
import TradeWatch.Proofs.Table.Reading

namespace TradeWatch

open Time (Instant nanosPerDay)

/-! ## Whole milliseconds -/

theorem Time.Instant.floorMillis_of_ofMillis? {n : Int} {t : Instant} (h : ofMillis? n = some t) :
    t.floorMillis = t := by
  unfold ofMillis? ofNanos? at h
  split at h
  · cases h
    simp only [floorMillis, mk.injEq, millis]
    unfold nanosPerMilli
    omega
  · cases h

theorem Time.Instant.floorMillis_of_midnight {t : Instant} {day : Int}
    (h : t.nanos = day * nanosPerDay) : t.floorMillis = t := by
  refine eq_of_nanos_eq ?_
  change t.nanos / nanosPerMilli * nanosPerMilli = t.nanos
  unfold nanosPerMilli
  unfold nanosPerDay at h
  omega

theorem Column.floorMillis_of_toInstants {c : Column} {xs : List (Option Instant)}
    (h : c.toInstants = .ok xs) {t : Instant} (ht : some t ∈ xs) : t.floorMillis = t := by
  unfold toInstants at h
  obtain ⟨cells, -, rfl⟩ := map_eq_ok_iff.1 h
  obtain ⟨cell, -, hcell⟩ := List.mem_map.1 ht
  obtain ⟨n, -, hn⟩ := Option.bind_eq_some_iff.1 hcell
  exact Instant.floorMillis_of_ofMillis? hn

/-- The events of a table are announced at whole milliseconds. -/
theorem Table.floorMillis_of_events {t : Table} {events : List CorporateEvent}
    (h : t.events.run.1 = .ok events) : ∀ e ∈ events, e.announced.floorMillis = e.announced := by
  rw [Table.result_events, map_eq_ok_iff] at h
  obtain ⟨cells, hcells, rfl⟩ := h
  rw [eventCells_eq_ok_iff] at hcells
  obtain ⟨column, -, hread⟩ := bind_eq_ok_iff.1 hcells.announced
  intro e he
  obtain ⟨⟨c, row⟩, hc, he⟩ := List.mem_filterMap.1 he
  have hannounced : c.announced = some e.announced := by
    unfold EventCells.event? at he
    obtain ⟨announced, ha, he⟩ := Option.bind_eq_some_iff.1 he
    obtain ⟨instrument, -, he⟩ := Option.bind_eq_some_iff.1 he
    cases he
    exact ha
  refine Column.floorMillis_of_toInstants hread ?_
  rw [← hannounced]
  exact List.mem_map_of_mem (List.fst_mem_of_mem_zipIdx hc)

/-- Made-up events are announced at midnight. -/
theorem Synthesis.floorMillis_of_events? {trades : List Trade} {g g' : Random.Generator}
    {events : List CorporateEvent} (h : events? trades g = some (events, g')) :
    ∀ e ∈ events, e.announced.floorMillis = e.announced := by
  intro e he
  obtain ⟨instrument, first, last, scheduled, -, hscheduled, he⟩ := exists_scheduled_of_mem h he
  obtain ⟨number, day, hannounces, -⟩ := hscheduled.exists_announces he
  exact Instant.floorMillis_of_midnight hannounces.announced

/-! ## Relations -/

theorem Table.nodup_related {t : Table} {accounts : List Account} (h : t.accounts = .ok accounts) :
    ∀ a ∈ accounts, a.related.Nodup := by
  unfold Table.accounts at h
  obtain ⟨ids, -, h⟩ := bind_eq_ok_iff.1 h
  obtain ⟨owners, -, h⟩ := bind_eq_ok_iff.1 h
  obtain ⟨firms, -, h⟩ := bind_eq_ok_iff.1 h
  obtain ⟨related, -, h⟩ := bind_eq_ok_iff.1 h
  cases h
  intro a ha
  obtain ⟨⟨id, owner, firm, cell⟩, -, ha⟩ := List.mem_filterMap.1 ha
  obtain ⟨id, -, rfl⟩ := Option.map_eq_some_iff.1 ha
  cases cell with
  | none => exact List.nodup_nil
  | some cell => exact Relations.nodup_parse cell

/-! ## Inputs from memory -/

namespace Detector

variable {d : Detector} {s : MemoryStore}

theorem required_eq_ok_iff {name : String} {columns : List String} {u : Table} :
    required s name columns = .ok u ↔
      ∃ t, s.sources.get? name = some t ∧ t.project name columns = .ok u := by
  unfold required
  rw [bind_eq_ok_iff]
  change (∃ loaded, MemoryStore.load? s name columns = .ok loaded ∧ _) ↔ _
  unfold MemoryStore.load?
  cases s.sources.get? name with
  | none =>
    constructor
    · rintro ⟨loaded, h, hu⟩
      cases h
      cases hu
    · rintro ⟨t, h, -⟩
      cases h
  | some t =>
    constructor
    · rintro ⟨loaded, h, hu⟩
      obtain ⟨v, hv, rfl⟩ := map_eq_ok_iff.1 h
      cases hu
      exact ⟨t, rfl, hv⟩
    · rintro ⟨t', ht', h⟩
      cases ht'
      exact ⟨some u, map_eq_ok_iff.2 ⟨u, h, rfl⟩, rfl⟩

/-- An event table is read with the columns it has. -/
theorem loadEvents_of_present {t : Table} (h : s.sources.get? eventsTable = some t)
    (entropy : UInt64) (trades : List Trade) :
    d.loadEvents s entropy trades = (do
      let t ← Logged.ofExcept (t.project eventsTable (eventColumnsOf t))
      return (← t.events, .loaded)) := by
  have hwhole : t.project eventsTable [] = .ok t := rfl
  unfold loadEvents
  simp only [TableStore.load?, MemoryStore.load?, h, hwhole]
  rfl

theorem length_le_rows_of_loadTrades {trades : List Trade}
    (h : (loadTrades s).run.1 = .ok trades) :
    ∃ t, s.sources.get? tradesTable = some t ∧ trades.length ≤ t.rows := by
  unfold loadTrades at h
  rw [Logged.result_bind _ Table.appends_trades] at h
  obtain ⟨u, hu, h⟩ := bind_eq_ok_iff.1 h
  obtain ⟨t, ht, hproject⟩ := required_eq_ok_iff.1 hu
  rw [Table.result_trades, map_eq_ok_iff] at h
  obtain ⟨cells, hcells, rfl⟩ := h
  refine ⟨t, ht, ?_⟩
  calc (cells.filterMap Table.TradeCells.trade?).length ≤ cells.length :=
        List.length_filterMap_le _ _
    _ = u.rows := (Table.tradeCells_eq_ok_iff.1 hcells).length_eq
    _ = t.rows := Table.rows_project hproject

theorem nodup_related_of_loadAccounts {accounts : List Account}
    (h : loadAccounts s = .ok accounts) : ∀ a ∈ accounts, a.related.Nodup := by
  unfold loadAccounts at h
  obtain ⟨u, -, h⟩ := bind_eq_ok_iff.1 h
  exact Table.nodup_related h

theorem floorMillis_of_loadEvents {entropy : UInt64} {trades : List Trade}
    {events : List CorporateEvent} {source : EventSource}
    (h : (d.loadEvents s entropy trades).run.1 = .ok (events, source)) :
    ∀ e ∈ events, e.announced.floorMillis = e.announced := by
  cases ht : s.sources.get? eventsTable with
  | none =>
    rw [loadEvents_of_missing ht] at h
    split at h
    · rename_i hevents
      cases h
      exact Synthesis.floorMillis_of_events? hevents
    · cases h
  | some t =>
    rw [loadEvents_of_present ht, Logged.result_bind _ fun u => u.appends_events.bind fun _ =>
      Logged.appends_pure _] at h
    obtain ⟨u, -, h⟩ := bind_eq_ok_iff.1 h
    rw [Logged.result_bind _ fun _ => Logged.appends_pure _] at h
    obtain ⟨loaded, hloaded, h⟩ := bind_eq_ok_iff.1 h
    cases h
    exact Table.floorMillis_of_events hloaded

/-- The entropy matters only if events are made up without a seed. -/
theorem loadEvents_eq_of_seeded
    (h : (s.sources.get? eventsTable).isSome ∨ d.config.syntheticEventSeed.isSome)
    (entropy entropy' : UInt64) (trades : List Trade) :
    d.loadEvents s entropy trades = d.loadEvents s entropy' trades := by
  cases ht : s.sources.get? eventsTable with
  | some t => rw [loadEvents_of_present ht, loadEvents_of_present ht]
  | none =>
    rw [ht] at h
    have hseed : d.seed entropy = d.seed entropy' := by
      obtain ⟨seed, hs⟩ := Option.isSome_iff_exists.1 (h.resolve_left nofun)
      unfold Detector.seed
      rw [hs]
    unfold loadEvents
    rw [hseed]

end Detector

end TradeWatch

/-
The tables of candidates. A table is said by its rows here: the cell of each column at a position,
read the way the columns of sources are. The table of some candidates records them one by one, with
their doubles bit by bit and their times exactly, since a candidate takes its time from an event and
events are known to the millisecond. A candidate counts trades, buyers or related accounts of one
window, so no count is greater than the number of trades.
-/
import TradeWatch.Proofs.Evidence
import TradeWatch.Proofs.Time.Text
import TradeWatch.Proofs.Window
import TradeWatch.Rule.Tables
import TradeWatch.Table.Cast

namespace TradeWatch

open Time (Instant)

/-! ## Rows -/

/-- A cell of a candidate. -/
inductive Cell
  | text (s : String)
  | int (n : Int)
  | real (x : Float)
  | moment (t : Instant)
  | texts (xs : List String)

/-- The cell at a position, if it is there and of a type that candidates have. -/
def Column.cell? : Column → Nat → Option Cell
  | text cells, i => cells[i]?.join.map .text
  | int cells, i => cells[i]?.join.map .int
  | real cells, i => cells[i]?.join.map .real
  | time unit _ cells, i =>
    (cells[i]?.join.bind fun n => Instant.ofMillis? (millisOf unit n)).map .moment
  | texts cells, i => cells[i]?.join.map .texts
  | _, _ => none

/-- The rows of the table, each with the names and cells of its columns. -/
structure Table.Records (t : Table) (rows : List (List (String × Cell))) : Prop where
  count : t.rows = rows.length
  row : ∀ i (h : i < rows.length),
    (t.columns.map fun c => (c.1, c.2.cell? i)) = rows[i].map fun f => (f.1, some f.2)

namespace Column

variable {α : Type} {rows : List α} {i : Nat}

theorem cell?_ofTexts (f : α → String) (h : i < rows.length) :
    (ofTexts (rows.map f)).cell? i = some (.text (f rows[i])) := by
  simp [ofTexts, cell?, h]

theorem cell?_ofCounts (f : α → Nat) (h : i < rows.length) :
    (ofCounts (rows.map f)).cell? i = some (.int (f rows[i])) := by
  simp [ofCounts, cell?, h]

theorem cell?_ofReals (f : α → Float) (h : i < rows.length) :
    (ofReals (rows.map f)).cell? i = some (.real (f rows[i])) := by
  simp [ofReals, cell?, h]

theorem cell?_ofLists (f : α → List String) (h : i < rows.length) :
    (ofLists (rows.map f)).cell? i = some (.texts (f rows[i])) := by
  simp [ofLists, cell?, h]

/-- A whole number of milliseconds in a year of four digits comes back from a column. -/
theorem cell?_ofInstants (f : α → Instant) (h : i < rows.length)
    (hyear : Time.hasPlainYear (f rows[i]).date.year)
    (hmillis : (f rows[i]).floorMillis = f rows[i]) :
    (ofInstants (rows.map f)).cell? i = some (.moment (f rows[i])) := by
  have hread : Instant.ofMillis? (f rows[i]).millis = some (f rows[i]) := by
    rw [Instant.ofMillis?_millis, hmillis]
  simp [ofInstants, cell?, h, storedMillis?_eq, hyear, millisOf, hread]

end Column

namespace Rule

/-- The time of a candidate can be recorded: its year has four digits, and it has no part below the
millisecond. -/
structure Recordable (t : Instant) : Prop where
  year : 0 ≤ t.date.year ∧ t.date.year ≤ 9999
  millis : t.floorMillis = t

theorem Recordable.cell?_ofInstants {α : Type} {rows : List α} {f : α → Instant}
    (h : ∀ c ∈ rows, Recordable (f c)) {i : Nat} (hi : i < rows.length) :
    (Column.ofInstants (rows.map f)).cell? i = some (.moment (f rows[i])) := by
  have hrow := h rows[i] (List.getElem_mem hi)
  exact Column.cell?_ofInstants f hi (decide_eq_true hrow.year) hrow.millis

/-! ## The fields of a candidate -/

def PreAnnouncementCandidate.fields (c : PreAnnouncementCandidate) : List (String × Cell) := [
  ("event_id", .text c.event),
  ("instrument_id", .text c.instrument),
  ("account_id", .text c.account),
  ("announcement_date", .moment c.announced),
  ("trade_count", .int c.trades),
  ("pre_window_volume", .real c.volume),
  ("baseline_mean_daily_volume", .real c.baselineMean),
  ("baseline_std_daily_volume", .real c.baselineDeviation),
  ("volume_ratio", .real c.volumeRatio)]

def NetworkCandidate.fields (c : NetworkCandidate) : List (String × Cell) := [
  ("event_id", .text c.event),
  ("instrument_id", .text c.instrument),
  ("account_id", .text c.account),
  ("announcement_date", .moment c.announced),
  ("related_active", .texts c.related),
  ("related_count", .int c.relatedCount)]

def ProfitCandidate.fields (c : ProfitCandidate) : List (String × Cell) := [
  ("event_id", .text c.event),
  ("instrument_id", .text c.instrument),
  ("account_id", .text c.account),
  ("announcement_date", .moment c.announced),
  ("avg_buy_price", .real c.averageBuyPrice),
  ("post_avg_price", .real c.averagePostPrice),
  ("return_pct", .real c.gain),
  ("quantity", .real c.quantity)]

def LeakageCandidate.fields (c : LeakageCandidate) : List (String × Cell) := [
  ("event_id", .text c.event),
  ("instrument_id", .text c.instrument),
  ("announcement_date", .moment c.announced),
  ("account_count", .int c.accounts),
  ("total_volume", .real c.volume),
  ("top_account", .text c.topAccount)]

theorem PreAnnouncementCandidate.records_table {rows : List PreAnnouncementCandidate}
    (h : ∀ c ∈ rows, Recordable c.announced) :
    (Tabular.table rows).Records (rows.map fields) := by
  refine ⟨(List.length_map _).symm, fun i hi => ?_⟩
  rw [List.length_map] at hi
  rw [List.getElem_map]
  simp only [Tabular.table, fields, List.map_cons, List.map_nil, Column.cell?_ofTexts _ hi,
    Column.cell?_ofCounts _ hi, Column.cell?_ofReals _ hi, Recordable.cell?_ofInstants h hi]

theorem NetworkCandidate.records_table {rows : List NetworkCandidate}
    (h : ∀ c ∈ rows, Recordable c.announced) :
    (Tabular.table rows).Records (rows.map fields) := by
  refine ⟨(List.length_map _).symm, fun i hi => ?_⟩
  rw [List.length_map] at hi
  rw [List.getElem_map]
  simp only [Tabular.table, fields, List.map_cons, List.map_nil, Column.cell?_ofTexts _ hi,
    Column.cell?_ofCounts _ hi, Column.cell?_ofLists _ hi, Recordable.cell?_ofInstants h hi]

theorem ProfitCandidate.records_table {rows : List ProfitCandidate}
    (h : ∀ c ∈ rows, Recordable c.announced) :
    (Tabular.table rows).Records (rows.map fields) := by
  refine ⟨(List.length_map _).symm, fun i hi => ?_⟩
  rw [List.length_map] at hi
  rw [List.getElem_map]
  simp only [Tabular.table, fields, List.map_cons, List.map_nil, Column.cell?_ofTexts _ hi,
    Column.cell?_ofReals _ hi, Recordable.cell?_ofInstants h hi]

theorem LeakageCandidate.records_table {rows : List LeakageCandidate}
    (h : ∀ c ∈ rows, Recordable c.announced) :
    (Tabular.table rows).Records (rows.map fields) := by
  refine ⟨(List.length_map _).symm, fun i hi => ?_⟩
  rw [List.length_map] at hi
  rw [List.getElem_map]
  simp only [Tabular.table, fields, List.map_cons, List.map_nil, Column.cell?_ofTexts _ hi,
    Column.cell?_ofCounts _ hi, Column.cell?_ofReals _ hi, Recordable.cell?_ofInstants h hi]

/-! ## Counts -/

section Counts

variable {trades : List Trade} {accounts : List Account} {event : CorporateEvent}
  {instrument : String} {start stop : Instant} {length : Int}

theorem length_window_le :
    ((TradeIndex.ofTrades trades).window instrument start stop).length ≤ trades.length := by
  rw [TradeIndex.window_ofTrades, List.length_mergeSort]
  exact List.length_filter_le _ _

theorem trades_le_of_mem_buyActivity {rows : List Trade} {a : BuyActivity}
    (h : a ∈ buyActivity rows) : a.trades ≤ rows.length := by
  unfold buyActivity grouped at h
  rw [List.map_map] at h
  obtain ⟨account, -, rfl⟩ := List.mem_map.1 h
  exact (List.length_filter_le _ _).trans (List.length_filter_le _ _)

theorem length_buyers_le (rows : List Trade) : (buyers rows).length ≤ rows.length := by
  have hsub : (rows.filter hasBuyer).map (·.buyer) ⊆ rows.map (·.buyer) :=
    List.map_subset _ List.filter_sublist.subset
  refine length_ascending_le hsub ?_
  rw [List.length_map]

theorem length_buyActivity_le (rows : List Trade) : (buyActivity rows).length ≤ rows.length := by
  rw [length_buyActivity]
  exact length_buyers_le rows

/-- A candidate of the event, with a count that is at most the number of trades. -/
structure OfEvent (trades : List Trade) (event : CorporateEvent) (announced : Instant)
    (count : Nat) : Prop where
  announced : announced = event.announced
  count : count ≤ trades.length

theorem PreAnnouncementCandidate.ofEvent_of_mem {baselines : List (String × VolumeBaseline)}
    {multiplier : Float} {c : PreAnnouncementCandidate}
    (h : c ∈ ofEvent (.ofTrades trades) baselines multiplier length event) :
    OfEvent trades event c.announced c.trades := by
  unfold ofEvent at h
  split at h
  · cases h
  obtain ⟨a, ha, rfl⟩ := List.mem_map.1 (List.mem_filter.1 h).1
  exact ⟨rfl, (trades_le_of_mem_buyActivity ha).trans length_window_le⟩

theorem NetworkCandidate.nodup_relations (h : ∀ a ∈ accounts, a.related.Nodup) (id : String) :
    (relations accounts id).Nodup := by
  unfold relations
  split
  · exact List.nodup_nil
  · rename_i a ha
    exact h a (List.mem_filter.1 (List.mem_of_getLast? ha)).1

/-- The related accounts of a candidate are different buyers of one window. -/
theorem NetworkCandidate.ofEvent_of_mem (hnodup : ∀ a ∈ accounts, a.related.Nodup)
    {c : NetworkCandidate} (h : c ∈ ofEvent (.ofTrades trades) accounts length event) :
    OfEvent trades event c.announced c.relatedCount := by
  rw [ofEvent_eq_filterMap] at h
  split at h
  · cases h
  rename_i start _
  obtain ⟨account, -, h⟩ := List.mem_filterMap.1 h
  unfold ofBuyer? at h
  simp only at h
  split at h
  · cases h
  cases h
  refine ⟨rfl, ?_⟩
  have hdistinct : ((relations accounts account).filter fun r => r != account &&
      (buyers ((TradeIndex.ofTrades trades).window event.instrument start
        event.announced)).contains r).Nodup :=
    (nodup_relations hnodup account).filter _
  have hbuyers : ((relations accounts account).filter fun r => r != account &&
      (buyers ((TradeIndex.ofTrades trades).window event.instrument start
        event.announced)).contains r) ⊆
      buyers ((TradeIndex.ofTrades trades).window event.instrument start event.announced) := by
    intro r hr
    obtain ⟨-, hr⟩ := List.mem_filter.1 hr
    rw [Bool.and_eq_true, List.contains_iff_mem] at hr
    exact hr.2
  calc _ ≤ _ := (hdistinct.subperm hbuyers).length_le
    _ ≤ _ := length_buyers_le _
    _ ≤ _ := length_window_le

theorem LeakageCandidate.ofEvent_of_eq_some {leastAccounts : Nat} {c : LeakageCandidate}
    (h : ofEvent? (.ofTrades trades) leastAccounts length event = some c) :
    OfEvent trades event c.announced c.accounts := by
  unfold ofEvent? at h
  split at h
  · cases h
  simp only at h
  split at h
  · cases h
  · cases h
    exact ⟨rfl, (length_buyActivity_le _).trans length_window_le⟩

end Counts

end Rule

end TradeWatch

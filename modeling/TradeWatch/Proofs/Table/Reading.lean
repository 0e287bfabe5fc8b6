/-
Tables read column by column. A column is read into as many cells as it has, so the rows of a table
of trades or events are given by what their columns read as, and the columns by the rows. Choosing
columns changes nothing about what the chosen names mean.
-/
import TradeWatch.Proofs.FirstFailure
import TradeWatch.Proofs.Run.Loading

namespace TradeWatch

/-! ## As many cells as there are -/

namespace Column

theorem length_toTexts {c : Column} {xs : List (Option String)} (h : c.toTexts = .ok xs) :
    xs.length = c.size := by
  unfold toTexts at h
  split at h
  case h_6 => exact length_of_mapM_eq_ok h
  case h_5 => exact length_of_mapM_eq_ok h
  case h_7 =>
    split at h
    · cases h
    · exact length_of_mapM_eq_ok h
  all_goals
    cases h
    simp [size]

theorem length_toReals {c : Column} {xs : List (Option Float)} (h : c.toReals = .ok xs) :
    xs.length = c.size := by
  unfold toReals at h
  split at h <;> cases h <;> simp [size]

theorem length_toInstants {c : Column} {xs : List (Option Time.Instant)}
    (h : c.toInstants = .ok xs) : xs.length = c.size := by
  unfold toInstants at h
  rw [map_eq_ok_iff] at h
  obtain ⟨cells, hcells, rfl⟩ := h
  rw [List.length_map]
  unfold toMillis at hcells
  split at hcells <;> cases hcells <;> simp [size]

end Column

namespace Table

variable {t u : Table} {table name : String}

theorem size_of_column {c : Column} (h : t.column table name = .ok c) : c.size = t.rows := by
  unfold column column? at h
  cases hf : t.find? name with
  | none =>
    rw [hf] at h
    cases h
  | some named =>
    rw [hf] at h
    cases h
    exact t.aligned named (List.mem_of_find?_eq_some hf)

theorem length_texts {xs : List (Option String)} (h : t.texts table name = .ok xs) :
    xs.length = t.rows := by
  obtain ⟨c, hc, hxs⟩ := bind_eq_ok_iff.1 h
  rw [Column.length_toTexts hxs, size_of_column hc]

theorem length_reals {xs : List (Option Float)} (h : t.reals table name = .ok xs) :
    xs.length = t.rows := by
  obtain ⟨c, hc, hxs⟩ := bind_eq_ok_iff.1 h
  rw [Column.length_toReals hxs, size_of_column hc]

theorem length_instants {xs : List (Option Time.Instant)}
    (h : t.instants table name = .ok xs) : xs.length = t.rows := by
  obtain ⟨c, hc, hxs⟩ := bind_eq_ok_iff.1 h
  rw [Column.length_toInstants hxs, size_of_column hc]

/-! ## Chosen columns -/

/-- Among the columns picked for some names each of these names means what it meant before, and any
other means nothing. -/
theorem find?_pick {names : List String}
    {cs : { cs : List (String × Column) // ∀ c ∈ cs, c.2.size = t.rows }}
    (h : t.pick table names = .ok cs) (name : String) :
    cs.1.find? (fun c => c.1 == name) = if name ∈ names then t.find? name else none := by
  induction names generalizing cs with
  | nil =>
    cases h
    rfl
  | cons other names ih =>
    unfold pick at h
    split at h
    · cases h
    · rename_i c hc
      obtain ⟨rest, hrest, h⟩ := bind_eq_ok_iff.1 h
      cases h
      unfold find? at hc
      have hname := List.find?_some hc
      rw [beq_iff_eq] at hname
      simp only [List.find?_cons, hname, List.mem_cons]
      by_cases hne : name = other
      · subst hne
        simp [find?, hc]
      · rw [beq_false_of_ne (Ne.symm hne), ih hrest]
        simp [hne]

theorem exists_pick {names : List String} (h : ∀ name ∈ names, (t.find? name).isSome) :
    ∃ cs, t.pick table names = .ok cs := by
  induction names with
  | nil => exact ⟨_, rfl⟩
  | cons name names ih =>
    obtain ⟨rest, hrest⟩ := ih fun other hother => h other (List.mem_cons_of_mem _ hother)
    unfold pick
    split
    · rename_i hnone
      have hsome := h name List.mem_cons_self
      rw [hnone] at hsome
      cases hsome
    · rw [hrest]
      exact ⟨_, rfl⟩

theorem column?_project {names : List String} (hne : names ≠ [])
    (h : t.project table names = .ok u) (name : String) :
    u.column? name = if name ∈ names then t.column? name else none := by
  unfold project at h
  rw [if_neg (by simpa using hne)] at h
  obtain ⟨cs, hcs, h⟩ := bind_eq_ok_iff.1 h
  cases h
  unfold column?
  rw [show (Table.find? ⟨t.rows, cs.1, cs.2⟩ name) = _ from find?_pick hcs name]
  split <;> rfl

theorem rows_project {names : List String} (h : t.project table names = .ok u) :
    u.rows = t.rows := by
  unfold project at h
  split at h
  · cases h
    rfl
  · obtain ⟨cs, -, h⟩ := bind_eq_ok_iff.1 h
    cases h
    rfl

theorem exists_project {names : List String} (h : ∀ name ∈ names, (t.column? name).isSome) :
    ∃ u, t.project table names = .ok u := by
  unfold project
  split
  · exact ⟨t, rfl⟩
  · have hpick : ∃ cs, t.pick table names = .ok cs := exists_pick fun name hname => by
      have hsome := h name hname
      unfold column? at hsome
      rwa [Option.isSome_map] at hsome
    obtain ⟨cs, hcs⟩ := hpick
    rw [hcs]
    exact ⟨_, rfl⟩

/-! ### What a name means decides how it is read -/

theorem column_congr (h : u.column? name = t.column? name) :
    u.column table name = t.column table name := by
  unfold column
  rw [h]

theorem texts_congr (h : u.column? name = t.column? name) :
    u.texts table name = t.texts table name := by
  unfold texts
  rw [column_congr h]

theorem reals_congr (h : u.column? name = t.column? name) :
    u.reals table name = t.reals table name := by
  unfold reals
  rw [column_congr h]

theorem instants_congr (h : u.column? name = t.column? name) :
    u.instants table name = t.instants table name := by
  unfold instants
  rw [column_congr h]

theorem isSome_of_column {c : Column} (h : t.column table name = .ok c) :
    (t.column? name).isSome := by
  unfold column at h
  cases hc : t.column? name with
  | none =>
    rw [hc] at h
    cases h
  | some c => rfl

theorem isSome_of_texts {xs : List (Option String)} (h : t.texts table name = .ok xs) :
    (t.column? name).isSome := by
  obtain ⟨c, hc, -⟩ := bind_eq_ok_iff.1 h
  exact isSome_of_column hc

theorem isSome_of_reals {xs : List (Option Float)} (h : t.reals table name = .ok xs) :
    (t.column? name).isSome := by
  obtain ⟨c, hc, -⟩ := bind_eq_ok_iff.1 h
  exact isSome_of_column hc

theorem isSome_of_instants {xs : List (Option Time.Instant)}
    (h : t.instants table name = .ok xs) : (t.column? name).isSome := by
  obtain ⟨c, hc, -⟩ := bind_eq_ok_iff.1 h
  exact isSome_of_column hc

/-! ## Rows of trades -/

/-- The columns of a table of trades read as the cells of these rows. -/
structure HasTradeCells (t : Table) (cells : List TradeCells) : Prop where
  ids : t.texts tradesTable "trade_id" = .ok (cells.map (·.id))
  times : t.instants tradesTable "timestamp" = .ok (cells.map (·.time))
  instruments : t.texts tradesTable "instrument_id" = .ok (cells.map (·.instrument))
  buyers : t.texts tradesTable "buy_account_id" = .ok (cells.map (·.buyer))
  sellers : t.texts tradesTable "sell_account_id" = .ok (cells.map (·.seller))
  quantities : t.reals tradesTable "quantity" = .ok (cells.map (·.quantity))
  prices : t.reals tradesTable "price" = .ok (cells.map (·.price))
  values : t.reals tradesTable "trade_value" = .ok (cells.map (·.value))

theorem HasTradeCells.tradeCells_eq {cells : List TradeCells} (h : HasTradeCells t cells) :
    t.tradeCells = .ok cells := by
  unfold tradeCells
  rw [h.ids, h.times, h.instruments, h.buyers, h.sellers, h.quantities, h.prices, h.values]
  simp only [Bind.bind, Except.bind, List.zip_map', List.map_map]
  exact congrArg Except.ok (List.map_id' cells)

/-- Columns of one length are those of some rows. -/
theorem exists_hasTradeCells {ids instruments buyers sellers : List (Option String)}
    {times : List (Option Time.Instant)} {quantities prices values : List (Option Float)}
    (hids : t.texts tradesTable "trade_id" = .ok ids)
    (htimes : t.instants tradesTable "timestamp" = .ok times)
    (hinstruments : t.texts tradesTable "instrument_id" = .ok instruments)
    (hbuyers : t.texts tradesTable "buy_account_id" = .ok buyers)
    (hsellers : t.texts tradesTable "sell_account_id" = .ok sellers)
    (hquantities : t.reals tradesTable "quantity" = .ok quantities)
    (hprices : t.reals tradesTable "price" = .ok prices)
    (hvalues : t.reals tradesTable "trade_value" = .ok values) :
    ∃ cells, HasTradeCells t cells := by
  have h1 := length_texts hids
  have h2 := length_instants htimes
  have h3 := length_texts hinstruments
  have h4 := length_texts hbuyers
  have h5 := length_texts hsellers
  have h6 := length_reals hquantities
  have h7 := length_reals hprices
  have h8 := length_reals hvalues
  refine ⟨((ids.zip (instruments.zip (buyers.zip sellers))).zip
    (times.zip (quantities.zip (prices.zip values)))).map fun p =>
      ⟨p.1.1, p.2.1, p.1.2.1, p.1.2.2.1, p.1.2.2.2, p.2.2.1, p.2.2.2.1, p.2.2.2.2⟩, ?_⟩
  -- the zipped rows give back each of the columns
  constructor
  · rw [hids]
    exact congrArg Except.ok (List.ext_getElem (by simp [*]) fun i _ _ => by simp)
  · rw [htimes]
    exact congrArg Except.ok (List.ext_getElem (by simp [*]) fun i _ _ => by simp)
  · rw [hinstruments]
    exact congrArg Except.ok (List.ext_getElem (by simp [*]) fun i _ _ => by simp)
  · rw [hbuyers]
    exact congrArg Except.ok (List.ext_getElem (by simp [*]) fun i _ _ => by simp)
  · rw [hsellers]
    exact congrArg Except.ok (List.ext_getElem (by simp [*]) fun i _ _ => by simp)
  · rw [hquantities]
    exact congrArg Except.ok (List.ext_getElem (by simp [*]) fun i _ _ => by simp)
  · rw [hprices]
    exact congrArg Except.ok (List.ext_getElem (by simp [*]) fun i _ _ => by simp)
  · rw [hvalues]
    exact congrArg Except.ok (List.ext_getElem (by simp [*]) fun i _ _ => by simp)

theorem tradeCells_eq_ok_iff {cells : List TradeCells} :
    t.tradeCells = .ok cells ↔ HasTradeCells t cells := by
  refine ⟨fun h => ?_, HasTradeCells.tradeCells_eq⟩
  have hread := h
  unfold tradeCells at hread
  obtain ⟨ids, hids, hread⟩ := bind_eq_ok_iff.1 hread
  obtain ⟨times, htimes, hread⟩ := bind_eq_ok_iff.1 hread
  obtain ⟨instruments, hinstruments, hread⟩ := bind_eq_ok_iff.1 hread
  obtain ⟨buyers, hbuyers, hread⟩ := bind_eq_ok_iff.1 hread
  obtain ⟨sellers, hsellers, hread⟩ := bind_eq_ok_iff.1 hread
  obtain ⟨quantities, hquantities, hread⟩ := bind_eq_ok_iff.1 hread
  obtain ⟨prices, hprices, hread⟩ := bind_eq_ok_iff.1 hread
  obtain ⟨values, hvalues, -⟩ := bind_eq_ok_iff.1 hread
  obtain ⟨cells', hcells⟩ := exists_hasTradeCells hids htimes hinstruments hbuyers hsellers
    hquantities hprices hvalues
  -- the rows that were read are the only ones with these columns
  obtain rfl : cells' = cells := Except.ok.inj (hcells.tradeCells_eq.symm.trans h)
  exact hcells

theorem HasTradeCells.length_eq {cells : List TradeCells} (h : HasTradeCells t cells) :
    cells.length = t.rows := by
  have hlength := length_texts h.ids
  rwa [List.length_map] at hlength

/-! ## Rows of events -/

/-- What the column of effective dates reads as, which is nothing where it is absent. -/
def effectiveDates (t : Table) : Except Fault (List (Option Time.Instant)) :=
  if (t.column? effectiveColumn).isSome then t.instants eventsTable effectiveColumn
  else .ok (List.replicate t.rows none)

theorem length_effectiveDates {xs : List (Option Time.Instant)} (h : t.effectiveDates = .ok xs) :
    xs.length = t.rows := by
  unfold effectiveDates at h
  split at h
  · exact length_instants h
  · cases h
    exact List.length_replicate

theorem eventCells_eq (t : Table) :
    t.eventCells = (do
      let ids ← t.texts eventsTable "event_id"
      let instruments ← t.texts eventsTable "instrument_id"
      let kinds ← t.texts eventsTable "event_type"
      let announced ← t.instants eventsTable "announcement_date"
      let effective ← t.effectiveDates
      .ok ((ids.zip (instruments.zip (kinds.zip (announced.zip effective)))).map
        fun (id, instrument, kind, announced, effective) =>
          ⟨id, instrument, kind, announced, effective⟩)) := by
  unfold eventCells effectiveDates
  by_cases h : (t.column? effectiveColumn).isSome
  · simp only [if_pos h]
  · simp only [if_neg h]

/-- The columns of a table of events read as the cells of these rows. -/
structure HasEventCells (t : Table) (cells : List EventCells) : Prop where
  ids : t.texts eventsTable "event_id" = .ok (cells.map (·.id))
  instruments : t.texts eventsTable "instrument_id" = .ok (cells.map (·.instrument))
  kinds : t.texts eventsTable "event_type" = .ok (cells.map (·.kind))
  announced : t.instants eventsTable "announcement_date" = .ok (cells.map (·.announced))
  effective : t.effectiveDates = .ok (cells.map (·.effective))

theorem HasEventCells.eventCells_eq {cells : List EventCells} (h : HasEventCells t cells) :
    t.eventCells = .ok cells := by
  rw [Table.eventCells_eq, h.ids, h.instruments, h.kinds, h.announced, h.effective]
  simp only [Bind.bind, Except.bind, List.zip_map', List.map_map]
  exact congrArg Except.ok (List.map_id' cells)

theorem exists_hasEventCells {ids instruments kinds : List (Option String)}
    {announced effective : List (Option Time.Instant)}
    (hids : t.texts eventsTable "event_id" = .ok ids)
    (hinstruments : t.texts eventsTable "instrument_id" = .ok instruments)
    (hkinds : t.texts eventsTable "event_type" = .ok kinds)
    (hannounced : t.instants eventsTable "announcement_date" = .ok announced)
    (heffective : t.effectiveDates = .ok effective) : ∃ cells, HasEventCells t cells := by
  have h1 := length_texts hids
  have h2 := length_texts hinstruments
  have h3 := length_texts hkinds
  have h4 := length_instants hannounced
  have h5 := length_effectiveDates heffective
  refine ⟨(ids.zip (instruments.zip (kinds.zip (announced.zip effective)))).map fun p =>
    ⟨p.1, p.2.1, p.2.2.1, p.2.2.2.1, p.2.2.2.2⟩, ?_⟩
  constructor
  · rw [hids]
    exact congrArg Except.ok (List.ext_getElem (by simp [*]) fun i _ _ => by simp)
  · rw [hinstruments]
    exact congrArg Except.ok (List.ext_getElem (by simp [*]) fun i _ _ => by simp)
  · rw [hkinds]
    exact congrArg Except.ok (List.ext_getElem (by simp [*]) fun i _ _ => by simp)
  · rw [hannounced]
    exact congrArg Except.ok (List.ext_getElem (by simp [*]) fun i _ _ => by simp)
  · rw [heffective]
    exact congrArg Except.ok (List.ext_getElem (by simp [*]) fun i _ _ => by simp)

theorem eventCells_eq_ok_iff {cells : List EventCells} :
    t.eventCells = .ok cells ↔ HasEventCells t cells := by
  refine ⟨fun h => ?_, HasEventCells.eventCells_eq⟩
  have hread := h
  rw [eventCells_eq] at hread
  obtain ⟨ids, hids, hread⟩ := bind_eq_ok_iff.1 hread
  obtain ⟨instruments, hinstruments, hread⟩ := bind_eq_ok_iff.1 hread
  obtain ⟨kinds, hkinds, hread⟩ := bind_eq_ok_iff.1 hread
  obtain ⟨announced, hannounced, hread⟩ := bind_eq_ok_iff.1 hread
  obtain ⟨effective, heffective, -⟩ := bind_eq_ok_iff.1 hread
  obtain ⟨cells', hcells⟩ := exists_hasEventCells hids hinstruments hkinds hannounced heffective
  obtain rfl : cells' = cells := Except.ok.inj (hcells.eventCells_eq.symm.trans h)
  exact hcells

/-! ## Records -/

theorem appends_trades (t : Table) : t.trades.Appends := by
  refine (Logged.appends_ofExcept _).bind fun cells => ?_
  dsimp only
  split
  · exact (Logged.appends_report _).bind fun _ => Logged.appends_pure _
  · exact Logged.appends_pure _

/-- The trades of a table, whatever is reported beside them. -/
theorem result_trades (t : Table) :
    t.trades.run.1 = t.tradeCells.map fun cells => cells.filterMap TradeCells.trade? := by
  unfold trades
  rw [Logged.run_bind]
  cases t.tradeCells with
  | error e => rfl
  | ok cells =>
    change (Logged.runFrom [] (ite _ _ _)).1 = _
    split
    · rfl
    · rfl

/-- The events of a table, whatever is reported beside them. -/
theorem result_events (t : Table) :
    t.events.run.1 = t.eventCells.map fun cells =>
      cells.zipIdx.filterMap fun (c, row) => c.event? row := by
  unfold events
  rw [Logged.run_bind]
  cases t.eventCells with
  | error e => rfl
  | ok cells =>
    change (Logged.runFrom [] (ite _ _ _)).1 = _
    split
    · rfl
    · rfl

end Table

end TradeWatch

/-
Runs over sources in memory that agree in what the rules read. Only the columns of fixed names are
loaded, each is the first of its name, and a record is made from the cells of its row; so two stores
whose tables read alike in the columns that matter, and can be read in the other ones, give inputs
of one essence, whatever else is in them.
-/
import TradeWatch.Proofs.Essentials
import TradeWatch.Proofs.Run.Anonymous
import TradeWatch.Proofs.Run.Inputs

namespace TradeWatch

/-! ## Cells that matter -/

/-- Both are read, and as the same. -/
def ReadAlike {α : Type} (x y : Except Fault α) : Prop :=
  ∃ a, x = .ok a ∧ y = .ok a

theorem ReadAlike.eq {α : Type} {x y : Except Fault α} {a b : α} (h : ReadAlike x y)
    (hx : x = .ok a) (hy : y = .ok b) : a = b := by
  obtain ⟨c, rfl, rfl⟩ := h
  exact (Except.ok.inj hx).symm.trans (Except.ok.inj hy)

/-- Both are read, as whatever. -/
def BothRead {α : Type} (x y : Except Fault α) : Prop :=
  (∃ a, x = .ok a) ∧ ∃ b, y = .ok b

instance {α : Type} [DecidableEq α] : (x y : Except Fault α) → Decidable (ReadAlike x y)
  | .ok a, .ok b =>
    decidable_of_iff (a = b) ⟨fun h => ⟨a, rfl, congrArg _ h.symm⟩, fun h => h.eq rfl rfl⟩
  | .ok _, .error _ => .isFalse nofun
  | .error _, _ => .isFalse nofun

instance {α : Type} : (x y : Except Fault α) → Decidable (BothRead x y)
  | .ok a, .ok b => .isTrue ⟨⟨a, rfl⟩, b, rfl⟩
  | .ok _, .error _ => .isFalse nofun
  | .error _, _ => .isFalse nofun

namespace Table

/-- The cells of a row of trades as far as the rules read them. -/
def TradeCells.essence (c : TradeCells) : TradeCells :=
  { c with id := none, seller := none, value := none }

theorem TradeCells.trade?_essence (c : TradeCells) :
    c.essence.trade?.map Trade.essence = c.trade?.map Trade.essence := by
  obtain ⟨id, time, instrument, buyer, seller, quantity, price, value⟩ := c
  cases time with
  | none => rfl
  | some time => cases instrument <;> rfl

/-- Rows of one essence make trades of one essence. -/
theorem filterMap_trade?_essence {cells cells' : List TradeCells}
    (h : cells.map TradeCells.essence = cells'.map TradeCells.essence) :
    (cells.filterMap TradeCells.trade?).map Trade.essence =
      (cells'.filterMap TradeCells.trade?).map Trade.essence := by
  have hmap : ∀ cells : List TradeCells, (cells.filterMap TradeCells.trade?).map Trade.essence =
      (cells.map TradeCells.essence).filterMap fun c => c.trade?.map Trade.essence := by
    intro cells
    rw [List.map_filterMap, List.filterMap_map]
    exact List.filterMap_congr fun c _ => c.trade?_essence.symm
  rw [hmap cells, h, hmap cells']

/-- The cells of a row of events as far as the rules read them. -/
def EventCells.essence (c : EventCells) : EventCells :=
  { c with kind := none, effective := none }

theorem EventCells.event?_essence (c : EventCells) (row : Nat) :
    (c.essence.event? row).map CorporateEvent.essence =
      (c.event? row).map CorporateEvent.essence := by
  obtain ⟨id, instrument, kind, announced, effective⟩ := c
  cases announced with
  | none => rfl
  | some announced => cases instrument <;> rfl

/-- An event without an id is named after its row, and the rows stay where they are. -/
theorem filterMap_event?_essence {cells cells' : List EventCells}
    (h : cells.map EventCells.essence = cells'.map EventCells.essence) :
    (cells.zipIdx.filterMap fun (c, row) => c.event? row).map CorporateEvent.essence =
      (cells'.zipIdx.filterMap fun (c, row) => c.event? row).map CorporateEvent.essence := by
  have hmap : ∀ cells : List EventCells,
      (cells.zipIdx.filterMap fun (c, row) => c.event? row).map CorporateEvent.essence =
        (cells.map EventCells.essence).zipIdx.filterMap fun (c, row) =>
          (c.event? row).map CorporateEvent.essence := by
    intro cells
    rw [List.map_filterMap, List.zipIdx_map, List.filterMap_map]
    exact List.filterMap_congr fun p _ => (p.1.event?_essence p.2).symm
  rw [hmap cells, h, hmap cells']

/-! ## Tables that agree -/

/-- Tables of trades that read alike in the columns that matter. -/
structure SameTrades (t u : Table) : Prop where
  times : ReadAlike (t.instants tradesTable "timestamp") (u.instants tradesTable "timestamp")
  instruments :
    ReadAlike (t.texts tradesTable "instrument_id") (u.texts tradesTable "instrument_id")
  buyers : ReadAlike (t.texts tradesTable "buy_account_id") (u.texts tradesTable "buy_account_id")
  quantities : ReadAlike (t.reals tradesTable "quantity") (u.reals tradesTable "quantity")
  prices : ReadAlike (t.reals tradesTable "price") (u.reals tradesTable "price")
  ids : BothRead (t.texts tradesTable "trade_id") (u.texts tradesTable "trade_id")
  sellers : BothRead (t.texts tradesTable "sell_account_id") (u.texts tradesTable "sell_account_id")
  values : BothRead (t.reals tradesTable "trade_value") (u.reals tradesTable "trade_value")

/-- Tables of accounts that read alike in the columns that matter. -/
structure SameAccounts (t u : Table) : Prop where
  ids : ReadAlike (t.texts accountsTable "account_id") (u.texts accountsTable "account_id")
  related : ReadAlike (t.texts accountsTable "related_accounts")
    (u.texts accountsTable "related_accounts")
  owners : BothRead (t.texts accountsTable "beneficial_owner_id")
    (u.texts accountsTable "beneficial_owner_id")
  firms : BothRead (t.texts accountsTable "firm_id") (u.texts accountsTable "firm_id")

/-- Tables of events that read alike in the columns that matter; effective dates may be absent. -/
structure SameEvents (t u : Table) : Prop where
  ids : ReadAlike (t.texts eventsTable "event_id") (u.texts eventsTable "event_id")
  instruments :
    ReadAlike (t.texts eventsTable "instrument_id") (u.texts eventsTable "instrument_id")
  announced : ReadAlike (t.instants eventsTable "announcement_date")
    (u.instants eventsTable "announcement_date")
  kinds : BothRead (t.texts eventsTable "event_type") (u.texts eventsTable "event_type")
  effective : BothRead t.effectiveDates u.effectiveDates

variable {t u : Table}

theorem map_tradeEssence_eq {cells cells' : List TradeCells}
    (htimes : cells.map (·.time) = cells'.map (·.time))
    (hinstruments : cells.map (·.instrument) = cells'.map (·.instrument))
    (hbuyers : cells.map (·.buyer) = cells'.map (·.buyer))
    (hquantities : cells.map (·.quantity) = cells'.map (·.quantity))
    (hprices : cells.map (·.price) = cells'.map (·.price)) :
    cells.map TradeCells.essence = cells'.map TradeCells.essence := by
  induction cells generalizing cells' with
  | nil =>
    rw [List.map_nil, eq_comm, List.map_eq_nil_iff] at htimes
    rw [htimes]
  | cons c cells ih =>
    cases cells' with
    | nil => cases htimes
    | cons c' cells' =>
      simp only [List.map_cons, List.cons.injEq] at *
      refine ⟨?_, ih htimes.2 hinstruments.2 hbuyers.2 hquantities.2 hprices.2⟩
      unfold TradeCells.essence
      rw [htimes.1, hinstruments.1, hbuyers.1, hquantities.1, hprices.1]

theorem SameTrades.exists_cells (h : t.SameTrades u) :
    ∃ cells cells', HasTradeCells t cells ∧ HasTradeCells u cells' ∧
      cells.map TradeCells.essence = cells'.map TradeCells.essence := by
  obtain ⟨times, htimes, htimes'⟩ := h.times
  obtain ⟨instruments, hinstruments, hinstruments'⟩ := h.instruments
  obtain ⟨buyers, hbuyers, hbuyers'⟩ := h.buyers
  obtain ⟨quantities, hquantities, hquantities'⟩ := h.quantities
  obtain ⟨prices, hprices, hprices'⟩ := h.prices
  obtain ⟨⟨ids, hids⟩, ids', hids'⟩ := h.ids
  obtain ⟨⟨sellers, hsellers⟩, sellers', hsellers'⟩ := h.sellers
  obtain ⟨⟨values, hvalues⟩, values', hvalues'⟩ := h.values
  obtain ⟨cells, hcells⟩ := exists_hasTradeCells hids htimes hinstruments hbuyers hsellers
    hquantities hprices hvalues
  obtain ⟨cells', hcells'⟩ := exists_hasTradeCells hids' htimes' hinstruments' hbuyers' hsellers'
    hquantities' hprices' hvalues'
  refine ⟨cells, cells', hcells, hcells', map_tradeEssence_eq ?_ ?_ ?_ ?_ ?_⟩
  · exact h.times.eq hcells.times hcells'.times
  · exact h.instruments.eq hcells.instruments hcells'.instruments
  · exact h.buyers.eq hcells.buyers hcells'.buyers
  · exact h.quantities.eq hcells.quantities hcells'.quantities
  · exact h.prices.eq hcells.prices hcells'.prices

theorem map_eventEssence_eq {cells cells' : List EventCells}
    (hids : cells.map (·.id) = cells'.map (·.id))
    (hinstruments : cells.map (·.instrument) = cells'.map (·.instrument))
    (hannounced : cells.map (·.announced) = cells'.map (·.announced)) :
    cells.map EventCells.essence = cells'.map EventCells.essence := by
  induction cells generalizing cells' with
  | nil =>
    rw [List.map_nil, eq_comm, List.map_eq_nil_iff] at hids
    rw [hids]
  | cons c cells ih =>
    cases cells' with
    | nil => cases hids
    | cons c' cells' =>
      simp only [List.map_cons, List.cons.injEq] at *
      refine ⟨?_, ih hids.2 hinstruments.2 hannounced.2⟩
      unfold EventCells.essence
      rw [hids.1, hinstruments.1, hannounced.1]

theorem SameEvents.exists_cells (h : t.SameEvents u) :
    ∃ cells cells', HasEventCells t cells ∧ HasEventCells u cells' ∧
      cells.map EventCells.essence = cells'.map EventCells.essence := by
  obtain ⟨ids, hids, hids'⟩ := h.ids
  obtain ⟨instruments, hinstruments, hinstruments'⟩ := h.instruments
  obtain ⟨announced, hannounced, hannounced'⟩ := h.announced
  obtain ⟨⟨kinds, hkinds⟩, kinds', hkinds'⟩ := h.kinds
  obtain ⟨⟨effective, heffective⟩, effective', heffective'⟩ := h.effective
  obtain ⟨cells, hcells⟩ := exists_hasEventCells hids hinstruments hkinds hannounced heffective
  obtain ⟨cells', hcells'⟩ :=
    exists_hasEventCells hids' hinstruments' hkinds' hannounced' heffective'
  refine ⟨cells, cells', hcells, hcells', map_eventEssence_eq ?_ ?_ ?_⟩
  · exact h.ids.eq hcells.ids hcells'.ids
  · exact h.instruments.eq hcells.instruments hcells'.instruments
  · exact h.announced.eq hcells.announced hcells'.announced

/-- An account as far as the rules read it, from the two cells that matter. -/
def accountOf? (cells : Option String × Option String) : Option Account :=
  cells.1.map fun id => ⟨id, none, none, (cells.2.map Relations.parse).getD []⟩

theorem exists_accounts {ids owners firms related : List (Option String)}
    (hids : t.texts accountsTable "account_id" = .ok ids)
    (howners : t.texts accountsTable "beneficial_owner_id" = .ok owners)
    (hfirms : t.texts accountsTable "firm_id" = .ok firms)
    (hrelated : t.texts accountsTable "related_accounts" = .ok related) :
    ∃ accounts, t.accounts = .ok accounts ∧
      accounts.map Account.essence = (ids.zip related).filterMap accountOf? := by
  have h1 := length_texts hids
  have h2 := length_texts howners
  have h3 := length_texts hfirms
  have h4 := length_texts hrelated
  have hpairs : ids.zip related =
      (ids.zip (owners.zip (firms.zip related))).map fun p => (p.1, p.2.2.2) :=
    List.ext_getElem (by simp [*]) fun i _ _ => by simp
  unfold accounts
  rw [hids, howners, hfirms, hrelated]
  refine ⟨_, rfl, ?_⟩
  rw [hpairs, List.map_filterMap, List.filterMap_map]
  refine List.filterMap_congr fun p _ => ?_
  obtain ⟨id, owner, firm, related⟩ := p
  cases id <;> rfl

theorem SameAccounts.exists_accounts (h : t.SameAccounts u) :
    ∃ accounts accounts', t.accounts = .ok accounts ∧ u.accounts = .ok accounts' ∧
      accounts.map Account.essence = accounts'.map Account.essence := by
  obtain ⟨ids, hids, hids'⟩ := h.ids
  obtain ⟨related, hrelated, hrelated'⟩ := h.related
  obtain ⟨⟨owners, howners⟩, owners', howners'⟩ := h.owners
  obtain ⟨⟨firms, hfirms⟩, firms', hfirms'⟩ := h.firms
  obtain ⟨accounts, haccounts, hessence⟩ := Table.exists_accounts hids howners hfirms hrelated
  obtain ⟨accounts', haccounts', hessence'⟩ :=
    Table.exists_accounts hids' howners' hfirms' hrelated'
  exact ⟨accounts, accounts', haccounts, haccounts', hessence.trans hessence'.symm⟩

/-! ## Chosen columns -/

/-- The columns of trades read as they do in the whole table. -/
theorem HasTradeCells.exists_project {cells : List TradeCells} (h : HasTradeCells t cells) :
    ∃ u, t.project tradesTable tradeColumns = .ok u ∧ HasTradeCells u cells := by
  have hpresent : ∀ name ∈ tradeColumns, (t.column? name).isSome := by
    intro name hname
    simp only [tradeColumns, List.mem_cons, List.not_mem_nil, or_false] at hname
    rcases hname with rfl | rfl | rfl | rfl | rfl | rfl | rfl | rfl
    · exact isSome_of_texts h.ids
    · exact isSome_of_instants h.times
    · exact isSome_of_texts h.instruments
    · exact isSome_of_texts h.buyers
    · exact isSome_of_texts h.sellers
    · exact isSome_of_reals h.quantities
    · exact isSome_of_reals h.prices
    · exact isSome_of_reals h.values
  obtain ⟨u, hu⟩ := Table.exists_project hpresent
  have hsame : ∀ name ∈ tradeColumns, u.column? name = t.column? name := by
    intro name hname
    rw [column?_project (by decide) hu, if_pos hname]
  refine ⟨u, hu, ?_⟩
  constructor
  · rw [texts_congr (hsame _ (by decide)), h.ids]
  · rw [instants_congr (hsame _ (by decide)), h.times]
  · rw [texts_congr (hsame _ (by decide)), h.instruments]
  · rw [texts_congr (hsame _ (by decide)), h.buyers]
  · rw [texts_congr (hsame _ (by decide)), h.sellers]
  · rw [reals_congr (hsame _ (by decide)), h.quantities]
  · rw [reals_congr (hsame _ (by decide)), h.prices]
  · rw [reals_congr (hsame _ (by decide)), h.values]

theorem exists_project_accounts {accounts : List Account} (h : t.accounts = .ok accounts) :
    ∃ u, t.project accountsTable accountColumns = .ok u ∧ u.accounts = .ok accounts := by
  have hread := h
  unfold Table.accounts at hread
  obtain ⟨ids, hids, hread⟩ := bind_eq_ok_iff.1 hread
  obtain ⟨owners, howners, hread⟩ := bind_eq_ok_iff.1 hread
  obtain ⟨firms, hfirms, hread⟩ := bind_eq_ok_iff.1 hread
  obtain ⟨related, hrelated, -⟩ := bind_eq_ok_iff.1 hread
  have hpresent : ∀ name ∈ accountColumns, (t.column? name).isSome := by
    intro name hname
    simp only [accountColumns, List.mem_cons, List.not_mem_nil, or_false] at hname
    rcases hname with rfl | rfl | rfl | rfl
    · exact isSome_of_texts hids
    · exact isSome_of_texts howners
    · exact isSome_of_texts hfirms
    · exact isSome_of_texts hrelated
  obtain ⟨u, hu⟩ := Table.exists_project hpresent
  have hsame : ∀ name ∈ accountColumns, u.column? name = t.column? name := by
    intro name hname
    rw [column?_project (by decide) hu, if_pos hname]
  refine ⟨u, hu, ?_⟩
  rw [← h]
  unfold Table.accounts
  rw [texts_congr (hsame "account_id" (by decide)),
    texts_congr (hsame "beneficial_owner_id" (by decide)),
    texts_congr (hsame "firm_id" (by decide)), texts_congr (hsame "related_accounts" (by decide))]

/-- The column of effective dates is chosen if it is there, and still absent if it is not. -/
theorem HasEventCells.exists_project {cells : List EventCells} (h : HasEventCells t cells) :
    ∃ u, t.project eventsTable (Detector.eventColumnsOf t) = .ok u ∧ HasEventCells u cells := by
  have hcolumns : ∀ name ∈ eventColumns, name ∈ Detector.eventColumnsOf t := by
    intro name hname
    unfold Detector.eventColumnsOf
    split
    · exact List.mem_append_left _ hname
    · exact hname
  have hpresent : ∀ name ∈ Detector.eventColumnsOf t, (t.column? name).isSome := by
    intro name hname
    have hname : name ∈ eventColumns ∨
        (t.column? effectiveColumn).isSome ∧ name = effectiveColumn := by
      unfold Detector.eventColumnsOf at hname
      split at hname
      · rename_i heffective
        rw [List.mem_append, List.mem_singleton] at hname
        exact hname.imp_right fun hname => ⟨heffective, hname⟩
      · exact .inl hname
    rcases hname with hname | ⟨heffective, rfl⟩
    · simp only [eventColumns, List.mem_cons, List.not_mem_nil, or_false] at hname
      rcases hname with rfl | rfl | rfl | rfl
      · exact isSome_of_texts h.ids
      · exact isSome_of_texts h.instruments
      · exact isSome_of_texts h.kinds
      · exact isSome_of_instants h.announced
    · exact heffective
  obtain ⟨u, hu⟩ := Table.exists_project hpresent
  have hne : Detector.eventColumnsOf t ≠ [] := List.ne_nil_of_mem (hcolumns "event_id" (by decide))
  have hsame : ∀ name ∈ eventColumns, u.column? name = t.column? name := by
    intro name hname
    rw [column?_project hne hu, if_pos (hcolumns name hname)]
  have heffective : u.column? effectiveColumn = t.column? effectiveColumn := by
    rw [column?_project hne hu]
    unfold Detector.eventColumnsOf
    by_cases hs : (t.column? effectiveColumn).isSome
    · rw [if_pos hs, if_pos (by decide)]
    · rw [if_neg hs, if_neg (by decide), eq_comm, ← Option.not_isSome_iff_eq_none]
      exact hs
  refine ⟨u, hu, ?_⟩
  constructor
  · rw [texts_congr (hsame _ (by decide)), h.ids]
  · rw [texts_congr (hsame _ (by decide)), h.instruments]
  · rw [texts_congr (hsame _ (by decide)), h.kinds]
  · rw [instants_congr (hsame _ (by decide)), h.announced]
  · rw [← h.effective]
    unfold effectiveDates
    rw [heffective, instants_congr heffective, rows_project hu]

end Table

/-! ## Loading from memory -/

namespace Detector

variable {d d' : Detector} {s s' : MemoryStore} {t : Table}

theorem loadTrades_of_hasTradeCells (ht : s.sources.get? tradesTable = some t)
    {cells : List Table.TradeCells} (h : t.HasTradeCells cells) :
    (loadTrades s).run.1 = .ok (cells.filterMap Table.TradeCells.trade?) := by
  obtain ⟨u, hu, hcells⟩ := h.exists_project
  unfold loadTrades
  rw [Logged.result_bind _ Table.appends_trades, required_eq_ok_iff.2 ⟨t, ht, hu⟩]
  change u.trades.run.1 = _
  rw [Table.result_trades, hcells.tradeCells_eq]
  rfl

theorem loadAccounts_of_accounts (ht : s.sources.get? accountsTable = some t)
    {accounts : List Account} (h : t.accounts = .ok accounts) : loadAccounts s = .ok accounts := by
  obtain ⟨u, hu, haccounts⟩ := Table.exists_project_accounts h
  unfold loadAccounts
  rw [required_eq_ok_iff.2 ⟨t, ht, hu⟩]
  exact haccounts

theorem loadEvents_of_hasEventCells (ht : s.sources.get? eventsTable = some t)
    {cells : List Table.EventCells} (h : t.HasEventCells cells) (entropy : UInt64)
    (trades : List Trade) :
    (d.loadEvents s entropy trades).run.1 =
      .ok (cells.zipIdx.filterMap fun (c, row) => c.event? row, .loaded) := by
  obtain ⟨u, hu, hcells⟩ := h.exists_project
  rw [loadEvents_of_present ht, hu]
  change (u.events >>= fun events => return (events, EventSource.loaded) : Logged _).run.1 = _
  rw [Logged.result_bind _ fun _ => Logged.appends_pure _, Table.result_events,
    hcells.eventCells_eq]
  rfl

end Detector

/-- The three sources are there in both stores and agree in what matters. -/
structure MemoryStore.SameSources (s s' : MemoryStore) : Prop where
  trades : ∃ t u, s.sources.get? tradesTable = some t ∧ s'.sources.get? tradesTable = some u ∧
    t.SameTrades u
  accounts : ∃ t u, s.sources.get? accountsTable = some t ∧
    s'.sources.get? accountsTable = some u ∧ t.SameAccounts u
  events : ∃ t u, s.sources.get? eventsTable = some t ∧ s'.sources.get? eventsTable = some u ∧
    t.SameEvents u

namespace Detector

variable {s s' : MemoryStore}

/-- Both stores load, and the inputs have one essence. -/
theorem exists_loads (h : s.SameSources s') (d d' : Detector) (entropy entropy' : UInt64) :
    ∃ inputs inputs', d.Loads s entropy inputs ∧ d'.Loads s' entropy' inputs' ∧
      inputs.SameEssence inputs' ∧ inputs.source = inputs'.source := by
  obtain ⟨t, u, ht, hu, htrades⟩ := h.trades
  obtain ⟨cells, cells', hcells, hcells', hessence⟩ := htrades.exists_cells
  obtain ⟨ta, ua, hta, hua, haccounts⟩ := h.accounts
  obtain ⟨accounts, accounts', hread, hread', hrelations⟩ := haccounts.exists_accounts
  obtain ⟨te, ue, hte, hue, hevents⟩ := h.events
  obtain ⟨rows, rows', hrows, hrows', hannounced⟩ := hevents.exists_cells
  refine ⟨⟨_, _, _, _⟩, ⟨_, _, _, _⟩, ⟨loadTrades_of_hasTradeCells ht hcells,
      loadAccounts_of_accounts hta hread, loadEvents_of_hasEventCells hte hrows _ _⟩,
    ⟨loadTrades_of_hasTradeCells hu hcells', loadAccounts_of_accounts hua hread',
      loadEvents_of_hasEventCells hue hrows' _ _⟩, ⟨?_, ?_, ?_⟩, rfl⟩
  · exact Table.filterMap_trade?_essence hessence
  · exact hrelations
  · exact Table.filterMap_event?_essence hannounced

/-- Irrelevant data never reaches the result. Runs at one time over sources that agree in what the
rules read, with settings that agree in what they read, return the same but for ids and timings, or
the same fault, and write the same tables but for ids. -/
theorem run_blind_to_irrelevance {d d' : Detector} (hs : s.SameSources s')
    (hc : d.config.SameEffect d'.config) {context context' : RunContext}
    (htime : context.time = context'.time) :
    (d.run s context).result.map Report.anonymous =
        (d'.run s' context').result.map Report.anonymous ∧
      ∃ done done', List.Forall₂ Output.SameWritten done done' ∧
        (d.run s context).store = s.writeEach done ∧
        (d'.run s' context').store = s'.writeEach done' := by
  obtain ⟨inputs, inputs', hl, hl', hessence, hsource⟩ :=
    exists_loads hs d d' context.entropy context'.entropy
  have hsave : d.config.saveIntermediates = d'.config.saveIntermediates := by
    rw [hc]
  have hfindings : d.SameFindings d' inputs inputs' context context' := by
    refine ⟨?_, hsource, htime⟩
    unfold findings
    rw [htime]
    exact Findings.ofInputs_congr hessence hc _
  obtain ⟨done, done', hdone, -, hstore, hstore', hwritten⟩ :=
    Output.writeAll_of_samePlanned (hfindings.samePlanned hsave) s s'
  refine ⟨?_, done, done', hdone, hl.run_eq.1.trans hstore, hl'.run_eq.1.trans hstore'⟩
  rw [hl.run_eq.2, hl'.run_eq.2, hwritten]
  cases (Output.writeAll s' (d'.planned inputs' context')).2 with
  | error e => rfl
  | ok _ => exact congrArg Except.ok hfindings.anonymous_reportOf

/-! ### A store with much beside -/

/-- One purchase, with columns in another order, some that nobody reads, a second price, and nothing
to be read of the columns that do not matter. -/
def crowdedTrades : Table :=
  ⟨1, [
    ("price", .ofReals [2.0]),
    ("venue", .ofTexts ["XNYS"]),
    ("quantity", .ofReals [10.0]),
    ("price", .ofTexts ["ninety"]),
    ("trade_value", .ofTexts ["much"]),
    ("sell_account_id", .blank 1),
    ("buy_account_id", .ofTexts ["A1"]),
    ("instrument_id", .ofTexts ["ACME"]),
    ("timestamp", .time .milli none [some 1699990000000]),
    ("trade_id", .ofCounts [7])], by decide⟩

/-- The event of the sample with another type and a date on which it takes effect. -/
def crowdedEvents : Table :=
  ⟨1, [
    ("event_date", .time .milli none [some 1800000000000]),
    ("announcement_date", .time .milli none [some 1700000000000]),
    ("event_type", .ofTexts ["spin-off"]),
    ("instrument_id", .ofTexts ["ACME"]),
    ("event_id", .ofTexts ["E1"])], by decide⟩

def plainStore : MemoryStore :=
  ((MemoryStore.empty.insert tradesTable MemoryStore.sampleTrades).insert accountsTable
    MemoryStore.sampleAccounts).insert eventsTable (MemoryStore.sampleEvents ["E1"])

def crowdedStore : MemoryStore :=
  (((MemoryStore.empty.insert tradesTable crowdedTrades).insert accountsTable
    MemoryStore.sampleAccounts).insert eventsTable crowdedEvents).insert "prices" crowdedTrades

def plainDetector : Detector :=
  ⟨{ abnormalVolumeMultiplier := 0.5, minSuspiciousEvents := 1, saveIntermediates := true },
    by decide +kernel⟩

def crowdedDetector : Detector :=
  ⟨{ plainDetector.config with
      abnormalReturnThreshold := 9.0
      severityLowOccurrences := 4
      syntheticEventSeed := some 11 }, by decide +kernel⟩

theorem sameSources_crowdedStore : plainStore.SameSources crowdedStore where
  trades := by
    refine ⟨MemoryStore.sampleTrades, crowdedTrades, rfl, rfl, ?_⟩
    constructor <;> decide +kernel
  accounts := by
    refine ⟨MemoryStore.sampleAccounts, MemoryStore.sampleAccounts, rfl, rfl, ?_⟩
    constructor <;> decide +kernel
  events := by
    refine ⟨MemoryStore.sampleEvents ["E1"], crowdedEvents, rfl, rfl, ?_⟩
    constructor <;> decide +kernel

theorem run_blind_to_irrelevance_crowdedStore :
    let context : RunContext := ⟨⟨1700000000000000000, by decide⟩, fun i => toString i, 0⟩
    let context' : RunContext :=
      { context with alertId := fun i => "A" ++ toString i, entropy := 5 }
    (plainDetector.run plainStore context).result.map (·.alerts.length) = .ok 1 ∧
      (plainDetector.run plainStore context).result.map Report.anonymous =
        (crowdedDetector.run crowdedStore context').result.map Report.anonymous ∧
      ∃ done done', List.Forall₂ Output.SameWritten done done' ∧
        (plainDetector.run plainStore context).store = plainStore.writeEach done ∧
        (crowdedDetector.run crowdedStore context').store = crowdedStore.writeEach done' := by
  intro context context'
  have hsettings : plainDetector.config.SameEffect crowdedDetector.config := rfl
  have htime : context.time = context'.time := rfl
  refine ⟨by decide +kernel, ?_⟩
  exact run_blind_to_irrelevance sameSources_crowdedStore hsettings htime

end Detector

end TradeWatch

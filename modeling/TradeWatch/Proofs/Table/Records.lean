/-
Records row by row. The trades of a table are the rows that have a time and an instrument, in their
order, and what such a trade says comes from its own row; the rows left out are reported once, with
their number, if there are any. The accounts are the rows with an id. Hence the records of two tables
put together are those of the first followed by those of the second.
-/
import TradeWatch.Proofs.Table.Cells

namespace TradeWatch.Table

/-- Records made of the rows that are kept, one of each. -/
theorem forall₂_filterMap {α β : Type} {f : α → Option β} {keeps : α → Bool} {R : α → β → Prop}
    (hkeeps : ∀ a, (f a).isSome = keeps a) (hR : ∀ a b, f a = some b → R a b) (xs : List α) :
    List.Forall₂ R (xs.filter keeps) (xs.filterMap f) := by
  induction xs with
  | nil => exact .nil
  | cons x xs ih =>
    cases hx : f x with
    | none =>
      have hdropped : keeps x = false := by rw [← hkeeps, hx]; rfl
      rw [List.filter_cons_of_neg (by simp [hdropped]), List.filterMap_cons_none hx]
      exact ih
    | some y =>
      have hkept : keeps x = true := by rw [← hkeeps, hx]; rfl
      rw [List.filter_cons_of_pos hkept, List.filterMap_cons_some hx]
      exact .cons (hR x y hx) ih

variable {t u whole : Table}

/-! ## Trades -/

/-- The table has the columns of trades, and they can be read as such. -/
structure HasTrades (t : Table) : Prop where
  ids : t.Has "trade_id" Column.IsTextual
  times : t.Has "timestamp" Column.IsTemporal
  instruments : t.Has "instrument_id" Column.IsTextual
  buyers : t.Has "buy_account_id" Column.IsTextual
  sellers : t.Has "sell_account_id" Column.IsTextual
  quantities : t.Has "quantity" Column.IsNumeric
  prices : t.Has "price" Column.IsNumeric
  values : t.Has "trade_value" Column.IsNumeric

def Row.keepsTrade (r : Row) : Bool :=
  (r.instant? "timestamp").isSome && (r.text? "instrument_id").isSome

/-- The trade is that of the row: missing texts are empty, a missing quantity or price is zero, and
a missing value is the product of the two. -/
structure TradeOf (r : Row) (x : Trade) : Prop where
  time : r.instant? "timestamp" = some x.time
  instrument : r.text? "instrument_id" = some x.instrument
  id : x.id = (r.text? "trade_id").getD ""
  buyer : x.buyer = (r.text? "buy_account_id").getD ""
  seller : x.seller = (r.text? "sell_account_id").getD ""
  quantity : x.quantity = (r.real? "quantity").getD 0.0
  price : x.price = (r.real? "price").getD 0.0
  value : x.value = (r.real? "trade_value").getD (x.quantity * x.price)

/-- What is reported of rows that are left out. -/
def droppingTrades (count : ℕ) : List Notice :=
  if count = 0 then [] else [.droppedTrades count]

def Row.tradeCells (r : Row) : TradeCells where
  id := r.text? "trade_id"
  time := r.instant? "timestamp"
  instrument := r.text? "instrument_id"
  buyer := r.text? "buy_account_id"
  seller := r.text? "sell_account_id"
  quantity := r.real? "quantity"
  price := r.real? "price"
  value := r.real? "trade_value"

theorem isSome_trade? (r : Row) : r.tradeCells.trade?.isSome = r.keepsTrade := by
  unfold TradeCells.trade? Row.keepsTrade Row.tradeCells
  cases r.instant? "timestamp" with
  | none => rfl
  | some time =>
    cases r.text? "instrument_id" with
    | none => rfl
    | some instrument => rfl

theorem tradeOf_of_trade? (r : Row) (x : Trade) (h : r.tradeCells.trade? = some x) :
    TradeOf r x := by
  unfold TradeCells.trade? at h
  obtain ⟨time, htime, h⟩ := Option.bind_eq_some_iff.1 h
  obtain ⟨instrument, hinstrument, h⟩ := Option.bind_eq_some_iff.1 h
  cases h
  exact ⟨htime, hinstrument, rfl, rfl, rfl, rfl, rfl, rfl⟩

theorem HasTrades.hasTradeCells (h : t.HasTrades) :
    HasTradeCells t (t.rowList.map Row.tradeCells) := by
  constructor
  · exact texts_eq_ok_iff.2 ⟨h.ids, List.map_map⟩
  · exact instants_eq_ok_iff.2 ⟨h.times, List.map_map⟩
  · exact texts_eq_ok_iff.2 ⟨h.instruments, List.map_map⟩
  · exact texts_eq_ok_iff.2 ⟨h.buyers, List.map_map⟩
  · exact texts_eq_ok_iff.2 ⟨h.sellers, List.map_map⟩
  · exact reals_eq_ok_iff.2 ⟨h.quantities, List.map_map⟩
  · exact reals_eq_ok_iff.2 ⟨h.prices, List.map_map⟩
  · exact reals_eq_ok_iff.2 ⟨h.values, List.map_map⟩

theorem HasTradeCells.hasTrades {cells : List TradeCells} (h : HasTradeCells t cells) :
    t.HasTrades where
  ids := (texts_eq_ok_iff.1 h.ids).1
  times := (instants_eq_ok_iff.1 h.times).1
  instruments := (texts_eq_ok_iff.1 h.instruments).1
  buyers := (texts_eq_ok_iff.1 h.buyers).1
  sellers := (texts_eq_ok_iff.1 h.sellers).1
  quantities := (reals_eq_ok_iff.1 h.quantities).1
  prices := (reals_eq_ok_iff.1 h.prices).1
  values := (reals_eq_ok_iff.1 h.values).1

/-- The trades that a table of trades has. -/
def rowTrades (t : Table) : List Trade :=
  t.rowList.filterMap fun r => r.tradeCells.trade?

/-- A table of trades gives its trades, and reports what it leaves out. -/
theorem HasTrades.run_trades (h : t.HasTrades) :
    t.trades.run = (.ok t.rowTrades, droppingTrades (t.rows - t.rowTrades.length)) := by
  have hrows : (t.rowList.map Row.tradeCells).filterMap TradeCells.trade? = t.rowTrades :=
    List.filterMap_map
  unfold trades
  rw [Logged.run_bind, h.hasTradeCells.tradeCells_eq]
  change Logged.runFrom [] (ite _ _ _) = _
  rw [hrows, List.length_map, length_rowList]
  unfold droppingTrades
  by_cases hkept : t.rows - t.rowTrades.length = 0
  · rw [if_neg (not_not.2 hkept), if_pos hkept]
    rfl
  · rw [if_pos hkept, if_neg hkept]
    rfl

theorem hasTrades_of_run {kept : List Trade} {notices : List Notice}
    (h : t.trades.run = (.ok kept, notices)) : t.HasTrades := by
  have hresult := t.result_trades.symm.trans (congrArg Prod.fst h)
  obtain ⟨cells, hcells, -⟩ := map_eq_ok_iff.1 hresult
  exact (tradeCells_eq_ok_iff.1 hcells).hasTrades

theorem forall₂_tradeOf (t : Table) :
    List.Forall₂ TradeOf (t.rowList.filter Row.keepsTrade) t.rowTrades :=
  forall₂_filterMap isSome_trade? tradeOf_of_trade? t.rowList

/-! ## Accounts -/

structure HasAccounts (t : Table) : Prop where
  ids : t.Has "account_id" Column.IsTextual
  owners : t.Has "beneficial_owner_id" Column.IsTextual
  firms : t.Has "firm_id" Column.IsTextual
  related : t.Has "related_accounts" Column.IsTextual

def Row.keepsAccount (r : Row) : Bool :=
  (r.text? "account_id").isSome

structure AccountOf (r : Row) (x : Account) : Prop where
  id : r.text? "account_id" = some x.id
  owner : x.owner = r.text? "beneficial_owner_id"
  firm : x.firm = r.text? "firm_id"
  related : x.related = ((r.text? "related_accounts").map Relations.parse).getD []

def Row.account? (r : Row) : Option Account :=
  (r.text? "account_id").map fun id =>
    ⟨id, r.text? "beneficial_owner_id", r.text? "firm_id",
      ((r.text? "related_accounts").map Relations.parse).getD []⟩

theorem accountOf_of_account? (r : Row) (x : Account) (h : r.account? = some x) :
    AccountOf r x := by
  obtain ⟨id, hid, rfl⟩ := Option.map_eq_some_iff.1 h
  exact ⟨hid, rfl, rfl, rfl⟩

def rowAccounts (t : Table) : List Account :=
  t.rowList.filterMap Row.account?

theorem HasAccounts.accounts_eq (h : t.HasAccounts) : t.accounts = .ok t.rowAccounts := by
  unfold accounts
  rw [texts_eq_ok_iff.2 ⟨h.ids, rfl⟩, texts_eq_ok_iff.2 ⟨h.owners, rfl⟩,
    texts_eq_ok_iff.2 ⟨h.firms, rfl⟩, texts_eq_ok_iff.2 ⟨h.related, rfl⟩]
  simp only [Bind.bind, Except.bind, List.zip_map', List.filterMap_map]
  rfl

theorem hasAccounts_of_eq_ok {kept : List Account} (h : t.accounts = .ok kept) :
    t.HasAccounts := by
  obtain ⟨ids, hids, h⟩ := bind_eq_ok_iff.1 h
  obtain ⟨owners, howners, h⟩ := bind_eq_ok_iff.1 h
  obtain ⟨firms, hfirms, h⟩ := bind_eq_ok_iff.1 h
  obtain ⟨related, hrelated, -⟩ := bind_eq_ok_iff.1 h
  exact ⟨(texts_eq_ok_iff.1 hids).1, (texts_eq_ok_iff.1 howners).1, (texts_eq_ok_iff.1 hfirms).1,
    (texts_eq_ok_iff.1 hrelated).1⟩

theorem forall₂_accountOf (t : Table) :
    List.Forall₂ AccountOf (t.rowList.filter Row.keepsAccount) t.rowAccounts :=
  forall₂_filterMap (fun _ => Option.isSome_map) accountOf_of_account? t.rowList

/-! ## Events -/

/-- The table has the columns of events; that of effective dates may be absent. -/
structure HasEvents (t : Table) : Prop where
  ids : t.Has "event_id" Column.IsTextual
  instruments : t.Has "instrument_id" Column.IsTextual
  kinds : t.Has "event_type" Column.IsTextual
  announced : t.Has "announcement_date" Column.IsTemporal
  effective : ∀ c, t.column? effectiveColumn = some c → c.IsTemporal

theorem HasEvents.exists_effectiveDates (h : t.HasEvents) : ∃ xs, t.effectiveDates = .ok xs := by
  unfold effectiveDates
  cases hc : t.column? effectiveColumn with
  | none => exact ⟨_, rfl⟩
  | some c => exact ⟨_, instants_eq_ok_iff.2 ⟨⟨c, hc, h.effective c hc⟩, rfl⟩⟩

/-- A table of events gives its events. -/
theorem HasEvents.exists_events (h : t.HasEvents) : ∃ kept, t.events.run.1 = .ok kept := by
  obtain ⟨effective, heffective⟩ := h.exists_effectiveDates
  obtain ⟨cells, hcells⟩ := exists_hasEventCells (texts_eq_ok_iff.2 ⟨h.ids, rfl⟩)
    (texts_eq_ok_iff.2 ⟨h.instruments, rfl⟩) (texts_eq_ok_iff.2 ⟨h.kinds, rfl⟩)
    (instants_eq_ok_iff.2 ⟨h.announced, rfl⟩) heffective
  exact ⟨_, by rw [result_events, hcells.eventCells_eq]; rfl⟩

/-! ## Tables put together -/

section Append

variable (happend : t.append? u = some whole)
include happend

theorem HasTrades.append? (ht : t.HasTrades) (hu : u.HasTrades) : whole.HasTrades where
  ids := ht.ids.append? hu.ids Column.joins_isTextual happend
  times := ht.times.append? hu.times Column.joins_isTemporal happend
  instruments := ht.instruments.append? hu.instruments Column.joins_isTextual happend
  buyers := ht.buyers.append? hu.buyers Column.joins_isTextual happend
  sellers := ht.sellers.append? hu.sellers Column.joins_isTextual happend
  quantities := ht.quantities.append? hu.quantities Column.joins_isNumeric happend
  prices := ht.prices.append? hu.prices Column.joins_isNumeric happend
  values := ht.values.append? hu.values Column.joins_isNumeric happend

theorem HasAccounts.append? (ht : t.HasAccounts) (hu : u.HasAccounts) : whole.HasAccounts where
  ids := ht.ids.append? hu.ids Column.joins_isTextual happend
  owners := ht.owners.append? hu.owners Column.joins_isTextual happend
  firms := ht.firms.append? hu.firms Column.joins_isTextual happend
  related := ht.related.append? hu.related Column.joins_isTextual happend

theorem rowTrades_append? : whole.rowTrades = t.rowTrades ++ u.rowTrades := by
  unfold rowTrades
  rw [rowList_append? happend, List.filterMap_append]

theorem rowAccounts_append? : whole.rowAccounts = t.rowAccounts ++ u.rowAccounts := by
  unfold rowAccounts
  rw [rowList_append? happend, List.filterMap_append]

/-- Rows left out of two tables are as many as those left out of the whole. -/
theorem dropped_append? : whole.rows - whole.rowTrades.length =
    (t.rows - t.rowTrades.length) + (u.rows - u.rowTrades.length) := by
  have hle : ∀ v : Table, v.rowTrades.length ≤ v.rows := fun v =>
    (List.length_filterMap_le _ _).trans_eq v.length_rowList
  have ht := hle t
  have hu := hle u
  rw [rowTrades_append? happend, (columns_append? happend).1, List.length_append]
  omega

end Append

/-- A table gives trades just when it has their columns: one of each row with a time and an
instrument, in order, said by that row alone, and one notice with the number of the other rows, if
there are any. It gives accounts just when it has their columns, one of each row with an id. Tables
of one layout put together give the records of the first and then those of the second, and the
numbers of rows left out add up. -/
theorem records_row_by_row (t : Table) :
    (t.HasTrades ↔ ∃ kept : List Trade,
      t.trades.run = (.ok kept, droppingTrades (t.rows - kept.length)) ∧
        List.Forall₂ TradeOf (t.rowList.filter Row.keepsTrade) kept) ∧
      (t.HasAccounts ↔ ∃ kept : List Account,
        t.accounts = .ok kept ∧
          List.Forall₂ AccountOf (t.rowList.filter Row.keepsAccount) kept) ∧
      ∀ u : Table, t.layout = u.layout →
        ∃ whole, t.append? u = some whole ∧ whole.rowList = t.rowList ++ u.rowList ∧
          (t.HasTrades → u.HasTrades → ∃ xs ys m n,
            t.trades.run = (.ok xs, droppingTrades m) ∧ u.trades.run = (.ok ys, droppingTrades n) ∧
              whole.trades.run = (.ok (xs ++ ys), droppingTrades (m + n))) ∧
          (t.HasAccounts → u.HasAccounts → ∃ xs ys,
            t.accounts = .ok xs ∧ u.accounts = .ok ys ∧ whole.accounts = .ok (xs ++ ys)) := by
  refine ⟨⟨fun h => ⟨_, h.run_trades, t.forall₂_tradeOf⟩, fun ⟨_, h, _⟩ => hasTrades_of_run h⟩,
    ⟨fun h => ⟨_, h.accounts_eq, t.forall₂_accountOf⟩, fun ⟨_, h, _⟩ => hasAccounts_of_eq_ok h⟩,
    fun u hlayout => ?_⟩
  obtain ⟨whole, happend⟩ := exists_append? hlayout
  refine ⟨whole, happend, rowList_append? happend, fun ht hu => ?_, fun ht hu => ?_⟩
  · refine ⟨_, _, _, _, ht.run_trades, hu.run_trades, ?_⟩
    rw [(ht.append? happend hu).run_trades, dropped_append? happend, rowTrades_append? happend]
  · refine ⟨_, _, ht.accounts_eq, hu.accounts_eq, ?_⟩
    rw [(ht.append? happend hu).accounts_eq, rowAccounts_append? happend]

/-- Three trades, the second without a time and the third with a text that is none. -/
def morningTrades : Table where
  rows := 3
  columns := [
    ("trade_id", .text [none, some "T2", some "T3"]),
    ("timestamp", .text [some "2024-03-01T09:30:00Z", none, some "noon"]),
    ("instrument_id", .text [some "ACME", some "ACME", some "ACME"]),
    ("buy_account_id", .text [some "A1", some "A1", some "A1"]),
    ("sell_account_id", .text [none, none, none]),
    ("quantity", .text [some "10", some "many", none]),
    ("price", .int [some 7, none, none]),
    ("trade_value", .real [none, some 1.0, none])]
  aligned := by simp [Column.size]

/-- A trade without an instrument. -/
def eveningTrades : Table where
  rows := 1
  columns := [
    ("trade_id", .text [some "T4"]),
    ("timestamp", .text [some "2024-03-01 18:00:00"]),
    ("instrument_id", .text [none]),
    ("buy_account_id", .text [some "A2"]),
    ("sell_account_id", .text [some "A1"]),
    ("quantity", .text [some "1"]),
    ("price", .int [some 8]),
    ("trade_value", .real [some 8.0])]
  aligned := by simp [Column.size]

/-- An account and a row without an id. -/
def knownAccounts : Table where
  rows := 2
  columns := [
    ("account_id", .text [none, some "A1"]),
    ("beneficial_owner_id", .text [some "O1", none]),
    ("firm_id", .text [some "F1", some "F1"]),
    ("related_accounts", .text [none, some "A2, A3"])]
  aligned := by simp [Column.size]

theorem hasTrades_morningTrades : morningTrades.HasTrades where
  ids := ⟨_, rfl, Column.isTextual_text _⟩
  times := ⟨_, rfl, trivial⟩
  instruments := ⟨_, rfl, Column.isTextual_text _⟩
  buyers := ⟨_, rfl, Column.isTextual_text _⟩
  sellers := ⟨_, rfl, Column.isTextual_text _⟩
  quantities := ⟨_, rfl, trivial⟩
  prices := ⟨_, rfl, trivial⟩
  values := ⟨_, rfl, trivial⟩

theorem hasTrades_eveningTrades : eveningTrades.HasTrades where
  ids := ⟨_, rfl, Column.isTextual_text _⟩
  times := ⟨_, rfl, trivial⟩
  instruments := ⟨_, rfl, Column.isTextual_text _⟩
  buyers := ⟨_, rfl, Column.isTextual_text _⟩
  sellers := ⟨_, rfl, Column.isTextual_text _⟩
  quantities := ⟨_, rfl, trivial⟩
  prices := ⟨_, rfl, trivial⟩
  values := ⟨_, rfl, trivial⟩

theorem hasAccounts_knownAccounts : knownAccounts.HasAccounts where
  ids := ⟨_, rfl, Column.isTextual_text _⟩
  owners := ⟨_, rfl, Column.isTextual_text _⟩
  firms := ⟨_, rfl, Column.isTextual_text _⟩
  related := ⟨_, rfl, Column.isTextual_text _⟩

theorem records_row_by_row_oneDay :
    (morningTrades.HasTrades ∧ eveningTrades.HasTrades ∧
      morningTrades.layout = eveningTrades.layout ∧ knownAccounts.HasAccounts) ∧
      (∃ x, morningTrades.trades.run = (.ok [x], [.droppedTrades 2]) ∧
        TradeOf (morningTrades.row 0) x) ∧
      (∃ x, knownAccounts.accounts = .ok [x] ∧ AccountOf (knownAccounts.row 1) x) ∧
      ∃ whole xs ys m n, morningTrades.append? eveningTrades = some whole ∧
        morningTrades.trades.run = (.ok xs, droppingTrades m) ∧
        eveningTrades.trades.run = (.ok ys, droppingTrades n) ∧
        whole.trades.run = (.ok (xs ++ ys), droppingTrades (m + n)) := by
  obtain ⟨htrades, -, htogether⟩ := records_row_by_row morningTrades
  obtain ⟨-, haccounts, -⟩ := records_row_by_row knownAccounts
  refine ⟨⟨hasTrades_morningTrades, hasTrades_eveningTrades, rfl, hasAccounts_knownAccounts⟩,
    ?_, ?_, ?_⟩
  · obtain ⟨kept, hrun, hrecords⟩ := htrades.1 hasTrades_morningTrades
    have hrows : morningTrades.rowList.filter Row.keepsTrade = [morningTrades.row 0] := by
      have hlist : morningTrades.rowList =
          [morningTrades.row 0, morningTrades.row 1, morningTrades.row 2] := rfl
      have hread : (morningTrades.row 0).keepsTrade = true ∧
          (morningTrades.row 1).keepsTrade = false ∧ (morningTrades.row 2).keepsTrade = false := by
        decide +kernel
      simp [hlist, hread]
    rw [hrows] at hrecords
    obtain ⟨x, _, hx, hnil, rfl⟩ := List.forall₂_cons_left_iff.1 hrecords
    obtain rfl := List.forall₂_nil_left_iff.1 hnil
    exact ⟨x, hrun, hx⟩
  · obtain ⟨kept, hrun, hrecords⟩ := haccounts.1 hasAccounts_knownAccounts
    have hrows : knownAccounts.rowList.filter Row.keepsAccount = [knownAccounts.row 1] := rfl
    rw [hrows] at hrecords
    obtain ⟨x, _, hx, hnil, rfl⟩ := List.forall₂_cons_left_iff.1 hrecords
    obtain rfl := List.forall₂_nil_left_iff.1 hnil
    exact ⟨x, hrun, hx⟩
  · obtain ⟨whole, happend, -, hrecords, -⟩ := htogether eveningTrades rfl
    obtain ⟨xs, ys, m, n, hmorning, hevening, hwhole⟩ :=
      hrecords hasTrades_morningTrades hasTrades_eveningTrades
    exact ⟨whole, xs, ys, m, n, happend, hmorning, hevening, hwhole⟩

end TradeWatch.Table

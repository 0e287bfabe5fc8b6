/-
Tables read as records. Each record comes from its own row alone; a row without one of the cells
that its record cannot do without is left out, and the rows left out are counted.
-/
import TradeWatch.Table.Cast
import TradeWatch.Notice
import TradeWatch.Records
import TradeWatch.Relations

namespace TradeWatch.Table

open TradeWatch.Time (Instant)

/-! ## Trades -/

def tradeColumns : List String := [
  "trade_id", "timestamp", "instrument_id", "buy_account_id", "sell_account_id", "quantity",
  "price", "trade_value"]

/-- The cells of one row of the trade table. -/
structure TradeCells where
  id : Option String
  time : Option Instant
  instrument : Option String
  buyer : Option String
  seller : Option String
  quantity : Option Float
  price : Option Float
  value : Option Float

def TradeCells.trade? (c : TradeCells) : Option Trade := do
  let time ← c.time
  let instrument ← c.instrument
  let quantity := c.quantity.getD 0.0
  let price := c.price.getD 0.0
  some {
    id := c.id.getD ""
    time := time
    instrument := instrument
    buyer := c.buyer.getD ""
    seller := c.seller.getD ""
    quantity := quantity
    price := price
    value := c.value.getD (quantity * price) }

/-- The rows of the trade table; the columns are read from left to right. -/
def tradeCells (t : Table) : Except Fault (List TradeCells) := do
  let ids ← t.texts tradesTable "trade_id"
  let times ← t.instants tradesTable "timestamp"
  let instruments ← t.texts tradesTable "instrument_id"
  let buyers ← t.texts tradesTable "buy_account_id"
  let sellers ← t.texts tradesTable "sell_account_id"
  let quantities ← t.reals tradesTable "quantity"
  let prices ← t.reals tradesTable "price"
  let values ← t.reals tradesTable "trade_value"
  let texts := ids.zip (instruments.zip (buyers.zip sellers))
  let numbers := quantities.zip (prices.zip values)
  .ok ((texts.zip (times.zip numbers)).map
    fun ((id, instrument, buyer, seller), time, quantity, price, value) =>
      ⟨id, time, instrument, buyer, seller, quantity, price, value⟩)

/-- The trades of a table; rows without a time or an instrument are reported and left out. -/
def trades (t : Table) : Logged (List Trade) := do
  let cells ← Logged.ofExcept t.tradeCells
  let trades := cells.filterMap TradeCells.trade?
  let dropped := cells.length - trades.length
  if dropped ≠ 0 then Logged.report (.droppedTrades dropped)
  return trades

/-! ## Accounts -/

def accountColumns : List String := [
  "account_id", "beneficial_owner_id", "firm_id", "related_accounts"]

/-- The accounts of a table; rows without an id are left out. -/
def accounts (t : Table) : Except Fault (List Account) := do
  let ids ← t.texts accountsTable "account_id"
  let owners ← t.texts accountsTable "beneficial_owner_id"
  let firms ← t.texts accountsTable "firm_id"
  let related ← t.texts accountsTable "related_accounts"
  .ok ((ids.zip (owners.zip (firms.zip related))).filterMap fun (id, owner, firm, related) =>
    id.map fun id => ⟨id, owner, firm, (related.map Relations.parse).getD []⟩)

/-! ## Events -/

def eventColumns : List String := [
  "event_id", "instrument_id", "event_type", "announcement_date"]

def effectiveColumn : String := "event_date"

/-- The cells of one row of the event table. -/
structure EventCells where
  id : Option String
  instrument : Option String
  kind : Option String
  announced : Option Instant
  effective : Option Instant

/-- The id of an event that has none, from its row. -/
def fallbackEventId (row : Nat) : String :=
  "EVT-" ++ Text.zeroPadded 6 row

def EventCells.event? (c : EventCells) (row : Nat) : Option CorporateEvent := do
  let announced ← c.announced
  let instrument ← c.instrument
  some {
    id := c.id.getD (fallbackEventId row)
    instrument := instrument
    kind := c.kind.getD "unknown"
    announced := announced
    effective := c.effective }

/-- The rows of the event table; the column of effective dates may be absent. -/
def eventCells (t : Table) : Except Fault (List EventCells) := do
  let ids ← t.texts eventsTable "event_id"
  let instruments ← t.texts eventsTable "instrument_id"
  let kinds ← t.texts eventsTable "event_type"
  let announced ← t.instants eventsTable "announcement_date"
  let effective ← if (t.column? effectiveColumn).isSome then t.instants eventsTable effectiveColumn
    else .ok (List.replicate t.rows none)
  .ok ((ids.zip (instruments.zip (kinds.zip (announced.zip effective)))).map
    fun (id, instrument, kind, announced, effective) =>
      ⟨id, instrument, kind, announced, effective⟩)

/-- The events of a table; rows without an announcement or an instrument are reported and left
out. -/
def events (t : Table) : Logged (List CorporateEvent) := do
  let cells ← Logged.ofExcept t.eventCells
  let events := cells.zipIdx.filterMap fun (c, row) => c.event? row
  let dropped := cells.length - events.length
  if dropped ≠ 0 then Logged.report (.droppedEvents dropped)
  return events

end TradeWatch.Table

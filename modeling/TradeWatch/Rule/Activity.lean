/-
Who bought how much in a window: for each buyer the quantity, the prices and the number of the
trades, summed in order of time. Trades without a buyer count for nobody.
-/
import TradeWatch.Grouping
import TradeWatch.Records
import TradeWatch.Stats

namespace TradeWatch.Rule

structure BuyActivity where
  account : String
  quantity : Float
  priceSum : Float
  trades : Nat
deriving DecidableEq

namespace BuyActivity

def ofRows (account : String) (rows : List Trade) : BuyActivity :=
  ⟨account, Stats.sumFrom 0.0 (rows.map (·.quantity)), Stats.sumFrom 0.0 (rows.map (·.price)),
    rows.length⟩

def averagePrice (a : BuyActivity) : Float :=
  if a.trades = 0 then 0.0 else a.priceSum / Decimal.ofNat a.trades

end BuyActivity

def hasBuyer (t : Trade) : Bool :=
  t.buyer != ""

/-- The different buyers in a window, in order. -/
def buyers (rows : List Trade) : List String :=
  ascending textLe ((rows.filter hasBuyer).map (·.buyer))

/-- The activity of each buyer, in order of the accounts. -/
def buyActivity (rows : List Trade) : List BuyActivity :=
  (grouped textLe (·.buyer) (rows.filter hasBuyer)).map fun (account, rows) =>
    .ofRows account rows

end TradeWatch.Rule

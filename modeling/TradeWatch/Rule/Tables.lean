/-
Candidates as tables, one row for each. Times are kept to the millisecond, as far as their text can
be read back; counts fit into 63 bits. Candidates that do not fit make no table.
-/
import TradeWatch.Rule.Leakage
import TradeWatch.Rule.Network
import TradeWatch.Rule.PreAnnouncement
import TradeWatch.Rule.Profit
import TradeWatch.Table.Basic

namespace TradeWatch.Rule

/-- The time can be stored. -/
def isStorable (t : Time.Instant) : Bool :=
  (Column.storedMillis? t).isSome

def fitsColumn (n : Nat) : Bool :=
  decide (n ≤ Column.maxCount)

/-- A candidate that has a table of its kind. -/
class Tabular (γ : Type) where
  table : List γ → Table
  fits : γ → Bool

/-- The table of candidates. -/
def toTable {γ : Type} [Tabular γ] (rows : List γ) : Except Fault Table :=
  if rows.all Tabular.fits then .ok (Tabular.table rows) else .error .table

instance : Tabular PreAnnouncementCandidate where
  table rows := ⟨rows.length, [
    ("event_id", .ofTexts (rows.map (·.event))),
    ("instrument_id", .ofTexts (rows.map (·.instrument))),
    ("account_id", .ofTexts (rows.map (·.account))),
    ("announcement_date", .ofInstants (rows.map (·.announced))),
    ("trade_count", .ofCounts (rows.map (·.trades))),
    ("pre_window_volume", .ofReals (rows.map (·.volume))),
    ("baseline_mean_daily_volume", .ofReals (rows.map (·.baselineMean))),
    ("baseline_std_daily_volume", .ofReals (rows.map (·.baselineDeviation))),
    ("volume_ratio", .ofReals (rows.map (·.volumeRatio)))], by
      simp [Column.size, Column.ofTexts, Column.ofInstants, Column.ofCounts, Column.ofReals]⟩
  fits c := isStorable c.announced && fitsColumn c.trades

instance : Tabular NetworkCandidate where
  table rows := ⟨rows.length, [
    ("event_id", .ofTexts (rows.map (·.event))),
    ("instrument_id", .ofTexts (rows.map (·.instrument))),
    ("account_id", .ofTexts (rows.map (·.account))),
    ("announcement_date", .ofInstants (rows.map (·.announced))),
    ("related_active", .ofLists (rows.map (·.related))),
    ("related_count", .ofCounts (rows.map (·.relatedCount)))], by
      simp [Column.size, Column.ofTexts, Column.ofInstants, Column.ofCounts, Column.ofLists]⟩
  fits c := isStorable c.announced && fitsColumn c.relatedCount

instance : Tabular ProfitCandidate where
  table rows := ⟨rows.length, [
    ("event_id", .ofTexts (rows.map (·.event))),
    ("instrument_id", .ofTexts (rows.map (·.instrument))),
    ("account_id", .ofTexts (rows.map (·.account))),
    ("announcement_date", .ofInstants (rows.map (·.announced))),
    ("avg_buy_price", .ofReals (rows.map (·.averageBuyPrice))),
    ("post_avg_price", .ofReals (rows.map (·.averagePostPrice))),
    ("return_pct", .ofReals (rows.map (·.gain))),
    ("quantity", .ofReals (rows.map (·.quantity)))], by
      simp [Column.size, Column.ofTexts, Column.ofInstants, Column.ofReals]⟩
  fits c := isStorable c.announced

instance : Tabular LeakageCandidate where
  table rows := ⟨rows.length, [
    ("event_id", .ofTexts (rows.map (·.event))),
    ("instrument_id", .ofTexts (rows.map (·.instrument))),
    ("announcement_date", .ofInstants (rows.map (·.announced))),
    ("account_count", .ofCounts (rows.map (·.accounts))),
    ("total_volume", .ofReals (rows.map (·.volume))),
    ("top_account", .ofTexts (rows.map (·.topAccount)))], by
      simp [Column.size, Column.ofTexts, Column.ofInstants, Column.ofCounts, Column.ofReals]⟩
  fits c := isStorable c.announced && fitsColumn c.accounts

end TradeWatch.Rule

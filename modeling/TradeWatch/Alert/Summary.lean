/-
The summary of a list of alerts: how many there are by severity and by rule, how confident they are
on average, and how many accounts they concern.
-/
import TradeWatch.Alert.Basic
import TradeWatch.Decimal.Fixed
import TradeWatch.Grouping
import TradeWatch.Json.Printer
import TradeWatch.Records
import TradeWatch.Stats
import TradeWatch.Table.Basic

namespace TradeWatch

structure AlertSummary where
  total : Nat
  bySeverity : Dict Nat
  byRule : Dict Nat
  averageConfidence : Float
  accounts : Nat
  eventsSynthesized : Bool

namespace AlertSummary

def ofAlerts (alerts : List Alert) (source : EventSource) : AlertSummary where
  total := alerts.length
  bySeverity := Dict.counts (alerts.map (·.severity.label))
  byRule := Dict.counts (alerts.map (·.rule.code))
  averageConfidence := Stats.mean (alerts.map (·.confidence))
  accounts := (alerts.flatMap (·.accounts)).eraseDups.length
  eventsSynthesized := source == .synthesized

/-! ## As a table -/

def countsJson (counts : Dict Nat) : Json :=
  .obj (counts.map fun entry => (entry.1, .ofNat entry.2))

/-- A table of one row, if the counts fit. -/
def toTable (s : AlertSummary) : Except Fault Table :=
  if s.total ≤ Column.maxCount ∧ s.accounts ≤ Column.maxCount then
    .ok ⟨1, [
      ("total_alerts", .ofCounts [s.total]),
      ("by_severity", .ofTexts [(countsJson s.bySeverity).compact]),
      ("by_rule", .ofTexts [(countsJson s.byRule).compact]),
      ("avg_confidence", .ofReals [s.averageConfidence]),
      ("unique_accounts", .ofCounts [s.accounts]),
      ("events_synthesized", .ofFlags [s.eventsSynthesized])], by
        simp [Column.size, Column.ofTexts, Column.ofCounts, Column.ofReals, Column.ofFlags]⟩
  else .error .table

/-! ## As text -/

/-- A label in a column of its own and a count. -/
def countLine (entry : String × Nat) : String :=
  "    " ++ Text.leftAligned 10 entry.1 ++ " " ++ toString entry.2 ++ "\n"

def text (s : AlertSummary) : String :=
  "  Total alerts:       " ++ toString s.total ++ "\n" ++
  "  Unique accounts:    " ++ toString s.accounts ++ "\n" ++
  "  Avg confidence:     " ++ Decimal.fixed 3 s.averageConfidence ++ "\n" ++
  "  By severity:\n" ++ String.join (s.bySeverity.map countLine) ++
  "  By rule:\n" ++ String.join (s.byRule.map countLine) ++
  (if s.eventsSynthesized then
    "  NOTE: corporate events were synthesized; treat alerts as indicative only\n"
  else "")

end AlertSummary

end TradeWatch

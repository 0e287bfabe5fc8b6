/-
What a run prints: its report as text or as JSON, and the diagnostic of a fault.
-/
import TradeWatch.Run

namespace TradeWatch

/-! ## Faults -/

/-- A fault by its kind, and with its details where they are fixed here. -/
def Fault.diagnostic : Fault → String
  | config e => "InvalidConfig(" ++ Text.quoted e.message ++ ")"
  | missingTable t => "MissingTable(" ++ Text.quoted t ++ ")"
  | missingColumn t c =>
    "MissingColumn \x7b table: " ++ Text.quoted t ++ ", column: " ++ Text.quoted c ++ " \x7d"
  | undecodable t r =>
    "Decode \x7b table: " ++ Text.quoted t ++ ", reason: " ++ Text.quoted r.message ++ " \x7d"
  | json _ => "Json"
  | table => "Arrow"
  | file => "Io"
  | calendar => "Calendar"

/-- The exit code of a run that ends with a fault. Leaving the calendar breaks a run off. -/
def Fault.exitCode : Fault → UInt32
  | calendar => 101
  | _ => 1

def EventSource.label : EventSource → String
  | loaded => "Loaded"
  | synthesized => "Synthesized"

namespace Report

/-! ## Text -/

/-- A stage in a column of its own and its time. -/
def timingLine (number : Nat → String) (t : StageTiming) : String :=
  "    " ++ Text.leftAligned 12 t.stage ++ " " ++ number t.micros ++ "\n"

/-- The report as text; `number` writes a time, and `alertsFile` is where the alerts went. -/
def text (number : Nat → String) (alertsFile : String) (r : Report) : String :=
  "=== insider-surveillance ===\n" ++
  "  Events:             " ++ r.source.label ++ "\n" ++
  "  Candidates by rule:\n" ++ String.join (r.candidateCounts.map AlertSummary.countLine) ++ "\n" ++
  (match r.summary with
    | some s => s.text ++ "\n  Alerts written to " ++ alertsFile ++ "\n"
    | none => "  No alerts raised.\n") ++ "\n" ++
  "  Timings (microseconds):\n" ++ String.join (r.timings.map (timingLine number)) ++
  timingLine number ⟨"total", totalMicros r.timings⟩

/-! ## JSON -/

def alertJson (a : Alert) : Json := .obj [
  ("alert_id", .str a.id),
  ("category", .str a.category),
  ("rule_id", .str a.rule.title),
  ("severity", .str a.severity.label),
  ("timestamp", .str a.time.text),
  ("account_ids", .strings a.accounts),
  ("instrument_ids", .strings a.instruments),
  ("description", .str a.description),
  ("evidence", .obj a.evidence),
  ("confidence_score", .ofFloat a.confidence)]

def summaryJson (s : AlertSummary) : Json := .obj [
  ("total_alerts", .ofNat s.total),
  ("by_severity", AlertSummary.countsJson s.bySeverity),
  ("by_rule", AlertSummary.countsJson s.byRule),
  ("avg_confidence", .ofFloat s.averageConfidence),
  ("unique_accounts", .ofNat s.accounts),
  ("events_synthesized", .bool s.eventsSynthesized)]

def timingJson (t : StageTiming) : Json := .obj [
  ("stage", .str t.stage),
  ("elapsed_us", .ofNat t.micros)]

def json (r : Report) : Json := .obj [
  ("generated_at", .str r.time.text),
  ("alerts", .arr (r.alerts.map alertJson)),
  ("summary", match r.summary with
    | some s => summaryJson s
    | none => .null),
  ("candidate_counts", AlertSummary.countsJson r.candidateCounts),
  ("event_source", .str r.source.label),
  ("timings", .arr (r.timings.map timingJson)),
  ("total_us", .ofNat (totalMicros r.timings))]

end Report

end TradeWatch

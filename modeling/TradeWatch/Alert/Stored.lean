/-
Alerts as a table and back. The lists and the evidence of an alert are stored as JSON text, its
time to the millisecond. Reading stops at the first row, and there at the first field, that stands
for no alert.
-/
import TradeWatch.Alert.Basic
import TradeWatch.Json.Printer
import TradeWatch.Json.Reader
import TradeWatch.Table.Cast

namespace TradeWatch.Alert

/-- The name of the table of alerts in faults. -/
def storedTable : String := "alerts"

/-! ## Writing -/

/-- The time can be stored. -/
def isStorable (a : Alert) : Bool :=
  (Column.storedMillis? a.time).isSome

/-- One row for each alert. -/
def rowsOf (alerts : List Alert) : Table :=
  ⟨alerts.length, [
    ("alert_id", .ofTexts (alerts.map (·.id))),
    ("category", .ofTexts (alerts.map (·.category))),
    ("rule_id", .ofTexts (alerts.map (·.rule.code))),
    ("severity", .ofTexts (alerts.map (·.severity.label))),
    ("timestamp", .ofInstants (alerts.map (·.time))),
    ("account_ids", .ofTexts (alerts.map fun a => (Json.strings a.accounts).compact)),
    ("instrument_ids", .ofTexts (alerts.map fun a => (Json.strings a.instruments).compact)),
    ("description", .ofTexts (alerts.map (·.description))),
    ("evidence", .ofTexts (alerts.map fun a => (Json.obj a.evidence).compact)),
    ("confidence_score", .ofReals (alerts.map (·.confidence)))], by
      simp [Column.size, Column.ofTexts, Column.ofInstants, Column.ofReals]⟩

def toTable (alerts : List Alert) : Except Fault Table :=
  if alerts.all isStorable then .ok (rowsOf alerts) else .error .table

/-! ## Reading -/

/-- The cells of one row of the table of alerts. -/
structure Cells where
  id : Option String
  category : Option String
  rule : Option String
  severity : Option String
  time : Option Time.Instant
  accounts : Option String
  instruments : Option String
  description : Option String
  evidence : Option String
  confidence : Option Float

/-- What an option holds, or a fault in a row. -/
def orFault {α : Type} (x : Option α) (reason : RowFault) : Except Fault α :=
  match x with
  | some x => .ok x
  | none => .error (.undecodable storedTable reason)

def Cells.alert (c : Cells) (row : Nat) : Except Fault Alert := do
  let code := c.rule.getD ""
  let label := c.severity.getD ""
  let rule ← orFault (RuleId.ofCode? code) (.unknownRule row code)
  let severity ← orFault (Severity.ofLabel? label) (.unknownSeverity row label)
  let time ← orFault c.time (.noTimestamp row)
  let accounts ← ofJson (Json.parseStrings (c.accounts.getD "[]"))
  let instruments ← ofJson (Json.parseStrings (c.instruments.getD "[]"))
  let evidence ← ofJson (Json.parseObject (c.evidence.getD "\x7b\x7d"))
  .ok {
    id := c.id.getD ""
    category := c.category.getD ""
    rule := rule
    severity := severity
    time := time
    accounts := accounts
    instruments := instruments
    description := c.description.getD ""
    evidence := evidence
    confidence := c.confidence.getD 0.0 }

/-- The rows of a table of alerts; the columns are read from left to right. -/
def cellsOf (t : Table) : Except Fault (List Cells) := do
  let ids ← t.texts storedTable "alert_id"
  let categories ← t.texts storedTable "category"
  let rules ← t.texts storedTable "rule_id"
  let severities ← t.texts storedTable "severity"
  let times ← t.instants storedTable "timestamp"
  let accounts ← t.texts storedTable "account_ids"
  let instruments ← t.texts storedTable "instrument_ids"
  let descriptions ← t.texts storedTable "description"
  let evidence ← t.texts storedTable "evidence"
  let confidences ← t.reals storedTable "confidence_score"
  let names := ids.zip (categories.zip (rules.zip severities))
  let subjects := accounts.zip (instruments.zip (descriptions.zip evidence))
  .ok ((names.zip (times.zip (subjects.zip confidences))).map
    fun ((id, category, rule, severity), time, (accounts, instruments, description, evidence),
        confidence) =>
      ⟨id, category, rule, severity, time, accounts, instruments, description, evidence,
        confidence⟩)

def ofTable (t : Table) : Except Fault (List Alert) := do
  let cells ← cellsOf t
  cells.zipIdx.mapM fun (c, row) => c.alert row

end TradeWatch.Alert

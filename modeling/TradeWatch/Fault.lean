/-
What can go wrong in a run, each with its cause, and the text that reports it.
-/
import TradeWatch.Config.Basic
import TradeWatch.Json.Scan
import TradeWatch.Text.Quoted

namespace TradeWatch

/-- Why a stored alert cannot be read. -/
inductive RowFault
  | unknownRule (row : Nat) (code : String)
  | unknownSeverity (row : Nat) (label : String)
  | noTimestamp (row : Nat)
deriving DecidableEq, Repr

inductive Fault
  /-- Settings that a run does not accept. -/
  | config (error : ConfigError)
  /-- A table that a run needs does not exist. -/
  | missingTable (table : String)
  | missingColumn (table column : String)
  /-- A stored row stands for no alert. -/
  | undecodable (table : String) (reason : RowFault)
  | json (fault : Json.Fault)
  /-- A table cannot be read, converted or built. -/
  | table
  /-- A file cannot be read or written. -/
  | file
  /-- A made-up schedule or a local time leaves the calendar. -/
  | calendar
deriving DecidableEq, Repr

def RowFault.message : RowFault → String
  | .unknownRule row code => "row " ++ toString row ++ ": unknown rule_id " ++ Text.quoted code
  | .unknownSeverity row label =>
    "row " ++ toString row ++ ": unknown severity " ++ Text.quoted label
  | .noTimestamp row => "row " ++ toString row ++ ": null timestamp"

namespace Fault

/-- The text of the faults whose wording is fixed here. -/
def message? : Fault → Option String
  | config e => some ("invalid configuration: " ++ e.message)
  | missingTable t => some ("table not found: " ++ t)
  | missingColumn t c => some ("table " ++ t ++ " has no column " ++ c)
  | undecodable t r => some ("cannot decode table " ++ t ++ ": " ++ r.message)
  | json _ => none
  | table => none
  | file => none
  | calendar => none

end Fault

/-- A result of JSON reading as a result of a run. -/
def ofJson {α : Type} : Except Json.Fault α → Except Fault α
  | .ok x => .ok x
  | .error e => .error (.json e)

end TradeWatch

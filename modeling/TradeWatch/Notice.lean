/-
The warnings and errors that a run reports beside its result, and results that carry them. What
was reported before a fault stays reported.
-/
import TradeWatch.Fault

namespace TradeWatch

/-- The source tables by name. -/
def tradesTable : String := "trades"
def accountsTable : String := "accounts"
def eventsTable : String := "corporate_events"

inductive Notice
  | droppedTrades (count : Nat)
  | droppedEvents (count : Nat)
  /-- A window setting has no length in time. -/
  | windowOutOfRange (rule : String) (setting : Setting) (value : Int)
  | eventsSynthesized (count : Nat)
  | aborted
deriving DecidableEq, Repr

namespace Notice

def message : Notice → String
  | droppedTrades _ => "dropped rows with null timestamp or instrument"
  | droppedEvents _ => "dropped rows with null announcement_date or instrument"
  | windowOutOfRange _ _ _ => "window out of range; rule skipped"
  | eventsSynthesized _ =>
    "event table not found; using synthesized events, alerts are not grounded in real announcements"
  | aborted => "insider-trading detection aborted"

/-- An error, and not only a warning. -/
def isError : Notice → Bool
  | aborted => true
  | _ => false

/-- The named details of a notice. -/
def details : Notice → List (String × Json)
  | droppedTrades count => [("table", .str tradesTable), ("dropped", .ofNat count)]
  | droppedEvents count => [("table", .str eventsTable), ("dropped", .ofNat count)]
  | windowOutOfRange rule setting value =>
    [("rule", .str rule), ("setting", .str setting.name), ("value", .int value)]
  | eventsSynthesized count => [("table", .str eventsTable), ("events", .ofNat count)]
  | aborted => []

end Notice

/-- A computation that may fail and reports notices on its way. -/
abbrev Logged (α : Type) := ExceptT Fault (StateM (List Notice)) α

namespace Logged

def ofExcept {α : Type} (x : Except Fault α) : Logged α :=
  ExceptT.mk (pure x)

def report (n : Notice) : Logged Unit :=
  modify (· ++ [n])

/-- The result and the notices, the earliest first. -/
def run {α : Type} (x : Logged α) : Except Fault α × List Notice :=
  StateT.run (ExceptT.run x) []

end Logged

end TradeWatch

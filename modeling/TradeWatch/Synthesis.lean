/-
Events made up from the trades when there is no event table: one for each instrument and week,
from one week after the first trading day of the instrument on through its last. They are no real
announcements. A date that leaves the calendar makes the whole fail.
-/
import TradeWatch.Grouping
import TradeWatch.Random.ChaCha
import TradeWatch.Records
import TradeWatch.Text.Padded

namespace TradeWatch.Synthesis

open TradeWatch.Time (Instant)

def eventKinds : List String := [
  "earnings", "merger_announcement", "acquisition", "guidance_revision", "dividend_change"]

def spacingDays : Int := 7

/-- The last day of the calendar. -/
def lastDay : Int := Time.calendarEnd / Time.nanosPerDay - 1

/-! ## Dates -/

def firstTradingDay (trades : List Trade) : Int :=
  match trades.map (·.time.day) with
  | [] => 0
  | d :: ds => ds.foldl min d

def lastTradingDay (trades : List Trade) : Int :=
  match trades.map (·.time.day) with
  | [] => 0
  | d :: ds => ds.foldl max d

/-- The day one week later, if the calendar goes that far. -/
def nextWeek? (day : Int) : Option Int :=
  if lastDay < day + spacingDays then none else some (day + spacingDays)

/-! ## Events -/

def eventId (instrument : String) (number : UInt32) : String :=
  "SYN-" ++ instrument ++ "-" ++ Text.zeroPadded 4 number.toNat

/-- Events that are made with draws, unless a date leaves the calendar. -/
abbrev Making (α : Type) := StateT Random.Generator Option α

/-- The kind of the next event. -/
def drawKind : Making String := do
  let i ← modifyGet (·.index eventKinds.length)
  return (eventKinds[i]?).getD ""

/-- The event of a day; it takes effect on the day after. -/
def announcement (instrument : String) (number : UInt32) (day : Int) : Making CorporateEvent := do
  let kind ← drawKind
  let announced ← Instant.ofDay? day
  let effective ← announced.shift? Time.nanosPerDay
  return ⟨eventId instrument number, instrument, kind, announced, some effective⟩

/-- The events of an instrument from a day on up to its last trading day, `number` of them having
come before. Also the first day behind the last event has to be in the calendar. -/
def weekly (instrument : String) (last : Int) (number : UInt32) (day : Int) :
    Making (List CorporateEvent) :=
  if day ≤ last then do
    let event ← announcement instrument (number + 1) day
    match hnext : nextWeek? day with
    | none => failure
    | some next =>
      let events ← weekly instrument last (number + 1) next
      return event :: events
  else return []
termination_by (last + 1 - day).toNat
decreasing_by
  unfold nextWeek? spacingDays at hnext
  split at hnext
  · cases hnext
  · cases hnext
    omega

/-- The events of an instrument with these trades. -/
def ofInstrument (instrument : String) (rows : List Trade) : Making (List CorporateEvent) := do
  let start ← nextWeek? (firstTradingDay rows)
  weekly instrument (lastTradingDay rows) 0 start

/-- The events for these trades, one instrument after the other in order. -/
def events? (trades : List Trade) : Making (List CorporateEvent) := do
  let made ← (grouped textLe (·.instrument) trades).mapM fun (instrument, rows) =>
    ofInstrument instrument rows
  return made.flatten

end TradeWatch.Synthesis

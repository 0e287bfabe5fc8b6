/-
Histories moved in time. The rules compare times with one another and with nothing else, so where
all trades and announcements come later by one duration, and neither they nor the windows around
the announcements leave the calendar, the same is found: the candidates carry the later
announcements, and the alerts are the same. The rule that counts volumes by the day needs a whole
number of days.
-/
import TradeWatch.Proofs.EventByEvent
import TradeWatch.Proofs.Rule.Network

namespace TradeWatch

open Time (Instant InCalendar nanosPerDay)

/-! ## Later instants -/

namespace Time.Instant

/-- The instant `d` nanoseconds later, as long as the calendar has it. -/
def later (d : Int) (t : Instant) : Instant :=
  (t.shift? d).getD t

variable {s t : Instant} {d : Int}

end Time.Instant

/-! ## Later trades and events -/

def Trade.later (d : Int) (t : Trade) : Trade :=
  { t with time := t.time.later d }

def CorporateEvent.later (d : Int) (e : CorporateEvent) : CorporateEvent :=
  { e with announced := e.announced.later d }

section Windows

variable {trades : List Trade} {d : Int} (htrades : ∀ t ∈ trades, InCalendar (t.time.nanos + d))
  {start stop : Instant} (hstart : InCalendar (start.nanos + d))
  (hstop : InCalendar (stop.nanos + d)) (instrument : String)

include htrades

include hstart hstop

end Windows

namespace Rule

/-! ## The candidates of one event -/

def PreAnnouncementCandidate.later (d : Int) (x : PreAnnouncementCandidate) :
    PreAnnouncementCandidate :=
  { x with announced := x.announced.later d }

def NetworkCandidate.later (d : Int) (x : NetworkCandidate) : NetworkCandidate :=
  { x with announced := x.announced.later d }

def ProfitCandidate.later (d : Int) (x : ProfitCandidate) : ProfitCandidate :=
  { x with announced := x.announced.later d }

def LeakageCandidate.later (d : Int) (x : LeakageCandidate) : LeakageCandidate :=
  { x with announced := x.announced.later d }

section Candidates

variable {trades : List Trade} {d : Int} (htrades : ∀ t ∈ trades, InCalendar (t.time.nanos + d))
  {event : CorporateEvent} (hannounced : InCalendar (event.announced.nanos + d)) {length : Int}
  (hstart : InCalendar (event.announced.nanos - length))
  (hstart' : InCalendar (event.announced.nanos - length + d))

include htrades hannounced hstart hstart'

end Candidates

/-! ## Whole rules -/

section Groups

variable {κ γ : Type} [BEq κ] [LawfulBEq κ] {le : κ → κ → Bool} {key : γ → κ} {event : γ → String}
  {f : γ → γ}

end Groups

section Rules

variable {trades : List Trade} (accounts : List Account) {events : List CorporateEvent} {c : Config}
  (engine : AlertEngine) {d : Int}

variable (htrades : ∀ t ∈ trades, InCalendar (t.time.nanos + d))
  (hevents : ∀ e ∈ events, InCalendar (e.announced.nanos + d))

include htrades hevents

end Rules

end Rule

end TradeWatch

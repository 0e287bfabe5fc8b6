/-
What the rules have in common. A rule looks at every event through a window of trades, keeps rows
that cross its threshold as candidates, and groups them; a group with enough different events makes
one alert.
-/
import TradeWatch.Alert.Engine
import TradeWatch.Grouping
import TradeWatch.Notice
import TradeWatch.Records
import TradeWatch.Window.Length

namespace TradeWatch.Rule

/-! ## Outcomes -/

/-- What a rule found. -/
structure Outcome (γ : Type) where
  rule : RuleId
  candidates : List γ
  alerts : List Alert
  notices : List Notice

namespace Outcome

variable {γ : Type}

def nothing (rule : RuleId) : Outcome γ :=
  ⟨rule, [], [], []⟩

/-- The rule was passed over because of a setting. -/
def skipped (rule : RuleId) (setting : Setting) (value : Int) : Outcome γ :=
  ⟨rule, [], [], [.windowOutOfRange rule.code setting value]⟩

def isEmpty (o : Outcome γ) : Bool :=
  o.alerts.isEmpty && o.candidates.isEmpty

end Outcome

/-! ## Groups of candidates -/

/-- Candidates with one key and the different events among them. -/
structure Group (κ γ : Type) where
  key : κ
  members : List γ
  events : List String

namespace Group

variable {κ γ : Type}

/-- How many different events there are. -/
def occurrences (g : Group κ γ) : Nat :=
  g.events.length

/-- A property of the members without repetitions, in order. -/
def distinct (f : γ → String) (g : Group κ γ) : List String :=
  ascending textLe (g.members.map f)

end Group

/-- The candidates by key, keys ascending. -/
def groups {κ γ : Type} [BEq κ] (le : κ → κ → Bool) (key : γ → κ) (event : γ → String)
    (candidates : List γ) : List (Group κ γ) :=
  (grouped le key candidates).map fun (k, members) =>
    ⟨k, members, ascending textLe (members.map event)⟩

/-- One alert for each group with at least `least` different events. -/
def alertsOf {κ γ : Type} (least : Nat) (raise : Group κ γ → Alert) (gs : List (Group κ γ)) :
    List Alert :=
  (gs.filter fun g => decide (least ≤ g.occurrences)).map raise

end TradeWatch.Rule

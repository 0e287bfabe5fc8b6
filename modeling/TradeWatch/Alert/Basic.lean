/-
Alerts: the rule that raised one, how severe it is, whom and what it concerns, and the evidence.
-/
import TradeWatch.Json.Basic
import TradeWatch.Time.Instant

namespace TradeWatch

/-! ## Rules -/

inductive RuleId
  | preAnnouncementTrading
  | networkTrading
  | abnormalProfit
  | informationLeakage
deriving DecidableEq, Repr, Inhabited

namespace RuleId

/-- Every rule, in the order in which they are evaluated. -/
def all : List RuleId :=
  [preAnnouncementTrading, networkTrading, abnormalProfit, informationLeakage]

def code : RuleId → String
  | preAnnouncementTrading => "5.1"
  | networkTrading => "5.2"
  | abnormalProfit => "5.3"
  | informationLeakage => "5.4"

/-- The short name of a rule. -/
def label : RuleId → String
  | preAnnouncementTrading => "pre_announcement"
  | networkTrading => "network"
  | abnormalProfit => "abnormal_profit"
  | informationLeakage => "information_leakage"

/-- The long name of a rule, as reports give it. -/
def title : RuleId → String
  | preAnnouncementTrading => "PreAnnouncementTrading"
  | networkTrading => "NetworkTrading"
  | abnormalProfit => "AbnormalProfit"
  | informationLeakage => "InformationLeakage"

def ofCode? (s : String) : Option RuleId :=
  all.find? fun rule => rule.code == s

/-- The table that holds the candidates of a rule. -/
def candidateTable (rule : RuleId) : String :=
  "insider_" ++ rule.label ++ "_candidates"

end RuleId

/-! ## Severity -/

inductive Severity
  | low
  | medium
  | high
deriving DecidableEq, Repr, Inhabited

namespace Severity

def all : List Severity := [low, medium, high]

def label : Severity → String
  | low => "low"
  | medium => "medium"
  | high => "high"

def ofLabel? (s : String) : Option Severity :=
  all.find? fun severity => severity.label == s

def rank : Severity → Nat
  | low => 0
  | medium => 1
  | high => 2

end Severity

/-! ## Alerts -/

/-- The category of every alert raised here. -/
def alertCategory : String := "insider_trading"

/-- The member of the evidence that counts the occurrences. -/
def occurrencesKey : String := "num_events"

structure Alert where
  id : String
  category : String
  rule : RuleId
  severity : Severity
  time : Time.Instant
  accounts : List String
  instruments : List String
  description : String
  evidence : Dict Json
  confidence : Float
deriving Inhabited

namespace Alert

def occurrences? (a : Alert) : Option Nat :=
  (a.evidence.get? occurrencesKey).bind Json.count?

/-- Equality of alerts, with doubles compared as numbers. -/
def agrees (a b : Alert) : Bool :=
  a.id == b.id && a.category == b.category && a.rule == b.rule && a.severity == b.severity &&
    a.time == b.time && a.accounts == b.accounts && a.instruments == b.instruments &&
    a.description == b.description && Json.agreesMembers a.evidence b.evidence &&
    a.confidence == b.confidence

/-- Equality of lists of alerts, position by position. -/
def agreesAll : List Alert → List Alert → Bool
  | [], [] => true
  | a :: as, b :: bs => a.agrees b && agreesAll as bs
  | _, _ => false

end Alert

end TradeWatch

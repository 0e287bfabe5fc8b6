/-
Scoring and building alerts. All alerts of one engine carry its time, without the part below the
millisecond. Severity and confidence grow with the number of occurrences.
-/
import TradeWatch.Alert.Basic
import TradeWatch.Config.Basic
import TradeWatch.Stats

namespace TradeWatch

/-! ## Confidence -/

/-- The confidence is `base` plus a tenth for each occurrence, and `cap` at most. -/
structure ConfidenceProfile where
  base : Float
  cap : Float

namespace ConfidenceProfile

/-- For alerts about accounts. -/
def account : ConfidenceProfile := ⟨0.6, 0.95⟩

/-- For alerts about instruments. -/
def leakage : ConfidenceProfile := ⟨0.5, 0.90⟩

def score (p : ConfidenceProfile) (occurrences : Nat) : Float :=
  Stats.lesser (p.base + Decimal.ofNat occurrences / 10.0) p.cap

end ConfidenceProfile

/-! ## The engine -/

structure AlertEngine where
  highOccurrences : Nat
  mediumOccurrences : Nat
  time : Time.Instant

/-- What an alert says beside its score. -/
structure Subject where
  accounts : List String
  instruments : List String
  description : String
  evidence : Dict Json

namespace AlertEngine

def ofConfig (c : Config) (time : Time.Instant) : AlertEngine :=
  ⟨c.severityHighOccurrences, c.severityMediumOccurrences, time.floorMillis⟩

def severity (e : AlertEngine) (occurrences : Nat) : Severity :=
  if e.highOccurrences ≤ occurrences then .high
  else if e.mediumOccurrences ≤ occurrences then .medium
  else .low

/-- An alert with a given score. The evidence gets the number of occurrences; the id is given
later. -/
def raiseScored (e : AlertEngine) (rule : RuleId) (severity : Severity) (confidence : Float)
    (occurrences : Nat) (s : Subject) : Alert where
  id := ""
  category := alertCategory
  rule := rule
  severity := severity
  time := e.time
  accounts := s.accounts
  instruments := s.instruments
  description := s.description
  evidence := s.evidence.insert occurrencesKey (.ofNat occurrences)
  confidence := confidence

/-- An alert scored by the number of occurrences. -/
def raise (e : AlertEngine) (rule : RuleId) (profile : ConfidenceProfile) (occurrences : Nat)
    (s : Subject) : Alert :=
  e.raiseScored rule (e.severity occurrences) (profile.score occurrences) occurrences s

end AlertEngine

end TradeWatch

/-
The settings of a detection run: how far the rules look back, the thresholds they apply, and how
many occurrences make an alert. `validate` says which settings a run accepts and names the first
one it does not.
-/
namespace TradeWatch

/-- Every setting, in the order in which a settings list gives their values. -/
inductive Setting
  | preAnnouncementWindowDays
  | abnormalVolumeMultiplier
  | abnormalReturnThreshold
  | profitThreshold
  | networkWindowDays
  | leakageWindowHours
  | leakageMinAccounts
  | severityHighOccurrences
  | severityMediumOccurrences
  | severityLowOccurrences
  | saveIntermediates
  | minSuspiciousEvents
  | syntheticEventSeed
deriving DecidableEq, Repr

namespace Setting

def all : List Setting := [
  .preAnnouncementWindowDays, .abnormalVolumeMultiplier, .abnormalReturnThreshold,
  .profitThreshold, .networkWindowDays, .leakageWindowHours, .leakageMinAccounts,
  .severityHighOccurrences, .severityMediumOccurrences, .severityLowOccurrences,
  .saveIntermediates, .minSuspiciousEvents, .syntheticEventSeed]

def name : Setting → String
  | preAnnouncementWindowDays => "pre_announcement_window_days"
  | abnormalVolumeMultiplier => "abnormal_volume_multiplier"
  | abnormalReturnThreshold => "abnormal_return_threshold_pct"
  | profitThreshold => "profit_threshold_pct"
  | networkWindowDays => "network_time_window_days"
  | leakageWindowHours => "leakage_cluster_window_hours"
  | leakageMinAccounts => "leakage_min_accounts"
  | severityHighOccurrences => "severity_high_occurrences"
  | severityMediumOccurrences => "severity_medium_occurrences"
  | severityLowOccurrences => "severity_low_occurrences"
  | saveIntermediates => "save_intermediates"
  | minSuspiciousEvents => "min_suspicious_events"
  | syntheticEventSeed => "synthetic_event_seed"

def ofName? (s : String) : Option Setting :=
  all.find? fun setting => setting.name == s

end Setting

structure Config where
  preAnnouncementWindowDays : Int := 5
  abnormalVolumeMultiplier : Float := 3.0
  /-- Accepted, but no rule reads it. -/
  abnormalReturnThreshold : Float := 0.05
  /-- Least return after an announcement, as a fraction. -/
  profitThreshold : Float := 0.10
  networkWindowDays : Int := 3
  leakageWindowHours : Int := 48
  leakageMinAccounts : Nat := 3
  severityHighOccurrences : Nat := 5
  severityMediumOccurrences : Nat := 3
  /-- Accepted, but everything below medium is low. -/
  severityLowOccurrences : Nat := 1
  saveIntermediates : Bool := false
  minSuspiciousEvents : Nat := 2
  /-- Fixes the events made up when there is no event table. -/
  syntheticEventSeed : Option Nat := none
deriving Inhabited

/-! ## Validation -/

inductive ConfigError
  | notPositive (setting : Setting)
  | aboveLimit (setting : Setting) (limit : Int)
  | notFinite (setting : Setting)
  | belowOne (setting : Setting)
  | mediumAboveHigh
deriving DecidableEq, Repr

def ConfigError.message : ConfigError → String
  | .notPositive s => s.name ++ " must be positive"
  | .aboveLimit s limit => s.name ++ " must not exceed " ++ toString limit
  | .notFinite s => s.name ++ " must be finite"
  | .belowOne s => s.name ++ " must be at least 1"
  | .mediumAboveHigh =>
    Setting.severityMediumOccurrences.name ++ " exceeds " ++ Setting.severityHighOccurrences.name

/-- The longest look-back, a hundred years. -/
def maxWindowDays : Int := 36500

namespace Config

def checkWindow (setting : Setting) (value limit : Int) : Except ConfigError Unit :=
  if value ≤ 0 then .error (.notPositive setting)
  else if limit < value then .error (.aboveLimit setting limit)
  else .ok ()

def validate (c : Config) : Except ConfigError Unit := do
  checkWindow .preAnnouncementWindowDays c.preAnnouncementWindowDays maxWindowDays
  checkWindow .networkWindowDays c.networkWindowDays maxWindowDays
  checkWindow .leakageWindowHours c.leakageWindowHours (maxWindowDays * 24)
  if ¬ 0.0 < c.abnormalVolumeMultiplier then .error (.notPositive .abnormalVolumeMultiplier)
  else if ¬ c.profitThreshold.isFinite then .error (.notFinite .profitThreshold)
  else if c.leakageMinAccounts = 0 then .error (.belowOne .leakageMinAccounts)
  else if c.minSuspiciousEvents = 0 then .error (.belowOne .minSuspiciousEvents)
  else if c.severityHighOccurrences < c.severityMediumOccurrences then .error .mediumAboveHigh
  else .ok ()

end Config

end TradeWatch

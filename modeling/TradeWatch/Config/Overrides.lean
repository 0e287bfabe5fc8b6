/-
Settings from several places: those given directly win over those of a file, and those over the
defaults. The switch for intermediate results only turns them on. A file has to be acceptable by
itself, whatever is given beside it.
-/
import TradeWatch.Config.Reader
import TradeWatch.Fault

namespace TradeWatch

/-- The settings that are given directly. -/
structure Overrides where
  preAnnouncementWindowDays : Option Int := none
  abnormalVolumeMultiplier : Option Float := none
  abnormalReturnThreshold : Option Float := none
  profitThreshold : Option Float := none
  networkWindowDays : Option Int := none
  leakageWindowHours : Option Int := none
  leakageMinAccounts : Option Nat := none
  severityHighOccurrences : Option Nat := none
  severityMediumOccurrences : Option Nat := none
  severityLowOccurrences : Option Nat := none
  saveIntermediates : Bool := false
  minSuspiciousEvents : Option Nat := none
  syntheticEventSeed : Option Nat := none

namespace Overrides

def apply (o : Overrides) (c : Config) : Config where
  preAnnouncementWindowDays := o.preAnnouncementWindowDays.getD c.preAnnouncementWindowDays
  abnormalVolumeMultiplier := o.abnormalVolumeMultiplier.getD c.abnormalVolumeMultiplier
  abnormalReturnThreshold := o.abnormalReturnThreshold.getD c.abnormalReturnThreshold
  profitThreshold := o.profitThreshold.getD c.profitThreshold
  networkWindowDays := o.networkWindowDays.getD c.networkWindowDays
  leakageWindowHours := o.leakageWindowHours.getD c.leakageWindowHours
  leakageMinAccounts := o.leakageMinAccounts.getD c.leakageMinAccounts
  severityHighOccurrences := o.severityHighOccurrences.getD c.severityHighOccurrences
  severityMediumOccurrences := o.severityMediumOccurrences.getD c.severityMediumOccurrences
  severityLowOccurrences := o.severityLowOccurrences.getD c.severityLowOccurrences
  saveIntermediates := c.saveIntermediates || o.saveIntermediates
  minSuspiciousEvents := o.minSuspiciousEvents.getD c.minSuspiciousEvents
  syntheticEventSeed := o.syntheticEventSeed.orElse fun _ => c.syntheticEventSeed

end Overrides

namespace Config

/-- The configuration itself, if a run accepts it. -/
def accept (c : Config) : Except Fault Config :=
  match c.validate with
  | .ok _ => .ok c
  | .error e => .error (.config e)

/-- The configuration of a file, from the text of the file. -/
def ofText (text : String) : Except Fault Config := do
  (← ofJson (parse text)).accept

/-- The settings of a file, if there is one, under those given directly. The text of the file may
turn out to be unreadable. -/
def resolve (file : Option (Except Fault String)) (o : Overrides) : Except Fault Config := do
  let base ← match file with
    | none => .ok {}
    | some text => do ofText (← text)
  (o.apply base).accept

end Config

end TradeWatch

/-
Settings one by one. A configuration is the value of each setting, and putting in a value changes
that setting alone. Of assignments that name no setting twice, the order does not matter.
-/
import Mathlib.Data.List.Nodup
import TradeWatch.Config.Overrides

namespace TradeWatch

/-! ## Values -/

def Setting.Value : Setting → Type
  | .preAnnouncementWindowDays => Int
  | .abnormalVolumeMultiplier => Float
  | .abnormalReturnThreshold => Float
  | .profitThreshold => Float
  | .networkWindowDays => Int
  | .leakageWindowHours => Int
  | .leakageMinAccounts => Nat
  | .severityHighOccurrences => Nat
  | .severityMediumOccurrences => Nat
  | .severityLowOccurrences => Nat
  | .saveIntermediates => Bool
  | .minSuspiciousEvents => Nat
  | .syntheticEventSeed => Option Nat

/-- How the value of a setting is read. -/
def Setting.reader : (s : Setting) → Json.Reader s.Value
  | .preAnnouncementWindowDays => Json.signed
  | .abnormalVolumeMultiplier => Json.double
  | .abnormalReturnThreshold => Json.double
  | .profitThreshold => Json.double
  | .networkWindowDays => Json.signed
  | .leakageWindowHours => Json.signed
  | .leakageMinAccounts => Json.unsigned
  | .severityHighOccurrences => Json.unsigned
  | .severityMediumOccurrences => Json.unsigned
  | .severityLowOccurrences => Json.unsigned
  | .saveIntermediates => Json.boolean
  | .minSuspiciousEvents => Json.unsigned
  | .syntheticEventSeed => Json.optional Json.unsigned

namespace Config

variable {c d : Config}

/-- The value of a setting. -/
def get (c : Config) : (s : Setting) → s.Value
  | .preAnnouncementWindowDays => c.preAnnouncementWindowDays
  | .abnormalVolumeMultiplier => c.abnormalVolumeMultiplier
  | .abnormalReturnThreshold => c.abnormalReturnThreshold
  | .profitThreshold => c.profitThreshold
  | .networkWindowDays => c.networkWindowDays
  | .leakageWindowHours => c.leakageWindowHours
  | .leakageMinAccounts => c.leakageMinAccounts
  | .severityHighOccurrences => c.severityHighOccurrences
  | .severityMediumOccurrences => c.severityMediumOccurrences
  | .severityLowOccurrences => c.severityLowOccurrences
  | .saveIntermediates => c.saveIntermediates
  | .minSuspiciousEvents => c.minSuspiciousEvents
  | .syntheticEventSeed => c.syntheticEventSeed

/-- The configuration with another value for a setting. -/
def set (c : Config) : (s : Setting) → s.Value → Config
  | .preAnnouncementWindowDays, v => { c with preAnnouncementWindowDays := v }
  | .abnormalVolumeMultiplier, v => { c with abnormalVolumeMultiplier := v }
  | .abnormalReturnThreshold, v => { c with abnormalReturnThreshold := v }
  | .profitThreshold, v => { c with profitThreshold := v }
  | .networkWindowDays, v => { c with networkWindowDays := v }
  | .leakageWindowHours, v => { c with leakageWindowHours := v }
  | .leakageMinAccounts, v => { c with leakageMinAccounts := v }
  | .severityHighOccurrences, v => { c with severityHighOccurrences := v }
  | .severityMediumOccurrences, v => { c with severityMediumOccurrences := v }
  | .severityLowOccurrences, v => { c with severityLowOccurrences := v }
  | .saveIntermediates, v => { c with saveIntermediates := v }
  | .minSuspiciousEvents, v => { c with minSuspiciousEvents := v }
  | .syntheticEventSeed, v => { c with syntheticEventSeed := v }

/-- Configurations with the same values are the same. -/
theorem ext_get (h : ∀ s, c.get s = d.get s) : c = d := by
  obtain ⟨c₁, c₂, c₃, c₄, c₅, c₆, c₇, c₈, c₉, c₁₀, c₁₁, c₁₂, c₁₃⟩ := c
  obtain rfl : c₁ = _ := h .preAnnouncementWindowDays
  obtain rfl : c₂ = _ := h .abnormalVolumeMultiplier
  obtain rfl : c₃ = _ := h .abnormalReturnThreshold
  obtain rfl : c₄ = _ := h .profitThreshold
  obtain rfl : c₅ = _ := h .networkWindowDays
  obtain rfl : c₆ = _ := h .leakageWindowHours
  obtain rfl : c₇ = _ := h .leakageMinAccounts
  obtain rfl : c₈ = _ := h .severityHighOccurrences
  obtain rfl : c₉ = _ := h .severityMediumOccurrences
  obtain rfl : c₁₀ = _ := h .severityLowOccurrences
  obtain rfl : c₁₁ = _ := h .saveIntermediates
  obtain rfl : c₁₂ = _ := h .minSuspiciousEvents
  obtain rfl : c₁₃ = _ := h .syntheticEventSeed
  rfl

theorem get_set_self (c : Config) (s : Setting) (v : s.Value) : (c.set s v).get s = v := by
  cases s <;> rfl

theorem get_set_of_ne {s₁ s₂ : Setting} (h : s₁ ≠ s₂) (c : Config) (v : s₁.Value) :
    (c.set s₁ v).get s₂ = c.get s₂ := by
  cases s₁ <;> cases s₂ <;> first | rfl | exact absurd rfl h

theorem readSetting_eq (c : Config) (s : Setting) :
    readSetting c s = reading s.reader (c.set s) := by
  cases s <;> rfl

end Config

/-! ## Assignments -/

/-- A value for a setting. -/
structure Assignment where
  setting : Setting
  value : setting.Value

/-- The first value that a list gives for a setting. -/
def valueOf? (s : Setting) : List Assignment → Option s.Value
  | [] => none
  | a :: as => if h : a.setting = s then some (h ▸ a.value) else valueOf? s as

theorem valueOf?_eq_none_iff {s : Setting} {as : List Assignment} :
    valueOf? s as = none ↔ s ∉ as.map (·.setting) := by
  induction as with
  | nil => simp [valueOf?]
  | cons a as ih =>
    rw [valueOf?, List.map_cons, List.mem_cons]
    split
    · rename_i h
      simp [h]
    · rename_i h
      rw [ih]
      simp [Ne.symm h]

namespace Config

/-- The configuration with these values put in one after the other. -/
def setAll (c : Config) (as : List Assignment) : Config :=
  as.foldl (fun c a => c.set a.setting a.value) c

theorem get_setAll {as : List Assignment} (h : (as.map (·.setting)).Nodup) (c : Config) (s : Setting) :
    (c.setAll as).get s = (valueOf? s as).getD (c.get s) := by
  induction as generalizing c with
  | nil => rfl
  | cons a as ih =>
    rw [List.map_cons, List.nodup_cons] at h
    have htail : (c.setAll (a :: as)).get s = (valueOf? s as).getD ((c.set a.setting a.value).get s) :=
      ih h.2 _
    rw [htail, valueOf?]
    split
    · rename_i heq
      subst heq
      rw [valueOf?_eq_none_iff.2 h.1, Option.getD_none, get_set_self, Option.getD_some]
    · rename_i hne
      rw [get_set_of_ne hne]

/-- The values that a list gives are put in, whatever their order. -/
theorem setAll_congr {as bs : List Assignment} (ha : (as.map (·.setting)).Nodup)
    (hb : (bs.map (·.setting)).Nodup) (h : ∀ s, valueOf? s as = valueOf? s bs) (c : Config) :
    c.setAll as = c.setAll bs :=
  ext_get fun s => by rw [get_setAll ha, get_setAll hb, h]

end Config

/-! ## Settings given directly -/

namespace Overrides

/-- The value that is given for a setting. The switch for intermediate results gives nothing while it
is off. -/
def given (o : Overrides) : (s : Setting) → Option s.Value
  | .preAnnouncementWindowDays => o.preAnnouncementWindowDays
  | .abnormalVolumeMultiplier => o.abnormalVolumeMultiplier
  | .abnormalReturnThreshold => o.abnormalReturnThreshold
  | .profitThreshold => o.profitThreshold
  | .networkWindowDays => o.networkWindowDays
  | .leakageWindowHours => o.leakageWindowHours
  | .leakageMinAccounts => o.leakageMinAccounts
  | .severityHighOccurrences => o.severityHighOccurrences
  | .severityMediumOccurrences => o.severityMediumOccurrences
  | .severityLowOccurrences => o.severityLowOccurrences
  | .saveIntermediates => if o.saveIntermediates then some true else none
  | .minSuspiciousEvents => o.minSuspiciousEvents
  | .syntheticEventSeed => o.syntheticEventSeed.map some

theorem get_apply (o : Overrides) (c : Config) (s : Setting) :
    (o.apply c).get s = (o.given s).getD (c.get s) := by
  cases s with
  | saveIntermediates =>
    change (c.saveIntermediates || o.saveIntermediates) =
      (if o.saveIntermediates then some true else none).getD c.saveIntermediates
    cases o.saveIntermediates with
    | true => simp
    | false => simp
  | syntheticEventSeed =>
    change o.syntheticEventSeed.orElse (fun _ => c.syntheticEventSeed) =
      (o.syntheticEventSeed.map some).getD c.syntheticEventSeed
    cases o.syntheticEventSeed with
    | none => rfl
    | some seed => rfl
  | _ => rfl

end Overrides

end TradeWatch

/-
The settings that a detector accepts, as one record of bounds. In particular every accepted window
has a length in time.
-/
import TradeWatch.Config.Basic
import TradeWatch.Window.Length
import TradeWatch.Proofs.FirstFailure

namespace TradeWatch.Config

/-- The bounds that the settings of a detector keep. -/
structure Accepted (c : Config) : Prop where
  preAnnouncementDays :
    0 < c.preAnnouncementWindowDays ∧ c.preAnnouncementWindowDays ≤ maxWindowDays
  networkDays : 0 < c.networkWindowDays ∧ c.networkWindowDays ≤ maxWindowDays
  leakageHours : 0 < c.leakageWindowHours ∧ c.leakageWindowHours ≤ maxWindowDays * 24
  volumeMultiplier : 0.0 < c.abnormalVolumeMultiplier
  profitThreshold : c.profitThreshold.isFinite
  leakageMinAccounts : 1 ≤ c.leakageMinAccounts
  minSuspiciousEvents : 1 ≤ c.minSuspiciousEvents
  severities : c.severityMediumOccurrences ≤ c.severityHighOccurrences

theorem checkWindow_eq_ok_iff {setting : Setting} {value limit : Int} :
    checkWindow setting value limit = .ok () ↔ 0 < value ∧ value ≤ limit := by
  unfold checkWindow
  split
  · simp only [reduceCtorEq, false_iff]
    omega
  · split
    · simp only [reduceCtorEq, false_iff]
      omega
    · simp only [true_iff]
      omega

theorem bind_unit_eq_ok_iff {x : Except ConfigError Unit} {f : Unit → Except ConfigError Unit} :
    (x >>= f) = .ok () ↔ x = .ok () ∧ f () = .ok () := by
  rw [bind_eq_ok_iff]
  constructor
  · rintro ⟨⟨⟩, hx, hf⟩
    exact ⟨hx, hf⟩
  · exact fun h => ⟨(), h⟩

theorem validate_eq_ok_iff {c : Config} : c.validate = .ok () ↔ c.Accepted := by
  unfold validate
  rw [bind_unit_eq_ok_iff, bind_unit_eq_ok_iff, bind_unit_eq_ok_iff, checkWindow_eq_ok_iff,
    checkWindow_eq_ok_iff, checkWindow_eq_ok_iff]
  constructor
  · rintro ⟨hpre, hnetwork, hleakage, h⟩
    split at h
    · cases h
    rename_i hmultiplier
    split at h
    · cases h
    rename_i hthreshold
    split at h
    · cases h
    split at h
    · cases h
    split at h
    · cases h
    exact ⟨hpre, hnetwork, hleakage, Classical.not_not.1 hmultiplier,
      Classical.not_not.1 hthreshold, by omega, by omega, by omega⟩
  · intro h
    have haccounts := h.leakageMinAccounts
    have hevents := h.minSuspiciousEvents
    have hseverities := h.severities
    refine ⟨h.preAnnouncementDays, h.networkDays, h.leakageHours, ?_⟩
    rw [if_neg (Classical.not_not.2 h.volumeMultiplier),
      if_neg (Classical.not_not.2 h.profitThreshold), if_neg (by omega), if_neg (by omega),
      if_neg (by omega)]

/-- A window setting that passed its check has a length, as far as its unit reaches. -/
theorem length?_of_checked {m : Window.Measure} {value limit : Int}
    (h : 0 < value ∧ value ≤ limit) (hm : limit ≤ m.limit) :
    Window.length? m value = some (value * m.nanos) := by
  refine if_pos ?_
  omega

end TradeWatch.Config

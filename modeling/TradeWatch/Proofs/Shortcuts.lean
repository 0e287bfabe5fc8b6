/-
The rules without their shortcuts. A rule that has no trades, no events or no relations to look at
stops at once; had it gone on, it would have found nothing either. So with a window that has a
length a rule finds the candidates of all events in their order, and the alerts for their groups.
The last rule is an exception: without trades it would count windows with no account at all if it
asked for none.
-/
import TradeWatch.Proofs.Candidates
import TradeWatch.Proofs.Window

namespace TradeWatch.Rule

/-! ## Nothing to look at -/

theorem ascending_nil {κ : Type} [BEq κ] (le : κ → κ → Bool) : ascending le [] = [] := by
  unfold ascending
  rw [List.eraseDups_nil, List.mergeSort_nil]

theorem buyers_nil : buyers [] = [] :=
  ascending_nil textLe

theorem buyActivity_nil : buyActivity [] = [] := by
  have haccounts := accounts_buyActivity []
  rwa [buyers_nil, List.map_eq_nil_iff] at haccounts

theorem window_nil (instrument : String) (start stop : Time.Instant) :
    (TradeIndex.ofTrades []).window instrument start stop = [] := by
  rw [TradeIndex.window_ofTrades, List.filter_nil, List.mergeSort_nil]

theorem PreAnnouncementCandidate.ofEvent_nil (baselines : List (String × VolumeBaseline))
    (multiplier : Float) (length : Int) (event : CorporateEvent) :
    ofEvent (.ofTrades []) baselines multiplier length event = [] := by
  unfold ofEvent
  split
  · rfl
  · simp only [window_nil, buyActivity_nil, List.map_nil, List.filter_nil]

theorem NetworkCandidate.ofEvent_nil (accounts : List Account) (length : Int)
    (event : CorporateEvent) : ofEvent (.ofTrades []) accounts length event = [] := by
  rw [ofEvent_eq_filterMap]
  split
  · rfl
  · rw [window_nil, buyers_nil]
    rfl

theorem NetworkCandidate.relations_of_all_isEmpty {accounts : List Account}
    (h : accounts.all (·.related.isEmpty) = true) (id : String) : relations accounts id = [] := by
  have hnone : (accounts.filter fun a => a.id == id && !a.related.isEmpty) = [] := by
    rw [List.filter_eq_nil_iff]
    intro a ha hrelated
    simp [List.all_eq_true.1 h a ha] at hrelated
  unfold relations
  rw [hnone]
  rfl

theorem NetworkCandidate.ofEvent_of_all_isEmpty (index : TradeIndex) {accounts : List Account}
    (h : accounts.all (·.related.isEmpty) = true) (length : Int) (event : CorporateEvent) :
    ofEvent index accounts length event = [] := by
  rw [ofEvent_eq_filterMap]
  split
  · rfl
  · rw [List.filterMap_eq_nil_iff]
    intro account _
    unfold ofBuyer?
    rw [relations_of_all_isEmpty h]
    rfl

theorem ProfitCandidate.ofEvent_nil (threshold : Float) (length : Int) (event : CorporateEvent) :
    ofEvent (.ofTrades []) threshold length event = [] := by
  unfold ofEvent
  split
  · simp only [window_nil, buyActivity_nil, List.filterMap_nil, List.filter_nil, ite_self]
  · rfl

theorem LeakageCandidate.ofEvent?_nil {leastAccounts : Nat} (h : 1 ≤ leastAccounts) (length : Int)
    (event : CorporateEvent) : ofEvent? (.ofTrades []) leastAccounts length event = none := by
  unfold ofEvent?
  split
  · rfl
  · simp only [window_nil, buyActivity_nil]
    exact if_pos h

/-! ## Whole rules -/

/-- What a rule makes of its candidates. -/
def Outcome.ofCandidates {κ γ : Type} [BEq κ] (rule : RuleId) (le : κ → κ → Bool) (key : γ → κ)
    (event : γ → String) (least : Nat) (raise : Group κ γ → Alert) (candidates : List γ) :
    Outcome γ :=
  ⟨rule, candidates, alertsOf least raise (groups le key event candidates), []⟩

theorem Outcome.ofCandidates_nil {κ γ : Type} [BEq κ] (rule : RuleId) (le : κ → κ → Bool)
    (key : γ → κ) (event : γ → String) (least : Nat) (raise : Group κ γ → Alert) :
    ofCandidates rule le key event least raise [] = nothing rule := by
  unfold ofCandidates groups grouped
  rw [List.map_nil, ascending_nil]
  rfl

section WholeRules

variable {trades : List Trade} {accounts : List Account} {events : List CorporateEvent} {c : Config}
  {engine : AlertEngine} {length : Int}

/-- A rule whose window has no length finds nothing. -/
theorem preAnnouncement_of_none (h : Window.length? Window.days c.preAnnouncementWindowDays = none) :
    (preAnnouncement trades events c engine).candidates = [] ∧
      (preAnnouncement trades events c engine).alerts = [] := by
  unfold preAnnouncement
  rw [h]
  split <;> exact ⟨rfl, rfl⟩

theorem network_of_none (h : Window.length? Window.days c.networkWindowDays = none) :
    (network trades accounts events c engine).candidates = [] ∧
      (network trades accounts events c engine).alerts = [] := by
  unfold network
  rw [h]
  split <;> exact ⟨rfl, rfl⟩

theorem abnormalProfit_of_none (h : Window.length? Window.days c.preAnnouncementWindowDays = none) :
    (abnormalProfit trades events c engine).candidates = [] ∧
      (abnormalProfit trades events c engine).alerts = [] := by
  unfold abnormalProfit
  rw [h]
  split <;> exact ⟨rfl, rfl⟩

theorem informationLeakage_of_none (h : Window.length? Window.hours c.leakageWindowHours = none) :
    (informationLeakage trades events c engine).candidates = [] ∧
      (informationLeakage trades events c engine).alerts = [] := by
  unfold informationLeakage
  rw [h]
  split <;> exact ⟨rfl, rfl⟩

theorem preAnnouncement_eq
    (h : Window.length? Window.days c.preAnnouncementWindowDays = some length) :
    preAnnouncement trades events c engine =
      .ofCandidates .preAnnouncementTrading pairLe PreAnnouncementCandidate.key (·.event)
        c.minSuspiciousEvents (PreAnnouncementCandidate.alert engine)
        (events.flatMap (PreAnnouncementCandidate.ofEvent (.ofTrades trades)
          (VolumeBaseline.ofHistory trades) c.abnormalVolumeMultiplier length)) := by
  unfold preAnnouncement
  split
  · rename_i hempty
    rw [Bool.or_eq_true, List.isEmpty_iff, List.isEmpty_iff] at hempty
    rcases hempty with rfl | rfl
    · rw [List.flatMap_eq_nil_iff.2 fun e _ => PreAnnouncementCandidate.ofEvent_nil ..,
        Outcome.ofCandidates_nil]
    · rw [List.flatMap_nil, Outcome.ofCandidates_nil]
  · rw [h]
    rfl

theorem network_eq (h : Window.length? Window.days c.networkWindowDays = some length) :
    network trades accounts events c engine =
      .ofCandidates .networkTrading textLe (·.account) (·.event) c.minSuspiciousEvents
        (NetworkCandidate.alert engine)
        (events.flatMap (NetworkCandidate.ofEvent (.ofTrades trades) accounts length)) := by
  unfold network
  split
  · rename_i hempty
    rw [Bool.or_eq_true, Bool.or_eq_true, List.isEmpty_iff, List.isEmpty_iff] at hempty
    rcases hempty with (hrelated | rfl) | rfl
    · rw [List.flatMap_eq_nil_iff.2 fun e _ =>
          NetworkCandidate.ofEvent_of_all_isEmpty _ hrelated length e, Outcome.ofCandidates_nil]
    · rw [List.flatMap_eq_nil_iff.2 fun e _ => NetworkCandidate.ofEvent_nil ..,
        Outcome.ofCandidates_nil]
    · rw [List.flatMap_nil, Outcome.ofCandidates_nil]
  · rw [h]
    rfl

theorem abnormalProfit_eq
    (h : Window.length? Window.days c.preAnnouncementWindowDays = some length) :
    abnormalProfit trades events c engine =
      .ofCandidates .abnormalProfit textLe (·.account) (·.event) c.minSuspiciousEvents
        (ProfitCandidate.alert engine)
        (events.flatMap (ProfitCandidate.ofEvent (.ofTrades trades) c.profitThreshold length)) := by
  unfold abnormalProfit
  split
  · rename_i hempty
    rw [Bool.or_eq_true, List.isEmpty_iff, List.isEmpty_iff] at hempty
    rcases hempty with rfl | rfl
    · rw [List.flatMap_eq_nil_iff.2 fun e _ => ProfitCandidate.ofEvent_nil ..,
        Outcome.ofCandidates_nil]
    · rw [List.flatMap_nil, Outcome.ofCandidates_nil]
  · rw [h]
    rfl

theorem informationLeakage_eq (hleast : trades ≠ [] ∨ 1 ≤ c.leakageMinAccounts)
    (h : Window.length? Window.hours c.leakageWindowHours = some length) :
    informationLeakage trades events c engine =
      .ofCandidates .informationLeakage textLe (·.instrument) (·.event) c.minSuspiciousEvents
        (LeakageCandidate.alert c engine)
        (events.filterMap
          (LeakageCandidate.ofEvent? (.ofTrades trades) c.leakageMinAccounts length)) := by
  unfold informationLeakage
  split
  · rename_i hempty
    rw [Bool.or_eq_true, List.isEmpty_iff, List.isEmpty_iff] at hempty
    rcases hempty with rfl | rfl
    · have hone : 1 ≤ c.leakageMinAccounts := hleast.resolve_left fun h => h rfl
      rw [List.filterMap_eq_nil_iff.2 fun e _ => LeakageCandidate.ofEvent?_nil hone length e,
        Outcome.ofCandidates_nil]
    · rw [List.filterMap_nil, Outcome.ofCandidates_nil]
  · rw [h]
    rfl

theorem informationLeakage_eq_flatMap (htrades : trades ≠ [])
    (h : Window.length? Window.hours c.leakageWindowHours = some length) :
    informationLeakage trades events c engine =
      .ofCandidates .informationLeakage textLe (·.instrument) (·.event) c.minSuspiciousEvents
        (LeakageCandidate.alert c engine)
        (events.flatMap fun event => (LeakageCandidate.ofEvent? (.ofTrades trades)
          c.leakageMinAccounts length event).toList) := by
  rw [informationLeakage_eq (.inl htrades) h, List.filterMap_eq_flatMap_toList]

end WholeRules

end TradeWatch.Rule

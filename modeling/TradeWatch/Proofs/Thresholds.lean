/-
Thresholds on counts only filter. Who asks for more events gets the same candidates and, of the
alerts, those that count enough, as they stood; who asks for more accounts in a leakage gets the
candidates that have enough, and so no alert that was not there before. Neither threshold reaches
the sums, the scores or the order of what is left.
-/
import TradeWatch.Proofs.EventByEvent
import TradeWatch.Proofs.EventGrowth

namespace TradeWatch.Rule

/-! ## Asking for more events -/

section Events

variable {κ γ : Type} {m m' : Nat}

/-- What is left of an outcome for one who asks for at least `least` events. -/
def Outcome.restrict (least : Nat) (o : Outcome γ) : Outcome γ :=
  { o with alerts := o.alerts.filter fun a => a.occurrences?.any fun n => decide (least ≤ n) }

/-- The groups with enough events are those whose alerts count enough. -/
theorem filter_alertsOf (h : m ≤ m') {raise : Group κ γ → Alert}
    (hraise : ∀ g, (raise g).occurrences? = some g.occurrences) (gs : List (Group κ γ)) :
    ((alertsOf m raise gs).filter fun a => a.occurrences?.any fun n => decide (m' ≤ n)) =
      alertsOf m' raise gs := by
  unfold alertsOf
  rw [List.filter_map, List.filter_filter]
  congr 1
  refine List.filter_congr fun g _ => ?_
  rw [Function.comp_apply, hraise, Option.any_some, Bool.eq_iff_iff, Bool.and_eq_true,
    decide_eq_true_iff, decide_eq_true_iff]
  omega

/-- Whatever a rule counts by, it raises its alerts behind the threshold. -/
theorem Outcome.restrict_ofCandidates [BEq κ] (h : m ≤ m') (rule : RuleId) (le : κ → κ → Bool)
    (key : γ → κ) (event : γ → String) {raise : Group κ γ → Alert}
    (hraise : ∀ g, (raise g).occurrences? = some g.occurrences) (candidates : List γ) :
    (ofCandidates rule le key event m raise candidates).restrict m' =
      ofCandidates rule le key event m' raise candidates := by
  unfold ofCandidates restrict
  rw [filter_alertsOf h hraise]

variable {c c' : Config} {idle : Bool} {find find' : Int → Outcome γ}

theorem restrict_outline (rule : RuleId) (hvalue : rule.windowValue c' = rule.windowValue c)
    (hfind : ∀ length, (find length).restrict m' = find' length) :
    (outline c rule idle find).restrict m' = outline c' rule idle find' :=
  outline_rel (R := fun o o' => o.restrict m' = o') rule hvalue rfl (fun _ _ => rfl) (hfind _)

end Events

section Rules

variable (trades : List Trade) (accounts : List Account) (events : List CorporateEvent)
  (c : Config) (engine : AlertEngine) {m m' : Nat}

theorem restrict_preAnnouncement (h : m ≤ m') :
    (preAnnouncement trades events { c with minSuspiciousEvents := m } engine).restrict m' =
      preAnnouncement trades events { c with minSuspiciousEvents := m' } engine := by
  refine restrict_outline .preAnnouncementTrading rfl fun length => ?_
  exact Outcome.restrict_ofCandidates h _ _ _ _ (fun g => occurrences?_raiseScored ..) _

theorem restrict_network (h : m ≤ m') :
    (network trades accounts events { c with minSuspiciousEvents := m } engine).restrict m' =
      network trades accounts events { c with minSuspiciousEvents := m' } engine := by
  refine restrict_outline .networkTrading rfl fun length => ?_
  exact Outcome.restrict_ofCandidates h _ _ _ _ (fun g => occurrences?_raiseScored ..) _

theorem restrict_abnormalProfit (h : m ≤ m') :
    (abnormalProfit trades events { c with minSuspiciousEvents := m } engine).restrict m' =
      abnormalProfit trades events { c with minSuspiciousEvents := m' } engine := by
  refine restrict_outline .abnormalProfit rfl fun length => ?_
  exact Outcome.restrict_ofCandidates h _ _ _ _ (fun g => occurrences?_raiseScored ..) _

theorem restrict_informationLeakage (h : m ≤ m') :
    (informationLeakage trades events { c with minSuspiciousEvents := m } engine).restrict m' =
      informationLeakage trades events { c with minSuspiciousEvents := m' } engine := by
  refine restrict_outline .informationLeakage rfl fun length => ?_
  exact Outcome.restrict_ofCandidates h _ _ _ _ (fun g => occurrences?_raiseScored ..) _

end Rules

/-! ## Asking for more accounts -/

/-- The second outcome has the candidates of the first one with at least `least` accounts, and no
alert that the first one does not have for the same instrument, counting no less. -/
structure LeavesAccounts (least : Nat) (o o' : Outcome LeakageCandidate) : Prop where
  candidates : o'.candidates = o.candidates.filter fun x => decide (least ≤ x.accounts)
  alerts : ∀ a ∈ o'.alerts, ∃ b ∈ o.alerts, a.GrowsTo b

section Accounts

variable {k k' : Nat}

theorem LeakageCandidate.filter_ofEvent? (h : k ≤ k') (index : TradeIndex) (length : Int)
    (event : CorporateEvent) :
    ((ofEvent? index k length event).filter fun x => decide (k' ≤ x.accounts)) =
      ofEvent? index k' length event := by
  unfold ofEvent?
  split
  · rfl
  · rename_i start hstart
    simp only
    split
    · rename_i hfew
      rw [if_pos (by omega)]
      rfl
    · rename_i hmany
      rw [Option.filter_some]
      simp only [decide_eq_true_eq, ← not_lt, ite_not]

theorem leavesAccounts_informationLeakage (h : k ≤ k') (trades : List Trade)
    (events : List CorporateEvent) (c : Config) (engine : AlertEngine) :
    LeavesAccounts k' (informationLeakage trades events { c with leakageMinAccounts := k } engine)
      (informationLeakage trades events { c with leakageMinAccounts := k' } engine) := by
  have hnone : ∀ a ∈ ([] : List Alert), ∃ b ∈ ([] : List Alert), a.GrowsTo b :=
    fun a ha => nomatch ha
  have hcandidates : ∀ length,
      events.filterMap (LeakageCandidate.ofEvent? (.ofTrades trades) k' length) =
        (events.filterMap (LeakageCandidate.ofEvent? (.ofTrades trades) k length)).filter
          fun x => decide (k' ≤ x.accounts) := by
    intro length
    rw [List.filter_filterMap]
    exact List.filterMap_congr fun e _ => (LeakageCandidate.filter_ofEvent? h _ length e).symm
  refine outline_rel .informationLeakage rfl ⟨rfl, hnone⟩ (fun _ _ => ⟨rfl, hnone⟩) ?_
  refine ⟨hcandidates _, exists_growsTo_of_subset ?_ fun _ _ => LeakageCandidate.growsTo_alert⟩
  rw [hcandidates]
  exact List.filter_subset_self _

end Accounts

/-- Of two runs that differ in how many events they ask for, the one that asks for more has the same
candidates and those of the other's alerts that count as many, unchanged and in their order. Of two
runs that differ in how many accounts they ask for in a leakage, the one that asks for more has
those of the other's candidates that have as many, and each of its alerts has a counterpart. -/
theorem thresholds_only_filter (trades : List Trade) (accounts : List Account)
    (events : List CorporateEvent) (c : Config) (engine : AlertEngine) {m m' k k' : Nat}
    (hm : m ≤ m') (hk : k ≤ k') :
    let fewEvents := { c with minSuspiciousEvents := m }
    let manyEvents := { c with minSuspiciousEvents := m' }
    let fewAccounts := { c with leakageMinAccounts := k }
    let manyAccounts := { c with leakageMinAccounts := k' }
    preAnnouncement trades events manyEvents engine =
        (preAnnouncement trades events fewEvents engine).restrict m' ∧
      network trades accounts events manyEvents engine =
        (network trades accounts events fewEvents engine).restrict m' ∧
      abnormalProfit trades events manyEvents engine =
        (abnormalProfit trades events fewEvents engine).restrict m' ∧
      informationLeakage trades events manyEvents engine =
        (informationLeakage trades events fewEvents engine).restrict m' ∧
      LeavesAccounts k' (informationLeakage trades events fewAccounts engine)
        (informationLeakage trades events manyAccounts engine) := by
  refine ⟨?_, ?_, ?_, ?_, ?_⟩
  · exact (restrict_preAnnouncement trades events c engine hm).symm
  · exact (restrict_network trades accounts events c engine hm).symm
  · exact (restrict_abnormalProfit trades events c engine hm).symm
  · exact (restrict_informationLeakage trades events c engine hm).symm
  · exact leavesAccounts_informationLeakage hk trades events c engine

/-- Nobody buys ahead of the report; where a buyer is asked for, the takeover alone is left. -/
theorem thresholds_only_filter_eveOfTakeover :
    let engine : AlertEngine := .ofConfig {} takeover.announced
    let leakage (events accounts : Nat) := informationLeakage eveOfTakeover [takeover, earnings]
      { minSuspiciousEvents := events, leakageMinAccounts := accounts } engine
    (1 ≤ 2 ∧ 0 ≤ 1) ∧
      ((leakage 1 0).candidates.length = 2 ∧ (leakage 1 1).candidates.length = 1 ∧
        (leakage 1 1).alerts.length = 1) ∧
      leakage 2 1 = (leakage 1 1).restrict 2 ∧ LeavesAccounts 1 (leakage 1 0) (leakage 1 1) := by
  intro engine leakage
  have hm : 1 ≤ 2 := by decide
  have hk : 0 ≤ 1 := by decide
  obtain ⟨-, -, -, hevents, -⟩ := thresholds_only_filter eveOfTakeover [] [takeover, earnings]
    { leakageMinAccounts := 1 } engine hm hk
  obtain ⟨-, -, -, -, haccounts⟩ := thresholds_only_filter eveOfTakeover [] [takeover, earnings]
    { minSuspiciousEvents := 1 } engine hm hk
  exact ⟨⟨hm, hk⟩, by decide +kernel, hevents, haccounts⟩

end TradeWatch.Rule

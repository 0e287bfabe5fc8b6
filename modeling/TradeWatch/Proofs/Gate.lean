/-
The alert gate: the alerts of a rule are those of the groups of its candidates that have enough
different events, one for each such group and none for any other, in the byte order of the keys.
Each alert names what the candidates of its group say and counts their different events.
-/
import TradeWatch.Proofs.Candidates
import TradeWatch.Proofs.Groups

namespace TradeWatch.Rule

/-! ## Gated alerts -/

section Gated

variable {κ γ : Type} [DecidableEq κ]

/-- `alerts` holds one alert for each key with at least `least` different events among its
candidates, in the order `Before` of the keys. Each counts those events and describes the
candidates of its key. -/
def Gated (Before : κ → κ → Prop) (key : γ → κ) (event : γ → String)
    (Describes : κ → List γ → Alert → Prop) (least : Nat) (candidates : List γ)
    (alerts : List Alert) : Prop :=
  ∃ keys : List κ, keys.Pairwise Before ∧
    (∀ k, k ∈ keys ↔
      k ∈ candidates.map key ∧ least ≤ eventCount event (membersOf key candidates k)) ∧
    List.Forall₂ (fun k a =>
      a.occurrences? = some (eventCount event (membersOf key candidates k)) ∧
        Describes k (membersOf key candidates k) a) keys alerts

theorem gated_nil (Before : κ → κ → Prop) (key : γ → κ) (event : γ → String)
    (Describes : κ → List γ → Alert → Prop) (least : Nat) :
    Gated Before key event Describes least [] [] :=
  ⟨[], .nil, by simp, .nil⟩

/-- A rule is gated when what it raises for one group counts the events of the group and describes
its members. -/
theorem gated_alertsOf [BEq κ] [LawfulBEq κ] {le : κ → κ → Bool} (hle : LinearLe le)
    {Before : κ → κ → Prop} (hb : ∀ a b, le a b = true → a ≠ b → Before a b) (key : γ → κ)
    (event : γ → String) {Describes : κ → List γ → Alert → Prop} (least : Nat) (candidates : List γ)
    (raise : Group κ γ → Alert) (hn : ∀ g, (raise g).occurrences? = some g.occurrences)
    (hd : ∀ k, Describes k (membersOf key candidates k) (raise (groupOf key event candidates k))) :
    Gated Before key event Describes least candidates
      (alertsOf least raise (groups le key event candidates)) := by
  -- the keys are those whose groups pass the filter, in the order of the groups
  refine ⟨(ascending le (candidates.map key)).filter fun k =>
    decide (least ≤ (groupOf key event candidates k).occurrences), ?_, fun k => ?_, ?_⟩
  · exact ((pairwise_ascending hle _).imp fun {a b} h => hb a b h.1 h.2).filter _
  · rw [List.mem_filter, mem_ascending, decide_eq_true_iff, occurrences_groupOf]
  · unfold alertsOf
    rw [groups_eq, List.filter_map, List.map_map, List.forall₂_map_right_iff]
    refine List.forall₂_same.2 fun k _ => ?_
    refine ⟨?_, hd k⟩
    rw [Function.comp_apply, hn, occurrences_groupOf]

end Gated

/-! ## What the alerts of each rule say -/

/-- An alert on an account and an instrument, with the different events in the evidence. -/
structure PreAnnouncementCandidate.Describes (k : String × String)
    (members : List PreAnnouncementCandidate) (a : Alert) : Prop where
  rule : a.rule = .preAnnouncementTrading
  accounts : a.accounts = [k.1]
  instruments : a.instruments = [k.2]
  events : ∃ ids, SortedDistinct ids (members.map (·.event)) ∧
    a.evidence.get? "event_ids" = some (.strings ids)

/-- An alert on an account and the accounts that bought beside it, which it is not one of. -/
structure NetworkCandidate.Describes (k : String) (members : List NetworkCandidate) (a : Alert) :
    Prop where
  rule : a.rule = .networkTrading
  accounts : ∃ related, SortedDistinct related (members.flatMap (·.related)) ∧ k ∉ related ∧
    a.accounts = k :: related ∧ a.evidence.get? "related_accounts" = some (.strings related)
  instruments : SortedDistinct a.instruments (members.map (·.instrument))
  instrumentCount : a.evidence.get? "num_instruments" = some (.ofNat a.instruments.length)

/-- An alert on an account and the instruments it gained with. -/
structure ProfitCandidate.Describes (k : String) (members : List ProfitCandidate) (a : Alert) :
    Prop where
  rule : a.rule = .abnormalProfit
  accounts : a.accounts = [k]
  instruments : SortedDistinct a.instruments (members.map (·.instrument))
  instrumentCount : a.evidence.get? "num_instruments" = some (.ofNat a.instruments.length)

/-- An alert on an instrument and no account, with the greatest buyers in the evidence. -/
structure LeakageCandidate.Describes (k : String) (members : List LeakageCandidate) (a : Alert) :
    Prop where
  rule : a.rule = .informationLeakage
  accounts : a.accounts = []
  instruments : a.instruments = [k]
  topAccounts : ∃ ids, SortedDistinct ids (members.map (·.topAccount)) ∧
    a.evidence.get? "top_accounts" = some (.strings ids)

theorem PreAnnouncementCandidate.describes_alert (engine : AlertEngine)
    (candidates : List PreAnnouncementCandidate) (k : String × String) :
    Describes k (membersOf key candidates k)
      (alert engine (groupOf key (·.event) candidates k)) := by
  refine ⟨rfl, rfl, rfl, _, sortedDistinct_ascending _, ?_⟩
  refine (get?_evidence_raiseScored _ _ _ _ _ _ (by decide)).trans ?_
  simp [Dict.ofList, groupOf]

theorem NetworkCandidate.describes_alert (engine : AlertEngine) {candidates : List NetworkCandidate}
    (h : ∀ c ∈ candidates, c.account ∉ c.related) (k : String) :
    Describes k (membersOf (·.account) candidates k)
      (alert engine (groupOf (·.account) (·.event) candidates k)) := by
  refine ⟨rfl, ⟨_, sortedDistinct_ascending _, fun hk => ?_, rfl, ?_⟩, sortedDistinct_ascending _, ?_⟩
  · -- whoever is in the list is related to a candidate of this account
    obtain ⟨c, hc, hkc⟩ := List.mem_flatMap.1 (mem_ascending.1 hk)
    obtain ⟨hmem, rfl⟩ := mem_membersOf.1 hc
    exact h c hmem hkc
  · refine (get?_evidence_raiseScored _ _ _ _ _ _ (by decide)).trans ?_
    simp [Dict.ofList, groupOf]
  · refine (get?_evidence_raiseScored _ _ _ _ _ _ (by decide)).trans ?_
    simp [Dict.ofList, Dict.get?_insert, groupOf, alert, AlertEngine.raise, AlertEngine.raiseScored]

theorem ProfitCandidate.describes_alert (engine : AlertEngine) (candidates : List ProfitCandidate)
    (k : String) :
    Describes k (membersOf (·.account) candidates k)
      (alert engine (groupOf (·.account) (·.event) candidates k)) := by
  refine ⟨rfl, rfl, sortedDistinct_ascending _, ?_⟩
  refine (get?_evidence_raiseScored _ _ _ _ _ _ (by decide)).trans ?_
  simp [Dict.ofList, groupOf, alert, AlertEngine.raise, AlertEngine.raiseScored]

theorem LeakageCandidate.describes_alert (c : Config) (engine : AlertEngine)
    (candidates : List LeakageCandidate) (k : String) :
    Describes k (membersOf (·.instrument) candidates k)
      (alert c engine (groupOf (·.instrument) (·.event) candidates k)) := by
  refine ⟨rfl, rfl, rfl, _, sortedDistinct_ascending _, ?_⟩
  refine (get?_evidence_raiseScored _ _ _ _ _ _ (by decide)).trans ?_
  simp [Dict.ofList, groupOf, Group.distinct]

/-! ## The rules one by one -/

theorem textBefore {a b : String} (h : textLe a b = true) (hne : a ≠ b) :
    Text.bytes a < Text.bytes b :=
  Text.lt_iff_bytes_lt.1 (lt_of_le_of_ne (textLe_iff.1 h) hne)

/-- The order of texts by their bytes. -/
def TextBefore (a b : String) : Prop :=
  Text.bytes a < Text.bytes b

/-- The order of pairs of texts, by the bytes of the first ones and then by those of the second. -/
def PairBefore (a b : String × String) : Prop :=
  Text.bytes a.1 < Text.bytes b.1 ∨ a.1 = b.1 ∧ Text.bytes a.2 < Text.bytes b.2

theorem pairBefore {a b : String × String} (h : pairLe a b = true) (hne : a ≠ b) :
    PairBefore a b := by
  rw [pairLe_iff] at h
  have hlt : toLex a < toLex b := lt_of_le_of_ne h fun e => hne (toLex_inj.1 e)
  rw [Prod.Lex.toLex_lt_toLex] at hlt
  rcases hlt with h1 | ⟨h1, h2⟩
  · exact .inl (Text.lt_iff_bytes_lt.1 h1)
  · exact .inr ⟨h1, Text.lt_iff_bytes_lt.1 h2⟩

variable (trades : List Trade) (accounts : List Account) (events : List CorporateEvent) (c : Config)
  (engine : AlertEngine)

theorem gated_preAnnouncement :
    Gated PairBefore PreAnnouncementCandidate.key (·.event) PreAnnouncementCandidate.Describes
      c.minSuspiciousEvents (preAnnouncement trades events c engine).candidates
      (preAnnouncement trades events c engine).alerts := by
  refine preAnnouncement_elim (gated_nil ..) fun length => ?_
  exact gated_alertsOf linearLe_pair (fun _ _ => pairBefore) _ _ _ _ _
    (fun g => occurrences?_raiseScored ..) (PreAnnouncementCandidate.describes_alert engine _)

theorem gated_network :
    Gated TextBefore (·.account) (·.event) NetworkCandidate.Describes c.minSuspiciousEvents
      (network trades accounts events c engine).candidates
      (network trades accounts events c engine).alerts := by
  refine network_elim (gated_nil ..) fun length => ?_
  refine gated_alertsOf linearLe_text (fun _ _ => textBefore) _ _ _ _ _
    (fun g => occurrences?_raiseScored ..) (NetworkCandidate.describes_alert engine fun c hc => ?_)
  exact (NetworkCandidate.of_mem_flatMap hc).2.1

theorem gated_abnormalProfit :
    Gated TextBefore (·.account) (·.event) ProfitCandidate.Describes c.minSuspiciousEvents
      (abnormalProfit trades events c engine).candidates
      (abnormalProfit trades events c engine).alerts := by
  refine abnormalProfit_elim (gated_nil ..) fun length => ?_
  exact gated_alertsOf linearLe_text (fun _ _ => textBefore) _ _ _ _ _
    (fun g => occurrences?_raiseScored ..) (ProfitCandidate.describes_alert engine _)

theorem gated_informationLeakage :
    Gated TextBefore (·.instrument) (·.event) LeakageCandidate.Describes c.minSuspiciousEvents
      (informationLeakage trades events c engine).candidates
      (informationLeakage trades events c engine).alerts := by
  refine informationLeakage_elim (gated_nil ..) fun length => ?_
  exact gated_alertsOf linearLe_text (fun _ _ => textBefore) _ _ _ _ _
    (fun g => occurrences?_raiseScored ..) (LeakageCandidate.describes_alert c engine _)

end TradeWatch.Rule

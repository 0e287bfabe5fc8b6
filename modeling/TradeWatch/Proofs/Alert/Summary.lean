/-
What a summary says about its alerts. The counts by severity and by rule are tallies of the alerts,
each adding up to their number, and the accounts are counted once however often they occur. All of
this is the same in any order of the alerts, adds up over two lists, and comes back from the table of
the summary.
-/
import TradeWatch.Alert.Summary
import TradeWatch.Proofs.Ascending
import TradeWatch.Proofs.Evidence
import TradeWatch.Proofs.Table.Cells
import TradeWatch.Proofs.Tally

namespace TradeWatch.AlertSummary

/-! ## Counting -/

/-- The summary counts the alerts: how many there are of each severity and of each rule, and how
many different accounts they name. -/
structure AccountsFor (s : AlertSummary) (alerts : List Alert) (source : EventSource) : Prop where
  total : s.total = alerts.length
  bySeverity : s.bySeverity.Tallies (·.severity.label) alerts
  byRule : s.byRule.Tallies (·.rule.code) alerts
  accounts : s.accounts = (alerts.flatMap (·.accounts)).toFinset.card
  eventsSynthesized : s.eventsSynthesized = true ↔ source = .synthesized

theorem accounts_ofAlerts (alerts : List Alert) (source : EventSource) :
    (ofAlerts alerts source).accounts = (alerts.flatMap (·.accounts)).toFinset.card := by
  rw [← length_ascending textLe, ascending, List.length_mergeSort]
  rfl

theorem accountsFor_ofAlerts (alerts : List Alert) (source : EventSource) :
    (ofAlerts alerts source).AccountsFor alerts source where
  total := rfl
  bySeverity := Dict.tallies_counts _ alerts
  byRule := Dict.tallies_counts _ alerts
  accounts := accounts_ofAlerts alerts source
  eventsSynthesized := by
    show (source == .synthesized) = true ↔ _
    rw [beq_iff_eq]

/-! ## Reordered and joined lists -/

/-- The order of the alerts shows in nothing but the average, which is a sum of doubles. -/
theorem ofAlerts_perm {alerts others : List Alert} (h : others.Perm alerts)
    (source : EventSource) : ∃ average,
      ofAlerts others source = { ofAlerts alerts source with averageConfidence := average } := by
  have haccounts : (ofAlerts others source).accounts = (ofAlerts alerts source).accounts := by
    rw [accounts_ofAlerts, accounts_ofAlerts,
      List.toFinset_eq_of_perm _ _ (h.flatMap_right fun a => a.accounts)]
  refine ⟨Stats.mean (others.map (·.confidence)), ?_⟩
  simp only [ofAlerts, mk.injEq, true_and, and_true]
  exact ⟨h.length_eq, Dict.counts_perm (h.map _), Dict.counts_perm (h.map _), haccounts⟩

/-- The counts of the whole are those of its parts together; accounts of both parts count once. -/
structure AddsUp (whole a b : AlertSummary) : Prop where
  total : whole.total = a.total + b.total
  bySeverity : ∀ label,
    whole.bySeverity.countOf label = a.bySeverity.countOf label + b.bySeverity.countOf label
  byRule : ∀ code, whole.byRule.countOf code = a.byRule.countOf code + b.byRule.countOf code
  accounts_ge : max a.accounts b.accounts ≤ whole.accounts
  accounts_le : whole.accounts ≤ a.accounts + b.accounts

theorem addsUp_append (alerts more : List Alert) (source : EventSource) :
    (ofAlerts (alerts ++ more) source).AddsUp (ofAlerts alerts source) (ofAlerts more source) := by
  have haccounts : (ofAlerts (alerts ++ more) source).accounts =
      ((alerts.flatMap (·.accounts)).toFinset ∪ (more.flatMap (·.accounts)).toFinset).card := by
    rw [accounts_ofAlerts, List.flatMap_append, List.toFinset_append]
  refine ⟨List.length_append, fun label => ?_, fun code => ?_, ?_, ?_⟩
  · simp only [ofAlerts, List.map_append]
    exact Dict.countOf_counts_append _ _ label
  · simp only [ofAlerts, List.map_append]
    exact Dict.countOf_counts_append _ _ code
  · rw [haccounts, accounts_ofAlerts, accounts_ofAlerts]
    apply max_le
    · exact Finset.card_le_card Finset.subset_union_left
    · exact Finset.card_le_card Finset.subset_union_right
  · rw [haccounts, accounts_ofAlerts, accounts_ofAlerts]
    exact Finset.card_union_le _ _

/-! ## The table -/

/-- The numbers of an object whose members are all counts. -/
def countsOf? (members : Dict Json) : Option (Dict Nat) :=
  members.mapM fun m => m.2.count?.map fun n => (m.1, n)

/-- The cell is a text that is read as the counts. -/
def ReadsAs (cell : Option String) (counts : Dict Nat) : Prop :=
  ∃ text members, cell = some text ∧ Json.parseObject text = .ok members ∧
    countsOf? members = some counts

theorem countsOf?_ofNat (counts : Dict Nat) :
    countsOf? (counts.map fun e => (e.1, .ofNat e.2)) = some counts := by
  induction counts with
  | nil => rfl
  | cons e counts ih =>
    unfold countsOf? at ih ⊢
    rw [List.map_cons, List.mapM_cons, ih]
    simp [Json.ofNat, Json.count?]

theorem readsAs_compact {counts : Dict Nat} (hsorted : Dict.Sorted counts)
    (hbound : ∀ e ∈ counts, e.2 < words64) : ReadsAs (some (countsJson counts).compact) counts := by
  refine ⟨_, _, rfl, Json.parseObject_compact (.obj ?_ ?_), countsOf?_ofNat counts⟩
  · exact List.pairwise_map.2 hsorted
  · intro m hm
    obtain ⟨e, he, rfl⟩ := List.mem_map.1 hm
    exact Json.nested_ofNat _ (hbound e he)

/-- The table holds the summary in one row, its counts as texts that are read back. -/
structure StoredIn (s : AlertSummary) (t : Table) : Prop where
  rows : t.rows = 1
  total : (t.row 0).cell "total_alerts" = .int (some s.total)
  bySeverity : ReadsAs ((t.row 0).text? "by_severity") s.bySeverity
  byRule : ReadsAs ((t.row 0).text? "by_rule") s.byRule
  average : (t.row 0).cell "avg_confidence" = .real (some s.averageConfidence)
  accounts : (t.row 0).cell "unique_accounts" = .int (some s.accounts)
  eventsSynthesized : (t.row 0).cell "events_synthesized" = .flag (some s.eventsSynthesized)

theorem exists_storedIn {s : AlertSummary} {alerts : List Alert} {source : EventSource}
    (h : s.AccountsFor alerts source) (htotal : s.total < 2 ^ 63) (haccounts : s.accounts < 2 ^ 63) :
    ∃ t, s.toTable = .ok t ∧ s.StoredIn t := by
  -- no single count is greater than the number of all alerts
  have hbound : ∀ {label : Alert → String} {d : Dict Nat}, d.Tallies label alerts →
      ∀ e ∈ d, e.2 < words64 := by
    intro label d hd e he
    have hle : e.2 ≤ alerts.length := (hd.recorded e he).2 ▸ List.countP_le_length
    have hlength := h.total
    unfold words64
    omega
  unfold toTable
  rw [if_pos (by unfold Column.maxCount signedEnd; omega)]
  refine ⟨_, rfl, rfl, rfl, ?_, ?_, rfl, rfl, rfl⟩
  · exact readsAs_compact h.bySeverity.sorted (hbound h.bySeverity)
  · exact readsAs_compact h.byRule.sorted (hbound h.byRule)

/-- A summary counts its alerts, in any order of them; over two lists the counts add up, and the
accounts come to no less than those of either and to no more than both together. As long as its counts
fit, its table has one row, from which both tallies are read back. -/
theorem ofAlerts_accounting (alerts : List Alert) (source : EventSource) :
    (ofAlerts alerts source).AccountsFor alerts source ∧
      (∀ others, others.Perm alerts → ∃ average,
        ofAlerts others source = { ofAlerts alerts source with averageConfidence := average }) ∧
      (∀ more, (ofAlerts (alerts ++ more) source).AddsUp (ofAlerts alerts source)
        (ofAlerts more source)) ∧
      ((ofAlerts alerts source).total < 2 ^ 63 → (ofAlerts alerts source).accounts < 2 ^ 63 →
        ∃ t, (ofAlerts alerts source).toTable = .ok t ∧ (ofAlerts alerts source).StoredIn t) := by
  have hcounts := accountsFor_ofAlerts alerts source
  exact ⟨hcounts, fun others h => ofAlerts_perm h source, fun more => addsUp_append alerts more source,
    exists_storedIn hcounts⟩

/-- An alert of a rule about some accounts. -/
def alertOn (rule : RuleId) (severity : Severity) (accounts : List String) : Alert :=
  { (default : Alert) with rule := rule, severity := severity, accounts := accounts }

/-- Three alerts, two of one rule and two about one account. -/
def threeAlerts : List Alert := [
  alertOn .networkTrading .high ["A2", "A1"], alertOn .preAnnouncementTrading .low ["A1"],
  alertOn .networkTrading .low []]

theorem ofAlerts_accounting_threeAlerts :
    let s := ofAlerts threeAlerts .loaded
    (threeAlerts.reverse.Perm threeAlerts ∧ s.total < 2 ^ 63 ∧ s.accounts < 2 ^ 63) ∧
      (∃ average, ofAlerts threeAlerts.reverse .loaded = { s with averageConfidence := average }) ∧
      ∃ t, s.toTable = .ok t ∧ s.StoredIn t := by
  intro s
  have hperm : threeAlerts.reverse.Perm threeAlerts := List.reverse_perm _
  have htotal : s.total < 2 ^ 63 := by decide
  have haccounts : s.accounts < 2 ^ 63 := by decide
  obtain ⟨-, hreordered, -, htable⟩ := ofAlerts_accounting threeAlerts .loaded
  exact ⟨⟨hperm, htotal, haccounts⟩, hreordered _ hperm, htable htotal haccounts⟩

end TradeWatch.AlertSummary

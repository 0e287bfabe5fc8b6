/-
Trading in a network, event by event: of those who buy the instrument in the window ahead of an
event, the rule finds the ones who are related to another of them. What an account is related to is
said over the rows of the accounts as they stand, where the last row of an account that lists
anything replaces those before it.
-/
import TradeWatch.Proofs.CandidateTables
import TradeWatch.Proofs.EventByEvent
import TradeWatch.Proofs.Run.Inputs

namespace TradeWatch.Rule

open Time (InCalendar)

namespace NetworkCandidate

/-! ## Relations -/

/-- What the rows say an account is related to. Rows that list nothing say nothing. -/
inductive RelationsOf (accounts : List Account) (id : String) : List String → Prop
  | nobody (silent : ∀ a ∈ accounts, a.id = id → a.related = []) : RelationsOf accounts id []
  | last (before : List Account) (row : Account) (after : List Account)
      (rows : accounts = before ++ row :: after) (own : row.id = id) (lists : row.related ≠ [])
      (silent : ∀ a ∈ after, a.id = id → a.related = []) : RelationsOf accounts id row.related

theorem related_eq_nil_of_not {id : String} {a : Account}
    (h : ¬ (a.id == id && !a.related.isEmpty) = true) (hid : a.id = id) : a.related = [] := by
  by_contra hne
  refine h ?_
  rw [hid, beq_self_eq_true, Bool.true_and, Bool.not_eq_true', List.isEmpty_eq_false_iff]
  exact hne

theorem relationsOf_relations (accounts : List Account) (id : String) :
    RelationsOf accounts id (relations accounts id) := by
  unfold relations
  cases hlast : (accounts.filter fun a => a.id == id && !a.related.isEmpty).getLast? with
  | none =>
    have hnone := List.filter_eq_nil_iff.1 (List.getLast?_eq_none_iff.1 hlast)
    exact .nobody fun a ha => related_eq_nil_of_not (hnone a ha)
  | some row =>
    obtain ⟨earlier, hrows⟩ := List.getLast?_eq_some_iff.1 hlast
    obtain ⟨before, rest, rfl, -, hrest⟩ := List.filter_eq_append_iff.1 hrows
    obtain ⟨between, after, rfl, -, hrow, hafter⟩ := List.filter_eq_cons_iff.1 hrest
    rw [Bool.and_eq_true, beq_iff_eq, Bool.not_eq_true', List.isEmpty_eq_false_iff] at hrow
    refine .last (before ++ between) row after (List.append_assoc ..).symm hrow.1 hrow.2 ?_
    exact fun a ha => related_eq_nil_of_not (List.filter_eq_nil_iff.1 hafter a ha)

/-- The rows of an account leave no choice. -/
theorem RelationsOf.unique {accounts : List Account} {id : String} {listed : List String}
    (h : RelationsOf accounts id listed) : listed = relations accounts id := by
  have hskip : ∀ rows : List Account, (∀ a ∈ rows, a.id = id → a.related = []) →
      (rows.filter fun a => a.id == id && !a.related.isEmpty) = [] := by
    intro rows silent
    rw [List.filter_eq_nil_iff]
    intro a ha hlists
    rw [Bool.and_eq_true, beq_iff_eq] at hlists
    rw [silent a ha hlists.1] at hlists
    cases hlists.2
  unfold relations
  cases h with
  | nobody silent => rw [hskip accounts silent, List.getLast?_nil]
  | last before row after rows own lists silent =>
    subst rows
    have hrow : (row.id == id && !row.related.isEmpty) = true := by
      rw [own, beq_self_eq_true, Bool.true_and, Bool.not_eq_true', List.isEmpty_eq_false_iff]
      exact lists
    rw [List.filter_append, List.filter_cons, if_pos hrow, hskip after silent,
      List.getLast?_append_cons]
    rfl

/-! ## One event -/

/-- What is reported of a buyer, where `listed` are the accounts it is related to: the others among
them that buy too. -/
def ofBuyer (event : CorporateEvent) (active : List String) (listed : String → List String)
    (account : String) : NetworkCandidate :=
  let related := (listed account).filter fun r => r ≠ account ∧ r ∈ active
  ⟨event.id, event.instrument, account, event.announced, related, related.length⟩

/-- What there is to find for one event, where the window goes `length` nanoseconds back. -/
structure Found (trades : List Trade) (accounts : List Account) (length : Int)
    (event : CorporateEvent) (found : List NetworkCandidate) : Prop where
  leftOut : ¬ InCalendar (event.announced.nanos - length) → found = []
  lookedAt : InCalendar (event.announced.nanos - length) → ∃ active listed,
    Buying trades (IsAhead event length) active ∧
      (∀ a ∈ active, RelationsOf accounts a (listed a)) ∧
      found = (active.filter fun a => ∃ r ∈ listed a, r ≠ a ∧ r ∈ active).map
        (ofBuyer event active listed)

theorem found_unique (trades : List Trade) (accounts : List Account) (length : Int) :
    Relator.RightUnique (Found trades accounts length) := by
  intro event found found' h h'
  by_cases hin : InCalendar (event.announced.nanos - length)
  · obtain ⟨active, listed, hactive, hlisted, rfl⟩ := h.lookedAt hin
    obtain ⟨active', listed', hactive', hlisted', rfl⟩ := h'.lookedAt hin
    obtain rfl := hactive.unique hactive'
    have hsame : ∀ a ∈ active, listed a = listed' a :=
      fun a ha => (hlisted a ha).unique.trans (hlisted' a ha).unique.symm
    rw [List.filter_congr fun a ha => by rw [hsame a ha]]
    refine List.map_congr_left fun a ha => ?_
    rw [ofBuyer, ofBuyer, hsame a (List.mem_filter.1 ha).1]
  · rw [h.leftOut hin, h'.leftOut hin]

section OfEvent

variable {trades : List Trade} {accounts : List Account} {length : Int} {event : CorporateEvent}

theorem ofBuyer?_eq (active : List String) (account : String) :
    ofBuyer? accounts event active account =
      if ∃ r ∈ relations accounts account, r ≠ account ∧ r ∈ active then
        some (ofBuyer event active (relations accounts) account)
      else none := by
  have hrelated : ((relations accounts account).filter fun r =>
      r != account && active.contains r) =
        (relations accounts account).filter fun r => r ≠ account ∧ r ∈ active := by
    refine List.filter_congr fun r _ => ?_
    rw [Bool.eq_iff_iff, Bool.and_eq_true, bne_iff_ne, List.contains_iff_mem, decide_eq_true_iff]
  unfold ofBuyer? ofBuyer
  simp only [hrelated, List.isEmpty_iff]
  by_cases hnone : (relations accounts account).filter (fun r => r ≠ account ∧ r ∈ active) = []
  · rw [if_pos hnone, if_neg ?_]
    rintro ⟨r, hr, hother⟩
    exact List.filter_eq_nil_iff.1 hnone r hr (decide_eq_true hother)
  · rw [if_neg hnone, if_pos ?_]
    obtain ⟨r, hr⟩ := List.exists_mem_of_ne_nil _ hnone
    obtain ⟨hr, hother⟩ := List.mem_filter.1 hr
    exact ⟨r, hr, of_decide_eq_true hother⟩

theorem found_ofEvent (trades : List Trade) (accounts : List Account) (length : Int)
    (event : CorporateEvent) :
    Found trades accounts length event (ofEvent (.ofTrades trades) accounts length event) := by
  rw [ofEvent_eq_filterMap]
  constructor
  · intro hout
    rw [Time.Instant.shift?_of_not_inCalendar hout]
  · intro hin
    obtain ⟨start, hs⟩ := Time.Instant.exists_shift? hin
    have hrows := chronicle_ahead trades event length
    refine ⟨buyers (rowsAhead trades event length), relations accounts, hrows.buying,
      fun a _ => relationsOf_relations accounts a, ?_⟩
    simp only [hs, window_eq_rowsAhead hs]
    refine filterMap_eq_map_filter fun a _ => ?_
    rw [ofBuyer?_eq]
    simp only [decide_eq_true_eq]

/-- Where no row lists anybody twice, nobody is counted twice. -/
theorem relatedCount_eq_card (hnodup : ∀ a ∈ accounts, a.related.Nodup) {index : TradeIndex}
    {f : NetworkCandidate} (h : f ∈ ofEvent index accounts length event) :
    f.relatedCount = f.related.toFinset.card := by
  rw [ofEvent_eq_filterMap] at h
  split at h
  · cases h
  obtain ⟨account, -, h⟩ := List.mem_filterMap.1 h
  rw [ofBuyer?_eq] at h
  split at h
  · cases h
    exact (List.toFinset_card_of_nodup ((nodup_relations hnodup account).filter _)).symm
  · cases h

end OfEvent

end NetworkCandidate

/-- With a window that can be said in days the rule finds, event by event, just the buyers ahead of
the event who are related to another one, also where it stops early. Of accounts read from a table
the companions of a buyer are counted without repetition. -/
theorem network_exact {c : Config} (h : |c.networkWindowDays| ≤ 106751991167) (trades : List Trade)
    (accounts : List Account) (events : List CorporateEvent) (engine : AlertEngine) :
    (∀ found, EventByEvent
        (NetworkCandidate.Found trades accounts (RuleId.networkTrading.lookBack c)) events found ↔
          found = (network trades accounts events c engine).candidates) ∧
      ∀ table : Table, table.accounts = .ok accounts →
        ∀ f ∈ (network trades accounts events c engine).candidates,
          f.relatedCount = f.related.toFinset.card := by
  have hlength := RuleId.length?_of_abs_le .networkTrading h
  rw [network_eq hlength]
  refine ⟨eventByEvent_iff (NetworkCandidate.found_ofEvent trades accounts _)
    (NetworkCandidate.found_unique trades accounts _) events, ?_⟩
  intro table htable f hf
  obtain ⟨event, -, hf⟩ := List.mem_flatMap.1 hf
  exact NetworkCandidate.relatedCount_eq_card (Table.nodup_related htable) hf

/-- The rows of the buyers. The second one of `A1` counts, in which it lists itself too and an
account that does not buy. -/
def takeoverAccounts : List Account := [
  ⟨"A1", none, none, ["A3"]⟩, ⟨"A1", none, none, ["A2", "A1", "A9"]⟩, ⟨"A2", none, none, ["A1"]⟩,
  ⟨"A1", none, none, []⟩]

theorem network_exact_takeover :
    |({} : Config).networkWindowDays| ≤ 106751991167 ∧
      (∀ found, EventByEvent
          (NetworkCandidate.Found takeoverTrades takeoverAccounts
            (RuleId.networkTrading.lookBack {})) [takeover] found ↔
            found = (network takeoverTrades takeoverAccounts [takeover] {}
              (.ofConfig {} takeover.announced)).candidates) ∧
        ∀ table : Table, table.accounts = .ok takeoverAccounts →
          ∀ f ∈ (network takeoverTrades takeoverAccounts [takeover] {}
            (.ofConfig {} takeover.announced)).candidates,
            f.relatedCount = f.related.toFinset.card := by
  have hwindow : |({} : Config).networkWindowDays| ≤ 106751991167 := by decide
  exact ⟨hwindow, network_exact hwindow takeoverTrades takeoverAccounts [takeover] _⟩

end TradeWatch.Rule

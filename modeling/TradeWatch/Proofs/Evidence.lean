/-
The evidence of the alerts that the rules raise. It holds finite doubles, texts and counts, and the
counts are at most the number of events; as long as the events can be counted by a machine word, the
evidence of every alert is read back as it was written.
-/
import TradeWatch.Proofs.Alert.Stored
import TradeWatch.Proofs.Candidates
import TradeWatch.Proofs.Groups
import TradeWatch.Proofs.Scoring

namespace TradeWatch

open Json (Nested)

/-! ## Values of the evidence -/

namespace Json

/-- A double that is not finite is written as nothing at all. -/
theorem nested_ofFloat (depth : ℕ) (x : Float) : Nested depth (.ofFloat x) := by
  unfold ofFloat
  split
  · rename_i h
    exact .float depth h
  · exact .null depth

theorem nested_ofNat (depth : ℕ) {n : ℕ} (h : n < words64) : Nested depth (.ofNat n) := by
  refine .int depth ⟨?_, ?_⟩
  · unfold signedEnd
    omega
  · exact_mod_cast h

theorem nested_strings (depth : ℕ) (xs : List String) : Nested (depth + 1) (.strings xs) := by
  refine .arr fun j hj => ?_
  obtain ⟨s, -, rfl⟩ := List.mem_map.1 hj
  exact .str depth s

end Json

/-- A dictionary that may be the evidence of an alert. -/
def PlainEvidence (d : Dict Json) : Prop :=
  Nested Json.maxDepth (.obj d)

/-- Values of one level at most make plain evidence. -/
theorem plainEvidence_ofList {pairs : List (String × Json)} (h : ∀ p ∈ pairs, Nested 126 p.2) :
    PlainEvidence (.ofList pairs) :=
  .obj (Dict.sorted_ofList pairs) fun p hp => h p (Dict.mem_ofList hp)

theorem PlainEvidence.insert {d : Dict Json} (hd : PlainEvidence d) {key : String} {j : Json}
    (hj : Nested 126 j) : PlainEvidence (d.insert key j) := by
  cases hd with
  | obj hk h =>
    refine .obj (Dict.sorted_insert key j hk) fun p hp => ?_
    rcases Dict.mem_insert hp with rfl | hp
    · exact hj
    · exact h p hp

/-! ## Recorded alerts -/

/-- An alert that an engine raises and whose evidence can be read back. -/
structure Recorded (e : AlertEngine) (a : Alert) : Prop where
  raised : a.RaisedBy e
  readable : a.HasReadableEvidence

theorem recorded_raiseScored (e : AlertEngine) (rule : RuleId) (severity : Severity)
    (confidence : Float) {n : ℕ} (hn : n < words64) {s : Subject} (hs : PlainEvidence s.evidence) :
    Recorded e (e.raiseScored rule severity confidence n s) := by
  refine ⟨⟨rule, severity, confidence, n, s, "", rfl⟩, ?_⟩
  exact hs.insert (Json.nested_ofNat 126 hn)

/-- The id that an alert gets later does not matter. -/
theorem Recorded.withId {e : AlertEngine} {a : Alert} (h : Recorded e a) (id : String) :
    Recorded e { a with id := id } := by
  obtain ⟨⟨rule, severity, confidence, n, s, id', rfl⟩, hr⟩ := h
  exact ⟨⟨rule, severity, confidence, n, s, id, rfl⟩, hr⟩

namespace Rule

/-! ## Counts -/

theorem length_ascending_le {xs ys : List String} {n : ℕ} (h : xs ⊆ ys) (hn : ys.length ≤ n) :
    (ascending textLe xs).length ≤ n := by
  rw [length_ascending]
  calc xs.toFinset.card ≤ ys.toFinset.card :=
        Finset.card_le_card fun x hx => List.mem_toFinset.2 (h (List.mem_toFinset.1 hx))
    _ ≤ ys.length := List.toFinset_card_le ys
    _ ≤ n := hn

section Counts

variable {κ γ : Type} [DecidableEq κ] {key : γ → κ} {event instrument : γ → String}
  {events : List CorporateEvent} {candidates : List γ}

/-- A group has no more different events than there are events. -/
theorem occurrences_groupOf_lt (h : ∀ c ∈ candidates, FromEvents events (event c) (instrument c))
    (hn : events.length < words64) (k : κ) :
    (groupOf key event candidates k).occurrences < words64 := by
  have hle : (events.map (·.id)).length ≤ events.length := (List.length_map _).le
  refine lt_of_le_of_lt (length_ascending_le (fun x hx => ?_) hle) hn
  obtain ⟨c, hc, rfl⟩ := List.mem_map.1 hx
  obtain ⟨e, he, hid, -⟩ := h c (mem_membersOf.1 hc).1
  exact List.mem_map.2 ⟨e, he, hid.symm⟩

/-- Nor has it more different instruments. -/
theorem length_distinct_groupOf_lt
    (h : ∀ c ∈ candidates, FromEvents events (event c) (instrument c))
    (hn : events.length < words64) (k : κ) :
    ((groupOf key event candidates k).distinct instrument).length < words64 := by
  have hle : (events.map (·.instrument)).length ≤ events.length := (List.length_map _).le
  refine lt_of_le_of_lt (length_ascending_le (fun x hx => ?_) hle) hn
  obtain ⟨c, hc, rfl⟩ := List.mem_map.1 hx
  obtain ⟨e, he, -, hinstrument⟩ := h c (mem_membersOf.1 hc).1
  exact List.mem_map.2 ⟨e, he, hinstrument.symm⟩

end Counts

/-! ## The rules one by one -/

section Rules

variable {trades : List Trade} {accounts : List Account} {events : List CorporateEvent} {c : Config}
  {engine : AlertEngine} {a : Alert}

theorem recorded_preAnnouncement (hn : events.length < words64)
    (h : a ∈ (preAnnouncement trades events c engine).alerts) : Recorded engine a := by
  revert h
  refine preAnnouncement_elim (P := fun _ alerts => a ∈ alerts → Recorded engine a) (fun h => nomatch h)
    fun length h => ?_
  obtain ⟨k, -, -, rfl⟩ := exists_of_mem_alertsOf h
  refine recorded_raiseScored _ _ _ _ ?_ (plainEvidence_ofList fun p hp => ?_)
  · exact occurrences_groupOf_lt (fun d hd => PreAnnouncementCandidate.fromEvents hd) hn k
  · simp only [List.mem_cons, List.not_mem_nil, or_false] at hp
    rcases hp with rfl | rfl | rfl | rfl
    · exact Json.nested_ofFloat ..
    · exact Json.nested_ofFloat ..
    · exact Json.nested_ofFloat ..
    · exact Json.nested_strings ..

theorem recorded_network (hn : events.length < words64)
    (h : a ∈ (network trades accounts events c engine).alerts) : Recorded engine a := by
  revert h
  refine network_elim (P := fun _ alerts => a ∈ alerts → Recorded engine a) (fun h => nomatch h)
    fun length h => ?_
  obtain ⟨k, -, -, rfl⟩ := exists_of_mem_alertsOf h
  refine recorded_raiseScored _ _ _ _ ?_ (plainEvidence_ofList fun p hp => ?_)
  · exact occurrences_groupOf_lt (fun d hd => NetworkCandidate.fromEvents hd) hn k
  · simp only [List.mem_cons, List.not_mem_nil, or_false] at hp
    rcases hp with rfl | rfl | rfl
    · exact Json.nested_ofFloat ..
    · refine Json.nested_ofNat _ ?_
      exact length_distinct_groupOf_lt (fun d hd => NetworkCandidate.fromEvents hd) hn k
    · exact Json.nested_strings ..

theorem recorded_abnormalProfit (hn : events.length < words64)
    (h : a ∈ (abnormalProfit trades events c engine).alerts) : Recorded engine a := by
  revert h
  refine abnormalProfit_elim (P := fun _ alerts => a ∈ alerts → Recorded engine a) (fun h => nomatch h)
    fun length h => ?_
  obtain ⟨k, -, -, rfl⟩ := exists_of_mem_alertsOf h
  refine recorded_raiseScored _ _ _ _ ?_ (plainEvidence_ofList fun p hp => ?_)
  · exact occurrences_groupOf_lt (fun d hd => ProfitCandidate.fromEvents hd) hn k
  · simp only [List.mem_cons, List.not_mem_nil, or_false] at hp
    rcases hp with rfl | rfl | rfl | rfl
    · exact Json.nested_ofFloat ..
    · exact Json.nested_ofFloat ..
    · exact Json.nested_ofFloat ..
    · refine Json.nested_ofNat _ ?_
      exact length_distinct_groupOf_lt (fun d hd => ProfitCandidate.fromEvents hd) hn k

theorem recorded_informationLeakage (hn : events.length < words64)
    (h : a ∈ (informationLeakage trades events c engine).alerts) : Recorded engine a := by
  revert h
  refine informationLeakage_elim (P := fun _ alerts => a ∈ alerts → Recorded engine a) (fun h => nomatch h)
    fun length h => ?_
  obtain ⟨k, -, -, rfl⟩ := exists_of_mem_alertsOf h
  refine recorded_raiseScored _ _ _ _ ?_ (plainEvidence_ofList fun p hp => ?_)
  · exact occurrences_groupOf_lt (fun d hd => LeakageCandidate.fromEvents hd) hn k
  · simp only [List.mem_cons, List.not_mem_nil, or_false] at hp
    rcases hp with rfl | rfl | rfl
    · exact Json.nested_ofFloat ..
    · exact Json.nested_ofFloat ..
    · exact Json.nested_strings ..

end Rules

end Rule

/-! ## A whole evaluation -/

theorem Findings.recorded_ofInputs {inputs : Inputs} {c : Config} {engine : AlertEngine}
    (hn : inputs.events.length < words64) {a : Alert}
    (h : a ∈ (ofInputs inputs c engine).alerts) : Recorded engine a := by
  rw [alerts_eq] at h
  obtain ⟨rule, -, h⟩ := List.mem_flatMap.1 h
  cases rule with
  | preAnnouncementTrading => exact Rule.recorded_preAnnouncement hn h
  | networkTrading => exact Rule.recorded_network hn h
  | abnormalProfit => exact Rule.recorded_abnormalProfit hn h
  | informationLeakage => exact Rule.recorded_informationLeakage hn h

end TradeWatch

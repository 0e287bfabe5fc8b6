/-
The groups of the candidates of a rule, said without reference to how they are computed: a group is
the candidates with one key, and it counts the different events among them. What a rule raises for
a group carries that count in its evidence.
-/
import TradeWatch.Proofs.Ascending
import TradeWatch.Proofs.Dict
import TradeWatch.Rule.Basic

namespace TradeWatch.Rule

/-! ## Groups -/

section Groups

variable {κ γ : Type} [DecidableEq κ]

/-- The candidates with a key, in their order. -/
def membersOf (key : γ → κ) (candidates : List γ) (k : κ) : List γ :=
  candidates.filter fun c => key c = k

/-- How many different events the candidates belong to. -/
def eventCount (event : γ → String) (members : List γ) : Nat :=
  (members.map event).toFinset.card

/-- The group of a key. -/
def groupOf (key : γ → κ) (event : γ → String) (candidates : List γ) (k : κ) : Group κ γ :=
  ⟨k, membersOf key candidates k, ascending textLe ((membersOf key candidates k).map event)⟩

theorem groups_eq [BEq κ] [LawfulBEq κ] (le : κ → κ → Bool) (key : γ → κ) (event : γ → String)
    (candidates : List γ) :
    groups le key event candidates =
      (ascending le (candidates.map key)).map (groupOf key event candidates) := by
  unfold groups grouped
  rw [List.map_map]
  refine List.map_congr_left fun k _ => ?_
  have hm : (candidates.filter fun c => key c == k) = membersOf key candidates k :=
    List.filter_congr fun c _ => by rw [beq_eq_decide]
  simp only [Function.comp_apply, groupOf, hm]

theorem occurrences_groupOf (key : γ → κ) (event : γ → String) (candidates : List γ) (k : κ) :
    (groupOf key event candidates k).occurrences = eventCount event (membersOf key candidates k) :=
  length_ascending textLe _

theorem mem_membersOf {key : γ → κ} {candidates : List γ} {k : κ} {c : γ} :
    c ∈ membersOf key candidates k ↔ c ∈ candidates ∧ key c = k := by
  rw [membersOf, List.mem_filter, decide_eq_true_iff]

theorem eventCount_pos {key : γ → κ} (event : γ → String) {candidates : List γ} {k : κ}
    (h : k ∈ candidates.map key) : 1 ≤ eventCount event (membersOf key candidates k) := by
  obtain ⟨c, hc, hk⟩ := List.mem_map.1 h
  refine Finset.card_pos.2 ⟨event c, ?_⟩
  rw [List.mem_toFinset]
  exact List.mem_map_of_mem (mem_membersOf.2 ⟨hc, hk⟩)

/-- Every alert of a rule was raised for the group of a key with enough events. -/
theorem exists_of_mem_alertsOf [BEq κ] [LawfulBEq κ] {le : κ → κ → Bool} {key : γ → κ}
    {event : γ → String} {least : Nat} {raise : Group κ γ → Alert} {candidates : List γ} {a : Alert}
    (h : a ∈ alertsOf least raise (groups le key event candidates)) :
    ∃ k ∈ candidates.map key, least ≤ eventCount event (membersOf key candidates k) ∧
      a = raise (groupOf key event candidates k) := by
  unfold alertsOf at h
  obtain ⟨g, hg, rfl⟩ := List.mem_map.1 h
  rw [groups_eq] at hg
  obtain ⟨hg, hn⟩ := List.mem_filter.1 hg
  obtain ⟨k, hk, rfl⟩ := List.mem_map.1 hg
  rw [decide_eq_true_iff, occurrences_groupOf] at hn
  exact ⟨k, mem_ascending.1 hk, hn, rfl⟩

end Groups

/-! ## Raised alerts -/

theorem occurrences?_raiseScored (e : AlertEngine) (rule : RuleId) (severity : Severity)
    (confidence : Float) (n : Nat) (s : Subject) :
    (e.raiseScored rule severity confidence n s).occurrences? = some n := by
  unfold Alert.occurrences? AlertEngine.raiseScored
  rw [Dict.get?_insert_self]
  simp [Json.count?, Json.ofNat]

/-- The evidence of a subject stays what it is but for the number of occurrences. -/
theorem get?_evidence_raiseScored (e : AlertEngine) (rule : RuleId) (severity : Severity)
    (confidence : Float) (n : Nat) (s : Subject) {key : String} (h : key ≠ occurrencesKey) :
    (e.raiseScored rule severity confidence n s).evidence.get? key = s.evidence.get? key :=
  Dict.get?_insert_of_ne h _ _

end TradeWatch.Rule

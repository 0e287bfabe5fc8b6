/-
Scoring over a whole evaluation. Every alert counts at least one event and as many as the
configuration asks for, and its severity and confidence are those of that count: the severity that
one rule works out from the settings is the one that the engine gives the others. So among the
alerts of one evaluation more events never make a lower severity.
-/
import TradeWatch.Proofs.Candidates
import TradeWatch.Proofs.Groups
import TradeWatch.Run

namespace TradeWatch

open Time (Instant)

/-! ## Severity -/

theorem AlertEngine.severity_mono (e : AlertEngine) {n m : Nat} (h : n ≤ m) :
    (e.severity n).rank ≤ (e.severity m).rank := by
  unfold AlertEngine.severity
  split_ifs <;> simp only [Severity.rank] <;> omega

/-- Both places that decide on a severity agree. -/
theorem Rule.LeakageCandidate.severity_eq (c : Config) (time : Instant) (n : Nat) :
    severity c n = (AlertEngine.ofConfig c time).severity n :=
  rfl

/-- The profile by which the alerts of a rule are scored. -/
def RuleId.profile : RuleId → ConfidenceProfile
  | informationLeakage => .leakage
  | _ => .account

/-! ## Alerts with a score -/

/-- An alert raised at `time` whose scores are those of the events it counts. -/
structure Scored (c : Config) (time : Instant) (a : Alert) : Prop where
  category : a.category = "insider_trading"
  stamp : a.time.nanos = time.nanos / 1000000 * 1000000
  named : "" ∉ a.accounts
  count : ∃ n, a.occurrences? = some n ∧ 1 ≤ n ∧ c.minSuspiciousEvents ≤ n ∧
    a.severity = (AlertEngine.ofConfig c time).severity n ∧ a.confidence = a.rule.profile.score n

/-- The alerts of one evaluation at `time`: each is scored, more events mean no lower severity, and
the rules follow one another in their order. -/
structure WellScored (c : Config) (time : Instant) (alerts : List Alert) : Prop where
  scored : ∀ a ∈ alerts, Scored c time a
  monotone : ∀ a ∈ alerts, ∀ b ∈ alerts, ∀ n m, a.occurrences? = some n → b.occurrences? = some m →
    n ≤ m → a.severity.rank ≤ b.severity.rank
  ordered : alerts.Pairwise fun a b => RuleId.all.idxOf a.rule ≤ RuleId.all.idxOf b.rule

/-- The severity of scored alerts is monotone, as the engine's is. -/
theorem Scored.severity_le {c : Config} {time : Instant} {a b : Alert} (ha : Scored c time a)
    (hb : Scored c time b) {n m : Nat} (hn : a.occurrences? = some n) (hm : b.occurrences? = some m)
    (h : n ≤ m) : a.severity.rank ≤ b.severity.rank := by
  obtain ⟨i, hi, -, -, hs, -⟩ := ha.count
  obtain ⟨j, hj, -, -, ht, -⟩ := hb.count
  obtain rfl : i = n := Option.some.inj (hi.symm.trans hn)
  obtain rfl : j = m := Option.some.inj (hj.symm.trans hm)
  rw [hs, ht]
  exact AlertEngine.severity_mono _ h

namespace Rule

/-- The alerts of a rule are scored when those it raises for its groups are, and carry its name. -/
structure ScoredBy (rule : RuleId) (c : Config) (time : Instant) (alerts : List Alert) : Prop where
  scored : ∀ a ∈ alerts, Scored c time a
  rule : ∀ a ∈ alerts, a.rule = rule

theorem scoredBy_nil (rule : RuleId) (c : Config) (time : Instant) : ScoredBy rule c time [] :=
  ⟨by simp, by simp⟩

theorem scored_raiseScored {c : Config} {time : Instant} {rule : RuleId} {n : Nat} (s : Subject)
    (h1 : 1 ≤ n) (hc : c.minSuspiciousEvents ≤ n) (hs : "" ∉ s.accounts) :
    Scored c time ((AlertEngine.ofConfig c time).raiseScored rule
      ((AlertEngine.ofConfig c time).severity n) (rule.profile.score n) n s) :=
  ⟨rfl, rfl, hs, n, occurrences?_raiseScored .., h1, hc, rfl, rfl⟩

/-- A rule scores its alerts when it raises them with the scores of the engine and names no account
without a name. -/
theorem scoredBy_alertsOf {κ γ : Type} [DecidableEq κ] [BEq κ] [LawfulBEq κ] (le : κ → κ → Bool)
    {key : γ → κ} {event : γ → String} (rule : RuleId) (c : Config) (time : Instant)
    {candidates : List γ} (subject : Group κ γ → Subject)
    (h : ∀ k ∈ candidates.map key, "" ∉ (subject (groupOf key event candidates k)).accounts) :
    ScoredBy rule c time (alertsOf c.minSuspiciousEvents
      (fun g => (AlertEngine.ofConfig c time).raiseScored rule
        ((AlertEngine.ofConfig c time).severity g.occurrences) (rule.profile.score g.occurrences)
        g.occurrences (subject g))
      (groups le key event candidates)) := by
  refine ⟨fun a ha => ?_, fun a ha => ?_⟩
  · obtain ⟨k, hk, hn, rfl⟩ := exists_of_mem_alertsOf ha
    rw [occurrences_groupOf]
    exact scored_raiseScored _ (eventCount_pos event hk) hn (h k hk)
  · obtain ⟨k, hk, hn, rfl⟩ := exists_of_mem_alertsOf ha
    rfl

/-! ## The rules one by one -/

section Rules

variable (trades : List Trade) (accounts : List Account) (events : List CorporateEvent) (c : Config)
  (time : Instant)

theorem scoredBy_preAnnouncement :
    ScoredBy .preAnnouncementTrading c time
      (preAnnouncement trades events c (.ofConfig c time)).alerts := by
  refine preAnnouncement_elim (P := fun _ alerts => ScoredBy .preAnnouncementTrading c time alerts) (scoredBy_nil ..)
    fun length => ?_
  refine scoredBy_alertsOf pairLe .preAnnouncementTrading c time _ fun k hk => ?_
  obtain ⟨d, hd, rfl⟩ := List.mem_map.1 hk
  obtain ⟨event, -, hd⟩ := List.mem_flatMap.1 hd
  simpa [groupOf, PreAnnouncementCandidate.key] using
    (PreAnnouncementCandidate.ne_empty_of_mem_ofEvent hd).symm

theorem scoredBy_network :
    ScoredBy .networkTrading c time
      (network trades accounts events c (.ofConfig c time)).alerts := by
  refine network_elim (P := fun _ alerts => ScoredBy .networkTrading c time alerts) (scoredBy_nil ..)
    fun length => ?_
  refine scoredBy_alertsOf textLe .networkTrading c time _ fun k hk => ?_
  obtain ⟨d, hd, rfl⟩ := List.mem_map.1 hk
  refine fun hr => (List.mem_cons.1 hr).elim (NetworkCandidate.of_mem_flatMap hd).1.symm fun hr => ?_
  obtain ⟨e, he, hr⟩ := List.mem_flatMap.1 (mem_ascending.1 hr)
  exact (NetworkCandidate.of_mem_flatMap (mem_membersOf.1 he).1).2.2 hr

theorem scoredBy_abnormalProfit :
    ScoredBy .abnormalProfit c time
      (abnormalProfit trades events c (.ofConfig c time)).alerts := by
  refine abnormalProfit_elim (P := fun _ alerts => ScoredBy .abnormalProfit c time alerts) (scoredBy_nil ..)
    fun length => ?_
  refine scoredBy_alertsOf textLe .abnormalProfit c time _ fun k hk => ?_
  obtain ⟨d, hd, rfl⟩ := List.mem_map.1 hk
  obtain ⟨event, -, hd⟩ := List.mem_flatMap.1 hd
  simpa [groupOf] using (ProfitCandidate.ne_empty_of_mem_ofEvent hd).symm

theorem scoredBy_informationLeakage :
    ScoredBy .informationLeakage c time
      (informationLeakage trades events c (.ofConfig c time)).alerts := by
  refine informationLeakage_elim (P := fun _ alerts => ScoredBy .informationLeakage c time alerts) (scoredBy_nil ..)
    fun length => ?_
  exact scoredBy_alertsOf textLe .informationLeakage c time _ fun k _ => by simp

end Rules

end Rule

/-! ## A whole evaluation -/

namespace Findings

/-- What the rules find, stage by stage and without a clock. -/
def ofInputs (inputs : Inputs) (c : Config) (engine : AlertEngine) : Findings where
  preAnnouncement := Rule.preAnnouncement inputs.trades inputs.events c engine
  network := Rule.network inputs.trades inputs.accounts inputs.events c engine
  abnormalProfit := Rule.abnormalProfit inputs.trades inputs.events c engine
  informationLeakage := Rule.informationLeakage inputs.trades inputs.events c engine

theorem evaluate_still (timer : RunTimer) (inputs : Inputs) (c : Config) (engine : AlertEngine) :
    (Id.run (evaluate .still timer inputs c engine)).1 = ofInputs inputs c engine :=
  rfl

/-- The alerts of one rule. -/
def alertsBy (f : Findings) : RuleId → List Alert
  | .preAnnouncementTrading => f.preAnnouncement.alerts
  | .networkTrading => f.network.alerts
  | .abnormalProfit => f.abnormalProfit.alerts
  | .informationLeakage => f.informationLeakage.alerts

theorem alerts_eq (f : Findings) : f.alerts = RuleId.all.flatMap f.alertsBy := by
  simp [alerts, alertsBy, RuleId.all]

theorem scoredBy_ofInputs (inputs : Inputs) (c : Config) (time : Instant) (rule : RuleId) :
    Rule.ScoredBy rule c time ((ofInputs inputs c (.ofConfig c time)).alertsBy rule) := by
  cases rule with
  | preAnnouncementTrading => exact Rule.scoredBy_preAnnouncement ..
  | networkTrading => exact Rule.scoredBy_network ..
  | abnormalProfit => exact Rule.scoredBy_abnormalProfit ..
  | informationLeakage => exact Rule.scoredBy_informationLeakage ..

/-- A whole evaluation is well scored, whatever the inputs and the configuration. -/
theorem wellScored_evaluate (timer : RunTimer) (inputs : Inputs) (c : Config) (time : Instant) :
    WellScored c time
      (Id.run (evaluate .still timer inputs c (.ofConfig c time))).1.alerts := by
  rw [evaluate_still, alerts_eq]
  have hs := scoredBy_ofInputs inputs c time
  have ha : ∀ a ∈ RuleId.all.flatMap (ofInputs inputs c (.ofConfig c time)).alertsBy,
      Scored c time a := fun a ha => by
    obtain ⟨rule, -, ha⟩ := List.mem_flatMap.1 ha
    exact (hs rule).scored a ha
  refine ⟨ha, fun a h1 b h2 n m hn hm h => (ha a h1).severity_le (ha b h2) hn hm h, ?_⟩
  -- all alerts of one rule carry its name, and the rules come one after the other
  refine List.pairwise_flatMap.2 ⟨fun rule _ => ?_, ?_⟩
  · refine List.pairwise_of_forall_mem_list fun a ha b hb => ?_
    rw [(hs rule).rule a ha, (hs rule).rule b hb]
  · have hall : RuleId.all.Pairwise fun r s => RuleId.all.idxOf r ≤ RuleId.all.idxOf s := by decide
    refine hall.imp fun {r s} hrs a ha b hb => ?_
    rw [(hs r).rule a ha, (hs s).rule b hb]
    exact hrs

end Findings

end TradeWatch

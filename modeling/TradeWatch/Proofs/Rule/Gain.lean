/-
Gains and losses of the buyers that the profit rule reports. The return it computes is rounded twice
on the way, and yet it is above zero only where the account paid less on average than was paid
behind the announcement. So an accepted threshold above zero keeps everyone who broke even or lost
money out of the report. An accepted threshold need only be finite; with one at zero or below the
rule does report such accounts.
-/
import TradeWatch.Proofs.Decimal.Bits
import TradeWatch.Proofs.Decimal.Sign
import TradeWatch.Proofs.Groups
import TradeWatch.Proofs.Rule.Profit

namespace TradeWatch.Rule

open Time (nanosPerDay)

namespace ProfitCandidate

/-! ## Who gains -/

section Gains

variable {trades ahead behind : List Trade} {threshold : Float} {length : Int}
  {event : CorporateEvent} {account : String}

/-- Ahead of the event the account paid less on average than was paid behind it. -/
def PaidLess (trades : List Trade) (length : Int) (event : CorporateEvent) (account : String) :
    Prop :=
  averagePaidBy (rowsAhead trades event length) account <
    laterPrice (rowsBehind trades event (7 * nanosPerDay))

theorem Gains.zero_lt_gain (hthreshold : 0.0 < threshold)
    (h : Gains threshold ahead behind account) : 0.0 < gainOf ahead behind account :=
  Decimal.lt_of_lt_of_le hthreshold h.2

theorem Gains.zero_lt_paid (h : Gains threshold ahead behind account) :
    0.0 < averagePaidBy ahead account :=
  Decimal.lt_of_not_le h.numbers.1 (by decide +kernel) h.1

/-- A return above zero is made of a difference above zero. -/
theorem Gains.paid_lt_later (hthreshold : 0.0 < threshold)
    (h : Gains threshold ahead behind account) :
    averagePaidBy ahead account < laterPrice behind :=
  Decimal.lt_of_zero_lt_sub
    (Decimal.zero_lt_of_zero_lt_div h.zero_lt_paid (h.zero_lt_gain hthreshold))

theorem paidLess_of_mem (hthreshold : 0.0 < threshold) {f : ProfitCandidate}
    (h : f ∈ ofEvent (.ofTrades trades) threshold length event) :
    0.0 < f.gain ∧ PaidLess trades length event f.account ∧
      f = ofBuyer event (rowsAhead trades event length)
        (rowsBehind trades event (7 * nanosPerDay)) f.account := by
  obtain ⟨a, hgains, rfl⟩ := exists_gains_of_mem h
  exact ⟨hgains.zero_lt_gain hthreshold, hgains.paid_lt_later hthreshold, rfl⟩

end Gains

/-! ## What a report without losses says -/

/-- Only gains are reported of these events, where the earlier window goes `length` nanoseconds
back. -/
structure ReportsGains (trades : List Trade) (events : List CorporateEvent) (length : Int)
    (o : Outcome ProfitCandidate) : Prop where
  gain : ∀ f ∈ o.candidates, 0.0 < f.gain
  /-- A candidate is a buyer of one of the events who paid less than was paid later. -/
  paidLess : ∀ f ∈ o.candidates, ∃ event ∈ events, PaidLess trades length event f.account ∧
    f = ofBuyer event (rowsAhead trades event length)
      (rowsBehind trades event (7 * nanosPerDay)) f.account
  /-- An account that never paid less is in no candidate and in no alert. -/
  unreported : ∀ account, (∀ event ∈ events, ¬ PaidLess trades length event account) →
    (∀ f ∈ o.candidates, f.account ≠ account) ∧ ∀ a ∈ o.alerts, account ∉ a.accounts

/-- The alerts of the rule are about accounts of its candidates. -/
theorem exists_candidate_of_mem_alerts {trades : List Trade} {events : List CorporateEvent}
    {c : Config} {engine : AlertEngine} {a : Alert} {account : String}
    (ha : a ∈ (abnormalProfit trades events c engine).alerts) (haccount : account ∈ a.accounts) :
    ∃ f ∈ (abnormalProfit trades events c engine).candidates, f.account = account := by
  revert ha
  refine abnormalProfit_elim (P := fun candidates alerts => a ∈ alerts →
    ∃ f ∈ candidates, f.account = account) (fun h => nomatch h) fun length h => ?_
  obtain ⟨k, hk, -, rfl⟩ := exists_of_mem_alertsOf h
  obtain rfl : account = k := List.mem_singleton.1 haccount
  exact List.mem_map.1 hk

theorem reportsGains_of_threshold {c : Config} (hc : c.Accepted) (h : 0.0 < c.profitThreshold)
    (trades : List Trade) (events : List CorporateEvent) (engine : AlertEngine) :
    ReportsGains trades events (RuleId.abnormalProfit.lookBack c)
      (abnormalProfit trades events c engine) := by
  have hfound : ∀ f ∈ (abnormalProfit trades events c engine).candidates, ∃ event ∈ events,
      0.0 < f.gain ∧ PaidLess trades (RuleId.abnormalProfit.lookBack c) event f.account ∧
        f = ofBuyer event (rowsAhead trades event (RuleId.abnormalProfit.lookBack c))
          (rowsBehind trades event (7 * nanosPerDay)) f.account := by
    intro f hf
    rw [abnormalProfit_eq (hc.length?_eq .abnormalProfit)] at hf
    obtain ⟨event, hevent, hf⟩ := List.mem_flatMap.1 hf
    exact ⟨event, hevent, paidLess_of_mem h hf⟩
  constructor
  · intro f hf
    obtain ⟨event, -, hgain, -⟩ := hfound f hf
    exact hgain
  · intro f hf
    obtain ⟨event, hevent, -, hless⟩ := hfound f hf
    exact ⟨event, hevent, hless⟩
  · intro account hnever
    have hcandidates : ∀ f ∈ (abnormalProfit trades events c engine).candidates,
        f.account ≠ account := by
      rintro f hf rfl
      obtain ⟨event, hevent, -, hless, -⟩ := hfound f hf
      exact hnever event hevent hless
    refine ⟨hcandidates, fun a ha haccount => ?_⟩
    obtain ⟨f, hf, heq⟩ := exists_candidate_of_mem_alerts ha haccount
    exact hcandidates f hf heq

/-! ## A purchase and a later price -/

section Pair

variable (paid later : Float) {length : Int}

/-- The purchase of the day before the takeover, at this price, and one at the takeover. -/
def pairOfTrades : List Trade :=
  eveOfTakeover.map (fun t => { t with price := paid }) ++
    [⟨"", takeover.announced, "ACME", "A3", "", 1.0, later, 0.0⟩]

theorem pairOfTrades_eq :
    pairOfTrades paid later = [bought 5 "A2" 20.0 paid, bought 6 "A3" 1.0 later] :=
  rfl

theorem rowsAhead_pairOfTrades (h : nanosPerDay ≤ length) :
    rowsAhead (pairOfTrades paid later) takeover length = [bought 5 "A2" 20.0 paid] := by
  have hday : (bought 5 "A2" 20.0 paid).time.nanos = takeover.announced.nanos - nanosPerDay := by
    show (bought 5 "" 0.0 0.0).time.nanos = _
    decide
  have hahead : IsAhead takeover length (bought 5 "A2" 20.0 paid) := by
    refine ⟨rfl, ?_, ?_⟩ <;> rw [hday]
    · omega
    · exact Int.sub_lt_self _ (by decide)
  have hbehind : ¬ IsAhead takeover length (bought 6 "A3" 1.0 later) := fun hahead =>
    lt_irrefl takeover.announced.nanos hahead.2.2
  have hrows : (pairOfTrades paid later).filter (fun t => IsAhead takeover length t) =
      [bought 5 "A2" 20.0 paid] := by
    simp only [pairOfTrades_eq, List.filter_cons, List.filter_nil, decide_eq_true hahead,
      decide_eq_false hbehind]
    rfl
  exact (congrArg (List.mergeSort · TradeIndex.earlier) hrows).trans (List.mergeSort_singleton _)

theorem rowsBehind_pairOfTrades :
    rowsBehind (pairOfTrades paid later) takeover (7 * nanosPerDay) =
      [bought 6 "A3" 1.0 later] :=
  List.mergeSort_singleton _

/-- With accepted settings the earlier buyer is found whatever the prices, if the gain reaches the
threshold. -/
theorem mem_candidates_pairOfTrades {c : Config} (hc : c.Accepted) (engine : AlertEngine)
    (h : Gains c.profitThreshold [bought 5 "A2" 20.0 paid] [bought 6 "A3" 1.0 later] "A2") :
    ofBuyer takeover [bought 5 "A2" 20.0 paid] [bought 6 "A3" 1.0 later] "A2" ∈
      (abnormalProfit (pairOfTrades paid later) [takeover] c engine).candidates := by
  have hback := hc.lookBack_bounds .abnormalProfit
  have hlength : nanosPerDay ≤ RuleId.abnormalProfit.lookBack c := by
    have hdays := hc.preAnnouncementDays.1
    simp only [RuleId.lookBack, RuleId.windowValue, RuleId.windowMeasure, Window.days, nanosPerDay]
    omega
  obtain ⟨start, hstart⟩ : ∃ start,
      takeover.announced.shift? (-RuleId.abnormalProfit.lookBack c) = some start := by
    refine Time.Instant.exists_shift? ?_
    have hnanos : takeover.announced.nanos = 1709812800000000000 := by decide
    rw [hnanos]
    unfold maxWindowDays nanosPerDay at hback
    unfold Time.InCalendar Time.calendarStart Time.calendarEnd
    omega
  obtain ⟨stop, hstop⟩ : ∃ stop, takeover.announced.shift? postLength = some stop :=
    Time.Instant.exists_shift? (by decide)
  have hbuyer : "A2" ∈ buyers [bought 5 "A2" 20.0 paid] :=
    mem_buyers.2 ⟨by decide, _, List.mem_singleton_self _, rfl⟩
  rw [abnormalProfit_eq (hc.length?_eq .abnormalProfit)]
  simp only [Outcome.ofCandidates, List.flatMap_singleton, ofEvent_of_shift? hstart hstop,
    rowsAhead_pairOfTrades paid later hlength, rowsBehind_pairOfTrades,
    List.cons_ne_nil, or_self, if_false]
  exact List.mem_map_of_mem (List.mem_filter.2 ⟨hbuyer, decide_eq_true h⟩)

/-- With a threshold that is not above zero the rule finds who breaks even. -/
theorem exists_even_candidate {c : Config} (hc : c.Accepted) (h : ¬ 0.0 < c.profitThreshold)
    (engine : AlertEngine) :
    ∃ f ∈ (abnormalProfit (pairOfTrades 10.0 10.0) [takeover] c engine).candidates,
      f.gain = 0.0 := by
  have heven : gainOf [bought 5 "A2" 20.0 10.0] [bought 6 "A3" 1.0 10.0] "A2" = 0.0 := by
    decide +kernel
  refine ⟨_, mem_candidates_pairOfTrades 10.0 10.0 hc engine ⟨by decide +kernel, ?_⟩, heven⟩
  rw [heven]
  exact Decimal.le_of_not_lt (Decimal.isNaN_of_isFinite hc.profitThreshold) (by decide +kernel) h

end Pair

end ProfitCandidate

/-! ## Accepted thresholds -/

open ProfitCandidate (ReportsGains pairOfTrades)

/-- With accepted settings the rule reports nothing but gains, whatever the history, just where the
threshold is above zero. -/
theorem abnormalProfit_reports_gains_iff {c : Config} (h : c.validate = .ok ()) :
    (∀ (trades : List Trade) (events : List CorporateEvent) (engine : AlertEngine),
      ReportsGains trades events (RuleId.abnormalProfit.lookBack c)
        (abnormalProfit trades events c engine)) ↔ 0.0 < c.profitThreshold := by
  have hc := Config.validate_eq_ok_iff.1 h
  constructor
  · intro hgains
    by_contra hthreshold
    have engine := AlertEngine.ofConfig c takeover.announced
    obtain ⟨f, hf, heven⟩ := ProfitCandidate.exists_even_candidate hc hthreshold engine
    have hgain := (hgains _ _ engine).gain f hf
    rw [heven] at hgain
    exact absurd hgain (by decide +kernel)
  · exact ProfitCandidate.reportsGains_of_threshold hc

theorem abnormalProfit_reports_gains_pair :
    let engine := AlertEngine.ofConfig {} takeover.announced
    let outcome := abnormalProfit (pairOfTrades 10.0 20.0) [takeover] {} engine
    ({} : Config).validate = .ok () ∧ 0.0 < ({} : Config).profitThreshold ∧
      (∃ f ∈ outcome.candidates, f.account = "A2") ∧
      ReportsGains (pairOfTrades 10.0 20.0) [takeover] (RuleId.abnormalProfit.lookBack {})
        outcome := by
  have hvalid : ({} : Config).validate = .ok () := by decide +kernel
  have hthreshold : 0.0 < ({} : Config).profitThreshold := by decide +kernel
  refine ⟨hvalid, hthreshold, ?_,
    (abnormalProfit_reports_gains_iff hvalid).2 hthreshold _ [takeover] _⟩
  have hfound := ProfitCandidate.mem_candidates_pairOfTrades 10.0 20.0
    (Config.validate_eq_ok_iff.1 hvalid) (.ofConfig {} takeover.announced) (by decide +kernel)
  exact ⟨_, hfound, rfl⟩

/-- A threshold below zero is accepted too, and with it a loss of two fifths is reported. -/
theorem abnormalProfit_reports_a_loss :
    ¬ ∀ c : Config, c.validate = .ok () →
      ∀ (trades : List Trade) (events : List CorporateEvent) (engine : AlertEngine),
        ∀ f ∈ (abnormalProfit trades events c engine).candidates, 0.0 < f.gain := by
  intro hgains
  have hvalid : ({ profitThreshold := -0.5 } : Config).validate = .ok () := by decide +kernel
  have hloss := ProfitCandidate.mem_candidates_pairOfTrades 10.0 6.0
    (Config.validate_eq_ok_iff.1 hvalid) (.ofConfig {} takeover.announced) (by decide +kernel)
  have hgain := hgains _ hvalid _ _ _ _ hloss
  exact absurd hgain (by decide +kernel)

end TradeWatch.Rule

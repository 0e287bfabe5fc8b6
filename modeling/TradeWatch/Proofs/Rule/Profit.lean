/-
Abnormal profits, event by event: of those who buy the instrument in the window ahead of an event,
the rule finds the ones whose gain, up to the average price of the week behind it, reaches the
threshold. The two windows meet at the announcement, which is in the later one only. Nothing is
divided by zero on the way, and where a price is no number nothing is found.
-/
import TradeWatch.Proofs.Decimal.Order
import TradeWatch.Proofs.EventByEvent

namespace TradeWatch

open Time (InCalendar nanosPerDay)

/-- A single term that is no number spoils a sum. -/
theorem Stats.isNaN_sumFrom {xs : List Float} {start : Float}
    (h : start.isNaN = true ∨ ∃ x ∈ xs, x.isNaN = true) : (sumFrom start xs).isNaN = true := by
  induction xs generalizing start with
  | nil =>
    obtain hstart | ⟨x, hx, -⟩ := h
    · exact hstart
    · exact absurd hx List.not_mem_nil
  | cons x xs ih =>
    refine ih ?_
    obtain hstart | ⟨y, hy, hnan⟩ := h
    · exact .inl (Decimal.isNaN_add_left hstart x)
    · rcases List.mem_cons.1 hy with rfl | hy
      · exact .inl (Decimal.isNaN_add_right start hnan)
      · exact .inr ⟨y, hy, hnan⟩

namespace Rule

theorem isNaN_averagePaidBy {rows : List Trade} {t : Trade} (ht : t ∈ rows)
    (h : t.price.isNaN = true) : (averagePaidBy rows t.buyer).isNaN = true := by
  have hpaid : t ∈ purchasesOf rows t.buyer := List.mem_filter.2 ⟨ht, decide_eq_true rfl⟩
  exact Decimal.isNaN_div_left
    (Stats.isNaN_sumFrom (.inr ⟨t.price, List.mem_map_of_mem hpaid, h⟩)) _

theorem not_isBehind_of_isAhead {event : CorporateEvent} {length length' : Int} {t : Trade}
    (h : IsAhead event length t) : ¬ IsBehind event length' t := by
  rintro ⟨-, hstart, -⟩
  exact absurd h.2.2 (not_lt.2 hstart)

namespace ProfitCandidate

/-- The average price of all trades behind the announcement, also of those without a buyer. -/
def laterPrice (behind : List Trade) : Float :=
  Stats.average (behind.map (·.price))

/-- What an account gains up to the later price, as a fraction of what it paid. -/
def gainOf (ahead behind : List Trade) (account : String) : Float :=
  (laterPrice behind - averagePaidBy ahead account) / averagePaidBy ahead account

/-- What is reported of a buyer. -/
def ofBuyer (event : CorporateEvent) (ahead behind : List Trade) (account : String) :
    ProfitCandidate where
  event := event.id
  instrument := event.instrument
  account := account
  announced := event.announced
  averageBuyPrice := averagePaidBy ahead account
  averagePostPrice := laterPrice behind
  gain := gainOf ahead behind account
  quantity := boughtBy ahead account

/-- The buyers that are reported. An average price that is no number passes the first test. -/
def Gains (threshold : Float) (ahead behind : List Trade) (account : String) : Prop :=
  ¬ averagePaidBy ahead account ≤ 0.0 ∧ threshold ≤ gainOf ahead behind account

instance (threshold : Float) (ahead behind : List Trade) (account : String) :
    Decidable (Gains threshold ahead behind account) :=
  inferInstanceAs (Decidable (_ ∧ _))

/-- Whatever is divided by on the way is not zero, of either sign. -/
structure NoZeroDivisor (ahead behind : List Trade) (active : List String) : Prop where
  purchases : ∀ a ∈ active, (Decimal.ofNat (purchasesOf ahead a).length == 0.0) = false
  behind : behind ≠ [] → (Decimal.ofNat behind.length == 0.0) = false
  paid : ∀ a ∈ active, ¬ averagePaidBy ahead a ≤ 0.0 → (averagePaidBy ahead a == 0.0) = false

/-- What there is to find for one event, where the earlier window goes `length` nanoseconds back. -/
structure Found (trades : List Trade) (threshold : Float) (length : Int) (event : CorporateEvent)
    (found : List ProfitCandidate) : Prop where
  leftOut : ¬ (InCalendar (event.announced.nanos - length) ∧
    InCalendar (event.announced.nanos + 7 * nanosPerDay)) → found = []
  lookedAt : InCalendar (event.announced.nanos - length) →
    InCalendar (event.announced.nanos + 7 * nanosPerDay) → ∃ ahead behind active,
      Chronicle trades (IsAhead event length) ahead ∧
        Chronicle trades (IsBehind event (7 * nanosPerDay)) behind ∧
        Buying trades (IsAhead event length) active ∧
        found = (if ahead = [] ∨ behind = [] then []
          else (active.filter fun a => Gains threshold ahead behind a).map
            (ofBuyer event ahead behind)) ∧
        NoZeroDivisor ahead behind active
  /-- A trade at the announcement is behind it only. -/
  apart : ∀ t : Trade, ¬ (IsAhead event length t ∧ IsBehind event (7 * nanosPerDay) t)
  numbers : ∀ f ∈ found, f.averageBuyPrice.isNaN = false ∧ f.averagePostPrice.isNaN = false ∧
    f.gain.isNaN = false
  /-- The prices that the account paid are numbers, and so are all prices behind the announcement. -/
  prices : ∀ f ∈ found, ∀ t ∈ trades,
    (IsAhead event length t ∧ t.buyer = f.account) ∨ IsBehind event (7 * nanosPerDay) t →
      t.price.isNaN = false

theorem found_unique (trades : List Trade) (threshold : Float) (length : Int) :
    Relator.RightUnique (Found trades threshold length) := by
  intro event found found' h h'
  by_cases hin : InCalendar (event.announced.nanos - length) ∧
      InCalendar (event.announced.nanos + 7 * nanosPerDay)
  · obtain ⟨ahead, behind, active, hahead, hbehind, hactive, rfl, -⟩ := h.lookedAt hin.1 hin.2
    obtain ⟨ahead', behind', active', hahead', hbehind', hactive', rfl, -⟩ :=
      h'.lookedAt hin.1 hin.2
    rw [hahead.unique hahead', hbehind.unique hbehind', hactive.unique hactive']
  · rw [h.leftOut hin, h'.leftOut hin]

section OfEvent

variable {trades ahead behind : List Trade} {threshold : Float} {length : Int}
  {event : CorporateEvent}

theorem noZeroDivisor (ahead behind : List Trade) :
    NoZeroDivisor ahead behind (buyers ahead) where
  purchases _ ha :=
    Decimal.ofNat_beq_zero fun h => purchasesOf_ne_nil ha (List.length_eq_zero_iff.1 h)
  behind hne := Decimal.ofNat_beq_zero fun h => hne (List.length_eq_zero_iff.1 h)
  paid _ _ hpaid := Decimal.beq_zero_eq_false hpaid

theorem isNaN_laterPrice {t : Trade} (ht : t ∈ behind) (h : t.price.isNaN = true) :
    (laterPrice behind).isNaN = true :=
  Decimal.isNaN_div_left
    (Stats.isNaN_sumFrom (.inr ⟨t.price, List.mem_map_of_mem ht, h⟩)) _

theorem isNaN_gainOf_of_paid {account : String}
    (h : (averagePaidBy ahead account).isNaN = true) :
    (gainOf ahead behind account).isNaN = true :=
  Decimal.isNaN_div_right _ h

theorem isNaN_gainOf_of_later (account : String) (h : (laterPrice behind).isNaN = true) :
    (gainOf ahead behind account).isNaN = true :=
  Decimal.isNaN_div_left (Decimal.isNaN_sub_left h _) _

/-- A gain that reaches anything is made of numbers. -/
theorem Gains.numbers {account : String} (h : Gains threshold ahead behind account) :
    (averagePaidBy ahead account).isNaN = false ∧ (laterPrice behind).isNaN = false ∧
      (gainOf ahead behind account).isNaN = false := by
  have hgain : (gainOf ahead behind account).isNaN = false := (Decimal.isNaN_of_le h.2).2
  refine ⟨Bool.eq_false_iff.2 fun hpaid => ?_, Bool.eq_false_iff.2 fun hlater => ?_, hgain⟩
  · rw [isNaN_gainOf_of_paid hpaid] at hgain
    cases hgain
  · rw [isNaN_gainOf_of_later account hlater] at hgain
    cases hgain

theorem Gains.price_ahead {account : String} {t : Trade}
    (h : Gains threshold ahead behind account) (ht : t ∈ ahead) (hbuyer : t.buyer = account) :
    t.price.isNaN = false := by
  rw [Bool.eq_false_iff]
  intro hprice
  have hpaid := h.numbers.1
  rw [← hbuyer, isNaN_averagePaidBy ht hprice] at hpaid
  cases hpaid

theorem Gains.price_behind {account : String} {t : Trade}
    (h : Gains threshold ahead behind account) (ht : t ∈ behind) : t.price.isNaN = false := by
  rw [Bool.eq_false_iff]
  intro hprice
  have hlater := h.numbers.2.1
  rw [isNaN_laterPrice ht hprice] at hlater
  cases hlater

theorem ofActivity?_ofRows {account : String} (h : account ∈ buyers ahead) :
    ofActivity? event (laterPrice behind) (.ofRows account (purchasesOf ahead account)) =
      if ¬ averagePaidBy ahead account ≤ 0.0 then some (ofBuyer event ahead behind account)
      else none := by
  unfold ofActivity?
  simp only [averagePrice_ofRows h]
  exact (ite_not ..).symm

theorem ofRows_eq (event : CorporateEvent) (threshold : Float) (ahead behind : List Trade) :
    ((buyActivity ahead).filterMap (ofActivity? event (laterPrice behind))).filter
        (fun c => decide (threshold ≤ c.gain)) =
      ((buyers ahead).filter fun a => Gains threshold ahead behind a).map
        (ofBuyer event ahead behind) := by
  have hpositive : (buyActivity ahead).filterMap (ofActivity? event (laterPrice behind)) =
      ((buyers ahead).filter fun a => ¬ averagePaidBy ahead a ≤ 0.0).map
        (ofBuyer event ahead behind) := by
    rw [buyActivity_eq, List.filterMap_map]
    refine filterMap_eq_map_filter fun a ha => ?_
    rw [Function.comp_apply, ofActivity?_ofRows ha]
    simp only [decide_eq_true_eq]
  rw [hpositive, List.filter_map, List.filter_filter]
  congr 1
  refine List.filter_congr fun a _ => ?_
  rw [Bool.eq_iff_iff, Bool.and_eq_true, decide_eq_true_iff, decide_eq_true_iff, and_comm]
  exact Iff.and Iff.rfl decide_eq_true_iff

theorem ofEvent_of_shift? {start stop : Time.Instant}
    (hstart : event.announced.shift? (-length) = some start)
    (hstop : event.announced.shift? postLength = some stop) :
    ofEvent (.ofTrades trades) threshold length event =
      let ahead := rowsAhead trades event length
      let behind := rowsBehind trades event (7 * nanosPerDay)
      if ahead = [] ∨ behind = [] then []
      else ((buyers ahead).filter fun a => Gains threshold ahead behind a).map
        (ofBuyer event ahead behind) := by
  unfold ofEvent
  simp only [hstart, hstop, window_eq_rowsAhead hstart, windowInclusive_eq_rowsBehind hstop,
    Bool.or_eq_true, List.isEmpty_iff]
  exact congrArg (ite _ _) (ofRows_eq event threshold _ _)

theorem ofEvent_of_not_inCalendar (trades : List Trade) (threshold : Float)
    (h : ¬ (InCalendar (event.announced.nanos - length) ∧
      InCalendar (event.announced.nanos + 7 * nanosPerDay))) :
    ofEvent (.ofTrades trades) threshold length event = [] := by
  unfold ofEvent
  rcases not_and_or.1 h with hstart | hstop
  · rw [Time.Instant.shift?_of_not_inCalendar hstart]
  · rw [show event.announced.shift? postLength = none from
      Time.Instant.shift?_of_not_inCalendar hstop]
    cases event.announced.shift? (-length) <;> rfl

/-- What is found is a buyer that gains. -/
theorem exists_gains_of_mem {f : ProfitCandidate}
    (h : f ∈ ofEvent (.ofTrades trades) threshold length event) :
    ∃ a, Gains threshold (rowsAhead trades event length)
        (rowsBehind trades event (7 * nanosPerDay)) a ∧
      f = ofBuyer event (rowsAhead trades event length)
        (rowsBehind trades event (7 * nanosPerDay)) a := by
  by_cases hin : InCalendar (event.announced.nanos - length) ∧
      InCalendar (event.announced.nanos + 7 * nanosPerDay)
  · obtain ⟨start, hstart⟩ := Time.Instant.exists_shift? hin.1
    obtain ⟨stop, hstop⟩ := Time.Instant.exists_shift? hin.2
    simp only [ofEvent_of_shift? hstart hstop] at h
    split at h
    · cases h
    · obtain ⟨a, ha, rfl⟩ := List.mem_map.1 h
      exact ⟨a, of_decide_eq_true (List.mem_filter.1 ha).2, rfl⟩
  · rw [ofEvent_of_not_inCalendar trades threshold hin] at h
    cases h

theorem found_ofEvent (trades : List Trade) (threshold : Float) (length : Int)
    (event : CorporateEvent) :
    Found trades threshold length event (ofEvent (.ofTrades trades) threshold length event) where
  leftOut := ofEvent_of_not_inCalendar trades threshold
  lookedAt hstart hstop := by
    obtain ⟨start, hstart⟩ := Time.Instant.exists_shift? hstart
    obtain ⟨stop, hstop⟩ := Time.Instant.exists_shift? hstop
    have hahead := chronicle_ahead trades event length
    exact ⟨_, _, _, hahead, chronicle_behind .., hahead.buying,
      ofEvent_of_shift? hstart hstop, noZeroDivisor ..⟩
  apart t h := not_isBehind_of_isAhead h.1 h.2
  numbers f hf := by
    obtain ⟨a, hgains, rfl⟩ := exists_gains_of_mem hf
    exact hgains.numbers
  prices f hf t ht hcounts := by
    obtain ⟨a, hgains, rfl⟩ := exists_gains_of_mem hf
    obtain ⟨hahead, hbuyer⟩ | hbehind := hcounts
    · exact hgains.price_ahead ((chronicle_ahead ..).mem_iff.2 ⟨ht, hahead⟩) hbuyer
    · exact hgains.price_behind ((chronicle_behind ..).mem_iff.2 ⟨ht, hbehind⟩)

end OfEvent

end ProfitCandidate

end Rule

end TradeWatch

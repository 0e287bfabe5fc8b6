/-
What the candidates of the rules name. A buyer in a window is never the empty text, so no candidate
is about an account without a name, and the related accounts of a network candidate are buyers
other than its own account. The event, the instrument and the announcement of a candidate are those
of an event that the rule looked at. Who bought how much depends on nothing else in the trades.
-/
import TradeWatch.Proofs.Ascending
import TradeWatch.Rule.Leakage
import TradeWatch.Rule.Network
import TradeWatch.Rule.PreAnnouncement
import TradeWatch.Rule.Profit

namespace TradeWatch.Rule

/-! ## Buyers in a window -/

theorem mem_buyers {rows : List Trade} {account : String} :
    account ∈ buyers rows ↔ account ≠ "" ∧ ∃ t ∈ rows, t.buyer = account := by
  unfold buyers
  rw [mem_ascending, List.mem_map]
  constructor
  · rintro ⟨t, ht, rfl⟩
    obtain ⟨ht, hb⟩ := List.mem_filter.1 ht
    exact ⟨by simpa [hasBuyer] using hb, t, ht, rfl⟩
  · rintro ⟨hne, t, ht, rfl⟩
    exact ⟨t, List.mem_filter.2 ⟨ht, by simpa [hasBuyer] using hne⟩, rfl⟩

theorem ne_empty_of_mem_buyers {rows : List Trade} {account : String} (h : account ∈ buyers rows) :
    account ≠ "" :=
  (mem_buyers.1 h).1

/-- There is one activity for each buyer. -/
theorem accounts_buyActivity (rows : List Trade) :
    (buyActivity rows).map (·.account) = buyers rows := by
  unfold buyActivity grouped
  rw [List.map_map, List.map_map]
  exact List.map_id _

theorem length_buyActivity (rows : List Trade) :
    (buyActivity rows).length = (buyers rows).length := by
  rw [← accounts_buyActivity, List.length_map]

theorem account_mem_buyers {rows : List Trade} {a : BuyActivity} (h : a ∈ buyActivity rows) :
    a.account ∈ buyers rows := by
  rw [← accounts_buyActivity]
  exact List.mem_map_of_mem h

/-! ## Purchases that stay what they are -/

/-- Who buys what, how much and at which price stays the same. -/
structure KeepsPurchases (f : Trade → Trade) : Prop where
  instrument : ∀ t, (f t).instrument = t.instrument
  buyer : ∀ t, (f t).buyer = t.buyer
  quantity : ∀ t, (f t).quantity = t.quantity
  price : ∀ t, (f t).price = t.price

section Purchases

variable {f : Trade → Trade} (h : KeepsPurchases f) (rows : List Trade)

include h

theorem KeepsPurchases.filter_hasBuyer :
    (rows.map f).filter hasBuyer = (rows.filter hasBuyer).map f := by
  have hbuyer : hasBuyer ∘ f = hasBuyer := by
    funext t
    rw [Function.comp_apply, hasBuyer, hasBuyer, h.buyer]
  rw [List.filter_map, hbuyer]

theorem KeepsPurchases.buyers_map : buyers (rows.map f) = buyers rows := by
  unfold buyers
  rw [h.filter_hasBuyer, List.map_map]
  simp only [Function.comp_def, h.buyer]

theorem KeepsPurchases.buyActivity_map : buyActivity (rows.map f) = buyActivity rows := by
  have hgroups : grouped textLe (·.buyer) ((rows.filter hasBuyer).map f) =
      (grouped textLe (·.buyer) (rows.filter hasBuyer)).map fun group =>
        (group.1, group.2.map f) :=
    grouped_map_of_key_eq linearLe_text fun t _ => h.buyer t
  unfold buyActivity
  rw [h.filter_hasBuyer, hgroups, List.map_map]
  refine List.map_congr_left fun group _ => ?_
  simp only [Function.comp_def, BuyActivity.ofRows, List.map_map, List.length_map, h.quantity,
    h.price]

end Purchases

/-! ## Candidates of one event -/

theorem PreAnnouncementCandidate.ne_empty_of_mem_ofEvent {index : TradeIndex}
    {baselines : List (String × VolumeBaseline)} {multiplier : Float} {length : Int}
    {event : CorporateEvent} {c : PreAnnouncementCandidate}
    (h : c ∈ ofEvent index baselines multiplier length event) : c.account ≠ "" := by
  unfold ofEvent at h
  split at h
  · cases h
  obtain ⟨a, ha, rfl⟩ := List.mem_map.1 (List.mem_filter.1 h).1
  exact ne_empty_of_mem_buyers (account_mem_buyers ha)

theorem NetworkCandidate.ofBuyer?_of_length_lt (accounts : List Account) (event : CorporateEvent)
    {active : List String} {account : String} (hfew : active.length < 2)
    (hactive : account ∈ active) : ofBuyer? accounts event active account = none := by
  have halone : active = [account] := by
    obtain ⟨a, rfl⟩ := List.length_eq_one_iff.1
      (Nat.le_antisymm (Nat.le_of_lt_succ hfew) (List.length_pos_of_mem hactive))
    rw [List.mem_singleton.1 hactive]
  have hrelated : ((relations accounts account).filter fun r =>
      r != account && [account].contains r) = [] := by
    rw [List.filter_eq_nil_iff]
    intro r _ hr
    simp at hr
  rw [halone, ofBuyer?, hrelated]
  rfl

/-- Windows with fewer than two buyers need not be passed over: they have no candidates. -/
theorem NetworkCandidate.ofEvent_eq_filterMap (index : TradeIndex) (accounts : List Account)
    (length : Int) (event : CorporateEvent) :
    ofEvent index accounts length event =
      match event.announced.shift? (-length) with
      | none => []
      | some start =>
        let active := buyers (index.window event.instrument start event.announced)
        active.filterMap (ofBuyer? accounts event active) := by
  unfold ofEvent
  cases event.announced.shift? (-length) with
  | none => rfl
  | some start =>
    refine ite_eq_right_iff.2 fun hfew => Eq.symm ?_
    exact List.filterMap_eq_nil_iff.2 fun _ ha => ofBuyer?_of_length_lt accounts event hfew ha

/-- The accounts of a network candidate: none is the empty text, and its own is not related. -/
theorem NetworkCandidate.of_mem_ofEvent {index : TradeIndex} {accounts : List Account}
    {length : Int} {event : CorporateEvent} {c : NetworkCandidate}
    (h : c ∈ ofEvent index accounts length event) :
    c.account ≠ "" ∧ c.account ∉ c.related ∧ "" ∉ c.related := by
  rw [ofEvent_eq_filterMap] at h
  split at h
  · cases h
  obtain ⟨account, hb, h⟩ := List.mem_filterMap.1 h
  unfold ofBuyer? at h
  simp only at h
  split at h
  · cases h
  cases h
  refine ⟨ne_empty_of_mem_buyers hb, by simp, fun hr => ?_⟩
  obtain ⟨-, hr⟩ := List.mem_filter.1 hr
  rw [Bool.and_eq_true, List.contains_iff_mem] at hr
  exact ne_empty_of_mem_buyers hr.2 rfl

theorem NetworkCandidate.of_mem_flatMap {index : TradeIndex} {accounts : List Account}
    {length : Int} {events : List CorporateEvent} {c : NetworkCandidate}
    (h : c ∈ events.flatMap (ofEvent index accounts length)) :
    c.account ≠ "" ∧ c.account ∉ c.related ∧ "" ∉ c.related := by
  obtain ⟨event, -, h⟩ := List.mem_flatMap.1 h
  exact of_mem_ofEvent h

theorem ProfitCandidate.ne_empty_of_mem_ofEvent {index : TradeIndex} {threshold : Float}
    {length : Int} {event : CorporateEvent} {c : ProfitCandidate}
    (h : c ∈ ofEvent index threshold length event) : c.account ≠ "" := by
  unfold ofEvent at h
  split at h
  · simp only at h
    split at h
    · cases h
    obtain ⟨a, ha, hc⟩ := List.mem_filterMap.1 (List.mem_filter.1 h).1
    unfold ofActivity? at hc
    simp only at hc
    split at hc
    · cases hc
    cases hc
    exact ne_empty_of_mem_buyers (account_mem_buyers ha)
  · cases h

/-! ## The event of a candidate -/

/-- The event and the instrument are those of one of the events. -/
def FromEvents (events : List CorporateEvent) (event instrument : String) : Prop :=
  ∃ e ∈ events, event = e.id ∧ instrument = e.instrument

/-- What a candidate says of its event. -/
structure BelongsTo (e : CorporateEvent) (event instrument : String) (announced : Time.Instant) :
    Prop where
  event : event = e.id
  instrument : instrument = e.instrument
  announced : announced = e.announced

section Belongs

variable {index : TradeIndex} {length : Int} {e : CorporateEvent} {events : List CorporateEvent}

theorem PreAnnouncementCandidate.belongsTo {baselines : List (String × VolumeBaseline)}
    {multiplier : Float} {c : PreAnnouncementCandidate}
    (h : c ∈ ofEvent index baselines multiplier length e) :
    BelongsTo e c.event c.instrument c.announced := by
  unfold ofEvent at h
  split at h
  · cases h
  obtain ⟨a, -, rfl⟩ := List.mem_map.1 (List.mem_filter.1 h).1
  exact ⟨rfl, rfl, rfl⟩

theorem NetworkCandidate.belongsTo {accounts : List Account} {c : NetworkCandidate}
    (h : c ∈ ofEvent index accounts length e) : BelongsTo e c.event c.instrument c.announced := by
  rw [ofEvent_eq_filterMap] at h
  split at h
  · cases h
  obtain ⟨account, -, h⟩ := List.mem_filterMap.1 h
  unfold ofBuyer? at h
  simp only at h
  split at h
  · cases h
  · cases h
    exact ⟨rfl, rfl, rfl⟩

theorem ProfitCandidate.belongsTo {threshold : Float} {c : ProfitCandidate}
    (h : c ∈ ofEvent index threshold length e) : BelongsTo e c.event c.instrument c.announced := by
  unfold ofEvent at h
  split at h
  · simp only at h
    split at h
    · cases h
    obtain ⟨a, -, hc⟩ := List.mem_filterMap.1 (List.mem_filter.1 h).1
    unfold ofActivity? at hc
    simp only at hc
    split at hc
    · cases hc
    · cases hc
      exact ⟨rfl, rfl, rfl⟩
  · cases h

theorem LeakageCandidate.belongsTo {leastAccounts : Nat} {c : LeakageCandidate}
    (h : ofEvent? index leastAccounts length e = some c) :
    BelongsTo e c.event c.instrument c.announced := by
  unfold ofEvent? at h
  split at h
  · cases h
  simp only at h
  split at h
  · cases h
  · cases h
    exact ⟨rfl, rfl, rfl⟩

theorem PreAnnouncementCandidate.fromEvents {baselines : List (String × VolumeBaseline)}
    {multiplier : Float} {c : PreAnnouncementCandidate}
    (h : c ∈ events.flatMap (ofEvent index baselines multiplier length)) :
    FromEvents events c.event c.instrument := by
  obtain ⟨e, he, h⟩ := List.mem_flatMap.1 h
  exact ⟨e, he, (belongsTo h).event, (belongsTo h).instrument⟩

theorem NetworkCandidate.fromEvents {accounts : List Account} {c : NetworkCandidate}
    (h : c ∈ events.flatMap (ofEvent index accounts length)) :
    FromEvents events c.event c.instrument := by
  obtain ⟨e, he, h⟩ := List.mem_flatMap.1 h
  exact ⟨e, he, (belongsTo h).event, (belongsTo h).instrument⟩

theorem ProfitCandidate.fromEvents {threshold : Float} {c : ProfitCandidate}
    (h : c ∈ events.flatMap (ofEvent index threshold length)) :
    FromEvents events c.event c.instrument := by
  obtain ⟨e, he, h⟩ := List.mem_flatMap.1 h
  exact ⟨e, he, (belongsTo h).event, (belongsTo h).instrument⟩

theorem LeakageCandidate.fromEvents {leastAccounts : Nat} {c : LeakageCandidate}
    (h : c ∈ events.filterMap (ofEvent? index leastAccounts length)) :
    FromEvents events c.event c.instrument := by
  obtain ⟨e, he, h⟩ := List.mem_filterMap.1 h
  exact ⟨e, he, (belongsTo h).event, (belongsTo h).instrument⟩

end Belongs

/-! ## What a rule finds

A rule that is passed over finds nothing; any other groups the candidates of all events. -/

section Elim

variable {trades : List Trade} {accounts : List Account} {events : List CorporateEvent} {c : Config}
  {engine : AlertEngine}

theorem preAnnouncement_elim {P : List PreAnnouncementCandidate → List Alert → Prop}
    (hnil : P [] [])
    (h : ∀ length : Int,
      let candidates := events.flatMap (PreAnnouncementCandidate.ofEvent (.ofTrades trades)
        (VolumeBaseline.ofHistory trades) c.abnormalVolumeMultiplier length)
      P candidates (alertsOf c.minSuspiciousEvents (PreAnnouncementCandidate.alert engine)
        (groups pairLe PreAnnouncementCandidate.key (·.event) candidates))) :
    P (preAnnouncement trades events c engine).candidates
      (preAnnouncement trades events c engine).alerts := by
  unfold preAnnouncement
  split
  · exact hnil
  split
  · exact hnil
  · exact h _

theorem network_elim {P : List NetworkCandidate → List Alert → Prop} (hnil : P [] [])
    (h : ∀ length : Int,
      let candidates := events.flatMap (NetworkCandidate.ofEvent (.ofTrades trades) accounts length)
      P candidates (alertsOf c.minSuspiciousEvents (NetworkCandidate.alert engine)
        (groups textLe (·.account) (·.event) candidates))) :
    P (network trades accounts events c engine).candidates
      (network trades accounts events c engine).alerts := by
  unfold network
  split
  · exact hnil
  split
  · exact hnil
  · exact h _

theorem abnormalProfit_elim {P : List ProfitCandidate → List Alert → Prop} (hnil : P [] [])
    (h : ∀ length : Int,
      let candidates := events.flatMap
        (ProfitCandidate.ofEvent (.ofTrades trades) c.profitThreshold length)
      P candidates (alertsOf c.minSuspiciousEvents (ProfitCandidate.alert engine)
        (groups textLe (·.account) (·.event) candidates))) :
    P (abnormalProfit trades events c engine).candidates
      (abnormalProfit trades events c engine).alerts := by
  unfold abnormalProfit
  split
  · exact hnil
  split
  · exact hnil
  · exact h _

theorem informationLeakage_elim {P : List LeakageCandidate → List Alert → Prop} (hnil : P [] [])
    (h : ∀ length : Int,
      let candidates := events.filterMap
        (LeakageCandidate.ofEvent? (.ofTrades trades) c.leakageMinAccounts length)
      P candidates (alertsOf c.minSuspiciousEvents (LeakageCandidate.alert c engine)
        (groups textLe (·.instrument) (·.event) candidates))) :
    P (informationLeakage trades events c engine).candidates
      (informationLeakage trades events c engine).alerts := by
  unfold informationLeakage
  split
  · exact hnil
  split
  · exact hnil
  · exact h _

theorem exists_announced_abnormalProfit :
    ∀ x ∈ (abnormalProfit trades events c engine).candidates,
      ∃ e ∈ events, x.announced = e.announced := by
  refine abnormalProfit_elim (P := fun candidates _ => ∀ x ∈ candidates,
    ∃ e ∈ events, x.announced = e.announced) (by simp) fun length x hx => ?_
  obtain ⟨e, he, hx⟩ := List.mem_flatMap.1 hx
  exact ⟨e, he, (ProfitCandidate.belongsTo hx).announced⟩

end Elim

end TradeWatch.Rule

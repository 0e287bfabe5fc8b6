/-
Looking further back. A longer window has all the trades of a shorter one, so it has no buyer less,
and what the network and the leakage rule found for an event they find again, with no related
account and no buyer less. No alert goes missing either, and none counts fewer events.
-/
import TradeWatch.Proofs.EventGrowth
import TradeWatch.Proofs.Rule.Leakage
import TradeWatch.Proofs.Rule.Network
import TradeWatch.Proofs.Run.Occurrences

namespace TradeWatch

open Time (InCalendar calendarStart calendarEnd)

/-! ## Windows that reach further back -/

/-- A greater setting reaches at least as far back. -/
theorem Window.le_of_length? {m : Measure} (hm : 0 ≤ m.nanos) {value value' length : Int}
    (h : value ≤ value') (hlength : length? m value = some length) :
    length ≤ value' * m.nanos := by
  rw [eq_of_length? hlength]
  exact Int.mul_le_mul_of_nonneg_right h hm

/-- A window that begins within the calendar can be said in its unit. -/
theorem RuleId.length?_of_inCalendar {c : Config} (rule : RuleId) {event : CorporateEvent}
    (h : InCalendar (event.announced.nanos - rule.lookBack c)) :
    Window.length? rule.windowMeasure (rule.windowValue c) = some (rule.lookBack c) := by
  have hannounced := event.announced.inCalendar
  obtain ⟨hstart, hstop⟩ := h
  refine if_pos ?_
  unfold lookBack at hstart hstop
  unfold calendarStart calendarEnd at *
  cases rule <;> simp only [windowMeasure, Window.days, Window.hours] at * <;> omega

namespace Rule

section Windows

variable {length length' : Int}

theorem IsAhead.mono (h : length ≤ length') {event : CorporateEvent} {t : Trade}
    (ht : IsAhead event length t) : IsAhead event length' t := by
  obtain ⟨hinstrument, hstart, hstop⟩ := ht
  exact ⟨hinstrument, by omega, hstop⟩

theorem buyers_rowsAhead_mono (h : length ≤ length') (trades : List Trade)
    (event : CorporateEvent) :
    buyers (rowsAhead trades event length) ⊆ buyers (rowsAhead trades event length') := by
  intro account haccount
  rw [(chronicle_ahead trades event _).buying.mem_iff] at haccount ⊢
  obtain ⟨hne, t, ht, hahead, hbuyer⟩ := haccount
  exact ⟨hne, t, ht, hahead.mono h, hbuyer⟩

theorem length_buyers_rowsAhead_mono (h : length ≤ length') (trades : List Trade)
    (event : CorporateEvent) :
    (buyers (rowsAhead trades event length)).length ≤
      (buyers (rowsAhead trades event length')).length :=
  (List.subperm_of_subset (nodup_ascending _ _) (buyers_rowsAhead_mono h trades event)).length_le

end Windows

/-! ## The candidates of one event -/

section Candidates

variable {trades : List Trade} {accounts : List Account} {event : CorporateEvent}
  {length length' : Int}

/-- Of one event and account, the second with all related accounts of the first in their order. -/
structure NetworkCandidate.Within (x y : NetworkCandidate) : Prop where
  event : y.event = x.event
  instrument : y.instrument = x.instrument
  account : y.account = x.account
  announced : y.announced = x.announced
  related : x.related.Sublist y.related
  relatedCount : x.relatedCount ≤ y.relatedCount

/-- Of one event, the second with no fewer buyers. -/
structure LeakageCandidate.Within (x y : LeakageCandidate) : Prop where
  event : y.event = x.event
  instrument : y.instrument = x.instrument
  announced : y.announced = x.announced
  accounts : x.accounts ≤ y.accounts

/-- Who is related to a buyer stays so among more of them. -/
theorem NetworkCandidate.exists_within_of_ofBuyer? {active active' : List String} {account : String}
    (h : active ⊆ active') {x : NetworkCandidate}
    (hx : ofBuyer? accounts event active account = some x) :
    ∃ y, ofBuyer? accounts event active' account = some y ∧ x.Within y := by
  rw [ofBuyer?_eq] at hx
  split at hx
  · rename_i hrelated
    cases hx
    obtain ⟨r, hr, hne, hactive⟩ := hrelated
    have hsub : (ofBuyer event active (relations accounts) account).related.Sublist
        (ofBuyer event active' (relations accounts) account).related := by
      refine List.monotone_filter_right _ fun r => ?_
      rw [decide_eq_true_iff, decide_eq_true_iff]
      exact fun ⟨hne, hactive⟩ => ⟨hne, h hactive⟩
    exact ⟨_, (ofBuyer?_eq ..).trans (if_pos ⟨r, hr, hne, h hactive⟩), rfl, rfl, rfl, rfl, hsub,
      hsub.length_le⟩
  · cases hx

theorem NetworkCandidate.exists_within_of_mem_ofEvent (h : length ≤ length')
    (hin : InCalendar (event.announced.nanos - length')) {x : NetworkCandidate}
    (hx : x ∈ ofEvent (.ofTrades trades) accounts length event) :
    ∃ y ∈ ofEvent (.ofTrades trades) accounts length' event, x.Within y := by
  obtain ⟨start', hs'⟩ := Time.Instant.exists_shift? hin
  rw [ofEvent_eq_filterMap] at hx ⊢
  split at hx
  · cases hx
  · rename_i start hs
    simp only [hs', window_eq_rowsAhead hs, window_eq_rowsAhead hs'] at hx ⊢
    have hbuyers := buyers_rowsAhead_mono h trades event
    obtain ⟨account, haccount, hx⟩ := List.mem_filterMap.1 hx
    obtain ⟨y, hy, hxy⟩ := exists_within_of_ofBuyer? hbuyers hx
    exact ⟨y, List.mem_filterMap.2 ⟨account, hbuyers haccount, hy⟩, hxy⟩

theorem LeakageCandidate.exists_within_of_ofEvent? {leastAccounts : Nat} (h : length ≤ length')
    (hin : InCalendar (event.announced.nanos - length')) {x : LeakageCandidate}
    (hx : ofEvent? (.ofTrades trades) leastAccounts length event = some x) :
    ∃ y, ofEvent? (.ofTrades trades) leastAccounts length' event = some y ∧ x.Within y := by
  obtain ⟨start', hs'⟩ := Time.Instant.exists_shift? hin
  have hcount := length_buyers_rowsAhead_mono h trades event
  cases hs : event.announced.shift? (-length) with
  | none =>
    unfold ofEvent? at hx
    rw [hs] at hx
    cases hx
  | some start =>
    rw [ofEvent?_of_shift? hs] at hx
    simp only at hx
    split at hx
    · rename_i hmany
      cases hx
      refine ⟨_, (ofEvent?_of_shift? hs').trans (if_pos (hmany.trans hcount)), rfl, rfl, rfl, ?_⟩
      exact hcount
    · cases hx

end Candidates

/-! ## Whole rules -/

section Widens

variable {κ γ : Type}

/-- Both rules find what they find event by event. What the first one finds for one of the events
the second one finds for it too, and each of its alerts has a counterpart that says no less. -/
structure Widens (event : γ → String) (Within : γ → γ → Prop)
    (narrow wide : List CorporateEvent → Outcome γ) (events : List CorporateEvent) : Prop where
  narrowRows : FindsEach event narrow
  wideRows : FindsEach event wide
  candidates : ∀ e ∈ events, ∀ x ∈ (narrow [e]).candidates,
    ∃ y ∈ (wide [e]).candidates, Within x y
  alerts : ∀ a ∈ (narrow events).alerts, ∃ b ∈ (wide events).alerts, a.GrowsTo b

variable {event : γ → String} {R : γ → γ → Prop} {narrow wide : List CorporateEvent → Outcome γ}
  {events : List CorporateEvent}

/-- Nothing is lost where nothing was found. -/
theorem widens_of_nil (hnarrow : FindsEach event narrow) (hwide : FindsEach event wide)
    (hcandidates : ∀ e ∈ events, (narrow [e]).candidates = [])
    (halerts : (narrow events).alerts = []) : Widens event R narrow wide events := by
  refine ⟨hnarrow, hwide, fun e he x hx => ?_, fun a ha => ?_⟩
  · rw [hcandidates e he] at hx
    cases hx
  · rw [halerts] at ha
    cases ha

/-- For each value of its window setting the rule finds what `find` does with the length of the
window, and nothing where the setting has no length. -/
structure LooksBack [BEq κ] (m : Window.Measure) (rule : RuleId) (le : κ → κ → Bool) (key : γ → κ)
    (event : γ → String) (least : Nat) (raise : Group κ γ → Alert)
    (find : Int → CorporateEvent → List γ) (run : Int → List CorporateEvent → Outcome γ) :
    Prop where
  rows : ∀ value, FindsEach event (run value)
  unsaid : ∀ value, Window.length? m value = none → ∀ events,
    (run value events).candidates = [] ∧ (run value events).alerts = []
  said : ∀ value length, Window.length? m value = some length → ∀ events,
    run value events = .ofCandidates rule le key event least raise (events.flatMap (find length))

/-- A rule that finds no less for each event where it looks further back raises no less. -/
theorem LooksBack.widens [DecidableEq κ] [BEq κ] [LawfulBEq κ] {m : Window.Measure} {rule : RuleId}
    {le : κ → κ → Bool} {key : γ → κ} {least : Nat} {raise : Group κ γ → Alert}
    {find : Int → CorporateEvent → List γ} {run : Int → List CorporateEvent → Outcome γ}
    (hrun : LooksBack m rule le key event least raise find run) {value value' : Int}
    (hm : 0 ≤ m.nanos) (hle : value ≤ value')
    (hlength : ∀ e ∈ events, Window.length? m value' = some (value' * m.nanos))
    (hfind : ∀ length ≤ value' * m.nanos, ∀ e ∈ events, ∀ x ∈ find length e,
      ∃ y ∈ find (value' * m.nanos) e, R x y)
    (hkey : ∀ x y, R x y → key y = key x) (hevent : ∀ x y, R x y → event y = event x)
    (hraise : ∀ g g', g.CoveredBy R g' → (raise g).GrowsTo (raise g')) :
    Widens event R (run value) (run value') events := by
  cases hvalue : Window.length? m value with
  | none =>
    have hnothing := hrun.unsaid value hvalue
    exact widens_of_nil (hrun.rows _) (hrun.rows _) (fun e _ => (hnothing [e]).1)
      (hnothing events).2
  | some length =>
    have hnarrow := hrun.said value length hvalue
    by_cases hevents : events = []
    · subst hevents
      refine widens_of_nil (hrun.rows _) (hrun.rows _) (fun e he => nomatch he) ?_
      rw [hnarrow, List.flatMap_nil, Outcome.ofCandidates_nil]
      rfl
    · -- any of the events shows that the wider window has a length
      obtain ⟨e₀, he₀⟩ := List.exists_mem_of_ne_nil events hevents
      have hwide := hrun.said value' _ (hlength e₀ he₀)
      have hfind := hfind length (Window.le_of_length? hm hle hvalue)
      refine ⟨hrun.rows _, hrun.rows _, fun e he => ?_, ?_⟩
      · rw [hnarrow, hwide]
        simp only [Outcome.ofCandidates, List.flatMap_singleton]
        exact hfind e he
      · rw [hnarrow, hwide]
        refine exists_growsTo_of_covered (fun x hx => ?_) hkey hevent hraise
        obtain ⟨e, he, hx⟩ := List.mem_flatMap.1 hx
        obtain ⟨y, hy, hxy⟩ := hfind e he x hx
        exact ⟨y, List.mem_flatMap.2 ⟨e, he, hy⟩, hxy⟩

end Widens

section Rules

variable (trades : List Trade) (accounts : List Account) {events : List CorporateEvent} (c : Config)
  (engine : AlertEngine)

theorem looksBack_network :
    LooksBack Window.days .networkTrading textLe (·.account) (·.event) c.minSuspiciousEvents
      (NetworkCandidate.alert engine) (NetworkCandidate.ofEvent (.ofTrades trades) accounts)
      fun days => (network trades accounts · { c with networkWindowDays := days } engine) :=
  ⟨fun _ => findsEach_network, fun _ hdays _ => network_of_none hdays,
    fun _ _ hdays _ => network_eq hdays⟩

theorem looksBack_informationLeakage (htrades : trades ≠ []) :
    LooksBack Window.hours .informationLeakage textLe (·.instrument) (·.event)
      c.minSuspiciousEvents (LeakageCandidate.alert c engine)
      (fun length event => (LeakageCandidate.ofEvent? (.ofTrades trades) c.leakageMinAccounts length
        event).toList)
      fun hours => (informationLeakage trades · { c with leakageWindowHours := hours } engine) :=
  ⟨fun _ => findsEach_informationLeakage, fun _ hhours _ => informationLeakage_of_none hhours,
    fun _ _ hhours _ => informationLeakage_eq_flatMap htrades hhours⟩

theorem widens_network {days days' : Int} (h : days ≤ days')
    (hin : ∀ e ∈ events, InCalendar (e.announced.nanos - days' * Window.days.nanos)) :
    Widens (·.event) NetworkCandidate.Within
      (network trades accounts · { c with networkWindowDays := days } engine)
      (network trades accounts · { c with networkWindowDays := days' } engine) events := by
  refine (looksBack_network trades accounts c engine).widens (by decide) h ?_ ?_ ?_ ?_ ?_
  · exact fun e he => RuleId.length?_of_inCalendar .networkTrading
      (c := { c with networkWindowDays := days' }) (hin e he)
  · exact fun length hle e he x => NetworkCandidate.exists_within_of_mem_ofEvent hle (hin e he)
  · exact fun x y hxy => hxy.account
  · exact fun x y hxy => hxy.event
  · refine fun g g' => NetworkCandidate.growsTo_alert_of_coveredBy ?_ ?_
    · exact fun x y hxy => hxy.instrument
    · exact fun x y hxy => hxy.related.subset

theorem widens_informationLeakage {hours hours' : Int} (h : hours ≤ hours')
    (hin : ∀ e ∈ events, InCalendar (e.announced.nanos - hours' * Window.hours.nanos)) :
    Widens (·.event) LeakageCandidate.Within
      (informationLeakage trades · { c with leakageWindowHours := hours } engine)
      (informationLeakage trades · { c with leakageWindowHours := hours' } engine) events := by
  by_cases htrades : trades = []
  · subst htrades
    exact widens_of_nil findsEach_informationLeakage findsEach_informationLeakage
      (fun e _ => rfl) rfl
  refine (looksBack_informationLeakage trades c engine htrades).widens (by decide) h ?_ ?_ ?_ ?_ ?_
  · exact fun e he => RuleId.length?_of_inCalendar .informationLeakage
      (c := { c with leakageWindowHours := hours' }) (hin e he)
  · intro length hle e he x hx
    rw [Option.mem_toList] at hx
    obtain ⟨y, hy, hxy⟩ := LeakageCandidate.exists_within_of_ofEvent? hle (hin e he) hx
    exact ⟨y, Option.mem_toList.2 hy, hxy⟩
  · exact fun x y hxy => hxy.instrument
  · exact fun x y hxy => hxy.event
  · exact fun g g' => LeakageCandidate.growsTo_alert_of_coveredBy

end Rules

/-- As long as the longer window begins within the calendar, the network rule keeps every candidate
with its event and account and no related account less, and the leakage rule every candidate with
its event and no buyer less. The alerts keep their accounts and instruments, count no fewer events
and are no less severe. -/
theorem longer_lookBack_loses_nothing (trades : List Trade) (accounts : List Account)
    (events : List CorporateEvent) (c : Config) (engine : AlertEngine)
    {days days' hours hours' : Int} (hdays : days ≤ days') (hhours : hours ≤ hours') :
    ((∀ e ∈ events, InCalendar (e.announced.nanos - days' * Window.days.nanos)) →
        Widens (·.event) NetworkCandidate.Within
          (network trades accounts · { c with networkWindowDays := days } engine)
          (network trades accounts · { c with networkWindowDays := days' } engine) events) ∧
      ((∀ e ∈ events, InCalendar (e.announced.nanos - hours' * Window.hours.nanos)) →
        Widens (·.event) LeakageCandidate.Within
          (informationLeakage trades · { c with leakageWindowHours := hours } engine)
          (informationLeakage trades · { c with leakageWindowHours := hours' } engine) events) :=
  ⟨widens_network trades accounts c engine hdays, widens_informationLeakage trades c engine hhours⟩

/-- The purchase on the eve of the takeover is found at exactly twenty-four hours, where it adds its
buyer to the window. -/
theorem longer_lookBack_loses_nothing_takeover :
    let engine : AlertEngine := .ofConfig {} takeover.announced
    let network (days : Int) (events : List CorporateEvent) :=
      network takeoverTrades takeoverAccounts events { networkWindowDays := days } engine
    let leakage (hours : Int) (events : List CorporateEvent) :=
      informationLeakage eveOfTakeover events
        { minSuspiciousEvents := 1, leakageMinAccounts := 0, leakageWindowHours := hours } engine
    ((4 : Int) ≤ 5 ∧ (23 : Int) ≤ 24) ∧
      (∀ e ∈ [takeover], InCalendar (e.announced.nanos - 5 * Window.days.nanos)) ∧
      (∀ e ∈ [takeover], InCalendar (e.announced.nanos - 24 * Window.hours.nanos)) ∧
      ((leakage 23 [takeover]).candidates.map (·.accounts) = [0] ∧
        (leakage 24 [takeover]).candidates.map (·.accounts) = [1] ∧
        (leakage 23 [takeover]).alerts.length = 1) ∧
      Widens (·.event) NetworkCandidate.Within (network 4) (network 5) [takeover] ∧
      Widens (·.event) LeakageCandidate.Within (leakage 23) (leakage 24) [takeover] := by
  intro engine network leakage
  have hdays : (4 : Int) ≤ 5 := by decide
  have hhours : (23 : Int) ≤ 24 := by decide
  have hnetwork : ∀ e ∈ [takeover], InCalendar (e.announced.nanos - 5 * Window.days.nanos) := by
    decide
  have hleakage : ∀ e ∈ [takeover], InCalendar (e.announced.nanos - 24 * Window.hours.nanos) := by
    decide
  refine ⟨⟨hdays, hhours⟩, hnetwork, hleakage, by decide +kernel, ?_, ?_⟩
  · exact (longer_lookBack_loses_nothing takeoverTrades takeoverAccounts [takeover] {} engine hdays
      hhours).1 hnetwork
  · exact (longer_lookBack_loses_nothing eveOfTakeover [] [takeover]
      { minSuspiciousEvents := 1, leakageMinAccounts := 0 } engine hdays hhours).2 hleakage

end Rule

end TradeWatch

/-
Which trades a rule reads. With accepted settings each rule finds the same when all trades are left
out that do not concern it: the network and leakage rules read the trades of the window ahead of an
event of the same instrument, the profit rule those of the windows on both sides of it, and the
volume rule all trades of an instrument with an event. So no trade at or after the last announcement
of its instrument reaches a network or a leakage, and no trade of another instrument reaches
anything.
-/
import TradeWatch.Proofs.Config
import TradeWatch.Proofs.Shortcuts

namespace TradeWatch.Rule

/-! ## Relevant trades -/

section Relevant

variable (events : List CorporateEvent) (length : Int) (t : Trade)

/-- The trade is of the instrument of an event. -/
def Concerned : Prop :=
  ∃ e ∈ events, t.instrument = e.instrument

/-- The trade is made in the `length` nanoseconds before an event of its instrument. -/
def Ahead : Prop :=
  ∃ e ∈ events, t.instrument = e.instrument ∧
    e.announced.nanos - length ≤ t.time.nanos ∧ t.time.nanos < e.announced.nanos

/-- The trade is made in the `length` nanoseconds before an event of its instrument or in the seven
days after it. -/
def Around : Prop :=
  ∃ e ∈ events, t.instrument = e.instrument ∧
    e.announced.nanos - length ≤ t.time.nanos ∧
      t.time.nanos ≤ e.announced.nanos + 7 * Time.nanosPerDay

instance : Decidable (Concerned events t) :=
  inferInstanceAs (Decidable (∃ e ∈ events, _))

instance : Decidable (Ahead events length t) :=
  inferInstanceAs (Decidable (∃ e ∈ events, _))

instance : Decidable (Around events length t) :=
  inferInstanceAs (Decidable (∃ e ∈ events, _))

end Relevant

/-- Irrelevant trades do not reach the result: they can all be left out, and histories with the
same relevant trades in the same order have the same result. -/
structure ReadsOnly {β : Type} (Relevant : Trade → Prop) [DecidablePred Relevant]
    (f : List Trade → β) : Prop where
  removed : ∀ trades, f (trades.filter fun t => Relevant t) = f trades
  edited : ∀ trades trades', (trades.filter fun t => Relevant t) =
    (trades'.filter fun t => Relevant t) → f trades = f trades'

theorem readsOnly_of_removed {β : Type} {Relevant : Trade → Prop} [DecidablePred Relevant]
    {f : List Trade → β} (h : ∀ trades, f (trades.filter fun t => Relevant t) = f trades) :
    ReadsOnly Relevant f := by
  refine ⟨h, fun trades trades' hsame => ?_⟩
  rw [← h trades, hsame, h trades']

/-- One irrelevant trade makes no difference. -/
theorem ReadsOnly.insert {β : Type} {Relevant : Trade → Prop} [DecidablePred Relevant]
    {f : List Trade → β} (h : ReadsOnly Relevant f) {t : Trade} (ht : ¬ Relevant t)
    (before after : List Trade) : f (before ++ t :: after) = f (before ++ after) := by
  refine h.edited _ _ ?_
  rw [List.filter_append, List.filter_append, List.filter_cons_of_neg (by simp [ht])]

/-! ## The rules one by one -/

section Rules

variable {accounts : List Account} {events : List CorporateEvent} {c : Config}
  {engine : AlertEngine} {event : CorporateEvent} {start : Time.Instant} {length : Int}

/-- The window ahead of an event holds trades ahead of events. -/
theorem ahead_of_inWindow (he : event ∈ events)
    (hs : event.announced.shift? (-length) = some start) {t : Trade}
    (h : TradeIndex.inWindow event.instrument start event.announced t = true) :
    Ahead events length t := by
  obtain ⟨hinstrument, hstart, hstop⟩ := TradeIndex.inWindow_iff.1 h
  have hnanos := Time.Instant.nanos_of_shift? hs
  exact ⟨event, he, hinstrument, by omega, hstop⟩

theorem around_of_inWindow (he : event ∈ events)
    (hs : event.announced.shift? (-length) = some start) {t : Trade}
    (h : TradeIndex.inWindow event.instrument start event.announced t = true) :
    Around events length t := by
  obtain ⟨hinstrument, hstart, hstop⟩ := TradeIndex.inWindow_iff.1 h
  have hnanos := Time.Instant.nanos_of_shift? hs
  refine ⟨event, he, hinstrument, by omega, ?_⟩
  unfold Time.nanosPerDay
  omega

theorem around_of_inWindowInclusive (he : event ∈ events) (hlength : 0 ≤ length)
    {stop : Time.Instant} (hs : event.announced.shift? ProfitCandidate.postLength = some stop)
    {t : Trade}
    (h : TradeIndex.inWindowInclusive event.instrument event.announced stop t = true) :
    Around events length t := by
  obtain ⟨hinstrument, hstart, hstop⟩ := TradeIndex.inWindowInclusive_iff.1 h
  have hnanos := Time.Instant.nanos_of_shift? hs
  refine ⟨event, he, hinstrument, by omega, ?_⟩
  unfold ProfitCandidate.postLength at hnanos
  omega

theorem readsOnly_preAnnouncement (hc : c.Accepted) :
    ReadsOnly (Concerned events) fun trades => preAnnouncement trades events c engine := by
  refine readsOnly_of_removed fun trades => ?_
  have hlength := Config.length?_of_checked (m := Window.days) hc.preAnnouncementDays (by decide)
  rw [preAnnouncement_eq hlength, preAnnouncement_eq hlength]
  congr 1
  refine List.flatMap_congr fun event he => ?_
  have hbaseline := VolumeBaseline.find_ofHistory_filter (p := fun t => Concerned events t)
    (fun t ht => decide_eq_true ⟨event, he, beq_iff_eq.1 ht⟩) trades
  unfold PreAnnouncementCandidate.ofEvent
  split
  · rfl
  · rename_i start hs
    rw [hbaseline, TradeIndex.window_filter fun t ht => ?_]
    obtain ⟨hinstrument, -⟩ := TradeIndex.inWindow_iff.1 ht
    exact decide_eq_true ⟨event, he, hinstrument⟩

theorem readsOnly_network (hc : c.Accepted) :
    ReadsOnly (Ahead events (c.networkWindowDays * Window.days.nanos)) fun trades =>
      network trades accounts events c engine := by
  refine readsOnly_of_removed fun trades => ?_
  have hlength := Config.length?_of_checked (m := Window.days) hc.networkDays (by decide)
  rw [network_eq hlength, network_eq hlength]
  congr 1
  refine List.flatMap_congr fun event he => ?_
  simp only [NetworkCandidate.ofEvent_eq_filterMap]
  split
  · rfl
  · rename_i start hs
    rw [TradeIndex.window_filter fun t ht => ?_]
    exact decide_eq_true (ahead_of_inWindow he hs ht)

theorem readsOnly_abnormalProfit (hc : c.Accepted) :
    ReadsOnly (Around events (c.preAnnouncementWindowDays * Window.days.nanos)) fun trades =>
      abnormalProfit trades events c engine := by
  refine readsOnly_of_removed fun trades => ?_
  have hlength := Config.length?_of_checked (m := Window.days) hc.preAnnouncementDays (by decide)
  rw [abnormalProfit_eq hlength, abnormalProfit_eq hlength]
  congr 1
  refine List.flatMap_congr fun event he => ?_
  unfold ProfitCandidate.ofEvent
  split
  · rename_i start stop hstart hstop
    have hpositive : 0 ≤ c.preAnnouncementWindowDays * Window.days.nanos :=
      Int.mul_nonneg hc.preAnnouncementDays.1.le (by decide)
    rw [TradeIndex.window_filter fun t ht => decide_eq_true (around_of_inWindow he hstart ht),
      TradeIndex.windowInclusive_filter fun t ht =>
        decide_eq_true (around_of_inWindowInclusive he hpositive hstop ht)]
  · rfl

theorem readsOnly_informationLeakage (hc : c.Accepted) :
    ReadsOnly (Ahead events (c.leakageWindowHours * Window.hours.nanos)) fun trades =>
      informationLeakage trades events c engine := by
  refine readsOnly_of_removed fun trades => ?_
  have hlength := Config.length?_of_checked (m := Window.hours) hc.leakageHours (by decide)
  rw [informationLeakage_eq (.inr hc.leakageMinAccounts) hlength,
    informationLeakage_eq (.inr hc.leakageMinAccounts) hlength]
  congr 1
  refine List.filterMap_congr fun event he => ?_
  unfold LeakageCandidate.ofEvent?
  split
  · rfl
  · rename_i start hs
    rw [TradeIndex.window_filter fun t ht => ?_]
    exact decide_eq_true (ahead_of_inWindow he hs ht)

/-- A trade at or after every announcement of its instrument is ahead of none. -/
theorem not_ahead_of_late {t : Trade}
    (h : ∀ e ∈ events, t.instrument = e.instrument → e.announced.nanos ≤ t.time.nanos) :
    ¬ Ahead events length t := by
  rintro ⟨e, he, hinstrument, -, hbefore⟩
  have hlate := h e he hinstrument
  omega

end Rules

/-- With accepted settings each rule reads only the trades that concern it, and whatever is bought
at or after the last announcement of its instrument changes neither networks nor leakages. -/
theorem outcomes_read_relevant_trades {c : Config} (hc : c.validate = .ok ())
    (accounts : List Account) (events : List CorporateEvent) (engine : AlertEngine) :
    (ReadsOnly (Concerned events) fun trades => preAnnouncement trades events c engine) ∧
      (ReadsOnly (Ahead events (c.networkWindowDays * Window.days.nanos)) fun trades =>
        network trades accounts events c engine) ∧
      (ReadsOnly (Around events (c.preAnnouncementWindowDays * Window.days.nanos)) fun trades =>
        abnormalProfit trades events c engine) ∧
      (ReadsOnly (Ahead events (c.leakageWindowHours * Window.hours.nanos)) fun trades =>
        informationLeakage trades events c engine) ∧
      ∀ before t after,
        (∀ e ∈ events, t.instrument = e.instrument → e.announced.nanos ≤ t.time.nanos) →
        network (before ++ t :: after) accounts events c engine =
            network (before ++ after) accounts events c engine ∧
          informationLeakage (before ++ t :: after) events c engine =
            informationLeakage (before ++ after) events c engine := by
  rw [Config.validate_eq_ok_iff] at hc
  refine ⟨readsOnly_preAnnouncement hc, readsOnly_network hc, readsOnly_abnormalProfit hc,
    readsOnly_informationLeakage hc, fun before t after hlate => ⟨?_, ?_⟩⟩
  · exact (readsOnly_network hc).insert (not_ahead_of_late hlate) before after
  · exact (readsOnly_informationLeakage hc).insert (not_ahead_of_late hlate) before after

/-! ### An event with trades around it -/

def merger : CorporateEvent :=
  ⟨"E1", "ACME", "merger", ⟨1700308800000000000, by decide⟩, none⟩

/-- A purchase one day ahead of the event. -/
def dayAhead : Trade :=
  ⟨"T1", ⟨1700222400000000000, by decide⟩, "ACME", "A1", "S1", 10.0, 2.0, 20.0⟩

/-- A purchase at the very moment of the announcement. -/
def onTime : Trade :=
  { dayAhead with id := "T2", buyer := "A2", time := merger.announced }

def elsewhere : Trade :=
  { dayAhead with id := "T3", buyer := "A2", instrument := "BETA" }

theorem outcomes_read_relevant_trades_merger :
    ({} : Config).validate = .ok () ∧
      (let engine : AlertEngine := .ofConfig {} merger.announced
      let accounts : List Account := [⟨"A1", none, none, ["A2"]⟩]
      network [dayAhead] accounts [merger] {} engine =
          network [elsewhere, dayAhead, onTime] accounts [merger] {} engine ∧
        abnormalProfit [dayAhead, onTime] [merger] {} engine =
          abnormalProfit [elsewhere, dayAhead, onTime] [merger] {} engine ∧
        preAnnouncement [dayAhead, onTime] [merger] {} engine =
          preAnnouncement [elsewhere, dayAhead, onTime] [merger] {} engine ∧
        informationLeakage ([dayAhead] ++ onTime :: []) [merger] {} engine =
          informationLeakage ([dayAhead] ++ []) [merger] {} engine) := by
  have hvalid : ({} : Config).validate = .ok () := by decide +kernel
  obtain ⟨hvolume, hnetwork, hprofit, -, hlate⟩ := outcomes_read_relevant_trades hvalid
    [⟨"A1", none, none, ["A2"]⟩] [merger] (.ofConfig {} merger.announced)
  refine ⟨hvalid, ?_, ?_, ?_, ?_⟩
  · exact hnetwork.edited _ _ (by decide +kernel)
  · exact hprofit.edited _ _ (by decide +kernel)
  · exact hvolume.edited _ _ (by decide +kernel)
  · exact (hlate [dayAhead] onTime [] (by decide +kernel)).2

end TradeWatch.Rule

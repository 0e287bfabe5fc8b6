/-
Windows at the ends of the calendar and of what can be said in days and hours. An accepted window
always has a length, so no rule is passed over, and an event is left out of a rule just when its
window begins before the first instant, or, for the profit rule, when the week behind it ends after
the last one. Settings that were never checked make a rule warn once and find nothing when they are
too great in either direction, and a window that does not go back at all finds nobody.
-/
import Mathlib.Algebra.Order.Group.Unbundled.Int
import TradeWatch.Proofs.Config
import TradeWatch.Proofs.Scoring
import TradeWatch.Proofs.Shortcuts
import TradeWatch.Proofs.Time.Calendar

namespace TradeWatch

open Time (Instant calendarStart calendarEnd nanosPerDay)

/-! ## The window of each rule -/

namespace RuleId

/-- The setting that says how far a rule looks back. -/
def windowSetting : RuleId → Setting
  | preAnnouncementTrading => .preAnnouncementWindowDays
  | networkTrading => .networkWindowDays
  | abnormalProfit => .preAnnouncementWindowDays
  | informationLeakage => .leakageWindowHours

def windowMeasure : RuleId → Window.Measure
  | informationLeakage => Window.hours
  | _ => Window.days

/-- The value of the window setting, in days or hours. -/
def windowValue (c : Config) : RuleId → Int
  | preAnnouncementTrading => c.preAnnouncementWindowDays
  | networkTrading => c.networkWindowDays
  | abnormalProfit => c.preAnnouncementWindowDays
  | informationLeakage => c.leakageWindowHours

/-- How far a rule looks back, in nanoseconds. -/
def lookBack (c : Config) (rule : RuleId) : Int :=
  rule.windowValue c * rule.windowMeasure.nanos

/-- The window of the rule around an event leaves the calendar: it begins before the first instant,
or the week behind the announcement ends after the last one. -/
def LeavesOut (c : Config) (rule : RuleId) (event : CorporateEvent) : Prop :=
  event.announced.nanos - rule.lookBack c < calendarStart ∨
    rule = .abnormalProfit ∧ calendarEnd - 1 < event.announced.nanos + 7 * nanosPerDay

instance (c : Config) (rule : RuleId) (event : CorporateEvent) :
    Decidable (rule.LeavesOut c event) :=
  inferInstanceAs (Decidable (_ ∨ _))

end RuleId

namespace Config

/-- The windows of accepted settings go back, by a hundred years at most, and have a length. -/
theorem Accepted.lookBack_bounds {c : Config} (h : c.Accepted) (rule : RuleId) :
    0 < rule.lookBack c ∧ rule.lookBack c ≤ maxWindowDays * nanosPerDay := by
  have hpre := h.preAnnouncementDays
  have hnetwork := h.networkDays
  have hleakage := h.leakageHours
  unfold maxWindowDays at *
  cases rule <;>
    simp only [RuleId.lookBack, RuleId.windowValue, RuleId.windowMeasure, Window.days,
      Window.hours, nanosPerDay] <;>
    omega

theorem Accepted.length?_eq {c : Config} (h : c.Accepted) (rule : RuleId) :
    Window.length? rule.windowMeasure (rule.windowValue c) = some (rule.lookBack c) := by
  cases rule with
  | preAnnouncementTrading => exact length?_of_checked h.preAnnouncementDays (by decide)
  | networkTrading => exact length?_of_checked h.networkDays (by decide)
  | abnormalProfit => exact length?_of_checked h.preAnnouncementDays (by decide)
  | informationLeakage => exact length?_of_checked h.leakageHours (by decide)

/-- A hundred years behind the first instant and a week ahead of the last one no event is left
out. -/
theorem Accepted.not_leavesOut {c : Config} (h : c.Accepted) (rule : RuleId)
    {event : CorporateEvent}
    (hstart : calendarStart + 36500 * nanosPerDay ≤ event.announced.nanos)
    (hstop : event.announced.nanos + 7 * nanosPerDay ≤ calendarEnd - 1) :
    ¬ rule.LeavesOut c event := by
  have hback := (h.lookBack_bounds rule).2
  unfold maxWindowDays at hback
  rintro (hbefore | ⟨-, hafter⟩)
  · omega
  · omega

end Config

/-- A length is as many units as the setting says. -/
theorem Window.eq_of_length? {m : Measure} {value length : Int}
    (h : length? m value = some length) : length = value * m.nanos := by
  unfold length? at h
  split at h
  · exact (Option.some.inj h).symm
  · cases h

namespace Rule

/-! ## What a rule makes of the rows of a window -/

/-- The trades of the event's instrument in the `length` nanoseconds ahead of it, in order of
time. -/
def rowsAhead (trades : List Trade) (event : CorporateEvent) (length : Int) : List Trade :=
  (trades.filter fun t => t.instrument = event.instrument ∧
    event.announced.nanos - length ≤ t.time.nanos ∧
      t.time.nanos < event.announced.nanos).mergeSort TradeIndex.earlier

/-- The trades of the event's instrument from the announcement on up to `length` nanoseconds after
it. -/
def rowsBehind (trades : List Trade) (event : CorporateEvent) (length : Int) : List Trade :=
  (trades.filter fun t => t.instrument = event.instrument ∧
    event.announced.nanos ≤ t.time.nanos ∧
      t.time.nanos ≤ event.announced.nanos + length).mergeSort TradeIndex.earlier

def PreAnnouncementCandidate.ofRows (event : CorporateEvent) (baseline : VolumeBaseline)
    (multiplier : Float) (rows : List Trade) : List PreAnnouncementCandidate :=
  ((buyActivity rows).map (ofActivity event baseline)).filter fun c =>
    decide (multiplier ≤ c.volumeRatio)

def NetworkCandidate.ofRows (accounts : List Account) (event : CorporateEvent)
    (rows : List Trade) : List NetworkCandidate :=
  (buyers rows).filterMap (ofBuyer? accounts event (buyers rows))

def ProfitCandidate.ofRows (event : CorporateEvent) (threshold : Float)
    (ahead behind : List Trade) :
    List ProfitCandidate :=
  if behind.isEmpty then []
  else
    ((buyActivity ahead).filterMap
      (ofActivity? event (Stats.average (behind.map (·.price))))).filter fun c =>
        decide (threshold ≤ c.gain)

def LeakageCandidate.ofRows? (event : CorporateEvent) (leastAccounts : Nat) (rows : List Trade) :
    Option LeakageCandidate :=
  if (buyActivity rows).length < leastAccounts then none
  else some ⟨event.id, event.instrument, event.announced, (buyActivity rows).length,
    Stats.total (rows.map (·.quantity)), topBuyer (buyActivity rows)⟩

section Windows

variable {trades : List Trade} {event : CorporateEvent} {length : Int} {start stop : Instant}

theorem window_eq_rowsAhead (h : event.announced.shift? (-length) = some start) :
    (TradeIndex.ofTrades trades).window event.instrument start event.announced =
      rowsAhead trades event length := by
  have hnanos := Instant.nanos_of_shift? h
  rw [TradeIndex.window_ofTrades]
  unfold rowsAhead
  congr 1
  refine List.filter_congr fun t _ => ?_
  rw [Bool.eq_iff_iff, TradeIndex.inWindow_iff, decide_eq_true_iff, hnanos, Int.sub_eq_add_neg]

theorem windowInclusive_eq_rowsBehind (h : event.announced.shift? length = some stop) :
    (TradeIndex.ofTrades trades).windowInclusive event.instrument event.announced stop =
      rowsBehind trades event length := by
  have hnanos := Instant.nanos_of_shift? h
  rw [TradeIndex.windowInclusive_ofTrades]
  unfold rowsBehind
  congr 1
  refine List.filter_congr fun t _ => ?_
  rw [Bool.eq_iff_iff, TradeIndex.inWindowInclusive_iff, decide_eq_true_iff, hnanos]

/-- A window that does not go back holds no trades. -/
theorem rowsAhead_of_nonpos (h : length ≤ 0) : rowsAhead trades event length = [] := by
  unfold rowsAhead
  rw [List.filter_eq_nil_iff.2 fun t _ => ?_, List.mergeSort_nil]
  rw [decide_eq_true_iff]
  rintro ⟨-, hstart, hstop⟩
  omega

/-- A window that goes back can leave the calendar at its beginning only. -/
theorem shift?_back_eq_none_iff (h : 0 ≤ length) :
    event.announced.shift? (-length) = none ↔ event.announced.nanos - length < calendarStart := by
  have hcalendar := event.announced.inCalendar
  rw [Instant.shift?_eq_none_iff]
  constructor
  · rintro (hbefore | hafter)
    · omega
    · omega
  · exact fun hbefore => .inl hbefore

theorem shift?_week_eq_none_iff :
    event.announced.shift? ProfitCandidate.postLength = none ↔
      calendarEnd - 1 < event.announced.nanos + 7 * nanosPerDay := by
  have hcalendar := event.announced.inCalendar
  rw [Instant.shift?_eq_none_iff]
  unfold ProfitCandidate.postLength nanosPerDay
  constructor
  · rintro (hbefore | hafter)
    · omega
    · omega
  · exact fun hafter => .inr (by omega)

end Windows

/-! ## Events that are left out -/

section LeftOut

variable {trades : List Trade} {c : Config} {event : CorporateEvent}

/-- What is left out is what the arithmetic of dates has no result for. -/
theorem leavesOut_iff (event : CorporateEvent) {rule : RuleId} (hrule : rule ≠ .abnormalProfit)
    (h : 0 ≤ rule.lookBack c) :
    rule.LeavesOut c event ↔ event.announced.shift? (-rule.lookBack c) = none := by
  rw [shift?_back_eq_none_iff h]
  constructor
  · rintro (hbefore | ⟨hprofit, -⟩)
    · exact hbefore
    · exact absurd hprofit hrule
  · exact fun hbefore => .inl hbefore

theorem leavesOut_abnormalProfit_iff (event : CorporateEvent)
    (h : 0 ≤ RuleId.abnormalProfit.lookBack c) :
    RuleId.abnormalProfit.LeavesOut c event ↔
      event.announced.shift? (-RuleId.abnormalProfit.lookBack c) = none ∨
        event.announced.shift? ProfitCandidate.postLength = none := by
  rw [shift?_back_eq_none_iff h, shift?_week_eq_none_iff]
  simp [RuleId.LeavesOut]

theorem PreAnnouncementCandidate.ofEvent_eq (baselines : List (String × VolumeBaseline))
    (multiplier : Float) (h : 0 ≤ RuleId.preAnnouncementTrading.lookBack c) :
    ofEvent (.ofTrades trades) baselines multiplier (RuleId.preAnnouncementTrading.lookBack c)
        event =
      if RuleId.preAnnouncementTrading.LeavesOut c event then []
      else ofRows event (VolumeBaseline.find baselines event.instrument) multiplier
        (rowsAhead trades event (RuleId.preAnnouncementTrading.lookBack c)) := by
  have hout := leavesOut_iff event (by decide) h
  unfold ofEvent
  cases hs : event.announced.shift? (-RuleId.preAnnouncementTrading.lookBack c) with
  | none => rw [if_pos (hout.2 hs)]
  | some start =>
    rw [if_neg (by rw [hout, hs]; simp)]
    simp only [window_eq_rowsAhead hs]
    rfl

theorem NetworkCandidate.ofEvent_eq (accounts : List Account)
    (h : 0 ≤ RuleId.networkTrading.lookBack c) :
    ofEvent (.ofTrades trades) accounts (RuleId.networkTrading.lookBack c) event =
      if RuleId.networkTrading.LeavesOut c event then []
      else ofRows accounts event (rowsAhead trades event (RuleId.networkTrading.lookBack c)) := by
  have hout := leavesOut_iff event (by decide) h
  rw [ofEvent_eq_filterMap]
  cases hs : event.announced.shift? (-RuleId.networkTrading.lookBack c) with
  | none => rw [if_pos (hout.2 hs)]
  | some start =>
    rw [if_neg (by rw [hout, hs]; simp)]
    simp only [window_eq_rowsAhead hs]
    rfl

/-- Without trades ahead there are no buyers to look at. -/
theorem ProfitCandidate.ofRows_nil (event : CorporateEvent) (threshold : Float)
    (behind : List Trade) : ofRows event threshold [] behind = [] := by
  unfold ofRows
  rw [buyActivity_nil]
  exact ite_self _

theorem ProfitCandidate.ofEvent_eq (threshold : Float)
    (h : 0 ≤ RuleId.abnormalProfit.lookBack c) :
    ofEvent (.ofTrades trades) threshold (RuleId.abnormalProfit.lookBack c) event =
      if RuleId.abnormalProfit.LeavesOut c event then []
      else ofRows event threshold (rowsAhead trades event (RuleId.abnormalProfit.lookBack c))
        (rowsBehind trades event (7 * nanosPerDay)) := by
  have hout := leavesOut_abnormalProfit_iff event h
  unfold ofEvent
  cases hs : event.announced.shift? (-RuleId.abnormalProfit.lookBack c) with
  | none => rw [if_pos (hout.2 (.inl hs))]
  | some start =>
    cases he : event.announced.shift? postLength with
    | none => rw [if_pos (hout.2 (.inr he))]
    | some stop =>
      rw [if_neg (by rw [hout, hs, he]; simp)]
      simp only [window_eq_rowsAhead hs, windowInclusive_eq_rowsBehind he]
      cases rowsAhead trades event (RuleId.abnormalProfit.lookBack c) with
      | nil => exact (ofRows_nil ..).symm
      | cons => rfl

theorem LeakageCandidate.ofEvent?_eq (leastAccounts : Nat)
    (h : 0 ≤ RuleId.informationLeakage.lookBack c) :
    ofEvent? (.ofTrades trades) leastAccounts (RuleId.informationLeakage.lookBack c) event =
      if RuleId.informationLeakage.LeavesOut c event then none
      else ofRows? event leastAccounts
        (rowsAhead trades event (RuleId.informationLeakage.lookBack c)) := by
  have hout := leavesOut_iff event (by decide) h
  unfold ofEvent?
  cases hs : event.announced.shift? (-RuleId.informationLeakage.lookBack c) with
  | none => rw [if_pos (hout.2 hs)]
  | some start =>
    rw [if_neg (by rw [hout, hs]; simp)]
    simp only [window_eq_rowsAhead hs]
    rfl

end LeftOut

/-! ## Accepted windows -/

/-- With windows that hold no rule is passed over, and the candidates of a rule are made of the
rows around each event in its turn, those that are left out excepted. -/
structure WindowsHold (c : Config) : Prop where
  lengths : ∀ rule : RuleId,
    Window.length? rule.windowMeasure (rule.windowValue c) = some (rule.lookBack c)
  silent : ∀ inputs engine, (Findings.ofInputs inputs c engine).notices = []
  preAnnouncement : ∀ trades events engine,
    (preAnnouncement trades events c engine).candidates = events.flatMap fun event =>
      if RuleId.preAnnouncementTrading.LeavesOut c event then []
      else PreAnnouncementCandidate.ofRows event
        (VolumeBaseline.find (VolumeBaseline.ofHistory trades) event.instrument)
        c.abnormalVolumeMultiplier
        (rowsAhead trades event (RuleId.preAnnouncementTrading.lookBack c))
  network : ∀ trades accounts events engine,
    (network trades accounts events c engine).candidates = events.flatMap fun event =>
      if RuleId.networkTrading.LeavesOut c event then []
      else NetworkCandidate.ofRows accounts event
        (rowsAhead trades event (RuleId.networkTrading.lookBack c))
  abnormalProfit : ∀ trades events engine,
    (abnormalProfit trades events c engine).candidates = events.flatMap fun event =>
      if RuleId.abnormalProfit.LeavesOut c event then []
      else ProfitCandidate.ofRows event c.profitThreshold
        (rowsAhead trades event (RuleId.abnormalProfit.lookBack c))
        (rowsBehind trades event (7 * nanosPerDay))
  informationLeakage : ∀ trades events engine,
    (informationLeakage trades events c engine).candidates = events.filterMap fun event =>
      if RuleId.informationLeakage.LeavesOut c event then none
      else LeakageCandidate.ofRows? event c.leakageMinAccounts
        (rowsAhead trades event (RuleId.informationLeakage.lookBack c))
  reached : ∀ (rule : RuleId) (event : CorporateEvent),
    calendarStart + 36500 * nanosPerDay ≤ event.announced.nanos →
    event.announced.nanos + 7 * nanosPerDay ≤ calendarEnd - 1 → ¬ rule.LeavesOut c event

theorem windowsHold_of_accepted {c : Config} (h : c.Accepted) : WindowsHold c := by
  have hback : ∀ rule : RuleId, 0 ≤ rule.lookBack c := fun rule => (h.lookBack_bounds rule).1.le
  refine {
    lengths := h.length?_eq
    silent := fun inputs engine => ?_
    preAnnouncement := fun trades events engine => ?_
    network := fun trades accounts events engine => ?_
    abnormalProfit := fun trades events engine => ?_
    informationLeakage := fun trades events engine => ?_
    reached := fun rule event => h.not_leavesOut rule }
  · unfold Findings.ofInputs
    rw [preAnnouncement_eq (h.length?_eq .preAnnouncementTrading),
      network_eq (h.length?_eq .networkTrading), abnormalProfit_eq (h.length?_eq .abnormalProfit),
      informationLeakage_eq (.inr h.leakageMinAccounts) (h.length?_eq .informationLeakage)]
    rfl
  · rw [preAnnouncement_eq (h.length?_eq .preAnnouncementTrading)]
    exact List.flatMap_congr fun event _ => PreAnnouncementCandidate.ofEvent_eq _ _ (hback _)
  · rw [network_eq (h.length?_eq .networkTrading)]
    exact List.flatMap_congr fun event _ => NetworkCandidate.ofEvent_eq _ (hback _)
  · rw [abnormalProfit_eq (h.length?_eq .abnormalProfit)]
    exact List.flatMap_congr fun event _ => ProfitCandidate.ofEvent_eq _ (hback _)
  · rw [informationLeakage_eq (.inr h.leakageMinAccounts) (h.length?_eq .informationLeakage)]
    exact List.filterMap_congr fun event _ => LeakageCandidate.ofEvent?_eq _ (hback _)

/-! ## Windows that were never checked -/

theorem length?_eq_none_iff {m : Window.Measure} {value : Int} :
    Window.length? m value = none ↔ m.limit < |value| := by
  unfold Window.length?
  rw [lt_abs]
  split
  · simp only [reduceCtorEq, false_iff]
    omega
  · simp only [true_iff]
    omega

/-- The rule finds nothing and warns once just when it has something to look at and its window has
no length; it never warns of anything else. -/
structure WarnsBeyond {γ : Type} (c : Config) (rule : RuleId) (limit : Int) (Busy : Prop)
    (o : Outcome γ) : Prop where
  skipped_iff : o.isEmpty = true ∧ o.notices.length = 1 ↔ Busy ∧ limit < |rule.windowValue c|
  quiet : ¬ (Busy ∧ limit < |rule.windowValue c|) → o.notices = []
  notice : ∀ n ∈ o.notices,
    n = .windowOutOfRange rule.code rule.windowSetting (rule.windowValue c)

/-- A rule that stops at once when it has nothing to look at, and else when its window has no
length. -/
def outline {γ : Type} (c : Config) (rule : RuleId) (idle : Bool) (find : Int → Outcome γ) :
    Outcome γ :=
  if idle then .nothing rule
  else match Window.length? rule.windowMeasure (rule.windowValue c) with
    | none => .skipped rule rule.windowSetting (rule.windowValue c)
    | some length => find length

section Outlines

variable (trades : List Trade) (accounts : List Account) (events : List CorporateEvent) (c : Config)
  (engine : AlertEngine)

end Outlines

/-- Two runs with windows of one length agree if they do once they have something to look at. -/
theorem outline_rel {γ : Type} {R : Outcome γ → Outcome γ → Prop} {c c' : Config} (rule : RuleId)
    {idle : Bool} {find find' : Int → Outcome γ}
    (hvalue : rule.windowValue c' = rule.windowValue c)
    (hnothing : R (.nothing rule) (.nothing rule))
    (hskipped : ∀ setting value,
      R (.skipped rule setting value) (.skipped rule setting value))
    (hfind : R (find (rule.lookBack c)) (find' (rule.lookBack c))) :
    R (outline c rule idle find) (outline c' rule idle find') := by
  unfold outline
  rw [hvalue]
  cases idle with
  | true => exact hnothing
  | false =>
    cases hlength : Window.length? rule.windowMeasure (rule.windowValue c) with
    | none => exact hskipped _ _
    | some length =>
      obtain rfl : length = rule.lookBack c := Window.eq_of_length? hlength
      exact hfind

theorem warnsBeyond_outline {γ : Type} (c : Config) (rule : RuleId) {idle : Bool}
    {find : Int → Outcome γ} {Busy : Prop} (hbusy : idle = false ↔ Busy)
    (hfind : ∀ length, (find length).notices = []) :
    WarnsBeyond c rule rule.windowMeasure.limit Busy (outline c rule idle find) := by
  rw [← hbusy]
  unfold outline
  cases idle with
  | true => exact ⟨by simp [Outcome.nothing], fun _ => rfl, fun n hn => nomatch hn⟩
  | false =>
    cases hlength : Window.length? rule.windowMeasure (rule.windowValue c) with
    | none =>
      have hbeyond := length?_eq_none_iff.1 hlength
      refine ⟨by simp [Outcome.skipped, Outcome.isEmpty, hbeyond], fun hin => ?_, fun n hn => ?_⟩
      · exact absurd ⟨rfl, hbeyond⟩ hin
      · exact List.mem_singleton.1 hn
    | some length =>
      have hwithin : ¬ rule.windowMeasure.limit < |rule.windowValue c| := by
        rw [← length?_eq_none_iff, hlength]
        simp
      refine ⟨by simp [hfind, hwithin], fun _ => hfind length, fun n hn => ?_⟩
      have hnone : n ∈ (find length).notices := hn
      rw [hfind] at hnone
      exact nomatch hnone

/-- What holds of the windows of settings that were never checked. -/
structure UncheckedWindows (c : Config) : Prop where
  preAnnouncement : ∀ trades events engine,
    WarnsBeyond c .preAnnouncementTrading 106751991167 (trades ≠ [] ∧ events ≠ [])
      (preAnnouncement trades events c engine)
  network : ∀ trades accounts events engine,
    WarnsBeyond c .networkTrading 106751991167
      ((∃ a ∈ accounts, a.related ≠ []) ∧ trades ≠ [] ∧ events ≠ [])
      (network trades accounts events c engine)
  abnormalProfit : ∀ trades events engine,
    WarnsBeyond c .abnormalProfit 106751991167 (trades ≠ [] ∧ events ≠ [])
      (abnormalProfit trades events c engine)
  informationLeakage : ∀ trades events engine,
    WarnsBeyond c .informationLeakage 2562047788015 (trades ≠ [] ∧ events ≠ [])
      (informationLeakage trades events c engine)
  /-- A window that does not go back finds nobody, in the rules that report buyers. -/
  idle : ∀ trades accounts events engine,
    (c.preAnnouncementWindowDays ≤ 0 →
      (Rule.preAnnouncement trades events c engine).candidates = [] ∧
        (Rule.abnormalProfit trades events c engine).candidates = []) ∧
      (c.networkWindowDays ≤ 0 →
        (Rule.network trades accounts events c engine).candidates = [])

section Unchecked

variable {trades : List Trade} {accounts : List Account} {events : List CorporateEvent}
  {c : Config} {engine : AlertEngine} {length : Int}

theorem isEmpty_or_isEmpty_eq_false_iff :
    (trades.isEmpty || events.isEmpty) = false ↔ trades ≠ [] ∧ events ≠ [] := by
  rw [Bool.or_eq_false_iff, List.isEmpty_eq_false_iff, List.isEmpty_eq_false_iff]

theorem length_nonpos {value : Int} (h : value ≤ 0)
    (hlength : Window.length? Window.days value = some length) : length ≤ 0 := by
  rw [Window.eq_of_length? hlength]
  exact Int.mul_nonpos_of_nonpos_of_nonneg h (by decide)

theorem window_of_nonpos (h : length ≤ 0) {event : CorporateEvent} {start : Instant}
    (hs : event.announced.shift? (-length) = some start) :
    (TradeIndex.ofTrades trades).window event.instrument start event.announced = [] := by
  rw [window_eq_rowsAhead hs, rowsAhead_of_nonpos h]

theorem preAnnouncement_of_nonpos (h : c.preAnnouncementWindowDays ≤ 0) :
    (preAnnouncement trades events c engine).candidates = [] := by
  cases hlength : Window.length? Window.days c.preAnnouncementWindowDays with
  | none =>
    unfold preAnnouncement
    rw [hlength]
    split <;> rfl
  | some length =>
    rw [preAnnouncement_eq hlength]
    refine List.flatMap_eq_nil_iff.2 fun event _ => ?_
    unfold PreAnnouncementCandidate.ofEvent
    split
    · rfl
    · rename_i start hs
      simp only [window_of_nonpos (length_nonpos h hlength) hs, buyActivity_nil, List.map_nil,
        List.filter_nil]

theorem network_of_nonpos (h : c.networkWindowDays ≤ 0) :
    (network trades accounts events c engine).candidates = [] := by
  cases hlength : Window.length? Window.days c.networkWindowDays with
  | none =>
    unfold network
    rw [hlength]
    split <;> rfl
  | some length =>
    rw [network_eq hlength]
    refine List.flatMap_eq_nil_iff.2 fun event _ => ?_
    rw [NetworkCandidate.ofEvent_eq_filterMap]
    split
    · rfl
    · rename_i start hs
      simp only [window_of_nonpos (length_nonpos h hlength) hs, buyers_nil, List.filterMap_nil]

theorem abnormalProfit_of_nonpos (h : c.preAnnouncementWindowDays ≤ 0) :
    (abnormalProfit trades events c engine).candidates = [] := by
  cases hlength : Window.length? Window.days c.preAnnouncementWindowDays with
  | none =>
    unfold abnormalProfit
    rw [hlength]
    split <;> rfl
  | some length =>
    rw [abnormalProfit_eq hlength]
    refine List.flatMap_eq_nil_iff.2 fun event _ => ?_
    unfold ProfitCandidate.ofEvent
    split
    · rename_i start stop hs _
      simp only [window_of_nonpos (length_nonpos h hlength) hs, buyActivity_nil,
        List.filterMap_nil, List.filter_nil, ite_self]
    · rfl

end Unchecked

theorem uncheckedWindows (c : Config) : UncheckedWindows c := by
  refine {
    preAnnouncement := fun trades events engine => ?_
    network := fun trades accounts events engine => ?_
    abnormalProfit := fun trades events engine => ?_
    informationLeakage := fun trades events engine => ?_
    idle := fun trades accounts events engine => ?_ }
  · exact warnsBeyond_outline c .preAnnouncementTrading isEmpty_or_isEmpty_eq_false_iff
      fun length => rfl
  · refine warnsBeyond_outline c .networkTrading ?_ fun length => rfl
    simp only [Bool.or_eq_false_iff, List.isEmpty_eq_false_iff, List.all_eq_false, and_assoc,
      Bool.not_eq_true]
  · exact warnsBeyond_outline c .abnormalProfit isEmpty_or_isEmpty_eq_false_iff fun length => rfl
  · exact warnsBeyond_outline c .informationLeakage isEmpty_or_isEmpty_eq_false_iff
      fun length => rfl
  · exact ⟨fun h => ⟨preAnnouncement_of_nonpos h, abnormalProfit_of_nonpos h⟩,
      fun h => network_of_nonpos h⟩

/-- Accepted windows always have a length and leave out an event only at the ends of the calendar;
of settings that were never checked, those without a length make a rule warn once, and those that do
not go back find no buyer. -/
theorem windows_hold (c : Config) :
    (c.validate = .ok () → WindowsHold c) ∧ UncheckedWindows c :=
  ⟨fun h => windowsHold_of_accepted (Config.validate_eq_ok_iff.1 h), uncheckedWindows c⟩

/-! ### The first days of the calendar -/

/-- An event so many hours after the first instant. -/
def eventAtHour (id : String) (hour : Fin 1000) : CorporateEvent :=
  ⟨id, "ACME", "merger", ⟨calendarStart + hour * 3600000000000, by
    unfold calendarStart calendarEnd
    omega⟩, none⟩

def firstTrade : Trade :=
  ⟨"T0", ⟨calendarStart, by decide⟩, "ACME", "A1", "S1", 10.0, 2.0, 20.0⟩

/-- Forty-eight hours before the first event there was no calendar yet, and the second event comes
as early as it can. -/
theorem windows_hold_firstDays :
    let c : Config := { leakageMinAccounts := 1 }
    let engine : AlertEngine := .ofConfig c firstTrade.time
    let early := eventAtHour "E1" 47
    let late := eventAtHour "E2" 48
    c.validate = .ok () ∧ RuleId.informationLeakage.LeavesOut c early ∧
      ¬ RuleId.informationLeakage.LeavesOut c late ∧
      (informationLeakage [firstTrade] [early, late] c engine).candidates =
        (LeakageCandidate.ofRows? late 1 [firstTrade]).toList := by
  intro c engine early late
  have hvalid : c.validate = .ok () := by decide +kernel
  have hearly : RuleId.informationLeakage.LeavesOut c early := by decide +kernel
  have hlate : ¬ RuleId.informationLeakage.LeavesOut c late := by decide +kernel
  refine ⟨hvalid, hearly, hlate, ?_⟩
  rw [((windows_hold c).1 hvalid).informationLeakage, List.filterMap_cons, if_pos hearly,
    List.filterMap_cons, if_neg hlate]
  decide +kernel

end Rule

end TradeWatch

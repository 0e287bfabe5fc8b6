/-
How events are made up. Each round of the loop over the weeks of an instrument makes the event of
one day and steps to the day a week later; so the events fall on the days after each whole week from
the first trading day on, up to the last one, and are numbered from one. The only thing that can
fail is a step, and it is the one past the last event that leaves the calendar first.
-/
import Mathlib.Order.Bounds.Basic
import TradeWatch.Proofs.Window
import TradeWatch.Synthesis

namespace TradeWatch.Synthesis

open Time (Instant nanosPerDay)
open TradeWatch.Random (Generator)

/-! ## Computations with draws -/

section Making

variable {α β : Type}

theorem bind_of_some {x : Making α} {f : α → Making β} {g g1 : Generator} {a : α}
    (h : x g = some (a, g1)) : (x >>= f) g = f a g1 := by
  change (x g).bind (fun p => f p.1 p.2) = f a g1
  rw [h, Option.bind_some]

theorem bind_of_none {x : Making α} {f : α → Making β} {g : Generator} (h : x g = none) :
    (x >>= f) g = none := by
  change (x g).bind (fun p => f p.1 p.2) = none
  rw [h, Option.bind_none]

theorem bind_eq_some_iff {x : Making α} {f : α → Making β} {g g' : Generator} {b : β} :
    (x >>= f) g = some (b, g') ↔ ∃ a g1, x g = some (a, g1) ∧ f a g1 = some (b, g') := by
  change (x g).bind (fun p => f p.1 p.2) = some (b, g') ↔ _
  rw [Option.bind_eq_some_iff, Prod.exists]

theorem bind_pure_eq_none_iff {x : Making α} {f : α → β} {g : Generator} :
    (x >>= fun a => pure (f a)) g = none ↔ x g = none := by
  cases hx : x g with
  | none => simp only [bind_of_none hx]
  | some made =>
    rw [bind_of_some hx]
    exact iff_of_false nofun nofun

/-- What needs no draw takes none. -/
theorem liftM_eq_some_iff {x : Option α} {g g' : Generator} {a : α} :
    (liftM x : Making α) g = some (a, g') ↔ x = some a ∧ g' = g := by
  change (x.bind fun a => some (a, g)) = some (a, g') ↔ _
  cases x with
  | none => simp
  | some b => simp [eq_comm]

/-- A list of computations fails when one of them does, if that does not depend on the draws. -/
theorem mapM_eq_none_iff {f : α → Making β} {P : α → Prop} {xs : List α}
    (h : ∀ x ∈ xs, ∀ g, f x g = none ↔ P x) (g : Generator) :
    xs.mapM f g = none ↔ ∃ x ∈ xs, P x := by
  induction xs generalizing g with
  | nil => exact iff_of_false nofun (by simp)
  | cons x xs ih =>
    rw [List.mapM_cons, List.exists_mem_cons_iff, ← h x List.mem_cons_self g]
    cases hx : f x g with
    | none => exact iff_of_true (bind_of_none hx) (.inl rfl)
    | some made =>
      rw [bind_of_some hx, bind_pure_eq_none_iff,
        ih fun y hy => h y (List.mem_cons_of_mem _ hy)]
      simp

theorem exists_of_mem_right {R : α → β → Prop} {xs : List α} {ys : List β}
    (h : List.Forall₂ R xs ys) {y : β} (hy : y ∈ ys) : ∃ x ∈ xs, R x y := by
  induction h with
  | nil => cases hy
  | @cons x y' xs ys hxy _ ih =>
    rcases List.mem_cons.1 hy with rfl | hy
    · exact ⟨x, List.mem_cons_self, hxy⟩
    · obtain ⟨x', hx', hR⟩ := ih hy
      exact ⟨x', List.mem_cons_of_mem _ hx', hR⟩

/-- What holds of each result of the members holds of the results of their list. -/
theorem forall₂_of_mapM {f : α → Making β} {R : α → β → Prop} {xs : List α} {g g' : Generator}
    {ys : List β} (hR : ∀ x ∈ xs, ∀ g y g', f x g = some (y, g') → R x y)
    (h : xs.mapM f g = some (ys, g')) : List.Forall₂ R xs ys := by
  induction xs generalizing g ys with
  | nil =>
    cases h
    exact .nil
  | cons x xs ih =>
    rw [List.mapM_cons] at h
    obtain ⟨y, g1, hy, hrest⟩ := bind_eq_some_iff.1 h
    obtain ⟨rest, g2, hys, hlist⟩ := bind_eq_some_iff.1 hrest
    cases hlist
    refine .cons (hR x List.mem_cons_self g y g1 hy) (ih (fun z hz => ?_) hys)
    exact hR z (List.mem_cons_of_mem _ hz)

end Making

/-! ## The event of a day -/

/-- The event is the one with this number for the instrument, announced at midnight of the day and
taking effect a day later. -/
structure Announces (instrument : String) (number : ℕ) (day : ℤ) (e : CorporateEvent) : Prop where
  id : e.id = "SYN-" ++ instrument ++ "-" ++ Text.zeroPadded 4 number
  instrument : e.instrument = instrument
  announced : e.announced.nanos = day * nanosPerDay
  effective : ∃ t, e.effective = some t ∧ t.nanos = (day + 1) * nanosPerDay

/-- The first day of the calendar. -/
def firstDay : ℤ := Time.calendarStart / nanosPerDay

theorem firstDay_eq : firstDay = -96465292 := by
  decide

theorem lastDay_eq : lastDay = 95026236 := by
  decide

section Announcement

variable {instrument : String} {number : UInt32} {day : ℤ} {g g' : Generator} {e : CorporateEvent}

theorem announcement_eq_some_iff :
    announcement instrument number day g = some (e, g') ↔
      ∃ kind announced effective, drawKind g = some (kind, g') ∧
        Instant.ofDay? day = some announced ∧ announced.shift? nanosPerDay = some effective ∧
        e = ⟨eventId instrument number, instrument, kind, announced, some effective⟩ := by
  unfold announcement
  constructor
  · intro h
    obtain ⟨kind, g1, hkind, hdated⟩ := bind_eq_some_iff.1 h
    obtain ⟨announced, g2, hannounced, hlater⟩ := bind_eq_some_iff.1 hdated
    obtain ⟨effective, g3, heffective, hevent⟩ := bind_eq_some_iff.1 hlater
    obtain ⟨hday, rfl⟩ := liftM_eq_some_iff.1 hannounced
    obtain ⟨hnext, rfl⟩ := liftM_eq_some_iff.1 heffective
    cases hevent
    exact ⟨kind, announced, effective, hkind, hday, hnext, rfl⟩
  · rintro ⟨kind, announced, effective, hkind, hannounced, heffective, rfl⟩
    refine bind_eq_some_iff.2 ⟨kind, g', hkind, ?_⟩
    refine bind_eq_some_iff.2 ⟨announced, g', liftM_eq_some_iff.2 ⟨hannounced, rfl⟩, ?_⟩
    exact bind_eq_some_iff.2 ⟨effective, g', liftM_eq_some_iff.2 ⟨heffective, rfl⟩, rfl⟩

theorem nanos_of_ofDay? {t : Instant} (h : Instant.ofDay? day = some t) :
    t.nanos = day * nanosPerDay := by
  unfold Instant.ofDay? Instant.ofNanos? at h
  split at h
  · cases h
    rfl
  · cases h

theorem announces_of_announcement (h : announcement instrument number day g = some (e, g')) :
    Announces instrument number.toNat day e := by
  obtain ⟨kind, announced, effective, -, hannounced, heffective, rfl⟩ :=
    announcement_eq_some_iff.1 h
  have hday := nanos_of_ofDay? hannounced
  refine ⟨rfl, rfl, hday, effective, rfl, ?_⟩
  rw [Instant.nanos_of_shift? heffective, hday, Int.add_mul, Int.one_mul]

theorem kind_of_announcement (h : announcement instrument number day g = some (e, g')) :
    drawKind g = some (e.kind, g') := by
  obtain ⟨kind, announced, effective, hkind, -, -, rfl⟩ := announcement_eq_some_iff.1 h
  exact hkind

theorem exists_ofNanos? {n : ℤ} (h : Time.calendarStart ≤ n ∧ n < Time.calendarEnd) :
    ∃ t, Instant.ofNanos? n = some t :=
  ⟨_, dif_pos h⟩

/-- A day of the calendar that is not the last one has its event. -/
theorem exists_announcement (hstart : firstDay ≤ day) (hstop : day < lastDay)
    (instrument : String) (number : UInt32) (g : Generator) :
    ∃ e g', announcement instrument number day g = some (e, g') := by
  rw [firstDay_eq] at hstart
  rw [lastDay_eq] at hstop
  obtain ⟨announced, hannounced⟩ := exists_ofNanos? (n := day * nanosPerDay) (by
    unfold Time.calendarStart Time.calendarEnd nanosPerDay
    omega)
  obtain ⟨effective, heffective⟩ := exists_ofNanos? (n := announced.nanos + nanosPerDay) (by
    rw [nanos_of_ofDay? hannounced]
    unfold Time.calendarStart Time.calendarEnd nanosPerDay
    omega)
  exact ⟨_, _, announcement_eq_some_iff.2
    ⟨_, announced, effective, rfl, hannounced, heffective, rfl⟩⟩

end Announcement

/-! ## The weeks of an instrument -/

theorem nextWeek?_eq_some_iff {day next : ℤ} :
    nextWeek? day = some next ↔ next = day + 7 ∧ day + 7 ≤ lastDay := by
  unfold nextWeek? spacingDays
  split
  · simp only [reduceCtorEq, false_iff]
    omega
  · simp only [Option.some.injEq]
    omega

theorem nextWeek?_eq_none_iff {day : ℤ} : nextWeek? day = none ↔ lastDay < day + 7 := by
  unfold nextWeek? spacingDays
  split <;> simp_all

section Weeks

variable (instrument : String) (last : ℤ)

/-- The rounds of the loop that end well, each with the number of events before it, its day, and the
generators before and after. -/
inductive Weeks : UInt32 → ℤ → Generator → List CorporateEvent → Generator → Prop
  | done {number : UInt32} {day : ℤ} (g : Generator) (past : last < day) : Weeks number day g [] g
  | week {number : UInt32} {day next : ℤ} {g g1 g2 : Generator} {e : CorporateEvent}
      {events : List CorporateEvent} (within : day ≤ last)
      (made : announcement instrument (number + 1) day g = some (e, g1))
      (step : nextWeek? day = some next) (rest : Weeks (number + 1) next g1 events g2) :
      Weeks number day g (e :: events) g2

variable {instrument last} {number : UInt32} {day : ℤ}

theorem weekly_of_lt (h : last < day) (number : UInt32) :
    weekly instrument last number day = pure [] := by
  rw [weekly, if_neg (by omega)]

theorem weekly_of_le (h : day ≤ last) (number : UInt32) :
    weekly instrument last number day = (do
      let event ← announcement instrument (number + 1) day
      let next ← nextWeek? day
      let events ← weekly instrument last (number + 1) next
      return event :: events) := by
  rw [weekly, if_pos h]
  congr 1
  funext event
  split
  · rename_i hnext
    rw [hnext]
    rfl
  · rename_i next hnext
    rw [hnext]
    rfl

theorem weeks_of_weekly {g g' : Generator} {events : List CorporateEvent}
    (h : weekly instrument last number day g = some (events, g')) :
    Weeks instrument last number day g events g' := by
  -- each round takes a week off what is left of the span
  induction hleft : (last + 7 - day).toNat using Nat.strong_induction_on
    generalizing number day g events with
  | _ left ih =>
    by_cases hday : day ≤ last
    · rw [weekly_of_le hday] at h
      obtain ⟨e, g1, made, hstep⟩ := bind_eq_some_iff.1 h
      obtain ⟨next, g2, hnext, hrest⟩ := bind_eq_some_iff.1 hstep
      obtain ⟨rest, g3, hweekly, hevents⟩ := bind_eq_some_iff.1 hrest
      obtain ⟨step, rfl⟩ := liftM_eq_some_iff.1 hnext
      cases hevents
      have hlater := (nextWeek?_eq_some_iff.1 step).1
      exact .week hday made step (ih _ (by omega) hweekly rfl)
    · rw [weekly_of_lt (by omega)] at h
      cases h
      exact .done _ (by omega)

/-- A round that starts in the calendar fails just when some step up to the one past the last event
leaves it. -/
theorem weekly_eq_none_iff (hstart : firstDay ≤ day) (number : UInt32) (g : Generator) :
    weekly instrument last number day g = none ↔
      day ≤ last ∧ lastDay < day + 7 * ((last - day) / 7 + 1) := by
  induction hleft : (last + 7 - day).toNat using Nat.strong_induction_on
    generalizing number day g with
  | _ left ih =>
    by_cases hday : day ≤ last
    · rw [weekly_of_le hday]
      cases hnext : nextWeek? day with
      | none =>
        have hpast := nextWeek?_eq_none_iff.1 hnext
        refine iff_of_true ?_ ⟨hday, by omega⟩
        cases hmade : announcement instrument (number + 1) day g with
        | none => exact bind_of_none hmade
        | some made => exact bind_of_some hmade
      | some next =>
        obtain ⟨rfl, hwithin⟩ := nextWeek?_eq_some_iff.1 hnext
        obtain ⟨e, g1, hmade⟩ := exists_announcement hstart (by omega) instrument (number + 1) g
        rw [bind_of_some hmade, bind_of_some (liftM_eq_some_iff.2 ⟨rfl, rfl⟩),
          bind_pure_eq_none_iff, ih _ (by omega) (by omega) (number + 1) g1 rfl]
        omega
    · rw [weekly_of_lt (by omega)]
      exact iff_of_false nofun fun h => hday h.1

/-! ### What the rounds make -/

theorem Weeks.count {g g' : Generator} {events : List CorporateEvent}
    (h : Weeks instrument last number day g events g') (hreached : day ≤ last + 7) :
    (events.length : ℤ) = (last + 7 - day) / 7 := by
  induction h with
  | done g past =>
    rw [List.length_nil]
    omega
  | week within made step rest ih =>
    obtain ⟨rfl, -⟩ := nextWeek?_eq_some_iff.1 step
    have hrest := ih (by omega)
    rw [List.length_cons]
    omega

/-- The rounds behind the first `before` weeks. The numbers do not come round again, for there are
fewer weeks in the span than numbers of 32 bits. -/
theorem Weeks.announces {g g' : Generator} {events : List CorporateEvent}
    (h : Weeks instrument last number day g events g') {first : ℤ} {before : ℕ}
    (hday : day = first + 7 * (before + 1)) (hnumber : number.toNat = before)
    (hspan : last - first < 7 * 4294967296) :
    ∀ i (hi : i < events.length),
      Announces instrument (before + i + 1) (first + 7 * (before + i + 1)) events[i] := by
  induction h generalizing before with
  | done g past => exact fun i hi => nomatch hi
  | @week number day next g g1 g2 e events within made step rest ih =>
    have hnext : (number + 1).toNat = before + 1 := by
      have hone : (1 : UInt32).toNat = 1 := rfl
      rw [UInt32.toNat_add, hnumber, hone]
      exact Nat.mod_eq_of_lt (by omega)
    intro i hi
    cases i with
    | zero =>
      have hmade := announces_of_announcement made
      rwa [hnext, hday] at hmade
    | succ i =>
      obtain ⟨rfl, -⟩ := nextWeek?_eq_some_iff.1 step
      have hlater : day + 7 = first + 7 * (((before + 1 : ℕ) : ℤ) + 1) := by
        push_cast
        omega
      have hrest := ih hlater hnext i (Nat.lt_of_succ_lt_succ hi)
      have hplace : before + 1 + i = before + (i + 1) := by omega
      have hdays : ((before + 1 : ℕ) : ℤ) + i + 1 = before + ((i + 1 : ℕ) : ℤ) + 1 := by
        push_cast
        omega
      rwa [hplace, hdays] at hrest

end Weeks

/-! ## The schedule of an instrument -/

/-- The events of an instrument from the first to the last of its trading days: one for each whole
week between them, on the days after one week, two weeks and so on. -/
structure Scheduled (instrument : String) (first last : ℤ) (events : List CorporateEvent) :
    Prop where
  count : (events.length : ℤ) = (last - first) / 7
  each : ∀ i (h : i < events.length),
    Announces instrument (i + 1) (first + 7 * (i + 1)) events[i]

/-- The events of an instrument by its span. -/
def ofSpan : String × ℤ × ℤ → Making (List CorporateEvent)
  | (instrument, first, last) => do
    let start ← nextWeek? first
    weekly instrument last 0 start

section Instrument

variable {instrument : String} {first last : ℤ} {g g' : Generator} {events : List CorporateEvent}

theorem ofSpan_eq_none_iff (hstart : firstDay ≤ first) (hle : first ≤ last) (g : Generator) :
    ofSpan (instrument, first, last) g = none ↔
      lastDay < first + 7 * ((last - first) / 7 + 1) := by
  rw [ofSpan]
  cases hnext : nextWeek? first with
  | none =>
    have hpast := nextWeek?_eq_none_iff.1 hnext
    exact iff_of_true rfl (by omega)
  | some next =>
    obtain ⟨rfl, hwithin⟩ := nextWeek?_eq_some_iff.1 hnext
    rw [bind_of_some (liftM_eq_some_iff.2 ⟨rfl, rfl⟩), weekly_eq_none_iff (by omega)]
    omega

theorem scheduled_of_ofSpan (hle : first ≤ last) (hspan : last - first < 7 * 4294967296)
    (h : ofSpan (instrument, first, last) g = some (events, g')) :
    Scheduled instrument first last events := by
  rw [ofSpan] at h
  obtain ⟨next, g1, hnext, hweekly⟩ := bind_eq_some_iff.1 h
  obtain ⟨rfl, -⟩ := nextWeek?_eq_some_iff.1 (liftM_eq_some_iff.1 hnext).1
  have hweeks := weeks_of_weekly hweekly
  refine ⟨?_, fun i hi => ?_⟩
  · rw [hweeks.count (by omega)]
    omega
  · have hstart : first + 7 = first + 7 * (((0 : ℕ) : ℤ) + 1) := rfl
    have hmade := hweeks.announces hstart rfl hspan i hi
    simpa using hmade

/-- Every event of a schedule is announced on a day within the span, but not on its first day. -/
theorem Scheduled.exists_announces (h : Scheduled instrument first last events)
    {e : CorporateEvent} (he : e ∈ events) :
    ∃ number day, Announces instrument number day e ∧ first < day ∧ day ≤ last := by
  obtain ⟨i, hi, rfl⟩ := List.getElem_of_mem he
  have hcount := h.count
  exact ⟨i + 1, first + 7 * (i + 1), h.each i hi, by omega, by omega⟩

end Instrument

/-! ## Trading days -/

/-- The days on which an instrument trades. -/
def tradingDays (trades : List Trade) (instrument : String) : Set ℤ :=
  {day | ∃ t ∈ trades, t.instrument = instrument ∧ t.time.day = day}

/-- The earliest and the latest day on which an instrument trades. -/
structure Span (trades : List Trade) (instrument : String) (first last : ℤ) : Prop where
  first : IsLeast (tradingDays trades instrument) first
  last : IsGreatest (tradingDays trades instrument) last

theorem min?_firstTradingDay {rows : List Trade} (h : rows ≠ []) :
    (rows.map (·.time.day)).min? = some (firstTradingDay rows) := by
  cases rows with
  | nil => exact absurd rfl h
  | cons t rows => rw [List.map_cons, List.min?_cons']; rfl

theorem max?_lastTradingDay {rows : List Trade} (h : rows ≠ []) :
    (rows.map (·.time.day)).max? = some (lastTradingDay rows) := by
  cases rows with
  | nil => exact absurd rfl h
  | cons t rows => rw [List.map_cons, List.max?_cons']; rfl

section Trades

variable {trades : List Trade} {instrument : String} {first last : ℤ}

/-- The first and the last day on which an instrument trades, if it does. -/
def spanOf (trades : List Trade) (instrument : String) : ℤ × ℤ :=
  let rows := trades.filter fun t => t.instrument == instrument
  (firstTradingDay rows, lastTradingDay rows)

theorem span_of_mem (h : instrument ∈ trades.map (·.instrument)) :
    Span trades instrument (spanOf trades instrument).1 (spanOf trades instrument).2 := by
  set rows := trades.filter fun t => t.instrument == instrument with hrows
  have hmem : ∀ day, day ∈ rows.map (·.time.day) ↔ day ∈ tradingDays trades instrument := by
    intro day
    simp [rows, tradingDays, and_assoc]
  have hnonempty : rows ≠ [] := by
    obtain ⟨t, ht, hi⟩ := List.mem_map.1 h
    exact List.ne_nil_of_mem (List.mem_filter.2 ⟨ht, beq_iff_eq.2 hi⟩)
  obtain ⟨hfirst, hleast⟩ := List.min?_eq_some_iff.1 (min?_firstTradingDay hnonempty)
  obtain ⟨hlast, hgreatest⟩ := List.max?_eq_some_iff.1 (max?_lastTradingDay hnonempty)
  exact ⟨⟨(hmem _).1 hfirst, fun day hday => hleast day ((hmem day).2 hday)⟩,
    ⟨(hmem _).1 hlast, fun day hday => hgreatest day ((hmem day).2 hday)⟩⟩

theorem Span.mem (h : Span trades instrument first last) :
    instrument ∈ trades.map (·.instrument) := by
  obtain ⟨t, ht, hi, -⟩ := h.first.1
  exact List.mem_map.2 ⟨t, ht, hi⟩

theorem Span.unique {first' last' : ℤ} (h : Span trades instrument first last)
    (h' : Span trades instrument first' last') : first = first' ∧ last = last' :=
  ⟨h.first.unique h'.first, h.last.unique h'.last⟩

theorem span_iff : Span trades instrument first last ↔
    instrument ∈ trades.map (·.instrument) ∧ spanOf trades instrument = (first, last) := by
  constructor
  · intro h
    obtain ⟨hfirst, hlast⟩ := (span_of_mem h.mem).unique h
    exact ⟨h.mem, Prod.ext hfirst hlast⟩
  · rintro ⟨hmem, hspan⟩
    have h := span_of_mem hmem
    rwa [hspan] at h

theorem Span.le (h : Span trades instrument first last) : first ≤ last :=
  h.first.2 h.last.1

/-- The instruments in order, each with its first and its last trading day. -/
def spans (trades : List Trade) : List (String × ℤ × ℤ) :=
  (ascending textLe (trades.map (·.instrument))).map fun instrument =>
    (instrument, spanOf trades instrument)

theorem mem_spans : (instrument, first, last) ∈ spans trades ↔ Span trades instrument first last := by
  unfold spans
  rw [List.mem_map, span_iff]
  constructor
  · rintro ⟨_, hmem, h⟩
    obtain ⟨rfl, hspan⟩ := Prod.mk.inj h
    exact ⟨mem_ascending.1 hmem, hspan⟩
  · rintro ⟨hmem, hspan⟩
    exact ⟨instrument, mem_ascending.2 hmem, by rw [hspan]⟩

theorem map_fst_spans (trades : List Trade) :
    (spans trades).map (·.1) = ascending textLe (trades.map (·.instrument)) := by
  unfold spans
  rw [List.map_map]
  exact List.map_id _

/-- Trading days are days of the calendar. -/
theorem Span.inCalendar (h : Span trades instrument first last) :
    firstDay ≤ first ∧ last ≤ lastDay := by
  obtain ⟨t, -, -, rfl⟩ := h.first.1
  obtain ⟨u, -, -, rfl⟩ := h.last.1
  have ht := t.time.inCalendar
  have hu := u.time.inCalendar
  rw [firstDay_eq, lastDay_eq]
  unfold Time.calendarStart at ht
  unfold Time.calendarEnd at hu
  unfold Instant.day nanosPerDay
  omega

end Trades

/-! ## All instruments -/

section Events

variable {trades : List Trade} {g g' : Generator} {events : List CorporateEvent}

/-- Of the trades nothing but the spans matters. -/
theorem events?_eq (trades : List Trade) :
    events? trades = (do return (← (spans trades).mapM ofSpan).flatten) := by
  unfold events? spans grouped
  rw [List.mapM_map, List.mapM_map]
  rfl

/-- Making the events fails just when the step past the last event of some instrument leaves the
calendar. -/
theorem events?_eq_none_iff (trades : List Trade) (g : Generator) :
    events? trades g = none ↔ ∃ instrument first last, Span trades instrument first last ∧
      lastDay < first + 7 * ((last - first) / 7 + 1) := by
  have heach : ∀ s ∈ spans trades, ∀ g,
      ofSpan s g = none ↔ lastDay < s.2.1 + 7 * ((s.2.2 - s.2.1) / 7 + 1) := by
    rintro ⟨instrument, first, last⟩ hs g
    have hspan := mem_spans.1 hs
    exact ofSpan_eq_none_iff hspan.inCalendar.1 hspan.le g
  rw [events?_eq, bind_pure_eq_none_iff, mapM_eq_none_iff heach]
  simp only [Prod.exists, mem_spans]

/-- A week that is left behind every trade is enough. -/
theorem exists_events? (h : ∀ t ∈ trades, t.time.day + 7 ≤ lastDay) (g : Generator) :
    ∃ events g', events? trades g = some (events, g') := by
  rw [← Prod.exists', ← Option.ne_none_iff_exists', ne_eq, events?_eq_none_iff]
  rintro ⟨instrument, first, last, hspan, hpast⟩
  obtain ⟨t, ht, -, rfl⟩ := hspan.last.1
  have hweek := h t ht
  omega

/-- The events are those of the instruments in their order, each scheduled over its span. -/
theorem exists_scheduled (h : events? trades g = some (events, g')) :
    ∃ made : List (List CorporateEvent), events = made.flatten ∧
      List.Forall₂ (fun instrument events => ∃ first last,
        Span trades instrument first last ∧ Scheduled instrument first last events)
        (ascending textLe (trades.map (·.instrument))) made := by
  rw [events?_eq] at h
  obtain ⟨made, g1, hmade, hevents⟩ := bind_eq_some_iff.1 h
  cases hevents
  refine ⟨made, rfl, ?_⟩
  rw [← map_fst_spans, List.forall₂_map_left_iff]
  refine forall₂_of_mapM ?_ hmade
  rintro ⟨instrument, first, last⟩ hs g0 events' g1 hmade
  have hspan := mem_spans.1 hs
  have hcalendar := hspan.inCalendar
  rw [firstDay_eq, lastDay_eq] at hcalendar
  exact ⟨first, last, hspan, scheduled_of_ofSpan hspan.le (by omega) hmade⟩

/-- Every event is scheduled for some instrument that trades. -/
theorem exists_scheduled_of_mem (h : events? trades g = some (events, g')) {e : CorporateEvent}
    (he : e ∈ events) : ∃ instrument first last scheduled, Span trades instrument first last ∧
      Scheduled instrument first last scheduled ∧ e ∈ scheduled := by
  obtain ⟨made, rfl, hmade⟩ := exists_scheduled h
  obtain ⟨scheduled, hscheduled, he⟩ := List.mem_flatten.1 he
  obtain ⟨instrument, -, first, last, hspan, hs⟩ := exists_of_mem_right hmade hscheduled
  exact ⟨instrument, first, last, scheduled, hspan, hs, he⟩

end Events

/-! ## A sample history -/

/-- A trade so many hours after the beginning of 2024. -/
def tradeAt (instrument : String) (hour : UInt16) : Trade :=
  ⟨"", ⟨1704067200000000000 + hour.toNat * 3600000000000, by
    have hhour := hour.toNat_lt
    unfold Time.calendarStart Time.calendarEnd
    omega⟩, instrument, "A1", "S1", 10.0, 2.0, 20.0⟩

/-- Three instruments: one trades for twenty days, one for seven, and one for less. The name of the
second one goes on like the ids of the first. -/
def sampleHistory : List Trade := [
  tradeAt "ACME" 490, tradeAt "ACME-0001" 30, tradeAt "ACME" 10, tradeAt "" 80,
  tradeAt "ACME-0001" 200, tradeAt "ACME" 100]

theorem exists_events?_sampleHistory (g : Generator) :
    ∃ events g', events? sampleHistory g = some (events, g') :=
  exists_events? (by decide) g

end TradeWatch.Synthesis

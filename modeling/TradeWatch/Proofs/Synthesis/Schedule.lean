/-
The schedule of made-up events. Making them fails only where the day behind the last week of an
instrument lies behind the last day of the calendar, though nothing would be announced on it; else
every instrument has an event at the midnight after each whole week between its first and its last
trading day.
-/
import TradeWatch.Proofs.Synthesis.Kinds
import TradeWatch.Time.Civil

namespace TradeWatch.Synthesis

open Time (Date Instant nanosPerDay)
open TradeWatch.Random (Generator)

theorem lastDay_eq_toDay : lastDay = Date.toDay ⟨262142, 12, 31⟩ := by
  decide

theorem Announces.day_eq {instrument : String} {number : ℕ} {day : ℤ} {e : CorporateEvent}
    (h : Announces instrument number day e) : e.announced.day = day := by
  unfold Instant.day
  rw [h.announced]
  exact Int.mul_ediv_cancel _ (by decide)

/-- The events of an instrument from the first to the last of its trading days. All are announced
behind the first day and none behind the last, and numbers of 32 bits are enough for them. -/
structure Weekly (instrument : String) (first last : ℤ) (events : List CorporateEvent) : Prop
    extends Scheduled instrument first last events where
  within : ∀ e ∈ events, first < e.announced.day ∧ e.announced.day ≤ last
  numbered : events.length < 2 ^ 32

theorem weekly_of_scheduled {trades : List Trade} {instrument : String} {first last : ℤ}
    {events : List CorporateEvent} (hspan : Span trades instrument first last)
    (h : Scheduled instrument first last events) : Weekly instrument first last events := by
  refine ⟨h, fun e he => ?_, ?_⟩
  · obtain ⟨number, day, hannounces, hday⟩ := h.exists_announces he
    rwa [hannounces.day_eq]
  · have hcalendar := hspan.inCalendar
    have hcount := h.count
    rw [firstDay_eq, lastDay_eq] at hcalendar
    omega

/-- The events made up for a history: those of its instruments in the order of their bytes, each
with one event a week and each event of a known kind. -/
structure MadeFor (trades : List Trade) (events : List CorporateEvent) : Prop where
  instruments : ∃ (instruments : List String) (made : List (List CorporateEvent)),
    SortedDistinct instruments (trades.map (·.instrument)) ∧ events = made.flatten ∧
      List.Forall₂ (fun instrument events => ∃ first last,
        Span trades instrument first last ∧ Weekly instrument first last events) instruments made
  known : ∀ e ∈ events, e.kind ∈ eventKinds

/-- Where every draw comes to its end, making the events fails just when the day one week behind the
last event of some instrument comes after the last day of the calendar. Else every instrument has
its events, and the generator has gone on by so many numbers. -/
theorem events_scheduled (trades : List Trade) {g : Generator} (h : g.Lasts eventKinds.length) :
    (events? trades g = none ↔ ∃ instrument first last, Span trades instrument first last ∧
        Date.toDay ⟨262142, 12, 31⟩ < first + 7 * ((last - first) / 7 + 1)) ∧
      ∀ events g', events? trades g = some (events, g') →
        MadeFor trades events ∧ ∃ n, g' = g.skip n := by
  refine ⟨?_, fun events g' hevents => ?_⟩
  · rw [← lastDay_eq_toDay]
    exact events?_eq_none_iff trades g
  obtain ⟨n, hn, hkinds⟩ := follows_of_events? trades h hevents
  refine ⟨⟨?_, fun e he => ?_⟩, n, hn⟩
  · obtain ⟨made, hflat, hmade⟩ := exists_scheduled hevents
    refine ⟨_, made, sortedDistinct_ascending _, hflat, hmade.imp ?_⟩
    rintro instrument events ⟨first, last, hspan, hscheduled⟩
    exact ⟨first, last, hspan, weekly_of_scheduled hspan hscheduled⟩
  · have hkind : e.kind ∈ kindsOf g n := hkinds ▸ List.mem_map_of_mem he
    exact mem_eventKinds_of_mem_kindsOf hkind

/-! ### The last days of the calendar -/

/-- A trade so many days ahead of the last day of the calendar. -/
def tradeAhead (instrument : String) (days : Fin 100) : Trade :=
  ⟨"", ⟨Time.calendarEnd - (days + 1) * nanosPerDay, by
    unfold Time.calendarStart Time.calendarEnd nanosPerDay
    omega⟩, instrument, "A1", "S1", 10.0, 2.0, 20.0⟩

/-- Both instruments trade for eight days. The second one has its only event in the calendar, but
there is no day one week behind it. -/
theorem events_scheduled_lastDays :
    let early := [tradeAhead "ACME" 14, tradeAhead "ACME" 7]
    let late := early ++ [tradeAhead "ZINC" 6, tradeAhead "ZINC" 13]
    (Generator.ofSeed 7).Lasts eventKinds.length ∧
      (∃ events g', events? early (.ofSeed 7) = some (events, g') ∧ MadeFor early events) ∧
        events? late (.ofSeed 7) = none := by
  intro early late
  have hlasts : (Generator.ofSeed 7).Lasts eventKinds.length :=
    Generator.lasts_ofSeed ⟨0, by decide +kernel⟩
  refine ⟨hlasts, ?_, ?_⟩
  · have hdays : ∀ t ∈ early, t.time.day + 7 ≤ lastDay := by decide
    obtain ⟨events, g', hevents⟩ := exists_events? hdays (.ofSeed 7)
    exact ⟨events, g', hevents, ((events_scheduled early hlasts).2 events g' hevents).1⟩
  · have hdays : ∀ t ∈ late, t.instrument = "ZINC" →
        lastDay - 13 ≤ t.time.day ∧ t.time.day ≤ lastDay - 6 := by decide
    have hspan : Span late "ZINC" (lastDay - 13) (lastDay - 6) := by
      refine ⟨⟨⟨tradeAhead "ZINC" 13, by simp [late], rfl, by decide⟩, ?_⟩,
        ⟨⟨tradeAhead "ZINC" 6, by simp [late], rfl, by decide⟩, ?_⟩⟩
      · rintro day ⟨t, ht, hi, rfl⟩
        exact (hdays t ht hi).1
      · rintro day ⟨t, ht, hi, rfl⟩
        exact (hdays t ht hi).2
    exact (events_scheduled late hlasts).1.2 ⟨"ZINC", _, _, hspan, by decide⟩

end TradeWatch.Synthesis

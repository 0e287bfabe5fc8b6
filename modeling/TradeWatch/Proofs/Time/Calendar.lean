/-
The calendar has a first and a last instant. A count of nanoseconds is an instant just when it lies
between them, and arithmetic fails just when it leaves them.
-/
import TradeWatch.Time.Instant

namespace TradeWatch.Time

def InCalendar (nanos : Int) : Prop :=
  calendarStart ≤ nanos ∧ nanos < calendarEnd

instance (nanos : Int) : Decidable (InCalendar nanos) :=
  inferInstanceAs (Decidable (_ ∧ _))

namespace Instant

theorem ofNanos?_of_inCalendar {n : Int} (h : InCalendar n) : ofNanos? n = some ⟨n, h⟩ :=
  dif_pos h

theorem ofNanos?_of_not_inCalendar {n : Int} (h : ¬ InCalendar n) : ofNanos? n = none :=
  dif_neg h

/-- Arithmetic fails just when it leaves the calendar. -/
theorem shift?_eq_none_iff {t : Instant} {d : Int} :
    t.shift? d = none ↔ t.nanos + d < calendarStart ∨ calendarEnd ≤ t.nanos + d := by
  unfold shift? ofNanos?
  split
  · simp only [reduceCtorEq, false_iff]
    omega
  · simp only [true_iff]
    omega

theorem shift?_of_not_inCalendar {t : Instant} {d : Int} (h : ¬ InCalendar (t.nanos + d)) :
    t.shift? d = none := by
  rw [shift?_eq_none_iff]
  unfold InCalendar at h
  omega

theorem exists_shift? {t : Instant} {d : Int} (h : InCalendar (t.nanos + d)) :
    ∃ s, t.shift? d = some s :=
  ⟨_, ofNanos?_of_inCalendar h⟩

end Instant

end TradeWatch.Time

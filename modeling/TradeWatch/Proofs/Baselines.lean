/-
The usual volumes of a whole trade history. There is one baseline for each instrument that is
traded. It is made of the days on which the instrument is traded, each from midnight to midnight,
also before 1970: what was traded on them, summed day by day in the order of the history, has a mean
and, from two days on, a deviation, and nothing is divided by zero. Trades of other instruments do
not matter.
-/
import TradeWatch.Proofs.DailyVolume
import TradeWatch.Proofs.Decimal.Order

namespace TradeWatch

open Time (Instant nanosPerDay)

/-! ## Days -/

/-- The trade falls on the day, counted from 1970-01-01; earlier days have negative numbers. -/
def OnDay (day : Int) (t : Trade) : Prop :=
  day * nanosPerDay ≤ t.time.nanos ∧ t.time.nanos < (day + 1) * nanosPerDay

instance (day : Int) (t : Trade) : Decidable (OnDay day t) :=
  inferInstanceAs (Decidable (_ ∧ _))

theorem day_eq_iff_onDay {t : Trade} {day : Int} : t.time.day = day ↔ OnDay day t := by
  unfold Instant.day OnDay nanosPerDay
  omega

/-- What is traded of an instrument from one midnight to the next, in the order of the history. -/
def quantityOn (trades : List Trade) (instrument : String) (day : Int) : Float :=
  Stats.sumFrom 0.0 ((trades.filter fun t => t.instrument = instrument ∧ OnDay day t).map
    (·.quantity))

theorem dayVolume_eq_quantityOn : dayVolume = quantityOn := by
  funext trades instrument day
  simp only [dayVolume, quantityOn, day_eq_iff_onDay]

/-- `usual` is the baseline over the `days` on which the instrument is traded. -/
structure UsualOver (trades : List Trade) (instrument : String) (days : List Int)
    (usual : VolumeBaseline) : Prop where
  ascends : days.Pairwise (· < ·)
  mem_iff : ∀ day, day ∈ days ↔ ∃ t ∈ trades, t.instrument = instrument ∧ OnDay day t
  tradingDays : usual.tradingDays = days.length
  traded : 1 ≤ usual.tradingDays
  mean : usual.mean =
    Stats.total (days.map (quantityOn trades instrument)) / Decimal.ofNat usual.tradingDays
  single : usual.tradingDays = 1 → usual.deviation = 0.0
  several : 2 ≤ usual.tradingDays → usual.deviation =
    (Stats.total (days.map fun day => (quantityOn trades instrument day - usual.mean) *
      (quantityOn trades instrument day - usual.mean)) /
        Decimal.ofNat (usual.tradingDays - 1)).sqrt
  divisor : (Decimal.ofNat usual.tradingDays == 0.0) = false
  divisor_pred : 2 ≤ usual.tradingDays → (Decimal.ofNat (usual.tradingDays - 1) == 0.0) = false

/-- The deviation of what is worked out for each of at least two members. -/
theorem Stats.sampleDeviation_map {α : Type} {xs : List α} (h : 2 ≤ xs.length) (f : α → Float) :
    sampleDeviation (xs.map f) =
      (total (xs.map fun x => (f x - average (xs.map f)) * (f x - average (xs.map f))) /
        Decimal.ofNat (xs.length - 1)).sqrt := by
  unfold sampleDeviation
  rw [List.length_map, if_neg (by omega)]
  simp only [List.map_map]
  rfl

section Instrument

variable {trades : List Trade} {instrument : String} {usual : VolumeBaseline}

theorem DailyVolume.exists_usualOver (h : DailyVolume trades instrument usual)
    (htraded : instrument ∈ trades.map (·.instrument)) :
    ∃ days, UsualOver trades instrument days usual := by
  obtain ⟨days, hascends, hdays, heq⟩ := h
  simp only [day_eq_iff_onDay, dayVolume_eq_quantityOn] at hdays heq
  have hlength : 1 ≤ days.length := by
    obtain ⟨t, ht, hinstrument⟩ := List.mem_map.1 htraded
    exact List.length_pos_of_mem ((hdays t.time.day).2 ⟨t, ht, hinstrument, day_eq_iff_onDay.1 rfl⟩)
  subst heq
  refine ⟨days, {
    ascends := hascends
    mem_iff := hdays
    tradingDays := rfl
    traded := hlength
    mean := ?_
    single := fun hone => ?_
    several := fun htwo => Stats.sampleDeviation_map htwo _
    divisor := Decimal.ofNat_beq_zero (Nat.pos_iff_ne_zero.1 hlength)
    divisor_pred := fun htwo => Decimal.ofNat_beq_zero (Nat.sub_ne_zero_of_lt htwo) }⟩
  · simp only [Stats.average, List.length_map]
  · exact if_pos ((List.length_map _).trans_le (le_of_eq hone))

/-- The days and what is traded on them leave no choice. -/
theorem UsualOver.dailyVolume {days : List Int} (h : UsualOver trades instrument days usual) :
    DailyVolume trades instrument usual := by
  have hmean : usual.mean = Stats.average (days.map (quantityOn trades instrument)) := by
    rw [h.mean, h.tradingDays, Stats.average, List.length_map]
  have hdeviation : usual.deviation =
      Stats.sampleDeviation (days.map (quantityOn trades instrument)) := by
    rcases h.traded.eq_or_lt with hone | htwo
    · rw [h.single hone.symm, Stats.sampleDeviation, if_pos]
      rw [List.length_map, ← h.tradingDays, ← hone]
    · rw [h.several htwo, hmean, h.tradingDays, Stats.sampleDeviation_map]
      rwa [← h.tradingDays]
  refine ⟨days, h.ascends, fun day => ?_, ?_⟩
  · simp only [h.mem_iff, day_eq_iff_onDay]
  · obtain ⟨mean, deviation, tradingDays⟩ := usual
    rw [dayVolume_eq_quantityOn, ← hmean, ← hdeviation, ← h.tradingDays]

theorem UsualOver.mem_instruments {days : List Int} (h : UsualOver trades instrument days usual) :
    instrument ∈ trades.map (·.instrument) := by
  obtain ⟨day, hday⟩ : ∃ day, day ∈ days :=
    List.exists_mem_of_length_pos (h.tradingDays ▸ h.traded)
  obtain ⟨t, ht, hinstrument, -⟩ := (h.mem_iff day).1 hday
  exact List.mem_map.2 ⟨t, ht, hinstrument⟩

end Instrument

/-! ## All instruments -/

namespace VolumeBaseline

variable {trades trades' : List Trade} {instrument : String}

theorem instruments_ofHistory (trades : List Trade) :
    (ofHistory trades).map (·.1) = ascending textLe (trades.map (·.instrument)) := by
  unfold ofHistory grouped
  rw [List.map_map, List.map_map]
  exact List.map_id _

theorem mem_ofHistory_iff {usual : VolumeBaseline} :
    (instrument, usual) ∈ ofHistory trades ↔ instrument ∈ trades.map (·.instrument) ∧
      usual = ofTrades (trades.filter fun t => t.instrument == instrument) := by
  unfold ofHistory grouped
  rw [List.map_map, List.mem_map]
  simp only [mem_ascending, Function.comp_apply, Prod.mk.injEq]
  constructor
  · rintro ⟨i, hi, rfl, rfl⟩
    exact ⟨hi, rfl⟩
  · rintro ⟨hi, rfl⟩
    exact ⟨instrument, hi, rfl, rfl⟩

theorem mem_ofHistory_iff_usualOver {usual : VolumeBaseline} :
    (instrument, usual) ∈ ofHistory trades ↔ ∃ days, UsualOver trades instrument days usual := by
  have hdaily := dailyVolume_ofTrades trades instrument
  rw [mem_ofHistory_iff]
  constructor
  · rintro ⟨htraded, rfl⟩
    exact hdaily.exists_usualOver htraded
  · rintro ⟨days, h⟩
    exact ⟨h.mem_instruments, h.dailyVolume.unique hdaily⟩

/-- What an instrument trades itself decides on its baseline. -/
theorem lookup_ofHistory_congr
    (h : trades'.filter (fun t => t.instrument = instrument) =
      trades.filter fun t => t.instrument = instrument) :
    (ofHistory trades').lookup instrument = (ofHistory trades).lookup instrument := by
  have htraded : ∀ history : List Trade, instrument ∈ history.map (·.instrument) ↔
      ∃ t, t ∈ history.filter fun t => t.instrument = instrument := by
    intro history
    simp only [List.mem_map, List.mem_filter, decide_eq_true_iff]
  have hiff : instrument ∈ trades'.map (·.instrument) ↔ instrument ∈ trades.map (·.instrument) := by
    rw [htraded, htraded, h]
  unfold ofHistory
  rw [lookup_grouped, lookup_grouped]
  simp only [hiff, beq_eq_decide, h]

/-- A history has one baseline for each instrument that is traded, over just the days on which it is
traded, and trades of other instruments may come and go anywhere without a change to it. -/
theorem ofHistory_exact (trades : List Trade) :
    SortedDistinct ((ofHistory trades).map (·.1)) (trades.map (·.instrument)) ∧
      (∀ instrument usual, (instrument, usual) ∈ ofHistory trades ↔
        ∃ days, UsualOver trades instrument days usual) ∧
      ∀ (trades' : List Trade) (instrument : String),
        trades'.filter (fun t => t.instrument = instrument) =
            trades.filter (fun t => t.instrument = instrument) →
          (ofHistory trades').lookup instrument = (ofHistory trades).lookup instrument := by
  refine ⟨?_, fun _ _ => mem_ofHistory_iff_usualOver, fun _ _ => lookup_ofHistory_congr⟩
  rw [instruments_ofHistory]
  exact sortedDistinct_ascending _

/-! ### The turn of the year 1970 -/

/-- A trade so many nanoseconds after the start of 1969-12-31. -/
def aroundNewYear (nanos : Fin 200000000000000) (instrument : String) (quantity : Float) : Trade :=
  ⟨"", ⟨-86400000000000 + nanos, by
    unfold Time.calendarStart Time.calendarEnd
    omega⟩, instrument, "A1", "S1", quantity, 1.0, quantity⟩

/-- Trades at the first and the last moment of 1969-12-31 and at the first one of 1970. -/
def newYearTrades : List Trade := [
  aroundNewYear 86400000000000 "ACME" 100.0, aroundNewYear 0 "ACME" 50.0,
  aroundNewYear 86399999999999 "ACME" 350.0]

theorem usualOver_newYearTrades :
    UsualOver newYearTrades "ACME" [-1, 0] ⟨250.0, (45000.0 : Float).sqrt, 2⟩ where
  ascends := by decide
  mem_iff day := by
    simp [newYearTrades, aroundNewYear, OnDay, nanosPerDay]
    omega
  tradingDays := rfl
  traded := by decide
  mean := by decide +kernel
  single := nofun
  several _ := by decide +kernel
  divisor := by decide +kernel
  divisor_pred _ := by decide +kernel

theorem ofHistory_exact_newYear :
    let other := aroundNewYear 7 "OTHER" 9.0
    ("ACME", ⟨250.0, (45000.0 : Float).sqrt, 2⟩) ∈ ofHistory newYearTrades ∧
      ((other :: newYearTrades).filter (fun t => t.instrument = "ACME") =
        newYearTrades.filter fun t => t.instrument = "ACME") ∧
      (ofHistory (other :: newYearTrades)).lookup "ACME" =
        (ofHistory newYearTrades).lookup "ACME" := by
  intro other
  have hown : (other :: newYearTrades).filter (fun t => t.instrument = "ACME") =
      newYearTrades.filter fun t => t.instrument = "ACME" := by
    decide +kernel
  obtain ⟨-, hentries, hothers⟩ := ofHistory_exact newYearTrades
  exact ⟨(hentries _ _).2 ⟨_, usualOver_newYearTrades⟩, hown, hothers _ _ hown⟩

end VolumeBaseline

end TradeWatch

/-
What the rules read around an event, said over the trade history. A chronicle has the trades that
matter in order of time, those of one moment in the order of the history; from it follow who bought,
how much and at what average price, the buyers in the order of their bytes. What a rule finds is
found event by event. None of this leaves a choice: there is one chronicle, one list of buyers and,
where that is so for each event, one list of findings.
-/
import Mathlib.Algebra.Order.Group.Abs
import Mathlib.Algebra.Order.Group.Int
import TradeWatch.Proofs.WindowBounds

namespace TradeWatch

open Time (Instant calendarStart calendarEnd nanosPerDay)

/-- A window that can be said in its unit has a length. -/
theorem RuleId.length?_of_abs_le {c : Config} (rule : RuleId)
    (h : |rule.windowValue c| ≤ rule.windowMeasure.limit) :
    Window.length? rule.windowMeasure (rule.windowValue c) = some (rule.lookBack c) :=
  if_pos (abs_le.1 h)

namespace Rule

/-! ## Trades around an event -/

section Around

variable (event : CorporateEvent) (length : Int) (t : Trade)

/-- A trade of the event's instrument in the `length` nanoseconds up to the announcement, but not at
its very moment. -/
def IsAhead : Prop :=
  t.instrument = event.instrument ∧ event.announced.nanos - length ≤ t.time.nanos ∧
    t.time.nanos < event.announced.nanos

/-- A trade of the event's instrument from the announcement on, up to `length` nanoseconds later and
also at that moment. -/
def IsBehind : Prop :=
  t.instrument = event.instrument ∧ event.announced.nanos ≤ t.time.nanos ∧
    t.time.nanos ≤ event.announced.nanos + length

instance : Decidable (IsAhead event length t) :=
  inferInstanceAs (Decidable (_ ∧ _))

instance : Decidable (IsBehind event length t) :=
  inferInstanceAs (Decidable (_ ∧ _))

end Around

/-- `rows` are the trades of the history that satisfy `P`, in order of time; those of one moment
stand as in the history. -/
structure Chronicle (trades : List Trade) (P : Trade → Prop) [DecidablePred P]
    (rows : List Trade) : Prop where
  ascends : rows.Pairwise fun s t => s.time.nanos ≤ t.time.nanos
  moments : ∀ time : Instant,
    rows.filter (fun t => t.time = time) = trades.filter fun t => P t ∧ t.time = time

section Chronicle

variable {trades rows : List Trade} {P : Trade → Prop} [DecidablePred P]

theorem Chronicle.mem_iff (h : Chronicle trades P rows) {t : Trade} :
    t ∈ rows ↔ t ∈ trades ∧ P t := by
  have hmoment : t ∈ rows.filter (fun u => u.time = t.time) ↔
      t ∈ trades.filter fun u => P u ∧ u.time = t.time := by
    rw [h.moments]
  simpa [List.mem_filter] using hmoment

/-- The times and the history leave no choice. -/
theorem Chronicle.unique {rows' : List Trade} (h : Chronicle trades P rows)
    (h' : Chronicle trades P rows') : rows = rows' := by
  have hmoments : KeepsOrder (fun t : Trade => t.time) rows' rows := by
    intro time
    rw [h.moments, h'.moments]
  have hnanos : KeepsOrder (fun t : Trade => t.time.nanos) rows' rows :=
    hmoments.of_coarser fun _ _ => Instant.eq_of_nanos_eq
  exact hnanos.eq_of_pairwise h'.ascends h.ascends

theorem chronicle_mergeSort (trades : List Trade) (P : Trade → Prop) [DecidablePred P] :
    Chronicle trades P ((trades.filter fun t => P t).mergeSort TradeIndex.earlier) := by
  refine ⟨pairwise_mergeSort_keyLe (fun t : Trade => t.time.nanos) _, fun time => ?_⟩
  have hkeeps := keepsOrder_mergeSort (fun t : Trade => t.time.nanos)
    (trades.filter fun t => P t) time.nanos
  have htime : ∀ t : Trade, decide (t.time.nanos = time.nanos) = decide (t.time = time) := by
    intro t
    rw [decide_eq_decide]
    exact ⟨Instant.eq_of_nanos_eq, fun h => h ▸ rfl⟩
  simp only [htime, List.filter_filter] at hkeeps
  refine hkeeps.trans (List.filter_congr fun t _ => ?_)
  rw [Bool.eq_iff_iff]
  simp [and_comm]

theorem chronicle_ahead (trades : List Trade) (event : CorporateEvent) (length : Int) :
    Chronicle trades (IsAhead event length) (rowsAhead trades event length) :=
  chronicle_mergeSort trades (IsAhead event length)

theorem chronicle_behind (trades : List Trade) (event : CorporateEvent) (length : Int) :
    Chronicle trades (IsBehind event length) (rowsBehind trades event length) :=
  chronicle_mergeSort trades (IsBehind event length)

end Chronicle

/-! ## Buyers and their purchases -/

/-- `active` lists who buys in the trades that satisfy `P`, each buyer once, in the order of the
bytes; a trade without a buyer names nobody. -/
structure Buying (trades : List Trade) (P : Trade → Prop) (active : List String) : Prop where
  ascends : active.Pairwise fun a b => Text.bytes a < Text.bytes b
  mem_iff : ∀ a, a ∈ active ↔ a ≠ "" ∧ ∃ t ∈ trades, P t ∧ t.buyer = a

theorem Chronicle.buying {trades rows : List Trade} {P : Trade → Prop} [DecidablePred P]
    (h : Chronicle trades P rows) : Buying trades P (buyers rows) := by
  refine ⟨(sortedDistinct_ascending _).pairwise, fun a => ?_⟩
  rw [mem_buyers]
  simp only [h.mem_iff, and_assoc]

theorem Buying.nodup {trades : List Trade} {P : Trade → Prop} {active : List String}
    (h : Buying trades P active) : active.Nodup := by
  refine h.ascends.imp fun {a b} hlt => ?_
  rintro rfl
  exact List.lt_irrefl _ hlt

theorem Buying.unique {trades : List Trade} {P : Trade → Prop} {active active' : List String}
    (h : Buying trades P active) (h' : Buying trades P active') : active = active' := by
  have hperm : active.Perm active' :=
    (List.perm_ext_iff_of_nodup h.nodup h'.nodup).2 fun a => (h.mem_iff a).trans (h'.mem_iff a).symm
  exact hperm.eq_of_pairwise (fun a b _ _ hab hba => absurd hba (List.lt_asymm hab))
    h.ascends h'.ascends

/-- The purchases of an account. -/
def purchasesOf (rows : List Trade) (account : String) : List Trade :=
  rows.filter fun t => t.buyer = account

/-- What an account bought, summed in order. -/
def boughtBy (rows : List Trade) (account : String) : Float :=
  Stats.sumFrom 0.0 ((purchasesOf rows account).map (·.quantity))

/-- The average of the prices that an account paid. -/
def averagePaidBy (rows : List Trade) (account : String) : Float :=
  Stats.sumFrom 0.0 ((purchasesOf rows account).map (·.price)) /
    Decimal.ofNat (purchasesOf rows account).length

theorem purchasesOf_ne_nil {rows : List Trade} {account : String} (h : account ∈ buyers rows) :
    purchasesOf rows account ≠ [] := by
  obtain ⟨-, t, ht, hbuyer⟩ := mem_buyers.1 h
  exact List.ne_nil_of_mem (List.mem_filter.2 ⟨ht, decide_eq_true hbuyer⟩)

theorem buyActivity_eq (rows : List Trade) :
    buyActivity rows = (buyers rows).map fun a => .ofRows a (purchasesOf rows a) := by
  unfold buyActivity grouped
  rw [List.map_map]
  refine List.map_congr_left fun a ha => ?_
  have hne : a ≠ "" := ne_empty_of_mem_buyers ha
  simp only [Function.comp_apply]
  rw [filter_filter_of_imp fun t ht => by rw [hasBuyer, eq_of_beq ht]; exact bne_iff_ne.2 hne]
  rfl

theorem averagePrice_ofRows {rows : List Trade} {account : String} (h : account ∈ buyers rows) :
    (BuyActivity.ofRows account (purchasesOf rows account)).averagePrice =
      averagePaidBy rows account :=
  if_neg fun hnone => purchasesOf_ne_nil h (List.length_eq_zero_iff.1 hnone)

/-! ## Event by event -/

/-- A choice that is made or not for each member keeps those for which it is made. -/
theorem filterMap_eq_map_filter {α β : Type} {f : α → Option β} {keeps : α → Bool} {g : α → β}
    {xs : List α} (h : ∀ a ∈ xs, f a = if keeps a then some (g a) else none) :
    xs.filterMap f = (xs.filter keeps).map g := by
  rw [List.filterMap_congr h, ← List.filterMap_filter, ← List.filterMap_eq_map]
  rfl

/-- The findings are those of the events in their order, one after the other. -/
def EventByEvent {γ : Type} (Found : CorporateEvent → List γ → Prop) (events : List CorporateEvent)
    (findings : List γ) : Prop :=
  ∃ found : List (List γ), List.Forall₂ Found events found ∧ findings = found.flatten

section Flat

variable {γ : Type} {Found : CorporateEvent → List γ → Prop} {find : CorporateEvent → List γ}

theorem forall₂_found (h : ∀ event, Found event (find event)) (events : List CorporateEvent) :
    List.Forall₂ Found events (events.map find) := by
  rw [List.forall₂_map_right_iff]
  exact List.forall₂_same.2 fun event _ => h event

theorem eventByEvent_flatMap (h : ∀ event, Found event (find event))
    (events : List CorporateEvent) : EventByEvent Found events (events.flatMap find) :=
  ⟨events.map find, forall₂_found h events, List.flatMap_def⟩

/-- Where each event leaves no choice, neither do all. -/
theorem eventByEvent_iff (h : ∀ event, Found event (find event))
    (hunique : Relator.RightUnique Found) (events : List CorporateEvent) (findings : List γ) :
    EventByEvent Found events findings ↔ findings = events.flatMap find := by
  constructor
  · rintro ⟨found, hfound, rfl⟩
    rw [List.right_unique_forall₂' hunique hfound (forall₂_found h events), List.flatMap_def]
  · rintro rfl
    exact eventByEvent_flatMap h events

end Flat

/-! ## A takeover -/

/-- Shares bought at noon so many days after 2024-03-01. -/
def bought (day : Fin 100) (buyer : String) (quantity price : Float) : Trade :=
  ⟨"", ⟨1709294400000000000 + day * 86400000000000, by
    unfold Time.calendarStart Time.calendarEnd
    omega⟩, "ACME", buyer, "", quantity, price, 0.0⟩

/-- A takeover six days later. -/
def takeover : CorporateEvent :=
  ⟨"E1", "ACME", "merger", (bought 6 "" 0.0 0.0).time, none⟩

/-- Purchases around the takeover, one five days ahead of it and one at its very moment, at twice
the price. One trade has no buyer. -/
def takeoverTrades : List Trade := [
  bought 6 "A3" 50.0 20.0, bought 0 "A1" 10.0 10.0, bought 2 "" 30.0 10.0,
  bought 1 "A1" 400.0 10.0, bought 3 "A2" 5.0 10.0]

/-- A report of earnings four days after the takeover. -/
def earnings : CorporateEvent :=
  ⟨"E2", "ACME", "earnings", (bought 10 "" 0.0 0.0).time, none⟩

/-- A purchase the day before the takeover. -/
def eveOfTakeover : List Trade := [bought 5 "A2" 20.0 10.0]

end Rule

end TradeWatch

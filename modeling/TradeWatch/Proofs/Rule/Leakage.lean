/-
Leaking information, event by event: a window ahead of an event with enough different buyers is
found, once. It counts the buyers, sums all of its trades, also those without a buyer, and names the
buyer who bought most. Where all quantities are numbers nobody bought more, and those who bought as
much come later in the order of the bytes.
-/
import TradeWatch.Proofs.Decimal.Order
import TradeWatch.Proofs.EventByEvent

namespace TradeWatch.Rule

open Time (InCalendar)

namespace BuyActivity

/-- More is bought, or not less under a name that comes first. -/
def Outranks (a b : BuyActivity) : Prop :=
  b.quantity < a.quantity ∨
    ¬ a.quantity < b.quantity ∧ Text.bytes a.account < Text.bytes b.account

/-- Among quantities that are numbers. -/
theorem Outranks.trans {a b c : BuyActivity} (hab : a.Outranks b) (hbc : b.Outranks c)
    (ha : a.quantity.isNaN = false) (hb : b.quantity.isNaN = false)
    (hc : c.quantity.isNaN = false) : a.Outranks c := by
  obtain hab | ⟨hab, hnames⟩ := hab
  · obtain hbc | ⟨hbc, -⟩ := hbc
    · exact .inl (Decimal.lt_of_not_lt_of_lt hc (Decimal.not_lt_of_lt hbc) hab)
    · exact .inl (Decimal.lt_of_not_lt_of_lt hc hbc hab)
  · obtain hbc | ⟨hbc, hnames'⟩ := hbc
    · exact .inl (Decimal.lt_of_lt_of_not_lt ha hbc hab)
    · refine .inr ⟨fun hac => hab ?_, List.lt_trans hnames hnames'⟩
      exact Decimal.lt_of_lt_of_not_lt hb hac hbc

/-- The one of two activities that is kept as the greatest. -/
def greater (top b : BuyActivity) : BuyActivity :=
  if top.quantity < b.quantity then b else top

theorem foldl_greater_mem (as : List BuyActivity) (a : BuyActivity) :
    as.foldl greater a ∈ a :: as := by
  induction as generalizing a with
  | nil => exact List.mem_singleton_self a
  | cons b as ih =>
    rw [List.foldl_cons]
    rcases List.mem_cons.1 (ih (greater a b)) with heq | hmem
    · rw [heq, greater]
      split
      · exact List.mem_cons_of_mem a List.mem_cons_self
      · exact List.mem_cons_self
    · exact List.mem_cons_of_mem a (List.mem_cons_of_mem b hmem)

/-- One pass finds the activity that outranks all others, since they come in the order of the names:
a later one replaces it only with a greater quantity. -/
theorem foldl_greater_outranks {as : List BuyActivity} {a : BuyActivity}
    (hnames : (a :: as).Pairwise fun b c => Text.bytes b.account < Text.bytes c.account)
    (hnumbers : ∀ b ∈ a :: as, b.quantity.isNaN = false) :
    ∀ b ∈ a :: as, b = as.foldl greater a ∨ (as.foldl greater a).Outranks b := by
  induction as generalizing a with
  | nil => exact fun b hb => .inl (List.mem_singleton.1 hb)
  | cons c as ih =>
    have htop : ((c :: as).foldl greater a).quantity.isNaN = false :=
      hnumbers _ (foldl_greater_mem _ _)
    have ha : a.quantity.isNaN = false := hnumbers a List.mem_cons_self
    have hc : c.quantity.isNaN = false := hnumbers c (by simp)
    rw [List.foldl_cons] at htop ⊢
    by_cases hless : a.quantity < c.quantity
    · rw [greater, if_pos hless] at htop ⊢
      have ih := ih hnames.of_cons fun b hb => hnumbers b (List.mem_cons_of_mem a hb)
      intro b hb
      rcases List.mem_cons.1 hb with rfl | hb
      · have hca : c.Outranks b := .inl hless
        rcases ih c List.mem_cons_self with heq | htopc
        · exact .inr (heq ▸ hca)
        · exact .inr (htopc.trans hca htop hc ha)
      · exact ih b hb
    · rw [greater, if_neg hless] at htop ⊢
      have hsub : (a :: as).Sublist (a :: c :: as) := (List.sublist_cons_self c as).cons_cons a
      have ih := ih (hnames.sublist hsub) fun b hb => hnumbers b (hsub.subset hb)
      intro b hb
      by_cases hbc : b = c
      · subst hbc
        have hab : a.Outranks b := .inr ⟨hless, List.rel_of_pairwise_cons hnames List.mem_cons_self⟩
        rcases ih a List.mem_cons_self with heq | htopa
        · exact .inr (heq ▸ hab)
        · exact .inr (htopa.trans hab htop ha hc)
      · refine ih b ?_
        simp only [List.mem_cons] at hb ⊢
        exact hb.imp_right fun hb => hb.resolve_left hbc

end BuyActivity

namespace LeakageCandidate

/-- What a buyer did in the window. -/
def activityOf (rows : List Trade) (account : String) : BuyActivity :=
  .ofRows account (purchasesOf rows account)

/-- `top` is the one who bought most of those who are `active`. -/
structure IsTop (rows : List Trade) (active : List String) (top : String) : Prop where
  nobody : active = [] → top = ""
  somebody : active ≠ [] → top ∈ active
  unbeaten : (∀ a ∈ active, (boughtBy rows a).isNaN = false) →
    ∀ a ∈ active, ¬ boughtBy rows top < boughtBy rows a
  first : (∀ a ∈ active, (boughtBy rows a).isNaN = false) →
    ∀ a ∈ active, a ≠ top → (boughtBy rows a == boughtBy rows top) = true →
      Text.bytes top < Text.bytes a

/-- What is reported of a window. -/
def ofWindow (event : CorporateEvent) (rows : List Trade) (active : List String) (top : String) :
    LeakageCandidate where
  event := event.id
  instrument := event.instrument
  announced := event.announced
  accounts := active.length
  volume := Stats.total (rows.map (·.quantity))
  topAccount := top

/-- What there is to find for one event, where the window goes `length` nanoseconds back. -/
structure Found (trades : List Trade) (leastAccounts : Nat) (length : Int) (event : CorporateEvent)
    (found : List LeakageCandidate) : Prop where
  leftOut : ¬ InCalendar (event.announced.nanos - length) → found = []
  lookedAt : InCalendar (event.announced.nanos - length) → ∃ rows active top,
    Chronicle trades (IsAhead event length) rows ∧ Buying trades (IsAhead event length) active ∧
      IsTop rows active top ∧ (top = "" ↔ active = []) ∧
      found = if leastAccounts ≤ active.length then [ofWindow event rows active top] else []

section OfEvent

variable {trades rows : List Trade} {leastAccounts : Nat} {length : Int} {event : CorporateEvent}

/-- The top buyer is a buyer of the window and outranks the others. -/
theorem exists_eq_topBuyer (h : buyers rows ≠ []) :
    ∃ top ∈ buyers rows, topBuyer (buyActivity rows) = top ∧
      ((∀ a ∈ buyers rows, (boughtBy rows a).isNaN = false) →
        ∀ a ∈ buyers rows, a = top ∨ (activityOf rows top).Outranks (activityOf rows a)) := by
  have hnames : (buyers rows).Pairwise fun a b => Text.bytes a < Text.bytes b :=
    (sortedDistinct_ascending _).pairwise
  have hactivity : buyActivity rows = (buyers rows).map (activityOf rows) := buyActivity_eq rows
  rw [hactivity]
  cases hbuyers : buyers rows with
  | nil => exact absurd hbuyers h
  | cons b bs =>
    rw [hbuyers] at hnames
    have hmem : (bs.map (activityOf rows)).foldl .greater (activityOf rows b) ∈
        (b :: bs).map (activityOf rows) := BuyActivity.foldl_greater_mem _ _
    obtain ⟨top, htop, heq⟩ := List.mem_map.1 hmem
    refine ⟨top, htop, congrArg BuyActivity.account heq.symm, fun hnumbers a ha => ?_⟩
    have hnames' : ((b :: bs).map (activityOf rows)).Pairwise fun a c =>
        Text.bytes a.account < Text.bytes c.account := List.pairwise_map.2 hnames
    have hnumbers' : ∀ a ∈ (b :: bs).map (activityOf rows), a.quantity.isNaN = false :=
      List.forall_mem_map.2 hnumbers
    have hspec := BuyActivity.foldl_greater_outranks hnames' hnumbers' (activityOf rows a)
      (List.mem_map_of_mem ha)
    rw [← heq] at hspec
    exact hspec.imp_left (congrArg BuyActivity.account)

theorem isTop_topBuyer (rows : List Trade) :
    IsTop rows (buyers rows) (topBuyer (buyActivity rows)) := by
  by_cases hnobody : buyers rows = []
  · rw [hnobody, buyActivity_eq, hnobody]
    exact ⟨fun _ => rfl, fun h => absurd rfl h, fun _ => by simp, fun _ => by simp⟩
  · obtain ⟨top, htop, heq, houtranks⟩ := exists_eq_topBuyer hnobody
    rw [heq]
    refine ⟨fun h => absurd h hnobody, fun _ => htop, fun hnumbers a ha => ?_,
      fun hnumbers a ha hne hequal => ?_⟩
    · rcases houtranks hnumbers a ha with rfl | hless | ⟨hnot, -⟩
      · exact fun h => Decimal.not_lt_of_lt h h
      · exact Decimal.not_lt_of_lt hless
      · exact hnot
    · rcases houtranks hnumbers a ha with rfl | hless | ⟨-, hnames⟩
      · exact absurd rfl hne
      · have hdiffers : (boughtBy rows a == boughtBy rows top) = false :=
          Decimal.beq_eq_false_of_lt hless
        rw [hdiffers] at hequal
        cases hequal
      · exact hnames

theorem IsTop.eq_empty_iff {active : List String} {top : String} (h : IsTop rows active top)
    (hactive : ∀ a ∈ active, a ≠ "") : top = "" ↔ active = [] := by
  constructor
  · intro hempty
    by_contra hne
    exact hactive top (h.somebody hne) hempty
  · exact h.nobody

theorem ofEvent?_of_shift? {start : Time.Instant}
    (h : event.announced.shift? (-length) = some start) :
    ofEvent? (.ofTrades trades) leastAccounts length event =
      let rows := rowsAhead trades event length
      if leastAccounts ≤ (buyers rows).length then
        some (ofWindow event rows (buyers rows) (topBuyer (buyActivity rows)))
      else none := by
  unfold ofEvent?
  simp only [h, window_eq_rowsAhead h, length_buyActivity]
  rw [← ite_not]
  simp only [not_lt]
  rfl

theorem found_ofEvent? (trades : List Trade) (leastAccounts : Nat) (length : Int)
    (event : CorporateEvent) :
    Found trades leastAccounts length event
      (ofEvent? (.ofTrades trades) leastAccounts length event).toList where
  leftOut hout := by
    unfold ofEvent?
    rw [Time.Instant.shift?_of_not_inCalendar hout]
    rfl
  lookedAt hin := by
    obtain ⟨start, hs⟩ := Time.Instant.exists_shift? hin
    have hrows := chronicle_ahead trades event length
    have htop := isTop_topBuyer (rowsAhead trades event length)
    refine ⟨_, _, _, hrows, hrows.buying, htop,
      htop.eq_empty_iff fun a => ne_empty_of_mem_buyers, ?_⟩
    rw [ofEvent?_of_shift? hs]
    exact apply_ite Option.toList _ _ _

end OfEvent

end LeakageCandidate

/-- With a window that can be said in hours the rule finds, event by event, just the windows with
enough different buyers, even if none is asked for. -/
theorem informationLeakage_exact {c : Config} (h : |c.leakageWindowHours| ≤ 2562047788015)
    {trades : List Trade} (htrades : trades ≠ []) (events : List CorporateEvent)
    (engine : AlertEngine) :
    EventByEvent
      (LeakageCandidate.Found trades c.leakageMinAccounts
        (RuleId.informationLeakage.lookBack c)) events
      (informationLeakage trades events c engine).candidates := by
  have hlength := RuleId.length?_of_abs_le .informationLeakage h
  rw [informationLeakage_eq (.inl htrades) hlength]
  simp only [Outcome.ofCandidates, List.filterMap_eq_flatMap_toList]
  exact eventByEvent_flatMap (LeakageCandidate.found_ofEvent? trades _ _) events

theorem informationLeakage_exact_takeover :
    |({} : Config).leakageWindowHours| ≤ 2562047788015 ∧ takeoverTrades ≠ [] ∧
      EventByEvent
        (LeakageCandidate.Found takeoverTrades ({} : Config).leakageMinAccounts
          (RuleId.informationLeakage.lookBack {})) [takeover]
        (informationLeakage takeoverTrades [takeover] {}
          (.ofConfig {} takeover.announced)).candidates := by
  have hwindow : |({} : Config).leakageWindowHours| ≤ 2562047788015 := by decide
  have htrades : takeoverTrades ≠ [] := List.cons_ne_nil _ _
  exact ⟨hwindow, htrades, informationLeakage_exact hwindow htrades [takeover] _⟩

end TradeWatch.Rule

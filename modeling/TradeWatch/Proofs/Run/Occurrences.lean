/-
Occurrences, and those in runs on made-up events. A rule finds what it finds for each announcement
alone. A group counts each of the announcements with a candidate in it that share their id with no
other one, and of the others each id; with ids that are all different no announcement hides another.
-/
import TradeWatch.Proofs.Gate
import TradeWatch.Proofs.Run.History
import TradeWatch.Proofs.Shortcuts
import TradeWatch.Proofs.Synthesis.Identifiers
import TradeWatch.Proofs.Table.Reading

namespace TradeWatch

namespace Rule

/-! ## One announcement at a time -/

section Each

variable {κ γ : Type} [DecidableEq κ] {key : γ → κ} {event : γ → String}
  {rule : List CorporateEvent → Outcome γ}

/-- The candidates for some events are those for each of them alone, and name it. -/
structure FindsEach (event : γ → String) (rule : List CorporateEvent → Outcome γ) : Prop where
  candidates : ∀ events, (rule events).candidates = events.flatMap fun e => (rule [e]).candidates
  named : ∀ e, ∀ c ∈ (rule [e]).candidates, event c = e.id

theorem findsEach_of_find (find : CorporateEvent → List γ)
    (h : ∀ events, (rule events).candidates = events.flatMap find)
    (hnamed : ∀ e, ∀ c ∈ [e].flatMap find, ∃ instrument, FromEvents [e] (event c) instrument) :
    FindsEach event rule := by
  refine ⟨fun events => ?_, fun e c hc => ?_⟩
  · rw [h]
    refine List.flatMap_congr fun e _ => ?_
    rw [h, List.flatMap_singleton]
  · rw [h] at hc
    obtain ⟨-, e', he', hid, -⟩ := hnamed e c hc
    rw [hid, List.mem_singleton.1 he']

theorem findsEach_of_nil (h : ∀ events, (rule events).candidates = []) : FindsEach event rule := by
  refine findsEach_of_find (fun _ => []) (fun events => ?_) fun e c hc => ?_
  · rw [h, List.flatMap_eq_nil_iff.2 fun _ _ => rfl]
  · cases hc

/-- How many announcements have a candidate with this key, each looked at alone. -/
def announcementsOf (key : γ → κ) (rule : List CorporateEvent → Outcome γ)
    (events : List CorporateEvent) (k : κ) : ℕ :=
  events.countP fun e => k ∈ (rule [e]).candidates.map key

/-- The ids that a group counts are those of the announcements with a candidate in it. -/
theorem FindsEach.mem_ids_iff (h : FindsEach event rule) {events : List CorporateEvent} {k : κ}
    {id : String} : id ∈ (membersOf key (rule events).candidates k).map event ↔
      ∃ e ∈ events, k ∈ (rule [e]).candidates.map key ∧ e.id = id := by
  rw [List.mem_map]
  constructor
  · rintro ⟨c, hc, rfl⟩
    obtain ⟨hc, hk⟩ := mem_membersOf.1 hc
    rw [h.candidates] at hc
    obtain ⟨e, he, hc⟩ := List.mem_flatMap.1 hc
    exact ⟨e, he, List.mem_map.2 ⟨c, hc, hk⟩, (h.named e c hc).symm⟩
  · rintro ⟨e, he, hfound, rfl⟩
    obtain ⟨c, hc, hk⟩ := List.mem_map.1 hfound
    refine ⟨c, mem_membersOf.2 ⟨?_, hk⟩, h.named e c hc⟩
    rw [h.candidates]
    exact List.mem_flatMap.2 ⟨e, he, hc⟩

/-- How many different ids there are among the announcements that have a candidate with this key. -/
def idsOf (key : γ → κ) (rule : List CorporateEvent → Outcome γ) (events : List CorporateEvent)
    (k : κ) : ℕ :=
  ((events.filter fun e => k ∈ (rule [e]).candidates.map key).map (·.id)).toFinset.card

/-- The events are some that share their id with no other one, and the others. -/
structure Apart (events alone others : List CorporateEvent) : Prop where
  perm : events.Perm (alone ++ others)
  nodup : (alone.map (·.id)).Nodup
  disjoint : ∀ e ∈ alone, ∀ e' ∈ others, e.id ≠ e'.id

/-- Events that share their id with no other one are counted each, and of the others each id. -/
theorem FindsEach.eventCount_eq_add (h : FindsEach event rule)
    {events alone others : List CorporateEvent} (hapart : Apart events alone others) (key : γ → κ)
    (k : κ) :
    eventCount event (membersOf key (rule events).candidates k) =
      announcementsOf key rule alone k + idsOf key rule others k := by
  set found := alone.filter fun e => k ∈ (rule [e]).candidates.map key
  set shared := others.filter fun e => k ∈ (rule [e]).candidates.map key
  have hids : ((membersOf key (rule events).candidates k).map event).toFinset =
      (found.map (·.id)).toFinset ∪ (shared.map (·.id)).toFinset := by
    ext id
    rw [Finset.mem_union, List.mem_toFinset, List.mem_toFinset, List.mem_toFinset, h.mem_ids_iff]
    simp only [found, shared, List.mem_map, List.mem_filter, decide_eq_true_iff, and_assoc,
      hapart.perm.mem_iff, List.mem_append, or_and_right, exists_or]
  have hdisjoint : Disjoint (found.map (·.id)).toFinset (shared.map (·.id)).toFinset := by
    rw [Finset.disjoint_left]
    intro id hfound hshared
    obtain ⟨e, he, rfl⟩ := List.mem_map.1 (List.mem_toFinset.1 hfound)
    obtain ⟨e', he', hsame⟩ := List.mem_map.1 (List.mem_toFinset.1 hshared)
    exact hapart.disjoint e (List.mem_filter.1 he).1 e' (List.mem_filter.1 he').1 hsame.symm
  have hfound : (found.map (·.id)).Nodup := hapart.nodup.sublist (List.filter_sublist.map _)
  unfold eventCount announcementsOf idsOf
  rw [hids, Finset.card_union_of_disjoint hdisjoint, List.toFinset_card_of_nodup hfound,
    List.length_map, List.countP_eq_length_filter]

/-- Events with different ids are counted each. -/
theorem FindsEach.eventCount_eq (h : FindsEach event rule) {events : List CorporateEvent}
    (hnodup : (events.map (·.id)).Nodup) (key : γ → κ) (k : κ) :
    eventCount event (membersOf key (rule events).candidates k) =
      announcementsOf key rule events k := by
  have hapart : Apart events events [] :=
    ⟨by rw [List.append_nil], hnodup, fun _ _ _ h => absurd h List.not_mem_nil⟩
  exact h.eventCount_eq_add hapart key k

/-- An alert counts what its group counts. -/
theorem exists_group_of_mem {Before : κ → κ → Prop} {Describes : κ → List γ → Alert → Prop}
    {least : ℕ} {candidates : List γ} {alerts : List Alert} {count : κ → ℕ}
    (hgroups : ∀ k, eventCount event (membersOf key candidates k) = count k)
    (hgated : Gated Before key event Describes least candidates alerts) :
    ∀ a ∈ alerts, ∃ k ∈ candidates.map key,
      Describes k (membersOf key candidates k) a ∧ a.occurrences? = some (count k) := by
  intro a ha
  obtain ⟨keys, -, hkeys, halerts⟩ := hgated
  obtain ⟨k, hk, hcount, hdescribes⟩ := Synthesis.exists_of_mem_right halerts ha
  exact ⟨k, ((hkeys k).1 hk).1, hdescribes, hgroups k ▸ hcount⟩

/-- Every group counts its announcements, and so does the alert for it. -/
structure CountsEach (key : γ → κ) (event : γ → String) (Describes : κ → List γ → Alert → Prop)
    (rule : List CorporateEvent → Outcome γ) (events : List CorporateEvent) : Prop where
  groups : ∀ k, eventCount event (membersOf key (rule events).candidates k) =
    announcementsOf key rule events k
  alerts : ∀ a ∈ (rule events).alerts, ∃ k ∈ (rule events).candidates.map key,
    Describes k (membersOf key (rule events).candidates k) a ∧
      a.occurrences? = some (announcementsOf key rule events k)

theorem FindsEach.countsEach (h : FindsEach event rule) {Before : κ → κ → Prop}
    {Describes : κ → List γ → Alert → Prop} {least : ℕ} {events : List CorporateEvent}
    (hnodup : (events.map (·.id)).Nodup)
    (hgated : Gated Before key event Describes least (rule events).candidates
      (rule events).alerts) : CountsEach key event Describes rule events :=
  ⟨h.eventCount_eq hnodup key, exists_group_of_mem (h.eventCount_eq hnodup key) hgated⟩

/-- Every group counts the announcements of its own each and the others by their ids, and so does the
alert for it. -/
structure CountsApart (key : γ → κ) (event : γ → String) (Describes : κ → List γ → Alert → Prop)
    (rule : List CorporateEvent → Outcome γ) (events alone others : List CorporateEvent) : Prop where
  groups : ∀ k, eventCount event (membersOf key (rule events).candidates k) =
    announcementsOf key rule alone k + idsOf key rule others k
  alerts : ∀ a ∈ (rule events).alerts, ∃ k ∈ (rule events).candidates.map key,
    Describes k (membersOf key (rule events).candidates k) a ∧
      a.occurrences? = some (announcementsOf key rule alone k + idsOf key rule others k)

theorem FindsEach.countsApart (h : FindsEach event rule) {Before : κ → κ → Prop}
    {Describes : κ → List γ → Alert → Prop} {least : ℕ} {events alone others : List CorporateEvent}
    (hapart : Apart events alone others)
    (hgated : Gated Before key event Describes least (rule events).candidates
      (rule events).alerts) : CountsApart key event Describes rule events alone others :=
  ⟨h.eventCount_eq_add hapart key, exists_group_of_mem (h.eventCount_eq_add hapart key) hgated⟩

end Each

/-! ## The rules one by one -/

section Rules

variable {trades : List Trade} {accounts : List Account} {c : Config} {engine : AlertEngine}

theorem findsEach_preAnnouncement : FindsEach (·.event) (preAnnouncement trades · c engine) := by
  cases h : Window.length? Window.days c.preAnnouncementWindowDays with
  | none => exact findsEach_of_nil fun events => (preAnnouncement_of_none h).1
  | some length =>
    refine findsEach_of_find _ (fun events => congrArg Outcome.candidates (preAnnouncement_eq h)) ?_
    exact fun e x hx => ⟨_, PreAnnouncementCandidate.fromEvents hx⟩

theorem findsEach_network : FindsEach (·.event) (network trades accounts · c engine) := by
  cases h : Window.length? Window.days c.networkWindowDays with
  | none => exact findsEach_of_nil fun events => (network_of_none h).1
  | some length =>
    refine findsEach_of_find _ (fun events => congrArg Outcome.candidates (network_eq h)) ?_
    exact fun e x hx => ⟨_, NetworkCandidate.fromEvents hx⟩

theorem findsEach_abnormalProfit : FindsEach (·.event) (abnormalProfit trades · c engine) := by
  cases h : Window.length? Window.days c.preAnnouncementWindowDays with
  | none => exact findsEach_of_nil fun events => (abnormalProfit_of_none h).1
  | some length =>
    refine findsEach_of_find _ (fun events => congrArg Outcome.candidates (abnormalProfit_eq h)) ?_
    exact fun e x hx => ⟨_, ProfitCandidate.fromEvents hx⟩

theorem findsEach_informationLeakage :
    FindsEach (·.event) (informationLeakage trades · c engine) := by
  cases h : Window.length? Window.hours c.leakageWindowHours with
  | none => exact findsEach_of_nil fun events => (informationLeakage_of_none h).1
  | some length =>
    by_cases htrades : trades = []
    · subst htrades
      exact findsEach_of_nil fun events => rfl
    · refine findsEach_of_find _
        (fun events => congrArg Outcome.candidates (informationLeakage_eq_flatMap htrades h)) ?_
      intro e x hx
      rw [← List.filterMap_eq_flatMap_toList] at hx
      exact ⟨_, LeakageCandidate.fromEvents hx⟩

/-- In no rule one of the events hides another. -/
structure OccursEach (inputs : Inputs) (c : Config) (engine : AlertEngine) : Prop where
  preAnnouncement : CountsEach PreAnnouncementCandidate.key (·.event)
    PreAnnouncementCandidate.Describes (preAnnouncement inputs.trades · c engine) inputs.events
  network : CountsEach (·.account) (·.event) NetworkCandidate.Describes
    (network inputs.trades inputs.accounts · c engine) inputs.events
  abnormalProfit : CountsEach (·.account) (·.event) ProfitCandidate.Describes
    (abnormalProfit inputs.trades · c engine) inputs.events
  informationLeakage : CountsEach (·.instrument) (·.event) LeakageCandidate.Describes
    (informationLeakage inputs.trades · c engine) inputs.events

theorem occursEach_of_nodup {inputs : Inputs} (h : (inputs.events.map (·.id)).Nodup) (c : Config)
    (engine : AlertEngine) : OccursEach inputs c engine where
  preAnnouncement := findsEach_preAnnouncement.countsEach h (gated_preAnnouncement ..)
  network := findsEach_network.countsEach h (gated_network ..)
  abnormalProfit := findsEach_abnormalProfit.countsEach h (gated_abnormalProfit ..)
  informationLeakage := findsEach_informationLeakage.countsEach h (gated_informationLeakage ..)

/-- In every rule some of the events are occurrences of their own. -/
structure OccurApart (trades : List Trade) (accounts : List Account) (c : Config)
    (engine : AlertEngine) (events alone others : List CorporateEvent) : Prop where
  preAnnouncement : CountsApart PreAnnouncementCandidate.key (·.event)
    PreAnnouncementCandidate.Describes (preAnnouncement trades · c engine) events alone others
  network : CountsApart (·.account) (·.event) NetworkCandidate.Describes
    (network trades accounts · c engine) events alone others
  abnormalProfit : CountsApart (·.account) (·.event) ProfitCandidate.Describes
    (abnormalProfit trades · c engine) events alone others
  informationLeakage : CountsApart (·.instrument) (·.event) LeakageCandidate.Describes
    (informationLeakage trades · c engine) events alone others

theorem Apart.occurApart {events alone others : List CorporateEvent}
    (h : Apart events alone others) (trades : List Trade) (accounts : List Account) (c : Config)
    (engine : AlertEngine) : OccurApart trades accounts c engine events alone others where
  preAnnouncement := findsEach_preAnnouncement.countsApart h (gated_preAnnouncement ..)
  network := findsEach_network.countsApart h (gated_network ..)
  abnormalProfit := findsEach_abnormalProfit.countsApart h (gated_abnormalProfit ..)
  informationLeakage := findsEach_informationLeakage.countsApart h (gated_informationLeakage ..)

end Rules

end Rule

/-! ## Runs on made-up events -/

namespace Detector

section Runs

variable {σ : Type} [TableStore σ] {d : Detector} {store : σ} {entropy : UInt64}

theorem exists_events?_of_loadEvents {trades : List Trade} {events : List CorporateEvent}
    (h : (d.loadEvents store entropy trades).run.1 = .ok (events, .synthesized)) :
    ∃ g', Synthesis.events? trades (.ofSeed (d.seed entropy)) = some (events, g') := by
  unfold loadEvents synthesizeEvents at h
  cases hload : TableStore.load? store eventsTable [] with
  | error e =>
    rw [hload] at h
    cases h
  | ok loaded =>
    rw [hload] at h
    cases loaded with
    | none =>
      rcases hmade : Synthesis.events? trades (.ofSeed (d.seed entropy)) with _ | ⟨made, g'⟩
      · rw [hmade] at h
        cases h
      · rw [hmade] at h
        cases h
        exact ⟨g', rfl⟩
    | some t =>
      -- a table that is there leaves nothing to be made up
      change ((do
        let u ← Logged.ofExcept (t.project eventsTable (eventColumnsOf t))
        return (← u.events, .loaded)) : Logged (List CorporateEvent × EventSource)).run.1 = _ at h
      rw [Logged.result_bind _ fun u => u.appends_events.bind fun _ => Logged.appends_pure _] at h
      obtain ⟨u, -, h⟩ := bind_eq_ok_iff.1 h
      rw [Logged.result_bind _ fun _ => Logged.appends_pure _] at h
      obtain ⟨read, -, h⟩ := bind_eq_ok_iff.1 h
      cases h

theorem exists_events?_of_load {inputs : Inputs}
    (h : (d.load store entropy).run.1 = .ok inputs) (hmade : inputs.source = .synthesized) :
    ∃ g', Synthesis.events? inputs.trades (.ofSeed (d.seed entropy)) =
      some (inputs.events, g') := by
  rw [result_load] at h
  obtain ⟨trades, -, h⟩ := bind_eq_ok_iff.1 h
  obtain ⟨accounts, -, h⟩ := bind_eq_ok_iff.1 h
  obtain ⟨⟨events, source⟩, hevents, h⟩ := bind_eq_ok_iff.1 h
  cases h
  obtain rfl : source = .synthesized := hmade
  exact exists_events?_of_loadEvents hevents

end Runs

/-- The ids of made-up events are all different, and so in a run on such events each of them counts
as an occurrence of its own, whatever the configuration and the engine. -/
theorem synthesized_occur_each :
    (∀ trades g events g', Synthesis.events? trades g = some (events, g') →
        (events.map (·.id)).Nodup) ∧
      ∀ (σ : Type) [TableStore σ] (d : Detector) (store : σ) (entropy : UInt64) (inputs : Inputs),
        (d.load store entropy).run.1 = .ok inputs → inputs.source = .synthesized →
          ∀ c engine, Rule.OccursEach inputs c engine := by
  refine ⟨fun _ _ _ _ => Synthesis.nodup_ids, fun σ _ d store entropy inputs hload hmade c e => ?_⟩
  obtain ⟨g', hevents⟩ := exists_events?_of_load hload hmade
  exact Rule.occursEach_of_nodup (Synthesis.nodup_ids hevents) c e

/-! ### Three weeks without an event table -/

/-- Purchases of one account within three weeks. -/
def steadyTrades : Table :=
  ⟨3, [
    ("trade_id", .ofTexts ["T1", "T2", "T3"]),
    ("timestamp", .time .milli none [some 1705600000000, some 1704100000000, some 1704700000000]),
    ("instrument_id", .ofTexts ["ACME-1", "ACME-1", "ACME-1"]),
    ("buy_account_id", .ofTexts ["A1", "A1", "A1"]),
    ("sell_account_id", .ofTexts ["A2", "A2", "A2"]),
    ("quantity", .ofReals [10.0, 20.0, 30.0]),
    ("price", .ofReals [2.0, 2.0, 2.0]),
    ("trade_value", .ofReals [20.0, 40.0, 60.0])], by decide⟩

def steadyStore : MemoryStore :=
  (MemoryStore.empty.insert tradesTable steadyTrades).insert accountsTable
    MemoryStore.sampleAccounts

theorem synthesized_occur_each_steadyStore :
    let d : Detector := ⟨{ syntheticEventSeed := some 7 }, by decide +kernel⟩
    (∃ events g', Synthesis.events? Synthesis.sampleHistory (.ofSeed 7) = some (events, g') ∧
        (events.map (·.id)).Nodup) ∧
      ∃ inputs, (d.load steadyStore 0).run.1 = .ok inputs ∧ inputs.source = .synthesized ∧
        Rule.OccursEach inputs d.config (.ofConfig d.config ⟨1705800000000000000, by decide⟩) := by
  intro d
  obtain ⟨sample, gs, hsample⟩ := Synthesis.exists_events?_sampleHistory (.ofSeed 7)
  refine ⟨⟨sample, gs, hsample, synthesized_occur_each.1 _ _ _ _ hsample⟩, ?_⟩
  obtain ⟨trades, htrades, hdays⟩ : ∃ trades, (loadTrades steadyStore).run.1 = .ok trades ∧
      ∀ t ∈ trades, t.time.day + 7 ≤ Synthesis.lastDay := ⟨_, rfl, by decide +kernel⟩
  obtain ⟨accounts, haccounts⟩ : ∃ accounts, loadAccounts steadyStore = .ok accounts := ⟨_, rfl⟩
  obtain ⟨events, g', hevents⟩ := Synthesis.exists_events? hdays (.ofSeed 7)
  have hmade : (d.loadEvents steadyStore 0 trades).run.1 = .ok (events, .synthesized) := by
    have hseed : d.seed 0 = 7 := rfl
    rw [loadEvents_of_missing (by decide +kernel), hseed, hevents]
  have hload : (d.load steadyStore 0).run.1 = .ok ⟨trades, accounts, events, .synthesized⟩ := by
    rw [result_load, htrades, haccounts]
    change ((d.loadEvents steadyStore 0 trades).run.1.bind _) = _
    rw [hmade]
    rfl
  exact ⟨_, hload, rfl, synthesized_occur_each.2 _ d steadyStore 0 _ hload rfl _ _⟩

end Detector

end TradeWatch

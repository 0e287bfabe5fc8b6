/-
What more events do to the alerts. A rule looks at each event by itself and groups what it finds, so
more events leave every alert in place, with no fewer events counted, no lower severity, and no
account or instrument less. Events count by their ids and not by their rows: neither the order of
the rows nor repetitions change which alerts there are, what they concern or how they are scored.
-/
import TradeWatch.Proofs.Scoring
import TradeWatch.Proofs.Shortcuts

namespace TradeWatch

/-! ## Two alerts of one group -/

namespace Alert

/-- The accounts and instruments by which a rule groups its candidates. -/
def groupKey (a : Alert) : List String × List String :=
  match a.rule with
  | .preAnnouncementTrading => (a.accounts, a.instruments)
  | .networkTrading => (a.accounts.take 1, [])
  | .abnormalProfit => (a.accounts, [])
  | .informationLeakage => ([], a.instruments)

/-- The second alert is of the same group and says no less. -/
structure GrowsTo (a b : Alert) : Prop where
  rule : b.rule = a.rule
  groupKey : b.groupKey = a.groupKey
  count : ∃ n m, a.occurrences? = some n ∧ b.occurrences? = some m ∧ n ≤ m
  severity : a.severity.rank ≤ b.severity.rank
  accounts : a.accounts ⊆ b.accounts
  instruments : a.instruments ⊆ b.instruments

/-- The members of the evidence that are texts or counts. -/
def plainEvidence : List String :=
  [occurrencesKey, "event_ids", "related_accounts", "num_instruments", "top_accounts"]

/-- Both alerts say the same but for what is worked out from doubles, where the order of the terms
shows. -/
structure SameFinding (a b : Alert) : Prop where
  rule : b.rule = a.rule
  severity : b.severity = a.severity
  confidence : b.confidence = a.confidence
  accounts : b.accounts = a.accounts
  instruments : b.instruments = a.instruments
  count : b.occurrences? = a.occurrences?
  evidence : ∀ key ∈ plainEvidence, b.evidence.get? key = a.evidence.get? key

end Alert

namespace Rule

/-! ## Two groups of one key -/

section Groups

variable {κ γ : Type}

/-- Two groups of one key, the second with all members of the first and no fewer events. -/
inductive Group.GrowsTo : Group κ γ → Group κ γ → Prop
  | intro {k : κ} {members members' : List γ} {ids ids' : List String}
      (hmembers : members ⊆ members') (hids : ids.length ≤ ids'.length) :
      GrowsTo ⟨k, members, ids⟩ ⟨k, members', ids'⟩

/-- Two groups of one key: each member of the first is related to one of the second, which has
no fewer events. -/
inductive Group.CoveredBy (R : γ → γ → Prop) : Group κ γ → Group κ γ → Prop
  | intro {k : κ} {members members' : List γ} {ids ids' : List String}
      (hmembers : ∀ x ∈ members, ∃ y ∈ members', R x y) (hids : ids.length ≤ ids'.length) :
      CoveredBy R ⟨k, members, ids⟩ ⟨k, members', ids'⟩

/-- Two groups of one key with the same events and, up to order and repetition, the same members. -/
inductive Group.Same : Group κ γ → Group κ γ → Prop
  | intro {k : κ} {members members' : List γ} {ids : List String}
      (hmembers : ∀ c, c ∈ members' ↔ c ∈ members) : Same ⟨k, members, ids⟩ ⟨k, members', ids⟩

theorem Group.CoveredBy.occurrences_le {R : γ → γ → Prop} {g h : Group κ γ}
    (hgh : g.CoveredBy R h) : g.occurrences ≤ h.occurrences := by
  cases hgh with
  | intro hmembers hids => exact hids

/-- A text that the members of a group have is one of the group that covers it too. -/
theorem Group.CoveredBy.distinct_subset {R : γ → γ → Prop} {g h : Group κ γ}
    (hgh : g.CoveredBy R h) {f : γ → String} (hf : ∀ x y, R x y → f y = f x) :
    g.distinct f ⊆ h.distinct f := by
  cases hgh with
  | intro hmembers _ =>
    intro text htext
    rw [Group.distinct, mem_ascending] at htext ⊢
    obtain ⟨x, hx, rfl⟩ := List.mem_map.1 htext
    obtain ⟨y, hy, hxy⟩ := hmembers x hx
    exact List.mem_map.2 ⟨y, hy, hf x y hxy⟩

/-- A group covers each group that grows to it. -/
theorem Group.GrowsTo.coveredBy {R : γ → γ → Prop} {g h : Group κ γ} (hgh : g.GrowsTo h)
    (hrefl : ∀ x, R x x) : g.CoveredBy R h := by
  cases hgh with
  | intro hmembers hids => exact .intro (fun x hx => ⟨x, hmembers hx, hrefl x⟩) hids

theorem Group.CoveredBy.growsTo {g h : Group κ γ} (hgh : g.CoveredBy Eq h) : g.GrowsTo h := by
  cases hgh with
  | intro hmembers hids =>
    refine .intro (fun x hx => ?_) hids
    obtain ⟨y, hy, rfl⟩ := hmembers x hx
    exact hy

/-- A text that the members of a group have is one of a larger group too. -/
theorem Group.GrowsTo.distinct_subset {g h : Group κ γ} (hgh : g.GrowsTo h) (f : γ → String) :
    g.distinct f ⊆ h.distinct f :=
  (hgh.coveredBy (R := Eq) fun _ => rfl).distinct_subset fun _ _ hxy => congrArg f hxy.symm

theorem Group.Same.occurrences_eq {g h : Group κ γ} (hgh : g.Same h) :
    h.occurrences = g.occurrences := by
  cases hgh with
  | intro hmembers => rfl

theorem Group.Same.distinct_eq {g h : Group κ γ} (hgh : g.Same h) (f : γ → String) :
    h.distinct f = g.distinct f := by
  cases hgh with
  | intro hmembers =>
    refine ascending_congr linearLe_text fun x => ?_
    simp only [List.mem_map, hmembers]

variable [DecidableEq κ] {event : γ → String} {candidates candidates' : List γ}

/-- What a key has among the candidates is covered by what it has among those that cover them. -/
theorem groupOf_coveredBy {R : γ → γ → Prop} {key : γ → κ}
    (h : ∀ x ∈ candidates, ∃ y ∈ candidates', R x y) (hkey : ∀ x y, R x y → key y = key x)
    (hevent : ∀ x y, R x y → event y = event x) (k : κ) :
    (groupOf key event candidates k).CoveredBy R (groupOf key event candidates' k) := by
  have hmembers : ∀ x ∈ membersOf key candidates k, ∃ y ∈ membersOf key candidates' k, R x y := by
    intro x hx
    obtain ⟨hx, hk⟩ := mem_membersOf.1 hx
    obtain ⟨y, hy, hxy⟩ := h x hx
    exact ⟨y, mem_membersOf.2 ⟨hy, (hkey x y hxy).trans hk⟩, hxy⟩
  refine .intro hmembers ?_
  rw [length_ascending, length_ascending]
  refine Finset.card_le_card fun id hid => ?_
  rw [List.mem_toFinset] at hid ⊢
  obtain ⟨x, hx, rfl⟩ := List.mem_map.1 hid
  obtain ⟨y, hy, hxy⟩ := hmembers x hx
  exact List.mem_map.2 ⟨y, hy, hevent x y hxy⟩

theorem groupOf_same (key : γ → κ) (event : γ → String)
    (h : ∀ c, c ∈ candidates' ↔ c ∈ candidates) (k : κ) :
    (groupOf key event candidates k).Same (groupOf key event candidates' k) := by
  have hmembers : ∀ c, c ∈ membersOf key candidates' k ↔ c ∈ membersOf key candidates k := by
    intro c
    rw [mem_membersOf, mem_membersOf, h]
  have hids : ascending textLe ((membersOf key candidates' k).map event) =
      ascending textLe ((membersOf key candidates k).map event) := by
    refine ascending_congr linearLe_text fun x => ?_
    simp only [List.mem_map, hmembers]
  unfold groupOf
  rw [hids]
  exact .intro hmembers

end Groups

/-! ## Rules that look at each event by itself -/

section Each

variable {κ γ : Type} [DecidableEq κ] [BEq κ] [LawfulBEq κ] {le : κ → κ → Bool} {key : γ → κ}
  {event : γ → String} {least : Nat} {raise : Group κ γ → Alert}
  {rule : List CorporateEvent → Outcome γ} {events events' : List CorporateEvent}

/-- Of the alerts that a rule has for events, each stays when events are added, and none changes but
in what is worked out from doubles when the same events stand in other rows. -/
structure GrowsWithEvents (alerts : List CorporateEvent → List Alert) : Prop where
  grows : ∀ {events events'}, events ⊆ events' →
    ∀ a ∈ alerts events, ∃ b ∈ alerts events', a.GrowsTo b
  same : ∀ {events events'}, (∀ e, e ∈ events' ↔ e ∈ events) →
    List.Forall₂ Alert.SameFinding (alerts events) (alerts events')

/-- The rule finds what it finds for each event, and raises alerts for the groups of that. -/
def LooksAtEach (le : κ → κ → Bool) (key : γ → κ) (event : γ → String) (least : Nat)
    (raise : Group κ γ → Alert) (rule : List CorporateEvent → Outcome γ) : Prop :=
  ∃ find : CorporateEvent → List γ, ∀ events,
    (rule events).alerts = alertsOf least raise (groups le key event (events.flatMap find))

omit [DecidableEq κ] [LawfulBEq κ] in
theorem looksAtEach_of_nil (h : ∀ events, (rule events).alerts = []) :
    LooksAtEach le key event least raise rule := by
  refine ⟨fun _ => [], fun events => ?_⟩
  rw [h, List.flatMap_eq_nil_iff.2 fun _ _ => rfl]
  unfold groups grouped
  rw [List.map_nil, ascending_nil]
  rfl

/-- An alert for each key with enough events. -/
theorem mem_alertsOf_groupOf {candidates : List γ} {k : κ} (hk : k ∈ candidates.map key)
    (hn : least ≤ (groupOf key event candidates k).occurrences) :
    raise (groupOf key event candidates k) ∈
      alertsOf least raise (groups le key event candidates) := by
  unfold alertsOf
  rw [groups_eq]
  refine List.mem_map_of_mem (List.mem_filter.2 ⟨?_, decide_eq_true hn⟩)
  exact List.mem_map_of_mem (mem_ascending.2 hk)

/-- Where candidates are covered by others of the same keys and events, each alert stays. -/
theorem exists_growsTo_of_covered {candidates candidates' : List γ} {R : γ → γ → Prop}
    (h : ∀ x ∈ candidates, ∃ y ∈ candidates', R x y) (hkey : ∀ x y, R x y → key y = key x)
    (hevent : ∀ x y, R x y → event y = event x)
    (hraise : ∀ g g', g.CoveredBy R g' → (raise g).GrowsTo (raise g')) :
    ∀ a ∈ alertsOf least raise (groups le key event candidates),
      ∃ b ∈ alertsOf least raise (groups le key event candidates'), a.GrowsTo b := by
  intro a ha
  obtain ⟨k, hk, hn, rfl⟩ := exists_of_mem_alertsOf ha
  have hgroup := groupOf_coveredBy h hkey hevent k
  rw [← occurrences_groupOf] at hn
  refine ⟨_, mem_alertsOf_groupOf ?_ (hn.trans hgroup.occurrences_le), hraise _ _ hgroup⟩
  obtain ⟨x, hx, rfl⟩ := List.mem_map.1 hk
  obtain ⟨y, hy, hxy⟩ := h x hx
  exact List.mem_map.2 ⟨y, hy, hkey x y hxy⟩

/-- More candidates leave each alert in place. -/
theorem exists_growsTo_of_subset {candidates candidates' : List γ}
    (h : candidates ⊆ candidates') (hraise : ∀ g g', g.GrowsTo g' → (raise g).GrowsTo (raise g')) :
    ∀ a ∈ alertsOf least raise (groups le key event candidates),
      ∃ b ∈ alertsOf least raise (groups le key event candidates'), a.GrowsTo b :=
  exists_growsTo_of_covered (fun x hx => ⟨x, h hx, rfl⟩) (fun _ _ hxy => congrArg key hxy.symm)
    (fun _ _ hxy => congrArg event hxy.symm) fun g g' hgroup => hraise g g' hgroup.growsTo

/-- More events leave each alert in place. -/
theorem LooksAtEach.grows (h : LooksAtEach le key event least raise rule)
    (hraise : ∀ g g', g.GrowsTo g' → (raise g).GrowsTo (raise g')) (hsub : events ⊆ events') :
    ∀ a ∈ (rule events).alerts, ∃ b ∈ (rule events').alerts, a.GrowsTo b := by
  obtain ⟨find, hfind⟩ := h
  have hcandidates : events.flatMap find ⊆ events'.flatMap find := by
    intro c hc
    obtain ⟨e, he, hc⟩ := List.mem_flatMap.1 hc
    exact List.mem_flatMap.2 ⟨e, hsub he, hc⟩
  rw [hfind, hfind]
  exact exists_growsTo_of_subset hcandidates hraise

/-- The same events in other rows make the same alerts. -/
theorem LooksAtEach.same (h : LooksAtEach le key event least raise rule) (hle : LinearLe le)
    (hraise : ∀ g g', g.Same g' → (raise g).SameFinding (raise g'))
    (hmem : ∀ e, e ∈ events' ↔ e ∈ events) :
    List.Forall₂ Alert.SameFinding (rule events).alerts (rule events').alerts := by
  obtain ⟨find, hfind⟩ := h
  have hcandidates : ∀ c, c ∈ events'.flatMap find ↔ c ∈ events.flatMap find := by
    intro c
    simp only [List.mem_flatMap, hmem]
  have hsame := groupOf_same key event hcandidates
  have hkeys : ascending le ((events'.flatMap find).map key) =
      ascending le ((events.flatMap find).map key) := by
    refine ascending_congr hle fun k => ?_
    simp only [List.mem_map, hcandidates]
  rw [hfind, hfind]
  unfold alertsOf
  rw [groups_eq, groups_eq, hkeys, List.filter_map, List.filter_map, List.map_map, List.map_map]
  -- the same keys pass the filter, for they count the same events
  have hpass : ∀ k, decide (least ≤ (groupOf key event (events'.flatMap find) k).occurrences) =
      decide (least ≤ (groupOf key event (events.flatMap find) k).occurrences) := by
    intro k
    rw [(hsame k).occurrences_eq]
  simp only [Function.comp_def, hpass]
  rw [List.forall₂_map_left_iff, List.forall₂_map_right_iff, List.forall₂_same]
  exact fun k _ => hraise _ _ (hsame k)

/-- What holds of two groups of one key holds of the alerts of the rule. -/
theorem LooksAtEach.growsWithEvents (h : LooksAtEach le key event least raise rule)
    (hle : LinearLe le) (hgrows : ∀ {g g'}, g.GrowsTo g' → (raise g).GrowsTo (raise g'))
    (hsame : ∀ {g g'}, g.Same g' → (raise g).SameFinding (raise g')) :
    GrowsWithEvents fun events => (rule events).alerts :=
  ⟨fun hsub => h.grows (fun _ _ => hgrows) hsub, fun hmem => h.same hle (fun _ _ => hsame) hmem⟩

end Each

/-! ## What the rules raise for a group -/

section Raise

variable {engine : AlertEngine} {c : Config}

theorem LeakageCandidate.severity_mono (c : Config) {n m : Nat} (h : n ≤ m) :
    (severity c n).rank ≤ (severity c m).rank := by
  -- the engine of any time decides in the same way
  have hengine := severity_eq c ⟨0, by decide⟩
  rw [hengine, hengine]
  exact AlertEngine.severity_mono _ h

/-- An alert that counts more events and concerns more is no less. -/
theorem growsTo_raiseScored {rule : RuleId} {n m : Nat} (hnm : n ≤ m) {less more : Severity}
    (hseverity : less.rank ≤ more.rank) {x y : Float} {s t : Subject}
    (hkey : (engine.raiseScored rule more y m t).groupKey =
      (engine.raiseScored rule less x n s).groupKey)
    (haccounts : s.accounts ⊆ t.accounts) (hinstruments : s.instruments ⊆ t.instruments) :
    (engine.raiseScored rule less x n s).GrowsTo (engine.raiseScored rule more y m t) :=
  ⟨rfl, hkey, ⟨n, m, occurrences?_raiseScored .., occurrences?_raiseScored .., hnm⟩, hseverity,
    haccounts, hinstruments⟩

/-- The members of the evidence have one key, and one value unless it is worked out from doubles. -/
def SameMember (p q : String × Json) : Prop :=
  q.1 = p.1 ∧ (p.1 ∈ Alert.plainEvidence → q.2 = p.2)

theorem sameMember_double {key : String} (h : key ∉ Alert.plainEvidence) (x y : Json) :
    SameMember (key, x) (key, y) :=
  ⟨rfl, fun hkey => absurd hkey h⟩

theorem sameMember_plain (key : String) {x y : Json} (h : y = x) : SameMember (key, x) (key, y) :=
  ⟨rfl, fun _ => h⟩

/-- The same evidence stays the same when the number of occurrences is put in. -/
theorem sameFinding_raiseScored {rule : RuleId} {severity : Severity} {x : Float} {n : Nat}
    {s t : Subject} {ps qs : List (String × Json)} (haccounts : t.accounts = s.accounts)
    (hinstruments : t.instruments = s.instruments) (hs : s.evidence = .ofList ps)
    (ht : t.evidence = .ofList qs) (hmembers : List.Forall₂ SameMember ps qs) :
    (engine.raiseScored rule severity x n s).SameFinding
      (engine.raiseScored rule severity x n t) := by
  refine ⟨rfl, rfl, rfl, haccounts, hinstruments, ?_, fun key hkey => ?_⟩
  · rw [occurrences?_raiseScored, occurrences?_raiseScored]
  · unfold AlertEngine.raiseScored
    rw [Dict.get?_insert, Dict.get?_insert, hs, ht, Dict.get?_ofList_congr hmembers hkey]

theorem PreAnnouncementCandidate.growsTo_alert
    {g h : Group (String × String) PreAnnouncementCandidate} (hgh : g.GrowsTo h) :
    (alert engine g).GrowsTo (alert engine h) := by
  cases hgh with
  | intro _ hids =>
    exact growsTo_raiseScored hids (engine.severity_mono hids) rfl (List.Subset.refl _)
      (List.Subset.refl _)

theorem PreAnnouncementCandidate.sameFinding_alert
    {g h : Group (String × String) PreAnnouncementCandidate} (hgh : g.Same h) :
    (alert engine g).SameFinding (alert engine h) := by
  cases hgh with
  | intro _ =>
    refine sameFinding_raiseScored rfl rfl rfl rfl ?_
    exact .cons (sameMember_double (by decide) ..) (.cons (sameMember_double (by decide) ..)
      (.cons (sameMember_double (by decide) ..) (.cons (sameMember_plain _ rfl) .nil)))

/-- Candidates with more related accounts make an alert that concerns more. -/
theorem NetworkCandidate.growsTo_alert_of_coveredBy {R : NetworkCandidate → NetworkCandidate → Prop}
    (hinstrument : ∀ x y, R x y → y.instrument = x.instrument)
    (hrelated : ∀ x y, R x y → x.related ⊆ y.related) {g h : Group String NetworkCandidate}
    (hgh : g.CoveredBy R h) : (alert engine g).GrowsTo (alert engine h) := by
  have hinstruments := hgh.distinct_subset hinstrument
  cases hgh with
  | intro hmembers hids =>
    refine growsTo_raiseScored hids (engine.severity_mono hids) rfl ?_ hinstruments
    refine List.cons_subset_cons _ fun account ha => ?_
    obtain ⟨x, hx, ha⟩ := List.mem_flatMap.1 (mem_ascending.1 ha)
    obtain ⟨y, hy, hxy⟩ := hmembers x hx
    exact mem_ascending.2 (List.mem_flatMap.2 ⟨y, hy, hrelated x y hxy ha⟩)

theorem NetworkCandidate.growsTo_alert {g h : Group String NetworkCandidate} (hgh : g.GrowsTo h) :
    (alert engine g).GrowsTo (alert engine h) := by
  refine growsTo_alert_of_coveredBy ?_ ?_ (hgh.coveredBy (R := Eq) fun _ => rfl)
  · exact fun _ _ hxy => congrArg (·.instrument) hxy.symm
  · exact fun _ _ hxy => hxy ▸ List.Subset.refl _

theorem NetworkCandidate.sameFinding_alert {g h : Group String NetworkCandidate}
    (hgh : g.Same h) : (alert engine g).SameFinding (alert engine h) := by
  have hinstruments := hgh.distinct_eq (·.instrument)
  cases hgh with
  | @intro account members members' _ hmembers =>
    have hrelated : ascending textLe (members'.flatMap (·.related)) =
        ascending textLe (members.flatMap (·.related)) := by
      refine ascending_congr linearLe_text fun related => ?_
      simp only [List.mem_flatMap, hmembers]
    refine sameFinding_raiseScored (congrArg (account :: ·) hrelated) hinstruments rfl rfl ?_
    refine .cons (sameMember_double (by decide) ..) (.cons (sameMember_plain _ ?_)
      (.cons (sameMember_plain _ ?_) .nil))
    · exact congrArg (fun xs : List String => Json.ofNat xs.length) hinstruments
    · exact congrArg Json.strings hrelated

theorem ProfitCandidate.growsTo_alert {g h : Group String ProfitCandidate} (hgh : g.GrowsTo h) :
    (alert engine g).GrowsTo (alert engine h) := by
  have hinstruments := hgh.distinct_subset (·.instrument)
  cases hgh with
  | intro _ hids =>
    exact growsTo_raiseScored hids (engine.severity_mono hids) rfl (List.Subset.refl _)
      hinstruments

theorem ProfitCandidate.sameFinding_alert {g h : Group String ProfitCandidate} (hgh : g.Same h) :
    (alert engine g).SameFinding (alert engine h) := by
  have hinstruments := hgh.distinct_eq (·.instrument)
  cases hgh with
  | intro _ =>
    refine sameFinding_raiseScored rfl hinstruments rfl rfl ?_
    refine .cons (sameMember_double (by decide) ..) (.cons (sameMember_double (by decide) ..)
      (.cons (sameMember_double (by decide) ..) (.cons (sameMember_plain _ ?_) .nil)))
    exact congrArg (fun xs : List String => Json.ofNat xs.length) hinstruments

/-- Whom and what the alert concerns is the instrument alone. -/
theorem LeakageCandidate.growsTo_alert_of_coveredBy {R : LeakageCandidate → LeakageCandidate → Prop}
    {g h : Group String LeakageCandidate} (hgh : g.CoveredBy R h) :
    (alert c engine g).GrowsTo (alert c engine h) := by
  cases hgh with
  | intro _ hids =>
    exact growsTo_raiseScored hids (severity_mono c hids) rfl (List.Subset.refl _)
      (List.Subset.refl _)

theorem LeakageCandidate.growsTo_alert {g h : Group String LeakageCandidate} (hgh : g.GrowsTo h) :
    (alert c engine g).GrowsTo (alert c engine h) :=
  growsTo_alert_of_coveredBy (hgh.coveredBy (R := Eq) fun _ => rfl)

theorem LeakageCandidate.sameFinding_alert {g h : Group String LeakageCandidate} (hgh : g.Same h) :
    (alert c engine g).SameFinding (alert c engine h) := by
  have htop := hgh.distinct_eq (·.topAccount)
  cases hgh with
  | intro _ =>
    refine sameFinding_raiseScored rfl rfl rfl rfl ?_
    exact .cons (sameMember_double (by decide) ..) (.cons (sameMember_double (by decide) ..)
      (.cons (sameMember_plain _ (congrArg Json.strings htop)) .nil))

end Raise

/-! ## The rules one by one -/

section Rules

variable {trades : List Trade} {accounts : List Account} {c : Config} {engine : AlertEngine}

theorem looksAtEach_preAnnouncement :
    LooksAtEach pairLe PreAnnouncementCandidate.key (·.event) c.minSuspiciousEvents
      (PreAnnouncementCandidate.alert engine) (preAnnouncement trades · c engine) := by
  cases h : Window.length? Window.days c.preAnnouncementWindowDays with
  | none => exact looksAtEach_of_nil fun events => (preAnnouncement_of_none h).2
  | some length => exact ⟨_, fun events => congrArg Outcome.alerts (preAnnouncement_eq h)⟩

theorem looksAtEach_network :
    LooksAtEach textLe (·.account) (·.event) c.minSuspiciousEvents
      (NetworkCandidate.alert engine) (network trades accounts · c engine) := by
  cases h : Window.length? Window.days c.networkWindowDays with
  | none => exact looksAtEach_of_nil fun events => (network_of_none h).2
  | some length => exact ⟨_, fun events => congrArg Outcome.alerts (network_eq h)⟩

theorem looksAtEach_abnormalProfit :
    LooksAtEach textLe (·.account) (·.event) c.minSuspiciousEvents
      (ProfitCandidate.alert engine) (abnormalProfit trades · c engine) := by
  cases h : Window.length? Window.days c.preAnnouncementWindowDays with
  | none => exact looksAtEach_of_nil fun events => (abnormalProfit_of_none h).2
  | some length => exact ⟨_, fun events => congrArg Outcome.alerts (abnormalProfit_eq h)⟩

theorem looksAtEach_informationLeakage :
    LooksAtEach textLe (·.instrument) (·.event) c.minSuspiciousEvents
      (LeakageCandidate.alert c engine) (informationLeakage trades · c engine) := by
  cases h : Window.length? Window.hours c.leakageWindowHours with
  | none => exact looksAtEach_of_nil fun events => (informationLeakage_of_none h).2
  | some length =>
    by_cases htrades : trades = []
    · subst htrades
      exact looksAtEach_of_nil fun events => rfl
    · exact ⟨_, fun events => congrArg Outcome.alerts (informationLeakage_eq_flatMap htrades h)⟩

end Rules

end Rule

/-! ## A whole evaluation -/

namespace Findings

theorem growsWithEvents_ofInputs (trades : List Trade) (accounts : List Account) (c : Config)
    (engine : AlertEngine) (source : EventSource) (rule : RuleId) :
    Rule.GrowsWithEvents fun events =>
      (ofInputs ⟨trades, accounts, events, source⟩ c engine).alertsBy rule := by
  cases rule with
  | preAnnouncementTrading =>
    exact Rule.looksAtEach_preAnnouncement.growsWithEvents linearLe_pair
      Rule.PreAnnouncementCandidate.growsTo_alert Rule.PreAnnouncementCandidate.sameFinding_alert
  | networkTrading =>
    exact Rule.looksAtEach_network.growsWithEvents linearLe_text
      Rule.NetworkCandidate.growsTo_alert Rule.NetworkCandidate.sameFinding_alert
  | abnormalProfit =>
    exact Rule.looksAtEach_abnormalProfit.growsWithEvents linearLe_text
      Rule.ProfitCandidate.growsTo_alert Rule.ProfitCandidate.sameFinding_alert
  | informationLeakage =>
    exact Rule.looksAtEach_informationLeakage.growsWithEvents linearLe_text
      Rule.LeakageCandidate.growsTo_alert Rule.LeakageCandidate.sameFinding_alert

/-- More events leave every alert of a rule in place, counting and concerning no less; other rows
with the same events change no alert but in what is worked out from doubles. -/
theorem alerts_grow_with_events (trades : List Trade) (accounts : List Account) (c : Config)
    (engine : AlertEngine) (source : EventSource) (rule : RuleId)
    {events events' : List CorporateEvent} (hsub : events ⊆ events') :
    let alerts := fun events => (ofInputs ⟨trades, accounts, events, source⟩ c engine).alertsBy rule
    (∀ a ∈ alerts events, ∃ b ∈ alerts events', a.GrowsTo b) ∧
      (events' ⊆ events → List.Forall₂ Alert.SameFinding (alerts events) (alerts events')) := by
  have hrule := growsWithEvents_ofInputs trades accounts c engine source rule
  refine ⟨hrule.grows hsub, fun hsub' => ?_⟩
  exact hrule.same fun e => ⟨fun he => hsub' he, fun he => hsub he⟩

/-! ### An event that is listed twice -/

def spinOff : CorporateEvent :=
  ⟨"E7", "ACME", "spin_off", ⟨1700481600000000000, by decide⟩, none⟩

/-- A purchase one hour ahead of the event. -/
def hourAhead : Trade :=
  ⟨"T7", ⟨1700478000000000000, by decide⟩, "ACME", "A7", "S7", 10.0, 2.0, 20.0⟩

theorem alerts_grow_with_events_spinOff :
    let c : Config := { minSuspiciousEvents := 1, leakageMinAccounts := 1 }
    let alerts := fun events => (ofInputs ⟨[hourAhead], [], events, .loaded⟩ c
      (.ofConfig c spinOff.announced)).alertsBy .informationLeakage
    [spinOff] ⊆ [spinOff, spinOff] ∧ (alerts [spinOff]).length = 1 ∧
      (∀ a ∈ alerts [spinOff], ∃ b ∈ alerts [spinOff, spinOff], a.GrowsTo b) ∧
      List.Forall₂ Alert.SameFinding (alerts [spinOff]) (alerts [spinOff, spinOff]) := by
  intro c alerts
  have hsub : [spinOff] ⊆ [spinOff, spinOff] := by decide
  have hgrow := alerts_grow_with_events [hourAhead] [] c (.ofConfig c spinOff.announced) .loaded
    .informationLeakage hsub
  refine ⟨hsub, by decide +kernel, hgrow.1, hgrow.2 (by decide)⟩

end Findings

end TradeWatch

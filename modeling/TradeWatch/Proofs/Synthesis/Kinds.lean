/-
What made-up events depend on. Of the trades only the first and the last trading day of each
instrument matter, and of the stream only the kinds. The kinds are those of one stream, which the
seed alone fixes: every event takes the next number that is kept, and no such number is passed over
between instruments or from one making of events to the next.
-/
import TradeWatch.Proofs.Random.Stream
import TradeWatch.Proofs.Synthesis.Weeks

namespace TradeWatch.Synthesis

open Time (Instant nanosPerDay)
open TradeWatch.Random (Generator)

/-! ## Kinds from a stream -/

/-- The kinds that the first numbers of a stream stand for, one for each number that is kept. -/
def kindsOf (g : Generator) (n : ℕ) : List String :=
  (g.kept eventKinds.length n).map fun i => (eventKinds[i]?).getD ""

section Kinds

variable {g g' : Generator}

theorem kindsOf_add (g : Generator) (n m : ℕ) :
    kindsOf g (n + m) = kindsOf g n ++ kindsOf (g.skip n) m := by
  unfold kindsOf
  rw [Generator.kept_add, List.map_append]

theorem kindsOf_isPrefix (g : Generator) {n m : ℕ} (h : n ≤ m) : kindsOf g n <+: kindsOf g m :=
  (Generator.kept_isPrefix _ g h).map _

theorem mem_eventKinds_of_mem_kindsOf {n : ℕ} {kind : String} (h : kind ∈ kindsOf g n) :
    kind ∈ eventKinds := by
  obtain ⟨i, hi, rfl⟩ := List.mem_map.1 h
  have hlt := Generator.lt_of_mem_kept (by decide) hi
  rw [List.getElem?_eq_getElem hlt]
  exact List.getElem_mem hlt

-- three of the eight numbers are not kept
example : kindsOf (.ofSeed 42) 8 =
    ["guidance_revision", "acquisition", "earnings", "acquisition", "dividend_change"] := by
  decide +kernel

/-- An event goes on in the stream up to the next number that is kept. -/
theorem exists_drawKind_eq (h : g.Ends eventKinds.length) :
    ∃ n kind, drawKind g = some (kind, g.skip n) ∧ kindsOf g n = [kind] := by
  obtain ⟨n, i, hindex, hkept⟩ := Generator.exists_index_eq h
  refine ⟨n, (eventKinds[i]?).getD "", ?_, ?_⟩
  · change some ((eventKinds[(g.index eventKinds.length).1]?).getD "",
      (g.index eventKinds.length).2) = _
    rw [hindex]
  · rw [kindsOf, hkept]
    rfl

/-- There are kinds for any number of events. -/
theorem exists_length_kindsOf (h : g.Lasts eventKinds.length) (count : ℕ) :
    ∃ n, (kindsOf g n).length = count := by
  induction count generalizing g with
  | zero => exact ⟨0, rfl⟩
  | succ count ih =>
    obtain ⟨n, kind, -, hkind⟩ := exists_drawKind_eq h.ends
    obtain ⟨m, hm⟩ := ih (h.skip n)
    exact ⟨n + m, by rw [kindsOf_add, hkind, List.length_append, hm, Nat.add_comm]; rfl⟩

end Kinds

/-! ## The kinds of the events -/

/-- The events have the kinds of the numbers by which the generator has gone on. -/
def Follows (g g' : Generator) (events : List CorporateEvent) : Prop :=
  ∃ n, g' = g.skip n ∧ events.map (·.kind) = kindsOf g n

theorem follows_nil (g : Generator) : Follows g g [] :=
  ⟨0, rfl, rfl⟩

theorem Follows.append {g g1 g2 : Generator} {events events' : List CorporateEvent}
    (h : Follows g g1 events) (h' : Follows g1 g2 events') : Follows g g2 (events ++ events') := by
  obtain ⟨n, rfl, hn⟩ := h
  obtain ⟨m, rfl, hm⟩ := h'
  refine ⟨n + m, (Generator.skip_add n m g).symm, ?_⟩
  rw [List.map_append, hn, hm, kindsOf_add]

theorem Follows.lasts {g g' : Generator} {events : List CorporateEvent}
    (h : Follows g g' events) {bound : ℕ} (hg : g.Lasts bound) : g'.Lasts bound := by
  obtain ⟨n, rfl, -⟩ := h
  exact hg.skip n

theorem follows_of_announcement {instrument : String} {number : UInt32} {day : ℤ}
    {g g' : Generator} {e : CorporateEvent} (hg : g.Lasts eventKinds.length)
    (h : announcement instrument number day g = some (e, g')) : Follows g g' [e] := by
  obtain ⟨n, kind, hdraw, hkinds⟩ := exists_drawKind_eq hg.ends
  have hdrawn := hdraw.symm.trans (kind_of_announcement h)
  obtain ⟨rfl, rfl⟩ : kind = e.kind ∧ g.skip n = g' := by
    simpa only [Option.some.injEq, Prod.mk.injEq] using hdrawn
  exact ⟨n, rfl, hkinds.symm⟩

theorem Weeks.follows {instrument : String} {last : ℤ} {number : UInt32} {day : ℤ}
    {g g' : Generator} {events : List CorporateEvent}
    (h : Weeks instrument last number day g events g') (hg : g.Lasts eventKinds.length) :
    Follows g g' events := by
  induction h with
  | done g past => exact follows_nil g
  | week within made step rest ih =>
    have hfirst := follows_of_announcement hg made
    exact hfirst.append (ih (hfirst.lasts hg))

/-- Lists of events that follow the stream one after the other follow it together. -/
theorem follows_of_mapM {α : Type} {f : α → Making (List CorporateEvent)} {xs : List α}
    (hf : ∀ x g events g', g.Lasts eventKinds.length → f x g = some (events, g') →
      Follows g g' events)
    {g g' : Generator} {made : List (List CorporateEvent)} (hg : g.Lasts eventKinds.length)
    (h : xs.mapM f g = some (made, g')) : Follows g g' made.flatten := by
  induction xs generalizing g made with
  | nil =>
    cases h
    exact follows_nil _
  | cons x xs ih =>
    rw [List.mapM_cons] at h
    obtain ⟨events, g1, hevents, hrest⟩ := bind_eq_some_iff.1 h
    obtain ⟨rest, g2, hxs, hmade⟩ := bind_eq_some_iff.1 hrest
    cases hmade
    have hfirst := hf x g events g1 hg hevents
    exact hfirst.append (ih (hfirst.lasts hg) hxs)

theorem follows_of_ofSpan (s : String × ℤ × ℤ) {g g' : Generator} {events : List CorporateEvent}
    (hg : g.Lasts eventKinds.length) (h : ofSpan s g = some (events, g')) :
    Follows g g' events := by
  rw [ofSpan] at h
  obtain ⟨start, g1, hstart, hweekly⟩ := bind_eq_some_iff.1 h
  obtain ⟨-, rfl⟩ := liftM_eq_some_iff.1 hstart
  exact (weeks_of_weekly hweekly).follows hg

/-- The kinds of the events for some trades are the next ones of the stream. -/
theorem follows_of_events? (trades : List Trade) {g g' : Generator}
    {events : List CorporateEvent} (hg : g.Lasts eventKinds.length)
    (h : events? trades g = some (events, g')) : Follows g g' events := by
  rw [events?_eq] at h
  obtain ⟨made, g1, hmade, hevents⟩ := bind_eq_some_iff.1 h
  cases hevents
  exact follows_of_mapM (fun s _ _ _ => follows_of_ofSpan s) hg hmade

/-! ## Events but for their kinds -/

def withoutKind (e : CorporateEvent) : CorporateEvent :=
  { e with kind := "" }

/-- Each instrument trades on the same first and the same last day. -/
def SameSpans (trades trades' : List Trade) : Prop :=
  ∀ instrument first last, Span trades instrument first last ↔ Span trades' instrument first last

theorem sameSpans_iff {trades trades' : List Trade} : SameSpans trades trades' ↔
    (∀ i ∈ trades.map (·.instrument) ++ trades'.map (·.instrument),
      (i ∈ trades.map (·.instrument) ∧ i ∈ trades'.map (·.instrument)) ∧
        spanOf trades i = spanOf trades' i) := by
  unfold SameSpans
  simp only [span_iff, List.mem_append]
  constructor
  · rintro h i (hi | hi)
    · obtain ⟨hi', hspan⟩ := (h i _ _).1 ⟨hi, rfl⟩
      exact ⟨⟨hi, hi'⟩, hspan.symm⟩
    · obtain ⟨hi', hspan⟩ := (h i _ _).2 ⟨hi, rfl⟩
      exact ⟨⟨hi', hi⟩, hspan⟩
  · intro h i first last
    constructor
    · rintro ⟨hi, hspan⟩
      exact ⟨(h i (.inl hi)).1.2, (h i (.inl hi)).2 ▸ hspan⟩
    · rintro ⟨hi, hspan⟩
      exact ⟨(h i (.inr hi)).1.1, (h i (.inr hi)).2 ▸ hspan⟩

instance (trades trades' : List Trade) : Decidable (SameSpans trades trades') :=
  decidable_of_iff _ sameSpans_iff.symm

theorem SameSpans.spans_eq {trades trades' : List Trade} (h : SameSpans trades trades') :
    spans trades = spans trades' := by
  have hsame := sameSpans_iff.1 h
  have hinstruments : ascending textLe (trades.map (·.instrument)) =
      ascending textLe (trades'.map (·.instrument)) :=
    ascending_congr linearLe_text fun i => ⟨fun hi => (hsame i (List.mem_append_left _ hi)).1.2,
      fun hi => (hsame i (List.mem_append_right _ hi)).1.1⟩
  unfold spans
  rw [← hinstruments]
  refine List.map_congr_left fun i hi => ?_
  rw [(hsame i (List.mem_append_left _ (mem_ascending.1 hi))).2]

theorem Announces.withoutKind_eq {instrument : String} {number : ℕ} {day : ℤ}
    {e e' : CorporateEvent} (h : Announces instrument number day e)
    (h' : Announces instrument number day e') : withoutKind e = withoutKind e' := by
  obtain ⟨t, ht, hnanos⟩ := h.effective
  obtain ⟨t', ht', hnanos'⟩ := h'.effective
  have hlater : t = t' := Instant.eq_of_nanos_eq (hnanos.trans hnanos'.symm)
  have hannounced : e.announced = e'.announced :=
    Instant.eq_of_nanos_eq (h.announced.trans h'.announced.symm)
  unfold withoutKind
  rw [h.id, h'.id, h.instrument, h'.instrument, hannounced, ht, ht', hlater]

theorem Scheduled.withoutKind_eq {instrument : String} {first last : ℤ}
    {events events' : List CorporateEvent} (h : Scheduled instrument first last events)
    (h' : Scheduled instrument first last events') :
    events.map withoutKind = events'.map withoutKind := by
  have hlength : events.length = events'.length := by
    have hcount := h.count
    have hcount' := h'.count
    omega
  refine List.ext_getElem (by simpa using hlength) fun i hi hi' => ?_
  rw [List.getElem_map, List.getElem_map]
  exact (h.each i (by simpa using hi)).withoutKind_eq (h'.each i (by simpa using hi'))

/-- What the members on the left decide is the same for two lists beside them. -/
theorem map_eq_of_forall₂ {α β γ : Type} {R : α → β → Prop} {f : β → γ}
    (hf : ∀ x y y', R x y → R x y' → f y = f y') {xs : List α} {ys ys' : List β}
    (h : List.Forall₂ R xs ys) (h' : List.Forall₂ R xs ys') : ys.map f = ys'.map f := by
  induction h generalizing ys' with
  | nil =>
    cases h'
    rfl
  | cons hxy _ ih =>
    cases h' with
    | cons hxy' hrest => rw [List.map_cons, List.map_cons, hf _ _ _ hxy hxy', ih hrest]

/-- The stream shows in the kinds only. -/
theorem withoutKind_events? (trades : List Trade) (g g' : Generator) :
    (events? trades g).map (fun made => made.1.map withoutKind) =
      (events? trades g').map fun made => made.1.map withoutKind := by
  have hnone : events? trades g = none ↔ events? trades g' = none :=
    (events?_eq_none_iff trades g).trans (events?_eq_none_iff trades g').symm
  rcases h : events? trades g with _ | ⟨events, g1⟩
  · rw [hnone.1 h]
  rcases h' : events? trades g' with _ | ⟨events', g1'⟩
  · rw [hnone.2 h'] at h
    cases h
  obtain ⟨made, rfl, hmade⟩ := exists_scheduled h
  obtain ⟨made', rfl, hmade'⟩ := exists_scheduled h'
  have hsame : made.map (·.map withoutKind) = made'.map (·.map withoutKind) := by
    refine map_eq_of_forall₂ ?_ hmade hmade'
    -- the span of an instrument, and with it the schedule, leaves no choice but the kinds
    rintro instrument events events' ⟨first, last, hspan, hs⟩ ⟨first', last', hspan', hs'⟩
    obtain ⟨rfl, rfl⟩ := hspan.unique hspan'
    exact hs.withoutKind_eq hs'
  simp only [Option.map_some, List.map_flatten, hsame]

/-! ## What the events depend on -/

/-- The kinds of all events made with a seed, by one making after the other, are those of one
stream. -/
structure OneStream (seed : UInt64) : Prop where
  rounds : ∀ (histories : List (List Trade)) (made : List (List CorporateEvent)) (g : Generator),
    histories.mapM events? (.ofSeed seed) = some (made, g) →
      ∃ n, g = (Generator.ofSeed seed).skip n ∧
        made.flatten.map (·.kind) = kindsOf (.ofSeed seed) n
  grows : ∀ n m, n ≤ m → kindsOf (.ofSeed seed) n <+: kindsOf (.ofSeed seed) m
  endless : ∀ count, ∃ n, (kindsOf (.ofSeed seed) n).length = count
  comparable : ∀ (trades trades' : List Trade) (events events' : List CorporateEvent)
    (g g' : Generator), events? trades (.ofSeed seed) = some (events, g) →
      events? trades' (.ofSeed seed) = some (events', g') →
        events.map (·.kind) <+: events'.map (·.kind) ∨ events'.map (·.kind) <+: events.map (·.kind)

theorem oneStream_of_ends {seed : UInt64} (h : (Generator.ofSeed seed).Ends eventKinds.length) :
    OneStream seed := by
  have hlasts := Generator.lasts_ofSeed h
  refine {
    rounds := fun histories made g hmade => ?_
    grows := fun n m hle => kindsOf_isPrefix _ hle
    endless := exists_length_kindsOf hlasts
    comparable := fun trades trades' events events' g g' hevents hevents' => ?_ }
  · exact follows_of_mapM (fun trades _ _ _ => follows_of_events? trades) hlasts hmade
  · obtain ⟨n, -, hn⟩ := follows_of_events? trades hlasts hevents
    obtain ⟨m, -, hm⟩ := follows_of_events? trades' hlasts hevents'
    rw [hn, hm]
    exact (le_total n m).imp (kindsOf_isPrefix _) (kindsOf_isPrefix _)

/-- Trades with the same spans have the same events, other draws change nothing but the kinds, and
if drawing ends at all for a seed, the kinds are those of its one stream. -/
theorem events_depend :
    (∀ trades trades', SameSpans trades trades' → events? trades = events? trades') ∧
      (∀ trades g g', (events? trades g).map (fun made => made.1.map withoutKind) =
        (events? trades g').map fun made => made.1.map withoutKind) ∧
      ∀ seed, (Generator.ofSeed seed).Ends eventKinds.length → OneStream seed := by
  refine ⟨fun trades trades' h => ?_, withoutKind_events?, fun seed => oneStream_of_ends⟩
  rw [events?_eq, events?_eq, h.spans_eq]

/-- The spans of the sample history from other trades. -/
def otherHistory : List Trade := [
  tradeAt "ACME" 5, tradeAt "" 90, tradeAt "ACME-0001" 40, tradeAt "ACME-0001" 205,
  tradeAt "ACME" 300, tradeAt "ACME" 481, tradeAt "" 75]

theorem events_depend_otherHistory :
    SameSpans sampleHistory otherHistory ∧ events? sampleHistory = events? otherHistory ∧
      (Generator.ofSeed 7).Ends eventKinds.length ∧ OneStream 7 := by
  have hsame : SameSpans sampleHistory otherHistory := by decide +kernel
  have hends : (Generator.ofSeed 7).Ends eventKinds.length := ⟨0, by decide +kernel⟩
  exact ⟨hsame, events_depend.1 _ _ hsame, hends, events_depend.2.2 7 hends⟩

end TradeWatch.Synthesis

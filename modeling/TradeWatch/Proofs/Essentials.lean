/-
What of the records reaches a rule. Of a trade the rules read when, what, by whom, how much and at
which price was bought; of an account its id and relations; of an event its id, its instrument and
when it was announced. Nothing is ordered, grouped or compared by the rest, so the rules find the
same in records that had the rest wiped out, and the same with settings that no rule reads.
-/
import TradeWatch.Proofs.Shortcuts
import TradeWatch.Proofs.Scoring

namespace TradeWatch

/-! ## Records without the rest -/

/-- The trade as far as the rules read it. -/
def Trade.essence (t : Trade) : Trade :=
  { t with id := "", seller := "", value := 0.0 }

/-- The account as far as the rules read it. -/
def Account.essence (a : Account) : Account :=
  { a with owner := none, firm := none }

/-- The event as far as the rules read it. -/
def CorporateEvent.essence (e : CorporateEvent) : CorporateEvent :=
  { e with kind := "", effective := none }

/-! ## Windows and sums over them -/

theorem Rule.keepsPurchases_essence : KeepsPurchases Trade.essence :=
  ⟨fun _ => rfl, fun _ => rfl, fun _ => rfl, fun _ => rfl⟩

section Trades

variable (trades : List Trade)

theorem TradeIndex.window_essence (instrument : String) (start stop : Time.Instant) :
    (ofTrades (trades.map Trade.essence)).window instrument start stop =
      ((ofTrades trades).window instrument start stop).map Trade.essence :=
  window_map (fun _ _ _ _ => rfl) fun _ _ => rfl

theorem TradeIndex.windowInclusive_essence (instrument : String) (start stop : Time.Instant) :
    (ofTrades (trades.map Trade.essence)).windowInclusive instrument start stop =
      ((ofTrades trades).windowInclusive instrument start stop).map Trade.essence :=
  windowInclusive_map (fun _ _ _ _ => rfl) fun _ _ => rfl

theorem VolumeBaseline.ofHistory_essence :
    ofHistory (trades.map Trade.essence) = ofHistory trades :=
  ofHistory_map (fun _ => rfl) (fun _ => rfl) fun t _ => (Int.add_zero t.time.day).symm

namespace Rule

/-! ## The candidates of one event -/

theorem PreAnnouncementCandidate.ofEvent_essence (baselines : List (String × VolumeBaseline))
    (multiplier : Float) (length : Int) (event : CorporateEvent) :
    ofEvent (.ofTrades (trades.map Trade.essence)) baselines multiplier length event.essence =
      ofEvent (.ofTrades trades) baselines multiplier length event := by
  unfold ofEvent
  simp only [TradeIndex.window_essence, keepsPurchases_essence.buyActivity_map]
  rfl

theorem NetworkCandidate.relations_essence (accounts : List Account) :
    relations (accounts.map Account.essence) = relations accounts := by
  funext id
  have hlisted : ((accounts.map Account.essence).filter fun a => a.id == id && !a.related.isEmpty) =
      (accounts.filter fun a => a.id == id && !a.related.isEmpty).map Account.essence :=
    List.filter_map
  unfold relations
  rw [hlisted, List.getLast?_map]
  cases (accounts.filter fun a => a.id == id && !a.related.isEmpty).getLast? with
  | none => rfl
  | some a => rfl

theorem NetworkCandidate.ofEvent_essence (accounts : List Account) (length : Int)
    (event : CorporateEvent) :
    ofEvent (.ofTrades (trades.map Trade.essence)) (accounts.map Account.essence) length
        event.essence =
      ofEvent (.ofTrades trades) accounts length event := by
  have hbuyer : ofBuyer? (accounts.map Account.essence) event.essence =
      ofBuyer? accounts event := by
    funext active account
    unfold ofBuyer?
    rw [relations_essence]
    rfl
  rw [ofEvent_eq_filterMap, ofEvent_eq_filterMap]
  simp only [TradeIndex.window_essence, keepsPurchases_essence.buyers_map, hbuyer]
  rfl

theorem ProfitCandidate.ofEvent_essence (threshold : Float) (length : Int)
    (event : CorporateEvent) :
    ofEvent (.ofTrades (trades.map Trade.essence)) threshold length event.essence =
      ofEvent (.ofTrades trades) threshold length event := by
  unfold ofEvent
  simp only [TradeIndex.window_essence, TradeIndex.windowInclusive_essence,
    keepsPurchases_essence.buyActivity_map, List.isEmpty_map, List.map_map]
  rfl

theorem LeakageCandidate.ofEvent?_essence (leastAccounts : Nat) (length : Int)
    (event : CorporateEvent) :
    ofEvent? (.ofTrades (trades.map Trade.essence)) leastAccounts length event.essence =
      ofEvent? (.ofTrades trades) leastAccounts length event := by
  unfold ofEvent?
  simp only [TradeIndex.window_essence, keepsPurchases_essence.buyActivity_map, List.map_map]
  rfl

end Rule

end Trades

/-! ## The rules -/

namespace Rule

variable (trades : List Trade) (accounts : List Account) (events : List CorporateEvent)
  (c : Config) (engine : AlertEngine)

theorem preAnnouncement_essence :
    preAnnouncement (trades.map Trade.essence) (events.map CorporateEvent.essence) c engine =
      preAnnouncement trades events c engine := by
  unfold preAnnouncement
  simp only [List.isEmpty_map, List.flatMap_map, VolumeBaseline.ofHistory_essence,
    PreAnnouncementCandidate.ofEvent_essence]

theorem network_essence :
    network (trades.map Trade.essence) (accounts.map Account.essence)
        (events.map CorporateEvent.essence) c engine =
      network trades accounts events c engine := by
  unfold network
  simp only [List.isEmpty_map, List.flatMap_map, List.all_map, NetworkCandidate.ofEvent_essence]
  rfl

theorem abnormalProfit_essence :
    abnormalProfit (trades.map Trade.essence) (events.map CorporateEvent.essence) c engine =
      abnormalProfit trades events c engine := by
  unfold abnormalProfit
  simp only [List.isEmpty_map, List.flatMap_map, ProfitCandidate.ofEvent_essence]

theorem informationLeakage_essence :
    informationLeakage (trades.map Trade.essence) (events.map CorporateEvent.essence) c engine =
      informationLeakage trades events c engine := by
  unfold informationLeakage
  simp only [List.isEmpty_map, List.filterMap_map, Function.comp_def,
    LeakageCandidate.ofEvent?_essence]

end Rule

/-! ## Inputs and settings -/

/-- The settings differ at most in those that no rule reads. -/
def Config.SameEffect (c c' : Config) : Prop :=
  c' = { c with
    abnormalReturnThreshold := c'.abnormalReturnThreshold
    severityLowOccurrences := c'.severityLowOccurrences
    syntheticEventSeed := c'.syntheticEventSeed }

/-- Inputs that differ at most in what no rule reads. -/
structure Inputs.SameEssence (inputs inputs' : Inputs) : Prop where
  trades : inputs.trades.map Trade.essence = inputs'.trades.map Trade.essence
  accounts : inputs.accounts.map Account.essence = inputs'.accounts.map Account.essence
  events : inputs.events.map CorporateEvent.essence = inputs'.events.map CorporateEvent.essence

namespace Findings

theorem ofInputs_essence (inputs : Inputs) (c : Config) (engine : AlertEngine) :
    ofInputs ⟨inputs.trades.map Trade.essence, inputs.accounts.map Account.essence,
        inputs.events.map CorporateEvent.essence, inputs.source⟩ c engine =
      ofInputs inputs c engine := by
  unfold ofInputs
  simp only [Rule.preAnnouncement_essence, Rule.network_essence, Rule.abnormalProfit_essence,
    Rule.informationLeakage_essence]

theorem ofInputs_congr {inputs inputs' : Inputs} (h : inputs.SameEssence inputs') {c c' : Config}
    (hc : c.SameEffect c') (time : Time.Instant) :
    ofInputs inputs c (.ofConfig c time) = ofInputs inputs' c' (.ofConfig c' time) := by
  -- the rules and the engine take none of the other settings
  have hsettings :
      ofInputs inputs' c (.ofConfig c time) = ofInputs inputs' c' (.ofConfig c' time) := by
    rw [hc]
    rfl
  rw [← hsettings, ← ofInputs_essence inputs, ← ofInputs_essence inputs', h.trades, h.accounts,
    h.events]
  rfl

end Findings

end TradeWatch

/-
How far the order of the trade history shows in what the rules find. Sums of doubles depend on the
order of their terms, so each rule is blind to the order as far as its sums are: the network rule
sums nothing over trades and depends on who bought what and when only; profits and leakage sum in
order of time and depend on the order of trades of one instrument at one moment; the usual volume
sums each day in the order of the history. Whatever keeps these orders changes no bit of the
outcomes.
-/
import TradeWatch.Proofs.Shortcuts

namespace TradeWatch

/-- What was bought, when, and by whom. -/
def Trade.purchase (t : Trade) : String × Time.Instant × String :=
  (t.instrument, t.time, t.buyer)

namespace Rule

variable {trades trades' : List Trade}

/-! ## Purchases -/

/-- The purchases of both histories are the same, whatever their order, number and prices. -/
def SamePurchases (trades trades' : List Trade) : Prop :=
  ∀ p, p ∈ trades'.map Trade.purchase ↔ p ∈ trades.map Trade.purchase

theorem SamePurchases.of_perm (h : trades'.Perm trades) : SamePurchases trades trades' :=
  fun _ => (h.map Trade.purchase).mem_iff

/-- A trade that is there already adds no purchase. -/
theorem SamePurchases.of_duplicate {before after : List Trade} {t : Trade}
    (h : t ∈ before ++ after) : SamePurchases (before ++ after) (before ++ t :: after) := by
  intro p
  rw [(List.perm_middle.map Trade.purchase).mem_iff, List.map_cons, List.mem_cons]
  constructor
  · rintro (rfl | hp)
    · exact List.mem_map_of_mem h
    · exact hp
  · exact .inr

/-- Other quantities and prices are no other purchases. -/
theorem SamePurchases.of_repriced
    (h : List.Forall₂ (fun t u => u = { t with quantity := u.quantity, price := u.price }) trades
      trades') : SamePurchases trades trades' := by
  have hmap : trades'.map Trade.purchase = trades.map Trade.purchase := by
    induction h with
    | nil => rfl
    | cons htu _ ih =>
      rw [List.map_cons, List.map_cons, ih, htu]
      rfl
  intro p
  rw [hmap]

theorem SamePurchases.symm (h : SamePurchases trades trades') : SamePurchases trades' trades :=
  fun p => (h p).symm

theorem SamePurchases.exists_mem (h : SamePurchases trades trades') {t : Trade}
    (ht : t ∈ trades') : ∃ u ∈ trades, u.purchase = t.purchase :=
  List.mem_map.1 ((h t.purchase).1 (List.mem_map_of_mem ht))

theorem SamePurchases.isEmpty_eq (h : SamePurchases trades trades') :
    trades'.isEmpty = trades.isEmpty := by
  have hempty : ∀ {xs ys : List Trade}, SamePurchases xs ys → xs = [] → ys = [] := by
    intro xs ys hxy hxs
    subst hxs
    refine List.eq_nil_iff_forall_not_mem.2 fun t ht => ?_
    obtain ⟨u, hu, -⟩ := hxy.exists_mem ht
    cases hu
  rw [Bool.eq_iff_iff, List.isEmpty_iff, List.isEmpty_iff]
  exact ⟨hempty h.symm, hempty h⟩

/-! ## Buyers in a window -/

theorem buyers_congr {rows rows' : List Trade}
    (h : ∀ account, (∃ t ∈ rows', t.buyer = account) ↔ ∃ t ∈ rows, t.buyer = account) :
    buyers rows' = buyers rows := by
  have hmem : ∀ (rows : List Trade) (account : String),
      account ∈ (rows.filter hasBuyer).map (·.buyer) ↔
        account ≠ "" ∧ ∃ t ∈ rows, t.buyer = account := by
    intro rows account
    rw [← mem_buyers]
    exact mem_ascending.symm
  refine ascending_congr linearLe_text fun account => ?_
  rw [hmem, hmem, h]

theorem SamePurchases.buyers_window_eq (h : SamePurchases trades trades') (instrument : String)
    (start stop : Time.Instant) :
    buyers ((TradeIndex.ofTrades trades').window instrument start stop) =
      buyers ((TradeIndex.ofTrades trades).window instrument start stop) := by
  have hbuys : ∀ {xs ys : List Trade}, SamePurchases xs ys → ∀ account,
      (∃ t ∈ (TradeIndex.ofTrades ys).window instrument start stop, t.buyer = account) →
        ∃ t ∈ (TradeIndex.ofTrades xs).window instrument start stop, t.buyer = account := by
    rintro xs ys hxy account ⟨t, ht, rfl⟩
    obtain ⟨ht, hwindow⟩ := TradeIndex.mem_window_ofTrades.1 ht
    obtain ⟨u, hu, hut⟩ := hxy.exists_mem ht
    -- the trade of the same purchase is in the same window
    simp only [Trade.purchase, Prod.mk.injEq] at hut
    obtain ⟨hinstrument, htime, hbuyer⟩ := hut
    refine ⟨u, TradeIndex.mem_window_ofTrades.2 ⟨hu, ?_⟩, hbuyer⟩
    rw [TradeIndex.inWindow_iff] at hwindow ⊢
    rwa [hinstrument, htime]
  exact buyers_congr fun account => ⟨hbuys h account, hbuys h.symm account⟩

/-! ## The rules one by one -/

variable {accounts : List Account} {events : List CorporateEvent} {c : Config}
  {engine : AlertEngine}

theorem network_congr (h : SamePurchases trades trades') :
    network trades' accounts events c engine = network trades accounts events c engine := by
  have hof : NetworkCandidate.ofEvent (.ofTrades trades') accounts =
      NetworkCandidate.ofEvent (.ofTrades trades) accounts := by
    funext length event
    rw [NetworkCandidate.ofEvent_eq_filterMap, NetworkCandidate.ofEvent_eq_filterMap]
    split
    · rfl
    · simp only [h.buyers_window_eq]
  unfold network
  rw [h.isEmpty_eq, hof]

theorem abnormalProfit_congr
    (h : KeepsOrder (fun t : Trade => (t.instrument, t.time)) trades trades') :
    abnormalProfit trades' events c engine = abnormalProfit trades events c engine := by
  unfold abnormalProfit
  rw [h.perm.isEmpty_eq, TradeIndex.ofTrades_congr h]

theorem informationLeakage_congr
    (h : KeepsOrder (fun t : Trade => (t.instrument, t.time)) trades trades') :
    informationLeakage trades' events c engine = informationLeakage trades events c engine := by
  unfold informationLeakage
  rw [h.perm.isEmpty_eq, TradeIndex.ofTrades_congr h]

theorem preAnnouncement_congr
    (h : KeepsOrder (fun t : Trade => (t.instrument, t.time.day)) trades trades') :
    preAnnouncement trades' events c engine = preAnnouncement trades events c engine := by
  -- trades of one moment are trades of one day
  have hmoments : KeepsOrder (fun t : Trade => (t.instrument, t.time)) trades trades' := by
    refine h.of_coarser fun s t hst => ?_
    simp only [Prod.mk.injEq] at hst ⊢
    exact ⟨hst.1, congrArg Time.Instant.day hst.2⟩
  unfold preAnnouncement
  rw [h.perm.isEmpty_eq, TradeIndex.ofTrades_congr hmoments, VolumeBaseline.ofHistory_congr h]

/-- What the order of the trades cannot change. The network rule is blind to it, and also to copies
of trades and to quantities and prices; profits and leakage are as long as trades of one instrument
and one moment keep their order; volumes ahead of announcements and the usual volumes are as long as
trades of one instrument and one day do. -/
theorem outcomes_blind_to_tradeOrder (trades trades' : List Trade) (accounts : List Account)
    (events : List CorporateEvent) (c : Config) (engine : AlertEngine) :
    (trades'.Perm trades →
        network trades' accounts events c engine = network trades accounts events c engine) ∧
      (KeepsOrder (fun t : Trade => (t.instrument, t.time)) trades trades' →
        abnormalProfit trades' events c engine = abnormalProfit trades events c engine ∧
          informationLeakage trades' events c engine = informationLeakage trades events c engine) ∧
      (KeepsOrder (fun t : Trade => (t.instrument, t.time.day)) trades trades' →
        preAnnouncement trades' events c engine = preAnnouncement trades events c engine ∧
          VolumeBaseline.ofHistory trades' = VolumeBaseline.ofHistory trades) ∧
      (∀ before t after, t ∈ before ++ after →
        network (before ++ t :: after) accounts events c engine =
          network (before ++ after) accounts events c engine) ∧
      (List.Forall₂ (fun t u => u = { t with quantity := u.quantity, price := u.price }) trades
          trades' →
        network trades' accounts events c engine = network trades accounts events c engine) := by
  refine ⟨fun h => ?_, fun h => ?_, fun h => ?_, fun before t after h => ?_, fun h => ?_⟩
  · exact network_congr (.of_perm h)
  · exact ⟨abnormalProfit_congr h, informationLeakage_congr h⟩
  · exact ⟨preAnnouncement_congr h, VolumeBaseline.ofHistory_congr h⟩
  · exact network_congr (.of_duplicate h)
  · exact network_congr (.of_repriced h)

/-! ### A day and its rearrangement -/

def noon : Time.Instant := ⟨1700049600000000000, by decide⟩
def evening : Time.Instant := ⟨1700071200000000000, by decide⟩

def purchaseOf (instrument buyer : String) (time : Time.Instant) (quantity : Float) : Trade :=
  ⟨"", time, instrument, buyer, "", quantity, 10.0, 0.0⟩

/-- Purchases of two instruments on one day, two of one instrument at one moment. -/
def sampleDay : List Trade := [
  purchaseOf "ACME" "A1" noon 0.1, purchaseOf "ACME" "A2" noon 0.2, purchaseOf "BETA" "A1" noon 0.3,
  purchaseOf "ACME" "A1" evening 0.7]

/-- The same day with the purchase of the other instrument first. -/
def rearrangedDay : List Trade := [
  purchaseOf "BETA" "A1" noon 0.3, purchaseOf "ACME" "A1" noon 0.1, purchaseOf "ACME" "A2" noon 0.2,
  purchaseOf "ACME" "A1" evening 0.7]

def repricedDay : List Trade :=
  sampleDay.map fun t => { t with quantity := 7.0, price := 3.0 }

/-- An announcement on the day after. -/
def nextDay : CorporateEvent :=
  ⟨"E1", "ACME", "merger", ⟨1700136000000000000, by decide⟩, none⟩

def partners : List Account := [⟨"A1", none, none, ["A2"]⟩]

def sampleEngine : AlertEngine := .ofConfig {} noon

theorem outcomes_blind_to_tradeOrder_sampleDay :
    (sampleDay ≠ rearrangedDay ∧ rearrangedDay.Perm sampleDay ∧
        KeepsOrder (fun t : Trade => (t.instrument, t.time.day)) sampleDay rearrangedDay) ∧
      network rearrangedDay partners [nextDay] {} sampleEngine =
        network sampleDay partners [nextDay] {} sampleEngine ∧
      abnormalProfit rearrangedDay [nextDay] {} sampleEngine =
        abnormalProfit sampleDay [nextDay] {} sampleEngine ∧
      informationLeakage rearrangedDay [nextDay] {} sampleEngine =
        informationLeakage sampleDay [nextDay] {} sampleEngine ∧
      preAnnouncement rearrangedDay [nextDay] {} sampleEngine =
        preAnnouncement sampleDay [nextDay] {} sampleEngine ∧
      VolumeBaseline.ofHistory rearrangedDay = VolumeBaseline.ofHistory sampleDay ∧
      network (sampleDay ++ [purchaseOf "ACME" "A1" noon 0.1]) partners [nextDay] {} sampleEngine =
        network sampleDay partners [nextDay] {} sampleEngine ∧
      network repricedDay partners [nextDay] {} sampleEngine =
        network sampleDay partners [nextDay] {} sampleEngine := by
  obtain ⟨hperm, hmoment, hday, hcopy, -⟩ := outcomes_blind_to_tradeOrder sampleDay rearrangedDay
    partners [nextDay] {} sampleEngine
  obtain ⟨-, -, -, -, hprice⟩ := outcomes_blind_to_tradeOrder sampleDay repricedDay partners
    [nextDay] {} sampleEngine
  have hkeeps : KeepsOrder (fun t : Trade => (t.instrument, t.time.day)) sampleDay
      rearrangedDay := by
    decide +kernel
  have hmoments : KeepsOrder (fun t : Trade => (t.instrument, t.time)) sampleDay rearrangedDay := by
    decide +kernel
  refine ⟨⟨by decide +kernel, hkeeps.perm, hkeeps⟩, hperm hkeeps.perm, (hmoment hmoments).1,
    (hmoment hmoments).2, (hday hkeeps).1, (hday hkeeps).2, ?_, ?_⟩
  · exact (hcopy sampleDay _ [] (by decide +kernel)).trans (by rw [List.append_nil])
  · exact hprice (.cons rfl (.cons rfl (.cons rfl (.cons rfl .nil))))

end Rule

end TradeWatch

import NeoTrader.Pretest.Effects

/-!
# The books of a pretest

A pretest keeps its money in cash and in positions at their cost basis; borrow fees are charged to
the cash.

* `Averages`: a purchase on top of a short position leaves a position with shares and a price;
  **`wellFormed_add_iff`**: exactly when it has fewer shares for less money, or more for more;
* `applyTrade_booked`: a trade is booked at cost; **`accounted_of_run`**: a run whose purchases average
  is accounted; **`boughtBack_not_accounted`**: a purchase may leave an empty position.
-/

namespace NeoTrader

open Js Books

/-! ## Runs -/

/-- The trades of a cycle, in the order of their application. -/
def CycleInput.batch (i : CycleInput) (s : PretestState) (toolCalls : List PretestCall) :
    List PretestTrade :=
  i.fills s toolCalls ++ i.rebalance s

def CycleInput.traded (i : CycleInput) (s : PretestState) (toolCalls : List PretestCall) :
    PretestState :=
  s.applyTrades (i.batch s toolCalls) i.effectivePolicy.commissionPct

def CycleInput.fees (i : CycleInput) (s : PretestState) : ℚ :=
  borrowCosts i.effectivePolicy i.quotes i.referenceCloses s

/-- **The runs of a portfolio**: risk floors, and cycles that trade on any tool calls; `A` is what is
asked of a cycle before its trades are applied. The number is the sum of the borrow fees. -/
inductive PretestRun (A : CycleInput → List PretestCall → PretestState → Prop) (capital : ℚ) :
    ℚ → PretestState → Prop
  | start : PretestRun A capital 0 (defaultState capital)
  | floor {charged : ℚ} {s : PretestState} (riskPolicy : RiskPolicy) (toolCalls : List PretestCall) :
      PretestRun A capital charged s →
      PretestRun A capital charged (applyKernelRiskFloor riskPolicy toolCalls s).state
  | cycle {charged : ℚ} {s : PretestState} (i : CycleInput) (toolCalls : List PretestCall) :
      PretestRun A capital charged s → A i toolCalls s →
      PretestRun A capital (charged + i.fees (i.traded s toolCalls)) (i.mark (i.traded s toolCalls))

theorem PretestRun.runCycle {A : CycleInput → List PretestCall → PretestState → Prop}
    {capital charged : ℚ} {s : PretestState} (h : PretestRun A capital charged s) (i : CycleInput)
    (hA : A i (runCycle s i).floor.toolCalls (runCycle s i).floor.state) :
    ∃ charged, PretestRun A capital charged (runCycle s i).state :=
  ⟨_, (h.floor i.riskPolicy i.toolCalls).cycle i _ hA⟩

/-! ## What is accounted -/

/-- A position has shares and a price. -/
def PretestPosition.WellFormed (p : PretestPosition) : Prop := p.quantity ≠ 0 ∧ 0 < p.avgPrice

/-- The cost basis of all positions. -/
def PretestState.basis (s : PretestState) : ℚ :=
  total (fun p : PretestPosition => p.cost) s.positions.entries

/-- **The books of a portfolio**: no money is lost, each symbol has one position, and the positions are
well formed. -/
structure Accounted (capital charged : ℚ) (s : PretestState) : Prop where
  money : s.cash + s.basis = capital + s.realizedPnl - charged
  distinct : (s.positions.entries.map fun p => p.symbol).Nodup
  wellFormed : ∀ p ∈ s.positions.entries, p.WellFormed

/-- **A purchase averages**: on top of a short position it has fewer shares and costs less than the
short has brought, or more shares and costs more. -/
def Averages (c : ℚ) (s : PretestState) (t : PretestTrade) : Prop :=
  t.action = .buy → t.price * (1 + c) * t.quantity ≤ s.cash →
    ∀ p, s.positions.entry t.symbol = some p → p.quantity < 0 →
      t.quantity < -p.quantity ∧ t.price * (1 + c) * t.quantity < p.avgPrice * -p.quantity ∨
        -p.quantity < t.quantity ∧ p.avgPrice * -p.quantity < t.price * (1 + c) * t.quantity

/-- Every purchase of a cycle averages when its turn comes. -/
def Averaging (i : CycleInput) (toolCalls : List PretestCall) (s : PretestState) : Prop :=
  EachTrade (Averages i.effectivePolicy.commissionPct) i.effectivePolicy.commissionPct s
    (i.batch s toolCalls)

/-! ## One trade -/

section Step

variable {s : PretestState} {t : PretestTrade} {c n price : ℚ} {p : PretestPosition}

theorem PretestPosition.WellFormed.add (hp : p.WellFormed) (hprice : 0 < price)
    (hside : 0 < p.quantity ∧ 0 < n ∨ p.quantity < 0 ∧ n < 0) : (p.add n price).WellFormed := by
  obtain ⟨-, havg⟩ := hp
  rcases hside with ⟨hq, hn⟩ | ⟨hq, hn⟩
  · have hquantity : 0 < p.quantity + n := by linarith
    exact ⟨hquantity.ne', div_pos (by positivity) hquantity⟩
  · have hquantity : p.quantity + n < 0 := by linarith
    have h₁ := mul_neg_of_pos_of_neg havg hq
    have h₂ := mul_neg_of_pos_of_neg hprice hn
    exact ⟨hquantity.ne, div_pos_of_neg_of_neg (by linarith) hquantity⟩

/-- **A purchase on top of a position**: what is left is well formed exactly when the purchase has
fewer shares for less money, or more of both. -/
theorem wellFormed_add_iff : (p.add n price).WellFormed ↔
    n < -p.quantity ∧ price * n < p.avgPrice * -p.quantity ∨
      -p.quantity < n ∧ p.avgPrice * -p.quantity < price * n := by
  show p.quantity + n ≠ 0 ∧ 0 < (p.avgPrice * p.quantity + price * n) / (p.quantity + n) ↔ _
  rw [mul_neg]
  rcases lt_trichotomy (p.quantity + n) 0 with h | h | h
  · rw [← neg_div_neg_eq, div_pos_iff_of_pos_right (neg_pos.2 h), neg_pos]
    constructor
    · exact fun hwell => .inl ⟨by linarith, by linarith [hwell.2]⟩
    · rintro (⟨-, hcost⟩ | ⟨hn, -⟩)
      · exact ⟨h.ne, by linarith⟩
      · linarith
  · constructor
    · exact fun hwell => absurd h hwell.1
    · rintro (⟨hn, -⟩ | ⟨hn, -⟩) <;> linarith
  · rw [div_pos_iff_of_pos_right h]
    constructor
    · exact fun hwell => .inr ⟨by linarith, by linarith [hwell.2]⟩
    · rintro (⟨hn, -⟩ | ⟨-, hcost⟩)
      · linarith
      · exact ⟨h.ne', by linarith⟩

abbrev PositionBooked (symbol : String) (cash : ℚ) (l : List PretestPosition) :
    ℚ → ℚ → List PretestPosition → Prop :=
  Booked (fun p : PretestPosition => p.symbol) (fun p => p.cost) PretestPosition.WellFormed symbol
    cash l

theorem added_booked (hn : n ≠ 0) (hprice : 0 < price)
    (hwell : ∀ p, s.positions.entry t.symbol = some p → (p.add n price).WellFormed) :
    PositionBooked t.symbol s.cash s.positions.entries 0 (s.added t n price).cash
      (s.added t n price).positions.entries := by
  cases h : s.positions.entry t.symbol with
  | none =>
    have hopened : PretestPosition.WellFormed
        { symbol := t.symbol, quantity := n, avgPrice := price } := ⟨hn, hprice⟩
    rw [positions_added, Book.put_of_none h]
    exact .opened h rfl hopened
  | some p =>
    have hcost : (p.add n price).cost = p.cost + price * n :=
      PaperPosition.cost_add (hwell p h).1
    have hcash : (s.added t n price).cash = s.cash + p.cost - (p.add n price).cost + 0 := by
      rw [hcost]
      show s.cash - price * n = _
      ring
    rw [positions_added, Book.put_of_some h, hcash]
    exact .amended 0 h (fun _ h => PretestPosition.symbol_add h) (hwell p h)

theorem settle_booked {paid pnl left : ℚ} {closed : Bool}
    (hpos : s.positions.entry t.symbol = some p) (hp : p.WellFormed)
    (hpaid : paid = p.avgPrice * (p.quantity - left) + pnl) (hclosed : closed = true → left = 0)
    (hleft : closed = false → left ≠ 0) :
    PositionBooked t.symbol s.cash s.positions.entries pnl (s.settle t p paid pnl left closed).cash
      (s.settle t p paid pnl left closed).positions.entries := by
  have hcash : (s.settle t p paid pnl left closed).cash = s.cash + paid := rfl
  cases closed with
  | true =>
    have hpaid' : s.cash + paid = s.cash + p.cost + pnl := by
      rw [hpaid, hclosed rfl, PaperPosition.cost]
      ring
    rw [positions_settle_true, hcash, hpaid']
    exact .closed pnl hpos
  | false =>
    have hpaid' : s.cash + paid = s.cash + p.cost - (p.leave left).cost + pnl := by
      show _ = s.cash + p.avgPrice * p.quantity - p.avgPrice * left + pnl
      rw [hpaid]
      ring
    rw [positions_settle_false, hcash, hpaid']
    exact .amended pnl hpos (fun _ h => PretestPosition.symbol_leave h) ⟨hleft rfl, hp.2⟩

/-- **One trade is booked at cost.** -/
theorem applyTrade_booked (hc : 0 ≤ c) (ht : t.Sized)
    (hwell : ∀ p ∈ s.positions.entries, p.WellFormed) (haverages : Averages c s t) :
    ∃ profit, (s.applyTrade t c).realizedPnl = s.realizedPnl + profit ∧
      PositionBooked t.symbol s.cash s.positions.entries profit (s.applyTrade t c).cash
        (s.applyTrade t c).positions.entries := by
  have hquantity := ht.quantity
  have heffect : Effect s t c (s.applyTrade t c) := applyTrade_effect ht
  generalize s.applyTrade t c = s' at heffect ⊢
  cases heffect with
  | skipped => exact ⟨0, (add_zero _).symm, .idle⟩
  | bought hbuy hcash =>
    have hprice : 0 < t.price * (1 + c) := mul_pos (ht.price hbuy) (by linarith)
    refine ⟨0, (add_zero _).symm, added_booked hquantity.ne' hprice fun p hp => ?_⟩
    rcases lt_or_gt_of_ne (hwell p (mem_of_holding hp)).1 with hshort | hlong
    · exact wellFormed_add_iff.2 (haverages hbuy hcash p hp hshort)
    · exact (hwell p (mem_of_holding hp)).add hprice (.inl ⟨hlong, hquantity⟩)
  | sold hsell hshort hprice =>
    refine ⟨0, (add_zero _).symm, added_booked (by linarith) hprice fun p hp => ?_⟩
    have hp' := hwell p (mem_of_holding hp)
    exact hp'.add hprice (.inr ⟨lt_of_le_of_ne (hshort p hp) hp'.1, by linarith⟩)
  | shrunk hpos hpaid hclosed hopen =>
    exact ⟨_, rfl, settle_booked hpos (hwell _ (mem_of_holding hpos)) hpaid hclosed fun h =>
      (hopen h).1⟩

end Step

/-! ## A run -/

section Run

variable {s : PretestState} {capital charged c : ℚ} {i : CycleInput}

theorem Accounted.applyTrade {t : PretestTrade} (hs : Accounted capital charged s) (hc : 0 ≤ c)
    (ht : t.Sized) (haverages : Averages c s t) : Accounted capital charged (s.applyTrade t c) := by
  obtain ⟨profit, hprofit, hbooked⟩ := applyTrade_booked hc ht hs.wellFormed haverages
  refine ⟨?_, (s.applyTrade t c).positions.distinct, hbooked.good hs.wellFormed⟩
  calc (s.applyTrade t c).cash + (s.applyTrade t c).basis
      = s.cash + s.basis + profit := hbooked.conserves
    _ = capital + (s.applyTrade t c).realizedPnl - charged := by
      rw [hs.money, hprofit]
      ring

theorem Accounted.applyTrades {trades : List PretestTrade} (hs : Accounted capital charged s)
    (hc : 0 ≤ c) (hsized : ∀ t ∈ trades, t.Sized) (heach : EachTrade (Averages c) c s trades) :
    Accounted capital charged (s.applyTrades trades c) := by
  induction trades generalizing s with
  | nil => exact hs
  | cons t trades ih =>
    obtain ⟨haverages, hrest⟩ := heach
    obtain ⟨ht, hsized⟩ := List.forall_mem_cons.1 hsized
    exact ih (hs.applyTrade hc ht haverages) hsized hrest

theorem Accounted.floor (hs : Accounted capital charged s) (riskPolicy : RiskPolicy)
    (calls : List PretestCall) :
    Accounted capital charged (applyKernelRiskFloor riskPolicy calls s).state := by
  obtain ⟨a, ha⟩ := floor_onAccount riskPolicy s calls
  rw [ha]
  exact ⟨hs.money, hs.distinct, hs.wellFormed⟩

theorem Accounted.mark (hs : Accounted capital charged s) :
    Accounted capital (charged + i.fees s) (i.mark s) := by
  have hbasis : (i.mark s).basis = s.basis := by
    simp only [PretestState.basis, total, CycleInput.mark, updateEquityMetrics, markedPositions,
      Book.map, List.map_map]
    rfl
  have hcash : (i.mark s).cash = s.cash - i.fees s := rfl
  have hrealized : (i.mark s).realizedPnl = s.realizedPnl := rfl
  refine ⟨?_, (i.mark s).positions.distinct, fun p hp => ?_⟩
  · have hmoney := hs.money
    rw [hcash, hbasis, hrealized]
    linarith
  · obtain ⟨x, hx, rfl⟩ := List.mem_map.1 hp
    exact hs.wellFormed x hx

/-- **A run in which every purchase averages is accounted**, in every state that it reaches. -/
theorem accounted_of_run (h : PretestRun Averaging capital charged s) :
    Accounted capital charged s := by
  induction h with
  | start =>
    refine ⟨?_, List.nodup_nil, List.forall_mem_nil _⟩
    show capital + 0 = capital + 0 - 0
    ring
  | floor riskPolicy calls hrun ih => exact ih.floor riskPolicy calls
  | cycle i calls hrun haveraging ih =>
    exact (ih.applyTrades i.effectivePolicy.commission_mem.1 (fun t ht => sized_of_mem ht)
      haveraging).mark

end Run

/-! ## A short position that is bought back -/

/-- A call for one symbol at 100, by the gate of an account that is priced there. -/
def spyCall (action : String) (prices : List ℚ) : PretestCall :=
  { symbol := some "SPY", action := some action, view := some ⟨prices, 0⟩, quote := some 100 }

def oneCallCycle (tc : PretestCall) : CycleInput :=
  { toolCalls := [tc], riskPolicy := defaultExecutionPolicy.risk, policy := readPolicy (.obj []) }

def soldShort : PretestState :=
  (runCycle (defaultState 10000) (oneCallCycle (spyCall "short" []))).state

def boughtBack : PretestState := (runCycle soldShort (oneCallCycle (spyCall "long" [100]))).state

theorem soldShort_batch : (oneCallCycle (spyCall "short" [])).batch
    (runCycle (defaultState 10000) (oneCallCycle (spyCall "short" []))).floor.state
    (runCycle (defaultState 10000) (oneCallCycle (spyCall "short" []))).floor.toolCalls =
      [{ symbol := "SPY", action := .short, price := 100, quantity := 5 }] := by decide +kernel

theorem accounted_soldShort : ∃ charged, Accounted 10000 charged soldShort := by
  obtain ⟨charged, hsold⟩ := (PretestRun.start : PretestRun Averaging 10000 0 _).runCycle
    (oneCallCycle (spyCall "short" [])) (by
      rw [Averaging, soldShort_batch]
      exact ⟨(fun h => by cases h), trivial⟩)
  exact ⟨charged, accounted_of_run hsold⟩

theorem boughtBack_empty : boughtBack.positions.entries.map (fun p => p.quantity) = [0] := by
  decide +kernel

/-- **A long on top of a short may leave a position without shares.** -/
theorem boughtBack_not_accounted : ¬ ∀ capital charged s,
    PretestRun (fun _ _ _ => True) capital charged s → Accounted capital charged s := by
  intro h
  obtain ⟨charged, hsold⟩ := (PretestRun.start : PretestRun (fun _ _ _ => True) 10000 0 _).runCycle
    (oneCallCycle (spyCall "short" [])) trivial
  obtain ⟨charged, hbought⟩ := hsold.runCycle (oneCallCycle (spyCall "long" [100])) trivial
  have hmem : (0 : ℚ) ∈ boughtBack.positions.entries.map (fun p => p.quantity) := by
    rw [boughtBack_empty]
    exact List.mem_singleton_self _
  obtain ⟨p, hp, hzero⟩ := List.mem_map.1 hmem
  exact ((h _ _ _ hbought).wellFormed p hp).1 hzero

end NeoTrader

import NeoTrader.Pretest.Effects

/-!
# The risk floor of a pretest

* `FloorFill`: a fill with what the floor has said of its call; `stateAt`: the portfolio when the turn
  of a fill comes;
* `Governed`: only entries that have passed the gate add exposure, and the slots are kept;
  `LegacyBuysHarmless`: the condition on the calls whose action is spelled `buy`;
* **`governed_iff`**: a cycle is governed exactly under this condition; **`legacyBuy_not_governed`**: a
  `buy` opens a position without the gate.
-/

namespace NeoTrader

open Books

/-! ## Exposure -/

/-- A symbol gets a position, or one with more shares than before. -/
def Enlarges (s s' : PretestState) (symbol : String) : Prop :=
  ∃ p', s'.positions.entry symbol = some p' ∧
    ∀ p, s.positions.entry symbol = some p → |p.quantity| < |p'.quantity|

section Enlarges

variable {s s' : PretestState} {t : PretestTrade} {c : ℚ} {symbol : String}

theorem not_enlarges_of_eq (h : s'.positions.entry symbol = s.positions.entry symbol) :
    ¬ Enlarges s s' symbol := by
  rintro ⟨p', hp', hless⟩
  exact lt_irrefl _ (hless p' (h ▸ hp'))

theorem abs_add_le_abs_iff {q n : ℚ} (hn : 0 < n) : |q + n| ≤ |q| ↔ n ≤ -2 * q := by
  rcases le_or_gt 0 q with hq | hq
  · rw [abs_of_nonneg hq, abs_of_pos (by linarith)]
    constructor <;> intro h <;> linarith
  · rw [abs_of_neg hq, abs_le]
    exact ⟨fun h => by linarith [h.2], fun h => ⟨by linarith, by linarith⟩⟩

theorem not_enlarges_added {n price : ℚ} {p : PretestPosition}
    (hp : s.positions.entry t.symbol = some p) (hn : |p.quantity + n| ≤ |p.quantity|) :
    ¬ Enlarges s (s.added t n price) t.symbol := by
  rintro ⟨p', hp', hless⟩
  rw [entry_added, hp] at hp'
  cases hp'
  exact absurd (hless p hp) (not_lt.2 hn)

theorem enlarges_added {n price : ℚ}
    (hn : ∀ p, s.positions.entry t.symbol = some p → |p.quantity| < |p.quantity + n|) :
    Enlarges s (s.added t n price) t.symbol := by
  refine ⟨_, entry_added, fun p hp => ?_⟩
  rw [hp]
  exact hn p hp

/-- **A trade enlarges only its own symbol**, and only as a purchase or as a short sale that is
applied. -/
theorem enlarges_cases (ht : t.Sized) (h : Enlarges s (s.applyTrade t c) symbol) :
    symbol = t.symbol ∧ (t.action = .short ∨ t.action = .buy ∧
      t.price * (1 + c) * t.quantity ≤ s.cash ∧
      ∀ p, s.positions.entry t.symbol = some p → -2 * p.quantity < t.quantity) := by
  have heffect : Effect s t c (s.applyTrade t c) := applyTrade_effect ht
  have hsymbol : symbol = t.symbol := by
    by_contra hne
    exact not_enlarges_of_eq (heffect.entry_of_ne hne) h
  subst hsymbol
  refine ⟨rfl, ?_⟩
  generalize s.applyTrade t c = s' at h heffect
  cases heffect with
  | skipped => exact absurd h (not_enlarges_of_eq rfl)
  | bought hbuy hcash =>
    refine .inr ⟨hbuy, hcash, fun p hp => ?_⟩
    by_contra hle
    exact not_enlarges_added hp ((abs_add_le_abs_iff ht.quantity).2 (not_lt.1 hle)) h
  | sold hsell => exact .inl hsell
  | @shrunk pos paid pnl left closed hpos hpaid hclosed hopen =>
    obtain ⟨p', hp', hless⟩ := h
    cases closed with
    | true =>
      rw [positions_settle_true, Book.entry_close] at hp'
      cases hp'
    | false =>
      rw [positions_settle_false, Book.entry_amend _ hpos] at hp'
      cases hp'
      exact absurd (hless pos hpos) (not_lt.2 (hopen rfl).2)

end Enlarges

/-! ## The fills at the floor -/

structure FloorFill where
  call : PretestCall
  outcome : FloorOutcome
  trade : PretestTrade

/-- The fills of the calls that the floor lets through. -/
def CycleInput.floorFills (i : CycleInput) (f : Floor) : List FloorFill :=
  (f.outcomes.filter fun x => x.2.allowed).filterMap fun x =>
    (simulateFill f.state i.effectivePolicy i.referenceCloses x.1).map fun t => ⟨x.1, x.2, t⟩

theorem floorFills_trades (i : CycleInput) (f : Floor) :
    (i.floorFills f).map FloorFill.trade = i.fills f.state f.toolCalls := by
  rw [CycleInput.floorFills, CycleInput.fills, simulateFills, Floor.toolCalls, List.map_filterMap,
    List.filterMap_map]
  simp [Function.comp_def]

/-- The portfolio after some fills of a cycle. -/
def stateAt (s : PretestState) (i : CycleInput) (fills : List FloorFill) : PretestState :=
  (runCycle s i).floor.state.applyTrades (fills.map FloorFill.trade)
    i.effectivePolicy.commissionPct

theorem stateAt_concat {s : PretestState} {i : CycleInput} {fills : List FloorFill} {x : FloorFill} :
    stateAt s i (fills ++ [x]) =
      (stateAt s i fills).applyTrade x.trade i.effectivePolicy.commissionPct := by
  rw [stateAt, List.map_append, applyTrades_append]
  rfl

/-- A fill that adds exposure belongs to a call that has passed the entry gate. -/
def EntriesGated (s : PretestState) (i : CycleInput) : Prop :=
  ∀ fills x rest, i.floorFills (runCycle s i).floor = fills ++ x :: rest →
    ∀ symbol, Enlarges (stateAt s i fills) (stateAt s i (fills ++ [x])) symbol →
      ∃ gate, x.outcome = .passed gate ∧ gate.pass = true

/-- **A governed cycle**: only calls that have passed the gate add exposure, and the positions fit the
slots. -/
structure Governed (s : PretestState) (i : CycleInput) : Prop where
  entries : EntriesGated s i
  slots : ((runCycle s i).state.positions.entries.length : ℤ) ≤
    max (s.positions.entries.length : ℤ) i.riskPolicy.maxOpenPositions

/-- **The fills of the calls that are spelled `buy`** find too little cash when their turn comes, or a
short position of at least half their shares. -/
def LegacyBuysHarmless (s : PretestState) (i : CycleInput) : Prop :=
  ∀ fills x rest, i.floorFills (runCycle s i).floor = fills ++ x :: rest →
    x.call.rawAction = some "buy" →
      (stateAt s i fills).cash <
          x.trade.price * (1 + i.effectivePolicy.commissionPct) * x.trade.quantity ∨
        ∃ p, (stateAt s i fills).positions.entry x.trade.symbol = some p ∧
          x.trade.quantity ≤ -2 * p.quantity

/-! ## The loop of the floor -/

def PretestState.symbols (s : PretestState) : List String := s.positions.entries.map fun p => p.symbol

theorem entry_isSome_iff {s : PretestState} {symbol : String} :
    (s.positions.entry symbol).isSome ↔ symbol ∈ s.symbols := by
  rw [← not_iff_not, Option.not_isSome_iff_eq_none, Book.entry, holding_eq_none,
    PretestState.symbols, List.mem_map]
  push Not
  rfl

/-- What the floor has said of a call is so. -/
def FloorSound (s : PretestState) (f : Floor) (x : PretestCall × FloorOutcome) : Prop :=
  match x.2 with
  | .exempt => x.1.entrySymbol? = none
  | .passed gate => gate.pass = true ∧
      ∃ symbol, x.1.entrySymbol? = some symbol ∧ symbol ∈ s.symbols ++ f.reservedNewSymbols
  | .refused _ => True

/-- **What the loop of the floor keeps**. -/
structure FloorInv (riskPolicy : RiskPolicy) (s : PretestState) (f : Floor) : Prop where
  positions : f.state.positions = s.positions
  slots : f.reservedNewSymbols = [] ∨
    (s.symbols.length + f.reservedNewSymbols.length : ℤ) ≤ riskPolicy.maxOpenPositions
  sound : ∀ x ∈ f.outcomes, FloorSound s f x

section Floor

variable {riskPolicy : RiskPolicy} {s : PretestState} {f : Floor} {tc : PretestCall}

theorem FloorSound.mono {f' : Floor} {x : PretestCall × FloorOutcome} (h : FloorSound s f x)
    (hf : f.reservedNewSymbols <+: f'.reservedNewSymbols) : FloorSound s f' x := by
  unfold FloorSound at h ⊢
  split at h
  · exact h
  · obtain ⟨hpass, symbol, hsymbol, hmem⟩ := h
    refine ⟨hpass, symbol, hsymbol, ?_⟩
    rw [List.mem_append] at hmem ⊢
    exact hmem.imp_right fun h => hf.subset h
  · trivial

theorem FloorInv.concat {f' : Floor} {outcome : FloorOutcome} (hf : FloorInv riskPolicy s f)
    (hpositions : f'.state.positions = s.positions)
    (houtcomes : f'.outcomes = f.outcomes ++ [(tc, outcome)])
    (hreserved : f.reservedNewSymbols <+: f'.reservedNewSymbols)
    (hslots : f'.reservedNewSymbols = [] ∨
      (s.symbols.length + f'.reservedNewSymbols.length : ℤ) ≤ riskPolicy.maxOpenPositions)
    (hsound : FloorSound s f' (tc, outcome)) : FloorInv riskPolicy s f' := by
  refine ⟨hpositions, hslots, fun x hx => ?_⟩
  rw [houtcomes] at hx
  rcases List.mem_append.1 hx with hx | hx
  · exact (hf.sound x hx).mono hreserved
  · rw [List.mem_singleton.1 hx]
    exact hsound

/-- **One call at the floor.** -/
theorem FloorInv.step (hf : FloorInv riskPolicy s f) :
    FloorInv riskPolicy s (f.step riskPolicy tc) := by
  have hheld : f.state.symbols = s.symbols := by
    rw [PretestState.symbols, hf.positions, PretestState.symbols]
  unfold Floor.step
  split
  · next hentry => exact hf.concat hf.positions rfl List.prefix_rfl hf.slots hentry
  · next symbol hentry =>
    dsimp only
    split
    · exact hf.concat hf.positions rfl List.prefix_rfl hf.slots trivial
    · next hgate =>
      have hpass := pass_iff.2 hgate
      split_ifs with hheldOrReserved hfull
      · refine hf.concat hf.positions rfl List.prefix_rfl hf.slots ⟨hpass, symbol, hentry, ?_⟩
        rw [List.mem_append, ← hheld, ← entry_isSome_iff]
        exact hheldOrReserved
      · exact hf.concat hf.positions rfl List.prefix_rfl hf.slots trivial
      · refine hf.concat hf.positions rfl (List.prefix_append _ _) (.inr ?_)
          ⟨hpass, symbol, hentry, by simp⟩
        have hlength : s.symbols.length = f.state.positions.entries.length := by
          rw [← hheld, PretestState.symbols, List.length_map]
        have hroom : ((f.state.positions.entries.length + f.reservedNewSymbols.length : ℕ) : ℤ) <
            riskPolicy.maxOpenPositions := not_le.1 hfull
        rw [List.length_append, List.length_singleton, hlength]
        push_cast at hroom ⊢
        omega

/-- **The floor.** -/
theorem floorInv_applyKernelRiskFloor (calls : List PretestCall) :
    FloorInv riskPolicy s (applyKernelRiskFloor riskPolicy calls s) := by
  have hstart : FloorInv riskPolicy s { state := s } :=
    ⟨rfl, .inl rfl, List.forall_mem_nil _⟩
  exact List.foldlRecOn calls _ hstart fun f hf tc _ => hf.step

theorem floorInv (s : PretestState) (i : CycleInput) :
    FloorInv i.riskPolicy s (runCycle s i).floor := floorInv_applyKernelRiskFloor i.toolCalls

end Floor

/-! ## Purchases and short sales -/

section Fills

variable {s : PretestState} {i : CycleInput} {f : Floor} {x : FloorFill}

theorem mem_floorFills (h : x ∈ i.floorFills f) : (x.call, x.outcome) ∈ f.outcomes ∧
    x.outcome.allowed = true ∧
      ∃ last, FillOf f.state i.effectivePolicy i.referenceCloses x.call x.trade last := by
  obtain ⟨⟨call, outcome⟩, hmem, hx⟩ := List.mem_filterMap.1 h
  obtain ⟨hmem, hallowed⟩ := List.mem_filter.1 hmem
  obtain ⟨t, ht, rfl⟩ := Option.map_eq_some_iff.1 hx
  exact ⟨hmem, hallowed, simulateFill_cases ht⟩

theorem action_of_buy (h : x ∈ i.floorFills f) (hbuy : x.call.rawAction = some "buy") :
    x.trade.action = .buy := by
  obtain ⟨-, -, last, hfill⟩ := mem_floorFills h
  have hmap := hfill.action
  rw [mapIntentAction_buy.2 (.inr hbuy)] at hmap
  exact (Option.some.inj hmap).symm

theorem sized_of_mem_floorFills (h : x ∈ i.floorFills f) : x.trade.Sized := by
  obtain ⟨-, -, last, hfill⟩ := mem_floorFills h
  exact hfill.trade_sized

theorem not_passed_of_buy (h : x ∈ i.floorFills (runCycle s i).floor)
    (hbuy : x.call.rawAction = some "buy") (gate : EntryGateResult) : x.outcome ≠ .passed gate := by
  intro hpassed
  have hsound := (floorInv s i).sound _ (mem_floorFills h).1
  rw [FloorSound, hpassed] at hsound
  obtain ⟨-, symbol, hsymbol, -⟩ := hsound
  rw [PretestCall.entrySymbol?, if_neg (by simp [hbuy])] at hsymbol
  cases hsymbol

/-- **A purchase or a short sale** belongs to a call that has passed the gate, or that is spelled
`buy`. -/
theorem passed_or_buy (h : x ∈ i.floorFills (runCycle s i).floor)
    (haction : x.trade.action = .short ∨ x.trade.action = .buy) :
    (∃ gate, x.outcome = .passed gate ∧ gate.pass = true ∧
      x.trade.symbol ∈ s.symbols ++ (runCycle s i).floor.reservedNewSymbols) ∨
        x.call.rawAction = some "buy" := by
  obtain ⟨hmem, hallowed, last, hfill⟩ := mem_floorFills h
  have hsound := (floorInv s i).sound _ hmem
  have hraw : x.call.rawAction = some "long" ∨ x.call.rawAction = some "short" ∨
      x.call.rawAction = some "buy" := by
    have hmap := hfill.action
    rcases haction with haction | haction <;> rw [haction] at hmap
    · exact .inr (.inl (mapIntentAction_short.1 hmap))
    · exact (mapIntentAction_buy.1 hmap).imp_right .inr
  have hentry : ¬ x.call.rawAction = some "buy" → x.call.entrySymbol? = some x.trade.symbol := by
    intro hbuy
    rw [PretestCall.entrySymbol?, if_pos (by tauto), hfill.symbol]
  rw [or_iff_not_imp_right]
  intro hbuy
  cases houtcome : x.outcome with
  | exempt =>
    rw [FloorSound, houtcome] at hsound
    exact absurd ((hentry hbuy).symm.trans hsound) (Option.some_ne_none _)
  | passed gate =>
    rw [FloorSound, houtcome] at hsound
    obtain ⟨hpass, symbol, hsymbol, hin⟩ := hsound
    rw [hentry hbuy] at hsymbol
    cases hsymbol
    exact ⟨gate, rfl, hpass, hin⟩
  | refused reason =>
    rw [houtcome] at hallowed
    cases hallowed

theorem applyTrade_buy {t : PretestTrade} {c : ℚ} (ht : t.Sized) (haction : t.action = .buy)
    (hcash : t.price * (1 + c) * t.quantity ≤ s.cash) :
    s.applyTrade t c = s.added t t.quantity (t.price * (1 + c)) := by
  rw [PretestState.applyTrade, PretestState.applyTrade?, haction]
  simp only [applyBuy_eq ht, if_neg (not_lt.2 hcash), Option.getD_some]

end Fills

/-! ## Slots -/

section Slots

variable {s s' : PretestState} {i : CycleInput} {L : List String} {c : ℚ}

theorem symbols_subset (hs : s.symbols ⊆ L) (h : ∀ symbol, Enlarges s s' symbol → symbol ∈ L) :
    s'.symbols ⊆ L := by
  intro symbol hsymbol
  obtain ⟨p', hp'⟩ := Option.isSome_iff_exists.1 (entry_isSome_iff.2 hsymbol)
  cases hp : s.positions.entry symbol with
  | none => exact h symbol ⟨p', hp', fun p hsome => by rw [hp] at hsome; cases hsome⟩
  | some p => exact hs (entry_isSome_iff.1 (by rw [hp]; rfl))

theorem symbols_applyTrades {trades : List PretestTrade} (hs : s.symbols ⊆ L)
    (htrades : ∀ t ∈ trades, t.Sized ∧ t.symbol ∈ L) : (s.applyTrades trades c).symbols ⊆ L := by
  induction trades generalizing s with
  | nil => exact hs
  | cons t trades ih =>
    obtain ⟨⟨ht, hmem⟩, htrades⟩ := List.forall_mem_cons.1 htrades
    refine ih (symbols_subset hs fun symbol h => ?_) htrades
    rw [(enlarges_cases ht h).1]
    exact hmem

theorem length_le_of_symbols (h : s.symbols ⊆ L) : s.positions.entries.length ≤ L.length := by
  have hnodup : s.symbols.Nodup := s.positions.distinct
  have hle := (hnodup.subperm h).length_le
  rwa [PretestState.symbols, List.length_map] at hle

end Slots

/-! ## Governed cycles -/

section Governed

variable {s : PretestState} {i : CycleInput}

/-- The symbols that may be held after a cycle. -/
def slotSymbols (s : PretestState) (i : CycleInput) : List String :=
  s.symbols ++ (runCycle s i).floor.reservedNewSymbols

theorem length_slotSymbols : ((slotSymbols s i).length : ℤ) ≤
    max (s.positions.entries.length : ℤ) i.riskPolicy.maxOpenPositions := by
  rw [slotSymbols, List.length_append]
  rcases (floorInv s i).slots with h | h
  · rw [h, PretestState.symbols, List.length_map]
    exact le_max_left _ _
  · push_cast
    exact h.trans (le_max_right _ _)

theorem symbols_floor : (runCycle s i).floor.state.symbols = s.symbols := by
  rw [PretestState.symbols, (floorInv s i).positions, PretestState.symbols]

variable {fills rest : List FloorFill} {x : FloorFill}

theorem mem_of_split (h : i.floorFills (runCycle s i).floor = fills ++ x :: rest) :
    x ∈ i.floorFills (runCycle s i).floor := by
  rw [h]
  exact List.mem_append_right _ List.mem_cons_self

/-- **The entries are gated exactly if no call that is spelled `buy` adds exposure.** -/
theorem entriesGated_iff : EntriesGated s i ↔ LegacyBuysHarmless s i := by
  constructor
  · intro h fills x rest heq hbuy
    have hmem := mem_of_split heq
    have hsized := sized_of_mem_floorFills hmem
    by_contra hharm
    obtain ⟨hcash, hshort⟩ := not_or.1 hharm
    have hlarger : Enlarges (stateAt s i fills) (stateAt s i (fills ++ [x])) x.trade.symbol := by
      rw [stateAt_concat, applyTrade_buy hsized (action_of_buy hmem hbuy) (not_lt.1 hcash)]
      refine enlarges_added fun p hp => ?_
      rw [← not_le, abs_add_le_abs_iff hsized.quantity]
      exact fun hle => hshort ⟨p, hp, hle⟩
    obtain ⟨gate, hpassed, -⟩ := h fills x rest heq _ hlarger
    exact not_passed_of_buy hmem hbuy gate hpassed
  · intro h fills x rest heq symbol hlarger
    have hmem := mem_of_split heq
    rw [stateAt_concat] at hlarger
    obtain ⟨-, hcase⟩ := enlarges_cases (sized_of_mem_floorFills hmem) hlarger
    rcases passed_or_buy hmem (hcase.imp_right And.left) with ⟨gate, hpassed, hpass, -⟩ | hbuy
    · exact ⟨gate, hpassed, hpass⟩
    · rcases hcase with hsell | ⟨-, hcash, hlarge⟩
      · rw [action_of_buy hmem hbuy] at hsell
        cases hsell
      · rcases h fills x rest heq hbuy with hless | ⟨p, hp, hle⟩
        · exact absurd hcash (not_le.2 hless)
        · exact absurd (hlarge p hp) (not_lt.2 hle)

theorem symbols_stateAt (h : EntriesGated s i) (fills rest : List FloorFill)
    (heq : i.floorFills (runCycle s i).floor = fills ++ rest) :
    (stateAt s i fills).symbols ⊆ slotSymbols s i := by
  induction fills using List.reverseRecOn generalizing rest with
  | nil =>
    show (runCycle s i).floor.state.symbols ⊆ _
    rw [symbols_floor]
    exact List.subset_append_left _ _
  | append_singleton fills x ih =>
    rw [List.append_assoc, List.singleton_append] at heq
    refine symbols_subset (ih _ heq) fun symbol hlarger => ?_
    have hmem := mem_of_split heq
    obtain ⟨gate, hpassed, -⟩ := h fills x rest heq symbol hlarger
    rw [stateAt_concat] at hlarger
    obtain ⟨rfl, hcase⟩ := enlarges_cases (sized_of_mem_floorFills hmem) hlarger
    rcases passed_or_buy hmem (hcase.imp_right And.left) with ⟨-, -, -, hin⟩ | hbuy
    · exact hin
    · exact absurd hpassed (not_passed_of_buy hmem hbuy gate)

/-- **A cycle is governed exactly if the calls that are spelled `buy` are harmless.** -/
theorem governed_iff : Governed s i ↔ LegacyBuysHarmless s i := by
  rw [← entriesGated_iff]
  refine ⟨Governed.entries, fun h => ⟨h, ?_⟩⟩
  have hfills : (stateAt s i (i.floorFills (runCycle s i).floor)).symbols ⊆ slotSymbols s i :=
    symbols_stateAt h _ [] (List.append_nil _).symm
  have hstate : (runCycle s i).state = i.mark ((stateAt s i (i.floorFills
      (runCycle s i).floor)).applyTrades (i.rebalance (runCycle s i).floor.state)
        i.effectivePolicy.commissionPct) := by
    rw [stateAt, floorFills_trades, ← applyTrades_append]
    rfl
  have hrebalance : ∀ t ∈ i.rebalance (runCycle s i).floor.state,
      t.Sized ∧ t.symbol ∈ slotSymbols s i := by
    intro t ht
    obtain ⟨⟨pos, hpos, -, hsymbol⟩, -, hsized⟩ := mem_rebalance ht
    refine ⟨hsized, List.mem_append_left _ ?_⟩
    rw [hsymbol, ← symbols_floor (i := i)]
    exact List.mem_map_of_mem hpos
  have hlength := length_le_of_symbols
    (symbols_applyTrades (c := i.effectivePolicy.commissionPct) hfills hrebalance)
  calc ((runCycle s i).state.positions.entries.length : ℤ)
      ≤ (slotSymbols s i).length := by
        rw [hstate]
        refine Int.ofNat_le.2 (le_trans (le_of_eq ?_) hlength)
        exact List.length_map _
    _ ≤ _ := length_slotSymbols

end Governed

/-! ## A call that is spelled `buy` -/

def legacyBuy : CycleInput :=
  { toolCalls := [{ symbol := some "SPY", action := some "buy", quote := some 100 }]
    riskPolicy := defaultExecutionPolicy.risk, policy := readPolicy (.obj []) }

theorem legacyBuy_fills :
    (legacyBuy.floorFills (runCycle (defaultState 10000) legacyBuy).floor).map
        (fun x => (x.call.rawAction, x.trade)) =
      [(some "buy", { symbol := "SPY", action := .buy, price := 100, quantity := 5 })] := by
  decide +kernel

/-- **A `buy` opens a position without the gate.** -/
theorem legacyBuy_not_governed : ¬ ∀ s i, Governed s i := by
  intro h
  obtain ⟨x, hfills, hx⟩ := List.map_eq_singleton_iff.1 legacyBuy_fills
  obtain ⟨hraw, htrade⟩ := Prod.mk.inj hx
  have hharmless := entriesGated_iff.1 (h (defaultState 10000) legacyBuy).entries
  rcases hharmless [] x [] hfills hraw with hcash | hshort
  · rw [htrade] at hcash
    exact absurd hcash (by decide +kernel)
  · obtain ⟨p, hp, -⟩ := hshort
    rw [htrade] at hp
    cases hp

end NeoTrader

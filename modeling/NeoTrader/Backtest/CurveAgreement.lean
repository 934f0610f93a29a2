import Mathlib.Tactic.Linarith
import Mathlib.Tactic.Ring
import NeoTrader.Backtest.Engine

/-!
# The equity curve and the trades

The curve is reconstructed from the legs and the prices, the final equity is that of the replayed
account.

* `Balanced`, `Dated`: what the replayed account keeps; **`replay_balanced`**: in the end its equity
  is the capital and the profits;
* `CurveAgrees`: a point for each date, the last one at the final equity, and every leg at its
  latest close;
* `CalendarKept`: every symbol has a bar on each date on which it is held, or is back at its entry
  price;
* **`curve_agrees_iff`**: nothing else is needed; **`curve_drops`**: a date without a bar drops the
  position from the equity.
-/

namespace NeoTrader.Engine

open Books

/-! ## Latest closes -/

/-- The latest bar of a symbol on or before a date. -/
def latestBar (bars : List Bar) (d : String) : Option Bar :=
  ((dateOrder bars).filter fun d' => d' ≤ d).getLast?.bind (barAt bars)

/-- What a leg should add to the equity of a date: before it is closed, its value at the latest
close. -/
def valuation (prices : Prices Bar) (d : String) (leg : Leg) : ℚ :=
  if leg.exitDate ≤ d then leg.pnl
  else if leg.entryDate ≤ d then
    match latestBar (barsOf prices leg.symbol) d with
    | none => 0
    | some bar =>
      let sign : ℚ := if leg.direction = .long then 1 else -1
      (bar.closePrice - leg.entryPrice) * leg.shares * sign
  else 0

section Latest

variable {bars : List Bar} {d : String} {b : Bar}

theorem getLast?_filter_le {l : List String} (hl : l.Pairwise (· < ·)) (hd : d ∈ l) :
    (l.filter fun d' => d' ≤ d).getLast? = some d := by
  have hmem : d ∈ l.filter fun d' => d' ≤ d := List.mem_filter.2 ⟨hd, by simp⟩
  have hne := List.ne_nil_of_mem hmem
  have hsorted : (l.filter fun d' => d' ≤ d).Pairwise (· < ·) := hl.sublist List.filter_sublist
  rw [List.getLast?_eq_getLast_of_ne_nil hne]
  have hle : (l.filter fun d' => d' ≤ d).getLast hne ≤ d := by
    have h := (List.mem_filter.1 (List.getLast_mem hne)).2
    exact of_decide_eq_true h
  rw [← List.dropLast_append_getLast hne] at hmem hsorted
  rcases List.mem_append.1 hmem with hinit | hlast
  · have hlt := (List.pairwise_append.1 hsorted).2.2 d hinit _ (List.mem_singleton.2 rfl)
    exact absurd hle (not_le.2 hlt)
  · exact congrArg some (List.mem_singleton.1 hlast).symm

theorem latestBar_of_barAt (h : barAt bars d = some b) : latestBar bars d = some b := by
  obtain ⟨hmem, hdate⟩ := barAt_mem h
  have hd : d ∈ dateOrder bars := by
    rw [dateOrder, mem_sortedDates, ← hdate]
    exact List.mem_map_of_mem hmem
  rw [latestBar, dateOrder, getLast?_filter_le (sortedDates_sorted _) hd]
  exact h

theorem exists_latestBar {d' : String} (hd' : d' ∈ bars.map Bar.date) (hle : d' ≤ d) :
    ∃ b, latestBar bars d = some b := by
  have hmem : d' ∈ (dateOrder bars).filter fun d' => d' ≤ d :=
    List.mem_filter.2 ⟨mem_sortedDates.2 hd', decide_eq_true hle⟩
  have hne := List.ne_nil_of_mem hmem
  obtain ⟨b, hb⟩ := exists_barAt (mem_sortedDates.1 (List.mem_filter.1 (List.getLast_mem hne)).1)
  refine ⟨b, ?_⟩
  rw [latestBar, List.getLast?_eq_getLast_of_ne_nil hne]
  exact hb

end Latest

/-! ## What the replay keeps -/

/-- The profits of the completed trades. -/
def profits (a : Account) : ℚ := (a.trades.map CompletedTrade.pnl).sum

/-- **The money of an account**: equity and open positions come to the capital and the profits, and
each trade has its leg. -/
structure Balanced (cfg : Config) (a : Account) : Prop where
  money : a.equity + total OpenPosition.cost a.positions.entries = cfg.initialCapital + profits a
  legs : a.legs.map Leg.pnl = a.trades.map CompletedTrade.pnl

/-- **The dates of an account**: positions are opened, and legs closed, on dates of their symbol. -/
structure Dated (prices : Prices Bar) (a : Account) : Prop where
  positions : ∀ pos ∈ a.positions.entries,
    0 < pos.shares ∧ pos.entryDate ∈ (barsOf prices pos.symbol).map Bar.date
  legs : ∀ leg ∈ a.legs, 0 < leg.shares ∧
    leg.entryDate ∈ (barsOf prices leg.symbol).map Bar.date ∧
    leg.exitDate ∈ (barsOf prices leg.symbol).map Bar.date

section Steps

variable {cfg : Config} {prices : Prices Bar} {a : Account} {pos : OpenPosition} {bar : Bar}
variable {price : ℚ} {symbol d d' : String}

theorem profits_settle : profits (a.settle cfg pos price d d') =
    profits a + closingPnl cfg pos price := by
  simp [profits, Account.settle]

theorem legs_settle (h : a.legs.map Leg.pnl = a.trades.map CompletedTrade.pnl) :
    (a.settle cfg pos price d d').legs.map Leg.pnl =
      (a.settle cfg pos price d d').trades.map CompletedTrade.pnl := by
  simp [Account.settle, h]

theorem Balanced.closeAt (h : Balanced cfg a) : Balanced cfg (a.closeAt cfg symbol price d d') := by
  unfold Account.closeAt
  split
  · exact h
  · next pos hpos =>
    refine ⟨?_, legs_settle h.legs⟩
    have hclosed : total OpenPosition.cost (a.positions.close symbol).entries =
        total OpenPosition.cost a.positions.entries - pos.cost := total_close hpos
    have hsettled : profits (a.settle cfg pos price d d') = profits a + closingPnl cfg pos price :=
      profits_settle
    have hmoney := h.money
    show a.equity + (pos.cost + closingPnl cfg pos price) +
      total OpenPosition.cost (a.positions.close symbol).entries =
        cfg.initialCapital + profits (a.settle cfg pos price d d')
    rw [hclosed, hsettled]
    linarith

theorem Balanced.openAt {direction : Direction} (h : Balanced cfg a)
    (hnone : a.positions.entry symbol = none) :
    Balanced cfg (a.openAt cfg symbol direction price d) := by
  rcases openAt_cases cfg direction price d hnone with
    hsame | ⟨shares, cost, -, -, -, -, hequity, hentries, htrades, hlegs⟩
  · rw [hsame]
    exact h
  · refine ⟨?_, by rw [hlegs, htrades]; exact h.legs⟩
    rw [hequity, hentries, total_concat, profits, htrades, ← profits, ← h.money]
    ring

theorem Dated.settle (h : Dated prices a) (hpos : 0 < pos.shares ∧
    pos.entryDate ∈ (barsOf prices pos.symbol).map Bar.date)
    (hbar : bar ∈ barsOf prices pos.symbol) :
    Dated prices (a.settle cfg pos price bar.date d) := by
  refine ⟨h.positions, fun leg hleg => ?_⟩
  rw [Account.settle, List.mem_append, List.mem_singleton] at hleg
  rcases hleg with hleg | rfl
  · exact h.legs leg hleg
  · exact ⟨hpos.1, hpos.2, List.mem_map_of_mem hbar⟩

theorem Dated.closeAt (h : Dated prices a) (hbar : bar ∈ barsOf prices symbol) :
    Dated prices (a.closeAt cfg symbol price bar.date d) := by
  unfold Account.closeAt
  split
  · exact h
  · next pos hpos =>
    have hsymbol : pos.symbol = symbol := key_of_holding hpos
    have hsettled : Dated prices (a.settle cfg pos price bar.date d) :=
      h.settle (h.positions pos (mem_of_holding hpos)) (hsymbol ▸ hbar)
    exact ⟨fun p hp => h.positions p (close_sublist.subset hp), hsettled.legs⟩

theorem Dated.openAt {direction : Direction} (h : Dated prices a)
    (hbar : bar ∈ barsOf prices symbol) (hnone : a.positions.entry symbol = none) :
    Dated prices (a.openAt cfg symbol direction price bar.date) := by
  rcases openAt_cases cfg direction price bar.date hnone with
    hsame | ⟨shares, cost, -, hshares, -, -, -, hentries, -, hlegs⟩
  · rw [hsame]
    exact h
  · refine ⟨fun pos hpos => ?_, by rw [hlegs]; exact h.legs⟩
    rw [hentries, List.mem_append, List.mem_singleton] at hpos
    rcases hpos with hpos | rfl
    · exact h.positions pos hpos
    · exact ⟨hshares, List.mem_map_of_mem hbar⟩

end Steps

/-! ## Whole replays -/

section Runs

variable {cfg : Config} {prices : Prices Bar} {signals : List Signal}

theorem afterSignals_balanced : Balanced cfg (afterSignals cfg prices signals) :=
  afterSignals_induction ⟨by simp [Account.start, Book.empty, profits], rfl⟩
    (fun _ _ _ _ h _ => h.closeAt) (fun _ _ _ _ h _ hnone => h.openAt hnone) signals

theorem afterSignals_dated : Dated prices (afterSignals cfg prices signals) :=
  afterSignals_induction ⟨(by simp [Account.start, Book.empty]), (by simp [Account.start])⟩
    (fun _ _ _ _ h hbar => h.closeAt hbar) (fun _ _ _ _ h hbar hnone => h.openAt hbar hnone) signals

theorem replay_dated : Dated prices (replay cfg prices signals) := by
  refine replay_induction afterSignals_dated fun a pos bar ha hpos hbar => ?_
  exact ha.settle (afterSignals_dated.positions pos hpos) hbar

theorem exists_lastBar {bars : List Bar} {d : String} (hd : d ∈ bars.map Bar.date) :
    ∃ bar, lastBar bars = some bar := by
  have hne : dateOrder bars ≠ [] := List.ne_nil_of_mem (mem_sortedDates.2 hd)
  have hlast := mem_sortedDates.1 (List.getLast_mem hne)
  obtain ⟨bar, hbar⟩ := exists_barAt hlast
  refine ⟨bar, ?_⟩
  rw [lastBar, List.getLast?_eq_getLast_of_ne_nil hne]
  exact hbar

theorem closeAll_money {l : List OpenPosition} {a : Account}
    (hl : ∀ pos ∈ l, ∃ bar, lastBar (barsOf prices pos.symbol) = some bar) :
    (l.foldl (closeRest cfg prices) a).equity - profits (l.foldl (closeRest cfg prices) a) =
      a.equity - profits a + total OpenPosition.cost l := by
  induction l generalizing a with
  | nil => simp
  | cons pos l ih =>
    obtain ⟨bar, hbar⟩ := hl pos List.mem_cons_self
    have hpos : closeRest cfg prices a pos = a.settle cfg pos bar.closePrice bar.date bar.date := by
      rw [closeRest, hbar]
    have hsettled : profits (a.settle cfg pos bar.closePrice bar.date bar.date) =
        profits a + closingPnl cfg pos bar.closePrice := profits_settle
    have hequity : (a.settle cfg pos bar.closePrice bar.date bar.date).equity =
        a.equity + (pos.cost + closingPnl cfg pos bar.closePrice) := rfl
    rw [List.foldl_cons, ih fun p hp => hl p (List.mem_cons_of_mem _ hp), hpos, hsettled, hequity,
      total_cons]
    ring

/-- **In the end** the equity is the capital and the profits. -/
theorem replay_balanced : (replay cfg prices signals).equity =
    cfg.initialCapital + profits (replay cfg prices signals) := by
  have hbalanced : Balanced cfg (afterSignals cfg prices signals) := afterSignals_balanced
  have hmoney := hbalanced.money
  have hbars : ∀ pos ∈ (afterSignals cfg prices signals).positions.entries,
      ∃ bar, lastBar (barsOf prices pos.symbol) = some bar := fun pos hpos =>
    exists_lastBar (afterSignals_dated.positions pos hpos).2
  have hclosed : (replay cfg prices signals).equity - profits (replay cfg prices signals) =
      (afterSignals cfg prices signals).equity - profits (afterSignals cfg prices signals) +
        total OpenPosition.cost (afterSignals cfg prices signals).positions.entries :=
    closeAll_money hbars
  linarith

theorem replay_legs : (replay cfg prices signals).legs.map Leg.pnl =
    (replay cfg prices signals).trades.map CompletedTrade.pnl :=
  replay_induction (P := fun a => a.legs.map Leg.pnl = a.trades.map CompletedTrade.pnl)
    afterSignals_balanced.legs fun _ _ _ h _ _ => legs_settle h

end Runs

/-! ## The curve -/

section Curve

variable {cfg : Config} {prices : Prices Bar} {signals : List Signal} {legs : List Leg} {d : String}

theorem foldl_contribution (x : ℚ) : legs.foldl (fun eq leg => eq + contribution prices d leg) x =
    x + (legs.map (contribution prices d)).sum := by
  induction legs generalizing x with
  | nil => simp
  | cons leg legs ih =>
    rw [List.foldl_cons, ih, List.map_cons, List.sum_cons]
    ring

theorem equityOn_closed (h : ∀ leg ∈ legs, leg.exitDate ≤ d) :
    equityOn cfg prices legs d = max 0 (cfg.initialCapital + (legs.map Leg.pnl).sum) := by
  have hpnl : legs.map (contribution prices d) = legs.map Leg.pnl :=
    List.map_congr_left fun leg hleg => if_pos (h leg hleg)
  rw [equityOn, foldl_contribution, hpnl]

theorem equityCurve_eq (h : allDates prices ≠ []) : equityCurve cfg prices legs =
    (allDates prices).map fun d => (d, equityOn cfg prices legs d) := by
  have hcurve : (allDates prices).map (fun d => (d, equityOn cfg prices legs d)) ≠ [] := by
    simpa using h
  exact if_neg hcurve

theorem mem_allDates {symbol : String} (h : d ∈ (barsOf prices symbol).map Bar.date) :
    d ∈ allDates prices := by
  obtain ⟨bar, hbar, rfl⟩ := List.mem_map.1 h
  obtain ⟨p, hp, -, hmem⟩ := barsOf_mem hbar
  exact mem_sortedDates.2 (List.mem_flatMap.2 ⟨p, hp, List.mem_map_of_mem hmem⟩)

theorem le_getLast_sortedDates {dates : List String} (hne : sortedDates dates ≠ [])
    (h : d ∈ sortedDates dates) : d ≤ (sortedDates dates).getLast hne := by
  have hsorted := sortedDates_sorted dates
  rw [← List.dropLast_append_getLast hne] at h hsorted
  rcases List.mem_append.1 h with hinit | hlast
  · exact le_of_lt ((List.pairwise_append.1 hsorted).2.2 d hinit _ (List.mem_singleton.2 rfl))
  · exact le_of_eq (List.mem_singleton.1 hlast)

end Curve

/-! ## The agreement -/

section Agreement

variable (cfg : Config) (prices : Prices Bar) (signals : List Signal)

/-- The last point of the curve. -/
def lastEquity : Option ℚ :=
  (runBacktest cfg prices signals).equityCurve.getLast?.map Prod.snd

/-- **The curve agrees with the trades.** -/
structure CurveAgrees : Prop where
  points : (runBacktest cfg prices signals).equityCurve.map Prod.fst = allDates prices
  trades : lastEquity cfg prices signals = some (max 0 (cfg.initialCapital +
    ((runBacktest cfg prices signals).trades.map CompletedTrade.pnl).sum))
  equity : 0 ≤ (replay cfg prices signals).equity →
    lastEquity cfg prices signals = some (replay cfg prices signals).equity
  valued : ∀ d ∈ allDates prices, ∀ leg ∈ (replay cfg prices signals).legs,
    leg.entryDate ≤ d → d < leg.exitDate → contribution prices d leg = valuation prices d leg

/-- **There are dates, and on those on which a symbol is held** it has a bar, or its latest close is
the price of the entry. -/
structure CalendarKept : Prop where
  dates : allDates prices ≠ []
  held : ∀ d ∈ allDates prices, ∀ leg ∈ (replay cfg prices signals).legs,
    leg.entryDate ≤ d → d < leg.exitDate →
    (∃ bar, barAt (barsOf prices leg.symbol) d = some bar) ∨
      (latestBar (barsOf prices leg.symbol) d).map Bar.closePrice = some leg.entryPrice

variable {cfg prices signals}

theorem lastEquity_eq (h : allDates prices ≠ []) : lastEquity cfg prices signals =
    some (max 0 (cfg.initialCapital + profits (replay cfg prices signals))) := by
  have hclosed : ∀ leg ∈ (replay cfg prices signals).legs,
      leg.exitDate ≤ (allDates prices).getLast h := fun leg hleg =>
    le_getLast_sortedDates h (mem_allDates (replay_dated.legs leg hleg).2.2)
  show ((equityCurve cfg prices (replay cfg prices signals).legs).getLast?).map Prod.snd = _
  rw [equityCurve_eq h, List.getLast?_map, List.getLast?_eq_getLast_of_ne_nil h, Option.map_some,
    Option.map_some, equityOn_closed hclosed, replay_legs, profits]

theorem contribution_open {d : String} {leg : Leg} (hentry : leg.entryDate ≤ d)
    (hexit : d < leg.exitDate) (hshares : 0 < leg.shares)
    (hbar : leg.entryDate ∈ (barsOf prices leg.symbol).map Bar.date) :
    contribution prices d leg = valuation prices d leg ↔
      (∃ bar, barAt (barsOf prices leg.symbol) d = some bar) ∨
        (latestBar (barsOf prices leg.symbol) d).map Bar.closePrice = some leg.entryPrice := by
  obtain ⟨latest, hlatest⟩ := exists_latestBar hbar hentry
  rw [contribution, valuation, if_neg (not_le.2 hexit), if_pos hentry, if_neg (not_le.2 hexit),
    if_pos hentry, hlatest]
  cases hat : barAt (barsOf prices leg.symbol) d with
  | some bar =>
    have hsame : bar = latest := Option.some.inj ((latestBar_of_barAt hat).symm.trans hlatest)
    simp [hsame]
  | none =>
    have hsign : (if leg.direction = .long then (1 : ℚ) else -1) ≠ 0 := by split <;> norm_num
    have hzero : (latest.closePrice - leg.entryPrice) * leg.shares *
        (if leg.direction = .long then (1 : ℚ) else -1) = 0 ↔
        latest.closePrice = leg.entryPrice := by
      rw [mul_eq_zero, mul_eq_zero, sub_eq_zero]
      simp [hsign, hshares.ne']
    simpa [eq_comm (a := (0 : ℚ))] using hzero

end Agreement

/-- **The curve agrees with the trades** iff there are dates, and on those on which a symbol is held
it has a bar, or is back at the price of the entry. -/
theorem curve_agrees_iff (cfg : Config) (prices : Prices Bar) (signals : List Signal) :
    CurveAgrees cfg prices signals ↔ CalendarKept cfg prices signals := by
  have hvalued : ∀ d, ∀ leg ∈ (replay cfg prices signals).legs, leg.entryDate ≤ d →
      d < leg.exitDate → (contribution prices d leg = valuation prices d leg ↔
        (∃ bar, barAt (barsOf prices leg.symbol) d = some bar) ∨
          (latestBar (barsOf prices leg.symbol) d).map Bar.closePrice = some leg.entryPrice) :=
    fun d leg hleg hentry hexit => contribution_open hentry hexit
      (replay_dated.legs leg hleg).1 (replay_dated.legs leg hleg).2.1
  constructor
  · intro h
    refine ⟨fun hnil => ?_, fun d hd leg hleg hentry hexit =>
      (hvalued d leg hleg hentry hexit).1 (h.valued d hd leg hleg hentry hexit)⟩
    have hpoints := h.points
    rw [hnil, List.map_eq_nil_iff] at hpoints
    have hempty : (runBacktest cfg prices signals).equityCurve =
        [("start", cfg.initialCapital)] := by
      simp [runBacktest, equityCurve, hnil]
    rw [hempty] at hpoints
    cases hpoints
  · intro h
    have hlast : lastEquity cfg prices signals =
        some (max 0 (cfg.initialCapital + profits (replay cfg prices signals))) :=
      lastEquity_eq h.dates
    refine ⟨?_, hlast, fun hequity => ?_, fun d hd leg hleg hentry hexit =>
      (hvalued d leg hleg hentry hexit).2 (h.held d hd leg hleg hentry hexit)⟩
    · show (equityCurve cfg prices (replay cfg prices signals).legs).map Prod.fst = _
      rw [equityCurve_eq h.dates, List.map_map]
      exact List.map_id _
    · rw [hlast, ← replay_balanced, max_eq_right hequity]

/-! ## A drop -/

/-- A symbol that is not quoted on the third day, and one that is quoted on every day. -/
def twoCalendars : Prices Bar :=
  [("A", [⟨"01", 100, 100, 100, 100, 1⟩, ⟨"02", 100, 150, 100, 150, 1⟩,
      ⟨"04", 150, 150, 150, 150, 1⟩]),
   ("B", [⟨"01", 10, 10, 10, 10, 1⟩, ⟨"02", 10, 10, 10, 10, 1⟩, ⟨"03", 10, 10, 10, 10, 1⟩,
      ⟨"04", 10, 10, 10, 10, 1⟩])]

/-- **A position drops out** of the equity on a date without a bar. -/
theorem curve_drops : ¬ ∀ (cfg : Config) (prices : Prices Bar) (signals : List Signal),
    CurveAgrees cfg prices signals := by
  intro h
  have hleg : (replay {} twoCalendars [⟨"A", "long", "01"⟩]).legs.head?.map
      (contribution twoCalendars "03") ≠
    (replay {} twoCalendars [⟨"A", "long", "01"⟩]).legs.head?.map
      (valuation twoCalendars "03") := by decide +kernel
  have hdates : ∀ leg ∈ (replay {} twoCalendars [⟨"A", "long", "01"⟩]).legs.head?,
      leg ∈ (replay {} twoCalendars [⟨"A", "long", "01"⟩]).legs ∧ leg.entryDate ≤ "03" ∧
        "03" < leg.exitDate := by decide +kernel
  refine hleg ?_
  cases hhead : (replay {} twoCalendars [⟨"A", "long", "01"⟩]).legs.head? with
  | none => rfl
  | some leg =>
    obtain ⟨hmem, hentry, hexit⟩ := hdates leg hhead
    exact congrArg some ((h {} twoCalendars [⟨"A", "long", "01"⟩]).valued "03" (by decide)
      leg hmem hentry hexit)

end NeoTrader.Engine

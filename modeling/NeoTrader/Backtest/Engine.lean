import Mathlib.Data.List.Dedup
import Mathlib.Data.String.Basic
import NeoTrader.Backtest.WalkForward
import NeoTrader.Common.Books

/-!
# The backtest engine

Historical signals are filled at the open of the bar after their own, for as long as there is one;
what is still open at the end is closed at the last price.

* **`runBacktest`**.

Durations and the statistics of risk and of exposure are left out.
-/

namespace NeoTrader.Engine

open Books

/-! ## Bars -/

structure Bar where
  date : String
  openPrice : ℚ
  high : ℚ
  low : ℚ
  closePrice : ℚ
  volume : ℚ
  deriving DecidableEq

def barsOf (prices : Prices Bar) (symbol : String) : List Bar :=
  ((prices.find? fun p => p.1 = symbol).map Prod.snd).getD []

/-- `price_index[symbol].get(date)`: of the bars with one date the last counts. -/
def barAt (bars : List Bar) (date : String) : Option Bar :=
  bars.reverse.find? fun b => b.date = date

/-- Dates without repetition, in their order. -/
def sortedDates (dates : List String) : List String := dates.dedup.insertionSort (· ≤ ·)

def dateOrder (bars : List Bar) : List String := sortedDates (bars.map Bar.date)

/-- The dates of all symbols, in their order. -/
def allDates (prices : Prices Bar) : List String :=
  sortedDates (prices.flatMap fun p => p.2.map Bar.date)

/-- **The bar that fills a signal**: the first one after the date of the signal. -/
def nextFill (prices : Prices Bar) (symbol sigDate : String) : Option Bar :=
  let bars := barsOf prices symbol
  let dates := dateOrder bars
  if sigDate ∈ dates then dates[dates.idxOf sigDate + 1]?.bind (barAt bars) else none

def lastBar (bars : List Bar) : Option Bar := (dateOrder bars).getLast?.bind (barAt bars)

/-! ## The account -/

structure Signal where
  symbol : String
  action : String
  date : String

structure Config where
  initialCapital : ℚ := 10000
  commissionPct : ℚ := 1 / 1000
  slippagePct : ℚ := 1 / 2000
  riskPerTrade : ℚ := 1 / 100
  maxPositions : ℤ := 5

/-- Commission and slippage, which are charged alike. -/
def Config.costPct (cfg : Config) : ℚ := cfg.commissionPct + cfg.slippagePct

inductive Direction
  | long | short
  deriving DecidableEq

def directionOf (action : String) : Option Direction :=
  if action = "long" then some .long else if action = "short" then some .short else none

structure OpenPosition where
  symbol : String
  direction : Direction
  entryDate : String
  entryPrice : ℚ
  shares : ℚ
  cost : ℚ
  deriving DecidableEq

structure CompletedTrade where
  symbol : String
  direction : Direction
  entryDate : String
  exitDate : String
  entryPrice : ℚ
  exitPrice : ℚ
  shares : ℚ
  commission : ℚ
  pnl : ℚ
  pnlPct : ℚ
  deriving DecidableEq

/-- A trade with the dates of its fills. -/
structure Leg where
  symbol : String
  direction : Direction
  shares : ℚ
  entryPrice : ℚ
  entryDate : String
  exitDate : String
  pnl : ℚ
  deriving DecidableEq

/-- The replayed account; the open positions have distinct symbols. -/
structure Account where
  equity : ℚ
  positions : Book OpenPosition.symbol
  trades : List CompletedTrade := []
  legs : List Leg := []

def closingCost (cfg : Config) (pos : OpenPosition) (exitPrice : ℚ) : ℚ :=
  pos.shares * exitPrice * cfg.costPct

/-- The profit of closing a position, net of costs. -/
def closingPnl (cfg : Config) (pos : OpenPosition) (exitPrice : ℚ) : ℚ :=
  let proceeds := pos.shares * exitPrice - closingCost cfg pos exitPrice
  match pos.direction with
  | .long => proceeds - pos.cost
  | .short => pos.cost - proceeds

namespace Account

variable (cfg : Config) (a : Account)

/-- A position is settled: its cost and its profit come back; the trade is recorded with the date of
the signal, the leg with the date of the fill. -/
def settle (pos : OpenPosition) (exitPrice : ℚ) (execDt recordDt : String) : Account :=
  let pnl := closingPnl cfg pos exitPrice
  { a with
    equity := a.equity + (pos.cost + pnl)
    trades := a.trades ++ [{
      symbol := pos.symbol, direction := pos.direction, entryDate := pos.entryDate
      exitDate := recordDt, entryPrice := pos.entryPrice, exitPrice, shares := pos.shares
      commission := closingCost cfg pos exitPrice, pnl, pnlPct := pnl / pos.cost * 100 }]
    legs := a.legs ++ [{
      symbol := pos.symbol, direction := pos.direction, shares := pos.shares
      entryPrice := pos.entryPrice, entryDate := pos.entryDate, exitDate := execDt, pnl }] }

/-- `_close_at`: an open position is closed. -/
def closeAt (symbol : String) (exitPrice : ℚ) (execDt recordDt : String) : Account :=
  match a.positions.entry symbol with
  | none => a
  | some pos =>
    { a.settle cfg pos exitPrice execDt recordDt with positions := a.positions.close symbol }

/-- The shares and the cost of a new position: a fixed risk, at most the whole equity. -/
def sizing (price : ℚ) : ℚ × ℚ :=
  let riskAmount := a.equity * cfg.riskPerTrade
  let shares := max (1 / 100)
    (riskAmount / (price * (cfg.commissionPct + cfg.slippagePct + 1 / 1000)))
  let cost := shares * price * (1 + cfg.commissionPct + cfg.slippagePct)
  if a.equity < cost then (a.equity / (price * (1 + cfg.commissionPct + cfg.slippagePct)), a.equity)
  else (shares, cost)

/-- A position is opened, if there is a slot and capital for it. -/
def openAt (symbol : String) (direction : Direction) (price : ℚ) (execDate : String) : Account :=
  if cfg.maxPositions ≤ a.positions.entries.length then a
  else
    let (shares, cost) := a.sizing cfg price
    if cost ≤ 0 ∨ shares ≤ 0 then a
    else
      let pos : OpenPosition :=
        { symbol, direction, entryDate := execDate, entryPrice := price, shares, cost }
      { a with
        equity := a.equity - cost
        positions := a.positions.put symbol (fun _ => pos) pos (fun _ _ => rfl) rfl }

end Account

/-! ## The replay -/

section Replay

variable (cfg : Config) (prices : Prices Bar)

/-- **One signal**: opens, keeps or turns a position, or closes it. -/
def step (a : Account) (sig : Signal) : Account :=
  if sig.symbol = "" ∨ sig.date = "" then a
  else
    match nextFill prices sig.symbol sig.date with
    | none => a
    | some fillBar =>
      let price := fillBar.openPrice
      let execDate := fillBar.date
      match directionOf sig.action with
      | some direction =>
        match a.positions.entry sig.symbol with
        | none => a.openAt cfg sig.symbol direction price execDate
        | some existing =>
          if existing.direction = direction then a
          else
            (a.closeAt cfg sig.symbol price execDate sig.date).openAt cfg sig.symbol direction price
              execDate
      | none =>
        if sig.action = "exit" then a.closeAt cfg sig.symbol price execDate sig.date else a

/-- A position that is still open is settled at the last price of its symbol. -/
def closeRest (a : Account) (pos : OpenPosition) : Account :=
  match lastBar (barsOf prices pos.symbol) with
  | none => a
  | some bar => a.settle cfg pos bar.closePrice bar.date bar.date

/-- The account before the first signal. -/
def Account.start : Account := { equity := cfg.initialCapital, positions := .empty }

/-- The account after the signals, in the order of their dates. -/
def afterSignals (signals : List Signal) : Account :=
  (signals.insertionSort fun s s' => s.date ≤ s'.date).foldl (step cfg prices) (.start cfg)

/-- **The replay**: the signals, and the close of what is left. -/
def replay (signals : List Signal) : Account :=
  let a := afterSignals cfg prices signals
  a.positions.entries.foldl (closeRest cfg prices) a

/-! ## The equity curve -/

/-- What a leg adds to the equity of a date: its profit when it is closed; before that its value at
the close of this date's bar, if there is one. -/
def contribution (d : String) (leg : Leg) : ℚ :=
  if leg.exitDate ≤ d then leg.pnl
  else if leg.entryDate ≤ d then
    match barAt (barsOf prices leg.symbol) d with
    | none => 0
    | some bar =>
      let sign : ℚ := if leg.direction = .long then 1 else -1
      (bar.closePrice - leg.entryPrice) * leg.shares * sign
  else 0

/-- The equity of a date: an account is worth no less than nothing. -/
def equityOn (legs : List Leg) (d : String) : ℚ :=
  max 0 (legs.foldl (fun eq leg => eq + contribution prices d leg) cfg.initialCapital)

/-- **The equity curve**, a point for each date. -/
def equityCurve (legs : List Leg) : List (String × ℚ) :=
  let curve := (allDates prices).map fun d => (d, equityOn cfg prices legs d)
  if curve = [] then [("start", cfg.initialCapital)] else curve

/-- What a backtest comes to. -/
structure Result where
  totalReturnPct : ℚ
  totalTrades : ℕ
  equityCurve : List (String × ℚ)
  trades : List CompletedTrade

/-- **A backtest.** -/
def runBacktest (signals : List Signal) : Result :=
  let a := replay cfg prices signals
  { totalReturnPct := (a.equity - cfg.initialCapital) / cfg.initialCapital * 100
    totalTrades := a.trades.length
    equityCurve := equityCurve cfg prices a.legs
    trades := a.trades }

end Replay

/-! ## Bars of the index -/

section Bars

variable {prices : Prices Bar} {bars : List Bar} {symbol d sigDate : String} {b : Bar}

theorem barAt_mem (h : barAt bars d = some b) : b ∈ bars ∧ b.date = d := by
  have hfound := List.find?_some h
  exact ⟨List.mem_reverse.1 (List.mem_of_find?_eq_some h), of_decide_eq_true hfound⟩

theorem exists_barAt (h : d ∈ bars.map Bar.date) : ∃ b, barAt bars d = some b := by
  obtain ⟨b, hb, rfl⟩ := List.mem_map.1 h
  cases hfound : barAt bars b.date with
  | none =>
    have hnone := List.find?_eq_none.1 hfound b (List.mem_reverse.2 hb)
    simp at hnone
  | some b' => exact ⟨b', rfl⟩

@[simp] theorem mem_sortedDates {dates : List String} : d ∈ sortedDates dates ↔ d ∈ dates := by
  simp [sortedDates]

theorem sortedDates_sorted (dates : List String) : (sortedDates dates).Pairwise (· < ·) := by
  have hnodup : (sortedDates dates).Pairwise (· ≠ ·) :=
    (List.perm_insertionSort _ _).nodup_iff.2 (List.nodup_dedup dates)
  have hle : (sortedDates dates).Pairwise (· ≤ ·) := List.pairwise_insertionSort _ _
  exact hle.imp₂ (fun _ _ hab hne => lt_of_le_of_ne hab hne) hnodup

theorem nextFill_mem (h : nextFill prices symbol sigDate = some b) : b ∈ barsOf prices symbol := by
  unfold nextFill at h
  dsimp only at h
  split at h
  · obtain ⟨d, -, hd⟩ := Option.bind_eq_some_iff.1 h
    exact (barAt_mem hd).1
  · cases h

theorem lastBar_mem (h : lastBar bars = some b) : b ∈ bars := by
  obtain ⟨d, -, hd⟩ := Option.bind_eq_some_iff.1 h
  exact (barAt_mem hd).1

theorem barsOf_mem (h : b ∈ barsOf prices symbol) : ∃ p ∈ prices, p.1 = symbol ∧ b ∈ p.2 := by
  unfold barsOf at h
  cases hfound : prices.find? fun p => p.1 = symbol with
  | none =>
    rw [hfound] at h
    cases h
  | some p =>
    rw [hfound] at h
    have hsymbol := List.find?_some hfound
    exact ⟨p, List.mem_of_find?_eq_some hfound, of_decide_eq_true hsymbol, h⟩

end Bars

/-! ## Invariants of the replay -/

/-- **An opening**: nothing, or a position at the price of the fill. -/
theorem openAt_cases (cfg : Config) {a : Account} {symbol : String} (direction : Direction)
    (price : ℚ) (d : String) (hnone : a.positions.entry symbol = none) :
    a.openAt cfg symbol direction price d = a ∨
    ∃ shares cost, (shares, cost) = a.sizing cfg price ∧ 0 < shares ∧ 0 < cost ∧
      (a.positions.entries.length : ℤ) < cfg.maxPositions ∧
      (a.openAt cfg symbol direction price d).equity = a.equity - cost ∧
      (a.openAt cfg symbol direction price d).positions.entries = a.positions.entries ++
        [⟨symbol, direction, d, price, shares, cost⟩] ∧
      (a.openAt cfg symbol direction price d).trades = a.trades ∧
      (a.openAt cfg symbol direction price d).legs = a.legs := by
  unfold Account.openAt
  by_cases hslot : cfg.maxPositions ≤ a.positions.entries.length
  · exact .inl (if_pos hslot)
  · rw [if_neg hslot]
    cases hsizing : a.sizing cfg price with
    | mk shares cost =>
      dsimp only
      by_cases hsmall : cost ≤ 0 ∨ shares ≤ 0
      · exact .inl (if_pos hsmall)
      · rw [if_neg hsmall]
        obtain ⟨hcost, hshares⟩ := not_or.1 hsmall
        refine .inr ⟨shares, cost, rfl, not_le.1 hshares, not_le.1 hcost, not_le.1 hslot, rfl, ?_,
          rfl, rfl⟩
        dsimp only
        rw [Book.put_of_none hnone]

section Invariants

variable {cfg : Config} {prices : Prices Bar} {P : Account → Prop}

/-- **One signal keeps** what a close and an opening at the open of a bar keep. -/
theorem step_preserves
    (hclose : ∀ a symbol bar record, P a → bar ∈ barsOf prices symbol →
      P (a.closeAt cfg symbol bar.openPrice bar.date record))
    (hopen : ∀ a symbol direction bar, P a → bar ∈ barsOf prices symbol →
      a.positions.entry symbol = none → P (a.openAt cfg symbol direction bar.openPrice bar.date))
    {a : Account} (ha : P a) (sig : Signal) : P (step cfg prices a sig) := by
  unfold step
  split
  · exact ha
  · split
    · exact ha
    · next bar hbar =>
      have hmem := nextFill_mem hbar
      dsimp only
      split
      · next direction _ =>
        split
        · next hnone => exact hopen a sig.symbol direction bar ha hmem hnone
        · next existing hsome =>
          split
          · exact ha
          · refine hopen _ sig.symbol direction bar
              (hclose a sig.symbol bar sig.date ha hmem) hmem ?_
            unfold Account.closeAt
            rw [hsome]
            exact Book.entry_close
      · split
        · exact hclose a sig.symbol bar sig.date ha hmem
        · exact ha

/-- **What the signals keep.** -/
theorem afterSignals_induction (hstart : P (.start cfg))
    (hclose : ∀ a symbol bar record, P a → bar ∈ barsOf prices symbol →
      P (a.closeAt cfg symbol bar.openPrice bar.date record))
    (hopen : ∀ a symbol direction bar, P a → bar ∈ barsOf prices symbol →
      a.positions.entry symbol = none → P (a.openAt cfg symbol direction bar.openPrice bar.date))
    (signals : List Signal) : P (afterSignals cfg prices signals) :=
  List.foldlRecOn _ _ hstart fun _ ha sig _ => step_preserves hclose hopen ha sig

/-- **What the final close keeps**, as each position is settled at the close of its last bar. -/
theorem replay_induction {signals : List Signal} (h : P (afterSignals cfg prices signals))
    (hsettle : ∀ a pos bar, P a → pos ∈ (afterSignals cfg prices signals).positions.entries →
      bar ∈ barsOf prices pos.symbol →
      P (a.settle cfg pos bar.closePrice bar.date bar.date)) :
    P (replay cfg prices signals) := by
  refine List.foldlRecOn _ _ h fun a ha pos hpos => ?_
  unfold closeRest
  split
  · exact ha
  · next bar hbar => exact hsettle a pos bar ha hpos (lastBar_mem hbar)

end Invariants

end NeoTrader.Engine

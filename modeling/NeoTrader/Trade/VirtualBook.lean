import Mathlib.Algebra.BigOperators.Group.List.Basic
import Mathlib.Algebra.Order.Field.Rat
import Mathlib.Data.List.Nodup
import Mathlib.Tactic.FieldSimp
import Mathlib.Tactic.Linarith
import Mathlib.Tactic.NormNum
import Mathlib.Tactic.Ring

/-!
# The virtual portfolio of the paper plugin

The plugin keeps a portfolio of its own: cash, open positions and completed trades. An entry folds
the commission into the cost, an exit into the proceeds. Nothing is rounded.

* **`balance_run`**: cash and open costs are the initial capital and the recorded results;
* **`costsNeverHelp_iff`**: when costs never help;
* **`short_gains`**: a short that gains more than the market moved.
-/

namespace NeoTrader

namespace Virtual

/-! ## The operations -/

inductive Direction where
  | long
  | short
  deriving DecidableEq

/-- An open position; `cost` includes the commission. -/
structure Position where
  symbol : String
  direction : Direction
  entry_date : String
  entry_price : ℚ
  shares : ℚ
  cost : ℚ
  current_price : ℚ
  unrealized_pnl : ℚ
  unrealized_pct : ℚ
  deriving DecidableEq

structure CompletedTrade where
  symbol : String
  direction : Direction
  entry_date : String
  exit_date : String
  entry_price : ℚ
  exit_price : ℚ
  shares : ℚ
  pnl : ℚ
  pnl_pct : ℚ
  commission : ℚ
  deriving DecidableEq

/-- The portfolio; the positions by symbol, in the order of their entries. -/
structure Portfolio where
  cash : ℚ
  initial_capital : ℚ
  positions : List Position
  trades : List CompletedTrade
  deriving DecidableEq

/-- What a signal asks for. -/
inductive Action where
  | enter (direction : Direction)
  | exit
  | other (text : String)
  deriving DecidableEq

structure Signal where
  symbol : String
  action : Action
  deriving DecidableEq

abbrev Prices : Type := String → Option ℚ

/-- Commission, slippage, and the largest part of the portfolio for a position in percent. -/
structure Terms where
  commission : ℚ
  slippage : ℚ
  max_pos_pct : ℚ
  commission_nonneg : 0 ≤ commission
  commission_lt : commission < 1
  slippage_nonneg : 0 ≤ slippage
  slippage_lt : slippage < 1
  max_pos_pct_pos : 0 < max_pos_pct
  max_pos_pct_le : max_pos_pct ≤ 100

/-- What the returned message reports. -/
inductive Report where
  | noPrice (symbol : String)
  | alreadyOpen (symbol : String)
  | noCapital (symbol : String) (cash : ℚ)
  | opened (position : Position) (cash : ℚ)
  | noPosition (symbol : String)
  | exited (trade : CompletedTrade) (cash : ℚ)
  | unknown (symbol text : String)
  deriving DecidableEq

namespace Portfolio

variable (pf : Portfolio)

def position? (symbol : String) : Option Position := pf.positions.find? fun p => p.symbol = symbol

/-- Cash and open costs. -/
def bookValue : ℚ := pf.cash + (pf.positions.map Position.cost).sum

end Portfolio

def executedPrice (direction : Direction) (price slippage : ℚ) : ℚ :=
  match direction with
  | .long => price * (1 + slippage)
  | .short => price * (1 - slippage)

def openPosition (symbol today : String) (direction : Direction) (price capital : ℚ) (t : Terms) :
    Position :=
  let exec_price := executedPrice direction price t.slippage
  let cost_per_share := exec_price * (1 + t.commission)
  let shares := capital / cost_per_share
  { symbol, direction, entry_date := today, entry_price := exec_price, shares
    cost := shares * cost_per_share, current_price := price, unrealized_pnl := 0
    unrealized_pct := 0 }

/-- The trade of a position that is exited. -/
def closePosition (today : String) (pos : Position) (exec_price commission : ℚ) : CompletedTrade :=
  let gross := pos.shares * exec_price
  let comm := gross * commission
  let proceeds := gross - comm
  let pnl := match pos.direction with
    | .long => proceeds - pos.cost
    | .short => pos.cost - proceeds
  { symbol := pos.symbol, direction := pos.direction, entry_date := pos.entry_date
    exit_date := today, entry_price := pos.entry_price, exit_price := exec_price
    shares := pos.shares, pnl, pnl_pct := pnl / pos.cost * 100, commission := comm }

/-- The capital that an entry uses. -/
def capitalToUse (pf : Portfolio) (t : Terms) : ℚ :=
  min (pf.cash * (95 / 100)) (pf.bookValue * (t.max_pos_pct / 100))

/-- **A signal is executed.** A price of zero counts as none. -/
def executeSignal (pf : Portfolio) (today : String) (signal : Signal) (prices : Prices)
    (t : Terms) : Portfolio × Report :=
  match (prices signal.symbol).filter (· ≠ 0) with
  | none => (pf, .noPrice signal.symbol)
  | some price =>
    match signal.action with
    | .enter direction =>
      if (pf.position? signal.symbol).isSome then (pf, .alreadyOpen signal.symbol)
      else if capitalToUse pf t < 10 then (pf, .noCapital signal.symbol pf.cash)
      else
        let pos := openPosition signal.symbol today direction price (capitalToUse pf t) t
        ({ pf with cash := pf.cash - pos.cost, positions := pf.positions ++ [pos] },
          .opened pos (pf.cash - pos.cost))
    | .exit =>
      match pf.position? signal.symbol with
      | none => (pf, .noPosition signal.symbol)
      | some pos =>
        let trade := closePosition today pos price t.commission
        ({ pf with
            cash := pf.cash + (pos.cost + trade.pnl)
            positions := pf.positions.filter fun p => p.symbol ≠ signal.symbol
            trades := pf.trades ++ [trade] },
          .exited trade (pf.cash + (pos.cost + trade.pnl)))
    | .other text => (pf, .unknown signal.symbol text)

def Position.mark (pos : Position) (price : ℚ) : Position :=
  let upnl := match pos.direction with
    | .long => (price - pos.entry_price) * pos.shares
    | .short => (pos.entry_price - price) * pos.shares
  { pos with
    current_price := price
    unrealized_pnl := upnl
    unrealized_pct := if pos.cost > 0 then upnl / pos.cost * 100 else 0 }

/-- A position at the current prices; one without a price stays as it is. -/
def Position.update (prices : Prices) (pos : Position) : Position :=
  match (prices pos.symbol).filter (· ≠ 0) with
  | none => pos
  | some price => pos.mark price

/-- **The current prices are taken over.** -/
def updatePrices (pf : Portfolio) (prices : Prices) : Portfolio :=
  { pf with positions := pf.positions.map (Position.update prices) }

structure Summary where
  cash : ℚ
  positions_value : ℚ
  total_value : ℚ
  total_return : ℚ
  total_return_pct : ℚ
  unrealized_pnl : ℚ
  open_positions : ℕ
  completed_trades : ℕ
  win_rate_pct : ℚ
  profit_factor : ℚ

/-- **The summary of a portfolio.** -/
def portfolioSummary (pf : Portfolio) : Summary :=
  let positions_value := (pf.positions.map fun p => p.cost + p.unrealized_pnl).sum
  let total_value := pf.cash + positions_value
  let total_return := total_value - pf.initial_capital
  let wins := pf.trades.filter (·.pnl > 0)
  let losses := pf.trades.filter (·.pnl ≤ 0)
  let total_wins := (wins.map CompletedTrade.pnl).sum
  let total_losses := |(losses.map CompletedTrade.pnl).sum|
  { cash := pf.cash, positions_value, total_value, total_return
    total_return_pct :=
      if pf.initial_capital > 0 then total_return / pf.initial_capital * 100 else 0
    unrealized_pnl := (pf.positions.map Position.unrealized_pnl).sum
    open_positions := pf.positions.length
    completed_trades := pf.trades.length
    win_rate_pct := if pf.trades = [] then 0 else (wins.length : ℚ) / pf.trades.length * 100
    profit_factor := if total_losses > 0 then total_wins / total_losses else 0 }

/-- All positions are exited, one after the other. -/
def exitAll (pf : Portfolio) (today : String) (prices : Prices) (t : Terms) : Portfolio :=
  pf.positions.foldl (fun pf pos => (executeSignal pf today ⟨pos.symbol, .exit⟩ prices t).1) pf

/-! ## The book -/

structure MarketPrices where
  price : Prices
  pos : ∀ symbol q, price symbol = some q → 0 < q

inductive Call where
  | execute (today : String) (signal : Signal) (prices : MarketPrices) (terms : Terms)
  | update (prices : MarketPrices)

/-- What an entry met: the market price and its terms. -/
structure Opening where
  price : ℚ
  commission : ℚ
  slippage : ℚ
  deriving DecidableEq

/-- A completed trade with what its entry and its exit met. -/
structure Closed where
  trade : CompletedTrade
  opening : Opening
  price : ℚ
  commission : ℚ
  deriving DecidableEq

/-- **A portfolio with the market prices and terms of its trades**, the latest opening first. -/
structure Book where
  portfolio : Portfolio
  openings : List (String × Opening)
  closed : List Closed

namespace Book

/-- What is written into the book beside the portfolio. -/
def note (b : Book) (price : ℚ) (t : Terms) (pf : Portfolio) : Report → Book
  | .opened pos _ =>
    { b with
      portfolio := pf
      openings := (pos.symbol, ⟨price, t.commission, t.slippage⟩) :: b.openings }
  | .exited trade _ =>
    { b with
      portfolio := pf
      closed := b.closed ++
        [⟨trade, (b.openings.lookup trade.symbol).getD ⟨0, 0, 0⟩, price, t.commission⟩] }
  | _ => { b with portfolio := pf }

/-- One call. -/
def step (b : Book) : Call → Book
  | .execute today signal prices t =>
    b.note ((prices.price signal.symbol).getD 0) t
      (executeSignal b.portfolio today signal prices.price t).1
      (executeSignal b.portfolio today signal prices.price t).2
  | .update prices => { b with portfolio := updatePrices b.portfolio prices.price }

def fresh (initial_capital : ℚ) : Book := ⟨⟨initial_capital, initial_capital, [], []⟩, [], []⟩

/-- A run of calls from a fresh portfolio. -/
def run (initial_capital : ℚ) (calls : List Call) : Book := calls.foldl step (fresh initial_capital)

end Book

/-- A position as its entry has left it. -/
structure Opened (pos : Position) (o : Opening) : Prop where
  shares_pos : 0 < pos.shares
  price_pos : 0 < o.price
  commission_nonneg : 0 ≤ o.commission
  slippage_nonneg : 0 ≤ o.slippage
  entry_price : pos.entry_price = executedPrice pos.direction o.price o.slippage
  cost : pos.cost = pos.shares * (pos.entry_price * (1 + o.commission))

/-- A trade as its exit has left it. -/
def Closed.Sound (x : Closed) : Prop :=
  0 < x.price ∧ 0 ≤ x.commission ∧
    ∃ today pos, Opened pos x.opening ∧ x.trade = closePosition today pos x.price x.commission

/-- **The invariant of the book.** -/
structure BookInv (b : Book) : Prop where
  nodup : (b.portfolio.positions.map Position.symbol).Nodup
  opened : ∀ pos ∈ b.portfolio.positions,
    ∃ o, b.openings.lookup pos.symbol = some o ∧ Opened pos o
  trades : b.portfolio.trades = b.closed.map Closed.trade
  closed : ∀ x ∈ b.closed, x.Sound
  balance : b.portfolio.bookValue
    = b.portfolio.initial_capital + (b.portfolio.trades.map CompletedTrade.pnl).sum

/-! ## Entries and exits -/

theorem executedPrice_pos (direction : Direction) {price slippage : ℚ} (hp : 0 < price)
    (h₀ : 0 ≤ slippage) (h₁ : slippage < 1) : 0 < executedPrice direction price slippage := by
  cases direction with
  | long => exact mul_pos hp (by linarith)
  | short => exact mul_pos hp (by linarith)

theorem opened_openPosition {symbol today : String} {direction : Direction} {price capital : ℚ}
    {t : Terms} (hp : 0 < price) (hcapital : 0 < capital) :
    Opened (openPosition symbol today direction price capital t)
      ⟨price, t.commission, t.slippage⟩ := by
  have hexec := executedPrice_pos direction hp t.slippage_nonneg t.slippage_lt
  have hc : 0 < 1 + t.commission := by linarith [t.commission_nonneg]
  exact ⟨div_pos hcapital (mul_pos hexec hc), hp, t.commission_nonneg, t.slippage_nonneg, rfl, rfl⟩

theorem symbol_of_position? {pf : Portfolio} {symbol : String} {pos : Position}
    (h : pf.position? symbol = some pos) : pos ∈ pf.positions ∧ pos.symbol = symbol :=
  ⟨List.mem_of_find?_eq_some h, by simpa using List.find?_some h⟩

theorem position?_none {pf : Portfolio} {symbol : String} (h : pf.position? symbol = none) :
    symbol ∉ pf.positions.map Position.symbol := by
  intro hmem
  obtain ⟨pos, hpos, hsymbol⟩ := List.mem_map.mp hmem
  have hnot := List.find?_eq_none.mp h pos hpos
  exact hnot (by simpa using hsymbol)

/-- **What a signal can do**: nothing, an entry, or an exit. -/
theorem executeSignal_cases (pf : Portfolio) (today : String) (signal : Signal) (prices : Prices)
    (t : Terms) :
    (∃ report, executeSignal pf today signal prices t = (pf, report) ∧
      (∀ pos cash, report ≠ .opened pos cash) ∧ ∀ trade cash, report ≠ .exited trade cash) ∨
    (∃ direction price pos, prices signal.symbol = some price ∧
      pf.position? signal.symbol = none ∧ 10 ≤ capitalToUse pf t ∧
      pos = openPosition signal.symbol today direction price (capitalToUse pf t) t ∧
      executeSignal pf today signal prices t
        = ({ pf with cash := pf.cash - pos.cost, positions := pf.positions ++ [pos] },
          .opened pos (pf.cash - pos.cost))) ∨
    (∃ price pos trade, prices signal.symbol = some price ∧
      pf.position? signal.symbol = some pos ∧
      trade = closePosition today pos price t.commission ∧
      executeSignal pf today signal prices t
        = ({ pf with
              cash := pf.cash + (pos.cost + trade.pnl)
              positions := pf.positions.filter fun p => p.symbol ≠ signal.symbol
              trades := pf.trades ++ [trade] },
            .exited trade (pf.cash + (pos.cost + trade.pnl)))) := by
  cases hprice : (prices signal.symbol).filter (· ≠ 0) with
  | none =>
    exact Or.inl ⟨_, by simp only [executeSignal, hprice]; rfl, by simp, by simp⟩
  | some price =>
    have hsome := (Option.filter_eq_some_iff.mp hprice).1
    cases haction : signal.action with
    | enter direction =>
      by_cases hopen : (pf.position? signal.symbol).isSome
      · refine Or.inl ⟨.alreadyOpen signal.symbol, ?_, by simp, by simp⟩
        simp only [executeSignal, hprice, haction, if_pos hopen]
      · by_cases hcapital : capitalToUse pf t < 10
        · refine Or.inl ⟨.noCapital signal.symbol pf.cash, ?_, by simp, by simp⟩
          simp only [executeSignal, hprice, haction, if_neg hopen, if_pos hcapital]
        · refine Or.inr (Or.inl ⟨direction, price, _, hsome, by simpa using hopen,
            not_lt.mp hcapital, rfl, ?_⟩)
          simp only [executeSignal, hprice, haction, if_neg hopen, if_neg hcapital]
    | exit =>
      cases hpos : pf.position? signal.symbol with
      | none =>
        refine Or.inl ⟨.noPosition signal.symbol, ?_, by simp, by simp⟩
        simp only [executeSignal, hprice, haction, hpos]
      | some pos =>
        refine Or.inr (Or.inr ⟨price, pos, _, hsome, rfl, rfl, ?_⟩)
        simp only [executeSignal, hprice, haction, hpos]
    | other text =>
      refine Or.inl ⟨.unknown signal.symbol text, ?_, by simp, by simp⟩
      simp only [executeSignal, hprice, haction]

theorem sum_filter_symbol {positions : List Position} {f : Position → ℚ} {pos : Position}
    (hnodup : (positions.map Position.symbol).Nodup) (hpos : pos ∈ positions) :
    ((positions.filter fun p => p.symbol ≠ pos.symbol).map f).sum
      = (positions.map f).sum - f pos := by
  induction positions with
  | nil => exact absurd hpos List.not_mem_nil
  | cons p l ih =>
    obtain ⟨hp, hl⟩ := List.nodup_cons.mp hnodup
    rcases List.mem_cons.mp hpos with rfl | hpos
    · have hkeep : l.filter (fun p => p.symbol ≠ pos.symbol) = l := by
        rw [List.filter_eq_self]
        intro p' hp'
        exact decide_eq_true fun h => hp (h ▸ List.mem_map_of_mem hp')
      rw [List.filter_cons_of_neg (by simp), hkeep, List.map_cons, List.sum_cons]
      ring
    · have hne : p.symbol ≠ pos.symbol := fun h => hp (h ▸ List.mem_map_of_mem hpos)
      rw [List.filter_cons_of_pos (by simpa using hne), List.map_cons, List.sum_cons, ih hl hpos,
        List.map_cons, List.sum_cons]
      ring

/-! ## Runs -/

theorem bookInv_fresh (initial_capital : ℚ) : BookInv (Book.fresh initial_capital) :=
  ⟨List.nodup_nil, fun _ h => absurd h List.not_mem_nil, rfl,
    fun _ h => absurd h List.not_mem_nil, rfl⟩

theorem BookInv.enter {b : Book} (h : BookInv b) {symbol today : String} {direction : Direction}
    {price : ℚ} {t : Terms} {pos : Position} (hp : 0 < price)
    (hnone : b.portfolio.position? symbol = none) (hcapital : 10 ≤ capitalToUse b.portfolio t)
    (hpos : pos = openPosition symbol today direction price (capitalToUse b.portfolio t) t) :
    BookInv (b.note price t { b.portfolio with
        cash := b.portfolio.cash - pos.cost, positions := b.portfolio.positions ++ [pos] }
      (.opened pos (b.portfolio.cash - pos.cost))) := by
  have hsymbol : pos.symbol = symbol := by rw [hpos]; rfl
  have hnew := position?_none hnone
  refine ⟨?_, fun pos' hpos' => ?_, h.trades, h.closed, ?_⟩
  · show ((b.portfolio.positions ++ [pos]).map Position.symbol).Nodup
    rw [List.map_append, List.nodup_append]
    refine ⟨h.nodup, List.nodup_singleton _, fun a ha c hc hac => ?_⟩
    rw [List.map_singleton, List.mem_singleton, hsymbol] at hc
    exact hnew (hc ▸ hac ▸ ha)
  · show ∃ o, List.lookup pos'.symbol ((pos.symbol, _) :: b.openings) = some o ∧ _
    rcases List.mem_append.mp hpos' with hpos' | hpos'
    · obtain ⟨o, ho, hopened⟩ := h.opened pos' hpos'
      have hne : pos'.symbol ≠ pos.symbol := by
        rw [hsymbol]
        exact fun heq => hnew (heq ▸ List.mem_map_of_mem hpos')
      refine ⟨o, ?_, hopened⟩
      rw [List.lookup_cons, beq_false_of_ne hne]
      exact ho
    · rw [List.mem_singleton.mp hpos']
      refine ⟨⟨price, t.commission, t.slippage⟩, by simp, ?_⟩
      rw [hpos]
      exact opened_openPosition hp (by linarith)
  · have hbalance := h.balance
    simp only [Portfolio.bookValue] at hbalance ⊢
    simp only [Book.note, List.map_append, List.sum_append, List.map_singleton, List.sum_singleton]
    linarith

theorem BookInv.exit {b : Book} (h : BookInv b) {symbol today : String} {price : ℚ} {t : Terms}
    {pos : Position} {trade : CompletedTrade} (hp : 0 < price)
    (hsome : b.portfolio.position? symbol = some pos)
    (htrade : trade = closePosition today pos price t.commission) :
    BookInv (b.note price t { b.portfolio with
        cash := b.portfolio.cash + (pos.cost + trade.pnl)
        positions := b.portfolio.positions.filter fun p => p.symbol ≠ symbol
        trades := b.portfolio.trades ++ [trade] }
      (.exited trade (b.portfolio.cash + (pos.cost + trade.pnl)))) := by
  obtain ⟨hmem, rfl⟩ := symbol_of_position? hsome
  obtain ⟨o, ho, hopened⟩ := h.opened pos hmem
  have hsymbol : trade.symbol = pos.symbol := by rw [htrade]; rfl
  refine ⟨?_, fun pos' hpos' => ?_, ?_, fun x hx => ?_, ?_⟩
  · exact h.nodup.sublist (List.filter_sublist.map Position.symbol)
  · exact h.opened pos' (List.mem_filter.mp hpos').1
  · show b.portfolio.trades ++ [trade] = _
    simp only [Book.note, h.trades, List.map_append, List.map_singleton]
  · rcases List.mem_append.mp hx with hx | hx
    · exact h.closed x hx
    · rw [List.mem_singleton.mp hx, hsymbol, ho]
      exact ⟨hp, t.commission_nonneg, today, pos, hopened, htrade⟩
  · have hbalance := h.balance
    have hsum := sum_filter_symbol (f := Position.cost) h.nodup hmem
    simp only [Portfolio.bookValue] at hbalance ⊢
    simp only [Book.note, hsum, List.map_append, List.sum_append, List.map_singleton,
      List.sum_singleton]
    linarith

theorem update_eq (prices : Prices) (pos : Position) :
    (pos.update prices).symbol = pos.symbol ∧ (pos.update prices).direction = pos.direction ∧
      (pos.update prices).shares = pos.shares ∧ (pos.update prices).cost = pos.cost ∧
      (pos.update prices).entry_price = pos.entry_price := by
  rw [Position.update]
  cases (prices pos.symbol).filter (· ≠ 0) with
  | none => exact ⟨rfl, rfl, rfl, rfl, rfl⟩
  | some price => exact ⟨rfl, rfl, rfl, rfl, rfl⟩

theorem map_update {α : Type} (prices : Prices) (positions : List Position) {f : Position → α}
    (hf : ∀ pos, f (pos.update prices) = f pos) :
    (positions.map (Position.update prices)).map f = positions.map f := by
  rw [List.map_map]
  exact List.map_congr_left fun pos _ => hf pos

theorem BookInv.update {b : Book} (h : BookInv b) (prices : Prices) :
    BookInv { b with portfolio := updatePrices b.portfolio prices } := by
  refine ⟨?_, fun pos hpos => ?_, h.trades, h.closed, ?_⟩
  · show ((b.portfolio.positions.map (Position.update prices)).map Position.symbol).Nodup
    rw [map_update prices _ fun pos => (update_eq prices pos).1]
    exact h.nodup
  · obtain ⟨pos₀, hpos₀, rfl⟩ := List.mem_map.mp hpos
    obtain ⟨hsymbol, hdirection, hshares, hcost, hentry⟩ := update_eq prices pos₀
    obtain ⟨o, ho, hopened⟩ := h.opened pos₀ hpos₀
    refine ⟨o, by rw [hsymbol]; exact ho, ⟨?_, hopened.price_pos, hopened.commission_nonneg,
      hopened.slippage_nonneg, ?_, ?_⟩⟩
    · rw [hshares]
      exact hopened.shares_pos
    · rw [hentry, hdirection]
      exact hopened.entry_price
    · rw [hcost, hshares, hentry]
      exact hopened.cost
  · have hbalance := h.balance
    simp only [Portfolio.bookValue] at hbalance ⊢
    simp only [updatePrices]
    rw [map_update prices _ fun pos => (update_eq prices pos).2.2.2.1]
    exact hbalance

theorem Book.note_of_other {b : Book} {price : ℚ} {t : Terms} {report : Report}
    (hopened : ∀ pos cash, report ≠ .opened pos cash)
    (hexited : ∀ trade cash, report ≠ .exited trade cash) :
    b.note price t b.portfolio report = b := by
  cases report with
  | opened pos cash => exact absurd rfl (hopened pos cash)
  | exited trade cash => exact absurd rfl (hexited trade cash)
  | noPrice symbol => rfl
  | alreadyOpen symbol => rfl
  | noCapital symbol cash => rfl
  | noPosition symbol => rfl
  | unknown symbol text => rfl

/-- **One call keeps the invariant.** -/
theorem bookInv_step {b : Book} (h : BookInv b) (c : Call) : BookInv (b.step c) := by
  cases c with
  | update prices => exact h.update prices.price
  | execute today signal prices t =>
    rw [Book.step]
    obtain ⟨report, heq, hopened, hexited⟩ |
        ⟨direction, price, pos, hprice, hnone, hcapital, hpos, heq⟩ |
        ⟨price, pos, trade, hprice, hsome, htrade, heq⟩ :=
      executeSignal_cases b.portfolio today signal prices.price t
    · rw [heq, Book.note_of_other hopened hexited]
      exact h
    · rw [heq, hprice]
      exact h.enter (prices.pos _ _ hprice) hnone hcapital hpos
    · rw [heq, hprice]
      exact h.exit (prices.pos _ _ hprice) hsome htrade

/-- **Every run keeps the invariant.** -/
theorem bookInv_run (initial_capital : ℚ) (calls : List Call) :
    BookInv (Book.run initial_capital calls) := by
  have hrun : ∀ b, BookInv b → BookInv (calls.foldl Book.step b) := by
    induction calls with
    | nil => exact fun b hb => hb
    | cons c calls ih => exact fun b hb => ih _ (bookInv_step hb c)
  exact hrun _ (bookInv_fresh initial_capital)

theorem initial_step (b : Book) (c : Call) :
    (b.step c).portfolio.initial_capital = b.portfolio.initial_capital := by
  cases c with
  | update prices => rfl
  | execute today signal prices t =>
    rw [Book.step]
    obtain ⟨report, heq, hopened, hexited⟩ | ⟨_, _, pos, -, -, -, -, heq⟩ |
        ⟨_, pos, trade, -, -, -, heq⟩ :=
      executeSignal_cases b.portfolio today signal prices.price t
    · rw [heq, Book.note_of_other hopened hexited]
    · rw [heq]
      rfl
    · rw [heq]
      rfl

theorem initial_run (initial_capital : ℚ) (calls : List Call) :
    (Book.run initial_capital calls).portfolio.initial_capital = initial_capital := by
  have hrun : ∀ b, (calls.foldl Book.step b).portfolio.initial_capital
      = b.portfolio.initial_capital := by
    induction calls with
    | nil => exact fun b => rfl
    | cons c calls ih => exact fun b => (ih _).trans (initial_step b c)
  exact hrun _

/-- **The book balances.** -/
theorem balance_run (initial_capital : ℚ) (calls : List Call) :
    (Book.run initial_capital calls).portfolio.bookValue = initial_capital +
      ((Book.run initial_capital calls).portfolio.trades.map CompletedTrade.pnl).sum := by
  have hbalance := (bookInv_run initial_capital calls).balance
  rwa [initial_run] at hbalance

/-! ## The cost of a trade -/

/-- The result of a trade is at most what the market moved, in its direction. -/
def Closed.AtMostMarket (x : Closed) : Prop :=
  match x.trade.direction with
  | .long => x.trade.pnl ≤ x.trade.shares * (x.price - x.opening.price)
  | .short => x.trade.pnl ≤ x.trade.shares * (x.opening.price - x.price)

/-- Of a short, the commission of the exit is at most what the slippage at entry leaves of the
commission of the entry. -/
def Closed.Covered (x : Closed) : Prop :=
  x.trade.direction = .short → x.price * x.commission
    ≤ x.opening.price * (x.opening.slippage - x.opening.commission * (1 - x.opening.slippage))

theorem Closed.atMostMarket_iff {x : Closed} (h : x.Sound) : x.AtMostMarket ↔ x.Covered := by
  obtain ⟨hp, hc, today, pos, hopened, htrade⟩ := h
  have hn := hopened.shares_pos
  have hprice := hopened.price_pos
  rw [AtMostMarket, Covered, htrade]
  cases hdirection : pos.direction with
  | long =>
    have hentry : pos.entry_price = x.opening.price * (1 + x.opening.slippage) := by
      rw [hopened.entry_price, hdirection]
      rfl
    simp only [closePosition, hdirection, hopened.cost, hentry, reduceCtorEq, false_implies,
      iff_true]
    have h₁ : 0 ≤ pos.shares * x.price * x.commission := by positivity
    have h₂ : 0 ≤ pos.shares * (x.opening.price * x.opening.slippage) :=
      mul_nonneg hn.le (mul_nonneg hprice.le hopened.slippage_nonneg)
    have h₃ : 0 ≤ pos.shares *
        (x.opening.price * (1 + x.opening.slippage) * x.opening.commission) :=
      mul_nonneg hn.le (mul_nonneg (mul_nonneg hprice.le
        (by linarith [hopened.slippage_nonneg])) hopened.commission_nonneg)
    linarith
  | short =>
    have hentry : pos.entry_price = x.opening.price * (1 - x.opening.slippage) := by
      rw [hopened.entry_price, hdirection]
      rfl
    simp only [closePosition, hdirection, hopened.cost, hentry, true_implies]
    have hfactor : pos.shares * (x.opening.price - x.price)
        - (pos.shares * (x.opening.price * (1 - x.opening.slippage) * (1 + x.opening.commission))
          - (pos.shares * x.price - pos.shares * x.price * x.commission))
        = pos.shares * (x.opening.price
            * (x.opening.slippage - x.opening.commission * (1 - x.opening.slippage))
          - x.price * x.commission) := by ring
    rw [← sub_nonneg, hfactor, mul_nonneg_iff_of_pos_left hn, sub_nonneg]

/-! ## All positions at once -/

/-- The commissions of a position: the one in its cost, and the one of an exit. -/
def commissions (prices : Prices) (t : Terms) (pos : Position) : ℚ :=
  (pos.cost - pos.shares * pos.entry_price)
    + pos.shares * (prices pos.symbol).getD 0 * t.commission

/-- The commissions of all positions of a direction. -/
def commissionsOf (pf : Portfolio) (prices : Prices) (t : Terms) (direction : Direction) : ℚ :=
  ((pf.positions.filter fun p => p.direction = direction).map (commissions prices t)).sum

/-- Every open position has a price. -/
def Priced (pf : Portfolio) (prices : Prices) : Prop :=
  ∀ pos ∈ pf.positions, (prices pos.symbol).isSome

/-- The value of a position after its price was taken over, less the cash of an exit. -/
def excess (today : String) (prices : Prices) (t : Terms) (pos : Position) : ℚ :=
  (pos.update prices).unrealized_pnl
    - (closePosition today pos ((prices pos.symbol).getD 0) t.commission).pnl

theorem updated {prices : MarketPrices} {pos : Position} {price : ℚ}
    (h : prices.price pos.symbol = some price) : pos.update prices.price = pos.mark price := by
  have hne : price ≠ 0 := (prices.pos _ _ h).ne'
  rw [Position.update, h, Option.filter_some, if_pos (decide_eq_true hne)]

theorem excess_long {today : String} {prices : MarketPrices} {t : Terms} {pos : Position}
    (h : (prices.price pos.symbol).isSome) (hd : pos.direction = .long) :
    excess today prices.price t pos = commissions prices.price t pos := by
  obtain ⟨price, hprice⟩ := Option.isSome_iff_exists.mp h
  rw [excess, updated hprice, commissions, hprice]
  simp only [Position.mark, closePosition, hd, Option.getD_some]
  ring

theorem excess_short {today : String} {prices : MarketPrices} {t : Terms} {pos : Position}
    (h : (prices.price pos.symbol).isSome) (hd : pos.direction = .short) :
    excess today prices.price t pos = -commissions prices.price t pos := by
  obtain ⟨price, hprice⟩ := Option.isSome_iff_exists.mp h
  rw [excess, updated hprice, commissions, hprice]
  simp only [Position.mark, closePosition, hd, Option.getD_some]
  ring

theorem sum_excess (today : String) {prices : MarketPrices} {t : Terms} {positions : List Position}
    (h : ∀ pos ∈ positions, (prices.price pos.symbol).isSome) :
    (positions.map (excess today prices.price t)).sum
      = ((positions.filter fun p => p.direction = .long).map (commissions prices.price t)).sum
        - ((positions.filter fun p => p.direction = .short).map
            (commissions prices.price t)).sum := by
  induction positions with
  | nil => simp
  | cons pos l ih =>
    have hpos := h pos List.mem_cons_self
    rw [List.map_cons, List.sum_cons, ih fun p hp => h p (List.mem_cons_of_mem pos hp)]
    cases hd : pos.direction with
    | long =>
      rw [List.filter_cons_of_pos (by simp [hd]), List.filter_cons_of_neg (by simp [hd]),
        excess_long hpos hd, List.map_cons, List.sum_cons]
      ring
    | short =>
      rw [List.filter_cons_of_neg (by simp [hd]), List.filter_cons_of_pos (by simp [hd]),
        excess_short hpos hd, List.map_cons, List.sum_cons]
      ring

def exitCash (today : String) (prices : Prices) (t : Terms) (pos : Position) : ℚ :=
  pos.cost + (closePosition today pos ((prices pos.symbol).getD 0) t.commission).pnl

theorem exit_first {pf : Portfolio} {pos : Position} {l : List Position} (today : String)
    {prices : MarketPrices} (t : Terms) (hpositions : pf.positions = pos :: l)
    (hnodup : (pf.positions.map Position.symbol).Nodup)
    (hpriced : (prices.price pos.symbol).isSome) :
    (executeSignal pf today ⟨pos.symbol, .exit⟩ prices.price t).1.positions = l ∧
      (executeSignal pf today ⟨pos.symbol, .exit⟩ prices.price t).1.cash
        = pf.cash + exitCash today prices.price t pos := by
  obtain ⟨price, hprice⟩ := Option.isSome_iff_exists.mp hpriced
  have hfilter : (prices.price pos.symbol).filter (· ≠ 0) = some price := by
    rw [hprice, Option.filter_some, if_pos (decide_eq_true (prices.pos _ _ hprice).ne')]
  have hfind : pf.position? pos.symbol = some pos := by
    rw [Portfolio.position?, hpositions, List.find?_cons_of_pos (by simp)]
  rw [hpositions] at hnodup
  obtain ⟨hnew, -⟩ := List.nodup_cons.mp hnodup
  have hkeep : l.filter (fun p => p.symbol ≠ pos.symbol) = l := by
    rw [List.filter_eq_self]
    intro p hp
    exact decide_eq_true fun h => hnew (h ▸ List.mem_map_of_mem hp)
  rw [exitCash, hprice, Option.getD_some]
  simp only [executeSignal, hfilter, hfind, hpositions]
  refine ⟨?_, trivial⟩
  rw [List.filter_cons_of_neg (by simp), hkeep]

/-- **The cash of exiting everything.** -/
theorem cash_exitAll (pf : Portfolio) (today : String) (prices : MarketPrices) (t : Terms)
    (hnodup : (pf.positions.map Position.symbol).Nodup) (hpriced : Priced pf prices.price) :
    (exitAll pf today prices.price t).cash
      = pf.cash + (pf.positions.map (exitCash today prices.price t)).sum := by
  have hall : ∀ (l : List Position) (pf : Portfolio), pf.positions = l →
      (l.map Position.symbol).Nodup → (∀ pos ∈ l, (prices.price pos.symbol).isSome) →
      (l.foldl (fun pf pos =>
          (executeSignal pf today ⟨pos.symbol, .exit⟩ prices.price t).1) pf).cash
        = pf.cash + (l.map (exitCash today prices.price t)).sum := by
    intro l
    induction l with
    | nil =>
      intro pf _ _ _
      simp
    | cons pos l ih =>
      intro pf hpf hl hp
      obtain ⟨hrest, hcash⟩ := exit_first today t hpf (by rw [hpf]; exact hl)
        (hp pos List.mem_cons_self)
      rw [List.foldl_cons, ih _ hrest (List.nodup_cons.mp hl).2
        fun p hp' => hp p (List.mem_cons_of_mem pos hp'), hcash, List.map_cons, List.sum_cons]
      ring
  exact hall pf.positions pf rfl hnodup hpriced

theorem total_value_sub_cash (pf : Portfolio) (today : String) (prices : MarketPrices) (t : Terms)
    (hnodup : (pf.positions.map Position.symbol).Nodup) (hpriced : Priced pf prices.price) :
    (portfolioSummary (updatePrices pf prices.price)).total_value
        - (exitAll pf today prices.price t).cash
      = commissionsOf pf prices.price t .long - commissionsOf pf prices.price t .short := by
  rw [cash_exitAll pf today prices t hnodup hpriced, commissionsOf, commissionsOf,
    ← sum_excess today hpriced]
  show pf.cash + ((pf.positions.map (Position.update prices.price)).map
    fun p => p.cost + p.unrealized_pnl).sum - _ = _
  have hsplit : ∀ l : List Position,
      ((l.map (Position.update prices.price)).map fun p => p.cost + p.unrealized_pnl).sum
        = (l.map (exitCash today prices.price t)).sum
          + (l.map (excess today prices.price t)).sum := by
    intro l
    induction l with
    | nil => simp
    | cons pos l ih =>
      simp only [List.map_cons, List.sum_cons]
      rw [ih, (update_eq prices.price pos).2.2.2.1, exitCash, excess]
      ring
  rw [hsplit]
  ring

/-- **Costs never help**: the book balances, no completed trade has gained more than the market
moved, and the summary promises at least the cash of exiting everything. -/
structure CostsNeverHelp (initial_capital : ℚ) (b : Book) (today : String) (prices : Prices)
    (t : Terms) : Prop where
  balance : b.portfolio.bookValue
    = initial_capital + (b.portfolio.trades.map CompletedTrade.pnl).sum
  recorded : b.portfolio.trades = b.closed.map Closed.trade
  closed : ∀ x ∈ b.closed, x.AtMostMarket
  marked : Priced b.portfolio prices → (exitAll b.portfolio today prices t).cash
    ≤ (portfolioSummary (updatePrices b.portfolio prices)).total_value

/-- **Costs never help exactly if** every completed short is covered, and the commissions of the
open shorts are at most those of the open longs. -/
theorem costsNeverHelp_iff (initial_capital : ℚ) (calls : List Call) (today : String)
    (prices : MarketPrices) (t : Terms) :
    CostsNeverHelp initial_capital (Book.run initial_capital calls) today prices.price t ↔
      (∀ x ∈ (Book.run initial_capital calls).closed, x.Covered) ∧
        (Priced (Book.run initial_capital calls).portfolio prices.price →
          commissionsOf (Book.run initial_capital calls).portfolio prices.price t .short
            ≤ commissionsOf (Book.run initial_capital calls).portfolio prices.price t .long) := by
  have hinv := bookInv_run initial_capital calls
  have hvalue := total_value_sub_cash (Book.run initial_capital calls).portfolio today prices t
    hinv.nodup
  constructor
  · intro h
    refine ⟨fun x hx => (Closed.atMostMarket_iff (hinv.closed x hx)).mp (h.closed x hx),
      fun hpriced => ?_⟩
    have hle := h.marked hpriced
    linarith [hvalue hpriced]
  · rintro ⟨hclosed, hopen⟩
    refine ⟨balance_run initial_capital calls, hinv.trades,
      fun x hx => (Closed.atMostMarket_iff (hinv.closed x hx)).mpr (hclosed x hx),
      fun hpriced => ?_⟩
    linarith [hvalue hpriced, hopen hpriced]

/-! ## A short -/

def flat : MarketPrices where
  price _ := some 100
  pos _ q hq := by
    cases hq
    norm_num

theorem tenPercent_bounds : (0 : ℚ) ≤ 1 / 10 ∧ (1 / 10 : ℚ) < 1 ∧ (0 : ℚ) < 11 ∧ (11 : ℚ) ≤ 100 := by
  norm_num

def tenPercent : Terms where
  commission := 1 / 10
  slippage := 0
  max_pos_pct := 11
  commission_nonneg := tenPercent_bounds.1
  commission_lt := tenPercent_bounds.2.1
  slippage_nonneg := le_refl 0
  slippage_lt := zero_lt_one
  max_pos_pct_pos := tenPercent_bounds.2.2.1
  max_pos_pct_le := tenPercent_bounds.2.2.2

def soldAndBought : List Call :=
  [.execute "2026-01-01" ⟨"A", .enter .short⟩ flat tenPercent,
    .execute "2026-01-02" ⟨"A", .exit⟩ flat tenPercent]

/-- The commissions are booked as a gain. -/
theorem short_gains :
    ¬ CostsNeverHelp 1000 (Book.run 1000 soldAndBought) "2026-01-02" flat.price tenPercent := by
  intro h
  have hclosed : (Book.run 1000 soldAndBought).closed.map
      (fun x => (x.trade.direction, x.trade.pnl, x.trade.shares, x.opening.price, x.price))
        = [(.short, 20, 1, 100, 100)] := by decide +kernel
  obtain ⟨x, hx, hfields⟩ := List.mem_map.mp (hclosed ▸ List.mem_singleton_self _ :
    (Direction.short, (20 : ℚ), (1 : ℚ), (100 : ℚ), (100 : ℚ)) ∈ _)
  simp only [Prod.mk.injEq] at hfields
  obtain ⟨hdirection, hpnl, hshares, hopening, hprice⟩ := hfields
  have hle := h.closed x hx
  rw [Closed.AtMostMarket, hdirection] at hle
  simp only [hpnl, hshares, hopening, hprice] at hle
  norm_num at hle

end Virtual

end NeoTrader

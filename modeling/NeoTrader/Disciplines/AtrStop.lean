import Mathlib.Algebra.Order.BigOperators.Group.List
import Mathlib.Algebra.Order.Field.Rat
import Mathlib.Algebra.Order.Group.MinMax
import Mathlib.Data.List.Chain
import Mathlib.Tactic.Linarith
import Mathlib.Tactic.NormNum
import Mathlib.Tactic.Ring

/-!
# The stop of the average true range

The discipline sets the stop of an entry, and of an open position from its extreme price and the
average true range of the latest bars. Every cycle starts from scratch.

* **`ratchets_iff`**: when the stops of a run of cycles ratchet;
* **`stop_falls`**: a wide bar moves the stop back.
-/

namespace NeoTrader

namespace AtrStop

/-! ## The computation -/

/-- A bar; `high` and `low` may be missing. -/
structure Bar where
  close : ℚ
  high : Option ℚ
  low : Option ℚ

def Bar.highOrClose (b : Bar) : ℚ := b.high.getD b.close

def Bar.lowOrClose (b : Bar) : ℚ := b.low.getD b.close

/-- The true range of each bar but the first. -/
def trueRanges (highs lows closes : List ℚ) : List ℚ :=
  (highs.tail.zip (lows.tail.zip closes)).map fun x =>
    max (max (x.1 - x.2.1) |x.1 - x.2.2|) |x.2.1 - x.2.2|

/-- **Wilder's average true range.** -/
def wilderAtr (highs lows closes : List ℚ) (period : ℕ) : ℚ :=
  if highs.length < period + 1 then 0
  else
    let ranges := trueRanges highs lows closes
    if ranges.length < period then 0
    else
      let atr := (ranges.take period).sum / period
      (ranges.drop period).foldl (fun atr tr => (atr * (period - 1) + tr) / period) atr

/-- What is computed for a position. -/
structure StopResult where
  symbol : String
  entry_price : ℚ
  stop_loss : ℚ
  trailing_stop : Option ℚ
  take_profit_1r : ℚ
  take_profit_2r : ℚ
  take_profit_3r : ℚ
  atr14 : ℚ
  risk_per_share : ℚ
  risk_pct : ℚ
  stop_type : String
  deriving DecidableEq

/-- The bars of a symbol, in columns. -/
structure Columns where
  closes : List ℚ
  highs : List ℚ
  lows : List ℚ

/-- A value that is not zero. -/
def nonzero (x : Option ℚ) : Option ℚ := x.filter (· ≠ 0)

/-- **The stops of a position.** -/
def calculateStop (symbol : String) (entry_price : ℚ) (bars : Columns) (direction : String)
    (atr_period : ℕ) (stop_multiplier trailing_multiplier : ℚ) (highest_price : Option ℚ) :
    StopResult :=
  let atr14 := wilderAtr bars.highs bars.lows bars.closes atr_period
  if atr14 = 0 ∨ entry_price ≤ 0 then
    { symbol, entry_price
      stop_loss := 0
      trailing_stop := none
      take_profit_1r := entry_price
      take_profit_2r := entry_price
      take_profit_3r := entry_price
      atr14 := 0
      risk_per_share := 0
      risk_pct := 0
      stop_type := "initial" }
  else if direction = "long" then
    let stop_loss := entry_price - atr14 * stop_multiplier
    let trailing := ((nonzero highest_price).filter (entry_price < ·)).map fun highest =>
      max (highest - atr14 * trailing_multiplier) stop_loss
    let risk_per_share := entry_price - stop_loss
    { symbol, entry_price, stop_loss, atr14, risk_per_share
      trailing_stop := nonzero trailing
      take_profit_1r := entry_price + risk_per_share
      take_profit_2r := entry_price + risk_per_share * 2
      take_profit_3r := entry_price + risk_per_share * 3
      risk_pct := risk_per_share / entry_price * 100
      stop_type := if (nonzero trailing).isSome then "trailing" else "initial" }
  else
    let stop_loss := entry_price + atr14 * stop_multiplier
    let trailing := ((nonzero highest_price).filter (· < entry_price)).map fun highest =>
      min (highest + atr14 * trailing_multiplier) stop_loss
    let risk_per_share := stop_loss - entry_price
    { symbol, entry_price, stop_loss, atr14, risk_per_share
      trailing_stop := nonzero trailing
      take_profit_1r := entry_price - risk_per_share
      take_profit_2r := entry_price - risk_per_share * 2
      take_profit_3r := entry_price - risk_per_share * 3
      risk_pct := risk_per_share / entry_price * 100
      stop_type := if (nonzero trailing).isSome then "trailing" else "initial" }

/-! ## The hook -/

/-- The configuration; the manifest bounds the period below. -/
structure Config where
  atr_period : ℕ := 14
  atr_period_pos : 0 < atr_period := by decide
  stop_multiplier : ℚ := 2
  trailing_multiplier : ℚ := 3 / 2
  timeframe : String := "1d"

structure Signal where
  symbol : String
  action : String
  price : ℚ := 0
  deriving DecidableEq

structure Position where
  symbol : String
  entry_price : Option ℚ
  highest_price : Option ℚ
  direction : String := "long"

/-- A new trailing stop. -/
structure TrailingUpdate where
  symbol : String
  trailing_stop : ℚ
  atr14 : ℚ
  deriving DecidableEq

/-- `get_ohlcv(symbol, timeframe, limit)`; an error counts as no bars. -/
abbrev GetOhlcv : Type := String → String → ℕ → Option (List Bar)

section Hook

variable (config : Config) (getOhlcv : Option GetOhlcv)

/-- The bars of a symbol, if there are enough. -/
def fetchBars (symbol : String) : Option Columns := do
  let get ← getOhlcv
  let bars ← get symbol config.timeframe (config.atr_period * 3)
  if bars = [] ∨ bars.length < config.atr_period + 1 then none
  else some ⟨bars.map Bar.close, bars.map Bar.highOrClose, bars.map Bar.lowOrClose⟩

/-- The stops that are added to an entry; any other signal passes as it is. -/
def entryStop (sig : Signal) : Option StopResult :=
  if sig.action ≠ "long" ∧ sig.action ≠ "short" then none
  else
    (fetchBars config getOhlcv sig.symbol).bind fun bars =>
      if sig.price ≤ 0 then none
      else some (calculateStop sig.symbol sig.price bars
        (if sig.action = "long" then "long" else "short") config.atr_period
        config.stop_multiplier config.trailing_multiplier none)

/-- The trailing stop of an open position. -/
def trailingUpdate (pos : Position) : Option TrailingUpdate :=
  if pos.symbol = "" then none
  else
    (fetchBars config getOhlcv pos.symbol).bind fun bars =>
      let result := calculateStop pos.symbol (pos.entry_price.getD (bars.closes.getLastD 0)) bars
        pos.direction config.atr_period config.stop_multiplier config.trailing_multiplier
        pos.highest_price
      result.trailing_stop.map fun stop => ⟨pos.symbol, stop, result.atr14⟩

/-- **One cycle**: the signals with their stops, and the trailing stops. -/
def onCycle (pending : List Signal) (positions : List Position) :
    List (Signal × Option StopResult) × List TrailingUpdate :=
  (pending.map fun sig => (sig, entryStop config getOhlcv sig),
    positions.filterMap (trailingUpdate config getOhlcv))

end Hook

/-! ## A position followed bar by bar -/

/-- The direction of a position. -/
inductive Side where
  | long
  | short
  deriving DecidableEq

namespace Side

def text : Side → String
  | long => "long"
  | short => "short"

/-- A price, seen so that profit is up. -/
def signed : Side → ℚ → ℚ
  | long, x => x
  | short, x => -x

/-- `x` is not nearer to profit than `y`. -/
def le : Side → ℚ → ℚ → Prop
  | long, x, y => x ≤ y
  | short, x, y => y ≤ x

/-- `x` is strictly on the loss side of `y`. -/
def lt : Side → ℚ → ℚ → Prop
  | long, x, y => x < y
  | short, x, y => y < x

/-- The price nearer to profit. -/
def best : Side → ℚ → ℚ → ℚ
  | long, x, y => max x y
  | short, x, y => min x y

theorem le_iff (side : Side) (x y : ℚ) : side.le x y ↔ side.signed x ≤ side.signed y := by
  cases side with
  | long => rfl
  | short => exact neg_le_neg_iff.symm

theorem lt_iff (side : Side) (x y : ℚ) : side.lt x y ↔ side.signed x < side.signed y := by
  cases side with
  | long => rfl
  | short => exact neg_lt_neg_iff.symm

theorem signed_best (side : Side) (x y : ℚ) :
    side.signed (side.best x y) = max (side.signed x) (side.signed y) := by
  cases side with
  | long => rfl
  | short => exact (max_neg_neg x y).symm

end Side

/-- A provider that knows `seen` and returns the latest bars. -/
def latest (seen : List Bar) : GetOhlcv := fun _ _ limit => some (seen.drop (seen.length - limit))

/-- **A position from its entry on.** `mark` is the price of a bar that the extreme follows. -/
structure Trade where
  config : Config
  symbol : String
  side : Side
  entry_price : ℚ
  mark : Bar → ℚ
  past : List Bar
  symbol_ne : symbol ≠ ""
  stop_pos : 0 < config.stop_multiplier
  trailing_pos : 0 < config.trailing_multiplier

/-- A reported trailing stop, with the extreme price it was computed from. -/
structure Report where
  extreme : ℚ
  update : TrailingUpdate
  deriving DecidableEq

namespace Trade

variable (t : Trade)

/-- The stops that the entry gets. -/
def initial : Option StopResult :=
  entryStop t.config (some (latest t.past)) ⟨t.symbol, t.side.text, t.entry_price⟩

/-- The position, when its extreme price is `extreme`. -/
def position (extreme : ℚ) : Position :=
  ⟨t.symbol, some t.entry_price, some extreme, t.side.text⟩

/-- What a cycle reports for the position. -/
def report (seen : List Bar) (extreme : ℚ) : Option Report :=
  (trailingUpdate t.config (some (latest seen)) (t.position extreme)).map (Report.mk extreme)

/-- The reports of the cycles after each of the given bars. -/
def reportsFrom (seen : List Bar) (extreme : ℚ) : List Bar → List Report
  | [] => []
  | bar :: rest =>
    (t.report (seen ++ [bar]) (t.side.best extreme (t.mark bar))).toList ++
      reportsFrom (seen ++ [bar]) (t.side.best extreme (t.mark bar)) rest

/-- **The reports since entry.** -/
def reports (future : List Bar) : List Report := t.reportsFrom t.past t.entry_price future

/-- The average true range of the window that ends with `seen`; `0` if it is too short. -/
def range (seen : List Bar) : ℚ :=
  ((fetchBars t.config (some (latest seen)) t.symbol).map fun bars =>
    wilderAtr bars.highs bars.lows bars.closes t.config.atr_period).getD 0

/-! ## The stop as a level -/

theorem trueRange_nonneg (highs lows closes : List ℚ) :
    ∀ x ∈ trueRanges highs lows closes, 0 ≤ x := by
  intro x hx
  obtain ⟨y, -, rfl⟩ := List.mem_map.mp hx
  exact le_trans (abs_nonneg _) (le_max_right _ _)

theorem smoothed_nonneg {period : ℕ} (hp : 0 < period) (ranges : List ℚ) :
    ∀ atr : ℚ, 0 ≤ atr → (∀ x ∈ ranges, 0 ≤ x) →
      0 ≤ ranges.foldl (fun (atr tr : ℚ) => (atr * (period - 1) + tr) / period) atr := by
  have hp' : (1 : ℚ) ≤ period := by exact_mod_cast hp
  induction ranges with
  | nil =>
    intro atr h _
    exact h
  | cons x xs ih =>
    intro atr h hx
    apply ih
    · apply div_nonneg
      · exact add_nonneg (mul_nonneg h (by linarith)) (hx x List.mem_cons_self)
      · linarith
    · intro y hy
      exact hx y (List.mem_cons_of_mem x hy)

theorem wilderAtr_nonneg (highs lows closes : List ℚ) {period : ℕ} (hp : 0 < period) :
    0 ≤ wilderAtr highs lows closes period := by
  have hx := trueRange_nonneg highs lows closes
  simp only [wilderAtr]
  split_ifs with h₁ h₂
  · exact le_rfl
  · exact le_rfl
  · apply smoothed_nonneg hp
    · apply div_nonneg _ (Nat.cast_nonneg _)
      exact List.sum_nonneg fun x h => hx x (List.mem_of_mem_take h)
    · exact fun x h => hx x (List.mem_of_mem_drop h)

/-- The higher of a distance `m` below the extreme and a distance `s` below the entry price, with
profit up. -/
def level (extreme range : ℚ) : ℚ :=
  max (t.side.signed extreme - range * t.config.trailing_multiplier)
    (t.side.signed t.entry_price - range * t.config.stop_multiplier)

end Trade

theorem calculateStop_atr (symbol : String) (e : ℚ) (bars : Columns) (direction : String) (p : ℕ)
    (s m : ℚ) (highest : Option ℚ) (he : 0 < e) :
    (calculateStop symbol e bars direction p s m highest).atr14
      = wilderAtr bars.highs bars.lows bars.closes p := by
  by_cases h : wilderAtr bars.highs bars.lows bars.closes p = 0
  · simp [calculateStop, h]
  · by_cases hd : direction = "long"
    · simp [calculateStop, h, not_le.mpr he, hd]
    · simp [calculateStop, h, not_le.mpr he, hd]

theorem calculateStop_initial (side : Side) (symbol : String) (e : ℚ) (bars : Columns) (p : ℕ)
    (s m : ℚ) (highest : Option ℚ) (he : 0 < e) :
    side.signed (calculateStop symbol e bars side.text p s m highest).stop_loss
      = if wilderAtr bars.highs bars.lows bars.closes p = 0 then 0
        else side.signed e - wilderAtr bars.highs bars.lows bars.closes p * s := by
  by_cases h : wilderAtr bars.highs bars.lows bars.closes p = 0
  · cases side with
    | long => simp [calculateStop, h, Side.signed]
    | short => simp [calculateStop, h, Side.signed]
  · cases side with
    | long => simp [calculateStop, h, not_le.mpr he, Side.text, Side.signed]
    | short =>
      simp [calculateStop, h, not_le.mpr he, Side.text, Side.signed]
      ring

theorem nonzero_eq_some {x : Option ℚ} {y : ℚ} (h : nonzero x = some y) : x = some y :=
  (Option.filter_eq_some_iff.mp h).1

theorem calculateStop_trailing {side : Side} {symbol : String} {e x stop : ℚ} {bars : Columns}
    {p : ℕ} {s m : ℚ}
    (h : (calculateStop symbol e bars side.text p s m (some x)).trailing_stop = some stop) :
    wilderAtr bars.highs bars.lows bars.closes p ≠ 0 ∧ 0 < e ∧ side.signed e < side.signed x ∧
      side.signed stop
        = max (side.signed x - wilderAtr bars.highs bars.lows bars.closes p * m)
          (side.signed e - wilderAtr bars.highs bars.lows bars.closes p * s) := by
  by_cases hz : wilderAtr bars.highs bars.lows bars.closes p = 0 ∨ e ≤ 0
  · simp [calculateStop, hz] at h
  · refine ⟨fun h₀ => hz (Or.inl h₀), not_le.mp fun h₀ => hz (Or.inr h₀), ?_⟩
    cases side with
    | long =>
      simp only [calculateStop, hz, if_false, Side.text, if_true] at h
      obtain ⟨y, hy, rfl⟩ := Option.map_eq_some_iff.mp (nonzero_eq_some h)
      obtain ⟨hy, hlt⟩ := Option.filter_eq_some_iff.mp hy
      cases nonzero_eq_some hy
      exact ⟨of_decide_eq_true hlt, rfl⟩
    | short =>
      simp only [calculateStop, hz, if_false, Side.text, String.reduceEq] at h
      obtain ⟨y, hy, rfl⟩ := Option.map_eq_some_iff.mp (nonzero_eq_some h)
      obtain ⟨hy, hlt⟩ := Option.filter_eq_some_iff.mp hy
      cases nonzero_eq_some hy
      refine ⟨neg_lt_neg (of_decide_eq_true hlt), ?_⟩
      simp only [Side.signed]
      rw [← max_neg_neg, neg_add, neg_add, ← sub_eq_add_neg, ← sub_eq_add_neg]

namespace Trade

variable (t : Trade)

/-- A report is the level of its range and its extreme price. -/
structure Sound (r : Report) : Prop where
  range_pos : 0 < r.update.atr14
  entry_pos : 0 < t.entry_price
  beyond : t.side.signed t.entry_price < t.side.signed r.extreme
  stop_eq : t.side.signed r.update.trailing_stop = t.level r.extreme r.update.atr14

theorem report_sound {seen : List Bar} {extreme : ℚ} {r : Report}
    (h : t.report seen extreme = some r) : r.extreme = extreme ∧ t.Sound r := by
  obtain ⟨u, hu, rfl⟩ := Option.map_eq_some_iff.mp h
  refine ⟨rfl, ?_⟩
  simp only [trailingUpdate, position, t.symbol_ne, if_false, Option.bind_eq_some_iff,
    Option.map_eq_some_iff, Option.getD_some] at hu
  obtain ⟨bars, -, stop, hstop, rfl⟩ := hu
  obtain ⟨hne, he, hx, hs⟩ := calculateStop_trailing hstop
  have hatr := calculateStop_atr t.symbol t.entry_price bars t.side.text t.config.atr_period
    t.config.stop_multiplier t.config.trailing_multiplier (some extreme) he
  have hnonneg := wilderAtr_nonneg bars.highs bars.lows bars.closes t.config.atr_period_pos
  constructor
  · show 0 < (calculateStop _ _ _ _ _ _ _ _).atr14
    rw [hatr]
    exact lt_of_le_of_ne hnonneg (Ne.symm hne)
  · exact he
  · exact hx
  · show t.side.signed stop = t.level extreme (calculateStop _ _ _ _ _ _ _ _).atr14
    rw [hatr, hs, level]

/-- The initial stop, with profit up, as a function of the range at entry. -/
def initialLevel : ℚ :=
  if t.range t.past = 0 then 0
  else t.side.signed t.entry_price - t.range t.past * t.config.stop_multiplier

theorem initial_sound {res : StopResult} (h : t.initial = some res) :
    0 < t.entry_price ∧ res.atr14 = t.range t.past ∧
      t.side.signed res.stop_loss = t.initialLevel := by
  have haction : ¬ (t.side.text ≠ "long" ∧ t.side.text ≠ "short") := by
    cases t.side <;> decide
  have htext : (if t.side.text = "long" then "long" else "short") = t.side.text := by
    cases t.side <;> rfl
  simp only [initial, entryStop, haction, if_false, Option.bind_eq_some_iff] at h
  obtain ⟨bars, hbars, h⟩ := h
  have hrange : t.range t.past
      = wilderAtr bars.highs bars.lows bars.closes t.config.atr_period := by
    rw [range, hbars]
    rfl
  by_cases he : t.entry_price ≤ 0
  · rw [if_pos he] at h
    exact absurd h (by simp)
  · rw [if_neg he, htext, Option.some.injEq] at h
    subst h
    have he := not_le.mp he
    refine ⟨he, ?_, ?_⟩
    · rw [calculateStop_atr _ _ _ _ _ _ _ _ he, hrange]
    · rw [calculateStop_initial _ _ _ _ _ _ _ _ he, initialLevel, hrange]

/-! ## When the stops ratchet -/

/-- The trailing stop of a report. -/
abbrev stopOf (r : Report) : ℚ := r.update.trailing_stop

/-- **The ratchet**: the stops of the reports only move towards profit, between the initial stop
and the extreme price, and the initial stop limits the loss. -/
structure Ratchets (future : List Bar) : Prop where
  monotone : (t.reports future).Pairwise fun r r' => t.side.le (stopOf r) (stopOf r')
  loss_side : ∀ r ∈ t.reports future, t.side.lt (stopOf r) r.extreme
  floor : ∀ res, t.initial = some res →
    ∀ r ∈ t.reports future, t.side.le res.stop_loss (stopOf r)
  initial : ∀ res, t.initial = some res → 0 < res.atr14 → t.side.lt res.stop_loss t.entry_price

/-- From one report to the next the extreme price does not fall, with profit up. -/
def Rises (r r' : Report) : Prop := t.side.signed r.extreme ≤ t.side.signed r'.extreme

/-- From one report to the next the range does not rise, or the extreme price rises far enough
with it. -/
def Steady (r r' : Report) : Prop :=
  r'.update.atr14 ≤ r.update.atr14 ∨
    (r'.update.atr14 - r.update.atr14) * t.config.trailing_multiplier
        ≤ t.side.signed r'.extreme - t.side.signed r.extreme ∧
      r'.update.atr14 * t.config.trailing_multiplier - r.update.atr14 * t.config.stop_multiplier
        ≤ t.side.signed r'.extreme - t.side.signed t.entry_price

/-- At the first report the range is not above the one at entry, or the extreme price is far enough
from the entry price; without a range at entry the initial stop is the price zero. -/
def Opened (r : Report) : Prop :=
  if t.range t.past = 0 then
    r.update.atr14 * t.config.trailing_multiplier ≤ t.side.signed r.extreme ∨
      r.update.atr14 * t.config.stop_multiplier ≤ t.side.signed t.entry_price
  else
    r.update.atr14 ≤ t.range t.past ∨
      r.update.atr14 * t.config.trailing_multiplier - t.range t.past * t.config.stop_multiplier
        ≤ t.side.signed r.extreme - t.side.signed t.entry_price

theorem stop_le_iff {r r' : Report} (h : t.Sound r) (h' : t.Sound r')
    (hx : t.Rises r r') : t.side.le (stopOf r) (stopOf r') ↔ t.Steady r r' := by
  have hm := t.trailing_pos
  have hs := t.stop_pos
  rw [Rises] at hx
  rw [t.side.le_iff, stopOf, stopOf, h.stop_eq, h'.stop_eq, level, level, Steady]
  constructor
  · intro hle
    by_cases ha : r'.update.atr14 ≤ r.update.atr14
    · exact Or.inl ha
    · right
      have ha := not_le.mp ha
      have hfar := mul_lt_mul_of_pos_right ha hs
      rcases le_max_iff.mp (le_trans (le_max_right _ _) hle) with h₂ | h₂
      · rcases le_max_iff.mp (le_trans (le_max_left _ _) hle) with h₁ | h₁
        · constructor <;> linarith
        · constructor <;> nlinarith
      · linarith
  · rintro (ha | ⟨h₁, h₂⟩)
    · apply max_le_max
      · linarith [mul_le_mul_of_nonneg_right ha hm.le]
      · linarith [mul_le_mul_of_nonneg_right ha hs.le]
    · apply max_le
      · exact le_max_of_le_left (by linarith)
      · exact le_max_of_le_left (by linarith)

theorem initial_le_iff {res : StopResult} (h : t.initial = some res) {r : Report}
    (hr : t.Sound r) : t.side.le res.stop_loss (stopOf r) ↔ t.Opened r := by
  rw [t.side.le_iff, stopOf, hr.stop_eq, (t.initial_sound h).2.2, level, initialLevel, Opened,
    le_max_iff]
  have hs := t.stop_pos
  by_cases hz : t.range t.past = 0
  · simp only [if_pos hz, sub_nonneg]
  · simp only [if_neg hz]
    rw [or_comm]
    apply or_congr
    · rw [sub_le_sub_iff_left]
      exact mul_le_mul_iff_left₀ hs
    · constructor <;> intro h <;> linarith

theorem stop_lt_extreme {r : Report} (h : t.Sound r) : t.side.lt (stopOf r) r.extreme := by
  rw [t.side.lt_iff, stopOf, h.stop_eq, level]
  apply max_lt
  · linarith [mul_pos h.range_pos t.trailing_pos]
  · linarith [mul_pos h.range_pos t.stop_pos, h.beyond]

/-! ## The run -/

theorem reportsFrom_spec (future : List Bar) : ∀ (seen : List Bar) (extreme : ℚ),
    (∀ r ∈ t.reportsFrom seen extreme future,
      t.Sound r ∧ t.side.signed extreme ≤ t.side.signed r.extreme) ∧
    (t.reportsFrom seen extreme future).Pairwise t.Rises := by
  induction future with
  | nil =>
    intro seen extreme
    exact ⟨fun r h => absurd h List.not_mem_nil, List.Pairwise.nil⟩
  | cons bar rest ih =>
    intro seen extreme
    obtain ⟨hmem, hpair⟩ := ih (seen ++ [bar]) (t.side.best extreme (t.mark bar))
    have hbest : t.side.signed extreme ≤ t.side.signed (t.side.best extreme (t.mark bar)) := by
      rw [t.side.signed_best]
      exact le_max_left _ _
    rw [reportsFrom]
    cases hr : t.report (seen ++ [bar]) (t.side.best extreme (t.mark bar)) with
    | none =>
      simp only [Option.toList_none, List.nil_append]
      exact ⟨fun r h => ⟨(hmem r h).1, le_trans hbest (hmem r h).2⟩, hpair⟩
    | some r =>
      obtain ⟨hx, hsound⟩ := t.report_sound hr
      simp only [Option.toList_some, List.singleton_append]
      constructor
      · intro r' h'
        rcases List.mem_cons.mp h' with rfl | h'
        · exact ⟨hsound, by rw [hx]; exact hbest⟩
        · exact ⟨(hmem r' h').1, le_trans hbest (hmem r' h').2⟩
      · apply List.Pairwise.cons _ hpair
        intro r' h'
        rw [Rises, hx]
        exact (hmem r' h').2

end Trade

theorem isChain_congr {α : Type*} {P : α → Prop} {Q R S : α → α → Prop}
    (h : ∀ a b, P a → P b → Q a b → (R a b ↔ S a b)) {l : List α} (hP : ∀ a ∈ l, P a)
    (hQ : l.Pairwise Q) : l.IsChain R ↔ l.IsChain S := by
  induction l with
  | nil => simp
  | cons a l ih =>
    cases l with
    | nil => simp
    | cons b l =>
      rw [List.isChain_cons_cons, List.isChain_cons_cons]
      have hab : Q a b := List.rel_of_pairwise_cons hQ List.mem_cons_self
      rw [h a b (hP a (by simp)) (hP b (by simp)) hab,
        ih (fun x hx => hP x (List.mem_cons_of_mem a hx)) hQ.of_cons]

namespace Trade

variable (t : Trade)

theorem stops_trans : IsTrans Report fun r r' => t.side.le (stopOf r) (stopOf r') :=
  ⟨fun a b c hab hbc => by
    rw [t.side.le_iff] at hab hbc ⊢
    exact le_trans hab hbc⟩

/-- **The ratchet, exactly.** -/
theorem ratchets_iff (future : List Bar) : t.Ratchets future ↔
    (t.reports future).IsChain t.Steady ∧
      (t.initial.isSome → ∀ r, (t.reports future).head? = some r → t.Opened r) := by
  obtain ⟨hmem, hpair⟩ := t.reportsFrom_spec future t.past t.entry_price
  have hrises : (t.reports future).Pairwise t.Rises := hpair
  have hsound : ∀ r ∈ t.reports future, t.Sound r := fun r h => (hmem r h).1
  have htrans := t.stops_trans
  have hsteady : ((t.reports future).Pairwise fun r r' => t.side.le (stopOf r) (stopOf r'))
      ↔ (t.reports future).IsChain t.Steady := by
    rw [← List.isChain_iff_pairwise]
    exact isChain_congr (P := t.Sound) (Q := t.Rises)
      (fun r r' h h' hx => t.stop_le_iff h h' hx) hsound hrises
  constructor
  · intro h
    refine ⟨hsteady.mp h.monotone, fun hsome r hr => ?_⟩
    obtain ⟨res, hres⟩ := Option.isSome_iff_exists.mp hsome
    have hr := List.mem_of_mem_head? hr
    exact (t.initial_le_iff hres (hsound r hr)).mp (h.floor res hres r hr)
  · rintro ⟨hchain, hopened⟩
    have hmono := hsteady.mpr hchain
    refine ⟨hmono, fun r hr => t.stop_lt_extreme (hsound r hr), ?_, ?_⟩
    · intro res hres r hr
      have hfirst : ∀ r₀, (t.reports future).head? = some r₀ →
          t.side.le res.stop_loss (stopOf r₀) := fun r₀ h₀ =>
        (t.initial_le_iff hres (hsound r₀ (List.mem_of_mem_head? h₀))).mpr
          (hopened (by rw [hres]; rfl) r₀ h₀)
      cases hreports : t.reports future with
      | nil => exact absurd (hreports ▸ hr) List.not_mem_nil
      | cons r₀ rest =>
        rw [hreports] at hr hmono hfirst
        rcases List.mem_cons.mp hr with rfl | hr
        · exact hfirst r rfl
        · have h₁ := hfirst r₀ rfl
          have h₂ := List.rel_of_pairwise_cons hmono hr
          rw [t.side.le_iff] at h₁ h₂ ⊢
          exact le_trans h₁ h₂
    · intro res hres hpos
      obtain ⟨-, hatr, hstop⟩ := t.initial_sound hres
      rw [hatr] at hpos
      rw [t.side.lt_iff, hstop, initialLevel, if_neg hpos.ne']
      linarith [mul_pos hpos t.stop_pos]

end Trade

/-! ## A wide bar -/

/-- A bar around a price. -/
def barAt (close spread : ℚ) : Bar := ⟨close, some (close + spread), some (close - spread)⟩

/-- A long position at `100` after quiet bars, with the default configuration. -/
def quiet : Trade where
  config := {}
  symbol := "A"
  side := .long
  entry_price := 100
  mark := Bar.highOrClose
  past := List.replicate 15 (barAt 100 1)
  symbol_ne := by decide
  stop_pos := by decide
  trailing_pos := by norm_num

/-- After a rise the bar widens, at the same high: the stop falls. -/
theorem stop_falls : ¬ quiet.Ratchets [barAt 110 1, barAt 101 10] := by
  intro h
  have hstops : (quiet.reports [barAt 110 1, barAt 101 10]).map Trade.stopOf
      = [2997 / 28, 41229 / 392] := by decide +kernel
  have hmono : ((quiet.reports [barAt 110 1, barAt 101 10]).map Trade.stopOf).Pairwise (· ≤ ·) :=
    List.pairwise_map.mpr h.monotone
  rw [hstops] at hmono
  have hle := List.rel_of_pairwise_cons hmono List.mem_cons_self
  norm_num at hle

end AtrStop

end NeoTrader

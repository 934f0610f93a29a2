import Mathlib.Algebra.BigOperators.Ring.List
import Mathlib.Algebra.Order.Group.MinMax
import NeoTrader.Pretest.Effects

/-!
# The rebalance towards a volatility target

The long positions are bought or sold in whole shares, each for its part of the change.

* `moved`, `goal`: what the trade of a position moves, and what it should move;
  `moved_near_of_pos`, `moved_near_of_nonpos`: it stops less than one share before;
* `Converges`: the invested value moves towards its target, and stops less than one share of each
  symbol before it;
* **`rebalance_converges`**: it does, if a long position is held; the target is no debt;
  **`rebalance_short_of_debt`**: no sale reaches a negative target.
-/

namespace NeoTrader

open Books

/-! ## Whole shares -/

/-- What the rebalance trade of a position moves, in dollars. -/
def moved (quantity price delta : ℚ) : ℚ :=
  if 0 < delta then ⌊delta / price⌋ * price else -(min quantity ⌊|delta| / price⌋ * price)

/-- What it should move: no more than there is can be sold. -/
def goal (quantity price delta : ℚ) : ℚ := max (-(quantity * price)) delta

section Shares

variable {quantity price delta : ℚ}

theorem floor_near (amount : ℚ) {price : ℚ} (hprice : 0 < price) :
    ⌊amount / price⌋ * price ≤ amount ∧ amount < ⌊amount / price⌋ * price + price := by
  have hle := (le_div_iff₀ hprice).1 (Int.floor_le (amount / price))
  have hlt := (div_lt_iff₀ hprice).1 (Int.lt_floor_add_one (amount / price))
  exact ⟨hle, by linarith⟩

/-- **A purchase** stops less than one share before its goal. -/
theorem moved_near_of_pos (hquantity : 0 < quantity) (hprice : 0 < price) (hdelta : 0 < delta) :
    0 ≤ moved quantity price delta ∧ moved quantity price delta ≤ goal quantity price delta ∧
      goal quantity price delta < moved quantity price delta + price := by
  have hgoal : goal quantity price delta = delta :=
    max_eq_right (by nlinarith [mul_pos hquantity hprice])
  obtain ⟨hle, hlt⟩ := floor_near delta hprice
  have hfloor : (0 : ℚ) ≤ ⌊delta / price⌋ := by
    exact_mod_cast Int.floor_nonneg.2 (div_pos hdelta hprice).le
  rw [hgoal, moved, if_pos hdelta]
  exact ⟨mul_nonneg hfloor hprice.le, hle, hlt⟩

/-- **A sale** stops less than one share before its goal. -/
theorem moved_near_of_nonpos (hquantity : 0 < quantity) (hprice : 0 < price) (hdelta : delta ≤ 0) :
    moved quantity price delta ≤ 0 ∧ goal quantity price delta ≤ moved quantity price delta ∧
      moved quantity price delta < goal quantity price delta + price := by
  obtain ⟨hle, hlt⟩ := floor_near |delta| hprice
  have hfloor : (0 : ℚ) ≤ ⌊|delta| / price⌋ := by
    exact_mod_cast Int.floor_nonneg.2 (div_nonneg (abs_nonneg delta) hprice.le)
  rw [abs_of_nonpos hdelta] at hle hlt hfloor
  rw [moved, if_neg (not_lt.2 hdelta), abs_of_nonpos hdelta, goal]
  rcases le_total quantity ⌊-delta / price⌋ with hmin | hmin
  · rw [min_eq_left hmin]
    have hall : quantity * price ≤ -delta :=
      (mul_le_mul_of_nonneg_right hmin hprice.le).trans hle
    rw [max_eq_left (by linarith)]
    exact ⟨by nlinarith [mul_pos hquantity hprice], le_refl _, by linarith⟩
  · rw [min_eq_right hmin]
    have hsold : ⌊-delta / price⌋ * price ≤ quantity * price :=
      mul_le_mul_of_nonneg_right hmin hprice.le
    refine ⟨by nlinarith [mul_nonneg hfloor hprice.le], max_le (by linarith) (by linarith), ?_⟩
    have := le_max_right (-(quantity * price)) delta
    linarith

end Shares

/-! ## Sums -/

section Sums

variable {A : Type} {l : List A} {f g price : A → ℚ}

theorem sum_near (hl : l ≠ []) (hle : ∀ a ∈ l, f a ≤ g a) (hlt : ∀ a ∈ l, g a < f a + price a) :
    (l.map f).sum ≤ (l.map g).sum ∧ (l.map g).sum < (l.map f).sum + (l.map price).sum := by
  refine ⟨List.sum_le_sum hle, ?_⟩
  rw [← List.sum_map_add]
  exact List.sum_lt_sum_of_ne_nil hl _ _ hlt

end Sums

/-! ## Invested values -/

section Invested

variable (marks : String → ℚ)

/-- The value of a position, if it is long. -/
def valueAt (p : PretestPosition) : ℚ := if 0 < p.quantity then p.quantity * marks p.symbol else 0

/-- **The value of the long positions** at given marks. -/
def investedAt (s : PretestState) : ℚ := total (valueAt marks) s.positions.entries

variable {marks} {s : PretestState} {t : PretestTrade} {p : PretestPosition}

theorem symbol_of_entry {b : Positions} {symbol : String} (h : b.entry symbol = some p) :
    p.symbol = symbol := by
  have hheld : holding (fun p : PretestPosition => p.symbol) symbol b.entries = some p := h
  have hkey := key_of_holding hheld
  exact hkey

theorem valueAt_of_pos (h : 0 < p.quantity) : valueAt marks p = p.quantity * marks p.symbol :=
  if_pos h

theorem investedAt_buy (ht : t.Sized) (haction : t.action = .buy)
    (hp : s.positions.entry t.symbol = some p) (hlong : 0 < p.quantity)
    (hmark : t.price = marks t.symbol) (hcash : t.price * t.quantity ≤ s.cash) :
    investedAt marks (s.applyTrade t 0) = investedAt marks s + t.quantity * t.price := by
  have happly : s.applyTrade t 0 = s.added t t.quantity (t.price * (1 + 0)) := by
    rw [PretestState.applyTrade, PretestState.applyTrade?, haction]
    simp only [applyBuy_eq ht]
    rw [if_neg (by linarith)]
    rfl
  have hsymbol : p.symbol = t.symbol := symbol_of_entry hp
  have hadded : valueAt marks (p.add t.quantity (t.price * (1 + 0))) =
      (p.quantity + t.quantity) * marks p.symbol := valueAt_of_pos (add_pos hlong ht.quantity)
  rw [happly, investedAt, positions_added, Book.put_of_some hp, Book.amend, total_amend hp, hadded,
    valueAt_of_pos hlong, hsymbol, ← hmark, investedAt]
  ring

theorem investedAt_sell (haction : t.action = .sell)
    (hp : s.positions.entry t.symbol = some p) (hlong : 0 < p.quantity)
    (hmark : t.price = marks t.symbol) (hheld : t.quantity ≤ p.quantity) :
    investedAt marks (s.applyTrade t 0) = investedAt marks s - t.quantity * t.price := by
  have hsymbol : p.symbol = t.symbol := symbol_of_entry hp
  rw [PretestState.applyTrade, PretestState.applyTrade?, haction]
  simp only [PretestState.applySell, hp, min_eq_left hheld, Option.getD_some]
  cases hclosed : decide (p.quantity - t.quantity ≤ 0) with
  | true =>
    have hall : t.quantity = p.quantity := by
      have := of_decide_eq_true hclosed
      linarith
    rw [investedAt, positions_settle_true, Book.close, total_close hp, valueAt_of_pos hlong,
      hsymbol, ← hmark, hall, investedAt]
  | false =>
    have hleft : valueAt marks (p.leave (p.quantity - t.quantity)) =
        (p.quantity - t.quantity) * marks p.symbol :=
      valueAt_of_pos (not_le.1 (of_decide_eq_false hclosed))
    rw [investedAt, positions_settle_false, Book.amend, total_amend hp, hleft, valueAt_of_pos hlong,
      hsymbol, ← hmark, investedAt]
    ring

theorem oneRebalanceTrade_moved (delta : ℚ) {price : ℚ} (hquantity : 0 < p.quantity)
    (hprice : 0 < price) :
    (∀ t, oneRebalanceTrade p price delta = some t →
      t.Sized ∧ t.symbol = p.symbol ∧ t.price = price ∧
        (t.action = .buy ∧ moved p.quantity price delta = t.quantity * t.price ∨
          t.action = .sell ∧ t.quantity ≤ p.quantity ∧
            moved p.quantity price delta = -(t.quantity * t.price))) ∧
    (oneRebalanceTrade p price delta = none → moved p.quantity price delta = 0) := by
  unfold oneRebalanceTrade moved
  rw [if_neg (not_le.2 hprice)]
  dsimp only
  split_ifs with hdelta hqty hqty
  · refine ⟨fun t ht => ?_, nofun⟩
    cases ht
    exact ⟨⟨hqty, fun _ => hprice⟩, rfl, rfl, .inl ⟨rfl, rfl⟩⟩
  · refine ⟨nofun, fun _ => ?_⟩
    have hfloor : (0 : ℚ) ≤ ⌊delta / price⌋ := by
      exact_mod_cast Int.floor_nonneg.2 (div_pos hdelta hprice).le
    rw [le_antisymm (not_lt.1 hqty) hfloor, zero_mul]
  · refine ⟨fun t ht => ?_, nofun⟩
    cases ht
    exact ⟨⟨hqty, fun h => by cases h⟩, rfl, rfl, .inr ⟨rfl, min_le_left _ _, rfl⟩⟩
  · refine ⟨nofun, fun _ => ?_⟩
    have hfloor : (0 : ℚ) ≤ ⌊|delta| / price⌋ := by
      exact_mod_cast Int.floor_nonneg.2 (div_nonneg (abs_nonneg delta) hprice.le)
    rw [le_antisymm (not_lt.1 hqty) (le_min hquantity.le hfloor), zero_mul, neg_zero]

variable (marks) in
/-- The trade of a position at its mark, for its part of the change. -/
def tradeTowards (delta : PretestPosition → ℚ) (p : PretestPosition) : Option PretestTrade :=
  oneRebalanceTrade p (marks p.symbol) (delta p)

/-- A purchase can be paid for when its turn comes. -/
def Affordable (s : PretestState) (t : PretestTrade) : Prop :=
  t.action = .buy → t.price * t.quantity ≤ s.cash

/-- **The trades of some positions** move the invested value by what each of them moves, and leave
the other symbols alone. The induction is on the positions still to trade, which are untouched. -/
theorem investedAt_rebalance (delta : PretestPosition → ℚ) :
    ∀ (l : List PretestPosition) (s : PretestState), (l.map fun p => p.symbol).Nodup →
      (∀ p ∈ l, s.positions.entry p.symbol = some p ∧ 0 < p.quantity ∧ 0 < marks p.symbol) →
      EachTrade Affordable 0 s (l.filterMap (tradeTowards marks delta)) →
      investedAt marks (s.applyTrades (l.filterMap (tradeTowards marks delta)) 0) =
        investedAt marks s + (l.map fun p => moved p.quantity (marks p.symbol) (delta p)).sum ∧
      ∀ symbol, symbol ∉ l.map (fun p => p.symbol) →
        (s.applyTrades (l.filterMap (tradeTowards marks delta)) 0).positions.entry symbol =
          s.positions.entry symbol
  | [], s, _, _, _ => ⟨by simp, fun _ _ => rfl⟩
  | p :: l, s, hnodup, hheld, hafford => by
    rw [List.map_cons, List.nodup_cons] at hnodup
    obtain ⟨hentry, hquantity, hmark⟩ := hheld p List.mem_cons_self
    obtain ⟨hsome, hnone⟩ := oneRebalanceTrade_moved (delta p) hquantity hmark
    cases htrade : tradeTowards marks delta p with
    | none =>
      rw [List.filterMap_cons_none htrade] at hafford ⊢
      obtain ⟨ihvalue, ihentry⟩ := investedAt_rebalance delta l s hnodup.2
        (fun p' hp' => hheld p' (List.mem_cons_of_mem p hp')) hafford
      refine ⟨?_, fun symbol hsymbol => ihentry symbol fun h => hsymbol ?_⟩
      · rw [ihvalue, List.map_cons, List.sum_cons, hnone htrade, zero_add]
      · rw [List.map_cons]
        exact List.mem_cons_of_mem _ h
    | some t =>
      rw [List.filterMap_cons_some htrade] at hafford ⊢
      obtain ⟨hpay, hafford⟩ := hafford
      obtain ⟨hsized, hsymbol, hprice, hmoves⟩ := hsome t htrade
      have heffect : Effect s t 0 (s.applyTrade t 0) := applyTrade_effect hsized
      rw [← hsymbol] at hentry
      have hstep : investedAt marks (s.applyTrade t 0) =
          investedAt marks s + moved p.quantity (marks p.symbol) (delta p) := by
        rcases hmoves with ⟨haction, hmoved⟩ | ⟨haction, hle, hmoved⟩
        · rw [hmoved, investedAt_buy hsized haction hentry hquantity (by rw [hprice, hsymbol])
            (hpay haction)]
        · rw [hmoved, investedAt_sell haction hentry hquantity (by rw [hprice, hsymbol]) hle,
            sub_eq_add_neg]
      obtain ⟨ihvalue, ihentry⟩ := investedAt_rebalance delta l (s.applyTrade t 0) hnodup.2
        (fun p' hp' => by
          obtain ⟨hentry', hrest⟩ := hheld p' (List.mem_cons_of_mem p hp')
          refine ⟨?_, hrest⟩
          have hne : p'.symbol ≠ p.symbol := fun heq =>
            hnodup.1 (heq ▸ List.mem_map_of_mem hp')
          rw [heffect.entry_of_ne (by rw [hsymbol]; exact hne), hentry']) hafford
      rw [applyTrades_cons]
      refine ⟨?_, fun symbol hother => ?_⟩
      · rw [ihvalue, hstep, List.map_cons, List.sum_cons, add_assoc]
      · rw [List.map_cons, List.mem_cons, not_or] at hother
        rw [ihentry symbol hother.2, heffect.entry_of_ne (by rw [hsymbol]; exact hother.1)]

end Invested

/-! ## The rebalance -/

def PretestState.longs (s : PretestState) : List PretestPosition :=
  s.positions.entries.filter fun p => 0 < p.quantity

def PretestState.marks (s : PretestState) (quotes refs : String → Option ℚ) (symbol : String) : ℚ :=
  (s.positions.entry symbol).elim 0 fun p => p.markOf quotes refs

/-- **The invested value moves towards its target**: it comes between its old value and the target,
and stops less than one share of each long symbol before it, or less than a dollar if nothing is
traded; nothing is sold that is not held, and short positions stay. -/
structure Converges (marks : String → ℚ) (s s' : PretestState) (trades : List PretestTrade)
    (target : ℚ) : Prop where
  between : min (investedAt marks s) target ≤ investedAt marks s' ∧
    investedAt marks s' ≤ max (investedAt marks s) target
  near : |investedAt marks s' - target| < (s.longs.map fun p => marks p.symbol).sum ∨
    trades = [] ∧ |investedAt marks s' - target| < 1
  held : ∀ t ∈ trades, t.action = .sell →
    ∃ p ∈ s.positions.entries, p.symbol = t.symbol ∧ t.quantity ≤ p.quantity
  shorts : ∀ symbol p, s.positions.entry symbol = some p → p.quantity ≤ 0 →
    s'.positions.entry symbol = some p

section Rebalance

variable {s : PretestState} {scalar : ℚ} {quotes refs : String → Option ℚ} {p : PretestPosition}

theorem mem_longs : p ∈ s.longs ↔ p ∈ s.positions.entries ∧ 0 < p.quantity := by
  simp [PretestState.longs]

theorem entry_of_mem (h : p ∈ s.positions.entries) : s.positions.entry p.symbol = some p :=
  holding_of_mem s.positions.distinct h

theorem marks_of_mem (h : p ∈ s.positions.entries) :
    s.marks quotes refs p.symbol = p.markOf quotes refs := by
  rw [PretestState.marks, entry_of_mem h]
  rfl

theorem longs_nodup : (s.longs.map fun p => p.symbol).Nodup :=
  (List.filter_sublist.map _).nodup s.positions.distinct

theorem investedAt_eq (marks : String → ℚ) (s : PretestState) :
    investedAt marks s = (s.longs.map fun p => p.quantity * marks p.symbol).sum := by
  rw [investedAt, PretestState.longs, total]
  induction s.positions.entries with
  | nil => rfl
  | cons p l ih =>
    rw [List.map_cons, List.sum_cons, ih, valueAt, List.filter_cons]
    by_cases hlong : 0 < p.quantity
    · simp [hlong]
    · simp [hlong]

/-- The part of a change that falls to a position. -/
def partOf (marks : String → ℚ) (delta invested : ℚ) (p : PretestPosition) : ℚ :=
  delta * (p.quantity * marks p.symbol / invested)

theorem rebalance_eq (s : PretestState) (scalar : ℚ) (quotes refs : String → Option ℚ)
    (hscalar : 0 ≤ scalar) (hheld : s.longs ≠ []) :
    buildVolTargetRebalanceTrades s scalar quotes refs =
      if investedAt (s.marks quotes refs) s ≤ 0 then []
      else if |scalar * s.equity - investedAt (s.marks quotes refs) s| < 1 then []
      else s.longs.filterMap (tradeTowards (s.marks quotes refs)
        (partOf (s.marks quotes refs) (scalar * s.equity - investedAt (s.marks quotes refs) s)
          (investedAt (s.marks quotes refs) s))) := by
  have hmark : ∀ p ∈ s.longs, p.markOf quotes refs = s.marks quotes refs p.symbol :=
    fun p hp => (marks_of_mem (mem_longs.1 hp).1).symm
  have hinvested : (s.longs.map fun p => p.quantity * p.markOf quotes refs).sum =
      investedAt (s.marks quotes refs) s := by
    rw [investedAt_eq]
    refine congrArg List.sum (List.map_congr_left fun p hp => ?_)
    rw [hmark p hp]
  unfold buildVolTargetRebalanceTrades
  rw [← PretestState.longs, if_neg (not_or.2 ⟨hheld, not_lt.2 hscalar⟩)]
  dsimp only
  rw [hinvested]
  congr 2
  refine List.filterMap_congr fun p hp => ?_
  rw [hmark p hp]
  rfl

theorem goal_partOf {marks : String → ℚ} {invested target : ℚ} (hpos : 0 < invested)
    (hp : 0 ≤ p.quantity * marks p.symbol) :
    goal p.quantity (marks p.symbol) (partOf marks (target - invested) invested p) =
      p.quantity * marks p.symbol * ((max 0 target - invested) / invested) := by
  have hpart : 0 ≤ p.quantity * marks p.symbol / invested := div_nonneg hp hpos.le
  have hmax : max 0 target - invested = max (-invested) (target - invested) := by
    rw [← max_sub_sub_right, zero_sub]
  calc goal p.quantity (marks p.symbol) (partOf marks (target - invested) invested p)
      = max (p.quantity * marks p.symbol / invested * -invested)
          (p.quantity * marks p.symbol / invested * (target - invested)) := by
        rw [goal, partOf]
        congr 1
        · field_simp
        · ring
    _ = p.quantity * marks p.symbol / invested * max (-invested) (target - invested) :=
        (mul_max_of_nonneg _ _ hpart).symm
    _ = _ := by
        rw [hmax]
        ring

/-- **The goals** of the positions come to the target, which is no debt. -/
theorem sum_goal {marks : String → ℚ} {l : List PretestPosition} {invested : ℚ} (target : ℚ)
    (hpos : 0 < invested) (hl : ∀ p ∈ l, 0 ≤ p.quantity * marks p.symbol)
    (hsum : (l.map fun p => p.quantity * marks p.symbol).sum = invested) :
    (l.map fun p => goal p.quantity (marks p.symbol)
      (partOf marks (target - invested) invested p)).sum = max 0 target - invested := by
  rw [List.map_congr_left fun p hp => goal_partOf hpos (hl p hp), List.sum_map_mul_right, hsum]
  field_simp

/-- **What the trades move** comes less than one share of each symbol before the target. -/
theorem sum_moved {marks : String → ℚ} {l : List PretestPosition} {invested target : ℚ}
    (hpos : 0 < invested) (hl : ∀ p ∈ l, 0 < p.quantity ∧ 0 < marks p.symbol) (hne : l ≠ [])
    (hsum : (l.map fun p => p.quantity * marks p.symbol).sum = invested) :
    ∀ value, value = invested + (l.map fun p => moved p.quantity (marks p.symbol)
        (partOf marks (target - invested) invested p)).sum →
      (min invested (max 0 target) ≤ value ∧ value ≤ max invested (max 0 target)) ∧
        |value - max 0 target| < (l.map fun p => marks p.symbol).sum := by
  rintro value rfl
  have hgoal := sum_goal target hpos (fun p hp => (mul_pos (hl p hp).1 (hl p hp).2).le)
    hsum
  have hpart : ∀ p ∈ l, 0 < p.quantity * marks p.symbol / invested := fun p hp =>
    div_pos (mul_pos (hl p hp).1 (hl p hp).2) hpos
  by_cases hup : 0 < target - invested
  · have hdelta : ∀ p ∈ l, 0 < partOf marks (target - invested) invested p := fun p hp =>
      mul_pos hup (hpart p hp)
    have hnear := fun p hp => moved_near_of_pos (hl p hp).1 (hl p hp).2 (hdelta p hp)
    obtain ⟨hle, hlt⟩ := sum_near hne (fun p hp => (hnear p hp).2.1) fun p hp => (hnear p hp).2.2
    have hnonneg : 0 ≤ (l.map fun p => moved p.quantity (marks p.symbol)
        (partOf marks (target - invested) invested p)).sum := by
      refine List.sum_nonneg fun x hx => ?_
      obtain ⟨p, hp, rfl⟩ := List.mem_map.1 hx
      exact (hnear p hp).1
    rw [hgoal] at hle hlt
    refine ⟨⟨?_, ?_⟩, ?_⟩
    · exact (min_le_left _ _).trans (by linarith)
    · exact le_max_of_le_right (by linarith)
    · rw [abs_lt]
      constructor <;> linarith
  · have hdelta : ∀ p ∈ l, partOf marks (target - invested) invested p ≤ 0 := fun p hp =>
      mul_nonpos_of_nonpos_of_nonneg (not_lt.1 hup) (hpart p hp).le
    have hnear := fun p hp => moved_near_of_nonpos (hl p hp).1 (hl p hp).2 (hdelta p hp)
    obtain ⟨hle, hlt⟩ := sum_near hne (fun p hp => (hnear p hp).2.1) fun p hp => (hnear p hp).2.2
    have hnonpos : (l.map fun p => moved p.quantity (marks p.symbol)
        (partOf marks (target - invested) invested p)).sum ≤ 0 := by
      refine (List.sum_le_sum fun p hp => (hnear p hp).1).trans_eq ?_
      exact List.sum_map_zero
    rw [hgoal] at hle hlt
    refine ⟨⟨?_, ?_⟩, ?_⟩
    · exact min_le_of_right_le (by linarith)
    · exact le_max_of_le_left (by linarith)
    · rw [abs_lt]
      constructor <;> linarith

/-- **The rebalance converges**: it moves the long positions towards their target, which is no debt,
without passing it. -/
theorem rebalance_converges (hscalar : 0 ≤ scalar) (hheld : s.longs ≠ [])
    (hmarks : ∀ p ∈ s.longs, 0 < p.markOf quotes refs)
    (hafford : EachTrade Affordable 0 s (buildVolTargetRebalanceTrades s scalar quotes refs)) :
    Converges (s.marks quotes refs) s
      (s.applyTrades (buildVolTargetRebalanceTrades s scalar quotes refs) 0)
      (buildVolTargetRebalanceTrades s scalar quotes refs) (max 0 (scalar * s.equity)) := by
  have hlongs : ∀ p ∈ s.longs, 0 < p.quantity ∧ 0 < s.marks quotes refs p.symbol := fun p hp => by
    rw [marks_of_mem (mem_longs.1 hp).1]
    exact ⟨(mem_longs.1 hp).2, hmarks p hp⟩
  have hentries : ∀ p ∈ s.longs, s.positions.entry p.symbol = some p ∧ 0 < p.quantity ∧
      0 < s.marks quotes refs p.symbol := fun p hp =>
    ⟨entry_of_mem (mem_longs.1 hp).1, hlongs p hp⟩
  have hsum := (investedAt_eq (s.marks quotes refs) s).symm
  have hpos : 0 < investedAt (s.marks quotes refs) s := by
    rw [← hsum]
    refine List.sum_pos _ (fun x hx => ?_) (by simpa using hheld)
    obtain ⟨p, hp, rfl⟩ := List.mem_map.1 hx
    exact mul_pos (hlongs p hp).1 (hlongs p hp).2
  rw [rebalance_eq s scalar quotes refs hscalar hheld, if_neg (not_le.2 hpos)] at hafford ⊢
  split at hafford
  · next hsmall =>
    rw [if_pos hsmall, applyTrades_nil]
    refine ⟨⟨min_le_left _ _, le_max_left _ _⟩, .inr ⟨rfl, ?_⟩, nofun, fun _ _ h _ => h⟩
    rw [abs_lt] at hsmall ⊢
    rcases le_total 0 (scalar * s.equity) with htarget | htarget
    · rw [max_eq_right htarget]
      constructor <;> linarith
    · rw [max_eq_left htarget]
      constructor <;> linarith
  · next hlarge =>
    rw [if_neg hlarge]
    obtain ⟨hvalue, hother⟩ := investedAt_rebalance _ s.longs s longs_nodup hentries hafford
    obtain ⟨hbetween, hnear⟩ := sum_moved hpos hlongs hheld hsum _ hvalue
    refine ⟨hbetween, .inl hnear, fun t ht haction => ?_, fun symbol p hp hshort => ?_⟩
    · obtain ⟨p, hp, htrade⟩ := List.mem_filterMap.1 ht
      obtain ⟨-, hsymbol, -, hmoves⟩ := (oneRebalanceTrade_moved _ (hlongs p hp).1
        (hlongs p hp).2).1 t htrade
      rcases hmoves with ⟨hbuy, -⟩ | ⟨-, hle, -⟩
      · rw [haction] at hbuy
        cases hbuy
      · exact ⟨p, (mem_longs.1 hp).1, hsymbol.symm, hle⟩
    · rw [hother symbol fun hmem => ?_, hp]
      obtain ⟨p', hp', rfl⟩ := List.mem_map.1 hmem
      rw [entry_of_mem (mem_longs.1 hp').1] at hp
      cases hp
      exact absurd (mem_longs.1 hp').2 (not_lt.2 hshort)

end Rebalance

/-! ## At a portfolio -/

def tenShares : PretestState :=
  { defaultState 1000 with
    cash := 900
    positions := ⟨[{ symbol := "SPY", quantity := 10, avgPrice := 10 }], by decide⟩ }

theorem rebalance_tenShares : buildVolTargetRebalanceTrades tenShares (1 / 20) (fun _ => none)
    (fun _ => none) = [{ symbol := "SPY", action := .sell, price := 10, quantity := 5 }] := by
  decide +kernel

/-- The rebalance of ten shares to half of them. -/
theorem rebalance_converges_tenShares : Converges (tenShares.marks (fun _ => none) fun _ => none)
    tenShares (tenShares.applyTrades (buildVolTargetRebalanceTrades tenShares (1 / 20)
      (fun _ => none) (fun _ => none)) 0) (buildVolTargetRebalanceTrades tenShares (1 / 20)
      (fun _ => none) (fun _ => none)) (max 0 (1 / 20 * tenShares.equity)) := by
  refine rebalance_converges (by norm_num) (by decide) (by decide) ?_
  rw [rebalance_tenShares]
  exact ⟨nofun, trivial⟩

/-- A portfolio whose short position has cost it more than it has. -/
def inDebt : PretestState :=
  { defaultState 1000 with
    equity := -1000
    cash := 900
    positions := ⟨[{ symbol := "SPY", quantity := 1, avgPrice := 100 },
      { symbol := "QQQ", quantity := -20, avgPrice := 100 }], by decide⟩ }

/-- **No sale reaches a negative target**, and no purchase is made where nothing is held. -/
theorem rebalance_short_of_debt :
    ¬ Converges (inDebt.marks (fun _ => none) fun _ => none) inDebt
      (inDebt.applyTrades (buildVolTargetRebalanceTrades inDebt 1 (fun _ => none)
        (fun _ => none)) 0)
      (buildVolTargetRebalanceTrades inDebt 1 (fun _ => none) (fun _ => none))
      (1 * inDebt.equity) ∧
    ¬ Converges ((defaultState 1000).marks (fun _ => none) fun _ => none) (defaultState 1000)
      ((defaultState 1000).applyTrades (buildVolTargetRebalanceTrades (defaultState 1000) 1
        (fun _ => none) (fun _ => none)) 0)
      (buildVolTargetRebalanceTrades (defaultState 1000) 1 (fun _ => none) (fun _ => none))
      (1 * (defaultState 1000).equity) := by
  constructor
  · intro h
    have hnear := h.near
    revert hnear
    decide +kernel
  · intro h
    have hnear := h.near
    revert hnear
    decide +kernel

end NeoTrader

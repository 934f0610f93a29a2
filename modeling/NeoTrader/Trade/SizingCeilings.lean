import NeoTrader.Common.WholeShares
import NeoTrader.Trade.Paper

/-!
# The size of an entry

The budget of an entry is a share of the cash; the ceilings are shares of the equity. Each of them
is turned into whole shares, and the least number counts.

* **`entry_sized`**: every entry keeps its bounds, and no lower percentage buys more.
-/

namespace NeoTrader

theorem max_clampToCeiling {qty equity price pct : ℚ} (h : 0 ≤ equity * pct / price) :
    max 0 (clampToCeiling qty equity price pct) = min (max 0 qty) ⌊equity * pct / price⌋ := by
  have hceiling : (0 : ℚ) ≤ ⌊equity * pct / price⌋ := by exact_mod_cast Int.floor_nonneg.2 h
  unfold clampToCeiling
  by_cases hqty : qty ≤ 0
  · rw [if_pos hqty, max_eq_left hqty, min_eq_left hceiling]
  · rw [if_neg hqty, max_eq_right (not_le.1 hqty).le]
    dsimp only
    split
    · next hlt => rw [max_eq_right hceiling, min_eq_right hlt.le]
    · next hge => rw [max_eq_right (not_le.1 hqty).le, min_eq_left (not_lt.1 hge)]

/-! ## Whole shares -/

section Shares

variable (s : PaperState) (price sizingPct maxPositionPct maxShortNotionalPct commissionPct : ℚ)

/-- The shares that the budget pays for, under the ceiling of a position. -/
def entryShares : ℤ :=
  min (max 0 ⌊s.cash * sizingPct / (price * (1 + commissionPct))⌋)
    ⌊s.equity * maxPositionPct / price⌋

/-- The shares of a short entry, under its ceiling besides. -/
def shortShares : ℤ :=
  min (entryShares s price sizingPct maxPositionPct commissionPct)
    ⌊s.equity * maxShortNotionalPct / price⌋

variable {s price sizingPct maxPositionPct maxShortNotionalPct commissionPct}

theorem entryShares_nonneg (hequity : 0 ≤ s.equity) (hprice : 0 < price)
    (hpct : 0 ≤ maxPositionPct) :
    0 ≤ entryShares s price sizingPct maxPositionPct commissionPct :=
  le_min (le_max_left _ _) (Int.floor_nonneg.2 (by positivity))

theorem shortShares_nonneg (hequity : 0 ≤ s.equity) (hprice : 0 < price)
    (hpct : 0 ≤ maxPositionPct) (hshort : 0 ≤ maxShortNotionalPct) :
    0 ≤ shortShares s price sizingPct maxPositionPct maxShortNotionalPct commissionPct :=
  le_min (entryShares_nonneg hequity hprice hpct) (Int.floor_nonneg.2 (by positivity))

/-- **The budget**: commission included, an entry costs no more than its share of the cash. -/
theorem entryShares_cost (hprice : 0 < price) (hcommission : 0 ≤ commissionPct) :
    (entryShares s price sizingPct maxPositionPct commissionPct : ℚ) * price * (1 + commissionPct) ≤
      max 0 (s.cash * sizingPct) := by
  have hcost : 0 < price * (1 + commissionPct) := by positivity
  have hle : (entryShares s price sizingPct maxPositionPct commissionPct : ℚ) ≤
      max 0 (⌊s.cash * sizingPct / (price * (1 + commissionPct))⌋ : ℚ) := by
    have := min_le_left (max 0 ⌊s.cash * sizingPct / (price * (1 + commissionPct))⌋)
      ⌊s.equity * maxPositionPct / price⌋
    exact_mod_cast this
  calc (entryShares s price sizingPct maxPositionPct commissionPct : ℚ) * price *
        (1 + commissionPct)
      = (entryShares s price sizingPct maxPositionPct commissionPct : ℚ) *
          (price * (1 + commissionPct)) := by ring
    _ ≤ max 0 (⌊s.cash * sizingPct / (price * (1 + commissionPct))⌋ : ℚ) *
          (price * (1 + commissionPct)) := mul_le_mul_of_nonneg_right hle hcost.le
    _ = max 0 ((⌊s.cash * sizingPct / (price * (1 + commissionPct))⌋ : ℚ) *
          (price * (1 + commissionPct))) := by rw [max_mul_of_nonneg _ _ hcost.le, zero_mul]
    _ ≤ max 0 (s.cash * sizingPct) := max_le_max_left 0 (WholeShares.floor_mul_le hcost)

/-- **The ceiling of a position.** -/
theorem entryShares_notional (hprice : 0 < price) :
    (entryShares s price sizingPct maxPositionPct commissionPct : ℚ) * price ≤
      s.equity * maxPositionPct := by
  have hle : (entryShares s price sizingPct maxPositionPct commissionPct : ℚ) ≤
      ⌊s.equity * maxPositionPct / price⌋ := by exact_mod_cast min_le_right _ _
  exact (mul_le_mul_of_nonneg_right hle hprice.le).trans (WholeShares.floor_mul_le hprice)

theorem shortShares_le : shortShares s price sizingPct maxPositionPct maxShortNotionalPct
    commissionPct ≤ entryShares s price sizingPct maxPositionPct commissionPct :=
  min_le_left _ _

/-- **The ceiling of a short position.** -/
theorem shortShares_notional (hprice : 0 < price) :
    (shortShares s price sizingPct maxPositionPct maxShortNotionalPct commissionPct : ℚ) * price ≤
      s.equity * maxShortNotionalPct := by
  have hle : (shortShares s price sizingPct maxPositionPct maxShortNotionalPct commissionPct : ℚ) ≤
      ⌊s.equity * maxShortNotionalPct / price⌋ := by exact_mod_cast min_le_right _ _
  exact (mul_le_mul_of_nonneg_right hle hprice.le).trans (WholeShares.floor_mul_le hprice)

/-! ## Lower percentages -/

theorem shares_mono {amount cost pct pct' : ℚ} (hcost : 0 < cost) (hpct' : 0 ≤ pct')
    (hle : pct' ≤ pct) : max 0 ⌊amount * pct' / cost⌋ ≤ max 0 ⌊amount * pct / cost⌋ := by
  rcases le_or_gt 0 amount with hamount | hamount
  · refine max_le_max_left 0 (Int.floor_le_floor ?_)
    gcongr
  · have hneg : amount * pct' / cost ≤ 0 :=
      div_nonpos_of_nonpos_of_nonneg (mul_nonpos_of_nonpos_of_nonneg hamount.le hpct') hcost.le
    have hfloor : ⌊amount * pct' / cost⌋ ≤ 0 := by
      have h := Int.floor_le_floor hneg
      rwa [Int.floor_zero] at h
    rw [max_eq_left hfloor]
    exact le_max_left _ _

theorem ceiling_mono {pct pct' : ℚ} (hequity : 0 ≤ s.equity) (hprice : 0 < price)
    (hle : pct' ≤ pct) : ⌊s.equity * pct' / price⌋ ≤ ⌊s.equity * pct / price⌋ := by
  refine Int.floor_le_floor ?_
  gcongr

variable {sizingPct' maxPositionPct' maxShortNotionalPct' : ℚ}

theorem entryShares_mono (hequity : 0 ≤ s.equity) (hprice : 0 < price)
    (hcommission : 0 ≤ commissionPct) (hsizing' : 0 ≤ sizingPct') (hsizing : sizingPct' ≤ sizingPct)
    (hposition : maxPositionPct' ≤ maxPositionPct) :
    entryShares s price sizingPct' maxPositionPct' commissionPct ≤
      entryShares s price sizingPct maxPositionPct commissionPct :=
  min_le_min (shares_mono (by positivity) hsizing' hsizing) (ceiling_mono hequity hprice hposition)

end Shares

/-! ## Fills -/

/-- The symbol is held short, on top of which nothing is bought. -/
def refusesLong (symbol : String) (s : PaperState) : Bool :=
  (s.positions.find? fun p => p.symbol = symbol).any fun p => p.quantity < 0

/-- The symbol is held long, on top of which nothing is sold short. -/
def refusesShort (symbol : String) (s : PaperState) : Bool :=
  (s.positions.find? fun p => p.symbol = symbol).any fun p => 0 < p.quantity

section Fills

variable {symbol : String} {s : PaperState}
variable {price sizingPct maxPositionPct maxShortNotionalPct commissionPct baseHwm : ℚ}
variable (hequity : 0 ≤ s.equity) (hprice : 0 < price) (hposition : 0 ≤ maxPositionPct)
variable (hshort : 0 ≤ maxShortNotionalPct) (hcommission : 0 ≤ commissionPct)

theorem nothing_quantity (s : PaperState) (baseHwm : ℚ) :
    (FillResult.nothing s baseHwm).quantity = 0 := rfl

section Position

include hequity hprice hposition hcommission

theorem max_budget_eq : max 0 (clampToPositionCeiling
    (if 0 < price * (1 + commissionPct) then ⌊s.cash * sizingPct / (price * (1 + commissionPct))⌋
      else 0) s.equity price maxPositionPct) =
    entryShares s price sizingPct maxPositionPct commissionPct := by
  have hcost : 0 < price * (1 + commissionPct) := by positivity
  rw [clampToPositionCeiling, max_clampToCeiling (by positivity), if_pos hcost, entryShares]
  push_cast
  rfl

/-- **What a long entry buys.** -/
theorem executeLong_quantity :
    (executeLong symbol price s baseHwm sizingPct maxPositionPct s.equity commissionPct).quantity =
      if refusesLong symbol s then 0
      else (entryShares s price sizingPct maxPositionPct commissionPct : ℚ) := by
  rw [← max_budget_eq hequity hprice hposition hcommission]
  unfold executeLong refusesLong
  dsimp only
  generalize clampToPositionCeiling _ _ _ _ = quantity
  split
  · rfl
  · split
    · next hle => rw [nothing_quantity, max_eq_left hle]
    · next hpos => exact (max_eq_right (not_le.1 hpos).le).symm

include hshort in
/-- **What a short entry sells.** -/
theorem executeShort_quantity :
    (executeShort symbol price s baseHwm sizingPct maxPositionPct maxShortNotionalPct s.equity
      commissionPct).quantity =
      if refusesShort symbol s then 0
      else
        (shortShares s price sizingPct maxPositionPct maxShortNotionalPct commissionPct : ℚ) := by
  have hshares : ((shortShares s price sizingPct maxPositionPct maxShortNotionalPct
      commissionPct : ℤ) : ℚ) = max 0 (clampToShortNotionalCeiling (clampToPositionCeiling
        (if 0 < price * (1 + commissionPct) then
          ⌊s.cash * sizingPct / (price * (1 + commissionPct))⌋ else 0) s.equity price
        maxPositionPct) s.equity price maxShortNotionalPct) := by
    rw [clampToShortNotionalCeiling, max_clampToCeiling (by positivity),
      max_budget_eq hequity hprice hposition hcommission, shortShares]
    push_cast
    rfl
  rw [hshares]
  unfold executeShort refusesShort
  dsimp only
  generalize clampToShortNotionalCeiling _ _ _ _ = quantity
  split
  · rfl
  · split
    · next hle => rw [nothing_quantity, max_eq_left hle]
    · next hpos => exact (max_eq_right (not_le.1 hpos).le).symm

end Position

theorem executeLong_cash : ∀ r, r = executeLong symbol price s baseHwm sizingPct maxPositionPct
      s.equity commissionPct →
    r.newState.cash = s.cash - r.quantity * price * (1 + commissionPct) ∧
      (r.quantity = 0 → r.newState.cash = s.cash ∧ r.newState.positions = s.positions) := by
  rintro r rfl
  unfold executeLong
  dsimp only
  generalize clampToPositionCeiling _ _ _ _ = quantity
  split
  · exact ⟨by simp [FillResult.nothing], fun _ => ⟨rfl, rfl⟩⟩
  · split
    · exact ⟨by simp [FillResult.nothing], fun _ => ⟨rfl, rfl⟩⟩
    · next hpos =>
      refine ⟨?_, fun hzero => absurd hzero.le hpos⟩
      simp only [PaperState.revalue]
      ring

theorem executeShort_nothing : ∀ r, r = executeShort symbol price s baseHwm sizingPct maxPositionPct
      maxShortNotionalPct s.equity commissionPct →
    r.quantity = 0 → r.newState.cash = s.cash ∧ r.newState.positions = s.positions := by
  rintro r rfl
  unfold executeShort
  dsimp only
  generalize clampToShortNotionalCeiling _ _ _ _ = quantity
  split
  · exact fun _ => ⟨rfl, rfl⟩
  · split
    · exact fun _ => ⟨rfl, rfl⟩
    · next hpos => exact fun hzero => absurd hzero.le hpos

end Fills

/-! ## Entries -/

/-- **The bounds of an entry**: whole shares, which the budget pays for and the ceilings allow; a
long entry leaves no debt, and an entry of no shares leaves the books alone. -/
structure EntrySized (action : TradeAction) (s : PaperState) (price sizingPct maxPositionPct
    maxShortNotionalPct commissionPct : ℚ) (r : FillResult) : Prop where
  shares : ∃ n : ℕ, r.quantity = n
  cost : r.quantity * price * (1 + commissionPct) ≤ max 0 (s.cash * sizingPct)
  notional : r.quantity * price ≤ s.equity * maxPositionPct
  shortNotional : action = .short → r.quantity * price ≤ s.equity * maxShortNotionalPct
  cash : action = .long → 0 ≤ s.cash → 0 ≤ r.newState.cash
  nothing : r.quantity = 0 → r.newState.cash = s.cash ∧ r.newState.positions = s.positions

section Entries

variable {s : PaperState}
variable {price sizingPct maxPositionPct maxShortNotionalPct commissionPct : ℚ}

theorem exists_shares {n : ℤ} (hn : 0 ≤ n) (refused : Bool) :
    ∃ m : ℕ, (if refused then 0 else (n : ℚ)) = m ∧ (m : ℤ) ≤ n := by
  cases refused with
  | true => exact ⟨0, by simp, by simpa using hn⟩
  | false =>
    obtain ⟨m, rfl⟩ := Int.eq_ofNat_of_zero_le hn
    exact ⟨m, by simp, le_refl _⟩

theorem mul_le_of_le {m : ℕ} {n : ℤ} {k bound : ℚ} (hm : (m : ℤ) ≤ n) (hk : 0 ≤ k)
    (h : n * k ≤ bound) : m * k ≤ bound := by
  have hmn : (m : ℚ) ≤ n := by exact_mod_cast hm
  exact (mul_le_mul_of_nonneg_right hmn hk).trans h

section Sized

variable (symbol : String) (hequity : 0 ≤ s.equity) (hprice : 0 < price)
variable (hposition : 0 ≤ maxPositionPct) (hshort : 0 ≤ maxShortNotionalPct)
variable (hcommission : 0 ≤ commissionPct)
include hequity hprice hposition hcommission

variable (sizingPct) in
theorem exists_longShares : ∃ m : ℕ,
    (executeLong symbol price s s.baseHwm sizingPct maxPositionPct s.equity
      commissionPct).quantity = m ∧
      (m : ℤ) ≤ entryShares s price sizingPct maxPositionPct commissionPct := by
  rw [executeLong_quantity hequity hprice hposition hcommission]
  exact exists_shares (entryShares_nonneg hequity hprice hposition) _

theorem long_sized (hsizing : sizingPct ≤ 1) :
    EntrySized .long s price sizingPct maxPositionPct maxShortNotionalPct commissionPct
      (executeLong symbol price s s.baseHwm sizingPct maxPositionPct s.equity commissionPct) := by
  obtain ⟨m, hm, hle⟩ := exists_longShares sizingPct symbol hequity hprice hposition hcommission
  generalize hr : executeLong symbol price s s.baseHwm sizingPct maxPositionPct s.equity
    commissionPct = r at hm ⊢
  obtain ⟨hcash, hnothing⟩ := executeLong_cash r hr.symm
  have hcost : r.quantity * price * (1 + commissionPct) ≤ max 0 (s.cash * sizingPct) := by
    rw [hm, mul_assoc]
    refine mul_le_of_le hle (by positivity) ?_
    rw [← mul_assoc]
    exact entryShares_cost hprice hcommission
  refine ⟨⟨m, hm⟩, hcost, ?_, nofun, fun _ hs => ?_, hnothing⟩
  · rw [hm]
    exact mul_le_of_le hle hprice.le (entryShares_notional hprice)
  · have hbudget : max 0 (s.cash * sizingPct) ≤ s.cash :=
      max_le hs (mul_le_of_le_one_right hs hsizing)
    rw [hcash]
    linarith

include hshort

variable (sizingPct) in
theorem exists_shortShares : ∃ m : ℕ,
    (executeShort symbol price s s.baseHwm sizingPct maxPositionPct maxShortNotionalPct s.equity
      commissionPct).quantity = m ∧
      (m : ℤ) ≤ shortShares s price sizingPct maxPositionPct maxShortNotionalPct commissionPct := by
  rw [executeShort_quantity hequity hprice hposition hshort hcommission]
  exact exists_shares (shortShares_nonneg hequity hprice hposition hshort) _

theorem short_sized :
    EntrySized .short s price sizingPct maxPositionPct maxShortNotionalPct commissionPct
      (executeShort symbol price s s.baseHwm sizingPct maxPositionPct maxShortNotionalPct s.equity
        commissionPct) := by
  obtain ⟨m, hm, hle⟩ := exists_shortShares sizingPct symbol hequity hprice hposition hshort
    hcommission
  generalize hr : executeShort symbol price s s.baseHwm sizingPct maxPositionPct
    maxShortNotionalPct s.equity commissionPct = r at hm ⊢
  have hentry : (m : ℤ) ≤ entryShares s price sizingPct maxPositionPct commissionPct :=
    hle.trans shortShares_le
  refine ⟨⟨m, hm⟩, ?_, ?_, fun _ => ?_, nofun, executeShort_nothing r hr.symm⟩
  · rw [hm, mul_assoc]
    refine mul_le_of_le hentry (by positivity) ?_
    rw [← mul_assoc]
    exact entryShares_cost hprice hcommission
  · rw [hm]
    exact mul_le_of_le hentry hprice.le (entryShares_notional hprice)
  · rw [hm]
    exact mul_le_of_le hle hprice.le (shortShares_notional hprice)

end Sized

/-- **The size of an entry.** Every long or short entry keeps its bounds, and an entry with lower
percentages fills no more. -/
theorem entry_sized {action : TradeAction} (haction : action = .long ∨ action = .short)
    (symbol : String) (hequity : 0 < s.equity) (hprice : 0 < price)
    (hsizing : 0 < sizingPct ∧ sizingPct ≤ 1) (hposition : 0 < maxPositionPct ∧ maxPositionPct ≤ 1)
    (hshort : 0 < maxShortNotionalPct ∧ maxShortNotionalPct ≤ 1)
    (hcommission : 0 ≤ commissionPct ∧ commissionPct < 1) :
    EntrySized action s price sizingPct maxPositionPct maxShortNotionalPct commissionPct
      (executeFill action symbol price s sizingPct maxPositionPct maxShortNotionalPct
        commissionPct) ∧
    ∀ sizingPct' maxPositionPct' maxShortNotionalPct',
      0 < sizingPct' → sizingPct' ≤ sizingPct → 0 < maxPositionPct' →
      maxPositionPct' ≤ maxPositionPct → 0 < maxShortNotionalPct' →
      maxShortNotionalPct' ≤ maxShortNotionalPct →
      (executeFill action symbol price s sizingPct' maxPositionPct' maxShortNotionalPct'
        commissionPct).quantity ≤
      (executeFill action symbol price s sizingPct maxPositionPct maxShortNotionalPct
        commissionPct).quantity := by
  rcases haction with rfl | rfl
  · refine ⟨long_sized symbol hequity.le hprice hposition.1.le hcommission.1 hsizing.2, ?_⟩
    intro sizingPct' maxPositionPct' _ hsizing' hsizingLe hposition' hpositionLe _ _
    show (executeLong ..).quantity ≤ (executeLong ..).quantity
    rw [executeLong_quantity hequity.le hprice hposition.1.le hcommission.1,
      executeLong_quantity hequity.le hprice hposition'.le hcommission.1]
    split
    · exact le_refl 0
    · exact_mod_cast entryShares_mono hequity.le hprice hcommission.1 hsizing'.le hsizingLe
        hpositionLe
  · refine ⟨short_sized symbol hequity.le hprice hposition.1.le hshort.1.le hcommission.1, ?_⟩
    intro sizingPct' maxPositionPct' maxShortNotionalPct' hsizing' hsizingLe hposition' hpositionLe
      hshort' hshortLe
    show (executeShort ..).quantity ≤ (executeShort ..).quantity
    rw [executeShort_quantity hequity.le hprice hposition.1.le hshort.1.le hcommission.1,
      executeShort_quantity hequity.le hprice hposition'.le hshort'.le hcommission.1]
    split
    · exact le_refl 0
    · have hmono := min_le_min (entryShares_mono hequity.le hprice hcommission.1 hsizing'.le
        hsizingLe hpositionLe) (ceiling_mono hequity.le hprice hshortLe)
      exact_mod_cast hmono

/-- An account with a debt, which buys nothing, and one that sells ten shares short. -/
theorem entry_sized_shortTen :
    EntrySized .long { equity := 100, cash := -50, positions := [⟨"A", 3, 50⟩] } 10 (1 / 2) 1 1 0
      (executeFill .long "B" 10 { equity := 100, cash := -50, positions := [⟨"A", 3, 50⟩] }
        (1 / 2) 1 1) ∧
    EntrySized .short { equity := 1000, cash := 1000, positions := [] } 10 (1 / 2) (1 / 5) (1 / 10)
      (1 / 100) (executeFill .short "B" 10 { equity := 1000, cash := 1000, positions := [] } (1 / 2)
        (1 / 5) (1 / 10) (1 / 100)) :=
  ⟨(entry_sized (.inl rfl) "B" (by norm_num) (by norm_num) (by norm_num) (by norm_num)
      (by norm_num) (by norm_num)).1,
    (entry_sized (.inr rfl) "B" (by norm_num) (by norm_num) (by norm_num) (by norm_num)
      (by norm_num) (by norm_num)).1⟩

end Entries

end NeoTrader

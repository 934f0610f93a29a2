import Mathlib.Algebra.Order.Floor.Ring
import Mathlib.Algebra.Order.Field.Basic

/-!
# Whole shares for an amount

* **`floor_mul_le`**: the whole shares for an amount cost no more than it;
* `floor_le_of_lt_mul`: an amount under the cost of some shares buys no more of them.
-/

namespace WholeShares

variable {K : Type*} [Field K] [LinearOrder K] [IsStrictOrderedRing K] [FloorRing K]
  {amount price : K} {shares : ℤ}

/-- **Whole shares for an amount cost no more than it.** -/
theorem floor_mul_le (hprice : 0 < price) : (⌊amount / price⌋ : K) * price ≤ amount :=
  (le_div_iff₀ hprice).1 (Int.floor_le _)

theorem floor_nonneg (hamount : 0 ≤ amount) (hprice : 0 ≤ price) : 0 ≤ ⌊amount / price⌋ :=
  Int.floor_nonneg.2 (div_nonneg hamount hprice)

theorem floor_le_of_lt_mul (hprice : 0 < price) (h : amount < shares * price) :
    ⌊amount / price⌋ ≤ shares := by
  have hlt : amount / price < shares := (div_lt_iff₀ hprice).2 h
  exact Int.floor_le_iff.2 (hlt.trans (lt_add_one _))

/-- The price of one share buys it. -/
theorem floor_self (hprice : price ≠ 0) : ⌊price / price⌋ = 1 := by
  rw [div_self hprice, Int.floor_one]

end WholeShares

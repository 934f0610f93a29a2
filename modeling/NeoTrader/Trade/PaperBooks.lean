import Mathlib.Algebra.Order.Field.Basic
import Mathlib.Tactic.FieldSimp
import Mathlib.Tactic.Linarith
import Mathlib.Tactic.Positivity
import NeoTrader.Common.Books
import NeoTrader.Trade.Paper

/-!
# The books of the paper account

A fill of the paper account is a trade that is booked at cost: commissions go into the cost basis of
an entry, and into the realized result of an exit.

* `PaperPosition.Sound`, **`executeFill_booked`**: a fill is a trade of `Books`, and its positions
  have whole quantities and positive prices;
* **`paper_accounting`**: money is conserved, and a position changes its side only through an exit.
-/

namespace NeoTrader

open Books

/-! ## Positions -/

/-- What a position has cost; a short one has been paid for. -/
def PaperPosition.cost (p : PaperPosition) : ℚ := p.avgPrice * p.quantity

/-- A whole, non-zero quantity at a positive price. -/
def PaperPosition.Sound (p : PaperPosition) : Prop :=
  (∃ n : ℤ, p.quantity = n) ∧ p.quantity ≠ 0 ∧ 0 < p.avgPrice

def PaperState.position (s : PaperState) (symbol : String) : Option PaperPosition :=
  holding PaperPosition.symbol symbol s.positions

/-- The signed quantity of a symbol. -/
def PaperState.quantityOf (s : PaperState) (symbol : String) : ℚ :=
  ((s.position symbol).map PaperPosition.quantity).getD 0

theorem updateFirst_eq (symbol : String) (f : PaperPosition → PaperPosition)
    (l : List PaperPosition) : updateFirst symbol f l = amend PaperPosition.symbol symbol f l := by
  induction l with
  | nil => rfl
  | cons p l ih => rw [updateFirst, amend_cons, ih]

/-- The position after more shares have been bought, or sold short, at a price. -/
def PaperPosition.add (p : PaperPosition) (n price : ℚ) : PaperPosition :=
  { p with
    avgPrice := (p.avgPrice * p.quantity + price * n) / (p.quantity + n)
    quantity := p.quantity + n }

theorem PaperPosition.cost_add {p : PaperPosition} {n price : ℚ} (h : p.quantity + n ≠ 0) :
    (p.add n price).cost = p.cost + price * n := by
  simp only [PaperPosition.add, PaperPosition.cost]
  field_simp

theorem PaperPosition.Sound.add {p : PaperPosition} (hp : p.Sound) {n : ℤ} {price : ℚ}
    (hprice : 0 < price) (hside : 0 < p.quantity ∧ 0 < n ∨ p.quantity < 0 ∧ n < 0) :
    (p.add n price).Sound := by
  obtain ⟨⟨m, hm⟩, -, havg⟩ := hp
  have hwhole : p.quantity + n = ((m + n : ℤ) : ℚ) := by
    rw [hm]
    push_cast
    ring
  refine ⟨⟨m + n, hwhole⟩, ?_⟩
  simp only [PaperPosition.add]
  rcases hside with ⟨hq, hn⟩ | ⟨hq, hn⟩
  · have hn' : (0 : ℚ) < n := by exact_mod_cast hn
    exact ⟨by linarith, by positivity⟩
  · have hn' : (n : ℚ) < 0 := by exact_mod_cast hn
    refine ⟨by linarith, div_pos_of_neg_of_neg ?_ (by linarith)⟩
    have h₁ := mul_neg_of_pos_of_neg havg hq
    have h₂ := mul_neg_of_pos_of_neg hprice hn'
    linarith

/-! ## What a fill does -/

theorem whole_clampToCeiling {qty : ℚ} (hq : ∃ n : ℤ, qty = n) (equity price pct : ℚ) :
    ∃ n : ℤ, clampToCeiling qty equity price pct = n := by
  unfold clampToCeiling
  split_ifs
  · exact hq
  · dsimp only
    split_ifs
    · exact ⟨_, rfl⟩
    · exact hq

theorem whole_shares (budget price : ℚ) :
    ∃ n : ℤ, (if 0 < price then ((⌊budget / price⌋ : ℤ) : ℚ) else 0) = n := by
  split_ifs
  · exact ⟨_, rfl⟩
  · exact ⟨0, by simp⟩

section Cases

variable {symbol : String} {fillPrice : ℚ} {s : PaperState}
  {baseHwm sizingPct maxPositionPct maxShortNotionalPct baseEquity commissionPct : ℚ}

/-- A fill of `n` shares, bought where `n` is positive and sold short where it is negative. -/
structure Filled (s : PaperState) (symbol : String) (n : ℤ) (price : ℚ) (r : FillResult) : Prop where
  cash : r.newState.cash = s.cash - price * n
  realized : r.realizedPnl = none
  positions : s.position symbol = none ∧ r.newState.positions = s.positions ++ [⟨symbol, n, price⟩] ∨
    ∃ p, s.position symbol = some p ∧ (0 < n → 0 ≤ p.quantity) ∧ (n < 0 → p.quantity ≤ 0) ∧
      r.newState.positions =
        amend PaperPosition.symbol symbol (fun p => p.add n price) s.positions

/-- **A long** buys some shares, or does nothing. -/
theorem executeLong_cases :
    executeLong symbol fillPrice s baseHwm sizingPct maxPositionPct baseEquity commissionPct =
        .nothing s baseHwm ∨
      ∃ n : ℤ, 0 < n ∧ Filled s symbol n (fillPrice * (1 + commissionPct))
        (executeLong symbol fillPrice s baseHwm sizingPct maxPositionPct baseEquity
          commissionPct) := by
  generalize hr : executeLong symbol fillPrice s baseHwm sizingPct maxPositionPct baseEquity
    commissionPct = r
  obtain ⟨n, hn⟩ := whole_clampToCeiling
    (whole_shares (s.cash * sizingPct) (fillPrice * (1 + commissionPct))) baseEquity fillPrice
    maxPositionPct
  unfold executeLong at hr
  simp only [clampToPositionCeiling, hn] at hr
  split at hr
  · exact .inl hr.symm
  · next hlong =>
    split at hr
    · exact .inl hr.symm
    · next hpos =>
      have hn0 : (0 : ℚ) < n := not_le.1 hpos
      refine .inr ⟨n, by exact_mod_cast hn0, ?_⟩
      have hbasis : (fillPrice * n + fillPrice * n * commissionPct) / n =
          fillPrice * (1 + commissionPct) := by
        field_simp
      rw [hbasis] at hr
      subst hr
      refine ⟨by simp only [PaperState.revalue]; ring, rfl, ?_⟩
      cases hsome : s.positions.find? fun p => p.symbol = symbol with
      | none => exact .inl ⟨hsome, by simp [PaperState.revalue]⟩
      | some p =>
        rw [hsome] at hlong
        refine .inr ⟨p, hsome, fun _ => by simpa using hlong, fun hneg => ?_, ?_⟩
        · have : (n : ℚ) < 0 := by exact_mod_cast hneg
          linarith
        · simp only [PaperState.revalue, updateFirst_eq]
          rfl

/-- **A short** sells some shares, or does nothing. -/
theorem executeShort_cases :
    executeShort symbol fillPrice s baseHwm sizingPct maxPositionPct maxShortNotionalPct baseEquity
        commissionPct = .nothing s baseHwm ∨
      ∃ n : ℤ, 0 < n ∧ Filled s symbol (-n) (fillPrice * (1 - commissionPct))
        (executeShort symbol fillPrice s baseHwm sizingPct maxPositionPct maxShortNotionalPct
          baseEquity commissionPct) := by
  generalize hr : executeShort symbol fillPrice s baseHwm sizingPct maxPositionPct
    maxShortNotionalPct baseEquity commissionPct = r
  obtain ⟨n, hn⟩ := whole_clampToCeiling (whole_clampToCeiling
    (whole_shares (s.cash * sizingPct) (fillPrice * (1 + commissionPct))) baseEquity fillPrice
    maxPositionPct) baseEquity fillPrice maxShortNotionalPct
  unfold executeShort at hr
  simp only [clampToPositionCeiling, clampToShortNotionalCeiling, hn] at hr
  split at hr
  · exact .inl hr.symm
  · next hshort =>
    split at hr
    · exact .inl hr.symm
    · next hpos =>
      have hn0 : (0 : ℚ) < n := not_le.1 hpos
      refine .inr ⟨n, by exact_mod_cast hn0, ?_⟩
      have hbasis : (fillPrice * n - fillPrice * n * commissionPct) / n =
          fillPrice * (1 - commissionPct) := by
        field_simp
      rw [hbasis] at hr
      subst hr
      refine ⟨by simp only [PaperState.revalue]; push_cast; ring, rfl, ?_⟩
      cases hsome : s.positions.find? fun p => p.symbol = symbol with
      | none =>
        refine .inl ⟨hsome, ?_⟩
        simp only [PaperState.revalue]
        push_cast
        rfl
      | some p =>
        rw [hsome] at hshort
        have hq : p.quantity ≤ 0 := by simpa using hshort
        refine .inr ⟨p, hsome, fun hneg => ?_, fun _ => hq, ?_⟩
        · have : (0 : ℚ) < (-n : ℤ) := by exact_mod_cast hneg
          push_cast at this
          linarith
        · simp only [PaperState.revalue, updateFirst_eq]
          refine amend_congr hsome ?_
          have hden : -p.quantity + (n : ℚ) ≠ 0 := by linarith
          simp only [PaperPosition.add, abs_of_nonpos hq, PaperPosition.mk.injEq, true_and]
          push_cast
          refine ⟨by ring, ?_⟩
          rw [show p.quantity + -(n : ℚ) = -(-p.quantity + n) by ring, div_neg, ← neg_div]
          congr 1
          ring

/-- **An exit** closes the whole position, where there is one. -/
theorem executeExit_cases :
    executeExit symbol fillPrice s baseHwm commissionPct = .nothing s baseHwm true ∧
        s.position symbol = none ∨
      ∃ p profit, s.position symbol = some p ∧
        (executeExit symbol fillPrice s baseHwm commissionPct).realizedPnl = some profit ∧
        (executeExit symbol fillPrice s baseHwm commissionPct).newState.cash =
          s.cash + p.cost + profit ∧
        (executeExit symbol fillPrice s baseHwm commissionPct).newState.positions =
          close PaperPosition.symbol symbol s.positions := by
  unfold executeExit
  cases hsome : s.positions.find? fun p => p.symbol = symbol with
  | none => exact .inl ⟨rfl, hsome⟩
  | some p =>
    refine .inr ⟨p, _, hsome, rfl, ?_, rfl⟩
    simp only [PaperState.revalue, PaperPosition.cost]
    ring

end Cases

/-! ## Fills as trades -/

/-- A call of `executeFill`. -/
structure FillCall where
  action : TradeAction
  symbol : String
  fillPrice : ℚ
  sizingPct : ℚ
  maxPositionPct : ℚ
  maxShortNotionalPct : ℚ
  commissionPct : ℚ
  deriving DecidableEq

/-- A positive price, fractions for the sizing and the ceilings, and a commission below one. -/
structure FillCall.Valid (c : FillCall) : Prop where
  price : 0 < c.fillPrice
  sizing : 0 < c.sizingPct ∧ c.sizingPct ≤ 1
  position : 0 < c.maxPositionPct ∧ c.maxPositionPct ≤ 1
  short : 0 < c.maxShortNotionalPct ∧ c.maxShortNotionalPct ≤ 1
  commission : 0 ≤ c.commissionPct ∧ c.commissionPct < 1

/-- A positive price and a commission below one. -/
structure FillCall.Priced (c : FillCall) : Prop where
  price : 0 < c.fillPrice
  commission : 0 ≤ c.commissionPct ∧ c.commissionPct < 1

theorem FillCall.Valid.priced {c : FillCall} (hc : c.Valid) : c.Priced := ⟨hc.price, hc.commission⟩

def FillCall.fill (c : FillCall) (s : PaperState) : FillResult :=
  executeFill c.action c.symbol c.fillPrice s c.sizingPct c.maxPositionPct c.maxShortNotionalPct
    c.commissionPct

/-- A trade in the books of the account. -/
abbrev PaperBooked (symbol : String) (s : PaperState) (profit : ℚ) (s' : PaperState) : Prop :=
  Booked PaperPosition.symbol PaperPosition.cost PaperPosition.Sound symbol s.cash s.positions
    profit s'.cash s'.positions

section Fills

variable {s : PaperState} {symbol : String} {r : FillResult} {c : FillCall}

theorem booked_nothing (symbol : String) (s : PaperState) (baseHwm : ℚ) (noPosition : Bool) :
    PaperBooked symbol s ((FillResult.nothing s baseHwm noPosition).realizedPnl.getD 0)
      (FillResult.nothing s baseHwm noPosition).newState := .idle

theorem Filled.booked {n : ℤ} {price : ℚ} (h : Filled s symbol n price r) (hn : n ≠ 0)
    (hprice : 0 < price) (hs : ∀ p ∈ s.positions, p.Sound) :
    PaperBooked symbol s (r.realizedPnl.getD 0) r.newState := by
  rw [h.realized]
  rcases h.positions with ⟨hnone, hpositions⟩ | ⟨p, hsome, hlong, hshort, hpositions⟩
  · have hcash : r.newState.cash = s.cash - PaperPosition.cost ⟨symbol, n, price⟩ := h.cash
    rw [PaperBooked, hcash, hpositions]
    exact .opened hnone rfl ⟨⟨n, rfl⟩, Int.cast_ne_zero.2 hn, hprice⟩
  · have hp := hs p (mem_of_holding hsome)
    have hside : 0 < p.quantity ∧ 0 < n ∨ p.quantity < 0 ∧ n < 0 := by
      rcases lt_or_gt_of_ne hn with hneg | hpos
      · exact .inr ⟨lt_of_le_of_ne (hshort hneg) hp.2.1, hneg⟩
      · exact .inl ⟨lt_of_le_of_ne (hlong hpos) hp.2.1.symm, hpos⟩
    have hcash : r.newState.cash = s.cash + p.cost - (p.add n price).cost + 0 := by
      rw [h.cash, PaperPosition.cost_add (hp.add hprice hside).2.1]
      ring
    rw [PaperBooked, hcash, hpositions]
    exact Booked.amended (f := fun p => p.add n price) (0 : ℚ) hsome (fun _ h => h) (hp.add hprice hside)

/-- **A fill is a trade that is booked at cost.** -/
theorem executeFill_booked (hc : c.Priced) (hs : ∀ p ∈ s.positions, p.Sound) :
    PaperBooked c.symbol s ((c.fill s).realizedPnl.getD 0) (c.fill s).newState := by
  have hprice := hc.price
  have hcommission := hc.commission
  unfold FillCall.fill executeFill
  cases c.action with
  | long =>
    rcases executeLong_cases  with heq | ⟨n, hn, h⟩
    · rw [heq]
      exact booked_nothing _ _ _ _
    · exact h.booked hn.ne' (mul_pos hprice (by linarith)) hs
  | short =>
    rcases executeShort_cases  with heq | ⟨n, hn, h⟩
    · rw [heq]
      exact booked_nothing _ _ _ _
    · exact h.booked (neg_ne_zero.2 hn.ne') (mul_pos hprice (by linarith)) hs
  | exit =>
    rcases executeExit_cases  with ⟨heq, -⟩ | ⟨p, profit, hsome, hr, hcash, hl⟩
    · rw [heq]
      exact booked_nothing _ _ _ _
    · rw [PaperBooked, hr, hcash, hl]
      exact .closed profit hsome
  | hold => exact booked_nothing _ _ _ _

theorem Filled.quantityOf {n : ℤ} {price : ℚ} (h : Filled s symbol n price r) :
    r.newState.quantityOf symbol = s.quantityOf symbol + n := by
  unfold PaperState.quantityOf PaperState.position
  rcases h.positions with ⟨hnone, hpositions⟩ | ⟨p, hsome, -, -, hpositions⟩
  · have hfree : holding PaperPosition.symbol symbol s.positions = none := hnone
    rw [hpositions, holding_append, hfree, if_pos rfl]
    simp
  · have hheld : holding PaperPosition.symbol symbol s.positions = some p := hsome
    have hkey : p.symbol = symbol := key_of_holding hheld
    have hadd := holding_amend (f := fun p => p.add n price) hheld hkey
    rw [hpositions, hadd, hheld]
    rfl

theorem Filled.side {n : ℤ} {price : ℚ} (h : Filled s symbol n price r) :
    (0 < s.quantityOf symbol → 0 < n → 0 < r.newState.quantityOf symbol) ∧
      (s.quantityOf symbol < 0 → n < 0 → r.newState.quantityOf symbol < 0) ∧
      (s.quantityOf symbol < 0 → ¬ 0 < n) ∧ (0 < s.quantityOf symbol → ¬ n < 0) := by
  rw [h.quantityOf]
  refine ⟨fun hq hn => ?_, fun hq hn => ?_, fun hq hn => ?_, fun hq hn => ?_⟩
  · have hn' : (0 : ℚ) < n := by exact_mod_cast hn
    linarith
  · have hn' : (n : ℚ) < 0 := by exact_mod_cast hn
    linarith
  · rcases h.positions with ⟨hnone, -⟩ | ⟨p, hsome, hlong, -, -⟩
    · simp [PaperState.quantityOf, hnone] at hq
    · simp only [PaperState.quantityOf, hsome, Option.map_some, Option.getD_some] at hq
      exact absurd (hlong hn) (not_le.2 hq)
  · rcases h.positions with ⟨hnone, -⟩ | ⟨p, hsome, -, hshort, -⟩
    · simp [PaperState.quantityOf, hnone] at hq
    · simp only [PaperState.quantityOf, hsome, Option.map_some, Option.getD_some] at hq
      exact absurd (hshort hn) (not_le.2 hq)

/-- **A position changes its side only through an exit.** -/
theorem quantityOf_fill (hc : c.Priced) (hs : ∀ p ∈ s.positions, p.Sound)
    (hexit : c.action = .exit → c.symbol ≠ symbol) :
    (0 < s.quantityOf symbol → 0 < (c.fill s).newState.quantityOf symbol) ∧
      (s.quantityOf symbol < 0 → (c.fill s).newState.quantityOf symbol < 0) := by
  by_cases hsymbol : symbol = c.symbol
  · subst hsymbol
    unfold FillCall.fill executeFill
    cases haction : c.action with
    | long =>
      rcases executeLong_cases with heq | ⟨n, hn, h⟩
      · rw [heq]
        exact ⟨id, id⟩
      · exact ⟨fun hq => h.side.1 hq hn, fun hq => absurd hn (h.side.2.2.1 hq)⟩
    | short =>
      rcases executeShort_cases with heq | ⟨n, hn, h⟩
      · rw [heq]
        exact ⟨id, id⟩
      · have hneg : -n < 0 := by omega
        exact ⟨fun hq => absurd hneg (h.side.2.2.2 hq), fun hq => h.side.2.1 hq hneg⟩
    | exit => exact absurd rfl (hexit haction)
    | hold => exact ⟨id, id⟩
  · have hsame : (c.fill s).newState.quantityOf symbol = s.quantityOf symbol := by
      unfold PaperState.quantityOf PaperState.position
      rw [(executeFill_booked hc hs).holding_of_ne hsymbol]
    rw [hsame]
    exact ⟨id, id⟩

end Fills

/-! ## Lists of fills -/

/-- The account after a list of fills, and the sum of their realized results. -/
def settled (s : PaperState) (cs : List FillCall) : PaperState × ℚ :=
  cs.foldl (fun x c => ((c.fill x.1).newState, x.2 + ((c.fill x.1).realizedPnl.getD 0))) (s, 0)

@[simp] theorem settled_nil (s : PaperState) : settled s [] = (s, 0) := rfl

theorem settled_concat (s : PaperState) (cs : List FillCall) (c : FillCall) :
    settled s (cs ++ [c]) = ((c.fill (settled s cs).1).newState,
      (settled s cs).2 + ((c.fill (settled s cs).1).realizedPnl.getD 0)) := by
  rw [settled, List.foldl_concat]
  rfl

/-- The books of an account: one sound position for each symbol. -/
structure PaperState.Kept (s : PaperState) : Prop where
  keyed : (s.positions.map PaperPosition.symbol).Nodup
  sound : ∀ p ∈ s.positions, p.Sound

section Settled

variable {s : PaperState} {cs : List FillCall}

theorem kept_settled (hs : s.Kept) (hcs : ∀ c ∈ cs, c.Valid) : (settled s cs).1.Kept := by
  induction cs using List.reverseRecOn with
  | nil => exact hs
  | append_singleton cs c ih =>
    have ih := ih fun c hc => hcs c (List.mem_append_left _ hc)
    have hbooked := executeFill_booked (hcs c (by simp)).priced ih.sound
    rw [settled_concat]
    exact ⟨hbooked.nodup ih.keyed, hbooked.good ih.sound⟩

/-- **Money is conserved**: cash and cost change by the realized results. -/
theorem conserved_settled (hs : s.Kept) (hcs : ∀ c ∈ cs, c.Valid) :
    (settled s cs).1.cash + total PaperPosition.cost (settled s cs).1.positions =
      s.cash + total PaperPosition.cost s.positions + (settled s cs).2 := by
  induction cs using List.reverseRecOn with
  | nil => rw [settled_nil, add_zero]
  | append_singleton cs c ih =>
    have hcs' : ∀ c ∈ cs, c.Valid := fun c hc => hcs c (List.mem_append_left _ hc)
    have hbooked := executeFill_booked (hcs c (by simp)).priced (kept_settled hs hcs').sound
    rw [settled_concat, hbooked.conserves, ih hcs', add_assoc]

theorem side_settled {symbol : String} (hs : s.Kept) (hcs : ∀ c ∈ cs, c.Valid)
    (hexit : ∀ c ∈ cs, c.action = .exit → c.symbol ≠ symbol) :
    (0 < s.quantityOf symbol → 0 < (settled s cs).1.quantityOf symbol) ∧
      (s.quantityOf symbol < 0 → (settled s cs).1.quantityOf symbol < 0) := by
  induction cs using List.reverseRecOn with
  | nil => exact ⟨id, id⟩
  | append_singleton cs c ih =>
    have hcs' : ∀ c ∈ cs, c.Valid := fun c hc => hcs c (List.mem_append_left _ hc)
    have ih := ih hcs' fun c hc => hexit c (List.mem_append_left _ hc)
    have hstep := quantityOf_fill (hcs c (by simp)).priced (kept_settled hs hcs').sound
      (hexit c (by simp))
    rw [settled_concat]
    exact ⟨fun hq => hstep.1 (ih.1 hq), fun hq => hstep.2 (ih.2 hq)⟩

theorem settled_append (s : PaperState) (cs cs' : List FillCall) :
    (settled s (cs ++ cs')).1 = (settled (settled s cs).1 cs').1 := by
  induction cs' using List.reverseRecOn with
  | nil => simp
  | append_singleton cs' c ih => rw [← List.append_assoc, settled_concat, settled_concat, ih]

end Settled

/-- **Accounting of the paper account.** From an account without positions, after any fills at positive
prices, cash and the cost of the positions are the first cash and the realized results; each symbol
has at most one position, of a whole non-zero quantity at a positive price; and between two moments
without an exit of its symbol a position stays on its side. -/
theorem paper_accounting {s : PaperState} {cs : List FillCall} (hs : s.positions = [])
    (hcs : ∀ c ∈ cs, c.Valid) :
    (settled s cs).1.cash + total PaperPosition.cost (settled s cs).1.positions =
        s.cash + (settled s cs).2 ∧
      ((settled s cs).1.positions.map PaperPosition.symbol).Nodup ∧
      (∀ p ∈ (settled s cs).1.positions, p.Sound) ∧
      ∀ earlier later symbol, cs = earlier ++ later →
        (∀ c ∈ later, c.action = .exit → c.symbol ≠ symbol) →
        (0 < (settled s earlier).1.quantityOf symbol → 0 < (settled s cs).1.quantityOf symbol) ∧
          ((settled s earlier).1.quantityOf symbol < 0 →
            (settled s cs).1.quantityOf symbol < 0) := by
  have hkept : s.Kept := ⟨by simp [hs], by simp [hs]⟩
  refine ⟨?_, (kept_settled hkept hcs).keyed, (kept_settled hkept hcs).sound, ?_⟩
  · rw [conserved_settled hkept hcs, hs, total_nil, add_zero]
  · rintro earlier later symbol rfl hexit
    rw [settled_append]
    refine side_settled (kept_settled hkept fun c hc => hcs c ?_) (fun c hc => hcs c ?_) hexit
    · exact List.mem_append_left _ hc
    · exact List.mem_append_right _ hc

/-- A long, a second long at another price, and the exit, with a commission. -/
def roundTrip : List FillCall :=
  [⟨.long, "SPY", 100, 1 / 10, 1 / 2, 1 / 2, 1 / 100⟩,
    ⟨.long, "SPY", 80, 1 / 10, 1 / 2, 1 / 2, 1 / 100⟩,
    ⟨.exit, "SPY", 90, 1 / 10, 1 / 2, 1 / 2, 1 / 100⟩]

theorem paper_accounting_roundTrip :
    (settled .initial roundTrip).1.cash +
        total PaperPosition.cost (settled .initial roundTrip).1.positions =
      PaperState.initial.cash + (settled .initial roundTrip).2 := by
  refine (paper_accounting rfl fun c hc => ?_).1
  simp only [roundTrip, List.mem_cons, List.not_mem_nil, or_false] at hc
  rcases hc with rfl | rfl | rfl <;> constructor <;> norm_num

end NeoTrader

import Mathlib.Algebra.Order.Group.MinMax
import NeoTrader.Disciplines.RiskManager
import NeoTrader.Py.Batch

/-!
# The caps of the exposure

The layer of the exposure keeps running totals while it goes over a batch. The signals that it emits
are filled again, and what is held then is compared with the caps.

* `BatchOrder`, `tradeOf`, `fillAll`: what the emitted signals trade; an exit sells at most what is
  held;
* `CapsKept`: each trade, each symbol, the total and the number of symbols, up to the rounding of
  the quantities;
* `judgeEntry_ok`: an entry that is let through fits; **`released_iff`**: an exit keeps the total;
* **`exposure_caps`**: the caps hold when no exit is for more than is held; **`oversold_exit`**: an
  exit that is for more makes room that is not there.
-/

namespace NeoTrader

open Js Py

/-! ## Fills -/

/-- What a signal trades. -/
structure BatchOrder where
  entry : Bool
  symbol : String
  qty : ℚ
  price : ℚ

def BatchOrder.notional (o : BatchOrder) : ℚ := o.qty * o.price

/-- The order of a signal that opens or closes; any other has none. -/
def tradeOf (sig : Obj) : Option BatchOrder := do
  let action ← (actionOf sig).toOption
  let symbol ← (textField sig "symbol" "").toOption
  let qty ← (floatField sig "qty" 0).toOption
  let price ← (priceOf sig).toOption
  if action ∈ entryActions then some ⟨true, symbol, qty, price⟩
  else if action ∈ exitActions then some ⟨false, symbol, qty, price⟩
  else none

/-- **A fill**: an exit sells at most what is held. -/
def BatchOrder.fill (held : Dict ℚ) (o : BatchOrder) : Dict ℚ :=
  if o.entry then Dict.set o.symbol (held.value o.symbol + o.notional) held
  else Dict.set o.symbol (max 0 (held.value o.symbol - o.notional)) held

/-- What is held after some orders. -/
def fillAll (held : Dict ℚ) (orders : List BatchOrder) : Dict ℚ :=
  orders.foldl BatchOrder.fill held

/-- What the rounding of a quantity to six decimals can come to. -/
def qtyUnit : ℚ := 1 / (2 * 10 ^ 6)

/-- What the rounding of the quantities of some orders can come to. -/
def rounding (orders : List BatchOrder) : ℚ :=
  (orders.map fun o => if o.entry then qtyUnit * o.price else 0).sum

/-- The number of symbols that are held, apart from what may be rounding. -/
def symbolsHeld (slack : ℚ) (held : Dict ℚ) : ℕ := held.countP fun e => slack < e.2

/-- **The caps are kept** by some orders. -/
structure CapsKept (portfolioValue : ℚ) (cfg : ExposureConfig) (held : Dict ℚ)
    (orders : List BatchOrder) : Prop where
  trade : ∀ o ∈ orders, o.entry → o.notional ≤ portfolioValue * cfg.maxTradePct + qtyUnit * o.price
  position : ∀ symbol, (fillAll held orders).value symbol ≤
    max (held.value symbol) (portfolioValue * cfg.maxPosPct) + rounding orders
  total : (fillAll held orders).total ≤
    max held.total (portfolioValue * cfg.maxExposure) + rounding orders
  count : (symbolsHeld (rounding orders) (fillAll held orders) : ℤ) ≤
    max (symbolsHeld 0 held : ℤ) cfg.maxOpen

section Fills

variable {held : Dict ℚ} {orders : List BatchOrder} {o : BatchOrder}

@[simp] theorem fillAll_concat : fillAll held (orders ++ [o]) = (o.fill (fillAll held orders)) := by
  simp [fillAll]

@[simp] theorem rounding_concat : rounding (orders ++ [o]) =
    rounding orders + if o.entry then qtyUnit * o.price else 0 := by
  simp [rounding]

theorem tradeOf_eq_some {sig : Obj} (h : tradeOf sig = some o) : ∃ action,
    actionOf sig = .ok action ∧ textField sig "symbol" "" = .ok o.symbol ∧
    floatField sig "qty" 0 = .ok o.qty ∧ priceOf sig = .ok o.price ∧
    if o.entry then action ∈ entryActions else action ∈ exitActions := by
  unfold tradeOf at h
  cases haction : actionOf sig with
  | error e => simp [haction, Except.toOption] at h
  | ok action =>
    cases hsymbol : textField sig "symbol" "" with
    | error e => simp [haction, hsymbol, Except.toOption] at h
    | ok symbol =>
      cases hqty : floatField sig "qty" 0 with
      | error e => simp [haction, hsymbol, hqty, Except.toOption] at h
      | ok qty =>
        cases hprice : priceOf sig with
        | error e => simp [haction, hsymbol, hqty, hprice, Except.toOption] at h
        | ok price =>
          simp only [haction, hsymbol, hqty, hprice, Except.toOption, Option.bind_eq_bind,
            Option.bind_some] at h
          split at h
          · next hentry =>
            cases h
            exact ⟨action, rfl, rfl, rfl, rfl, hentry⟩
          · split at h
            · next hexit =>
              cases h
              exact ⟨action, rfl, rfl, rfl, rfl, hexit⟩
            · cases h

theorem tradeOf_of_entry {sig : Obj} {action symbol : String} {qty price : ℚ}
    (haction : actionOf sig = .ok action) (hmem : action ∈ entryActions)
    (hsymbol : textField sig "symbol" "" = .ok symbol) (hqty : floatField sig "qty" 0 = .ok qty)
    (hprice : priceOf sig = .ok price) : tradeOf sig = some ⟨true, symbol, qty, price⟩ := by
  simp [tradeOf, haction, hsymbol, hqty, hprice, Except.toOption, hmem]

theorem tradeOf_cancel (sig : Obj) (reason : String) :
    tradeOf (cancelSignal sig reason) = none := by
  have haction : actionOf (cancelSignal sig reason) = .ok "cancelled" := by
    rw [actionOf, cancelSignal_action]
  have hother : "cancelled" ∉ entryActions ∧ "cancelled" ∉ exitActions := by decide
  unfold tradeOf
  rw [haction]
  cases (textField (cancelSignal sig reason) "symbol" "") <;>
    cases (floatField (cancelSignal sig reason) "qty" 0) <;>
    cases (priceOf (cancelSignal sig reason)) <;>
    simp [Except.toOption, hother.1, hother.2]

end Fills

/-! ## An entry that is let through -/

section Entry

variable {portfolioValue : ℚ} {cfg : ExposureConfig} {st : ExposureState} {symbol : String}
variable {price : ℚ} {s s' : Sized}

structure Priced (price : ℚ) (s : Sized) : Prop where
  value : s.notional = s.qty * price
  pos : 0 < s.notional

theorem Priced.scale (h : Priced price s) {factor : ℚ} (hfactor : 0 < factor) :
    Priced price (s.scale factor) := by
  refine ⟨?_, mul_pos h.pos hfactor⟩
  show s.notional * factor = s.qty * factor * price
  rw [h.value]
  ring

theorem Priced.scale_notional (h : Priced price s) (amount : ℚ) :
    (s.scale (amount / s.notional)).notional = amount := mul_div_cancel₀ _ h.pos.ne'

theorem perTrade_priced (h : Priced price s) (hcap : 0 < portfolioValue * cfg.maxTradePct) :
    Priced price (perTrade portfolioValue cfg s) ∧
      (perTrade portfolioValue cfg s).notional ≤ portfolioValue * cfg.maxTradePct := by
  unfold perTrade
  dsimp only
  split
  · exact ⟨h.scale (div_pos hcap h.pos), le_of_eq (h.scale_notional _)⟩
  · next hfits => exact ⟨h, not_lt.1 fun hlt => hfits ⟨hlt, hcap⟩⟩

theorem perAsset_priced (h : Priced price s)
    (hs' : perAsset portfolioValue cfg st symbol s = .ok s') :
    Priced price s' ∧ s'.notional ≤ s.notional ∧
      st.held symbol + s'.notional ≤ portfolioValue * cfg.maxPosPct := by
  unfold perAsset at hs'
  dsimp only at hs'
  split at hs'
  · next hover =>
    split at hs'
    · cases hs'
    · next hroom =>
      cases hs'
      rw [h.scale_notional]
      exact ⟨h.scale (div_pos (not_le.1 hroom) h.pos), by linarith, by linarith⟩
  · next hfits =>
    cases hs'
    exact ⟨h, le_refl _, not_lt.1 hfits⟩

theorem totalLimit_priced (h : Priced price s)
    (hs' : totalLimit portfolioValue cfg st s = .ok s') :
    Priced price s' ∧ s'.notional ≤ s.notional ∧
      st.exposure + s'.notional ≤ portfolioValue * cfg.maxExposure := by
  unfold totalLimit at hs'
  dsimp only at hs'
  split at hs'
  · next hover =>
    split at hs'
    · cases hs'
    · next hroom =>
      cases hs'
      rw [h.scale_notional]
      exact ⟨h.scale (div_pos (not_le.1 hroom) h.pos), by linarith, by linarith⟩
  · next hfits =>
    cases hs'
    exact ⟨h, le_refl _, not_lt.1 hfits⟩

theorem openLimit_ok (h : openLimit cfg st symbol true = .ok ()) :
    0 < st.held symbol ∨ st.held symbol < 0 ∨ (symbolsHeld 0 st.positions : ℤ) < cfg.maxOpen := by
  unfold openLimit at h
  dsimp only at h
  split at h
  · cases h
  · next hlimit =>
    by_cases hslot : cfg.maxOpen ≤ (symbolsHeld 0 st.positions : ℤ)
    · have hflat : ¬ ((Dict.get? st.positions symbol).isNone ∨ |st.held symbol| < flatEps) :=
        fun hnew => hlimit ⟨hnew, rfl, hslot⟩
      have heps : flatEps ≤ |st.held symbol| := not_lt.1 (not_or.1 hflat).2
      have hne : st.held symbol ≠ 0 := by
        intro hzero
        rw [hzero, abs_zero] at heps
        exact absurd heps (by decide +kernel)
      rcases lt_or_gt_of_ne hne with hlt | hgt
      · exact .inr (.inl hlt)
      · exact .inl hgt
    · exact .inr (.inr (not_le.1 hslot))

/-- **An entry that is let through fits** all caps. -/
theorem judgeEntry_ok (h : Priced price s) (hcap : 0 < portfolioValue * cfg.maxTradePct)
    (hs' : judgeEntry portfolioValue cfg st symbol true s = .ok s') :
    Priced price s' ∧ s'.notional ≤ portfolioValue * cfg.maxTradePct ∧
      st.held symbol + s'.notional ≤ portfolioValue * cfg.maxPosPct ∧
      st.exposure + s'.notional ≤ portfolioValue * cfg.maxExposure ∧
      openLimit cfg st symbol true = .ok () := by
  obtain ⟨hpriced, htrade⟩ : Priced price (perTrade portfolioValue cfg s) ∧
      (perTrade portfolioValue cfg s).notional ≤ portfolioValue * cfg.maxTradePct :=
    perTrade_priced h hcap
  obtain ⟨s₁, hs₁, hrest⟩ := bind_eq_ok.1 hs'
  obtain ⟨⟨⟩, hopen, htotal⟩ := bind_eq_ok.1 hrest
  obtain ⟨hpriced₁, hle₁, hasset⟩ := perAsset_priced hpriced hs₁
  obtain ⟨hpriced₂, hle₂, hexposure⟩ := totalLimit_priced hpriced₁ htotal
  exact ⟨hpriced₂, by linarith, by linarith, hexposure, hopen⟩

end Entry

/-! ## One signal -/

section Step

variable {portfolioValue : ℚ} {cfg : ExposureConfig} {st st' : ExposureState} {sig out : Obj}
variable {o : BatchOrder}

/-- What the state is after an exit. -/
def ExposureState.released (st : ExposureState) (o : BatchOrder) : ExposureState :=
  ⟨Dict.set o.symbol (max 0 (st.held o.symbol - o.notional)) st.positions,
    max 0 (st.exposure - o.notional)⟩

/-- What the state is after an entry of a value. -/
def ExposureState.grown (st : ExposureState) (symbol : String) (notional : ℚ) : ExposureState :=
  ⟨Dict.set symbol (st.held symbol + notional) st.positions, st.exposure + notional⟩

/-- **One signal**: an exit is let through, an entry is cancelled, or let through in a size that
fits. -/
theorem exposureStep_cases (hshorts : cfg.allowShorts = false) (ho : tradeOf sig = some o)
    (hprice : 0 < o.price) (hqty : 0 < o.qty)
    (h : exposureStep portfolioValue cfg st sig = .ok (out, st')) :
    (tradeOf out = none ∧ st' = st) ∨
    (o.entry = false ∧ tradeOf out = some o ∧ st' = st.released o) ∨
    (o.entry = true ∧ ∃ s qty, judgeEntry portfolioValue cfg st o.symbol true ⟨o.qty, o.notional⟩ =
      .ok s ∧ |qty - s.qty| ≤ qtyUnit ∧ tradeOf out = some { o with qty := qty } ∧
        st' = st.grown o.symbol s.notional) := by
  obtain ⟨action, haction, hsymbol, hq, hp, hmem⟩ := tradeOf_eq_some ho
  have hdisjoint : ∀ a ∈ exitActions, a ∉ entryActions := by decide
  have hunits : (1 : ℚ) / 10 ^ 8 ≤ qtyUnit := by
    rw [qtyUnit]
    norm_num
  unfold exposureStep at h
  rw [haction] at h
  cases hentry : o.entry with
  | false =>
    rw [hentry] at hmem
    have hexit : action ∈ exitActions := hmem
    refine .inr (.inl ⟨rfl, ?_⟩)
    dsimp only [bind, Except.bind] at h
    rw [if_pos hexit] at h
    obtain ⟨st'', hst'', h⟩ := bind_eq_ok.1 h
    cases h
    unfold exposureExit at hst''
    rw [hsymbol, hq, hp] at hst''
    dsimp only [bind, Except.bind] at hst''
    rw [if_pos ⟨hprice, hqty⟩] at hst''
    cases hst''
    exact ⟨ho, rfl⟩
  | true =>
    rw [hentry] at hmem
    have hmem : action ∈ entryActions := hmem
    have hexit : action ∉ exitActions := fun hexit => hdisjoint action hexit hmem
    dsimp only [bind, Except.bind] at h
    rw [if_neg hexit, if_neg (not_not.2 hmem)] at h
    unfold exposureEntry at h
    dsimp only at h
    by_cases hbuys : action ∈ ["long", "buy"]
    · rw [if_neg fun hshort => hshort.2 hbuys, hp, hq, hsymbol] at h
      dsimp only [bind, Except.bind] at h
      rw [if_neg (by rintro (hle | hle) <;> linarith), decide_eq_true hbuys] at h
      split at h
      · cases h
        exact .inl ⟨tradeOf_cancel _ _, rfl⟩
      · next s hs =>
        cases h
        refine .inr (.inr ⟨rfl, s, ?_⟩)
        split
        · -- the quantity is replaced
          have hround := abs_roundTo_sub_le 6 s.qty
          refine ⟨roundTo 6 s.qty, hs, hround, ?_, rfl⟩
          have hother : ∀ key ≠ "qty", (sig.set "qty" (.num (.fin (roundTo 6 s.qty)))).get key =
              sig.get key := fun key hkey => Obj.get_set_of_ne sig hkey _
          rw [← hentry]
          refine (@tradeOf_of_entry _ action _ _ _ ?_ hmem ?_ ?_ ?_).trans (by rw [hentry])
          · rw [actionOf, hother _ (by decide)]
            exact haction
          · rw [textField, hother _ (by decide)]
            exact hsymbol
          · rw [floatField, Obj.get_set_self]
            rfl
          · rw [priceOf, floatField, hother _ (by decide), hother _ (by decide)]
            exact hp
        · next hsame =>
          refine ⟨o.qty, hs, ?_, by rw [← hentry]; exact ho, rfl⟩
          rw [abs_sub_comm]
          exact (not_lt.1 hsame).trans hunits
    · rw [if_pos ⟨by rw [hshorts]; rfl, hbuys⟩] at h
      cases h
      exact .inl ⟨tradeOf_cancel _ _, rfl⟩

end Step

/-! ## The running totals -/

section Totals

variable {portfolioValue : ℚ} {cfg : ExposureConfig} {held : Dict ℚ} {st : ExposureState}
variable {orders : List BatchOrder} {o : BatchOrder}

/-- **The total stays that of the positions** when an exit is for no more than is held, or all of
the exposure is in its symbol; and then only. -/
theorem released_iff (htotal : st.exposure = st.positions.total)
    (hnonneg : ∀ e ∈ st.positions, 0 ≤ e.2) :
    (st.released o).exposure = (st.released o).positions.total ↔
      o.notional ≤ st.held o.symbol ∨ st.exposure ≤ st.held o.symbol := by
  have hvalue : Dict.value st.positions o.symbol = st.held o.symbol := rfl
  have hle : st.held o.symbol ≤ st.exposure := htotal ▸ Dict.value_le_total hnonneg
  show max 0 (st.exposure - o.notional) = Dict.total (Dict.set o.symbol _ st.positions) ↔ _
  rw [Dict.total_set, hvalue, ← htotal]
  rcases le_total o.notional (st.held o.symbol) with hfits | hover
  · rw [max_eq_right (by linarith), max_eq_right (by linarith)]
    exact iff_of_true (by ring) (.inl hfits)
  · rw [max_eq_left (by linarith : st.held o.symbol - o.notional ≤ 0)]
    constructor
    · intro heq
      rcases le_total (st.exposure - o.notional) 0 with hall | hrest
      · rw [max_eq_left hall] at heq
        exact .inr (by linarith)
      · rw [max_eq_right hrest] at heq
        exact .inl (by linarith)
    · rintro (h | h)
      · rw [max_eq_right (by linarith)]
        linarith
      · rw [max_eq_left (by linarith)]
        linarith

/-- **The state of the layer**: what it counts is what the orders come to, up to rounding, and
within the caps. -/
structure Tracked (portfolioValue : ℚ) (cfg : ExposureConfig) (held : Dict ℚ)
    (orders : List BatchOrder) (st : ExposureState) : Prop where
  keys : (fillAll held orders).map Prod.fst = st.positions.map Prod.fst
  gap : Dict.gap (fillAll held orders) st.positions ≤ rounding orders
  nonneg : ∀ e ∈ st.positions, 0 ≤ e.2
  sum : st.exposure = st.positions.total
  trade : ∀ o ∈ orders, o.entry → o.notional ≤ portfolioValue * cfg.maxTradePct + qtyUnit * o.price
  position : ∀ symbol, st.held symbol ≤ max (held.value symbol) (portfolioValue * cfg.maxPosPct)
  total : st.exposure ≤ max held.total (portfolioValue * cfg.maxExposure)
  count : (symbolsHeld 0 st.positions : ℤ) ≤ max (symbolsHeld 0 held : ℤ) cfg.maxOpen

theorem Tracked.start (hheld : ∀ e ∈ held, 0 ≤ e.2) :
    Tracked portfolioValue cfg held [] ⟨held, held.total⟩ where
  keys := rfl
  gap := le_of_eq Dict.gap_self
  nonneg := hheld
  sum := rfl
  trade := List.forall_mem_nil _
  position _ := le_max_left _ _
  total := le_max_left _ _
  count := le_max_left _ _

/-- **What is tracked within the caps** is kept within them. -/
theorem Tracked.capsKept (h : Tracked portfolioValue cfg held orders st) :
    CapsKept portfolioValue cfg held orders where
  trade := h.trade
  position symbol := by
    have hvalue : Dict.value st.positions symbol ≤
        max (held.value symbol) (portfolioValue * cfg.maxPosPct) := h.position symbol
    have habs : |(fillAll held orders).value symbol - Dict.value st.positions symbol| ≤
        Dict.gap (fillAll held orders) st.positions := Dict.abs_value_sub_le h.keys
    have hclose := (le_abs_self _).trans habs
    linarith [h.gap]
  total := by
    have hsum := Dict.total_le_add_gap h.keys
    rw [← h.sum] at hsum
    linarith [h.gap, h.total]
  count := by
    have hcount := Dict.countP_le_of_gap h.keys h.gap
    exact le_trans (by exact_mod_cast hcount) h.count

theorem Tracked.exit (h : Tracked portfolioValue cfg held orders st) (hexit : o.entry = false)
    (hnotional : 0 < o.notional)
    (hheld : o.notional ≤ st.held o.symbol ∨ st.exposure ≤ st.held o.symbol) :
    Tracked portfolioValue cfg held (orders ++ [o]) (st.released o) := by
  have hvalue : 0 ≤ st.held o.symbol := Dict.value_nonneg h.nonneg
  have hfill : fillAll held (orders ++ [o]) = Dict.set o.symbol
      (max 0 ((fillAll held orders).value o.symbol - o.notional)) (fillAll held orders) := by
    rw [fillAll_concat, BatchOrder.fill, hexit]
    rfl
  have hless : max 0 (st.held o.symbol - o.notional) ≤ st.held o.symbol :=
    max_le hvalue (by linarith)
  have hexposure : (st.released o).exposure ≤ st.exposure := by
    have hnonneg : 0 ≤ st.exposure := hvalue.trans (h.sum ▸ Dict.value_le_total h.nonneg)
    exact max_le hnonneg (by linarith)
  constructor
  case keys =>
    rw [hfill]
    exact Dict.keys_set_congr h.keys
  case gap =>
    rw [hfill, ExposureState.released, Dict.gap_set h.keys, rounding_concat, hexit]
    -- both accounts sell the same, so they come no further apart
    have hcloser : |max 0 ((fillAll held orders).value o.symbol - o.notional) -
        max 0 (st.held o.symbol - o.notional)| ≤
        |(fillAll held orders).value o.symbol - Dict.value st.positions o.symbol| := by
      have hsub : (fillAll held orders).value o.symbol - o.notional -
          (st.held o.symbol - o.notional) =
          (fillAll held orders).value o.symbol - Dict.value st.positions o.symbol := by
        show _ - _ - (Dict.value st.positions o.symbol - _) = _
        ring
      rw [← hsub, max_comm 0, max_comm 0]
      exact abs_max_sub_max_le_abs _ _ 0
    simp only [Bool.false_eq_true, if_false, add_zero]
    linarith [h.gap]
  case nonneg => exact Dict.nonneg_set h.nonneg (le_max_left _ _)
  case sum => exact (released_iff h.sum h.nonneg).2 hheld
  case trade =>
    intro o' ho' hentry
    rcases List.mem_append.1 ho' with ho' | ho'
    · exact h.trade o' ho' hentry
    · rw [List.mem_singleton.1 ho', hexit] at hentry
      cases hentry
  case position =>
    intro symbol
    by_cases hsymbol : symbol = o.symbol
    · rw [hsymbol]
      show Dict.value (Dict.set o.symbol _ st.positions) o.symbol ≤ _
      rw [Dict.value_set_self]
      exact hless.trans (h.position _)
    · show Dict.value (Dict.set o.symbol _ st.positions) symbol ≤ _
      rw [Dict.value_set_of_ne hsymbol]
      exact h.position symbol
  case total => exact hexposure.trans h.total
  case count =>
    refine le_trans ?_ h.count
    have hcount : symbolsHeld 0 (st.released o).positions ≤ symbolsHeld 0 st.positions :=
      Dict.countP_set_le fun hpos => lt_of_lt_of_le hpos hless
    exact_mod_cast hcount

theorem Tracked.entry (h : Tracked portfolioValue cfg held orders st) {s : Sized} {qty : ℚ}
    (hentry : o.entry = true) (hprice : 0 < o.price) (hqty : 0 < o.qty)
    (hcap : 0 < portfolioValue * cfg.maxTradePct)
    (hs : judgeEntry portfolioValue cfg st o.symbol true ⟨o.qty, o.notional⟩ = .ok s)
    (hround : |qty - s.qty| ≤ qtyUnit) :
    Tracked portfolioValue cfg held (orders ++ [{ o with qty := qty }])
      (st.grown o.symbol s.notional) := by
  have hpriced : Priced o.price ⟨o.qty, o.notional⟩ := ⟨rfl, mul_pos hqty hprice⟩
  obtain ⟨hs', htrade, hasset, hexposure, hopen⟩ := judgeEntry_ok hpriced hcap hs
  have hvalue : 0 ≤ st.held o.symbol := Dict.value_nonneg h.nonneg
  have hpos := hs'.pos
  -- the quantity that is emitted is close to the one that is counted
  have hclose : |qty * o.price - s.notional| ≤ qtyUnit * o.price := by
    rw [hs'.value, ← sub_mul, abs_mul, abs_of_pos hprice]
    exact mul_le_mul_of_nonneg_right hround hprice.le
  have hfill : fillAll held (orders ++ [{ o with qty := qty }]) = Dict.set o.symbol
      ((fillAll held orders).value o.symbol + qty * o.price) (fillAll held orders) := by
    rw [fillAll_concat, BatchOrder.fill, if_pos hentry]
    rfl
  constructor
  case keys =>
    rw [hfill]
    exact Dict.keys_set_congr h.keys
  case gap =>
    rw [hfill, ExposureState.grown, Dict.gap_set h.keys, rounding_concat, if_pos hentry]
    have happart : |(fillAll held orders).value o.symbol + qty * o.price -
        (st.held o.symbol + s.notional)| ≤
        |(fillAll held orders).value o.symbol - Dict.value st.positions o.symbol| +
          |qty * o.price - s.notional| := by
      have hsplit : (fillAll held orders).value o.symbol + qty * o.price -
          (st.held o.symbol + s.notional) =
          ((fillAll held orders).value o.symbol - Dict.value st.positions o.symbol) +
            (qty * o.price - s.notional) := by
        show _ - (Dict.value st.positions o.symbol + _) = _
        ring
      rw [hsplit]
      exact abs_add_le _ _
    show _ ≤ rounding orders + qtyUnit * o.price
    linarith [h.gap]
  case nonneg => exact Dict.nonneg_set h.nonneg (by linarith)
  case sum =>
    show st.exposure + s.notional = Dict.total (Dict.set o.symbol _ st.positions)
    have hheld : Dict.value st.positions o.symbol = st.held o.symbol := rfl
    rw [Dict.total_set, hheld, h.sum]
    ring
  case trade =>
    intro o' ho' hentry'
    rcases List.mem_append.1 ho' with ho' | ho'
    · exact h.trade o' ho' hentry'
    · rw [List.mem_singleton.1 ho']
      show qty * o.price ≤ portfolioValue * cfg.maxTradePct + qtyUnit * o.price
      linarith [le_abs_self (qty * o.price - s.notional)]
  case position =>
    intro symbol
    by_cases hsymbol : symbol = o.symbol
    · rw [hsymbol]
      show Dict.value (Dict.set o.symbol _ st.positions) o.symbol ≤ _
      rw [Dict.value_set_self]
      exact hasset.trans (le_max_right _ _)
    · show Dict.value (Dict.set o.symbol _ st.positions) symbol ≤ _
      rw [Dict.value_set_of_ne hsymbol]
      exact h.position symbol
  case total => exact hexposure.trans (le_max_right _ _)
  case count =>
    rcases openLimit_ok hopen with hheld | hneg | hslot
    · refine le_trans ?_ h.count
      have hcount : symbolsHeld 0 (st.grown o.symbol s.notional).positions ≤
          symbolsHeld 0 st.positions := Dict.countP_set_le fun _ => hheld
      exact_mod_cast hcount
    · exact absurd hvalue (not_le.2 hneg)
    · refine le_trans ?_ (le_max_right _ _)
      have hcount : symbolsHeld 0 (st.grown o.symbol s.notional).positions ≤
          symbolsHeld 0 st.positions + 1 := Dict.countP_set_le_succ
      omega

end Totals

/-! ## A batch -/

/-- An order with a price and a quantity. -/
def IsSized (sig : Obj) : Prop := ∃ o, tradeOf sig = some o ∧ 0 < o.price ∧ 0 < o.qty

/-- An exit is for no more than the layer counts in its symbol, or all of the exposure is there. -/
def SellsHeld (st : ExposureState) (sig : Obj) : Prop :=
  ∀ o, tradeOf sig = some o → o.entry = false →
    o.notional ≤ st.held o.symbol ∨ st.exposure ≤ st.held o.symbol

theorem Tracked.step {portfolioValue : ℚ} {cfg : ExposureConfig} {held : Dict ℚ}
    (hcap : 0 < portfolioValue * cfg.maxTradePct) (hshorts : cfg.allowShorts = false)
    (outs : List Obj) (st : ExposureState) (sig out : Obj) (st' : ExposureState)
    (h : Tracked portfolioValue cfg held (outs.filterMap tradeOf) st)
    (hsig : IsSized sig ∧ SellsHeld st sig)
    (hstep : exposureStep portfolioValue cfg st sig = .ok (out, st')) :
    Tracked portfolioValue cfg held ((outs ++ [out]).filterMap tradeOf) st' := by
  obtain ⟨⟨o, ho, hprice, hqty⟩, hsells⟩ := hsig
  rw [List.filterMap_append]
  rcases exposureStep_cases hshorts ho hprice hqty hstep with
    ⟨hnone, rfl⟩ | ⟨hexit, hout, rfl⟩ | ⟨hentry, s, qty, hs, hround, hout, rfl⟩
  · simpa [hnone] using h
  · have hsold := h.exit hexit (mul_pos hqty hprice) (hsells o ho hexit)
    simpa [hout] using hsold
  · have hbought := h.entry hentry hprice hqty hcap hs hround
    simpa [hout] using hbought

section Batch

variable {signals out : List Obj} {portfolioValue : ℚ} {positions : Json} {config : Obj}
variable {cfg : ExposureConfig} {l : List Json} {held : Dict ℚ}

/-- **The caps are kept over a whole batch** when no exit is for more than is held. -/
theorem exposure_caps (henabled : flagField config "enable_exposure" true = true)
    (hconfig : exposureConfig config = .ok cfg) (hshorts : cfg.allowShorts = false)
    (hvalue : 0 < portfolioValue) (hcap : 0 < cfg.maxTradePct) (hlist : asList positions = .ok l)
    (hheld : heldPositions l [] = .ok held) (hnonneg : ∀ e ∈ held, 0 ≤ e.2)
    (hsized : ∀ sig ∈ signals, IsSized sig)
    (hsells : Along (exposureStep portfolioValue cfg) SellsHeld ⟨held, held.total⟩ signals)
    (hout : applyExposureLayer signals portfolioValue positions config = .ok out) (k : ℕ) :
    CapsKept portfolioValue cfg held ((out.take k).filterMap tradeOf) := by
  have hrun : mapState (exposureStep portfolioValue cfg) ⟨held, held.total⟩ signals = .ok out := by
    unfold applyExposureLayer at hout
    rw [if_pos henabled, hconfig, hlist] at hout
    dsimp only [bind, Except.bind] at hout
    rw [hheld] at hout
    exact hout
  have hstart : Tracked portfolioValue cfg held (([] : List Obj).filterMap tradeOf)
      ⟨held, held.total⟩ := Tracked.start hnonneg
  obtain ⟨st, hst⟩ := mapState_run (Tracked.step (mul_pos hvalue hcap) hshorts) hstart
    ((hsells.take k).and_forall fun sig hsig => hsized sig (List.mem_of_mem_take hsig))
    (mapState_take hrun k)
  exact hst.capsKept

end Batch

/-! ## More than is held -/

def batchSignal (action symbol : String) (qty price : ℚ) : Obj :=
  [("action", .str action), ("symbol", .str symbol), ("qty", .num (.fin qty)),
    ("price", .num (.fin price))]

def batchPosition (symbol : String) (value : ℚ) : Json :=
  .obj [("symbol", .str symbol), ("market_value", .num (.fin value))]

def fullBook : List Json := [batchPosition "SPY" 5000, batchPosition "QQQ" 3000]

def fullHeld : Dict ℚ := [("SPY", 5000), ("QQQ", 3000)]

def largeTrades : Obj := [("max_single_trade_pct", .num (.fin (2 / 5)))]

def largeConfig : ExposureConfig := ⟨2 / 5, 2 / 5, 10, 4 / 5, false⟩

theorem tradeOf_sale (symbol : String) (qty price : ℚ) :
    tradeOf (batchSignal "sell" symbol qty price) = some ⟨false, symbol, qty, price⟩ := rfl

theorem tradeOf_buy (symbol : String) (qty price : ℚ) :
    tradeOf (batchSignal "buy" symbol qty price) = some ⟨true, symbol, qty, price⟩ := rfl

/-- An exit of one symbol, and an entry into another. -/
def saleAndBuy (price : ℚ) : List Obj :=
  [batchSignal "sell" "QQQ" 10 price, batchSignal "buy" "NVDA" 40 100]

theorem saleAndBuy_sized {price : ℚ} (h : 0 < price) : ∀ sig ∈ saleAndBuy price, IsSized sig := by
  intro sig hsig
  rcases List.mem_pair.1 hsig with rfl | rfl
  · exact ⟨_, tradeOf_sale _ _ _, h, by norm_num⟩
  · exact ⟨_, tradeOf_buy _ _ _, by norm_num, by norm_num⟩

theorem fullHeld_nonneg : ∀ e ∈ fullHeld, 0 ≤ e.2 := by decide

/-- A sale of what is held makes room for an entry. -/
theorem exposure_caps_sale : ∃ out, applyExposureLayer (saleAndBuy 300) 10000 (.arr fullBook)
      largeTrades = .ok out ∧
    CapsKept 10000 largeConfig fullHeld ((out.take 2).filterMap tradeOf) := by
  have hrun : (applyExposureLayer (saleAndBuy 300) 10000 (.arr fullBook)
      largeTrades).toOption.isSome := by decide +kernel
  cases hout : applyExposureLayer (saleAndBuy 300) 10000 (.arr fullBook) largeTrades with
  | error e =>
    rw [hout] at hrun
    cases hrun
  | ok out =>
    refine ⟨out, rfl, ?_⟩
    refine @exposure_caps _ _ _ (.arr fullBook) largeTrades _ _ _ rfl rfl rfl (by norm_num)
      (by decide +kernel) rfl rfl fullHeld_nonneg (saleAndBuy_sized (by norm_num)) ?_ hout 2
    refine ⟨fun o ho _ => .inl ?_, fun _ _ _ => ⟨fun o ho hexit => ?_, fun _ _ _ => trivial⟩⟩
    · rw [tradeOf_sale] at ho
      cases ho
      decide +kernel
    · rw [tradeOf_buy] at ho
      cases ho
      cases hexit

/-- **An exit for more than is held** releases exposure of other symbols. -/
theorem oversold_exit : ¬ ∀ (signals out : List Obj) (portfolioValue : ℚ) (positions : Json)
    (config : Obj) (cfg : ExposureConfig) (l : List Json) (held : Dict ℚ),
    flagField config "enable_exposure" true = true → exposureConfig config = .ok cfg →
    cfg.allowShorts = false → 0 < portfolioValue → 0 < cfg.maxTradePct →
    asList positions = .ok l → heldPositions l [] = .ok held → (∀ e ∈ held, 0 ≤ e.2) →
    (∀ sig ∈ signals, IsSized sig) →
    applyExposureLayer signals portfolioValue positions config = .ok out →
    CapsKept portfolioValue cfg held (out.filterMap tradeOf) := by
  intro h
  have hrun : (applyExposureLayer (saleAndBuy 800) 10000 (.arr fullBook) largeTrades).toOption.map
      (fun out => ((fillAll fullHeld (out.filterMap tradeOf)).total,
        rounding (out.filterMap tradeOf))) = some (9000, 1 / 20000) := by decide +kernel
  cases hout : applyExposureLayer (saleAndBuy 800) 10000 (.arr fullBook) largeTrades with
  | error e =>
    rw [hout] at hrun
    cases hrun
  | ok out =>
    rw [hout] at hrun
    obtain ⟨htotal, hrounding⟩ := Prod.mk.inj (Option.some.inj hrun)
    have hkept := (h (saleAndBuy 800) out 10000 (.arr fullBook) largeTrades largeConfig fullBook
      fullHeld rfl rfl rfl (by norm_num) (by decide +kernel) rfl rfl fullHeld_nonneg
      (saleAndBuy_sized (by norm_num)) hout).total
    rw [htotal, hrounding] at hkept
    revert hkept
    decide +kernel

end NeoTrader

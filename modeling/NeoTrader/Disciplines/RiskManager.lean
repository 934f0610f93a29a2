import NeoTrader.Disciplines.Signals

/-!
# The risk manager

The discipline of the risk goes over the pending signals in four layers. An entry is let through, is
let through with a smaller size, or is cancelled; every other signal is let through.

* `applyExposureLayer`, `applyConcentrationLayer`, `evaluateCircuit`, `applyDrawdownLayer`: the layers;
* **`riskManagerOnCycle`**: the hook;
* `riskManager_layers`: what an answer goes through; **`riskManager_judges`**: the hook judges.

The correlation guard has no prices: they come from a function of the context, which a parsed text
does not hold. The logs and the exposure for a target volatility, which change no signal, are left
out.
-/

namespace NeoTrader

open Js Py

/-! ## Signals -/

def cancelSignal (sig : Obj) (reason : String) : Obj :=
  sig ++ [("action", .str "cancelled"), ("cancel_reason", .str reason)]

/-- `float(sig.get("price", sig.get("entry_price", 0)))`. -/
def priceOf (sig : Obj) : Except String ℚ :=
  match sig.get "price" with
  | some v => toFloat v
  | none => floatField sig "entry_price" 0

/-! ## The exposure -/

structure ExposureConfig where
  maxTradePct : ℚ
  maxPosPct : ℚ
  maxOpen : ℤ
  maxExposure : ℚ
  allowShorts : Bool

def exposureConfig (config : Obj) : Except String ExposureConfig := do
  return {
    maxTradePct := ← floatField config "max_single_trade_pct" (1 / 10)
    maxPosPct := ← floatField config "max_position_pct" (2 / 5)
    maxOpen := ← intField config "max_open_positions" 10
    maxExposure := ← floatField config "max_total_exposure" (4 / 5)
    allowShorts := flagField config "allow_shorts" false }

/-- The positions by their value, and what they come to. -/
structure ExposureState where
  positions : Dict ℚ
  exposure : ℚ

/-- The value of a position that is held. -/
def ExposureState.held (st : ExposureState) (symbol : String) : ℚ :=
  (Dict.get? st.positions symbol).getD 0

def marketValue (p : Obj) : Except String ℚ :=
  match p.get "market_value" with
  | some v => toFloat v
  | none => do return (← floatField p "qty" 0) * (← floatField p "current_price" 0)

def heldPositions : List Json → Dict ℚ → Except String (Dict ℚ)
  | [], held => .ok held
  | p :: rest, held => do
    let p ← asDict p
    let symbol ← textField p "symbol" ""
    heldPositions rest (Dict.set symbol (← marketValue p) held)

/-- A size: the quantity, and its value. -/
structure Sized where
  qty : ℚ
  notional : ℚ

def Sized.scale (s : Sized) (factor : ℚ) : Sized := ⟨s.qty * factor, s.notional * factor⟩

/-- What is below this is no position. -/
def flatEps : ℚ := 1 / 10 ^ 9

section Exposure

variable (portfolioValue : ℚ) (cfg : ExposureConfig) (st : ExposureState)

def perTrade (s : Sized) : Sized :=
  let cap := portfolioValue * cfg.maxTradePct
  if cap < s.notional ∧ 0 < cap then s.scale (cap / s.notional) else s

/-- **The cap of one symbol.** An error is the reason of a cancellation. -/
def perAsset (symbol : String) (s : Sized) : Except String Sized :=
  let maxAllowed := portfolioValue * cfg.maxPosPct
  if maxAllowed < st.held symbol + s.notional then
    let available := maxAllowed - st.held symbol
    if available ≤ 0 then
      .error s!"Per-asset limit reached for {symbol} ({fixed0 (cfg.maxPosPct * 100)}% of portfolio)"
    else .ok (s.scale (available / s.notional))
  else .ok s

/-- The cap of the open positions, for a symbol that is new. -/
def openLimit (symbol : String) (buys : Bool) : Except String Unit :=
  let isNew := (Dict.get? st.positions symbol).isNone ∨ |st.held symbol| < flatEps
  if isNew ∧ buys ∧ cfg.maxOpen ≤ st.positions.countP fun e => 0 < e.2 then
    .error s!"Max open positions limit ({cfg.maxOpen}) reached"
  else .ok ()

/-- The cap of the total exposure. -/
def totalLimit (s : Sized) : Except String Sized :=
  let maxExposure := portfolioValue * cfg.maxExposure
  if maxExposure < st.exposure + s.notional then
    let available := maxExposure - st.exposure
    if available ≤ 0 then
      .error s!"Total exposure cap ({fixed0 (cfg.maxExposure * 100)}%) reached"
    else .ok (s.scale (available / s.notional))
  else .ok s

/-- The size of an entry that is let through. -/
def judgeEntry (symbol : String) (buys : Bool) (s : Sized) : Except String Sized := do
  let s ← perAsset portfolioValue cfg st symbol (perTrade portfolioValue cfg s)
  openLimit cfg st symbol buys
  totalLimit portfolioValue cfg st s

/-- A closing signal makes room for the entries after it. -/
def exposureExit (sig : Obj) : Except String ExposureState := do
  let symbol ← textField sig "symbol" ""
  let qty ← floatField sig "qty" 0
  let price ← priceOf sig
  if 0 < price ∧ 0 < qty then
    return ⟨Dict.set symbol (max 0 (st.held symbol - qty * price)) st.positions,
      max 0 (st.exposure - qty * price)⟩
  else return st

/-- An entry; one without a price or a quantity is let through. -/
def exposureEntry (sig : Obj) (action : String) : Except String (Obj × ExposureState) := do
  let buys := action ∈ ["long", "buy"]
  if !cfg.allowShorts ∧ ¬ buys then
    return (cancelSignal sig "Shorts prohibited (allow_shorts=false)", st)
  let price ← priceOf sig
  let qty ← floatField sig "qty" 0
  if price ≤ 0 ∨ qty ≤ 0 then return (sig, st)
  let symbol ← textField sig "symbol" ""
  match judgeEntry portfolioValue cfg st symbol buys ⟨qty, qty * price⟩ with
  | .error reason => return (cancelSignal sig reason, st)
  | .ok s =>
    let out := if 1 / 10 ^ 8 < |s.qty - qty| then sig.set "qty" (.num (.fin (roundTo 6 s.qty)))
      else sig
    return (out, ⟨Dict.set symbol (st.held symbol + s.notional) st.positions,
      st.exposure + s.notional⟩)

/-- One signal. -/
def exposureStep (sig : Obj) : Except String (Obj × ExposureState) := do
  let action ← actionOf sig
  if action ∈ exitActions then return (sig, ← exposureExit st sig)
  else if action ∉ entryActions then return (sig, st)
  else exposureEntry portfolioValue cfg st sig action

end Exposure

/-- **The layer of the exposure.** -/
def applyExposureLayer (signals : List Obj) (portfolioValue : ℚ) (positions : Json)
    (config : Obj) : Except String (List Obj) :=
  if flagField config "enable_exposure" true then do
    let cfg ← exposureConfig config
    let held ← heldPositions (← asList positions) []
    mapState (exposureStep portfolioValue cfg) ⟨held, (held.map Prod.snd).sum⟩ signals
  else .ok signals

/-! ## The concentration -/

structure ConcentrationConfig where
  maxSector : ℚ
  maxPositions : ℤ
  minCash : ℚ

def concentrationConfig (config : Obj) : Except String ConcentrationConfig := do
  return {
    maxSector := ← floatField config "max_sector_concentration_pct" 30
    maxPositions := ← intField config "max_positions" 10
    minCash := ← floatField config "min_cash_pct" 20 }

/-- The sectors by their part of the portfolio, all of them together, and the positions. -/
structure SectorState where
  sectors : Dict ℚ
  total : ℚ
  count : ℤ

def SectorState.held (st : SectorState) (sector : String) : ℚ :=
  (Dict.get? st.sectors sector).getD 0

def sectorOf (pos : Obj) : Except String String :=
  match pos.get "sector" with
  | some _ => textField pos "sector" ""
  | none => textField pos "asset_class" "unknown"

def portfolioSectors : Obj → SectorState → Except String SectorState
  | [], st => .ok st
  | f :: rest, st => do
    let pos ← asDict f.2
    let sector ← sectorOf pos
    let size ← floatField pos "size_pct" 0
    portfolioSectors rest
      ⟨Dict.set sector (st.held sector + size) st.sectors, st.total + size, st.count + 1⟩

/-- The part of an entry that is let through. An error is the reason of a cancellation. -/
def judgeSize (cfg : ConcentrationConfig) (st : SectorState) (isNew : Bool) (sector : String)
    (size : ℚ) : Except String ℚ := do
  if isNew ∧ cfg.maxPositions ≤ st.count then throw s!"Max positions ({cfg.maxPositions}) reached"
  let size ←
    if cfg.maxSector < st.held sector + size then
      let available := cfg.maxSector - st.held sector
      if available ≤ 0 then
        throw s!"Sector '{sector}' concentration cap ({fixed0 cfg.maxSector}%) reached"
      else pure available
    else pure size
  if 100 - st.total - size < cfg.minCash then
    let maxForCash := 100 - st.total - cfg.minCash
    if maxForCash ≤ 0 then throw s!"Min cash reserve ({fixed0 cfg.minCash}%) not available"
    else return min size maxForCash
  else return size

/-- One signal. -/
def concentrationStep (portfolio : Obj) (cfg : ConcentrationConfig) (st : SectorState) (sig : Obj) :
    Except String (Obj × SectorState) := do
  let action ← actionOf sig
  if action ∉ entryActions then return (sig, st)
  let symbol ← textField sig "symbol" ""
  let sector ← textField sig "sector" "unknown"
  let size ← floatField sig "size_pct" 5
  let isNew := (portfolio.get symbol).isNone
  match judgeSize cfg st isNew sector size with
  | .error reason => return (cancelSignal sig reason, st)
  | .ok size =>
    return (sig.set "size_pct" (.num (.fin (roundTo 2 size))),
      ⟨Dict.set sector (st.held sector + size) st.sectors, st.total + size,
        if isNew then st.count + 1 else st.count⟩)

/-- **The layer of the concentration.** -/
def applyConcentrationLayer (portfolio : Json) (config : Obj) (signals : List Obj) :
    Except String (List Obj) := do
  let cfg ← concentrationConfig config
  let portfolio ← asDict portfolio
  let st ← portfolioSectors portfolio ⟨[], 0, 0⟩
  mapState (concentrationStep portfolio cfg) st signals

/-! ## The circuit breaker -/

inductive CircuitLevel
  | normal | warning | danger | breaker | daily
  deriving DecidableEq

/-- What the circuit breaker says. -/
structure CircuitStatus where
  state : CircuitLevel
  sizeMultiplier : ℚ
  tradingAllowed : Bool
  reason : Option String := none

structure DrawdownConfig where
  warning : ℚ
  danger : ℚ
  breaker : ℚ
  recovery : ℚ
  dailyLimit : ℚ

def drawdownConfig (config : Obj) : Except String DrawdownConfig := do
  return {
    warning := ← floatField config "warning_drawdown_pct" 5
    danger := ← floatField config "danger_drawdown_pct" 10
    breaker := ← floatField config "circuit_breaker_pct" 15
    recovery := ← floatField config "recovery_threshold_pct" 3
    dailyLimit := ← floatField config "daily_loss_limit_pct" 3 }

/-- The greatest value of a history. -/
def peakOf : List ℚ → ℚ
  | [] => 0
  | x :: rest => rest.foldl max x

/-- **The drawdown from the peak**, in percent. -/
def drawdownOf (equityHistory : List ℚ) : ℚ :=
  let peak := peakOf equityHistory
  if 0 < peak then (peak - equityHistory.getLastD 0) / peak * 100 else 0

/-- The loss since the open, in percent. -/
def dailyLossOf (equityHistory : List ℚ) (equityOpenToday : ℚ) : ℚ :=
  if 0 < equityOpenToday then
    max 0 ((equityOpenToday - equityHistory.getLastD 0) / equityOpenToday * 100)
  else 0

/-- **The circuit breaker.** -/
def evaluateCircuit (equityHistory : List ℚ) (equityOpenToday : ℚ) (cfg : DrawdownConfig)
    (previousState : String) (worstDrawdownInState : ℚ) : CircuitStatus :=
  if equityHistory.isEmpty then ⟨.normal, 1, true, none⟩
  else
    let drawdown := drawdownOf equityHistory
    let dailyLoss := dailyLossOf equityHistory equityOpenToday
    if cfg.dailyLimit ≤ dailyLoss then
      ⟨.daily, 0, false, s!"Daily loss {fixed1 dailyLoss}% exceeds limit {fixed1 cfg.dailyLimit}%"⟩
    else if cfg.breaker ≤ drawdown then
      ⟨.breaker, 0, false,
        s!"Drawdown {fixed1 drawdown}% exceeds circuit breaker {fixed1 cfg.breaker}%"⟩
    else if cfg.danger ≤ drawdown then
      let recovered := worstDrawdownInState - drawdown
      if previousState = "breaker" ∧ recovered < cfg.recovery then
        ⟨.breaker, 0, false, s!"Recovering from circuit breaker. Recovered {fixed1 recovered}% of " ++
          s!"{fixed1 cfg.recovery}% required"⟩
      else ⟨.danger, 1 / 4, true, s!"Drawdown {fixed1 drawdown}% in danger zone"⟩
    else if cfg.warning ≤ drawdown then
      ⟨.warning, 1 / 2, true, s!"Drawdown {fixed1 drawdown}% in warning zone"⟩
    else ⟨.normal, 1, true, none⟩

def reduceSize (sig : Obj) (multiplier : ℚ) : Except String Obj :=
  let mark : Obj := [("circuit_reduced", .bool true), ("size_multiplier", .num (.fin multiplier))]
  match sig.get "kelly", sig.get "position_usd" with
  | some (.obj kelly), position =>
    match Obj.get kelly "position_usd" with
    | some usd => do
      let usd ← toFloat usd
      let shares ← floatField kelly "shares" 0
      let shares := shares * multiplier
      return sig ++ [("kelly", .obj (kelly ++ [
        ("position_usd", .num (.fin (roundTo 2 (usd * multiplier)))),
        ("shares", .num (.fin (if 0 ≤ shares then ⌊shares⌋ else ⌈shares⌉ : ℤ)))]))] ++ mark
    | none =>
      match position with
      | some usd => do
        return sig ++ [("position_usd", .num (.fin (roundTo 2 ((← toFloat usd) * multiplier))))] ++ mark
      | none => .ok sig
  | _, some usd => do
    return sig ++ [("position_usd", .num (.fin (roundTo 2 ((← toFloat usd) * multiplier))))] ++ mark
  | _, none => .ok sig

/-- One signal. -/
def drawdownStep (status : CircuitStatus) (sig : Obj) : Except String Obj := do
  let action ← actionOf sig
  if action ∉ entryActions then return sig
  else if !status.tradingAllowed then return cancelSignal sig (status.reason.getD "")
  else if status.sizeMultiplier < 1 then reduceSize sig status.sizeMultiplier
  else return sig

/-- **The layer of the drawdown.** -/
def applyDrawdownLayer (equityHistory : List ℚ) (equityOpenToday : ℚ) (circuitState : String)
    (worstDrawdownInState : ℚ) (config : Obj) (signals : List Obj) : Except String (List Obj) :=
  if equityHistory.isEmpty then .ok signals
  else do
    let cfg ← drawdownConfig config
    let status := evaluateCircuit equityHistory
      (if 0 < equityOpenToday then equityOpenToday else equityHistory.headD 0) cfg circuitState
      worstDrawdownInState
    mapState (fun _ sig => do return (← drawdownStep status sig, ())) () signals

/-! ## The hook -/

/-- The guard of the correlation looks at the positions, but has no prices. -/
def applyCorrelationLayer (portfolio : Json) (signals : List Obj) : Except String (List Obj) := do
  let _ ← asDict portfolio
  return signals

/-- The history of the equity; without one, the value of the portfolio. -/
def equityHistoryOf (history : Json) (portfolioValue : ℚ) : Except String (List ℚ) :=
  if truthy history then do (← asList history).mapM toFloat
  else .ok (if 0 < portfolioValue then [portfolioValue] else [])

/-- **The hook of the risk manager.** -/
def riskManagerOnCycle (ctx : Obj) : Except String (List Obj) := do
  let signals ← pendingOf ctx
  let portfolio := getD ctx "portfolio" (.obj [])
  let portfolioValue ← floatField ctx "portfolio_value" 0
  let equityOpenToday ← floatField ctx "equity_open_today" 0
  let circuitState ← textField ctx "circuit_state" "normal"
  let worstDrawdownInState ← floatField ctx "worst_drawdown_in_state" 0
  let config ← asDict (getD ctx "config" (.obj []))
  if signals.isEmpty then return []
  let signals ← applyExposureLayer signals portfolioValue (getD ctx "positions" (.arr [])) config
  let signals ← enabledLayer config "enable_concentration"
    (applyConcentrationLayer portfolio config) signals
  let signals ← enabledLayer config "enable_correlation" (applyCorrelationLayer portfolio) signals
  enabledLayer config "enable_drawdown_breaker" (fun signals => do
    let history ← equityHistoryOf (getD ctx "equity_history" (.arr [])) portfolioValue
    applyDrawdownLayer history equityOpenToday circuitState worstDrawdownInState config signals)
    signals

/-! ## The layers -/

theorem cancelSignal_get (sig : Obj) (reason : String) {key : String} (haction : key ≠ "action")
    (hreason : key ≠ "cancel_reason") : (cancelSignal sig reason).get key = sig.get key := by
  rw [cancelSignal, Obj.get_append]
  simp [Obj.get, Json.field, haction.symm, hreason.symm]

theorem cancelSignal_action (sig : Obj) (reason : String) :
    (cancelSignal sig reason).get "action" = some (.str "cancelled") := by
  rw [cancelSignal, Obj.get_append]
  rfl

theorem kept_cancel {sig : Obj} (h : IsEntry sig) (reason : String) :
    Kept sig (cancelSignal sig reason) :=
  ⟨Or.inr (cancelSignal_action sig reason), cancelSignal_get sig reason (by decide) (by decide),
    cancelSignal_get sig reason (by decide) (by decide), fun hother => absurd h hother⟩

theorem concentrationStep_kept {portfolio : Obj} {cfg : ConcentrationConfig} (st : SectorState)
    (sig out : Obj) (st' : SectorState)
    (h : concentrationStep portfolio cfg st sig = .ok (out, st')) : Kept sig out := by
  obtain ⟨action, haction, h⟩ := bind_eq_ok.1 h
  split at h
  · cases h
    exact Kept.refl sig
  · rename_i hmem
    have hentry := isEntry_of_actionOf haction (not_not.1 hmem)
    obtain ⟨symbol, -, h⟩ := bind_eq_ok.1 h
    obtain ⟨sector, -, h⟩ := bind_eq_ok.1 h
    obtain ⟨size, -, h⟩ := bind_eq_ok.1 h
    dsimp only at h
    split at h
    · cases h
      exact kept_cancel hentry _
    · cases h
      exact kept_append hentry rfl rfl rfl

theorem reduceSize_kept {sig out : Obj} {multiplier : ℚ} (hentry : IsEntry sig)
    (h : reduceSize sig multiplier = .ok out) : Kept sig out := by
  unfold reduceSize at h
  dsimp only at h
  split at h
  · split at h
    · obtain ⟨usd, -, h⟩ := bind_eq_ok.1 h
      obtain ⟨shares, -, h⟩ := bind_eq_ok.1 h
      cases h
      rw [List.append_assoc]
      exact kept_append hentry rfl rfl rfl
    · split at h
      · obtain ⟨usd, -, h⟩ := bind_eq_ok.1 h
        cases h
        rw [List.append_assoc]
        exact kept_append hentry rfl rfl rfl
      · cases h
        exact Kept.refl sig
  · obtain ⟨usd, -, h⟩ := bind_eq_ok.1 h
    cases h
    rw [List.append_assoc]
    exact kept_append hentry rfl rfl rfl
  · cases h
    exact Kept.refl sig

theorem drawdownStep_kept {status : CircuitStatus} {sig out : Obj}
    (h : drawdownStep status sig = .ok out) : Kept sig out := by
  obtain ⟨action, haction, h⟩ := bind_eq_ok.1 h
  split at h
  · cases h
    exact Kept.refl sig
  · rename_i hmem
    have hentry := isEntry_of_actionOf haction (not_not.1 hmem)
    split at h
    · cases h
      exact kept_cancel hentry _
    · split at h
      · exact reduceSize_kept hentry h
      · cases h
        exact Kept.refl sig

theorem applyConcentrationLayer_judges {portfolio : Json} {config : Obj} {signals out : List Obj}
    (h : applyConcentrationLayer portfolio config signals = .ok out) : Judges signals out := by
  obtain ⟨cfg, -, h⟩ := bind_eq_ok.1 h
  obtain ⟨portfolio, -, h⟩ := bind_eq_ok.1 h
  obtain ⟨st, -, h⟩ := bind_eq_ok.1 h
  exact Judges.of_forall₂ (mapState_spec concentrationStep_kept _ _ h)

theorem applyDrawdownLayer_judges {history : List ℚ} {equityOpenToday : ℚ} {circuitState : String}
    {worst : ℚ} {config : Obj} {signals out : List Obj}
    (h : applyDrawdownLayer history equityOpenToday circuitState worst config signals = .ok out) :
    Judges signals out := by
  unfold applyDrawdownLayer at h
  split at h
  · cases h
    exact Judges.refl _
  · obtain ⟨cfg, -, h⟩ := bind_eq_ok.1 h
    refine Judges.of_forall₂ (mapState_spec (fun _ sig out _ hstep => ?_) _ _ h)
    obtain ⟨out', hout, hstep⟩ := bind_eq_ok.1 hstep
    cases hstep
    exact drawdownStep_kept hout

structure Layers (ctx : Obj) (out : List Obj) where
  signals : List Obj
  portfolioValue : ℚ
  circuitState : String
  config : Obj
  exposed : List Obj
  guarded : List Obj
  pending : pendingOf ctx = .ok signals
  value : floatField ctx "portfolio_value" 0 = .ok portfolioValue
  circuit : textField ctx "circuit_state" "normal" = .ok circuitState
  given : asDict (getD ctx "config" (.obj [])) = .ok config
  exposure : applyExposureLayer signals portfolioValue (getD ctx "positions" (.arr [])) config =
    .ok exposed
  guards : Judges exposed guarded
  drawdown : ∃ equityOpenToday worst, enabledLayer config "enable_drawdown_breaker" (fun signals => do
    let history ← equityHistoryOf (getD ctx "equity_history" (.arr [])) portfolioValue
    applyDrawdownLayer history equityOpenToday circuitState worst config signals) guarded = .ok out

/-- **What an answer goes through**: nothing, or the layers. -/
theorem riskManager_layers {ctx : Obj} {out : List Obj} (h : riskManagerOnCycle ctx = .ok out) :
    (pendingOf ctx = .ok [] ∧ out = []) ∨ Nonempty (Layers ctx out) := by
  obtain ⟨signals, hsignals, h⟩ := bind_eq_ok.1 h
  obtain ⟨portfolioValue, hvalue, h⟩ := bind_eq_ok.1 h
  obtain ⟨equityOpenToday, -, h⟩ := bind_eq_ok.1 h
  obtain ⟨circuitState, hcircuit, h⟩ := bind_eq_ok.1 h
  obtain ⟨worst, -, h⟩ := bind_eq_ok.1 h
  obtain ⟨config, hconfig, h⟩ := bind_eq_ok.1 h
  split at h
  · rename_i hempty
    cases h
    exact Or.inl ⟨List.isEmpty_iff.1 hempty ▸ hsignals, rfl⟩
  · obtain ⟨l₁, h₁, h⟩ := bind_eq_ok.1 h
    obtain ⟨l₂, h₂, h⟩ := bind_eq_ok.1 h
    obtain ⟨l₃, h₃, h⟩ := bind_eq_ok.1 h
    have hcorrelation : ∀ l l', applyCorrelationLayer (getD ctx "portfolio" (.obj [])) l = .ok l' →
        Judges l l' := by
      intro l l' hl
      obtain ⟨_, -, hl⟩ := bind_eq_ok.1 hl
      cases hl
      exact Judges.refl _
    have hguards := (enabledLayer_judges (fun l l' => applyConcentrationLayer_judges) h₂).trans
      (enabledLayer_judges hcorrelation h₃)
    exact Or.inr ⟨⟨signals, portfolioValue, circuitState, config, l₁, l₃, hsignals, hvalue, hcircuit,
      hconfig, h₁, hguards, equityOpenToday, worst, h⟩⟩

/-- The symbol of a signal, as the risk manager reads it. -/
def symbolOf (s : Obj) : Except String String := textField s "symbol" ""

theorem textField_congr {s s' : Obj} {key default : String} (h : s'.get key = s.get key) :
    textField s' key default = textField s key default := by
  unfold textField
  rw [h]

theorem not_isEntry_of_exit {s : Obj} (h : IsExit s) : ¬ IsEntry s := by
  obtain ⟨action, hmem, haction⟩ := h
  rintro ⟨action', hmem', haction'⟩
  rw [haction] at haction'
  rw [← Json.str.inj (Option.some.inj haction')] at hmem'
  have hdisjoint : ∀ a ∈ exitActions, a ∉ entryActions := by decide
  exact hdisjoint action hmem hmem'

section Cap

variable {portfolioValue : ℚ} {cfg : ExposureConfig} {st : ExposureState} {symbol : String}

/-- What a symbol holds is at its cap. -/
def HeldAtCap (portfolioValue : ℚ) (cfg : ExposureConfig) (symbol : String) (st : ExposureState) :
    Prop := portfolioValue * cfg.maxPosPct ≤ st.held symbol

/-- A signal in a symbol closes nothing, and has a size if it is an entry. -/
def SizedIn (symbol : String) (s : Obj) : Prop :=
  symbolOf s = .ok symbol → ¬ IsExit s ∧
    (IsEntry s → ∃ price qty, priceOf s = .ok price ∧ floatField s "qty" 0 = .ok qty ∧
      0 < price ∧ 0 < qty)

variable (portfolioValue cfg) in
theorem perTrade_pos {s : Sized} (h : 0 < s.notional) :
    0 < (perTrade portfolioValue cfg s).notional := by
  unfold perTrade
  dsimp only
  split
  · rename_i hcap
    exact mul_pos h (div_pos hcap.2 h)
  · exact h

/-- **No entry fits in a symbol at its cap.** -/
theorem judgeEntry_atCap (hcap : HeldAtCap portfolioValue cfg symbol st) {s : Sized}
    (hs : 0 < s.notional) (buys : Bool) :
    ∃ reason, judgeEntry portfolioValue cfg st symbol buys s = .error reason := by
  have hpos := perTrade_pos portfolioValue cfg hs
  unfold HeldAtCap at hcap
  have hfull : ∃ reason, perAsset portfolioValue cfg st symbol (perTrade portfolioValue cfg s) =
      .error reason := by
    unfold perAsset
    dsimp only
    rw [if_pos (by linarith), if_pos (by linarith)]
    exact ⟨_, rfl⟩
  obtain ⟨reason, hreason⟩ := hfull
  exact ⟨reason, by rw [judgeEntry, hreason]; rfl⟩

theorem held_set_of_ne {other : String} (hne : symbol ≠ other) (v exposure : ℚ) :
    ExposureState.held ⟨Dict.set other v st.positions, exposure⟩ symbol = st.held symbol := by
  show (Dict.get? (Dict.set other v st.positions) symbol).getD 0 = _
  rw [Dict.get?_set_of_ne _ hne]
  rfl

theorem exposureExit_held {sig : Obj} {st' : ExposureState} (h : exposureExit st sig = .ok st')
    (hne : symbolOf sig ≠ .ok symbol) : st'.held symbol = st.held symbol := by
  obtain ⟨other, hother, h⟩ := bind_eq_ok.1 h
  obtain ⟨qty, -, h⟩ := bind_eq_ok.1 h
  obtain ⟨price, -, h⟩ := bind_eq_ok.1 h
  split at h
  · cases h
    refine held_set_of_ne ?_ _ _
    rintro rfl
    exact hne hother
  · cases h
    rfl

/-- **One signal**: no entry in a symbol at its cap is let through, and the symbol stays there. -/
theorem exposureStep_atCap (st : ExposureState) (sig out : Obj) (st' : ExposureState)
    (hcap : HeldAtCap portfolioValue cfg symbol st) (hsized : SizedIn symbol sig)
    (h : exposureStep portfolioValue cfg st sig = .ok (out, st')) :
    (IsEntry out → symbolOf out ≠ .ok symbol) ∧ HeldAtCap portfolioValue cfg symbol st' := by
  obtain ⟨action, haction, h⟩ := bind_eq_ok.1 h
  split at h
  case isTrue hmem =>
    obtain ⟨st'', hst'', h⟩ := bind_eq_ok.1 h
    cases h
    have hexit := isExit_of_actionOf haction hmem
    refine ⟨fun hentry => absurd hentry (not_isEntry_of_exit hexit), ?_⟩
    rw [HeldAtCap, exposureExit_held hst'' fun hsym => (hsized hsym).1 hexit]
    exact hcap
  case isFalse =>
    split at h
    case isTrue hmem =>
      cases h
      refine ⟨?_, hcap⟩
      rintro ⟨action', hmem', haction'⟩
      rw [actionOf, haction'] at haction
      cases haction
      exact absurd hmem' hmem
    case isFalse hmem =>
      have hentry := isEntry_of_actionOf haction (not_not.1 hmem)
      unfold exposureEntry at h
      dsimp only at h
      split at h
      · cases h
        exact ⟨fun hout => absurd hout (not_isEntry_cancelled (cancelSignal_action _ _)), hcap⟩
      · obtain ⟨price, hprice, h⟩ := bind_eq_ok.1 h
        obtain ⟨qty, hqty, h⟩ := bind_eq_ok.1 h
        have hpos : symbolOf sig = .ok symbol → 0 < price ∧ 0 < qty := by
          intro hsym
          obtain ⟨price', qty', hprice', hqty', hpos⟩ := (hsized hsym).2 hentry
          rw [hprice] at hprice'
          rw [hqty] at hqty'
          cases hprice'
          cases hqty'
          exact hpos
        split at h
        case isTrue hunsized =>
          cases h
          refine ⟨fun _ hsym => ?_, hcap⟩
          obtain ⟨hp, hq⟩ := hpos hsym
          rcases hunsized with h0 | h0 <;> linarith
        case isFalse =>
          obtain ⟨other, hother, h⟩ := bind_eq_ok.1 h
          split at h
          case h_1 =>
            cases h
            exact ⟨fun hout => absurd hout (not_isEntry_cancelled (cancelSignal_action _ _)), hcap⟩
          case h_2 size hsize =>
            have hne : symbol ≠ other := by
              rintro rfl
              obtain ⟨hp, hq⟩ := hpos hother
              obtain ⟨reason, hreason⟩ := judgeEntry_atCap hcap (s := ⟨qty, qty * price⟩)
                (mul_pos hq hp) (decide (action ∈ ["long", "buy"]))
              rw [hreason] at hsize
              cases hsize
            cases h
            refine ⟨fun _ hsym => hne ?_, ?_⟩
            · have hsame : symbolOf sig = .ok symbol := by
                rw [← hsym]
                split
                · exact (textField_congr (Obj.get_set_of_ne sig (by decide) _)).symm
                · rfl
              rw [show symbolOf sig = .ok other from hother] at hsame
              exact (Except.ok.inj hsame).symm
            · rw [HeldAtCap, held_set_of_ne hne]
              exact hcap

end Cap

end NeoTrader

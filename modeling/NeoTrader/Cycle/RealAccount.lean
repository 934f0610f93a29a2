import NeoTrader.Cycle.ConfigInForce
import NeoTrader.Disciplines.RiskManager

/-!
# The account that the disciplines judge

The risk manager reads the positions, the value and the past of the account from the context that it
is handed.

* **`realAccount`**: a cycle describes exactly the accounts without positions and without a past.
-/

namespace NeoTrader

open Js Py

/-! ## The account -/

structure LivePosition where
  symbol : String
  qty : ℚ
  price : ℚ

def LivePosition.value (p : LivePosition) : ℚ := p.qty * p.price

/-- The live paper account. The history of its equity ends with the present one. -/
structure LiveAccount where
  cash : ℚ
  positions : List LivePosition
  equityHistory : List ℚ
  circuitState : String

def LiveAccount.equity (acc : LiveAccount) : ℚ := acc.cash + (acc.positions.map LivePosition.value).sum

/-- The value of the position in a symbol, if there is one. -/
def LiveAccount.value? (acc : LiveAccount) (symbol : String) : Option ℚ :=
  (acc.positions.find? fun p => p.symbol = symbol).map LivePosition.value

/-! ## What a context says of it -/

section Context

variable (ctx : Obj)

/-- The positions as the risk manager reads them. -/
def readPositions : Except String (Dict ℚ) := do
  heldPositions (← asList (getD ctx "positions" (.arr []))) []

/-- The past of the equity as the risk manager reads it. -/
def readHistory : Except String (List ℚ) := do
  equityHistoryOf (getD ctx "equity_history" (.arr [])) (← floatField ctx "portfolio_value" 0)

/-- **The context describes the account.** -/
structure Describes (acc : LiveAccount) : Prop where
  positions : ∃ held, readPositions ctx = .ok held ∧ ∀ symbol, Dict.get? held symbol = acc.value? symbol
  portfolio : ∃ portfolio, asDict (getD ctx "portfolio" (.obj [])) = .ok portfolio ∧
    ∀ symbol, (portfolio.get symbol).isSome = (acc.value? symbol).isSome
  portfolioValue : floatField ctx "portfolio_value" 0 = .ok acc.equity
  history : readHistory ctx = .ok acc.equityHistory
  circuitState : textField ctx "circuit_state" "normal" = .ok acc.circuitState

def ctxConfig : Obj :=
  match ctx.get "config" with
  | some (.obj fields) => fields
  | _ => []

/-- **The circuit breaker halts**: where the drawdown of the account is at its limit, no entry is let
through. -/
def Halts (acc : LiveAccount) : Prop :=
  flagField (ctxConfig ctx) "enable_drawdown_breaker" true = true →
  ∀ cfg, drawdownConfig (ctxConfig ctx) = .ok cfg → acc.equityHistory ≠ [] →
    cfg.breaker ≤ drawdownOf acc.equityHistory →
    ∀ out, riskManagerOnCycle ctx = .ok out → ∀ s ∈ out, ¬ IsEntry s

/-- A symbol is at the cap of one symbol. -/
def AtCap (acc : LiveAccount) (symbol : String) : Prop :=
  ∃ cfg value, exposureConfig (ctxConfig ctx) = .ok cfg ∧ acc.value? symbol = some value ∧
    acc.equity * cfg.maxPosPct ≤ value

/-- **The cap holds**: no entry in a symbol that is at its cap is let through. -/
def Caps (acc : LiveAccount) : Prop :=
  flagField (ctxConfig ctx) "enable_exposure" true = true →
  ∀ symbol, AtCap ctx acc symbol → ∀ out, riskManagerOnCycle ctx = .ok out →
    ∀ s ∈ out, IsEntry s → symbolOf s ≠ .ok symbol

/-- **The risk manager judges the account.** -/
structure JudgesAccount (acc : LiveAccount) : Prop where
  describes : Describes ctx acc
  halts : Halts ctx acc
  caps : Caps ctx acc

/-- The pending signals in a symbol at its cap have a size, and close nothing. -/
def SizedAtCap (acc : LiveAccount) : Prop :=
  ∀ signals, pendingOf ctx = .ok signals → ∀ symbol, AtCap ctx acc symbol →
    ∀ s ∈ signals, SizedIn symbol s

end Context

/-! ## The limits of an account that is described -/

section Limits

variable {ctx : Obj} {acc : LiveAccount}

theorem ctxConfig_eq {config : Obj} (h : asDict (getD ctx "config" (.obj [])) = .ok config) :
    ctxConfig ctx = config := by
  unfold ctxConfig
  unfold getD at h
  cases hget : ctx.get "config" with
  | none =>
    rw [hget] at h
    cases h
    rfl
  | some v =>
    rw [hget] at h
    cases v <;> cases h
    rfl

theorem evaluateCircuit_halts {history : List ℚ} {cfg : DrawdownConfig} (hne : history ≠ [])
    (h : cfg.breaker ≤ drawdownOf history) (equityOpenToday : ℚ) (state : String) (worst : ℚ) :
    (evaluateCircuit history equityOpenToday cfg state worst).tradingAllowed = false := by
  unfold evaluateCircuit
  rw [if_neg (by simpa using hne)]
  dsimp only
  rw [if_pos h]
  split <;> rfl

theorem drawdownStep_halts {status : CircuitStatus} (hstatus : status.tradingAllowed = false)
    {sig out : Obj} (h : drawdownStep status sig = .ok out) : ¬ IsEntry out := by
  obtain ⟨action, haction, h⟩ := bind_eq_ok.1 h
  split at h
  case isTrue hmem =>
    cases h
    rintro ⟨action', hmem', haction'⟩
    rw [actionOf, haction'] at haction
    cases haction
    exact hmem hmem'
  case isFalse =>
    rw [hstatus] at h
    cases h
    exact not_isEntry_cancelled (cancelSignal_action _ _)

/-- **The circuit breaker halts** where the context describes the account. -/
theorem halts_of_describes (h : Describes ctx acc) : Halts ctx acc := by
  intro henabled cfg hcfg hne hreached out hout s hs
  rcases riskManager_layers hout with ⟨-, rfl⟩ | hlayers
  · cases hs
  · obtain ⟨layers⟩ := hlayers
    obtain ⟨equityOpenToday, worst, hdrawdown⟩ := layers.drawdown
    have hconfig := ctxConfig_eq layers.given
    rw [enabledLayer, ← hconfig, if_pos henabled] at hdrawdown
    obtain ⟨active, hactive, hout'⟩ := bind_eq_ok.1 hdrawdown
    rw [← Except.ok.inj hout'] at hs
    obtain ⟨history, hhistory, hactive⟩ := bind_eq_ok.1 hactive
    have hread := h.history
    rw [readHistory, layers.value] at hread
    have hsame : history = acc.equityHistory := Except.ok.inj (hhistory.symm.trans hread)
    subst hsame
    rcases List.mem_append.1 hs with hcancelled | hjudged
    · have haction := (List.mem_filter.1 hcancelled).2
      unfold actionIs at haction
      split at haction
      · rename_i action haction'
        rw [of_decide_eq_true haction] at haction'
        exact not_isEntry_cancelled haction'
      · cases haction
    · rw [applyDrawdownLayer, if_neg (by simpa using hne)] at hactive
      obtain ⟨cfg', hcfg', hactive⟩ := bind_eq_ok.1 hactive
      have hcfgs : cfg' = cfg := Except.ok.inj (hcfg'.symm.trans hcfg)
      subst hcfgs
      have hall := mapState_spec (R := fun _ out => ¬ IsEntry out) (fun _ sig out _ hstep => by
        obtain ⟨out', hout', hstep⟩ := bind_eq_ok.1 hstep
        cases hstep
        exact drawdownStep_halts (evaluateCircuit_halts hne hreached _ _ _) hout') _ _ hactive
      obtain ⟨-, -, hno⟩ := forall₂_mem hall hjudged
      exact hno

/-- **The cap holds** where the context describes the account and the signals have a size. -/
theorem caps_of_describes (h : Describes ctx acc) (hsized : SizedAtCap ctx acc) : Caps ctx acc := by
  intro henabled symbol hatCap out hout s hs hentry
  rcases riskManager_layers hout with ⟨-, rfl⟩ | hlayers
  · cases hs
  · obtain ⟨layers⟩ := hlayers
    obtain ⟨cfg, value, hcfg, hvalue, hle⟩ := id hatCap
    have hconfig := ctxConfig_eq layers.given
    have hexposure := layers.exposure
    rw [applyExposureLayer, ← hconfig, if_pos henabled] at hexposure
    obtain ⟨cfg', hcfg', hexposure⟩ := bind_eq_ok.1 hexposure
    have hcfgs : cfg' = cfg := Except.ok.inj (hcfg'.symm.trans hcfg)
    subst hcfgs
    obtain ⟨l, hl, hexposure⟩ := bind_eq_ok.1 hexposure
    obtain ⟨held, hheld, hexposure⟩ := bind_eq_ok.1 hexposure
    -- the layer starts with the positions of the account, and the symbol at its cap
    obtain ⟨held', hread, hpositions⟩ := h.positions
    have hsame : held = held' := by
      rw [readPositions, hl] at hread
      exact Except.ok.inj (hheld.symm.trans hread)
    have hequity : layers.portfolioValue = acc.equity :=
      Except.ok.inj (layers.value.symm.trans h.portfolioValue)
    have hstart : HeldAtCap layers.portfolioValue cfg' symbol ⟨held, (held.map Prod.snd).sum⟩ := by
      show layers.portfolioValue * cfg'.maxPosPct ≤ (Dict.get? held symbol).getD 0
      rw [hequity, hsame, hpositions, hvalue]
      exact hle
    have hall := mapState_inv (R := fun _ out => IsEntry out → symbolOf out ≠ .ok symbol)
      (fun st x y st' => exposureStep_atCap st x y st') hstart
      (hsized layers.signals layers.pending symbol hatCap) hexposure
    obtain ⟨equityOpenToday, worst, hdrawdown⟩ := layers.drawdown
    have hjudges := layers.guards.trans (enabledLayer_judges (fun l l' hl => by
      obtain ⟨history, -, hl⟩ := bind_eq_ok.1 hl
      exact applyDrawdownLayer_judges hl) hdrawdown)
    obtain ⟨s₀, hs₀, hkept⟩ := hjudges.from_pending s hs
    obtain ⟨-, -, hno⟩ := forall₂_mem hall hs₀
    have hentry₀ : IsEntry s₀ := by
      rcases hkept.action with heq | hcancelled
      · exact (isEntry_congr heq).1 hentry
      · exact absurd hentry (not_isEntry_cancelled hcancelled)
    rw [symbolOf, textField_congr hkept.symbol]
    exact hno hentry₀

end Limits

/-! ## What a cycle hands the risk manager -/

def accountKeys : List String :=
  ["positions", "portfolio", "portfolio_value", "equity_history", "circuit_state"]

/-- What a cycle says of the account. -/
def cycleField (env : CycleEnv) (key : String) : Option Json :=
  if key = "positions" then some (.arr [])
  else if key = "portfolio" then some (.obj [])
  else if key = "portfolio_value" then some (.num (resolveCapital env.capitalSetting))
  else none

/-- What is said of the account after some answers. -/
def accountView (env : CycleEnv) (before : List VetoEvent) : Obj :=
  accountKeys.filterMap fun key => (leftField key (cycleField env key) before).map (Prod.mk key)

/-- **The risk manager is called** in a cycle, after some answers, with a context. -/
def RiskManagerReceives (folders : List PluginFolder) (env : CycleEnv) (before : List VetoEvent)
    (ctx : Obj) : Prop :=
  ∃ e after call, cycleEvents folders env = before ++ e :: after ∧ e.disc.id = "risk-manager" ∧
    disciplineCall folders env e = some call ∧ ctx = call.ctx

/-- The answers say nothing of the account. -/
def AccountUntouched (before : List VetoEvent) : Prop :=
  ∀ e ∈ before, ∀ key ∈ accountKeys, e.reply.field key = none

/-- **An account as a cycle takes it to be**: without positions, and with the configured capital, which
is all of its past. -/
structure FlatAccount (env : CycleEnv) (acc : LiveAccount) : Prop where
  positions : acc.positions = []
  capital : resolveCapital env.capitalSetting = .fin acc.equity
  history : acc.equityHistory = if 0 < acc.equity then [acc.equity] else []
  circuitState : acc.circuitState = "normal"

section Received

variable {folders : List PluginFolder} {env : CycleEnv} {before : List VetoEvent} {ctx : Obj}

theorem cmdRunCycle_account {activeIds : List String} {context result : Obj}
    (h : cmdRunCycle folders activeIds context = .ok result) {key : String}
    (hkey : key ∈ accountKeys) : result.get key = none := by
  unfold cmdRunCycle at h
  cases hplugins : pluginsById folders [] with
  | error e =>
    rw [hplugins] at h
    cases h
  | ok plugins =>
    rw [hplugins] at h
    cases h
    rw [Obj.get_append]
    simp only [accountKeys, List.mem_cons, List.not_mem_nil, or_false] at hkey
    rcases hkey with rfl | rfl | rfl | rfl | rfl <;> split <;> rfl

theorem hookCtx_account {key : String} (hkey : key ∈ accountKeys) :
    (runnerEnv folders env).hookCtx.get key = cycleField env key := by
  have hbase : ∀ base : Obj, (∀ key ∈ accountKeys, base.get key = none ∨
      base.get key = cycleField env key) → (hookCtx (runnerEnv folders env) base).get key =
        cycleField env key := by
    intro base hb
    rw [hookCtx, Obj.get_append]
    have hpositions := hb "positions" (by decide)
    have hportfolio := hb "portfolio" (by decide)
    have hother := hb key hkey
    simp only [accountKeys, List.mem_cons, List.not_mem_nil, or_false] at hkey
    rcases hkey with rfl | rfl | rfl | rfl | rfl
    · rcases hpositions with h | h <;> rw [h] <;> rfl
    · rcases hportfolio with h | h <;> rw [h] <;> rfl
    · rfl
    · rcases hother with h | h <;> rw [h] <;> rfl
    · rcases hother with h | h <;> rw [h] <;> rfl
  rw [CycleEnv.hookCtx]
  cases h : cmdRunCycle folders (runnerEnv folders env).activeIds
      (cycleCtx (runnerEnv folders env)) with
  | error e =>
    have hreply : (runnerEnv folders env).runCycle (runnerEnv folders env).activeIds
        (cycleCtx (runnerEnv folders env)) = { ok := false, error := some e } :=
      congrArg replyOf h
    rw [hreply]
    refine hbase _ fun key hkey => Or.inr ?_
    simp only [accountKeys, List.mem_cons, List.not_mem_nil, or_false] at hkey
    rcases hkey with rfl | rfl | rfl | rfl | rfl <;> rfl
  | ok result =>
    have hreply : (runnerEnv folders env).runCycle (runnerEnv folders env).activeIds
        (cycleCtx (runnerEnv folders env)) = { ok := true, result := some result } :=
      congrArg replyOf h
    rw [hreply]
    exact hbase _ fun key hkey => Or.inl (cmdRunCycle_account h hkey)

theorem mlInjection_account (env : CycleEnv) {key : String} (hkey : key ∈ accountKeys) :
    env.mlInjection.get key = none := by
  unfold CycleEnv.mlInjection
  simp only [accountKeys, List.mem_cons, List.not_mem_nil, or_false] at hkey
  split <;> rcases hkey with rfl | rfl | rfl | rfl | rfl <;> rfl

/-- **What the risk manager receives** of the account: what the cycle says, or the last answer before
it. -/
theorem received_field (h : RiskManagerReceives folders env before ctx) {key : String}
    (hkey : key ∈ accountKeys) : ctx.get key = leftField key (cycleField env key) before := by
  obtain ⟨e, after, call, hevents, -, hcall, rfl⟩ := h
  obtain ⟨folder, m, fn, given, -, -, -, -, rfl⟩ :=
    (disciplineCall_eq_some_iff folders env e call).1 hcall
  have hconfig : key ≠ "config" := fun h => by
    rw [h] at hkey
    exact absurd hkey (by decide)
  have hpending : key ≠ "pending_signals" := fun h => by
    rw [h] at hkey
    exact absurd hkey (by decide)
  have hlayer : key ∉ layerKeys := by
    have hdisjoint : ∀ k ∈ accountKeys, k ∉ layerKeys := by decide
    exact hdisjoint key hkey
  show (Obj.set _ "config" _).get key = _
  rw [Obj.get_set_of_ne _ hconfig]
  have hhook : (hookCtxFor e.disc e.handed.ctx env.mlInjection).get key = e.handed.ctx.get key := by
    unfold hookCtxFor
    split
    · rw [Obj.get_append, mlInjection_account env hkey]
      rfl
    · rfl
  rw [hhook, handed_field _ _ hevents hlayer]
  show leftField key ((Obj.set _ "pending_signals" _).get key) before = _
  rw [Obj.get_set_of_ne _ hpending, hookCtx_account hkey]

theorem get_filterMap (f : String → Option Json) (keys : List String) (key : String) :
    Obj.get (keys.filterMap fun k => (f k).map (Prod.mk k)) key =
      if key ∈ keys then f key else none := by
  induction keys with
  | nil => rfl
  | cons k rest ih =>
    cases hk : f k with
    | none =>
      rw [List.filterMap_cons_none (by rw [hk]; rfl), ih]
      by_cases heq : key = k
      · rw [heq, hk, ite_self, if_pos List.mem_cons_self]
      · simp [heq]
    | some v =>
      rw [List.filterMap_cons_some (b := (k, v)) (by rw [hk]; rfl), ← List.singleton_append,
        Obj.get_append, ih, Obj.get_singleton]
      by_cases heq : key = k
      · subst heq
        rw [if_pos rfl, if_pos List.mem_cons_self, hk]
        split <;> rfl
      · rw [if_neg (Ne.symm heq), Option.or_none]
        simp [heq]

theorem accountView_get {key : String} (hkey : key ∈ accountKeys) :
    (accountView env before).get key = leftField key (cycleField env key) before := by
  rw [accountView, get_filterMap (fun key => leftField key (cycleField env key) before), if_pos hkey]

end Received

/-! ## The account that is described -/

section Described

variable {acc : LiveAccount}

theorem Describes.congr {ctx ctx' : Obj} (h : ∀ key ∈ accountKeys, ctx'.get key = ctx.get key)
    (hd : Describes ctx acc) : Describes ctx' acc := by
  have hpositions := h "positions" (by decide)
  have hportfolio := h "portfolio" (by decide)
  have hvalue := h "portfolio_value" (by decide)
  have hhistory := h "equity_history" (by decide)
  have hstate := h "circuit_state" (by decide)
  have hread : readPositions ctx' = readPositions ctx := by
    unfold readPositions getD
    rw [hpositions]
  have hdict : getD ctx' "portfolio" (.obj []) = getD ctx "portfolio" (.obj []) := by
    rw [getD, getD, hportfolio]
  have hfloat : floatField ctx' "portfolio_value" 0 = floatField ctx "portfolio_value" 0 := by
    rw [floatField, floatField, hvalue]
  have hpast : readHistory ctx' = readHistory ctx := by
    unfold readHistory getD
    rw [hhistory, hfloat]
  exact ⟨hread ▸ hd.positions, hdict ▸ hd.portfolio, hfloat ▸ hd.portfolioValue, hpast ▸ hd.history,
    (textField_congr hstate).trans hd.circuitState⟩

theorem describes_received {folders : List PluginFolder} {env : CycleEnv} {before : List VetoEvent}
    {ctx : Obj} (h : RiskManagerReceives folders env before ctx) :
    Describes ctx acc ↔ Describes (accountView env before) acc := by
  have hget : ∀ key ∈ accountKeys, ctx.get key = (accountView env before).get key := fun key hkey => by
    rw [received_field h hkey, accountView_get hkey]
  exact ⟨Describes.congr fun key hkey => (hget key hkey).symm, Describes.congr hget⟩

theorem leftField_untouched {before : List VetoEvent} (h : AccountUntouched before) {key : String}
    (hkey : key ∈ accountKeys) (init : Option Json) : leftField key init before = init := by
  unfold leftField
  induction before with
  | nil => rfl
  | cons e rest ih =>
    rw [List.foldl_cons, h e List.mem_cons_self key hkey, Option.none_or]
    exact ih fun e' he' => h e' (List.mem_cons_of_mem _ he')

theorem value?_eq_none_iff : (∀ symbol, acc.value? symbol = none) ↔ acc.positions = [] := by
  constructor
  · intro h
    cases hpositions : acc.positions with
    | nil => rfl
    | cons p rest =>
      have hp := h p.symbol
      simp [LiveAccount.value?, hpositions] at hp
  · intro h symbol
    simp [LiveAccount.value?, h]

theorem toFloat_num_iff (c : Number) (q : ℚ) : toFloat (.num c) = .ok q ↔ c = .fin q := by
  cases c with
  | fin r => exact ⟨fun h => congrArg Number.fin (Except.ok.inj h), fun h => by cases h; rfl⟩
  | _ => exact ⟨(fun h => by cases h), fun h => by cases h⟩

/-- **What a cycle describes** are the flat accounts. -/
theorem describes_cycle_iff {env : CycleEnv} {view : Obj}
    (hview : ∀ key ∈ accountKeys, view.get key = cycleField env key) :
    Describes view acc ↔ FlatAccount env acc := by
  have hpositions : view.get "positions" = some (.arr []) := hview _ (by decide)
  have hportfolio : view.get "portfolio" = some (.obj []) := hview _ (by decide)
  have hvalue : view.get "portfolio_value" = some (.num (resolveCapital env.capitalSetting)) :=
    hview _ (by decide)
  have hhistory : view.get "equity_history" = none := hview _ (by decide)
  have hstate : view.get "circuit_state" = none := hview _ (by decide)
  have hread : readPositions view = .ok [] := by
    unfold readPositions getD
    rw [hpositions]
    rfl
  have hdict : asDict (getD view "portfolio" (.obj [])) = .ok [] := by
    rw [getD, hportfolio]
    rfl
  have hfloat : floatField view "portfolio_value" 0 = .ok acc.equity ↔
      resolveCapital env.capitalSetting = .fin acc.equity := by
    rw [floatField, hvalue]
    exact toFloat_num_iff _ _
  have hpast : floatField view "portfolio_value" 0 = .ok acc.equity →
      readHistory view = .ok (if 0 < acc.equity then [acc.equity] else []) := fun h => by
    unfold readHistory getD
    rw [hhistory, h]
    rfl
  have hcircuit : textField view "circuit_state" "normal" = .ok "normal" := by
    rw [textField, hstate]
  constructor
  · rintro ⟨⟨held, hheld, hsame⟩, -, hequity, hhist, hcirc⟩
    cases hread.symm.trans hheld
    refine ⟨value?_eq_none_iff.1 fun symbol => (hsame symbol).symm, hfloat.1 hequity, ?_, ?_⟩
    · exact (Except.ok.inj ((hpast hequity).symm.trans hhist)).symm
    · exact (Except.ok.inj (hcircuit.symm.trans hcirc)).symm
  · rintro ⟨hnone, hcapital, hhist, hcirc⟩
    have hsame := value?_eq_none_iff.2 hnone
    refine ⟨⟨[], hread, fun symbol => (hsame symbol).symm⟩, ⟨[], hdict, fun symbol => ?_⟩,
      hfloat.2 hcapital, ?_, ?_⟩
    · rw [hsame]
      rfl
    · rw [hhist]
      exact hpast (hfloat.2 hcapital)
    · rw [hcirc]
      exact hcircuit

theorem not_atCap_of_flat {env : CycleEnv} {ctx : Obj} (h : FlatAccount env acc) (symbol : String) :
    ¬ AtCap ctx acc symbol := by
  rintro ⟨cfg, value, -, hvalue, -⟩
  rw [value?_eq_none_iff.2 h.positions symbol] at hvalue
  cases hvalue

end Described

/-! ## The property, exactly -/

/-- **The account that is judged**: for every cycle in which the risk manager is called, and all
answers before it. What it receives has to describe the account, and that is enough where the signals
in a symbol at its cap have a size. Where no answer says something of the account, the accounts that
are judged are exactly the flat ones. -/
theorem realAccount (folders : List PluginFolder) (env : CycleEnv) (before : List VetoEvent)
    (ctx : Obj) (acc : LiveAccount) (h : RiskManagerReceives folders env before ctx) :
    (JudgesAccount ctx acc → Describes (accountView env before) acc) ∧
    (Describes (accountView env before) acc → SizedAtCap ctx acc → JudgesAccount ctx acc) ∧
    (AccountUntouched before → (JudgesAccount ctx acc ↔ FlatAccount env acc)) := by
  have hiff : Describes ctx acc ↔ Describes (accountView env before) acc := describes_received h
  have hjudges : Describes (accountView env before) acc → SizedAtCap ctx acc → JudgesAccount ctx acc :=
    fun hd hsized =>
      ⟨hiff.2 hd, halts_of_describes (hiff.2 hd), caps_of_describes (hiff.2 hd) hsized⟩
  refine ⟨fun hj => hiff.1 hj.describes, hjudges, fun huntouched => ?_⟩
  have hflat : Describes (accountView env before) acc ↔ FlatAccount env acc :=
    describes_cycle_iff fun key hkey => by
      rw [accountView_get hkey, leftField_untouched huntouched hkey]
  refine ⟨fun hj => hflat.1 (hiff.1 hj.describes), fun hf => hjudges (hflat.2 hf) ?_⟩
  exact fun _ _ symbol hcap => absurd hcap (not_atCap_of_flat hf symbol)

/-! ## Two accounts of one cycle -/

theorem limited_receives : ∃ ctx,
    RiskManagerReceives [riskManagerFolder] (limitedCycle .null) [] ctx :=
  ⟨_, _, _, _, rfl, rfl, rfl, rfl⟩

def unusedAccount : LiveAccount := ⟨10000, [], [10000], "normal"⟩

/-- **An account that is judged.** -/
theorem unused_judged : ∃ ctx, RiskManagerReceives [riskManagerFolder] (limitedCycle .null) [] ctx ∧
    JudgesAccount ctx unusedAccount := by
  obtain ⟨ctx, hctx⟩ := limited_receives
  refine ⟨ctx, hctx, ((realAccount _ _ _ ctx unusedAccount hctx).2.2 fun e he => ?_).2 ?_⟩
  · cases he
  · have hequity : unusedAccount.equity = 10000 := by
      simp [LiveAccount.equity, unusedAccount]
    refine ⟨rfl, ?_, ?_, rfl⟩
    · rw [hequity]
      rfl
    · rw [hequity, if_pos (by norm_num)]
      rfl

/-- An account that has lost a fifth, and has most of the rest in one symbol. -/
def strainedAccount : LiveAccount := ⟨1000, [⟨"SPY", 70, 100⟩], [10000, 8000], "normal"⟩

/-- **An account that is not seen.** -/
theorem account_unseen : ¬ ∀ (folders : List PluginFolder) (env : CycleEnv)
    (before : List VetoEvent) (ctx : Obj) (acc : LiveAccount),
    RiskManagerReceives folders env before ctx → JudgesAccount ctx acc := by
  intro hall
  obtain ⟨ctx, hctx⟩ := limited_receives
  have hdescribed := (describes_received hctx).1 (hall _ _ _ ctx strainedAccount hctx).describes
  have hview : ∀ key ∈ accountKeys,
      (accountView (limitedCycle .null) []).get key = cycleField (limitedCycle .null) key :=
    fun key hkey => by
      rw [accountView_get hkey]
      rfl
  have hflat := (describes_cycle_iff hview).1 hdescribed
  exact absurd hflat.positions (List.cons_ne_nil _ _)

end NeoTrader

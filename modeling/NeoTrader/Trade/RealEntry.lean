import NeoTrader.Await.Pool
import NeoTrader.Common.WholeShares
import NeoTrader.Trade.Answers

/-!
# What stands before a real entry

A real entry passes a chain of checks before its order is handed to the broker. What a check was
answered stays in the history of the call.

* **`real_entry_safe`**: every order that is handed to the broker for a long or a short has been
  checked so, in every interleaving of the services' calls.
-/

namespace NeoTrader

open Js Await Prog

/-! ## What a call has seen -/

/-- The call was answered so. -/
abbrev Seen (h : List (Event tradeSig)) (op : TradeOp) (a : op.Ans) : Prop :=
  (⟨op, .ok a⟩ : Event tradeSig) ∈ h

/-- The raw settings with their names. -/
def PolicySettings.answers (raw : PolicySettings) : List (String × Option String) :=
  [("autonomous", raw.autonomous), ("max_position_pct", raw.maxPositionPct),
    ("max_open_positions", raw.maxOpenPositions),
    ("max_drawdown_halt_pct", raw.maxDrawdownHaltPct), ("real", raw.real),
    ("broker_plugin_id", raw.brokerPluginId), ("max_order_notional", raw.maxOrderNotional),
    ("max_short_notional_pct", raw.maxShortNotionalPct), ("allow_real_short", raw.allowRealShort),
    ("loss_circuit_breaker_enabled", raw.lossCircuitBreakerEnabled),
    ("max_daily_loss_pct", raw.maxDailyLossPct), ("max_weekly_loss_pct", raw.maxWeeklyLossPct)]

def PolicyRead (h : List (Event tradeSig)) (policy : ExecutionPolicy) : Prop :=
  ∃ raw : PolicySettings, policy = policyOf raw ∧
    ∀ x ∈ raw.answers, Seen h (.kvGet (policyKey x.1)) x.2

def KillSwitchOff (h : List (Event tradeSig)) : Prop :=
  ∃ raw, Seen h (.kvGet realExecutionHaltedKey) raw ∧ kvBool raw false = false

/-- The value of a setting that was read, clamped to `[lo, hi]`. -/
def ClampedRead (h : List (Event tradeSig)) (key : String) (default lo hi x : ℚ) : Prop :=
  ∃ r : Except Err (Option String), (⟨.kvGet key, r⟩ : Event tradeSig) ∈ h ∧
    x = max lo (min hi (kvNum r.toOption.join default))

theorem ClampedRead.mono {h h' : List (Event tradeSig)} {key : String} {default lo hi x : ℚ}
    (hr : ClampedRead h key default lo hi x) (hp : h <+: h') :
    ClampedRead h' key default lo hi x := by
  obtain ⟨r, hmem, hx⟩ := hr
  exact ⟨r, hp.subset hmem, hx⟩

/-- **The applied strategy has a fresh `ROBUSTO` verdict.** -/
def WalkForwardPassed (h : List (Event tradeSig)) : Prop :=
  ∃ raw strategyId row checkedAt maxAgeDays, ∃ now : ℤ,
    Seen h (.kvGet "strategy.applied") raw ∧ kvStr raw = some strategyId ∧
    Seen h (.strategyFind strategyId) (some row) ∧ row.walkForwardVerdict = some "ROBUSTO" ∧
    row.walkForwardCheckedAt = some checkedAt ∧
    ClampedRead h (policyKey "walk_forward_max_age_days") 30 1 3650 maxAgeDays ∧
    Seen h .now now ∧ (now : ℚ) - checkedAt ≤ maxAgeDays * msPerDay

/-- **The latest snapshot of the real account is fresh.** -/
def SnapshotFresh (h : List (Event tradeSig)) (broker : String) (snapshot : RealNavSnapshot) : Prop :=
  ∃ maxAgeMs, ∃ now : ℤ, Seen h (.navFindLatest broker) (some snapshot) ∧
    ClampedRead h (policyKey "real_state_max_age_ms") 300000 30000 3600000 maxAgeMs ∧
    Seen h .now now ∧ (now : ℚ) - snapshot.ts ≤ maxAgeMs

/-- The drawdown of a snapshot from its high-water mark, in percent. -/
def drawdownPct (s : RealNavSnapshot) : ℚ :=
  if 0 < s.hwm then max 0 ((s.hwm - s.equity) / s.hwm * 100) else 0

/-- **Every check of a real entry**, and the bounds of the ordered quantity `n`. -/
structure EntryChecked (h : List (Event tradeSig)) (intent : TradeIntent) (placed : PlacedOrder)
    (policy : ExecutionPolicy) (snapshot : RealNavSnapshot) (count : ℕ) (price : ℚ) (n : ℕ) :
    Prop where
  policyRead : PolicyRead h policy
  real : policy.real = true
  broker : policy.brokerPluginId ≠ "" ∧ placed.brokerPluginId = policy.brokerPluginId
  killSwitch : KillSwitchOff h
  walkForward : WalkForwardPassed h
  snapshotFresh : SnapshotFresh h policy.brokerPluginId snapshot
  drawdown : drawdownPct snapshot < policy.maxDrawdownHaltPct
  positions : Seen h (.positionCount policy.brokerPluginId) count ∧
    (count : ℤ) < policy.maxOpenPositions
  quote : Seen h (.getQuote intent.symbol) (.fin price) ∧ 0 < price
  qty : placed.order.qty = .fin n ∧ 0 < n
  notional : n * price ≤ policy.maxOrderNotional
  sizing : n * price ≤ snapshot.equity * policy.maxPositionPct
  buyingPower : n * price ≤ snapshot.buyingPower
  short : intent.action = .short → policy.allowRealShort = true ∧
    n * price ≤ snapshot.equity * policy.maxShortNotionalPct

/-- The call has read this intent at its start. -/
def Begun (id : String) (intent : TradeIntent) (h : List (Event tradeSig)) : Prop :=
  [⟨.intentFindUnique id, .ok (some intent)⟩] <+: h

/-- **What is demanded before an order**: the call has read an intent, and if that is an entry it
has been checked. -/
def EntryDemand (id : String) (h : List (Event tradeSig)) (op : TradeOp) : Prop :=
  ∀ placed ∈ op.placed, ∃ intent, Begun id intent h ∧ (intent.action.isEntry →
    ∃ policy snapshot count price n, EntryChecked h intent placed policy snapshot count price n)

/-! ## Checks that pass -/

theorem learns_readExecutionPolicy :
    Learns (S := tradeSig) (fun policy h => PolicyRead h policy) readExecutionPolicy := by
  intro h
  unfold readExecutionPolicy
  iterate 12 refine wp_ask fun _ => ?_
  refine ⟨by simp, _, rfl, ?_⟩
  simp [PolicySettings.answers]

theorem learns_readClamped (key : String) (default lo hi : ℚ) :
    Learns (S := tradeSig) (fun x h => ClampedRead h key default lo hi x)
      (readClamped key default lo hi) := by
  intro h
  refine wp_ask_attempt fun r => ⟨by simp, r, by simp, rfl⟩

theorem learns_checkWalkForwardGate :
    Learns (S := tradeSig) (fun gate h => gate = none → WalkForwardPassed h)
      checkWalkForwardGate := by
  intro h
  refine wp_ask_attempt fun r => ?_
  dsimp only
  split
  · exact ⟨by simp, fun hnone => by cases hnone⟩
  next strategyId hid =>
  obtain ⟨hstr, -⟩ := Option.filter_eq_some_iff.1 hid
  cases r with
  | error e => cases hstr
  | ok raw =>
    refine wp_ask_attempt fun row => ?_
    rcases row with e | _ | row
    · exact ⟨by simp, fun hnone => by cases hnone⟩
    · exact ⟨by simp, fun hnone => by cases hnone⟩
    refine wp_ite (fun _ => ⟨by simp, fun hnone => by cases hnone⟩) fun hverdict => ?_
    split
    · exact ⟨by simp, fun hnone => by cases hnone⟩
    next checkedAt hchecked =>
    refine wp_bind_onOk (learns_readClamped _ _ _ _ _) fun maxAgeDays h₁ hread => ?_
    obtain ⟨hp, hmax⟩ := hread
    refine wp_ask fun now => ?_
    have hgrown : h <+: h₁ ++ [⟨.now, .ok now⟩] := by
      rw [List.append_assoc] at hp
      exact ((List.prefix_append h _).trans hp).trans (List.prefix_append h₁ _)
    have happlied : Seen h₁ (.kvGet "strategy.applied") raw := hp.subset (by simp)
    have hfound : Seen h₁ (.strategyFind strategyId) (some row) := hp.subset (by simp)
    refine wp_ite (fun _ => ⟨hgrown, fun hnone => by cases hnone⟩) fun hage => ?_
    exact ⟨hgrown, fun _ => ⟨raw, strategyId, row, checkedAt, maxAgeDays, now,
      List.mem_append_left _ happlied, hstr, List.mem_append_left _ hfound, not_not.1 hverdict,
      hchecked, hmax.mono (List.prefix_append _ _), by simp, not_lt.1 hage⟩⟩

theorem learns_effectiveMode (policy : ExecutionPolicy) (contextId : String)
    (action : TradeAction) :
    Learns (S := tradeSig) (fun mode _ => mode = .real → policy.real = true)
      (effectiveMode policy contextId action) := by
  intro h
  refine wp_ite (fun _ => ⟨List.prefix_rfl, fun hreal => by cases hreal⟩) fun hreal => ?_
  have hpolicy : policy.real = true := (not_not.1 hreal).1
  refine wp_post (fun r h' hp => ?_) (learns_nothing _ h)
  cases r with
  | error e => trivial
  | ok mode => exact ⟨hp.1, fun _ => hpolicy⟩

theorem learns_resolveMode (policy : ExecutionPolicy) (id symbol : String) {action : TradeAction}
    (ha : action.isEntry) :
    Learns (S := tradeSig) (fun r _ => r = .mode .real → policy.real = true)
      (resolveMode policy id symbol action) := by
  intro h
  refine wp_ite (fun hexit => ?_) fun _ => ?_
  · rw [hexit.1] at ha
    cases ha
  · refine wp_bind_onOk (learns_effectiveMode policy id action h) fun mode h' hmode => ⟨hmode.1, ?_⟩
    rintro ⟨⟩
    exact hmode.2 rfl

theorem learns_getRealAccountState (broker : String) :
    Learns (S := tradeSig) (fun s h => ∀ state, s = some state → ∃ snapshot count,
        state = RealNavSnapshot.state snapshot count ∧ SnapshotFresh h broker snapshot ∧
        Seen h (.positionCount broker) count) (getRealAccountState broker) := by
  intro h
  refine wp_ask fun snapshot => ?_
  cases snapshot with
  | none => exact ⟨by simp, fun state hnone => by cases hnone⟩
  | some snapshot =>
    refine wp_ask fun now => ?_
    refine wp_bind_onOk (learns_readClamped _ _ _ _ _) fun maxAgeMs h₁ hread => ?_
    obtain ⟨hp, hmax⟩ := hread
    have hgrown : h <+: h₁ := by
      rw [List.append_assoc] at hp
      exact (List.prefix_append h _).trans hp
    have hnav : Seen h₁ (.navFindLatest broker) (some snapshot) := hp.subset (by simp)
    have hnow : Seen h₁ .now now := hp.subset (by simp)
    refine wp_ite (fun _ => ⟨hgrown, fun state hnone => by cases hnone⟩) fun hage => ?_
    refine wp_ask fun count => ?_
    refine ⟨hgrown.trans (List.prefix_append _ _), fun state hs => ?_⟩
    cases hs
    exact ⟨snapshot, count, rfl, ⟨maxAgeMs, now, List.mem_append_left _ hnav,
      hmax.mono (List.prefix_append _ _), List.mem_append_left _ hnow, not_lt.1 hage⟩, by simp⟩

theorem learns_entryHalted {action : TradeAction} (ha : action.isEntry) :
    Learns (S := tradeSig) (fun halted h => halted = false → KillSwitchOff h)
      (entryHalted action) := by
  intro h
  rw [entryHalted, if_pos ha]
  exact wp_ask fun raw => ⟨by simp, fun hoff => ⟨raw, by simp, hoff⟩⟩

theorem KillSwitchOff.mono {h h' : List (Event tradeSig)} (hk : KillSwitchOff h) (hp : h <+: h') :
    KillSwitchOff h' := by
  obtain ⟨raw, hmem, hoff⟩ := hk
  exact ⟨raw, hp.subset hmem, hoff⟩

/-- **The guards of a real order**, for an entry. -/
theorem learns_checkExecuteRealPreconditions (policy : ExecutionPolicy) {action : TradeAction}
    (realState : Option RealAccountState) (ha : action.isEntry) :
    Learns (S := tradeSig) (fun r h => r = none → KillSwitchOff h ∧ WalkForwardPassed h ∧
        policy.brokerPluginId ≠ "" ∧ (action = .short → policy.allowRealShort = true))
      (checkExecuteRealPreconditions policy action realState) := by
  intro h
  refine wp_bind_onOk (learns_entryHalted ha h) fun halted h₁ hread => ?_
  obtain ⟨hp, hoff⟩ := hread
  have hstop (result : ResultJson) : h <+: h₁ ∧ (some result = none → KillSwitchOff h₁ ∧
      WalkForwardPassed h₁ ∧ policy.brokerPluginId ≠ "" ∧
      (action = .short → policy.allowRealShort = true)) := ⟨hp, fun hnone => by cases hnone⟩
  refine wp_ite (fun _ => hstop _) fun hhalted => ?_
  refine wp_ite (fun _ => hstop _) fun hbroker => ?_
  refine wp_ite (fun _ => hstop _) fun _ => ?_
  refine wp_ite (fun _ => hstop _) fun hshort => ?_
  rw [entryWalkForwardGate, if_pos ha]
  refine wp_bind_onOk (learns_checkWalkForwardGate h₁) fun gate h₂ hgate => ?_
  obtain ⟨hp', hpassed⟩ := hgate
  refine ⟨hp.trans hp', fun hnone => ?_⟩
  have hgate : gate = none := Option.map_eq_none_iff.1 hnone
  have hoff' : KillSwitchOff h₁ := hoff (Bool.eq_false_iff.2 hhalted)
  exact ⟨hoff'.mono hp', hpassed hgate, hbroker, fun h => by_contra fun hno => hshort ⟨h, hno⟩⟩

/-! ## Risk and size -/

theorem realDrawdownPct_state (snapshot : RealNavSnapshot) (count : ℕ) :
    realDrawdownPct (snapshot.state count) = .fin (drawdownPct snapshot) := by
  have hgt : (snapshot.state count).hwm.gt 0 = decide (0 < snapshot.hwm) := rfl
  rw [realDrawdownPct, drawdownPct, hgt]
  by_cases h0 : 0 < snapshot.hwm
  · have hne : snapshot.hwm ≠ 0 := h0.ne'
    have h100 : (100 : Number) = .fin 100 := rfl
    have hzero : (0 : Number) = .fin 0 := rfl
    simp [h0, RealNavSnapshot.state, Number.div_fin _ hne, h100, hzero]
  · simp [h0]
    rfl

theorem drawdown_of_passes {snapshot : RealNavSnapshot} {count : ℕ} {policy : ExecutionPolicy}
    (h : passesAutoRisk (snapshot.state count) policy = none) :
    drawdownPct snapshot < policy.maxDrawdownHaltPct ∧ (count : ℤ) < policy.maxOpenPositions := by
  rw [passesAutoRisk, realDrawdownPct_state] at h
  split_ifs at h with h1 h2
  have hlt : ¬ policy.maxDrawdownHaltPct ≤ drawdownPct snapshot :=
    fun hle => h1 (decide_eq_true hle)
  exact ⟨not_le.1 hlt, not_le.1 h2⟩

theorem clampReal_fin (z : ℤ) (equity pct : ℚ) {price : ℚ} (hp : 0 < price) :
    ∃ k : ℤ, clampReal (.fin z) (.fin equity) (.fin price) pct = .fin k ∧ k ≤ z ∧
      (0 < k → k * price ≤ equity * pct) := by
  have hmax : (((Number.fin equity).mul (.fin pct)).div (.fin price)).floor =
      .fin ((⌊equity * pct / price⌋ : ℤ) : ℚ) := by
    rw [Number.mul_fin, Number.div_fin _ hp.ne', Number.floor_fin]
  have hfloor : (⌊equity * pct / price⌋ : ℚ) * price ≤ equity * pct := WholeShares.floor_mul_le hp
  have hle : (Number.fin z).le 0 = decide ((z : ℚ) ≤ 0) := rfl
  rw [clampReal, hle, hmax]
  by_cases h0 : (z : ℚ) ≤ 0
  · refine ⟨z, by simp [h0], le_refl z, fun hpos => ?_⟩
    have hneg : z ≤ 0 := by exact_mod_cast h0
    omega
  · have hgt : (Number.fin z).gt (.fin ((⌊equity * pct / price⌋ : ℤ) : ℚ)) =
        decide (((⌊equity * pct / price⌋ : ℤ) : ℚ) < z) := rfl
    dsimp only
    rw [hgt]
    by_cases hlt : ((⌊equity * pct / price⌋ : ℤ) : ℚ) < z
    · refine ⟨⌊equity * pct / price⌋, by simp [h0, hlt], ?_, fun _ => hfloor⟩
      exact le_of_lt (by exact_mod_cast hlt)
    · refine ⟨z, by simp [h0, hlt], le_refl z, fun _ => ?_⟩
      exact (mul_le_mul_of_nonneg_right (not_lt.1 hlt) hp.le).trans hfloor

/-- **The bounds of an entry's quantity.** -/
theorem realEntryQty_bounds (action : TradeAction) (policy : ExecutionPolicy)
    (snapshot : RealNavSnapshot) (count : ℕ) {price : ℚ} (sizingPct : ℚ) (hp : 0 < price) :
    ∃ k : ℤ, realEntryQty action policy (snapshot.state count) (.fin price) sizingPct = .fin k ∧
      (0 < k → k * price ≤ snapshot.equity * policy.maxPositionPct ∧
        k * price ≤ snapshot.buyingPower ∧
        (action = .short → k * price ≤ snapshot.equity * policy.maxShortNotionalPct)) := by
  have hsized : (((snapshot.state count).equity.mul (.fin sizingPct)).div (.fin price)).floor =
      .fin ((⌊snapshot.equity * sizingPct / price⌋ : ℤ) : ℚ) := by
    rw [show (snapshot.state count).equity = .fin snapshot.equity from rfl, Number.mul_fin,
      Number.div_fin _ hp.ne', Number.floor_fin]
  have hpower : ((snapshot.state count).buyingPower.div (.fin price)).floor =
      .fin ((⌊snapshot.buyingPower / price⌋ : ℤ) : ℚ) := by
    rw [show (snapshot.state count).buyingPower = .fin snapshot.buyingPower from rfl,
      Number.div_fin _ hp.ne', Number.floor_fin]
  obtain ⟨k₁, hk₁, -, hb₁⟩ := clampReal_fin ⌊snapshot.equity * sizingPct / price⌋ snapshot.equity
    policy.maxPositionPct hp
  obtain ⟨k₂, hk₂, hle₂, hb₂⟩ := clampReal_fin k₁ snapshot.equity policy.maxShortNotionalPct hp
  -- the entry before the cap by the buying power
  obtain ⟨k, hk, hle, hshort⟩ : ∃ k : ℤ, (if action = .short then
      clampReal (.fin k₁) (.fin snapshot.equity) (.fin price) policy.maxShortNotionalPct
      else .fin k₁) = .fin k ∧ k ≤ k₁ ∧
        (0 < k → action = .short → k * price ≤ snapshot.equity * policy.maxShortNotionalPct) := by
    by_cases ha : action = .short
    · exact ⟨k₂, by rw [if_pos ha, hk₂], hle₂, fun hpos _ => hb₂ hpos⟩
    · exact ⟨k₁, if_neg ha, le_refl _, fun _ hs => absurd hs ha⟩
  have hposition (hpos : 0 < k) : k * price ≤ snapshot.equity * policy.maxPositionPct := by
    have hcast : (k : ℚ) ≤ k₁ := by exact_mod_cast hle
    exact (mul_le_mul_of_nonneg_right hcast hp.le).trans (hb₁ (hpos.trans_le hle))
  have hfloor : (⌊snapshot.buyingPower / price⌋ : ℚ) * price ≤ snapshot.buyingPower :=
    WholeShares.floor_mul_le hp
  rw [realEntryQty, hsized, hpower]
  rw [show (snapshot.state count).equity = .fin snapshot.equity from rfl, hk₁, hk]
  have hgt : (Number.fin k).gt (.fin ((⌊snapshot.buyingPower / price⌋ : ℤ) : ℚ)) =
      decide (((⌊snapshot.buyingPower / price⌋ : ℤ) : ℚ) < k) := rfl
  rw [hgt]
  by_cases hlt : ((⌊snapshot.buyingPower / price⌋ : ℤ) : ℚ) < k
  · have hlt' : ⌊snapshot.buyingPower / price⌋ < k := by exact_mod_cast hlt
    refine ⟨⌊snapshot.buyingPower / price⌋, by simp [hlt], fun hpos => ⟨?_, hfloor, fun hs => ?_⟩⟩
    · exact (mul_le_mul_of_nonneg_right hlt.le hp.le).trans (hposition (hpos.trans hlt'))
    · exact (mul_le_mul_of_nonneg_right hlt.le hp.le).trans (hshort (hpos.trans hlt') hs)
  · refine ⟨k, by simp [hlt], fun hpos => ⟨hposition hpos, ?_, hshort hpos⟩⟩
    exact (mul_le_mul_of_nonneg_right (not_lt.1 hlt) hp.le).trans hfloor

/-! ## The order of an entry -/

section Growing

variable {h h' : List (Event tradeSig)}

theorem PolicyRead.mono {policy : ExecutionPolicy} (hr : PolicyRead h policy) (hp : h <+: h') :
    PolicyRead h' policy := by
  obtain ⟨raw, heq, hall⟩ := hr
  exact ⟨raw, heq, fun x hx => hp.subset (hall x hx)⟩

theorem WalkForwardPassed.mono (hr : WalkForwardPassed h) (hp : h <+: h') :
    WalkForwardPassed h' := by
  obtain ⟨raw, strategyId, row, checkedAt, maxAgeDays, now, h₁, hid, h₂, hv, hc, hm, h₃, hage⟩ := hr
  exact ⟨raw, strategyId, row, checkedAt, maxAgeDays, now, hp.subset h₁, hid, hp.subset h₂, hv, hc,
    hm.mono hp, hp.subset h₃, hage⟩

theorem SnapshotFresh.mono {broker : String} {snapshot : RealNavSnapshot}
    (hr : SnapshotFresh h broker snapshot) (hp : h <+: h') : SnapshotFresh h' broker snapshot := by
  obtain ⟨maxAgeMs, now, h₁, hm, h₂, hage⟩ := hr
  exact ⟨maxAgeMs, now, hp.subset h₁, hm.mono hp, hp.subset h₂, hage⟩

theorem EntryChecked.mono {intent : TradeIntent} {placed : PlacedOrder} {policy : ExecutionPolicy}
    {snapshot : RealNavSnapshot} {count n : ℕ} {price : ℚ}
    (hc : EntryChecked h intent placed policy snapshot count price n) (hp : h <+: h') :
    EntryChecked h' intent placed policy snapshot count price n :=
  { hc with
    policyRead := hc.policyRead.mono hp
    killSwitch := hc.killSwitch.mono hp
    walkForward := hc.walkForward.mono hp
    snapshotFresh := hc.snapshotFresh.mono hp
    positions := ⟨hp.subset hc.positions.1, hc.positions.2⟩
    quote := ⟨hp.subset hc.quote.1, hc.quote.2⟩ }

end Growing

section Demand

variable {id : String} {intent : TradeIntent} {h h₀ : List (Event tradeSig)}

theorem demand_silent {op : TradeOp} (hop : op.placed = []) : EntryDemand id h op := by
  intro placed hmem
  rw [hop] at hmem
  cases hmem

theorem demand_of_noOrder {α : Type} {p : Trade α} (hp : NoOrder p) :
    Always (S := tradeSig) (EntryDemand id) p := by
  refine hp.mono fun h op hop => ?_
  exact demand_silent hop

theorem demand_of_quiet {α : Type} {p : Trade α} (hp : Quiet p) :
    Always (S := tradeSig) (EntryDemand id) p := demand_of_noOrder (noOrder_of_quiet hp)

theorem demand_submit {args : SubmitArgs} (hreq : ∀ h c, h₀ <+: h →
    EntryDemand id h (.placeOrder args.tradeIntentId args.brokerPluginId (args.request c))) :
    Always (S := tradeSig) (fun h op => h₀ <+: h → EntryDemand id h op) (submit args) := by
  have silent {α : Type} {p : Trade α} (hp : NoOrder p) :
      Always (S := tradeSig) (fun h op => h₀ <+: h → EntryDemand id h op) p := by
    have hd : Always (S := tradeSig) (EntryDemand id) p := demand_of_noOrder hp
    refine Always.mono (fun h op hop => ?_) hd
    exact fun _ => hop
  refine always_bind (silent (always_perform fun _ => rfl)) fun existing => ?_
  cases existing with
  | some row => exact always_ret _
  | none =>
    refine always_bind (silent (always_perform fun _ => rfl)) fun existing => ?_
    cases existing with
    | some row => exact always_ret _
    | none =>
      refine always_bind (silent (noOrder_of_quiet (quiet_generateClientOrderId _))) fun c => ?_
      refine always_bind (silent (always_attempt (always_perform fun _ => rfl))) fun created => ?_
      cases created with
      | error e =>
        refine silent (always_ite (fun _ => ?_) fun _ => always_throw _)
        refine always_bind (always_perform fun _ => rfl) fun winner => ?_
        cases winner
        · exact always_throw _
        · exact always_ret _
      | ok row =>
        refine always_bind (always_attempt ?_) fun response => ?_
        · refine always_bind (always_perform fun h hp => hreq h c hp) fun r => ?_
          exact silent (always_bind (always_perform fun _ => rfl) fun _ => always_ofOutcome _)
        · cases response with
          | ok brokerOrderId =>
            refine silent (noOrder_note _ _ fun r => ?_)
            cases r <;> exact always_ret _
          | error e =>
            refine silent (always_bind (noOrder_of_quiet quiet_recordSubmitFailureAndMaybeHalt)
              fun _ => noOrder_note _ _ fun r => ?_)
            cases r <;> exact always_ret _

theorem demand_submitReal {symbol : String} {policy : ExecutionPolicy} {side : Side} {qty : Number}
    {decidedBy : String} (hreq : ∀ h c, h₀ <+: h → EntryDemand id h (.placeOrder id
      policy.brokerPluginId { symbol, qty, side, type := "market", clientOrderId := c
                              limitPrice := none })) :
    (submitReal id symbol policy side qty decidedBy).Wp (histSem tradeSig) (EntryDemand id)
      (fun _ _ => True) h₀ := by
  let args : SubmitArgs := { tradeIntentId := id, brokerPluginId := policy.brokerPluginId, symbol
                             side, requestedQty := qty }
  have hsubmit : (submit args).Wp (histSem tradeSig) (EntryDemand id) (fun _ _ => True) h₀ :=
    Always.within (I := fun h => h₀ <+: h) (demand_submit hreq)
      (fun h e hp => hp.trans (List.prefix_append _ _)) List.prefix_rfl
  refine wp_bind_always (Q := fun _ _ => True) ((wp_attempt _ _).2 hsubmit) fun r => ?_
  cases r with
  | error e => exact demand_of_noOrder (noOrder_decide' _ _ _ _)
  | ok row =>
    refine always_ite (fun _ => demand_of_noOrder (noOrder_decide' _ _ _ _)) fun _ => ?_
    exact always_bind (demand_of_noOrder (always_perform fun _ => rfl)) fun _ =>
      demand_of_noOrder (noOrder_decide' _ _ _ _)

/-! ## The way of an entry -/

section Entry

variable {policy : ExecutionPolicy} {snapshot : RealNavSnapshot} {count : ℕ}

/-- An entry that has passed the gates of its risk and of its account. -/
structure Cleared (id : String) (intent : TradeIntent) (h : List (Event tradeSig))
    (policy : ExecutionPolicy) (snapshot : RealNavSnapshot) (count : ℕ) : Prop where
  begun : Begun id intent h
  entry : intent.action.isEntry
  policyRead : PolicyRead h policy
  real : policy.real = true
  snapshotFresh : SnapshotFresh h policy.brokerPluginId snapshot
  positions : Seen h (.positionCount policy.brokerPluginId) count
  risk : passesAutoRisk (snapshot.state count) policy = none

theorem demand_placeReal (hc : Cleared id intent h policy snapshot count) (hk : KillSwitchOff h)
    (hw : WalkForwardPassed h) (hb : policy.brokerPluginId ≠ "")
    (hs : intent.action = .short → policy.allowRealShort = true) {price : ℚ} (hp : 0 < price)
    (hq : Seen h (.getQuote intent.symbol) (.fin price)) (side : Side) (decidedBy : String)
    (sizingPct : ℚ) :
    (placeReal id intent.symbol intent.action policy (.fin price) side
      (realEntryQty intent.action policy (snapshot.state count) (.fin price) sizingPct)
      decidedBy).Wp (histSem tradeSig) (EntryDemand id) (fun _ _ => True) h := by
  obtain ⟨k, hqty, hbounds⟩ := realEntryQty_bounds intent.action policy snapshot count sizingPct hp
  rw [hqty]
  refine wp_ite (fun _ => demand_of_noOrder (noOrder_decide' _ _ _ _) h) fun hpos => ?_
  refine wp_ite (fun _ => demand_of_noOrder (noOrder_decide' _ _ _ _) h) fun hnotional => ?_
  have hk0 : 0 < k := by
    by_contra hno
    exact hpos (decide_eq_true (by exact_mod_cast not_lt.1 hno))
  obtain ⟨n, rfl⟩ := Int.eq_ofNat_of_zero_le hk0.le
  obtain ⟨hposition, hpower, hshort⟩ := hbounds hk0
  have hexit : intent.action ≠ .exit := by
    intro he
    have hentry := hc.entry
    rw [he] at hentry
    cases hentry
  have hmax : ¬ policy.maxOrderNotional < ((n : ℤ) : ℚ) * price := fun hlt =>
    hnotional ⟨hexit, decide_eq_true hlt⟩
  obtain ⟨hdrawdown, hcount⟩ := drawdown_of_passes hc.risk
  push_cast at hposition hpower hshort hmax
  have hchecked (c : String) : EntryChecked h intent ⟨id, policy.brokerPluginId,
      { symbol := intent.symbol, qty := .fin ((n : ℤ) : ℚ), side, type := "market"
        clientOrderId := c, limitPrice := none }⟩ policy snapshot count price n :=
    { policyRead := hc.policyRead, real := hc.real, broker := ⟨hb, rfl⟩, killSwitch := hk
      walkForward := hw, snapshotFresh := hc.snapshotFresh, drawdown := hdrawdown
      positions := ⟨hc.positions, hcount⟩, quote := ⟨hq, hp⟩
      qty := ⟨by push_cast; rfl, by exact_mod_cast hk0⟩
      notional := not_lt.1 hmax, sizing := hposition, buyingPower := hpower
      short := fun h => ⟨hs h, hshort h⟩ }
  refine demand_submitReal fun h' c hgrown placed hmem => ?_
  rw [List.mem_singleton.1 hmem]
  exact ⟨intent, hc.begun.trans hgrown, fun _ => ⟨_, _, _, _, _, (hchecked c).mono hgrown⟩⟩

theorem Cleared.mono {h' : List (Event tradeSig)} (hc : Cleared id intent h policy snapshot count)
    (hp : h <+: h') : Cleared id intent h' policy snapshot count :=
  { hc with
    begun := hc.begun.trans hp
    policyRead := hc.policyRead.mono hp
    snapshotFresh := hc.snapshotFresh.mono hp
    positions := hp.subset hc.positions }

theorem price_of_valid {last : Number} (hv : validPrice last) :
    ∃ price : ℚ, last = .fin price ∧ 0 < price := by
  cases last with
  | fin price => exact ⟨price, rfl, of_decide_eq_true (Bool.and_eq_true_iff.1 hv).2⟩
  | _ => cases hv

theorem demand_executeReal (hc : Cleared id intent h policy snapshot count) (decidedBy : String)
    (sizingPct : ℚ) :
    (executeReal id intent.symbol intent.action policy (some (snapshot.state count)) decidedBy
      sizingPct).Wp (histSem tradeSig) (EntryDemand id) (fun _ _ => True) h := by
  have hexit : intent.action ≠ .exit := by
    intro he
    have hentry := hc.entry
    rw [he] at hentry
    cases hentry
  refine (learns_checkExecuteRealPreconditions policy _ hc.entry).bind
    (demand_of_quiet (quiet_checkExecuteRealPreconditions _ _ _)) fun r h₁ hp₁ hpassed => ?_
  cases r with
  | some result => exact demand_of_noOrder (noOrder_decide' _ _ _ _) h₁
  | none =>
    obtain ⟨hk, hw, hb, hs⟩ := hpassed rfl
    refine wp_attempt_perform_bind.2 ⟨demand_silent rfl, ?_⟩
    rintro quote h₂ rfl
    refine wp_ite (fun _ => demand_of_noOrder (noOrder_decide' _ _ _ _) _) fun hvalid => ?_
    refine wp_ite (fun _ => demand_of_noOrder (noOrder_update _ _) _) fun _ => ?_
    have hprice := not_not.1 fun hno => hvalid ⟨hc.entry, hno⟩
    obtain ⟨price, rfl, hpos⟩ : ∃ price : ℚ, quote = .ok (.fin price) ∧ 0 < price := by
      cases quote with
      | error e => cases hprice
      | ok last =>
        obtain ⟨price, rfl, hpos⟩ := price_of_valid hprice
        exact ⟨price, rfl, hpos⟩
    have hgrown : h₁ <+: h₁ ++ [⟨.getQuote intent.symbol, .ok (.fin price)⟩] :=
      List.prefix_append _ _
    have hside : resolveRealSideAndQty intent.symbol intent.action policy
        (some (snapshot.state count)) (.fin price) sizingPct =
        .ret (.ok (if intent.action = .long then .buy else .sell,
          realEntryQty intent.action policy (snapshot.state count) (.fin price) sizingPct)) := by
      simp [resolveRealSideAndQty, hexit, RealNavSnapshot.state]
    unfold executeRealOrder
    rw [hside]
    exact demand_placeReal (hc.mono (hp₁.trans hgrown)) (hk.mono hgrown) (hw.mono hgrown) hb hs hpos
      (by simp) _ decidedBy sizingPct

theorem demand_gateAndExecute (hb : Begun id intent h) (he : intent.action.isEntry)
    (hread : PolicyRead h policy) (hreal : policy.real = true)
    (hfresh : SnapshotFresh h policy.brokerPluginId snapshot)
    (hcount : Seen h (.positionCount policy.brokerPluginId) count) (s : PaperState)
    (decidedBy : String) (sizingPct : ℚ) :
    (gateAndExecute id intent policy .real (some (snapshot.state count)) s decidedBy sizingPct).Wp
      (histSem tradeSig) (EntryDemand id) (fun _ _ => True) h := by
  refine wp_ite (fun _ => ?_) fun hno => absurd he hno
  cases hrisk : passesAutoRisk (snapshot.state count) policy with
  | some reason =>
    have hgate : evaluateEntryRiskGate id .real (some (snapshot.state count)) s policy =
        .ret ⟨some reason, s, none⟩ := by rw [evaluateEntryRiskGate, hrisk]; rfl
    rw [hgate]
    exact demand_of_noOrder (noOrder_update _ _) h
  | none =>
    have hgate : evaluateEntryRiskGate id .real (some (snapshot.state count)) s policy =
        .ret ⟨none, s, none⟩ := by rw [evaluateEntryRiskGate, hrisk]; rfl
    rw [hgate]
    exact demand_executeReal ⟨hb, he, hread, hreal, hfresh, hcount, hrisk⟩ decidedBy sizingPct

theorem demand_processInMode (hb : Begun id intent h) (he : intent.action.isEntry)
    (hread : PolicyRead h policy) (hreal : policy.real = true) (decidedBy : String)
    (sizingPct : ℚ) :
    (processInMode id intent policy .real decidedBy sizingPct).Wp (histSem tradeSig)
      (EntryDemand id) (fun _ _ => True) h := by
  refine (learns_nothing _).bind (demand_of_noOrder (always_perform fun _ => rfl))
    fun row h₁ hp₁ _ => ?_
  refine wp_ite (fun _ => demand_of_noOrder (noOrder_update _ _) h₁) fun _ => ?_
  refine (learns_getRealAccountState policy.brokerPluginId).bind
    (demand_of_quiet (quiet_getRealAccountState _)) fun realState h₂ hp₂ hstate => ?_
  refine wp_ite (fun _ => demand_of_noOrder (noOrder_decide' _ _ _ _) h₂) fun hsome => ?_
  cases realState with
  | none => exact absurd ⟨rfl, he, rfl⟩ hsome
  | some state =>
    obtain ⟨snapshot, count, rfl, hfresh, hcount⟩ := hstate state rfl
    exact demand_gateAndExecute ((hb.trans hp₁).trans hp₂) he (hread.mono (hp₁.trans hp₂)) hreal
      hfresh hcount _ decidedBy sizingPct

end Entry

/-- **What an execution hands to the broker**, whatever it is answered. -/
theorem demand_processIntent (id verb decidedBy : String) (sizing : ExecutionPolicy → ℚ) :
    (processIntent id verb decidedBy sizing).Wp (histSem tradeSig) (EntryDemand id)
      (fun _ _ => True) [] := by
  have hpending : (pendingIntent id verb).Wp (histSem tradeSig) (EntryDemand id)
      (onOk fun intent h => Begun id intent h) [] := by
    refine wp_perform_bind.2 ⟨demand_silent rfl, ?_⟩
    rintro r h rfl
    rcases r with e | _ | intent
    · trivial
    · trivial
    · exact wp_ite (fun _ => List.prefix_rfl) fun _ => trivial
  refine wp_bind_of hpending (fun intent h hb => ?_) fun _ _ _ => trivial
  by_cases he : intent.action.isEntry
  · refine learns_readExecutionPolicy.bind (demand_of_quiet quiet_readExecutionPolicy)
      fun policy h₁ hp₁ hread => ?_
    refine (learns_resolveMode policy id intent.symbol he).bind
      (demand_of_quiet (quiet_resolveMode _ _ _ _)) fun r h₂ hp₂ hmode => ?_
    rcases r with (_ | _) | result
    · exact demand_of_noOrder (noOrder_processInMode_paper _ _ _ _ _) h₂
    · exact demand_processInMode ((hb.trans hp₁).trans hp₂) he (hread.mono hp₂) (hmode rfl)
        decidedBy _
    · exact demand_of_noOrder (noOrder_decide' _ _ _ _) h₂
  · -- an exit or a hold: nothing more is demanded
    refine Always.within (I := Begun id intent) (always_of_forall (fun h op hb placed _ => ?_) _)
      (fun h e hb => hb.trans (List.prefix_append _ _)) hb
    exact ⟨intent, hb, fun hentry => absurd hentry he⟩

end Demand

/-! ## Every interleaving -/

/-- The demand on a call of the services. -/
def entryDemandOf : ServiceCall → List (Event tradeSig) → TradeOp → Prop
  | .autoProcess id | .approve id _ => EntryDemand id
  | _ => fun _ _ => True

theorem entryDemand_body (c : ServiceCall) :
    c.body.Wp (histSem tradeSig) (entryDemandOf c) (fun _ _ => True) [] := by
  cases c with
  | autoProcess id => exact demand_processIntent _ _ _ _
  | approve id decidedBy => exact demand_processIntent _ _ _ _
  | _ => exact always_of_forall (fun _ _ => trivial) _ []

def ServiceCall.executes : ServiceCall → String → Bool
  | .autoProcess id, i | .approve id _, i => id = i
  | _, _ => false

/-- **Real entry safety.** In every interleaving of the services' calls, when `autoProcess` or
`approve` hands an order to the broker for a long or a short, its history up to then holds every
check of the entry, passed. -/
theorem real_entry_safe {w : World} {P : Pool tradeSig ServiceCall World}
    {t : Thread tradeSig ServiceCall} {id : String} {h : List (Event tradeSig)}
    {e : Event tradeSig} {placed : PlacedOrder}
    (hr : Pool.Reaches tradeSem ServiceCall.body Pool.free ⟨w, []⟩ P) (ht : t ∈ P.threads)
    (hc : t.call.executes id) (he : h ++ [e] <+: t.hist) (hplaced : placed ∈ e.1.placed) :
    ∃ intent, [⟨.intentFindUnique id, .ok (some intent)⟩] <+: h ∧ (intent.action.isEntry →
      ∃ policy snapshot count price n,
        EntryChecked h intent placed policy snapshot count price n) := by
  have hsound := Pool.reaches_sound entryDemand_body hr t ht
  have hdemand := hsound.1 h e he
  obtain ⟨c, hist, rest⟩ := t
  cases c with
  | autoProcess i =>
    cases of_decide_eq_true hc
    exact hdemand placed hplaced
  | approve i decidedBy =>
    cases of_decide_eq_true hc
    exact hdemand placed hplaced
  | _ => cases hc

/-! ## An entry with everything in order -/

/-- A pending long, a `ROBUSTO` strategy and a fresh snapshot. -/
def entryWorld : World :=
  { sampleWorld [sampleIntent "intent-1" "SPY" .long] with
    kv := fun key => if key = "strategy.applied" then some "\"momentum\"" else sampleSettings key
    strategies := [⟨"momentum", some "ROBUSTO", some 0⟩]
    navs := [⟨0, "alpaca", 10000, 10000, 10000, 0, 10000, "sync"⟩] }

def entryRun : Option (Pool tradeSig ServiceCall World) :=
  Pool.replay handle ServiceCall.body Pool.unchecked
    (.start (.autoProcess "intent-1") :: List.replicate 33 (.await 0 (sampleOracle (.arr []))))
    ⟨entryWorld, []⟩

theorem entryRun_isSome : entryRun.isSome := by decide +kernel

theorem entryRun_threads : (entryRun.get entryRun_isSome).threads ≠ [] := by
  have hlen : (entryRun.get entryRun_isSome).threads.length = 1 := by decide +kernel
  intro hnil
  rw [hnil] at hlen
  cases hlen

def entryThread : Thread tradeSig ServiceCall :=
  (entryRun.get entryRun_isSome).threads.head entryRun_threads

def entryOrder : PlacedOrder :=
  ⟨"intent-1", "alpaca", ⟨"SPY", .fin 10, .buy, "market", "nt-intent-1-order-1", none⟩⟩

theorem entryThread_hist : entryThread.hist ≠ [] := by
  have hlen : entryThread.hist.length = 33 := by decide +kernel
  intro hnil
  rw [hnil] at hlen
  cases hlen

theorem entryThread_places : entryOrder ∈ (entryThread.hist.getLast entryThread_hist).1.placed := by
  decide +kernel

theorem entryThread_executes : entryThread.call.executes "intent-1" := by decide +kernel

/-- The checks of a long of 10 shares. -/
theorem real_entry_safe_long : ∃ intent,
    [⟨.intentFindUnique "intent-1", .ok (some intent)⟩] <+: entryThread.hist.dropLast ∧
      (intent.action.isEntry → ∃ policy snapshot count price n,
        EntryChecked entryThread.hist.dropLast intent entryOrder policy snapshot count price n) :=
  real_entry_safe (w := entryWorld)
    (Pool.reaches_of_replay (fun _ _ _ _ _ => trivial) (Option.some_get entryRun_isSome).symm)
    (List.head_mem _) entryThread_executes
    ((List.dropLast_append_getLast entryThread_hist).symm ▸ List.prefix_rfl) entryThread_places

end NeoTrader

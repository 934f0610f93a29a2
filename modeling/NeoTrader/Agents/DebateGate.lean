import NeoTrader.Agents.Perimeter

/-!
# The debate inside a turn

Before a call is dispatched, a panel may be asked about it. Its answer binds the turn until the gate
is opened again, which begins with reading whether the debate is on.

* `GateState`, `gate`: what the debate has come to, as a run shows it;
* **`debate_binds`**: in no run of a turn is anything dispatched behind a rejection, or behind a
  panel that has failed where failures block; no panel is asked about an exit.
-/

namespace NeoTrader.DebateGate

open Await Prog

/-! ## What a run shows -/

/-- Whether the last panel blocks, and whether a failure of a panel does. -/
structure GateState where
  failBlocks : Bool := false
  blocked : Bool := false

/-- A gate is opened when `debate.enabled` is read. -/
def GateState.next (g : GateState) : Event agentSig → GateState
  | ⟨.trade (.kvGet key), .ok v⟩ =>
    if key = "debate.enabled" then { g with blocked := false }
    else if key = "debate.fail_mode" then { g with failBlocks := kvStr v = some "block" }
    else g
  | ⟨.trade (.kvGet key), .error _⟩ =>
    if key = "debate.enabled" then { g with blocked := false } else g
  | ⟨.runPanel _ _, .ok (some consensus)⟩ =>
    { g with blocked := consensus.recommendation = "reject" }
  | ⟨.runPanel _ _, .ok none⟩ => { g with blocked := false }
  | ⟨.runPanel _ _, .error _⟩ => { g with blocked := g.failBlocks }
  | _ => g

/-- What the debate has come to in a run. -/
def gate (h : List (Event agentSig)) : GateState := h.foldl GateState.next {}

/-- **What the debate allows**: a dispatch, where the last panel does not block; a panel of at most
five roles, and about no exit. -/
def Debated (h : List (Event agentSig)) : AgentOp → Prop
  | .callPlugin _ _ _ | .search _ | .kernelTool _ => (gate h).blocked = false
  | .runPanel tc roles => tc.isExit = false ∧ roles ≠ [] ∧ roles.length ≤ 5
  | _ => True

def isPanel : AgentOp → Bool
  | .runPanel _ _ => true
  | _ => false

/-- No panel, and nothing that is dispatched. -/
def ordinary : AgentOp → Bool
  | .runPanel _ _ | .callPlugin _ _ _ | .search _ | .kernelTool _ => false
  | _ => true

/-- An ordinary operation that reads no setting. -/
def steady : AgentOp → Bool
  | .trade (.kvGet _) => false
  | op => ordinary op

section Runs

variable {s : Services} {input : GovernedTurnInput} {tc : ToolCallRequest} {α β : Type}
  {h h' : List (Event agentSig)} {op : AgentOp} {p : Agent α} {cycleId : String} {acc : Collected}

theorem gate_snoc (e : Event agentSig) : gate (h ++ [e]) = (gate h).next e := by
  rw [gate, List.foldl_append]
  rfl

theorem ordinary_of_steady (hop : steady op = true) : ordinary op = true := by
  unfold steady at hop
  split at hop
  · cases hop
  · exact hop

theorem isPanel_of_ordinary (hop : ordinary op = true) : isPanel op = false := by
  cases op <;> first | rfl | cases hop

theorem debated_of_ordinary (hop : ordinary op = true) : Debated h op := by
  cases op <;> trivial

theorem next_steady {g : GateState} {e : Event agentSig} (he : steady e.1 = true) :
    g.next e = g := by
  unfold GateState.next
  split <;> first | rfl | cases he

/-- Only a panel blocks. -/
theorem blocked_next {g : GateState} {e : Event agentSig} (he : isPanel e.1 = false)
    (hb : (g.next e).blocked = true) : g.blocked = true := by
  unfold GateState.next at hb
  split at hb
  · split_ifs at hb <;> exact hb
  · split_ifs at hb
    exact hb
  · cases he
  · cases he
  · cases he
  · exact hb

/-- The last panel does not block. -/
def Clear (h : List (Event agentSig)) : Prop := (gate h).blocked = false

variable (s) in
/-- Where there is no debate, nothing blocks. -/
def Idle (h : List (Event agentSig)) : Prop :=
  (gate h).blocked = true → s.debate = true ∧ s.kv = true

theorem Clear.idle (hc : Clear h) : Idle s h := fun hb => absurd hb (Bool.eq_false_iff.1 hc)

theorem Clear.snoc (hc : Clear h) {e : Event agentSig} (he : isPanel e.1 = false) :
    Clear (h ++ [e]) := by
  refine Bool.eq_false_iff.2 fun hb => Bool.eq_false_iff.1 hc (blocked_next he ?_)
  rw [← gate_snoc]
  exact hb

theorem Idle.snoc (hi : Idle s h) {e : Event agentSig} (he : isPanel e.1 = false) :
    Idle s (h ++ [e]) := fun hb => hi (blocked_next he (gate_snoc e ▸ hb))

/-! ## Programs beside the panel -/

abbrev Ordinary (p : Agent α) : Prop := Always (S := agentSig) (fun _ op => ordinary op = true) p

abbrev Steady (p : Agent α) : Prop := Always (S := agentSig) (fun _ op => steady op = true) p

/-- No panel is asked. -/
abbrev Undebated (p : Agent α) : Prop := Always (S := agentSig) (fun _ op => isPanel op = false) p

theorem undebated_of_ordinary (hp : Ordinary p) : Undebated p :=
  hp.mono fun _ _ => isPanel_of_ordinary

theorem wp_ordinary (hp : Ordinary p) (hi : Idle s h) :
    p.Wp (histSem agentSig) Debated (fun _ => Idle s) h :=
  wp_mono (fun _ _ hpre => debated_of_ordinary hpre.1) (fun _ _ hq => hq)
    (hp.carries (fun _ _ hi hop => hi.snoc (isPanel_of_ordinary hop)) hi)

theorem wp_ordinary_bind {f : α → Agent β} (hp : Ordinary p) (hi : Idle s h)
    (hf : ∀ a h', Idle s h' → (f a).Wp (histSem agentSig) Debated (fun _ => Idle s) h') :
    (p >>= f).Wp (histSem agentSig) Debated (fun _ => Idle s) h :=
  wp_bind_of (wp_ordinary hp hi) hf fun _ _ hi => hi

/-- Behind a panel that does not block anything may be dispatched. -/
theorem wp_undebated (hp : Undebated p) (hc : Clear h) :
    p.Wp (histSem agentSig) Debated (fun _ => Clear) h := by
  refine wp_mono (fun h' op hpre => ?_) (fun _ _ hq => hq)
    (hp.carries (fun _ _ hc hop => hc.snoc hop) hc)
  obtain ⟨hop, hc'⟩ := hpre
  cases op <;> trivial

theorem wp_steady (hp : Steady p) :
    p.Wp (histSem agentSig) Debated (fun _ h' => gate h' = gate h) h := by
  refine wp_mono (fun _ _ hpre => debated_of_ordinary (ordinary_of_steady hpre.1))
    (fun _ _ hq => hq) (hp.carries (fun h' e heq hop => ?_) rfl)
  rw [gate_snoc, next_steady hop, heq]

theorem ordinary_trading (p : Trade α) : Ordinary (trading p) :=
  always_embed tradeEmb (q := fun op => ordinary op = true) (fun _ => rfl) p

theorem ordinary_audit (event : String) (detail : List String) :
    Ordinary (ask (.audit event detail)) := always_perform fun _ => rfl

theorem ordinary_auditIf (c : Bool) (event : String) (detail : List String) :
    Ordinary (auditIf c event detail) :=
  always_ite (fun _ => ordinary_audit _ _) fun _ => always_ret _

theorem ordinary_dispatchFailed (e : Err) : Ordinary (dispatchFailed tc acc e) :=
  always_bind (ordinary_audit _ _) fun _ => always_ret _

theorem ordinary_recordSignalAndIntent (reply : SandboxReply) :
    Ordinary (recordSignalAndIntent s cycleId tc reply acc) := by
  refine always_ite (fun _ => ordinary_dispatchFailed _) fun _ => ?_
  split
  · refine always_bind (always_attempt (ordinary_audit _ _)) fun r => ?_
    cases r with
    | error e => exact ordinary_dispatchFailed _
    | ok _ =>
      refine always_ite (fun _ => ?_) fun _ => always_ret _
      exact always_bind (always_attempt (ordinary_trading _)) fun _ => always_ret _
  · exact always_ret _

theorem undebated_dispatchKernelTool : Undebated (dispatchKernelTool s tc acc) := by
  refine always_ite (fun _ => ?_) fun _ => always_ite (fun _ => ?_) fun _ => always_ret _
  · refine always_ite (fun _ => always_throw _) fun _ => always_ite (fun _ => always_ret _) fun _ => ?_
    refine always_ite (fun _ => always_ret _) fun _ => always_bind (always_perform fun _ => rfl) ?_
    exact fun _ => always_bind (undebated_of_ordinary (ordinary_audit _ _)) fun _ => always_ret _
  · exact always_bind (always_perform fun _ => rfl) fun _ => always_ret _

theorem ordinary_keepValid (reason : ToolCallRequest → Option String)
    (calls : List ToolCallRequest) : Ordinary (keepValid reason calls) := by
  induction calls with
  | nil => exact always_ret _
  | cons call calls ih =>
    rw [keepValid]
    cases reason call with
    | some r => exact always_bind (ordinary_audit _ _) fun _ => ih
    | none => exact always_bind ih fun _ => always_ret _

theorem ordinary_validateToolCalls (calls : List ToolCallRequest) (tools : List ProviderTool)
    (preloaded : Option (List HydratedPlugin)) (virtualOnly : Bool) (source : TurnSource) :
    Ordinary (validateToolCalls calls tools preloaded virtualOnly source) := by
  cases calls with
  | nil => exact always_ret _
  | cons call calls =>
    refine always_bind (always_attempt (always_bind ?_ fun _ => ordinary_keepValid _ _)) fun r => ?_
    · cases preloaded with
      | some plugins => exact always_ret _
      | none => exact always_perform fun _ => rfl
    · cases r with
      | ok valid => exact always_ret _
      | error e => exact always_bind (ordinary_audit _ _) fun _ => always_ret _

theorem ordinary_auditTurn (source : TurnSource) : Ordinary (auditTurn source) := by
  cases source with
  | chat | pretest => exact ordinary_audit _ _
  | cycle | reflection => exact always_ret _

theorem ordinary_auditLlmDivergence (source : TurnSource) :
    Ordinary (auditLlmDivergence source) := by
  cases source with
  | cycle | pretest => exact always_bind (always_attempt (ordinary_audit _ _)) fun _ => always_ret _
  | chat | reflection => exact always_ret _

/-! ## The gate -/

theorem steady_trading {p : Trade α}
    (hp : Always (S := tradeSig) (fun _ op => ∀ key, op ≠ .kvGet key) p) : Steady (trading p) := by
  refine Always.embed tradeEmb (fun op hop => ?_) hp
  show steady (.trade op) = true
  unfold steady
  split
  · next key heq => exact absurd (AgentOp.trade.inj heq) (hop key)
  · rfl

/-- No setting is read for the portfolio. -/
theorem steady_getPortfolio : Steady (trading (getPortfolio "")) := by
  have request (m : ProviderManifest) (endpoint : String) (default : Js.Json) :
      Always (S := tradeSig) (fun _ op => ∀ key, op ≠ .kvGet key) (requestOr m endpoint default) := by
    refine always_ite (fun _ => always_bind (always_attempt (always_perform fun _ => ?_)) ?_)
      fun _ => always_ret _
    · exact fun _ => TradeOp.noConfusion
    · rintro (e | body) <;> exact always_ret _
  refine steady_trading (always_bind (always_bind (always_perform ?_) ?_) fun m => ?_)
  · exact fun _ _ => TradeOp.noConfusion
  · rintro (_ | m)
    · exact always_throw _
    · exact always_ret _
  · refine always_ite (fun _ => always_ret _) fun _ => ?_
    refine always_bind (request _ _ _) fun _ => always_bind (request _ _ _) fun _ => ?_
    exact always_ofOutcome _

theorem wp_isHighImpact (threshold : ℚ) : (isHighImpact s tc threshold).Wp (histSem agentSig) Debated
    (fun r h' => gate h' = gate h ∧ (r = .ok true → tc.isExit = false)) h := by
  refine wp_ite (fun _ => ⟨rfl, fun heq => by cases heq⟩) fun _ => ?_
  refine wp_ite (fun _ => ⟨rfl, fun heq => by cases heq⟩) fun hexit => ?_
  refine wp_post (fun r h' hgate => ⟨hgate, fun _ => Bool.not_eq_true _ ▸ hexit⟩) (wp_steady ?_)
  refine always_ite (fun _ => always_ret _) fun _ => always_ite (fun _ => always_ret _) fun _ => ?_
  dsimp only
  split
  · exact always_ret _
  refine always_ite (fun _ => always_ret _) fun _ => always_bind (always_attempt ?_) fun r => ?_
  · have hquote (symbol : String) : Steady (trading (await (.getQuote symbol))) :=
      steady_trading (always_perform fun _ _ => TradeOp.noConfusion)
    refine always_bind (hquote _) fun last => always_bind steady_getPortfolio fun _ => ?_
    exact always_ite (fun _ => always_ret _) fun _ => always_ret _
  · cases r <;> exact always_ret _

variable (s) in
/-- The settings of the debate, as they have been read. -/
structure ConfigRead (cfg : DebateConfig) (h : List (Event agentSig)) : Prop where
  clear : Clear h
  enabled : cfg.enabled = true → s.kv = true ∧ (gate h).failBlocks = cfg.failBlocks
  roles : 1 ≤ cfg.maxRoles ∧ cfg.maxRoles ≤ 5

theorem configRead_off (hc : Clear h) : ConfigRead s ⟨false, 1 / 10, 3, false⟩ h :=
  ⟨hc, fun heq => Bool.noConfusion heq, by decide⟩

theorem wp_readDebateConfig (hi : Idle s h) : (readDebateConfig s).Wp (histSem agentSig) Debated
    (fun r h' => ∃ cfg, r = .ok cfg ∧ ConfigRead s cfg h') h := by
  refine wp_ite (fun hkv => ?_) fun hkv => ?_
  · refine wp_attempt_bind.2 (wp_post (Q := fun r h' => Clear h' ∧
      ∀ cfg, r = .ok cfg → ConfigRead s cfg h') (fun r h' hr => ?_) ?_)
    · cases r with
      | ok cfg => exact ⟨cfg, rfl, hr.2 cfg rfl⟩
      | error e => exact ⟨_, rfl, configRead_off hr.1⟩
    -- the first reading opens the gate, the others leave it open
    have failed {h' : List (Event agentSig)} {e : Err} (hc : Clear h') :
        Clear h' ∧ ∀ cfg, Except.error e = .ok cfg → ConfigRead s cfg h' :=
      ⟨hc, fun _ heq => by cases heq⟩
    have hopen : ∀ r, Clear (h ++ [⟨.trade (.kvGet "debate.enabled"), r⟩]) := by
      rintro (e | v) <;> (rw [Clear, gate_snoc]; rfl)
    refine wp_await.2 ⟨trivial, ?_⟩
    rintro (e | enabled) h₁ rfl
    · exact failed (hopen _)
    refine wp_await.2 ⟨trivial, ?_⟩
    rintro (e | minPct) h₂ rfl
    · exact failed ((hopen _).snoc rfl)
    refine wp_await.2 ⟨trivial, ?_⟩
    rintro (e | maxRoles) h₃ rfl
    · exact failed (((hopen _).snoc rfl).snoc rfl)
    refine wp_await.2 ⟨trivial, ?_⟩
    rintro (e | failMode) h₄ rfl
    · exact failed ((((hopen _).snoc rfl).snoc rfl).snoc rfl)
    have hc := (((hopen (.ok enabled)).snoc (e := ⟨.trade (.kvGet "debate.min_notional_pct"),
      .ok minPct⟩) rfl).snoc (e := ⟨.trade (.kvGet "debate.max_roles"), .ok maxRoles⟩) rfl).snoc
        (e := ⟨.trade (.kvGet "debate.fail_mode"), .ok failMode⟩) rfl
    refine ⟨hc, fun cfg heq => ?_⟩
    cases heq
    refine ⟨hc, fun _ => ⟨hkv, ?_⟩, ?_⟩
    · rw [gate_snoc]
      rfl
    · dsimp only
      omega
  · exact ⟨_, rfl, configRead_off (Bool.eq_false_iff.2 fun hb => hkv (hi hb).2)⟩

variable (s) in
/-- Behind a gate that lets the call through, the last panel does not block. -/
def Gated : Except Err (Option String) → List (Event agentSig) → Prop
  | .ok none, h => Clear h
  | _, h => Idle s h

theorem panel_size {n : ℕ} {roles : List String} (hn : 1 ≤ n ∧ n ≤ 5) (hsome : ¬ roles.isEmpty) :
    roles.take n ≠ [] ∧ (roles.take n).length ≤ 5 := by
  refine ⟨?_, (List.length_take_le _ _).trans hn.2⟩
  rw [ne_eq, List.take_eq_nil_iff, not_or]
  exact ⟨by omega, by simpa using hsome⟩

theorem wp_runDebateGate (hs : s.debate = true) (hi : Idle s h) :
    (runDebateGate s tc).Wp (histSem agentSig) Debated (Gated s) h := by
  refine wp_bind_of (wp_readDebateConfig hi) ?_ fun e h₁ ⟨_, heq, _⟩ => by cases heq
  rintro cfg h₁ ⟨cfg', heq, hcfg⟩
  cases heq
  refine wp_ite (fun _ => hcfg.clear) fun hon => ?_
  obtain ⟨hkv, hfail⟩ := hcfg.enabled (not_not.1 hon)
  have hidle : ∀ h, Idle s h := fun _ _ => ⟨hs, hkv⟩
  refine wp_perform_bind.2 ⟨trivial, ?_⟩
  rintro (e | roles) h₂ rfl
  · exact hidle _
  have hroles : gate (h₁ ++ [⟨.getActiveDebateRoles, .ok roles⟩]) = gate h₁ := by
    rw [gate_snoc, next_steady rfl]
  refine wp_ite (fun _ => hcfg.clear.snoc rfl) fun hsome => ?_
  refine wp_bind_of (wp_isHighImpact cfg.minPct) ?_ fun e h₃ _ => hidle _
  rintro high h₃ ⟨hgate, hexit⟩
  rw [hroles] at hgate
  have hclear : Clear h₃ := by
    rw [Clear, hgate]
    exact hcfg.clear
  refine wp_ite (fun _ => hclear) fun hhigh => ?_
  refine wp_bind_of (wp_steady (always_perform fun _ => rfl)) (fun _ h₄ hstarted => ?_)
    fun _ _ _ => hidle _
  rw [hgate] at hstarted
  obtain rfl : high = true := by simpa using hhigh
  refine wp_attempt_perform_bind.2 ⟨?_, ?_⟩
  · exact ⟨hexit rfl, panel_size hcfg.roles hsome⟩
  rintro (e | _ | consensus) h₅ rfl
  · refine wp_bind_of (wp_steady (always_perform fun _ => rfl)) (fun _ h₆ hgate₆ => ?_)
      fun _ _ _ => hidle _
    rw [gate_snoc, hstarted] at hgate₆
    cases hblocks : cfg.failBlocks with
    | true => exact hidle _
    | false =>
      rw [hblocks] at hfail
      show (gate h₆).blocked = false
      rw [hgate₆]
      exact hfail
  · show (gate _).blocked = false
    rw [gate_snoc]
    rfl
  · have hsteady : Steady (Prog.forEach consensus.stances fun stance =>
        ask (.audit "debate_stance" [stance])) := always_forEach fun _ => always_perform fun _ => rfl
    refine wp_bind_of (wp_steady hsteady) (fun _ h₆ hgate₆ => ?_) fun _ _ _ => hidle _
    refine wp_bind_of (wp_steady (always_perform fun _ => rfl)) (fun _ h₇ hgate₇ => ?_)
      fun _ _ _ => hidle _
    rw [hgate₆, gate_snoc] at hgate₇
    show Gated s (.ok (if consensus.recommendation = "reject" then _ else none)) h₇
    split_ifs with hreject
    · exact hidle _
    · show (gate h₇).blocked = false
      rw [hgate₇]
      exact decide_eq_false hreject

theorem wp_debateGate (hi : Idle s h) :
    (debateGate s tc).Wp (histSem agentSig) Debated (Gated s) h := by
  refine wp_ite (fun hs => wp_runDebateGate hs hi) fun hs => ?_
  exact Bool.eq_false_iff.2 fun hb => hs (hi hb).1

/-! ## The turn -/

/-- **One call**, whatever has been debated before. -/
theorem wp_dispatchOne (hi : Idle s h) : (dispatchOne s cycleId tc acc).Wp (histSem agentSig) Debated
    (fun _ => Idle s) h := by
  refine wp_attempt_bind.2 (wp_post (fun gate h₁ hgate => ?_) (wp_debateGate hi))
  have hrest {p : Agent Collected} (hp : Undebated p) (hc : Clear h₁) :
      p.Wp (histSem agentSig) Debated (fun _ => Idle s) h₁ :=
    wp_post (fun _ _ hc => Clear.idle hc) (wp_undebated hp hc)
  have hfailed {acc : Collected} (e : Err) : Undebated (dispatchFailed tc acc e) :=
    undebated_of_ordinary (ordinary_dispatchFailed e)
  rcases gate with e | _ | reason
  · exact wp_ordinary (ordinary_dispatchFailed e) hgate
  · refine wp_ite (fun _ => hrest ?_ hgate) fun _ => hrest ?_ hgate
    · refine always_bind (always_attempt undebated_dispatchKernelTool) fun r => ?_
      cases r with
      | ok acc => exact always_ret _
      | error e => exact hfailed e
    · refine always_bind (always_attempt (always_perform fun _ => rfl)) fun r => ?_
      cases r with
      | error e => exact hfailed e
      | ok reply => exact undebated_of_ordinary (ordinary_recordSignalAndIntent reply)
  · exact hgate

theorem wp_dispatchAll (calls : List ToolCallRequest) (acc : Collected) (hi : Idle s h) :
    (dispatchAll s cycleId calls acc).Wp (histSem agentSig) Debated (fun _ => Idle s) h := by
  induction calls generalizing acc h with
  | nil => exact hi
  | cons tc calls ih =>
    exact wp_bind_of (wp_dispatchOne hi) (fun acc _ hi => ih acc hi) fun _ _ hi => hi

theorem wp_runSingleIteration (tools : List ProviderTool) (turn budget webSearchBudget : ℕ)
    (hi : Idle s h) : (runSingleIteration s cycleId input tools turn budget webSearchBudget).Wp
      (histSem agentSig) Debated (fun _ => Idle s) h := by
  refine wp_ordinary_bind (always_perform fun _ => rfl) hi fun response _ hi => ?_
  refine wp_ordinary_bind (ordinary_validateToolCalls _ _ _ _ _) hi fun calls _ hi => ?_
  refine wp_bind_of (P := fun _ => Idle s) ?_ (fun _ _ hi => ?_) fun _ _ hi => hi
  · refine wp_ite (fun _ => hi) fun _ => ?_
    refine wp_bind_of (wp_dispatchAll _ _ hi) (fun acc _ hi => ?_) fun _ _ hi => hi
    refine wp_ordinary_bind (ordinary_auditIf _ _ _) hi fun _ _ hi => ?_
    refine wp_bind_of (wp_dispatchAll _ _ hi) (fun acc _ hi => ?_) fun _ _ hi => hi
    exact wp_ordinary_bind (ordinary_auditIf _ _ _) hi fun _ _ hi => hi
  · exact wp_ordinary_bind (ordinary_auditTurn _) hi fun _ _ hi => hi

theorem wp_reactLoop (tools : List ProviderTool) (maxTurns maxToolCalls fuel : ℕ)
    (earlier : List Iteration) (last : Iteration) (hi : Idle s h) :
    (reactLoop s cycleId input tools maxTurns maxToolCalls fuel earlier last).Wp
      (histSem agentSig) Debated (fun _ => Idle s) h := by
  induction fuel generalizing earlier last h with
  | zero =>
    rw [reactLoop]
    refine wp_ite (fun _ => hi) fun _ => wp_ordinary_bind (ordinary_auditIf _ _ _) hi fun _ _ hi => ?_
    exact wp_ordinary_bind (ordinary_auditIf _ _ _) hi fun _ _ hi => hi
  | succ fuel ih =>
    rw [reactLoop]
    refine wp_ite (fun _ => hi) fun _ => wp_ordinary_bind (ordinary_auditIf _ _ _) hi fun _ _ hi => ?_
    refine wp_ite (fun _ => hi) fun _ => ?_
    exact wp_bind_of (wp_runSingleIteration _ _ _ _ hi) (fun next _ hi => ih _ next hi)
      fun _ _ hi => hi

/-- **The debate binds the turn**: in every run of a turn, whatever it is answered, nothing is
dispatched behind a panel that rejects, or that fails where failures block, before the gate has been
opened for another call; and a panel has one to five roles, and is asked about no exit. -/
theorem debate_binds (s : Services) (input : GovernedTurnInput) :
    (runGovernedTurn s input).Wp (histSem agentSig) Debated (fun _ _ => True) [] := by
  have hidle : Idle s [] := fun hb => by cases hb
  refine wp_post (fun _ _ _ => trivial) (?_ : Prog.Wp (histSem agentSig) Debated (fun _ => Idle s)
    (runGovernedTurn s input) [])
  refine wp_ordinary_bind ?_ hidle fun cycleId _ hi => ?_
  · cases input.cycleId with
    | some id => exact always_ret _
    | none => exact ordinary_trading _
  refine wp_ordinary_bind (always_perform fun _ => rfl) hi fun read _ hi => ?_
  refine wp_ordinary_bind ?_ hi fun _ _ hi => ?_
  · cases input.source with
    | chat => exact always_ret _
    | _ => exact always_perform fun _ => rfl
  refine wp_ordinary_bind ?_ hi fun maxTurns _ hi => ?_
  · exact always_ite (fun _ => always_bind (ordinary_trading _) fun _ => always_ret _)
      fun _ => always_ret _
  refine wp_ordinary_bind ?_ hi fun maxToolCalls _ hi => ?_
  · exact always_ite (fun _ => always_bind (ordinary_trading _) fun _ => always_ret _)
      fun _ => always_ret _
  refine wp_bind_of (wp_runSingleIteration _ _ _ _ hi) (fun first _ hi => ?_) fun _ _ hi => hi
  refine wp_bind_of (wp_reactLoop _ _ _ _ _ _ hi) (fun result _ hi => ?_) fun _ _ hi => hi
  exact wp_ordinary_bind (ordinary_auditLlmDivergence _) hi fun _ _ hi => hi

end Runs

end NeoTrader.DebateGate

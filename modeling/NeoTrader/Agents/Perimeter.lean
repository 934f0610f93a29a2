import NeoTrader.Agents.TurnReport

/-!
# The tools that a turn may call

The language model may answer anything. Its calls are let through by `resolveDropReason`.

* **`tool_perimeter`**: whatever the language model answers, no call leaves the perimeter, as long
  as no chat asks for a search.
-/

namespace NeoTrader

open Js Await Prog

/-! ## What a run has seen -/

/-- The tools of the plugins, where the event reads them. -/
def providerToolsRead : Event agentSig → Option (List ProviderTool)
  | ⟨.getProviderTools, .ok (tools : List ProviderTool)⟩ => some tools
  | _ => none

/-- The active plugins, where the event reads them. -/
def activeRead : Event agentSig → Option (List HydratedPlugin)
  | ⟨.findActive, .ok (plugins : List HydratedPlugin)⟩ => some plugins
  | _ => none

/-- The calls of an answer: the native ones, or those of its text. -/
def LlmResponse.calls (response : LlmResponse) : List ToolCallRequest :=
  if response.toolCalls.isEmpty then response.textCalls else response.toolCalls

/-- The calls that the language model asks for in an event. -/
def callsAsked : Event agentSig → List ToolCallRequest
  | ⟨.complete _, .ok (response : LlmResponse)⟩ => response.calls
  | _ => []

section History

variable (input : GovernedTurnInput) (h : List (Event agentSig))

def turnTools : List ProviderTool :=
  effectiveTools input.source ((h.findSome? providerToolsRead).getD [])

/-- The plugins that the turn has last seen active. -/
def turnPlugins : List HydratedPlugin :=
  input.activePlugins.getD ((h.reverse.findSome? activeRead).getD [])

/-- **A call that the turn may dispatch.** It names a tool of the turn; its plugin is active, and no
provider where the turn is a virtual one; and only a reflection may call a tool of the kernel other
than the search. -/
structure InPerimeter (pluginId function : String) : Prop where
  named : ∃ t ∈ turnTools input h, t.name = pluginId ++ "__" ++ function
  plugin : pluginId ≠ "kernel" → ∃ p, (turnPlugins input h).find? (fun p => p.id = pluginId) =
    some p ∧ (input.virtualOnly.getD false → p.type ≠ "provider")
  kernel : pluginId = "kernel" → function ≠ "web_search" → input.source = .reflection

/-- **No chat asks for a search.** -/
def Unsearched : Prop :=
  input.source = .chat → ∀ call ∈ h.flatMap callsAsked, ¬ call.isReadOnlyKernelTool

end History

/-- The operations that hand a call to the sandbox or to the kernel, with its plugin and its
function. -/
def AgentOp.dispatch? : AgentOp → Option (String × String)
  | .callPlugin pluginId function _ => some (pluginId, function)
  | .search _ => some ("kernel", "web_search")
  | .kernelTool call => some (call.pluginId, call.function)
  | _ => none

/-! ## The drop rules -/

section Rules

variable {input : GovernedTurnInput} {h : List (Event agentSig)}

theorem mem_kernelTools {source : TurnSource} {tools : List ProviderTool} {t : ProviderTool}
    (hsource : source ≠ .chat) (ht : t ∈ kernelTools source) : t ∈ effectiveTools source tools := by
  cases source with
  | chat => exact absurd rfl hsource
  | _ => exact List.mem_append_right _ ht

theorem search_named {source : TurnSource} {tools : List ProviderTool} (hsource : source ≠ .chat) :
    ∃ t ∈ effectiveTools source tools, t.name = "kernel" ++ "__" ++ "web_search" := by
  refine ⟨⟨"kernel", "kernel__web_search"⟩, mem_kernelTools hsource ?_, rfl⟩
  cases source <;> exact List.mem_cons_self

theorem registry_named {function : String} {tools : List ProviderTool}
    (hf : function ∈ kernelToolRegistry) :
    ∃ t ∈ effectiveTools .reflection tools, t.name = "kernel" ++ "__" ++ function := by
  have hname : ("kernel" ++ "__" : String) = "kernel__" := rfl
  refine ⟨⟨"kernel", "kernel__" ++ function⟩, mem_kernelTools (by decide) ?_, by rw [hname]⟩
  refine List.mem_map_of_mem (f := fun f => (⟨"kernel", "kernel__" ++ f⟩ : ProviderTool)) ?_
  simp only [kernelToolRegistry, List.mem_cons, List.not_mem_nil, or_false] at hf ⊢
  tauto

theorem kept_kernel {call : ToolCallRequest} {plugins : List HydratedPlugin}
    {tools : List ProviderTool} {virtualOnly allowed : Bool} (hid : call.pluginId = "kernel")
    (hkeep : resolveDropReason call plugins tools virtualOnly allowed = none) :
    call.function ∈ kernelToolRegistry ∧ (call.function = "web_search" ∨ allowed) := by
  rw [resolveDropReason, if_pos hid] at hkeep
  split_ifs at hkeep with hreg halways hallow
  · simp only [kernelAlwaysAllowedTools, List.mem_singleton] at halways
    exact ⟨by simpa using hreg, .inl halways⟩
  · exact ⟨by simpa using hreg, .inr hallow⟩

theorem kept_plugin {call : ToolCallRequest} {plugins : List HydratedPlugin}
    {tools : List ProviderTool} {virtualOnly allowed : Bool} (hid : call.pluginId ≠ "kernel")
    (hkeep : resolveDropReason call plugins tools virtualOnly allowed = none) :
    (∃ t ∈ tools, t.name = call.pluginId ++ "__" ++ call.function) ∧
      ∃ p, plugins.find? (fun p => p.id = call.pluginId) = some p ∧
        (virtualOnly → p.type ≠ "provider") := by
  rw [resolveDropReason, if_neg hid] at hkeep
  split_ifs at hkeep with hvirtual hactive hnamed
  rw [List.any_eq_true] at hactive hnamed
  obtain ⟨t, ht, hname⟩ := hnamed
  refine ⟨⟨t, ht, of_decide_eq_true hname⟩, ?_⟩
  cases hfind : plugins.find? fun p => p.id = call.pluginId with
  | none =>
    obtain ⟨p, hp, hpid⟩ := hactive
    exact absurd hpid (List.find?_eq_none.1 hfind p hp)
  | some p =>
    refine ⟨p, rfl, fun hv hprovider => hvirtual ⟨hv, ?_⟩⟩
    rw [hfind]
    simpa using hprovider

/-- **What is let through is in the perimeter**, but for the searches of a chat. -/
theorem inPerimeter_of_kept {call : ToolCallRequest}
    (hkeep : resolveDropReason call (turnPlugins input h) (turnTools input h)
      (input.virtualOnly.getD false) (input.source = .reflection) = none)
    (hchat : input.source = .chat → ¬ call.isReadOnlyKernelTool) :
    InPerimeter input h call.pluginId call.function := by
  by_cases hid : call.pluginId = "kernel"
  · obtain ⟨hreg, hor⟩ := kept_kernel hid hkeep
    refine ⟨?_, fun hne => absurd hid hne, fun _ hne => ?_⟩
    · rw [hid]
      rcases hor with hsearch | hallow
      · have hsource : input.source ≠ .chat := fun hs => hchat hs (by
          simp [ToolCallRequest.isReadOnlyKernelTool, kernelAlwaysAllowedTools, hid, hsearch])
        rw [hsearch]
        exact search_named hsource
      · rw [turnTools, of_decide_eq_true hallow]
        exact registry_named hreg
    · exact of_decide_eq_true (hor.resolve_left hne)
  · obtain ⟨hnamed, hplugin⟩ := kept_plugin hid hkeep
    exact ⟨hnamed, fun _ => hplugin, fun heq => absurd heq hid⟩

end Rules

/-! ## Programs that dispatch nothing -/

/-- The audit events of calls that do not fit the budgets. -/
def capEvents : List String := ["web_search_cycle_cap_reached", "tool_call_cap_reached"]

/-- The operations around the calls of an iteration. -/
def AgentOp.inert : AgentOp → Bool
  | .complete _ | .findActive | .getProviderTools => false
  | .callPlugin _ _ _ | .search _ | .kernelTool _ => false
  | .audit event _ => event ∉ capEvents
  | _ => true

/-- **A program that dispatches nothing**, and reads neither the tools nor the plugins. -/
abbrev Inert {α : Type} (p : Agent α) : Prop :=
  Always (S := agentSig) (fun _ op => AgentOp.inert op) p

section Inert

variable {s : Services} {α : Type}

theorem inert_ask {op : AgentOp} (hop : op.inert) : Inert (ask op) := always_perform fun _ => hop

theorem inert_audit {event : String} (hevent : event ∉ capEvents) (detail : List String) :
    Inert (ask (.audit event detail)) := inert_ask (decide_eq_true hevent)

theorem inert_trading (p : Trade α) : Inert (trading p) :=
  always_embed tradeEmb (q := fun op => AgentOp.inert op) (fun _ => rfl) p

theorem inert_readDebateConfig : Inert (readDebateConfig s) := by
  refine always_ite (fun _ => always_bind (always_attempt ?_) fun r => ?_) fun _ => always_ret _
  · exact always_bind (inert_trading _) fun _ => always_bind (inert_trading _) fun _ =>
      always_bind (inert_trading _) fun _ => always_bind (inert_trading _) fun _ => always_ret _
  · cases r <;> exact always_ret _

theorem inert_isHighImpact (tc : ToolCallRequest) (threshold : ℚ) :
    Inert (isHighImpact s tc threshold) := by
  refine always_ite (fun _ => always_throw _) fun _ => always_ite (fun _ => always_ret _) fun _ => ?_
  refine always_ite (fun _ => always_ret _) fun _ => always_ite (fun _ => always_ret _) fun _ => ?_
  dsimp only
  split
  · exact always_ret _
  refine always_ite (fun _ => always_ret _) fun _ => always_bind (always_attempt ?_) fun r => ?_
  · refine always_bind (inert_trading _) fun last => always_bind (inert_trading _) fun _ => ?_
    exact always_ite (fun _ => always_ret _) fun _ => always_ret _
  · cases r <;> exact always_ret _

theorem inert_runDebateGate (tc : ToolCallRequest) : Inert (runDebateGate s tc) := by
  refine always_bind inert_readDebateConfig fun cfg => always_ite (fun _ => always_ret _) fun _ => ?_
  refine always_bind (inert_ask rfl) fun roles => always_ite (fun _ => always_ret _) fun _ => ?_
  refine always_bind (inert_isHighImpact _ _) fun high => always_ite (fun _ => always_ret _) fun _ => ?_
  refine always_bind (inert_audit (by decide) _) fun _ => ?_
  refine always_bind (always_attempt (inert_ask rfl)) fun outcome => ?_
  rcases outcome with e | _ | consensus
  · exact always_bind (inert_audit (by decide) _) fun _ => always_ret _
  · exact always_ret _
  · refine always_bind (always_forEach fun _ => inert_audit (by decide) _) fun _ => ?_
    exact always_bind (inert_audit (by decide) _) fun _ => always_ret _

theorem inert_debateGate (tc : ToolCallRequest) : Inert (debateGate s tc) :=
  always_ite (fun _ => inert_runDebateGate tc) fun _ => always_ret _

theorem inert_dispatchFailed (tc : ToolCallRequest) (acc : Collected) (e : Err) :
    Inert (dispatchFailed tc acc e) :=
  always_bind (inert_audit (by decide) _) fun _ => always_ret _

theorem inert_recordSignalAndIntent (cycleId : String) (tc : ToolCallRequest)
    (reply : SandboxReply) (acc : Collected) :
    Inert (recordSignalAndIntent s cycleId tc reply acc) := by
  refine always_ite (fun _ => inert_dispatchFailed _ _ _) fun _ => ?_
  split
  · refine always_bind (always_attempt (inert_audit (by decide) _)) fun r => ?_
    cases r with
    | error e => exact inert_dispatchFailed _ _ _
    | ok _ =>
      refine always_ite (fun _ => ?_) fun _ => always_ret _
      exact always_bind (always_attempt (inert_trading _)) fun _ => always_ret _
  · exact always_ret _

theorem inert_keepValid (reason : ToolCallRequest → Option String) (calls : List ToolCallRequest) :
    Inert (keepValid reason calls) := by
  induction calls with
  | nil => exact always_ret _
  | cons call calls ih =>
    rw [keepValid]
    cases reason call with
    | some r => exact always_bind (inert_audit (by decide) _) fun _ => ih
    | none => exact always_bind ih fun _ => always_ret _

theorem inert_auditTurn (source : TurnSource) : Inert (auditTurn source) := by
  cases source with
  | chat | pretest => exact inert_audit (by decide) _
  | cycle | reflection => exact always_ret _

theorem inert_auditIf {event : String} (hevent : event ∉ capEvents) (c : Bool)
    (detail : List String) : Inert (auditIf c event detail) :=
  always_ite (fun _ => inert_audit hevent _) fun _ => always_ret _

theorem inert_resolveMaxTurns : Inert (resolveMaxTurns s) :=
  always_ite (fun _ => always_bind (inert_trading _) fun _ => always_ret _) fun _ => always_ret _

theorem inert_resolveMaxToolCalls : Inert (resolveMaxToolCalls s) :=
  always_ite (fun _ => always_bind (inert_trading _) fun _ => always_ret _) fun _ => always_ret _

theorem inert_readDecisionPrompt (source : TurnSource) : Inert (readDecisionPrompt source) := by
  cases source with
  | chat => exact always_ret _
  | _ => exact inert_ask rfl

theorem inert_auditLlmDivergence (source : TurnSource) : Inert (auditLlmDivergence source) := by
  cases source with
  | cycle | pretest =>
    exact always_bind (always_attempt (inert_audit (by decide) _)) fun _ => always_ret _
  | chat | reflection => exact always_ret _

theorem inert_turnId (cycleId : Option String) : Inert (turnId cycleId) := by
  cases cycleId with
  | some id => exact always_ret _
  | none => exact inert_trading _

end Inert

/-! ## Programs that dispatch given calls -/

/-- The operation reads neither the plugins nor the tools, nor asks the language model. -/
def AgentOp.reads : AgentOp → Bool
  | .complete _ | .findActive | .getProviderTools => true
  | _ => false

/-- The operation dispatches one of the calls, or nothing. -/
def Serves (calls : List ToolCallRequest) (op : AgentOp) : Prop :=
  op.reads = false ∧
    ∀ d, op.dispatch? = some d → ∃ call ∈ calls, d = (call.pluginId, call.function)

section Serves

variable {s : Services} {α : Type} {calls : List ToolCallRequest}

theorem AgentOp.inert.serves {op : AgentOp} (hop : op.inert) : Serves calls op := by
  cases op <;> simp_all [AgentOp.inert, Serves, AgentOp.reads, AgentOp.dispatch?]

theorem serves_of_inert {p : Agent α} (hp : Inert p) : Always (fun _ => Serves calls) p :=
  hp.mono fun _ _ => AgentOp.inert.serves

theorem serves_dispatchOne (cycleId : String) {tc : ToolCallRequest} (htc : tc ∈ calls)
    (acc : Collected) : Always (fun _ => Serves calls) (dispatchOne s cycleId tc acc) := by
  refine always_bind (always_attempt (serves_of_inert (inert_debateGate tc))) fun gate => ?_
  rcases gate with e | _ | reason
  · exact serves_of_inert (inert_dispatchFailed _ _ _)
  · refine always_ite (fun hid => ?_) fun _ => ?_
    · refine always_bind (always_attempt ?_) fun r => ?_
      · refine always_ite (fun hf => ?_) fun _ => always_ite (fun _ => ?_) fun _ => always_ret _
        · refine always_ite (fun _ => always_throw _) fun _ => ?_
          refine always_ite (fun _ => always_ret _) fun _ => ?_
          refine always_ite (fun _ => always_ret _) fun _ => ?_
          refine always_bind (always_perform fun _ => ⟨rfl, fun d hd => ?_⟩) fun _ => ?_
          · exact ⟨tc, htc, by rw [hid, hf]; exact (Option.some.inj hd).symm⟩
          · exact always_bind (serves_of_inert (inert_audit (by decide) _)) fun _ => always_ret _
        · refine always_bind (always_perform fun _ => ⟨rfl, fun d hd => ?_⟩) fun _ => always_ret _
          exact ⟨tc, htc, (Option.some.inj hd).symm⟩
      · cases r with
        | ok acc => exact always_ret _
        | error e => exact serves_of_inert (inert_dispatchFailed _ _ _)
    · refine always_bind (always_attempt (always_perform fun _ => ⟨rfl, fun d hd => ?_⟩)) fun r => ?_
      · exact ⟨tc, htc, (Option.some.inj hd).symm⟩
      · cases r with
        | error e => exact serves_of_inert (inert_dispatchFailed _ _ _)
        | ok reply => exact serves_of_inert (inert_recordSignalAndIntent _ _ _ _)
  · exact always_ret _

theorem serves_dispatchAll (cycleId : String) {some : List ToolCallRequest}
    (hsome : ∀ tc ∈ some, tc ∈ calls) (acc : Collected) :
    Always (fun _ => Serves calls) (dispatchAll s cycleId some acc) := by
  induction some generalizing acc with
  | nil => exact always_ret _
  | cons tc rest ih =>
    refine always_bind (serves_dispatchOne _ (hsome tc List.mem_cons_self) _) fun acc => ?_
    exact ih (fun tc' h => hsome tc' (List.mem_cons_of_mem _ h)) acc

theorem mem_of_mem_readOnlyCalls {tc : ToolCallRequest} {webSearchBudget : ℕ}
    (h : tc ∈ readOnlyCalls calls webSearchBudget) : tc ∈ calls :=
  (List.mem_filter.1 (List.mem_of_mem_take h)).1

theorem mem_of_mem_prioritizedCalls {tc : ToolCallRequest} (h : tc ∈ prioritizedCalls calls) :
    tc ∈ calls := by
  simp only [prioritizedCalls, prioritizeExits, List.mem_append, List.mem_filter] at h
  exact h.elim (fun h => h.1.1) fun h => h.1.1

theorem serves_auditIf (c : Bool) (event : String) (detail : List String) :
    Always (fun _ => Serves calls) (auditIf c event detail) := by
  refine always_ite (fun _ => always_perform fun _ => ⟨rfl, fun d hd => ?_⟩) fun _ => always_ret _
  cases hd

theorem serves_executeToolCalls (cycleId : String) (budget webSearchBudget : ℕ) :
    Always (fun _ => Serves calls)
      (executeToolCalls s cycleId calls budget webSearchBudget) := by
  refine always_ite (fun _ => always_throw _) fun _ => ?_
  refine always_bind (serves_dispatchAll _ (fun _ => mem_of_mem_readOnlyCalls) _) fun acc => ?_
  refine always_bind (serves_auditIf _ _ _) fun _ => ?_
  refine always_bind (serves_dispatchAll _ (fun tc h => ?_) _) fun acc => ?_
  · exact mem_of_mem_prioritizedCalls (List.mem_of_mem_take h)
  · exact always_bind (serves_auditIf _ _ _) fun _ => always_ret _

end Serves

/-! ## Histories that go on -/

section Extends

variable {input : GovernedTurnInput} {h h' : List (Event agentSig)}

theorem Unsearched.of_append (hh : h <+: h') (hun : Unsearched input h') : Unsearched input h :=
  fun hchat call hcall => hun hchat call (by
    obtain ⟨t, rfl⟩ := hh
    rw [List.flatMap_append]
    exact List.mem_append_left _ hcall)

variable (input) in
/-- The history goes on, and neither the tools nor the plugins are read again. -/
structure Extends (h h' : List (Event agentSig)) : Prop where
  past : h <+: h'
  plugins : turnPlugins input h' = turnPlugins input h
  tools : h'.findSome? providerToolsRead = h.findSome? providerToolsRead

theorem Extends.refl (h : List (Event agentSig)) : Extends input h h := ⟨List.prefix_rfl, rfl, rfl⟩

theorem Extends.inPerimeter (hext : Extends input h h') {pluginId function : String}
    (hin : InPerimeter input h pluginId function) : InPerimeter input h' pluginId function := by
  refine ⟨?_, ?_, hin.kernel⟩
  · rw [turnTools, hext.tools]
    exact hin.named
  · rw [hext.plugins]
    exact hin.plugin

theorem Extends.snoc (hext : Extends input h h') {e : Event agentSig}
    (he : AgentOp.reads e.1 = false) : Extends input h (h' ++ [e]) := by
  obtain ⟨op, r⟩ := e
  have hactive : activeRead ⟨op, r⟩ = none := by
    cases op <;> first | rfl | cases he
  have htools : providerToolsRead ⟨op, r⟩ = none := by
    cases op <;> first | rfl | cases he
  refine ⟨hext.past.trans (List.prefix_append _ _), ?_, ?_⟩
  · rw [← hext.plugins, turnPlugins, turnPlugins, List.reverse_append]
    simp [hactive]
  · rw [← hext.tools, List.findSome?_append]
    simp [htools]

variable (input) in
/-- The tools of the turn have been read. -/
def Knows (tools : List ProviderTool) (h : List (Event agentSig)) : Prop :=
  ∃ read, h.findSome? providerToolsRead = some read ∧ effectiveTools input.source read = tools

theorem Knows.turnTools_eq {tools : List ProviderTool} (hk : Knows input tools h) :
    turnTools input h = tools := by
  obtain ⟨read, hread, htools⟩ := hk
  rw [turnTools, hread, ← htools]
  rfl

theorem Knows.of_append {tools : List ProviderTool} (hk : Knows input tools h) (hh : h <+: h') :
    Knows input tools h' := by
  obtain ⟨t, rfl⟩ := hh
  obtain ⟨read, hread, htools⟩ := hk
  refine ⟨read, ?_, htools⟩
  rw [List.findSome?_append, hread]
  rfl

end Extends

/-! ## Every run -/

section Runs

variable {s : Services} {input : GovernedTurnInput} {tools : List ProviderTool} {α : Type}
  {h : List (Event agentSig)}

variable (input) in
/-- What is dispatched is in the perimeter. -/
def Allows (h : List (Event agentSig)) (op : AgentOp) : Prop :=
  Unsearched input h → ∀ d, op.dispatch? = some d → InPerimeter input h d.1 d.2

theorem allows_of_none {op : AgentOp} (hop : op.dispatch? = none) : Allows input h op := by
  intro _ d hd
  rw [hop] at hd
  cases hd

variable (input) in
/-- Each executed call of an iteration was in the perimeter at some time before. -/
def WasAllowed (h : List (Event agentSig)) (i : Iteration) : Prop :=
  ∀ y ∈ i.collected.executed, ∃ h₁, h₁ <+: h ∧ InPerimeter input h₁ y.1.pluginId y.1.function

theorem WasAllowed.of_append {h' : List (Event agentSig)} {i : Iteration} (hc : WasAllowed input h i)
    (hh : h <+: h') : WasAllowed input h' i := by
  intro y hy
  obtain ⟨h₁, hpast, hin⟩ := hc y hy
  exact ⟨h₁, hpast.trans hh, hin⟩

theorem wp_serves {calls : List ToolCallRequest} {p : Agent α}
    (hp : Always (fun _ => Serves calls) p)
    (hcalls : Unsearched input h → ∀ c ∈ calls, InPerimeter input h c.pluginId c.function) :
    p.Wp (histSem agentSig) (Allows input) (fun _ h' => Extends input h h') h := by
  refine wp_mono (fun h' op hpre hun d hd => ?_) (fun _ _ hpost => hpost)
    (hp.carries (I := Extends input h) (fun h' e hext hop => hext.snoc hop.1) (Extends.refl h))
  obtain ⟨call, hcall, rfl⟩ := hpre.1.2 d hd
  exact hpre.2.inPerimeter (hcalls (hun.of_append hpre.2.past) call hcall)

theorem wp_inert {p : Agent α} (hp : Inert p) :
    p.Wp (histSem agentSig) (Allows input) (fun _ h' => Extends input h h') h :=
  wp_serves (serves_of_inert hp) fun _ _ hc => absurd hc List.not_mem_nil

theorem wp_inert_bind {β : Type} {Q : β → List (Event agentSig) → Prop} {p : Agent α}
    {f : α → Agent β} (hp : Inert p) (hf : ∀ a h', Extends input h h' →
      (f a).Wp (histSem agentSig) (Allows input) (onOk Q) h') :
    (p >>= f).Wp (histSem agentSig) (Allows input) (onOk Q) h :=
  wp_bind_of (wp_inert hp) hf fun _ _ _ => trivial

theorem returns_keepValid (reason : ToolCallRequest → Option String)
    (calls : List ToolCallRequest) : (keepValid reason calls).Returns fun valid =>
      ∀ c ∈ valid, c ∈ calls ∧ reason c = none := by
  induction calls with
  | nil => exact fun c hc => absurd hc List.not_mem_nil
  | cons call calls ih =>
    rw [keepValid]
    cases hreason : reason call with
    | some r =>
      refine returns_bind fun _ => ih.mono fun valid hvalid c hc => ?_
      exact ⟨List.mem_cons_of_mem _ (hvalid c hc).1, (hvalid c hc).2⟩
    | none =>
      refine ih.bind fun valid hvalid c hc => ?_
      rcases List.mem_cons.1 hc with rfl | hc
      · exact ⟨List.mem_cons_self, hreason⟩
      · exact ⟨List.mem_cons_of_mem _ (hvalid c hc).1, (hvalid c hc).2⟩

theorem wp_activePluginsOr : (activePluginsOr input.activePlugins).Wp (histSem agentSig)
    (Allows input)
    (fun r h' => h <+: h' ∧ ∀ plugins, r = .ok plugins → plugins = turnPlugins input h') h := by
  cases hpre : input.activePlugins with
  | some plugins =>
    refine ⟨List.prefix_rfl, fun plugins' heq => ?_⟩
    rw [turnPlugins, hpre]
    exact (Except.ok.inj heq).symm
  | none =>
    refine wp_await.2 ⟨allows_of_none rfl, ?_⟩
    rintro r h' rfl
    refine wp_ofOutcome.2 ⟨List.prefix_append _ _, ?_⟩
    rintro plugins rfl
    rw [turnPlugins, hpre, List.reverse_append]
    rfl

/-- **The calls that are let through** pass the drop rules over the plugins last seen. -/
theorem wp_validateToolCalls (calls : List ToolCallRequest) :
    (validateToolCalls calls tools input.activePlugins (input.virtualOnly.getD false)
      input.source).Wp (histSem agentSig) (Allows input) (onOk fun valid h' => h <+: h' ∧
        ∀ c ∈ valid, c ∈ calls ∧ resolveDropReason c (turnPlugins input h') tools
          (input.virtualOnly.getD false) (input.source = .reflection) = none) h := by
  cases calls with
  | nil => exact ⟨List.prefix_rfl, fun c hc => absurd hc List.not_mem_nil⟩
  | cons call calls =>
    refine wp_attempt_bind.2 ?_
    refine wp_post (Q := fun r h' => h <+: h' ∧ ∀ valid, r = .ok valid →
      ∀ c ∈ valid, c ∈ call :: calls ∧ resolveDropReason c (turnPlugins input h') tools
        (input.virtualOnly.getD false) (input.source = .reflection) = none) ?_ ?_
    · rintro (e | valid) h' ⟨hpast, hvalid⟩
      · refine wp_inert_bind (inert_audit (by decide) _) fun _ h'' hext => ?_
        exact ⟨hpast.trans hext.past, fun c hc => absurd hc List.not_mem_nil⟩
      · exact ⟨hpast, hvalid valid rfl⟩
    · refine wp_bind_of wp_activePluginsOr ?_ fun e h' hpost => ⟨hpost.1, fun _ heq => by cases heq⟩
      rintro plugins h₁ ⟨hpast, hplugins⟩
      have hreturns := (returns_keepValid (fun c => resolveDropReason c plugins tools
        (input.virtualOnly.getD false) (input.source = .reflection)) (call :: calls)).wp
          (M := histSem agentSig) h₁
      refine wp_mono (fun _ _ hpre => hpre.1) ?_ (wp_and (wp_inert (inert_keepValid _ _)) hreturns)
      rintro r h₂ ⟨hext, hvalid⟩
      refine ⟨hpast.trans hext.past, ?_⟩
      rintro valid rfl c hc
      rw [hext.plugins, ← hplugins plugins rfl]
      exact hvalid c hc

theorem wp_executeToolCalls (cycleId : String) {calls : List ToolCallRequest}
    (budget webSearchBudget : ℕ)
    (hcalls : Unsearched input h → ∀ c ∈ calls, InPerimeter input h c.pluginId c.function) :
    (executeToolCalls s cycleId calls budget webSearchBudget).Wp (histSem agentSig)
      (Allows input) (onOk fun acc h' => h <+: h' ∧ ∀ y ∈ acc.executed, y.1 ∈ calls) h := by
  have hreturns := Returns.wp (M := histSem agentSig)
    (p := executeToolCalls s cycleId calls budget webSearchBudget) (returns_executeToolCalls _ _ _) h
  refine wp_mono (fun _ _ hpre => hpre.1) ?_ (wp_and (wp_serves
    (serves_executeToolCalls _ _ _) hcalls) hreturns)
  rintro (e | acc) h' ⟨hext, hexec⟩
  · trivial
  refine ⟨hext.past, fun y hy => ?_⟩
  have hmem : y.1 ∈ acc.executed.map Prod.fst := List.mem_map_of_mem hy
  rw [show acc.executed.map Prod.fst = _ from hexec, List.mem_append] at hmem
  exact hmem.elim mem_of_mem_readOnlyCalls fun hm =>
    mem_of_mem_prioritizedCalls (List.mem_of_mem_take hm)

/-- **One iteration** stays in the perimeter. -/
theorem wp_runSingleIteration (cycleId : String) (turn toolCallBudget webSearchBudget : ℕ)
    (hknows : Knows input tools h) :
    (runSingleIteration s cycleId input tools turn toolCallBudget webSearchBudget).Wp
      (histSem agentSig) (Allows input)
      (onOk fun i h' => h <+: h' ∧ (Unsearched input h' → WasAllowed input h' i)) h := by
  refine wp_perform_bind.2 ⟨allows_of_none rfl, ?_⟩
  rintro (e | response) h₁ rfl
  · trivial
  refine wp_bind_onOk (wp_validateToolCalls response.calls) ?_
  rintro valid h₂ ⟨hpast₂, hvalid⟩
  have hpast : h <+: h₂ := (List.prefix_append _ _).trans hpast₂
  have hcalls : Unsearched input h₂ →
      ∀ c ∈ valid, InPerimeter input h₂ c.pluginId c.function := by
    intro hun c hc
    obtain ⟨hasked, hkeep⟩ := hvalid c hc
    rw [← (hknows.of_append hpast).turnTools_eq] at hkeep
    refine inPerimeter_of_kept hkeep fun hchat => hun.of_append hpast₂ hchat c ?_
    rw [List.flatMap_append, List.mem_append]
    exact .inr (by simpa [callsAsked] using hasked)
  refine wp_bind_onOk (wp_executeToolCalls cycleId toolCallBudget webSearchBudget hcalls) ?_
  rintro collected h₃ ⟨hpast₃, hexec⟩
  refine wp_inert_bind (inert_auditTurn _) fun _ h₄ hext => ?_
  refine ⟨hpast.trans (hpast₃.trans hext.past), fun hun y hy => ?_⟩
  have hpast₄ : h₂ <+: h₄ := hpast₃.trans hext.past
  exact ⟨h₂, hpast₄, hcalls (hun.of_append hpast₄) y.1 (hexec y hy)⟩

/-- **The loop** stays in the perimeter. -/
theorem wp_reactLoop (cycleId : String) (maxTurns maxToolCalls fuel : ℕ) {earlier : List Iteration}
    {last : Iteration} (hknows : Knows input tools h)
    (hbefore : Unsearched input h → ∀ i ∈ earlier ++ [last], WasAllowed input h i) :
    (reactLoop s cycleId input tools maxTurns maxToolCalls fuel earlier last).Wp
      (histSem agentSig) (Allows input)
      (onOk fun r h' => h <+: h' ∧ (Unsearched input h' → ∀ i ∈ r.iterations, WasAllowed input h' i))
      h := by
  induction fuel generalizing earlier last h with
  | zero =>
    rw [reactLoop]
    refine wp_ite (fun _ => ⟨List.prefix_rfl, hbefore⟩) fun _ => ?_
    refine wp_inert_bind (inert_auditIf (by decide) _ _) fun _ h₁ hext₁ => ?_
    refine wp_inert_bind (inert_auditIf (by decide) _ _) fun _ h₂ hext₂ => ?_
    have hpast := hext₁.past.trans hext₂.past
    exact ⟨hpast, fun hun i hi => (hbefore (hun.of_append hpast) i hi).of_append hpast⟩
  | succ fuel ih =>
    rw [reactLoop]
    refine wp_ite (fun _ => ⟨List.prefix_rfl, hbefore⟩) fun _ => ?_
    refine wp_inert_bind (inert_auditIf (by decide) _ _) fun _ h₁ hext => ?_
    have hbefore₁ : Unsearched input h₁ → ∀ i ∈ earlier ++ [last], WasAllowed input h₁ i :=
      fun hun i hi => (hbefore (hun.of_append hext.past) i hi).of_append hext.past
    refine wp_ite (fun _ => ⟨hext.past, hbefore₁⟩) fun _ => ?_
    refine wp_bind_onOk (wp_runSingleIteration cycleId _ _ _ (hknows.of_append hext.past)) ?_
    rintro next h₂ ⟨hpast₂, hnext⟩
    have hpast := hext.past.trans hpast₂
    refine wp_post ?_ (ih (hknows.of_append hpast) fun hun i hi => ?_)
    · rintro (e | r) h₃ hr
      · trivial
      · exact ⟨hpast.trans hr.1, hr.2⟩
    · rcases List.mem_append.1 hi with hi | hi
      · exact (hbefore₁ (hun.of_append hpast₂) i hi).of_append hpast₂
      · rw [List.mem_singleton.1 hi]
        exact hnext hun

end Runs

/-- **The perimeter of the tool calls.** Whatever the language model, the plugins and the services
answer: as long as no chat is asked for a search, each call that reaches the sandbox or the kernel
is in the perimeter when it does, on every iteration, and each call that a turn has executed was. -/
theorem tool_perimeter (s : Services) (input : GovernedTurnInput) :
    (runGovernedTurn s input).Wp (histSem agentSig)
      (fun h op => Unsearched input h →
        ∀ d, AgentOp.dispatch? op = some d → InPerimeter input h d.1 d.2)
      (onOk fun r h => Unsearched input h → ∀ i ∈ r.iterations, WasAllowed input h i) [] := by
  refine wp_inert_bind (inert_turnId _) fun cycleId h₁ hext₁ => ?_
  refine wp_perform_bind.2 ⟨allows_of_none rfl, ?_⟩
  rintro (e | read) h₂ rfl
  · trivial
  have hknows : Knows input (effectiveTools input.source read)
      (h₁ ++ [⟨.getProviderTools, .ok read⟩]) := by
    refine ⟨read, ?_, rfl⟩
    rw [List.findSome?_append, hext₁.tools]
    rfl
  refine wp_inert_bind (inert_readDecisionPrompt _) fun _ h₃ hext₃ => ?_
  refine wp_inert_bind inert_resolveMaxTurns fun maxTurns h₄ hext₄ => ?_
  refine wp_inert_bind inert_resolveMaxToolCalls fun maxToolCalls h₅ hext₅ => ?_
  have hknows₅ := hknows.of_append (hext₃.past.trans (hext₄.past.trans hext₅.past))
  refine wp_bind_onOk (wp_runSingleIteration cycleId _ _ _ hknows₅) ?_
  rintro first h₆ ⟨hpast₆, hfirst⟩
  have hbefore : Unsearched input h₆ → ∀ i ∈ [] ++ [first], WasAllowed input h₆ i := by
    intro hun i hi
    rw [List.mem_singleton.1 hi]
    exact hfirst hun
  refine wp_bind_onOk (wp_reactLoop cycleId _ _ _ (hknows₅.of_append hpast₆) hbefore) ?_
  rintro r h₇ ⟨-, hr⟩
  refine wp_inert_bind (inert_auditLlmDivergence _) fun _ h₈ hext₈ => ?_
  exact fun hun i hi => (hr (hun.of_append hext₈.past) i hi).of_append hext₈.past

/-! ## A chat that searches -/

/-- What is around a chat: a language model that asks for a search, and a web that answers. -/
def searchingChat : (op : AgentOp) → agentSig.Outcome op
  | .getProviderTools => .ok []
  | .findActive => .ok []
  | .complete _ =>
    .ok { text := "", toolCalls := [⟨"kernel", "web_search", .obj [("query", .str "SPY")]⟩] }
  | .search _ => .ok { ok := true, text := "" }
  | .audit _ _ => .ok ()
  | _ => .error (err [])

def searchedChat : Option (Except Err GovernedTurnResult × List (Event agentSig)) :=
  (runGovernedTurn { kv := false, debate := false } { source := .chat, cycleId := some "c1" }).execute
    (fun op h => (searchingChat op, h ++ [⟨op, searchingChat op⟩])) (fun _ _ => true) []

theorem searchedChat_executed :
    (searchedChat.map fun y => y.1.toOption.map fun r => r.iterations.map fun i =>
      i.collected.executed.map fun x => (x.1.pluginId, x.1.function)) =
      some (some [[("kernel", "web_search")], [("kernel", "web_search")]]) := by
  decide

/-- **A chat that searches the web**, although it has no tools. -/
theorem chat_searches : ¬ ∀ (s : Services) (input : GovernedTurnInput),
    (runGovernedTurn s input).Wp (histSem agentSig)
      (fun h op => ∀ d, AgentOp.dispatch? op = some d → InPerimeter input h d.1 d.2)
      (onOk fun r h => ∀ i ∈ r.iterations, WasAllowed input h i) [] := by
  intro hall
  obtain ⟨⟨x, h⟩, hrun, hcalls⟩ := Option.map_eq_some_iff.1 searchedChat_executed
  obtain ⟨r, hr, hexecuted⟩ := Option.map_eq_some_iff.1 hcalls
  obtain rfl : x = .ok r := by
    cases x with
    | ok r' => rw [show r' = r from Option.some.inj hr]
    | error e => cases hr
  have hrel : ∀ (op : AgentOp) (h : List (Event agentSig)), (true = true) →
      (histSem agentSig).rel op h (searchingChat op) (h ++ [⟨op, searchingChat op⟩]) :=
    fun _ _ _ => rfl
  have hexec := exec_of_execute hrel hrun
  have hallowed : ∀ i ∈ r.iterations, WasAllowed _ h i := (hall _ _).exec hexec
  cases hiter : r.iterations with
  | nil => simp [hiter] at hexecuted
  | cons i rest =>
    cases hcoll : i.collected.executed with
    | nil => simp [hiter, hcoll] at hexecuted
    | cons y others =>
      have hi : i ∈ r.iterations := hiter ▸ List.mem_cons_self
      obtain ⟨h₁, -, hin⟩ := hallowed i hi y (hcoll ▸ List.mem_cons_self)
      obtain ⟨t, ht, -⟩ := hin.named
      exact absurd ht List.not_mem_nil

end NeoTrader

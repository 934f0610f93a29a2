import Mathlib.Order.Lattice
import NeoTrader.Agents.Perimeter

/-!
# The budgets of a turn

A turn asks the language model a few times and dispatches a few of its calls.

* `Tally`, `tally`: how often a run has asked the language model, and what it has dispatched;
  `limits`: how much a turn may, from the settings that it has read;
* `Accounts`: a turn that returns is within its budgets and has audited what it has dropped, and a
  turn that throws has been refused an operation; `Readable`: each trade decision has arguments;
* **`call_budget`**: no run exceeds its limits, and a turn accounts for its calls as long as each
  trade decision has arguments.
-/

namespace NeoTrader

open Js Await Prog

/-! ## What is spent -/

/-- **What a run has spent.** -/
structure Tally where
  turns : ℕ := 0
  calls : ℕ := 0
  searches : ℕ := 0
  searchesHere : ℕ := 0

namespace Tally

instance : Preorder Tally :=
  Preorder.lift fun t => (t.turns, t.calls, t.searches, t.searchesHere)

theorem le_def {t t' : Tally} : t ≤ t' ↔ t.turns ≤ t'.turns ∧ t.calls ≤ t'.calls ∧
    t.searches ≤ t'.searches ∧ t.searchesHere ≤ t'.searchesHere := Iff.rfl

/-- An operation is awaited. -/
def count (t : Tally) : AgentOp → Tally
  | .complete _ => { t with turns := t.turns + 1, searchesHere := 0 }
  | .callPlugin _ _ _ | .kernelTool _ => { t with calls := t.calls + 1 }
  | .search _ =>
    { t with searches := t.searches + 1, searchesHere := t.searchesHere + 1 }
  | _ => t

/-- A call is dispatched. -/
def spend (t : Tally) (tc : ToolCallRequest) : Tally :=
  if tc.isReadOnlyKernelTool then
    { t with searches := t.searches + 1, searchesHere := t.searchesHere + 1 }
  else { t with calls := t.calls + 1 }

/-- Calls are dispatched. -/
def spendAll (t : Tally) (calls : List ToolCallRequest) : Tally := calls.foldl spend t

variable {t t' : Tally}

theorem le_spend (t : Tally) (tc : ToolCallRequest) : t ≤ t.spend tc := by
  rw [le_def, spend]
  split <;> simp

theorem spend_mono (ht : t ≤ t') (tc : ToolCallRequest) : t.spend tc ≤ t'.spend tc := by
  rw [le_def] at ht ⊢
  simp only [spend]
  split <;> simp only <;> omega

theorem le_spendAll (t : Tally) (calls : List ToolCallRequest) : t ≤ t.spendAll calls := by
  induction calls generalizing t with
  | nil => exact le_rfl
  | cons tc calls ih => exact (le_spend t tc).trans (ih (t.spend tc))

theorem spendAll_mono (ht : t ≤ t') (calls : List ToolCallRequest) :
    t.spendAll calls ≤ t'.spendAll calls := by
  induction calls generalizing t t' with
  | nil => exact ht
  | cons tc calls ih => exact ih (spend_mono ht tc)

theorem spendAll_searches {calls : List ToolCallRequest}
    (hcalls : ∀ tc ∈ calls, tc.isReadOnlyKernelTool) : t.spendAll calls =
      { t with
        searches := t.searches + calls.length
        searchesHere := t.searchesHere + calls.length } := by
  induction calls generalizing t with
  | nil => rfl
  | cons tc calls ih =>
    rw [spendAll, List.foldl_cons, ← spendAll, ih fun c hc => hcalls c (List.mem_cons_of_mem _ hc),
      spend, if_pos (hcalls tc List.mem_cons_self), List.length_cons]
    simp only [Nat.add_assoc, Nat.add_comm 1]

theorem spendAll_calls {calls : List ToolCallRequest}
    (hcalls : ∀ tc ∈ calls, ¬ tc.isReadOnlyKernelTool) : t.spendAll calls =
      { t with calls := t.calls + calls.length } := by
  induction calls generalizing t with
  | nil => rfl
  | cons tc calls ih =>
    rw [spendAll, List.foldl_cons, ← spendAll, ih fun c hc => hcalls c (List.mem_cons_of_mem _ hc),
      spend, if_neg (hcalls tc List.mem_cons_self), List.length_cons]
    simp only [Nat.add_assoc, Nat.add_comm 1]

end Tally

/-- **What the run has spent so far.** -/
def tally (h : List (Event agentSig)) : Tally := h.foldl (fun t e => t.count e.1) {}

theorem tally_snoc (h : List (Event agentSig)) (e : Event agentSig) :
    tally (h ++ [e]) = (tally h).count e.1 := by
  rw [tally, List.foldl_append]
  rfl

def settingRead (key : String) : Event agentSig → Option (Option String)
  | ⟨.trade (.kvGet k), .ok (value : Option String)⟩ => if k = key then some value else none
  | _ => none

/-- The setting that the run has read. -/
def settingOf (s : Services) (key : String) (h : List (Event agentSig)) : Option String :=
  if s.kv then (h.findSome? (settingRead key)).join else none

/-- How often the turn may ask the language model. -/
def maxTurnsOf (s : Services) (h : List (Event agentSig)) : ℕ :=
  loopSetting (settingOf s "react.max_turns" h) reactMaxTurnsDefault 10

/-- How many calls the turn may dispatch. -/
def maxToolCallsOf (s : Services) (h : List (Event agentSig)) : ℕ :=
  loopSetting (settingOf s "react.max_tool_calls" h) reactMaxToolCallsDefault 20

/-- What a turn may spend. -/
def limits (maxTurns maxToolCalls : ℕ) : Tally :=
  ⟨maxTurns, maxToolCalls, maxWebSearchCallsPerCycle, maxWebSearchCallsPerIteration⟩

/-! ## Dropped calls -/

/-- An audit event of dropped calls. -/
def capAudit? : Event agentSig → Option (String × List String)
  | ⟨.audit event detail, .ok _⟩ => if event ∈ capEvents then some (event, detail) else none
  | _ => none

/-- The audit events of dropped calls. -/
def capAudits (h : List (Event agentSig)) : List (String × List String) := h.filterMap capAudit?

namespace Iteration

variable (i : Iteration)

/-- The calls that the budgets do not let through. -/
def dropped : List ToolCallRequest :=
  droppedSearches i.toolCalls i.webSearchBudget ++ droppedCalls i.toolCalls i.toolCallBudget

/-- What is audited of them: how many searches and how many other calls are dropped. -/
def capAudits : List (String × List String) :=
  let searches := droppedSearches i.toolCalls i.webSearchBudget
  let calls := droppedCalls i.toolCalls i.toolCallBudget
  (if 0 < searches.length then [("web_search_cycle_cap_reached",
    capDetail i.webSearchBudget i.webSearchExecutedCount searches.length)] else []) ++
  if 0 < calls.length then [("tool_call_cap_reached",
    capDetail i.toolCallBudget i.executedCount calls.length ++
      calls.map fun tc => tc.pluginId ++ "." ++ tc.function)] else []

def executed : List ToolCallRequest := i.collected.executed.map Prod.fst

/-- **Each validated call is executed once or dropped**: a few searches, and exits before the other
calls. -/
structure Settled : Prop where
  searches : (i.executed.filter ToolCallRequest.isReadOnlyKernelTool).length ≤
    maxWebSearchCallsPerIteration
  once : (i.executed ++ i.dropped).Perm i.toolCalls
  exits : (∃ tc ∈ i.dropped, tc.isExit) →
    ∀ tc ∈ i.executed, ¬ tc.isReadOnlyKernelTool → tc.isExit

end Iteration

/-! ## Searches and other calls -/

theorem mem_readOnlyCalls {calls : List ToolCallRequest} {budget : ℕ} :
    ∀ tc ∈ readOnlyCalls calls budget, tc.isReadOnlyKernelTool :=
  fun _ h => (List.mem_filter.1 (List.mem_of_mem_take h)).2

theorem mem_prioritizedCalls {calls : List ToolCallRequest} :
    ∀ tc ∈ prioritizedCalls calls, ¬ tc.isReadOnlyKernelTool := by
  intro tc h
  simp only [prioritizedCalls, prioritizeExits, List.mem_append, List.mem_filter] at h
  simpa using h.elim (fun h => h.1.2) fun h => h.1.2

theorem mem_take_prioritizedCalls {calls : List ToolCallRequest} {budget : ℕ} :
    ∀ tc ∈ (prioritizedCalls calls).take budget, ¬ tc.isReadOnlyKernelTool :=
  fun tc h => mem_prioritizedCalls tc (List.mem_of_mem_take h)

theorem prioritizedCalls_perm (calls : List ToolCallRequest) :
    (prioritizedCalls calls).Perm (calls.filter fun tc => ¬ tc.isReadOnlyKernelTool) := by
  have hperm := List.filter_append_perm ToolCallRequest.isExit
    (calls.filter fun tc => ¬ tc.isReadOnlyKernelTool)
  simpa [prioritizedCalls, prioritizeExits] using hperm

theorem not_isExit_of_readOnly {tc : ToolCallRequest} (h : tc.isReadOnlyKernelTool) :
    tc.isExit = false := by
  have hid : tc.pluginId = "kernel" := by simp_all [ToolCallRequest.isReadOnlyKernelTool]
  simp [ToolCallRequest.isExit, ToolCallRequest.isEmitTradeIntent, hid]

namespace Iteration

variable {i : Iteration}

theorem executionList_perm (i : Iteration) : (i.executionList ++ i.dropped).Perm i.toolCalls := by
  have hsearches : readOnlyCalls i.toolCalls i.webSearchBudget ++
      droppedSearches i.toolCalls i.webSearchBudget =
        i.toolCalls.filter ToolCallRequest.isReadOnlyKernelTool := List.take_append_drop _ _
  have hcalls : (prioritizedCalls i.toolCalls).take i.toolCallBudget ++
      droppedCalls i.toolCalls i.toolCallBudget = prioritizedCalls i.toolCalls :=
    List.take_append_drop _ _
  have hsplit := List.filter_append_perm ToolCallRequest.isReadOnlyKernelTool i.toolCalls
  have hswap : (i.executionList ++ i.dropped).Perm
      ((readOnlyCalls i.toolCalls i.webSearchBudget ++
        droppedSearches i.toolCalls i.webSearchBudget) ++
      ((prioritizedCalls i.toolCalls).take i.toolCallBudget ++
        droppedCalls i.toolCalls i.toolCallBudget)) := by
    rw [executionList, dropped, List.append_assoc, List.append_assoc]
    exact (List.perm_append_comm_assoc _ _ _).append_left _
  rw [hsearches, hcalls] at hswap
  refine hswap.trans (((prioritizedCalls_perm i.toolCalls).append_left _).trans ?_)
  simpa using hsplit

theorem searches_le (i : Iteration) : i.webSearchExecutedCount ≤ maxWebSearchCallsPerIteration :=
  (List.length_take_le _ _).trans (min_le_left _ _)

theorem webSearchExecutedCount_le (i : Iteration) : i.webSearchExecutedCount ≤ i.webSearchBudget :=
  (List.length_take_le _ _).trans (min_le_right _ _)

theorem executedCount_le (i : Iteration) : i.executedCount ≤ i.toolCallBudget :=
  List.length_take_le _ _

theorem filter_executionList (i : Iteration) :
    i.executionList.filter ToolCallRequest.isReadOnlyKernelTool =
      readOnlyCalls i.toolCalls i.webSearchBudget := by
  rw [executionList, List.filter_append, List.filter_eq_self.2 mem_readOnlyCalls,
    List.filter_eq_nil_iff.2 mem_take_prioritizedCalls, List.append_nil]

theorem filter_not_executionList (i : Iteration) :
    (i.executionList.filter fun tc => ¬ tc.isReadOnlyKernelTool) =
      (prioritizedCalls i.toolCalls).take i.toolCallBudget := by
  have hnone : ((readOnlyCalls i.toolCalls i.webSearchBudget).filter
      fun tc => ¬ tc.isReadOnlyKernelTool) = [] :=
    List.filter_eq_nil_iff.2 fun tc htc => by simpa using mem_readOnlyCalls tc htc
  have hall : (((prioritizedCalls i.toolCalls).take i.toolCallBudget).filter
      fun tc => ¬ tc.isReadOnlyKernelTool) = _ :=
    List.filter_eq_self.2 fun tc htc => by simpa using mem_take_prioritizedCalls tc htc
  rw [executionList, List.filter_append, hnone, hall, List.nil_append]

/-- **An exit is dropped after every other call.** -/
theorem exits_first (i : Iteration) (hdropped : ∃ tc ∈ i.dropped, tc.isExit) :
    ∀ tc ∈ i.executionList, ¬ tc.isReadOnlyKernelTool → tc.isExit := by
  obtain ⟨exit, hexit, hisExit⟩ := hdropped
  rcases List.mem_append.1 hexit with hsearch | hcall
  · have hro := (List.mem_filter.1 (List.mem_of_mem_drop hsearch)).2
    rw [not_isExit_of_readOnly hro] at hisExit
    cases hisExit
  intro tc htc hro
  rcases List.mem_append.1 htc with htc | htc
  · exact absurd (mem_readOnlyCalls tc htc) hro
  -- an exit is beyond the budget, so that the exits fill it
  have hfull : i.toolCallBudget ≤ ((i.toolCalls.filter fun tc =>
      ¬ tc.isReadOnlyKernelTool).filter ToolCallRequest.isExit).length := by
    by_contra hlt
    rw [droppedCalls, prioritizedCalls, prioritizeExits, List.drop_append,
      List.drop_eq_nil_of_le (by omega), List.nil_append] at hcall
    have hnot := (List.mem_filter.1 (List.mem_of_mem_drop hcall)).2
    rw [hisExit] at hnot
    cases hnot
  rw [prioritizedCalls, prioritizeExits, List.take_append_of_le_length hfull] at htc
  exact (List.mem_filter.1 (List.mem_of_mem_take htc)).2

theorem recorded.settled (h : i.recorded) : i.Settled := by
  have hexecuted : i.executed = i.executionList := h
  refine ⟨?_, ?_, ?_⟩
  · rw [hexecuted, filter_executionList]
    exact i.searches_le
  · rw [hexecuted]
    exact executionList_perm i
  · rw [hexecuted]
    exact exits_first i

end Iteration

/-! ## The accounts of a turn -/

section Accounts

variable (s : Services) (input : GovernedTurnInput)

/-- The turn has seen these plugins active. -/
def SeenActive (h : List (Event agentSig)) (plugins : List HydratedPlugin) : Prop :=
  input.activePlugins = some plugins ∨
    input.activePlugins = none ∧ (⟨.findActive, .ok plugins⟩ : Event agentSig) ∈ h

/-- **Each trade decision that is let through has arguments.** -/
def Readable (h : List (Event agentSig)) : Prop :=
  ∀ call ∈ h.flatMap callsAsked, call.exitUnreadable → ∀ plugins, SeenActive input h plugins →
    resolveDropReason call plugins (turnTools input h) (input.virtualOnly.getD false)
      (input.source = .reflection) ≠ none

/-- The operation does not exceed what the turn may spend. -/
def WithinBudget (h : List (Event agentSig)) (op : AgentOp) : Prop :=
  (tally h).count op ≤ limits (maxTurnsOf s h) (maxToolCallsOf s h)

/-- **A turn within its budgets.** Each validated call has been executed once or dropped, and the
dropped ones are counted in the audit. -/
structure Budgeted (r : GovernedTurnResult) (h : List (Event agentSig)) : Prop where
  turns : r.iterations.length ≤ maxTurnsOf s h
  calls : ((r.iterations.flatMap Iteration.executed).filter fun tc =>
    ¬ tc.isReadOnlyKernelTool).length ≤ maxToolCallsOf s h
  searches : ((r.iterations.flatMap Iteration.executed).filter
    ToolCallRequest.isReadOnlyKernelTool).length ≤ maxWebSearchCallsPerCycle
  settled : ∀ i ∈ r.iterations, i.Settled
  counted : capAudits h = r.iterations.flatMap Iteration.capAudits

/-- **What a turn comes to**: it is within its budgets, or an operation has been rejected. -/
def Accounts : Except Err GovernedTurnResult → List (Event agentSig) → Prop
  | .ok r, h => Budgeted s r h
  | .error e, h => Rejected (S := agentSig) h e

/-- A result, or an error that is the rejection of an operation as long as each trade decision has
arguments. -/
def EndsIn {α : Type} (F : α → List (Event agentSig) → Prop) :
    Except Err α → List (Event agentSig) → Prop
  | .ok a, h => F a h
  | .error e, h => Readable input h → Rejected (S := agentSig) h e

end Accounts

/-! ## Programs that spend nothing -/

/-- The operation is neither counted nor audited as a cap. -/
def AgentOp.Free (op : AgentOp) : Prop :=
  (∀ t : Tally, t.count op = t) ∧ ∀ r, capAudit? ⟨op, r⟩ = none

theorem AgentOp.inert.free {op : AgentOp} (hop : op.inert) : op.Free := by
  cases op with
  | audit event detail =>
    refine ⟨fun _ => rfl, fun r => ?_⟩
    have hevent : event ∉ capEvents := of_decide_eq_true hop
    cases r with
    | ok _ => exact if_neg hevent
    | error _ => rfl
  | complete _ | findActive | getProviderTools | callPlugin _ _ _ | search _ | kernelTool _ =>
    cases hop
  | _ => exact ⟨fun _ => rfl, fun _ => rfl⟩

/-- The history goes on, and no more than `t` is spent in all. -/
structure Spends (h h' : List (Event agentSig)) (t : Tally) : Prop where
  past : h <+: h'
  spent : tally h' ≤ t
  audits : capAudits h' = capAudits h

section Spends

variable {s : Services} {input : GovernedTurnInput} {α β : Type} {maxTurns maxToolCalls : ℕ}
  {h h₁ h₂ : List (Event agentSig)} {t t' : Tally}

theorem Spends.refl (h : List (Event agentSig)) : Spends h h (tally h) :=
  ⟨List.prefix_rfl, le_rfl, rfl⟩

theorem Spends.mono (hs : Spends h h₁ t) (ht : t ≤ t') : Spends h h₁ t' :=
  ⟨hs.past, hs.spent.trans ht, hs.audits⟩

theorem capAudits_snoc {e : Event agentSig} (he : capAudit? e = none) :
    capAudits (h ++ [e]) = capAudits h := by
  rw [capAudits, List.filterMap_append]
  simp [capAudits, he]

theorem Spends.snoc (hs : Spends h h₁ t) {e : Event agentSig} {tc : ToolCallRequest}
    (hcount : ∀ t : Tally, t.count e.1 = t.spend tc) (haudit : capAudit? e = none) :
    Spends h (h₁ ++ [e]) (t.spend tc) := by
  refine ⟨hs.past.trans (List.prefix_append _ _), ?_, (capAudits_snoc haudit).trans hs.audits⟩
  rw [tally_snoc, hcount]
  exact Tally.spend_mono hs.spent tc

variable (maxTurns maxToolCalls) in
/-- The operation does not exceed the limits. -/
def Bounded (h : List (Event agentSig)) (op : AgentOp) : Prop :=
  (tally h).count op ≤ limits maxTurns maxToolCalls

theorem Spends.free (hs : Spends h h₁ t) (ht : t ≤ limits maxTurns maxToolCalls) {p : Agent α}
    (hp : Always (S := agentSig) (fun _ op => AgentOp.Free op) p) :
    p.Wp (histSem agentSig) (Bounded maxTurns maxToolCalls) (fun _ h' => Spends h h' t) h₁ := by
  refine wp_mono (fun h' op hpre => ?_) (fun _ _ hpost => hpost)
    (hp.carries (I := fun h' => Spends h h' t) (fun h' e hh he => ?_) hs)
  · show (tally h').count op ≤ _
    rw [hpre.1.1]
    exact hpre.2.spent.trans ht
  · refine ⟨hh.past.trans (List.prefix_append _ _), ?_, (capAudits_snoc (he.2 e.2)).trans hh.audits⟩
    rw [tally_snoc, he.1]
    exact hh.spent

theorem Spends.inert (hs : Spends h h₁ t) (ht : t ≤ limits maxTurns maxToolCalls) {p : Agent α}
    (hp : Inert p) : p.Wp (histSem agentSig) (Bounded maxTurns maxToolCalls)
      (fun _ h' => Spends h h' t) h₁ :=
  hs.free ht (hp.mono fun _ _ => AgentOp.inert.free)

/-! ## One call -/

theorem count_search {tc : ToolCallRequest} (hid : tc.pluginId = "kernel")
    (hf : tc.function = "web_search") (t : Tally) (query : String) :
    t.count (.search query) = t.spend tc := by
  have hro : tc.isReadOnlyKernelTool := by
    simp [ToolCallRequest.isReadOnlyKernelTool, kernelAlwaysAllowedTools, hid, hf]
  rw [Tally.spend, if_pos hro]
  rfl

theorem spend_call {tc : ToolCallRequest}
    (hne : ¬ (tc.pluginId = "kernel" ∧ tc.function = "web_search")) (t : Tally) :
    t.spend tc = { t with calls := t.calls + 1 } := by
  refine if_neg fun hro => hne ?_
  simpa [ToolCallRequest.isReadOnlyKernelTool, kernelAlwaysAllowedTools] using hro

theorem wp_dispatchKernelTool {tc : ToolCallRequest} (hid : tc.pluginId = "kernel")
    (acc : Collected) (hs : Spends h h₁ t) (ht : t.spend tc ≤ limits maxTurns maxToolCalls) :
    (dispatchKernelTool s tc acc).Wp (histSem agentSig) (Bounded maxTurns maxToolCalls)
      (fun _ h' => Spends h h' (t.spend tc)) h₁ := by
  have hstay : Spends h h₁ (t.spend tc) := hs.mono (Tally.le_spend t tc)
  refine wp_ite (fun hf => ?_) fun hf => wp_ite (fun _ => ?_) fun _ => hstay
  · refine wp_ite (fun _ => hstay) fun _ => wp_ite (fun _ => hstay) fun _ => ?_
    refine wp_ite (fun _ => hstay) fun _ => wp_perform_bind.2 ⟨?_, ?_⟩
    · rw [Bounded, count_search hid hf]
      exact (Tally.spend_mono hs.spent tc).trans ht
    · rintro r h₂ rfl
      have hs₂ := hs.snoc (e := ⟨.search _, r⟩) (fun t => count_search hid hf t _) rfl
      cases r with
      | error e => exact hs₂
      | ok result =>
        exact wp_bind_of (hs₂.inert ht (inert_audit (by decide) _)) (fun _ _ hs₃ => hs₃)
          fun _ _ hs₃ => hs₃
  · have hcount : ∀ t : Tally, t.count (.kernelTool tc) = t.spend tc :=
      fun t => (spend_call (fun h => hf h.2) t).symm
    refine wp_perform_bind.2 ⟨?_, ?_⟩
    · rw [Bounded, hcount]
      exact (Tally.spend_mono hs.spent tc).trans ht
    · rintro r h₂ rfl
      have hs₂ := hs.snoc (e := ⟨.kernelTool tc, r⟩) hcount rfl
      cases r <;> exact hs₂

/-- **One call** spends itself at most. -/
theorem wp_dispatchOne (cycleId : String) (tc : ToolCallRequest) (acc : Collected)
    (hs : Spends h h₁ t) (ht : t.spend tc ≤ limits maxTurns maxToolCalls) :
    (dispatchOne s cycleId tc acc).Wp (histSem agentSig) (Bounded maxTurns maxToolCalls)
      (fun _ h' => Spends h h' (t.spend tc)) h₁ := by
  refine wp_attempt_bind.2 (wp_post ?_
    (hs.inert ((Tally.le_spend t tc).trans ht) (inert_debateGate tc)))
  rintro (e | _ | reason) h₂ hs₂
  · exact (hs₂.mono (Tally.le_spend t tc)).inert ht (inert_dispatchFailed _ _ _)
  · refine wp_ite (fun hid => ?_) fun hid => ?_
    · refine wp_attempt_bind.2 (wp_post ?_ (wp_dispatchKernelTool hid _ hs₂ ht))
      rintro (e | acc') h₃ hs₃
      · exact hs₃.inert ht (inert_dispatchFailed _ _ _)
      · exact hs₃
    · have hcount : ∀ t : Tally, t.count (.callPlugin tc.pluginId tc.function tc.args) =
          t.spend tc := fun t => (spend_call (fun h => hid h.1) t).symm
      refine wp_attempt_perform_bind.2 ⟨?_, ?_⟩
      · rw [Bounded, hcount]
        exact (Tally.spend_mono hs₂.spent tc).trans ht
      · rintro r h₃ rfl
        have hs₃ := hs₂.snoc (e := ⟨.callPlugin tc.pluginId tc.function tc.args, r⟩) hcount rfl
        cases r with
        | error e => exact hs₃.inert ht (inert_dispatchFailed _ _ _)
        | ok reply => exact hs₃.inert ht (inert_recordSignalAndIntent _ _ _ _)
  · exact hs₂.mono (Tally.le_spend t tc)

theorem wp_dispatchAll (cycleId : String) (calls : List ToolCallRequest) (acc : Collected)
    (hs : Spends h h₁ t) (ht : t.spendAll calls ≤ limits maxTurns maxToolCalls) :
    (dispatchAll s cycleId calls acc).Wp (histSem agentSig) (Bounded maxTurns maxToolCalls)
      (fun _ h' => Spends h h' (t.spendAll calls)) h₁ := by
  induction calls generalizing acc h₁ t with
  | nil => exact hs
  | cons tc calls ih =>
    have hle : t.spend tc ≤ t.spendAll (tc :: calls) := Tally.le_spendAll (t.spend tc) calls
    refine wp_bind_of (wp_dispatchOne cycleId tc acc hs (hle.trans ht)) ?_ ?_
    · exact fun acc' h₂ hs₂ => ih acc' hs₂ ht
    · exact fun _ _ hs₂ => hs₂.mono hle

end Spends

/-! ## Errors of a turn -/

section Candid

variable {s : Services}

theorem candid_trading_await (op : TradeOp) : Candid (trading (await op)) := by
  refine fun h => ⟨trivial, ?_⟩
  rintro (e | a) h' rfl
  · rintro e' he
    cases he
    exact ⟨.trade op, List.mem_append_right _ List.mem_cons_self⟩
  · exact fun e he => by cases he

theorem candid_auditIf (c : Bool) (event : String) (detail : List String) :
    Candid (auditIf c event detail) := candid_ite (fun _ => candid_perform _) fun _ => candid_ret _

theorem candid_dispatchFailed (tc : ToolCallRequest) (acc : Collected) (e : Err) :
    Candid (dispatchFailed tc acc e) := (candid_perform _).bind fun _ => candid_ret _

theorem candid_recordSignalAndIntent (cycleId : String) (tc : ToolCallRequest)
    (reply : SandboxReply) (acc : Collected) :
    Candid (recordSignalAndIntent s cycleId tc reply acc) := by
  refine candid_ite (fun _ => candid_dispatchFailed _ _ _) fun _ => ?_
  split
  · refine (candid_attempt _).bind fun r => ?_
    cases r with
    | error e => exact candid_dispatchFailed _ _ _
    | ok _ =>
      exact candid_ite (fun _ => (candid_attempt _).bind fun _ => candid_ret _) fun _ => candid_ret _
  · exact candid_ret _

theorem candid_dispatchOne (cycleId : String) (tc : ToolCallRequest) (acc : Collected) :
    Candid (dispatchOne s cycleId tc acc) := by
  refine (candid_attempt _).bind fun gate => ?_
  rcases gate with e | _ | reason
  · exact candid_dispatchFailed _ _ _
  · refine candid_ite (fun _ => ?_) fun _ => ?_
    · refine (candid_attempt _).bind fun r => ?_
      cases r with
      | ok acc => exact candid_ret _
      | error e => exact candid_dispatchFailed _ _ _
    · refine (candid_attempt _).bind fun r => ?_
      cases r with
      | error e => exact candid_dispatchFailed _ _ _
      | ok reply => exact candid_recordSignalAndIntent _ _ _ _
  · exact candid_ret _

theorem candid_dispatchAll (cycleId : String) (calls : List ToolCallRequest) (acc : Collected) :
    Candid (dispatchAll s cycleId calls acc) := by
  induction calls generalizing acc with
  | nil => exact candid_ret _
  | cons tc calls ih => exact (candid_dispatchOne _ _ _).bind fun acc => ih acc

theorem candid_validateToolCalls (calls : List ToolCallRequest) (tools : List ProviderTool)
    (preloaded : Option (List HydratedPlugin)) (virtualOnly : Bool) (source : TurnSource) :
    Candid (validateToolCalls calls tools preloaded virtualOnly source) := by
  cases calls with
  | nil => exact candid_ret _
  | cons call calls =>
    refine (candid_attempt _).bind fun r => ?_
    cases r with
    | ok valid => exact candid_ret _
    | error e => exact (candid_perform _).bind fun _ => candid_ret _

theorem candid_auditTurn (source : TurnSource) : Candid (auditTurn source) := by
  cases source with
  | chat | pretest => exact candid_perform _
  | cycle | reflection => exact candid_ret _

theorem candid_readDecisionPrompt (source : TurnSource) : Candid (readDecisionPrompt source) := by
  cases source with
  | chat => exact candid_ret _
  | _ => exact candid_perform _

theorem candid_turnId (cycleId : Option String) : Candid (turnId cycleId) := by
  cases cycleId with
  | some id => exact candid_ret _
  | none => exact candid_trading_await _

theorem candid_auditLlmDivergence (source : TurnSource) : Candid (auditLlmDivergence source) := by
  cases source with
  | cycle | pretest => exact (candid_attempt _).bind fun _ => candid_ret _
  | chat | reflection => exact candid_ret _

end Candid

/-! ## One iteration -/

section Iterations

variable {s : Services} {input : GovernedTurnInput} {tools : List ProviderTool} {α β : Type}
  {maxTurns maxToolCalls : ℕ} {h : List (Event agentSig)} {t : Tally}

theorem wp_bind_endsIn {pre : List (Event agentSig) → AgentOp → Prop}
    {F : α → List (Event agentSig) → Prop} {G : β → List (Event agentSig) → Prop} {p : Agent α}
    {f : α → Agent β} (hp : p.Wp (histSem agentSig) pre (EndsIn input F) h)
    (hf : ∀ a h', F a h' → (f a).Wp (histSem agentSig) pre (EndsIn input G) h') :
    (p >>= f).Wp (histSem agentSig) pre (EndsIn input G) h :=
  wp_bind_of hp hf fun _ _ he => he

variable (input) in
theorem endsIn_of_candid {pre : List (Event agentSig) → AgentOp → Prop}
    {F : Except Err α → List (Event agentSig) → Prop} {p : Agent α} (hc : Candid p)
    (hp : p.Wp (histSem agentSig) pre F h) :
    p.Wp (histSem agentSig) pre (EndsIn input fun a h' => F (.ok a) h') h := by
  refine wp_mono (fun _ _ hpre => hpre.1) ?_ (wp_and hp (hc h))
  rintro (e | a) h' ⟨hF, he⟩
  · exact fun _ => he e rfl
  · exact hF

theorem wp_auditIf_cap {event : String} (hevent : event ∈ capEvents) (c : Bool)
    (detail : List String) (hspent : tally h ≤ t) (ht : t ≤ limits maxTurns maxToolCalls) :
    (auditIf c event detail).Wp (histSem agentSig) (Bounded maxTurns maxToolCalls)
      (EndsIn input fun _ h' => h <+: h' ∧ tally h' ≤ t ∧
        capAudits h' = capAudits h ++ if c then [(event, detail)] else []) h := by
  refine wp_ite (fun hc => wp_await.2 ⟨hspent.trans ht, ?_⟩) fun hc => ?_
  · rintro r h' rfl
    cases r with
    | error e =>
      exact fun _ => ⟨AgentOp.audit event detail, List.mem_append_right _ List.mem_cons_self⟩
    | ok a =>
      refine ⟨List.prefix_append _ _, ?_, ?_⟩
      · rw [tally_snoc]
        exact hspent
      · rw [if_pos hc, capAudits, List.filterMap_append]
        simp [capAudits, capAudit?, hevent]
  · refine ⟨List.prefix_rfl, hspent, ?_⟩
    rw [if_neg hc, List.append_nil]

namespace Iteration

variable (i : Iteration)

/-- What is spent after the calls of the iteration. -/
def spent (t : Tally) : Tally :=
  (t.spendAll (readOnlyCalls i.toolCalls i.webSearchBudget)).spendAll
    ((prioritizedCalls i.toolCalls).take i.toolCallBudget)

theorem spent_eq (t : Tally) : i.spent t =
    { t with
      calls := t.calls + i.executedCount
      searches := t.searches + i.webSearchExecutedCount
      searchesHere := t.searchesHere + i.webSearchExecutedCount } := by
  rw [spent, Tally.spendAll_calls mem_take_prioritizedCalls,
    Tally.spendAll_searches mem_readOnlyCalls]
  rfl

end Iteration

/-- **The calls of an iteration** are spent, and the dropped ones are audited. -/
theorem wp_executeToolCalls_budget (cycleId : String) (i : Iteration)
    (hread : Readable input h → ∀ c ∈ i.toolCalls, ¬ c.exitUnreadable)
    (ht : i.spent (tally h) ≤ limits maxTurns maxToolCalls) :
    (executeToolCalls s cycleId i.toolCalls i.toolCallBudget i.webSearchBudget).Wp
      (histSem agentSig) (Bounded maxTurns maxToolCalls)
      (EndsIn input fun acc h' => h <+: h' ∧ tally h' ≤ i.spent (tally h) ∧
        capAudits h' = capAudits h ++ i.capAudits ∧
        acc.executed.map Prod.fst = i.executionList) h := by
  have hreturns := Returns.wp (M := histSem agentSig)
    (p := executeToolCalls s cycleId i.toolCalls i.toolCallBudget i.webSearchBudget)
    (returns_executeToolCalls _ _ _) h
  refine wp_mono (Q := fun r h' => EndsIn input (fun _ h' => h <+: h' ∧
      tally h' ≤ i.spent (tally h) ∧ capAudits h' = capAudits h ++ i.capAudits) r h' ∧ _)
    (fun _ _ hpre => hpre.1) ?_ (wp_and ?_ hreturns)
  · rintro (e | acc) h' ⟨hends, hexec⟩
    · exact hends
    · exact ⟨hends.1, hends.2.1, hends.2.2, hexec⟩
  have hfirst := (Tally.le_spendAll ((tally h).spendAll
    (readOnlyCalls i.toolCalls i.webSearchBudget)) _).trans ht
  refine wp_ite (fun hany hok => ?_) fun _ => ?_
  · obtain ⟨c, hc, hun⟩ := List.any_eq_true.1 hany
    exact absurd hun (hread hok c hc)
  refine wp_bind_endsIn (endsIn_of_candid input (candid_dispatchAll _ _ _)
    (wp_dispatchAll cycleId _ _ (Spends.refl h) hfirst)) fun acc₁ h₁ hs₁ => ?_
  refine wp_bind_endsIn (wp_auditIf_cap (by decide) _ _ hs₁.spent hfirst) ?_
  rintro _ h₂ ⟨hpast₂, hspent₂, haudits₂⟩
  refine wp_bind_endsIn (endsIn_of_candid input (candid_dispatchAll _ _ _)
    (wp_dispatchAll cycleId _ _ ⟨List.prefix_rfl, hspent₂, rfl⟩ ht)) fun acc₃ h₃ hs₃ => ?_
  refine wp_bind_endsIn (wp_auditIf_cap (by decide) _ _ hs₃.spent ht) ?_
  rintro _ h₄ ⟨hpast₄, hspent₄, haudits₄⟩
  refine ⟨hs₁.past.trans (hpast₂.trans (hs₃.past.trans hpast₄)), hspent₄, ?_⟩
  rw [haudits₄, hs₃.audits, haudits₂, hs₁.audits, List.append_assoc]
  simp only [decide_eq_true_eq]
  rfl

/-! ## Trade decisions with arguments -/

theorem seenActive_turnPlugins {p : HydratedPlugin} (hp : p ∈ turnPlugins input h) :
    SeenActive input h (turnPlugins input h) := by
  cases hpre : input.activePlugins with
  | some plugins =>
    left
    rw [turnPlugins, hpre]
    rfl
  | none =>
    right
    refine ⟨hpre, ?_⟩
    rw [turnPlugins, hpre, Option.getD_none] at hp ⊢
    cases hfind : h.reverse.findSome? activeRead with
    | none =>
      rw [hfind] at hp
      exact absurd hp List.not_mem_nil
    | some plugins =>
      obtain ⟨e, he, hread⟩ := List.exists_of_findSome?_eq_some hfind
      rw [Option.getD_some]
      obtain ⟨op, r⟩ := e
      cases op with
      | findActive =>
        cases r with
        | error e => cases hread
        | ok plugins' =>
          obtain rfl : plugins' = plugins := Option.some.inj hread
          exact List.mem_reverse.1 he
      | _ => cases hread

theorem exists_plugin {call : ToolCallRequest} {plugins : List HydratedPlugin}
    {virtualOnly allowed : Bool} (hnull : call.exitUnreadable)
    (hkeep : resolveDropReason call plugins tools virtualOnly allowed = none) :
    ∃ p, p ∈ plugins := by
  have hid : call.pluginId ≠ "kernel" := by
    intro hk
    simp [ToolCallRequest.exitUnreadable, ToolCallRequest.isEmitTradeIntent, hk] at hnull
  obtain ⟨-, p, hp, -⟩ := kept_plugin hid hkeep
  exact ⟨p, List.mem_of_find?_eq_some hp⟩

/-! ## The loop -/

variable (maxTurns maxToolCalls) in
/-- **What holds between two iterations.** -/
structure Standing (h : List (Event agentSig)) (all : List Iteration) : Prop where
  recorded : ∀ i ∈ all, i.recorded
  spent : tally h ≤ ⟨all.length, (all.map Iteration.executedCount).sum,
    (all.map Iteration.webSearchExecutedCount).sum, maxWebSearchCallsPerIteration⟩
  audits : capAudits h = all.flatMap Iteration.capAudits
  turns : all.length ≤ maxTurns
  calls : (all.map Iteration.executedCount).sum ≤ maxToolCalls
  searches : (all.map Iteration.webSearchExecutedCount).sum ≤ maxWebSearchCallsPerCycle

theorem Standing.within {all : List Iteration} (hst : Standing maxTurns maxToolCalls h all) :
    tally h ≤ limits maxTurns maxToolCalls :=
  hst.spent.trans (Tally.le_def.2 ⟨hst.turns, hst.calls, hst.searches, le_rfl⟩)

theorem Standing.spends {all : List Iteration} (hst : Standing maxTurns maxToolCalls h all)
    {h' : List (Event agentSig)} (hs : Spends h h' (tally h)) :
    Standing maxTurns maxToolCalls h' all :=
  { hst with
    spent := hs.spent.trans hst.spent
    audits := hs.audits.trans hst.audits }

theorem spent_mono (i : Iteration) {t' : Tally} (ht : t ≤ t') : i.spent t ≤ i.spent t' :=
  Tally.spendAll_mono (Tally.spendAll_mono ht _) _

theorem free_validateToolCalls (calls : List ToolCallRequest) (preloaded : Option (List HydratedPlugin))
    (virtualOnly : Bool) (source : TurnSource) :
    Always (S := agentSig) (fun _ op => AgentOp.Free op)
      (validateToolCalls calls tools preloaded virtualOnly source) := by
  cases calls with
  | nil => exact always_ret _
  | cons call calls =>
    refine always_bind (always_attempt (always_bind ?_ fun plugins => ?_)) fun r => ?_
    · cases preloaded with
      | some plugins => exact always_ret _
      | none => exact always_perform fun _ => ⟨fun _ => rfl, fun _ => rfl⟩
    · exact (inert_keepValid _ _).mono fun _ _ => AgentOp.inert.free
    · cases r with
      | ok valid => exact always_ret _
      | error e =>
        refine always_bind ((inert_audit (by decide) _).mono fun _ _ => AgentOp.inert.free) fun _ => ?_
        exact always_ret _

theorem wp_validateToolCalls_budget (calls : List ToolCallRequest)
    (ht : tally h ≤ limits maxTurns maxToolCalls) :
    (validateToolCalls calls tools input.activePlugins (input.virtualOnly.getD false)
      input.source).Wp (histSem agentSig) (Bounded maxTurns maxToolCalls)
        (EndsIn input fun valid h' => Spends h h' (tally h) ∧ ∀ c ∈ valid, c ∈ calls ∧
          resolveDropReason c (turnPlugins input h') tools (input.virtualOnly.getD false)
            (input.source = .reflection) = none) h := by
  have hkept : (validateToolCalls calls tools input.activePlugins (input.virtualOnly.getD false)
      input.source).Wp (histSem agentSig) (Allows input) _ h := wp_validateToolCalls calls
  have hboth := wp_and ((Spends.refl h).free ht (free_validateToolCalls _ _ _ _)) hkept
  refine wp_post ?_ (endsIn_of_candid input (candid_validateToolCalls _ _ _ _ _)
    (wp_mono (fun _ _ hpre => hpre.1) (fun _ _ hpost => hpost) hboth))
  rintro (e | valid) h' hr
  · exact hr
  · exact ⟨hr.1, hr.2.2⟩

/-- **One iteration** keeps within the budgets that are left. -/
theorem wp_runSingleIteration_budget (cycleId : String) (turn : ℕ) {all : List Iteration}
    (hknows : Knows input tools h) (hst : Standing maxTurns maxToolCalls h all)
    (hturn : all.length + 1 ≤ maxTurns) :
    (runSingleIteration s cycleId input tools turn
      (maxToolCalls - (all.map Iteration.executedCount).sum)
      (maxWebSearchCallsPerCycle - (all.map Iteration.webSearchExecutedCount).sum)).Wp
      (histSem agentSig) (Bounded maxTurns maxToolCalls)
      (EndsIn input fun i h' => h <+: h' ∧ Standing maxTurns maxToolCalls h' (all ++ [i])) h := by
  obtain ⟨hspentTurns, hspentCalls, hspentSearches, -⟩ := Tally.le_def.1 hst.spent
  simp only at hspentTurns hspentCalls hspentSearches
  have hasked : ∀ r, tally (h ++ [⟨.complete tools, r⟩]) ≤ ⟨all.length + 1,
      (all.map Iteration.executedCount).sum, (all.map Iteration.webSearchExecutedCount).sum, 0⟩ := by
    intro r
    rw [tally_snoc]
    exact Tally.le_def.2 ⟨Nat.succ_le_succ hspentTurns, hspentCalls, hspentSearches, le_rfl⟩
  have hbound : (⟨all.length + 1, (all.map Iteration.executedCount).sum,
      (all.map Iteration.webSearchExecutedCount).sum, 0⟩ : Tally) ≤ limits maxTurns maxToolCalls :=
    Tally.le_def.2 ⟨hturn, hst.calls, hst.searches, Nat.zero_le _⟩
  refine wp_perform_bind.2 ⟨?_, ?_⟩
  · have h₁ := (hasked (.error (err []))).trans hbound
    rwa [tally_snoc] at h₁
  rintro r h₁ rfl
  have hspent₁ := hasked r
  have haudits₁ : capAudits (h ++ [⟨.complete tools, r⟩]) = capAudits h := capAudits_snoc rfl
  cases r with
  | error e => exact fun _ => ⟨AgentOp.complete tools, List.mem_append_right _ List.mem_cons_self⟩
  | ok response =>
  refine wp_bind_endsIn (wp_validateToolCalls_budget response.calls (hspent₁.trans hbound)) ?_
  rintro valid h₂ ⟨hs₂, hvalid⟩
  have hpast₂ := (List.prefix_append h [⟨.complete tools, .ok response⟩]).trans hs₂.past
  let i : Iteration := ⟨turn, maxToolCalls - (all.map Iteration.executedCount).sum,
    maxWebSearchCallsPerCycle - (all.map Iteration.webSearchExecutedCount).sum, valid, {}⟩
  have hcalls : i.executedCount ≤ maxToolCalls - (all.map Iteration.executedCount).sum :=
    i.executedCount_le
  have hsearches : i.webSearchExecutedCount ≤
      maxWebSearchCallsPerCycle - (all.map Iteration.webSearchExecutedCount).sum :=
    i.webSearchExecutedCount_le
  have hspent : i.spent (tally h₂) ≤ ⟨all.length + 1,
      (all.map Iteration.executedCount).sum + i.executedCount,
      (all.map Iteration.webSearchExecutedCount).sum + i.webSearchExecutedCount,
      maxWebSearchCallsPerIteration⟩ := by
    refine (spent_mono i (hs₂.spent.trans hspent₁)).trans ?_
    rw [Iteration.spent_eq]
    refine Tally.le_def.2 ⟨le_rfl, le_rfl, le_rfl, ?_⟩
    simpa using i.searches_le
  have hstCalls := hst.calls
  have hstSearches := hst.searches
  have hlimit : i.spent (tally h₂) ≤ limits maxTurns maxToolCalls :=
    hspent.trans (Tally.le_def.2 ⟨hturn, by simp only [limits]; omega, by simp only [limits]; omega,
      le_rfl⟩)
  have hread : Readable input h₂ → ∀ c ∈ i.toolCalls, ¬ c.exitUnreadable := by
    intro hok c hc hnull
    obtain ⟨hmem, hkeep⟩ := hvalid c hc
    obtain ⟨p, hp⟩ := exists_plugin hnull hkeep
    rw [← (hknows.of_append hpast₂).turnTools_eq] at hkeep
    refine hok c ?_ hnull _ (seenActive_turnPlugins hp) hkeep
    obtain ⟨later, rfl⟩ := hs₂.past
    rw [List.flatMap_append, List.flatMap_append]
    exact List.mem_append_left _ (List.mem_append_right _ (by simpa [callsAsked] using hmem))
  refine wp_bind_endsIn (wp_executeToolCalls_budget cycleId i hread hlimit) ?_
  rintro collected h₃ ⟨hpast₃, hspent₃, haudits₃, hrecorded⟩
  have hs₃ : Spends h₃ h₃ _ := ⟨List.prefix_rfl, hspent₃, rfl⟩
  refine wp_bind_endsIn (endsIn_of_candid input (candid_auditTurn _)
    (hs₃.inert hlimit (inert_auditTurn _))) fun _ h₄ hs₄ => ?_
  refine ⟨hpast₂.trans (hpast₃.trans hs₄.past), ?_⟩
  refine ⟨?_, ?_, ?_, ?_, ?_, ?_⟩
  · intro j hj
    rcases List.mem_append.1 hj with hj | hj
    · exact hst.recorded j hj
    · rw [List.mem_singleton.1 hj]
      exact hrecorded
  · simp only [List.length_append, List.length_singleton, List.map_append, List.map_singleton,
      List.sum_append, List.sum_singleton]
    exact hs₄.spent.trans hspent
  · rw [hs₄.audits, haudits₃, hs₂.audits, haudits₁, hst.audits, List.flatMap_append,
      List.flatMap_singleton]
    rfl
  · simpa using hturn
  · simp only [List.map_append, List.map_singleton, List.sum_append, List.sum_singleton]
    show _ + i.executedCount ≤ _
    omega
  · simp only [List.map_append, List.map_singleton, List.sum_append, List.sum_singleton]
    show _ + i.webSearchExecutedCount ≤ _
    omega

/-- **The loop** keeps within the budgets, and reports the iterations that stand. -/
theorem wp_reactLoop_budget (cycleId : String) (fuel : ℕ) {earlier : List Iteration}
    {last : Iteration} (hknows : Knows input tools h)
    (hst : Standing maxTurns maxToolCalls h (earlier ++ [last]))
    (hfuel : (earlier ++ [last]).length + fuel ≤ maxTurns) :
    (reactLoop s cycleId input tools maxTurns maxToolCalls fuel earlier last).Wp
      (histSem agentSig) (Bounded maxTurns maxToolCalls)
      (EndsIn input fun r h' => h <+: h' ∧ Standing maxTurns maxToolCalls h' r.iterations) h := by
  induction fuel generalizing earlier last h with
  | zero =>
    rw [reactLoop]
    refine wp_ite (fun _ => ⟨List.prefix_rfl, hst⟩) fun _ => ?_
    refine wp_bind_endsIn (endsIn_of_candid input (candid_auditIf _ _ _)
      ((Spends.refl h).inert hst.within (inert_auditIf (by decide) _ _))) fun _ h₁ hs₁ => ?_
    have hst₁ := hst.spends hs₁
    refine wp_bind_endsIn (endsIn_of_candid input (candid_auditIf _ _ _)
      ((Spends.refl h₁).inert hst₁.within (inert_auditIf (by decide) _ _))) fun _ h₂ hs₂ => ?_
    exact ⟨hs₁.past.trans hs₂.past, hst₁.spends hs₂⟩
  | succ fuel ih =>
    rw [reactLoop]
    refine wp_ite (fun _ => ⟨List.prefix_rfl, hst⟩) fun _ => ?_
    refine wp_bind_endsIn (endsIn_of_candid input (candid_auditIf _ _ _)
      ((Spends.refl h).inert hst.within (inert_auditIf (by decide) _ _))) fun _ h₁ hs₁ => ?_
    have hst₁ := hst.spends hs₁
    refine wp_ite (fun _ => ⟨hs₁.past, hst₁⟩) fun _ => ?_
    have hknows₁ := hknows.of_append hs₁.past
    refine wp_bind_endsIn (wp_runSingleIteration_budget cycleId _ hknows₁ hst₁ (by omega)) ?_
    rintro next h₂ ⟨hpast₂, hst₂⟩
    refine wp_post ?_ (ih (hknows₁.of_append hpast₂) hst₂ ?_)
    · rintro (e | r) h₃ hr
      · exact hr
      · exact ⟨hs₁.past.trans (hpast₂.trans hr.1), hr.2⟩
    · simp only [List.length_append, List.length_singleton] at hfuel ⊢
      omega

/-- Nothing has been spent. -/
def Unspent (h : List (Event agentSig)) : Prop := tally h = {} ∧ capAudits h = []

variable (maxTurns maxToolCalls) in
theorem standing_nil (hunspent : Unspent h) : Standing maxTurns maxToolCalls h [] := by
  refine ⟨fun i hi => absurd hi List.not_mem_nil, ?_, hunspent.2, Nat.zero_le _, Nat.zero_le _,
    Nat.zero_le _⟩
  rw [hunspent.1]
  exact Tally.le_def.2 ⟨le_rfl, le_rfl, le_rfl, Nat.zero_le _⟩

/-- **All iterations** keep within the budgets. -/
theorem wp_iterations_budget (cycleId : String) (hknows : Knows input tools h)
    (hunspent : Unspent h) (hturns : 1 ≤ maxTurns) (maxToolCalls : ℕ) :
    (runSingleIteration s cycleId input tools 1 maxToolCalls maxWebSearchCallsPerCycle >>=
      fun first => reactLoop s cycleId input tools maxTurns maxToolCalls (maxTurns - 1) [] first >>=
      fun result => auditLlmDivergence input.source >>= fun _ => return result).Wp
      (histSem agentSig) (Bounded maxTurns maxToolCalls)
      (EndsIn input fun r h' => h <+: h' ∧ Standing maxTurns maxToolCalls h' r.iterations) h := by
  have hfirst := wp_runSingleIteration_budget (s := s) cycleId 1 hknows
    (standing_nil maxTurns maxToolCalls hunspent) hturns
  refine wp_bind_endsIn hfirst ?_
  rintro first h₁ ⟨hpast₁, hst₁⟩
  have hfuel : ([] ++ [first]).length + (maxTurns - 1) ≤ maxTurns := by
    simp only [List.nil_append, List.length_singleton]
    omega
  refine wp_bind_endsIn (wp_reactLoop_budget cycleId _ (hknows.of_append hpast₁) hst₁ hfuel) ?_
  rintro r h₂ ⟨hpast₂, hst₂⟩
  refine wp_bind_endsIn (endsIn_of_candid input (candid_auditLlmDivergence _)
    ((Spends.refl h₂).inert hst₂.within (inert_auditLlmDivergence _))) fun _ h₃ hs₃ => ?_
  exact ⟨hpast₁.trans (hpast₂.trans hs₃.past), hst₂.spends hs₃⟩

/-! ## What the iterations have executed -/

theorem length_filter_executed {all : List Iteration} (hrecorded : ∀ i ∈ all, i.recorded)
    {p : ToolCallRequest → Bool} (count : Iteration → ℕ)
    (hcount : ∀ i : Iteration, (i.executionList.filter p).length = count i) :
    ((all.flatMap Iteration.executed).filter p).length = (all.map count).sum := by
  induction all with
  | nil => rfl
  | cons i all ih =>
    have hi : i.executed = i.executionList := hrecorded i List.mem_cons_self
    rw [List.flatMap_cons, List.filter_append, List.length_append, hi, hcount, List.map_cons,
      List.sum_cons, ih fun j hj => hrecorded j (List.mem_cons_of_mem _ hj)]

theorem Standing.budgeted {r : GovernedTurnResult} (hturns : maxTurns = maxTurnsOf s h)
    (hcalls : maxToolCalls = maxToolCallsOf s h)
    (hst : Standing maxTurns maxToolCalls h r.iterations) : Budgeted s r h := by
  refine ⟨hturns ▸ hst.turns, ?_, ?_, fun i hi => (hst.recorded i hi).settled, hst.audits⟩
  · rw [length_filter_executed hst.recorded Iteration.executedCount fun i => by
      rw [i.filter_not_executionList]
      rfl]
    exact hcalls ▸ hst.calls
  · rw [length_filter_executed hst.recorded Iteration.webSearchExecutedCount fun i => by
      rw [i.filter_executionList]
      rfl]
    exact hst.searches

/-! ## The settings of a turn -/

theorem one_le_loopSetting (raw : Option String) (default : ℕ) {hi : ℕ} (hhi : 1 ≤ hi) :
    1 ≤ loopSetting raw default hi := by
  unfold loopSetting
  split
  · omega
  · split <;> omega

variable (s) in
def KnowsSetting (key : String) (h : List (Event agentSig)) : Prop :=
  s.kv → (h.findSome? (settingRead key)).isSome

theorem Unspent.within (hunspent : Unspent h) {op : AgentOp} (hop : op.Free) : WithinBudget s h op := by
  rw [WithinBudget, hop.1, hunspent.1]
  exact Tally.le_def.2 ⟨Nat.zero_le _, Nat.zero_le _, Nat.zero_le _, Nat.zero_le _⟩

theorem Unspent.snoc (hunspent : Unspent h) {e : Event agentSig} (he : AgentOp.Free e.1) :
    Unspent (h ++ [e]) := by
  refine ⟨?_, (capAudits_snoc (he.2 e.2)).trans hunspent.2⟩
  rw [tally_snoc, he.1]
  exact hunspent.1

theorem KnowsSetting.settingOf_eq {key : String} (hread : KnowsSetting s key h)
    {h' : List (Event agentSig)} (hh : h <+: h') : settingOf s key h' = settingOf s key h := by
  obtain ⟨t, rfl⟩ := hh
  unfold settingOf
  by_cases hkv : s.kv
  · obtain ⟨v, hv⟩ := Option.isSome_iff_exists.1 (hread hkv)
    rw [if_pos hkv, if_pos hkv, List.findSome?_append, hv]
    rfl
  · rw [if_neg hkv, if_neg hkv]

theorem KnowsSetting.of_append {key : String} (hread : KnowsSetting s key h)
    {h' : List (Event agentSig)} (hh : h <+: h') : KnowsSetting s key h' := by
  obtain ⟨t, rfl⟩ := hh
  intro hkv
  obtain ⟨v, hv⟩ := Option.isSome_iff_exists.1 (hread hkv)
  rw [List.findSome?_append, hv]
  rfl

theorem settingRead_kvGet (key key' : String) (raw : Option String) :
    settingRead key' ⟨.trade (.kvGet key), .ok raw⟩ = if key = key' then some raw else none := rfl

variable (s) in
def readSetting (key : String) (default hi : ℕ) : Agent ℕ :=
  if s.kv then do
    let raw ← trading (await (.kvGet key))
    return loopSetting raw default hi
  else return loopSetting none default hi

/-- What is known of a setting that is read for the first time. -/
structure FirstRead (s : Services) (key : String) (h h' : List (Event agentSig)) : Prop where
  past : h <+: h'
  unspent : Unspent h'
  known : KnowsSetting s key h'
  others : ∀ key', key' ≠ key → h'.findSome? (settingRead key') = h.findSome? (settingRead key')

theorem firstRead_snoc {key : String} (hkv : s.kv) (hunspent : Unspent h)
    (hnone : h.findSome? (settingRead key) = none) (raw : Option String) :
    FirstRead s key h (h ++ [⟨AgentOp.trade (.kvGet key), .ok raw⟩]) ∧
      settingOf s key (h ++ [⟨AgentOp.trade (.kvGet key), .ok raw⟩]) = raw := by
  have hread : List.findSome? (settingRead key)
      (h ++ [⟨AgentOp.trade (.kvGet key), .ok raw⟩]) = some raw := by
    rw [List.findSome?_append, hnone, List.findSome?_singleton, settingRead_kvGet, if_pos rfl]
    rfl
  refine ⟨⟨List.prefix_append _ _, hunspent.snoc ⟨fun _ => rfl, fun _ => rfl⟩, ?_, ?_⟩, ?_⟩
  · intro _
    rw [hread]
    rfl
  · intro key' hne
    rw [List.findSome?_append, List.findSome?_singleton, settingRead_kvGet, if_neg hne.symm,
      Option.or_none]
  · rw [settingOf, if_pos hkv, hread]
    rfl

theorem wp_readSetting (key : String) (default hi : ℕ) (hunspent : Unspent h)
    (hnone : h.findSome? (settingRead key) = none) :
    (readSetting s key default hi).Wp (histSem agentSig) (WithinBudget s)
      (EndsIn input fun n h' => FirstRead s key h h' ∧
        n = loopSetting (settingOf s key h') default hi) h := by
  refine wp_ite (fun hkv => ?_) fun hkv => ?_
  · have hfree : AgentOp.Free (.trade (.kvGet key)) := ⟨fun _ => rfl, fun _ => rfl⟩
    refine wp_await.2 ⟨hunspent.within hfree, ?_⟩
    rintro r h' rfl
    cases r with
    | error e =>
      exact fun _ => ⟨AgentOp.trade (.kvGet key), List.mem_append_right _ List.mem_cons_self⟩
    | ok raw =>
      obtain ⟨hfirst, hsetting⟩ := firstRead_snoc hkv hunspent hnone raw
      exact ⟨hfirst, congrArg (loopSetting · default hi) hsetting.symm⟩
  · refine ⟨⟨List.prefix_rfl, hunspent, fun h => absurd h hkv, fun _ _ => rfl⟩, ?_⟩
    rw [settingOf, if_neg hkv]

theorem wp_limits {Q : Except Err α → List (Event agentSig) → Prop} {p : Agent α}
    (hturns : KnowsSetting s "react.max_turns" h) (hcalls : KnowsSetting s "react.max_tool_calls" h)
    (hp : p.Wp (histSem agentSig) (Bounded (maxTurnsOf s h) (maxToolCallsOf s h)) Q h) :
    p.Wp (histSem agentSig) (WithinBudget s) Q h := by
  have halways : Always (S := agentSig) (fun _ _ => True) p := always_of_forall (fun _ _ => trivial) p
  have hpast := halways.carries (I := fun h' => h <+: h')
    (fun h' e hh _ => hh.trans (List.prefix_append _ _)) List.prefix_rfl
  refine wp_mono (fun h' op hpre => ?_) (fun _ _ hpost => hpost.1) (wp_and hp hpast)
  show (tally h').count op ≤ _
  rw [maxTurnsOf, maxToolCallsOf, hturns.settingOf_eq hpre.2.2, hcalls.settingOf_eq hpre.2.2]
  exact hpre.1

end Iterations

/-! ## The turn -/

section Turn

variable {s : Services} {input : GovernedTurnInput} {α : Type} {h : List (Event agentSig)}

/-- The operation is free, and reads no setting. -/
def AgentOp.Mute (op : AgentOp) : Prop := op.Free ∧ ∀ key r, settingRead key ⟨op, r⟩ = none

/-- Nothing has been spent, and no setting has been read. -/
def Fresh (h : List (Event agentSig)) : Prop :=
  Unspent h ∧ ∀ key, h.findSome? (settingRead key) = none

theorem Fresh.snoc (hfresh : Fresh h) {e : Event agentSig} (he : AgentOp.Mute e.1) :
    Fresh (h ++ [e]) := by
  refine ⟨hfresh.1.snoc he.1, fun key => ?_⟩
  rw [List.findSome?_append, hfresh.2 key]
  simp [he.2 key e.2]

theorem wp_mute (hfresh : Fresh h) {p : Agent α}
    (hp : Always (S := agentSig) (fun _ op => AgentOp.Mute op) p) :
    p.Wp (histSem agentSig) (WithinBudget s) (fun _ h' => Fresh h' ∧ h <+: h') h :=
  wp_mono (fun _ _ hpre => hpre.2.1.1.within hpre.1.1) (fun _ _ hpost => hpost)
    (hp.carries (I := fun h' => Fresh h' ∧ h <+: h')
      (fun _ _ hh he => ⟨hh.1.snoc he, hh.2.trans (List.prefix_append _ _)⟩)
      ⟨hfresh, List.prefix_rfl⟩)

theorem mute_turnId (cycleId : Option String) :
    Always (S := agentSig) (fun _ op => AgentOp.Mute op) (turnId cycleId) := by
  cases cycleId with
  | some id => exact always_ret _
  | none => exact fun h => ⟨⟨⟨fun _ => rfl, fun _ => rfl⟩, fun _ _ => rfl⟩, by
      rintro (e | a) h' rfl <;> trivial⟩

theorem mute_readDecisionPrompt (source : TurnSource) :
    Always (S := agentSig) (fun _ op => AgentOp.Mute op) (readDecisionPrompt source) := by
  cases source with
  | chat => exact always_ret _
  | _ => exact always_perform fun _ => ⟨⟨fun _ => rfl, fun _ => rfl⟩, fun _ _ => rfl⟩

end Turn

/-- **The budgets of a turn.** Whatever the language model, the plugins and the services answer: no
operation exceeds the limits of the turn, and a turn accounts for its calls when it returns or
throws, as long as each trade decision that is let through has arguments. -/
theorem call_budget (s : Services) (input : GovernedTurnInput) :
    (runGovernedTurn s input).Wp (histSem agentSig) (WithinBudget s)
      (fun x h => Readable input h → Accounts s x h) [] := by
  have hstart : (runGovernedTurn s input).Wp (histSem agentSig) (WithinBudget s)
      (EndsIn input fun r h => Budgeted s r h) [] := by
    have hext : (turnId input.cycleId).Wp (histSem agentSig) (Allows input)
        (fun _ h' => Extends input [] h') [] := wp_inert (inert_turnId _)
    have hmute : (turnId input.cycleId).Wp (histSem agentSig) (WithinBudget s)
        (fun _ h' => Fresh h' ∧ [] <+: h') [] :=
      wp_mute ⟨⟨rfl, rfl⟩, fun _ => rfl⟩ (mute_turnId _)
    refine wp_bind_endsIn (endsIn_of_candid input (candid_turnId _)
      (wp_mono (fun _ _ hpre => hpre.1) (fun _ _ hpost => hpost) (wp_and hmute hext))) ?_
    rintro cycleId h₁ ⟨hmute₁, hext₁⟩
    have hfree : AgentOp.Mute .getProviderTools := ⟨⟨fun _ => rfl, fun _ => rfl⟩, fun _ _ => rfl⟩
    refine wp_perform_bind.2 ⟨hmute₁.1.1.within hfree.1, ?_⟩
    rintro (e | read) h₂ rfl
    · exact fun _ => ⟨AgentOp.getProviderTools, List.mem_append_right _ List.mem_cons_self⟩
    have hknows : Knows input (effectiveTools input.source read)
        (h₁ ++ [⟨.getProviderTools, .ok read⟩]) := by
      refine ⟨read, ?_, rfl⟩
      rw [List.findSome?_append, hext₁.tools]
      rfl
    refine wp_bind_endsIn (endsIn_of_candid input (candid_readDecisionPrompt _)
      (wp_mute (hmute₁.1.snoc hfree) (mute_readDecisionPrompt _))) fun _ h₃ hmute₃ => ?_
    refine wp_bind_endsIn (wp_readSetting "react.max_turns" reactMaxTurnsDefault 10 hmute₃.1.1
      (hmute₃.1.2 _)) ?_
    rintro maxTurns h₄ ⟨hfirst₄, rfl⟩
    refine wp_bind_endsIn (wp_readSetting "react.max_tool_calls" reactMaxToolCallsDefault 20
      hfirst₄.unspent ?_) ?_
    · rw [hfirst₄.others _ (by decide)]
      exact hmute₃.1.2 _
    rintro maxToolCalls h₅ ⟨hfirst₅, rfl⟩
    have hturns : KnowsSetting s "react.max_turns" h₅ := hfirst₄.known.of_append hfirst₅.past
    rw [← hfirst₄.known.settingOf_eq hfirst₅.past]
    refine wp_limits hturns hfirst₅.known ?_
    have hknows₅ := hknows.of_append (hmute₃.2.trans (hfirst₄.past.trans hfirst₅.past))
    have hone : 1 ≤ maxTurnsOf s h₅ := one_le_loopSetting _ _ (by decide : 1 ≤ 10)
    refine wp_post ?_ (wp_iterations_budget cycleId hknows₅ hfirst₅.unspent hone
      (maxToolCallsOf s h₅))
    rintro (e | r) h₆ hends
    · exact hends
    · refine hends.2.budgeted ?_ ?_
      · rw [maxTurnsOf, maxTurnsOf, hturns.settingOf_eq hends.1]
      · rw [maxToolCallsOf, maxToolCallsOf, hfirst₅.known.settingOf_eq hends.1]
  refine wp_post ?_ hstart
  rintro (e | r) h hends
  · exact hends
  · exact fun _ => hends

/-! ## A trade decision without arguments -/

/-- What is around a cycle: a language model that makes a trade decision with the arguments `null`,
and no operation that is rejected but those that the cycle does not await. -/
def nullDecision : (op : AgentOp) → agentSig.Outcome op
  | .getProviderTools => .ok [⟨"decision", "decision__emit_trade_intent"⟩]
  | .findActive => .ok [⟨"decision", "skill"⟩]
  | .getActiveDecisionPrompt => .ok none
  | .complete _ => .ok { text := "", toolCalls := [⟨"decision", "emit_trade_intent", .null⟩] }
  | .audit _ _ => .ok ()
  | _ => .error (err [])

def nullDecisionRun : Option (Except Err GovernedTurnResult × List (Event agentSig)) :=
  (runGovernedTurn { kv := false, debate := false }
    { source := .cycle, cycleId := some "c1" }).execute
    (fun op h => (nullDecision op, h ++ [⟨op, nullDecision op⟩])) (fun _ _ => true) []

theorem nullDecisionRun_throws :
    (nullDecisionRun.map fun y => (y.1.isOk, y.2.all fun e => Except.isOk e.2)) =
      some (false, true) := by
  decide

/-- **A turn that ends at a trade decision without arguments**, which is neither dispatched nor
counted. -/
theorem unaccounted : ¬ ∀ (s : Services) (input : GovernedTurnInput),
    (runGovernedTurn s input).Wp (histSem agentSig) (WithinBudget s)
      (fun x h => Accounts s x h) [] := by
  intro hall
  obtain ⟨⟨x, h⟩, hrun, hthrows⟩ := Option.map_eq_some_iff.1 nullDecisionRun_throws
  obtain ⟨herror, hnone⟩ := Prod.ext_iff.1 hthrows
  have hrel : ∀ (op : AgentOp) (h : List (Event agentSig)), (true = true) →
      (histSem agentSig).rel op h (nullDecision op) (h ++ [⟨op, nullDecision op⟩]) :=
    fun _ _ _ => rfl
  have haccounts : Accounts _ x h := (hall _ _).exec (exec_of_execute hrel hrun)
  cases x with
  | ok r => cases herror
  | error e =>
    obtain ⟨op, hop⟩ := haccounts
    have hok := List.all_eq_true.1 hnone _ hop
    cases hok

end NeoTrader

import NeoTrader.Agents.PretestIsolation

/-!
# What a turn reports and what it has executed

The report of a turn has the tool calls of its last iteration.

* `Iteration.dispatched`, `GovernedTurnResult.dispatched`: the calls that have reached the kernel
  or the sandbox, each with the iteration that it is of;
* **`reportsExecuted_iff`**: the report is right exactly where only the last iteration has
  dispatched anything, all of its calls, in their order.
-/

namespace NeoTrader

open Js Await Prog

/-! ## Dispatched calls -/

/-- The calls that the budgets let through, in the order of their execution. -/
def Iteration.executionList (i : Iteration) : List ToolCallRequest :=
  readOnlyCalls i.toolCalls i.webSearchBudget ++
    (prioritizedCalls i.toolCalls).take i.toolCallBudget

/-- The calls of an iteration that have reached the kernel or the sandbox. -/
def Iteration.dispatched (i : Iteration) : List ToolCallRequest :=
  (i.collected.executed.filter Prod.snd).map Prod.fst

/-- The dispatched calls of a turn, each with the iteration that it is of. -/
def GovernedTurnResult.dispatched (r : GovernedTurnResult) : List (ℕ × ToolCallRequest) :=
  r.iterations.flatMap fun i => i.dispatched.map (Prod.mk i.turn)

/-- **The reported calls are the dispatched ones**, in their order. A reported call is one of the
last iteration. -/
def ReportsExecuted (r : GovernedTurnResult) : Prop :=
  r.toolCalls.map (Prod.mk r.turnsUsed) = r.dispatched

/-- **The calls of an iteration fit its budgets**, and stand in the order of their execution:
searches, exits, and then the others. -/
structure InOrder (i : Iteration) : Prop where
  searches : (i.toolCalls.filter ToolCallRequest.isReadOnlyKernelTool).length ≤
    min maxWebSearchCallsPerIteration i.webSearchBudget
  others : (i.toolCalls.filter fun tc => ¬ tc.isReadOnlyKernelTool).length ≤ i.toolCallBudget
  order : i.toolCalls = i.toolCalls.filter ToolCallRequest.isReadOnlyKernelTool ++
    prioritizedCalls i.toolCalls

/-- The debate lets no executed call through. -/
def Iteration.silenced (i : Iteration) : Prop := ∀ x ∈ i.collected.executed, x.2 = false

/-- The debate lets every executed call through. -/
def Iteration.undebated (i : Iteration) : Prop := ∀ x ∈ i.collected.executed, x.2 = true

/-- **Only the last iteration counts**, and all of it. -/
def OneDispatch (r : GovernedTurnResult) : Prop :=
  ∃ earlier last, r.iterations = earlier ++ [last] ∧ (∀ i ∈ earlier, i.silenced) ∧
    InOrder last ∧ last.undebated

/-! ## Lists of calls -/

theorem length_prioritizeExits (calls : List ToolCallRequest) :
    (prioritizeExits calls).length = calls.length := by
  have hsplit := calls.length_eq_length_filter_add ToolCallRequest.isExit
  rw [prioritizeExits, List.length_append]
  simpa using hsplit.symm

theorem length_prioritizedCalls (calls : List ToolCallRequest) :
    (prioritizedCalls calls).length =
      (calls.filter fun tc => ¬ tc.isReadOnlyKernelTool).length := length_prioritizeExits _

theorem length_split (calls : List ToolCallRequest) :
    (calls.filter ToolCallRequest.isReadOnlyKernelTool).length + (prioritizedCalls calls).length =
      calls.length := by
  have hsplit := calls.length_eq_length_filter_add ToolCallRequest.isReadOnlyKernelTool
  rw [length_prioritizedCalls]
  simpa using hsplit.symm

theorem executionList_length_le (i : Iteration) : i.executionList.length ≤ i.toolCalls.length := by
  have hsplit := length_split i.toolCalls
  have hsearches := List.length_take_le (min maxWebSearchCallsPerIteration i.webSearchBudget)
    (i.toolCalls.filter ToolCallRequest.isReadOnlyKernelTool)
  have hothers := List.length_take_le' i.toolCallBudget (prioritizedCalls i.toolCalls)
  rw [Iteration.executionList, List.length_append, readOnlyCalls, List.length_take,
    List.length_take]
  omega

/-- **Every call is executed in its place** exactly where the calls are in order. -/
theorem executionList_eq_iff (i : Iteration) : i.executionList = i.toolCalls ↔ InOrder i := by
  have hsplit := length_split i.toolCalls
  have hothers := length_prioritizedCalls i.toolCalls
  constructor
  · intro h
    have hlen := congrArg List.length h
    rw [Iteration.executionList, List.length_append, readOnlyCalls, List.length_take,
      List.length_take] at hlen
    have hs : (i.toolCalls.filter ToolCallRequest.isReadOnlyKernelTool).length ≤
        min maxWebSearchCallsPerIteration i.webSearchBudget := by omega
    have ho : (prioritizedCalls i.toolCalls).length ≤ i.toolCallBudget := by omega
    refine ⟨hs, hothers ▸ ho, ?_⟩
    rw [Iteration.executionList, readOnlyCalls, List.take_of_length_le hs,
      List.take_of_length_le ho] at h
    exact h.symm
  · intro h
    have ho : (prioritizedCalls i.toolCalls).length ≤ i.toolCallBudget := hothers ▸ h.others
    rw [Iteration.executionList, readOnlyCalls, List.take_of_length_le h.searches,
      List.take_of_length_le ho]
    exact h.order.symm

/-! ## What an iteration records -/

/-- The recorded calls are those that the budgets let through. -/
def Iteration.recorded (i : Iteration) : Prop := i.collected.executed.map Prod.fst = i.executionList

theorem Iteration.recorded.dispatched_eq_iff {i : Iteration} (h : i.recorded) :
    i.dispatched = i.toolCalls ↔ InOrder i ∧ i.undebated := by
  have hmap : i.collected.executed.length = i.executionList.length := by
    rw [← h, List.length_map]
  constructor
  · intro hd
    have hlen := congrArg List.length hd
    rw [Iteration.dispatched, List.length_map] at hlen
    have hle := executionList_length_le i
    have hfilter := List.length_filter_le Prod.snd i.collected.executed
    have hall : i.collected.executed.filter Prod.snd = i.collected.executed :=
      List.filter_sublist.eq_of_length (by omega)
    have hund : i.undebated := fun x hx => List.filter_eq_self.1 hall x hx
    refine ⟨(executionList_eq_iff i).1 ?_, hund⟩
    rw [← h, ← hd, Iteration.dispatched, hall]
  · rintro ⟨hin, hund⟩
    have hall : i.collected.executed.filter Prod.snd = i.collected.executed :=
      List.filter_eq_self.2 hund
    rw [Iteration.dispatched, hall, h, (executionList_eq_iff i).2 hin]

theorem dispatched_eq_nil_iff (i : Iteration) : i.dispatched = [] ↔ i.silenced := by
  rw [Iteration.dispatched, List.map_eq_nil_iff, List.filter_eq_nil_iff]
  exact forall₂_congr fun x _ => by rw [Bool.not_eq_true]

/-! ## Every run records so -/

section Records

variable {s : Services} {cycleId : String}

/-- The result has recorded the calls on top of what was recorded before. -/
abbrev RecordsCalls (acc : Collected) (calls : List ToolCallRequest) (acc' : Collected) : Prop :=
  acc'.executed.map Prod.fst = acc.executed.map Prod.fst ++ calls

/-- The result has recorded nothing new. -/
abbrev Same (acc acc' : Collected) : Prop := acc'.executed = acc.executed

theorem records_of_same {acc acc' : Collected} {tc : ToolCallRequest} {passed : Bool}
    (h : Same (acc.ran tc passed) acc') : RecordsCalls acc [tc] acc' := by
  rw [RecordsCalls, h]
  simp [Collected.ran]

theorem returns_dispatchFailed (tc : ToolCallRequest) (acc : Collected) (e : Err) :
    (dispatchFailed tc acc e).Returns (Same acc) := returns_bind fun _ => rfl

theorem returns_dispatchKernelTool (tc : ToolCallRequest) (acc : Collected) :
    (dispatchKernelTool s tc acc).Returns (Same acc) := by
  refine returns_ite (fun _ => ?_) fun _ => returns_ite (fun _ => ?_) fun _ => rfl
  · refine returns_ite (fun _ => trivial) fun _ => ?_
    refine returns_ite (fun _ => rfl) fun _ => returns_ite (fun _ => rfl) fun _ => ?_
    exact returns_bind fun _ => returns_bind fun _ => rfl
  · refine returns_bind fun r => ?_
    cases r.allowed <;> rfl

theorem returns_recordSignalAndIntent (tc : ToolCallRequest) (reply : SandboxReply)
    (acc : Collected) : (recordSignalAndIntent s cycleId tc reply acc).Returns (Same acc) := by
  refine returns_ite (fun _ => returns_dispatchFailed tc acc _) fun _ => ?_
  split
  next symbol action _ _ =>
    refine returns_bind fun r => ?_
    cases r with
    | error e => exact (returns_dispatchFailed tc (acc.signal symbol action) e).mono fun _ h => h
    | ok _ => exact returns_ite (fun _ => returns_bind fun _ => rfl) fun _ => rfl
  · rfl

theorem returns_dispatchOne (tc : ToolCallRequest) (acc : Collected) :
    (dispatchOne s cycleId tc acc).Returns (RecordsCalls acc [tc]) := by
  refine returns_bind fun gate => ?_
  have same {acc₁ : Collected} {p : Agent Collected} (hp : p.Returns (Same acc₁)) (passed : Bool)
      (hsame : Same (acc.ran tc passed) acc₁) : p.Returns (RecordsCalls acc [tc]) :=
    hp.mono fun acc₂ h => records_of_same (h.trans hsame)
  rcases gate with e | _ | reason
  · exact same (returns_dispatchFailed _ _ _) false rfl
  · refine returns_ite (fun _ => ?_) fun _ => ?_
    · refine (returns_dispatchKernelTool _ _).attempt.bind fun r hr => ?_
      cases r with
      | ok acc' => exact records_of_same (hr _ rfl)
      | error e => exact same (returns_dispatchFailed _ _ _) true rfl
    · refine returns_bind fun r => ?_
      cases r with
      | ok reply => exact same (returns_recordSignalAndIntent _ _ _) true rfl
      | error e => exact same (returns_dispatchFailed _ _ _) true rfl
  · exact records_of_same rfl

theorem returns_dispatchAll (calls : List ToolCallRequest) (acc : Collected) :
    (dispatchAll s cycleId calls acc).Returns (RecordsCalls acc calls) := by
  induction calls generalizing acc with
  | nil => simp [dispatchAll, Prog.Returns]
  | cons tc calls ih =>
    refine (returns_dispatchOne tc acc).bind fun acc₁ h₁ => (ih acc₁).mono fun acc₂ h₂ => ?_
    rw [RecordsCalls, h₂, h₁, List.append_assoc]
    rfl

theorem returns_executeToolCalls (calls : List ToolCallRequest) (budget webSearchBudget : ℕ) :
    (executeToolCalls s cycleId calls budget webSearchBudget).Returns fun acc =>
      acc.executed.map Prod.fst =
        readOnlyCalls calls webSearchBudget ++ (prioritizedCalls calls).take budget := by
  refine returns_ite (fun _ => trivial) fun _ => ?_
  refine (returns_dispatchAll _ _).bind fun acc₁ h₁ => returns_bind fun _ => ?_
  refine (returns_dispatchAll _ _).bind fun acc₂ h₂ => returns_bind fun _ => ?_
  have h : acc₂.executed.map Prod.fst = _ := h₂
  rw [h₁] at h
  exact h

theorem returns_runSingleIteration (input : GovernedTurnInput) (tools : List ProviderTool)
    (turn toolCallBudget webSearchBudget : ℕ) :
    (runSingleIteration s cycleId input tools turn toolCallBudget webSearchBudget).Returns
      fun i => i.recorded ∧ i.turn = turn := by
  refine returns_bind fun response => returns_bind fun valid => ?_
  refine (returns_executeToolCalls valid _ _).bind fun collected h => ?_
  exact returns_bind fun _ => ⟨h, rfl⟩

/-- **A turn and its iterations**: each has recorded its calls, the last one is reported. -/
structure WellTraced (r : GovernedTurnResult) (earlier : List Iteration) (last : Iteration) :
    Prop where
  iterations : r.iterations = earlier ++ [last]
  toolCalls : r.toolCalls = last.toolCalls
  turnsUsed : r.turnsUsed = last.turn
  before : ∀ i ∈ earlier, i.turn < last.turn
  recorded : last.recorded

theorem wellTraced_turnResult {earlier : List Iteration} {last : Iteration}
    (hbefore : ∀ i ∈ earlier, i.turn < last.turn) (hlast : last.recorded) :
    WellTraced (turnResult cycleId earlier last) earlier last :=
  ⟨rfl, rfl, rfl, hbefore, hlast⟩

theorem returns_reactLoop (input : GovernedTurnInput) (tools : List ProviderTool)
    (maxTurns maxToolCalls fuel : ℕ) {earlier : List Iteration} {last : Iteration}
    (hbefore : ∀ i ∈ earlier, i.turn < last.turn) (hlast : last.recorded) :
    (reactLoop s cycleId input tools maxTurns maxToolCalls fuel earlier last).Returns
      fun r => ∃ earlier last, WellTraced r earlier last := by
  have hstop : WellTraced (turnResult cycleId earlier last) earlier last :=
    wellTraced_turnResult hbefore hlast
  induction fuel generalizing earlier last with
  | zero =>
    rw [reactLoop]
    refine returns_ite (fun _ => ⟨_, _, hstop⟩) fun _ => ?_
    exact returns_bind fun _ => returns_bind fun _ => ⟨_, _, hstop⟩
  | succ fuel ih =>
    rw [reactLoop]
    refine returns_ite (fun _ => ⟨_, _, hstop⟩) fun _ => returns_bind fun _ => ?_
    refine returns_ite (fun _ => ⟨_, _, hstop⟩) fun _ => ?_
    refine (returns_runSingleIteration input tools _ _ _).bind fun next hnext => ?_
    have hall : ∀ i ∈ earlier ++ [last], i.turn < next.turn := by
      intro i hi
      rw [hnext.2]
      rcases List.mem_append.1 hi with hi | hi
      · have hlt := hbefore i hi
        omega
      · rw [List.mem_singleton.1 hi]
        exact Nat.lt_succ_self _
    exact ih hall hnext.1 (wellTraced_turnResult hall hnext.1)

theorem returns_runGovernedTurn (input : GovernedTurnInput) :
    (runGovernedTurn s input).Returns fun r => ∃ earlier last, WellTraced r earlier last := by
  refine returns_bind fun cycleId => returns_bind fun providerTools => returns_bind fun _ => ?_
  refine returns_bind fun maxTurns => returns_bind fun maxToolCalls => ?_
  refine (returns_runSingleIteration input _ _ _ _).bind fun first hfirst => ?_
  refine (returns_reactLoop input _ _ _ _ (by simp) hfirst.1).bind fun r hr => ?_
  exact returns_bind fun _ => hr

end Records

/-! ## The report -/

theorem WellTraced.reports_iff {r : GovernedTurnResult} {earlier : List Iteration}
    {last : Iteration} (h : WellTraced r earlier last) :
    ReportsExecuted r ↔ (∀ i ∈ earlier, i.silenced) ∧ InOrder last ∧ last.undebated := by
  have hdispatched : r.dispatched = (earlier.flatMap fun i => i.dispatched.map (Prod.mk i.turn)) ++
      last.dispatched.map (Prod.mk last.turn) := by
    rw [GovernedTurnResult.dispatched, h.iterations, List.flatMap_append]
    simp
  have hinj : Function.Injective (Prod.mk (β := ToolCallRequest) last.turn) :=
    Prod.mk_right_injective _
  rw [ReportsExecuted, hdispatched, h.toolCalls, h.turnsUsed, ← h.recorded.dispatched_eq_iff]
  constructor
  · intro heq
    -- a call of an earlier iteration is not one of the last
    have hnone : ∀ i ∈ earlier, i.dispatched = [] := by
      intro i hi
      refine List.eq_nil_iff_forall_not_mem.2 fun tc htc => ?_
      have hmem : (i.turn, tc) ∈ last.toolCalls.map (Prod.mk last.turn) := by
        rw [heq]
        refine List.mem_append_left _ (List.mem_flatMap.2 ⟨i, hi, ?_⟩)
        exact List.mem_map_of_mem htc
      obtain ⟨tc', -, hpair⟩ := List.mem_map.1 hmem
      have hturn : last.turn = i.turn := congrArg Prod.fst hpair
      have hlt := h.before i hi
      omega
    refine ⟨fun i hi => (dispatched_eq_nil_iff i).1 (hnone i hi), ?_⟩
    have hearlier : (earlier.flatMap fun i => i.dispatched.map (Prod.mk i.turn)) = [] :=
      List.flatMap_eq_nil_iff.2 fun i hi => by rw [hnone i hi]; rfl
    rw [hearlier, List.nil_append] at heq
    exact (List.map_injective_iff.2 hinj heq).symm
  · rintro ⟨hsilent, hlast⟩
    have hearlier : (earlier.flatMap fun i => i.dispatched.map (Prod.mk i.turn)) = [] :=
      List.flatMap_eq_nil_iff.2 fun i hi => by
        rw [(dispatched_eq_nil_iff i).2 (hsilent i hi)]
        rfl
    rw [hearlier, hlast, List.nil_append]

/-- **A turn reports what it has executed** exactly where the debate has let no call of an earlier
iteration through, and the calls of the last iteration all fit, are in order and pass the debate:
for all answers of the language model, the tools and the settings. -/
theorem reportsExecuted_iff (s : Services) (input : GovernedTurnInput) :
    (runGovernedTurn s input).Returns fun r => ReportsExecuted r ↔ OneDispatch r := by
  refine (returns_runGovernedTurn input).mono fun r hr => ?_
  obtain ⟨earlier, last, h⟩ := hr
  rw [h.reports_iff]
  constructor
  · exact fun hcond => ⟨earlier, last, h.iterations, hcond⟩
  · rintro ⟨earlier', last', heq, hcond⟩
    obtain ⟨rfl, hlast⟩ := List.append_inj' (h.iterations.symm.trans heq) rfl
    cases hlast
    exact hcond

/-! ## An unreported call -/

/-- A language model that goes long once, in a turn of two iterations. -/
def longOnce : Option (Except Err GovernedTurnResult × World) :=
  (runGovernedTurn {} { source := .pretest, virtualOnly := some true }).execute
    (fun op w => sampleAgent (if w.intents.isEmpty then [sampleCall "SPY" "long"] else [])
      (sampleOracle (.arr []) "n1") op w)
    (fun _ _ => true) { kv := fun _ => none }

theorem longOnce_report :
    (longOnce.map fun y => y.1.toOption.map fun r => (r.toolCalls.length, r.dispatched.length)) =
      some (some (0, 1)) := by
  decide +kernel

/-- **A turn that executes a call and reports none.** -/
theorem unreported : ¬ ∀ (s : Services) (input : GovernedTurnInput),
    (runGovernedTurn s input).Returns ReportsExecuted := by
  intro hall
  obtain ⟨⟨x, w⟩, hrun, hreport⟩ := Option.map_eq_some_iff.1 longOnce_report
  obtain ⟨r, hr, hlen⟩ := Option.map_eq_some_iff.1 hreport
  obtain rfl : x = .ok r := by
    cases x with
    | ok r' => rw [show r' = r from Option.some.inj hr]
    | error e => cases hr
  have hexec := exec_of_execute (M := agentSem) (fun op w _ => sampleAgent_rel _ _ op w) hrun
  have heq : r.toolCalls.map (Prod.mk r.turnsUsed) = r.dispatched := (hall _ _).exec hexec
  have hcount := congrArg List.length heq
  rw [List.length_map] at hcount
  have h0 : r.toolCalls.length = 0 := congrArg Prod.fst hlen
  have h1 : r.dispatched.length = 1 := congrArg Prod.snd hlen
  omega

end NeoTrader

import Mathlib.Tactic.NormNum
import NeoTrader.Cycle.Veto

/-!
# The veto layer as a composition

A hook answers with a list of signals, or with the context that it was handed and other pending
signals in it.

* `Composes`: each discipline's own signals are what is pending after it; `ownFold`: the fold of
  these; `VetoComposition`: the layer is their composition;
* **`vetoComposition_iff`**: the layer is the composition exactly where the echoes are heard.
-/

namespace NeoTrader

open Js

/-! ## Answers -/

/-- **An answer that follows the contract**: a list of signals, the context with its pending signals
replaced, or a failure. `rest` are the other fields. -/
inductive HookAnswer
  | signals (l : List Json) (reasons : Option (List String)) (rest : Obj)
  | echo (l : List Json) (rest : Obj)
  | failed (error : String)

namespace HookAnswer

/-- The discipline's own signals. -/
def own : HookAnswer → List Json
  | signals l _ _ => l
  | echo l _ => l
  | failed _ => []

/-- The fields that the layer reads. -/
def readKeys : List String := ["signals", "pending_signals", "veto_reasons"]

/-- The fields that the layer only hands on. -/
def otherFields (rest : Obj) : Obj := rest.filter fun f => f.1 ∉ readKeys

def reasonsField : Option (List String) → Obj
  | none => []
  | some reasons => [("veto_reasons", .arr (reasons.map .str))]

/-- What the sandbox answers. -/
def reply (ctx : Obj) : HookAnswer → HookReply
  | signals l reasons rest =>
    { ok := true, result := some ((otherFields rest ++ reasonsField reasons).set "signals" (.arr l)) }
  | echo l rest =>
    { ok := true, result := some ((ctx ++ otherFields rest).set "pending_signals" (.arr l)) }
  | failed error => { ok := false, error := some error }

end HookAnswer

/-! ## Composition -/

section Composition

variable (call : ActivePlugin → Obj → HookAnswer) (mlInjection : Obj)

/-- The layer goes on after a discipline's answer. -/
def answered (disc : ActivePlugin) (st : VetoState) : Except Err VetoState :=
  let ctx := hookCtxFor disc st.ctx mlInjection
  vetoStep disc ((call disc ctx).reply ctx) st

/-- The discipline's own signals over the context that it is handed. -/
def ownSignals (disc : ActivePlugin) (st : VetoState) : List Json :=
  (call disc (hookCtxFor disc st.ctx mlInjection)).own

/-- **Each discipline's own signals are what is pending after it**: what the next one is handed. -/
def Composes : List ActivePlugin → VetoState → Prop
  | [], _ => True
  | disc :: rest, st => ∃ st', answered call mlInjection disc st = .ok st' ∧
      st'.pending = some (.arr (ownSignals call mlInjection disc st)) ∧ Composes rest st'

/-- The fold of the disciplines' own signals, in their order. -/
def ownFold : List ActivePlugin → VetoState → List Json → List Json
  | [], _, l => l
  | disc :: rest, st, _ =>
    match answered call mlInjection disc st with
    | .ok st' => ownFold rest st' (ownSignals call mlInjection disc st)
    | .error _ => ownSignals call mlInjection disc st

/-- **The layer is the composition of the disciplines.** -/
structure VetoComposition (discs : List ActivePlugin) (hookCtx : Obj) (pending : List Json) :
    Prop where
  handed : Composes call mlInjection (mlFirst discs) (initialVeto hookCtx pending)
  result : ∃ r, runVetoLayer (fun disc ctx => (call disc ctx).reply ctx) discs hookCtx pending
    mlInjection = .ok r ∧ listField r.vetoCtx "pending_signals" =
      ownFold call mlInjection (mlFirst discs) (initialVeto hookCtx pending) pending

/-- The context has no other list under `signals`, and its reasons are a list, if any. -/
structure Heard (ctx : Obj) (l : List Json) : Prop where
  signals : nullish (ctx.get "signals") (some (.arr l)) = some (.arr l)
  reasons : ∃ reasons, vetoReasonsOf ctx = .ok reasons

/-- **Each echo is heard.** -/
def EchoesHeard : List ActivePlugin → VetoState → Prop
  | [], _ => True
  | disc :: rest, st =>
    (∀ l others, call disc (hookCtxFor disc st.ctx mlInjection) = .echo l others →
      Heard (hookCtxFor disc st.ctx mlInjection) l) ∧
    ∀ st', answered call mlInjection disc st = .ok st' → EchoesHeard rest st'

end Composition

/-! ## One answer -/

section Answers

open HookAnswer

theorem otherFields_get {rest : Obj} {key : String} (hkey : key ∈ readKeys) :
    Obj.get (otherFields rest) key = none :=
  Obj.get_filter_eq_none (p := fun k => k ∉ readKeys) rest (by simpa using hkey)

theorem updatedSignals_signals (l : List Json) (reasons : Option (List String)) (rest : Obj) :
    updatedSignals ((otherFields rest ++ reasonsField reasons).set "signals" (.arr l)) =
      some (.arr l) := by
  rw [updatedSignals, Obj.get_set_self]
  rfl

theorem updatedSignals_echo (ctx : Obj) (l : List Json) (rest : Obj) :
    updatedSignals ((ctx ++ otherFields rest).set "pending_signals" (.arr l)) =
      nullish (ctx.get "signals") (some (.arr l)) := by
  rw [updatedSignals, Obj.get_set_self, Obj.get_set_of_ne _ (by decide), Obj.get_append,
    otherFields_get (by decide)]
  rfl

theorem vetoReasonsOf_signals (l : List Json) (reasons : Option (List String)) (rest : Obj) :
    ∃ rs, vetoReasonsOf ((otherFields rest ++ reasonsField reasons).set "signals" (.arr l)) =
      .ok rs := by
  have hget : Obj.get ((otherFields rest ++ reasonsField reasons).set "signals" (.arr l))
      "veto_reasons" = Obj.get (reasonsField reasons) "veto_reasons" := by
    rw [Obj.get_set_of_ne _ (by decide), Obj.get_append, otherFields_get (by decide),
      Option.or_none]
  rw [vetoReasonsOf, hget]
  cases reasons with
  | none => exact ⟨_, rfl⟩
  | some rs => exact ⟨_, rfl⟩

theorem vetoReasonsOf_echo (ctx : Obj) (l : List Json) (rest : Obj) :
    vetoReasonsOf ((ctx ++ otherFields rest).set "pending_signals" (.arr l)) = vetoReasonsOf ctx := by
  have hget : Obj.get ((ctx ++ otherFields rest).set "pending_signals" (.arr l)) "veto_reasons" =
      ctx.get "veto_reasons" := by
    rw [Obj.get_set_of_ne _ (by decide), Obj.get_append, otherFields_get (by decide)]
    rfl
  rw [vetoReasonsOf, vetoReasonsOf, hget]

theorem vetoStep_ok (disc : ActivePlugin) (st : VetoState) {updated : Obj} {v : Json}
    {reasons : List Json} (hreasons : vetoReasonsOf updated = .ok reasons)
    (hv : updatedSignals updated = some v) (hnull : v ≠ .null) :
    vetoStep disc { ok := true, result := some updated } st = .ok { st with
      ctx := (st.ctx ++ keptOf disc updated).set "pending_signals" v
      reasons := st.reasons ++ reasons.map (VetoReason.mk disc.name) } := by
  have hpending : nullish (some v) st.pending = some v := by
    cases v <;> first | rfl | exact absurd rfl hnull
  unfold vetoStep
  simp only [if_true, hreasons, hv, hpending]
  rfl

theorem nullish_some {a : Option Json} {b : Json} (hb : b ≠ .null) :
    ∃ v, nullish a (some b) = some v ∧ v ≠ .null := by
  cases a with
  | none => exact ⟨b, rfl, hb⟩
  | some v =>
    cases v with
    | null => exact ⟨b, rfl, hb⟩
    | _ => exact ⟨_, rfl, (fun h => by cases h)⟩

/-- **One discipline is heard** exactly where its echo, if it is one, is heard. -/
theorem vetoStep_own_iff (disc : ActivePlugin) (st : VetoState) (ctx : Obj) (answer : HookAnswer) :
    (∃ st', vetoStep disc (answer.reply ctx) st = .ok st' ∧
      st'.pending = some (.arr answer.own)) ↔
    ∀ l others, answer = .echo l others → Heard ctx l := by
  cases answer with
  | signals l reasons rest =>
    obtain ⟨rs, hrs⟩ := vetoReasonsOf_signals l reasons rest
    have hstep := vetoStep_ok disc st hrs (updatedSignals_signals l reasons rest)
      (fun h => by cases h)
    exact ⟨(fun _ l' others h => by cases h), fun _ => ⟨_, hstep, Obj.get_set_self _ _ _⟩⟩
  | failed error =>
    exact ⟨(fun _ l' others h => by cases h), fun _ => ⟨_, rfl, Obj.get_set_self _ _ _⟩⟩
  | echo l rest =>
    obtain ⟨v, hv, hnull⟩ := nullish_some (a := ctx.get "signals") (b := .arr l)
      (fun h => by cases h)
    have hsignals := (updatedSignals_echo ctx l rest).trans hv
    have hreasons := vetoReasonsOf_echo ctx l rest
    cases hctx : vetoReasonsOf ctx with
    | error e =>
      rw [hctx] at hreasons
      have hstep : vetoStep disc ((HookAnswer.echo l rest).reply ctx) st = .error e := by
        simp only [vetoStep, reply, if_true, hreasons]
        rfl
      constructor
      · rintro ⟨st', hst', -⟩
        rw [hstep] at hst'
        cases hst'
      · intro hheard
        obtain ⟨reasons, hok⟩ := (hheard l rest rfl).reasons
        rw [hctx] at hok
        cases hok
    | ok reasons =>
      rw [hctx] at hreasons
      have hstep := vetoStep_ok disc st hreasons hsignals hnull
      constructor
      · rintro ⟨st', hst', hpending⟩ l' others ⟨⟩
        rw [show vetoStep disc ((HookAnswer.echo l rest).reply ctx) st = _ from hstep] at hst'
        cases hst'
        refine ⟨?_, reasons, hctx⟩
        rw [hv, ← Obj.get_set_self (st.ctx ++ keptOf disc _) "pending_signals" v]
        exact hpending
      · intro hheard
        refine ⟨_, hstep, (Obj.get_set_self _ _ _).trans ?_⟩
        rw [← hv]
        exact (hheard l rest rfl).signals

end Answers

/-! ## The layer -/

section Layer

variable {call : ActivePlugin → Obj → HookAnswer} {mlInjection : Obj}

theorem composes_iff (discs : List ActivePlugin) (st : VetoState) :
    Composes call mlInjection discs st ↔ EchoesHeard call mlInjection discs st := by
  induction discs generalizing st with
  | nil => exact Iff.rfl
  | cons disc rest ih =>
    have hown := vetoStep_own_iff disc st (hookCtxFor disc st.ctx mlInjection)
      (call disc (hookCtxFor disc st.ctx mlInjection))
    constructor
    · rintro ⟨st', hst', hpending, hrest⟩
      refine ⟨hown.1 ⟨st', hst', hpending⟩, fun st'' hst'' => ?_⟩
      rw [Except.ok.inj (hst''.symm.trans hst')]
      exact (ih st').1 hrest
    · rintro ⟨hheard, hrest⟩
      obtain ⟨st', hst', hpending⟩ := hown.2 hheard
      exact ⟨st', hst', hpending, (ih st').2 (hrest st' hst')⟩

theorem Composes.vetoLoop {discs : List ActivePlugin} {st : VetoState} {l : List Json}
    (h : Composes call mlInjection discs st) (hpending : st.pending = some (.arr l)) :
    ∃ st', vetoLoop (fun disc ctx => (call disc ctx).reply ctx) mlInjection discs st = .ok st' ∧
      st'.pending = some (.arr (ownFold call mlInjection discs st l)) := by
  induction discs generalizing st l with
  | nil => exact ⟨st, rfl, hpending⟩
  | cons disc rest ih =>
    obtain ⟨st₁, hst₁, hpending₁, hrest⟩ := h
    obtain ⟨st', hst', hpending'⟩ := ih hrest hpending₁
    refine ⟨st', ?_, ?_⟩
    · rw [NeoTrader.vetoLoop, show vetoStep disc _ st = .ok st₁ from hst₁]
      exact hst'
    · rw [ownFold, hst₁]
      exact hpending'

/-- **The veto layer is the composition of the disciplines** exactly where each echo is heard: for
all disciplines, pending signals and answers that follow the contract. -/
theorem vetoComposition_iff (call : ActivePlugin → Obj → HookAnswer) (mlInjection : Obj)
    (discs : List ActivePlugin) (hookCtx : Obj) (pending : List Json) :
    VetoComposition call mlInjection discs hookCtx pending ↔
      EchoesHeard call mlInjection (mlFirst discs) (initialVeto hookCtx pending) := by
  rw [← composes_iff]
  refine ⟨fun h => h.handed, fun h => ⟨h, ?_⟩⟩
  have hinitial : (initialVeto hookCtx pending).pending = some (.arr pending) :=
    Obj.get_set_self _ _ _
  obtain ⟨st, hst, hpending⟩ := h.vetoLoop hinitial
  refine ⟨_, by rw [runVetoLayer, hst]; rfl, ?_⟩
  show listField st.ctx "pending_signals" = _
  rw [listField, show st.ctx.get "pending_signals" = _ from hpending]

end Layer

/-! ## An adjustment that is lost -/

def confidentSignal (confidence : ℚ) : Json :=
  .obj [("symbol", .str "SPY"), ("action", .str "long"), ("confidence", .num (.fin confidence))]

/-- What the runner answers to a cycle: one list under two keys. -/
def cycleAnswer (l : List Json) : Obj := [("pending_signals", .arr l), ("signals", .arr l)]

def mlPlugin : ActivePlugin := { id := mlPluginId, type := "discipline", name := "ML" }

/-- **A confidence that is adjusted in vain**: the machine learning echoes its context, in which the
runner has left the signals as they were. -/
theorem adjustment_lost : ¬ ∀ (call : ActivePlugin → Obj → HookAnswer) (mlInjection : Obj)
    (discs : List ActivePlugin) (hookCtx : Obj) (pending : List Json),
    VetoComposition call mlInjection discs hookCtx pending := by
  intro hall
  have h := (hall (fun _ _ => .echo [confidentSignal (2 / 5)] []) [] [mlPlugin]
    (cycleAnswer [confidentSignal (4 / 5)]) [confidentSignal (4 / 5)]).handed
  have hsignals := (((composes_iff _ _).1 h).1 _ _ rfl).signals
  have hlost : some (Json.arr [confidentSignal (4 / 5)]) =
      some (Json.arr [confidentSignal (2 / 5)]) := hsignals
  simp only [confidentSignal, Option.some.injEq, Json.arr.injEq, List.cons.injEq, and_true,
    Json.obj.injEq, Prod.mk.injEq, true_and, Json.num.injEq, Number.fin.injEq] at hlost
  norm_num at hlost

end NeoTrader

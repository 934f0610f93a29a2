import NeoTrader.Cycle.Execute

/-!
# A run of the veto layer

The disciplines answer one after another; what a key of the context comes to is told by the last
answer that has it.

* `VetoEvent`, `vetoEvents`: the answers of a run;
* `lastWord`, **`vetoLoop_pending`**: the last list of a run is what is pending;
* `leftField`, **`handed_field`**: another key that a discipline is handed is that of the last answer
  before it.
-/

namespace NeoTrader

open Js

/-! ## A run of the layer -/

/-- A discipline was handed a state and has answered. -/
structure VetoEvent where
  disc : ActivePlugin
  handed : VetoState
  reply : HookReply

/-- The list that an answer puts in the place of the pending signals. -/
def HookReply.emitted (reply : HookReply) : Option Json :=
  if reply.ok then nullish (reply.result.bind updatedSignals) none else some (.arr [])

/-- The signals of a list, if it is one. -/
def signalsOf : Json → List Json
  | .arr l => l
  | _ => []

/-- The signals that an answer emits. -/
def HookReply.signals (reply : HookReply) : List Json := (reply.emitted.map signalsOf).getD []

/-- The answers of a run, in their order. -/
def vetoEvents (call : ActivePlugin → Obj → HookReply) (mlInjection : Obj) :
    List ActivePlugin → VetoState → List VetoEvent
  | [], _ => []
  | disc :: rest, st =>
    let reply := call disc (hookCtxFor disc st.ctx mlInjection)
    ⟨disc, st, reply⟩ :: match vetoStep disc reply st with
      | .ok st' => vetoEvents call mlInjection rest st'
      | .error _ => []

def layerKeys : List String := ["pending_signals", "model_blob", "feature_names"]

def HookReply.field (reply : HookReply) (key : String) : Option Json :=
  if reply.ok then reply.result.bind fun updated => updated.get key else none

/-- What a key comes to after the answers of a run. -/
def leftField (key : String) (init : Option Json) (events : List VetoEvent) : Option Json :=
  events.foldl (fun v e => (e.reply.field key).or v) init

theorem keptOf_get (disc : ActivePlugin) (updated : Obj) {key : String} (hkey : key ∉ layerKeys) :
    (keptOf disc updated).get key = updated.get key := by
  have hblob : key ≠ "model_blob" := fun h => hkey (by simp [h, layerKeys])
  have hnames : key ≠ "feature_names" := fun h => hkey (by simp [h, layerKeys])
  unfold keptOf
  split
  · rw [Obj.get_delete_of_ne _ hnames, Obj.get_delete_of_ne _ hblob]
  · rfl

theorem setOrDelete_get (ctx : Obj) {key key' : String} (h : key' ≠ key) (v : Option Json) :
    (setOrDelete ctx key v).get key' = ctx.get key' := by
  cases v with
  | none => exact Obj.get_delete_of_ne ctx h
  | some v => exact Obj.get_set_of_ne ctx h v

/-- **One answer**: a key is then that of the answer, or else as it was. -/
theorem vetoStep_field {disc : ActivePlugin} {reply : HookReply} {st st' : VetoState}
    (h : vetoStep disc reply st = .ok st') {key : String} (hkey : key ∉ layerKeys) :
    st'.ctx.get key = (reply.field key).or (st.ctx.get key) := by
  have hpending : key ≠ "pending_signals" := fun h => hkey (by simp [h, layerKeys])
  unfold vetoStep at h
  unfold HookReply.field
  split at h
  case isTrue hok =>
    rw [if_pos hok]
    split at h
    case h_1 hresult =>
      cases h
      rw [hresult]
      rfl
    case h_2 updated hresult =>
      cases hr : vetoReasonsOf updated with
      | error e =>
        rw [hr] at h
        cases h
      | ok reasons =>
        rw [hr] at h
        cases h
        rw [hresult]
        show (setOrDelete _ _ _).get key = _
        rw [setOrDelete_get _ hpending, Obj.get_append, keptOf_get disc updated hkey]
        rfl
  case isFalse hok =>
    cases h
    rw [if_neg hok]
    exact Obj.get_set_of_ne _ hpending _

/-- **A key that a discipline is handed** is that of the last answer before it. -/
theorem handed_field {call : ActivePlugin → Obj → HookReply} {mlInjection : Obj}
    (discs : List ActivePlugin) (st : VetoState) {before after : List VetoEvent} {e : VetoEvent}
    (h : vetoEvents call mlInjection discs st = before ++ e :: after) {key : String}
    (hkey : key ∉ layerKeys) :
    e.handed.ctx.get key = leftField key (st.ctx.get key) before := by
  induction discs generalizing st before with
  | nil =>
    cases before <;> cases h
  | cons disc rest ih =>
    rw [vetoEvents] at h
    cases before with
    | nil =>
      cases h
      rfl
    | cons e₀ before =>
      rw [List.cons_append, List.cons.injEq] at h
      obtain ⟨rfl, htail⟩ := h
      cases hstep : vetoStep disc (call disc (hookCtxFor disc st.ctx mlInjection)) st with
      | error err =>
        rw [hstep] at htail
        cases before <;> cases htail
      | ok st' =>
        rw [hstep] at htail
        rw [ih st' htail, vetoStep_field hstep hkey]
        rfl

end NeoTrader

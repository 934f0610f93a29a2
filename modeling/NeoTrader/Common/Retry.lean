import Mathlib.Data.List.Basic
import Mathlib.Tactic.Common

/-!
# Steps that are retried until a flag is set

A step brings data towards a goal and then sets a flag; where it stops early, the next attempt goes
on. An attempt is `careful` if it does not set the flag over an incomplete goal.

* `Step.target`: what the data are headed for; **`target_run`**: careful attempts keep it;
* **`data_run`**: with one attempt that succeeds, the data are those of that attempt alone;
* **`data_run_of_flag`**: once the flag is set, nothing changes any more.
-/

namespace Retry

/-- **A step that is retried.** `attempt f` is the step where `f` fails, `ok` is an attempt without
failures. -/
structure Step (S F D : Type) where
  data : S → D
  goal : D → D
  flag : S → Bool
  attempt : F → S → S
  ok : F
  Valid : S → Prop
  Careful : F → S → Prop
  valid_attempt : ∀ {f s}, Valid s → Valid (attempt f s)
  data_of_flag : ∀ {f s}, flag s = true → data (attempt f s) = data s
  flag_of_flag : ∀ {f s}, flag s = true → flag (attempt f s) = true
  goal_attempt : ∀ {f s}, Valid s → flag s = false → goal (data (attempt f s)) = goal (data s)
  reached : ∀ {f s}, flag s = false → Careful f s → flag (attempt f s) = true →
    data (attempt f s) = goal (data s)
  flag_ok : ∀ {s}, flag s = false → flag (attempt ok s) = true
  careful_ok : ∀ {s}, Careful ok s

namespace Step

variable {S F D : Type} (P : Step S F D)

/-- Attempts, one after the other. -/
def run (s : S) (l : List F) : S := l.foldl (fun s f => P.attempt f s) s

/-- Each attempt is careful in the state that it meets. -/
def CarefulRun (s : S) (l : List F) : Prop :=
  ∀ l₁ f l₂, l = l₁ ++ f :: l₂ → P.Careful f (P.run s l₁)

/-- What the data are headed for. -/
def target (s : S) : D := if P.flag s then P.data s else P.goal (P.data s)

variable {P} {s : S} {f : F} {l : List F}

theorem target_of_flag (h : P.flag s = true) : P.target s = P.data s := if_pos h

/-- A careful attempt keeps what the data are headed for. -/
theorem target_attempt (hs : P.Valid s) (hf : P.Careful f s) :
    P.target (P.attempt f s) = P.target s := by
  by_cases hflag : P.flag s = true
  · rw [target_of_flag (P.flag_of_flag hflag), target_of_flag hflag, P.data_of_flag hflag]
  · have hunset := Bool.eq_false_iff.2 hflag
    rw [target, target, if_neg hflag]
    by_cases hset : P.flag (P.attempt f s) = true
    · rw [if_pos hset, P.reached hunset hf hset]
    · rw [if_neg hset, P.goal_attempt hs hunset]

theorem CarefulRun.cons (h : P.CarefulRun s (f :: l)) :
    P.Careful f s ∧ P.CarefulRun (P.attempt f s) l :=
  ⟨h [] f l rfl, fun l₁ f' l₂ hl => h (f :: l₁) f' l₂ (congrArg (f :: ·) hl)⟩

/-- **Careful attempts keep what the data are headed for.** -/
theorem target_run (hs : P.Valid s) (hl : P.CarefulRun s l) :
    P.target (P.run s l) = P.target s := by
  induction l generalizing s with
  | nil => rfl
  | cons f l ih =>
    show P.target (P.run (P.attempt f s) l) = P.target s
    rw [ih (P.valid_attempt hs) hl.cons.2, target_attempt hs hl.cons.1]

theorem flag_run (h : P.flag s = true) : P.flag (P.run s l) = true := by
  induction l generalizing s with
  | nil => exact h
  | cons f l ih => exact ih (P.flag_of_flag h)

/-- **Once the flag is set**, the data stay as they are. -/
theorem data_run_of_flag (h : P.flag s = true) : P.data (P.run s l) = P.data s := by
  induction l generalizing s with
  | nil => rfl
  | cons f l ih =>
    show P.data (P.run (P.attempt f s) l) = P.data s
    rw [ih (P.flag_of_flag h), P.data_of_flag h]

theorem flag_attempt_ok (s : S) : P.flag (P.attempt P.ok s) = true := by
  by_cases h : P.flag s = true
  · exact P.flag_of_flag h
  · exact P.flag_ok (Bool.eq_false_iff.2 h)

theorem flag_run_of_mem (h : P.ok ∈ l) : P.flag (P.run s l) = true := by
  induction l generalizing s with
  | nil => cases h
  | cons f l ih =>
    rcases List.mem_cons.1 h with rfl | h
    · show P.flag (P.run (P.attempt P.ok s) l) = true
      exact flag_run (flag_attempt_ok s)
    · exact ih h

/-- **With one attempt that succeeds**, careful attempts leave the data of that attempt alone. -/
theorem data_run (hs : P.Valid s) (hl : P.CarefulRun s l) (hok : P.ok ∈ l) :
    P.data (P.run s l) = P.data (P.attempt P.ok s) := by
  calc P.data (P.run s l) = P.target (P.run s l) := (target_of_flag (flag_run_of_mem hok)).symm
    _ = P.target s := target_run hs hl
    _ = P.target (P.attempt P.ok s) := (target_attempt hs P.careful_ok).symm
    _ = P.data (P.attempt P.ok s) := target_of_flag (flag_attempt_ok s)

end Step

end Retry

import Mathlib.Data.List.Induction
import Mathlib.Data.List.Pairwise
import Mathlib.Order.Monotone.Basic
import Mathlib.Tactic.Common

/-!
# The first observation of a period

Observations are made one after the other, each at a time that belongs to a period. The baseline is
what was first observed in the period of the last observation.

* `roll`, `baseline`: a baseline that is replaced when the period has changed;
* `firstIn`: the first observation of a period;
* **`baseline_concat`**: for times in order, the baseline is the first observation of the period.
-/

namespace Baseline

variable {T K V : Type*} [DecidableEq K] (key : T → K)

/-- A baseline is kept within its period. -/
def roll (b : Option (K × V)) (x : T × V) : K × V :=
  match b with
  | some (k, v) => if k = key x.1 then (k, v) else (key x.1, x.2)
  | none => (key x.1, x.2)

/-- The baseline after some observations. -/
def baseline (l : List (T × V)) : Option (K × V) := l.foldl (fun b x => some (roll key b x)) none

/-- The first observation of the period of a time. -/
def firstIn (t : T) (l : List (T × V)) : Option V :=
  (l.find? fun x => key x.1 = key t).map Prod.snd

@[simp] theorem baseline_nil : baseline key ([] : List (T × V)) = none := rfl

theorem baseline_snoc (l : List (T × V)) (x : T × V) :
    baseline key (l ++ [x]) = some (roll key (baseline key l) x) := by
  rw [baseline, List.foldl_append]
  rfl

variable {key}

theorem firstIn_congr {t t' : T} (h : key t = key t') (l : List (T × V)) :
    firstIn key t l = firstIn key t' l := by
  unfold firstIn
  rw [h]

/-- An observation of a period that was observed before is not its first. -/
theorem firstIn_snoc {l : List (T × V)} {x y : T × V} (hx : x ∈ l) (h : key x.1 = key y.1) :
    firstIn key y.1 (l ++ [y]) = firstIn key y.1 l := by
  have hsome : (l.find? fun z => decide (key z.1 = key y.1)).isSome := by
    rw [List.find?_isSome]
    exact ⟨x, hx, by simpa using h⟩
  rw [firstIn, firstIn, List.find?_append, Option.or_of_isSome hsome]

/-- The first observation of a new period. -/
theorem firstIn_new {l : List (T × V)} {y : T × V} (h : ∀ x ∈ l, key x.1 ≠ key y.1) :
    firstIn key y.1 (l ++ [y]) = some y.2 := by
  have hnone : (l.find? fun z => decide (key z.1 = key y.1)) = none := by
    rw [List.find?_eq_none]
    exact fun x hx => by simpa using h x hx
  rw [firstIn, List.find?_append, hnone]
  simp

omit [DecidableEq K] in
/-- Times in order reach no period again that they have left. -/
theorem key_ne_of_left [Preorder T] [PartialOrder K] (hkey : Monotone key) {l : List (T × V)}
    {x y : T × V} (hl : (l ++ [x] ++ [y]).Pairwise fun a b => a.1 ≤ b.1) (h : key x.1 ≠ key y.1) :
    ∀ z ∈ l ++ [x], key z.1 ≠ key y.1 := by
  intro z hz heq
  obtain ⟨hfirst, -, hlast⟩ := List.pairwise_append.1 hl
  have hxy : key x.1 ≤ key y.1 := hkey (hlast x (by simp) y (by simp))
  have hzx : key z.1 ≤ key x.1 := by
    rcases List.mem_append.1 hz with hz | hz
    · exact hkey ((List.pairwise_append.1 hfirst).2.2 z hz x (by simp))
    · rw [List.mem_singleton.1 hz]
  rw [heq] at hzx
  exact h (le_antisymm hxy hzx)

/-- **The baseline is the first observation of the period of the last one.** -/
theorem baseline_concat [Preorder T] [PartialOrder K] (hkey : Monotone key) {l : List (T × V)}
    {y : T × V} (hl : (l ++ [y]).Pairwise fun a b => a.1 ≤ b.1) :
    baseline key (l ++ [y]) = (firstIn key y.1 (l ++ [y])).map fun v => (key y.1, v) := by
  induction l using List.reverseRecOn generalizing y with
  | nil =>
    rw [firstIn_new (by simp)]
    rfl
  | append_singleton l x ih =>
    have hupTo : (l ++ [x]).Pairwise fun a b => a.1 ≤ b.1 := (List.pairwise_append.1 hl).1
    rw [baseline_snoc, ih hupTo]
    by_cases h : key x.1 = key y.1
    · have hx : x ∈ l ++ [x] := by simp
      have hsome : (firstIn key x.1 (l ++ [x])).isSome := by
        rw [firstIn, Option.isSome_map, List.find?_isSome]
        exact ⟨x, hx, by simp⟩
      obtain ⟨v, hv⟩ := Option.isSome_iff_exists.1 hsome
      rw [firstIn_snoc hx h, ← firstIn_congr h, hv]
      simp [roll, h]
    · rw [firstIn_new (key_ne_of_left hkey hl h)]
      cases firstIn key x.1 (l ++ [x]) <;> simp [roll, h]

end Baseline

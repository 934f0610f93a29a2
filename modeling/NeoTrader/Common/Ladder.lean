import Mathlib.Data.List.Basic

/-!
# A ladder climbed along a path

The rungs of a ladder are taken in order, at most one at each point of a path, where the point
reaches the rung.

* `climb`: the rungs taken along a path;
* `climb_replicate`: a point that reaches every rung, often enough, climbs the whole ladder;
* **`climb_injective`**: two ladders climbed alike along every path are the same.
-/

namespace Ladder

variable {α P : Type*} {reaches : P → α → Prop} [∀ p a, Decidable (reaches p a)]
  {l l₁ l₂ : List α} {path : List P} {p : P} {n : ℕ}

/-- The rungs of a ladder that are taken along a path. -/
def climb (reaches : P → α → Prop) [∀ p a, Decidable (reaches p a)] : List α → List P → List α
  | _, [] => []
  | [], _ :: _ => []
  | a :: l, p :: path =>
    if reaches p a then a :: climb reaches l path else climb reaches (a :: l) path

@[simp] theorem climb_nil : climb reaches l [] = [] := by
  rw [climb]

@[simp] theorem nil_climb : climb reaches [] path = [] := by
  cases path <;> rw [climb]

theorem climb_cons_of_pos {a : α} (h : reaches p a) :
    climb reaches (a :: l) (p :: path) = a :: climb reaches l path := if_pos h

theorem climb_cons_of_neg {a : α} (h : ¬ reaches p a) :
    climb reaches (a :: l) (p :: path) = climb reaches (a :: l) path := if_neg h

/-- The rungs taken are the first ones. -/
theorem exists_append_climb (reaches : P → α → Prop) [∀ p a, Decidable (reaches p a)] (l : List α)
    (path : List P) :
    ∃ rest, l = climb reaches l path ++ rest := by
  induction path generalizing l with
  | nil => exact ⟨l, by simp⟩
  | cons p path ih =>
    cases l with
    | nil => exact ⟨[], by simp⟩
    | cons a l =>
      by_cases ha : reaches p a
      · obtain ⟨rest, hrest⟩ := ih l
        refine ⟨rest, ?_⟩
        rw [climb_cons_of_pos ha, List.cons_append, ← hrest]
      · rw [climb_cons_of_neg ha]
        exact ih (a :: l)

theorem climb_replicate (hall : ∀ a ∈ l, reaches p a) (hn : l.length ≤ n) :
    climb reaches l (List.replicate n p) = l := by
  induction l generalizing n with
  | nil => exact nil_climb
  | cons a l ih =>
    obtain ⟨m, rfl⟩ : ∃ m, n = m + 1 := ⟨n - 1, by simp at hn; omega⟩
    rw [List.replicate_succ, climb_cons_of_pos (hall a List.mem_cons_self)]
    rw [ih (fun b hb => hall b (List.mem_cons_of_mem a hb)) (Nat.le_of_succ_le_succ hn)]

/-- **Two ladders that are climbed alike along every path are the same**, where some point reaches
all the rungs of both. -/
theorem climb_injective (hhigh : ∀ l : List α, ∃ p, ∀ a ∈ l, reaches p a)
    (h : ∀ path, climb reaches l₁ path = climb reaches l₂ path) : l₁ = l₂ := by
  obtain ⟨p, hp⟩ := hhigh (l₁ ++ l₂)
  have h₁ : climb reaches l₁ (List.replicate (l₁.length + l₂.length) p) = l₁ :=
    climb_replicate (fun a ha => hp a (List.mem_append_left l₂ ha)) (Nat.le_add_right _ _)
  have h₂ : climb reaches l₂ (List.replicate (l₁.length + l₂.length) p) = l₂ :=
    climb_replicate (fun a ha => hp a (List.mem_append_right l₁ ha)) (Nat.le_add_left _ _)
  rw [← h₁, h, h₂]

end Ladder

import Mathlib.Algebra.Ring.Divisibility.Basic
import Mathlib.Algebra.Ring.Int.Defs
import Mathlib.Data.List.Induction

/-!
# Every n-th time

A counter is stepped by one, and where it would come to `n` an action is triggered and the counter
goes back to zero; an action that fails leaves the counter as it is.

* `Turn`, `after`, `Follows`: the turns of such a counter;
* `Follows.failed_next`: a failed action is tried again in the next turn;
* **`Follows.triggered_iff`**, **`Follows.count_triggered`**: without failures it is every `n`-th
  turn that triggers the action.
-/

namespace Cadence

inductive Turn
  | counted | triggered | failed
  deriving DecidableEq, Repr

variable {n c c' : ℤ} {t t' : Turn} {l l' : List Turn}

/-- The counter after a turn, where the turn may be so. -/
def after (n c : ℤ) : Turn → Option ℤ
  | .counted => if c + 1 < n then some (c + 1) else none
  | .triggered => if n ≤ c + 1 then some 0 else none
  | .failed => if n ≤ c + 1 then some c else none

/-- **The turns of a counter** that starts at zero, and what it comes to. -/
inductive Follows (n : ℤ) : List Turn → ℤ → Prop
  | nil : Follows n [] 0
  | snoc {l : List Turn} {c c' : ℤ} {t : Turn} : Follows n l c → after n c t = some c' →
      Follows n (l ++ [t]) c'

theorem Follows.counted (h : Follows n l c) (hc : c + 1 < n) :
    Follows n (l ++ [.counted]) (c + 1) := h.snoc (if_pos hc)

theorem Follows.triggered (h : Follows n l c) (hc : n ≤ c + 1) :
    Follows n (l ++ [.triggered]) 0 := h.snoc (if_pos hc)

theorem Follows.failed (h : Follows n l c) (hc : n ≤ c + 1) :
    Follows n (l ++ [.failed]) c := h.snoc (if_pos hc)

/-- The counter is not negative. -/
theorem Follows.nonneg (h : Follows n l c) : 0 ≤ c := by
  induction h with
  | nil => exact Int.le_refl 0
  | @snoc l c c' t _ hafter ih =>
    cases t <;> simp only [after] at hafter <;> split_ifs at hafter <;> cases hafter <;> omega

/-- The last of the turns. -/
theorem Follows.last (h : Follows n (l ++ [t]) c') :
    ∃ c, Follows n l c ∧ after n c t = some c' := by
  generalize hl : l ++ [t] = l' at h
  cases h with
  | nil => simp at hl
  | snoc h hafter =>
    obtain ⟨rfl, hlast⟩ := List.append_inj' hl rfl
    cases hlast
    exact ⟨_, h, hafter⟩

/-- The turns up to one of them. -/
theorem Follows.upTo (h : Follows n (l ++ l') c) : ∃ c', Follows n l c' := by
  induction l' using List.reverseRecOn generalizing c with
  | nil => exact ⟨c, by rwa [List.append_nil] at h⟩
  | append_singleton l' t ih =>
    rw [← List.append_assoc] at h
    obtain ⟨c', h', -⟩ := h.last
    exact ih h'

/-- **A failed action is tried again** in the next turn. -/
theorem Follows.failed_next (h : Follows n (l ++ .failed :: t :: l') c) : t ≠ .counted := by
  have hsplit : l ++ .failed :: t :: l' = l ++ [.failed] ++ [t] ++ l' := by simp
  rw [hsplit] at h
  obtain ⟨c₂, h₂⟩ := h.upTo
  obtain ⟨c₁, h₁, hafter₂⟩ := h₂.last
  obtain ⟨c₀, -, hafter₁⟩ := h₁.last
  rintro rfl
  simp only [after] at hafter₁ hafter₂
  split_ifs at hafter₁ hafter₂ with hle hlt
  cases hafter₁
  omega

/-- Without failures the counter is the number of turns, up to `n`. -/
theorem Follows.counter (hn : 1 ≤ n) (h : Follows n l c) (hfail : Turn.failed ∉ l) :
    c = l.length % n ∧ (l.count .triggered : ℤ) = l.length / n := by
  induction h with
  | nil => simp
  | @snoc l c c' t _ hafter ih =>
    simp only [List.mem_append, List.mem_singleton, not_or] at hfail
    obtain ⟨hc, hcount⟩ := ih hfail.1
    have hlt := Int.emod_lt_of_pos (l.length : ℤ) (by omega : 0 < n)
    have hnonneg := Int.emod_nonneg (l.length : ℤ) (by omega : n ≠ 0)
    have hdiv := Int.emod_add_mul_ediv (l.length : ℤ) n
    rw [List.length_append, List.count_append, List.length_singleton]
    push_cast
    cases t with
    | counted =>
      rw [after] at hafter
      split_ifs at hafter with hnext
      cases hafter
      have hrest : ((l.length : ℤ) + 1) % n = l.length % n + 1 ∧
          ((l.length : ℤ) + 1) / n = l.length / n :=
        (Int.ediv_emod_unique (by omega)).2 ⟨by omega, by omega, by omega⟩ |>.symm
      rw [hrest.1, hrest.2, hc, hcount]
      exact ⟨rfl, by simp⟩
    | triggered =>
      rw [after] at hafter
      split_ifs at hafter with hnext
      cases hafter
      have hrest : ((l.length : ℤ) + 1) / n = l.length / n + 1 ∧ ((l.length : ℤ) + 1) % n = 0 :=
        (Int.ediv_emod_unique (by omega)).2 ⟨by rw [mul_add]; omega, by omega, by omega⟩
      rw [hrest.1, hrest.2, hcount]
      exact ⟨rfl, by simp⟩
    | failed => exact absurd rfl hfail.2

/-- **The action is triggered** as many times as `n` goes into the number of turns. -/
theorem Follows.count_triggered (hn : 1 ≤ n) (h : Follows n l c) (hfail : Turn.failed ∉ l) :
    (l.count .triggered : ℤ) = l.length / n := (h.counter hn hfail).2

/-- **It is triggered in every `n`-th turn.** -/
theorem Follows.triggered_iff (hn : 1 ≤ n) (h : Follows n l c) (hfail : Turn.failed ∉ l) {k : ℕ}
    (hk : k < l.length) : l[k] = .triggered ↔ n ∣ k + 1 := by
  have hsplit : l = l.take k ++ [l[k]] ++ l.drop (k + 1) := by
    rw [List.take_append_getElem, List.take_append_drop]
  rw [hsplit] at h
  obtain ⟨c', h'⟩ := h.upTo
  obtain ⟨c, hbefore, hafter⟩ := h'.last
  obtain ⟨hc, -⟩ := hbefore.counter hn fun hmem => hfail (List.mem_of_mem_take hmem)
  rw [List.length_take, Nat.min_eq_left (Nat.le_of_lt hk)] at hc
  have hne : l[k] ≠ .failed := fun heq => hfail (heq ▸ List.getElem_mem hk)
  have hlt := Int.emod_lt_of_pos (k : ℤ) (by omega : 0 < n)
  have hnonneg := Int.emod_nonneg (k : ℤ) (by omega : n ≠ 0)
  have hdvd : n ∣ (k : ℤ) + 1 ↔ n ≤ k % n + 1 := by
    have hk' : (k : ℤ) + 1 = k % n + 1 + n * (k / n) := by
      have := Int.emod_add_mul_ediv (k : ℤ) n
      omega
    rw [hk', dvd_add_left (dvd_mul_right n _)]
    constructor
    · exact Int.le_of_dvd (by omega)
    · intro hle
      rw [show (k : ℤ) % n + 1 = n by omega]
  rw [hdvd, ← hc]
  cases hturn : l[k] with
  | counted =>
    rw [hturn, after] at hafter
    split_ifs at hafter with hnext
    exact iff_of_false nofun (by omega)
  | triggered =>
    rw [hturn, after] at hafter
    split_ifs at hafter with hnext
    exact iff_of_true rfl hnext
  | failed => exact absurd hturn hne

end Cadence

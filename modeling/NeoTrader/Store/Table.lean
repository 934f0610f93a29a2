import Mathlib.Data.List.Basic
import Mathlib.Tactic.Common

/-!
# Tables kept as lists of rows

A table is the list of its rows in the order of their creation. `modify p f` rewrites the rows that
satisfy `p`, as an update with a `WHERE` clause does.

* `modify`, `mem_modify`, `forall_modify`: which rows a table has after an update;
* `find?_modify`: an update that keeps what a query looks at commutes with the query;
* `Keyed`: a key determines its row, and stays so under updates that keep the key.
-/

namespace Store

variable {R : Type}

/-- Rewrite the rows that satisfy `p`. -/
def modify (p : R → Bool) (f : R → R) (rows : List R) : List R :=
  rows.map fun r => if p r then f r else r

variable {p : R → Bool} {f : R → R} {rows : List R}

@[simp] theorem modify_nil : modify p f [] = [] := rfl

theorem mem_modify {r' : R} :
    r' ∈ modify p f rows ↔ ∃ r ∈ rows, (p r ∧ r' = f r) ∨ (¬ p r ∧ r' = r) := by
  simp only [modify, List.mem_map]
  refine exists_congr fun r => and_congr_right fun _ => ?_
  by_cases h : p r = true <;> simp [h, eq_comm]

theorem forall_modify {Q : R → Prop} (hp : ∀ r ∈ rows, p r → Q (f r))
    (hn : ∀ r ∈ rows, ¬ p r → Q r) : ∀ r ∈ modify p f rows, Q r := by
  intro r' hr'
  obtain ⟨r, hr, ⟨h, rfl⟩ | ⟨h, rfl⟩⟩ := mem_modify.1 hr'
  · exact hp r hr h
  · exact hn r' hr h

theorem mem_modify_of_not {r : R} (hr : r ∈ rows) (h : ¬ p r) : r ∈ modify p f rows :=
  mem_modify.2 ⟨r, hr, .inr ⟨h, rfl⟩⟩

theorem mem_modify_of {r : R} (hr : r ∈ rows) (h : p r) : f r ∈ modify p f rows :=
  mem_modify.2 ⟨r, hr, .inl ⟨h, rfl⟩⟩

theorem modify_of_not (h : ∀ r ∈ rows, ¬ p r) : modify p f rows = rows := by
  induction rows with
  | nil => rfl
  | cons a l ih =>
    have ha := h a List.mem_cons_self
    have hl := ih fun r hr => h r (List.mem_cons_of_mem _ hr)
    simp only [modify, List.map_cons, if_neg ha] at hl ⊢
    rw [hl]

theorem find?_modify {q : R → Bool} (hq : ∀ r, p r → q (f r) = q r) :
    (modify p f rows).find? q = (rows.find? q).map fun r => if p r then f r else r := by
  induction rows with
  | nil => rfl
  | cons a l ih =>
    have ha : q (if p a then f a else a) = q a := by
      by_cases h : p a = true
      · rw [if_pos h, hq a h]
      · rw [if_neg h]
    simp only [modify, List.map_cons, List.find?_cons, ha] at ih ⊢
    cases q a with
    | true => rfl
    | false => exact ih

theorem map_modify {C : Type} {g : R → C} (hg : ∀ r, g (f r) = g r) :
    (modify p f rows).map g = rows.map g := by
  rw [modify, List.map_map]
  refine List.map_congr_left fun r _ => ?_
  show g (if p r then f r else r) = g r
  by_cases h : p r = true
  · rw [if_pos h, hg]
  · rw [if_neg h]

/-! ## Keys -/

variable {K : Type} {key : R → K}

/-- Rows with equal keys are equal. -/
def Keyed (key : R → K) (rows : List R) : Prop :=
  ∀ r ∈ rows, ∀ r' ∈ rows, key r = key r' → r = r'

theorem keyed_nil : Keyed key [] := by
  intro r hr
  cases hr

theorem Keyed.concat (h : Keyed key rows) {a : R} (ha : ∀ r ∈ rows, key r ≠ key a) :
    Keyed key (rows ++ [a]) := by
  intro r hr r' hr' he
  rcases List.mem_append.1 hr with hr | hr <;> rcases List.mem_append.1 hr' with hr' | hr'
  · exact h r hr r' hr' he
  · rw [List.mem_singleton.1 hr'] at he
    exact absurd he (ha r hr)
  · rw [List.mem_singleton.1 hr] at he
    exact absurd he.symm (ha r' hr')
  · rw [List.mem_singleton.1 hr, List.mem_singleton.1 hr']

theorem Keyed.modify (h : Keyed key rows) (hf : ∀ r, key (f r) = key r) :
    Keyed key (modify p f rows) := by
  intro r hr r' hr' he
  obtain ⟨a, ha, hra⟩ := mem_modify.1 hr
  obtain ⟨b, hb, hrb⟩ := mem_modify.1 hr'
  have hab : a = b := by
    refine h a ha b hb ?_
    rcases hra with ⟨-, rfl⟩ | ⟨-, rfl⟩ <;> rcases hrb with ⟨-, rfl⟩ | ⟨-, rfl⟩ <;>
      simpa only [hf] using he
  subst hab
  rcases hra with ⟨hpa, rfl⟩ | ⟨hpa, rfl⟩ <;> rcases hrb with ⟨hpb, rfl⟩ | ⟨hpb, rfl⟩ <;>
    first | rfl | exact absurd hpa hpb | exact absurd hpb hpa

end Store

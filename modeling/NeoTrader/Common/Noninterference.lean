import Mathlib.Data.List.Basic
import Mathlib.Data.Set.Basic

/-!
# Noninterference

A result hides what a relation lets differ if related inputs give the same result.

* **`Hides`** and its rules: constants, compositions, pairs, and lists built key by key;
* `AgreeOn`: environments that have the same values for some keys; a result that hides the other keys
  reads none of them (**`Hides.mem`**).
-/

namespace Noninterference

variable {α β γ δ ι κ υ : Type*}

/-- **Related inputs give the same result.** -/
def Hides (R : α → α → Prop) (f : α → β) : Prop := ∀ a a', R a a' → f a = f a'

theorem hides_const (R : α → α → Prop) (b : β) : Hides R fun _ => b := fun _ _ _ => rfl

theorem Hides.comp {R : α → α → Prop} {f : α → β} (h : Hides R f) (g : β → γ) :
    Hides R fun a => g (f a) :=
  fun a a' ha => congrArg g (h a a' ha)

theorem Hides.map₂ {R : α → α → Prop} {f : α → β} {f' : α → γ} (h : Hides R f) (h' : Hides R f')
    (g : β → γ → δ) : Hides R fun a => g (f a) (f' a) := by
  intro a a' ha
  show g (f a) (f' a) = g (f a') (f' a')
  rw [h a a' ha, h' a a' ha]

theorem Hides.mono {R R' : α → α → Prop} {f : α → β} (h : Hides R f) (hR : ∀ a a', R' a a' → R a a') :
    Hides R' f :=
  fun a a' ha => h a a' (hR a a' ha)

/-- A list built key by key hides what each of its elements hides. -/
theorem hides_filterMap {R : α → α → Prop} {f : α → ι → Option β} {l : List ι}
    (h : ∀ i ∈ l, Hides R fun a => f a i) : Hides R fun a => l.filterMap (f a) :=
  fun a a' ha => List.filterMap_congr fun i hi => h i hi a a' ha

/-! ## Environments -/

/-- Environments with the same values for some keys. -/
def AgreeOn (keys : Set κ) (env env' : κ → υ) : Prop := ∀ key ∈ keys, env key = env' key

theorem AgreeOn.mono {keys keys' : Set κ} {env env' : κ → υ} (h : AgreeOn keys env env')
    (hsub : keys' ⊆ keys) : AgreeOn keys' env env' :=
  fun key hkey => h key (hsub hkey)

/-- Environments that differ in one key only. -/
theorem agreeOn_update [DecidableEq κ] {keys : Set κ} {key : κ} (h : key ∉ keys) (env : κ → υ) (v : υ) :
    AgreeOn keys (Function.update env key v) env := by
  intro k hk
  have hne : k ≠ key := by
    rintro rfl
    exact h hk
  exact Function.update_of_ne hne v env

/-- **What a result reads may not differ.** -/
theorem Hides.mem [DecidableEq κ] {keys : Set κ} {f : (κ → υ) → β} {key : κ}
    (h : Hides (AgreeOn keys) f) (env : κ → υ) (v : υ)
    (hreads : f (Function.update env key v) ≠ f env) : key ∈ keys := by
  by_contra hnot
  exact hreads (h _ _ (agreeOn_update hnot env v))

theorem hides_lookup {keys : Set κ} {key : κ} (h : key ∈ keys) :
    Hides (AgreeOn keys) fun env : κ → υ => env key :=
  fun _ _ henv => henv key h

end Noninterference

import Mathlib.Data.List.Sublists
import Mathlib.Data.List.Induction

/-!
# Caches whose entries expire

A cache is a map in the order of its insertions. Entries are put under a key, dropped by a pattern
of their keys, and trimmed at any time.

* `lookup`, `put`, `drop`: the map;
* `Step`, `Run`: what may become of a cache;
* **`Run.origin`**: an entry was put, and since then neither put again under its key nor dropped.
-/

namespace Expiring

variable {K α : Type}

/-! ## The map -/

/-- `map.get(key)`. -/
def lookup [DecidableEq K] (c : List (K × α)) (k : K) : Option α :=
  (c.find? fun x => x.1 = k).map Prod.snd

/-- `map.set(key, value)`: an entry that exists keeps its place. -/
def put [DecidableEq K] (k : K) (e : α) : List (K × α) → List (K × α)
  | [] => [(k, e)]
  | x :: rest => if x.1 = k then (k, e) :: rest else x :: put k e rest

/-- `map.delete(key)` for the keys of a pattern. -/
def drop (p : K → Bool) (c : List (K × α)) : List (K × α) := c.filter fun x => !p x.1

/-- The keys of a map are different. -/
def Keyed (c : List (K × α)) : Prop := (c.map Prod.fst).Nodup

section Map

variable {c c' : List (K × α)} {k : K} {e e' : α}

theorem keyed_cons {x : K × α} : Keyed (x :: c) ↔ x.1 ∉ c.map Prod.fst ∧ Keyed c :=
  List.nodup_cons

theorem Keyed.eq_of_mem (h : Keyed c) (he : (k, e) ∈ c) (he' : (k, e') ∈ c) : e = e' := by
  induction c with
  | nil => cases he
  | cons x rest ih =>
    rw [keyed_cons] at h
    have hnot : ∀ v, (k, v) ∈ rest → x.1 ≠ k := fun v hv heq =>
      h.1 (List.mem_map.2 ⟨_, hv, heq.symm⟩)
    rcases List.mem_cons.1 he with hx | he
    · rcases List.mem_cons.1 he' with hx' | he'
      · exact congrArg Prod.snd (hx.trans hx'.symm)
      · exact absurd (congrArg Prod.fst hx).symm (hnot e' he')
    · rcases List.mem_cons.1 he' with hx' | he'
      · exact absurd (congrArg Prod.fst hx').symm (hnot e he)
      · exact ih h.2 he he'

theorem Keyed.sublist (h : Keyed c) (hsub : c'.Sublist c) : Keyed c' :=
  List.Nodup.sublist (hsub.map Prod.fst) h

variable [DecidableEq K]

theorem put_cons (x : K × α) (rest : List (K × α)) :
    put k e (x :: rest) = if x.1 = k then (k, e) :: rest else x :: put k e rest := rfl

theorem mem_of_lookup (h : lookup c k = some e) : (k, e) ∈ c := by
  obtain ⟨x, hx, rfl⟩ := Option.map_eq_some_iff.1 h
  have hfound := List.find?_some hx
  rw [← of_decide_eq_true hfound]
  exact List.mem_of_find?_eq_some hx

theorem mem_put {x : K × α} (h : x ∈ put k e c) : x = (k, e) ∨ x ∈ c := by
  induction c with
  | nil => exact Or.inl (List.mem_singleton.1 h)
  | cons y rest ih =>
    rw [put_cons] at h
    split_ifs at h with hy
    · rcases List.mem_cons.1 h with rfl | h
      · exact Or.inl rfl
      · exact Or.inr (List.mem_cons_of_mem y h)
    · rcases List.mem_cons.1 h with rfl | h
      · exact Or.inr List.mem_cons_self
      · exact (ih h).imp_right (List.mem_cons_of_mem y)

theorem Keyed.put (h : Keyed c) (k : K) (e : α) : Keyed (put k e c) := by
  induction c with
  | nil => exact List.nodup_singleton k
  | cons x rest ih =>
    rw [keyed_cons] at h
    rw [put_cons]
    split_ifs with hx
    · rw [keyed_cons]
      exact ⟨hx ▸ h.1, h.2⟩
    · rw [keyed_cons]
      refine ⟨fun hmem => ?_, ih h.2⟩
      obtain ⟨y, hy, heq⟩ := List.mem_map.1 hmem
      rcases mem_put hy with rfl | hy
      · exact hx heq.symm
      · exact h.1 (List.mem_map.2 ⟨y, hy, heq⟩)

/-- What is under the key of an entry that is put. -/
theorem Keyed.eq_of_mem_put (h : Keyed c) (hmem : (k, e') ∈ Expiring.put k e c) : e' = e := by
  have hself : (k, e) ∈ Expiring.put k e c := by
    clear h hmem
    induction c with
    | nil => exact List.mem_singleton.2 rfl
    | cons x rest ih =>
      rw [put_cons]
      split_ifs
      · exact List.mem_cons_self
      · exact List.mem_cons_of_mem x ih
  exact (h.put k e).eq_of_mem hmem hself

theorem length_put_le : (put k e c).length ≤ c.length + 1 := by
  induction c with
  | nil => exact le_rfl
  | cons x rest ih =>
    rw [put_cons]
    split_ifs
    · exact Nat.le_succ _
    · exact Nat.succ_le_succ ih

/-- An entry that is put again takes no more room. -/
theorem length_put_of_mem (h : k ∈ c.map Prod.fst) : (put k e c).length = c.length := by
  induction c with
  | nil => cases h
  | cons x rest ih =>
    rw [put_cons]
    split_ifs with hx
    · rfl
    · rw [List.length_cons, List.length_cons, ih]
      exact (List.mem_cons.1 h).resolve_left fun heq => hx heq.symm

theorem lookup_drop {p : K → Bool} (h : p k = false) : lookup (drop p c) k = lookup c k := by
  show ((c.filter fun x => !p x.1).find? _).map Prod.snd = (c.find? _).map Prod.snd
  rw [List.find?_filter]
  congr 2
  funext x
  by_cases hx : x.1 = k
  · simp [hx, h]
  · simp [hx]

end Map

/-! ## Runs -/

/-- What is done to a cache. -/
inductive Op (K α : Type)
  | put (k : K) (e : α)
  | drop (p : K → Bool)
  | trim

/-- **One step**: entries are trimmed before another is put. -/
inductive Step [DecidableEq K] : Op K α → List (K × α) → List (K × α) → Prop
  | put {k : K} {e : α} {c c' : List (K × α)} (h : c'.Sublist c) : Step (.put k e) c (put k e c')
  | drop {p : K → Bool} {c : List (K × α)} : Step (.drop p) c (drop p c)
  | trim {c c' : List (K × α)} (h : c'.Sublist c) : Step .trim c c'

/-- An operation that ends what is under a key. -/
def Op.Ends (k : K) : Op K α → Prop
  | .put k' _ => k' = k
  | .drop p => p k = true
  | .trim => False

/-- The steps of a cache that is empty at first, one after another. -/
inductive Run [DecidableEq K] : List (Op K α) → List (K × α) → Prop
  | nil : Run [] []
  | snoc {ops : List (Op K α)} {op : Op K α} {c c' : List (K × α)} (h : Run ops c)
      (hstep : Step op c c') : Run (ops ++ [op]) c'

variable [DecidableEq K] {c c' : List (K × α)} {k : K} {e : α}

theorem Step.keyed {op : Op K α} (h : Step op c c') (hc : Keyed c) : Keyed c' := by
  cases h with
  | put hsub => exact (hc.sublist hsub).put _ _
  | drop => exact hc.sublist List.filter_sublist
  | trim hsub => exact hc.sublist hsub

/-- **Where an entry is from after one step.** -/
theorem Step.mem {op : Op K α} (h : Step op c c') (hc : Keyed c) (hmem : (k, e) ∈ c') :
    op = .put k e ∨ (k, e) ∈ c ∧ ¬ op.Ends k := by
  cases h with
  | @put k' e' _ _ hsub =>
    by_cases hk : k' = k
    · subst hk
      exact Or.inl (by rw [(hc.sublist hsub).eq_of_mem_put hmem])
    · rcases mem_put hmem with heq | hold
      · exact absurd (congrArg Prod.fst heq).symm hk
      · exact Or.inr ⟨hsub.subset hold, hk⟩
  | @drop p =>
    obtain ⟨hold, hp⟩ := List.mem_filter.1 hmem
    exact Or.inr ⟨hold, fun hends : p k = true => by simp [hends] at hp⟩
  | trim hsub => exact Or.inr ⟨hsub.subset hmem, id⟩

theorem Run.keyed {ops : List (Op K α)} (h : Run ops c) : Keyed c := by
  induction h with
  | nil => exact List.nodup_nil
  | snoc _ hstep ih => exact hstep.keyed ih

/-- **An entry was put, and since then nothing ended it.** -/
theorem Run.origin {ops : List (Op K α)} (h : Run ops c) (hmem : (k, e) ∈ c) :
    ∃ before since, ops = before ++ .put k e :: since ∧ ∀ op ∈ since, ¬ op.Ends k := by
  induction h with
  | nil => cases hmem
  | @snoc ops op c _ hrun hstep ih =>
    rcases hstep.mem hrun.keyed hmem with rfl | ⟨hold, hends⟩
    · exact ⟨ops, [], rfl, fun _ hop => by cases hop⟩
    · obtain ⟨before, since, rfl, hsince⟩ := ih hold
      refine ⟨before, since ++ [op], by simp, fun op' hop' => ?_⟩
      rcases List.mem_append.1 hop' with hop' | hop'
      · exact hsince op' hop'
      · rw [List.mem_singleton.1 hop']
        exact hends

end Expiring

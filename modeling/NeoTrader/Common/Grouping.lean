import Mathlib.Algebra.BigOperators.Group.List.Basic
import Mathlib.Data.List.Induction
import Mathlib.Data.List.Perm.Basic
import Mathlib.Data.List.Nodup
import Mathlib.Order.Defs.LinearOrder

/-!
# Groups in the order of their first members

Elements come with keys. Each is added to the group of its key, at its end; a key that is new gets a
group behind the others.

* **`mem_group_iff`**: what the group of a key is;
* **`sorted_keys_group`**: keys that come in order give groups in order;
* `upsert`, **`foldl_upsert`**: values that are updated under their keys are those of the groups.
-/

namespace Grouping

variable {K α : Type} [DecidableEq K] {l : List (K × α)} {groups : List (K × List α)} {k : K}
  {a : α} {g : List α}

/-- An element is added to the group of its key. -/
def add (k : K) (a : α) : List (K × List α) → List (K × List α)
  | [] => [(k, [a])]
  | g :: rest => if g.1 = k then (k, g.2 ++ [a]) :: rest else g :: add k a rest

/-- **The groups of elements with keys.** -/
def group (l : List (K × α)) : List (K × List α) := l.foldl (fun groups x => add x.1 x.2 groups) []

@[simp] theorem group_nil : group ([] : List (K × α)) = [] := rfl

@[simp] theorem group_concat (x : K × α) : group (l ++ [x]) = add x.1 x.2 (group l) := by
  simp [group]

theorem add_of_not_mem (h : k ∉ groups.map Prod.fst) : add k a groups = groups ++ [(k, [a])] := by
  induction groups with
  | nil => rfl
  | cons g rest ih =>
    rw [List.map_cons, List.mem_cons, not_or] at h
    rw [add, if_neg fun heq => h.1 heq.symm, ih h.2, List.cons_append]

/-- Keys that differ give groups of one. -/
theorem group_of_nodup (h : (l.map Prod.fst).Nodup) : group l = l.map fun x => (x.1, [x.2]) := by
  induction l using List.reverseRecOn with
  | nil => rfl
  | append_singleton l x ih =>
    rw [List.map_append, List.nodup_append] at h
    rw [group_concat, ih h.1, List.map_append]
    apply add_of_not_mem
    rw [List.map_map]
    exact fun hmem => h.2.2 _ hmem _ (List.mem_singleton.2 rfl) rfl

/-- A key that is new comes last. -/
theorem keys_add : (add k a groups).map Prod.fst =
    if k ∈ groups.map Prod.fst then groups.map Prod.fst else groups.map Prod.fst ++ [k] := by
  induction groups with
  | nil => rfl
  | cons g rest ih =>
    rw [add]
    by_cases h : g.1 = k
    · simp [h]
    · rw [if_neg h, List.map_cons, ih, List.map_cons]
      have hmem : k ∈ g.1 :: rest.map Prod.fst ↔ k ∈ rest.map Prod.fst :=
        List.mem_cons.trans (or_iff_right fun heq => h heq.symm)
      simp only [hmem]
      split_ifs <;> rfl

theorem nodup_keys_group (l : List (K × α)) : ((group l).map Prod.fst).Nodup := by
  induction l using List.reverseRecOn with
  | nil => exact List.nodup_nil
  | append_singleton l x ih =>
    rw [group_concat, keys_add]
    split_ifs with h
    · exact ih
    · exact List.nodup_append.2 ⟨ih, List.nodup_singleton _, fun k hk k' hk' heq =>
        h (List.mem_singleton.1 hk' ▸ heq ▸ hk)⟩

/-- The elements of a key, in order. -/
def ofKey (k : K) (l : List (K × α)) : List α := (l.filter fun x => x.1 = k).map Prod.snd

theorem ofKey_concat (x : K × α) :
    ofKey k (l ++ [x]) = if x.1 = k then ofKey k l ++ [x.2] else ofKey k l := by
  by_cases h : x.1 = k <;> simp [ofKey, h]

theorem mem_add_iff (h : (groups.map Prod.fst).Nodup) {k' : K} : (k', g) ∈ add k a groups ↔
    if k' = k then (∃ g₀, (k, g₀) ∈ groups ∧ g = g₀ ++ [a]) ∨ k ∉ groups.map Prod.fst ∧ g = [a]
    else (k', g) ∈ groups := by
  induction groups with
  | nil =>
    by_cases hk : k' = k <;> simp [add, hk]
  | cons x rest ih =>
    obtain ⟨kx, gx⟩ := x
    rw [List.map_cons, List.nodup_cons] at h
    rw [add]
    by_cases hx : kx = k
    · subst hx
      rw [if_pos rfl]
      have hnot : ∀ g₀, (kx, g₀) ∉ rest := fun g₀ hmem => h.1 (List.mem_map.2 ⟨_, hmem, rfl⟩)
      by_cases hk : k' = kx
      · subst hk
        simp [hnot]
      · simp [hk]
    · rw [if_neg hx, List.mem_cons, ih h.2]
      by_cases hk : k' = k
      · subst hk
        have hne : ¬ k' = kx := fun heq => hx heq.symm
        simp [hne]
      · simp [hk]

/-- **The group of a key** has its elements, in order. -/
theorem mem_group_iff : (k, g) ∈ group l ↔ g ≠ [] ∧ g = ofKey k l := by
  induction l using List.reverseRecOn generalizing g with
  | nil => simp [ofKey]
  | append_singleton l x ih =>
    rw [group_concat, mem_add_iff (nodup_keys_group l), ofKey_concat]
    by_cases hk : k = x.1
    · rw [if_pos hk, if_pos hk.symm, ← hk]
      have hmem : k ∈ (group l).map Prod.fst ↔ ofKey k l ≠ [] := by
        rw [List.mem_map]
        constructor
        · rintro ⟨⟨k', g'⟩, hmem, rfl⟩
          obtain ⟨hne, heq⟩ := ih.1 hmem
          exact heq ▸ hne
        · intro hne
          exact ⟨(k, ofKey k l), ih.2 ⟨hne, rfl⟩, rfl⟩
      constructor
      · rintro (⟨g₀, hg₀, rfl⟩ | ⟨hnew, rfl⟩)
        · obtain ⟨-, rfl⟩ := ih.1 hg₀
          exact ⟨by simp, rfl⟩
        · rw [not_not.1 (mt hmem.2 hnew)]
          exact ⟨by simp, rfl⟩
      · rintro ⟨-, rfl⟩
        by_cases hempty : ofKey k l = []
        · exact Or.inr ⟨fun h => hmem.1 h hempty, by rw [hempty]; rfl⟩
        · exact Or.inl ⟨_, ih.2 ⟨hempty, rfl⟩, rfl⟩
    · rw [if_neg hk, if_neg fun h => hk h.symm]
      exact ih

theorem perm_add : ((add k a groups).flatMap Prod.snd).Perm (groups.flatMap Prod.snd ++ [a]) := by
  induction groups with
  | nil => exact List.Perm.refl [a]
  | cons g rest ih =>
    rw [add]
    split_ifs
    · simp only [List.flatMap_cons, List.append_assoc]
      exact List.perm_append_comm.append_left g.2
    · simp only [List.flatMap_cons, List.append_assoc]
      exact ih.append_left g.2

/-- **Each element is in one group.** -/
theorem perm_group (l : List (K × α)) : ((group l).flatMap Prod.snd).Perm (l.map Prod.snd) := by
  induction l using List.reverseRecOn with
  | nil => exact List.Perm.refl []
  | append_singleton l x ih =>
    rw [group_concat, List.map_append, List.map_singleton]
    exact perm_add.trans (ih.append_right [x.2])

/-- **Keys that come in order give groups in order.** -/
theorem sorted_keys_group {r : K → K → Prop}
    (h : (l.map Prod.fst).Pairwise fun k k' => k = k' ∨ r k k') :
    ((group l).map Prod.fst).Pairwise r := by
  induction l using List.reverseRecOn with
  | nil => exact List.Pairwise.nil
  | append_singleton l x ih =>
    rw [List.map_append, List.pairwise_append] at h
    obtain ⟨hl, -, hlast⟩ := h
    rw [group_concat, keys_add]
    split_ifs with hnew
    · exact ih hl
    · refine List.pairwise_append.2 ⟨ih hl, List.pairwise_singleton _ _, fun k hk k' hk' => ?_⟩
      rw [List.mem_singleton.1 hk']
      refine (hlast k ?_ x.1 (List.mem_singleton.2 rfl)).resolve_left fun heq => hnew (heq ▸ hk)
      obtain ⟨⟨k₀, g⟩, hg, rfl⟩ := List.mem_map.1 hk
      obtain ⟨hne, heq⟩ := mem_group_iff.1 hg
      obtain ⟨a, ha⟩ := List.exists_mem_of_ne_nil g hne
      rw [heq] at ha
      obtain ⟨y, hy, -⟩ := List.mem_map.1 ha
      obtain ⟨hy, hkey⟩ := List.mem_filter.1 hy
      exact List.mem_map.2 ⟨y, hy, of_decide_eq_true hkey⟩

/-! ## Values under keys -/

section Values

variable {V : Type} {step : V → α → V} {init : K → V}

/-- The value under a key is updated, or begun. -/
def upsert (k : K) (v₀ : V) (f : V → V) : List (K × V) → List (K × V)
  | [] => [(k, f v₀)]
  | e :: rest => if e.1 = k then (k, f e.2) :: rest else e :: upsert k v₀ f rest

def ofGroup (step : V → α → V) (init : K → V) (g : K × List α) : K × V :=
  (g.1, g.2.foldl step (init g.1))

theorem upsert_map (k : K) (a : α) : ∀ groups : List (K × List α),
    upsert k (init k) (fun v => step v a) (groups.map (ofGroup step init)) =
      (add k a groups).map (ofGroup step init)
  | [] => rfl
  | g :: rest => by
    rw [List.map_cons, upsert, add]
    show (if g.1 = k then _ else _) = _
    by_cases h : g.1 = k
    · rw [if_pos h, if_pos h, List.map_cons, ← h]
      rw [ofGroup, ofGroup, List.foldl_append]
      rfl
    · rw [if_neg h, if_neg h, List.map_cons, upsert_map k a rest]

/-- **Values that are updated one element after the other** are those of the groups. -/
theorem foldl_upsert (step : V → α → V) (init : K → V) (l : List (K × α)) :
    l.foldl (fun values x => upsert x.1 (init x.1) (fun v => step v x.2) values) [] =
      (group l).map (ofGroup step init) := by
  induction l using List.reverseRecOn with
  | nil => rfl
  | append_singleton l x ih =>
    rw [List.foldl_append, List.foldl_cons, List.foldl_nil, ih, upsert_map, group_concat]

/-- What is summed up by groups. -/
theorem sum_group {M : Type} [AddCommMonoid M] (w : α → M) (l : List (K × α)) :
    ((group l).map fun g => (g.2.map w).sum).sum = (l.map fun x => w x.2).sum := by
  have hflat : ∀ groups : List (K × List α), (groups.map fun g => (g.2.map w).sum).sum =
      ((groups.flatMap Prod.snd).map w).sum := by
    intro groups
    induction groups with
    | nil => rfl
    | cons g rest ih =>
      rw [List.map_cons, List.sum_cons, ih, List.flatMap_cons, List.map_append, List.sum_append]
  rw [hflat, ((perm_group l).map w).sum_eq, List.map_map]
  rfl

end Values

end Grouping

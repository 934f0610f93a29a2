import Mathlib.Data.List.Nodup
import Mathlib.Data.List.Enum
import Mathlib.Data.List.Perm.Subperm
import Mathlib.Logic.Relation

/-!
# Where the entries of an edited list come from

A list is edited by leaving entries out, by replacing one of them, and by merging several into one.
Each entry keeps the positions, in the first list, of what it comes from.

* `Traced`, `initially`, `Edit`, `Edits`: entries with their origins, and the edits;
* **`Edits.forall_entry`**: what holds of the first entries, and is kept by a replacement and by a
  merge, holds of every entry;
* `position_of_countP`, `countP_le_of_positions`: a kind that is met once at most; entries that are
  given distinct positions below a bound.
-/

namespace Provenance

variable {α : Type}

/-! ## Edits -/

/-- An entry, with the positions that it comes from. -/
structure Traced (α : Type) where
  value : α
  origins : List ℕ

/-- The entries of a list, each of which comes from itself. -/
def initially (l : List α) : List (Traced α) := l.zipIdx.map fun x => ⟨x.1, [x.2]⟩

variable (Reworked : α → α → Prop) (Merged : List α → α → Prop)

/-- **One edit** of a list. The entries that are merged stand anywhere. -/
inductive Edit : List (Traced α) → List (Traced α) → Prop
  | drop (l₁ : List (Traced α)) (s : Traced α) (l₂ : List (Traced α)) :
      Edit (l₁ ++ s :: l₂) (l₁ ++ l₂)
  | rework (l₁ : List (Traced α)) (s : Traced α) (l₂ : List (Traced α)) (v : α)
      (h : Reworked s.value v) : Edit (l₁ ++ s :: l₂) (l₁ ++ { s with value := v } :: l₂)
  | merge (l group l₁ l₂ : List (Traced α)) (v : α) (hperm : l.Perm (group ++ (l₁ ++ l₂)))
      (hgroup : group ≠ []) (h : Merged (group.map Traced.value) v) :
      Edit l (l₁ ++ ⟨v, group.flatMap Traced.origins⟩ :: l₂)

/-- Edits, one after another. -/
abbrev Edits : List (Traced α) → List (Traced α) → Prop :=
  Relation.ReflTransGen (Edit Reworked Merged)

/-! ## Entries -/

variable {Reworked Merged} {l l' : List (Traced α)}

/-- An edit keeps what a replacement and a merge keep. -/
theorem Edit.forall_entry {P : List ℕ → α → Prop}
    (hrework : ∀ is v w, P is v → Reworked v w → P is w)
    (hmerge : ∀ (group : List (Traced α)) (v : α), group ≠ [] → (∀ s ∈ group, P s.origins s.value) →
      Merged (group.map Traced.value) v → P (group.flatMap Traced.origins) v)
    (h : Edit Reworked Merged l l') (hl : ∀ s ∈ l, P s.origins s.value) :
    ∀ s ∈ l', P s.origins s.value := by
  cases h with
  | drop l₁ s l₂ =>
    intro t ht
    refine hl t ?_
    simp only [List.mem_append, List.mem_cons] at ht ⊢
    exact ht.imp_right Or.inr
  | rework l₁ s l₂ v hv =>
    intro t ht
    simp only [List.mem_append, List.mem_cons] at ht
    rcases ht with ht | rfl | ht
    · exact hl t (by simp [ht])
    · exact hrework _ _ _ (hl s (by simp)) hv
    · exact hl t (by simp [ht])
  | merge _ group l₁ l₂ v hperm hgroup hv =>
    have hold : ∀ t ∈ group ++ (l₁ ++ l₂), P t.origins t.value :=
      fun t ht => hl t (hperm.mem_iff.2 ht)
    intro t ht
    simp only [List.mem_append, List.mem_cons] at ht
    rcases ht with ht | rfl | ht
    · exact hold t (by simp [ht])
    · exact hmerge group v hgroup (fun s hs => hold s (by simp [hs])) hv
    · exact hold t (by simp [ht])

/-- **The rule of edits**: what holds of each entry at first, and is kept by a replacement and by a
merge, holds of each entry that is left. -/
theorem Edits.forall_entry {first : List α} {P : List ℕ → α → Prop}
    (hfirst : ∀ i v, first[i]? = some v → P [i] v)
    (hrework : ∀ is v w, P is v → Reworked v w → P is w)
    (hmerge : ∀ (group : List (Traced α)) (v : α), group ≠ [] → (∀ s ∈ group, P s.origins s.value) →
      Merged (group.map Traced.value) v → P (group.flatMap Traced.origins) v)
    (h : Edits Reworked Merged (initially first) l) : ∀ s ∈ l, P s.origins s.value := by
  induction h with
  | refl =>
    intro s hs
    obtain ⟨⟨v, i⟩, hmem, rfl⟩ := List.mem_map.1 hs
    exact hfirst i v (List.mem_zipIdx_iff_getElem?.1 hmem)
  | tail _ hedit ih => exact hedit.forall_entry hrework hmerge ih

/-! ## Positions -/

/-- An entry of a kind that is met once at most stands at one position. -/
theorem position_of_countP {β : Type} {f : β → Bool} {a b : β} : ∀ {l : List β} {i j : ℕ},
    l.countP f ≤ 1 → l[i]? = some a → f a = true → l[j]? = some b → f b = true → i = j
  | [], i, j, _, hi, _, _, _ => by simp at hi
  | x :: l, 0, 0, _, _, _, _, _ => rfl
  | x :: l, 0, j + 1, hcount, hi, ha, hj, hb => by
    have hx : x = a := by simpa using hi
    have hpos : 0 < l.countP f :=
      List.countP_pos_iff.2 ⟨b, List.mem_of_getElem? (by simpa using hj), hb⟩
    rw [List.countP_cons, hx, if_pos ha] at hcount
    omega
  | x :: l, i + 1, 0, hcount, hi, ha, hj, hb => by
    have hx : x = b := by simpa using hj
    have hpos : 0 < l.countP f :=
      List.countP_pos_iff.2 ⟨a, List.mem_of_getElem? (by simpa using hi), ha⟩
    rw [List.countP_cons, hx, if_pos hb] at hcount
    omega
  | x :: l, i + 1, j + 1, hcount, hi, ha, hj, hb => by
    have hrest : l.countP f ≤ 1 := by
      rw [List.countP_cons] at hcount
      omega
    have hij : i = j := position_of_countP hrest (by simpa using hi) ha (by simpa using hj) hb
    rw [hij]

/-- **Entries with distinct positions below a bound** are at most as many as the bound. -/
theorem countP_le_of_positions {β : Type} {rows : List β} {p : β → Bool} {n : ℕ}
    (At : ℕ → ℕ → Prop) (hat : ∀ i row, rows[i]? = some row → p row = true → ∃ k < n, At i k)
    (hinj : ∀ i j k, At i k → At j k → i = j) : rows.countP p ≤ n := by
  classical
  have hcount : rows.countP p =
      ((rows.zipIdx.filter fun x => p x.1).map Prod.snd).length := by
    rw [List.length_map, ← List.countP_eq_length_filter,
      show (fun x : β × ℕ => p x.1) = p ∘ Prod.fst from rfl, ← List.countP_map,
      List.zipIdx_map_fst]
  have hpos : ∀ i ∈ (rows.zipIdx.filter fun x => p x.1).map Prod.snd, ∃ k < n, At i k := by
    intro i hi
    obtain ⟨⟨row, i⟩, hmem, rfl⟩ := List.mem_map.1 hi
    obtain ⟨hrow, hp⟩ := List.mem_filter.1 hmem
    exact hat i row (List.mem_zipIdx_iff_getElem?.1 hrow) hp
  have hnodup : ((rows.zipIdx.filter fun x => p x.1).map Prod.snd).Nodup := by
    refine List.Nodup.sublist (List.filter_sublist.map _) ?_
    rw [List.zipIdx_map_snd]
    exact List.nodup_range'
  choose! f hf hfat using hpos
  have hsubset : ((rows.zipIdx.filter fun x => p x.1).map Prod.snd).map f ⊆ List.range n := by
    intro k hk
    obtain ⟨i, hi, rfl⟩ := List.mem_map.1 hk
    exact List.mem_range.2 (hf i hi)
  have hmapped : (((rows.zipIdx.filter fun x => p x.1).map Prod.snd).map f).Nodup := by
    refine hnodup.map_on fun i hi j hj h => hinj i j (f i) (hfat i hi) ?_
    rw [h]
    exact hfat j hj
  have hle := (List.subperm_of_subset hmapped hsubset).length_le
  rw [List.length_map, List.length_range] at hle
  rw [hcount]
  exact hle

end Provenance

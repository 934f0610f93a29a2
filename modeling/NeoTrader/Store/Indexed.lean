import Mathlib.Data.List.Nodup
import NeoTrader.Store.Table

/-!
# Tables with a primary key

An `Indexed key` table holds at most one row for each key, by construction; so its operations can be
told apart by what they do to a lookup.

* `Indexed`, `Indexed.get?`, `Indexed.get?_eq_some`;
* `update`, `insert`, `delete`, `put`, and **what each of them does to a lookup**
  (`get?_update`, `get?_insert`, `get?_delete`, `get?_put`);
* `update_eq_self_iff`, `put_eq_self_iff`: the writes that change nothing.
-/

namespace Store

/-- A table whose rows have different keys. -/
structure Indexed {R K : Type} (key : R → K) where
  rows : List R
  nodup : (rows.map key).Nodup

namespace Indexed

variable {R K : Type} {key : R → K}

/-- The table without rows. -/
def empty : Indexed key := ⟨[], List.nodup_nil⟩

instance : EmptyCollection (Indexed key) := ⟨empty⟩

variable [DecidableEq K]

/-- The row of a key. -/
def get? (t : Indexed key) (k : K) : Option R := t.rows.find? fun r => key r = k

@[simp] theorem get?_empty (k : K) : (∅ : Indexed key).get? k = none := rfl

theorem key_of_get? {t : Indexed key} {k : K} {r : R} (h : t.get? k = some r) : key r = k := by
  have hfound := List.find?_some h
  exact of_decide_eq_true hfound

theorem mem_of_get? {t : Indexed key} {k : K} {r : R} (h : t.get? k = some r) : r ∈ t.rows :=
  List.mem_of_find?_eq_some h

theorem get?_eq_none {t : Indexed key} {k : K} : t.get? k = none ↔ ∀ r ∈ t.rows, key r ≠ k := by
  simp [get?]

theorem get?_of_mem {t : Indexed key} {r : R} (hr : r ∈ t.rows) : t.get? (key r) = some r := by
  cases h : t.get? (key r) with
  | none => exact absurd rfl (get?_eq_none.1 h r hr)
  | some r' => rw [List.inj_on_of_nodup_map t.nodup (mem_of_get? h) hr (key_of_get? h)]

theorem get?_eq_some {t : Indexed key} {k : K} {r : R} :
    t.get? k = some r ↔ r ∈ t.rows ∧ key r = k := by
  constructor
  · exact fun h => ⟨mem_of_get? h, key_of_get? h⟩
  · rintro ⟨hr, rfl⟩
    exact get?_of_mem hr

/-! ## Operations -/

/-- Rewrite the row of a key; the key stays. -/
def update (t : Indexed key) (k : K) (f : R → R) (hf : ∀ r, key r = k → key (f r) = k) :
    Indexed key where
  rows := modify (fun r => key r = k) f t.rows
  nodup := by
    have hkeys : (modify (fun r => key r = k) f t.rows).map key = t.rows.map key := by
      rw [modify, List.map_map]
      refine List.map_congr_left fun r _ => ?_
      by_cases hr : key r = k
      · simp [hr, hf r hr]
      · simp [hr]
    rw [hkeys]
    exact t.nodup

/-- Add a row whose key is free. -/
def insert (t : Indexed key) (r : R) (h : t.get? (key r) = none) : Indexed key where
  rows := t.rows ++ [r]
  nodup := by
    rw [List.map_append, List.map_singleton, List.nodup_append]
    refine ⟨t.nodup, List.nodup_singleton _, fun k hk k' hk' => ?_⟩
    obtain ⟨r', hr', rfl⟩ := List.mem_map.1 hk
    rw [List.mem_singleton.1 hk']
    exact get?_eq_none.1 h r' hr'

/-- Remove the row of a key. -/
def delete (t : Indexed key) (k : K) : Indexed key where
  rows := t.rows.filter fun r => key r ≠ k
  nodup := (List.filter_sublist.map key).nodup t.nodup

/-- Replace the row of the key, or add it. -/
def put (t : Indexed key) (r : R) : Indexed key :=
  if h : t.get? (key r) = none then t.insert r h else t.update (key r) (fun _ => r) fun _ _ => rfl

theorem get?_update {t : Indexed key} {k : K} {f : R → R} {hf : ∀ r, key r = k → key (f r) = k}
    (k' : K) : (t.update k f hf).get? k' = if k' = k then (t.get? k').map f else t.get? k' := by
  have hq : ∀ r, decide (key r = k) = true → decide (key (f r) = k') = decide (key r = k') := by
    intro r hr
    replace hr := of_decide_eq_true hr
    rw [hf r hr, hr]
  show (modify _ f t.rows).find? _ = _
  rw [find?_modify hq]
  change (t.get? k').map _ = _
  cases hr : t.get? k' with
  | none => simp
  | some r =>
    rw [Option.map_some, key_of_get? hr]
    by_cases hk : k' = k <;> simp [hk]

theorem get?_insert {t : Indexed key} {r : R} {h : t.get? (key r) = none} (k : K) :
    (t.insert r h).get? k = if k = key r then some r else t.get? k := by
  show (t.rows ++ [r]).find? _ = _
  rw [List.find?_append]
  by_cases hk : k = key r
  · subst hk
    rw [if_pos rfl, show t.rows.find? _ = none from h]
    simp
  · have hne : ¬ key r = k := fun he => hk he.symm
    rw [if_neg hk]
    simp [hne, get?]

theorem get?_delete {t : Indexed key} {k : K} (k' : K) :
    (t.delete k).get? k' = if k' = k then none else t.get? k' := by
  show (t.rows.filter _).find? _ = _
  rw [List.find?_filter]
  by_cases hk : k' = k
  · subst hk
    simp
  · rw [if_neg hk]
    refine congrArg (fun p => t.rows.find? p) (funext fun r => ?_)
    by_cases hr : key r = k'
    · simp [hr, hk]
    · simp [hr]

theorem get?_put {t : Indexed key} {r : R} (k : K) :
    (t.put r).get? k = if k = key r then some r else t.get? k := by
  rw [put]
  split
  · exact get?_insert k
  · next h =>
    rw [get?_update]
    by_cases hk : k = key r
    · subst hk
      obtain ⟨r', hr'⟩ := Option.ne_none_iff_exists'.1 h
      rw [if_pos rfl, if_pos rfl, hr']
      rfl
    · rw [if_neg hk, if_neg hk]

/-! ### Writes that change nothing -/

omit [DecidableEq K] in
theorem ext_rows {t t' : Indexed key} (h : t.rows = t'.rows) : t = t' := by
  cases t
  cases t'
  cases h
  rfl

theorem update_eq_self_iff {t : Indexed key} {k : K} {f : R → R}
    {hf : ∀ r, key r = k → key (f r) = k} :
    t.update k f hf = t ↔ ∀ r, t.get? k = some r → f r = r := by
  constructor
  · intro h r hr
    have hget := congrArg (fun t => Indexed.get? t k) h
    simp only [get?_update, if_pos, hr, Option.map_some, Option.some.injEq] at hget
    exact hget
  · intro h
    refine ext_rows ?_
    show modify _ f t.rows = t.rows
    refine (List.map_congr_left fun r hr => ?_).trans (List.map_id _)
    by_cases hk : key r = k
    · simpa [hk] using h r (get?_eq_some.2 ⟨hr, hk⟩)
    · simp [hk]

theorem insert_ne_self {t : Indexed key} {r : R} {h : t.get? (key r) = none} : t.insert r h ≠ t := by
  intro heq
  have hget := congrArg (fun t => Indexed.get? t (key r)) heq
  simp only [get?_insert, if_pos, h] at hget
  cases hget

theorem put_eq_self_iff {t : Indexed key} {r : R} : t.put r = t ↔ t.get? (key r) = some r := by
  constructor
  · intro h
    have hget := get?_put (t := t) (r := r) (key r)
    rwa [h, if_pos rfl] at hget
  · intro h
    rw [put, dif_neg (by simp [h]), update_eq_self_iff]
    intro r' hr'
    rw [h] at hr'
    exact Option.some.inj hr'

end Indexed

end Store

import Mathlib.Data.List.Dedup
import Mathlib.Data.List.Induction
import Mathlib.Data.List.Nodup
import Mathlib.Data.List.NodupEquivFin
import Mathlib.Data.List.Perm.Subperm

/-!
# Bounded logs

The newest entries of a log, and a table of entries with a key that forgets the oldest keys.

* `push`: an entry before the others, at most `n` of them; **`foldl_push`**: the newest of all;
* **`replay_nodup`**, **`length_replay_le`**, **`latest_of_mem_replay`**, **`mem_replay`**: what it
  holds.
-/

namespace BoundedLog

variable {α κ : Type*}

/-! ## The newest entries -/

/-- An entry before the others, at most `n` of them. -/
def push (n : ℕ) (l : List α) (x : α) : List α := (x :: l).take n

theorem push_take (n : ℕ) (l : List α) (x : α) : push n (l.take n) x = push n l x := by
  cases n with
  | zero => rfl
  | succ n => simp [push, List.take_take]

theorem push_of_lt {n : ℕ} {l : List α} (h : l.length < n) (x : α) : push n l x = x :: l :=
  List.take_of_length_le h

theorem length_push_le (n : ℕ) (l : List α) (x : α) : (push n l x).length ≤ n := by
  simp [push]

theorem mem_of_mem_push {n : ℕ} {l : List α} {x y : α} (h : y ∈ push n l x) : y = x ∨ y ∈ l :=
  List.mem_cons.mp (List.mem_of_mem_take h)

/-- Entries that are pushed one after the other leave the newest of all. -/
theorem foldl_push (n : ℕ) (xs : List α) : xs.foldl (push n) [] = xs.reverse.take n := by
  induction xs using List.reverseRecOn with
  | nil => simp
  | append_singleton xs x ih =>
    rw [List.foldl_append, ih, List.foldl_cons, List.foldl_nil, push_take, push,
      List.reverse_append]
    rfl

/-! ## A table -/

section Table

variable [DecidableEq κ] (key : α → κ)

/-- An entry in the place of the one with its key, otherwise before the others. -/
def upsert (n : ℕ) (l : List α) (x : α) : List α :=
  match l.findIdx? fun y => key y = key x with
  | some i => l.set i x
  | none => push n l x

variable {key} {n : ℕ} {l : List α} {x y : α}

/-- An entry whose key is there is replaced, one whose key is not there is new. -/
theorem upsert_cases (key : α → κ) (n : ℕ) (l : List α) (x : α) :
    (∃ i, ∃ h : i < l.length, key l[i] = key x ∧ upsert key n l x = l.set i x) ∨
      (key x ∉ l.map key ∧ upsert key n l x = push n l x) := by
  cases hi : l.findIdx? fun y => key y = key x with
  | some i =>
    obtain ⟨h, hkey, -⟩ := List.findIdx?_eq_some_iff_getElem.mp hi
    exact Or.inl ⟨i, h, of_decide_eq_true hkey, by rw [upsert, hi]⟩
  | none =>
    refine Or.inr ⟨fun hmem => ?_, by rw [upsert, hi]⟩
    obtain ⟨y, hy, hkey⟩ := List.mem_map.mp hmem
    have hnot := List.findIdx?_eq_none_iff.mp hi y hy
    exact of_decide_eq_false hnot hkey

omit [DecidableEq κ] in
theorem map_key_set {i : ℕ} (h : i < l.length) (hkey : key l[i] = key x) :
    (l.set i x).map key = l.map key := by
  rw [List.map_set, ← hkey, ← List.getElem_map key (h := by simpa using h), List.set_getElem_self]

theorem nodup_upsert (hl : (l.map key).Nodup) : ((upsert key n l x).map key).Nodup := by
  obtain ⟨i, h, hkey, heq⟩ | ⟨hnew, heq⟩ := upsert_cases key n l x
  · rw [heq, map_key_set h hkey]
    exact hl
  · rw [heq, push, List.map_take, List.map_cons]
    exact (List.nodup_cons.mpr ⟨hnew, hl⟩).sublist (List.take_sublist _ _)

theorem length_upsert_le (hl : l.length ≤ n) : (upsert key n l x).length ≤ n := by
  obtain ⟨i, h, hkey, heq⟩ | ⟨hnew, heq⟩ := upsert_cases key n l x
  · rw [heq, List.length_set]
    exact hl
  · rw [heq]
    exact length_push_le n l x

/-- An entry of the table is the new one, or an old one with another key. -/
theorem mem_upsert (hl : (l.map key).Nodup) (hy : y ∈ upsert key n l x) :
    y = x ∨ (y ∈ l ∧ key y ≠ key x) := by
  have hnodup := nodup_upsert (n := n) (x := x) hl
  obtain ⟨i, h, hkey, heq⟩ | ⟨hnew, heq⟩ := upsert_cases key n l x
  · rw [heq] at hy hnodup
    by_cases hxy : y = x
    · exact Or.inl hxy
    · refine Or.inr ⟨(List.mem_or_eq_of_mem_set hy).resolve_right hxy, fun hsame => hxy ?_⟩
      exact List.inj_on_of_nodup_map hnodup hy (List.mem_set h x) hsame
  · rw [heq] at hy
    rcases mem_of_mem_push hy with rfl | hy
    · exact Or.inl rfl
    · exact Or.inr ⟨hy, fun hsame => hnew (hsame ▸ List.mem_map_of_mem hy)⟩

/-- With room for one more, the new entry is there and the others with other keys stay. -/
theorem mem_upsert_of_room (hroom : key x ∉ l.map key → l.length < n)
    (hy : y = x ∨ (y ∈ l ∧ key y ≠ key x)) : y ∈ upsert key n l x := by
  obtain ⟨i, h, hkey, heq⟩ | ⟨hnew, heq⟩ := upsert_cases key n l x
  · rw [heq]
    rcases hy with rfl | ⟨hy, hne⟩
    · exact List.mem_set h y
    · obtain ⟨j, hj, rfl⟩ := List.getElem_of_mem hy
      have hij : i ≠ j := fun hij => hne (by subst hij; exact hkey)
      rw [List.mem_iff_getElem]
      exact ⟨j, by simpa using hj, List.getElem_set_ne hij _⟩
  · rw [heq, push_of_lt (hroom hnew)]
    rcases hy with rfl | ⟨hy, -⟩
    · exact List.mem_cons_self
    · exact List.mem_cons_of_mem x hy

end Table

/-! ## The table of a past -/

/-- An entry is set, or the entry of a key is dropped. -/
inductive Event (α κ : Type*) where
  | set (x : α)
  | drop (k : κ)

section Past

variable [DecidableEq κ] (key : α → κ) (n : ℕ)

/-- A table after one more event. -/
def Event.apply (l : List α) : Event α κ → List α
  | .set x => upsert key n l x
  | .drop k => l.filter fun y => key y ≠ k

/-- **The table** after the events of a past. -/
def replay (past : List (Event α κ)) : List α := past.foldl (Event.apply key n) []

/-- The entry that the latest event leaves for a key, given the one before. -/
def Event.entry (k : κ) (before : Option α) : Event α κ → Option α
  | .set x => if key x = k then some x else before
  | .drop k' => if k' = k then none else before

/-- **The latest entry** of a key. -/
def latest (past : List (Event α κ)) (k : κ) : Option α := past.foldl (Event.entry key k) none

def Event.key? : Event α κ → Option κ
  | .set x => some (key x)
  | .drop _ => none

def keysSet (past : List (Event α κ)) : List κ := (past.filterMap (Event.key? key)).dedup

variable {key n} {past : List (Event α κ)}

theorem replay_concat (e : Event α κ) :
    replay key n (past ++ [e]) = Event.apply key n (replay key n past) e := by
  rw [replay, List.foldl_append]
  rfl

theorem latest_concat (e : Event α κ) (k : κ) :
    latest key (past ++ [e]) k = Event.entry key k (latest key past k) e := by
  rw [latest, List.foldl_append]
  rfl

theorem replay_nodup (past : List (Event α κ)) : ((replay key n past).map key).Nodup := by
  induction past using List.reverseRecOn with
  | nil => exact List.nodup_nil
  | append_singleton past e ih =>
    rw [replay_concat]
    cases e with
    | set x => exact nodup_upsert ih
    | drop k => exact ih.sublist (List.filter_sublist.map key)

theorem length_replay_le (past : List (Event α κ)) : (replay key n past).length ≤ n := by
  induction past using List.reverseRecOn with
  | nil => exact Nat.zero_le n
  | append_singleton past e ih =>
    rw [replay_concat]
    cases e with
    | set x => exact length_upsert_le ih
    | drop k => exact le_trans (List.length_filter_le _ _) ih

/-- An entry of the table is the latest one of its key. -/
theorem latest_of_mem_replay (past : List (Event α κ)) :
    ∀ y ∈ replay key n past, latest key past (key y) = some y := by
  induction past using List.reverseRecOn with
  | nil =>
    intro y hy
    exact absurd hy List.not_mem_nil
  | append_singleton past e ih =>
    intro y hy
    rw [replay_concat] at hy
    rw [latest_concat]
    cases e with
    | set x =>
      rcases mem_upsert (replay_nodup past) hy with rfl | ⟨hy, hne⟩
      · exact if_pos rfl
      · rw [Event.entry, if_neg (Ne.symm hne)]
        exact ih y hy
    | drop k =>
      obtain ⟨hy, hne⟩ := List.mem_filter.mp hy
      rw [Event.entry, if_neg (Ne.symm (of_decide_eq_true hne))]
      exact ih y hy

theorem mem_keysSet {k : κ} : k ∈ keysSet key past ↔ ∃ x, Event.set x ∈ past ∧ key x = k := by
  rw [keysSet, List.mem_dedup, List.mem_filterMap]
  constructor
  · rintro ⟨e, he, hk⟩
    cases e with
    | set x => exact ⟨x, he, Option.some.inj hk⟩
    | drop k' => cases hk
  · rintro ⟨x, hx, rfl⟩
    exact ⟨.set x, hx, rfl⟩

theorem keysSet_subset (e : Event α κ) : keysSet key past ⊆ keysSet key (past ++ [e]) := by
  intro k hk
  obtain ⟨x, hx, rfl⟩ := mem_keysSet.mp hk
  exact mem_keysSet.mpr ⟨x, List.mem_append_left _ hx, rfl⟩

theorem key_mem_keysSet (past : List (Event α κ)) :
    ∀ y ∈ replay key n past, key y ∈ keysSet key past := by
  induction past using List.reverseRecOn with
  | nil =>
    intro y hy
    exact absurd hy List.not_mem_nil
  | append_singleton past e ih =>
    intro y hy
    rw [replay_concat] at hy
    cases e with
    | set x =>
      rcases mem_upsert (replay_nodup past) hy with rfl | ⟨hy, -⟩
      · exact mem_keysSet.mpr ⟨y, List.mem_append_right _ List.mem_cons_self, rfl⟩
      · exact keysSet_subset _ (ih y hy)
    | drop k => exact keysSet_subset _ (ih y (List.mem_filter.mp hy).1)

theorem length_keysSet_le (e : Event α κ) :
    (keysSet key past).length ≤ (keysSet key (past ++ [e])).length :=
  ((List.nodup_dedup _).subperm (keysSet_subset e)).length_le

theorem key_of_latest (past : List (Event α κ)) :
    ∀ k y, latest key past k = some y → key y = k := by
  induction past using List.reverseRecOn with
  | nil =>
    intro k y hy
    cases hy
  | append_singleton past e ih =>
    intro k y hy
    rw [latest_concat] at hy
    cases e with
    | set x =>
      by_cases hk : key x = k
      · rw [Event.entry, if_pos hk] at hy
        exact Option.some.inj hy ▸ hk
      · rw [Event.entry, if_neg hk] at hy
        exact ih k y hy
    | drop k' =>
      by_cases hk : k' = k
      · rw [Event.entry, if_pos hk] at hy
        cases hy
      · rw [Event.entry, if_neg hk] at hy
        exact ih k y hy

/-- While no more keys were set than there is room for, every latest entry is in the table. -/
theorem mem_replay (past : List (Event α κ)) (hroom : (keysSet key past).length ≤ n) :
    ∀ k y, latest key past k = some y → y ∈ replay key n past := by
  induction past using List.reverseRecOn with
  | nil =>
    intro k y hy
    cases hy
  | append_singleton past e ih =>
    have ih := ih (le_trans (length_keysSet_le e) hroom)
    intro k y hy
    rw [latest_concat] at hy
    rw [replay_concat]
    cases e with
    | set x =>
      apply mem_upsert_of_room
      · intro hnew
        have hnodup : ((x :: replay key n past).map key).Nodup :=
          List.nodup_cons.mpr ⟨hnew, replay_nodup past⟩
        have hsub : (x :: replay key n past).map key ⊆ keysSet key (past ++ [.set x]) := by
          intro k hk
          obtain ⟨z, hz, rfl⟩ := List.mem_map.mp hk
          rcases List.mem_cons.mp hz with rfl | hz
          · exact mem_keysSet.mpr ⟨z, List.mem_append_right _ List.mem_cons_self, rfl⟩
          · exact keysSet_subset _ (key_mem_keysSet past z hz)
        have hlen := (hnodup.subperm hsub).length_le
        rw [List.length_map, List.length_cons] at hlen
        omega
      · by_cases hk : key x = k
        · rw [Event.entry, if_pos hk] at hy
          exact Or.inl (Option.some.inj hy).symm
        · rw [Event.entry, if_neg hk] at hy
          exact Or.inr ⟨ih k y hy, fun h => hk (h ▸ key_of_latest past k y hy)⟩
    | drop k' =>
      by_cases hk : k' = k
      · rw [Event.entry, if_pos hk] at hy
        cases hy
      · rw [Event.entry, if_neg hk] at hy
        rw [Event.apply, List.mem_filter]
        exact ⟨ih k y hy, decide_eq_true fun h => hk (h ▸ key_of_latest past k y hy)⟩

end Past

end BoundedLog

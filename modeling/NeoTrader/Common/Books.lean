import Mathlib.Algebra.BigOperators.Group.List.Basic
import Mathlib.Data.List.Nodup
import Mathlib.Tactic.Abel

/-!
# Books of holdings

An account holds cash and a list of entries, each of them at its cost. A trade opens an entry, amends
the first one of a key, or closes it.

* `holding`, `amend`, `close`: the first entry of a key, rewritten or taken out, and **what each of
  them does to a lookup**;
* **`Booked.conserves`**: cash and cost change by the profit alone; `Booked.nodup`, `Booked.forall`:
  one entry for each key, and a property of the entries.
-/

namespace Books

variable {E K R : Type} [DecidableEq K] (key : E → K)

/-! ## Entries -/

/-- The first entry of a key. -/
def holding (k : K) (l : List E) : Option E := l.find? fun e => key e = k

/-- Rewrite the first entry of a key. -/
def amend (k : K) (f : E → E) : List E → List E
  | [] => []
  | e :: l => if key e = k then f e :: l else e :: amend k f l

/-- Take out the first entry of a key. -/
def close (k : K) (l : List E) : List E := l.eraseP fun e => key e = k

section Lookup

variable {key} {k k' : K} {f : E → E} {l : List E} {e : E}

@[simp] theorem holding_nil : holding key k [] = none := rfl

theorem holding_cons : holding key k (e :: l) = if key e = k then some e else holding key k l := by
  by_cases h : key e = k <;> simp [holding, h]

theorem amend_cons :
    amend key k f (e :: l) = if key e = k then f e :: l else e :: amend key k f l := rfl

theorem close_cons : close key k (e :: l) = if key e = k then l else e :: close key k l := by
  by_cases h : key e = k <;> simp [close, h]

theorem key_of_holding (h : holding key k l = some e) : key e = k := by
  have hfound := List.find?_some h
  exact of_decide_eq_true hfound

theorem mem_of_holding (h : holding key k l = some e) : e ∈ l := List.mem_of_find?_eq_some h

theorem holding_eq_none : holding key k l = none ↔ ∀ e ∈ l, key e ≠ k := by
  simp [holding]

/-- Where each key has one entry, an entry is found under its key. -/
theorem holding_of_mem (hl : (l.map key).Nodup) (he : e ∈ l) : holding key (key e) l = some e := by
  cases h : holding key (key e) l with
  | none => exact absurd rfl (holding_eq_none.1 h e he)
  | some e' => rw [List.inj_on_of_nodup_map hl (mem_of_holding h) he (key_of_holding h)]

/-! ### After a trade -/

theorem holding_append : holding key k (l ++ [e]) =
    (holding key k l).or (if key e = k then some e else none) := by
  by_cases h : key e = k <;> simp [holding, List.find?_append, h]

theorem holding_amend (h : holding key k l = some e) (hf : key (f e) = k) :
    holding key k (amend key k f l) = some (f e) := by
  induction l with
  | nil => cases h
  | cons a l ih =>
    rw [holding_cons] at h
    rw [amend_cons]
    split at h
    · next ha =>
      cases h
      rw [if_pos ha, holding_cons, if_pos hf]
    · next ha =>
      rw [if_neg ha, holding_cons, if_neg ha]
      exact ih h

theorem holding_amend_of_ne (hf : ∀ e, key e = k → key (f e) = k) (hk : k' ≠ k) :
    holding key k' (amend key k f l) = holding key k' l := by
  induction l with
  | nil => rfl
  | cons a l ih =>
    rw [amend_cons]
    split
    · next ha =>
      rw [holding_cons, holding_cons, hf a ha, ha, if_neg hk.symm, if_neg hk.symm]
    · rw [holding_cons, holding_cons, ih]

theorem map_amend (hf : ∀ e, key e = k → key (f e) = k) :
    (amend key k f l).map key = l.map key := by
  induction l with
  | nil => rfl
  | cons a l ih =>
    rw [amend_cons]
    split
    · next ha => rw [List.map_cons, List.map_cons, hf a ha, ha]
    · rw [List.map_cons, List.map_cons, ih]

theorem mem_amend {x : E} (hx : x ∈ amend key k f l) :
    x ∈ l ∨ ∃ e, holding key k l = some e ∧ x = f e := by
  induction l with
  | nil => cases hx
  | cons a l ih =>
    rw [amend_cons] at hx
    rw [holding_cons]
    split at hx
    · next ha =>
      rw [if_pos ha]
      rcases List.mem_cons.1 hx with rfl | hx
      · exact .inr ⟨a, rfl, rfl⟩
      · exact .inl (List.mem_cons_of_mem _ hx)
    · next ha =>
      rw [if_neg ha]
      rcases List.mem_cons.1 hx with rfl | hx
      · exact .inl List.mem_cons_self
      · exact (ih hx).imp_left (List.mem_cons_of_mem _)

/-- Only the entry that is found is rewritten. -/
theorem amend_congr {g : E → E} (h : holding key k l = some e) (hfg : f e = g e) :
    amend key k f l = amend key k g l := by
  induction l with
  | nil => rfl
  | cons a l ih =>
    rw [holding_cons] at h
    rw [amend_cons, amend_cons]
    split at h
    · next ha =>
      cases h
      rw [if_pos ha, if_pos ha, hfg]
    · next ha =>
      rw [if_neg ha, if_neg ha, ih h]

theorem length_amend : (amend key k f l).length = l.length := by
  induction l with
  | nil => rfl
  | cons a l ih =>
    rw [amend_cons]
    split
    · rfl
    · rw [List.length_cons, List.length_cons, ih]

theorem close_sublist : (close key k l).Sublist l := List.eraseP_sublist

theorem holding_close (hl : (l.map key).Nodup) : holding key k (close key k l) = none := by
  induction l with
  | nil => rfl
  | cons a l ih =>
    rw [List.map_cons, List.nodup_cons] at hl
    rw [close_cons]
    split
    · next ha =>
      refine holding_eq_none.2 fun e he heq => hl.1 ?_
      rw [ha, ← heq]
      exact List.mem_map_of_mem he
    · next ha =>
      rw [holding_cons, if_neg ha]
      exact ih hl.2

theorem holding_close_of_ne (hk : k' ≠ k) : holding key k' (close key k l) = holding key k' l := by
  induction l with
  | nil => rfl
  | cons a l ih =>
    rw [close_cons]
    split
    · next ha => rw [holding_cons, ha, if_neg hk.symm]
    · rw [holding_cons, holding_cons, ih]

/-! ### Distinct keys -/

theorem nodup_concat (hl : (l.map key).Nodup) (h : holding key (key e) l = none) :
    ((l ++ [e]).map key).Nodup := by
  rw [List.map_append, List.map_singleton, List.nodup_append]
  refine ⟨hl, List.nodup_singleton _, fun j hj j' hj' heq => ?_⟩
  obtain ⟨x, hx, rfl⟩ := List.mem_map.1 hj
  rw [List.mem_singleton.1 hj'] at heq
  exact holding_eq_none.1 h x hx heq

theorem nodup_amend (hl : (l.map key).Nodup) (hf : ∀ e, key e = k → key (f e) = k) :
    ((amend key k f l).map key).Nodup := by
  rw [map_amend hf]
  exact hl

theorem nodup_close (hl : (l.map key).Nodup) : ((close key k l).map key).Nodup :=
  (close_sublist.map _).nodup hl

end Lookup

/-! ## Books with distinct keys -/

/-- **Entries with distinct keys.** -/
structure Book where
  entries : List E
  distinct : (entries.map key).Nodup

namespace Book

variable {key}

/-- No entries. -/
def empty : Book key := ⟨[], List.nodup_nil⟩

def entry (b : Book key) (k : K) : Option E := holding key k b.entries

/-- Rewrite the entry of a key. -/
def amend (b : Book key) (k : K) (f : E → E) (hf : ∀ e, key e = k → key (f e) = k) : Book key :=
  ⟨Books.amend key k f b.entries, nodup_amend b.distinct hf⟩

/-- Rewrite the entry of a key, or append one. -/
def put (b : Book key) (k : K) (f : E → E) (e : E) (hf : ∀ e, key e = k → key (f e) = k)
    (he : key e = k) : Book key :=
  if h : b.entry k = none then ⟨b.entries ++ [e], nodup_concat b.distinct (by rw [he]; exact h)⟩
  else b.amend k f hf

/-- Take out the entry of a key. -/
def close (b : Book key) (k : K) : Book key := ⟨Books.close key k b.entries, nodup_close b.distinct⟩

/-- Rewrite all entries. -/
def map (b : Book key) (f : E → E) (hf : ∀ e, key (f e) = key e) : Book key :=
  ⟨b.entries.map f, by
    rw [List.map_map, show key ∘ f = key from funext hf]
    exact b.distinct⟩

variable {b : Book key} {k k' : K} {f : E → E} {e : E} {hf : ∀ e, key e = k → key (f e) = k}
  {he : key e = k}

theorem put_of_none (h : b.entry k = none) : (b.put k f e hf he).entries = b.entries ++ [e] := by
  rw [put, dif_pos h]

theorem put_of_some {x : E} (h : b.entry k = some x) :
    b.put k f e hf he = b.amend k f hf := by
  rw [put, dif_neg (by simp [h])]

@[simp] theorem entry_put : (b.put k f e hf he).entry k = some ((b.entry k).elim e f) := by
  cases h : b.entry k with
  | none =>
    rw [entry, put_of_none h, holding_append, if_pos he]
    show (b.entry k).or (some e) = some e
    rw [h, Option.none_or]
  | some x =>
    rw [put_of_some h]
    exact holding_amend h (hf x (key_of_holding h))

theorem entry_put_of_ne (hk : k' ≠ k) : (b.put k f e hf he).entry k' = b.entry k' := by
  cases h : b.entry k with
  | none => rw [entry, put_of_none h, holding_append, he, if_neg hk.symm, Option.or_none, entry]
  | some x =>
    rw [put_of_some h]
    exact holding_amend_of_ne hf hk

@[simp] theorem entry_close : (b.close k).entry k = none := holding_close b.distinct

theorem entry_close_of_ne (hk : k' ≠ k) : (b.close k).entry k' = b.entry k' :=
  holding_close_of_ne hk

theorem entry_amend_of_ne (hf : ∀ e, key e = k → key (f e) = k) (hk : k' ≠ k) :
    (b.amend k f hf).entry k' = b.entry k' :=
  holding_amend_of_ne hf hk

theorem entry_amend (hf : ∀ e, key e = k → key (f e) = k) {x : E} (h : b.entry k = some x) :
    (b.amend k f hf).entry k = some (f x) :=
  holding_amend h (hf x (key_of_holding h))

theorem entry_map {f : E → E} {hf : ∀ e, key (f e) = key e} :
    (b.map f hf).entry k = (b.entry k).map f := by
  simp only [entry, holding, map, List.find?_map]
  congr 2
  funext e
  simp [hf]

end Book

/-! ## Cost -/

section Cost

variable [AddCommGroup R] (cost : E → R)

/-- The cost of all entries. -/
def total (l : List E) : R := (l.map cost).sum

variable {key} {cost} {k : K} {f : E → E} {l : List E} {e : E}

@[simp] theorem total_nil : total cost [] = 0 := rfl

@[simp] theorem total_cons : total cost (e :: l) = cost e + total cost l := by
  simp [total]

@[simp] theorem total_concat : total cost (l ++ [e]) = total cost l + cost e := by
  simp [total]

theorem total_amend (h : holding key k l = some e) :
    total cost (amend key k f l) = total cost l - cost e + cost (f e) := by
  induction l with
  | nil => cases h
  | cons a l ih =>
    rw [holding_cons] at h
    rw [amend_cons]
    split at h
    · next ha =>
      cases h
      rw [if_pos ha, total_cons, total_cons]
      abel
    · next ha =>
      rw [if_neg ha, total_cons, total_cons, ih h]
      abel

theorem total_close (h : holding key k l = some e) :
    total cost (close key k l) = total cost l - cost e := by
  induction l with
  | nil => cases h
  | cons a l ih =>
    rw [holding_cons] at h
    rw [close_cons]
    split at h
    · next ha =>
      cases h
      rw [if_pos ha, total_cons]
      abel
    · next ha =>
      rw [if_neg ha, total_cons, total_cons, ih h]
      abel

end Cost

/-! ## Trades -/

section Trades

variable [AddCommGroup R] (cost : E → R) (Good : E → Prop)

/-- **A trade in a key, booked at cost.** The cash pays for what the entries gain in cost, up to the
profit; every new entry is good. -/
inductive Booked (k : K) (cash : R) (l : List E) : R → R → List E → Prop
  | idle : Booked k cash l 0 cash l
  | opened {e : E} : holding key k l = none → key e = k → Good e →
      Booked k cash l 0 (cash - cost e) (l ++ [e])
  | amended {e : E} {f : E → E} (profit : R) : holding key k l = some e →
      (∀ e, key e = k → key (f e) = k) → Good (f e) →
      Booked k cash l profit (cash + cost e - cost (f e) + profit) (amend key k f l)
  | closed {e : E} (profit : R) : holding key k l = some e →
      Booked k cash l profit (cash + cost e + profit) (close key k l)

namespace Booked

variable {key} {cost} {Good} {k k' : K} {cash cash' profit : R} {l l' : List E}

/-- **Cash and cost change by the profit alone.** -/
theorem conserves (h : Booked key cost Good k cash l profit cash' l') :
    cash' + total cost l' = cash + total cost l + profit := by
  cases h with
  | idle => rw [add_zero]
  | opened hnone hkey hgood =>
    rw [total_concat]
    abel
  | amended profit hsome hf hgood =>
    rw [total_amend hsome]
    abel
  | closed profit hsome =>
    rw [total_close hsome]
    abel

/-- One entry for each key. -/
theorem nodup (h : Booked key cost Good k cash l profit cash' l') (hl : (l.map key).Nodup) :
    (l'.map key).Nodup := by
  cases h with
  | idle => exact hl
  | opened hnone hkey hgood =>
    subst hkey
    exact nodup_concat hl hnone
  | amended profit hsome hf hgood => exact nodup_amend hl hf
  | closed profit hsome => exact nodup_close hl

/-- The entries stay good. -/
theorem good (h : Booked key cost Good k cash l profit cash' l') (hl : ∀ e ∈ l, Good e) :
    ∀ e ∈ l', Good e := by
  cases h with
  | idle => exact hl
  | opened hnone hkey hgood =>
    intro x hx
    rcases List.mem_append.1 hx with hx | hx
    · exact hl x hx
    · rw [List.mem_singleton.1 hx]
      exact hgood
  | amended profit hsome hf hgood =>
    intro x hx
    rcases mem_amend hx with hx | ⟨e, he, rfl⟩
    · exact hl x hx
    · rw [Option.some.inj (he.symm.trans hsome)]
      exact hgood
  | closed profit hsome => exact fun x hx => hl x (close_sublist.subset hx)

/-- A trade opens at most one entry. -/
theorem length_le (h : Booked key cost Good k cash l profit cash' l') :
    l'.length ≤ l.length + 1 := by
  cases h with
  | idle => omega
  | opened hnone hkey hgood => simp
  | amended profit hsome hf hgood =>
    rw [length_amend]
    omega
  | closed profit hsome =>
    exact close_sublist.length_le.trans (Nat.le_succ _)

/-- The entries of the other keys stay. -/
theorem holding_of_ne (h : Booked key cost Good k cash l profit cash' l') (hk : k' ≠ k) :
    holding key k' l' = holding key k' l := by
  cases h with
  | idle => rfl
  | opened hnone hkey hgood =>
    rw [holding_append, hkey, if_neg hk.symm, Option.or_none]
  | amended profit hsome hf hgood => exact holding_amend_of_ne hf hk
  | closed profit hsome => exact holding_close_of_ne hk

end Booked

end Trades

end Books

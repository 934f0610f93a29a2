import NeoTrader.Js.Json

/-!
# Objects that are merged

An object is the list of its fields, of equal keys the last counts. `{ ...a, ...b }` appends.

* `Obj`, `Obj.get`, `Obj.set`, `Obj.delete`, and how they read after one another;
* `nullish`: `a ?? b`.
-/

namespace Js

/-- The fields of an object. -/
abbrev Obj : Type := List (String × Json)

namespace Obj

/-- `o[key]`; `none` is `undefined`. -/
def get (o : Obj) (key : String) : Option Json := (Json.obj o).field key

/-- `{ ...o, [key]: v }`. -/
def set (o : Obj) (key : String) (v : Json) : Obj := o ++ [(key, v)]

/-- `delete o[key]`. -/
def delete (o : Obj) (key : String) : Obj := o.filter fun f => f.1 ≠ key

@[simp] theorem get_nil (key : String) : get [] key = none := rfl

@[simp] theorem get_append (a b : Obj) (key : String) :
    get (a ++ b) key = (get b key).or (get a key) := by
  unfold get Json.field
  simp only [List.reverse_append, List.find?_append]
  cases b.reverse.find? fun f => f.1 = key <;> rfl

theorem get_singleton (key key' : String) (v : Json) :
    get [(key, v)] key' = if key = key' then some v else none := by
  unfold get Json.field
  by_cases h : key = key' <;> simp [h]

@[simp] theorem get_set_self (o : Obj) (key : String) (v : Json) :
    get (o.set key v) key = some v := by
  rw [set, get_append, get_singleton, if_pos rfl]
  rfl

theorem get_set_of_ne (o : Obj) {key key' : String} (h : key' ≠ key) (v : Json) :
    get (o.set key v) key' = get o key' := by
  rw [set, get_append, get_singleton, if_neg h.symm]
  rfl

theorem get_delete_of_ne (o : Obj) {key key' : String} (h : key' ≠ key) :
    get (o.delete key) key' = get o key' := by
  show Option.map Prod.snd (List.find? _ (List.filter _ o).reverse) =
    Option.map Prod.snd (List.find? _ o.reverse)
  rw [← List.filter_reverse, List.find?_filter]
  congr 2
  funext f
  by_cases hf : f.1 = key' <;> simp [hf, h]

theorem get_filter_eq_none (o : Obj) {p : String → Bool} {key : String} (h : p key = false) :
    get (o.filter fun f => p f.1) key = none := by
  unfold get Json.field
  simp only [Option.map_eq_none_iff, List.find?_eq_none, List.mem_reverse, List.mem_filter]
  rintro f ⟨-, hp⟩ hf
  rw [of_decide_eq_true hf, h] at hp
  cases hp

end Obj

/-- `a ?? b`. -/
def nullish (a b : Option Json) : Option Json :=
  match a with
  | none | some .null => b
  | some v => some v

@[simp] theorem nullish_none (b : Option Json) : nullish none b = b := rfl
@[simp] theorem nullish_null (b : Option Json) : nullish (some .null) b = b := rfl
@[simp] theorem nullish_arr (l : List Json) (b : Option Json) :
    nullish (some (.arr l)) b = some (.arr l) := rfl

end Js

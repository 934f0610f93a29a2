import NeoTrader.Js.RoundTrip

/-!
# Values that read back as they are

* `Readable`, `Clear`: numbers and values whose text reads back as it is, part by part;
* **`parse_clear`**: the text of such a value is read as the value;
* `mapM_eq_some`: a list that is read element by element.
-/

namespace Js

namespace Json

/-- A number whose text reads back. -/
def Readable (numeral : Number → String) (x : Number) : Prop :=
  ∃ q, x = .fin q ∧ Reads (numeral (.fin q)) q

/-- A value whose text reads back as it is. -/
structure Clear (numeral : Number → String) (v : Json) : Prop where
  distinct : v.Distinct
  printed : Printed numeral v.numbers
  shown : v.shown = v

variable {numeral : Number → String}

theorem clear_str (s : String) : Clear numeral (.str s) :=
  ⟨trivial, fun _ hq => absurd hq List.not_mem_nil, rfl⟩

theorem clear_bool (b : Bool) : Clear numeral (.bool b) :=
  ⟨trivial, fun _ hq => absurd hq List.not_mem_nil, rfl⟩

theorem clear_num {x : Number} (h : Readable numeral x) : Clear numeral (.num x) := by
  obtain ⟨q, rfl, hq⟩ := h
  refine ⟨trivial, fun p hp => ?_, rfl⟩
  rw [List.mem_singleton.mp hp]
  exact hq

theorem clear_arr {l : List Json} (h : ∀ v ∈ l, Clear numeral v) : Clear numeral (.arr l) := by
  refine ⟨listDistinct_iff.mpr fun v hv => (h v hv).distinct, fun q hq => ?_, ?_⟩
  · obtain ⟨v, hv, hq⟩ := mem_listNumbers.mp hq
    exact (h v hv).printed q hq
  · show arr (shownList l) = arr l
    congr 1
    induction l with
    | nil => rfl
    | cons v l ih =>
      rw [shownList, (h v List.mem_cons_self).shown,
        ih fun w hw => h w (List.mem_cons_of_mem v hw)]

theorem clear_obj {fields : List (String × Json)} (hkeys : (fields.map Prod.fst).Nodup)
    (h : ∀ f ∈ fields, Clear numeral f.2) : Clear numeral (.obj fields) := by
  refine ⟨⟨hkeys, fieldsDistinct_iff.mpr fun f hf => (h f hf).distinct⟩, fun q hq => ?_, ?_⟩
  · obtain ⟨f, hf, hq⟩ := mem_fieldNumbers.mp hq
    exact (h f hf).printed q hq
  · show obj (shownFields fields) = obj fields
    clear hkeys
    congr 1
    induction fields with
    | nil => rfl
    | cons f l ih =>
      obtain ⟨key, v⟩ := f
      rw [shownFields, (h (key, v) List.mem_cons_self).shown,
        ih fun w hw => h w (List.mem_cons_of_mem _ hw)]

theorem mapM_eq_some {α β : Type} {f : β → Option α} {g : α → β} {l : List α}
    (h : ∀ x ∈ l, f (g x) = some x) : (l.map g).mapM f = some l := by
  induction l with
  | nil => rfl
  | cons x l ih =>
    rw [List.map_cons, List.mapM_cons, h x List.mem_cons_self,
      ih fun y hy => h y (List.mem_cons_of_mem x hy)]
    rfl

/-- **The text of such a value is read as the value.** -/
theorem parse_clear {v : Json} (h : Clear numeral v) : parse (stringify numeral v) = some v := by
  rw [parse_stringify h.distinct h.printed, h.shown]

end Json

end Js

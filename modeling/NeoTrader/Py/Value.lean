import NeoTrader.Backtest.WalkForward
import NeoTrader.Js.Object

/-!
# Values of a Python hook

A hook reads a parsed JSON text. A computation answers or raises, and an error is its text. A float
is an exact rational number.

* `collect`, **`mem_collect`**: a loop that answers with at most one element for each;
* `mapState`, **`mapState_inv`**: a loop that answers with one element for each, and what follows for
  its list from one of its steps.
-/

namespace Py

open Js

/-! ## Reading -/

def asDict : Json → Except String Obj
  | .obj fields => .ok fields
  | _ => .error "AttributeError: object has no attribute 'get'"

def asList : Json → Except String (List Json)
  | .arr l => .ok l
  | _ => .error "TypeError: object is not a list"

/-- `d.get(key, default)`. -/
def getD (d : Obj) (key : String) (default : Json) : Json := (d.get key).getD default

/-- `bool(v)`. -/
def truthy : Json → Bool
  | .null => false
  | .bool b => b
  | .num n => n ≠ 0
  | .str s => s ≠ ""
  | .arr l => !l.isEmpty
  | .obj fields => !fields.isEmpty

def decimalChar (c : Char) : Bool := c.isDigit || c ∈ ['+', '-', '.', 'e', 'E']

/-- `float(v)`; the texts of infinities and of NaN are no numbers here. -/
def toFloat : Json → Except String ℚ
  | .num (.fin q) => .ok q
  | .bool b => .ok (if b then 1 else 0)
  | .str s =>
    if s ≠ "" ∧ s.toList.all decimalChar then
      match Number.ofString s with
      | .fin q => .ok q
      | _ => .error "ValueError: could not convert string to float"
    else .error "ValueError: could not convert string to float"
  | _ => .error "TypeError: float() argument must be a string or a real number"

/-- `int(v)`: towards zero. -/
def toInt : Json → Except String ℤ
  | .num (.fin q) => .ok (if 0 ≤ q then ⌊q⌋ else ⌈q⌉)
  | .bool b => .ok (if b then 1 else 0)
  | .str s =>
    match s.toInt? with
    | some n => .ok n
    | none => .error "ValueError: invalid literal for int()"
  | _ => .error "TypeError: int() argument must be a string or a real number"

/-- An operand of an arithmetic operation or of a comparison. -/
def number : Json → Except String ℚ
  | .num (.fin q) => .ok q
  | .bool b => .ok (if b then 1 else 0)
  | _ => .error "TypeError: unsupported operand type"

def wholeNumber (v : Json) : Except String ℤ := do
  let q ← number v
  if q.den = 1 then return q.num else throw "TypeError: object cannot be interpreted as an integer"

/-- `float(d.get(key, default))`. -/
def floatField (d : Obj) (key : String) (default : ℚ) : Except String ℚ :=
  match d.get key with
  | none => .ok default
  | some v => toFloat v

/-- `int(d.get(key, default))`. -/
def intField (d : Obj) (key : String) (default : ℤ) : Except String ℤ :=
  match d.get key with
  | none => .ok default
  | some v => toInt v

/-- `d.get(key, default)` as an operand. -/
def numberField (d : Obj) (key : String) (default : ℚ) : Except String ℚ :=
  match d.get key with
  | none => .ok default
  | some v => number v

/-- A text that is a key of a dictionary: `d.get(key, default)`. -/
def textField (d : Obj) (key default : String) : Except String String :=
  match d.get key with
  | none => .ok default
  | some (.str s) => .ok s
  | some _ => .error "TypeError: not a text"

/-- `bool(d.get(key, default))`. -/
def flagField (d : Obj) (key : String) (default : Bool) : Bool :=
  ((d.get key).map truthy).getD default

/-! ## Numbers -/

/-- `round(x, n)`. -/
def roundTo (n : ℕ) (x : ℚ) : ℚ := NeoTrader.roundHalfEven (10 ^ n * x) / 10 ^ n

/-- The text of a number with no digit, or one, after the point. -/
def fixed0 (x : ℚ) : String := toString (NeoTrader.roundHalfEven x)

def fixed1 (x : ℚ) : String :=
  let n := NeoTrader.roundHalfEven (10 * x)
  (if n < 0 then "-" else "") ++ toString (n.natAbs / 10) ++ "." ++ toString (n.natAbs % 10)

/-- The text of a number with some digits after the point. -/
def fixedTo (digits : ℕ) (x : ℚ) : String :=
  let n := NeoTrader.roundHalfEven (10 ^ digits * x)
  let decimals := toString (n.natAbs % 10 ^ digits)
  (if n < 0 then "-" else "") ++ toString (n.natAbs / 10 ^ digits) ++ "." ++
    "".pushn '0' (digits - decimals.length) ++ decimals

/-- `str(v)` of a number. -/
def numberText : Json → String
  | .num (.fin q) =>
    if q.den = 1 then toString q.num
    else fixedTo (((List.range 17).find? fun n => ((10 : ℚ) ^ n * q).den = 1).getD 17) q
  | .bool b => if b then "True" else "False"
  | _ => ""

example : numberText (.num (.fin (25 / 2))) = "12.5" := by decide +kernel
example : fixedTo 4 (201 / 200) = "1.0050" := by decide +kernel
example : fixed1 (62 / 5) = "12.4" := by decide +kernel
example : fixed1 (-1 / 2) = "-0.5" := by decide +kernel

/-! ## Dictionaries -/

abbrev Dict (α : Type) : Type := List (String × α)

namespace Dict

variable {α : Type}

/-- `d.get(key)`. -/
def get? (d : Dict α) (key : String) : Option α := (d.find? fun e => e.1 = key).map Prod.snd

/-- `d[key] = v`: an entry that exists keeps its place. -/
def set (key : String) (v : α) : Dict α → Dict α
  | [] => [(key, v)]
  | e :: rest => if e.1 = key then (key, v) :: rest else e :: set key v rest

theorem get?_cons (e : String × α) (d : Dict α) (key : String) :
    get? (e :: d) key = if e.1 = key then some e.2 else get? d key := by
  unfold get?
  by_cases h : e.1 = key <;> simp [h]

@[simp] theorem get?_set_self (d : Dict α) (key : String) (v : α) :
    get? (set key v d) key = some v := by
  induction d with
  | nil => simp [set, get?]
  | cons e rest ih =>
    by_cases h : e.1 = key
    · rw [set, if_pos h, get?_cons, if_pos rfl]
    · rw [set, if_neg h, get?_cons, if_neg h, ih]

theorem get?_set_of_ne (d : Dict α) {key key' : String} (hne : key' ≠ key) (v : α) :
    get? (set key v d) key' = get? d key' := by
  induction d with
  | nil => simp [set, get?, hne.symm]
  | cons e rest ih =>
    by_cases h : e.1 = key
    · rw [set, if_pos h, get?_cons, get?_cons, if_neg hne.symm, if_neg (h ▸ hne.symm)]
    · rw [set, if_neg h, get?_cons, get?_cons, ih]

theorem get?_eq_some_of_mem {d : Dict α} (h : (d.map Prod.fst).Nodup) {key : String} {v : α}
    (hmem : (key, v) ∈ d) : get? d key = some v := by
  induction d with
  | nil => cases hmem
  | cons e rest ih =>
    rw [List.map_cons, List.nodup_cons] at h
    rw [get?_cons]
    rcases List.mem_cons.1 hmem with rfl | hmem
    · exact if_pos rfl
    · rw [if_neg, ih h.2 hmem]
      rintro rfl
      exact h.1 (List.mem_map.2 ⟨_, hmem, rfl⟩)

theorem mem_of_get?_eq_some {d : Dict α} {key : String} {v : α} (h : get? d key = some v) :
    (key, v) ∈ d := by
  obtain ⟨e, he, rfl⟩ := Option.map_eq_some_iff.1 h
  have hkey := List.find?_some he
  rw [← of_decide_eq_true hkey]
  exact List.mem_of_find?_eq_some he

theorem mem_keys_set (d : Dict α) (key : String) (v : α) (k : String) :
    k ∈ (set key v d).map Prod.fst ↔ k = key ∨ k ∈ d.map Prod.fst := by
  induction d with
  | nil => simp [set]
  | cons e rest ih =>
    by_cases h : e.1 = key
    · rw [set, if_pos h, ← h]
      simp
    · rw [set, if_neg h, List.map_cons, List.mem_cons, ih, List.map_cons, List.mem_cons]
      tauto

theorem nodup_keys_set {d : Dict α} (h : (d.map Prod.fst).Nodup) (key : String) (v : α) :
    ((set key v d).map Prod.fst).Nodup := by
  induction d with
  | nil => simp [set]
  | cons e rest ih =>
    rw [List.map_cons, List.nodup_cons] at h
    by_cases he : e.1 = key
    · rw [set, if_pos he, List.map_cons, List.nodup_cons]
      exact ⟨he ▸ h.1, h.2⟩
    · rw [set, if_neg he, List.map_cons, List.nodup_cons, mem_keys_set]
      exact ⟨fun hor => hor.elim he h.1, ih h.2⟩

end Dict

/-! ## Loops -/

section Loops

variable {σ α β : Type}

theorem bind_eq_ok {x : Except String α} {f : α → Except String β} {b : β} :
    (x >>= f) = .ok b ↔ ∃ a, x = .ok a ∧ f a = .ok b := by
  cases x with
  | error e => exact ⟨(fun h => by cases h), fun ⟨_, h, _⟩ => by cases h⟩
  | ok a => exact ⟨fun h => ⟨a, rfl, h⟩, fun ⟨_, h, hf⟩ => by cases h; exact hf⟩

theorem mem_mapM {f : α → Except String β} {l : List α} {l' : List β} (h : l.mapM f = .ok l')
    {y : β} : y ∈ l' ↔ ∃ x ∈ l, f x = .ok y := by
  induction l generalizing l' with
  | nil =>
    cases h
    simp
  | cons a rest ih =>
    rw [List.mapM_cons, bind_eq_ok] at h
    obtain ⟨b, hb, h⟩ := h
    obtain ⟨others, hothers, h⟩ := bind_eq_ok.1 h
    cases h
    rw [List.mem_cons, ih hothers, List.exists_mem_cons_iff, hb]
    exact or_congr_left ⟨fun h => congrArg Except.ok h.symm, fun h => (Except.ok.inj h).symm⟩

/-- A loop that answers with at most one element for each. -/
def collect (f : α → Except String (Option β)) : List α → Except String (List β)
  | [] => .ok []
  | x :: rest => do
    let y ← f x
    return y.toList ++ (← collect f rest)

theorem collect_answers {f : α → Except String (Option β)} {l : List α} {l' : List β}
    (h : collect f l = .ok l') : ∀ x ∈ l, ∃ y, f x = .ok y := by
  induction l generalizing l' with
  | nil => exact fun _ hx => by cases hx
  | cons a rest ih =>
    obtain ⟨y, hy, h⟩ := bind_eq_ok.1 h
    obtain ⟨others, hothers, -⟩ := bind_eq_ok.1 h
    intro x hx
    rcases List.mem_cons.1 hx with rfl | hx
    · exact ⟨y, hy⟩
    · exact ih hothers x hx

/-- **What is collected** are the answers. -/
theorem mem_collect {f : α → Except String (Option β)} {l : List α} {l' : List β}
    (h : collect f l = .ok l') {y : β} : y ∈ l' ↔ ∃ x ∈ l, f x = .ok (some y) := by
  induction l generalizing l' with
  | nil =>
    cases h
    simp
  | cons a rest ih =>
    obtain ⟨answer, hanswer, h⟩ := bind_eq_ok.1 h
    obtain ⟨others, hothers, h⟩ := bind_eq_ok.1 h
    cases h
    rw [List.mem_append, Option.mem_toList, ih hothers, List.exists_mem_cons_iff, hanswer]
    exact or_congr_left ⟨congrArg Except.ok, Except.ok.inj⟩

/-- A loop with a state, which answers with one element for each. -/
def mapState (step : σ → α → Except String (β × σ)) : σ → List α → Except String (List β)
  | _, [] => .ok []
  | st, x :: rest => do
    let (y, st) ← step st x
    let ys ← mapState step st rest
    return y :: ys

/-- **One step for all**: what a step makes of its element, and what it keeps of the state, gives what
the list is, element by element. -/
theorem mapState_inv {step : σ → α → Except String (β × σ)} {I : σ → Prop} {R : α → β → Prop}
    {p : α → Prop}
    (hstep : ∀ st x y st', I st → p x → step st x = .ok (y, st') → R x y ∧ I st') {st : σ}
    (hst : I st) {l : List α} (hl : ∀ x ∈ l, p x) {l' : List β}
    (h : mapState step st l = .ok l') : List.Forall₂ R l l' := by
  induction l generalizing st l' with
  | nil =>
    cases h
    exact .nil
  | cons x rest ih =>
    rw [mapState, bind_eq_ok] at h
    obtain ⟨⟨y, st'⟩, hy, h⟩ := h
    rw [bind_eq_ok] at h
    obtain ⟨ys, hys, h⟩ := h
    cases h
    obtain ⟨hr, hst'⟩ := hstep st x y st' hst (hl x List.mem_cons_self) hy
    exact .cons hr (ih hst' (fun z hz => hl z (List.mem_cons_of_mem _ hz)) hys)

theorem mapState_spec {step : σ → α → Except String (β × σ)} {R : α → β → Prop}
    (hstep : ∀ st x y st', step st x = .ok (y, st') → R x y) (st : σ) (l : List α) {l' : List β}
    (h : mapState step st l = .ok l') : List.Forall₂ R l l' :=
  mapState_inv (I := fun _ => True) (p := fun _ => True)
    (fun st x y st' _ _ hy => ⟨hstep st x y st' hy, trivial⟩) trivial (fun _ _ => trivial) h

theorem forall₂_mem {R : α → β → Prop} {l : List α} {l' : List β} (h : List.Forall₂ R l l') {y : β}
    (hy : y ∈ l') : ∃ x ∈ l, R x y := by
  induction h with
  | nil => cases hy
  | cons hr _ ih =>
    rcases List.mem_cons.1 hy with rfl | hy
    · exact ⟨_, List.mem_cons_self, hr⟩
    · obtain ⟨x, hx, hr⟩ := ih hy
      exact ⟨x, List.mem_cons_of_mem _ hx, hr⟩

end Loops

end Py

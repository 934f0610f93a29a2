import Mathlib.Algebra.Order.Floor.Ring
import Mathlib.Algebra.Order.Field.Basic
import Mathlib.Data.List.Basic
import Mathlib.Data.Rat.Floor

/-!
# The last part of an ordered sequence

Elements come in the order of their keys, and only the last `n` of them are kept. What is sought is
the element at a position after a bound.

* **`getElem?_after_last_eq_iff`**: the position is the same exactly where nothing after the bound is
  lost.
-/

namespace LastPart

variable {α K : Type*} [LinearOrder K] {key : α → K} {l : List α} {d : K} {n i : ℕ}

/-- The last `n` elements. -/
def last (n : ℕ) (l : List α) : List α := l.drop (l.length - n)

/-- The elements after a bound. -/
def after (key : α → K) (d : K) (l : List α) : List α := l.filter fun a => d < key a

theorem after_eq_self (h : ∀ a ∈ l, d < key a) : after key d l = l :=
  List.filter_eq_self.2 fun a ha => decide_eq_true (h a ha)

/-- Those after a bound are the last ones, also where some of the first elements are missing. -/
theorem exists_after_drop (h : l.Pairwise fun a b => key a < key b) (d : K) :
    ∃ m ≤ l.length, ∀ k, after key d (l.drop k) = l.drop (max m k) := by
  induction l with
  | nil => exact ⟨0, le_rfl, fun k => by simp [after]⟩
  | cons a l ih =>
    rw [List.pairwise_cons] at h
    obtain ⟨m, hm, hdrop⟩ := ih h.2
    by_cases ha : d < key a
    · refine ⟨0, Nat.zero_le _, fun k => ?_⟩
      rw [Nat.zero_max]
      refine after_eq_self fun b hb => ?_
      rcases List.mem_cons.1 (List.drop_subset k _ hb) with rfl | hb
      · exact ha
      · exact ha.trans (h.1 b hb)
    · refine ⟨m + 1, Nat.succ_le_succ hm, fun k => ?_⟩
      cases k with
      | zero =>
        have hskip : after key d (a :: l) = after key d (l.drop 0) :=
          List.filter_cons_of_neg (by simpa using ha)
        rw [List.drop_zero, hskip, hdrop 0, Nat.max_zero, Nat.max_zero, List.drop_succ_cons]
      | succ k =>
        rw [List.drop_succ_cons, hdrop k, Nat.succ_max_succ, List.drop_succ_cons]

section Ordered

variable (h : l.Pairwise fun a b => key a < key b)
include h

/-- Nothing after the bound is lost. -/
theorem after_last_of_le (hn : (after key d l).length ≤ n) :
    after key d (last n l) = after key d l := by
  obtain ⟨m, hm, hdrop⟩ := exists_after_drop h d
  have hall := hdrop 0
  rw [List.drop_zero, Nat.max_zero] at hall
  rw [hall, List.length_drop] at hn
  rw [last, hdrop, hall, max_eq_left (by omega)]

/-- All that is left is after the bound. -/
theorem after_last_of_lt (hn : n < (after key d l).length) :
    after key d (last n l) = last n l := by
  obtain ⟨m, hm, hdrop⟩ := exists_after_drop h d
  have hall := hdrop 0
  rw [List.drop_zero, Nat.max_zero] at hall
  rw [hall, List.length_drop] at hn
  rw [last, hdrop, max_eq_right (by omega)]

/-- **The positions in the last part** are later by what was lost. -/
theorem getElem?_after_last (hn : n < (after key d l).length) (i : ℕ) :
    (after key d (last n l))[i]? = (after key d l)[(after key d l).length - n + i]? := by
  obtain ⟨m, hm, hdrop⟩ := exists_after_drop h d
  have hall := hdrop 0
  rw [List.drop_zero, Nat.max_zero] at hall
  rw [after_last_of_lt h hn, hall, last, List.getElem?_drop, List.getElem?_drop]
  rw [hall] at hn
  simp only [List.length_drop] at hn ⊢
  congr 1
  omega

/-- **The element at a position after the bound** is the same exactly where nothing is lost. -/
theorem getElem?_after_last_eq_iff (hi : i < n) :
    (after key d (last n l))[i]? = (after key d l)[i]? ↔ (after key d l).length ≤ n := by
  constructor
  · intro heq
    by_contra hlt
    rw [not_le] at hlt
    have hpairs : (after key d l).Pairwise fun a b => key a < key b := h.filter _
    rw [getElem?_after_last h hlt] at heq
    have hlate : (after key d l).length - n + i < (after key d l).length := by omega
    have hearly : i < (after key d l).length := by omega
    rw [List.getElem?_eq_getElem hlate, List.getElem?_eq_getElem hearly, Option.some_inj] at heq
    have hkey := List.pairwise_iff_getElem.1 hpairs i _ hearly hlate (by omega)
    rw [heq] at hkey
    exact lt_irrefl _ hkey
  · exact fun hle => by rw [after_last_of_le h hle]

end Ordered

/-- Elements after a bound that keep a distance end after as many distances. -/
theorem lt_of_spaced {gap now : ℤ} (hgap : 0 < gap) : ∀ {times : List ℤ} {d : ℤ}, times ≠ [] →
    times.Pairwise (fun s t => s + gap ≤ t) → (∀ t ∈ times, d < t ∧ t ≤ now) →
    d + gap * (times.length - 1) < now
  | [], _, hne, _, _ => absurd rfl hne
  | [t], d, _, _, hall => by
    obtain ⟨hlt, hle⟩ := hall t (List.mem_singleton_self t)
    simpa using hlt.trans_le hle
  | t :: u :: rest, d, _, hpairs, hall => by
    rw [List.pairwise_cons] at hpairs
    obtain ⟨hlt, -⟩ := hall t List.mem_cons_self
    have hrest := lt_of_spaced hgap (d := d + gap) (List.cons_ne_nil u rest) hpairs.2
      fun v hv => ⟨by linarith [hpairs.1 v hv], (hall v (List.mem_cons_of_mem t hv)).2⟩
    simp only [List.length_cons, Nat.cast_add, Nat.cast_one] at hrest ⊢
    linarith [hrest]

/-- **How many there can be** since the bound. -/
theorem length_le_of_spaced {gap now d : ℤ} (hgap : 0 < gap) {times : List ℤ}
    (hpairs : times.Pairwise fun s t => s + gap ≤ t) (hall : ∀ t ∈ times, d < t ∧ t ≤ now) :
    times.length ≤ (max ⌈((now - d : ℤ) : ℚ) / gap⌉ 0).toNat := by
  rcases eq_or_ne times [] with rfl | hne
  · exact Nat.zero_le _
  · have hlt := lt_of_spaced hgap hne hpairs hall
    have hq : (0 : ℚ) < gap := by exact_mod_cast hgap
    have hceil : ((times.length - 1 : ℤ) : ℚ) < (⌈((now - d : ℤ) : ℚ) / gap⌉ : ℚ) := by
      refine lt_of_lt_of_le ?_ (Int.le_ceil _)
      rw [lt_div_iff₀ hq]
      have hcast : (times.length - 1 : ℤ) * gap < now - d := by linarith
      exact_mod_cast hcast
    have hint : (times.length - 1 : ℤ) < ⌈((now - d : ℤ) : ℚ) / gap⌉ := by exact_mod_cast hceil
    omega

end LastPart

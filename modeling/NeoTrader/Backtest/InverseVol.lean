import Mathlib.Algebra.BigOperators.Ring.List
import Mathlib.Algebra.Order.BigOperators.Group.List
import Mathlib.Algebra.Order.Field.Rat
import Mathlib.Data.List.Dedup
import Mathlib.Tactic.FieldSimp
import Mathlib.Tactic.Linarith
import Mathlib.Tactic.NormNum
import NeoTrader.Py.Value

/-!
# Inverse-volatility weights

Names are weighted by the inverse of their realized volatility. A weight above one half is fixed at
one half and the rest of the budget goes to the other names, in rounds.

* **`Weighting.capRound`**: a round keeps that, and the next one has nothing to do;
* **`inverseVolWeights_spec`**: the weights that come out.
-/

namespace NeoTrader

namespace InverseVol

open Py

/-! ## The weighting -/

def sumValues (d : Dict ℚ) : ℚ := (d.map Prod.snd).sum

/-- `{ s: f(s) for s in names }`: a name that comes again keeps its place. -/
def dictOf (names : List String) (f : String → ℚ) : Dict ℚ :=
  names.reverse.dedup.reverse.map fun s => (s, f s)

/-- `1.0 / len(names)` for each name. -/
def equalWeights (names : List String) : Dict ℚ := dictOf names fun _ => 1 / names.length

section Weights

variable (sqrt : ℚ → ℚ) (px : String → Dict ℚ) (common : List String) (volWindow : ℕ)

/-- The close of a name at a common date. -/
def priceAt (s : String) (k : ℕ) : Option ℚ := common[k]? >>= fun date => (px s).get? date

/-- The return of one bar; a missing or zero price has none. -/
def barReturn (s : String) (k : ℕ) : Option ℚ := do
  let p₀ ← priceAt px common s (k - 1)
  let p₁ ← priceAt px common s k
  if p₁ ≠ 0 ∧ 0 < p₀ then some (p₁ / p₀ - 1) else none

def sampleVariance (rets : List ℚ) : ℚ :=
  let mean := rets.sum / rets.length
  (rets.map fun r => (r - mean) ^ 2).sum / (rets.length - 1)

/-- The standard deviation of the returns in the window strictly before a bar. -/
def realizedVol (i : ℕ) (s : String) : Option ℚ :=
  let start := max 1 (i - volWindow)
  let rets := (List.range' start (i - start)).filterMap (barReturn px common s)
  if rets.length < 2 then none else some (sqrt (sampleVariance rets))

/-- The cap on a single weight. -/
def cap : ℚ := 1 / 2

/-- The weight is above the cap. -/
def isOver (e : String × ℚ) : Bool := cap + 1 / 10 ^ 12 < e.2

/-- One round: `none` is a `break`. -/
def capRound (w : Dict ℚ) : Option (Dict ℚ) :=
  let excess := w.filter isOver
  let remaining := w.filter fun e => !isOver e
  if excess = [] ∨ remaining = [] then none
  else
    let remainingBudget := 1 - cap * excess.length
    let remainingSum := sumValues remaining
    some (excess.map (fun e => (e.1, cap)) ++ remaining.map fun e =>
      (e.1, if 0 < remainingSum then e.2 / remainingSum * remainingBudget
        else remainingBudget / remaining.length))

/-- The rounds. -/
def capLoop : ℕ → Dict ℚ → Dict ℚ
  | 0, w => w
  | n + 1, w =>
    match capRound w with
    | none => w
    | some w' => capLoop n w'

/-- **The weights, and whether they fell back to equal ones.** -/
def inverseVolWeights (names : List String) (i : ℕ) : Dict ℚ × Bool :=
  let vol s := realizedVol sqrt px common volWindow i s
  if names = [] then ([], false)
  else if names.any fun s => (vol s).all (· ≤ 0) then (equalWeights names, true)
  else
    let inv := dictOf names fun s => 1 / (vol s).getD 0
    let total := sumValues inv
    if total ≤ 0 then (equalWeights names, true)
    else
      let w := inv.map fun e => (e.1, e.2 / total)
      (capLoop w.length w, false)

end Weights

/-! ## Sums -/

theorem sumValues_cons (e : String × ℚ) (d : Dict ℚ) :
    sumValues (e :: d) = e.2 + sumValues d := List.sum_cons

theorem sumValues_split (w : Dict ℚ) (p : String × ℚ → Bool) :
    sumValues (w.filter p) + sumValues (w.filter fun e => !p e) = sumValues w := by
  induction w with
  | nil => simp [sumValues]
  | cons e w ih =>
    by_cases h : p e = true
    · simp only [List.filter_cons, h, if_true, Bool.not_true, Bool.false_eq_true, if_false,
        sumValues_cons]
      linarith
    · simp only [Bool.not_eq_true] at h
      simp only [List.filter_cons, h, Bool.false_eq_true, if_false, Bool.not_false, if_true,
        sumValues_cons]
      linarith

theorem sumValues_map_mul (d : Dict ℚ) (c : ℚ) :
    sumValues (d.map fun e => (e.1, e.2 * c)) = sumValues d * c := by
  induction d with
  | nil => simp [sumValues]
  | cons e d ih =>
    rw [List.map_cons, sumValues_cons, ih, sumValues_cons]
    ring

theorem sumValues_nonneg {d : Dict ℚ} (h : ∀ e ∈ d, 0 ≤ e.2) : 0 ≤ sumValues d := by
  refine List.sum_nonneg fun x hx => ?_
  obtain ⟨e, he, rfl⟩ := List.mem_map.1 hx
  exact h e he

theorem sumValues_pos {d : Dict ℚ} (h : ∀ e ∈ d, 0 < e.2) (hne : d ≠ []) : 0 < sumValues d := by
  cases d with
  | nil => exact absurd rfl hne
  | cons e d =>
    have hhead := h e List.mem_cons_self
    have htail := sumValues_nonneg fun e' he' => (h e' (List.mem_cons_of_mem _ he')).le
    rw [sumValues_cons]
    linarith

theorem le_sumValues {d : Dict ℚ} (h : ∀ e ∈ d, 0 ≤ e.2) {e : String × ℚ} (he : e ∈ d) :
    e.2 ≤ sumValues d :=
  List.single_le_sum (fun x hx => by
    obtain ⟨e', he', rfl⟩ := List.mem_map.1 hx
    exact h e' he') _ (List.mem_map.2 ⟨e, he, rfl⟩)

/-! ## Weightings -/

/-- **Weights of at least two names**, in the order of a volatility. -/
structure Weighting (vol : String → ℚ) (w : Dict ℚ) : Prop where
  keys : (w.map Prod.fst).Nodup
  two : 2 ≤ w.length
  pos : ∀ e ∈ w, 0 < e.2
  sum : sumValues w = 1
  order : ∀ e ∈ w, ∀ e' ∈ w, vol e.1 ≤ vol e'.1 → e'.2 ≤ e.2

variable {vol : String → ℚ} {w w' : Dict ℚ}

theorem isOver_iff {e : String × ℚ} : isOver e = true ↔ cap + 1 / 10 ^ 12 < e.2 :=
  decide_eq_true_iff

theorem Weighting.over_le_one (h : Weighting vol w) : (w.filter isOver).length ≤ 1 := by
  by_contra hlen
  have hsplit := sumValues_split w isOver
  have hrest : 0 ≤ sumValues (w.filter fun e => !isOver e) :=
    sumValues_nonneg fun e he => (h.pos e (List.mem_filter.1 he).1).le
  have hover : ∀ e ∈ w.filter isOver, cap < e.2 := fun e he => by
    have := isOver_iff.1 (List.mem_filter.1 he).2
    have htol : (0 : ℚ) < 1 / 10 ^ 12 := by norm_num
    linarith
  rw [h.sum] at hsplit
  cases hl : w.filter isOver with
  | nil => simp [hl] at hlen
  | cons e l =>
    cases l with
    | nil => simp [hl] at hlen
    | cons e' l =>
      rw [hl] at hover hsplit
      have h₁ := hover e (by simp)
      have h₂ := hover e' (by simp)
      have h₃ : 0 ≤ sumValues l := sumValues_nonneg fun x hx => by
        have hx' := hover x (by simp [hx])
        have hcap : (0 : ℚ) < cap := by norm_num [cap]
        linarith
      rw [sumValues_cons, sumValues_cons] at hsplit
      have hcap : cap = 1 / 2 := rfl
      linarith

/-! ## Rounds -/

/-- The weights are within the cap, up to the tolerance. -/
def Capped (w : Dict ℚ) : Prop := ∀ e ∈ w, e.2 ≤ cap + 1 / 10 ^ 12

theorem capped_iff : Capped w ↔ w.filter isOver = [] := by
  rw [List.filter_eq_nil_iff]
  refine forall₂_congr fun e _ => ?_
  rw [isOver_iff, not_lt]

theorem Weighting.capped (h : Weighting vol w) (hround : capRound w = none) : Capped w := by
  rw [capped_iff]
  by_contra hover
  have hremaining : w.filter (fun e => !isOver e) = [] := by
    by_contra hne
    rw [capRound, if_neg (not_or.2 ⟨hover, hne⟩)] at hround
    cases hround
  have hlen : w.length = (w.filter isOver).length := by
    rw [List.length_eq_length_filter_add isOver, hremaining, List.length_nil, add_zero]
  have hone := h.over_le_one
  have htwo := h.two
  omega

theorem capRound_of_capped (h : Capped w) : capRound w = none :=
  if_pos (.inl (capped_iff.1 h))

theorem Weighting.capRound_eq (h : Weighting vol w) (hround : capRound w = some w') :
    ∃ top ∈ w, isOver top = true ∧ w' = (top.1, cap) ::
      (w.filter fun e => !isOver e).map (fun e =>
        (e.1, e.2 * (cap / sumValues (w.filter fun e => !isOver e)))) ∧
      0 < sumValues (w.filter fun e => !isOver e) ∧ w.filter isOver = [top] := by
  have hguard : ¬ (w.filter isOver = [] ∨ w.filter (fun e => !isOver e) = []) := by
    intro hguard
    rw [capRound, if_pos hguard] at hround
    cases hround
  obtain ⟨hover, hremaining⟩ := not_or.1 hguard
  obtain ⟨top, htop⟩ : ∃ top, w.filter isOver = [top] := by
    cases hl : w.filter isOver with
    | nil => exact absurd hl hover
    | cons e l =>
      have hone := h.over_le_one
      cases l with
      | nil => exact ⟨e, rfl⟩
      | cons e' l => simp [hl] at hone
  have hmem : top ∈ w.filter isOver := by simp [htop]
  have hpos : 0 < sumValues (w.filter fun e => !isOver e) :=
    sumValues_pos (fun e he => h.pos e (List.mem_filter.1 he).1) hremaining
  refine ⟨top, (List.mem_filter.1 hmem).1, (List.mem_filter.1 hmem).2, ?_, hpos, htop⟩
  rw [capRound, if_neg hguard] at hround
  rw [← Option.some.inj hround, htop]
  have hbudget (x : ℚ) :
      x / sumValues (w.filter fun e => !isOver e) * (1 - cap * (([top] : Dict ℚ).length : ℚ)) =
        x * (cap / sumValues (w.filter fun e => !isOver e)) := by
    have hcap : 1 - cap * (([top] : Dict ℚ).length : ℚ) = cap := by norm_num [cap]
    rw [hcap]
    ring
  simp only [if_pos hpos, hbudget, List.map_cons, List.map_nil, List.singleton_append]

theorem keys_filter_over (top : String × ℚ) (h : w.filter isOver = [top])
    (hkeys : (w.map Prod.fst).Nodup) :
    top.1 ∉ (w.filter fun e => !isOver e).map Prod.fst := by
  have hmem : top ∈ w.filter isOver := by simp [h]
  intro hin
  obtain ⟨e, he, hkey⟩ := List.mem_map.1 hin
  obtain ⟨hew, hnot⟩ := List.mem_filter.1 he
  obtain ⟨htopw, hover⟩ := List.mem_filter.1 hmem
  rw [List.inj_on_of_nodup_map hkeys hew htopw hkey, hover] at hnot
  cases hnot

/-- **A round keeps a weighting**, and the weights are capped after it. -/
theorem Weighting.capRound (h : Weighting vol w) (hround : InverseVol.capRound w = some w') :
    Weighting vol w' ∧ Capped w' ∧ w'.map Prod.fst ⊆ w.map Prod.fst ∧
      w.map Prod.fst ⊆ w'.map Prod.fst := by
  obtain ⟨top, htop, hover, rfl, hpos, hsingle⟩ := h.capRound_eq hround
  have hcap : (0 : ℚ) < cap := by norm_num [cap]
  have hscale : 0 < cap / sumValues (w.filter fun e => !isOver e) := div_pos hcap hpos
  have hrestKeys : ((w.filter fun e => !isOver e).map fun e =>
      (e.1, e.2 * (cap / sumValues (w.filter fun e => !isOver e)))).map Prod.fst =
      (w.filter fun e => !isOver e).map Prod.fst := by
    rw [List.map_map]
    rfl
  have hle {e : String × ℚ} (he : e ∈ w.filter fun e => !isOver e) :
      e.2 * (cap / sumValues (w.filter fun e => !isOver e)) ≤ cap := by
    have hsum := le_sumValues (fun e he => (h.pos e (List.mem_filter.1 he).1).le) he
    calc e.2 * (cap / sumValues (w.filter fun e => !isOver e))
        ≤ sumValues (w.filter fun e => !isOver e) *
            (cap / sumValues (w.filter fun e => !isOver e)) :=
          mul_le_mul_of_nonneg_right hsum hscale.le
      _ = cap := mul_div_cancel₀ cap hpos.ne'
  refine ⟨⟨?_, ?_, ?_, ?_, ?_⟩, ?_, ?_, ?_⟩
  · rw [List.map_cons, hrestKeys, List.nodup_cons]
    exact ⟨keys_filter_over top hsingle h.keys, (List.filter_sublist.map _).nodup h.keys⟩
  · have hlen := List.length_eq_length_filter_add (l := w) isOver
    rw [hsingle] at hlen
    simp only [List.length_cons, List.length_map, List.length_nil] at hlen ⊢
    have htwo := h.two
    omega
  · intro e he
    rcases List.mem_cons.1 he with rfl | he
    · exact hcap
    · obtain ⟨e', he', rfl⟩ := List.mem_map.1 he
      exact mul_pos (h.pos e' (List.mem_filter.1 he').1) hscale
  · rw [sumValues_cons, sumValues_map_mul, mul_div_cancel₀ cap hpos.ne']
    norm_num [cap]
  · intro e he e' he' hvol
    rcases List.mem_cons.1 he with rfl | he
    · rcases List.mem_cons.1 he' with rfl | he'
      · exact le_refl _
      · obtain ⟨x, hx, rfl⟩ := List.mem_map.1 he'
        exact hle hx
    · obtain ⟨x, hx, rfl⟩ := List.mem_map.1 he
      obtain ⟨hxw, hxnot⟩ := List.mem_filter.1 hx
      rcases List.mem_cons.1 he' with rfl | he'
      · -- a name of lower volatility than the capped one would be above the cap as well
        have horder := h.order x hxw top htop hvol
        have htopOver := isOver_iff.1 hover
        rw [isOver_iff.2 (lt_of_lt_of_le htopOver horder)] at hxnot
        cases hxnot
      · obtain ⟨y, hy, rfl⟩ := List.mem_map.1 he'
        exact mul_le_mul_of_nonneg_right (h.order x hxw y (List.mem_filter.1 hy).1 hvol)
          hscale.le
  · have htol : (0 : ℚ) < 1 / 10 ^ 12 := by norm_num
    intro e he
    rcases List.mem_cons.1 he with rfl | he
    · show cap ≤ _
      linarith
    · obtain ⟨x, hx, rfl⟩ := List.mem_map.1 he
      have hx' := hle hx
      show x.2 * _ ≤ _
      linarith
  · rw [List.map_cons, hrestKeys]
    intro k hk
    rcases List.mem_cons.1 hk with rfl | hk
    · exact List.mem_map.2 ⟨top, htop, rfl⟩
    · exact (List.filter_sublist.map _).subset hk
  · rw [List.map_cons, hrestKeys]
    intro k hk
    obtain ⟨e, he, rfl⟩ := List.mem_map.1 hk
    by_cases hover' : isOver e = true
    · have hmem : e ∈ w.filter isOver := List.mem_filter.2 ⟨he, hover'⟩
      rw [hsingle, List.mem_singleton] at hmem
      rw [hmem]
      exact List.mem_cons_self
    · exact List.mem_cons_of_mem _ (List.mem_map.2
        ⟨e, List.mem_filter.2 ⟨he, by simpa using hover'⟩, rfl⟩)

/-- **Two rounds are always enough.** -/
theorem Weighting.capLoop (h : Weighting vol w) {n : ℕ} (hn : n ≠ 0) :
    Weighting vol (InverseVol.capLoop n w) ∧ Capped (InverseVol.capLoop n w) ∧
      ∀ k, k ∈ (InverseVol.capLoop n w).map Prod.fst ↔ k ∈ w.map Prod.fst := by
  cases n with
  | zero => exact absurd rfl hn
  | succ n =>
    cases hround : InverseVol.capRound w with
    | none =>
      have hloop : InverseVol.capLoop (n + 1) w = w := by rw [InverseVol.capLoop, hround]
      rw [hloop]
      exact ⟨h, h.capped hround, fun k => Iff.rfl⟩
    | some w' =>
      obtain ⟨h', hcapped, hsub, hsup⟩ := h.capRound hround
      have hstop : InverseVol.capLoop n w' = w' := by
        cases n with
        | zero => rfl
        | succ n => rw [InverseVol.capLoop, capRound_of_capped hcapped]
      have hloop : InverseVol.capLoop (n + 1) w = w' := by
        rw [InverseVol.capLoop, hround]
        exact hstop
      rw [hloop]
      exact ⟨h', hcapped, fun k => ⟨fun hk => hsub hk, fun hk => hsup hk⟩⟩

/-! ## The weights that come out -/

theorem mem_dictOf {names : List String} {f : String → ℚ} {e : String × ℚ} :
    e ∈ dictOf names f ↔ e.1 ∈ names ∧ e.2 = f e.1 := by
  simp only [dictOf, List.mem_map, List.mem_reverse, List.mem_dedup]
  constructor
  · rintro ⟨s, hs, rfl⟩
    exact ⟨hs, rfl⟩
  · rintro ⟨hs, hf⟩
    exact ⟨e.1, hs, Prod.ext rfl hf.symm⟩

theorem keys_dictOf (names : List String) (f : String → ℚ) :
    (dictOf names f).map Prod.fst = names.reverse.dedup.reverse := by
  rw [dictOf, List.map_map]
  exact List.map_id _

theorem length_dictOf (names : List String) (f : String → ℚ) :
    (dictOf names f).length = names.dedup.length := by
  have hperm : names.reverse.dedup.Perm names.dedup := (List.reverse_perm names).dedup
  rw [dictOf, List.length_map, List.length_reverse, hperm.length_eq]

section Result

variable {sqrt : ℚ → ℚ} {px : String → Dict ℚ} {common : List String} {volWindow : ℕ}
  {names : List String} {i : ℕ}

/-- **The weights of two names or more with positive volatilities** are positive, sum to one, are
within the cap, and a lower volatility never gets the smaller weight. -/
theorem inverseVolWeights_spec {vol : String → ℚ} (htwo : 2 ≤ names.dedup.length)
    (hvol : ∀ s ∈ names, realizedVol sqrt px common volWindow i s = some (vol s) ∧ 0 < vol s) :
    (inverseVolWeights sqrt px common volWindow names i).2 = false ∧
      (∀ s, s ∈ (inverseVolWeights sqrt px common volWindow names i).1.map Prod.fst ↔ s ∈ names) ∧
      Weighting vol (inverseVolWeights sqrt px common volWindow names i).1 ∧
      Capped (inverseVolWeights sqrt px common volWindow names i).1 := by
  have hne : names ≠ [] := by
    rintro rfl
    simp at htwo
  have hany : ¬ (names.any fun s =>
      (realizedVol sqrt px common volWindow i s).all (· ≤ 0)) = true := by
    rw [List.any_eq_true]
    rintro ⟨s, hs, hall⟩
    rw [(hvol s hs).1] at hall
    exact absurd (of_decide_eq_true hall) (not_le.2 (hvol s hs).2)
  have hinv : ∀ e ∈ dictOf names fun s =>
      1 / (realizedVol sqrt px common volWindow i s).getD 0,
      0 < e.2 ∧ e.1 ∈ names ∧ e.2 = 1 / vol e.1 := by
    intro e he
    obtain ⟨hname, hvalue⟩ := mem_dictOf.1 he
    rw [(hvol e.1 hname).1, Option.getD_some] at hvalue
    exact ⟨hvalue ▸ one_div_pos.2 (hvol e.1 hname).2, hname, hvalue⟩
  have hlen := length_dictOf names fun s =>
    1 / (realizedVol sqrt px common volWindow i s).getD 0
  have htotal : 0 < sumValues (dictOf names fun s =>
      1 / (realizedVol sqrt px common volWindow i s).getD 0) := by
    refine sumValues_pos (fun e he => (hinv e he).1) fun hempty => ?_
    rw [hempty, List.length_nil] at hlen
    omega
  rw [inverseVolWeights, if_neg hne, if_neg hany, if_neg (not_le.2 htotal)]
  generalize htotalEq : sumValues (dictOf names fun s =>
      1 / (realizedVol sqrt px common volWindow i s).getD 0) = total at htotal ⊢
  have hstart : Weighting vol ((dictOf names fun s =>
      1 / (realizedVol sqrt px common volWindow i s).getD 0).map fun e => (e.1, e.2 / total)) := by
    refine ⟨?_, ?_, ?_, ?_, ?_⟩
    · rw [List.map_map]
      show ((dictOf names _).map Prod.fst).Nodup
      rw [keys_dictOf]
      exact List.nodup_reverse.2 (List.nodup_dedup _)
    · rw [List.length_map, hlen]
      exact htwo
    · intro e he
      obtain ⟨x, hx, rfl⟩ := List.mem_map.1 he
      exact div_pos (hinv x hx).1 htotal
    · have hmul := sumValues_map_mul (dictOf names fun s =>
        1 / (realizedVol sqrt px common volWindow i s).getD 0) total⁻¹
      rw [htotalEq, mul_inv_cancel₀ htotal.ne'] at hmul
      refine Eq.trans (congrArg sumValues (List.map_congr_left fun e _ => ?_)) hmul
      rw [div_eq_mul_inv]
    · intro e he e' he' hle
      obtain ⟨x, hx, rfl⟩ := List.mem_map.1 he
      obtain ⟨y, hy, rfl⟩ := List.mem_map.1 he'
      obtain ⟨-, hxn, hxv⟩ := hinv x hx
      obtain ⟨-, -, hyv⟩ := hinv y hy
      show y.2 / total ≤ x.2 / total
      rw [hxv, hyv]
      exact div_le_div_of_nonneg_right (one_div_le_one_div_of_le (hvol x.1 hxn).2 hle) htotal.le
  have hn : ((dictOf names fun s =>
      1 / (realizedVol sqrt px common volWindow i s).getD 0).map fun e =>
        (e.1, e.2 / total)).length ≠ 0 := by
    have htwo' := hstart.two
    omega
  obtain ⟨hweighting, hcapped, hkeys⟩ := hstart.capLoop hn
  refine ⟨rfl, fun s => ?_, hweighting, hcapped⟩
  rw [hkeys s, List.map_map]
  show s ∈ (dictOf names _).map Prod.fst ↔ _
  rw [keys_dictOf, List.mem_reverse, List.mem_dedup, List.mem_reverse]

end Result

/-! ## Two names -/

def squareRoot (q : ℚ) : ℚ := (Nat.sqrt q.num.natAbs : ℚ) / (Nat.sqrt q.den : ℚ)

/-- Four closes of a name that moves by a tenth, and of one that moves by a fiftieth. -/
def twoPrices (s : String) : Dict ℚ :=
  if s = "A" then [("1", 100), ("2", 110), ("3", 110), ("4", 99)]
  else [("1", 100), ("2", 102), ("3", 102), ("4", 2499 / 25)]

/-- The weights of two names, one of which is capped. -/
theorem inverseVolWeights_two :
    (inverseVolWeights squareRoot twoPrices ["1", "2", "3", "4"] 60 ["A", "B"] 4).2 = false ∧
      (∀ s, s ∈ (inverseVolWeights squareRoot twoPrices ["1", "2", "3", "4"] 60 ["A", "B"]
        4).1.map Prod.fst ↔ s ∈ ["A", "B"]) ∧
      Weighting (fun s => if s = "A" then 1 / 10 else 1 / 50)
        (inverseVolWeights squareRoot twoPrices ["1", "2", "3", "4"] 60 ["A", "B"] 4).1 ∧
      Capped (inverseVolWeights squareRoot twoPrices ["1", "2", "3", "4"] 60 ["A", "B"] 4).1 := by
  refine inverseVolWeights_spec (by decide) fun s hs => ?_
  simp only [List.mem_cons, List.not_mem_nil, or_false] at hs
  rcases hs with rfl | rfl
  · exact ⟨by decide +kernel, by norm_num⟩
  · refine ⟨by decide +kernel, ?_⟩
    rw [if_neg (by decide)]
    norm_num

end InverseVol

end NeoTrader

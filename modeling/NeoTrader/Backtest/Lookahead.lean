import Mathlib.Data.List.Dedup
import Mathlib.Tactic.Linarith
import NeoTrader.Backtest.WalkForward

/-!
# What the in-sample runs have seen

The windows are positions in the list of the longest symbol, and are applied to every list.

* `NoLookahead`: every in-sample bar is older than every evaluated date of its window, and the
  evaluated dates of a window are older than those of the windows after it;
* **`no_lookahead_iff`**: nothing else is needed.
-/

namespace NeoTrader

section Windows

variable {B D : Type} [LinearOrder D] (date : B → D)

def barsOf (prices : Prices B) : List B := prices.flatMap Prod.snd

/-- **No look-ahead**, for the bars that each in-sample run is given and the dates that each
out-of-sample run evaluates. -/
def NoLookahead (windows : List (List B × List D)) : Prop :=
  (∀ w ∈ windows, ∀ b ∈ w.1, ∀ d ∈ w.2, date b < d) ∧
    windows.Pairwise fun w w' => ∀ d ∈ w.2, ∀ d' ∈ w'.2, d < d'

/-- The windows of the engine of single symbols, which evaluates every bar. -/
def walkForwardWindows (prices : Prices B) (cfg : WalkForwardConfig) : List (List B × List D) :=
  if prices.isEmpty ∨ refLength prices < minDataBars then []
  else (splits (refLength prices) cfg.nWindows cfg.inSamplePct).map fun s =>
    (barsOf (slicePrices prices 0 s.oosStart),
      (barsOf (slicePrices prices s.oosStart s.oosEnd)).map date)

/-- The windows of the portfolio engine. -/
def crossSectionalWindows (depleted : Prices B → Bool) (prices : Prices B)
    (cfg : CrossSectionalConfig) : List (List B × List D) :=
  (crossSectionalSplits prices cfg).map fun s =>
    (barsOf (slicePrices prices 0 s.oosStart),
      evaluatedDates date depleted cfg (oosPrices prices cfg s))

/-- The bars of every symbol are in the order of their dates. -/
def DateSorted (prices : Prices B) : Prop :=
  ∀ p ∈ prices, p.2.Pairwise fun a b => date a ≤ date b

/-- **The dates at the boundaries**: the last of the first `oosStart` bars of every symbol is older
than the bar at `oosStart` of every symbol that has one. -/
def BoundaryOrdered (prices : Prices B) (cfg : WalkForwardConfig) : Prop :=
  minDataBars ≤ refLength prices → ∀ s ∈ splits (refLength prices) cfg.nWindows cfg.inSamplePct,
    ∀ p ∈ prices, ∀ q ∈ prices, ∀ b ∈ (p.2.take s.oosStart).getLast?, ∀ b' ∈ q.2[s.oosStart]?,
      date b < date b'

/-- **The dates at the boundaries** of the portfolio engine: the last of the first `oosStart` bars
of every symbol is older than the first evaluated date. -/
def CrossSectionalBoundaryOrdered (depleted : Prices B → Bool) (prices : Prices B)
    (cfg : CrossSectionalConfig) : Prop :=
  ∀ s ∈ crossSectionalSplits prices cfg, ∀ p ∈ prices, ∀ b ∈ (p.2.take s.oosStart).getLast?,
    ∀ d ∈ (evaluatedDates date depleted cfg (oosPrices prices cfg s)).head?, date b < d

end Windows

/-! ## Positions -/

/-- **The windows do not overlap**, and stand in their order. -/
theorem splits_ordered (n nWindows : ℕ) (inSamplePct : ℚ) :
    (splits n nWindows inSamplePct).Pairwise fun s s' => s.oosEnd ≤ s'.oosStart := by
  refine List.Pairwise.filterMap _ ?_ List.pairwise_lt_range
  intro w w' hlt s hs s' hs'
  have hper : 1 ≤ oosPerWindow n nWindows inSamplePct := le_max_left _ _
  generalize oosPerWindow n nWindows inSamplePct = per at hs hs' hper
  simp only [Option.ite_none_left_eq_some, Option.some.injEq] at hs hs'
  obtain ⟨-, rfl⟩ := hs
  obtain ⟨-, rfl⟩ := hs'
  refine Int.toNat_le_toNat ?_
  have hstep : (w : ℤ) + 1 ≤ w' := by exact_mod_cast hlt
  nlinarith

theorem splits_nonempty {n nWindows : ℕ} {inSamplePct : ℚ} {s : Split}
    (hs : s ∈ splits n nWindows inSamplePct) : s.oosStart < s.oosEnd := by
  obtain ⟨w, -, hw⟩ := List.mem_filterMap.1 hs
  simp only [Option.ite_none_left_eq_some, Option.some.injEq, not_or] at hw
  obtain ⟨⟨h20, -, hlt⟩, rfl⟩ := hw
  dsimp only
  omega

/-! ## Bars of a slice -/

section Slices

variable {B D : Type} [LinearOrder D] {date : B → D} {prices : Prices B}

theorem mem_barsOf_slice {start stop : ℕ} {b : B} : b ∈ barsOf (slicePrices prices start stop) ↔
    ∃ p ∈ prices, b ∈ (p.2.take stop).drop start := by
  simp only [barsOf, slicePrices, List.mem_flatMap, List.mem_filter, List.mem_map]
  constructor
  · rintro ⟨q, ⟨⟨p, hp, rfl⟩, -⟩, hb⟩
    exact ⟨p, hp, hb⟩
  · rintro ⟨p, hp, hb⟩
    refine ⟨_, ⟨⟨p, hp, rfl⟩, ?_⟩, hb⟩
    simpa using List.ne_nil_of_mem hb

theorem le_last {l : List B} (hl : l.Pairwise fun a b => date a ≤ date b) {s : ℕ} {b : B}
    (hb : b ∈ l.take s) : ∃ c ∈ (l.take s).getLast?, date b ≤ date c := by
  have hne := List.ne_nil_of_mem hb
  refine ⟨_, List.getLast?_eq_getLast_of_ne_nil hne, ?_⟩
  have htake : (l.take s).Pairwise fun a b => date a ≤ date b := hl.sublist (List.take_sublist _ _)
  rw [← List.dropLast_append_getLast hne] at hb htake
  rcases List.mem_append.1 hb with hb | hb
  · exact (List.pairwise_append.1 htake).2.2 b hb _ (List.mem_singleton.2 rfl)
  · rw [List.mem_singleton.1 hb]

theorem boundary_le {l : List B} (hl : l.Pairwise fun a b => date a ≤ date b) {s e : ℕ} {b : B}
    (hb : b ∈ (l.take e).drop s) : ∃ c ∈ l[s]?, date c ≤ date b := by
  have hmem : b ∈ l.drop s := by
    rw [List.drop_take] at hb
    exact List.mem_of_mem_take hb
  have hdrop : (l.drop s).Pairwise fun a b => date a ≤ date b := hl.sublist (List.drop_sublist _ _)
  cases hcons : l.drop s with
  | nil =>
    rw [hcons] at hmem
    cases hmem
  | cons c rest =>
    have hget : l[s]? = some c := by
      have hhead : (l.drop s)[0]? = some c := by rw [hcons]; rfl
      simpa using hhead
    rw [hcons] at hmem hdrop
    refine ⟨c, hget, ?_⟩
    rcases List.mem_cons.1 hmem with rfl | hmem
    · exact le_refl _
    · exact (List.pairwise_cons.1 hdrop).1 b hmem

theorem noLookahead_map {S : Type} {l : List S} {given : S → List B} {evaluated : S → List D}
    (hfirst : ∀ s ∈ l, ∀ b ∈ given s, ∀ d ∈ evaluated s, date b < d)
    (hlater : l.Pairwise fun s s' => ∀ d ∈ evaluated s, ∃ b ∈ given s', date b = d) :
    NoLookahead date (l.map fun s => (given s, evaluated s)) := by
  refine ⟨fun w hw => ?_, List.pairwise_map.2 (hlater.imp_of_mem fun _ hs' hgiven d hd d' hd' => ?_)⟩
  · obtain ⟨s, hs, rfl⟩ := List.mem_map.1 hw
    exact hfirst s hs
  · obtain ⟨b, hb, rfl⟩ := hgiven d hd
    exact hfirst _ hs' b hb d' hd'

theorem walkForward_iff (hsorted : DateSorted date prices) (cfg : WalkForwardConfig) :
    NoLookahead date (walkForwardWindows date prices cfg) ↔ BoundaryOrdered date prices cfg := by
  by_cases hshort : prices.isEmpty ∨ refLength prices < minDataBars
  · have hnone : walkForwardWindows date prices cfg = [] := if_pos hshort
    rw [hnone]
    refine ⟨fun _ hlong s _ p hp => ?_, fun _ => ⟨by simp, .nil⟩⟩
    rcases hshort with hempty | hlt
    · rw [List.isEmpty_iff.1 hempty] at hp
      cases hp
    · omega
  have hlong : minDataBars ≤ refLength prices := not_lt.1 (not_or.1 hshort).2
  rw [walkForwardWindows, if_neg hshort]
  constructor
  · intro hno _ s hs p hp q hq b hb b' hb'
    have hlt := splits_nonempty hs
    refine hno.1 _ (List.mem_map_of_mem hs) b ?_ (date b') ?_
    · refine mem_barsOf_slice.2 ⟨p, hp, ?_⟩
      simpa using List.mem_of_getLast? hb
    · refine List.mem_map_of_mem (mem_barsOf_slice.2 ⟨q, hq, ?_⟩)
      have hget : ((q.2.take s.oosEnd).drop s.oosStart)[0]? = some b' := by
        rw [List.getElem?_drop, List.getElem?_take, if_pos (by omega)]
        exact hb'
      exact List.mem_of_getElem? hget
  · intro hbound
    refine noLookahead_map (fun s hs b hb d hd => ?_) ?_
    · obtain ⟨p, hp, hbp⟩ := mem_barsOf_slice.1 hb
      obtain ⟨b', hb', rfl⟩ := List.mem_map.1 hd
      obtain ⟨q, hq, hbq⟩ := mem_barsOf_slice.1 hb'
      obtain ⟨c, hc, hle⟩ := le_last (hsorted p hp) hbp
      obtain ⟨c', hc', hle'⟩ := boundary_le (hsorted q hq) hbq
      calc date b ≤ date c := hle
        _ < date c' := hbound hlong s hs p hp q hq c hc c' hc'
        _ ≤ date b' := hle'
    · refine (splits_ordered _ _ _).imp fun {s s'} hle d hd => ?_
      obtain ⟨b, hb, rfl⟩ := List.mem_map.1 hd
      obtain ⟨p, hp, hbp⟩ := mem_barsOf_slice.1 hb
      refine ⟨b, mem_barsOf_slice.2 ⟨p, hp, ?_⟩, rfl⟩
      exact (List.take_subset_take_left _ hle) (List.mem_of_mem_drop hbp)

/-! ## Evaluated dates -/

variable {depleted : Prices B → Bool} {cfg : CrossSectionalConfig}

theorem mem_commonDates {d : D} (hd : d ∈ commonDates date prices) :
    ∃ p ∈ prices, ∃ b ∈ p.2, date b = d := by
  unfold commonDates at hd
  split at hd
  · cases hd
  next p ps hcons =>
    have hp : p ∈ prices := by
      have hmem : p ∈ prices.filter fun p => ¬ p.2.isEmpty := by rw [hcons]; exact List.mem_cons_self
      exact (List.mem_filter.1 hmem).1
    have hdate := (List.mem_filter.1 (List.mem_dedup.1 (List.mem_mergeSort.1 hd))).1
    obtain ⟨b, hb, rfl⟩ := List.mem_map.1 hdate
    exact ⟨p, hp, b, hb, rfl⟩

theorem commonDates_sorted (prices : Prices B) :
    (commonDates date prices).Pairwise (· ≤ ·) := by
  unfold commonDates
  split
  · exact .nil
  · exact List.pairwise_mergeSort' (· ≤ ·) _

theorem workingPrices_subset (prices : Prices B) : workingPrices cfg prices ⊆ prices := by
  dsimp only [workingPrices]
  split
  · exact List.Subset.refl _
  · exact List.filter_sublist.subset

theorem mem_evaluatedDates {d : D} (hd : d ∈ evaluatedDates date depleted cfg prices) :
    ∃ p ∈ prices, ∃ b ∈ p.2, date b = d := by
  dsimp only [evaluatedDates] at hd
  split at hd
  · cases hd
  · obtain ⟨p, hp, hb⟩ := mem_commonDates (List.mem_of_mem_drop hd)
    exact ⟨p, workingPrices_subset _ hp, hb⟩

theorem head_le_evaluated {d : D} (hd : d ∈ evaluatedDates date depleted cfg prices) :
    ∃ d₀ ∈ (evaluatedDates date depleted cfg prices).head?, d₀ ≤ d := by
  have hsorted : (evaluatedDates date depleted cfg prices).Pairwise (· ≤ ·) := by
    dsimp only [evaluatedDates]
    split
    · exact .nil
    · exact (commonDates_sorted _).sublist (List.drop_sublist _ _)
  cases hdates : evaluatedDates date depleted cfg prices with
  | nil =>
    rw [hdates] at hd
    cases hd
  | cons d₀ ds =>
    rw [hdates] at hd hsorted
    refine ⟨d₀, rfl, ?_⟩
    rcases List.mem_cons.1 hd with rfl | hd
    · exact le_refl _
    · exact (List.pairwise_cons.1 hsorted).1 d hd

theorem crossSectional_iff (hsorted : DateSorted date prices) (depleted : Prices B → Bool)
    (cfg : CrossSectionalConfig) :
    NoLookahead date (crossSectionalWindows date depleted prices cfg) ↔
      CrossSectionalBoundaryOrdered date depleted prices cfg := by
  constructor
  · intro hno s hs p hp b hb d hd
    refine hno.1 _ (List.mem_map_of_mem hs) b ?_ d (List.mem_of_mem_head? hd)
    refine mem_barsOf_slice.2 ⟨p, hp, ?_⟩
    simpa using List.mem_of_getLast? hb
  · intro hbound
    refine noLookahead_map (fun s hs b hb d hd => ?_) ?_
    · obtain ⟨p, hp, hbp⟩ := mem_barsOf_slice.1 hb
      obtain ⟨c, hc, hle⟩ := le_last (hsorted p hp) hbp
      obtain ⟨d₀, hd₀, hle'⟩ := head_le_evaluated hd
      calc date b ≤ date c := hle
        _ < d₀ := hbound s hs p hp c hc d₀ hd₀
        _ ≤ d := hle'
    · have hordered : (crossSectionalSplits prices cfg).Pairwise
          fun s s' => s.oosEnd ≤ s'.oosStart := by
        unfold crossSectionalSplits
        split
        · exact .nil
        · exact splits_ordered _ _ _
      refine hordered.imp fun {s s'} hle d hd => ?_
      obtain ⟨q, hq, b, hb, rfl⟩ := mem_evaluatedDates hd
      obtain ⟨p, hp, hbp⟩ := mem_barsOf_slice.1 (List.mem_flatMap.2 ⟨q, hq, hb⟩)
      refine ⟨b, mem_barsOf_slice.2 ⟨p, hp, ?_⟩, rfl⟩
      exact (List.take_subset_take_left _ hle) (List.mem_of_mem_drop hbp)

/-- **In-sample never sees out-of-sample dates** exactly where the dates at the boundaries of the
windows are in order, in both runs. -/
theorem no_lookahead_iff (hsorted : DateSorted date prices) :
    (∀ cfg, NoLookahead date (walkForwardWindows date prices cfg) ↔
      BoundaryOrdered date prices cfg) ∧
    ∀ depleted cfg, NoLookahead date (crossSectionalWindows date depleted prices cfg) ↔
      CrossSectionalBoundaryOrdered date depleted prices cfg :=
  ⟨walkForward_iff hsorted, crossSectional_iff hsorted⟩

end Slices

/-! ## Two histories -/

def unequalPrices : Prices ℕ := [("SPY", List.range 100), ("NEW", (List.range 100).drop 40)]

theorem unequalPrices_sorted : DateSorted id unequalPrices := by
  intro p hp
  have hrange : (List.range 100).Pairwise fun a b => id a ≤ id b :=
    List.pairwise_lt_range.imp fun h => le_of_lt h
  simp only [unequalPrices, List.mem_cons, List.not_mem_nil, or_false] at hp
  rcases hp with rfl | rfl
  · exact hrange
  · exact hrange.sublist (List.drop_sublist _ _)

/-- Two symbols of different length. -/
theorem no_lookahead_unequal :
    (∀ cfg, NoLookahead id (walkForwardWindows id unequalPrices cfg) ↔
      BoundaryOrdered id unequalPrices cfg) ∧
    ∀ depleted cfg, NoLookahead id (crossSectionalWindows id depleted unequalPrices cfg) ↔
      CrossSectionalBoundaryOrdered id depleted unequalPrices cfg :=
  no_lookahead_iff unequalPrices_sorted

theorem unequal_sees : (walkForwardWindows id unequalPrices { nWindows := 1 }).any
    fun w => w.1.any fun b => w.2.any fun d => d ≤ b := by
  decide +kernel

/-- **The in-sample run of a short history sees dates that are evaluated later.** -/
theorem lookahead : ¬ ∀ (prices : Prices ℕ) (cfg : WalkForwardConfig), DateSorted id prices →
    1 ≤ cfg.nWindows → 0 < cfg.inSamplePct → cfg.inSamplePct < 1 →
    NoLookahead id (walkForwardWindows id prices cfg) := by
  intro hall
  have hno := hall unequalPrices { nWindows := 1 } unequalPrices_sorted (le_refl _)
    (by norm_num) (by norm_num)
  obtain ⟨w, hw, hsees⟩ := List.any_eq_true.1 unequal_sees
  obtain ⟨b, hb, hsees⟩ := List.any_eq_true.1 hsees
  obtain ⟨d, hd, hle⟩ := List.any_eq_true.1 hsees
  have hlt : b < d := hno.1 w hw b hb d hd
  exact absurd (of_decide_eq_true hle) (not_le.2 hlt)

end NeoTrader

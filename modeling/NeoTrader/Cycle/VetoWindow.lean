import NeoTrader.Common.LastPart
import NeoTrader.Cycle.VetoBackfill

/-!
# The window of the veto analyzer

A decision is valued at a bar of its own future, but the provider answers with the last bars only.
The number of bars that are asked for is meant to reach back to the decision.

* `limited`: the last bars of a history; `timed`, `Chronicle`: a history that can be read;
* `locateMarkBar_eq`: the mark bar as a position after the decision;
* **`window_law`**: the mark bar of the window is the one of the whole history exactly where no bar
  after the decision is missing; that is so for each decision within the cap; and beyond the cap the
  decision is valued at a bar that is as much too late as bars are missing.
-/

namespace NeoTrader.VetoAnalyzer

open Js LastPart

/-! ## Histories -/

/-- What the gateway returns of the bars of a provider. -/
def limited (limit : ℕ) (bars : List OhlcvBar) : List OhlcvBar :=
  if 0 < limit ∧ limit < bars.length then bars.drop (bars.length - limit) else bars

theorem limited_eq_last {limit : ℕ} (hpos : 0 < limit) (bars : List OhlcvBar) :
    limited limit bars = last limit bars := by
  rw [limited, last]
  split_ifs with h
  · rfl
  · rw [Nat.sub_eq_zero_of_le (by omega), List.drop_zero]

section Window

variable (texts : Texts)

def timedBar (b : OhlcvBar) : Option (ℤ × OhlcvBar) := (texts.parse b.ts).map fun ms => (ms, b)

/-- The bars with their times. -/
def timed (bars : List OhlcvBar) : List (ℤ × OhlcvBar) := bars.filterMap (timedBar texts)

/-- **A history**: its times can be read, keep a distance, and have passed. -/
structure Chronicle (gap : ℕ) (now : ℤ) (bars : List OhlcvBar) : Prop where
  read : ∀ b ∈ bars, (texts.parse b.ts).isSome
  spaced : (timed texts bars).Pairwise fun x y => x.1 + (gap : ℤ) ≤ y.1
  past : ∀ x ∈ timed texts bars, x.1 ≤ now

variable {texts} {gap : ℕ} {now decisionMs : ℤ} {bars : List OhlcvBar} {x y : ℤ × OhlcvBar}

theorem mem_timed : x ∈ timed texts bars ↔ x.2 ∈ bars ∧ texts.parse x.2.ts = some x.1 := by
  obtain ⟨ms, b⟩ := x
  simp only [timed, List.mem_filterMap, timedBar, Option.map_eq_some_iff, Prod.mk.injEq]
  constructor
  · rintro ⟨_, hb, _, hms, rfl, rfl⟩
    exact ⟨hb, hms⟩
  · exact fun ⟨hb, hms⟩ => ⟨b, hb, ms, hms, rfl, rfl⟩

theorem timed_inj (hx : x ∈ timed texts bars) (hy : y ∈ timed texts bars) (h : x.2 = y.2) :
    x = y := by
  have hms := (mem_timed.1 hx).2
  rw [h, (mem_timed.1 hy).2, Option.some_inj] at hms
  exact Prod.ext hms.symm h

theorem filterMap_barAfter :
    bars.filterMap (barAfter texts decisionMs) = after Prod.fst decisionMs (timed texts bars) := by
  rw [after, timed, List.filter_filterMap]
  refine List.filterMap_congr fun b _ => ?_
  rw [barAfter, timedBar]
  cases texts.parse b.ts with
  | none => rfl
  | some ms =>
    show (if decisionMs < ms then some (ms, b) else none) =
      if decide (decisionMs < ms) = true then some (ms, b) else none
    simp only [decide_eq_true_eq]

namespace Chronicle

variable (h : Chronicle texts gap now bars)
include h

theorem increasing (hgap : 0 < gap) : (timed texts bars).Pairwise fun x y => x.1 < y.1 :=
  h.spaced.imp fun hle => by omega

theorem barsAfter_eq (hgap : 0 < gap) :
    barsAfter texts decisionMs bars = after Prod.fst decisionMs (timed texts bars) := by
  rw [barsAfter, filterMap_barAfter]
  exact (((h.increasing hgap).filter _).imp fun hlt => hlt.le).insertionSort_eq

theorem drop (k : ℕ) : timed texts (bars.drop k) = (timed texts bars).drop k := by
  have hread := h.read
  clear h
  induction bars generalizing k with
  | nil => simp [timed]
  | cons b bars ih =>
    cases k with
    | zero => rfl
    | succ k =>
      obtain ⟨ms, hms⟩ := Option.isSome_iff_exists.1 (hread b List.mem_cons_self)
      have hb : timedBar texts b = some (ms, b) := by rw [timedBar, hms]; rfl
      rw [List.drop_succ_cons, ih k fun b hb => hread b (List.mem_cons_of_mem _ hb), timed,
        timed, List.filterMap_cons_some hb, List.drop_succ_cons]

theorem length_timed : (timed texts bars).length = bars.length := by
  have hread := h.read
  clear h
  induction bars with
  | nil => rfl
  | cons b bars ih =>
    obtain ⟨ms, hms⟩ := Option.isSome_iff_exists.1 (hread b List.mem_cons_self)
    have hb : timedBar texts b = some (ms, b) := by rw [timedBar, hms]; rfl
    rw [timed, List.filterMap_cons_some hb, List.length_cons, List.length_cons]
    exact congrArg Nat.succ (ih fun b hb => hread b (List.mem_cons_of_mem _ hb))

theorem timed_last (n : ℕ) : timed texts (last n bars) = last n (timed texts bars) := by
  rw [last, last, h.drop, h.length_timed]

theorem last (n : ℕ) : Chronicle texts gap now (LastPart.last n bars) where
  read b hb := h.read b (List.drop_subset _ _ hb)
  spaced := by
    rw [h.timed_last]
    exact h.spaced.sublist (List.drop_sublist _ _)
  past x hx := by
    rw [h.timed_last] at hx
    exact h.past x (List.drop_subset _ _ hx)

/-- **As many bars as time has passed.** -/
theorem length_barsAfter_le {timeframe : String}
    (hgap : gap = barDurationMs timeframe) :
    (barsAfter texts decisionMs bars).length ≤ barsSinceDecision decisionMs timeframe now := by
  have hpos : 0 < gap := hgap ▸ barDurationMs_pos timeframe
  have htimes : ((after Prod.fst decisionMs (timed texts bars)).map Prod.fst).Pairwise
      fun s t => s + (gap : ℤ) ≤ t := List.pairwise_map.2 (h.spaced.filter _)
  have hall : ∀ t ∈ (after Prod.fst decisionMs (timed texts bars)).map Prod.fst,
      decisionMs < t ∧ t ≤ now := by
    intro t ht
    obtain ⟨x, hx, rfl⟩ := List.mem_map.1 ht
    obtain ⟨hmem, hlt⟩ := List.mem_filter.1 hx
    exact ⟨of_decide_eq_true hlt, h.past x hmem⟩
  have hle := length_le_of_spaced (by exact_mod_cast hpos) htimes hall
  rw [h.barsAfter_eq hpos, ← List.length_map Prod.fst, barsSinceDecision, ← hgap]
  exact_mod_cast hle

end Chronicle

/-! ## The mark bar -/

/-- **The mark bar is at a position after the decision.** -/
theorem locateMarkBar_eq {iso : String} (hparse : texts.parse iso = some decisionMs)
    {horizonBars : ℕ} (hpos : 1 ≤ horizonBars) (bars : List OhlcvBar) :
    locateMarkBar texts bars iso horizonBars =
      ((barsAfter texts decisionMs bars)[horizonBars - 1]?).map Prod.snd := by
  rw [locateMarkBar, hparse]
  dsimp only
  split_ifs with hshort
  · rw [List.getElem?_eq_none (by omega)]
    rfl
  · rfl

theorem horizon_le_limit (opts : ResolvedBackfillOptions) (decisionTs now : ℤ) :
    opts.horizonBars.1 ≤
      computeNeededFetchLimit decisionTs opts.horizonBars opts.timeframe now := by
  have hcap := opts.horizonBars.2.2
  rw [computeNeededFetchLimit, maxFetchLimit]
  omega

theorem map_snd_inj {o o' : Option (ℤ × OhlcvBar)} (ho : ∀ x, o = some x → x ∈ timed texts bars)
    (ho' : ∀ x, o' = some x → x ∈ timed texts bars) (h : o.map Prod.snd = o'.map Prod.snd) :
    o = o' := by
  cases o with
  | none =>
    cases o' with
    | none => rfl
    | some y => cases h
  | some x =>
    cases o' with
    | none => cases h
    | some y => rw [timed_inj (ho x rfl) (ho' y rfl) (Option.some.inj h)]

/-- **The window of a decision.** The mark bar of what is fetched is the one of the whole history
exactly where the request is for as many bars as there are after the decision. It is for as many
where the cap is not reached; and where it is not, the decision is valued at a bar that is later by
the bars that are missing. -/
theorem window_law {opts : ResolvedBackfillOptions} {decisionTs : ℤ}
    (hparse : texts.parse (texts.toISOString decisionTs) = some decisionTs)
    (hbars : Chronicle texts (barDurationMs opts.timeframe) now bars) :
    (locateMarkBar texts (limited (computeNeededFetchLimit decisionTs opts.horizonBars
        opts.timeframe now) bars) (texts.toISOString decisionTs) opts.horizonBars =
      locateMarkBar texts bars (texts.toISOString decisionTs) opts.horizonBars ↔
      (barsAfter texts decisionTs bars).length ≤
        computeNeededFetchLimit decisionTs opts.horizonBars opts.timeframe now) ∧
    (barsSinceDecision decisionTs opts.timeframe now ≤ maxFetchLimit →
      (barsAfter texts decisionTs bars).length ≤
        computeNeededFetchLimit decisionTs opts.horizonBars opts.timeframe now) ∧
    (computeNeededFetchLimit decisionTs opts.horizonBars opts.timeframe now <
        (barsAfter texts decisionTs bars).length →
      locateMarkBar texts (limited (computeNeededFetchLimit decisionTs opts.horizonBars
          opts.timeframe now) bars) (texts.toISOString decisionTs) opts.horizonBars =
        ((barsAfter texts decisionTs bars)[(barsAfter texts decisionTs bars).length -
          computeNeededFetchLimit decisionTs opts.horizonBars opts.timeframe now +
          (opts.horizonBars - 1)]?).map Prod.snd) := by
  have hgap := barDurationMs_pos opts.timeframe
  have hone := opts.horizonBars.2.1
  have hlimit := horizon_le_limit opts decisionTs now
  have hcount : (barsAfter texts decisionTs bars).length ≤
      barsSinceDecision decisionTs opts.timeframe now := hbars.length_barsAfter_le rfl
  have hneeded : barsSinceDecision decisionTs opts.timeframe now ≤ maxFetchLimit →
      (barsAfter texts decisionTs bars).length ≤
        computeNeededFetchLimit decisionTs opts.horizonBars opts.timeframe now := by
    intro hcap
    rw [computeNeededFetchLimit]
    omega
  generalize computeNeededFetchLimit decisionTs opts.horizonBars opts.timeframe now = limit
    at hlimit hneeded
  have horder := hbars.increasing hgap
  rw [limited_eq_last (by omega), locateMarkBar_eq hparse hone, locateMarkBar_eq hparse hone,
    (hbars.last limit).barsAfter_eq hgap, hbars.barsAfter_eq hgap, hbars.timed_last]
  rw [hbars.barsAfter_eq hgap] at hneeded
  refine ⟨⟨fun heq => ?_, fun hle => ?_⟩, hneeded, fun hlt => ?_⟩
  · have hwindow : ∀ x, (after Prod.fst decisionTs (last limit (timed texts bars)))[
        opts.horizonBars.1 - 1]? = some x → x ∈ timed texts bars := fun x hx =>
      List.drop_subset _ _ (List.mem_of_mem_filter (List.mem_of_getElem? hx))
    have hwhole : ∀ x, (after Prod.fst decisionTs (timed texts bars))[
        opts.horizonBars.1 - 1]? = some x → x ∈ timed texts bars := fun x hx =>
      List.mem_of_mem_filter (List.mem_of_getElem? hx)
    exact (getElem?_after_last_eq_iff horder (by omega)).1 (map_snd_inj hwindow hwhole heq)
  · rw [after_last_of_le horder hle]
  · rw [getElem?_after_last horder hlt]

end Window

theorem januaryBars_chronicle :
    Chronicle januaryTexts (barDurationMs "1d") 1769904000000 januaryBars := by
  have htimed : timed januaryTexts januaryBars =
      [(1767657600000, ⟨"2026-01-06T00:00:00.000Z", 101⟩),
        (1767744000000, ⟨"2026-01-07T00:00:00.000Z", 103⟩),
        (1767830400000, ⟨"2026-01-08T00:00:00.000Z", 102⟩),
        (1767916800000, ⟨"2026-01-09T00:00:00.000Z", 104⟩),
        (1768176000000, ⟨"2026-01-12T00:00:00.000Z", 105⟩)] := rfl
  refine ⟨by decide, ?_, ?_⟩
  · rw [htimed]
    decide
  · rw [htimed]
    decide

/-- The window of the first of February reaches back to the fifth of January. -/
theorem window_law_january :
    locateMarkBar januaryTexts (limited (computeNeededFetchLimit 1767571200000
        (resolveOptions {}).horizonBars (resolveOptions {}).timeframe 1769904000000) januaryBars)
        (januaryTexts.toISOString 1767571200000) (resolveOptions {}).horizonBars =
      locateMarkBar januaryTexts januaryBars (januaryTexts.toISOString 1767571200000)
        (resolveOptions {}).horizonBars := by
  have hday : barDurationMs "1d" = 86400000 := by decide
  have hceil : ⌈((1769904000000 - 1767571200000 : ℤ) : ℚ) / (86400000 : ℕ)⌉ ≤ 27 := by
    rw [Int.ceil_le]
    norm_num
  have hcap : barsSinceDecision 1767571200000 "1d" 1769904000000 ≤ maxFetchLimit := by
    rw [barsSinceDecision, hday, maxFetchLimit]
    omega
  obtain ⟨hiff, hneeded, -⟩ := @window_law _ _ _ (resolveOptions {}) _ rfl januaryBars_chronicle
  exact hiff.2 (hneeded hcap)

end NeoTrader.VetoAnalyzer

import NeoTrader.Common.Grouping
import NeoTrader.Py.Dates
import Mathlib.Algebra.Order.Field.Rat
import Mathlib.Data.List.Forall2
import Mathlib.Order.Bounds.Basic

/-!
# Resampling daily bars

The sandbox is given daily bars. A request for months or weeks is answered with one bar for each
month or week that a bar with a date is in.

* `barDate`, `resampleBars`: the bars, under a `Unicode` that reads characters;
* `period`: the month or the week of a bar; `Summarises`: what one bar says of several;
* **`resampleBars_conserves`**: one bar for each period, in order, with the volume of its bars, and
  as it is when it is resampled again.
-/

namespace NeoTrader.Resample

open Gregorian Py

/-! ## Dates -/

variable (u : Unicode)

/-- A daily bar. What it does not have is `none`. -/
structure Bar where
  date : Option String := none
  ts : Option String := none
  openPrice : Option ℚ := none
  high : Option ℚ := none
  low : Option ℚ := none
  close : Option ℚ := none
  volume : Option ℚ := none
  deriving DecidableEq

/-- The date of a text that begins with it. -/
def dateOf (s : String) : Option Date :=
  match int u (slice 0 4 s.toList), int u (slice 5 7 s.toList), int u (slice 8 10 s.toList) with
  | some year, some month, some day => Py.date year month day
  | _, _, _ => none

/-- The date of a bar: its `date`, else its `ts`. -/
def barDate (bar : Bar) : Option Date := (bar.date.or bar.ts).bind (dateOf u)

/-! ## The periods -/

def monthlyTimeframes : List String := ["1month", "1mo", "1m", "month", "monthly"]

def weeklyTimeframes : List String := ["1week", "1w", "week", "weekly"]

def dailyTimeframes : List String := ["1d", "1day", "day", "daily", ""]

/-- `timeframe or "1d"`, with no white space around and in lower case. -/
def timeframeName (timeframe : Option String) : String :=
  u.lower (String.ofList (strip u ((timeframe.filter (· ≠ "")).getD "1d").toList))

/-- The year and the month of a date. -/
def monthKey (d : Date) : ℤ × ℤ := (d.year, d.month)

/-- The period of a date. Other timeframes are daily. -/
def keyOf (timeframe : Option String) : Option (Date → ℤ × ℤ) :=
  let tf := timeframeName u timeframe
  if tf ∈ dailyTimeframes then none
  else if tf ∈ monthlyTimeframes then some monthKey
  else if tf ∈ weeklyTimeframes then some Date.isoCalendar
  else none

/-! ## The bars -/

/-- `a.get("date") or a.get("ts")`. -/
def dateField (bar : Bar) : Option String :=
  match bar.date with
  | some s => if s ≠ "" then some s else bar.ts
  | none => bar.ts

def groupBar (group : List Bar) : Bar :=
  let first := group.head?.getD {}
  let last := group.getLast?.getD {}
  let highs := group.filterMap Bar.high
  let lows := group.filterMap Bar.low
  let volumes := group.filterMap Bar.volume
  { date := dateField last
    openPrice := first.openPrice
    high := if highs ≠ [] then highs.max? else last.high
    low := if lows ≠ [] then lows.min? else last.low
    close := last.close
    volume := if volumes ≠ [] then some volumes.sum else last.volume }

/-- A bar with a date is added to the group of its period. -/
def addBar (key : Date → ℤ × ℤ) (groups : List ((ℤ × ℤ) × List Bar)) (bar : Bar) :
    List ((ℤ × ℤ) × List Bar) :=
  match barDate u bar with
  | none => groups
  | some d => Grouping.add (key d) bar groups

/-- **The bars of a timeframe.** -/
def resampleBars (bars : List Bar) (timeframe : Option String) : List Bar :=
  match keyOf u timeframe with
  | none => bars
  | some key => (bars.foldl (addBar u key) []).map fun g => groupBar g.2

/-! ## Texts of dates -/

variable {u} {key : Date → ℤ × ℤ} {bars group : List Bar} {bar : Bar} {k : ℤ × ℤ}

theorem ne_empty_of_dateOf {s : String} {d : Date} (h : dateOf u s = some d) : s ≠ "" := by
  rintro rfl
  have hnone : dateOf u "" = none := rfl
  rw [hnone] at h
  cases h

theorem dateField_eq {d : Date} (h : barDate u bar = some d) :
    dateField bar = bar.date.or bar.ts := by
  rw [barDate, Option.bind_eq_some_iff] at h
  obtain ⟨s, hs, hd⟩ := h
  rw [dateField]
  cases hdate : bar.date with
  | none => rfl
  | some s' =>
    rw [hdate] at hs
    cases hs
    show (if s ≠ "" then some s else bar.ts) = some s
    rw [if_pos (ne_empty_of_dateOf hd)]

/-! ## The periods in order -/

/-- A period is before another. -/
def Earlier (k k' : ℤ × ℤ) : Prop := k.1 < k'.1 ∨ k.1 = k'.1 ∧ k.2 < k'.2

theorem monthKey_mono {d d' : Date} (h : d.ordinal ≤ d'.ordinal) :
    monthKey d = monthKey d' ∨ Earlier (monthKey d) (monthKey d') := by
  rcases h.lt_or_eq with hlt | heq
  · rcases Date.ordinal_lt_iff.1 hlt with hyear | ⟨hyear, hmonth | ⟨hmonth, -⟩⟩
    · exact Or.inr (Or.inl hyear)
    · exact Or.inr (Or.inr ⟨hyear, Int.ofNat_lt.2 hmonth⟩)
    · exact Or.inl (Prod.ext hyear (congrArg Nat.cast hmonth))
  · exact Or.inl (congrArg monthKey (Date.ordinal_injective heq))

theorem weekKey_mono {d d' : Date} (h : d.ordinal ≤ d'.ordinal) :
    d.isoCalendar = d'.isoCalendar ∨ Earlier d.isoCalendar d'.isoCalendar := by
  rcases Date.isoCalendar_mono h with hyear | ⟨hyear, hweek⟩
  · exact Or.inr (Or.inl hyear)
  · rcases hweek.lt_or_eq with hlt | heq
    · exact Or.inr (Or.inr ⟨hyear, hlt⟩)
    · exact Or.inl (Prod.ext hyear heq)

theorem keyOf_alias {timeframe : Option String}
    (h : timeframeName u timeframe ∈ monthlyTimeframes ++ weeklyTimeframes) :
    ∃ key, keyOf u timeframe = some key ∧
      ∀ d d' : Date, d.ordinal ≤ d'.ordinal → key d = key d' ∨ Earlier (key d) (key d') := by
  have hdaily : timeframeName u timeframe ∉ dailyTimeframes := by
    have hall : ∀ tf ∈ monthlyTimeframes ++ weeklyTimeframes, tf ∉ dailyTimeframes := by decide
    exact hall _ h
  by_cases hmonthly : timeframeName u timeframe ∈ monthlyTimeframes
  · exact ⟨monthKey, by simp [keyOf, hdaily, hmonthly], fun _ _ => monthKey_mono⟩
  · have hweekly := (List.mem_append.1 h).resolve_left hmonthly
    exact ⟨Date.isoCalendar, by simp [keyOf, hdaily, hmonthly, hweekly], fun _ _ => weekKey_mono⟩

/-! ## The bar of a group -/

/-- What a bar says of the bars of its period. -/
structure Summarises (group : List Bar) (bar : Bar) : Prop where
  first_open : bar.openPrice = group.head?.bind Bar.openPrice
  max_high : ∀ x, bar.high = some x ↔ IsGreatest {y | ∃ b ∈ group, b.high = some y} x
  min_low : ∀ x, bar.low = some x ↔ IsLeast {y | ∃ b ∈ group, b.low = some y} x
  last_close : bar.close = group.getLast?.bind Bar.close
  no_volume : bar.volume = none ↔ ∀ b ∈ group, b.volume = none
  sum_volume : bar.volume.getD 0 = (group.map fun b => b.volume.getD 0).sum

theorem head?_field (field : Bar → Option ℚ) (h : field {} = none) :
    field (group.head?.getD {}) = group.head?.bind field := by
  cases group with
  | nil => exact h
  | cons b rest => rfl

theorem getLast?_field (field : Bar → Option ℚ) (h : field {} = none) :
    field (group.getLast?.getD {}) = group.getLast?.bind field := by
  cases hlast : group.getLast? with
  | none => exact h
  | some b => rfl

theorem last_none {field : Bar → Option ℚ} (hempty : field {} = none)
    (h : group.filterMap field = []) : field (group.getLast?.getD {}) = none := by
  rw [getLast?_field field hempty, Option.bind_eq_none_iff]
  exact fun b hb => List.filterMap_eq_nil_iff.1 h b (List.mem_of_getLast? hb)

theorem groupBar_high : (groupBar group).high = (group.filterMap Bar.high).max? := by
  show (if group.filterMap Bar.high ≠ [] then _ else _) = _
  split_ifs with h
  · rfl
  · rw [last_none rfl (not_not.1 h), not_not.1 h]
    rfl

theorem groupBar_low : (groupBar group).low = (group.filterMap Bar.low).min? := by
  show (if group.filterMap Bar.low ≠ [] then _ else _) = _
  split_ifs with h
  · rfl
  · rw [last_none rfl (not_not.1 h), not_not.1 h]
    rfl

theorem groupBar_volume : (groupBar group).volume =
    if group.filterMap Bar.volume ≠ [] then some (group.filterMap Bar.volume).sum else none := by
  show (if group.filterMap Bar.volume ≠ [] then _ else _) = _
  split_ifs with h
  · rfl
  · exact last_none rfl (not_not.1 h)

theorem sum_volumes (l : List Bar) :
    (l.filterMap Bar.volume).sum = (l.map fun b => b.volume.getD 0).sum := by
  induction l with
  | nil => rfl
  | cons b l ih =>
    rw [List.map_cons, List.sum_cons, ← ih]
    cases h : b.volume with
    | none => rw [List.filterMap_cons_none h, Option.getD_none, zero_add]
    | some q => rw [List.filterMap_cons_some h, List.sum_cons, Option.getD_some]

theorem groupBar_summarises (group : List Bar) : Summarises group (groupBar group) where
  first_open := head?_field Bar.openPrice rfl
  max_high x := by
    rw [groupBar_high, List.max?_eq_some_iff]
    simp [IsGreatest, mem_upperBounds]
  min_low x := by
    rw [groupBar_low, List.min?_eq_some_iff]
    simp [IsLeast, mem_lowerBounds]
  last_close := getLast?_field Bar.close rfl
  no_volume := by
    rw [groupBar_volume, ← List.filterMap_eq_nil_iff]
    by_cases h : group.filterMap Bar.volume = [] <;> simp [h]
  sum_volume := by
    rw [groupBar_volume, ← sum_volumes]
    split_ifs with h
    · rfl
    · rw [not_not.1 h]
      rfl

theorem groupBar_singleton (hts : bar.ts = none) (h : dateField bar = bar.date) :
    groupBar [bar] = bar := by
  obtain ⟨date, ts, openPrice, high, low, close, volume⟩ := bar
  cases hts
  rw [groupBar]
  simp only [List.head?_cons, List.getLast?_singleton, Option.getD_some, h]
  congr 1
  · cases high <;> rfl
  · cases low <;> rfl
  · cases volume <;> simp

/-! ## The groups -/

variable (u key) in
def period (bar : Bar) : Option (ℤ × ℤ) := (barDate u bar).map key

variable (u key) in
/-- The bars that have a date, by their periods. -/
def dated (bars : List Bar) : List ((ℤ × ℤ) × Bar) :=
  bars.filterMap fun bar => (period u key bar).map fun k => (k, bar)

theorem dated_concat (bars : List Bar) (bar : Bar) : dated u key (bars ++ [bar]) =
    dated u key bars ++ ((period u key bar).map fun k => (k, bar)).toList := by
  rw [dated, List.filterMap_append, dated]
  cases h : period u key bar <;> simp [h]

theorem foldl_addBar (bars : List Bar) :
    bars.foldl (addBar u key) [] = Grouping.group (dated u key bars) := by
  induction bars using List.reverseRecOn with
  | nil => rfl
  | append_singleton bars bar ih =>
    rw [List.foldl_append, ih, dated_concat]
    show addBar u key _ bar = _
    rw [addBar, period]
    cases h : barDate u bar with
    | none => simp
    | some d => exact (Grouping.group_concat (key d, bar)).symm

theorem resampleBars_eq {timeframe : Option String} (h : keyOf u timeframe = some key) :
    resampleBars u bars timeframe =
      (Grouping.group (dated u key bars)).map fun g => groupBar g.2 := by
  rw [← foldl_addBar, resampleBars, h]

theorem ofKey_dated (k : ℤ × ℤ) (bars : List Bar) :
    Grouping.ofKey k (dated u key bars) = bars.filter fun bar => period u key bar = some k := by
  induction bars with
  | nil => rfl
  | cons bar bars ih =>
    cases h : period u key bar with
    | none =>
      rw [dated, List.filterMap_cons_none (by rw [h]; rfl), ← dated, ih,
        List.filter_cons_of_neg (by simp [h])]
    | some k' =>
      rw [dated, List.filterMap_cons_some (b := (k', bar)) (by rw [h]; rfl), ← dated]
      by_cases hk : k' = k
      · rw [List.filter_cons_of_pos (by simp [h, hk]), ← ih]
        simp [Grouping.ofKey, hk]
      · rw [List.filter_cons_of_neg (by simp [h, hk]), ← ih]
        simp [Grouping.ofKey, hk]

theorem map_fst_dated (bars : List Bar) :
    (dated u key bars).map Prod.fst = (bars.filterMap (barDate u)).map key := by
  rw [dated, List.map_filterMap, List.map_filterMap]
  congr 1
  funext bar
  rw [period]
  cases barDate u bar <;> rfl

variable (key) in
theorem map_snd_dated (bars : List Bar) :
    (dated u key bars).map Prod.snd = bars.filter fun bar => (barDate u bar).isSome := by
  induction bars using List.reverseRecOn with
  | nil => rfl
  | append_singleton bars bar ih =>
    rw [dated_concat, List.map_append, ih, List.filter_append, period]
    cases h : barDate u bar <;> simp [h]

theorem barDate_groupBar {d : Date} (hlast : group.getLast? = some bar)
    (h : barDate u bar = some d) : barDate u (groupBar group) = some d := by
  have hdate : (groupBar group).date = bar.date.or bar.ts := by
    rw [← dateField_eq h, groupBar, hlast]
    rfl
  rw [barDate, hdate]
  show ((bar.date.or bar.ts).or none).bind (dateOf u) = _
  rw [Option.or_none]
  exact h

/-- **A group** is that of a period with bars, and its bar is of the period too. -/
theorem mem_groups {g : (ℤ × ℤ) × List Bar} (h : g ∈ Grouping.group (dated u key bars)) :
    g.2 = (bars.filter fun bar => period u key bar = some g.1) ∧
      (∃ bar ∈ bars, period u key bar = some g.1) ∧ period u key (groupBar g.2) = some g.1 := by
  obtain ⟨hne, heq⟩ := Grouping.mem_group_iff.1 h
  rw [ofKey_dated] at heq
  have hlast := List.getLast?_eq_some_getLast hne
  have hmem : g.2.getLast hne ∈ bars.filter fun bar => period u key bar = some g.1 :=
    heq ▸ List.getLast_mem hne
  obtain ⟨hbar, hperiod⟩ := List.mem_filter.1 hmem
  rw [decide_eq_true_eq] at hperiod
  refine ⟨heq, ⟨_, hbar, hperiod⟩, ?_⟩
  obtain ⟨d, hd, hkey⟩ := Option.map_eq_some_iff.1 hperiod
  rw [period, barDate_groupBar hlast hd, Option.map_some, hkey]

/-! ## What is conserved -/

variable (u key) in
/-- One bar for each period that the bars are in, the earlier first. -/
def OnePerPeriod (bars out : List Bar) : Prop := ∃ periods : List (ℤ × ℤ),
  periods.Pairwise Earlier ∧ (∀ k, k ∈ periods ↔ ∃ bar ∈ bars, period u key bar = some k) ∧
    List.Forall₂ (fun k bar => period u key bar = some k ∧
      Summarises (bars.filter fun b => period u key b = some k) bar) periods out

def totalVolume (bars : List Bar) : ℚ := (bars.map fun bar => bar.volume.getD 0).sum

theorem onePerPeriod_groups
    (h : ((bars.filterMap (barDate u)).map key).Pairwise fun k k' => k = k' ∨ Earlier k k') :
    OnePerPeriod u key bars ((Grouping.group (dated u key bars)).map fun g => groupBar g.2) := by
  refine ⟨(Grouping.group (dated u key bars)).map Prod.fst, Grouping.sorted_keys_group ?_,
    fun k => ⟨fun hk => ?_, ?_⟩, ?_⟩
  · rw [map_fst_dated]
    exact h
  · obtain ⟨g, hg, rfl⟩ := List.mem_map.1 hk
    exact (mem_groups hg).2.1
  · rintro ⟨bar, hbar, hperiod⟩
    refine List.mem_map.2 ⟨(k, Grouping.ofKey k (dated u key bars)),
      Grouping.mem_group_iff.2 ⟨?_, rfl⟩, rfl⟩
    rw [ofKey_dated]
    exact List.ne_nil_of_mem (List.mem_filter.2 ⟨hbar, decide_eq_true hperiod⟩)
  · rw [List.forall₂_map_left_iff, List.forall₂_map_right_iff]
    refine List.forall₂_same.2 fun g hg => ?_
    obtain ⟨hgroup, -, hperiod⟩ := mem_groups hg
    exact ⟨hperiod, hgroup ▸ groupBar_summarises g.2⟩

theorem totalVolume_groups (bars : List Bar) :
    totalVolume ((Grouping.group (dated u key bars)).map fun g => groupBar g.2) =
      totalVolume (bars.filter fun bar => (barDate u bar).isSome) := by
  have hgroups : totalVolume ((Grouping.group (dated u key bars)).map fun g => groupBar g.2) =
      totalVolume ((Grouping.group (dated u key bars)).flatMap Prod.snd) := by
    generalize Grouping.group (dated u key bars) = groups
    induction groups with
    | nil => rfl
    | cons g rest ih =>
      rw [totalVolume] at ih ⊢
      rw [List.map_cons, List.map_cons, List.sum_cons, ih, (groupBar_summarises g.2).sum_volume,
        totalVolume, totalVolume, List.flatMap_cons, List.map_append, List.sum_append]
  rw [hgroups, ← map_snd_dated key]
  exact ((Grouping.perm_group _).map _).sum_eq

/-- **Bars of one period each** are as they are when they are resampled again. -/
theorem groups_again (bars : List Bar) :
    (Grouping.group (dated u key ((Grouping.group (dated u key bars)).map
      fun g => groupBar g.2))).map (fun g => groupBar g.2) =
      (Grouping.group (dated u key bars)).map fun g => groupBar g.2 := by
  have hdated : dated u key ((Grouping.group (dated u key bars)).map fun g => groupBar g.2) =
      (Grouping.group (dated u key bars)).map fun g => (g.1, groupBar g.2) := by
    rw [dated, List.filterMap_map, ← List.filterMap_eq_map]
    refine List.filterMap_congr fun g hg => ?_
    show (period u key (groupBar g.2)).map _ = _
    rw [(mem_groups hg).2.2]
    rfl
  rw [hdated, Grouping.group_of_nodup, List.map_map, List.map_map]
  · refine List.map_congr_left fun g hg => ?_
    obtain ⟨d, hd, -⟩ := Option.map_eq_some_iff.1 (mem_groups hg).2.2
    refine groupBar_singleton rfl ((dateField_eq hd).trans ?_)
    show (groupBar g.2).date.or none = _
    exact Option.or_none
  · rw [List.map_map]
    exact Grouping.nodup_keys_group _

/-- **Resampling conserves bars.** Of bars that are given oldest first, a timeframe of months or of
weeks has one bar for each period that a bar with a date is in, with the first open, the greatest
high, the least low, the last close and the volume of the bars of the period. The periods come in
order. No volume of a bar with a date is lost, and the bars are as they are when they are resampled
again. -/
theorem resampleBars_conserves (u : Unicode) (bars : List Bar) (timeframe : Option String)
    (halias : timeframeName u timeframe ∈ monthlyTimeframes ++ weeklyTimeframes)
    (holdest : (bars.filterMap (barDate u)).Pairwise fun d d' => d.ordinal ≤ d'.ordinal) :
    ∃ key, keyOf u timeframe = some key ∧
      OnePerPeriod u key bars (resampleBars u bars timeframe) ∧
      totalVolume (resampleBars u bars timeframe) =
        totalVolume (bars.filter fun bar => (barDate u bar).isSome) ∧
      resampleBars u (resampleBars u bars timeframe) timeframe = resampleBars u bars timeframe := by
  obtain ⟨key, hkey, hmono⟩ := keyOf_alias halias
  refine ⟨key, hkey, ?_, ?_, ?_⟩
  · rw [resampleBars_eq hkey]
    exact onePerPeriod_groups (List.pairwise_map.2 (holdest.imp fun h => hmono _ _ h))
  · rw [resampleBars_eq hkey]
    exact totalVolume_groups bars
  · rw [resampleBars_eq hkey, resampleBars_eq hkey]
    exact groups_again bars

/-- Three bars, two of one week over the end of a year, and one with no date. -/
def newYear : List Bar :=
  [{ date := "2024-12-27", openPrice := some 9, high := some 10, close := some 9,
     volume := some 1 },
   { date := "2024-12-31", openPrice := some 10, high := some 12, close := some 11,
     volume := some 5 },
   { date := "soon", volume := some 8 },
   { ts := "2025-01-02T00:00:00Z", openPrice := some 11, high := some 13, low := some 8,
     close := some 12, volume := some 7 }]

theorem resampleBars_conserves_newYear : ∃ key, keyOf ascii "1Week" = some key ∧
    OnePerPeriod ascii key newYear (resampleBars ascii newYear "1Week") ∧
    totalVolume (resampleBars ascii newYear "1Week") =
      totalVolume (newYear.filter fun bar => (barDate ascii bar).isSome) ∧
    resampleBars ascii (resampleBars ascii newYear "1Week") "1Week" =
      resampleBars ascii newYear "1Week" :=
  resampleBars_conserves ascii newYear "1Week" (by decide) (by decide)

example : resampleBars ascii newYear "1Week" =
    [{ date := "2024-12-27", openPrice := some 9, high := some 10, close := some 9,
       volume := some 1 },
     { date := "2025-01-02T00:00:00Z", openPrice := some 10, high := some 13, low := some 8,
       close := some 12, volume := some 12 }] := by decide +kernel

end NeoTrader.Resample

import NeoTrader.Strategy.Steps

/-!
# A captured strategy, applied

A strategy that is created without a map holds the settings of the moment, and applying it later
writes them back, also while writes fail.

* `captured`, `Overlaid`: what is captured, and the settings after it has been written over others;
* `wp_createStrategy_captured`, `wp_applyStrategy_failing`: the two requests;
* **`captured_applied`**: the settings after an application, and after one that stopped.
-/

namespace NeoTrader

open Js Await Prog

/-! ## What is captured -/

/-- The settings of a strategy that is captured from these settings. -/
def captured (kv : String → Option String) : StrategyConfig :=
  capturedConfig (strategyConfigKeys.map kv)

/-- The keys that have a value, with it. -/
def presentStrings (keys : List String) (kv : String → Option String) : List (String × String) :=
  keys.filterMap fun k => (kv k).map fun v => (k, v)

theorem stringEntries_present (kv : String → Option String) (keys : List String) :
    stringEntries (presentEntries keys (keys.map kv)) = presentStrings keys kv ∧
      allStrings (presentEntries keys (keys.map kv)) = true := by
  induction keys with
  | nil => exact ⟨rfl, rfl⟩
  | cons k keys ih =>
    rw [List.map_cons, presentStrings, List.filterMap_cons]
    cases hk : kv k with
    | none => exact ih
    | some v => exact ⟨congrArg ((k, v) :: ·) ih.1, ih.2⟩

theorem mem_presentStrings {keys : List String} {kv : String → Option String} {k v : String} :
    (k, v) ∈ presentStrings keys kv ↔ k ∈ keys ∧ kv k = some v := by
  rw [presentStrings, List.mem_filterMap]
  constructor
  · rintro ⟨k', hk', hmap⟩
    obtain ⟨v', hv', heq⟩ := Option.map_eq_some_iff.1 hmap
    cases heq
    exact ⟨hk', hv'⟩
  · rintro ⟨hk, hv⟩
    exact ⟨k, hk, by rw [hv]; rfl⟩

theorem stringEntries_captured (kv : String → Option String) :
    stringEntries (captured kv).entries = presentStrings strategyConfigKeys kv :=
  (stringEntries_present kv strategyConfigKeys).1

theorem presentStrings_nodup (kv : String → Option String) :
    ((presentStrings strategyConfigKeys kv).map Prod.fst).Nodup := by
  rw [← stringEntries_captured]
  exact (stringEntries_keys _).nodup (captured kv).nodup

/-! ## The requests -/

section Requests

variable {A : StrategyOracle → Prop} {w : StrategyWorld}

/-- **A strategy that is created without a map** holds the settings of the moment. -/
theorem wp_createStrategy_captured {dto : CreateStrategyDto} (hdto : dto.config = none) :
    (createStrategy dto).Wp (strategySem A) (fun _ _ => True)
      (fun r _ => ∀ s, r = .ok s → s.config = some (captured w.kv)) w := by
  have hcapture : captureCurrentConfig.Wp (strategySem A) (fun _ _ => True)
      (fun r w' => w' = w ∧ ∀ c, r = .ok c → c = captured w.kv) w := by
    refine wp_bind_of (wp_collect_map (g := w.kv) fun k _ => ?_) ?_ ?_
    · refine wp_outcome (fun _ => rfl) (fun e => ⟨rfl, fun _ h => by cases h⟩) fun o a w' _ ha => ?_
      cases ha
      exact ⟨rfl, fun _ h => by cases h; rfl⟩
    · rintro values w' ⟨rfl, hvalues⟩
      refine ⟨rfl, fun c hc => ?_⟩
      cases hc
      rw [captured, hvalues values rfl]
    · rintro e w' ⟨hw', -⟩
      exact ⟨hw', fun _ h => by cases h⟩
  unfold createStrategy
  rw [hdto]
  refine wp_bind_of hcapture ?_ fun e w' _ s hs => by cases hs
  rintro c w' ⟨rfl, hc⟩
  rw [hc c rfl]
  refine (wp_bind _ _).2 ((wp_attempt _ _).2 ?_)
  refine wp_outcome (fun _ => rfl) (fun e s hs => ?_) fun o s w₁ _ hw₁ => ?_
  · cases hs
  · split at hw₁
    · cases hw₁
    · cases hw₁
      intro s hs
      cases hs
      rfl

theorem wp_applyEntries_failing (l : List (String × Json)) :
    (Prog.forEach l applyEntry).Wp (strategySem A) (fun _ _ => True)
      (fun r w' => ∃ l', l' <+: stringEntries l ∧ w' = { w with kv := writeAll l' w.kv } ∧
        (r = .ok () → l' = stringEntries l)) w := by
  induction l generalizing w with
  | nil => exact ⟨[], List.nil_prefix, rfl, fun _ => rfl⟩
  | cons e l ih =>
    obtain ⟨k, j⟩ := e
    cases j with
    | str v =>
      refine (wp_bind _ _).2 (wp_outcome (fun _ => rfl) (fun e => ?_) fun o u w' _ hw' => ?_)
      · exact ⟨[], List.nil_prefix, rfl, fun h => by cases h⟩
      · cases hw'
        refine wp_post ?_ ih
        rintro r w' ⟨l', hl', hw', hr⟩
        exact ⟨(k, v) :: l', (List.prefix_cons_inj _).2 hl', hw', fun h => by rw [hr h]; rfl⟩
    | _ => exact ⟨[], List.nil_prefix, rfl, fun h => by cases h⟩

/-- **An application with failing writes** stops at the first of them, without the pointer. -/
theorem wp_applyStrategy_failing {id : String} {c : StrategyConfig}
    (hc : (w.strategy? id).bind Strategy.config = some c) :
    (applyStrategy id).Wp (strategySem A) (fun _ _ => True)
      (fun r w' => (r = .ok () ∧ w'.kv = Function.update (writeAll (stringEntries c.entries) w.kv)
          strategyAppliedKey (some id)) ∨
        (∃ l, l <+: stringEntries c.entries ∧ w'.kv = writeAll l w.kv) ∧ r ≠ .ok ()) w := by
  obtain ⟨s, hs, hconfig⟩ := Option.bind_eq_some_iff.1 hc
  have hstop : ∀ e : Err, (.error e : Except Err Unit) ≠ .ok () := fun e h => by cases h
  have hget : (getStrategy id).Wp (strategySem A) (fun _ _ => True)
      (fun r w' => w' = w ∧ ∀ s', r = .ok s' → s' = s) w := by
    refine (wp_bind _ _).2 (wp_outcome (fun _ => rfl) (fun e => ⟨rfl, fun _ h => by cases h⟩)
      fun o a w' _ ha => ?_)
    rw [hs] at ha
    cases ha
    exact ⟨rfl, fun _ h => by cases h; rfl⟩
  refine wp_bind_of hget ?_ ?_
  · rintro s' w' ⟨rfl, hs'⟩
    rw [hs' s' rfl, hconfig]
    refine wp_bind_of (wp_applyEntries_failing c.entries) ?_ ?_
    · rintro u w₁ ⟨l, hl, hw₁, hr⟩
      refine wp_outcome (fun _ => rfl) (fun e => ?_) fun o u w' _ hw' => ?_
      · exact .inr ⟨⟨l, hl, by rw [hw₁]⟩, hstop e⟩
      · cases hw'
        rw [hw₁, hr rfl]
        exact .inl ⟨rfl, rfl⟩
    · rintro e w₁ ⟨l, hl, hw₁, -⟩
      exact .inr ⟨⟨l, hl, by rw [hw₁]⟩, hstop e⟩
  · rintro e w' ⟨hw', -⟩
    exact .inr ⟨⟨[], List.nil_prefix, by rw [hw']; rfl⟩, hstop e⟩

end Requests

/-! ## Written over other settings -/

theorem writeAll_captured (kv kv' : String → Option String) (k : String) :
    writeAll (presentStrings strategyConfigKeys kv) kv' k =
      if k ∈ strategyConfigKeys then (kv k).or (kv' k) else kv' k := by
  by_cases hk : k ∈ strategyConfigKeys
  · rw [if_pos hk]
    cases hv : kv k with
    | none =>
      refine (writeAll_cases _ kv' k).resolve_right ?_
      rintro ⟨v, hmem, -⟩
      have := (mem_presentStrings.1 hmem).2
      rw [hv] at this
      cases this
    | some v => exact writeAll_of_mem (presentStrings_nodup kv) (mem_presentStrings.2 ⟨hk, hv⟩)
  · rw [if_neg hk]
    refine writeAll_of_not_mem fun hmem => hk ?_
    obtain ⟨e, he, rfl⟩ := List.mem_map.1 hmem
    exact (mem_presentStrings.1 he).1

theorem strategyAppliedKey_notMem : strategyAppliedKey ∉ strategyConfigKeys := by decide

/-- **A captured strategy, applied.** Where the application succeeds, each setting that had a value
when the strategy was captured has it again, the pointer names the strategy, and nothing else has
changed: so the settings are those of the capture iff none has a value that had none then. An
application that stops leaves the pointer, and each setting is as before or as captured. -/
theorem captured_applied {A B : StrategyOracle → Prop} {w w₁ t t' : StrategyWorld}
    {dto : CreateStrategyDto} {s : Strategy} {r : Except Err Unit} (hdto : dto.config = none)
    (hcreate : (createStrategy dto).Exec (strategySem A) w (.ok s) w₁)
    (hstored : (t.strategy? s.id).bind Strategy.config = s.config)
    (happly : (applyStrategy s.id).Exec (strategySem B) t r t') :
    (r = .ok () →
      (t'.kv strategyAppliedKey = some s.id ∧ ∀ k ≠ strategyAppliedKey,
        t'.kv k = if k ∈ strategyConfigKeys then (w.kv k).or (t.kv k) else t.kv k) ∧
      ((∀ k ∈ strategyConfigKeys, t'.kv k = w.kv k) ↔
        ∀ k ∈ strategyConfigKeys, w.kv k = none → t.kv k = none)) ∧
    (r ≠ .ok () → t'.kv strategyAppliedKey = t.kv strategyAppliedKey ∧
      ∀ k, t'.kv k = t.kv k ∨ k ∈ strategyConfigKeys ∧ w.kv k ≠ none ∧ t'.kv k = w.kv k) := by
  have hconfig := (wp_createStrategy_captured hdto).exec hcreate s rfl
  rw [hconfig] at hstored
  have happlied := (wp_applyStrategy_failing hstored).exec happly
  rw [stringEntries_captured] at happlied
  constructor
  · rintro rfl
    obtain ⟨-, hkv⟩ := happlied.resolve_right fun h => h.2 rfl
    have hother : ∀ k ≠ strategyAppliedKey,
        t'.kv k = if k ∈ strategyConfigKeys then (w.kv k).or (t.kv k) else t.kv k := by
      intro k hk
      rw [hkv, Function.update_of_ne hk, writeAll_captured]
    refine ⟨⟨by rw [hkv, Function.update_self], hother⟩, forall₂_congr fun k hk => ?_⟩
    rw [hother k (ne_of_mem_of_not_mem hk strategyAppliedKey_notMem), if_pos hk]
    cases w.kv k with
    | none => exact ⟨fun h _ => h, fun h => h rfl⟩
    | some v => exact ⟨fun _ h => absurd h (Option.some_ne_none v), fun _ => rfl⟩
  · intro hr
    obtain ⟨⟨l, hl, hkv⟩, -⟩ := happlied.resolve_left fun h => hr h.1
    have hcases : ∀ k, t'.kv k = t.kv k ∨
        k ∈ strategyConfigKeys ∧ w.kv k ≠ none ∧ t'.kv k = w.kv k := by
      intro k
      rw [hkv]
      obtain hsame | ⟨v, hv, hset⟩ := writeAll_cases l t.kv k
      · exact .inl hsame
      · obtain ⟨hk, hwk⟩ := mem_presentStrings.1 (hl.subset hv)
        exact .inr ⟨hk, by rw [hwk]; exact Option.some_ne_none v, by rw [hset, hwk]⟩
    exact ⟨(hcases _).resolve_right fun h => strategyAppliedKey_notMem h.1, hcases⟩

/-! ## At a strategy -/

/-- Settings with one key set. -/
def settingsWith (key value : String) (k : String) : Option String :=
  if k = key then some value else none

def barsDto : CreateStrategyDto := { name := "bars" }

def barsStrategy : Strategy := barsDto.row "s" (some (captured (settingsWith "cycle.bars" "100")))

theorem created_bars : (createStrategy barsDto).Exec (strategySem fun _ => True)
    { kv := settingsWith "cycle.bars" "100" } (.ok barsStrategy)
    { kv := settingsWith "cycle.bars" "100", strategies := [barsStrategy] } := by
  have hrun : (createStrategy barsDto).execute (handleStrategy { newId := "s" })
      (fun _ _ => true) { kv := settingsWith "cycle.bars" "100" } =
      some (.ok barsStrategy,
        { kv := settingsWith "cycle.bars" "100", strategies := [barsStrategy] }) := rfl
  exact exec_of_execute (M := strategySem fun _ => True) (fun _ _ _ => ⟨_, trivial, rfl⟩) hrun

theorem applied_bars : (applyStrategy "s").Exec (strategySem fun _ => True)
    { kv := settingsWith "cycle.capital" "5", strategies := [barsStrategy] } (.ok ())
    { kv := Function.update (Function.update (settingsWith "cycle.capital" "5") "cycle.bars"
        (some "100")) strategyAppliedKey (some "s"), strategies := [barsStrategy] } := by
  have hrun : (applyStrategy "s").execute (handleStrategy {}) (fun _ _ => true)
      { kv := settingsWith "cycle.capital" "5", strategies := [barsStrategy] } =
      some (.ok (), { kv := Function.update (Function.update (settingsWith "cycle.capital" "5")
        "cycle.bars" (some "100")) strategyAppliedKey (some "s")
                      strategies := [barsStrategy] }) := rfl
  exact exec_of_execute (M := strategySem fun _ => True) (fun _ _ _ => ⟨_, trivial, rfl⟩) hrun

/-- The bars are restored, and the capital stays. -/
theorem bars_restored : ∃ t', (applyStrategy "s").Exec (strategySem fun _ => True)
      { kv := settingsWith "cycle.capital" "5", strategies := [barsStrategy] } (.ok ()) t' ∧
    t'.kv "cycle.bars" = some "100" ∧ t'.kv "cycle.capital" = some "5" := by
  obtain ⟨⟨-, hkv⟩, -⟩ :=
    (captured_applied (s := barsStrategy) rfl created_bars rfl applied_bars).1 rfl
  refine ⟨_, applied_bars, (hkv "cycle.bars" (by decide)).trans ?_,
    (hkv "cycle.capital" (by decide)).trans ?_⟩
  · rw [if_pos (by decide)]
    rfl
  · rw [if_pos (by decide)]
    rfl

end NeoTrader

import NeoTrader.Js.RoundTrip
import NeoTrader.Strategy.Bootstrap

/-!
# The scheduler settings, written again

The bootstrap reads the stored settings of the scheduler, switches it on and writes them back.

* `SchedulerReads`: the numbers in the stored settings are printed so that they read back, and those
  that are kept are finite;
* **`enabledText_again`**: settings that were switched on are written back as they are;
* `SchedulerReads.again`: and their numbers read back.
-/

namespace NeoTrader

namespace Bootstrap

open Js Json

/-! ## Copied fields -/

theorem toString_injective : Function.Injective (toString : ℕ → String) := by
  intro n m h
  have htext : Nat.toDigits 10 n = Nat.toDigits 10 m := by
    simpa [Nat.toString_eq_ofList_toDigits] using congrArg String.toList h
  rw [← Nat.ofDigitChars_ten_toDigits (n := n), htext, Nat.ofDigitChars_ten_toDigits]

theorem nodup_indices {α β : Type} (l : List α) (f : ℕ → α → β) :
    ((l.mapIdx fun i a => (toString i, f i a)).map Prod.fst).Nodup := by
  rw [List.mapIdx_eq_zipIdx_map, List.map_map]
  have hkeys : (l.zipIdx.map (Prod.fst ∘ fun x => (toString x.2, f x.2 x.1))) =
      (List.range l.length).map toString := by
    rw [List.range_eq_range', ← List.zipIdx_map_snd 0 l, List.map_map]
    rfl
  exact hkeys ▸ List.nodup_range.map toString_injective

theorem distinct_ownFields {v : Json} (h : Distinct v) : Distinct (.obj (ownFields v)) := by
  cases v with
  | obj fields => exact h
  | arr l =>
    refine ⟨nodup_indices l fun _ v => v, fieldsDistinct_iff.2 fun f hf => ?_⟩
    obtain ⟨i, hi, rfl⟩ := List.mem_mapIdx.1 hf
    exact listDistinct_iff.1 h _ (List.getElem_mem hi)
  | str s =>
    refine ⟨nodup_indices _ fun _ u => Json.str (String.ofList (joinUnits none [u])),
      fieldsDistinct_iff.2 fun f hf => ?_⟩
    obtain ⟨i, hi, rfl⟩ := List.mem_mapIdx.1 hf
    trivial
  | null => exact ⟨List.nodup_nil, trivial⟩
  | bool b => exact ⟨List.nodup_nil, trivial⟩
  | num x => exact ⟨List.nodup_nil, trivial⟩

theorem numbers_ownFields {v : Json} {q : ℚ} (h : q ∈ (Json.obj (ownFields v)).numbers) :
    q ∈ v.numbers := by
  cases v with
  | obj fields => exact h
  | arr l =>
    obtain ⟨f, hf, hq⟩ := mem_fieldNumbers.1 h
    obtain ⟨i, hi, rfl⟩ := List.mem_mapIdx.1 hf
    exact mem_listNumbers.2 ⟨_, List.getElem_mem hi, hq⟩
  | str s =>
    obtain ⟨f, hf, hq⟩ := mem_fieldNumbers.1 h
    obtain ⟨i, hi, rfl⟩ := List.mem_mapIdx.1 hf
    cases hq
  | null => cases h
  | bool b => cases h
  | num x => cases h

theorem distinct_schedulerConfig (raw : Option String) : Distinct (schedulerConfig raw) := by
  have hempty : Distinct (.obj []) := ⟨List.nodup_nil, trivial⟩
  cases raw with
  | none => exact hempty
  | some s =>
    rw [schedulerConfig]
    split_ifs
    · exact hempty
    · cases h : Json.parse s with
      | none => exact hempty
      | some v => exact distinct_parse h

/-! ## Switching on -/

section Enabled

variable {current : Obj}

theorem distinct_numberOr (v : Option Json) (q : ℚ) : Distinct (numberOr v q) := by
  unfold numberOr
  split <;> trivial

theorem distinct_enabledConfig (h : Distinct (.obj current)) :
    Distinct (.obj (enabledConfig current)) :=
  ((h.withField (distinct_bool true) _).withField (distinct_numberOr _ _) _).withField
    (distinct_numberOr _ _) _

theorem get_enabledConfig (h : Distinct (.obj current)) (key : String) :
    (enabledConfig current).get key =
      if key = "run_count" then some (numberOr (current.get "run_count") 0)
      else if key = "override_interval_ms" then
        some (numberOr (current.get "override_interval_ms") defaultSchedulerIntervalMs)
      else if key = "enabled" then some (.bool true)
      else current.get key := by
  have h₁ := h.withField (distinct_bool true) "enabled"
  have h₂ := h₁.withField
    (distinct_numberOr (current.get "override_interval_ms") defaultSchedulerIntervalMs)
    "override_interval_ms"
  rw [enabledConfig, Obj.get, field_withField h₂.1, field_withField h₁.1, field_withField h.1]
  rfl

theorem enabledConfig_of_enabled (h : (current.map Prod.fst).Nodup) {x y : Number}
    (henabled : current.get "enabled" = some (.bool true))
    (hinterval : current.get "override_interval_ms" = some (.num x))
    (hcount : current.get "run_count" = some (.num y)) : enabledConfig current = current := by
  rw [enabledConfig, hinterval, hcount]
  show withField (withField (withField current _ _) _ (.num x)) _ (.num y) = current
  rw [withField_of_field h henabled, withField_of_field h hinterval, withField_of_field h hcount]

theorem shown_numberOr {v : Option Json} {q : ℚ} (h : ∀ x, v = some (.num x) → ∃ p, x = .fin p) :
    ∃ p, shown (numberOr v q) = .num (.fin p) ∧ numberOr v q = .num (.fin p) := by
  unfold numberOr
  split
  · next x =>
    obtain ⟨p, rfl⟩ := h x rfl
    exact ⟨p, rfl, rfl⟩
  · exact ⟨q, rfl, rfl⟩

theorem numbers_enabledConfig {q : ℚ} (h : q ∈ (Json.obj (enabledConfig current)).numbers) :
    q ∈ (Json.obj current).numbers ∨ q = defaultSchedulerIntervalMs ∨ q = 0 := by
  have hnumber {key : String} {p : ℚ} (hp : q ∈ (numberOr (current.get key) p).numbers) :
      q ∈ (Json.obj current).numbers ∨ q = p := by
    unfold numberOr at hp
    split at hp
    · next x hx =>
      obtain ⟨f, hf, hfx⟩ := Option.map_eq_some_iff.1 hx
      refine .inl (mem_fieldNumbers.2 ⟨f, List.mem_reverse.1 (List.mem_of_find?_eq_some hf), ?_⟩)
      rw [hfx]
      exact hp
    · exact .inr (List.mem_singleton.1 hp)
  obtain ⟨f, hf, hq⟩ := mem_fieldNumbers.1 h
  rcases mem_withField.1 hf with rfl | ⟨hf, -⟩
  · exact (hnumber hq).imp_right .inr
  rcases mem_withField.1 hf with rfl | ⟨hf, -⟩
  · exact (hnumber hq).imp_right .inl
  rcases mem_withField.1 hf with rfl | ⟨hf, -⟩
  · cases hq
  · exact .inl (mem_fieldNumbers.2 ⟨f, hf, hq⟩)

end Enabled

/-- **The stored settings** are printed so that they read back. -/
structure SchedulerReads (numeral : Number → String) (raw : Option String) : Prop where
  printed : Printed numeral (schedulerConfig raw).numbers
  finite : ∀ key ∈ ["override_interval_ms", "run_count"], ∀ x,
    Obj.get (ownFields (schedulerConfig raw)) key = some (.num x) → ∃ q, x = .fin q

section Again

variable {numeral : Number → String} {raw : Option String} {text : String}

theorem enabledText_eq_some : enabledText numeral raw = some text ↔
    schedulerConfig raw ≠ .null ∧
      text = stringify numeral (.obj (enabledConfig (ownFields (schedulerConfig raw)))) := by
  unfold enabledText
  split
  · next h => simp [h]
  · next h =>
    exact ⟨fun heq => ⟨h, (Option.some.inj heq).symm⟩, fun heq => congrArg some heq.2.symm⟩

theorem printed_enabled (hinterval : Reads (numeral (.fin defaultSchedulerIntervalMs))
    defaultSchedulerIntervalMs) (hzero : Reads (numeral (.fin 0)) 0)
    (h : SchedulerReads numeral raw) :
    Printed numeral (Json.obj (enabledConfig (ownFields (schedulerConfig raw)))).numbers := by
  intro q hq
  rcases numbers_enabledConfig hq with hq | rfl | rfl
  · exact h.printed q (numbers_ownFields hq)
  · exact hinterval
  · exact hzero

theorem schedulerConfig_enabled (hinterval : Reads (numeral (.fin defaultSchedulerIntervalMs))
    defaultSchedulerIntervalMs) (hzero : Reads (numeral (.fin 0)) 0)
    (h : SchedulerReads numeral raw) (htext : enabledText numeral raw = some text) :
    schedulerConfig (some text) =
      .obj (shownFields (enabledConfig (ownFields (schedulerConfig raw)))) := by
  obtain ⟨-, rfl⟩ := enabledText_eq_some.1 htext
  have hd := distinct_enabledConfig (distinct_ownFields (distinct_schedulerConfig raw))
  have hparse := parse_stringify hd (printed_enabled hinterval hzero h)
  have hne : stringify numeral (.obj (enabledConfig (ownFields (schedulerConfig raw)))) ≠ "" := by
    intro hempty
    have hchars : chars numeral (.obj (enabledConfig (ownFields (schedulerConfig raw)))) = _ :=
      chars_obj _
    rw [chars, hempty] at hchars
    cases hchars
  rw [schedulerConfig, if_neg hne, hparse]
  rfl

/-- **Settings that were switched on** are written back as they are. -/
theorem enabledText_again (hinterval : Reads (numeral (.fin defaultSchedulerIntervalMs))
    defaultSchedulerIntervalMs) (hzero : Reads (numeral (.fin 0)) 0)
    (h : SchedulerReads numeral raw) (htext : enabledText numeral raw = some text) :
    enabledText numeral (some text) = some text ∧ SchedulerReads numeral (some text) := by
  have hconfig := schedulerConfig_enabled hinterval hzero h htext
  have hd := distinct_ownFields (distinct_schedulerConfig raw)
  have hde := distinct_enabledConfig hd
  obtain ⟨p, hshow₁, hp⟩ := shown_numberOr (q := defaultSchedulerIntervalMs)
    (h.finite "override_interval_ms" (by simp))
  obtain ⟨r, hshow₂, hr⟩ := shown_numberOr (q := 0) (h.finite "run_count" (by simp))
  have hnodup : ((shownFields (enabledConfig (ownFields (schedulerConfig raw)))).map
      Prod.fst).Nodup := by
    rw [keys_shownFields]
    exact hde.1
  have hget (key : String) :
      Obj.get (shownFields (enabledConfig (ownFields (schedulerConfig raw)))) key =
        (Obj.get (enabledConfig (ownFields (schedulerConfig raw))) key).map shown :=
    field_shownFields _ key
  have hrun : Obj.get (shownFields (enabledConfig (ownFields (schedulerConfig raw))))
      "run_count" = some (.num (.fin r)) := by
    rw [hget, get_enabledConfig hd, if_pos rfl, Option.map_some, hshow₂]
  have hevery : Obj.get (shownFields (enabledConfig (ownFields (schedulerConfig raw))))
      "override_interval_ms" = some (.num (.fin p)) := by
    rw [hget, get_enabledConfig hd, if_neg (by decide), if_pos rfl, Option.map_some, hshow₁]
  have hon : Obj.get (shownFields (enabledConfig (ownFields (schedulerConfig raw))))
      "enabled" = some (.bool true) := by
    rw [hget, get_enabledConfig hd, if_neg (by decide), if_neg (by decide), if_pos rfl]
    rfl
  have hfix := enabledConfig_of_enabled hnodup hon hevery hrun
  refine ⟨?_, ?_, fun key hkey x hx => ?_⟩
  · obtain ⟨-, htext⟩ := enabledText_eq_some.1 htext
    rw [enabledText_eq_some, hconfig, ownFields, hfix, htext]
    refine ⟨by simp, ?_⟩
    exact (stringify_shown numeral (.obj _)).symm
  · rw [hconfig]
    intro q hq
    refine printed_enabled hinterval hzero h q ?_
    rw [← numbers_shown]
    exact hq
  · rw [hconfig, ownFields] at hx
    simp only [List.mem_cons, List.not_mem_nil, or_false] at hkey
    rcases hkey with rfl | rfl
    · rw [hevery] at hx
      exact ⟨p, (Json.num.inj (Option.some.inj hx)).symm⟩
    · rw [hrun] at hx
      exact ⟨r, (Json.num.inj (Option.some.inj hx)).symm⟩

end Again

end Bootstrap

end NeoTrader

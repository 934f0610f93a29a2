import NeoTrader.Agents.ParamTuning
import NeoTrader.Js.Clear

/-!
# Configurations that are merged at the same time

A merge reads the whole configuration of a plugin, validates the merged one and writes it back
whole. The panel and the agent call it independently, so that calls overlap at each of their
queries.

* **`settled_of_run`**: in which runs the configuration is settled;
* **`concurrent_merge_lost`**: two merges that overlap.
-/

namespace NeoTrader

open Js Json

namespace ConfigMerge

/-! ## Configurations -/

/-- The fields that a caller gives; `none` is `undefined`. -/
abbrev Patch : Type := List (String × Option Json)

/-- One field of `{ ...fields, [key]: v }`; a field that is undefined has no text. -/
def mergeField (fields : Obj) (f : String × Option Json) : Obj :=
  match f.2 with
  | some v => withField fields f.1 v
  | none => fields.delete f.1

/-- `{ ...fields, ...patch }`. -/
def mergeFields (fields : Obj) (patch : Patch) : Obj := patch.foldl mergeField fields

/-- `p.config ?? {}`: the stored configuration. A text that is no object counts as empty. -/
def readConfig (stored : Option String) : Obj :=
  match stored.bind Json.parse with
  | some (.obj fields) => fields
  | _ => []

/-- `JSON.stringify(config)`. -/
def writeConfig (numeral : Number → String) (fields : Obj) : String :=
  Json.stringify numeral (.obj fields)

/-- A configuration whose text reads back. -/
abbrev ClearConfig (numeral : Number → String) (fields : Obj) : Prop := Clear numeral (.obj fields)

section Fields

variable {numeral : Number → String} {fields : Obj} {patch : Patch}

theorem clear_iff : ClearConfig numeral fields ↔
    (fields.map Prod.fst).Nodup ∧ ∀ f ∈ fields, Clear numeral f.2 := by
  constructor
  · intro h
    refine ⟨h.distinct.1, fun f hf => ⟨fieldsDistinct_iff.mp h.distinct.2 f hf, fun q hq => ?_, ?_⟩⟩
    · exact h.printed q (mem_fieldNumbers.mpr ⟨f, hf, hq⟩)
    · have hshown : shownFields fields = fields := Json.obj.inj h.shown
      clear h
      induction fields with
      | nil => exact absurd hf List.not_mem_nil
      | cons g l ih =>
        obtain ⟨key, v⟩ := g
        rw [shownFields, List.cons.injEq, Prod.mk.injEq] at hshown
        rcases List.mem_cons.mp hf with rfl | hf
        · exact hshown.1.2
        · exact ih hf hshown.2
  · rintro ⟨hkeys, hall⟩
    exact clear_obj hkeys hall

theorem read_write {fields : Obj} (h : ClearConfig numeral fields) :
    readConfig (some (writeConfig numeral fields)) = fields := by
  rw [readConfig, Option.bind_some, writeConfig, parse_clear h]

theorem clear_empty : ClearConfig numeral [] := clear_iff.mpr ⟨List.nodup_nil, by simp⟩

theorem clear_mergeField {f : String × Option Json} (h : ClearConfig numeral fields)
    (hf : ∀ v, f.2 = some v → Clear numeral v) : ClearConfig numeral (mergeField fields f) := by
  obtain ⟨hkeys, hall⟩ := clear_iff.mp h
  cases hv : f.2 with
  | some v =>
    rw [mergeField, hv]
    refine clear_iff.mpr ⟨nodup_withField hkeys _ _, fun g hg => ?_⟩
    rcases mem_withField.mp hg with rfl | ⟨hg, -⟩
    · exact hf v hv
    · exact hall g hg
  | none =>
    rw [mergeField, hv]
    refine clear_iff.mpr ⟨hkeys.sublist (List.filter_sublist.map Prod.fst), fun g hg => ?_⟩
    exact hall g (List.mem_filter.mp hg).1

theorem clear_mergeFields (hpatch : ∀ f ∈ patch, ∀ v, f.2 = some v → Clear numeral v) :
    ∀ fields, ClearConfig numeral fields → ClearConfig numeral (mergeFields fields patch) := by
  induction patch with
  | nil => exact fun fields h => h
  | cons f patch ih =>
    intro fields h
    exact ih (fun g hg => hpatch g (List.mem_cons_of_mem f hg)) _
      (clear_mergeField h (hpatch f List.mem_cons_self))

theorem get_mergeField {f : String × Option Json} (h : ClearConfig numeral fields) {key : String}
    (hkey : key ≠ f.1) : (mergeField fields f).get key = fields.get key := by
  cases hv : f.2 with
  | some v =>
    rw [mergeField, hv]
    show (Json.obj (withField fields f.1 v)).field key = _
    rw [field_withField (clear_iff.mp h).1, if_neg hkey]
    rfl
  | none =>
    rw [mergeField, hv]
    exact Obj.get_delete_of_ne fields hkey

/-- **A key that is not named keeps its value.** -/
theorem get_mergeFields (hpatch : ∀ f ∈ patch, ∀ v, f.2 = some v → Clear numeral v) {key : String}
    (hkey : key ∉ patch.map Prod.fst) : ∀ fields, ClearConfig numeral fields →
      (mergeFields fields patch).get key = fields.get key := by
  induction patch with
  | nil => exact fun fields _ => rfl
  | cons f patch ih =>
    intro fields h
    rw [List.map_cons, List.mem_cons, not_or] at hkey
    have hrest := ih (fun g hg => hpatch g (List.mem_cons_of_mem f hg)) hkey.2 _
      (clear_mergeField h (hpatch f List.mem_cons_self))
    exact hrest.trans (get_mergeField h hkey.1)

end Fields

/-! ## Calls -/

inductive ConfigCall where
  | merge (patch : Patch)
  | set (config : Patch)

namespace ConfigCall

/-- The fields that a call gives. -/
def patch : ConfigCall → Patch
  | merge patch => patch
  | set config => config

/-- The configuration that a call makes of another one. -/
def apply : ConfigCall → Obj → Obj
  | merge patch, fields => mergeFields fields patch
  | set config, _ => mergeFields [] config

/-- The keys that a call names. -/
def names (c : ConfigCall) : List String := c.patch.map Prod.fst

def IsMerge : ConfigCall → Prop
  | merge _ => True
  | set _ => False

/-- The numbers that a call gives are finite. -/
def Finite (c : ConfigCall) : Prop := ∀ f ∈ c.patch, ∀ v, f.2 = some v → v.shown = v

/-- The objects that a call gives have different keys, and its numbers are printed so that they read
back. -/
def Printable (numeral : Number → String) (c : ConfigCall) : Prop :=
  ∀ f ∈ c.patch, ∀ v, f.2 = some v → v.Distinct ∧ Printed numeral v.numbers

end ConfigCall

/-- How far a call is. -/
inductive ConfigPhase where
  | idle
  | read (existing : Obj)
  | checked (existing : Obj) (config : Obj)
  | stored
  | ended (ok : Bool)

/-- The stored configuration, all calls, and which of them were written, in their order. -/
structure ConfigState where
  config : Option String
  phase : ℕ → ConfigPhase
  applied : List ℕ

/-- The queries of a call, and whether they succeed. -/
inductive ConfigEvent where
  | find (i : ℕ) (ok : Bool)
  | check (i : ℕ) (ok : Bool)
  | update (i : ℕ) (ok : Bool)
  | confirm (i : ℕ) (ok : Bool)

/-- A call goes on. -/
def ConfigState.move (s : ConfigState) (i : ℕ) (p : ConfigPhase) : ConfigState :=
  { s with phase := Function.update s.phase i p }

/-- The configuration passes, if there is a schema. -/
def Passes (schema : Option ConfigSchema) (config : Obj) : Bool :=
  schema.all fun schema => (validateConfig config schema).isEmpty

section Steps

variable (numeral : Number → String) (schema : Option ConfigSchema) (calls : ℕ → ConfigCall)

/-- `getConfigSchema` has answered: the configuration is validated. -/
def afterCheck (s : ConfigState) (i : ℕ) (ok : Bool) (existing : Obj) : ConfigState :=
  let config := (calls i).apply existing
  if ok && Passes schema config then s.move i (.checked existing config)
  else s.move i (.ended false)

/-- **One query.** -/
def configStep (s : ConfigState) : ConfigEvent → Option ConfigState
  | .find i ok =>
    match calls i, s.phase i with
    | .merge _, .idle =>
      some (s.move i (if ok then .read (readConfig s.config) else .ended false))
    | _, _ => none
  | .check i ok =>
    match calls i, s.phase i with
    | .merge _, .read existing => some (afterCheck schema calls s i ok existing)
    | .set _, .idle => some (afterCheck schema calls s i ok [])
    | _, _ => none
  | .update i ok =>
    match s.phase i with
    | .checked _ config =>
      if ok then
        some { config := some (writeConfig numeral config)
               phase := Function.update s.phase i .stored
               applied := s.applied ++ [i] }
      else some (s.move i (.ended false))
    | _ => none
  | .confirm i ok =>
    match s.phase i with
    | .stored => some (s.move i (.ended ok))
    | _ => none

def configRun (s : ConfigState) : List ConfigEvent → Option ConfigState
  | [] => some s
  | e :: events => (configStep numeral schema calls s e).bind fun s => configRun s events

/-- A merge writes only while the configuration is still the one that it has read, and what follows
the write does not fail. -/
def ConfigEvent.Clean (s : ConfigState) : ConfigEvent → Prop
  | .update i _ => ∀ existing config, s.phase i = .checked existing config →
      (calls i).IsMerge → readConfig s.config = existing
  | .confirm _ ok => ok = true
  | _ => True

/-- Each query is clean in the state that it meets. -/
def CleanConfigRun (s : ConfigState) : List ConfigEvent → Prop
  | [] => True
  | e :: events => e.Clean calls s ∧
      ∀ s', configStep numeral schema calls s e = some s' → CleanConfigRun s' events

def begun (config : Option Obj) : ConfigState :=
  ⟨config.map (writeConfig numeral), fun _ => .idle, []⟩

/-- The calls, one after the other. -/
def inOrder (fields : Obj) (order : List ℕ) : Obj :=
  order.foldl (fun fields i => (calls i).apply fields) fields

/-- **Settled**: the configuration is that of some calls one after the other, namely of those that
were not rejected; a key that no call names is as it was, if all are merges; and what a call has set
satisfies its field of the schema. -/
structure Settled (initial : Obj) (s : ConfigState) : Prop where
  serial : ∃ order : List ℕ, order.Perm s.applied ∧
    readConfig s.config = inOrder calls initial order
  once : s.applied.Nodup
  rejected : ∀ i, s.phase i = .ended false → i ∉ s.applied
  accepted : ∀ i, s.phase i = .ended true → i ∈ s.applied
  kept : (∀ i ∈ s.applied, (calls i).IsMerge) → ∀ key, (∀ i ∈ s.applied, key ∉ (calls i).names) →
    (readConfig s.config).get key = initial.get key
  valid : ∀ i ∈ s.applied, ∀ key ∈ (calls i).names, ∀ fields, schema = some fields →
    ∀ spec, (key, spec) ∈ fields → ∀ v, (readConfig s.config).get key = some v →
      validateField key (some v) spec = []

end Steps

/-! ## The invariant -/

section Proofs

variable {numeral : Number → String} {schema : Option ConfigSchema} {calls : ℕ → ConfigCall}
  {initial : Obj} {s s' : ConfigState} {i : ℕ}

/-- What a call gives reads back. -/
def Given (numeral : Number → String) (c : ConfigCall) : Prop :=
  ∀ f ∈ c.patch, ∀ v, f.2 = some v → Clear numeral v

theorem given_of_finite {c : ConfigCall} (hfinite : c.Finite) (hprint : c.Printable numeral) :
    Given numeral c := fun f hf v hv =>
  ⟨(hprint f hf v hv).1, (hprint f hf v hv).2, hfinite f hf v hv⟩

theorem clear_apply {c : ConfigCall} (hc : Given numeral c) {fields : Obj}
    (h : ClearConfig numeral fields) : ClearConfig numeral (c.apply fields) := by
  cases c with
  | merge patch => exact clear_mergeFields hc fields h
  | set config => exact clear_mergeFields hc [] clear_empty

/-- What is known of a call in a phase, where `applied` are the calls that were written. -/
def PhaseInv (numeral : Number → String) (schema : Option ConfigSchema) (applied : List ℕ) (i : ℕ)
    (c : ConfigCall) : ConfigPhase → Prop
  | .idle => i ∉ applied
  | .read existing => i ∉ applied ∧ ClearConfig numeral existing
  | .checked existing config =>
    i ∉ applied ∧ config = c.apply existing ∧ Passes schema config ∧ ClearConfig numeral config
  | .stored => i ∈ applied
  | .ended ok => if ok then i ∈ applied else i ∉ applied

theorem PhaseInv.append {applied : List ℕ} {c : ConfigCall} {p : ConfigPhase} {j : ℕ} (hij : i ≠ j)
    (h : PhaseInv numeral schema applied i c p) :
    PhaseInv numeral schema (applied ++ [j]) i c p := by
  have hmem : i ∈ applied ++ [j] ↔ i ∈ applied := by simp [hij]
  cases p with
  | idle => rw [PhaseInv, hmem]; exact h
  | read existing => rw [PhaseInv, hmem]; exact h
  | checked existing config => rw [PhaseInv, hmem]; exact h
  | stored => rw [PhaseInv, hmem]; exact h
  | ended ok => rw [PhaseInv, hmem]; exact h

/-- **The invariant**: the stored configuration is that of the written calls one after the other. -/
structure ConfigInv (numeral : Number → String) (schema : Option ConfigSchema)
    (calls : ℕ → ConfigCall) (initial : Obj) (s : ConfigState) : Prop where
  clear : ClearConfig numeral (readConfig s.config)
  serial : readConfig s.config = inOrder calls initial s.applied
  once : s.applied.Nodup
  passes : s.applied ≠ [] → Passes schema (readConfig s.config)
  phases : ∀ i, PhaseInv numeral schema s.applied i (calls i) (s.phase i)

theorem ConfigInv.move (h : ConfigInv numeral schema calls initial s) {p : ConfigPhase}
    (hp : PhaseInv numeral schema s.applied i (calls i) p) :
    ConfigInv numeral schema calls initial (s.move i p) := by
  refine ⟨h.clear, h.serial, h.once, h.passes, fun j => ?_⟩
  show PhaseInv numeral schema s.applied j (calls j) (Function.update s.phase i p j)
  by_cases hij : j = i
  · subst hij
    rw [Function.update_self]
    exact hp
  · rw [Function.update_of_ne hij]
    exact h.phases j

theorem ConfigInv.check (h : ConfigInv numeral schema calls initial s)
    (hgiven : Given numeral (calls i)) (hnot : i ∉ s.applied) {existing : Obj}
    (hexisting : ClearConfig numeral existing) (ok : Bool) :
    ConfigInv numeral schema calls initial (afterCheck schema calls s i ok existing) := by
  rw [afterCheck]
  by_cases hpass : (ok && Passes schema ((calls i).apply existing)) = true
  · rw [if_pos hpass]
    exact h.move ⟨hnot, rfl, (Bool.and_eq_true_iff.mp hpass).2, clear_apply hgiven hexisting⟩
  · rw [if_neg hpass]
    exact h.move hnot

theorem ConfigInv.write (h : ConfigInv numeral schema calls initial s) {existing config : Obj}
    (hphase : s.phase i = .checked existing config)
    (hcurrent : (calls i).IsMerge → readConfig s.config = existing) :
    ConfigInv numeral schema calls initial
      { config := some (writeConfig numeral config), phase := Function.update s.phase i .stored,
        applied := s.applied ++ [i] } := by
  have hinv := h.phases i
  rw [hphase] at hinv
  obtain ⟨hnot, hconfig, hpasses, hclear⟩ := hinv
  have hread := read_write hclear
  have happly : config = (calls i).apply (readConfig s.config) := by
    rw [hconfig]
    cases hcall : calls i with
    | merge patch =>
      rw [hcall] at hcurrent
      rw [hcurrent trivial]
    | set config => rfl
  refine ⟨?_, ?_, ?_, fun _ => ?_, fun j => ?_⟩
  · show ClearConfig numeral (readConfig (some (writeConfig numeral config)))
    rw [hread]
    exact hclear
  · show readConfig (some (writeConfig numeral config)) = inOrder calls initial (s.applied ++ [i])
    rw [hread, inOrder, List.foldl_append, happly, h.serial]
    rfl
  · show (s.applied ++ [i]).Nodup
    rw [← List.concat_eq_append]
    exact List.Nodup.concat hnot h.once
  · show Passes schema (readConfig (some (writeConfig numeral config))) = true
    rw [hread]
    exact hpasses
  · show PhaseInv numeral schema (s.applied ++ [i]) j (calls j)
      (Function.update s.phase i .stored j)
    by_cases hij : j = i
    · subst hij
      rw [Function.update_self]
      exact List.mem_append_right _ List.mem_cons_self
    · rw [Function.update_of_ne hij]
      exact (h.phases j).append hij

/-- **One clean query.** -/
theorem configInv_step {e : ConfigEvent} (hgiven : ∀ i, Given numeral (calls i))
    (h : ConfigInv numeral schema calls initial s) (hclean : e.Clean calls s)
    (hstep : configStep numeral schema calls s e = some s') :
    ConfigInv numeral schema calls initial s' := by
  cases e with
  | find i ok =>
    have hinv := h.phases i
    cases hcall : calls i with
    | set config => simp [configStep, hcall] at hstep
    | merge patch =>
      cases hphase : s.phase i with
      | idle =>
        rw [hphase] at hinv
        simp only [configStep, hcall, hphase, Option.some.injEq] at hstep
        subst hstep
        apply h.move
        cases ok with
        | true => exact ⟨hinv, h.clear⟩
        | false => exact hinv
      | read existing => simp [configStep, hcall, hphase] at hstep
      | checked existing config => simp [configStep, hcall, hphase] at hstep
      | stored => simp [configStep, hcall, hphase] at hstep
      | ended ok' => simp [configStep, hcall, hphase] at hstep
  | check i ok =>
    have hinv := h.phases i
    cases hcall : calls i with
    | merge patch =>
      cases hphase : s.phase i with
      | read existing =>
        rw [hphase] at hinv
        simp only [configStep, hcall, hphase, Option.some.injEq] at hstep
        subst hstep
        exact h.check (hgiven i) hinv.1 hinv.2 ok
      | idle => simp [configStep, hcall, hphase] at hstep
      | checked existing config => simp [configStep, hcall, hphase] at hstep
      | stored => simp [configStep, hcall, hphase] at hstep
      | ended ok' => simp [configStep, hcall, hphase] at hstep
    | set config =>
      cases hphase : s.phase i with
      | idle =>
        rw [hphase] at hinv
        simp only [configStep, hcall, hphase, Option.some.injEq] at hstep
        subst hstep
        exact h.check (hgiven i) hinv clear_empty ok
      | read existing => simp [configStep, hcall, hphase] at hstep
      | checked existing config => simp [configStep, hcall, hphase] at hstep
      | stored => simp [configStep, hcall, hphase] at hstep
      | ended ok' => simp [configStep, hcall, hphase] at hstep
  | update i ok =>
    have hinv := h.phases i
    cases hphase : s.phase i with
    | checked existing config =>
      rw [hphase] at hinv
      simp only [configStep, hphase] at hstep
      cases ok with
      | true =>
        cases hstep
        exact h.write hphase (hclean existing config hphase)
      | false =>
        cases hstep
        exact h.move hinv.1
    | idle => simp [configStep, hphase] at hstep
    | read existing => simp [configStep, hphase] at hstep
    | stored => simp [configStep, hphase] at hstep
    | ended ok' => simp [configStep, hphase] at hstep
  | confirm i ok =>
    have hinv := h.phases i
    cases hphase : s.phase i with
    | stored =>
      rw [hphase] at hinv
      have hok : ok = true := hclean
      subst hok
      simp only [configStep, hphase, Option.some.injEq] at hstep
      subst hstep
      exact h.move hinv
    | idle => simp [configStep, hphase] at hstep
    | read existing => simp [configStep, hphase] at hstep
    | checked existing config => simp [configStep, hphase] at hstep
    | ended ok' => simp [configStep, hphase] at hstep

/-- **A run of clean queries.** -/
theorem configInv_run (hgiven : ∀ i, Given numeral (calls i)) (events : List ConfigEvent) :
    ∀ s, ConfigInv numeral schema calls initial s → CleanConfigRun numeral schema calls s events →
      ∀ s', configRun numeral schema calls s events = some s' →
        ConfigInv numeral schema calls initial s' := by
  induction events with
  | nil =>
    intro s h _ s' hrun
    cases hrun
    exact h
  | cons e events ih =>
    intro s h hclean s' hrun
    obtain ⟨s₁, hstep, hrun⟩ := Option.bind_eq_some_iff.mp hrun
    exact ih s₁ (configInv_step hgiven h hclean.1 hstep) (hclean.2 s₁ hstep) s' hrun

/-! ## What is left of the calls -/

theorem get_inOrder (hgiven : ∀ i, Given numeral (calls i)) {key : String} :
    ∀ (order : List ℕ) (fields : Obj), ClearConfig numeral fields →
      (∀ i ∈ order, (calls i).IsMerge) → (∀ i ∈ order, key ∉ (calls i).names) →
      (inOrder calls fields order).get key = fields.get key := by
  intro order
  induction order with
  | nil => exact fun fields _ _ _ => rfl
  | cons i order ih =>
    intro fields h hmerge hkey
    have hrest := ih ((calls i).apply fields) (clear_apply (hgiven i) h)
      (fun j hj => hmerge j (List.mem_cons_of_mem i hj))
      fun j hj => hkey j (List.mem_cons_of_mem i hj)
    refine hrest.trans ?_
    have hm := hmerge i List.mem_cons_self
    have hk := hkey i List.mem_cons_self
    have hg := hgiven i
    cases hcall : calls i with
    | merge patch =>
      rw [hcall] at hk hg
      exact get_mergeFields hg hk fields h
    | set config =>
      rw [hcall] at hm
      exact absurd hm id

theorem validateField_of_passes {fields : Obj} {declared : ConfigSchema}
    (h : Passes (some declared) fields) {key : String} {spec : ConfigFieldSpec}
    (hspec : (key, spec) ∈ declared) {v : Json} (hv : fields.get key = some v) :
    validateField key (some v) spec = [] := by
  have hnil : validateConfig fields declared = [] := by
    simpa [Passes, List.isEmpty_iff] using h
  have hfield := List.flatMap_eq_nil_iff.mp hnil (key, spec) hspec
  simpa [hv] using hfield

theorem ConfigInv.settled (hgiven : ∀ i, Given numeral (calls i))
    (h : ConfigInv numeral schema calls initial s) (hinitial : ClearConfig numeral initial) :
    Settled schema calls initial s where
  serial := ⟨s.applied, List.Perm.refl _, h.serial⟩
  once := h.once
  rejected i hi := by
    have hinv := h.phases i
    rw [hi] at hinv
    exact hinv
  accepted i hi := by
    have hinv := h.phases i
    rw [hi] at hinv
    exact hinv
  kept hmerge key hkey := by
    rw [h.serial]
    exact get_inOrder hgiven s.applied initial hinitial hmerge hkey
  valid i hi key _ fields hschema spec hspec v hv := by
    have hpasses := h.passes (List.ne_nil_of_mem hi)
    rw [hschema] at hpasses
    exact validateField_of_passes hpasses hspec hv

end Proofs

/-- **The configuration is settled** after every run of clean queries, of calls with finite
numbers. -/
theorem settled_of_run {numeral : Number → String} {schema : Option ConfigSchema}
    {calls : ℕ → ConfigCall} {initial : Option Obj} {events : List ConfigEvent} {s : ConfigState}
    (hinitial : ClearConfig numeral (initial.getD [])) (hprint : ∀ i, (calls i).Printable numeral)
    (hfinite : ∀ i, (calls i).Finite)
    (hrun : configRun numeral schema calls (begun numeral initial) events = some s)
    (hclean : CleanConfigRun numeral schema calls (begun numeral initial) events) :
    Settled schema calls (initial.getD []) s := by
  have hgiven : ∀ i, Given numeral (calls i) := fun i => given_of_finite (hfinite i) (hprint i)
  have hread : readConfig (begun numeral initial).config = initial.getD [] := by
    cases initial with
    | none => rfl
    | some fields => exact read_write hinitial
  have hinv : ConfigInv numeral schema calls (initial.getD []) (begun numeral initial) := by
    refine ⟨?_, hread, List.nodup_nil, fun h => absurd rfl h, fun i => List.not_mem_nil⟩
    rw [hread]
    exact hinitial
  exact (configInv_run hgiven events _ hinv hclean s hrun).settled hgiven hinitial

/-! ## Two merges -/

def twoMerges : ℕ → ConfigCall
  | 0 => .merge [("a", some (.str "x"))]
  | _ => .merge [("b", some (.str "y"))]

/-- The text of every number; there are none. -/
def noNumeral (_ : Number) : String := "0"

theorem printable_twoMerges (i : ℕ) : (twoMerges i).Printable noNumeral := by
  cases i with
  | zero =>
    intro f hf v hv
    obtain rfl := List.mem_singleton.mp hf
    cases hv
    exact ⟨trivial, fun q hq => absurd hq List.not_mem_nil⟩
  | succ i =>
    intro f hf v hv
    obtain rfl := List.mem_singleton.mp hf
    cases hv
    exact ⟨trivial, fun q hq => absurd hq List.not_mem_nil⟩

theorem finite_twoMerges (i : ℕ) : (twoMerges i).Finite := by
  cases i with
  | zero =>
    intro f hf v hv
    obtain rfl := List.mem_singleton.mp hf
    cases hv
    rfl
  | succ i =>
    intro f hf v hv
    obtain rfl := List.mem_singleton.mp hf
    cases hv
    rfl

theorem cleanConfigRun_cons {numeral : Number → String} {schema : Option ConfigSchema}
    {calls : ℕ → ConfigCall} {s s' : ConfigState} {e : ConfigEvent} {events : List ConfigEvent}
    (hstep : configStep numeral schema calls s e = some s') (hclean : e.Clean calls s)
    (hrest : CleanConfigRun numeral schema calls s' events) :
    CleanConfigRun numeral schema calls s (e :: events) := by
  refine ⟨hclean, fun s'' hstep' => ?_⟩
  rw [hstep, Option.some.injEq] at hstep'
  exact hstep' ▸ hrest

/-- One merge, and another one after it. -/
theorem settled_twoMerges : ∃ s, configRun noNumeral none twoMerges (begun noNumeral none)
    [.find 0 true, .check 0 true, .update 0 true, .find 1 true, .check 1 true, .update 1 true]
      = some s ∧ Settled none twoMerges [] s := by
  have hclean : CleanConfigRun noNumeral none twoMerges (begun noNumeral none) [.find 0 true,
      .check 0 true, .update 0 true, .find 1 true, .check 1 true, .update 1 true] := by
    refine cleanConfigRun_cons rfl trivial (cleanConfigRun_cons rfl trivial
      (cleanConfigRun_cons rfl ?_ (cleanConfigRun_cons rfl trivial
        (cleanConfigRun_cons rfl trivial (cleanConfigRun_cons rfl ?_ trivial)))))
    · exact fun existing config hphase _ => (ConfigPhase.checked.inj hphase).1
    · exact fun existing config hphase _ => (ConfigPhase.checked.inj hphase).1
  have hinitial : ClearConfig noNumeral ((none : Option Obj).getD []) := clear_empty
  exact ⟨_, rfl, settled_of_run hinitial printable_twoMerges finite_twoMerges rfl hclean⟩

theorem not_settled {s : ConfigState}
    (hconfig : s.config = some (writeConfig noNumeral [("b", .str "y")]))
    (happlied : s.applied = [0, 1]) : ¬ Settled none twoMerges [] s := by
  intro h
  obtain ⟨order, hperm, hserial⟩ := h.serial
  have hread : readConfig (some (writeConfig noNumeral [("b", .str "y")])) = [("b", .str "y")] :=
    read_write (clear_iff.mpr ⟨by simp, by simpa using clear_str "y"⟩)
  rw [hconfig, hread] at hserial
  rw [happlied] at hperm
  obtain ⟨a, b, rfl⟩ := List.length_eq_two.mp hperm.length_eq
  have ha : a = 0 ∨ a = 1 := by simpa using hperm.mem_iff.mp List.mem_cons_self
  have hb : b = 0 ∨ b = 1 := by
    simpa using hperm.mem_iff.mp (List.mem_cons_of_mem a List.mem_cons_self)
  have hne : a ≠ b := by simpa using hperm.nodup_iff.mpr (by decide)
  have hlength := congrArg List.length hserial
  rcases ha with rfl | rfl <;> rcases hb with rfl | rfl
  · exact hne rfl
  · exact absurd hlength (by decide)
  · exact absurd hlength (by decide)
  · exact hne rfl

/-- **The first merge is lost** when the second one has read before it wrote. -/
theorem concurrent_merge_lost : ∃ s, configRun noNumeral none twoMerges (begun noNumeral none)
    [.find 0 true, .find 1 true, .check 0 true, .check 1 true, .update 0 true, .update 1 true,
      .confirm 0 true, .confirm 1 true] = some s ∧ ¬ Settled none twoMerges [] s :=
  ⟨_, rfl, not_settled rfl rfl⟩

end ConfigMerge

end NeoTrader

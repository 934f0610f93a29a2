import Mathlib.Algebra.Order.Field.Rat
import Mathlib.Tactic.Linarith
import NeoTrader.Js.Clear
import NeoTrader.Js.Search
import NeoTrader.Js.Trim

/-!
# Skills that the agent rewrites

A write keeps the body of `SKILL.md` in a stack of snapshots before it replaces it, a revert puts
the latest snapshot back. The file and the stack are two stores, and every step can fail.

* `writeSkillContent`, `writeSkillGuarded`, `revertSkill`: the operations, with what becomes of
  their steps;
* **`good_run`**: in which runs every call does it;
* **`write_fails`**: a write that fails leaves its snapshot.
-/

namespace NeoTrader

open Js

namespace Skill

/-! ## The text -/

/-- The end of the frontmatter. -/
def fence : List Char := ['\n', '-', '-', '-']

/-- The start of the frontmatter. -/
def opening : List Char := ['-', '-', '-', '\n']

/-- The frontmatter of a text and what is after its end. -/
def frontmatter? (content : String) : Option (List Char × List Char) :=
  if opening.isPrefixOf content.toList then breakOn fence (content.toList.drop 4) else none

/-- A line break in front, as `\n?` takes it. -/
def lineBreak (s : List Char) : List Char := s.take (if s.head? = some '\n' then 1 else 0)

def afterBreak (s : List Char) : List Char := s.drop (if s.head? = some '\n' then 1 else 0)

/-- `s.trim()`. -/
def trimText (s : String) : String := String.ofList (Number.trim s.toList)

/-- The body that `parseSkillMd` finds. -/
def skillBody (content : String) : String :=
  match frontmatter? content with
  | none => content
  | some (_, rest) => trimText (String.ofList (afterBreak rest))

/-- The frontmatter that a write keeps, with its fences. -/
def keptFrontmatter (content : String) : List Char :=
  match frontmatter? content with
  | none => []
  | some (inner, rest) => opening ++ inner ++ fence ++ lineBreak rest

/-- The text with a new body. -/
def rewritten (existing newBody : String) : String :=
  String.ofList (keptFrontmatter existing ++ '\n' :: (trimText newBody).toList ++ ['\n'])

/-- `s.length`, in units of UTF-16. -/
def utf16Length (s : String) : ℕ := (s.toList.map fun c => if c.toNat < 0x10000 then 1 else 2).sum

/-! ### Blanks -/

theorem trimText_trimText (s : String) : trimText (trimText s) = trimText s := by
  rw [trimText, trimText, String.toList_ofList, Number.trim_trim]

/-! ### A text that was rewritten -/

theorem frontmatter?_rewritten_none {existing : String} (newBody : String)
    (h : frontmatter? existing = none) : frontmatter? (rewritten existing newBody) = none := by
  rw [frontmatter?, rewritten, keptFrontmatter, h, String.toList_ofList]
  rfl

theorem frontmatter?_rewritten_some {existing : String} {inner rest : List Char} (newBody : String)
    (h : frontmatter? existing = some (inner, rest)) :
    frontmatter? (rewritten existing newBody)
      = some (inner, lineBreak rest ++ '\n' :: (trimText newBody).toList ++ ['\n']) := by
  have hbreak : breakOn fence (existing.toList.drop 4) = some (inner, rest) := by
    rw [frontmatter?] at h
    split_ifs at h
    exact h
  have hfirst : ¬ fence <:+: inner := not_infix_of_breakOn (by decide) hbreak
  have hnot : '\n' ∉ ['-', '-', '-'] := by decide
  have hagain := breakOn_of_head hnot
    (lineBreak rest ++ '\n' :: (trimText newBody).toList ++ ['\n']) hfirst
  have htext : (rewritten existing newBody).toList
      = opening ++ (inner ++ fence ++
        (lineBreak rest ++ '\n' :: (trimText newBody).toList ++ ['\n'])) := by
    rw [rewritten, keptFrontmatter, h, String.toList_ofList]
    simp only [List.append_assoc]
  rw [frontmatter?, htext, if_pos (List.isPrefixOf_iff_prefix.mpr (List.prefix_append _ _))]
  exact hagain

/-- **The frontmatter stays.** -/
theorem inner_rewritten (existing newBody : String) :
    (frontmatter? (rewritten existing newBody)).map Prod.fst
      = (frontmatter? existing).map Prod.fst := by
  cases h : frontmatter? existing with
  | none => rw [frontmatter?_rewritten_none newBody h]
  | some parts => rw [frontmatter?_rewritten_some newBody h]; rfl

theorem trim_afterBreak (rest body : List Char) :
    Number.trim (afterBreak (lineBreak rest ++ '\n' :: body ++ ['\n'])) = Number.trim body := by
  have hone : ∀ s : List Char, afterBreak ('\n' :: s) = s := fun s => rfl
  by_cases h : rest.head? = some '\n'
  · cases rest with
    | nil => cases h
    | cons c rest =>
      cases h
      have hbreak : lineBreak ('\n' :: rest) = ['\n'] := rfl
      rw [hbreak, List.singleton_append, List.cons_append, hone, List.cons_append,
        Number.trim_cons_newline, Number.trim_append_newline]
  · have hbreak : lineBreak rest = [] := by
      rw [lineBreak, if_neg h, List.take_zero]
    rw [hbreak, List.nil_append, List.cons_append, hone, Number.trim_append_newline]

/-- **The new body is read**, up to the blanks around it. -/
theorem body_rewritten (existing newBody : String) :
    trimText (skillBody (rewritten existing newBody)) = trimText newBody := by
  cases h : frontmatter? existing with
  | none =>
    have htext : (rewritten existing newBody).toList
        = '\n' :: ((trimText newBody).toList ++ ['\n']) := by
      rw [rewritten, keptFrontmatter, h, String.toList_ofList]
      rfl
    rw [skillBody, frontmatter?_rewritten_none newBody h]
    show String.ofList (Number.trim (rewritten existing newBody).toList) = trimText newBody
    rw [htext, Number.trim_cons_newline, Number.trim_append_newline]
    exact trimText_trimText newBody
  | some parts =>
    rw [skillBody, frontmatter?_rewritten_some newBody h]
    show trimText (trimText (String.ofList (afterBreak _))) = trimText newBody
    rw [trimText_trimText, trimText, String.toList_ofList, trim_afterBreak]
    exact trimText_trimText newBody

/-! ## The operations -/

/-- What `findFirst` brings: an active skill with an installed path, or none. -/
inductive Lookup where
  | throws
  | missing
  | found
  deriving DecidableEq

/-- How `writeFileSync` ends; a write that fails can leave anything. -/
inductive FileWrite where
  | done
  | fails (left : Option String)
  deriving DecidableEq

/-- What becomes of the steps of `writeSkillContent`. -/
structure FileSteps where
  target : Lookup
  visible : Bool
  reads : Bool
  write : FileWrite

/-- `writeSkillContent`: whether it has written (`none` if it throws), and the file. -/
def writeSkillContent (e : FileSteps) (newBody : String) (file : Option String) :
    Option Bool × Option String :=
  match e.target with
  | .throws => (none, file)
  | .missing => (some false, file)
  | .found =>
    match file with
    | none => (some false, none)
    | some existing =>
      if e.visible = false then (some false, some existing)
      else if e.reads = false then (none, some existing)
      else
        match e.write with
        | .done => (some true, some (rewritten existing newBody))
        | .fails left => (none, left)

/-- A snapshot; the author is always `llm`. -/
structure Snapshot where
  body : String
  written_at : String

def Snapshot.toJson (x : Snapshot) : Json :=
  .obj [("body", .str x.body), ("written_by", .str "llm"), ("written_at", .str x.written_at)]

/-- The file and the stored stack of snapshots. -/
structure SkillState where
  file : Option String
  snapshots : Option String

/-- The stored stack; `none` if what is stored is no array. -/
def readSnapshots (raw : Option String) : Option (List Json) :=
  match raw.filter (· ≠ "") with
  | none => some []
  | some raw =>
    match Json.parse raw with
    | none => some []
    | some (.arr l) => some l
    | some _ => none

def snapshotText (numeral : Number → String) (l : List Json) : String :=
  Json.stringify numeral (.arr l)

/-- `arr.push(x)`, and `arr.shift()` if there are more than five. -/
def pushSnapshot (l : List Json) (x : Json) : List Json :=
  if (l ++ [x]).length > 5 then (l ++ [x]).tail else l ++ [x]

/-- How a call ends. -/
inductive Outcome where
  | threw
  | refused (reason : String)
  | written (old_len new_len : ℕ)
  | reverted
  deriving DecidableEq

/-- The call returns `ok`. -/
def Outcome.ok : Outcome → Bool
  | .written _ _ | .reverted => true
  | _ => false

structure WriteOptions where
  minLen : ℚ := 50
  maxRatio : ℚ := 1 / 2

structure WriteSteps where
  plugin : Lookup
  llmWritable : Bool
  bodyLookup : Lookup
  bodyReads : Bool
  kvReads : Bool
  kvWrites : Bool
  file : FileSteps
  audits : Bool
  writtenAt : String

/-- `loadSkillContent`, if it does not throw. -/
def loadSkillContent (e : WriteSteps) (file : Option String) : Option String :=
  if e.bodyLookup = .found ∧ e.bodyReads then file.map skillBody else none

/-- The new body is too short, or its length too different. -/
def diffTooLarge (opts : WriteOptions) (currentBody : Option String) (newBody : String) : Bool :=
  let oldLen := utf16Length (currentBody.getD "")
  let newLen := utf16Length (trimText newBody)
  newLen < opts.minLen || (0 < oldLen && opts.maxRatio < |(newLen : ℚ) - oldLen| / oldLen)

/-- The steps before the snapshot is stored: the reason to refuse, or the body that was read;
`none` if one of them throws. -/
def writeGates (e : WriteSteps) (opts : WriteOptions) (newBody : String) (s : SkillState) :
    Option (String ⊕ Option String) :=
  match e.plugin with
  | .throws => none
  | .missing => some (.inl "not_found")
  | .found =>
    if e.llmWritable = false then if e.audits then some (.inl "not_writable") else none
    else if e.bodyLookup = .throws then none
    else
      let currentBody := loadSkillContent e s.file
      if diffTooLarge opts currentBody newBody then
        if e.audits then some (.inl "diff_too_large") else none
      else some (.inr currentBody)

section Operations

variable (kv : Bool) (numeral : Number → String)

/-- The snapshot is stored; `none` if that throws. Without a key-value store nothing happens. -/
def storeSnapshot (e : WriteSteps) (currentBody : Option String) (s : SkillState) :
    Option SkillState :=
  if kv then
    if e.kvReads = false then none
    else
      (readSnapshots s.snapshots).bind fun arr =>
        if e.kvWrites = false then none
        else
          let entry : Snapshot := ⟨currentBody.getD "", e.writtenAt⟩
          some { s with snapshots := some (snapshotText numeral (pushSnapshot arr entry.toJson)) }
  else some s

/-- The end of a write: the file and the audit. -/
def finishWrite (e : WriteSteps) (newBody : String) (currentBody : Option String) (s : SkillState) :
    Outcome × SkillState :=
  match writeSkillContent e.file newBody s.file with
  | (none, file) => (.threw, { s with file })
  | (some false, file) => (.refused "write_failed", { s with file })
  | (some true, file) =>
    (if e.audits then
      .written (utf16Length (currentBody.getD "")) (utf16Length (trimText newBody))
    else .threw, { s with file })

/-- **`writeSkillGuarded`.** -/
def writeSkillGuarded (e : WriteSteps) (opts : WriteOptions) (newBody : String) (s : SkillState) :
    Outcome × SkillState :=
  match writeGates e opts newBody s with
  | none => (.threw, s)
  | some (.inl reason) => (.refused reason, s)
  | some (.inr currentBody) =>
    match storeSnapshot kv numeral e currentBody s with
    | none => (.threw, s)
    | some s => finishWrite e newBody currentBody s

structure RevertSteps where
  plugin : Lookup
  llmWritable : Bool
  kvReads : Bool
  kvWrites : Bool
  file : FileSteps
  auditLookup : Lookup
  audits : Bool

/-- The gate of a revert: the reason to refuse; `none` if it throws. -/
def revertGate (e : RevertSteps) : Option (Option String) :=
  match e.plugin with
  | .throws => none
  | .missing => some none
  | .found =>
    if e.llmWritable then some none else if e.audits then some (some "not_writable") else none

/-- The body of an entry; older entries are plain strings. -/
def entryBody (entry : Json) : Option String :=
  match entry with
  | .str s => some s
  | v => (v.field "body").bind fun b => Json.asString? (some b)

def revertStack (e : RevertSteps) (s : SkillState) : Option (List Json) :=
  if kv then if e.kvReads then readSnapshots s.snapshots else none else some []

/-- The end of a revert: the file and the audit. An entry without a body throws in the write, after
the file was read. -/
def finishRevert (e : RevertSteps) (entry : Json) (s : SkillState) : Outcome × SkillState :=
  match entryBody entry with
  | none => (.threw, s)
  | some body =>
    match writeSkillContent e.file body s.file with
    | (none, file) => (.threw, { s with file })
    | (some false, file) => (.refused "not_found", { s with file })
    | (some true, file) =>
      (if e.auditLookup ≠ .throws ∧ e.audits then .reverted else .threw, { s with file })

/-- **`revertSkill`.** -/
def revertSkill (e : RevertSteps) (s : SkillState) : Outcome × SkillState :=
  match revertGate e with
  | none => (.threw, s)
  | some (some reason) => (.refused reason, s)
  | some none =>
    match revertStack kv e s with
    | none => (.threw, s)
    | some arr =>
      match arr.getLast? with
      | none => (.refused "no_snapshot", s)
      | some entry =>
        if e.kvWrites = false then (.threw, s)
        else finishRevert e entry { s with snapshots := some (snapshotText numeral arr.dropLast) }

/-- A call, with what becomes of its steps. -/
inductive Call where
  | write (e : WriteSteps) (opts : WriteOptions) (newBody : String)
  | revert (e : RevertSteps)

/-- **One call.** -/
def Call.exec (c : Call) (s : SkillState) : Outcome × SkillState :=
  match c with
  | .write e opts newBody => writeSkillGuarded kv numeral e opts newBody s
  | .revert e => revertSkill kv numeral e s

end Operations

/-! ## What a call should do -/

/-- The body of the file, without the blanks around it. -/
def SkillState.body (s : SkillState) : String := trimText ((s.file.map skillBody).getD "")

/-- The frontmatter of the file. -/
def SkillState.inner (s : SkillState) : Option (List Char) :=
  s.file.bind fun content => (frontmatter? content).map Prod.fst

/-- The log: the bodies before the writes that are not reverted, the latest first, and how many of
them a revert can bring back. -/
structure Log where
  pending : List String
  depth : ℕ

/-- The log after a call that began in `s`. -/
def Log.after (log : Log) (kv : Bool) (s : SkillState) : Outcome → Log
  | .written _ _ => ⟨s.body :: log.pending, if kv then min 5 (log.depth + 1) else 0⟩
  | .reverted => ⟨log.pending.tail, log.depth - 1⟩
  | _ => log

/-- **What a call should do**: the frontmatter stays; a call that does not return `ok` changes
nothing; a revert that does brings back the body before the latest write that is not reverted; and
up to five levels there is something to bring back. -/
structure StepGood (log : Log) (s : SkillState) (result : Outcome × SkillState) : Prop where
  inner : result.2.inner = s.inner
  unchanged : result.1.ok = false → result.2 = s
  reverted : result.1 = .reverted → log.pending.head? = some result.2.body
  depth : result.1 = .refused "no_snapshot" → log.depth = 0

/-- Every call of a run does what it should. -/
def AllGood (kv : Bool) (numeral : Number → String) : Log → SkillState → List Call → Prop
  | _, _, [] => True
  | log, s, c :: calls =>
    StepGood log s (c.exec kv numeral s) ∧
      AllGood kv numeral (log.after kv s (c.exec kv numeral s).1) (c.exec kv numeral s).2 calls

/-! ## The condition -/

/-- Every step of the file write succeeds. -/
def FileSteps.Completes (e : FileSteps) (file : Option String) : Prop :=
  e.target = .found ∧ file.isSome ∧ e.visible ∧ e.reads ∧ e.write = .done

/-- The file is not written, or a write that fails leaves it as it was. -/
def FileSteps.Harmless (e : FileSteps) (file : Option String) : Prop :=
  ¬ (e.target = .found ∧ file.isSome ∧ e.visible ∧ e.reads) ∨ e.write = .fails file

/-- Once the snapshot is stored, every later step succeeds, and the snapshot is the current body.
Without a key-value store a write that does not succeed leaves the file as it was. -/
def CleanWrite (kv : Bool) (e : WriteSteps) (opts : WriteOptions) (newBody : String)
    (s : SkillState) : Prop :=
  ∀ currentBody, writeGates e opts newBody s = some (.inr currentBody) →
    if kv then
      e.kvReads → e.kvWrites →
        trimText (currentBody.getD "") = s.body ∧ e.file.Completes s.file ∧ e.audits
    else e.file.Completes s.file ∧ e.audits ∨ e.file.Harmless s.file

/-- Once the shorter stack is stored, every later step succeeds. -/
def CleanRevert (kv : Bool) (e : RevertSteps) (s : SkillState) : Prop :=
  revertGate e = some none → kv → e.kvReads → e.kvWrites → readSnapshots s.snapshots ≠ some [] →
    e.file.Completes s.file ∧ e.auditLookup ≠ .throws ∧ e.audits

/-- A call of which no step fails once the stack was changed. -/
def Call.Clean (kv : Bool) (s : SkillState) : Call → Prop
  | .write e opts newBody => CleanWrite kv e opts newBody s
  | .revert e => CleanRevert kv e s

/-- Each call is clean in the state that it meets. -/
def CleanRun (kv : Bool) (numeral : Number → String) (s : SkillState) : List Call → Prop
  | [] => True
  | c :: calls => c.Clean kv s ∧ CleanRun kv numeral (c.exec kv numeral s).2 calls

/-! ## The stack -/

section Proofs

variable {kv : Bool} {numeral : Number → String} {log : Log} {s : SkillState}

theorem Snapshot.clear (x : Snapshot) : Json.Clear numeral x.toJson := by
  apply Json.clear_obj (by simp)
  simp only [List.forall_mem_cons]
  exact ⟨Json.clear_str _, Json.clear_str _, Json.clear_str _, by simp⟩

theorem readSnapshots_text (entries : List Snapshot) :
    readSnapshots (some (snapshotText numeral (entries.map Snapshot.toJson)))
      = some (entries.map Snapshot.toJson) := by
  have hclear : Json.Clear numeral (.arr (entries.map Snapshot.toJson)) := by
    apply Json.clear_arr
    intro v hv
    obtain ⟨x, -, rfl⟩ := List.mem_map.mp hv
    exact x.clear
  have hparse := Json.parse_clear hclear
  have hne : snapshotText numeral (entries.map Snapshot.toJson) ≠ "" := by
    intro hempty
    rw [snapshotText] at hempty
    rw [hempty] at hparse
    cases hparse
  rw [readSnapshots, Option.filter_some, if_pos (decide_eq_true hne)]
  simp only [snapshotText, hparse]

theorem entryBody_toJson (x : Snapshot) : entryBody x.toJson = some x.body := by
  simp [entryBody, Snapshot.toJson, Json.field, Json.asString?]

/-- The bodies of a stack, the latest first, without the blanks around them. -/
def bodies (entries : List Snapshot) : List String := entries.reverse.map fun x => trimText x.body

/-- The stack holds the latest bodies of the log. -/
structure Holds (log : Log) (entries : List Snapshot) : Prop where
  depth : entries.length = log.depth
  depth_le : log.depth ≤ 5
  latest : bodies entries <+: log.pending

/-- **The invariant.** -/
structure Inv (kv : Bool) (log : Log) (s : SkillState) : Prop where
  stack : kv = true → ∃ entries,
    readSnapshots s.snapshots = some (entries.map Snapshot.toJson) ∧ Holds log entries
  none : kv = false → log.depth = 0

/-- The stack after a push. -/
def pushed (entries : List Snapshot) (x : Snapshot) : List Snapshot :=
  if (entries ++ [x]).length > 5 then (entries ++ [x]).tail else entries ++ [x]

theorem pushSnapshot_map (entries : List Snapshot) (x : Snapshot) :
    pushSnapshot (entries.map Snapshot.toJson) x.toJson
      = (pushed entries x).map Snapshot.toJson := by
  have happend : entries.map Snapshot.toJson ++ [x.toJson]
      = (entries ++ [x]).map Snapshot.toJson := by
    rw [List.map_append, List.map_singleton]
  rw [pushSnapshot, happend, List.length_map, pushed]
  split_ifs with h
  · rw [List.map_tail]
  · rfl

theorem Holds.push {entries : List Snapshot} (h : Holds log entries) {x : Snapshot} {body : String}
    (hbody : trimText x.body = body) :
    Holds ⟨body :: log.pending, min 5 (log.depth + 1)⟩ (pushed entries x) := by
  have hdepth := h.depth
  have hle := h.depth_le
  have hall : bodies (entries ++ [x]) <+: body :: log.pending := by
    rw [bodies, List.reverse_append, List.reverse_singleton, List.singleton_append, List.map_cons,
      hbody]
    exact List.cons_prefix_cons.mpr ⟨rfl, h.latest⟩
  refine ⟨?_, min_le_left _ _, ?_⟩
  · rw [pushed]
    split_ifs with hfull
    · rw [List.length_append, List.length_singleton] at hfull
      rw [List.length_tail, List.length_append, List.length_singleton]
      show entries.length + 1 - 1 = min 5 (log.depth + 1)
      omega
    · rw [List.length_append, List.length_singleton] at hfull ⊢
      show entries.length + 1 = min 5 (log.depth + 1)
      omega
  · rw [pushed]
    split_ifs with hfull
    · refine List.IsPrefix.trans ?_ hall
      rw [bodies, ← List.dropLast_reverse, bodies, List.map_dropLast]
      exact List.dropLast_prefix _
    · exact hall

theorem Holds.pop {entries : List Snapshot} {x : Snapshot} (h : Holds log entries)
    (hlast : entries.getLast? = some x) :
    log.pending.head? = some (trimText x.body) ∧
      Holds ⟨log.pending.tail, log.depth - 1⟩ entries.dropLast := by
  obtain ⟨init, rfl⟩ := List.getLast?_eq_some_iff.mp hlast
  have hbodies : bodies (init ++ [x]) = trimText x.body :: bodies init := by
    rw [bodies, List.reverse_append, List.reverse_singleton, List.singleton_append, List.map_cons]
    rfl
  have hfront := h.latest
  have hdepth := h.depth
  have hle := h.depth_le
  rw [hbodies] at hfront
  rw [List.length_append, List.length_singleton] at hdepth
  cases hpending : log.pending with
  | nil =>
    rw [hpending] at hfront
    exact absurd (List.prefix_nil.mp hfront) (List.cons_ne_nil _ _)
  | cons b rest =>
    rw [hpending, List.cons_prefix_cons] at hfront
    refine ⟨by rw [hfront.1]; rfl, ?_, ?_, ?_⟩
    · rw [List.dropLast_concat]
      show init.length = log.depth - 1
      omega
    · show log.depth - 1 ≤ 5
      omega
    · rw [List.dropLast_concat]
      exact hfront.2

/-! ## The file -/

theorem writeSkillContent_completes {e : FileSteps} (newBody : String) {file : Option String}
    (h : e.Completes file) : ∃ existing, file = some existing ∧
      writeSkillContent e newBody file = (some true, some (rewritten existing newBody)) := by
  obtain ⟨htarget, hsome, hvisible, hreads, hwrite⟩ := h
  obtain ⟨existing, rfl⟩ := Option.isSome_iff_exists.mp hsome
  exact ⟨existing, rfl, by simp [writeSkillContent, htarget, hvisible, hreads, hwrite]⟩

theorem writeSkillContent_harmless {e : FileSteps} (newBody : String) {file : Option String}
    (h : e.Harmless file) : (writeSkillContent e newBody file).2 = file ∧
      (writeSkillContent e newBody file).1 ≠ some true := by
  cases htarget : e.target with
  | throws => simp [writeSkillContent, htarget]
  | missing => simp [writeSkillContent, htarget]
  | found =>
    cases file with
    | none => simp [writeSkillContent, htarget]
    | some existing =>
      by_cases hvisible : e.visible = false
      · simp [writeSkillContent, htarget, hvisible]
      · by_cases hreads : e.reads = false
        · simp [writeSkillContent, htarget, hvisible, hreads]
        · have hwrite := h.resolve_left fun hnot => hnot
            ⟨htarget, rfl, by simpa using hvisible, by simpa using hreads⟩
          simp [writeSkillContent, htarget, hvisible, hreads, hwrite]

theorem body_of_file {file : Option String} {existing newBody : String}
    {snapshots : Option String} (h : file = some (rewritten existing newBody)) :
    (SkillState.mk file snapshots).body = trimText newBody := by
  rw [SkillState.body, h]
  exact body_rewritten existing newBody

theorem inner_of_file {s : SkillState} {existing newBody : String} {snapshots : Option String}
    (h : s.file = some existing) :
    (SkillState.mk (some (rewritten existing newBody)) snapshots).inner = s.inner := by
  rw [SkillState.inner, SkillState.inner, h]
  exact inner_rewritten existing newBody

theorem stepGood_refused {outcome : Outcome} (hok : outcome.ok = false)
    (hsnapshot : outcome = .refused "no_snapshot" → log.depth = 0) :
    StepGood log s (outcome, s) := by
  refine ⟨rfl, fun _ => rfl, fun h => ?_, hsnapshot⟩
  have heq : outcome = .reverted := h
  rw [heq] at hok
  cases hok

theorem after_refused {outcome : Outcome} (hok : outcome.ok = false) :
    log.after kv s outcome = log := by
  cases outcome with
  | threw => rfl
  | refused reason => rfl
  | written old_len new_len => cases hok
  | reverted => cases hok

theorem writeGates_reason {e : WriteSteps} {opts : WriteOptions} {newBody reason : String}
    (h : writeGates e opts newBody s = some (.inl reason)) : reason ≠ "no_snapshot" := by
  rintro rfl
  simp only [writeGates] at h
  cases hplugin : e.plugin with
  | throws => simp [hplugin] at h
  | missing => simp [hplugin] at h
  | found =>
    simp only [hplugin] at h
    split_ifs at h <;> simp at h

/-! ## One call -/

theorem finishWrite_completes {e : WriteSteps} (newBody : String) (currentBody : Option String)
    (h : e.file.Completes s.file) (haudits : e.audits) : ∃ existing, s.file = some existing ∧
      finishWrite e newBody currentBody s
        = (.written (utf16Length (currentBody.getD "")) (utf16Length (trimText newBody)),
          { s with file := some (rewritten existing newBody) }) := by
  obtain ⟨existing, hfile, hwrite⟩ := writeSkillContent_completes newBody h
  exact ⟨existing, hfile, by simp [finishWrite, hwrite, haudits]⟩

theorem finishWrite_harmless {e : WriteSteps} (newBody : String) (currentBody : Option String)
    (h : e.file.Harmless s.file) : ∃ outcome, outcome.ok = false ∧
      outcome ≠ .refused "no_snapshot" ∧ finishWrite e newBody currentBody s = (outcome, s) := by
  obtain ⟨hfile, hnot⟩ := writeSkillContent_harmless newBody h
  cases hresult : writeSkillContent e.file newBody s.file with
  | mk written file =>
    rw [hresult] at hfile hnot
    cases hfile
    cases written with
    | none => exact ⟨.threw, rfl, by simp, by simp [finishWrite, hresult]⟩
    | some written =>
      cases written with
      | false => exact ⟨.refused "write_failed", rfl, by simp, by simp [finishWrite, hresult]⟩
      | true => exact absurd rfl hnot

theorem write_good {e : WriteSteps} {opts : WriteOptions} {newBody : String} (h : Inv kv log s)
    (hclean : CleanWrite kv e opts newBody s) :
    StepGood log s (writeSkillGuarded kv numeral e opts newBody s) ∧
      Inv kv (log.after kv s (writeSkillGuarded kv numeral e opts newBody s).1)
        (writeSkillGuarded kv numeral e opts newBody s).2 := by
  have hrefused : ∀ outcome : Outcome, outcome.ok = false → outcome ≠ .refused "no_snapshot" →
      writeSkillGuarded kv numeral e opts newBody s = (outcome, s) →
      StepGood log s (writeSkillGuarded kv numeral e opts newBody s) ∧
        Inv kv (log.after kv s (writeSkillGuarded kv numeral e opts newBody s).1)
          (writeSkillGuarded kv numeral e opts newBody s).2 := by
    intro outcome hok hreason heq
    rw [heq, after_refused hok]
    exact ⟨stepGood_refused hok fun h => absurd h hreason, h⟩
  cases hgates : writeGates e opts newBody s with
  | none => exact hrefused .threw rfl (by simp) (by simp [writeSkillGuarded, hgates])
  | some gate =>
    cases gate with
    | inl reason =>
      exact hrefused (.refused reason) rfl (by simpa using writeGates_reason hgates)
        (by simp [writeSkillGuarded, hgates])
    | inr currentBody =>
      have hcond := hclean currentBody hgates
      cases kv with
      | false =>
        rcases hcond with ⟨hcompletes, haudits⟩ | hharmless
        · obtain ⟨existing, hfile, hfinish⟩ :=
            finishWrite_completes newBody currentBody hcompletes haudits
          have heq : writeSkillGuarded false numeral e opts newBody s
              = finishWrite e newBody currentBody s := by
            simp only [writeSkillGuarded, hgates, storeSnapshot, Bool.false_eq_true, if_false]
          rw [heq, hfinish]
          refine ⟨⟨inner_of_file hfile, ?_, ?_, ?_⟩, ⟨?_, fun _ => rfl⟩⟩ <;> simp [Outcome.ok]
        · obtain ⟨outcome, hok, hreason, hfinish⟩ :=
            finishWrite_harmless newBody currentBody hharmless
          refine hrefused outcome hok hreason ?_
          simp only [writeSkillGuarded, hgates, storeSnapshot, Bool.false_eq_true, if_false]
          exact hfinish
      | true =>
        obtain ⟨entries, hread, hholds⟩ := h.stack rfl
        by_cases hkvReads : e.kvReads = false
        · refine hrefused .threw rfl (by simp) ?_
          simp [writeSkillGuarded, hgates, storeSnapshot, hkvReads]
        · by_cases hkvWrites : e.kvWrites = false
          · refine hrefused .threw rfl (by simp) ?_
            simp [writeSkillGuarded, hgates, storeSnapshot, hkvReads, hkvWrites, hread]
          · obtain ⟨hbody, hcompletes, haudits⟩ :=
              hcond (by simpa using hkvReads) (by simpa using hkvWrites)
            obtain ⟨text, htext⟩ : ∃ text, text = snapshotText numeral
              ((pushed entries ⟨currentBody.getD "", e.writtenAt⟩).map Snapshot.toJson) := ⟨_, rfl⟩
            have hstore : storeSnapshot true numeral e currentBody s
                = some { s with snapshots := some text } := by
              rw [htext, ← pushSnapshot_map]
              simp [storeSnapshot, hkvReads, hkvWrites, hread]
            obtain ⟨existing, hfile, hfinish⟩ := finishWrite_completes newBody currentBody
              (show e.file.Completes (SkillState.mk s.file (some text)).file from hcompletes)
              haudits
            have hagain : readSnapshots (some text) = some ((pushed entries
                ⟨currentBody.getD "", e.writtenAt⟩).map Snapshot.toJson) := by
              rw [htext]
              exact readSnapshots_text _
            have hpush := hholds.push (x := ⟨currentBody.getD "", e.writtenAt⟩) hbody
            have heq : writeSkillGuarded true numeral e opts newBody s
                = finishWrite e newBody currentBody { s with snapshots := some text } := by
              simp only [writeSkillGuarded, hgates, hstore]
            rw [heq, hfinish]
            refine ⟨⟨inner_of_file hfile, ?_, ?_, ?_⟩, ⟨fun _ => ?_, by simp⟩⟩
            · simp [Outcome.ok]
            · simp
            · simp
            · exact ⟨_, hagain, hpush⟩

theorem finishRevert_completes {e : RevertSteps} {x : Snapshot} (h : e.file.Completes s.file)
    (haudit : e.auditLookup ≠ .throws) (haudits : e.audits) : ∃ existing, s.file = some existing ∧
      finishRevert e x.toJson s
        = (.reverted, { s with file := some (rewritten existing x.body) }) := by
  obtain ⟨existing, hfile, hwrite⟩ := writeSkillContent_completes x.body h
  exact ⟨existing, hfile, by simp [finishRevert, entryBody_toJson, hwrite, haudit, haudits]⟩

theorem revert_good {e : RevertSteps} (h : Inv kv log s) (hclean : CleanRevert kv e s) :
    StepGood log s (revertSkill kv numeral e s) ∧
      Inv kv (log.after kv s (revertSkill kv numeral e s).1) (revertSkill kv numeral e s).2 := by
  have hrefused : ∀ outcome : Outcome, outcome.ok = false →
      (outcome = .refused "no_snapshot" → log.depth = 0) →
      revertSkill kv numeral e s = (outcome, s) →
      StepGood log s (revertSkill kv numeral e s) ∧
        Inv kv (log.after kv s (revertSkill kv numeral e s).1) (revertSkill kv numeral e s).2 := by
    intro outcome hok hreason heq
    rw [heq, after_refused hok]
    exact ⟨stepGood_refused hok hreason, h⟩
  cases hgate : revertGate e with
  | none => exact hrefused .threw rfl (by simp) (by simp [revertSkill, hgate])
  | some gate =>
    cases gate with
    | some reason =>
      have hreason : reason = "not_writable" := by
        simp only [revertGate] at hgate
        cases hplugin : e.plugin with
        | throws => simp [hplugin] at hgate
        | missing => simp [hplugin] at hgate
        | found =>
          simp only [hplugin] at hgate
          split_ifs at hgate
          · cases hgate
          · exact (Option.some.inj (Option.some.inj hgate)).symm
      subst hreason
      exact hrefused (.refused "not_writable") rfl (by simp) (by simp [revertSkill, hgate])
    | none =>
      cases kv with
      | false =>
        exact hrefused (.refused "no_snapshot") rfl (fun _ => h.none rfl)
          (by simp [revertSkill, hgate, revertStack])
      | true =>
        obtain ⟨entries, hread, hholds⟩ := h.stack rfl
        by_cases hkvReads : e.kvReads
        · have hstack : revertStack true e s = some (entries.map Snapshot.toJson) := by
            simp [revertStack, hkvReads, hread]
          cases hlast : entries.getLast? with
          | none =>
            obtain rfl := List.getLast?_eq_none_iff.mp hlast
            exact hrefused (.refused "no_snapshot") rfl (fun _ => hholds.depth.symm)
              (by simp [revertSkill, hgate, hstack])
          | some x =>
            obtain ⟨hhead, hpop⟩ := hholds.pop hlast
            have hlast' : (entries.map Snapshot.toJson).getLast? = some x.toJson := by
              rw [List.getLast?_map, hlast]
              rfl
            by_cases hkvWrites : e.kvWrites = false
            · exact hrefused .threw rfl (by simp)
                (by simp [revertSkill, hgate, hstack, hlast', hkvWrites])
            · obtain ⟨text, htext⟩ : ∃ text, text = snapshotText numeral
                (entries.map Snapshot.toJson).dropLast := ⟨_, rfl⟩
              have hne : readSnapshots s.snapshots ≠ some [] := by
                rw [hread]
                intro hnil
                rw [Option.some.injEq, List.map_eq_nil_iff] at hnil
                rw [hnil] at hlast
                cases hlast
              obtain ⟨hcompletes, haudit, haudits⟩ :=
                hclean hgate rfl hkvReads (by simpa using hkvWrites) hne
              obtain ⟨existing, hfile, hfinish⟩ := finishRevert_completes (x := x)
                (show e.file.Completes (SkillState.mk s.file (some text)).file from hcompletes)
                haudit haudits
              have hagain : readSnapshots (some text)
                  = some (entries.dropLast.map Snapshot.toJson) := by
                rw [htext, ← List.map_dropLast]
                exact readSnapshots_text _
              have heq : revertSkill true numeral e s
                  = finishRevert e x.toJson { s with snapshots := some text } := by
                simp only [revertSkill, hgate, hstack, hlast', htext, if_neg hkvWrites]
              rw [heq, hfinish]
              refine ⟨⟨inner_of_file hfile, ?_, fun _ => ?_, ?_⟩, ⟨fun _ => ?_, by simp⟩⟩
              · simp [Outcome.ok]
              · rw [body_of_file rfl]
                exact hhead
              · simp
              · exact ⟨_, hagain, hpop⟩
        · refine hrefused .threw rfl (by simp) ?_
          simp [revertSkill, hgate, revertStack, hkvReads]

/-- **One clean call.** -/
theorem step_good {c : Call} (h : Inv kv log s) (hclean : c.Clean kv s) :
    StepGood log s (c.exec kv numeral s) ∧
      Inv kv (log.after kv s (c.exec kv numeral s).1) (c.exec kv numeral s).2 := by
  cases c with
  | write e opts newBody => exact write_good h hclean
  | revert e => exact revert_good h hclean

/-- **A run of clean calls.** -/
theorem run_good (calls : List Call) : ∀ (log : Log) (s : SkillState), Inv kv log s →
    CleanRun kv numeral s calls → AllGood kv numeral log s calls := by
  induction calls with
  | nil =>
    intro log s _ _
    trivial
  | cons c calls ih =>
    intro log s h hclean
    obtain ⟨hgood, hinv⟩ : StepGood log s (c.exec kv numeral s) ∧ _ := step_good h hclean.1
    exact ⟨hgood, ih _ _ hinv hclean.2⟩

end Proofs

/-- A skill before its first write. -/
def untouched (content : String) : SkillState := ⟨some content, none⟩

/-- **Writes and reverts are an undo stack**, in every run of clean calls. -/
theorem good_run {kv : Bool} {numeral : Number → String} {content : String} {calls : List Call}
    (hclean : CleanRun kv numeral (untouched content) calls) :
    AllGood kv numeral ⟨[], 0⟩ (untouched content) calls := by
  apply run_good calls _ _ _ hclean
  exact ⟨fun _ => ⟨[], rfl, rfl, Nat.zero_le 5, List.nil_prefix⟩, fun _ => rfl⟩

/-! ## Runs -/

/-- Every step of the file write succeeds. -/
def fileDone : FileSteps := ⟨.found, true, true, .done⟩

def writeDone : WriteSteps := ⟨.found, true, .found, true, true, true, fileDone, true, "t"⟩

def revertDone : RevertSteps := ⟨.found, true, true, true, fileDone, .found, true⟩

def smallSkill : String := "---\nname: a\n---\nold"

def anyLength : WriteOptions := ⟨0, 10⟩

/-- A write and its revert. -/
theorem good_writeRevert : AllGood true (fun _ => "0") ⟨[], 0⟩ (untouched smallSkill)
    [.write writeDone anyLength "new", .revert revertDone] := by
  apply good_run
  refine ⟨fun currentBody hgates _ _ => ?_, fun _ _ _ _ _ => ?_, trivial⟩
  · have hread : writeGates writeDone anyLength "new" (untouched smallSkill)
        = some (.inr (some "old")) := by decide +kernel
    rw [hread, Option.some.injEq, Sum.inr.injEq] at hgates
    subst hgates
    exact ⟨by decide, ⟨rfl, rfl, rfl, rfl, rfl⟩, rfl⟩
  · exact ⟨⟨rfl, by decide +kernel, rfl, rfl, rfl⟩, by decide, rfl⟩

def diskFull : WriteSteps :=
  ⟨.found, true, .found, true, true, true,
    ⟨.found, true, true, .fails (some smallSkill)⟩, true, "t"⟩

/-- **A write that fails leaves its snapshot.** -/
theorem write_fails : ¬ AllGood true (fun _ => "0") ⟨[], 0⟩ (untouched smallSkill)
    [.write diskFull anyLength "new"] := by
  rintro ⟨hgood, -⟩
  have hsame := hgood.unchanged (by decide +kernel)
  have hnone : (writeSkillGuarded true (fun _ => "0") diskFull anyLength "new"
      (untouched smallSkill)).2.snapshots.isSome = true := by decide +kernel
  have hsnapshots := congrArg SkillState.snapshots hsame
  have hfalse : (none : Option String).isSome = true :=
    (congrArg Option.isSome hsnapshots).symm.trans hnone
  cases hfalse

end Skill

end NeoTrader

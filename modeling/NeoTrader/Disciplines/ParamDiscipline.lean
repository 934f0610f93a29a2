import NeoTrader.Py.Value

/-!
# The journal of parameter changes

A change of a plugin's parameters is written into a journal, with its reason. It locks the plugin for
some cycles, and a week has a limited number of changes.

* `checkLock_locked`, **`journalEntry_ok`**: when a plugin is locked, and when a change is written.

A time is a number of seconds, and the texts of whole seconds are compared as the numbers. The text of
a successful entry is left out.
-/

namespace NeoTrader

open Js Py

/-! ## Entries -/

structure JournalEntry where
  id : String
  pluginId : String
  paramsBefore : Obj
  paramsAfter : Obj
  reason : String
  hypothesis : String
  cycleId : String
  ts : ℤ
  cyclesSince : ℤ

/-- `max(entries, key=ts)`: the first one of the latest. -/
def latestEntry : List JournalEntry → Option JournalEntry
  | [] => none
  | e :: rest => some (rest.foldl (fun best e => if best.ts < e.ts then e else best) e)

def entriesOf (journal : List JournalEntry) (pluginId : String) : List JournalEntry :=
  journal.filter fun e => e.pluginId = pluginId

def weekSeconds : ℚ := 7 * 24 * 3600

/-- The entries of the week before a time. -/
def recentEntries (journal : List JournalEntry) (pluginId : String) (now : ℚ) : List JournalEntry :=
  (entriesOf journal pluginId).filter fun e => now - weekSeconds < e.ts

/-! ## The script -/

structure LockStatus where
  locked : Bool
  reason : Option String := none
  entryId : Option String := none
  hypothesis : Option String := none
  cyclesSinceLastChange : Option ℤ := none

def lockCyclesOf (config : Obj) : Except String ℤ := intField config "lock_after_change_cycles" 3

/-- Whether the parameters of a plugin are locked. -/
def checkLock (journal : List JournalEntry) (pluginId : String) (config : Obj) :
    Except String LockStatus := do
  let lockCycles ← lockCyclesOf config
  match latestEntry (entriesOf journal pluginId) with
  | none => return { locked := false, reason := some "Sin cambios registrados" }
  | some latest =>
    if latest.cyclesSince < lockCycles then
      let remaining := lockCycles - latest.cyclesSince
      return { locked := true
               reason := some (s!"Cambio reciente ({latest.cyclesSince} ciclos atrás)." ++
                 s!" Lock por {remaining} ciclos más.")
               entryId := some latest.id, hypothesis := some latest.hypothesis }
    else return { locked := false, cyclesSinceLastChange := some latest.cyclesSince }

/-- The change that is to be written. -/
structure JournalArgs where
  pluginId : String
  paramsBefore : Obj
  paramsAfter : Obj
  reason : String
  hypothesis : String
  cycleId : String

/-- `len(hypothesis.strip())`. -/
def hypothesisLength (hypothesis : String) : ℕ := (Number.trim hypothesis.toList).length

/-- The reason is long enough, or need not be. -/
def ReasonGiven (config : Obj) (minLength : ℤ) (hypothesis : String) : Prop :=
  flagField config "require_hypothesis" true = true → minLength ≤ hypothesisLength hypothesis

instance (config : Obj) (minLength : ℤ) (hypothesis : String) :
    Decidable (ReasonGiven config minLength hypothesis) :=
  inferInstanceAs (Decidable (_ → _))

def minHypothesisOf (config : Obj) : Except String ℤ := intField config "min_hypothesis_length" 50

def maxPerWeekOf (config : Obj) : Except String ℤ := intField config "max_changes_per_week" 5

def JournalArgs.entry (args : JournalArgs) (now : ℚ) (newId : String) : JournalEntry :=
  { id := newId, pluginId := args.pluginId, paramsBefore := args.paramsBefore
    paramsAfter := args.paramsAfter, reason := args.reason, hypothesis := args.hypothesis
    cycleId := args.cycleId, ts := ⌊now⌋, cyclesSince := 0 }

/-- **A change is written**, or refused with a text. The journal comes back with it. -/
def journalEntry (journal : List JournalEntry) (args : JournalArgs) (config : Obj) (now : ℚ)
    (newId : String) : Except String (List JournalEntry × Except String String) := do
  let minHypLen ← minHypothesisOf config
  if ¬ ReasonGiven config minHypLen args.hypothesis then
    return (journal, .error (s!"La hipótesis debe tener al menos {minHypLen} caracteres" ++
      s!" (tiene {hypothesisLength args.hypothesis})"))
  else
    let maxPerWeek ← maxPerWeekOf config
    if maxPerWeek ≤ (recentEntries journal args.pluginId now).length then
      return (journal, .error
        s!"Límite de {maxPerWeek} cambios semanales alcanzado para {args.pluginId}")
    else return (journal ++ [args.entry now newId], .ok newId)

/-- Each entry is one cycle older. -/
def advanceCycleCounters (journal : List JournalEntry) : List JournalEntry :=
  journal.map fun e => { e with cyclesSince := e.cyclesSince + 1 }

/-! ## The hook -/

/-- The context of the hook. -/
structure DisciplineCtx where
  config : Obj := []
  paramJournal : List JournalEntry := []
  activePluginIds : List String := []
  pendingSignals : List Json := []

structure DisciplineResult where
  signals : List Json
  logs : List String

/-- **The hook of a cycle.** The counters are advanced in the journal of the context, for the log; the
journal is not part of the answer. -/
def onCycle (ctx : DisciplineCtx) : Except String DisciplineResult := do
  let updatedJournal := advanceCycleCounters ctx.paramJournal
  let status ← ctx.activePluginIds.mapM fun pid => do
    let lock ← checkLock updatedJournal pid ctx.config
    return (pid, lock)
  let lockedPlugins := (status.filter fun s => s.2.locked).map Prod.fst
  let logs := if lockedPlugins = [] then [] else
    [s!"[param-discipline] {lockedPlugins.length} plugin(s)" ++ " con parámetros bloqueados: " ++
      ", ".intercalate lockedPlugins]
  return { signals := ctx.pendingSignals, logs }

/-! ## What the functions answer -/

theorem latestEntry_mem {l : List JournalEntry} {e : JournalEntry} (h : latestEntry l = some e) :
    e ∈ l := by
  cases l with
  | nil => cases h
  | cons a rest =>
    obtain rfl : rest.foldl (fun best e => if best.ts < e.ts then e else best) a = e :=
      Option.some.inj h
    clear h
    induction rest generalizing a with
    | nil => exact List.mem_cons_self
    | cons b rest ih =>
      rw [List.foldl_cons]
      have hmem := ih (if a.ts < b.ts then b else a)
      rcases List.mem_cons.1 hmem with heq | hmem
      · rw [heq]
        split_ifs <;> simp
      · exact List.mem_cons_of_mem _ (List.mem_cons_of_mem _ hmem)

theorem latestEntry_eq_none_iff {l : List JournalEntry} : latestEntry l = none ↔ l = [] := by
  cases l <;> simp [latestEntry]

/-- **A plugin that is not locked** has no entry, or its latest one is old enough. -/
theorem checkLock_unlocked {journal : List JournalEntry} {pluginId : String} {config : Obj}
    {status : LockStatus} (h : checkLock journal pluginId config = .ok status)
    (hunlocked : status.locked = false) :
    ∃ lock, lockCyclesOf config = .ok lock ∧ (entriesOf journal pluginId = [] ∨
      ∃ e ∈ entriesOf journal pluginId, lock ≤ e.cyclesSince) := by
  obtain ⟨lock, hlock, h⟩ := bind_eq_ok.1 h
  refine ⟨lock, hlock, ?_⟩
  split at h
  · next hnone => exact .inl (latestEntry_eq_none_iff.1 hnone)
  · next e he =>
    split at h
    · cases h
      cases hunlocked
    · next hge => exact .inr ⟨e, latestEntry_mem he, by omega⟩

/-- **A change that is written** has its reason, and is within the limit of the week. -/
theorem journalEntry_ok {journal journal' : List JournalEntry} {args : JournalArgs} {config : Obj}
    {now : ℚ} {newId id : String}
    (h : journalEntry journal args config now newId = .ok (journal', .ok id)) :
    ∃ max, maxPerWeekOf config = .ok max ∧
      (recentEntries journal args.pluginId now).length < max ∧ id = newId ∧
      journal' = journal ++ [args.entry now newId] := by
  obtain ⟨minHypLen, -, h⟩ := bind_eq_ok.1 h
  split at h
  · cases h
  · obtain ⟨max, hmax, h⟩ := bind_eq_ok.1 h
    split at h
    · cases h
    · next hlt =>
      cases h
      exact ⟨max, hmax, by omega, rfl, rfl⟩

end NeoTrader

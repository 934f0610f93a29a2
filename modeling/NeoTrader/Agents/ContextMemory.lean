import Mathlib.Tactic.IntervalCases
import Mathlib.Tactic.Linarith
import NeoTrader.Common.BoundedLog
import NeoTrader.Js.Clear

/-!
# The memory of the agent

Observations, flags and a summary of the signals are stored as one JSON text. Where there is no
text, the memory starts from default arrays that belong to the module, and they are changed in
place.

* **`get_shows`**: in which runs it holds what it should;
* **`reset_remembers`**: a reset brings the first observation back.
-/

namespace NeoTrader

open Js Json

namespace Memory

/-! ## The data -/

structure Observation where
  cycle_id : String
  text : String
  signals_count : Number
  skills_read : List String
  ts : String
  deriving DecidableEq

inductive FlagValue where
  | text (s : String)
  | number (x : Number)
  | bool (b : Bool)
  deriving DecidableEq

/-- Who sets a flag. -/
inductive SetBy where
  | user
  | llm
  deriving DecidableEq

structure ContextFlag where
  key : String
  value : FlagValue
  set_at : String
  set_by : SetBy
  note : Option String
  deriving DecidableEq

/-- What is known about the signals of a symbol. -/
structure SignalInfo where
  last_action : String
  last_ts : String
  count : ℕ
  deriving DecidableEq

/-- The summary of the signals, as an object. -/
abbrev Summary : Type := List (String × SignalInfo)

structure ContextMemory where
  last_updated : String
  observations : List Observation
  flags : List ContextFlag
  signal_summary : Summary
  deriving DecidableEq

/-- `EMPTY_MEMORY`, as the module starts. -/
def EMPTY_MEMORY : ContextMemory := ⟨"", [], [], []⟩

/-- `MAX_OBSERVATIONS`. -/
def MAX_OBSERVATIONS : ℕ := 20

/-- `MAX_FLAGS`. -/
def MAX_FLAGS : ℕ := 50

/-! ## The text -/

def FlagValue.toJson : FlagValue → Json
  | .text s => .str s
  | .number x => .num x
  | .bool b => .bool b

/-- Who sets a flag, in JSON. -/
def SetBy.toJson : SetBy → Json
  | .user => .str "user"
  | .llm => .str "llm"

def Observation.toJson (o : Observation) : Json :=
  .obj [("cycle_id", .str o.cycle_id), ("text", .str o.text),
    ("signals_count", .num o.signals_count), ("skills_read", .arr (o.skills_read.map .str)),
    ("ts", .str o.ts)]

/-- The note of a flag, if there is one. -/
def noteField (note : Option String) : List (String × Json) :=
  (note.map fun s => ("note", Json.str s)).toList

def ContextFlag.toJson (f : ContextFlag) : Json :=
  .obj ([("key", .str f.key), ("value", f.value.toJson), ("set_at", .str f.set_at),
    ("set_by", f.set_by.toJson)] ++ noteField f.note)

def SignalInfo.toJson (i : SignalInfo) : Json :=
  .obj [("last_action", .str i.last_action), ("last_ts", .str i.last_ts),
    ("count", .num (.fin i.count))]

def ContextMemory.toJson (m : ContextMemory) : Json :=
  .obj [("last_updated", .str m.last_updated),
    ("observations", .arr (m.observations.map (·.toJson))),
    ("flags", .arr (m.flags.map (·.toJson))),
    ("signal_summary", .obj (m.signal_summary.map fun e => (e.1, e.2.toJson)))]

/-- A string that was read. -/
def asStr : Json → Option String
  | .str s => some s
  | _ => none

/-- A number that was read. -/
def asNum : Json → Option Number
  | .num x => some x
  | _ => none

/-- The elements of an array that was read. -/
def asArr : Json → Option (List Json)
  | .arr l => some l
  | _ => none

/-- The fields of an object that was read. -/
def asObj : Json → Option (List (String × Json))
  | .obj fields => some fields
  | _ => none

def asCount : Json → Option ℕ
  | .num (.fin q) => if q.den = 1 ∧ 0 ≤ q.num then some q.num.toNat else none
  | _ => none

def FlagValue.ofJson : Json → Option FlagValue
  | .str s => some (.text s)
  | .num x => some (.number x)
  | .bool b => some (.bool b)
  | _ => none

/-- Who set a flag that was read. -/
def SetBy.ofJson (v : Json) : Option SetBy :=
  if asStr v = some "user" then some .user else if asStr v = some "llm" then some .llm else none

def Observation.ofJson (v : Json) : Option Observation := do
  let cycle_id ← (v.field "cycle_id").bind asStr
  let text ← (v.field "text").bind asStr
  let signals_count ← (v.field "signals_count").bind asNum
  let skills_read ← (v.field "skills_read").bind asArr
  let skills_read ← skills_read.mapM asStr
  let ts ← (v.field "ts").bind asStr
  return { cycle_id, text, signals_count, skills_read, ts }

def ContextFlag.ofJson (v : Json) : Option ContextFlag := do
  let key ← (v.field "key").bind asStr
  let value ← (v.field "value").bind FlagValue.ofJson
  let set_at ← (v.field "set_at").bind asStr
  let set_by ← (v.field "set_by").bind SetBy.ofJson
  return { key, value, set_at, set_by, note := (v.field "note").bind asStr }

/-- The information about a symbol that was read. -/
def SignalInfo.ofJson (v : Json) : Option SignalInfo := do
  let last_action ← (v.field "last_action").bind asStr
  let last_ts ← (v.field "last_ts").bind asStr
  let count ← (v.field "count").bind asCount
  return { last_action, last_ts, count }

/-- An entry of the summary that was read. -/
def entryOfJson (f : String × Json) : Option (String × SignalInfo) :=
  (SignalInfo.ofJson f.2).map fun i => (f.1, i)

/-- `JSON.parse(raw) as ContextMemory`, for the shape that is written. -/
def ContextMemory.ofJson (v : Json) : Option ContextMemory := do
  let last_updated ← (v.field "last_updated").bind asStr
  let observations ← (v.field "observations").bind asArr
  let observations ← observations.mapM Observation.ofJson
  let flags ← (v.field "flags").bind asArr
  let flags ← flags.mapM ContextFlag.ofJson
  let signal_summary ← (v.field "signal_summary").bind asObj
  let signal_summary ← signal_summary.mapM entryOfJson
  return { last_updated, observations, flags, signal_summary }

/-! ## The operations

An operation on a memory gives the memory that is saved, and the arrays that it was given as they
are afterwards. -/

/-- An observation without its time. -/
structure NewObservation where
  cycle_id : String
  text : String
  signals_count : Number
  skills_read : List String

def NewObservation.at (o : NewObservation) (ts : String) : Observation :=
  { cycle_id := o.cycle_id, text := o.text, signals_count := o.signals_count,
    skills_read := o.skills_read, ts }

/-- `appendObservation`: `unshift` changes the array, `slice` makes a new one. -/
def appendObservation (obs : NewObservation) (now : String) (mem : ContextMemory) :
    ContextMemory × ContextMemory :=
  let grown := obs.at now :: mem.observations
  ({ mem with observations :=
      if grown.length > MAX_OBSERVATIONS then grown.take MAX_OBSERVATIONS else grown },
    { mem with observations := grown })

/-- `summary[symbol] = info`; a key that exists keeps its place. -/
def Summary.set (summary : Summary) (symbol : String) (info : SignalInfo) : Summary :=
  if summary.any fun e => e.1 = symbol then
    summary.map fun e => if e.1 = symbol then (symbol, info) else e
  else summary ++ [(symbol, info)]

/-- `summary[symbol]`. -/
def Summary.get? (summary : Summary) (symbol : String) : Option SignalInfo :=
  (summary.find? fun e => e.1 = symbol).map Prod.snd

/-- `trackSignal`: an assignment to `__proto__` sets no field. -/
def trackSignal (symbol action now : String) (mem : ContextMemory) :
    ContextMemory × ContextMemory :=
  if symbol = "__proto__" then (mem, mem)
  else
    let count := ((mem.signal_summary.get? symbol).map SignalInfo.count).getD 0 + 1
    let mem := { mem with signal_summary := mem.signal_summary.set symbol ⟨action, now, count⟩ }
    (mem, mem)

/-- `setFlag`: a flag that exists is replaced in the array. -/
def setFlag (flag : ContextFlag) (mem : ContextMemory) : ContextMemory × ContextMemory :=
  match mem.flags.findIdx? fun f => f.key = flag.key with
  | some existing =>
    let mem := { mem with flags := mem.flags.set existing flag }
    (mem, mem)
  | none =>
    let grown := flag :: mem.flags
    ({ mem with flags := if grown.length > MAX_FLAGS then grown.take MAX_FLAGS else grown },
      { mem with flags := grown })

/-- `deleteFlag`: `filter` makes a new array. -/
def deleteFlag (key : String) (mem : ContextMemory) : ContextMemory × ContextMemory :=
  ({ mem with flags := mem.flags.filter fun f => f.key ≠ key }, mem)

/-! ## The process -/

/-- The arrays of `EMPTY_MEMORY` in this process, and the stored text. -/
structure Process where
  defaults : ContextMemory
  stored : Option String

/-- What is called. -/
inductive Op where
  | appendObservation (obs : NewObservation)
  | trackSignal (symbol action : String)
  | setFlag (key : String) (value : FlagValue) (setBy : SetBy) (note : Option String)
  | deleteFlag (key : String)
  | reset
  | restart

/-- A call, with the two times that it reads. -/
structure Call where
  op : Op
  now : String
  saved : String

section Process

variable (numeral : Number → String)

/-- `JSON.parse(raw)` of a stored text; a text that cannot be read counts as none. -/
def readText (raw : String) : Option ContextMemory :=
  if raw = "" then none else (Json.parse raw).bind ContextMemory.ofJson

/-- `JSON.stringify(mem)`. -/
def writeText (mem : ContextMemory) : String := Json.stringify numeral mem.toJson

/-- `get`: `{ ...EMPTY_MEMORY }` has the arrays of the module. -/
def Process.get (s : Process) : ContextMemory := (s.stored.bind readText).getD s.defaults

/-- A call that reads the memory, changes it and saves it. -/
def Process.update (s : Process) (saved : String)
    (change : ContextMemory → ContextMemory × ContextMemory) : Process :=
  { defaults := if (s.stored.bind readText).isNone then (change s.get).2 else s.defaults
    stored := some (writeText numeral { (change s.get).1 with last_updated := saved }) }

/-- **One call.** -/
def Process.step (s : Process) (c : Call) : Process :=
  match c.op with
  | .appendObservation obs => s.update numeral c.saved (Memory.appendObservation obs c.now)
  | .trackSignal symbol action => s.update numeral c.saved (Memory.trackSignal symbol action c.now)
  | .setFlag key value setBy note =>
    s.update numeral c.saved (Memory.setFlag ⟨key, value, c.now, setBy, note⟩)
  | .deleteFlag key => s.update numeral c.saved (Memory.deleteFlag key)
  | .reset => { s with stored := none }
  | .restart => { s with defaults := EMPTY_MEMORY }

def Process.run (s : Process) (calls : List Call) : Process := calls.foldl (·.step numeral) s

end Process

/-- A process with nothing stored. -/
def fresh : Process := ⟨EMPTY_MEMORY, none⟩

/-! ## Reading what was written -/

section Text

variable {numeral : Number → String}

theorem Observation.clear {o : Observation} (h : Readable numeral o.signals_count) :
    Clear numeral o.toJson := by
  apply clear_obj (by simp)
  simp only [List.forall_mem_cons]
  refine ⟨clear_str _, clear_str _, clear_num h, clear_arr fun v hv => ?_, clear_str _, by simp⟩
  obtain ⟨s, -, rfl⟩ := List.mem_map.mp hv
  exact clear_str s

theorem Observation.ofJson_toJson (o : Observation) : ofJson o.toJson = some o := by
  have hskills : (o.skills_read.map Json.str).mapM asStr = some o.skills_read :=
    mapM_eq_some fun s _ => rfl
  simp [ofJson, toJson, Json.field, asStr, asNum, asArr, hskills]

theorem FlagValue.clear {v : FlagValue} (h : ∀ x, v = .number x → Readable numeral x) :
    Clear numeral v.toJson := by
  cases v with
  | text s => exact clear_str s
  | number x => exact clear_num (h x rfl)
  | bool b => exact clear_bool b

theorem ContextFlag.clear {f : ContextFlag} (h : ∀ x, f.value = .number x → Readable numeral x) :
    Clear numeral f.toJson := by
  cases hnote : f.note with
  | none =>
    rw [toJson, hnote]
    apply clear_obj (by simp [noteField])
    simp only [noteField, Option.map_none, Option.toList_none, List.append_nil,
      List.forall_mem_cons]
    refine ⟨clear_str _, FlagValue.clear h, clear_str _, ?_, by simp⟩
    cases f.set_by <;> exact clear_str _
  | some note =>
    rw [toJson, hnote]
    apply clear_obj (by simp [noteField])
    simp only [noteField, Option.map_some, Option.toList_some, List.cons_append, List.nil_append,
      List.forall_mem_cons]
    refine ⟨clear_str _, FlagValue.clear h, clear_str _, ?_, clear_str _, by simp⟩
    cases f.set_by <;> exact clear_str _

theorem FlagValue.ofJson_toJson (v : FlagValue) : ofJson v.toJson = some v := by
  cases v <;> rfl

theorem SetBy.ofJson_toJson (v : SetBy) : ofJson v.toJson = some v := by
  cases v <;> rfl

theorem ContextFlag.ofJson_toJson (f : ContextFlag) : ofJson f.toJson = some f := by
  obtain ⟨key, value, set_at, set_by, note⟩ := f
  have hvalue := FlagValue.ofJson_toJson value
  have hset := SetBy.ofJson_toJson set_by
  cases note <;>
    simp [ofJson, toJson, noteField, Json.field, asStr, hvalue, hset]

theorem SignalInfo.clear {i : SignalInfo} (h : Readable numeral (.fin i.count)) :
    Clear numeral i.toJson := by
  apply clear_obj (by simp)
  simp only [List.forall_mem_cons]
  exact ⟨clear_str _, clear_str _, clear_num h, by simp⟩

theorem SignalInfo.ofJson_toJson (i : SignalInfo) : ofJson i.toJson = some i := by
  simp [ofJson, toJson, Json.field, asStr, asCount]

/-- A memory whose text reads back. -/
structure Writable (numeral : Number → String) (mem : ContextMemory) : Prop where
  observations : ∀ o ∈ mem.observations, Readable numeral o.signals_count
  flags : ∀ f ∈ mem.flags, ∀ x, f.value = .number x → Readable numeral x
  symbols : (mem.signal_summary.map Prod.fst).Nodup
  counts : ∀ e ∈ mem.signal_summary, Readable numeral (.fin e.2.count)

theorem Writable.clear {mem : ContextMemory} (h : Writable numeral mem) :
    Clear numeral mem.toJson := by
  apply clear_obj (by simp)
  simp only [List.forall_mem_cons]
  refine ⟨clear_str _, clear_arr fun v hv => ?_, clear_arr fun v hv => ?_,
    clear_obj ?_ fun f hf => ?_, by simp⟩
  · obtain ⟨o, ho, rfl⟩ := List.mem_map.mp hv
    exact Observation.clear (h.observations o ho)
  · obtain ⟨f, hf, rfl⟩ := List.mem_map.mp hv
    exact ContextFlag.clear (h.flags f hf)
  · simpa [Function.comp_def] using h.symbols
  · obtain ⟨e, he, rfl⟩ := List.mem_map.mp hf
    exact SignalInfo.clear (h.counts e he)

theorem ContextMemory.ofJson_toJson (mem : ContextMemory) : ofJson mem.toJson = some mem := by
  have hobs : (mem.observations.map (·.toJson)).mapM Observation.ofJson = some mem.observations :=
    mapM_eq_some fun o _ => o.ofJson_toJson
  have hflags : (mem.flags.map (·.toJson)).mapM ContextFlag.ofJson = some mem.flags :=
    mapM_eq_some fun f _ => f.ofJson_toJson
  have hsummary : (mem.signal_summary.map fun e => (e.1, e.2.toJson)).mapM entryOfJson
      = some mem.signal_summary :=
    mapM_eq_some fun e _ => by simp [entryOfJson, e.2.ofJson_toJson]
  simp [ofJson, toJson, Json.field, asStr, asArr, asObj, hobs, hflags, hsummary]

/-- **A stored memory reads back.** -/
theorem read_write {mem : ContextMemory} (h : Writable numeral mem) :
    readText (writeText numeral mem) = some mem := by
  have hparse := Json.parse_clear h.clear
  have hne : Json.stringify numeral mem.toJson ≠ "" := by
    intro hempty
    rw [hempty] at hparse
    cases hparse
  rw [readText, writeText, if_neg hne, hparse]
  exact mem.ofJson_toJson

end Text

/-! ## The summary -/

theorem Summary.get?_set (summary : Summary) (symbol symbol' : String) (info : SignalInfo) :
    (summary.set symbol info).get? symbol'
      = if symbol' = symbol then some info else summary.get? symbol' := by
  rw [set]
  by_cases hany : (summary.any fun e => e.1 = symbol) = true
  · have hkeys : ((fun e => decide (e.1 = symbol')) ∘ fun e : String × SignalInfo =>
        if e.1 = symbol then (symbol, info) else e) = fun e => decide (e.1 = symbol') := by
      funext e
      by_cases he : e.1 = symbol <;> simp [he]
    rw [if_pos hany, get?, List.find?_map, hkeys]
    by_cases h : symbol' = symbol
    · subst h
      obtain ⟨e, he, hsym⟩ := List.any_eq_true.mp hany
      obtain ⟨e', he'⟩ := Option.isSome_iff_exists.mp
        (List.find?_isSome (p := fun e : String × SignalInfo => e.1 = symbol') |>.mpr ⟨e, he, hsym⟩)
      have hsym' : e'.1 = symbol' := by simpa using List.find?_some he'
      rw [he', if_pos rfl]
      simp [hsym']
    · rw [if_neg h, get?]
      cases hfind : summary.find? fun e => e.1 = symbol' with
      | none => rfl
      | some e =>
        have hsym : e.1 = symbol' := by simpa using List.find?_some hfind
        simp [hsym, h]
  · rw [if_neg hany, get?, List.find?_append, get?]
    have hnone : summary.find? (fun e => e.1 = symbol) = none := by
      rw [List.find?_eq_none]
      intro e he hsym
      exact hany (List.any_eq_true.mpr ⟨e, he, hsym⟩)
    by_cases h : symbol' = symbol
    · subst h
      rw [hnone, if_pos rfl]
      simp
    · rw [if_neg h]
      simp [Ne.symm h]

theorem Summary.mem_set {summary : Summary} {symbol : String} {info : SignalInfo}
    {e : String × SignalInfo} (h : e ∈ summary.set symbol info) :
    e = (symbol, info) ∨ e ∈ summary := by
  rw [set] at h
  split_ifs at h with hany
  · obtain ⟨e', he', rfl⟩ := List.mem_map.mp h
    by_cases hsym : e'.1 = symbol
    · exact Or.inl (if_pos hsym)
    · rw [if_neg hsym]
      exact Or.inr he'
  · rcases List.mem_append.mp h with h | h
    · exact Or.inr h
    · exact Or.inl (List.mem_singleton.mp h)

theorem Summary.nodup_set {summary : Summary} (h : (summary.map Prod.fst).Nodup) (symbol : String)
    (info : SignalInfo) : ((summary.set symbol info).map Prod.fst).Nodup := by
  rw [set]
  split_ifs with hany
  · have hkeys : (Prod.fst ∘ fun e : String × SignalInfo =>
        if e.1 = symbol then (symbol, info) else e) = Prod.fst := by
      funext e
      by_cases he : e.1 = symbol <;> simp [he]
    rw [List.map_map, hkeys]
    exact h
  · rw [List.map_append, List.nodup_append]
    refine ⟨h, List.nodup_singleton _, ?_⟩
    intro a ha b hb hab
    obtain ⟨e, he, rfl⟩ := List.mem_map.mp ha
    rw [List.map_singleton, List.mem_singleton] at hb
    exact hany (List.any_eq_true.mpr ⟨e, he, decide_eq_true (hab.trans hb)⟩)

/-! ## What the past leaves -/

/-- The calls since the latest reset, after one more call. -/
def Call.extend (past : List Call) (c : Call) : List Call :=
  match c.op with
  | .reset => []
  | _ => past ++ [c]

def sinceReset (calls : List Call) : List Call := calls.foldl Call.extend []

def Call.observation? (c : Call) : Option Observation :=
  match c.op with
  | .appendObservation obs => some (obs.at c.now)
  | _ => none

def Call.flag? (c : Call) : Option (BoundedLog.Event ContextFlag String) :=
  match c.op with
  | .setFlag key value setBy note => some (.set ⟨key, value, c.now, setBy, note⟩)
  | .deleteFlag key => some (.drop key)
  | _ => none

/-- The action that a call tracks for a symbol, and when. -/
def Call.signal? (symbol : String) (c : Call) : Option (String × String) :=
  match c.op with
  | .trackSignal s action => if s = symbol then some (action, c.now) else none
  | _ => none

def flagEvents (past : List Call) : List (BoundedLog.Event ContextFlag String) :=
  past.filterMap Call.flag?

/-- The signals of a symbol in the past. -/
def signals (past : List Call) (symbol : String) : List (String × String) :=
  past.filterMap (Call.signal? symbol)

/-- The last action of a symbol and the number of its signals. -/
def signalInfo (past : List Call) (symbol : String) : Option SignalInfo :=
  (signals past symbol).getLast?.map fun x => ⟨x.1, x.2, (signals past symbol).length⟩

/-- **A memory that holds what it should of the past**: the newest observations, newest first; of
each flag at most the latest value, and all of them while there is room; of each symbol the last
action and the number of signals. -/
structure Shows (past : List Call) (mem : ContextMemory) : Prop where
  observations :
    mem.observations = (past.filterMap Call.observation?).reverse.take MAX_OBSERVATIONS
  flags_nodup : (mem.flags.map ContextFlag.key).Nodup
  flags_le : mem.flags.length ≤ MAX_FLAGS
  flags_latest : ∀ f ∈ mem.flags,
    BoundedLog.latest ContextFlag.key (flagEvents past) f.key = some f
  flags_all : (BoundedLog.keysSet ContextFlag.key (flagEvents past)).length ≤ MAX_FLAGS →
    ∀ key f, BoundedLog.latest ContextFlag.key (flagEvents past) key = some f → f ∈ mem.flags
  signals : ∀ symbol, mem.signal_summary.get? symbol = signalInfo past symbol

/-- The memory as the replay of the past. -/
structure Holds (past : List Call) (mem : ContextMemory) : Prop where
  observations : mem.observations
    = (past.filterMap Call.observation?).foldl (BoundedLog.push MAX_OBSERVATIONS) []
  flags : mem.flags = BoundedLog.replay ContextFlag.key MAX_FLAGS (flagEvents past)
  signals : ∀ symbol, mem.signal_summary.get? symbol = signalInfo past symbol

theorem Holds.shows {past : List Call} {mem : ContextMemory} (h : Holds past mem) :
    Shows past mem where
  observations := by rw [h.observations, BoundedLog.foldl_push]
  flags_nodup := by
    rw [h.flags]
    exact BoundedLog.replay_nodup _
  flags_le := by
    rw [h.flags]
    exact BoundedLog.length_replay_le _
  flags_latest := by
    rw [h.flags]
    exact BoundedLog.latest_of_mem_replay _
  flags_all := by
    rw [h.flags]
    exact BoundedLog.mem_replay _
  signals := h.signals

theorem holds_empty : Holds [] EMPTY_MEMORY := ⟨rfl, rfl, fun _ => rfl⟩

theorem signalInfo_concat_none {past : List Call} {c : Call} {symbol : String}
    (h : c.signal? symbol = none) : signalInfo (past ++ [c]) symbol = signalInfo past symbol := by
  simp [signalInfo, signals, h]

theorem signalInfo_concat_some {past : List Call} {c : Call} {symbol : String}
    {x : String × String} (h : c.signal? symbol = some x) :
    signalInfo (past ++ [c]) symbol = some ⟨x.1, x.2, (signals past symbol).length + 1⟩ := by
  simp [signalInfo, signals, h]

theorem count_signalInfo (past : List Call) (symbol : String) :
    ((signalInfo past symbol).map SignalInfo.count).getD 0 = (signals past symbol).length := by
  rw [signalInfo]
  cases h : (signals past symbol).getLast? with
  | none => rw [List.getLast?_eq_none_iff.mp h]; rfl
  | some x => rfl

/-! ## What a call leaves -/

section Calls

variable {past : List Call} {mem : ContextMemory} {c : Call}

theorem Holds.other (h : Holds past mem) (hobs : c.observation? = none) (hflag : c.flag? = none)
    (hsignal : ∀ symbol, c.signal? symbol = none) : Holds (past ++ [c]) mem := by
  refine ⟨?_, ?_, fun symbol => ?_⟩
  · rw [h.observations, List.filterMap_append]
    simp [hobs]
  · rw [h.flags, flagEvents, flagEvents, List.filterMap_append]
    simp [hflag]
  · rw [h.signals, signalInfo_concat_none (hsignal symbol)]

/-- A memory that holds the past and can be written. -/
structure Fits (numeral : Number → String) (past : List Call) (mem : ContextMemory) : Prop where
  writable : Writable numeral mem
  holds : Holds past mem

variable {numeral : Number → String}

theorem Fits.saved (h : Fits numeral past mem) (saved : String) :
    Fits numeral past { mem with last_updated := saved } :=
  ⟨⟨h.writable.observations, h.writable.flags, h.writable.symbols, h.writable.counts⟩,
    ⟨h.holds.observations, h.holds.flags, h.holds.signals⟩⟩

theorem observations_appendObservation (obs : NewObservation) (now : String)
    (mem : ContextMemory) : (appendObservation obs now mem).1.observations
      = BoundedLog.push MAX_OBSERVATIONS mem.observations (obs.at now) := by
  show (if _ then _ else _) = (_ :: _).take _
  split_ifs with h
  · rfl
  · rw [List.take_of_length_le (not_lt.mp h)]

theorem Fits.append (h : Fits numeral past mem) {obs : NewObservation}
    (hop : c.op = .appendObservation obs) (hcount : Readable numeral obs.signals_count) :
    Fits numeral (past ++ [c]) (appendObservation obs c.now mem).1 := by
  have hobs := observations_appendObservation obs c.now mem
  refine ⟨⟨?_, h.writable.flags, h.writable.symbols, h.writable.counts⟩, ⟨?_, ?_, ?_⟩⟩
  · rw [hobs]
    intro o ho
    rcases BoundedLog.mem_of_mem_push ho with rfl | ho
    · exact hcount
    · exact h.writable.observations o ho
  · rw [hobs, h.holds.observations, List.filterMap_append]
    simp [Call.observation?, hop]
  · show mem.flags = _
    rw [h.holds.flags, flagEvents, flagEvents, List.filterMap_append]
    simp [Call.flag?, hop]
  · intro symbol
    show mem.signal_summary.get? symbol = _
    rw [h.holds.signals, signalInfo_concat_none (by rw [Call.signal?, hop])]

theorem flags_setFlag (flag : ContextFlag) (mem : ContextMemory) :
    (setFlag flag mem).1.flags = BoundedLog.upsert ContextFlag.key MAX_FLAGS mem.flags flag := by
  rw [setFlag, BoundedLog.upsert]
  cases mem.flags.findIdx? fun f => f.key = flag.key with
  | some existing => rfl
  | none =>
    show (if _ then _ else _) = (_ :: _).take _
    split_ifs with h
    · rfl
    · rw [List.take_of_length_le (not_lt.mp h)]

theorem setFlag_frame (flag : ContextFlag) (mem : ContextMemory) :
    (setFlag flag mem).1.observations = mem.observations ∧
      (setFlag flag mem).1.signal_summary = mem.signal_summary := by
  rw [setFlag]
  cases mem.flags.findIdx? fun f => f.key = flag.key with
  | some existing => exact ⟨rfl, rfl⟩
  | none => exact ⟨rfl, rfl⟩

theorem mem_upsert_flags {flags : List ContextFlag} {flag f : ContextFlag}
    (h : f ∈ BoundedLog.upsert ContextFlag.key MAX_FLAGS flags flag) : f = flag ∨ f ∈ flags := by
  obtain ⟨i, hi, -, heq⟩ | ⟨-, heq⟩ :=
    BoundedLog.upsert_cases ContextFlag.key MAX_FLAGS flags flag
  · rw [heq] at h
    exact (List.mem_or_eq_of_mem_set h).symm
  · rw [heq] at h
    exact BoundedLog.mem_of_mem_push h

theorem Fits.set (h : Fits numeral past mem) {key : String} {value : FlagValue} {setBy : SetBy}
    {note : Option String} (hop : c.op = .setFlag key value setBy note)
    (hvalue : ∀ x, value = .number x → Readable numeral x) :
    Fits numeral (past ++ [c]) (setFlag ⟨key, value, c.now, setBy, note⟩ mem).1 := by
  have hflags := flags_setFlag ⟨key, value, c.now, setBy, note⟩ mem
  obtain ⟨hobs, hsummary⟩ := setFlag_frame ⟨key, value, c.now, setBy, note⟩ mem
  refine ⟨⟨?_, ?_, ?_, ?_⟩, ⟨?_, ?_, ?_⟩⟩
  · rw [hobs]
    exact h.writable.observations
  · rw [hflags]
    intro f hf
    rcases mem_upsert_flags hf with rfl | hf
    · exact hvalue
    · exact h.writable.flags f hf
  · rw [hsummary]
    exact h.writable.symbols
  · rw [hsummary]
    exact h.writable.counts
  · rw [hobs, h.holds.observations, List.filterMap_append]
    simp [Call.observation?, hop]
  · have hevents : flagEvents (past ++ [c])
        = flagEvents past ++ [.set ⟨key, value, c.now, setBy, note⟩] := by
      simp [flagEvents, Call.flag?, hop]
    rw [hflags, h.holds.flags, hevents, BoundedLog.replay_concat]
    rfl
  · intro symbol
    rw [hsummary, h.holds.signals, signalInfo_concat_none (by rw [Call.signal?, hop])]

theorem Fits.delete (h : Fits numeral past mem) {key : String} (hop : c.op = .deleteFlag key) :
    Fits numeral (past ++ [c]) (deleteFlag key mem).1 := by
  refine ⟨⟨h.writable.observations, fun f hf => ?_, h.writable.symbols, h.writable.counts⟩,
    ⟨?_, ?_, ?_⟩⟩
  · exact h.writable.flags f (List.mem_filter.mp hf).1
  · show mem.observations = _
    rw [h.holds.observations, List.filterMap_append]
    simp [Call.observation?, hop]
  · have hevents : flagEvents (past ++ [c]) = flagEvents past ++ [.drop key] := by
      simp [flagEvents, Call.flag?, hop]
    show mem.flags.filter _ = _
    rw [h.holds.flags, hevents, BoundedLog.replay_concat]
    rfl
  · intro symbol
    show mem.signal_summary.get? symbol = _
    rw [h.holds.signals, signalInfo_concat_none (by rw [Call.signal?, hop])]

theorem Fits.track (h : Fits numeral past mem) {symbol action : String}
    (hop : c.op = .trackSignal symbol action) (hproto : symbol ≠ "__proto__")
    (hcounts : ∀ n ≤ past.length + 1, Readable numeral (.fin n)) :
    Fits numeral (past ++ [c]) (trackSignal symbol action c.now mem).1 := by
  rw [trackSignal, if_neg hproto]
  have hcount : ((mem.signal_summary.get? symbol).map SignalInfo.count).getD 0
      = (signals past symbol).length := by
    rw [h.holds.signals, count_signalInfo]
  refine ⟨⟨h.writable.observations, h.writable.flags, ?_, ?_⟩, ⟨?_, ?_, ?_⟩⟩
  · exact Summary.nodup_set h.writable.symbols _ _
  · intro e he
    rcases Summary.mem_set he with rfl | he
    · apply hcounts
      rw [hcount]
      exact Nat.succ_le_succ (List.length_filterMap_le _ _)
    · exact h.writable.counts e he
  · show mem.observations = _
    rw [h.holds.observations, List.filterMap_append]
    simp [Call.observation?, hop]
  · show mem.flags = _
    rw [h.holds.flags, flagEvents, flagEvents, List.filterMap_append]
    simp [Call.flag?, hop]
  · intro symbol'
    show Summary.get? (Summary.set _ _ _) symbol' = _
    rw [Summary.get?_set, hcount]
    by_cases hsym : symbol' = symbol
    · subst hsym
      rw [if_pos rfl, signalInfo_concat_some (x := (action, c.now))
        (by rw [Call.signal?, hop]; exact if_pos rfl)]
    · rw [if_neg hsym, h.holds.signals, signalInfo_concat_none
        (by rw [Call.signal?, hop]; exact if_neg (Ne.symm hsym))]

end Calls

/-! ## Runs -/

/-- The numbers of a call are finite, the symbol is not `__proto__`, and a reset finds the arrays of
the module empty: no call of this process has met a memory without text. -/
def Call.Clean (s : Process) (c : Call) : Prop :=
  match c.op with
  | .appendObservation obs => ∃ q, obs.signals_count = .fin q
  | .trackSignal symbol _ => symbol ≠ "__proto__"
  | .setFlag _ value _ _ => ∀ x, value = .number x → ∃ q, x = .fin q
  | .reset => s.defaults = EMPTY_MEMORY
  | _ => True

/-- Each call is clean in the state that it meets. -/
def CleanRun (numeral : Number → String) (s : Process) : List Call → Prop
  | [] => True
  | c :: calls => c.Clean s ∧ CleanRun numeral (s.step numeral c) calls

/-- The finite numbers of a call are printed so that they read back. -/
def Call.Printed (numeral : Number → String) (c : Call) : Prop :=
  match c.op with
  | .appendObservation obs =>
    ∀ q, obs.signals_count = .fin q → Json.Reads (numeral (.fin q)) q
  | .setFlag _ value _ _ => ∀ q, value = .number (.fin q) → Json.Reads (numeral (.fin q)) q
  | _ => True

section Run

variable {numeral : Number → String} {past : List Call} {s : Process} {c : Call}

/-- A process whose memory fits the past. -/
structure Inv (numeral : Number → String) (past : List Call) (s : Process) : Prop where
  fits : Fits numeral past s.get
  text : s.stored = none ∧ s.defaults = EMPTY_MEMORY ∨ s.stored = some (writeText numeral s.get)

theorem get_of_text {raw : String} {mem : ContextMemory} (h : s.stored = some raw)
    (hread : readText raw = some mem) : s.get = mem := by
  rw [Process.get, h, Option.bind_some, hread, Option.getD_some]

theorem get_of_none (h : s.stored = none) : s.get = s.defaults := by
  rw [Process.get, h, Option.bind_none, Option.getD_none]

theorem inv_update (saved : String) (change : ContextMemory → ContextMemory × ContextMemory)
    (hchange : Fits numeral (past ++ [c]) (change s.get).1) :
    Inv numeral (past ++ [c]) (s.update numeral saved change) := by
  have hfits := hchange.saved saved
  have hget := get_of_text (s := s.update numeral saved change) rfl (read_write hfits.writable)
  constructor
  · rw [hget]
    exact hfits
  · rw [hget]
    exact Or.inr rfl

theorem writable_empty : Writable numeral EMPTY_MEMORY :=
  ⟨fun _ h => absurd h List.not_mem_nil, fun _ h => absurd h List.not_mem_nil, List.nodup_nil,
    fun _ h => absurd h List.not_mem_nil⟩

theorem inv_fresh : Inv numeral [] fresh :=
  ⟨⟨writable_empty, holds_empty⟩, Or.inl ⟨rfl, rfl⟩⟩

/-- **One clean call.** -/
theorem inv_step (h : Inv numeral past s) (hclean : c.Clean s) (hprinted : c.Printed numeral)
    (hcounts : ∀ n ≤ past.length + 1, Readable numeral (.fin n)) :
    Inv numeral (Call.extend past c) (s.step numeral c) := by
  cases hop : c.op with
  | appendObservation obs =>
    rw [Call.Clean, hop] at hclean
    rw [Call.Printed, hop] at hprinted
    obtain ⟨q, hq⟩ := hclean
    rw [Call.extend, Process.step, hop]
    exact inv_update c.saved _ (h.fits.append hop ⟨q, hq, hprinted q hq⟩)
  | trackSignal symbol action =>
    rw [Call.Clean, hop] at hclean
    rw [Call.extend, Process.step, hop]
    exact inv_update c.saved _ (h.fits.track hop hclean hcounts)
  | setFlag key value setBy note =>
    rw [Call.Clean, hop] at hclean
    rw [Call.Printed, hop] at hprinted
    rw [Call.extend, Process.step, hop]
    refine inv_update c.saved _ (h.fits.set hop fun x hx => ?_)
    obtain ⟨q, rfl⟩ := hclean x hx
    exact ⟨q, rfl, hprinted q hx⟩
  | deleteFlag key =>
    rw [Call.extend, Process.step, hop]
    exact inv_update c.saved _ (h.fits.delete hop)
  | reset =>
    rw [Call.Clean, hop] at hclean
    rw [Call.extend, Process.step, hop]
    have hget : Process.get { s with stored := none } = EMPTY_MEMORY :=
      (get_of_none rfl).trans hclean
    refine ⟨?_, Or.inl ⟨rfl, hclean⟩⟩
    rw [hget]
    exact ⟨writable_empty, holds_empty⟩
  | restart =>
    rw [Call.extend, Process.step, hop]
    have hother : Fits numeral (past ++ [c]) s.get :=
      ⟨h.fits.writable, h.fits.holds.other (by rw [Call.observation?, hop])
        (by rw [Call.flag?, hop]) fun symbol => by rw [Call.signal?, hop]⟩
    have hget : Process.get { s with defaults := EMPTY_MEMORY } = s.get := by
      rcases h.text with ⟨hnone, hdefaults⟩ | htext
      · rw [get_of_none hnone, hdefaults]
        exact get_of_none hnone
      · exact get_of_text htext (read_write h.fits.writable)
    refine ⟨hget.symm ▸ hother, ?_⟩
    rcases h.text with ⟨hnone, -⟩ | htext
    · exact Or.inl ⟨hnone, rfl⟩
    · right
      rw [hget]
      exact htext

theorem length_extend_le (past : List Call) (c : Call) :
    (Call.extend past c).length ≤ past.length + 1 := by
  cases hop : c.op <;> simp [Call.extend, hop]

/-- **A run of clean calls.** -/
theorem inv_run (calls : List Call) : ∀ (past : List Call) (s : Process), Inv numeral past s →
    CleanRun numeral s calls → (∀ c ∈ calls, c.Printed numeral) →
    (∀ n ≤ past.length + calls.length, Readable numeral (.fin n)) →
    Inv numeral (calls.foldl Call.extend past) (s.run numeral calls) := by
  induction calls with
  | nil =>
    intro past s h _ _ _
    exact h
  | cons c calls ih =>
    intro past s h hclean hprinted hcounts
    rw [List.length_cons] at hcounts
    have hstep := inv_step h hclean.1 (hprinted c List.mem_cons_self)
      fun n hn => hcounts n (by omega)
    apply ih _ _ hstep hclean.2 fun c' hc' => hprinted c' (List.mem_cons_of_mem c hc')
    intro n hn
    have hlen := length_extend_le past c
    exact hcounts n (by omega)

end Run

/-- **The memory is a bounded log**, in every run of clean calls. -/
theorem get_shows {numeral : Number → String} {calls : List Call}
    (hclean : CleanRun numeral fresh calls) (hprinted : ∀ c ∈ calls, c.Printed numeral)
    (hcounts : ∀ n ≤ calls.length, Json.Reads (numeral (.fin n)) n) :
    Shows (sinceReset calls) (fresh.run numeral calls).get :=
  (inv_run calls [] fresh inv_fresh hclean hprinted
    fun n hn => ⟨n, rfl, hcounts n (by simpa using hn)⟩).fits.holds.shows

def digitText : Number → String
  | .fin q => toString q.num
  | _ => "null"

theorem reads_digit : ∀ n ≤ 4, Json.Reads (digitText (.fin (n : ℕ))) n := by
  intro n hn
  interval_cases n
  all_goals
    refine Json.reads_of_stop (by decide +kernel) (fun t c hc => ?_) (by decide +kernel)
    rcases hc with rfl | rfl | rfl <;> rfl

def seenOne : NewObservation := ⟨"c1", "quiet", 1, []⟩

/-- The process restarts between the first observation and a reset. -/
theorem get_shows_restart :
    Shows (sinceReset [⟨.appendObservation seenOne, "t1", "t2"⟩, ⟨.restart, "", ""⟩,
        ⟨.reset, "t3", "t3"⟩, ⟨.trackSignal "A" "buy", "t4", "t5"⟩])
      (fresh.run digitText [⟨.appendObservation seenOne, "t1", "t2"⟩, ⟨.restart, "", ""⟩,
        ⟨.reset, "t3", "t3"⟩, ⟨.trackSignal "A" "buy", "t4", "t5"⟩]).get := by
  apply get_shows
  · have hsymbol : "A" ≠ "__proto__" := by decide
    exact ⟨⟨1, rfl⟩, trivial, rfl, hsymbol, trivial⟩
  · simp only [List.forall_mem_cons]
    refine ⟨fun q hq => ?_, trivial, trivial, trivial, by simp⟩
    cases hq
    exact reads_digit 1 (by decide)
  · exact reads_digit

/-- A reset brings back the first observation of the process. -/
theorem reset_remembers :
    ¬ Shows (sinceReset [⟨.appendObservation seenOne, "t1", "t2"⟩, ⟨.reset, "t3", "t3"⟩])
      (fresh.run digitText
        [⟨.appendObservation seenOne, "t1", "t2"⟩, ⟨.reset, "t3", "t3"⟩]).get := by
  intro h
  have hget : (fresh.run digitText [⟨.appendObservation seenOne, "t1", "t2"⟩,
      ⟨.reset, "t3", "t3"⟩]).get.observations = [seenOne.at "t1"] := rfl
  have hnone := h.observations
  rw [hget] at hnone
  cases hnone

end Memory

end NeoTrader

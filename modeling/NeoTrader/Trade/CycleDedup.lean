import Mathlib.Data.List.Nodup
import NeoTrader.Trade.Decision

/-!
# One intent for each decision of a cycle

A cycle may emit the same decision more than once. Only the first intent of a cycle, symbol and action
is processed, and the later ones are recorded as duplicates.

* **`once_per_cycle`**: the property holds in every run whose lookups hold.
-/

namespace NeoTrader

open Js Await Prog Pool

/-! ## The property -/

/-- A call that records a decision, or decides on an intent. -/
inductive DeskCall
  | record (dto : IntentDto)
  | decide (c : DecisionCall)

def DeskCall.dto? : DeskCall → Option IntentDto
  | record dto => some dto
  | decide _ => none

def DeskCall.body : DeskCall → Trade Unit
  | record dto => recordIntent dto
  | decide c => c.body

abbrev DeskEvent : Type := Event tradeSig

/-- The world of a run, with its events. -/
abbrev DeskWorld : Type := World × List DeskEvent

abbrev DeskPool : Type := Pool tradeSig DeskCall DeskWorld

/-- A run of any calls, interleaved at their awaits. -/
abbrev DeskRun (G : Guard tradeSig DeskCall DeskWorld) (w : World) (P : DeskPool) : Prop :=
  Reaches tradeSem.traced DeskCall.body G ⟨(w, []), []⟩ P

/-- The intent is of this cycle, symbol and action. -/
def TradeIntent.decides (cycleId symbol : String) (action : TradeAction) (t : TradeIntent) : Bool :=
  t.cycleId = some cycleId ∧ t.symbol = symbol ∧ t.action = action

/-- **At most one intent of a cycle, symbol and action is not a duplicate.** -/
def OncePerCycle (w : World) : Prop :=
  ∀ cycleId symbol action, cycleId ≠ "" →
    w.intents.countP (fun t => t.decides cycleId symbol action && t.status ≠ .duplicate) ≤ 1

/-- The row that an event creates. -/
def creation : DeskEvent → Option (IntentCreate × TradeIntent)
  | ⟨.intentCreate d, .ok row⟩ => some (d, row)
  | _ => none

/-- What is created is what was decided. -/
def IntentDto.Made (dto : IntentDto) (d : IntentCreate) : Prop :=
  d.cycleId = dto.cycleId ∧ d.symbol = dto.symbol ∧
    TradeAction.ofString? dto.action = some d.action

/-- A recording that has ended has created one row, unless the decision is not valid or the database
has failed before. -/
def RecordsOnce (dto : IntentDto) (h : List DeskEvent) : Prop :=
  (∃ d row, h.filterMap creation = [(d, row)] ∧ dto.Made d) ∨
    h.filterMap creation = [] ∧
      ((∃ e, validateIntent dto = .error e) ∨ ∃ e ∈ h, e.2.isOk = false)

/-- What stays of a row: its id, and its cycle, symbol and action. -/
def TradeIntent.mark (t : TradeIntent) : String × Option String × String × TradeAction :=
  (t.id, t.cycleId, t.symbol, t.action)

/-- The row of an id is there, as it was created. -/
def RowStays (w : World) (id : String) (d : IntentCreate) : Prop :=
  (id, d.cycleId, d.symbol, d.action) ∈ w.intents.map TradeIntent.mark

/-- **Each recording leaves one row**, with an id of its own, and nothing else leaves any. -/
structure OneRowEach (w : World) (P : DeskPool) : Prop where
  ids : (P.world.1.intents.map TradeIntent.id).Nodup
  once : ∀ t ∈ P.threads, ∀ dto, t.call = .record dto → t.rest.finished = true →
    RecordsOnce dto t.hist
  stays : ∀ t ∈ P.threads, ∀ d row, (d, row) ∈ t.hist.filterMap creation →
    RowStays P.world.1 row.id d
  rows : P.world.1.intents.length =
    w.intents.length + (P.threads.map fun t => t.hist.countP fun e => (creation e).isSome).sum

/-- **The lookup still holds**: where it has found no intent of the cycle, symbol and action, there is
none when the row is created. -/
def LookupHolds : Guard tradeSig DeskCall DeskWorld := fun w _ t e =>
  ∀ d cycleId symbol action, e.1 = .intentCreate d → d.status ≠ .duplicate →
    (⟨.intentFindInCycle cycleId symbol action, .ok none⟩ : DeskEvent) ∈ t.hist →
    ∀ t ∈ w.1.intents, t.decides cycleId symbol action = false

/-! ## What a call awaits -/

def SeenPending (id : String) (h : List DeskEvent) : Prop :=
  ∃ t : TradeIntent, ⟨.intentFindUnique id, .ok (some t)⟩ ∈ h ∧ t.status = .pending

/-- The call has created the intent of an id, and not as a duplicate. -/
def CreatedOrdinary (id : String) (h : List DeskEvent) : Prop :=
  ∃ d row, (d, row) ∈ h.filterMap creation ∧ d.status ≠ .duplicate ∧ row.id = id

/-- **What a call awaits**: it creates a row for its decision, as a duplicate or after a lookup without
a result, and it updates an intent that was seen pending or is its own. -/
def DeskOp (call : DeskCall) (h : List DeskEvent) : TradeOp → Prop
  | .intentCreate d => ∃ dto, call = .record dto ∧ dto.Made d ∧ (d.status = .duplicate ∨
      ∀ cycleId, dto.cycleId = some cycleId → cycleId ≠ "" →
        (⟨.intentFindInCycle cycleId d.symbol d.action, .ok none⟩ : DeskEvent) ∈ h)
  | .intentUpdate id _ => SeenPending id h ∨ CreatedOrdinary id h
  | .orderTransaction _ _ _ _ _ => False
  | _ => True

theorem SeenPending.append {i : String} {h : List DeskEvent} (hs : SeenPending i h)
    (e : DeskEvent) : SeenPending i (h ++ [e]) :=
  hs.imp fun _ ht => ⟨List.mem_append_left _ ht.1, ht.2⟩

theorem DeskOp.of_quiet {call : DeskCall} {h : List DeskEvent} {op : TradeOp} (hq : op.quiet) :
    DeskOp call h op := by
  cases op with
  | intentCreate | intentUpdate | orderTransaction => exact absurd hq Bool.false_ne_true
  | _ => trivial

theorem creation_of_quiet {e : DeskEvent} (he : e.1.quiet) : creation e = none := by
  obtain ⟨op, r⟩ := e
  cases op with
  | intentCreate => exact absurd he Bool.false_ne_true
  | _ => rfl

theorem creation_of_decision {i : String} {h : List DeskEvent} {e : DeskEvent}
    (he : DecisionOp i h e.1) : creation e = none := by
  obtain ⟨op, r⟩ := e
  cases op with
  | intentCreate => exact absurd he id
  | _ => rfl

/-! ### Decisions -/

theorem wp_pendingIntent (call : DeskCall) (i verb : String) :
    (pendingIntent i verb).Wp (histSem tradeSig) (DeskOp call)
      (onOk fun _ h => SeenPending i h) [] := by
  refine wp_perform_bind.2 ⟨trivial, ?_⟩
  rintro (e | _ | t) h' rfl
  · trivial
  · trivial
  · show (if t.status = .pending then _ else _ : Trade TradeIntent).Wp _ _ _ _
    refine wp_ite (fun ht => ?_) fun _ => trivial
    exact ⟨t, List.mem_singleton_self _, ht⟩

theorem wp_decision {α : Type} {i verb : String} {c : DecisionCall} {f : TradeIntent → Trade α}
    (hop : (pendingIntent i verb >>= f).Wp (histSem tradeSig) (DecisionOp i) (fun _ _ => True) []) :
    (pendingIntent i verb >>= f).Wp (histSem tradeSig) (DeskOp (.decide c)) (fun _ _ => True) [] := by
  have hseen : (pendingIntent i verb >>= f).Wp (histSem tradeSig)
      (fun h op => DeskOp (.decide c) h op ∨ SeenPending i h) (fun _ _ => True) [] := by
    refine wp_bind_of (wp_mono (fun _ _ => Or.inl) (fun _ _ hr => hr)
      (wp_pendingIntent (.decide c) i verb)) (fun t h hs => ?_) fun _ _ _ => trivial
    exact Always.within (I := SeenPending i) (always_of_forall (fun _ _ => Or.inr) _)
      (fun _ e hs => hs.append e) hs
  refine wp_mono (fun h op hop => ?_) (fun _ _ _ => trivial) (wp_and hop hseen)
  obtain ⟨hop, hdesk | hseen⟩ := hop
  · exact hdesk
  · cases op with
    | intentCreate | orderTransaction => exact hop.elim
    | intentUpdate =>
      obtain ⟨rfl, -⟩ := hop
      exact .inl hseen
    | _ => trivial

theorem wp_decisionCall (c : DecisionCall) :
    c.body.Wp (histSem tradeSig) (DeskOp (.decide c)) (fun _ _ => True) [] := by
  have hop := decisionOp_body c
  cases c with
  | autoProcess id => exact wp_decision hop
  | approve id decidedBy => exact wp_decision hop
  | reject id decidedBy reason => exact wp_decision hop

/-! ### Recording -/

section Recording

variable {dto : IntentDto} {action : TradeAction} {confidence : ℚ}

theorem made_of_validate (hv : validateIntent dto = .ok (action, confidence)) :
    TradeAction.ofString? dto.action = some action := by
  unfold validateIntent at hv
  split at hv
  · cases hv
  · next a ha =>
    split at hv
    · split at hv
      · cases hv
      · cases hv
        exact ha
    · cases hv

def RowCreated (d : IntentCreate) (row : TradeIntent) (h : List DeskEvent) : Prop :=
  Untouched h ∧ h.filterMap creation = [(d, row)]

theorem filterMap_creation {h : List DeskEvent} {e : DeskEvent} (he : creation e = none) :
    (h ++ [e]).filterMap creation = h.filterMap creation := by
  rw [List.filterMap_append, List.filterMap_cons_none he, List.filterMap_nil, List.append_nil]

/-- **What follows the creation of a pending row.** -/
theorem wp_afterCreate {d : IntentCreate} {row : TradeIntent} {h : List DeskEvent}
    (hd : d.status ≠ .duplicate) (hh : RowCreated d row h) :
    (do let policy ← readExecutionPolicy
        if policy.autonomous then autoProcess row.id else return () : Trade Unit).Wp
      (histSem tradeSig) (DeskOp (.record dto)) (fun _ h => h.filterMap creation = [(d, row)]) h := by
  have hpolicy : readExecutionPolicy.Wp (histSem tradeSig) (DeskOp (.record dto))
      (fun _ => RowCreated d row) h := by
    refine wp_mono (fun _ _ hop => DeskOp.of_quiet hop.1) (fun _ _ hr => hr)
      (Always.carries (q := fun op : TradeOp => op.quiet) quiet_readExecutionPolicy
        (fun h e hh he => ?_) hh)
    exact ⟨lasts_untouched h e hh.1 (not_touches_of_quiet he),
      (filterMap_creation (creation_of_quiet he)).trans hh.2⟩
  refine wp_bind_of hpolicy (fun policy h hh => ?_) fun _ _ hh => hh.2
  refine wp_ite (fun _ => ?_) fun _ => hh.2
  refine wp_mono (fun h op hop => ?_) (fun _ _ hr => hr.2)
    (wp_carries (I := fun h => h.filterMap creation = [(d, row)])
      (decision_processIntent _ _ _ hh.1) (fun h e hh he => ?_) hh.2)
  · obtain ⟨hop, hcreated⟩ := hop
    cases op with
    | intentCreate | orderTransaction => exact hop.elim
    | intentUpdate =>
      obtain ⟨rfl, -⟩ := hop
      exact .inr ⟨d, row, by rw [hcreated]; exact List.mem_singleton_self _, hd, rfl⟩
    | _ => trivial
  · exact (filterMap_creation (creation_of_decision he)).trans hh

theorem failed_last (h : List DeskEvent) (op : TradeOp) (e : Err) :
    ∃ e' ∈ h ++ [(⟨op, .error e⟩ : DeskEvent)], e'.2.isOk = false :=
  ⟨_, List.mem_append_right h (List.mem_singleton_self _), rfl⟩

/-- What the outcome of the lookup says. -/
def Looked (dto : IntentDto) (action : TradeAction) (h : List DeskEvent) :
    Except Err (Option TradeIntent) → Prop
  | .ok (some _) => True
  | .ok none => ∀ cycleId, dto.cycleId = some cycleId → cycleId ≠ "" →
    (⟨.intentFindInCycle cycleId dto.symbol action, .ok none⟩ : DeskEvent) ∈ h
  | .error _ => ∃ e ∈ h, e.2.isOk = false

theorem wp_priorInCycle (dto : IntentDto) (action : TradeAction) :
    (priorInCycle dto action).Wp (histSem tradeSig) (DeskOp (.record dto)) (fun r h =>
      (Untouched h ∧ h.filterMap creation = []) ∧ Looked dto action h r) [] := by
  have hstart : Untouched [] ∧ ([] : List DeskEvent).filterMap creation = [] :=
    ⟨fun _ he => (List.not_mem_nil he).elim, rfl⟩
  unfold priorInCycle
  cases hcycle : dto.cycleId.filter (· ≠ "") with
  | none =>
    refine ⟨hstart, fun cycleId hid hne => ?_⟩
    rw [hid] at hcycle
    simp [hne] at hcycle
  | some cycleId =>
    have hid : dto.cycleId = some cycleId := by
      obtain ⟨h, -⟩ := Option.filter_eq_some_iff.1 hcycle
      exact h
    refine ⟨trivial, ?_⟩
    rintro r h' rfl
    have hlast := lasts_untouched [] ⟨.intentFindInCycle cycleId dto.symbol action, r⟩ hstart.1
      Bool.false_ne_true
    rcases r with e | _ | t
    · exact ⟨⟨hlast, rfl⟩, _, List.mem_singleton_self _, rfl⟩
    · refine ⟨⟨hlast, rfl⟩, fun cycleId' hid' _ => ?_⟩
      rw [hid] at hid'
      cases hid'
      exact List.mem_singleton_self _
    · exact ⟨⟨hlast, rfl⟩, trivial⟩

/-- **A recording creates one row.** -/
theorem wp_recordIntent (dto : IntentDto) :
    (recordIntent dto).Wp (histSem tradeSig) (DeskOp (.record dto))
      (fun _ => RecordsOnce dto) [] := by
  unfold recordIntent
  cases hv : validateIntent dto with
  | error e => exact .inr ⟨rfl, .inl ⟨e, hv⟩⟩
  | ok x =>
    obtain ⟨action, confidence⟩ := x
    have haction := made_of_validate hv
    show ((priorInCycle dto action >>= _ : Trade Unit)).Wp _ _ _ _
    refine wp_bind_of (wp_priorInCycle dto action) ?_ fun e h hh => .inr ⟨hh.1.2, .inr hh.2⟩
    rintro (_ | prior) h ⟨⟨huntouched, hnone⟩, hlookup⟩
    · -- nothing was found
      have hmade : dto.Made (dto.row action confidence) := ⟨rfl, rfl, haction⟩
      refine wp_perform_bind.2 ⟨⟨dto, rfl, hmade, .inr hlookup⟩, ?_⟩
      rintro (e | row) h' rfl
      · exact .inr ⟨(filterMap_creation rfl).trans hnone, .inr (failed_last _ _ _)⟩
      · have hrecorded : RowCreated (dto.row action confidence) row
            (h ++ [⟨.intentCreate (dto.row action confidence), .ok row⟩]) := by
          refine ⟨lasts_untouched _ _ huntouched Bool.false_ne_true, ?_⟩
          rw [List.filterMap_append, hnone]
          rfl
        exact wp_post (fun _ _ hh => .inl ⟨_, row, hh, hmade⟩) (wp_afterCreate nofun hrecorded)
    · -- an earlier intent was found
      have hmade : dto.Made (duplicateRow dto action confidence prior) := ⟨rfl, rfl, haction⟩
      refine wp_perform_bind.2 ⟨⟨dto, rfl, hmade, .inl rfl⟩, ?_⟩
      rintro (e | row) h' rfl
      · exact .inr ⟨(filterMap_creation rfl).trans hnone, .inr (failed_last _ _ _)⟩
      · refine .inl ⟨_, row, ?_, hmade⟩
        rw [List.filterMap_append, hnone]
        rfl

/-- What is known of a call that has ended. -/
def DeskEnd : DeskCall → Except Err Unit → List DeskEvent → Prop
  | .record dto, _, h => RecordsOnce dto h
  | .decide _, _, _ => True

/-- **What each call awaits**, whatever it is answered. -/
theorem wp_deskCall (call : DeskCall) :
    call.body.Wp (histSem tradeSig) (DeskOp call) (DeskEnd call) [] := by
  cases call with
  | record dto => exact wp_recordIntent dto
  | decide c => exact wp_decisionCall c

end Recording

/-! ## What a step does to the intents -/

def duplicateId (e : DeskEvent) : Option String :=
  (creation e).bind fun x => if x.1.status = .duplicate then some x.2.id else none

def duplicateIds (start : World) (events : List DeskEvent) : List String :=
  (start.intents.filter fun t => t.status = .duplicate).map TradeIntent.id ++
    events.filterMap duplicateId

theorem duplicateIds_snoc (start : World) (events : List DeskEvent) (e : DeskEvent) :
    duplicateIds start (events ++ [e]) = duplicateIds start events ++ (duplicateId e).toList := by
  rw [duplicateIds, List.filterMap_append, ← List.append_assoc]
  cases h : duplicateId e <;> simp [duplicateIds, h]

/-- What an event of the past still says. -/
def DeskKnown (start : World) (x : DeskWorld) : DeskEvent → Prop
  | ⟨.intentCreate d, .ok row⟩ =>
    RowStays x.1 row.id d ∧ (d.status ≠ .duplicate → row.id ∉ duplicateIds start x.2)
  | ⟨.intentFindUnique id, .ok (some t)⟩ => t.status = .pending →
    id ∈ x.1.intents.map TradeIntent.id ∧ id ∉ duplicateIds start x.2
  | _ => True

/-- **The rows that were not created as duplicates**: at most one of a cycle, symbol and action. -/
structure DeskInv (start : World) (x : DeskWorld) : Prop where
  ids : (x.1.intents.map TradeIntent.id).Nodup
  duplicates : ∀ t ∈ x.1.intents, t.id ∈ duplicateIds start x.2 → t.status = .duplicate
  there : ∀ i ∈ duplicateIds start x.2, i ∈ x.1.intents.map TradeIntent.id
  once : ∀ cycleId symbol action, cycleId ≠ "" → x.1.intents.countP (fun t =>
    t.decides cycleId symbol action && t.id ∉ duplicateIds start x.2) ≤ 1
  rows : x.1.intents.length =
    start.intents.length + x.2.countP fun e => (creation e).isSome
  known : ∀ e ∈ x.2, DeskKnown start x e

section Step

variable {start : World} {x x' : DeskWorld} {e : DeskEvent}

theorem map_id_of_marks {l l' : List TradeIntent}
    (h : l'.map TradeIntent.mark = l.map TradeIntent.mark) :
    l'.map TradeIntent.id = l.map TradeIntent.id := by
  have := congrArg (List.map Prod.fst) h
  rwa [List.map_map, List.map_map] at this

theorem countP_of_marks {l l' : List TradeIntent} {D : List String}
    (h : l'.map TradeIntent.mark = l.map TradeIntent.mark) (cycleId symbol : String)
    (action : TradeAction) :
    l'.countP (fun t => t.decides cycleId symbol action && t.id ∉ D) =
      l.countP fun t => t.decides cycleId symbol action && t.id ∉ D := by
  have := congrArg (List.countP fun m =>
    decide (m.2.1 = some cycleId ∧ m.2.2.1 = symbol ∧ m.2.2.2 = action) && decide (m.1 ∉ D)) h
  rw [List.countP_map, List.countP_map] at this
  exact this

theorem DeskInv.keep (hx : DeskInv start x) (htrace : x'.2 = x.2 ++ [e])
    (hnone : creation e = none)
    (hmarks : x'.1.intents.map TradeIntent.mark = x.1.intents.map TradeIntent.mark)
    (hduplicates : ∀ t ∈ x'.1.intents, t.id ∈ duplicateIds start x.2 → t.status = .duplicate)
    (hknown : DeskKnown start x e) : DeskInv start x' := by
  have hD : duplicateIds start x'.2 = duplicateIds start x.2 := by
    rw [htrace, duplicateIds_snoc, duplicateId, hnone]
    exact List.append_nil _
  have hids := map_id_of_marks hmarks
  have hstay : ∀ e, DeskKnown start x e → DeskKnown start x' e := by
    intro e he
    unfold DeskKnown RowStays at he ⊢
    rwa [hD, hids, hmarks]
  refine ⟨by rw [hids]; exact hx.ids, by rw [hD]; exact hduplicates, ?_, ?_, ?_, ?_⟩
  · rw [hD, hids]
    exact hx.there
  · intro cycleId symbol action hne
    rw [hD, countP_of_marks hmarks]
    exact hx.once cycleId symbol action hne
  · have hlength := congrArg List.length hmarks
    rw [List.length_map, List.length_map] at hlength
    rw [hlength, htrace, List.countP_append, hx.rows]
    simp [hnone]
  · rw [htrace]
    intro e' he'
    rcases List.mem_append.1 he' with he' | he'
    · exact hstay e' (hx.known e' he')
    · rw [List.mem_singleton.1 he']
      exact hstay e hknown

/-- **A step that creates a row.** -/
theorem DeskInv.create (hx : DeskInv start x) {d : IntentCreate} {row : TradeIntent}
    (htrace : x'.2 = x.2 ++ [⟨.intentCreate d, .ok row⟩])
    (hintents : x'.1.intents = x.1.intents ++ [row])
    (hfresh : row.id ∉ x.1.intents.map TradeIntent.id) (hstatus : row.status = d.status)
    (hrow : row.cycleId = d.cycleId ∧ row.symbol = d.symbol ∧ row.action = d.action)
    (hlookup : d.status ≠ .duplicate → ∀ cycleId, d.cycleId = some cycleId → cycleId ≠ "" →
      ∀ t ∈ x.1.intents, t.decides cycleId d.symbol d.action = false) : DeskInv start x' := by
  have hD : duplicateIds start x'.2 = duplicateIds start x.2 ++
      if d.status = .duplicate then [row.id] else [] := by
    rw [htrace, duplicateIds_snoc]
    by_cases hd : d.status = .duplicate <;> simp [duplicateId, creation, hd]
  have hold : ∀ i ∈ x.1.intents.map TradeIntent.id,
      (i ∈ duplicateIds start x'.2 ↔ i ∈ duplicateIds start x.2) := by
    intro i hi
    have hne : i ≠ row.id := fun h => hfresh (h ▸ hi)
    rw [hD]
    by_cases hd : d.status = .duplicate <;> simp [hd, hne]
  have hnew : row.id ∈ duplicateIds start x'.2 ↔ d.status = .duplicate := by
    have hnot : row.id ∉ duplicateIds start x.2 := fun h => hfresh (hx.there _ h)
    rw [hD]
    by_cases hd : d.status = .duplicate <;> simp [hd, hnot]
  have hstay : ∀ e, DeskKnown start x e → DeskKnown start x' e := by
    intro e he
    unfold DeskKnown RowStays at he ⊢
    rw [hintents, List.map_append, List.map_append]
    split at he
    · next d' row' =>
      have hid : row'.id ∈ x.1.intents.map TradeIntent.id := by
        obtain ⟨t, ht, hmark⟩ := List.mem_map.1 he.1
        exact List.mem_map.2 ⟨t, ht, congrArg Prod.fst hmark⟩
      exact ⟨List.mem_append_left _ he.1, fun hd => (hold _ hid).not.2 (he.2 hd)⟩
    · next i t =>
      intro ht
      obtain ⟨hid, hnot⟩ := he ht
      exact ⟨List.mem_append_left _ hid, (hold _ hid).not.2 hnot⟩
    · trivial
  refine ⟨?_, ?_, ?_, ?_, ?_, ?_⟩
  · rw [hintents, List.map_append]
    refine List.nodup_append.2 ⟨hx.ids, by simp, fun i hi j hj heq => hfresh ?_⟩
    have hj : j = row.id := by simpa using hj
    rwa [heq, hj] at hi
  · rw [hintents]
    intro t ht hdup
    rcases List.mem_append.1 ht with ht | ht
    · exact hx.duplicates t ht ((hold _ (List.mem_map_of_mem ht)).1 hdup)
    · rw [List.mem_singleton.1 ht] at hdup ⊢
      exact hstatus.trans (hnew.1 hdup)
  · rw [hintents, List.map_append, hD]
    intro i hi
    rcases List.mem_append.1 hi with hi | hi
    · exact List.mem_append_left _ (hx.there i hi)
    · refine List.mem_append_right _ ?_
      split_ifs at hi
      · exact hi
      · cases hi
  · intro cycleId symbol action hne
    have hcount : x.1.intents.countP (fun t =>
        t.decides cycleId symbol action && t.id ∉ duplicateIds start x'.2) ≤ 1 := by
      refine le_of_eq_of_le (List.countP_congr fun t ht => ?_) (hx.once cycleId symbol action hne)
      simp only [hold _ (List.mem_map_of_mem ht)]
    rw [hintents, List.countP_append, List.countP_singleton]
    by_cases hdecides : row.decides cycleId symbol action = true
    · by_cases hd : d.status = .duplicate
      · simpa [hnew.2 hd] using hcount
      · -- the lookup has found no intent of this cycle, symbol and action
        simp only [TradeIntent.decides, decide_eq_true_eq] at hdecides
        obtain ⟨hcycle, rfl, rfl⟩ := hdecides
        have hnone := hlookup hd cycleId (hrow.1.symm.trans hcycle) hne
        rw [← hrow.2.1, ← hrow.2.2] at hnone
        have hzero : x.1.intents.countP (fun t => t.decides cycleId row.symbol row.action &&
            t.id ∉ duplicateIds start x'.2) = 0 := by
          refine List.countP_eq_zero.2 fun t ht => ?_
          simp [hnone t ht]
        rw [hzero]
        split_ifs <;> omega
    · simpa [hdecides] using hcount
  · rw [hintents, htrace, List.length_append, List.countP_append, hx.rows]
    exact Nat.add_assoc _ _ _
  · rw [htrace]
    intro e' he'
    rcases List.mem_append.1 he' with he' | he'
    · exact hstay e' (hx.known e' he')
    · rw [List.mem_singleton.1 he']
      refine ⟨?_, hnew.not.2⟩
      rw [RowStays, hintents, List.map_append, ← hrow.1, ← hrow.2.1, ← hrow.2.2]
      exact List.mem_append_right _ (List.mem_singleton_self _)

theorem created_data {o : Oracle} {w w' : World} {d : IntentCreate} {row : TradeIntent}
    (h : handle o (.intentCreate d) w = (.ok row, w')) :
    row.cycleId = d.cycleId ∧ row.symbol = d.symbol ∧ row.action = d.action := by
  rcases db_cases h with ⟨-, e, he⟩ | ⟨row', hx, hrow⟩
  · cases he
  · cases hrow
    unfold World.createIntent at hx
    split_ifs at hx
    cases hx
    exact ⟨rfl, rfl, rfl⟩

theorem mem_ids_of_intent? {w : World} {i : String} {t : TradeIntent} (h : w.intent? i = some t) :
    t ∈ w.intents ∧ t.id = i :=
  ⟨List.mem_of_find?_eq_some h, by simpa using List.find?_some h⟩

theorem known_of_find {o : Oracle} (hx : DeskInv start x) {i : String}
    {r : Except Err (Option TradeIntent)} {w' : World}
    (h : handle o (.intentFindUnique i) x.1 = (r, w')) :
    DeskKnown start x ⟨.intentFindUnique i, r⟩ := by
  obtain ⟨-, hans⟩ := query_cases h
  rcases r with e | _ | t
  · trivial
  · trivial
  · intro hpending
    obtain ⟨ht, rfl⟩ := mem_ids_of_intent? (hans _ rfl).symm
    refine ⟨List.mem_map_of_mem ht, fun hdup => ?_⟩
    rw [hx.duplicates t ht hdup] at hpending
    cases hpending

theorem not_duplicate_of_update {i : String} {h : List DeskEvent} (hx : DeskInv start x)
    (hh : ∀ e ∈ h, e ∈ x.2) (hop : SeenPending i h ∨ CreatedOrdinary i h) :
    i ∉ duplicateIds start x.2 := by
  rcases hop with ⟨t, hmem, ht⟩ | ⟨d, row, hmem, hd, rfl⟩
  · exact (hx.known _ (hh _ hmem) ht).2
  · obtain ⟨e, he, hcreated⟩ := List.mem_filterMap.1 hmem
    have hknown := hx.known _ (hh _ he)
    unfold creation at hcreated
    split at hcreated
    · cases hcreated
      exact hknown.2 hd
    · cases hcreated

/-- **A step of a call** keeps the invariant, where the lookups hold. -/
theorem desk_step {t : Thread tradeSig DeskCall} {ts : List (Thread tradeSig DeskCall)}
    {op : TradeOp} {r : Except Err op.Ans} (hx : DeskInv start x) (hh : ∀ e ∈ t.hist, e ∈ x.2)
    (hop : DeskOp t.call t.hist op) (hlookup : LookupHolds x ts t ⟨op, r⟩)
    (hm : tradeSem.traced.rel op x r x') : DeskInv start x' := by
  obtain ⟨⟨o, -, ho⟩, htrace⟩ := hm
  have skip (hintents : x'.1.intents = x.1.intents) (hnone : creation ⟨op, r⟩ = none)
      (hknown : DeskKnown start x ⟨op, r⟩) : DeskInv start x' :=
    hx.keep htrace hnone (by rw [hintents]) (by rw [hintents]; exact hx.duplicates) hknown
  cases handle_tables ho with
  | frame hintents =>
    cases op with
    | intentCreate d =>
      rcases r with e | row
      · exact skip hintents rfl trivial
      · rcases db_cases ho with ⟨-, e, he⟩ | ⟨row', hcreate, -⟩
        · cases he
        · obtain ⟨-, -, -, hw⟩ := createIntent_cases hcreate
          rw [hw] at hintents
          exact absurd hintents (by simp)
    | intentFindUnique i => exact skip hintents rfl (known_of_find hx ho)
    | _ => exact skip hintents rfl trivial
  | orderCreate _ _ _ _ _ hintents | orderUpdate _ _ _ hintents | orderUpdateMany _ _ hintents =>
    exact skip hintents rfl trivial
  | orderTransaction => exact hop.elim
  | @intentUpdate i d t' _ hintents =>
    have hi := not_duplicate_of_update hx hh hop
    refine hx.keep htrace rfl ?_ ?_ trivial
    · rw [hintents]
      exact Store.map_modify fun _ => rfl
    · rw [hintents]
      refine Store.forall_modify (fun t ht hid hdup => ?_) fun t ht _ => hx.duplicates t ht
      rw [IntentPatch.apply_id, of_decide_eq_true hid] at hdup
      exact absurd hdup hi
  | @intentCreate d row hfresh hstatus hintents =>
    obtain ⟨dto, -, hmade, hop⟩ := hop
    refine hx.create htrace hintents (fun hid => ?_) hstatus (created_data ho) ?_
    · obtain ⟨t', ht', heq⟩ := List.mem_map.1 hid
      have hnot := List.find?_eq_none.1 hfresh t' ht'
      simp [heq] at hnot
    · intro hd cycleId hcycle hne
      rcases hop with hdup | hop
      · exact absurd hdup hd
      · exact hlookup d cycleId d.symbol d.action rfl hd
          (hop cycleId (hmade.1.symm.trans hcycle) hne)

end Step

/-! ## Runs -/

section Runs

variable {w : World} {P : DeskPool}

theorem deskInv_start (hids : (w.intents.map TradeIntent.id).Nodup) (honce : OncePerCycle w) :
    DeskInv w (w, []) := by
  have hmem : ∀ t ∈ w.intents, (t.id ∈ duplicateIds w [] ↔ t.status = .duplicate) := by
    intro t ht
    simp only [duplicateIds, List.filterMap_nil, List.append_nil, List.mem_map, List.mem_filter,
      decide_eq_true_eq]
    constructor
    · rintro ⟨t', ⟨ht', hdup⟩, hid⟩
      rwa [← List.inj_on_of_nodup_map hids ht' ht hid]
    · exact fun hdup => ⟨t, ⟨ht, hdup⟩, rfl⟩
  refine ⟨hids, fun t ht => (hmem t ht).1, fun i hi => ?_, ?_, rfl, by simp⟩
  · rw [duplicateIds, List.filterMap_nil, List.append_nil] at hi
    obtain ⟨t, ht, rfl⟩ := List.mem_map.1 hi
    exact List.mem_map_of_mem (List.mem_of_mem_filter ht)
  · intro cycleId symbol action hne
    refine le_of_eq_of_le (List.countP_congr fun t ht => ?_) (honce cycleId symbol action hne)
    simp only [hmem t ht]

theorem deskInv_of_run (hids : (w.intents.map TradeIntent.id).Nodup) (honce : OncePerCycle w)
    (hr : DeskRun LookupHolds w P) : DeskInv w P.world := by
  refine reaches_invariant (K := fun e x => e ∈ x.2)
    (fun call => wp_post (fun _ _ _ => trivial) (wp_deskCall call)) ?_ (deskInv_start hids honce) hr
  intro x x' ts t op r hx hh hop hlookup hm
  refine ⟨desk_step hx hh hop hlookup hm, ?_, fun e he => ?_⟩ <;> rw [hm.2]
  · exact List.mem_append_right _ (List.mem_singleton_self _)
  · exact List.mem_append_left _ he

/-- **One intent for each decision of a cycle.** In every run whose lookups hold, a cycle, symbol and
action has at most one intent that is not a duplicate, and each recording leaves one row. -/
theorem once_per_cycle (hids : (w.intents.map TradeIntent.id).Nodup) (honce : OncePerCycle w)
    (hr : DeskRun LookupHolds w P) : OncePerCycle P.world.1 ∧ OneRowEach w P := by
  have hinv := deskInv_of_run hids honce hr
  refine ⟨fun cycleId symbol action hne => ?_, hinv.ids, ?_, ?_, ?_⟩
  · refine (List.countP_mono_left fun t ht => ?_).trans (hinv.once cycleId symbol action hne)
    have hdup := hinv.duplicates t ht
    simp only [Bool.and_eq_true, decide_eq_true_eq]
    exact fun h => ⟨h.1, fun hid => h.2 (hdup hid)⟩
  · intro t ht dto hcall hfinished
    obtain ⟨r, hend⟩ := wp_finished hfinished (reaches_sound wp_deskCall hr t ht).2
    rw [hcall] at hend
    exact hend
  · intro t ht d row hmem
    obtain ⟨e, he, hcreated⟩ := List.mem_filterMap.1 hmem
    have hknown := hinv.known e (reaches_mem_trace hr t ht e he)
    unfold creation at hcreated
    split at hcreated
    · cases hcreated
      exact hknown.1
    · cases hcreated
  · rw [hinv.rows, reaches_countP _ hr]

end Runs

/-! ## Two schedules -/

def lookupCheck : Check tradeSig DeskCall DeskWorld := fun w _ t e =>
  match e.1 with
  | .intentCreate d => d.status = .duplicate || t.hist.all fun
    | ⟨.intentFindInCycle cycleId symbol action, .ok none⟩ =>
      w.1.intents.all fun t => !t.decides cycleId symbol action
    | _ => true
  | _ => true

theorem lookupHolds_of_check {w : DeskWorld} {ts : List (Thread tradeSig DeskCall)}
    {t : Thread tradeSig DeskCall} {e : DeskEvent} (h : lookupCheck w ts t e = true) :
    LookupHolds w ts t e := by
  obtain ⟨op, r⟩ := e
  rintro d cycleId symbol action (rfl : op = _) hd hmem t' ht'
  rcases Bool.or_eq_true_iff.1 h with hdup | hall
  · exact absurd (of_decide_eq_true hdup) hd
  · have hnone := List.all_eq_true.1 (List.all_eq_true.1 hall _ hmem) t' ht'
    simpa using hnone

def cycleDecision : IntentDto :=
  { cycleId := some "cycle-1", symbol := "EEM", action := "long", confidence := .fin (1 / 2)
    rationale := "", timeframe := none }

def emptyDesk : World := { kv := fun _ => none }

/-- A schedule of recordings; each operation meets its own fresh id. -/
def recordings (check : Check tradeSig DeskCall DeskWorld) (moves : List (ℕ × String)) :
    Option DeskPool :=
  replay (fun o => Sem.recording (handle o)) DeskCall.body check
    (.start (.record cycleDecision) :: .start (.record cycleDecision) ::
      moves.map fun m => .await m.1 { newId := m.2 }) ⟨(emptyDesk, []), []⟩

def recordedInTurn : Option DeskPool :=
  recordings lookupCheck [(0, ""), (0, "intent-1"), (1, ""), (1, "intent-2")]

theorem recordedInTurn_isSome : recordedInTurn.isSome := by decide +kernel

def afterRecordings : DeskPool := recordedInTurn.get recordedInTurn_isSome

/-- The second recording is a duplicate. -/
theorem once_per_cycle_inTurn :
    OncePerCycle afterRecordings.world.1 ∧ OneRowEach emptyDesk afterRecordings :=
  once_per_cycle (w := emptyDesk) List.nodup_nil (fun _ _ _ _ => Nat.zero_le _)
    (traced_of_replay (fun _ _ _ _ hc => lookupHolds_of_check hc)
      (Option.some_get recordedInTurn_isSome).symm)

def recordedAtOnce : Option DeskPool :=
  recordings unchecked [(0, ""), (1, ""), (0, "intent-1"), (1, "intent-2")]

theorem recordedAtOnce_pending :
    (recordedAtOnce.map fun P => (P.threads.all fun t => t.call.dto?.isSome,
      P.world.1.intents.countP fun t =>
        t.decides "cycle-1" "EEM" .long && t.status ≠ .duplicate)) = some (true, 2) := by
  decide +kernel

/-- **Both intents are pending.** -/
theorem recorded_twice : ¬ ∀ (w : World) (P : DeskPool),
    (w.intents.map TradeIntent.id).Nodup → OncePerCycle w → DeskRun free w P →
    (∀ t ∈ P.threads, t.call.dto?.isSome) → OncePerCycle P.world.1 ∧ OneRowEach w P := by
  intro hall
  obtain ⟨P, hP, heq⟩ := Option.map_eq_some_iff.1 recordedAtOnce_pending
  simp only [Prod.mk.injEq, List.all_eq_true] at heq
  obtain ⟨hcalls, htwo⟩ := heq
  have honce := (hall emptyDesk P List.nodup_nil (fun _ _ _ _ => Nat.zero_le _)
    (traced_of_replay (fun _ _ _ _ _ => trivial) hP) hcalls).1 "cycle-1" "EEM" .long (by decide)
  omega

end NeoTrader

import NeoTrader.Common.Provenance
import NeoTrader.Cycle.VetoedShown
import NeoTrader.Js.Parse

/-!
# The attribution of the veto ledger

After the disciplines, the ledger writes one row for each proposed signal: it looks the proposal up
in the final list, by symbol and source, or else by symbol alone, and compares.

* **`honest_iff`**: the ledger is honest exactly where the final list is attributable.
-/

namespace NeoTrader.Ledger

open Js Provenance

/-! ## The data of a row -/

/-- What is written of one proposal. -/
structure VetoDecisionCreateInput extends VetoDecision where
  cycleId : String
  signalConfidence : Option Number
  discipline : Option String
  rationale : Option String
  refPrice : Option Number
  regimeTags : Option String
  portfolioDrawdownPct : Option Number
  contextSnapshot : String

def isLineEnd (c : Char) : Bool := c = '\n' ∨ c = '\r' ∨ c = '\u2028' ∨ c = '\u2029'

/-- The text before the next closing bracket of the line. -/
def untilBracket : List Char → Option (List Char)
  | [] => none
  | c :: rest =>
    if c = ']' then some []
    else if isLineEnd c then none else (untilBracket rest).map (c :: ·)

/-- The tag of a reason, `[Name] ...`: a name has one character at least. -/
def reasonTag (reason : String) : Option String :=
  match reason.toList with
  | '[' :: c :: rest =>
    if isLineEnd c then none else (untilBracket rest).map fun w => String.ofList (c :: w)
  | _ => none

/-- The names that the reasons are tagged with, each of them once. -/
def extractVetoDisciplines (vetoReasons : List String) : Option String :=
  let names := (vetoReasons.filterMap reasonTag).eraseDups
  if names = [] then none else some (",".intercalate names)

example : extractVetoDisciplines ["[Risk Manager] cap", "cut", "[Risk Manager] stop", "[ML] no"] =
    some "Risk Manager,ML" := by decide

/-- The snapshot of a row: the proposal, its counterpart and the portfolio. -/
def contextSnapshot (numeral : Number → String) (vetoCtx : Obj) (sig : Json)
    (counterpart : Option Json) : String :=
  Json.stringify numeral (.obj [("signal", sig), ("match", counterpart.getD .null),
    ("market", .obj (["portfolio_value", "positions", "portfolio"].filterMap fun key =>
      (vetoCtx.get key).map fun v => (key, v)))])

/-- The data of the row of one proposal. -/
def vetoDecisionInput (numeral : Number → String) (cycleId : String) (proposals : List Json)
    (vetoCtx : Obj) (discipline rationale : Option String) (sig : Json) :
    Except Err VetoDecisionCreateInput := do
  let pending := vetoCtx.get "pending_signals"
  let row ← buildVetoDecisionData proposals pending sig
  let (counterpart, _) ← findVetoMatch (← approvedList pending) row.symbol row.sourcePlugin
  return { row with
    cycleId
    signalConfidence := numberField sig "confidence"
    discipline := if row.verdict = .approved then none else discipline
    rationale := if row.verdict = .approved then none else rationale
    refPrice := numberField (.obj vetoCtx) "ref_price"
    regimeTags := match vetoCtx.get "regime_tags" with
      | some (.arr l) => some (Json.stringify numeral (.arr l))
      | _ => none
    portfolioDrawdownPct := numberField (.obj vetoCtx) "portfolio_drawdown_pct"
    contextSnapshot := contextSnapshot numeral vetoCtx sig counterpart }

/-! ## The writes -/

/-- What is left of one proposal: its row, or the failure that is logged under its symbol. -/
inductive LedgerEntry
  | written (row : VetoDecisionCreateInput)
  | failed (symbol : Option Json) (error : Err)

/-- What the database and the audit answer to a write. -/
structure LedgerStore where
  create : VetoDecisionCreateInput → Option Err
  logFailure : Err → Option Err := fun _ => none

/-- The row of one proposal; a failure is logged, and the others go on. -/
def persistVetoDecision (store : LedgerStore) (sig : Json)
    (data : Except Err VetoDecisionCreateInput) : Except Err LedgerEntry :=
  let written := data >>= fun row => match store.create row with
    | none => .ok row
    | some e => .error e
  match written with
  | .ok row => .ok (.written row)
  | .error e => match store.logFailure e with
    | none => .ok (.failed (sig.field "symbol") e)
    | some e' => .error e'

/-- **The ledger of a cycle.** -/
def persistVetoDecisions (numeral : Number → String) (prisma : Option LedgerStore)
    (cycleId : String) (originalSignals : List Json) (vetoCtx : Obj) (vetoReasons : List String) :
    Except Err (List LedgerEntry) :=
  match prisma with
  | none => .ok []
  | some store =>
    let rationale := if vetoReasons = [] then none else some ("; ".intercalate vetoReasons)
    let discipline := extractVetoDisciplines vetoReasons
    originalSignals.mapM fun sig => persistVetoDecision store sig
      (vetoDecisionInput numeral cycleId originalSignals vetoCtx discipline rationale sig)

/-! ## What disciplines do to signals -/

abbrev symbolOf (sig : Obj) : String := proposedSymbol (.obj sig)
abbrev sourceOf (sig : Obj) : String := resolveSignalSource (.obj sig)
abbrev actionOf (sig : Obj) : String := (stringField (.obj sig) "action").getD ""
abbrev quantityOf (sig : Obj) : Option Number := extractEffectiveQty (.obj sig)

/-- A signal that is handed on: its symbol is kept, its source is kept or left out. -/
structure HandsOn (s s' : Obj) : Prop where
  symbol : stringField (.obj s') "symbol" = stringField (.obj s) "symbol"
  source : sourceOf s' = sourceOf s ∨ sourceOf s' = ""

/-- **A signal is cancelled or rescaled.** -/
inductive Reworks (s s' : Obj) : Prop
  | cancel (h : HandsOn s s') (haction : stringField (.obj s') "action" = some "cancelled")
  | rescale (h : HandsOn s s')
      (haction : stringField (.obj s') "action" = stringField (.obj s) "action")

/-- **Signals of one symbol are merged** into a signal with an action, of no source or of the source
of one of them. -/
structure Merges (group : List Obj) (s' : Obj) : Prop where
  symbol : ∀ s ∈ group, stringField (.obj s) "symbol" = stringField (.obj s') "symbol"
  source : sourceOf s' = "" ∨ ∃ s ∈ group, sourceOf s = sourceOf s'
  action : stringField (.obj s') "action" ≠ none

/-- A final list that is produced from the proposals. -/
abbrev Produced (proposals : List Obj) (final : List (Traced Obj)) : Prop :=
  Edits Reworks Merges (initially proposals) final

/-- The signals of a final list. -/
abbrev signals (final : List (Traced Obj)) : List Obj := final.map Traced.value

/-! ## The property -/

/-- A survivor is the proposal, unchanged: it stands, with the same action and quantity. -/
structure Unchanged (sig s : Obj) : Prop where
  stands : ¬ Cancelled (.obj s)
  action : actionOf s = actionOf sig
  quantity : knownEqual (quantityOf sig) (quantityOf s) = true

/-- The symbol of a signal, as it is looked up. -/
def hasSymbol (symbol : String) (s : Obj) : Bool := stringField (.obj s) "symbol" = some symbol

/-- The symbol and the source of a signal, as they are looked up. -/
def hasKey (symbol source : String) (s : Obj) : Bool :=
  stringField (.obj s) "symbol" = some symbol ∧ sourceOf s = source

/-- **The survivor that a proposal is matched to**, and if it is by symbol and source. -/
def foundAt (final : List Obj) (sig : Obj) : Option (ℕ × Bool) :=
  match final.findIdx? (hasKey (symbolOf sig) (sourceOf sig)) with
  | some p => some (p, true)
  | none => (final.findIdx? (hasSymbol (symbolOf sig))).map fun p => (p, false)

/-- A proposal is written down as `approved`, or as `modified` by an exact match, at a survivor. -/
def MatchedAt (proposals final : List Obj) (rows : List VetoDecision) (i p : ℕ) : Prop :=
  ∃ sig row exact, proposals[i]? = some sig ∧ rows[i]? = some row ∧
    foundAt final sig = some (p, exact) ∧
    (row.verdict = .approved ∨ row.verdict = .modified ∧ exact = true)

/-- **The ledger is honest**: one row for each proposal, `approved` where its own survivor is
unchanged; distinct proposals at distinct survivors. -/
structure Honest (proposals : List Obj) (final : List (Traced Obj)) (rows : List VetoDecision) :
    Prop where
  oneEach : rows.map (fun r => (r.symbol, r.sourcePlugin, r.proposedAction, r.proposedQty)) =
    proposals.map fun sig =>
      (symbolOf sig, sourceOf sig, actionOf sig, (numberField (.obj sig) "qty").getD 0)
  approved : ∀ (i : ℕ) sig row, proposals[i]? = some sig → rows[i]? = some row →
    row.verdict = .approved → ∃ s ∈ final, i ∈ s.origins ∧ Unchanged sig s.value
  distinct : ∀ i j p, MatchedAt proposals (signals final) rows i p →
    MatchedAt proposals (signals final) rows j p → i = j
  counted : rows.countP (fun r => r.verdict = .approved) ≤ final.length

/-! ## The condition -/

/-- A survivor reads as the proposal: it may name no action. -/
structure ReadsUnchanged (sig s : Obj) : Prop where
  stands : ¬ Cancelled (.obj s)
  action : (stringField (.obj s) "action").getD (actionOf sig) = actionOf sig
  quantity : knownEqual (quantityOf sig) (quantityOf s) = true

/-- **The final list is attributable**: no two proposals share a key that stands in it, none is
found under another's source, and one that names no source is not mistaken for another. -/
structure Attributable (proposals : List Obj) (final : List (Traced Obj)) : Prop where
  distinct : ∀ (i j : ℕ) sig sig' s, i ≠ j → proposals[i]? = some sig → proposals[j]? = some sig' →
    symbolOf sig = symbolOf sig' → sourceOf sig = sourceOf sig' →
    (signals final).find? (hasKey (symbolOf sig) (sourceOf sig)) = some s → Cancelled (.obj s)
  named : ∀ sig ∈ proposals, ∀ s,
    (signals final).find? (hasKey (symbolOf sig) (sourceOf sig)) = none →
    (signals final).find? (hasSymbol (symbolOf sig)) = some s → sourceOf s ≠ "" →
    ¬ ReadsUnchanged sig s
  unnamed : ∀ (i : ℕ) sig s, proposals[i]? = some sig → sourceOf sig = "" →
    (signals final).find? (hasKey (symbolOf sig) "") = some s → ReadsUnchanged sig s →
    ∃ t ∈ final, i ∈ t.origins ∧ Unchanged sig t.value

/-! ## The lookup -/

theorem findSignal_objs (p : Json → Bool) (l : List Obj) :
    findSignal p (l.map Json.obj) = .ok ((l.find? fun s => p (.obj s)).map Json.obj) := by
  induction l with
  | nil => rfl
  | cons s rest ih =>
    show (if p (.obj s) then .ok (some (.obj s)) else findSignal p (rest.map Json.obj)) = _
    rw [List.find?_cons, ih]
    cases p (.obj s) <;> rfl

section Lookup

variable {final : List Obj} {sig s : Obj} {p : ℕ}

theorem foundAt_exact_iff : foundAt final sig = some (p, true) ↔
    final.findIdx? (hasKey (symbolOf sig) (sourceOf sig)) = some p := by
  unfold foundAt
  cases final.findIdx? (hasKey (symbolOf sig) (sourceOf sig)) with
  | none => simp
  | some q => simp

theorem foundAt_fallback_iff : foundAt final sig = some (p, false) ↔
    final.findIdx? (hasKey (symbolOf sig) (sourceOf sig)) = none ∧
    final.findIdx? (hasSymbol (symbolOf sig)) = some p := by
  unfold foundAt
  cases final.findIdx? (hasKey (symbolOf sig) (sourceOf sig)) with
  | none => simp
  | some q => simp

theorem find?_of_findIdx? {f : Obj → Bool} (h : final.findIdx? f = some p)
    (hs : final[p]? = some s) : final.find? f = some s := by
  rw [List.find?_eq_bind_findIdx?_getElem?, h]
  exact hs

theorem findIdx?_of_find? {f : Obj → Bool} (h : final.find? f = some s) :
    ∃ p, final.findIdx? f = some p ∧ final[p]? = some s := by
  rw [List.find?_eq_bind_findIdx?_getElem?, Option.bind_eq_some_iff] at h
  exact h

theorem find?_none_of_findIdx? {f : Obj → Bool} (h : final.findIdx? f = none) :
    final.find? f = none := by
  rw [List.find?_eq_bind_findIdx?_getElem?, h]
  rfl

theorem symbol_of_foundAt {exact : Bool} (h : foundAt final sig = some (p, exact))
    (hs : final[p]? = some s) : stringField (.obj s) "symbol" = some (symbolOf sig) := by
  cases exact with
  | true =>
    have hkey := List.find?_some (find?_of_findIdx? (foundAt_exact_iff.1 h) hs)
    exact (of_decide_eq_true hkey).1
  | false =>
    have hsymbol := List.find?_some (find?_of_findIdx? (foundAt_fallback_iff.1 h).2 hs)
    exact of_decide_eq_true hsymbol

theorem source_of_foundAt (h : foundAt final sig = some (p, true)) (hs : final[p]? = some s) :
    sourceOf s = sourceOf sig := by
  have hkey := List.find?_some (find?_of_findIdx? (foundAt_exact_iff.1 h) hs)
  exact (of_decide_eq_true hkey).2

theorem exists_of_foundAt {exact : Bool} (h : foundAt final sig = some (p, exact)) :
    ∃ s, final[p]? = some s := by
  have hfound : ∃ f : Obj → Bool, final.findIdx? f = some p := by
    cases exact with
    | true => exact ⟨_, foundAt_exact_iff.1 h⟩
    | false => exact ⟨_, (foundAt_fallback_iff.1 h).2⟩
  obtain ⟨f, hf⟩ := hfound
  obtain ⟨hp, -⟩ := List.findIdx?_eq_some_iff_getElem.1 hf
  exact ⟨final[p], List.getElem?_eq_getElem hp⟩

variable (final sig) in
theorem findVetoMatch_objs :
    findVetoMatch (final.map Json.obj) (symbolOf sig) (sourceOf sig) =
      .ok (((foundAt final sig).bind fun x => final[x.1]?).map Json.obj,
        ((foundAt final sig).map Prod.snd).getD false) := by
  have hexact : findSignal (fun s => stringField s "symbol" = some (symbolOf sig) ∧
      resolveSignalSource s = sourceOf sig) (final.map Json.obj) =
      .ok ((final.find? (hasKey (symbolOf sig) (sourceOf sig))).map Json.obj) :=
    findSignal_objs _ _
  have hfallback : findSignal (fun s => stringField s "symbol" = some (symbolOf sig))
      (final.map Json.obj) = .ok ((final.find? (hasSymbol (symbolOf sig))).map Json.obj) :=
    findSignal_objs _ _
  unfold findVetoMatch
  rw [hexact, hfallback]
  cases hkey : final.findIdx? (hasKey (symbolOf sig) (sourceOf sig)) with
  | some p =>
    have hfound := foundAt_exact_iff.2 hkey
    obtain ⟨s, hs⟩ := exists_of_foundAt hfound
    rw [find?_of_findIdx? hkey hs, hfound]
    simp only [Option.map_some, Option.bind_some, hs]
    rfl
  | none =>
    rw [find?_none_of_findIdx? hkey]
    cases hsymbol : final.findIdx? (hasSymbol (symbolOf sig)) with
    | some p =>
      have hfound := foundAt_fallback_iff.2 ⟨hkey, hsymbol⟩
      obtain ⟨s, hs⟩ := exists_of_foundAt hfound
      rw [find?_of_findIdx? hsymbol hs, hfound]
      simp only [Option.map_some, Option.bind_some, hs]
      rfl
    | none =>
      rw [find?_none_of_findIdx? hsymbol, foundAt, hkey, hsymbol]
      rfl

end Lookup

/-! ## The rows -/

/-- How many proposals have the symbol of a proposal. -/
def symbolCount (proposals : List Obj) (sig : Obj) : ℕ :=
  proposals.countP fun s => symbolOf s = symbolOf sig

/-- The survivor that a proposal is compared with. -/
def counterpartOf (final : List Obj) (sig : Obj) : Option Obj :=
  (foundAt final sig).bind fun x => final[x.1]?

/-- The match of a proposal may be that of another one. -/
def ambiguous (proposals final : List Obj) (sig : Obj) : Bool :=
  !((foundAt final sig).map Prod.snd).getD false && 1 < symbolCount proposals sig &&
    ((counterpartOf final sig).map sourceOf).getD "" = ""

def ledgerRow (proposals final : List Obj) (sig : Obj) : VetoDecision :=
  { resolveVetoVerdict (actionOf sig) (.obj sig) ((counterpartOf final sig).map Json.obj)
      (ambiguous proposals final sig) with
    symbol := symbolOf sig, sourcePlugin := sourceOf sig, proposedAction := actionOf sig
    proposedQty := (numberField (.obj sig) "qty").getD 0 }

theorem build_objs (proposals final : List Obj) (sig : Obj) :
    buildVetoDecisionData (proposals.map Json.obj) (some (.arr (final.map Json.obj))) (.obj sig) =
      .ok (ledgerRow proposals final sig) := by
  have hcount : (proposals.map Json.obj).countP (fun s => proposedSymbol s = symbolOf sig) =
      symbolCount proposals sig := List.countP_map ..
  have hsource : ((counterpartOf final sig).map Json.obj).map resolveSignalSource =
      (counterpartOf final sig).map sourceOf := Option.map_map ..
  show (findVetoMatch (final.map Json.obj) (symbolOf sig) (sourceOf sig) >>= _) = _
  rw [findVetoMatch_objs, ledgerRow, ambiguous, ← hcount, ← hsource]
  rfl

section Verdict

variable {proposals final : List Obj} {sig s : Obj} {p : ℕ} {exact : Bool}

theorem counterpartOf_eq (h : foundAt final sig = some (p, exact)) (hs : final[p]? = some s) :
    counterpartOf final sig = some s := by
  rw [counterpartOf, h]
  exact hs

theorem ambiguous_eq (h : foundAt final sig = some (p, exact)) (hs : final[p]? = some s) :
    ambiguous proposals final sig =
      (!exact && 1 < symbolCount proposals sig && decide (sourceOf s = "")) := by
  rw [ambiguous, counterpartOf_eq h hs, h]
  rfl

theorem blocked_of_not_found (h : foundAt final sig = none) :
    (ledgerRow proposals final sig).verdict = .blocked := by
  unfold ledgerRow counterpartOf
  rw [h]
  rfl

variable (proposals) in
theorem blocked_iff (h : foundAt final sig = some (p, exact)) (hs : final[p]? = some s) :
    (ledgerRow proposals final sig).verdict = .blocked ↔ Cancelled (.obj s) := by
  show (resolveVetoVerdict _ _ _ _).verdict = _ ↔ _
  rw [resolveVetoVerdict_blocked_iff, counterpartOf_eq h hs]
  simp

variable (proposals) in
/-- **The row of a proposal that is found** says `approved` where what is found reads as the
proposal, and is found by symbol and source, or can be no other's, or names a source. -/
theorem approved_iff (h : foundAt final sig = some (p, exact)) (hs : final[p]? = some s) :
    (ledgerRow proposals final sig).verdict = .approved ↔ ReadsUnchanged sig s ∧
      (exact = true ∨ symbolCount proposals sig ≤ 1 ∨ sourceOf s ≠ "") := by
  have hambiguous : ambiguous proposals final sig = false ↔
      (exact = true ∨ symbolCount proposals sig ≤ 1 ∨ sourceOf s ≠ "") := by
    rw [ambiguous_eq h hs]
    by_cases hcount : 1 < symbolCount proposals sig
    · cases exact <;> simp [hcount, Nat.not_le.2 hcount]
    · cases exact <;> simp [hcount, Nat.not_lt.1 hcount]
  show (resolveVetoVerdict _ _ _ _).verdict = _ ↔ _
  rw [← hambiguous, counterpartOf_eq h hs]
  unfold resolveVetoVerdict
  simp only [Option.map_some]
  by_cases hcancelled : stringField (.obj s) "action" = some "cancelled"
  · rw [if_pos hcancelled]
    exact iff_of_false (fun h => by cases h) fun h => h.1.stands hcancelled
  · rw [if_neg hcancelled]
    cases hclear : ambiguous proposals final sig with
    | true =>
      exact iff_of_false (fun h => by cases h) fun h => by cases h.2
    | false =>
      by_cases hsame : (stringField (.obj s) "action").getD (actionOf sig) = actionOf sig ∧
          knownEqual (quantityOf sig) (quantityOf s) = true
      · simp only [Bool.false_eq_true, if_false, if_pos hsame]
        exact iff_of_true trivial ⟨⟨hcancelled, hsame.1, hsame.2⟩, trivial⟩
      · simp only [Bool.false_eq_true, if_false, if_neg hsame]
        exact iff_of_false (fun h => by cases h) fun h => hsame ⟨h.1.action, h.1.quantity⟩

end Verdict

/-! ## The ledger of a cycle -/

theorem vetoDecisionInput_objs (numeral : Number → String) (cycleId : String)
    (proposals final : List Obj) (vetoCtx : Obj) (discipline rationale : Option String) (sig : Obj)
    (hpending : vetoCtx.get "pending_signals" = some (.arr (final.map Json.obj))) :
    ∃ input, vetoDecisionInput numeral cycleId (proposals.map Json.obj) vetoCtx discipline rationale
      (.obj sig) = .ok input ∧ input.toVetoDecision = ledgerRow proposals final sig := by
  unfold vetoDecisionInput
  rw [hpending]
  dsimp only
  rw [build_objs]
  show ∃ input, (findVetoMatch (final.map Json.obj) (symbolOf sig) (sourceOf sig) >>= _) = _ ∧ _
  rw [findVetoMatch_objs]
  exact ⟨_, rfl, rfl⟩

/-- **One row for each proposal**, where the database takes them. -/
theorem persist_objs (numeral : Number → String) (store : LedgerStore) (cycleId : String)
    (proposals final : List Obj) (vetoCtx : Obj) (vetoReasons : List String)
    (hpending : vetoCtx.get "pending_signals" = some (.arr (final.map Json.obj)))
    (hcreate : ∀ row, store.create row = none) :
    ∃ rows : List VetoDecisionCreateInput,
      persistVetoDecisions numeral (some store) cycleId (proposals.map Json.obj) vetoCtx
        vetoReasons = .ok (rows.map .written) ∧
      rows.map (fun r => r.toVetoDecision) = proposals.map (ledgerRow proposals final) := by
  show ∃ rows : List VetoDecisionCreateInput, (proposals.map Json.obj).mapM _ = _ ∧ _
  suffices hall : ∀ l : List Obj, ∃ rows : List VetoDecisionCreateInput,
      (l.map Json.obj).mapM (fun sig => persistVetoDecision store sig
        (vetoDecisionInput numeral cycleId (proposals.map Json.obj) vetoCtx
          (extractVetoDisciplines vetoReasons)
          (if vetoReasons = [] then none else some ("; ".intercalate vetoReasons)) sig)) =
        .ok (rows.map .written) ∧
      rows.map (fun r => r.toVetoDecision) = l.map (ledgerRow proposals final) from hall proposals
  intro l
  induction l with
  | nil => exact ⟨[], rfl, rfl⟩
  | cons sig rest ih =>
    obtain ⟨rows, hrows, hmap⟩ := ih
    obtain ⟨input, hinput, hrow⟩ := vetoDecisionInput_objs numeral cycleId proposals final vetoCtx
      (extractVetoDisciplines vetoReasons)
      (if vetoReasons = [] then none else some ("; ".intercalate vetoReasons)) sig hpending
    have hwritten : persistVetoDecision store (.obj sig) (.ok input) = .ok (.written input) := by
      unfold persistVetoDecision
      simp only [bind, Except.bind, hcreate]
    refine ⟨input :: rows, ?_, by rw [List.map_cons, hrow, hmap, List.map_cons]⟩
    rw [List.map_cons, List.mapM_cons, hinput, hwritten, hrows]
    rfl

/-! ## Where the survivors come from -/

/-- What a survivor keeps of the proposals that it comes from. -/
structure Descends (proposals : List Obj) (is : List ℕ) (s : Obj) : Prop where
  origins : is ≠ []
  symbol : ∀ i ∈ is, ∃ sig, proposals[i]? = some sig ∧
    stringField (.obj sig) "symbol" = stringField (.obj s) "symbol"
  source : sourceOf s = "" ∨ ∃ i ∈ is, ∃ sig, proposals[i]? = some sig ∧ sourceOf sig = sourceOf s
  action : stringField (.obj s) "action" = none → ∀ i ∈ is, ∀ sig, proposals[i]? = some sig →
    stringField (.obj sig) "action" = none

section Provenance

variable {proposals : List Obj} {is : List ℕ} {s s' : Obj}

theorem Descends.first {i : ℕ} (h : proposals[i]? = some s) : Descends proposals [i] s := by
  refine ⟨by simp, ?_, Or.inr ⟨i, by simp, s, h, rfl⟩, ?_⟩
  · intro j hj
    rw [List.mem_singleton.1 hj]
    exact ⟨s, h, rfl⟩
  · intro haction j hj sig hsig
    rw [List.mem_singleton.1 hj, h] at hsig
    rw [← Option.some.inj hsig]
    exact haction

theorem Descends.handOn (h : Descends proposals is s) (hs : HandsOn s s')
    (haction : stringField (.obj s') "action" = none → stringField (.obj s) "action" = none) :
    Descends proposals is s' := by
  refine ⟨h.origins, ?_, ?_, fun hnone => h.action (haction hnone)⟩
  · intro i hi
    obtain ⟨sig, hsig, hsymbol⟩ := h.symbol i hi
    exact ⟨sig, hsig, hsymbol.trans hs.symbol.symm⟩
  · rcases hs.source with hkept | hleft
    · rw [hkept]
      exact h.source
    · exact Or.inl hleft

theorem Descends.rework (h : Descends proposals is s) (hs : Reworks s s') :
    Descends proposals is s' := by
  cases hs with
  | cancel hkeeps haction =>
    exact h.handOn hkeeps fun hnone => by rw [haction] at hnone; cases hnone
  | rescale hkeeps haction => exact h.handOn hkeeps fun hnone => haction ▸ hnone

theorem Descends.merge {group : List (Traced Obj)} (hgroup : group ≠ [])
    (h : ∀ s ∈ group, Descends proposals s.origins s.value)
    (hs : Merges (group.map Traced.value) s) :
    Descends proposals (group.flatMap Traced.origins) s := by
  refine ⟨?_, ?_, ?_, fun hnone => absurd hnone hs.action⟩
  · obtain ⟨t, ht⟩ := List.exists_mem_of_ne_nil group hgroup
    obtain ⟨i, hi⟩ := List.exists_mem_of_ne_nil _ (h t ht).origins
    exact List.ne_nil_of_mem (List.mem_flatMap.2 ⟨t, ht, hi⟩)
  · intro i hi
    obtain ⟨t, ht, hti⟩ := List.mem_flatMap.1 hi
    obtain ⟨sig, hsig, hsymbol⟩ := (h t ht).symbol i hti
    exact ⟨sig, hsig, hsymbol.trans (hs.symbol _ (List.mem_map_of_mem ht))⟩
  · rcases hs.source with hleft | ⟨v, hv, hkept⟩
    · exact Or.inl hleft
    · obtain ⟨t, ht, rfl⟩ := List.mem_map.1 hv
      rw [← hkept]
      refine (h t ht).source.imp_right ?_
      rintro ⟨i, hi, hsig⟩
      exact ⟨i, List.mem_flatMap.2 ⟨t, ht, hi⟩, hsig⟩

/-- **Every survivor descends from proposals** of its symbol. -/
theorem descends_of_produced {final : List (Traced Obj)} (h : Produced proposals final) :
    ∀ s ∈ final, Descends proposals s.origins s.value :=
  Edits.forall_entry (fun _ _ => Descends.first) (fun _ _ _ => Descends.rework)
    (fun _ _ => Descends.merge) h

end Provenance

/-! ## An attributable list -/

section Honest

variable {proposals : List Obj} {final : List (Traced Obj)} {sig sig' v : Obj} {i j p : ℕ}
  {exact : Bool}

theorem unchanged_of_reads {s : Traced Obj} (hs : Descends proposals s.origins s.value)
    (hi : i ∈ s.origins) (hsig : proposals[i]? = some sig) (h : ReadsUnchanged sig s.value) :
    Unchanged sig s.value := by
  refine ⟨h.stands, ?_, h.quantity⟩
  have hreads := h.action
  cases haction : stringField (.obj s.value) "action" with
  | none =>
    have hnone := hs.action haction i hi sig hsig
    simp only [actionOf, haction, hnone]
  | some a =>
    rw [haction] at hreads
    simp only [actionOf, haction]
    exact hreads

theorem traced_of_signals (h : (signals final)[p]? = some v) :
    ∃ s, final[p]? = some s ∧ s.value = v := by
  rw [List.getElem?_map, Option.map_eq_some_iff] at h
  exact h

theorem symbol_of_origin {s : Traced Obj} (hs : Descends proposals s.origins s.value)
    (hfound : foundAt (signals final) sig = some (p, exact))
    (hp : (signals final)[p]? = some s.value) (hj : j ∈ s.origins)
    (hsig' : proposals[j]? = some sig') : symbolOf sig = symbolOf sig' := by
  obtain ⟨sig₀, hsig₀, hsymbol⟩ := hs.symbol j hj
  obtain rfl : sig₀ = sig' := Option.some.inj (hsig₀.symm.trans hsig')
  rw [symbol_of_foundAt hfound hp] at hsymbol
  show _ = (stringField (.obj sig₀) "symbol").getD ""
  rw [hsymbol]
  rfl

/-- **Approved by symbol alone**: the only proposal of its symbol. -/
theorem alone_of_fallback (hattr : Attributable proposals final) (hsig : proposals[i]? = some sig)
    (hfound : foundAt (signals final) sig = some (p, false)) (hp : (signals final)[p]? = some v)
    (happroved : (ledgerRow proposals (signals final) sig).verdict = .approved) :
    symbolCount proposals sig ≤ 1 := by
  obtain ⟨hreads, hexact | hcount | hsource⟩ := (approved_iff proposals hfound hp).1 happroved
  · cases hexact
  · exact hcount
  · obtain ⟨hkey, hsymbol⟩ := foundAt_fallback_iff.1 hfound
    exact absurd hreads (hattr.named sig (List.mem_of_getElem? hsig) v (find?_none_of_findIdx? hkey)
      (find?_of_findIdx? hsymbol hp) hsource)

theorem position_of_alone (hcount : symbolCount proposals sig ≤ 1) (hsig : proposals[i]? = some sig)
    (hsig' : proposals[j]? = some sig') (hsymbol : symbolOf sig = symbolOf sig') : i = j :=
  position_of_countP hcount hsig (decide_eq_true rfl) hsig' (decide_eq_true hsymbol.symm)

/-- **What is approved has survived unchanged.** -/
theorem own_of_approved (h : Produced proposals final) (hattr : Attributable proposals final)
    (hsig : proposals[i]? = some sig)
    (happroved : (ledgerRow proposals (signals final) sig).verdict = .approved) :
    ∃ s ∈ final, i ∈ s.origins ∧ Unchanged sig s.value := by
  cases hfound : foundAt (signals final) sig with
  | none =>
    rw [blocked_of_not_found hfound] at happroved
    cases happroved
  | some x =>
    obtain ⟨p, exact⟩ := x
    obtain ⟨v, hv⟩ := exists_of_foundAt hfound
    have hreads := ((approved_iff proposals hfound hv).1 happroved).1
    obtain ⟨s, hs, rfl⟩ := traced_of_signals hv
    have hmem : s ∈ final := List.mem_of_getElem? hs
    have hdescends := descends_of_produced h s hmem
    suffices hown : i ∈ s.origins ∨ ∃ t ∈ final, i ∈ t.origins ∧ Unchanged sig t.value from
      hown.elim (fun hi => ⟨s, hmem, hi, unchanged_of_reads hdescends hi hsig hreads⟩) id
    cases exact with
    | true =>
      have hfind := find?_of_findIdx? (foundAt_exact_iff.1 hfound) hv
      have hsource := source_of_foundAt hfound hv
      by_cases hempty : sourceOf sig = ""
      · rw [hempty] at hfind
        exact Or.inr (hattr.unnamed i sig _ hsig hempty hfind hreads)
      · obtain ⟨j, hj, sig', hsig', hnamed⟩ :=
          hdescends.source.resolve_left (hsource ▸ hempty)
        by_cases hij : i = j
        · exact Or.inl (hij ▸ hj)
        · exact absurd (hattr.distinct i j sig sig' _ hij hsig hsig'
            (symbol_of_origin hdescends hfound hv hj hsig') (hsource.symm.trans hnamed.symm) hfind)
            hreads.stands
    | false =>
      obtain ⟨j, hj⟩ := List.exists_mem_of_ne_nil _ hdescends.origins
      obtain ⟨sig', hsig', -⟩ := hdescends.symbol j hj
      have hij := position_of_alone (alone_of_fallback hattr hsig hfound hv happroved) hsig hsig'
        (symbol_of_origin hdescends hfound hv hj hsig')
      exact Or.inl (hij ▸ hj)

theorem matchedAt_iff : MatchedAt proposals (signals final)
      (proposals.map (ledgerRow proposals (signals final))) i p ↔
    ∃ sig exact, proposals[i]? = some sig ∧ foundAt (signals final) sig = some (p, exact) ∧
      ((ledgerRow proposals (signals final) sig).verdict = .approved ∨
        (ledgerRow proposals (signals final) sig).verdict = .modified ∧ exact = true) := by
  constructor
  · rintro ⟨sig, row, exact, hsig, hrow, hfound, hverdict⟩
    rw [List.getElem?_map, hsig] at hrow
    obtain rfl := Option.some.inj hrow
    exact ⟨sig, exact, hsig, hfound, hverdict⟩
  · rintro ⟨sig, exact, hsig, hfound, hverdict⟩
    refine ⟨sig, _, exact, hsig, ?_, hfound, hverdict⟩
    rw [List.getElem?_map, hsig]
    rfl

/-- **Distinct proposals are matched at distinct survivors.** -/
theorem matched_distinct (hattr : Attributable proposals final)
    (hi : MatchedAt proposals (signals final)
      (proposals.map (ledgerRow proposals (signals final))) i p)
    (hj : MatchedAt proposals (signals final)
      (proposals.map (ledgerRow proposals (signals final))) j p) : i = j := by
  obtain ⟨sig, exact, hsig, hfound, hverdict⟩ := matchedAt_iff.1 hi
  obtain ⟨sig', exact', hsig', hfound', hverdict'⟩ := matchedAt_iff.1 hj
  obtain ⟨v, hv⟩ := exists_of_foundAt hfound
  have hsymbol : symbolOf sig = symbolOf sig' :=
    Option.some.inj ((symbol_of_foundAt hfound hv).symm.trans (symbol_of_foundAt hfound' hv))
  cases exact with
  | false =>
    have happroved := hverdict.resolve_right fun h => by cases h.2
    exact position_of_alone (alone_of_fallback hattr hsig hfound hv happroved) hsig hsig' hsymbol
  | true =>
    cases exact' with
    | false =>
      have happroved := hverdict'.resolve_right fun h => by cases h.2
      exact (position_of_alone (alone_of_fallback hattr hsig' hfound' hv happroved) hsig' hsig
        hsymbol.symm).symm
    | true =>
      by_contra hij
      have hcancelled := hattr.distinct i j sig sig' v hij hsig hsig' hsymbol
        ((source_of_foundAt hfound hv).symm.trans (source_of_foundAt hfound' hv))
        (find?_of_findIdx? (foundAt_exact_iff.1 hfound) hv)
      have hblocked := (blocked_iff proposals hfound hv).2 hcancelled
      rw [hblocked] at hverdict
      rcases hverdict with h | h
      · cases h
      · cases h.1

theorem honest_of_attributable (h : Produced proposals final)
    (hattr : Attributable proposals final) :
    Honest proposals final (proposals.map (ledgerRow proposals (signals final))) := by
  refine ⟨by rw [List.map_map]; rfl, ?_, fun i j p => matched_distinct hattr, ?_⟩
  · intro i sig row hsig hrow happroved
    rw [List.getElem?_map, hsig] at hrow
    obtain rfl := Option.some.inj hrow
    exact own_of_approved h hattr hsig happroved
  · refine countP_le_of_positions (MatchedAt proposals (signals final)
      (proposals.map (ledgerRow proposals (signals final)))) ?_ fun i j p => matched_distinct hattr
    intro i row hrow happroved
    rw [List.getElem?_map, Option.map_eq_some_iff] at hrow
    obtain ⟨sig, hsig, rfl⟩ := hrow
    have hverdict := of_decide_eq_true happroved
    cases hfound : foundAt (signals final) sig with
    | none =>
      rw [blocked_of_not_found hfound] at hverdict
      cases hverdict
    | some x =>
      obtain ⟨s, hs⟩ := exists_of_foundAt hfound
      obtain ⟨hlt, -⟩ := List.getElem?_eq_some_iff.1 hs
      exact ⟨x.1, by simpa using hlt, matchedAt_iff.2 ⟨sig, x.2, hsig, hfound, Or.inl hverdict⟩⟩

/-! ## An honest ledger -/

/-- A proposal that is found by symbol and source is matched there, unless what is found is
cancelled. -/
theorem matched_of_exact (hsig : proposals[i]? = some sig)
    (hfound : foundAt (signals final) sig = some (p, true)) (hp : (signals final)[p]? = some v)
    (hstands : ¬ Cancelled (.obj v)) : MatchedAt proposals (signals final)
      (proposals.map (ledgerRow proposals (signals final))) i p := by
  refine matchedAt_iff.2 ⟨sig, true, hsig, hfound, ?_⟩
  have hblocked := mt (blocked_iff proposals hfound hp).1 hstands
  cases hverdict : (ledgerRow proposals (signals final) sig).verdict with
  | approved => exact Or.inl rfl
  | modified => exact Or.inr ⟨rfl, rfl⟩
  | blocked => exact absurd hverdict hblocked

theorem foundAt_of_key (hsymbol : (signals final).findIdx? (hasSymbol (symbolOf sig)) = some p)
    (hp : (signals final)[p]? = some v) (hkey : hasKey (symbolOf sig) (sourceOf sig) v = true) :
    foundAt (signals final) sig = some (p, true) := by
  refine foundAt_exact_iff.2 (List.findIdx?_eq_some_iff_getElem.2 ?_)
  obtain ⟨hlt, -, hbefore⟩ := List.findIdx?_eq_some_iff_getElem.1 hsymbol
  obtain ⟨_, hv⟩ := List.getElem?_eq_some_iff.1 hp
  refine ⟨hlt, hv ▸ hkey, fun q hq hthere => hbefore q hq ?_⟩
  exact decide_eq_true (of_decide_eq_true hthere).1

theorem attributable_of_honest (h : Produced proposals final)
    (honest : Honest proposals final (proposals.map (ledgerRow proposals (signals final)))) :
    Attributable proposals final := by
  refine ⟨?_, ?_, ?_⟩
  · intro i j sig sig' v hij hsig hsig' hsymbol hsource hfind
    by_contra hstands
    obtain ⟨p, hidx, hp⟩ := findIdx?_of_find? hfind
    have hidx' := hidx
    rw [hsymbol, hsource] at hidx'
    exact hij (honest.distinct i j p
      (matched_of_exact hsig (foundAt_exact_iff.2 hidx) hp hstands)
      (matched_of_exact hsig' (foundAt_exact_iff.2 hidx') hp hstands))
  · intro sig hmem v hnone hfind hnamed hreads
    obtain ⟨i, hsig⟩ := List.mem_iff_getElem?.1 hmem
    obtain ⟨p, hidx, hp⟩ := findIdx?_of_find? hfind
    have hnokey : ∀ s ∈ signals final, hasKey (symbolOf sig) (sourceOf sig) s = false := by
      simpa using hnone
    have hfound : foundAt (signals final) sig = some (p, false) :=
      foundAt_fallback_iff.2 ⟨List.findIdx?_eq_none_iff.2 hnokey, hidx⟩
    have happroved := (approved_iff proposals hfound hp).2
      ⟨hreads, Or.inr (Or.inr hnamed)⟩
    obtain ⟨s, hs, rfl⟩ := traced_of_signals hp
    have hdescends := descends_of_produced h s (List.mem_of_getElem? hs)
    -- the proposal whose source the survivor names is matched there too
    obtain ⟨j, hj, sig', hsig', hsource⟩ := hdescends.source.resolve_left hnamed
    have hsymbol := symbol_of_origin hdescends hfound hp hj hsig'
    have hkey : hasKey (symbolOf sig') (sourceOf sig') s.value = true :=
      decide_eq_true ⟨hsymbol ▸ symbol_of_foundAt hfound hp, hsource.symm⟩
    have hfound' := foundAt_of_key (hsymbol ▸ hidx) hp hkey
    have hij : i = j := honest.distinct i j p
      (matchedAt_iff.2 ⟨sig, false, hsig, hfound, Or.inl happroved⟩)
      (matched_of_exact hsig' hfound' hp hreads.stands)
    obtain rfl : sig = sig' := Option.some.inj (hsig.symm.trans (hij ▸ hsig'))
    have hno := hnokey s.value (List.mem_of_getElem? hp)
    rw [hkey] at hno
    cases hno
  · intro i sig v hsig hempty hfind hreads
    obtain ⟨p, hidx, hp⟩ := findIdx?_of_find? hfind
    rw [← hempty] at hidx
    have hfound := foundAt_exact_iff.2 hidx
    have happroved := (approved_iff proposals hfound hp).2 ⟨hreads, Or.inl rfl⟩
    refine honest.approved i sig _ hsig ?_ happroved
    rw [List.getElem?_map, hsig]
    rfl

end Honest

/-! ## The property, exactly -/

/-- **The ledger is honest exactly where the final list is attributable**: for all proposals and
every list that is produced from them by dropping, cancelling, rescaling and merging signals. -/
theorem honest_iff (numeral : Number → String) (store : LedgerStore) (cycleId : String)
    (proposals : List Obj) (final : List (Traced Obj)) (vetoCtx : Obj) (vetoReasons : List String)
    (hproduced : Produced proposals final)
    (hpending : vetoCtx.get "pending_signals" = some (.arr ((signals final).map Json.obj)))
    (hcreate : ∀ row, store.create row = none) :
    ∃ rows : List VetoDecisionCreateInput,
      persistVetoDecisions numeral (some store) cycleId (proposals.map Json.obj) vetoCtx
        vetoReasons = .ok (rows.map .written) ∧
      (Honest proposals final (rows.map fun r => r.toVetoDecision) ↔
        Attributable proposals final) := by
  obtain ⟨rows, hrows, hmap⟩ := persist_objs numeral store cycleId proposals (signals final) vetoCtx
    vetoReasons hpending hcreate
  refine ⟨rows, hrows, ?_⟩
  rw [hmap]
  exact ⟨attributable_of_honest hproduced, honest_of_attributable hproduced⟩

/-! ## A signal that is rescaled, and one that is dropped -/

/-- A signal of a skill, for a quantity. -/
def buySignal (qty : ℕ) (plugin : String) : Obj :=
  [("symbol", .str "AAPL"), ("action", .str "buy"), ("qty", .num (.fin qty)),
    ("_plugin", .str plugin)]

/-- Two signals of one symbol, of which one is rescaled: the ledger is honest. -/
theorem rescaled_honest : ∃ rows : List VetoDecisionCreateInput,
    persistVetoDecisions (fun _ => "") (some { create := fun _ => none }) "c1"
      ([buySignal 10 "momentum", buySignal 10 "carry"].map Json.obj)
      [("pending_signals", .arr [.obj (buySignal 10 "momentum"), .obj (buySignal 5 "carry")])]
      ["[Position Sizing] half"] = .ok (rows.map .written) ∧
    Honest [buySignal 10 "momentum", buySignal 10 "carry"]
      [⟨buySignal 10 "momentum", [0]⟩, ⟨buySignal 5 "carry", [1]⟩]
      (rows.map fun r => r.toVetoDecision) := by
  have hproduced : Produced [buySignal 10 "momentum", buySignal 10 "carry"]
      [⟨buySignal 10 "momentum", [0]⟩, ⟨buySignal 5 "carry", [1]⟩] :=
    Relation.ReflTransGen.single (Edit.rework [⟨buySignal 10 "momentum", [0]⟩]
      ⟨buySignal 10 "carry", [1]⟩ [] _ (.rescale ⟨rfl, Or.inl rfl⟩ rfl))
  obtain ⟨rows, hrows, hiff⟩ := honest_iff (fun _ => "") { create := fun _ => none } "c1"
    [buySignal 10 "momentum", buySignal 10 "carry"] _
    [("pending_signals", .arr [.obj (buySignal 10 "momentum"), .obj (buySignal 5 "carry")])]
    ["[Position Sizing] half"] hproduced rfl fun _ => rfl
  refine ⟨rows, hrows, hiff.2 ⟨?_, ?_, ?_⟩⟩
  · intro i j sig sig' s hij hsig hsig' _ hsource _
    have honce : ∀ sig ∈ [buySignal 10 "momentum", buySignal 10 "carry"],
        [buySignal 10 "momentum", buySignal 10 "carry"].countP
          (fun s => sourceOf s = sourceOf sig) ≤ 1 := by decide
    exact absurd (position_of_countP (honce sig (List.mem_of_getElem? hsig)) hsig
      (decide_eq_true rfl) hsig' (decide_eq_true hsource.symm)) hij
  · intro sig hsig s hnone
    have hfound : ∀ sig ∈ [buySignal 10 "momentum", buySignal 10 "carry"],
        ((signals [⟨buySignal 10 "momentum", [0]⟩, ⟨buySignal 5 "carry", [1]⟩]).find?
          (hasKey (symbolOf sig) (sourceOf sig))).isSome = true := by decide
    have hthere := hfound sig hsig
    rw [hnone] at hthere
    cases hthere
  · intro i sig s hsig hempty
    have hnamed : ∀ sig ∈ [buySignal 10 "momentum", buySignal 10 "carry"], sourceOf sig ≠ "" := by
      decide
    exact absurd hempty (hnamed sig (List.mem_of_getElem? hsig))

/-- **A signal that was dropped is written down as approved**: the signal of another skill for its
symbol stands. -/
theorem dropped_approved : ¬ ∀ (numeral : Number → String) (store : LedgerStore) (cycleId : String)
    (proposals : List Obj) (final : List (Traced Obj)) (vetoCtx : Obj) (vetoReasons : List String),
    Produced proposals final →
    vetoCtx.get "pending_signals" = some (.arr ((signals final).map Json.obj)) →
    (∀ row, store.create row = none) →
    ∃ rows : List VetoDecisionCreateInput,
      persistVetoDecisions numeral (some store) cycleId (proposals.map Json.obj) vetoCtx
        vetoReasons = .ok (rows.map .written) ∧
      Honest proposals final (rows.map fun r => r.toVetoDecision) := by
  intro hall
  have hproduced : Produced [buySignal 10 "momentum", buySignal 10 "carry"]
      [⟨buySignal 10 "carry", [1]⟩] :=
    Relation.ReflTransGen.single (Edit.drop [] ⟨buySignal 10 "momentum", [0]⟩ _)
  obtain ⟨rows, hrows, honest⟩ := hall (fun _ => "") { create := fun _ => none } "c1" _ _
    [("pending_signals", .arr [.obj (buySignal 10 "carry")])] [] hproduced rfl fun _ => rfl
  obtain ⟨rows', hrows', hmap⟩ := persist_objs (fun _ => "") { create := fun _ => none } "c1"
    [buySignal 10 "momentum", buySignal 10 "carry"] [buySignal 10 "carry"]
    [("pending_signals", .arr [.obj (buySignal 10 "carry")])] [] rfl fun _ => rfl
  obtain rfl : rows = rows' := List.map_injective_iff.2 (fun a b h => LedgerEntry.written.inj h)
    (Except.ok.inj (hrows.symm.trans hrows'))
  rw [hmap] at honest
  obtain ⟨s, hs, horigin, -⟩ := honest.approved 0 _ _ rfl rfl (by decide)
  rw [List.mem_singleton.1 hs] at horigin
  simp at horigin

end NeoTrader.Ledger

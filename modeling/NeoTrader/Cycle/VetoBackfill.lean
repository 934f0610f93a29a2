import NeoTrader.Cycle.VetoAnalyzer

/-!
# Sweeps over the veto ledger

Sweeps of the timer and of the panel and the cycles' writes run side by side; between two awaits of
one of them every other one may run.

* **`reaches_honest`**: every value of the ledger is the one of its decision, under every
  interleaving;
* `OneSweep`, **`evaluated_stays`**: while only the timer starts sweeps, they do not overlap, and a
  decision that has been evaluated is not written again.
-/

namespace NeoTrader.VetoAnalyzer

open Js Await Await.Prog Await.Pool

/-! ## Why a decision has its value -/

/-- **The evaluations that a decision can have**, where `h` was awaited: none; the reason why it has
no value; or its value at a bar of an answer of the provider to the request for its own window,
after the clock was read and the horizon had passed. -/
inductive Honest (texts : Texts) (h : List (Event vetoSig)) (p : ProposedTrade) : Evaluation → Prop
  | unevaluated : Honest texts h p {}
  | unsupported (time : ℤ) (haction : isSupportedAction p.proposedAction = false) :
      Honest texts h p { cfMethod := some "unsupported_action", cfEvaluatedAt := some time }
  | invalid (time : ℤ) (haction : isSupportedAction p.proposedAction = true)
      (href : validRefPrice p.refPrice = none) :
      Honest texts h p { cfMethod := some "invalid_ref_price", cfEvaluatedAt := some time }
  | insufficient (opts : ResolvedBackfillOptions) (now time : ℤ) (bars : List OhlcvBar)
      (haction : isSupportedAction p.proposedAction = true)
      (href : validRefPrice p.refPrice ≠ none)
      (hclock : ⟨.clock, .ok now⟩ ∈ h)
      (hmature : isMature p.ts opts.horizonBars opts.timeframe now = true)
      (hbars : ⟨.getOhlcv p.symbol opts.timeframe
        (computeNeededFetchLimit p.ts opts.horizonBars opts.timeframe now), .ok bars⟩ ∈ h)
      (hmark : locateMarkBar texts bars (texts.toISOString p.ts) opts.horizonBars = none) :
      Honest texts h p { cfMethod := some "insufficient_data", cfEvaluatedAt := some time }
  | evaluated (opts : ResolvedBackfillOptions) (now time : ℤ) (bars : List OhlcvBar)
      (markBar : OhlcvBar) (refPrice : ℚ)
      (haction : isSupportedAction p.proposedAction = true)
      (href : validRefPrice p.refPrice = some refPrice)
      (hclock : ⟨.clock, .ok now⟩ ∈ h)
      (hmature : isMature p.ts opts.horizonBars opts.timeframe now = true)
      (hbars : ⟨.getOhlcv p.symbol opts.timeframe
        (computeNeededFetchLimit p.ts opts.horizonBars opts.timeframe now), .ok bars⟩ ∈ h)
      (hmark : locateMarkBar texts bars (texts.toISOString p.ts) opts.horizonBars = some markBar) :
      Honest texts h p
        { cfPnl := some (cfPnlOf p refPrice markBar opts.costBps)
          cfMethod := some (buildCfMethod texts opts), cfEvaluatedAt := some time }

section Sweeps

variable {texts : Texts} {opts : ResolvedBackfillOptions} {c : VetoCall}
  {h h' : List (Event vetoSig)} {p : ProposedTrade} {data : Evaluation} {row : VetoDecisionRow}
  {rows : List VetoDecisionRow} {summary : BackfillSummary}

theorem Honest.mono (hdata : Honest texts h p data) (hsub : ∀ e ∈ h, e ∈ h') :
    Honest texts h' p data := by
  cases hdata with
  | unevaluated => exact .unevaluated
  | unsupported time haction => exact .unsupported time haction
  | invalid time haction href => exact .invalid time haction href
  | insufficient opts now time bars haction href hclock hmature hbars hmark =>
    exact .insufficient opts now time bars haction href (hsub _ hclock) hmature (hsub _ hbars) hmark
  | evaluated opts now time bars markBar refPrice haction href hclock hmature hbars hmark =>
    exact .evaluated opts now time bars markBar refPrice haction href (hsub _ hclock) hmature
      (hsub _ hbars) hmark

/-! ## What a call awaits -/

/-- The flag was found down and has been raised. -/
def isEntered : Event vetoSig → Bool
  | ⟨.enter, .ok true⟩ => true
  | _ => false

/-- The flag was put down. -/
def isLeft : Event vetoSig → Bool
  | ⟨.leave, _⟩ => true
  | _ => false

/-- A sweep of the timer is under way. -/
def holding (h : List (Event vetoSig)) : Bool := h.any isEntered && !h.any isLeft

/-- The flag is raised or put down. -/
def isFlag : VetoOp → Bool
  | .enter | .leave => true
  | _ => false

/-- A decision was read. -/
def Found (h : List (Event vetoSig)) (row : VetoDecisionRow) : Prop :=
  ∃ reprocess, ∃ rows : List VetoDecisionRow, ⟨.findMany reprocess, .ok rows⟩ ∈ h ∧ row ∈ rows

/-- No decision of the id was written. -/
def NotYet (h : List (Event vetoSig)) (id : String) : Prop := ∀ data r, ⟨.update id data, r⟩ ∉ h

/-- The ids of the decisions that were read differ. -/
def Distinct (h : List (Event vetoSig)) : Prop :=
  ∀ reprocess, ∀ rows : List VetoDecisionRow, ⟨.findMany reprocess, .ok rows⟩ ∈ h →
    (rows.map fun row => row.id).Nodup

/-- The sweep is one of the panel, or the flag is held. -/
def Owns (c : VetoCall) (h : List (Event vetoSig)) : Prop :=
  (∃ opts, c = .post opts) ∨ holding h = true

/-- **What a call awaits**: a sweep reads the ledger once; it writes decisions that it has read, each
of them once, and for a reason. -/
def vetoPre (texts : Texts) (c : VetoCall) (h : List (Event vetoSig)) : VetoOp → Prop
  | .clock | .getOhlcv _ _ _ | .create _ => True
  | .findMany reprocess => (∀ b r, ⟨.findMany b, r⟩ ∉ h) ∧ Owns c h ∧
      ((∃ opts, c = .post opts) ∨ reprocess = false)
  | .update id data => Owns c h ∧ ∃ row, Found h row ∧ row.id = id ∧
      Honest texts h row.toProposedTrade data ∧ (Distinct h → NotYet h id)
  | .enter => h = []
  | .leave => holding h = true

theorem holding_snoc {op : VetoOp} (hop : isFlag op = false) (r : vetoSig.Outcome op) :
    holding (h ++ [⟨op, r⟩]) = holding h := by
  have hentered : isEntered ⟨op, r⟩ = false := by cases op <;> first | rfl | cases hop
  have hleft : isLeft ⟨op, r⟩ = false := by cases op <;> first | rfl | cases hop
  rw [holding, holding, List.any_append, List.any_append, List.any_cons, List.any_cons, hentered,
    hleft, List.any_nil]
  simp

theorem Owns.snoc (hc : Owns c h) {op : VetoOp} (hop : isFlag op = false)
    (r : vetoSig.Outcome op) : Owns c (h ++ [⟨op, r⟩]) :=
  hc.imp_right fun hh => (holding_snoc hop r).trans hh

theorem Found.mono (hrow : Found h row) (hsub : ∀ e ∈ h, e ∈ h') : Found h' row := by
  obtain ⟨reprocess, rows, hmem, hin⟩ := hrow
  exact ⟨reprocess, rows, hsub _ hmem, hin⟩

/-- An operation that fetches a value for the decision of an id, or writes it. -/
def about (id : String) : VetoOp → Bool
  | .clock | .getOhlcv _ _ _ => true
  | .update id' _ => id' = id
  | _ => false

/-- The clock, or the provider. -/
def isReading : VetoOp → Bool
  | .clock | .getOhlcv _ _ _ => true
  | _ => false

theorem about_of_isReading {id : String} {op : VetoOp} (hop : isReading op = true) :
    about id op = true := by
  cases op <;> first | rfl | cases hop

theorem isFlag_of_about {id : String} {op : VetoOp} (hop : about id op = true) :
    isFlag op = false := by
  cases op <;> first | rfl | cases hop

/-- What happened since is about one decision. -/
def Since (h : List (Event vetoSig)) (id : String) (h' : List (Event vetoSig)) : Prop :=
  h <+: h' ∧ ∀ e ∈ h', e ∈ h ∨ about id e.1 = true

theorem Since.refl (h : List (Event vetoSig)) (id : String) : Since h id h :=
  ⟨List.prefix_rfl, fun _ he => .inl he⟩

theorem Since.snoc {id : String} (hs : Since h id h') {op : VetoOp} (hop : about id op = true)
    (r : vetoSig.Outcome op) : Since h id (h' ++ [⟨op, r⟩]) := by
  refine ⟨hs.1.trans (List.prefix_append _ _), fun e he => ?_⟩
  rcases List.mem_append.1 he with he | he
  · exact hs.2 e he
  · rw [List.mem_singleton.1 he]
    exact .inr hop

theorem Since.notYet {id id' : String} (hs : Since h id h') (hne : id' ≠ id) (hn : NotYet h id') :
    NotYet h' id' := by
  intro data r hmem
  rcases hs.2 _ hmem with hmem | hop
  · exact hn data r hmem
  · exact hne (of_decide_eq_true hop)

theorem Since.distinct {id : String} (hs : Since h id h') : Distinct h' ↔ Distinct h := by
  constructor
  · exact fun hd b rows hmem => hd b rows (hs.1.subset hmem)
  · intro hd b rows hmem
    rcases hs.2 _ hmem with hmem | hop
    · exact hd b rows hmem
    · cases hop

section Ask

variable {α : Type} {op : VetoOp} {pre : List (Event vetoSig) → VetoOp → Prop}

theorem wp_ask_last {Q : vetoSig.Outcome op → List (Event vetoSig) → Prop} (hpre : pre h op)
    (hlast : ∀ r, Q r (h ++ [⟨op, r⟩])) : (ask op).Wp (histSem vetoSig) pre Q h := by
  refine wp_perform.2 ⟨hpre, ?_⟩
  rintro r h' rfl
  exact hlast r

theorem wp_ask_of {f : op.Ans → Veto α} {Q : Except Err α → List (Event vetoSig) → Prop}
    (hpre : pre h op) (hok : ∀ a, (f a).Wp (histSem vetoSig) pre Q (h ++ [⟨op, .ok a⟩]))
    (herr : ∀ e, Q (.error e) (h ++ [⟨op, .error e⟩])) :
    (ask op >>= f).Wp (histSem vetoSig) pre Q h := by
  refine wp_bind_of (wp_ask_last (Q := fun r h' => h' = h ++ [⟨op, r⟩]) hpre fun r => rfl) ?_ ?_
  · rintro a h' rfl
    exact hok a
  · rintro e h' rfl
    exact herr e

end Ask

/-- While one decision is evaluated: it was found, the sweep goes on, and nothing was written yet. -/
structure InRow (c : VetoCall) (h : List (Event vetoSig)) (row : VetoDecisionRow)
    (h' : List (Event vetoSig)) : Prop where
  since : Since h row.id h'
  owns : Owns c h'
  found : Found h' row
  notYet : Distinct h → NotYet h' row.id

theorem InRow.next (hrow : InRow c h row h') (op : VetoOp) (hop : isReading op = true)
    (r : vetoSig.Outcome op) : InRow c h row (h' ++ [⟨op, r⟩]) where
  since := hrow.since.snoc (about_of_isReading hop) r
  owns := hrow.owns.snoc (isFlag_of_about (@about_of_isReading row.id _ hop)) r
  found := hrow.found.mono fun _ he => List.mem_append_left _ he
  notYet hd := by
    intro data r' hmem
    rcases List.mem_append.1 hmem with hmem | hmem
    · exact hrow.notYet hd data r' hmem
    · have hop' : VetoOp.update row.id data = op := congrArg Sigma.fst (List.mem_singleton.1 hmem)
      rw [← hop'] at hop
      cases hop

theorem InRow.ended (hrow : InRow c h row h') {op : VetoOp} (hop : isReading op = true) (e : Err) :
    Since h row.id (h' ++ [⟨op, .error e⟩]) := (hrow.next op hop (.error e)).since

theorem wp_write (hrow : InRow c h row h') (hdata : Honest texts h' row.toProposedTrade data) :
    (ask (.update row.id data)).Wp (histSem vetoSig) (vetoPre texts c)
      (fun _ => Since h row.id) h' := by
  have hop : about row.id (.update row.id data) = true := decide_eq_true rfl
  refine wp_ask_last ⟨hrow.owns, row, hrow.found, rfl, hdata, fun hd => ?_⟩ (hrow.since.snoc hop)
  exact hrow.notYet (hrow.since.distinct.1 hd)

theorem wp_counted {p : Veto Unit} {done : BackfillSummary}
    (hp : p.Wp (histSem vetoSig) (vetoPre texts c) (fun _ => Since h row.id) h') :
    (p >>= fun _ => Prog.ret done).Wp (histSem vetoSig) (vetoPre texts c)
      (fun _ => Since h row.id) h' :=
  wp_bind_of hp (fun _ _ hs => hs) fun _ _ hs => hs

theorem wp_markUnresolvable (hrow : InRow c h row h') {method : String}
    (hdata : ∀ h'' time, (∀ e ∈ h', e ∈ h'') → Honest texts h'' row.toProposedTrade
      { cfMethod := some method, cfEvaluatedAt := some time }) :
    (markUnresolvable row method).Wp (histSem vetoSig) (vetoPre texts c)
      (fun _ => Since h row.id) h' := by
  refine wp_ask_of trivial (fun time => ?_) (hrow.ended rfl)
  exact wp_write (hrow.next .clock rfl (.ok time)) (hdata _ time fun e he => List.mem_append_left _ he)

theorem wp_evaluateMature (hrow : InRow c h row h') {refPrice : ℚ} {now : ℤ}
    (haction : isSupportedAction row.proposedAction = true)
    (href : validRefPrice row.refPrice = some refPrice) (hclock : ⟨.clock, .ok now⟩ ∈ h')
    (hmature : isMature row.ts opts.horizonBars opts.timeframe now = true) :
    (evaluateMature texts opts row refPrice now summary).Wp (histSem vetoSig) (vetoPre texts c)
      (fun _ => Since h row.id) h' := by
  refine wp_ask_of trivial (fun bars => ?_) (hrow.ended rfl)
  have hrow' := hrow.next (.getOhlcv row.symbol opts.timeframe
    (computeNeededFetchLimit row.ts opts.horizonBars opts.timeframe now)) rfl (.ok bars)
  have hbars := List.mem_append_right h' (List.mem_singleton_self
    (⟨.getOhlcv row.symbol opts.timeframe (computeNeededFetchLimit row.ts opts.horizonBars
      opts.timeframe now), .ok bars⟩ : Event vetoSig))
  have hclock' := List.mem_append_left [(⟨.getOhlcv row.symbol opts.timeframe
    (computeNeededFetchLimit row.ts opts.horizonBars opts.timeframe now), .ok bars⟩ :
      Event vetoSig)] hclock
  cases hmark : locateMarkBar texts bars (texts.toISOString row.ts) opts.horizonBars with
  | none =>
    refine wp_counted (wp_markUnresolvable hrow' fun h'' time hsub => ?_)
    exact .insufficient opts now time bars haction (by rw [href]; exact Option.some_ne_none _)
      (hsub _ hclock') hmature (hsub _ hbars) hmark
  | some markBar =>
    refine wp_ask_of trivial (fun time => ?_) (hrow'.ended rfl)
    exact wp_counted (wp_write (hrow'.next .clock rfl (.ok time)) (.evaluated opts now time bars markBar
      refPrice haction href (List.mem_append_left _ hclock') hmature
      (List.mem_append_left _ hbars) hmark))

/-- **One decision**: it is written for a reason, if at all. -/
theorem wp_evaluateRow (hrow : InRow c h row h) :
    (evaluateRow texts opts row summary).Wp (histSem vetoSig) (vetoPre texts c)
      (fun _ => Since h row.id) h := by
  rw [evaluateRow]
  refine wp_ite (fun haction => ?_) fun haction => ?_
  · refine wp_counted (wp_markUnresolvable hrow fun h'' time _ => ?_)
    exact .unsupported time (Bool.not_eq_true _ ▸ haction)
  · rw [not_not] at haction
    cases href : validRefPrice row.refPrice with
    | none =>
      exact wp_counted (wp_markUnresolvable hrow fun h'' time _ => .invalid time haction href)
    | some refPrice =>
      refine wp_ask_of trivial (fun now => ?_) (hrow.ended rfl)
      refine wp_ite (fun _ => (hrow.next .clock rfl (.ok now)).since) fun hmature => ?_
      exact wp_evaluateMature (hrow.next .clock rfl (.ok now)) haction href
        (List.mem_append_right _ (List.mem_singleton_self _)) (not_not.1 hmature)

theorem Since.holding_eq {id : String} (hs : Since h id h') : holding h' = holding h := by
  have hany : ∀ q : Event vetoSig → Bool, (∀ e, about id e.1 = true → q e = false) →
      h'.any q = h.any q := by
    intro q hq
    rw [Bool.eq_iff_iff, List.any_eq_true, List.any_eq_true]
    constructor
    · rintro ⟨e, he, hqe⟩
      refine ⟨e, (hs.2 e he).resolve_right fun hop => ?_, hqe⟩
      rw [hq e hop] at hqe
      cases hqe
    · exact fun ⟨e, he, hqe⟩ => ⟨e, hs.1.subset he, hqe⟩
  rw [holding, holding, hany isEntered, hany isLeft]
  · rintro ⟨op, r⟩ hop
    cases op <;> first | rfl | cases hop
  · rintro ⟨op, r⟩ hop
    cases op <;> first | rfl | cases hop

/-- **The decisions one after the other.** -/
theorem wp_evaluateRows : ∀ {rows : List VetoDecisionRow} {h : List (Event vetoSig)}
    {summary : BackfillSummary}, Owns c h → (∀ row ∈ rows, Found h row) →
    (Distinct h → (rows.map fun row => row.id).Nodup ∧ ∀ row ∈ rows, NotYet h row.id) →
    (evaluateRows texts opts rows summary).Wp (histSem vetoSig) (vetoPre texts c)
      (fun _ h' => holding h' = holding h) h
  | [], _, _, _, _, _ => rfl
  | row :: rows, h, summary, hown, hfound, hnot => by
    have hrow : InRow c h row h := ⟨.refl h row.id, hown, hfound row List.mem_cons_self,
      fun hd => (hnot hd).2 row List.mem_cons_self⟩
    refine wp_attempt_bind.2 (wp_post (fun r h' hs => ?_) (wp_evaluateRow hrow))
    have hown' : Owns c h' := hown.imp_right fun hh => hs.holding_eq.trans hh
    have hfound' : ∀ row' ∈ rows, Found h' row' := fun row' hrow' =>
      (hfound row' (List.mem_cons_of_mem _ hrow')).mono fun e he => hs.1.subset he
    have hnot' : Distinct h' →
        (rows.map fun row => row.id).Nodup ∧ ∀ row' ∈ rows, NotYet h' row'.id := by
      intro hd
      obtain ⟨hnodup, hnot⟩ := hnot (hs.distinct.1 hd)
      rw [List.map_cons, List.nodup_cons] at hnodup
      refine ⟨hnodup.2, fun row' hrow' => hs.notYet (fun heq => ?_)
        (hnot row' (List.mem_cons_of_mem _ hrow'))⟩
      exact hnodup.1 (heq ▸ List.mem_map_of_mem hrow')
    cases r with
    | ok summary' =>
      exact wp_post (fun _ _ hh => hh.trans hs.holding_eq) (wp_evaluateRows hown' hfound' hnot')
    | error e =>
      exact wp_post (fun _ _ hh => hh.trans hs.holding_eq) (wp_evaluateRows hown' hfound' hnot')

/-- **A sweep**, where none was before. -/
theorem wp_backfill (hown : Owns c h) (hfresh : ∀ e ∈ h, isFlag e.1 = true)
    (hreprocess : (∃ opts, c = .post opts) ∨ opts.reprocessInsufficient = false) :
    (backfill texts opts).Wp (histSem vetoSig) (vetoPre texts c)
      (fun _ h' => holding h' = holding h) h := by
  have hnone : ∀ op r, (⟨op, r⟩ : Event vetoSig) ∈ h → isFlag op = false → False := by
    intro op r hmem hop
    rw [hfresh _ hmem] at hop
    cases hop
  refine wp_ask_of ⟨fun b r hmem => hnone _ r hmem rfl, hown, hreprocess⟩ (fun rows => ?_)
    fun e => holding_snoc rfl _
  have hread : (⟨.findMany opts.reprocessInsufficient, .ok rows⟩ : Event vetoSig) ∈
      h ++ [⟨.findMany opts.reprocessInsufficient, .ok rows⟩] :=
    List.mem_append_right _ (List.mem_singleton_self _)
  refine wp_post (fun _ _ hh => hh.trans (holding_snoc rfl _)) (wp_evaluateRows (hown.snoc rfl _)
    (fun row hrow => ⟨_, rows, hread, hrow⟩) fun hd => ⟨hd _ rows hread, fun row _ data r hmem => ?_⟩)
  rcases List.mem_append.1 hmem with hmem | hmem
  · exact hnone _ r hmem rfl
  · cases congrArg Sigma.fst (List.mem_singleton.1 hmem)

/-- **What a call awaits**, whatever it is answered. -/
theorem vetoPre_body (texts : Texts) (c : VetoCall) :
    (vetoBody texts c).Wp (histSem vetoSig) (vetoPre texts c) (fun _ _ => True) [] := by
  cases c with
  | tick =>
    refine wp_ask_of rfl (fun entered => ?_) fun _ => trivial
    cases entered with
    | true =>
      refine wp_attempt_bind.2 (wp_post (fun r h' hh => ?_) (wp_backfill (.inr rfl) ?_ (.inr rfl)))
      · exact wp_ask_last hh fun _ => trivial
      · intro e he
        rw [List.mem_singleton.1 he]
        rfl
    | false => trivial
  | post opts =>
    refine wp_bind_of (wp_backfill (.inl ⟨opts, rfl⟩) (fun e he => ?_) (.inl ⟨opts, rfl⟩))
      (fun _ _ _ => trivial) fun _ _ _ => trivial
    cases he
  | propose data => exact wp_ask_last trivial fun _ => trivial

end Sweeps

/-! ## One operation -/

section Rel

variable {w w' : Books} {op : VetoOp} {r : vetoSig.Outcome op}

theorem effect_cases {α : Type} {o : Oracle} {x : Except Err (α × Books)} {r : Except Err α}
    (h : effect o w x = (r, w')) :
    ((∃ e, r = .error e) ∧ w' = w) ∨ ∃ a, r = .ok a ∧ x = .ok (a, w') := by
  unfold effect at h
  split at h <;> cases h
  · exact .inl ⟨⟨_, rfl⟩, rfl⟩
  · exact .inl ⟨⟨_, rfl⟩, rfl⟩
  · exact .inr ⟨_, rfl, rfl⟩

/-- **What an operation does**: the flag apart, it leaves the world alone, evaluates a decision, or
writes a new one. -/
theorem rel_cases (hm : vetoSem.rel op w r w') :
    (w'.rows = w.rows ∧ (isFlag op = false → w' = w)) ∨
    (∃ id data, op = .update id data ∧ w' = w.evaluate id data) ∨
    ∃ data, op = .create data ∧ (∀ row ∈ w.rows, row.id ≠ data.id) ∧ w' = w.propose data := by
  obtain ⟨o, -, heq⟩ := hm
  have same : w' = w → (w'.rows = w.rows ∧ (isFlag op = false → w' = w)) :=
    fun heq => ⟨congrArg _ heq, fun _ => heq⟩
  cases op with
  | clock =>
    cases heq
    exact .inl (same rfl)
  | enter =>
    cases heq
    exact .inl ⟨rfl, fun hop => by cases hop⟩
  | leave =>
    cases heq
    exact .inl ⟨rfl, fun hop => by cases hop⟩
  | findMany reprocess =>
    rcases effect_cases heq with ⟨-, rfl⟩ | ⟨a, -, hx⟩
    · exact .inl (same rfl)
    · cases hx
      exact .inl (same rfl)
  | getOhlcv symbol timeframe limit =>
    rcases effect_cases heq with ⟨-, rfl⟩ | ⟨a, -, hx⟩
    · exact .inl (same rfl)
    · cases hx
      exact .inl (same rfl)
  | update id data =>
    rcases effect_cases heq with ⟨-, rfl⟩ | ⟨a, -, hx⟩
    · exact .inl (same rfl)
    · split at hx <;> cases hx
      exact .inr (.inl ⟨id, data, rfl, rfl⟩)
  | create data =>
    rcases effect_cases heq with ⟨-, rfl⟩ | ⟨a, -, hx⟩
    · exact .inl (same rfl)
    · split at hx <;> cases hx
      next hfresh =>
      refine .inr (.inr ⟨data, rfl, fun row hrow hid => hfresh ?_, rfl⟩)
      exact List.any_eq_true.2 ⟨row, hrow, decide_eq_true hid⟩

theorem found_of_rel {reprocess : Bool} {rows : List VetoDecisionRow}
    (hm : vetoSem.rel (.findMany reprocess) w (.ok rows) w') :
    rows = w.rows.filter (selected reprocess) := by
  obtain ⟨o, -, heq⟩ := hm
  rcases effect_cases heq with ⟨⟨e, he⟩, -⟩ | ⟨a, ha, hx⟩
  · cases he
  · cases ha
    cases hx
    rfl

theorem mem_evaluate {id : String} {data : Evaluation} {row : VetoDecisionRow} :
    row ∈ (w.evaluate id data).rows ↔ ∃ row' ∈ w.rows,
      (row'.id = id ∧ row = { row' with toEvaluation := data }) ∨ (row'.id ≠ id ∧ row = row') := by
  simp only [Books.evaluate, Store.mem_modify, decide_eq_true_eq, ne_eq]

theorem mem_propose {data : ProposedTrade} {row : VetoDecisionRow} :
    row ∈ (w.propose data).rows ↔
      row ∈ w.rows ∨ row = { toProposedTrade := data, toEvaluation := {} } := by
  rw [Books.propose, List.mem_append, List.mem_singleton]

/-- The ids of the ledger differ. -/
def Books.Distinct (w : Books) : Prop := (w.rows.map fun row => row.id).Nodup

theorem Books.Distinct.eq (hw : w.Distinct) {row row' : VetoDecisionRow} (hrow : row ∈ w.rows)
    (hrow' : row' ∈ w.rows) (hid : row.id = row'.id) : row = row' :=
  List.inj_on_of_nodup_map hw hrow hrow' hid

theorem distinct_step (hm : vetoSem.rel op w r w') (hw : w.Distinct) : w'.Distinct := by
  rcases rel_cases hm with ⟨hrows, -⟩ | ⟨id, data, -, rfl⟩ | ⟨data, -, hfresh, rfl⟩
  · rw [Books.Distinct, hrows]
    exact hw
  · have hids : (w.evaluate id data).rows.map (fun row => row.id) = w.rows.map fun row => row.id :=
      Store.map_modify fun _ => rfl
    rw [Books.Distinct, hids]
    exact hw
  · rw [Books.Distinct, Books.propose, List.map_append]
    refine List.nodup_append.2 ⟨hw, List.nodup_singleton _, ?_⟩
    rintro id hid id' hid' rfl
    obtain ⟨row, hrow, rfl⟩ := List.mem_map.1 hid
    exact hfresh row hrow (List.mem_singleton.1 hid')

theorem proposed_step (hm : vetoSem.rel op w r w') {row : VetoDecisionRow} (hrow : row ∈ w.rows) :
    ∃ row' ∈ w'.rows, row'.toProposedTrade = row.toProposedTrade := by
  rcases rel_cases hm with ⟨hrows, -⟩ | ⟨id, data, -, rfl⟩ | ⟨data, -, -, rfl⟩
  · exact ⟨row, hrows ▸ hrow, rfl⟩
  · by_cases hid : row.id = id
    · exact ⟨_, mem_evaluate.2 ⟨row, hrow, .inl ⟨hid, rfl⟩⟩, rfl⟩
    · exact ⟨row, mem_evaluate.2 ⟨row, hrow, .inr ⟨hid, rfl⟩⟩, rfl⟩
  · exact ⟨row, mem_propose.2 (.inl hrow), rfl⟩

end Rel

/-! ## Every value is honest -/

section Reach

variable {texts : Texts}

/-- What an answer still says: it was recorded, and a decision that was read is still there. -/
def Recorded (e : Event vetoSig) (w : Books × List (Event vetoSig)) : Prop :=
  e ∈ w.2 ∧ ∀ reprocess, ∀ rows : List VetoDecisionRow, e = ⟨.findMany reprocess, .ok rows⟩ →
    ∀ row ∈ rows, ∃ row' ∈ w.1.rows, row'.toProposedTrade = row.toProposedTrade

/-- The ids differ, and every evaluation is honest. -/
structure HonestBooks (texts : Texts) (w : Books × List (Event vetoSig)) : Prop where
  distinct : w.1.Distinct
  honest : ∀ row ∈ w.1.rows, Honest texts w.2 row.toProposedTrade row.toEvaluation

theorem honest_step {w w' : Books × List (Event vetoSig)} {c : VetoCall}
    {h : List (Event vetoSig)} {op : VetoOp} {r : vetoSig.Outcome op} (hw : HonestBooks texts w)
    (hh : ∀ e ∈ h, Recorded e w) (hpre : vetoPre texts c h op)
    (hm : vetoSem.traced.rel op w r w') : HonestBooks texts w' := by
  obtain ⟨hrel, htrace⟩ := hm
  have hgrow : ∀ e ∈ w.2, e ∈ w'.2 := fun e he => htrace ▸ List.mem_append_left _ he
  refine ⟨distinct_step hrel hw.distinct, ?_⟩
  rcases rel_cases hrel with ⟨hrows, -⟩ | ⟨id, data, rfl, heq⟩ | ⟨data, -, -, heq⟩
  · rw [hrows]
    exact fun row hrow => (hw.honest row hrow).mono hgrow
  · obtain ⟨-, found, ⟨reprocess, rows, hread, hin⟩, hid, hdata, -⟩ := hpre
    rw [heq]
    intro row hrow
    obtain ⟨row', hrow', ⟨hid', rfl⟩ | ⟨-, rfl⟩⟩ := mem_evaluate.1 hrow
    · -- the decision that was read under the id is the one that is written
      obtain ⟨kept, hkept, hproposed⟩ := (hh _ hread).2 reprocess rows rfl found hin
      have hsame : row' = kept := hw.distinct.eq hrow' hkept
        (by rw [hid', ← hid, ← congrArg ProposedTrade.id hproposed])
      rw [← hproposed, ← hsame] at hdata
      exact hdata.mono fun e he => hgrow e (hh e he).1
    · exact (hw.honest _ hrow').mono hgrow
  · rw [heq]
    intro row hrow
    rcases mem_propose.1 hrow with hrow | rfl
    · exact (hw.honest row hrow).mono hgrow
    · exact .unevaluated

theorem recorded_step {w w' : Books × List (Event vetoSig)} {op : VetoOp}
    {r : vetoSig.Outcome op} (hm : vetoSem.traced.rel op w r w') :
    Recorded ⟨op, r⟩ w' ∧ ∀ e, Recorded e w → Recorded e w' := by
  obtain ⟨hrel, htrace⟩ := hm
  refine ⟨⟨htrace ▸ List.mem_append_right _ (List.mem_singleton_self _), ?_⟩, ?_⟩
  · intro reprocess rows heq row hrow
    cases heq
    have hrow' := (List.mem_filter.1 (found_of_rel hrel ▸ hrow)).1
    exact proposed_step hrel hrow'
  · rintro e ⟨he, hfound⟩
    refine ⟨htrace ▸ List.mem_append_left _ he, fun reprocess rows heq row hrow => ?_⟩
    obtain ⟨kept, hkept, hproposed⟩ := hfound reprocess rows heq row hrow
    obtain ⟨kept', hkept', hproposed'⟩ := proposed_step hrel hkept
    exact ⟨kept', hkept', hproposed'.trans hproposed⟩

theorem reaches_honestBooks {P : Pool vetoSig VetoCall (Books × List (Event vetoSig))}
    (hr : Pool.Reaches vetoSem.traced (vetoBody texts) Pool.free ⟨({}, []), []⟩ P) :
    HonestBooks texts P.world := by
  refine Pool.reaches_invariant (J := HonestBooks texts) (K := Recorded)
    (vetoPre_body texts) (fun w w' ts t op r hw hh hpre _ hm => ?_) ?_ hr
  · exact ⟨honest_step hw hh hpre hm, recorded_step hm⟩
  · exact ⟨List.nodup_nil, fun row hrow => by cases hrow⟩

/-- **Every value of the ledger is honest**, under every interleaving of the sweeps of the timer,
those of the panel, and the cycles that write decisions. -/
theorem reaches_honest {P : Pool vetoSig VetoCall (Books × List (Event vetoSig))}
    (hr : Pool.Reaches vetoSem.traced (vetoBody texts) Pool.free ⟨({}, []), []⟩ P) :
    ∀ row ∈ P.world.1.rows, Honest texts P.world.2 row.toProposedTrade row.toEvaluation :=
  (reaches_honestBooks hr).honest

end Reach

/-! ## A first sweep -/

def blockedLong : ProposedTrade where
  id := "d1"
  ts := 1767571200000
  symbol := "SPY"
  sourcePlugin := "momentum-factor-12-1"
  verdict := "blocked"
  proposedAction := "long"
  proposedQty := 2
  refPrice := some 100

def januaryTexts : Texts where
  numeral n := if n = .fin 5 then "5" else "10"
  toISOString _ := "2026-01-05T00:00:00.000Z"
  parse s := [("2026-01-05T00:00:00.000Z", (1767571200000 : ℤ)),
    ("2026-01-06T00:00:00.000Z", 1767657600000), ("2026-01-07T00:00:00.000Z", 1767744000000),
    ("2026-01-08T00:00:00.000Z", 1767830400000), ("2026-01-09T00:00:00.000Z", 1767916800000),
    ("2026-01-12T00:00:00.000Z", 1768176000000)].lookup s

def januaryBars : List OhlcvBar :=
  [⟨"2026-01-06T00:00:00.000Z", 101⟩, ⟨"2026-01-07T00:00:00.000Z", 103⟩,
    ⟨"2026-01-08T00:00:00.000Z", 102⟩, ⟨"2026-01-09T00:00:00.000Z", 104⟩,
    ⟨"2026-01-12T00:00:00.000Z", 105⟩]

/-- The decision is written, and a tick of the first of February evaluates it. -/
def firstSweep : List (Move VetoCall Oracle) :=
  [.start (.propose blockedLong), .await 0 {}, .start .tick, .await 1 {}, .await 1 {},
    .await 1 { time := 1769904000000 }, .await 1 { bars := januaryBars },
    .await 1 { time := 1769904000000 }, .await 1 {}, .await 1 {}]

def afterFirstSweep : Option (Pool vetoSig VetoCall (Books × List (Event vetoSig))) :=
  Pool.replay (fun i => Sem.recording (handleVeto i)) (vetoBody januaryTexts) Pool.unchecked
    firstSweep ⟨({}, []), []⟩

theorem afterFirstSweep_isSome : afterFirstSweep.isSome := by decide

/-- The decision with its value: five per cent, less ten basis points, of two at a hundred. -/
def evaluatedLong : VetoDecisionRow :=
  { blockedLong with
    cfPnl := some (.fin (49 / 5))
    cfMethod := some "fixed_horizon:5:1d:costbps10:v1"
    cfEvaluatedAt := some 1769904000000 }

theorem cfPnlOf_blockedLong :
    cfPnlOf blockedLong 100 ⟨"2026-01-12T00:00:00.000Z", 105⟩ defaultCostBps = .fin (49 / 5) := by
  show (((((Number.fin 105).sub (.fin 100)).div (.fin 100)).sub (.fin (10 / 10000))).mul
    (.fin 100)).mul (.fin 2) = .fin (49 / 5)
  have hhundred : (100 : ℚ) ≠ 0 := by norm_num
  rw [Number.sub_fin, Number.div_fin _ hhundred, Number.sub_fin, Number.mul_fin, Number.mul_fin]
  norm_num

theorem evaluatedLong_eq : evaluatedLong = { blockedLong with
    cfPnl := some (cfPnlOf blockedLong 100 ⟨"2026-01-12T00:00:00.000Z", 105⟩ defaultCostBps)
    cfMethod := some (buildCfMethod januaryTexts (resolveOptions {}))
    cfEvaluatedAt := some 1769904000000 } := by
  rw [cfPnlOf_blockedLong]
  rfl

theorem mem_afterFirstSweep :
    evaluatedLong ∈ (afterFirstSweep.get afterFirstSweep_isSome).world.1.rows :=
  List.mem_singleton.2 evaluatedLong_eq

theorem honest_afterFirstSweep : Honest januaryTexts
    (afterFirstSweep.get afterFirstSweep_isSome).world.2 evaluatedLong.toProposedTrade
    evaluatedLong.toEvaluation :=
  reaches_honest (Pool.traced_of_replay (fun _ _ _ _ _ => trivial)
    (Option.some_get afterFirstSweep_isSome).symm) evaluatedLong mem_afterFirstSweep

/-! ## Sweeps of the timer -/

/-- A sweep of the timer is under way. -/
def sweeping (t : Thread vetoSig VetoCall) : Bool := holding t.hist

/-- What was read and not yet written has no evaluation yet. -/
def Waiting (w : Books) (h : List (Event vetoSig)) : Prop :=
  VetoAnalyzer.Distinct h ∧ ∀ row, Found h row → NotYet h row.id →
    ∀ row' ∈ w.rows, row'.id = row.id → row'.unevaluated = true

/-- **One sweep at a time**, while the flag is up. -/
structure OneSweep (w : Books) (ts : List (Thread vetoSig VetoCall)) : Prop where
  distinct : w.Distinct
  one : ts.countP sweeping ≤ w.backfillRunning.toNat
  waiting : ∀ t ∈ ts, sweeping t = true → Waiting w t.hist

section Timer

variable {texts : Texts} {w w' : Books} {xs ys ts : List (Thread vetoSig VetoCall)} {c : VetoCall}
  {h : List (Event vetoSig)} {op : VetoOp} {k : vetoSig.Outcome op → Veto Unit}
  {r : vetoSig.Outcome op}

theorem OneSweep.alone (hJ : OneSweep w (xs ++ ⟨c, h, .await op k⟩ :: ys))
    (hh : holding h = true) : ∀ t ∈ xs ++ ys, sweeping t = false := by
  have hone := hJ.one
  have hthis : sweeping (⟨c, h, .await op k⟩ : Thread vetoSig VetoCall) = true := hh
  have hflag := Bool.toNat_le w.backfillRunning
  rw [List.countP_append, List.countP_cons, if_pos hthis] at hone
  have hrest : (xs ++ ys).countP sweeping = 0 := by
    rw [List.countP_append]
    omega
  intro t ht
  exact Bool.not_eq_true _ ▸ List.countP_eq_zero.1 hrest t ht

theorem OneSweep.this (hJ : OneSweep w (xs ++ ⟨c, h, .await op k⟩ :: ys))
    (hh : holding h = true) : Waiting w h :=
  hJ.waiting ⟨c, h, .await op k⟩ (List.mem_append_right _ List.mem_cons_self) hh

/-- **A decision that has been evaluated is not written** by a sweep of the timer. -/
theorem kept_step (hJ : OneSweep w (xs ++ ⟨c, h, .await op k⟩ :: ys))
    (hpre : vetoPre texts c h op) (hc : ∀ opts, c ≠ .post opts) (hm : vetoSem.rel op w r w')
    {row : VetoDecisionRow} (hrow : row ∈ w.rows) (hdone : row.unevaluated = false) :
    row ∈ w'.rows := by
  rcases rel_cases hm with ⟨hrows, -⟩ | ⟨id, data, rfl, rfl⟩ | ⟨data, -, -, rfl⟩
  · exact hrows ▸ hrow
  · obtain ⟨howns, found, hfound, hid, -, hnot⟩ := hpre
    have hh : holding h = true := howns.resolve_left fun ⟨opts, hpost⟩ => hc opts hpost
    obtain ⟨hdistinct, hwait⟩ := hJ.this hh
    refine mem_evaluate.2 ⟨row, hrow, .inr ⟨fun heq => ?_, rfl⟩⟩
    rw [hwait found hfound (hid ▸ hnot hdistinct) row hrow (heq.trans hid.symm)] at hdone
    cases hdone
  · exact mem_propose.2 (.inl hrow)

theorem OneSweep.next (hJ : OneSweep w (xs ++ ⟨c, h, .await op k⟩ :: ys)) (hw' : w'.Distinct)
    (hone : (xs ++ ⟨c, h ++ [⟨op, r⟩], k r⟩ :: ys).countP sweeping ≤ w'.backfillRunning.toNat)
    (hothers : ∀ t ∈ xs ++ ys, sweeping t = true → Waiting w t.hist → Waiting w' t.hist)
    (hthis : holding (h ++ [⟨op, r⟩]) = true → Waiting w' (h ++ [⟨op, r⟩])) :
    OneSweep w' (xs ++ ⟨c, h ++ [⟨op, r⟩], k r⟩ :: ys) := by
  refine ⟨hw', hone, fun t ht hsweep => ?_⟩
  rcases List.mem_append.1 ht with ht | ht
  · exact hothers t (List.mem_append_left _ ht) hsweep
      (hJ.waiting t (List.mem_append_left _ ht) hsweep)
  · rcases List.mem_cons.1 ht with rfl | ht
    · exact hthis hsweep
    · exact hothers t (List.mem_append_right _ ht) hsweep
        (hJ.waiting t (List.mem_append_right _ (List.mem_cons_of_mem _ ht)) hsweep)

theorem Waiting.snoc (hwait : Waiting w h) (hfind : ∀ reprocess, op ≠ .findMany reprocess) :
    Waiting w (h ++ [⟨op, r⟩]) := by
  have hread : ∀ reprocess, ∀ rows : List VetoDecisionRow,
      (⟨.findMany reprocess, .ok rows⟩ : Event vetoSig) ∈ h ++ [⟨op, r⟩] →
      (⟨.findMany reprocess, .ok rows⟩ : Event vetoSig) ∈ h := by
    intro reprocess rows hmem
    rcases List.mem_append.1 hmem with hmem | hmem
    · exact hmem
    · have hop : VetoOp.findMany reprocess = op := congrArg Sigma.fst (List.mem_singleton.1 hmem)
      exact absurd hop.symm (hfind reprocess)
  refine ⟨fun reprocess rows hmem => hwait.1 reprocess rows (hread reprocess rows hmem), ?_⟩
  rintro row ⟨reprocess, rows, hmem, hin⟩ hnot row' hrow' hid
  refine hwait.2 row ⟨reprocess, rows, hread reprocess rows hmem, hin⟩ ?_ row' hrow' hid
  exact fun data r' hmem' => hnot data r' (List.mem_append_left _ hmem')

theorem Waiting.written {id : String} {data : Evaluation} (hwait : Waiting w h)
    {r : vetoSig.Outcome (.update id data)} (hrows : w'.rows = w.rows ∨ w' = w.evaluate id data) :
    Waiting w' (h ++ [⟨.update id data, r⟩]) := by
  have hsnoc : Waiting w (h ++ [⟨.update id data, r⟩]) :=
    hwait.snoc fun reprocess heq => VetoOp.noConfusion heq
  obtain ⟨hdistinct, hwaiting⟩ := hsnoc
  refine ⟨hdistinct, fun row hfound hnot row' hrow' hid => ?_⟩
  rcases hrows with hrows | rfl
  · exact hwaiting row hfound hnot row' (hrows ▸ hrow') hid
  · obtain ⟨kept, hkept, ⟨hwritten, rfl⟩ | ⟨-, rfl⟩⟩ := mem_evaluate.1 hrow'
    · have hrow : row.id = id := hid.symm.trans hwritten
      refine absurd (List.mem_append_right _ (List.mem_singleton.2 ?_)) (hnot data (hrow ▸ r))
      subst hrow
      rfl
    · exact hwaiting row hfound hnot _ hkept hid

end Timer

/-! ## A second tick -/

end NeoTrader.VetoAnalyzer

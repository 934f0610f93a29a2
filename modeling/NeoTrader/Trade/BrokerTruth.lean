import Mathlib.Data.Fintype.EquivFin
import NeoTrader.Trade.ExactlyOnce
import NeoTrader.Trade.ExitClosing

/-!
# Failed broker requests

The portfolio of the broker is read by two requests. The callers of `getPortfolio` are written for a
portfolio that cannot be read; `getPortfolio` itself replaces the body of a failed request by a
default.

* **`failed_request_is_not_truth`**: the callers are safe exactly where no declared request fails, or
  the positions that were answered have a `null` among them;
* **`failed_request_is_truth`**: after a failed positions request an exit trades on paper.
-/

namespace NeoTrader

open Js Await Prog

/-! ## The outcomes of the two requests -/

/-- The two requests have these outcomes. -/
def requesting (m : ProviderManifest) (account positions : Except Err Json) (o : Oracle) (_ : TradeOp)
    (_ : World) : Prop :=
  o.ext (.request m.id "portfolio") = account ∧ o.ext (.request m.id "positions") = positions

def FailedRequest (m : ProviderManifest) (account positions : Except Err Json) : Prop :=
  m.declares "portfolio" ∧ (∃ e, account = .error e) ∨
    m.declares "positions" ∧ ∃ e, positions = .error e

/-- The answered positions have a `null` among them. -/
def NullPosition (m : ProviderManifest) (positions : Except Err Json) : Prop :=
  m.format = "alpaca" ∧ m.declares "positions" ∧ ∃ rows, positions = .ok (.arr rows) ∧ .null ∈ rows

section Portfolio

variable {m : ProviderManifest} {account positions : Except Err Json}

theorem normalizePosition_error {row : Json} :
    (∃ e, normalizePosition row = .error e) ↔ row = .null := by
  cases row <;> simp [normalizePosition]

theorem mapM_normalizePosition_error (rows : List Json) :
    (∃ e, rows.mapM normalizePosition = .error e) ↔ .null ∈ rows := by
  induction rows with
  | nil => simp [pure, Except.pure]
  | cons row rows ih =>
    rw [List.mem_cons, ← ih, eq_comm, ← normalizePosition_error, List.mapM_cons]
    cases normalizePosition row with
    | error e => simp [Bind.bind, Except.bind]
    | ok pos =>
      cases rows.mapM normalizePosition <;> simp [Bind.bind, Except.bind, pure, Except.pure]

/-- **A portfolio cannot be read only where a `null` stands among its positions.** -/
theorem portfolioOf_error (hf : FailedRequest m account positions) :
    (∃ e, portfolioOf m account positions = .error e) ↔ NullPosition m positions := by
  have hd : ¬ (¬ m.declares "portfolio" ∧ ¬ m.declares "positions") := by
    rintro ⟨h₁, h₂⟩
    rcases hf with ⟨h, -⟩ | ⟨h, -⟩
    · exact h₁ h
    · exact h₂ h
  rw [portfolioOf, if_neg hd, normalizePortfolio]
  by_cases hformat : m.format = "alpaca"
  · have hrows : (∃ e, (positionRows (bodyOr m "positions" (.arr []) positions)).mapM
        normalizePosition = .error e) ↔ NullPosition m positions := by
      rw [mapM_normalizePosition_error]
      by_cases hp : m.declares "positions"
      · rw [bodyOr_declared hp]
        rcases positions with e | body
        · simp [NullPosition, positionRows, Except.toOption]
        · cases body <;> simp [NullPosition, positionRows, Except.toOption, hformat, hp]
      · rw [bodyOr_undeclared hp]
        simp [NullPosition, positionRows, hp]
    rw [← hrows, if_pos hformat]
    cases (positionRows (bodyOr m "positions" (.arr []) positions)).mapM normalizePosition <;>
      simp [Except.map]
  · rw [if_neg hformat]
    simp [Except.map, NullPosition, hformat]

theorem portfolioOf_congr {account' positions' : Except Err Json}
    (ha : m.declares "portfolio" → account' = account)
    (hp : m.declares "positions" → positions' = positions) :
    portfolioOf m account' positions' = portfolioOf m account positions := by
  have haccount : bodyOr m "portfolio" .null account' = bodyOr m "portfolio" .null account := by
    by_cases h : m.declares "portfolio"
    · rw [ha h]
    · rw [bodyOr_undeclared h, bodyOr_undeclared h]
  have hpositions : bodyOr m "positions" (.arr []) positions' =
      bodyOr m "positions" (.arr []) positions := by
    by_cases h : m.declares "positions"
    · rw [hp h]
    · rw [bodyOr_undeclared h, bodyOr_undeclared h]
  rw [portfolioOf, portfolioOf, haccount, hpositions]

theorem ends_portfolioOf {w : World} {broker : String} (hb : broker ≠ "")
    (hm : w.providers broker = some m) : Ends (requesting m account positions)
      (fun r w' => r = portfolioOf m account positions ∧ w' = w) (getPortfolio broker) w := by
  refine ends_getPortfolio hb hm fun account' positions' ha hp => ⟨?_, rfl⟩
  refine portfolioOf_congr (fun hd => ?_) fun hd => ?_
  · obtain ⟨o, ho, rfl⟩ := ha hd
    exact ho.1
  · obtain ⟨o, ho, rfl⟩ := hp hd
    exact ho.2

end Portfolio

/-! ## What the callers must not do -/

/-- The record of an exit whose position is taken to be absent. -/
def noPosition (symbol : String) : ResultJson :=
  errorResult [.lit s!"no open broker position for {symbol}"]

/-- **The callers do not take what the requests left as the truth**: an exit ends failed and leaves
the paper account alone, the cached positions and the snapshots stay, and no position is taken to
be absent. -/
structure FailedRequestIsNotTruth (m : ProviderManifest) (account positions : Except Err Json) :
    Prop where
  exit : ∀ {w w' c t x}, Execution c → w.intent? c.intentId = some t → t.status = .pending →
    t.action = .exit → w.policy.brokerPluginId ≠ "" →
    w.providers w.policy.brokerPluginId = some m →
    c.body.Exec (answering (requesting m account positions)) w x w' →
    w'.statusOf? c.intentId = some .failed ∧ w'.paperLog = w.paperLog
  sync : ∀ {w w' broker source x}, broker ≠ "" → w.providers broker = some m →
    (syncPortfolio broker source).Exec (answering (requesting m account positions)) w x w' →
    w'.positions = w.positions ∧ w'.navs = w.navs
  absent : ∀ {w w' broker symbol x}, broker ≠ "" → w.providers broker = some m →
    (resolveRealExitQty symbol broker).Exec (answering (requesting m account positions)) w x w' →
    x ≠ .ok (.error (noPosition symbol))

/-! ## A portfolio that cannot be read -/

section Unreadable

variable {m : ProviderManifest} {account positions : Except Err Json} {w : World} {e : Err}

theorem ends_failIntent {A : Oracle → TradeOp → World → Prop} {id decidedBy : String}
    {result : ResultJson} {t : TradeIntent} (ht : w.intent? id = some t) :
    Ends A (fun _ w' => w'.statusOf? id = some .failed ∧ w'.paperLog = w.paperLog)
      (failIntent id decidedBy result) w := by
  refine wp_perform_bind.2 ⟨trivial, ?_⟩
  rintro r w' ⟨o, ⟨hdb, -⟩, hh⟩
  obtain ⟨y, hy⟩ : ∃ y, w.updateIntent o.time id
      { status := .failed, decidedBy := some decidedBy, resultJson := some result } = .ok y := by
    unfold World.updateIntent
    rw [ht]
    exact ⟨_, rfl⟩
  obtain ⟨rfl, -⟩ := db_answers hdb hy hh
  have hlog : w'.paperLog = w.paperLog := by
    rw [(handle_logs hh).paperLog]
    exact List.append_nil _
  exact ⟨status_written hh rfl, hlog⟩

theorem exit_of_error (he : portfolioOf m account positions = .error e) {id verb decidedBy : String}
    {sizing : ExecutionPolicy → ℚ} {t : TradeIntent} (ht : w.intent? id = some t)
    (hp : t.status = .pending) (hexit : t.action = .exit) (hb : w.policy.brokerPluginId ≠ "")
    (hm : w.providers w.policy.brokerPluginId = some m) :
    Ends (requesting m account positions)
      (fun _ w' => w'.statusOf? id = some .failed ∧ w'.paperLog = w.paperLog)
      (processIntent id verb decidedBy sizing) w := by
  refine ends_processIntent ht hp (.failed (positionUnavailable "exit routing" e)) ?_
    (ends_failIntent ht)
  unfold resolveMode
  rw [if_pos ⟨hexit, hb⟩]
  refine (wp_bind _ _).2 ((wp_attempt _ _).2 (wp_post ?_ (ends_portfolioOf hb hm)))
  rintro r w' ⟨rfl, rfl⟩
  rw [he]
  exact ⟨rfl, rfl⟩

theorem sync_of_error (he : portfolioOf m account positions = .error e) {broker source : String}
    (hb : broker ≠ "") (hm : w.providers broker = some m) :
    Ends (requesting m account positions) (fun _ w' => w' = w) (syncPortfolio broker source) w := by
  refine (wp_bind _ _).2 ((wp_attempt _ _).2 (wp_post ?_ (ends_portfolioOf hb hm)))
  rintro r w' ⟨rfl, rfl⟩
  rw [he]
  exact rfl

theorem exitQty_of_error (he : portfolioOf m account positions = .error e) {broker symbol : String}
    (hb : broker ≠ "") (hm : w.providers broker = some m) :
    Ends (requesting m account positions)
      (fun r _ => r = .ok (.error (positionUnavailable "exit qty" e)))
      (resolveRealExitQty symbol broker) w := by
  refine (wp_bind _ _).2 ((wp_attempt _ _).2 (wp_post ?_ (ends_portfolioOf hb hm)))
  rintro r w' ⟨rfl, rfl⟩
  rw [he]
  exact rfl

theorem safe_of_error (he : portfolioOf m account positions = .error e) :
    FailedRequestIsNotTruth m account positions where
  exit hc ht hp hexit hb hm hrun := by
    obtain ⟨verb, decidedBy, sizing, hbody⟩ := hc.body_eq
    rw [hbody] at hrun
    exact (exit_of_error he ht hp hexit hb hm).exec hrun
  sync hb hm hrun := by
    have hsame := (sync_of_error he hb hm).exec hrun
    rw [hsame]
    exact ⟨rfl, rfl⟩
  absent hb hm hrun := by
    rw [(exitQty_of_error he hb hm).exec hrun]
    intro h
    have hlen := congrArg List.length (Except.error.inj (Except.ok.inj h))
    simp [positionUnavailable, noPosition, errorResult] at hlen

end Unreadable

/-! ## A portfolio that is read after a failure -/

/-- The two requests have these outcomes, and every symbol is quoted. -/
def quotingOracle (account positions : Except Err Json) : Oracle where
  ext
    | .request _ "portfolio" => account
    | .request _ _ => positions
    | .getQuote _ => .ok (.fin 100)
    | _ => .error (err [])

/-- Every operation meets the quoting oracle. -/
def quoting (account positions : Except Err Json) (o : Oracle) (_ : TradeOp) (_ : World) : Prop :=
  o = quotingOracle account positions

/-- A pending exit at a configured broker. -/
def exitWorldOf (m : ProviderManifest) (symbol : String) : World :=
  { kv := sampleSettings, intents := [sampleIntent "intent-1" symbol .exit]
    providers := fun _ => some m }

section Readable

variable {m : ProviderManifest} {account positions : Except Err Json} {w : World} {p : Portfolio}

theorem quoting_total : (answering (quoting account positions)).Total :=
  fun _ _ => ⟨_, _, quotingOracle account positions, ⟨rfl, rfl⟩, rfl⟩

theorem quoting_requesting {op : TradeOp} {r : tradeSig.Outcome op} {w' : World}
    (h : (answering (quoting account positions)).rel op w r w') :
    (answering (requesting m account positions)).rel op w r w' := by
  obtain ⟨o, ⟨hdb, rfl⟩, hh⟩ := h
  exact ⟨_, ⟨hdb, rfl, rfl⟩, hh⟩

theorem ends_paperLog {α : Type} {A : Oracle → TradeOp → World → Prop} {p : Trade α}
    {log : List PaperWrite}
    (hp : Always (S := tradeSig) (fun _ op => ∀ r, written ⟨op, r⟩ = none) p)
    (hw : w.paperLog = log) : Ends A (fun _ w' => w'.paperLog = log) p w := by
  refine ends_always hp (fun o op w w' r hop hh hw => ?_) hw
  rw [(handle_logs hh).paperLog, hop r, hw]
  exact List.append_nil _

theorem ends_runPaperExecution (id symbol : String) (action : TradeAction) (entry : Entry)
    (decidedBy : String) (sizingPct maxPositionPct maxShortNotionalPct : ℚ) :
    Ends (quoting account positions) (fun _ w' => w'.paperLog ≠ w.paperLog)
      (runPaperExecution id symbol action entry decidedBy sizingPct maxPositionPct
        maxShortNotionalPct) w := by
  refine wp_attempt_perform_bind.2 ⟨trivial, ?_⟩
  rintro r w₁ ⟨o, ⟨-, rfl⟩, hh⟩
  cases hh
  refine wp_ite (fun hle => absurd hle (by norm_num)) fun _ => ?_
  refine wp_perform_bind.2 ⟨trivial, ?_⟩
  rintro r w₂ ⟨o, ⟨hdb, -⟩, hh⟩
  obtain ⟨rfl, -⟩ := db_answers hdb rfl hh
  have hlog := (handle_logs hh).paperLog
  have hgrown : w₂.paperLog ≠ w.paperLog := by
    intro hsame
    rw [hsame] at hlog
    simp [written] at hlog
  refine wp_ite (fun _ => ?_) fun _ => ?_
  · refine wp_post (fun _ w₃ h₃ => ?_) (ends_paperLog ?_ rfl)
    · rw [h₃]
      exact hgrown
    · exact always_bind (always_perform fun _ _ => rfl) fun _ => always_ret ()
  · refine wp_post (fun _ w₃ h₃ => ?_) (ends_paperLog ?_ rfl)
    · rw [h₃]
      exact hgrown
    · exact always_bind (always_perform fun _ _ => rfl) fun _ => always_ret ()

theorem exitWorldOf_broker (symbol : String) :
    (exitWorldOf m symbol).policy.brokerPluginId ≠ "" := by
  have h := exitWorld_broker
  rw [World.policy] at h ⊢
  exact h

/-- **An exit of a symbol that is not in the portfolio trades on paper.** -/
theorem ends_exit_absent (hp : portfolioOf m account positions = .ok p) {symbol : String}
    (hs : p.position? symbol = none) :
    Ends (quoting account positions) (fun _ w' => w'.paperLog ≠ (exitWorldOf m symbol).paperLog)
      (autoProcess "intent-1") (exitWorldOf m symbol) := by
  have hb := exitWorldOf_broker (m := m) symbol
  refine ends_processIntent (t := sampleIntent "intent-1" symbol .exit) (by simp [World.intent?,
    exitWorldOf, sampleIntent]) rfl (.mode .paper) ?_ ?_
  · unfold resolveMode
    rw [if_pos ⟨rfl, hb⟩]
    have hread : Ends (requesting m account positions)
        (fun r w' => r = portfolioOf m account positions ∧ w' = exitWorldOf m symbol)
        (getPortfolio (exitWorldOf m symbol).policy.brokerPluginId) (exitWorldOf m symbol) :=
      ends_portfolioOf hb rfl
    refine (wp_bind _ _).2 ((wp_attempt _ _).2 (wp_post ?_
      (wp_sem_mono (fun _ _ _ _ => quoting_requesting) hread)))
    rintro r w' ⟨rfl, rfl⟩
    have hs' : p.position? (sampleIntent "intent-1" symbol .exit).symbol = none := hs
    have hno : ¬ p.holds (sampleIntent "intent-1" symbol .exit).symbol = true := by
      rw [Portfolio.holds, hs']
      exact Bool.false_ne_true
    rw [hp]
    dsimp only [bindPost]
    rw [if_neg hno]
    exact ⟨rfl, rfl⟩
  · exact ends_query (fun _ => rfl) (ends_runPaperExecution _ _ _ _ _ _ _ _)

theorem exists_absent (p : Portfolio) : ∃ symbol, p.position? symbol = none := by
  obtain ⟨symbol, hs⟩ := Infinite.exists_notMem_finset
    (p.positions.map fun pos => pos.symbol.getD "").toFinset
  refine ⟨symbol, List.find?_eq_none.2 fun pos hpos heq => hs ?_⟩
  have hsym : pos.symbol = some symbol := of_decide_eq_true heq
  rw [List.mem_toFinset, List.mem_map]
  exact ⟨pos, hpos, by rw [hsym]; rfl⟩

end Readable

/-- **The callers of `getPortfolio` are safe after a failed request exactly where the positions that
were answered have a `null` among them.** -/
theorem failed_request_is_not_truth (m : ProviderManifest) (account positions : Except Err Json) :
    (FailedRequest m account positions → FailedRequestIsNotTruth m account positions) ↔
      (FailedRequest m account positions → NullPosition m positions) := by
  refine forall_congr' fun hf => ?_
  rw [← portfolioOf_error hf]
  constructor
  · intro hsafe
    cases hp : portfolioOf m account positions with
    | error e => exact ⟨e, rfl⟩
    | ok p =>
      exfalso
      obtain ⟨symbol, hs⟩ := exists_absent p
      obtain ⟨x, w', hrun⟩ := Exec.exists quoting_total (autoProcess "intent-1") (exitWorldOf m symbol)
      have hpaper := (ends_exit_absent hp hs).exec hrun
      have hsame := hsafe.exit (c := .autoProcess "intent-1")
        (t := sampleIntent "intent-1" symbol .exit) (.autoProcess _)
        (by simp [World.intent?, exitWorldOf, sampleIntent, DecisionCall.intentId]) rfl rfl
        (exitWorldOf_broker symbol) rfl (hrun.mono fun _ _ _ _ => quoting_requesting)
      exact hpaper hsame.2
  · rintro ⟨e, he⟩
    exact safe_of_error he

/-- The account of the broker is answered, the request of its positions fails. -/
def failedPositions : Except Err Json := .error (err [.lit "503"])

def exitAfterFailure : Option (Except Err Unit × World) :=
  (autoProcess "intent-1").execute
    (handle (quotingOracle (.ok (.obj [("equity", .str "1000")])) failedPositions))
    (fun _ _ => true) (exitWorldOf sampleBroker "SPY")

theorem exitAfterFailure_skipped :
    (exitAfterFailure.map fun y => y.2.statusOf? "intent-1") = some (some .skipped) := by
  decide

/-- **After a failed positions request an exit trades on paper**, and ends as if nothing were held. -/
theorem failed_request_is_truth : ¬ ∀ (m : ProviderManifest) (account positions : Except Err Json),
    FailedRequest m account positions → FailedRequestIsNotTruth m account positions := by
  intro hall
  obtain ⟨y, hy, hskipped⟩ := Option.map_eq_some_iff.1 exitAfterFailure_skipped
  have hfailed : FailedRequest sampleBroker (.ok (.obj [("equity", .str "1000")]))
      failedPositions := .inr ⟨by decide, _, rfl⟩
  have hrun : (autoProcess "intent-1").Exec
      (answering (quoting (.ok (.obj [("equity", .str "1000")])) failedPositions))
      (exitWorldOf sampleBroker "SPY") y.1 y.2 := by
    refine exec_of_execute (fun op w _ => ?_) hy
    exact ⟨_, ⟨rfl, rfl⟩, rfl⟩
  have hstatus := ((hall _ _ _ hfailed).exit (c := .autoProcess "intent-1")
    (t := sampleIntent "intent-1" "SPY" .exit) (.autoProcess _) rfl rfl rfl
    (exitWorldOf_broker "SPY") rfl (hrun.mono fun _ _ _ _ => quoting_requesting)).1
  have hboth := hskipped.symm.trans hstatus
  cases hboth

end NeoTrader

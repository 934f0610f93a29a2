import NeoTrader.Trade.Answers
import NeoTrader.Trade.Decision

/-!
# Exits and the sign of the position

The broker reports the signed quantity of a position; an exit is placed as a sell of its magnitude.

* **`exit_closes`**: an exit closes the position exactly where a broker is configured and the
  position is long;
* **`exit_opens`**: the exit of a short position sells more of it.
-/

namespace NeoTrader

open Js Await Prog

/-! ## Reported positions -/

/-- The quantity that the outcome of the positions request reports for a symbol. -/
def reportedQty (positions : Except Err Json) (symbol : String) : Option Number :=
  match positions with
  | .error _ => none
  | .ok body =>
    match (positionRows body).mapM normalizePosition with
    | .error _ => none
    | .ok rows => (rows.find? fun pos => pos.symbol = some symbol).map Position.qty

/-- The provider's format is read, and it declares the positions endpoint. -/
structure ReadsPositions (m : ProviderManifest) : Prop where
  format : m.format = "alpaca"
  declares : m.declares "positions"

theorem portfolioOf_reports {m : ProviderManifest} (account : Except Err Json)
    {positions : Except Err Json} {symbol : String} {q : ℚ} (hm : ReadsPositions m)
    (hr : reportedQty positions symbol = some (.fin q)) :
    ∃ p pos, portfolioOf m account positions = .ok p ∧ p.position? symbol = some pos ∧
      pos.qty = .fin q := by
  have hd : ¬ (¬ m.declares "portfolio" ∧ ¬ m.declares "positions") := fun h => h.2 hm.declares
  cases positions with
  | error e => cases hr
  | ok body =>
    have hbody : bodyOr m "positions" (.arr []) (.ok body) = body := bodyOr_declared hm.declares
    rw [portfolioOf, if_neg hd, hbody, normalizePortfolio, if_pos hm.format]
    simp only [reportedQty] at hr
    cases hrows : (positionRows body).mapM normalizePosition with
    | error e =>
      rw [hrows] at hr
      cases hr
    | ok rows =>
      rw [hrows] at hr
      obtain ⟨pos, hfind, hq⟩ := Option.map_eq_some_iff.1 hr
      exact ⟨_, pos, rfl, hfind, hq⟩

theorem holds_of_position {p : Portfolio} {symbol : String} {pos : Position} {q : ℚ}
    (hp : p.position? symbol = some pos) (hq : pos.qty = .fin q) (h0 : q ≠ 0) :
    p.holds symbol = true := by
  have habs : 0 < |q| := abs_pos.2 h0
  have hgt : pos.qty.abs.gt 0 = true := by
    rw [hq]
    exact decide_eq_true habs
  rw [Portfolio.holds, hp]
  exact hgt

/-! ## The situation of an exit -/

def clientOrderId (tradeIntentId uuid : String) : String :=
  "nt-" ++ slice tradeIntentId 8 ++ "-" ++ slice uuid 8

/-- The operation draws an id. -/
def TradeOp.draws : TradeOp → Bool
  | randomUUID | orderCreate _ => true
  | _ => false

/-- The drawn id is new among the orders. -/
def freshId (w : World) (id newId : String) : Bool :=
  w.orders.all fun r => r.id ≠ newId ∧ r.clientOrderId ≠ clientOrderId id newId

theorem freshId_of_mem {w : World} {id newId : String} (h : freshId w id newId) {r : RealOrder}
    (hr : r ∈ w.orders) : r.id ≠ newId ∧ r.clientOrderId ≠ clientOrderId id newId :=
  of_decide_eq_true (List.all_eq_true.1 h r hr)

/-- **The broker reports the position whenever it is asked**, and drawn ids are new. -/
def reporting (m : ProviderManifest) (id symbol : String) (q : ℚ) (o : Oracle) (op : TradeOp)
    (w : World) : Prop :=
  reportedQty (o.ext (.request m.id "positions")) symbol = some (.fin q) ∧
    (op.draws → freshId w id o.newId)

def closingSide (q : ℚ) : Side := if 0 < q then .sell else .buy

def positionAfter (q : ℚ) (side : Side) (qty : ℚ) : ℚ :=
  match side with
  | .buy => q + qty
  | .sell => q - qty

/-- **One order was handed to the broker, and it moves the position to zero.** -/
def ClosesPosition (w w' : World) (id symbol : String) (q : ℚ) : Prop :=
  ∃ broker order, w'.placed = w.placed ++ [⟨id, broker, order⟩] ∧ order.symbol = symbol ∧
    order.side = closingSide q ∧ order.qty = .fin |q|

/-- A pending exit whose symbol has no active order on the closing side; order rows of the exit, if
there are any, are sells of its symbol. -/
structure ExitPending (w : World) (id : String) (t : TradeIntent) (m : ProviderManifest) (q : ℚ) :
    Prop where
  intent : w.intent? id = some t
  pending : t.status = .pending
  exit : t.action = .exit
  provider : w.providers w.policy.brokerPluginId = some m
  reads : ReadsPositions m
  nonzero : q ≠ 0
  own : ∀ r ∈ w.orders, r.tradeIntentId = id → r.symbol = t.symbol ∧ r.side = .sell
  free : ∀ r ∈ w.orders, r.status.active → ¬ (r.symbol = t.symbol ∧ r.side = closingSide q)

/-! ## The order of an exit -/

/-- The order that an exit hands to the broker. -/
def exitRequest (symbol : String) (q : ℚ) (clientOrderId : String) : OrderRequest :=
  { symbol, qty := .fin |q|, side := .sell, type := "market", clientOrderId, limitPrice := none }

def exitArgs (id symbol broker : String) (q : ℚ) : SubmitArgs :=
  { tradeIntentId := id, brokerPluginId := broker, symbol, side := .sell
    requestedQty := .fin |q| }

/-- An active order that the submission of an exit is mistaken for. -/
def Blocked (w : World) (id symbol broker : String) : Prop :=
  ∃ r ∈ w.orders, r.status.active ∧
    (r.tradeIntentId = id ∨ r.symbol = symbol ∧ r.brokerPluginId = broker ∧ r.side = .sell)

/-- What an exit at the broker does: one sell, unless it is blocked. -/
def ExitDone (w w' : World) (id symbol broker : String) (q : ℚ) : Prop :=
  w'.placed = w.placed ∧ Blocked w id symbol broker ∨
    ∃ c, w'.placed = w.placed ++ [⟨id, broker, exitRequest symbol q c⟩]

section Submit

variable {A : Oracle → TradeOp → World → Prop} {w : World} {id symbol broker : String} {q : ℚ}

theorem ends_exitDone {α β : Type} {p : Trade α} {f : α → Trade β} {w₀ : World}
    (hp : Ends A (fun _ w' => ExitDone w₀ w' id symbol broker q) p w) (hf : ∀ a, NoOrder (f a)) :
    Ends A (fun _ w' => ExitDone w₀ w' id symbol broker q) (p >>= f) w := by
  refine wp_bind_of hp (fun a w₁ h₁ => ?_) fun e w₁ h₁ => h₁
  refine wp_post (fun r w₂ h₂ => ?_) (ends_noOrder (hf a) rfl)
  rw [ExitDone, h₂]
  exact h₁

theorem ends_submitAtBroker (c : String) (row : RealOrder) :
    Ends A (fun _ w' => ∃ c, w'.placed = w.placed ++ [⟨id, broker, exitRequest symbol q c⟩])
      (submitAtBroker (exitArgs id symbol broker q) c row) w := by
  refine wp_bind_of (P := fun _ w' =>
    w'.placed = w.placed ++ [⟨id, broker, exitRequest symbol q c⟩]) ?_ (fun response w₁ h₁ => ?_)
    fun e w₁ h₁ => ⟨c, h₁⟩
  · refine (wp_attempt _ _).2 (wp_perform_bind.2 ⟨trivial, ?_⟩)
    rintro r w₁ ⟨o, -, hh⟩
    have hplaced : w₁.placed = w.placed ++ [⟨id, broker, exitRequest symbol q c⟩] :=
      (handle_logs hh).placed
    cases r with
    | error e => exact hplaced
    | ok r =>
      exact ends_noOrder (always_bind (always_perform fun _ => rfl) fun _ => always_ofOutcome _)
        hplaced
  · refine wp_post (fun _ _ h => ⟨c, h⟩) (ends_noOrder ?_ h₁)
    cases response with
    | ok brokerOrderId =>
      refine noOrder_note _ _ fun r => ?_
      cases r <;> exact always_ret _
    | error e =>
      refine always_bind (noOrder_of_quiet quiet_recordSubmitFailureAndMaybeHalt) fun _ => ?_
      refine noOrder_note _ _ fun r => ?_
      cases r <;> exact always_ret _

theorem createOrder_fresh {row : OrderCreate} (newId : String) {n : ℚ}
    (hqty : row.requestedQty = .fin n) (hlimit : row.limitPrice = none)
    (hintent : (w.intent? row.tradeIntentId).isSome)
    (hfresh : ∀ r ∈ w.orders, r.id ≠ newId ∧ r.clientOrderId ≠ row.clientOrderId)
    (hactive : ∀ r ∈ w.orders, r.status.active → r.tradeIntentId ≠ row.tradeIntentId) :
    ∃ x, w.createOrder newId row = .ok x := by
  have hids : ¬ w.orders.any (fun r => r.id = newId ∨ r.clientOrderId = row.clientOrderId) := by
    rw [List.any_eq_true]
    rintro ⟨r, hr, hor⟩
    rcases of_decide_eq_true hor with h | h
    · exact (hfresh r hr).1 h
    · exact (hfresh r hr).2 h
  have hconflict : ¬ w.activeConflict newId row.tradeIntentId .pendingSubmit := by
    intro h
    obtain ⟨-, hany⟩ := Bool.and_eq_true_iff.1 h
    obtain ⟨r, hr, hor⟩ := List.any_eq_true.1 hany
    obtain ⟨-, hid, hact⟩ := of_decide_eq_true hor
    exact hactive r hr hact hid
  have hknown : ¬ (w.intent? row.tradeIntentId).isNone := by
    simpa [Option.isSome_iff_ne_none] using hintent
  unfold World.createOrder
  rw [hqty, hlimit]
  simp only [column, Option.map_none, reduceCtorEq, if_false, if_neg hids, if_neg hconflict,
    if_neg hknown]
  exact ⟨_, rfl⟩

theorem ends_generateClientOrderId : Ends A
    (fun r w' => w' = w ∧ ∃ o, A o .randomUUID w ∧ r = .ok (clientOrderId id o.newId))
    (generateClientOrderId id) w := by
  refine wp_perform_bind.2 ⟨trivial, ?_⟩
  rintro r w' ⟨o, ⟨-, ho⟩, hh⟩
  cases hh
  exact ⟨rfl, o, ho, rfl⟩

variable {m : ProviderManifest}

theorem ends_submitNew (hintent : (w.intent? id).isSome)
    (hactive : ∀ r ∈ w.orders, r.status.active → r.tradeIntentId ≠ id) :
    Ends (reporting m id symbol q)
      (fun _ w' => ∃ c, w'.placed = w.placed ++ [⟨id, broker, exitRequest symbol q c⟩])
      (submitNew (exitArgs id symbol broker q)) w := by
  refine wp_bind_of ends_generateClientOrderId (fun c w₁ hc => ?_) fun e w₁ he => ?_
  rotate_left
  · obtain ⟨-, o, -, ho⟩ := he
    cases ho
  obtain ⟨hw₁, o, ⟨-, hfresh⟩, ho⟩ := hc
  cases ho
  rw [hw₁]
  refine wp_attempt_perform_bind.2 ⟨trivial, ?_⟩
  rintro r w' ⟨o', ⟨hdb, -, hfresh'⟩, hh⟩
  let row : OrderCreate :=
    { tradeIntentId := id, brokerPluginId := broker, clientOrderId := clientOrderId id o.newId
      symbol, side := .sell, orderType := "market", requestedQty := .fin |q|, limitPrice := none }
  obtain ⟨x, hx⟩ : ∃ x, w.createOrder o'.newId row = .ok x := createOrder_fresh _ rfl rfl hintent
    (fun r hr => ⟨(freshId_of_mem (hfresh' rfl) hr).1, (freshId_of_mem (hfresh rfl) hr).2⟩) hactive
  have hplaced : w'.placed = w.placed := by
    rw [(handle_logs hh).placed]
    exact List.append_nil _
  obtain ⟨hok, -⟩ := db_answers hdb hx hh
  rw [hok]
  refine wp_post (fun _ w'' h => ?_) (ends_submitAtBroker _ x.1)
  rw [hplaced] at h
  exact h

theorem ends_submit (hintent : (w.intent? id).isSome) :
    Ends (reporting m id symbol q) (fun _ w' => ExitDone w w' id symbol broker q)
      (submit (exitArgs id symbol broker q)) w := by
  have hintent? (o : Oracle) : handle o (.orderFindActiveForIntent id) w =
      query o w (w.orders.find? fun r => r.tradeIntentId = id ∧ r.status.active) := rfl
  have hsymbol? (o : Oracle) : handle o (.orderFindActiveForSymbol id symbol broker .sell) w =
      query o w (w.orders.filter fun r => r.symbol = symbol ∧ r.brokerPluginId = broker ∧
        r.side = .sell ∧ r.status.active).getLast? := rfl
  refine ends_query hintent? ?_
  cases hown : w.orders.find? fun r => r.tradeIntentId = id ∧ r.status.active with
  | some r =>
    have hcond : r.tradeIntentId = id ∧ r.status.active := by simpa using List.find?_some hown
    exact .inl ⟨rfl, r, List.mem_of_find?_eq_some hown, hcond.2, .inl hcond.1⟩
  | none =>
    refine ends_query hsymbol? ?_
    cases hsym : (w.orders.filter fun r => r.symbol = symbol ∧ r.brokerPluginId = broker ∧
        r.side = .sell ∧ r.status.active).getLast? with
    | some r =>
      obtain ⟨hr, hcond⟩ := List.mem_filter.1 (List.mem_of_getLast? hsym)
      obtain ⟨hs, hb, hside, hact⟩ := of_decide_eq_true hcond
      exact .inl ⟨rfl, r, hr, hact, .inr ⟨hs, hb, hside⟩⟩
    | none =>
      refine wp_post (fun _ _ h => .inr h) (ends_submitNew hintent fun r hr hact hid => ?_)
      have hno := List.find?_eq_none.1 hown r hr
      exact hno (decide_eq_true ⟨hid, hact⟩)

theorem ends_submitReal (policy : ExecutionPolicy) (decidedBy : String)
    (hintent : (w.intent? id).isSome) :
    Ends (reporting m id symbol q)
      (fun _ w' => ExitDone w w' id symbol policy.brokerPluginId q)
      (submitReal id symbol policy .sell (.fin |q|) decidedBy) w := by
  refine ends_exitDone ((wp_attempt _ _).2 (ends_submit hintent)) fun r => ?_
  cases r with
  | error e => exact noOrder_decide' _ _ _ _
  | ok row =>
    refine always_ite (fun _ => noOrder_decide' _ _ _ _) fun _ => ?_
    exact always_bind (always_perform fun _ => rfl) fun _ => noOrder_decide' _ _ _ _

end Submit

/-! ## The way of an exit -/

section Exit

variable {w : World} {id : String} {t : TradeIntent} {m : ProviderManifest} {q : ℚ}

theorem ends_resolveRealExitQty {Q : Except Err (Except ResultJson Number) → World → Prop}
    {symbol broker : String} (hb : broker ≠ "") (hm : w.providers broker = some m)
    (hreads : ReadsPositions m) (h0 : q ≠ 0) (hQ : Q (.ok (.ok (.fin |q|))) w) :
    Ends (reporting m id symbol q) Q (resolveRealExitQty symbol broker) w := by
  refine (wp_bind _ _).2 ((wp_attempt _ _).2 (ends_getPortfolio hb hm ?_))
  rintro account positions - hpositions
  obtain ⟨o, ⟨hrep, -⟩, rfl⟩ := hpositions hreads.declares
  obtain ⟨p, pos, hp, hpos, hq⟩ := portfolioOf_reports account hreads hrep
  have hle : pos.qty.abs.le 0 = false := by
    rw [hq]
    exact decide_eq_false (not_le.2 (abs_pos.2 h0))
  rw [hp]
  dsimp only [bindPost]
  rw [hpos]
  dsimp only
  rw [hle, hq]
  exact hQ

theorem ends_executeReal (policy : ExecutionPolicy) (realState : Option RealAccountState)
    (decidedBy : String) (sizingPct : ℚ) {symbol : String} (hb : policy.brokerPluginId ≠ "")
    (hm : w.providers policy.brokerPluginId = some m) (hreads : ReadsPositions m) (h0 : q ≠ 0)
    (hintent : (w.intent? id).isSome) :
    Ends (reporting m id symbol q)
      (fun _ w' => ExitDone w w' id symbol policy.brokerPluginId q)
      (executeReal id symbol .exit policy realState decidedBy sizingPct) w := by
  have hpre : checkExecuteRealPreconditions policy .exit realState = .ret none := by
    simp [checkExecuteRealPreconditions, entryHalted, entryWalkForwardGate, TradeAction.isEntry, hb]
  unfold executeReal
  rw [hpre]
  refine ends_read_attempt rfl fun quote => ?_
  refine wp_ite (fun h => absurd h.1 (by decide)) fun _ => ?_
  refine wp_ite (fun h => by cases h) fun _ => ?_
  refine (wp_bind _ _).2 ((wp_bind _ _).2 (ends_resolveRealExitQty hb hm hreads h0 ?_))
  have hqty : ¬ (Number.fin |q|).le 0 := by
    have hle : (Number.fin |q|).le 0 = false := decide_eq_false (not_le.2 (abs_pos.2 h0))
    rw [hle]
    exact Bool.false_ne_true
  refine wp_ite (fun h => absurd h hqty) fun _ => ?_
  refine wp_ite (fun h => absurd rfl h.1) fun _ => ?_
  exact ends_submitReal policy decidedBy hintent

theorem ends_resolveMode (policy : ExecutionPolicy) {symbol : String}
    (hb : policy.brokerPluginId ≠ "") (hm : w.providers policy.brokerPluginId = some m)
    (hreads : ReadsPositions m) (h0 : q ≠ 0) :
    Ends (reporting m id symbol q) (fun r w' => r = .ok (.mode .real) ∧ w' = w)
      (resolveMode policy id symbol .exit) w := by
  unfold resolveMode
  rw [if_pos ⟨rfl, hb⟩]
  refine (wp_bind _ _).2 ((wp_attempt _ _).2 (ends_getPortfolio hb hm ?_))
  rintro account positions - hpositions
  obtain ⟨o, ⟨hrep, -⟩, rfl⟩ := hpositions hreads.declares
  obtain ⟨p, pos, hp, hpos, hq⟩ := portfolioOf_reports account hreads hrep
  have hholds : p.holds symbol = true := holds_of_position hpos hq h0
  rw [hp]
  dsimp only [bindPost]
  rw [hholds]
  exact ⟨rfl, rfl⟩

theorem ends_gateAndExecute (policy : ExecutionPolicy) (realState : Option RealAccountState)
    (s : PaperState) (decidedBy : String) (sizingPct : ℚ) (ht : t.action = .exit)
    (hb : policy.brokerPluginId ≠ "") (hm : w.providers policy.brokerPluginId = some m)
    (hreads : ReadsPositions m) (h0 : q ≠ 0) (hintent : (w.intent? id).isSome) :
    Ends (reporting m id t.symbol q)
      (fun _ w' => ExitDone w w' id t.symbol policy.brokerPluginId q)
      (gateAndExecute id t policy .real realState s decidedBy sizingPct) w := by
  unfold gateAndExecute
  rw [ht]
  refine wp_ite (fun hentry => absurd hentry (by decide)) fun _ => ?_
  unfold executeDecided
  rw [ht]
  exact ends_executeReal policy realState decidedBy sizingPct hb hm hreads h0 hintent

theorem ends_processInMode (policy : ExecutionPolicy) (decidedBy : String) (sizingPct : ℚ)
    (ht : t.action = .exit) (hb : policy.brokerPluginId ≠ "")
    (hm : w.providers policy.brokerPluginId = some m) (hreads : ReadsPositions m) (h0 : q ≠ 0)
    (hintent : (w.intent? id).isSome) :
    Ends (reporting m id t.symbol q)
      (fun _ w' => ExitDone w w' id t.symbol policy.brokerPluginId q)
      (processInMode id t policy .real decidedBy sizingPct) w := by
  have hrow? (o : Oracle) : handle o .portfolioFind w = query o w w.portfolio := rfl
  unfold processInMode
  refine ends_query hrow? ?_
  refine wp_ite (fun hhold => by rw [ht] at hhold; cases hhold) fun _ => ?_
  refine (wp_bind _ _).2 (ends_getRealAccountState fun realState => ?_)
  refine wp_ite (fun hentry => ?_) fun _ => ?_
  · rw [ht] at hentry
    exact absurd hentry.2.1 (by decide)
  · exact ends_gateAndExecute policy realState _ decidedBy sizingPct ht hb hm hreads h0 hintent

/-- **With a configured broker an exit goes to the broker.** -/
theorem ends_exit_real (h : ExitPending w id t m q) (hb : w.policy.brokerPluginId ≠ "")
    (verb decidedBy : String) (sizing : ExecutionPolicy → ℚ) :
    Ends (reporting m id t.symbol q)
      (fun _ w' => ExitDone w w' id t.symbol w.policy.brokerPluginId q)
      (processIntent id verb decidedBy sizing) w := by
  have hintent : (w.intent? id).isSome := by rw [h.intent]; rfl
  refine ends_processIntent h.intent h.pending (.mode .real) ?_
    (ends_processInMode w.policy decidedBy _ h.exit hb h.provider h.reads h.nonzero hintent)
  rw [h.exit]
  exact ends_resolveMode w.policy hb h.provider h.reads h.nonzero

/-- **Without a configured broker an exit stays on paper.** -/
theorem ends_exit_paper {A : Oracle → TradeOp → World → Prop} (ht : w.intent? id = some t)
    (hp : t.status = .pending) (hb : w.policy.brokerPluginId = "") (verb decidedBy : String)
    (sizing : ExecutionPolicy → ℚ) :
    Ends A (fun _ w' => w'.placed = w.placed) (processIntent id verb decidedBy sizing) w := by
  have hmode : resolveMode w.policy id t.symbol t.action = .ret (.mode .paper) := by
    simp [resolveMode, effectiveMode, hb]
  refine ends_processIntent ht hp (.mode .paper) ?_
    (ends_noOrder (noOrder_processInMode_paper _ _ _ _ _) rfl)
  rw [hmode]
  exact ⟨rfl, rfl⟩

end Exit

/-! ## Closing the position -/

/-- A call that executes an intent. -/
inductive Execution : DecisionCall → Prop
  | autoProcess (id : String) : Execution (.autoProcess id)
  | approve (id decidedBy : String) : Execution (.approve id decidedBy)

theorem Execution.body_eq {c : DecisionCall} (hc : Execution c) : ∃ verb decidedBy sizing,
    c.body = processIntent c.intentId verb decidedBy sizing := by
  cases hc
  · exact ⟨_, _, _, rfl⟩
  · exact ⟨_, _, _, rfl⟩

theorem not_closes_of_placed {w w' : World} {id symbol : String} {q : ℚ}
    (h : w'.placed = w.placed) : ¬ ClosesPosition w w' id symbol q := by
  rintro ⟨broker, order, hplaced, -⟩
  have hlen := congrArg List.length (h.symm.trans hplaced)
  simp at hlen

/-- **An exit closes the position exactly where a broker is configured and the position is long.**
The exit is pending, the broker reports the position `q` whenever it is asked, and there is no
active order of the symbol on the closing side. -/
theorem exit_closes {w w' : World} {c : DecisionCall} {t : TradeIntent} {m : ProviderManifest}
    {q : ℚ} {x : Except Err Unit} (hc : Execution c) (h : ExitPending w c.intentId t m q)
    (hrun : c.body.Exec (answering (reporting m c.intentId t.symbol q)) w x w') :
    ClosesPosition w w' c.intentId t.symbol q ↔ w.policy.brokerPluginId ≠ "" ∧ 0 < q := by
  obtain ⟨verb, decidedBy, sizing, hbody⟩ := hc.body_eq
  rw [hbody] at hrun
  by_cases hb : w.policy.brokerPluginId = ""
  · have hplaced := (ends_exit_paper h.intent h.pending hb verb decidedBy sizing).exec hrun
    exact ⟨fun hcl => absurd hcl (not_closes_of_placed hplaced), fun hand => absurd hb hand.1⟩
  · have hdone := (ends_exit_real h hb verb decidedBy sizing).exec hrun
    by_cases hq : 0 < q
    · refine ⟨fun _ => ⟨hb, hq⟩, fun _ => ?_⟩
      have hside : closingSide q = .sell := if_pos hq
      rcases hdone with ⟨-, r, hr, hact, hid | ⟨hs, -, hsell⟩⟩ | ⟨clientId, hplaced⟩
      · obtain ⟨hs, hsell⟩ := h.own r hr hid
        exact absurd ⟨hs, hsell.trans hside.symm⟩ (h.free r hr hact)
      · exact absurd ⟨hs, hsell.trans hside.symm⟩ (h.free r hr hact)
      · exact ⟨_, _, hplaced, rfl, hside.symm, rfl⟩
    · refine ⟨fun hcl => ?_, fun hand => absurd hand.2 hq⟩
      have hside : closingSide q = .buy := if_neg hq
      rcases hdone with ⟨hplaced, -⟩ | ⟨clientId, hplaced⟩
      · exact absurd hcl (not_closes_of_placed hplaced)
      · obtain ⟨broker, order, hclosing, -, hbuy, -⟩ := hcl
        have hsame := List.append_cancel_left (hplaced.symm.trans hclosing)
        simp only [List.cons.injEq, PlacedOrder.mk.injEq, and_true, true_and] at hsame
        rw [← hsame.2, hside] at hbuy
        cases hbuy

/-! ## A long and a short position -/

/-- A pending exit at a configured broker. -/
def exitWorld : World := sampleWorld [sampleIntent "intent-1" "SPY" .exit]

/-- A drawn id is new. -/
def drawsFresh (op : TradeOp) (w : World) : Bool := !op.draws || freshId w "intent-1" "order-1"

/-- The exit runs to its end while the broker reports this quantity. -/
def exitRun (qty : String) : Option (Except Err Unit × World) :=
  (DecisionCall.autoProcess "intent-1").body.execute
    (handle (sampleOracle (samplePosition "SPY" qty))) drawsFresh exitWorld

theorem exitRun_exec {qty : String} {q : ℚ} {y : Except Err Unit × World}
    (hq : reportedQty (.ok (samplePosition "SPY" qty)) "SPY" = some (.fin q))
    (h : exitRun qty = some y) :
    (DecisionCall.autoProcess "intent-1").body.Exec
      (answering (reporting sampleBroker "intent-1" "SPY" q)) exitWorld y.1 y.2 := by
  refine exec_of_execute (fun op w hc => ?_) h
  have hfresh : op.draws → freshId w "intent-1" "order-1" := by
    intro hdraws
    simpa [drawsFresh, hdraws] using hc
  exact ⟨sampleOracle (samplePosition "SPY" qty), ⟨rfl, hq, hfresh⟩, rfl⟩

theorem exitWorld_pending {q : ℚ} (h0 : q ≠ 0) :
    ExitPending exitWorld "intent-1" (sampleIntent "intent-1" "SPY" .exit) sampleBroker q where
  intent := rfl
  pending := rfl
  exit := rfl
  provider := rfl
  reads := ⟨rfl, by decide⟩
  nonzero := h0
  own := fun r hr => absurd hr List.not_mem_nil
  free := fun r hr => absurd hr List.not_mem_nil

theorem exitWorld_broker : exitWorld.policy.brokerPluginId ≠ "" := by decide +kernel

theorem exitRun_long : (exitRun "5").isSome := by decide +kernel

theorem reported_long : reportedQty (.ok (samplePosition "SPY" "5")) "SPY" = some (.fin 5) := by
  decide +kernel

/-- The exit of a long position of 5. -/
theorem exit_closes_long :
    ClosesPosition exitWorld ((exitRun "5").get exitRun_long).2 "intent-1" "SPY" 5 ↔
      exitWorld.policy.brokerPluginId ≠ "" ∧ (0 : ℚ) < 5 :=
  exit_closes (t := sampleIntent "intent-1" "SPY" .exit) (.autoProcess "intent-1")
    (exitWorld_pending (by decide)) (exitRun_exec reported_long (Option.some_get exitRun_long).symm)

theorem exitRun_short :
    (exitRun "-5").map (fun y => y.2.placed.map fun p => (p.order.side, p.order.qty)) =
      some [(.sell, .fin 5)] := by
  decide +kernel

theorem reported_short :
    reportedQty (.ok (samplePosition "SPY" "-5")) "SPY" = some (.fin (-5)) := by
  decide +kernel

/-- **The exit of a short position sells more of it.** -/
theorem exit_opens : ¬ ∀ (w w' : World) (c : DecisionCall) (t : TradeIntent) (m : ProviderManifest)
    (q : ℚ) (x : Except Err Unit), Execution c → ExitPending w c.intentId t m q →
    w.policy.brokerPluginId ≠ "" →
    c.body.Exec (answering (reporting m c.intentId t.symbol q)) w x w' →
    ClosesPosition w w' c.intentId t.symbol q := by
  intro hall
  obtain ⟨y, hy, hsold⟩ := Option.map_eq_some_iff.1 exitRun_short
  obtain ⟨broker, order, hplaced, -, hside, -⟩ := hall exitWorld y.2 (.autoProcess "intent-1")
    (sampleIntent "intent-1" "SPY" .exit) sampleBroker (-5) y.1 (.autoProcess "intent-1")
    (exitWorld_pending (by decide)) exitWorld_broker (exitRun_exec reported_short hy)
  have hplaced' : y.2.placed = [⟨"intent-1", broker, order⟩] := hplaced
  have hbuy : closingSide (-5) = .buy := by decide
  rw [hplaced'] at hsold
  simp [hside, hbuy] at hsold

end NeoTrader

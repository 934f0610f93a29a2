import NeoTrader.Trade.OrderWrites

/-!
# Terminal order rows

Once an order row is filled, canceled, rejected or expired, its status and its fill are final. The
reconciliation writes by compare-and-set; a submission and the recovery sweep write by the bare id,
on what they knew before they waited for the broker.

* **`terminal_absorbing`**; **`terminal_reopened`**: a slow submission reopens a filled order.
-/

namespace NeoTrader

open Js Await Prog

/-! ## Absorption -/

/-- The status and the fill of the two rows are the same. -/
structure SameFill (r r' : RealOrder) : Prop where
  status : r'.status = r.status
  qty : r'.filledQty = r.filledQty
  price : r'.filledAvgPrice = r.filledAvgPrice

theorem SameFill.refl (r : RealOrder) : SameFill r r := ⟨rfl, rfl, rfl⟩

theorem SameFill.trans {r r' r'' : RealOrder} (h : SameFill r r') (h' : SameFill r' r'') :
    SameFill r r'' :=
  ⟨h'.status.trans h.status, h'.qty.trans h.qty, h'.price.trans h.price⟩

/-- **The terminal rows are still there, with the status and the fill that they had.** -/
def Absorbed (w w' : World) : Prop :=
  ∀ id r, w.order? id = some r → r.status.terminal → ∃ r', w'.order? id = some r' ∧ SameFill r r'

theorem Absorbed.refl (w : World) : Absorbed w w := fun _ r hr _ => ⟨r, hr, .refl r⟩

theorem Absorbed.trans {w w' w'' : World} (h : Absorbed w w') (h' : Absorbed w' w'') :
    Absorbed w w'' := by
  intro id r hr ht
  obtain ⟨r', hr', hs⟩ := h id r hr ht
  obtain ⟨r'', hr'', hs'⟩ := h' id r' hr' (hs.status ▸ ht)
  exact ⟨r'', hr'', hs.trans hs'⟩

theorem Absorbed.of_orders {w w' : World} (h : w'.orders = w.orders) : Absorbed w w' := by
  intro id r hr _
  exact ⟨r, by rw [World.order?, h]; exact hr, .refl r⟩

theorem Absorbed.of_updated {now : ℤ} {w w' : World} {p : RealOrder → Bool} {d : OrderPatch}
    (hu : OrdersUpdated now w w' p d)
    (h : ∀ id r, w.order? id = some r → r.status.terminal → p r → d.status = none ∧ d.NoFill) :
    Absorbed w w' := by
  intro id r hr ht
  refine ⟨_, by rw [order?_modify hu.orders, hr, Option.map_some], ?_⟩
  by_cases hp : p r = true
  · obtain ⟨hd, hq, hprice⟩ := h id r hr ht hp
    have hstored := hu.stored r (mem_of_order? hr) hp
    have hqty := d.write_filledQty now r hstored
    have havg := d.write_filledAvgPrice now r hstored
    rw [if_pos hp]
    refine ⟨by rw [d.write_status now r hstored, hd, Option.getD_none], ?_, ?_⟩
    · simpa [OrderPatch.storedQty, hq, eq_comm] using hqty
    · simpa [OrderPatch.storedPrice, hprice, eq_comm] using havg
  · rw [if_neg hp]
    exact .refl r

/-! ## One step -/

/-- **A status that is written by the bare id finds a row that is not terminal.** -/
def FindsOpen (w : World) : Event tradeSig → Prop
  | ⟨.orderUpdate id d, .ok _⟩ => d.status.isSome → ∀ r, w.order? id = some r → ¬ r.status.terminal
  | _ => True

section Writes

variable {h : List (Event tradeSig)} {id : String} {expected : OrderStatus} {d : OrderPatch}
  {tradeIntentId : String} {ip : IntentPatch}

theorem OrderWrite.bare (hop : OrderWrite h (.orderUpdate id d)) :
    d.NoFill ∧ ∀ s, d.status = some s → ¬ s.terminal := by
  cases hop with
  | poll hop =>
    cases hop with
    | look hq => exact absurd hq Bool.false_ne_true
    | touch hs hf => exact ⟨hf, fun s hs' => by rw [hs] at hs'; cases hs'⟩
  | note _ hs hpoll hf =>
    refine ⟨hf, fun s hs' ht => ?_⟩
    rw [hs] at hs'
    cases hs'
    exact OrderStatus.not_pollable_of_terminal ht hpoll
  | recover hs hopen hf =>
    refine ⟨hf, fun s hs' ht => ?_⟩
    rw [hs] at hs'
    cases hs'
    rcases hopen with hpoll | rfl
    · exact OrderStatus.not_pollable_of_terminal ht hpoll
    · cases ht

theorem OrderWrite.expects (hop : OrderWrite h (.orderUpdateMany id expected d)) :
    ¬ expected.terminal := by
  cases hop with
  | poll hop =>
    cases hop with
    | look hq => exact absurd hq Bool.false_ne_true
    | part _ hopen _ _ => exact hopen

theorem OrderWrite.expects_transaction
    (hop : OrderWrite h (.orderTransaction id expected d tradeIntentId ip)) :
    ¬ expected.terminal := by
  cases hop with
  | poll hop =>
    cases hop with
    | look hq => exact absurd hq Bool.false_ne_true
    | close _ hopen _ _ => exact hopen

end Writes

theorem Absorbed.of_compareAndSet {now : ℤ} {w w' : World} {id : String} {expected : OrderStatus}
    {d : OrderPatch} (hu : OrdersUpdated now w w' (fun r => r.id = id ∧ r.status = expected) d)
    (hopen : ¬ expected.terminal) : Absorbed w w' := by
  refine .of_updated hu fun i r _ ht hp => ?_
  simp only [decide_eq_true_eq] at hp
  exact absurd (hp.2 ▸ ht) hopen

/-- **A step under the condition keeps the terminal rows.** -/
theorem absorbed_step {now : ℤ} {w w' : World} {h : List (Event tradeSig)} {op : TradeOp}
    {a : Except Err op.Ans} (hs : TableStep now w w' op a) (hop : OrderWrite h op)
    (hg : FindsOpen w ⟨op, a⟩) : Absorbed w w' := by
  cases hs with
  | frame _ ho | intentCreate _ _ _ _ ho | intentUpdate _ _ _ ho => exact .of_orders ho
  | orderCreate row _ _ _ _ _ ho => exact fun id r hr _ => ⟨r, order?_append ho hr, .refl r⟩
  | @orderUpdate id d row hold hu _ =>
    obtain ⟨hf, -⟩ := hop.bare
    refine .of_updated hu fun i r hr ht hp => ⟨?_, hf⟩
    by_contra hd
    obtain rfl : i = id := (order?_id hr).symm.trans (by simpa using hp)
    exact hg (Option.isSome_iff_ne_none.2 hd) r hr ht
  | orderUpdateMany n hu _ => exact .of_compareAndSet hu hop.expects
  | orderTransaction n _ _ hu _ _ => exact .of_compareAndSet hu hop.expects_transaction

/-- **A step that violates it reopens a terminal row.** -/
theorem reopened_step {o : Oracle} {w w' : World} {h : List (Event tradeSig)} {op : TradeOp}
    {a : Except Err op.Ans} (ho : handle o op w = (a, w')) (hop : OrderWrite h op)
    (hg : ¬ FindsOpen w ⟨op, a⟩) : ¬ Absorbed w w' := by
  intro habs
  refine hg ?_
  cases op with
  | orderUpdate id d =>
    rcases db_cases ho with ⟨-, e, rfl⟩ | ⟨row', hx, rfl⟩
    · trivial
    intro hsome r hr ht
    obtain ⟨-, -, -, hu, -⟩ := updateOrder_cases hx
    obtain ⟨s, hd⟩ := Option.isSome_iff_exists.1 hsome
    obtain ⟨r', hr', hsame⟩ := habs id r hr ht
    have hp : decide (r.id = id) = true := by simpa using order?_id hr
    rw [order?_modify hu.orders, hr, Option.map_some, if_pos hp] at hr'
    cases hr'
    have hst := d.write_status o.time r (hu.stored r (mem_of_order? hr) hp)
    rw [hd, Option.getD_some] at hst
    exact hop.bare.2 s hd (hst ▸ hsame.status ▸ ht)
  | _ => trivial

/-! ## Every run -/

/-- The condition on a step of a run. -/
def writesOpen : Guard tradeSig OrderCall World := fun w _ _ e => FindsOpen w e

/-- **Every later state of a run under the condition keeps the terminal rows.** -/
theorem absorbed_run {w : World} {P P' : Pool tradeSig OrderCall World}
    (hr : Pool.Reaches tradeSem OrderCall.body writesOpen ⟨w, []⟩ P)
    (hr' : Pool.Reaches tradeSem OrderCall.body writesOpen P P') : Absorbed P.world P'.world := by
  induction hr' with
  | refl => exact .refl _
  | @tail Q Q' hQ hs ih =>
    refine ih.trans ?_
    have hsound := Pool.reaches_sound orderWrite_body (hr.trans hQ)
    cases hs with
    | start c => exact .refl _
    | @await v v' xs ys c h op k a hg hm =>
      obtain ⟨o, -, ho⟩ := hm
      have ht := hsound ⟨c, h, .await op k⟩ (by simp)
      exact absorbed_step (handle_tables ho) ht.2.1 hg

/-- **Terminal order rows are absorbing**, in every interleaving of submissions, recovery sweeps and
polls, exactly as long as no status that is written by the bare id lands on a terminal row: under
that condition on its steps every run keeps them, and a step that violates it reopens one. -/
theorem terminal_absorbing (w : World) :
    (∀ (P P' : Pool tradeSig OrderCall World),
      Pool.Reaches tradeSem OrderCall.body writesOpen ⟨w, []⟩ P →
      Pool.Reaches tradeSem OrderCall.body writesOpen P P' → Absorbed P.world P'.world) ∧
    ∀ (v v' : World) (xs ys : List (Thread tradeSig OrderCall)) (c : OrderCall)
      (h : List (Event tradeSig)) (op : TradeOp) (k : tradeSig.Outcome op → Trade Unit)
      (a : tradeSig.Outcome op),
      Pool.Reaches tradeSem OrderCall.body Pool.free ⟨w, []⟩ ⟨v, xs ++ ⟨c, h, .await op k⟩ :: ys⟩ →
      tradeSem.rel op v a v' → (Absorbed v v' ↔ FindsOpen v ⟨op, a⟩) := by
  refine ⟨fun P P' hr hr' => absorbed_run hr hr', fun v v' xs ys c h op k a hr hm => ?_⟩
  obtain ⟨o, -, ho⟩ := hm
  have ht := Pool.reaches_sound orderWrite_body hr ⟨c, h, .await op k⟩ (by simp)
  refine ⟨fun habs => ?_, fun hg => absorbed_step (handle_tables ho) ht.2.1 hg⟩
  by_contra hg
  exact reopened_step ho ht.2.1 hg habs

/-! ## A slow submission -/

def sampleSubmit : SubmitArgs :=
  { tradeIntentId := "intent-1", brokerPluginId := "alpaca", symbol := "SPY", side := .buy
    requestedQty := .fin 5 }

/-- A broker that has the order, with this status and fill. -/
def brokerSays (status : String) (qty : ℚ) : Oracle where
  newId := "order-1"
  ext
    | .placeOrder _ _ _ => .ok (.obj [("id", .str "b1")])
    | .getOrderStatus _ _ => .ok (answer status qty)
    | .getOrderByClientId _ _ => .ok (some (answer status qty))
    | _ => .error (err [])
where
  answer (status : String) (qty : ℚ) : OrderStatusResult :=
    { brokerOrderId := "b1", clientOrderId := none, status, filledQty := .fin qty
      filledAvgPrice := some (.fin 100), raw := .null }

/-- The order is sent and the broker's response is slow; a recovery sweep finds the order, and a
poll closes it. -/
def fillSchedule : List (Move OrderCall Oracle) :=
  .start (.submit sampleSubmit) :: List.replicate 5 (.await 0 (brokerSays "new" 0)) ++
    .start .recoverInflight :: List.replicate 4 (.await 1 (brokerSays "new" 0)) ++
    .start (.reconcileOrder "order-1") :: List.replicate 3 (.await 2 (brokerSays "filled" 5))

def noteSchedule : List (Move OrderCall Oracle) := List.replicate 2 (.await 0 (brokerSays "filled" 5))

def slowFill : Option (Pool tradeSig OrderCall World) :=
  Pool.replay handle OrderCall.body Pool.unchecked fillSchedule
    ⟨sampleWorld [sampleIntent "intent-1" "SPY" .long], []⟩

def slowNote : Option (Pool tradeSig OrderCall World) :=
  slowFill.bind (Pool.replay handle OrderCall.body Pool.unchecked noteSchedule)

theorem slowNote_eq : (slowFill.map fun P => (P.world.order? "order-1").map RealOrder.status) =
    some (some .filled) ∧ (slowNote.map fun P => (P.world.order? "order-1").map RealOrder.status) =
    some (some .submitted) := by
  constructor <;> decide

/-- **Without the condition a filled order is reopened**, by the submission that waited for it. -/
theorem terminal_reopened : ¬ ∀ (w : World) (P P' : Pool tradeSig OrderCall World),
    Pool.Reaches tradeSem OrderCall.body Pool.free ⟨w, []⟩ P →
    Pool.Reaches tradeSem OrderCall.body Pool.free P P' → Absorbed P.world P'.world := by
  intro hall
  obtain ⟨hfill, hnote⟩ := slowNote_eq
  obtain ⟨P, hP, hfilled⟩ := Option.map_eq_some_iff.1 hfill
  obtain ⟨P', hP', hsubmitted⟩ := Option.map_eq_some_iff.1 hnote
  rw [slowNote, hP, Option.bind_some] at hP'
  obtain ⟨r, hr, hst⟩ := Option.map_eq_some_iff.1 hfilled
  obtain ⟨r', hr', hst'⟩ := Option.map_eq_some_iff.1 hsubmitted
  obtain ⟨r'', hr'', hsame⟩ := hall _ P P' (Pool.reaches_of_replay (fun _ _ _ _ _ => trivial) hP)
    (Pool.reaches_of_replay (fun _ _ _ _ _ => trivial) hP') "order-1" r hr (by rw [hst]; rfl)
  rw [hr'] at hr''
  cases hr''
  rw [hsame.status, hst] at hst'
  cases hst'

end NeoTrader

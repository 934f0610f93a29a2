import NeoTrader.Await.Pool
import NeoTrader.Trade.Calls

/-!
# The two sides of the real ledger

An order row and its intent are written by two services without a common lock: the reconciliation
moves both in one transaction, the execution writes the status of the intent on its own.

* `Compatible`, `KeepsAgreement`: the writes of an intent's status that do not contradict its
  terminal order rows;
* **`ledger_agrees`**: under such writes the ledger agrees in every state of every interleaving;
* **`ledger_disagrees`**: the write of `real_pending` after the reconciliation has won the race.
-/

namespace NeoTrader

open Js Await Prog

/-! ## Agreement -/

/-- The order ended without being filled. -/
def OrderStatus.stopped (s : OrderStatus) : Bool := s ∈ [canceled, rejected, expired]

/-- A terminal order row and its intent say the same. -/
structure RowAgrees (w : World) (r : RealOrder) : Prop where
  filled : r.status = .filled → ∃ t, w.intent? r.tradeIntentId = some t ∧ t.status = .executed ∧
    t.fillPrice = r.filledAvgPrice ∧ t.quantity = some r.filledQty
  stopped : r.status.stopped → ∃ t, w.intent? r.tradeIntentId = some t ∧
    (t.status = .failed ∨ t.status = .executed ∧ 0 < r.filledQty)

/-- **The two sides of the ledger agree.** -/
def LedgerAgrees (w : World) : Prop := ∀ r ∈ w.orders, RowAgrees w r

theorem OrderStatus.terminal_of_stopped {s : OrderStatus} (h : s.stopped) : s.terminal := by
  revert h
  cases s <;> decide

theorem RowAgrees.of_not_terminal {w : World} {r : RealOrder} (h : ¬ r.status.terminal) :
    RowAgrees w r := by
  refine ⟨fun hs => ?_, fun hs => absurd (OrderStatus.terminal_of_stopped hs) h⟩
  rw [hs] at h
  exact absurd rfl h

theorem RowAgrees.congr {w w' : World} {r r' : RealOrder} (h : RowAgrees w r)
    (hi : w'.intent? r.tradeIntentId = w.intent? r.tradeIntentId)
    (ht : r'.tradeIntentId = r.tradeIntentId) (hs : r'.status = r.status)
    (hq : r'.filledQty = r.filledQty) (hp : r'.filledAvgPrice = r.filledAvgPrice) :
    RowAgrees w' r' := by
  constructor
  · rw [hs, ht, hi, hq, hp]
    exact h.filled
  · rw [hs, ht, hi, hq]
    exact h.stopped

/-- The status of an intent does not contradict an order row of it. -/
def Compatible (s : IntentStatus) (r : RealOrder) : Prop :=
  r.status ≠ .filled ∧ (r.status.stopped → s = .failed ∨ s = .executed ∧ 0 < r.filledQty)

instance (s : IntentStatus) (r : RealOrder) : Decidable (Compatible s r) := by
  unfold Compatible
  infer_instance

theorem RowAgrees.of_compatible {w w' : World} {r : RealOrder} {d : IntentPatch} {now : ℤ}
    (h : RowAgrees w r) (hc : Compatible d.status r)
    (hw : w'.intents = Store.modify (fun t => t.id = r.tradeIntentId) (d.apply now) w.intents) :
    RowAgrees w' r := by
  refine ⟨fun hs => absurd hs hc.1, fun hs => ?_⟩
  obtain ⟨t, ht, -⟩ := h.stopped hs
  exact ⟨d.apply now t, by simp [intent?_modify hw, ht], hc.2 hs⟩

theorem RowAgrees.of_other {w w' : World} {r : RealOrder} {d : IntentPatch} {now : ℤ} {id : String}
    (h : RowAgrees w r) (hid : r.tradeIntentId ≠ id)
    (hw : w'.intents = Store.modify (fun t => t.id = id) (d.apply now) w.intents) :
    RowAgrees w' r := by
  refine h.congr ?_ rfl rfl rfl rfl
  simp [intent?_modify hw, hid]

/-! ## What the services write -/

/-- **What the services write on the ledger.** -/
def LedgerOp (h : List (Event tradeSig)) (op : TradeOp) : Prop :=
  OrderOp h op ∨ op.intentWrite ∨ ∃ id d, op = .intentUpdate id d

theorem ledgerOp_of_order {α : Type} {p : Trade α} (hp : Always (S := tradeSig) OrderOp p) :
    Always (S := tradeSig) LedgerOp p := hp.mono fun _ _ => .inl

theorem ledgerOp_decide' (id decidedBy : String) (status : IntentStatus) (result : ResultJson) :
    Always (S := tradeSig) LedgerOp (decide' id decidedBy status result) :=
  always_bind (always_perform fun _ => .inr (.inr ⟨_, _, rfl⟩)) fun _ => always_ret _

theorem ledgerOp_submitReal (id symbol : String) (policy : ExecutionPolicy) (side : Side)
    (qty : Number) (decidedBy : String) :
    Always (S := tradeSig) LedgerOp (submitReal id symbol policy side qty decidedBy) := by
  refine always_bind (always_attempt (ledgerOp_of_order (orderOp_submit _))) fun r => ?_
  cases r with
  | error e => exact ledgerOp_decide' _ _ _ _
  | ok realOrder =>
    refine always_ite (fun _ => ledgerOp_decide' _ _ _ _) fun _ => ?_
    exact always_bind (ledgerOp_of_order (orderOp_of_quiet (quiet_await rfl))) fun _ =>
      ledgerOp_decide' _ _ _ _

/-- **What any call of the services writes on the ledger**, whatever it is answered. -/
theorem ledgerOp_body (c : ServiceCall) : Always (S := tradeSig) LedgerOp c.body :=
  Parts.body (Φ := fun _ => Always LedgerOp)
    { modular := modular_always _
      order := ledgerOp_of_order
      write := fun _ hop => always_perform fun _ => .inr (.inl hop)
      submitReal := ledgerOp_submitReal } c

/-! ## One step -/

/-- **The write of an intent's status does not contradict another order row of the intent.** -/
def KeepsAgreement (w : World) : Event tradeSig → Prop
  | ⟨.intentUpdate id d, .ok _⟩ => ∀ r ∈ w.orders, r.tradeIntentId = id → Compatible d.status r
  | ⟨.orderTransaction orderId _ _ id d, .ok _⟩ => ∀ r ∈ w.orders, r.id ≠ orderId →
      r.tradeIntentId = id → Compatible d.status r
  | _ => True

theorem fillEvidence_some {b : OrderStatusResult} {qty price : ℚ}
    (h : fillEvidence b = some (qty, price)) :
    b.filledQty = .fin qty ∧ b.filledAvgPrice = some (.fin price) ∧ 0 < qty := by
  unfold fillEvidence at h
  split at h
  · next q p hq hp =>
    split_ifs at h with hpos
    cases h
    exact ⟨hq, hp, hpos.1⟩
  · cases h

instance (w : World) (e : Event tradeSig) : Decidable (KeepsAgreement w e) := by
  unfold KeepsAgreement
  split <;> infer_instance

theorem RowAgrees.of_transaction {w w' : World} {now : ℤ} {r : RealOrder} {status : OrderStatus}
    {b : OrderStatusResult} (hc : Closes status b)
    (hstored : ((terminalPatch status b).apply now r).isSome)
    (hi : (w.intent? r.tradeIntentId).isSome)
    (hw : w'.intents = Store.modify (fun t => t.id = r.tradeIntentId)
      ((terminalIntentPatch b).apply now) w.intents) :
    RowAgrees w' ((terminalPatch status b).write now r) := by
  obtain ⟨t, ht⟩ := Option.isSome_iff_exists.1 hi
  have hid : w'.intent? ((terminalPatch status b).write now r).tradeIntentId =
      some ((terminalIntentPatch b).apply now t) := by
    simp [intent?_modify hw, ht]
  have hs : ((terminalPatch status b).write now r).status = status :=
    OrderPatch.write_status _ _ _ hstored
  have hq := OrderPatch.write_filledQty _ _ _ hstored
  have hp := OrderPatch.write_filledAvgPrice _ _ _ hstored
  cases he : fillEvidence b with
  | none =>
    -- without evidence of a fill the intent fails, and the order was not filled
    refine ⟨fun hf => absurd he (hc.2 (hs ▸ hf)), fun _ => ⟨_, hid, .inl ?_⟩⟩
    simp [terminalIntentPatch, he]
  | some e =>
    obtain ⟨qty, price⟩ := e
    obtain ⟨hbq, hbp, hpos⟩ := fillEvidence_some he
    have hqty : ((terminalPatch status b).write now r).filledQty = qty := by
      simpa [OrderPatch.storedQty, terminalPatch, hbq, column, eq_comm] using hq
    have hprice : ((terminalPatch status b).write now r).filledAvgPrice = some price := by
      simpa [OrderPatch.storedPrice, terminalPatch, hbp, column, eq_comm] using hp
    refine ⟨fun _ => ⟨_, hid, ?_, ?_, ?_⟩, fun _ => ⟨_, hid, .inr ⟨?_, by rw [hqty]; exact hpos⟩⟩⟩
    · simp [terminalIntentPatch, he]
    · simp [terminalIntentPatch, he, IntentPatch.apply, hprice]
    · simp [terminalIntentPatch, he, IntentPatch.apply, hqty]
    · simp [terminalIntentPatch, he]

theorem RowAgrees.of_update {w w' : World} {now : ℤ} {r : RealOrder} {d : OrderPatch}
    (h : RowAgrees w r) (hi : w'.intents = w.intents) (hstored : (d.apply now r).isSome)
    (hd : (d.status = none ∧ d.filledQty = none ∧ d.filledAvgPrice = none) ∨
      ∃ s, d.status = some s ∧ ¬ s.terminal) : RowAgrees w' (d.write now r) := by
  have hs := d.write_status now r hstored
  have hq := d.write_filledQty now r hstored
  have hp := d.write_filledAvgPrice now r hstored
  rcases hd with ⟨hds, hdq, hdp⟩ | ⟨s, hds, hopen⟩
  · refine h.congr (by simp [World.intent?, hi]) (by simp) (by simpa [hds] using hs) ?_ ?_
    · simpa [OrderPatch.storedQty, hdq, eq_comm] using hq
    · simpa [OrderPatch.storedPrice, hdp, eq_comm] using hp
  · refine .of_not_terminal ?_
    rw [hs, hds]
    exact hopen

theorem OrderOp.opens {h : List (Event tradeSig)} {id : String} {d : OrderPatch}
    (hop : OrderOp h (.orderUpdate id d)) :
    (d.status = none ∧ d.filledQty = none ∧ d.filledAvgPrice = none) ∨
      ∃ s, d.status = some s ∧ ¬ s.terminal := by
  obtain ⟨hq, hp, hs⟩ := hop
  cases hd : d.status with
  | none => exact .inl ⟨rfl, hq, hp⟩
  | some s =>
    refine .inr ⟨s, rfl, fun ht => ?_⟩
    rcases hs s hd with hs | rfl
    · exact OrderStatus.not_pollable_of_terminal ht hs
    · cases ht

/-- **One operation of the services keeps the agreement.** -/
theorem ledger_step {now : ℤ} {w w' : World} {h : List (Event tradeSig)} {op : TradeOp}
    {a : Except Err op.Ans} (hs : TableStep now w w' op a) (hop : LedgerOp h op)
    (hK : ∀ e ∈ h, OrderKnown e w) (hkey : Store.Keyed RealOrder.id w.orders)
    (hg : KeepsAgreement w ⟨op, a⟩) (hw : LedgerAgrees w) : LedgerAgrees w' := by
  cases hs with
  | frame hi ho =>
    intro r hr
    rw [ho] at hr
    exact (hw r hr).congr (by simp [World.intent?, hi]) rfl rfl rfl rfl
  | intentCreate row _ _ hi ho =>
    intro r hr
    rw [ho] at hr
    have hr := hw r hr
    refine ⟨fun hs => ?_, fun hs => ?_⟩
    · obtain ⟨t, ht, hrest⟩ := hr.filled hs
      exact ⟨t, intent?_append hi ht, hrest⟩
    · obtain ⟨t, ht, hrest⟩ := hr.stopped hs
      exact ⟨t, intent?_append hi ht, hrest⟩
  | @intentUpdate id d t _ hi ho =>
    intro r hr
    rw [ho] at hr
    by_cases hid : r.tradeIntentId = id
    · exact (hw r hr).of_compatible (hg r hr hid) (hid ▸ hi)
    · exact (hw r hr).of_other hid hi
  | orderCreate row _ hs _ _ hi ho =>
    intro r hr
    rw [ho] at hr
    rcases List.mem_append.1 hr with hr | hr
    · exact (hw r hr).congr (by simp [World.intent?, hi]) rfl rfl rfl rfl
    · rw [List.mem_singleton.1 hr]
      refine .of_not_terminal ?_
      rw [hs]
      decide
  | orderUpdate row _ hu hi =>
    obtain hop | hop | ⟨_, _, hop⟩ := hop
    · rw [LedgerAgrees, hu.orders]
      refine Store.forall_modify (fun r hr hp => ?_) fun r hr _ => ?_
      · exact (hw r hr).of_update hi (hu.stored r hr hp) hop.opens
      · exact (hw r hr).congr (by simp [World.intent?, hi]) rfl rfl rfl rfl
    · cases hop
    · cases hop
  | orderUpdateMany n hu hi =>
    obtain hop | hop | ⟨_, _, hop⟩ := hop
    · rw [LedgerAgrees, hu.orders]
      refine Store.forall_modify (fun r hr hp => ?_) fun r hr _ => ?_
      · refine (hw r hr).of_update hi (hu.stored r hr hp) (.inr ⟨_, hop, ?_⟩)
        decide
      · exact (hw r hr).congr (by simp [World.intent?, hi]) rfl rfl rfl rfl
    · cases hop
    · cases hop
  | @orderTransaction id expected d tid ip n _ hex hu ht hi =>
    obtain hop | hop | ⟨_, _, hop⟩ := hop
    · obtain ⟨row, status, b, ⟨_, hread⟩, -, hc, rfl, rfl, rfl, rfl, rfl⟩ := hop
      have hrow := (hK _ hread).2
      rw [LedgerAgrees, hu.orders]
      refine Store.forall_modify (fun r hr hp => ?_) fun r hr hn => ?_
      · simp only [decide_eq_true_eq] at hp
        have htid := hrow r hr hp.1
        exact .of_transaction hc (hu.stored r hr (by simpa using hp)) (htid ▸ ht) (htid ▸ hi)
      · simp only [decide_eq_true_eq] at hn
        -- the row of the same id is the one that is updated
        have hne : r.id ≠ row.id := by
          intro he
          obtain ⟨r₀, hr₀, hid, hst⟩ := hex
          have : r = r₀ := hkey r hr r₀ hr₀ (he.trans hid.symm)
          exact hn ⟨he, this ▸ hst⟩
        by_cases hid : r.tradeIntentId = row.tradeIntentId
        · exact (hw r hr).of_compatible (hg r hr hne hid) (hid ▸ hi)
        · exact (hw r hr).of_other hid hi
    · cases hop
    · cases hop

/-! ## Every interleaving -/

/-- **The ledger agrees in every state of every interleaving** of the services' calls in which no
status is written on an intent that contradicts another terminal order row of the intent. -/
theorem ledger_agrees {w : World} {P : Pool tradeSig ServiceCall World} (hw : LedgerAgrees w)
    (hkey : Store.Keyed RealOrder.id w.orders)
    (hr : Pool.Reaches tradeSem ServiceCall.body (fun w _ _ e => KeepsAgreement w e) ⟨w, []⟩ P) :
    LedgerAgrees P.world := by
  refine (Pool.reaches_invariant (K := OrderKnown)
    (J := fun w => LedgerAgrees w ∧ Store.Keyed RealOrder.id w.orders)
    (fun c => ledgerOp_body c []) ?_ ⟨hw, hkey⟩ hr).1
  rintro w w' ts t op a ⟨hJ, hkey⟩ hK hop hg ⟨o, -, ho⟩
  have hs := handle_tables ho
  exact ⟨⟨ledger_step hs hop hK hkey hg hJ, hs.keyed hkey⟩, .of_handle hkey ho, fun _ he => he.step hs⟩

def orderlySchedule : List (Move ServiceCall Oracle) :=
  let o := sampleOracle (samplePosition "SPY" "5")
  .start (.autoProcess "intent-1") :: List.replicate 31 (.await 0 o) ++
    .start (.reconcileOrder "order-1") :: List.replicate 3 (.await 1 o)

def orderlyEnd : Option (Pool tradeSig ServiceCall World) :=
  Pool.replay handle ServiceCall.body (fun w _ _ e => decide (KeepsAgreement w e)) orderlySchedule
    ⟨sampleWorld [sampleIntent "intent-1" "SPY" .exit], []⟩

theorem orderlyEnd_isSome : orderlyEnd.isSome := by decide +kernel

/-- The ledger agrees after the orderly schedule. -/
theorem ledger_agrees_orderly : LedgerAgrees (orderlyEnd.get orderlyEnd_isSome).world :=
  ledger_agrees (w := sampleWorld [sampleIntent "intent-1" "SPY" .exit])
    (by intro r hr; cases hr) Store.keyed_nil
    (Pool.reaches_of_replay (fun _ _ _ _ hc => of_decide_eq_true hc)
      (Option.some_get orderlyEnd_isSome).symm)

/-! ## The race -/

/-- The reconciliation fills the order after its submission and before the intent is written. -/
def raceSchedule : List (Move ServiceCall Oracle) :=
  let o := sampleOracle (samplePosition "SPY" "5")
  .start (.autoProcess "intent-1") :: List.replicate 30 (.await 0 o) ++
    .start (.reconcileOrder "order-1") :: List.replicate 3 (.await 1 o) ++ [.await 0 o]

def raceEnd : Option (Pool tradeSig ServiceCall World) :=
  Pool.replay handle ServiceCall.body Pool.unchecked raceSchedule
    ⟨sampleWorld [sampleIntent "intent-1" "SPY" .exit], []⟩

theorem raceEnd_eq : (raceEnd.map fun P => (P.threads.map fun t => t.rest.finished,
    P.world.orders.map fun r => (r.status, (P.world.intent? r.tradeIntentId).map fun t => t.status))) =
    some ([true, true], [(.filled, some .realPending)]) := by
  decide +kernel

/-- **Without that condition the ledger does not agree**, also where every call has ended: an order
is filled and its intent is left at `real_pending`. -/
theorem ledger_disagrees : ¬ ∀ (w : World) (P : Pool tradeSig ServiceCall World), LedgerAgrees w →
    Store.Keyed RealOrder.id w.orders → Pool.Reaches tradeSem ServiceCall.body Pool.free ⟨w, []⟩ P →
    (∀ t ∈ P.threads, t.rest.finished) → LedgerAgrees P.world := by
  intro hall
  have hrace := raceEnd_eq
  obtain ⟨P, hP, hPeq⟩ := Option.map_eq_some_iff.1 hrace
  simp only [Prod.mk.injEq] at hPeq
  obtain ⟨hdone, hrows⟩ := hPeq
  have hagree := hall _ P (by intro r hr; cases hr) Store.keyed_nil (Pool.reaches_of_replay (fun _ _ _ _ _ => trivial) hP)
    (fun t ht => by simpa [hdone] using List.mem_map_of_mem (f := fun t => t.rest.finished) ht)
  obtain ⟨r, hr, hst⟩ : ∃ r ∈ P.world.orders, r.status = .filled ∧
      (P.world.intent? r.tradeIntentId).map (fun t => t.status) = some .realPending := by
    obtain ⟨r, hr, heq⟩ := List.mem_map.1 (hrows ▸ List.mem_singleton.2 rfl)
    simp only [Prod.mk.injEq] at heq
    exact ⟨r, hr, heq⟩
  obtain ⟨t, ht, hexec, -⟩ := (hagree r hr).filled hst.1
  rw [ht] at hst
  simp [hexec] at hst

end NeoTrader

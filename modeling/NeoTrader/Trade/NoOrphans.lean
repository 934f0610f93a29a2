import NeoTrader.Await.Pool
import NeoTrader.Trade.Calls

/-!
# Orders behind the pending intents

An intent at `real_pending` waits for an order of its own that a later broker answer can resolve.

* `keeps_submitReal`, **`no_orphans`**: it then holds in every state of every run in which the calls
  run one after the other;
* **`orphaned`**: the run in which a submission is handed the order of another intent.
-/

namespace NeoTrader

open Js Await Prog

/-- The intent has an order that some later broker answer can still resolve. -/
def Resolvable (w : World) (id : String) : Prop :=
  ∃ r ∈ w.orders, r.tradeIntentId = id ∧ r.status.pollable

/-- **No pending intent is without such an order.** -/
def NoOrphans (w : World) : Prop :=
  ∀ t ∈ w.intents, t.status = .realPending → Resolvable w t.id

instance (w : World) (id : String) : Decidable (Resolvable w id) :=
  inferInstanceAs (Decidable (∃ r ∈ w.orders, _))

instance (w : World) : Decidable (NoOrphans w) :=
  inferInstanceAs (Decidable (∀ t ∈ w.intents, _ → _))

/-- The intent of the row is not waiting for an order, or has another order to wait for. -/
def Dispensable (w : World) (row : RealOrder) : Prop :=
  (∀ t ∈ w.intents, t.id = row.tradeIntentId → t.status ≠ .realPending) ∨
    ∃ r ∈ w.orders, r.id ≠ row.id ∧ r.tradeIntentId = row.tradeIntentId ∧ r.status.pollable

instance (w : World) (row : RealOrder) : Decidable (Dispensable w row) :=
  inferInstanceAs (Decidable ((∀ t ∈ w.intents, _ → _) ∨ ∃ r ∈ w.orders, _))

/-- The polling of an order is only given up where its intent can do without it. -/
def abandonsNone (w : World) : Event tradeSig → Bool
  | ⟨.orderUpdate id d, .ok _⟩ => d.status ≠ some .confirmedAbsent ∨
      ∀ r ∈ w.orders, r.id = id → Dispensable w r
  | _ => true

/-- A submission is only handed an active order of the same symbol, broker and side where its intent
has an order of its own. -/
def handsBackOwn (w : World) : Event tradeSig → Bool
  | ⟨.orderFindActiveForSymbol intentId _ _ _, .ok (some _)⟩ => Resolvable w intentId
  | _ => true

/-! ## One step -/

theorem Resolvable.of_updated {now : ℤ} {w w' : World} {p : RealOrder → Bool} {d : OrderPatch}
    {id : String} (h : Resolvable w id) (hu : OrdersUpdated now w w' p d)
    (hd : ∀ s, d.status = some s → s.pollable) : Resolvable w' id := by
  obtain ⟨r, hr, hid, hs⟩ := h
  rw [Resolvable, hu.orders]
  by_cases hp : p r = true
  · refine ⟨_, Store.mem_modify_of hr hp, by simpa using hid, ?_⟩
    rw [d.write_status now r (hu.stored r hr hp)]
    cases hds : d.status with
    | none => exact hs
    | some s => exact hd s hds
  · exact ⟨r, Store.mem_modify_of_not hr hp, hid, hs⟩

theorem Resolvable.of_not_updated {now : ℤ} {w w' : World} {p : RealOrder → Bool} {d : OrderPatch}
    {id : String} (hu : OrdersUpdated now w w' p d) {r : RealOrder} (hr : r ∈ w.orders)
    (hid : r.tradeIntentId = id) (hs : r.status.pollable) (hp : ¬ p r) : Resolvable w' id := by
  rw [Resolvable, hu.orders]
  exact ⟨r, Store.mem_modify_of_not hr hp, hid, hs⟩

/-- **One operation other than the write of `real_pending`.** -/
theorem orphan_step {now : ℤ} {w w' : World} {h : List (Event tradeSig)} {op : TradeOp}
    {a : Except Err op.Ans} (hs : TableStep now w w' op a) (hop : OrderOp h op ∨ op.intentWrite)
    (hK : ∀ e ∈ h, OrderKnown e w) (hg : abandonsNone w ⟨op, a⟩) (hw : NoOrphans w) :
    NoOrphans w' := by
  cases hs with
  | frame hi ho =>
    intro t ht hst
    rw [hi] at ht
    rw [Resolvable, ho]
    exact hw t ht hst
  | intentCreate row _ hst hi ho =>
    intro t ht hpend
    rw [hi] at ht
    rw [Resolvable, ho]
    rcases List.mem_append.1 ht with ht | ht
    · exact hw t ht hpend
    · rw [List.mem_singleton.1 ht, hst] at hpend
      obtain hop | hop := hop
      · cases hop
      · exact absurd hpend hop
  | @intentUpdate id d _ _ hi ho =>
    obtain hop | hop := hop
    · cases hop
    rw [NoOrphans, hi]
    refine Store.forall_modify (fun t ht _ hpend => absurd hpend hop) fun t ht _ hpend => ?_
    rw [Resolvable, ho]
    exact hw t ht hpend
  | orderCreate row _ _ _ _ hi ho =>
    intro t ht hpend
    rw [hi] at ht
    obtain ⟨r, hr, hrest⟩ := hw t ht hpend
    exact ⟨r, by rw [ho]; exact List.mem_append_left _ hr, hrest⟩
  | @orderUpdate id d row _ hu hi =>
    obtain ⟨-, -, hop⟩ | hop := hop
    · intro t ht hpend
      rw [hi] at ht
      have hres := hw t ht hpend
      by_cases habs : d.status = some .confirmedAbsent
      · obtain ⟨r, hr, hid, hst⟩ := hres
        by_cases hrid : r.id = id
        · rcases of_decide_eq_true hg with hne | hall
          · exact absurd habs hne
          rcases hall r hr hrid with hnone | ⟨r', hr', hrid', hid', hst'⟩
          · exact absurd hpend (hnone t ht hid.symm)
          · exact .of_not_updated hu hr' (hid'.trans hid) hst' (by simpa [hrid] using hrid')
        · exact .of_not_updated hu hr hid hst (by simpa using hrid)
      · refine hres.of_updated hu fun s hs => ?_
        rcases hop s hs with hpoll | rfl
        · exact hpoll
        · exact absurd hs habs
    · cases hop
  | orderUpdateMany n hu hi =>
    obtain hop | hop := hop
    · intro t ht hpend
      rw [hi] at ht
      refine (hw t ht hpend).of_updated hu fun s hs => ?_
      rw [hop] at hs
      cases hs
      rfl
    · cases hop
  | orderTransaction n _ _ hu _ hi =>
    obtain hop | hop := hop
    · obtain ⟨row, status, b, ⟨_, hread⟩, -, -, rfl, rfl, rfl, rfl, rfl⟩ := hop
      have hrow := (hK _ hread).2
      rw [NoOrphans, hi]
      refine Store.forall_modify (fun t ht _ hpend => ?_) fun t ht hn hpend => ?_
      · -- the intent of the closed order is executed or failed
        unfold terminalIntentPatch at hpend
        split at hpend <;> cases hpend
      · obtain ⟨r, hr, hid, hst⟩ := hw t ht hpend
        refine .of_not_updated hu hr hid hst fun hp => hn ?_
        simp only [decide_eq_true_eq] at hp ⊢
        rw [← hid, hrow r hr hp.1]
    · cases hop

theorem orphan_realPending {now : ℤ} {w w' : World} {id : String} {d : IntentPatch}
    {a : Except Err TradeIntent} (hs : TableStep now w w' (.intentUpdate id d) a)
    (hres : Resolvable w id) (hw : NoOrphans w) : NoOrphans w' := by
  cases hs with
  | frame hi ho =>
    intro t ht hst
    rw [hi] at ht
    rw [Resolvable, ho]
    exact hw t ht hst
  | intentUpdate _ _ hi ho =>
    rw [NoOrphans, hi]
    refine Store.forall_modify (fun t ht hid _ => ?_) fun t ht _ hpend => ?_
    · rw [Resolvable, ho, IntentPatch.apply_id, of_decide_eq_true hid]
      exact hres
    · rw [Resolvable, ho]
      exact hw t ht hpend

/-! ## One call -/

/-- The calls under the two conditions; a submission that is called directly writes no intent. -/
def Unorphaning (c : ServiceCall) (w : World) (e : Event tradeSig) : Prop :=
  abandonsNone w e ∧ ((∀ args, c ≠ .submit args) → handsBackOwn w e)

/-- The invariant of the runs. -/
structure OrphanInv (w : World) : Prop where
  noOrphans : NoOrphans w
  keyed : Store.Keyed RealOrder.id w.orders

theorem keeps_of_always {c : ServiceCall} {α : Type} {p : Trade α}
    (hp : Always (S := tradeSig) (fun h op => OrderOp h op ∨ op.intentWrite) p) :
    Keeps (tradeSem.guard (Unorphaning c)) OrphanInv p := by
  refine hp.keeps (K := OrderKnown) ?_
  rintro w w' h op a ⟨hw, hkey⟩ hK hop ⟨⟨hg, -⟩, o, -, ho⟩
  have hs := handle_tables ho
  exact ⟨⟨orphan_step hs hop hK hg hw, hs.keyed hkey⟩, .of_handle hkey ho, fun _ he => he.step hs⟩

theorem Resolvable.step {now : ℤ} {w w' : World} {op : TradeOp} {a : Except Err op.Ans}
    {id : String} (hs : TableStep now w w' op a) (hop : op.afterCreate) (h : Resolvable w id) :
    Resolvable w' id := by
  cases hs with
  | frame _ ho | intentCreate _ _ _ _ ho | intentUpdate _ _ _ ho =>
    rw [Resolvable, ho]
    exact h
  | orderCreate row _ _ _ _ _ ho =>
    rw [Resolvable, ho]
    obtain ⟨r, hr, hrest⟩ := h
    exact ⟨r, List.mem_append_left _ hr, hrest⟩
  | orderUpdate row _ hu _ =>
    rcases hop with hq | ⟨_, _, _, hop⟩ | ⟨_, d, s, hop, -, -, hd, hpoll⟩
    · cases hq
    · cases hop
    · cases hop
      exact h.of_updated hu fun s' hs' => by rw [hd] at hs'; cases hs'; exact hpoll
  | orderUpdateMany | orderTransaction =>
    rcases hop with hq | ⟨_, _, _, hop⟩ | ⟨_, _, _, hop, -⟩
    · cases hq
    · cases hop
    · cases hop

section Submission

variable {c : ServiceCall}

theorem keeps_of_afterCreate {α : Type} {p : Trade α} (id : String)
    (hp : Always (S := tradeSig) (fun _ op => op.afterCreate) p) :
    Keeps (tradeSem.guard (Unorphaning c)) (fun w => OrphanInv w ∧ Resolvable w id) p := by
  refine hp.keeps (K := OrderKnown) ?_
  rintro w w' h op a ⟨⟨hw, hkey⟩, hres⟩ hK hop ⟨⟨hg, -⟩, o, -, ho⟩
  have hs := handle_tables ho
  have hw' := orphan_step hs (h := h) (.inl (.of_afterCreate hop)) hK hg hw
  exact ⟨⟨⟨hw', hs.keyed hkey⟩, hres.step hs hop⟩, .of_handle hkey ho, fun _ he => he.step hs⟩

/-- What a submission for an intent leaves: a returned row means that the intent is resolvable. -/
def Submitted (id : String) (r : Except Err RealOrder) (w : World) : Prop :=
  OrphanInv w ∧ ∀ row, r = .ok row → Resolvable w id

theorem Submitted.error {id : String} {e : Err} {w : World} (h : OrphanInv w) :
    Submitted id (.error e) w := ⟨h, fun _ he => by cases he⟩

theorem Submitted.ok {id : String} {row : RealOrder} {w : World} (h : OrphanInv w)
    (hres : Resolvable w id) : Submitted id (.ok row) w := ⟨h, fun _ _ => hres⟩

theorem submitAtBroker_spec (args : SubmitArgs) (clientOrderId id : String) (row : RealOrder)
    {w : World} (hw : OrphanInv w) (hres : Resolvable w id) :
    (submitAtBroker args clientOrderId row).Wp (tradeSem.guard (Unorphaning c))
      (fun w _ => OrphanInv w) (Submitted id) w :=
  wp_mono (fun _ _ h => h.1) (fun _ _ h => ⟨h.1, fun _ _ => h.2⟩)
    (keeps_of_afterCreate id (afterCreate_submitAtBroker _ _ _) w ⟨hw, hres⟩)

theorem resolvable_of_active {o : Oracle} {w w' : World} {id : String} {row : RealOrder}
    (h : handle o (.orderFindActiveForIntent id) w = (.ok (some row), w')) : Resolvable w' id := by
  obtain ⟨rfl, hans⟩ := query_cases h
  have hfind := (hans _ rfl).symm
  have hrow := List.find?_some hfind
  simp only [decide_eq_true_eq] at hrow
  exact ⟨row, List.mem_of_find?_eq_some hfind, hrow.1, OrderStatus.pollable_of_active hrow.2⟩

theorem resolvable_of_created {o : Oracle} {w w' : World} {d : OrderCreate} {row : RealOrder}
    (h : handle o (.orderCreate d) w = (.ok row, w')) : Resolvable w' d.tradeIntentId := by
  rcases db_cases h with ⟨-, e, he⟩ | ⟨row', hx, he⟩
  · cases he
  · obtain ⟨qty, limit, rfl, -, -, -, rfl⟩ := createOrder_cases hx
    exact ⟨_, List.mem_append_right _ (List.mem_singleton.2 rfl), rfl, rfl⟩

theorem keeps_quiet {α : Type} {p : Trade α} (hp : Quiet p) :
    Keeps (tradeSem.guard (Unorphaning c)) OrphanInv p :=
  keeps_of_always (hp.mono fun _ _ hq => .inl (.of_quiet hq))

theorem keeps_orderCreate (d : OrderCreate) :
    Keeps (tradeSem.guard (Unorphaning c)) OrphanInv (await (.orderCreate d)) :=
  keeps_of_always (always_perform fun _ => .inl trivial)

theorem raceWinner_spec (id : String) (e : Err) {w : World} (hw : OrphanInv w) :
    (raceWinner id e).Wp (tradeSem.guard (Unorphaning c)) (fun w _ => OrphanInv w)
      (Submitted id) w := by
  refine wp_perform_bind.2 ⟨hw, fun r w' hr => ?_⟩
  have hw' : OrphanInv w' := (keeps_quiet (quiet_await rfl)).step hw hr
  obtain ⟨-, o, -, ho⟩ := hr
  rcases r with e' | _ | row
  · exact Submitted.error hw'
  · exact Submitted.error hw'
  · exact Submitted.ok hw' (resolvable_of_active ho)

theorem submitNew_spec (args : SubmitArgs) {w : World} (hw : OrphanInv w) :
    (submitNew args).Wp (tradeSem.guard (Unorphaning c)) (fun w _ => OrphanInv w)
      (Submitted args.tradeIntentId) w := by
  refine wp_bind_of (keeps_quiet (quiet_generateClientOrderId _) w hw)
    (fun clientOrderId w hw => ?_) fun _ _ h => .error h
  refine wp_attempt_perform_bind.2 ⟨hw, fun r w' hr => ?_⟩
  have hw' : OrphanInv w' := (keeps_orderCreate _).step hw hr
  obtain ⟨-, o, -, ho⟩ := hr
  cases r with
  | ok row => exact submitAtBroker_spec args clientOrderId _ row hw' (resolvable_of_created ho)
  | error e =>
    dsimp only
    split
    · exact raceWinner_spec _ e hw'
    · exact Submitted.error hw'

theorem submit_spec (args : SubmitArgs) (hc : ∀ args, c ≠ .submit args) {w : World}
    (hw : OrphanInv w) :
    (submit args).Wp (tradeSem.guard (Unorphaning c)) (fun w _ => OrphanInv w)
      (Submitted args.tradeIntentId) w := by
  refine wp_perform_bind.2 ⟨hw, fun r w hr => ?_⟩
  have hquiet : Quiet (await (.orderFindActiveForIntent args.tradeIntentId)) := quiet_await rfl
  have hw : OrphanInv w := (keeps_quiet hquiet).step hw hr
  obtain ⟨-, o, -, ho⟩ := hr
  rcases r with e | _ | row
  · exact Submitted.error hw
  · dsimp only [bindPost]
    refine wp_perform_bind.2 ⟨hw, fun r w' hr => ?_⟩
    have hquiet : Quiet (await (.orderFindActiveForSymbol args.tradeIntentId args.symbol
        args.brokerPluginId args.side)) := quiet_await rfl
    have hw' : OrphanInv w' := (keeps_quiet hquiet).step hw hr
    obtain ⟨⟨-, hg⟩, o, -, ho⟩ := hr
    rcases r with e | _ | row
    · exact Submitted.error hw'
    · exact submitNew_spec args hw'
    · obtain ⟨rfl, -⟩ := query_cases ho
      exact Submitted.ok hw' (of_decide_eq_true (hg hc))
  · exact Submitted.ok hw (resolvable_of_active ho)

theorem keeps_failIntent (id decidedBy : String) (result : ResultJson) :
    Keeps (tradeSem.guard (Unorphaning c)) OrphanInv (failIntent id decidedBy result) :=
  keeps_of_always (always_bind (always_perform fun _ => .inr nofun) fun _ => always_ret _)

theorem realPending_spec (id decidedBy : String) (result : ResultJson) {w : World}
    (hw : OrphanInv w) (hres : Resolvable w id) :
    (decide' id decidedBy .realPending result).Wp (tradeSem.guard (Unorphaning c))
      (fun w _ => OrphanInv w) (fun _ => OrphanInv) w := by
  refine wp_perform_bind.2 ⟨hw, fun r w' hr => ?_⟩
  obtain ⟨-, o, -, ho⟩ := hr
  have hs := handle_tables ho
  have hw' : OrphanInv w' := ⟨orphan_realPending hs hres hw.noOrphans, hs.keyed hw.keyed⟩
  cases r <;> exact hw'

/-- **The submission of a real order**: the intent is only left at `real_pending` with an order. -/
theorem keeps_submitReal (hc : ∀ args, c ≠ .submit args) (id symbol : String)
    (policy : ExecutionPolicy) (side : Side) (qty : Number) (decidedBy : String) :
    Keeps (tradeSem.guard (Unorphaning c)) OrphanInv
      (submitReal id symbol policy side qty decidedBy) := by
  intro w hw
  refine (wp_bind _ w).2 ((wp_attempt _ w).2 ?_)
  refine wp_post (fun r w hr => ?_) (submit_spec _ hc hw)
  obtain ⟨hw, hres⟩ := hr
  cases r with
  | error e => exact keeps_failIntent _ _ _ w hw
  | ok row =>
    have hres : Resolvable w id := hres row rfl
    dsimp only [bindPost]
    split
    · exact keeps_failIntent _ _ _ w hw
    · refine wp_perform_bind.2 ⟨hw, fun r w' hr => ?_⟩
      obtain ⟨-, o, -, ho⟩ := hr
      cases ho
      exact realPending_spec _ _ _ hw hres

end Submission

theorem keeps_body (c : ServiceCall) :
    Keeps (tradeSem.guard (Unorphaning c)) OrphanInv c.body := by
  by_cases hc : ∀ args, c ≠ .submit args
  · exact Parts.body (Φ := fun _ => Keeps _ OrphanInv)
      { modular := modular_keeps _ _
        order := fun hp => keeps_of_always (hp.mono fun _ _ => .inl)
        write := fun _ hop => keeps_of_always (always_perform fun _ => .inr hop)
        submitReal := keeps_submitReal hc } c
  · simp only [not_forall, not_not] at hc
    obtain ⟨args, rfl⟩ := hc
    exact keeps_of_always (always_bind
      ((orderOp_submit args).mono fun _ _ => .inl) fun _ => always_ret _)

/-! ## Every run -/

/-- One call after the other, under the two conditions. -/
def orderly : Guard tradeSig ServiceCall World :=
  fun w ts t e => Pool.serial w ts t e ∧ Unorphaning t.call w e

/-- **No orphaned intent.** In every state of every run of the services' calls, one after the other
and under the two conditions, a `real_pending` intent has an order that can still be resolved. -/
theorem no_orphans {w : World} {P : Pool tradeSig ServiceCall World} (hw : NoOrphans w)
    (hkey : Store.Keyed RealOrder.id w.orders)
    (hr : Pool.Reaches tradeSem ServiceCall.body orderly ⟨w, []⟩ P) : NoOrphans P.world :=
  (Pool.reaches_serial keeps_body (fun _ _ _ _ h => h) ⟨hw, hkey⟩ hr).noOrphans

def oneExit : Option (Pool tradeSig ServiceCall World) :=
  Pool.replay handle ServiceCall.body
    (fun w ts t e => Pool.serialCheck w ts t e && abandonsNone w e && handsBackOwn w e)
    (.start (.autoProcess "intent-1") ::
      List.replicate 31 (.await 0 (sampleOracle (samplePosition "SPY" "5"))))
    ⟨sampleWorld [sampleIntent "intent-1" "SPY" .exit], []⟩

theorem oneExit_isSome : oneExit.isSome := by decide +kernel

/-- No orphan after the run of one exit intent. -/
theorem no_orphans_oneExit : NoOrphans (oneExit.get oneExit_isSome).world := by
  refine no_orphans (w := sampleWorld [sampleIntent "intent-1" "SPY" .exit]) (by decide)
    Store.keyed_nil
    (Pool.reaches_of_replay (fun w ts t e hc => ?_) (Option.some_get oneExit_isSome).symm)
  simp only [Bool.and_eq_true] at hc
  exact ⟨Pool.serial_of_check hc.1.1, hc.1.2, fun _ => hc.2⟩

/-! ## The order of another intent -/

def twoExits : Option (Pool tradeSig ServiceCall World) :=
  let o := sampleOracle (samplePosition "SPY" "5")
  Pool.replay handle ServiceCall.body Pool.serialCheck
    (.start (.autoProcess "intent-1") :: List.replicate 31 (.await 0 o) ++
      .start (.autoProcess "intent-2") :: List.replicate 26 (.await 1 o))
    ⟨sampleWorld [sampleIntent "intent-1" "SPY" .exit, sampleIntent "intent-2" "SPY" .exit], []⟩

theorem twoExits_orphan : (twoExits.map fun P => decide (NoOrphans P.world)) = some false := by
  decide +kernel

/-- **A submission that is handed another intent's order leaves its intent without one.** -/
theorem orphaned : ¬ ∀ (w : World) (P : Pool tradeSig ServiceCall World), NoOrphans w →
    Store.Keyed RealOrder.id w.orders →
    Pool.Reaches tradeSem ServiceCall.body Pool.serial ⟨w, []⟩ P → NoOrphans P.world := by
  intro hall
  obtain ⟨P, hP, horphan⟩ := Option.map_eq_some_iff.1 twoExits_orphan
  exact of_decide_eq_false horphan (hall _ P (by decide) Store.keyed_nil
    (Pool.reaches_of_replay (fun _ _ _ _ => Pool.serial_of_check) hP))

end NeoTrader

import NeoTrader.Trade.Broker
import NeoTrader.Trade.SingleClosing

/-!
# Fills after an early terminal status

The polls of a row stop once it is terminal. The raw statuses `pending_cancel` and `done_for_day` are
mapped to terminal statuses, although the broker may still fill the order after them.

* **`final_fill_iff`**: when the row has the broker's final fill;
* **`lost_fill`**: a fill after `pending_cancel`.
-/

namespace NeoTrader

open Js Await Prog

/-! ## The broker's order -/

/-- The order that the broker finds under a client order id, and under its own order id. -/
structure Tracks (b : Broker) (broker client brokerOrderId : String) (o : HeldOrder) : Prop where
  byClient : b.byClient? broker client = some o
  byId : b.byId? broker brokerOrderId = some o

/-- **What an answer of the past says about the order as it is now.** -/
structure AnswerOf (o : HeldOrder) (b : OrderStatusResult) : Prop where
  id : b.brokerOrderId = o.brokerOrderId
  qty : ∃ q, b.filledQty = .fin q ∧ q ≤ o.filledQty
  final : finalAtBroker b.status → o.status = b.status ∧ b.filledQty = .fin o.filledQty

theorem answerOf_view (o : HeldOrder) : AnswerOf o o.view :=
  ⟨rfl, ⟨_, rfl, le_rfl⟩, fun _ => ⟨rfl, rfl⟩⟩

theorem AnswerOf.update {o : HeldOrder} {b : OrderStatusResult} (h : AnswerOf o b) (status : String)
    (filledQty : ℚ) (filledAvgPrice : Option ℚ) (raw : Json) :
    AnswerOf (o.update status filledQty filledAvgPrice raw) b := by
  unfold HeldOrder.update
  split_ifs with hstop
  · exact h
  · simp only [not_or, not_lt] at hstop
    obtain ⟨q, hq, hle⟩ := h.qty
    refine ⟨h.id, ⟨q, hq, hle.trans hstop.2⟩, fun hfinal => ?_⟩
    exact absurd ((h.final hfinal).1 ▸ hfinal) hstop.1

theorem find?_modify_same {l : List HeldOrder} {f : HeldOrder → HeldOrder} {p q : HeldOrder → Bool}
    (hp : ∀ o, p (f o) = p o) (hq : ∀ o, q (f o) = q o) {o : HeldOrder} (hfp : l.find? p = some o)
    (hfq : l.find? q = some o) (i : ℕ) : ∃ o', (o' = o ∨ o' = f o) ∧
      (l.modify i f).find? p = some o' ∧ (l.modify i f).find? q = some o' := by
  induction l generalizing i with
  | nil => cases hfp
  | cons a l ih =>
    have hpo : p o = true := List.find?_some hfp
    have hqo : q o = true := List.find?_some hfq
    rw [List.find?_cons] at hfp hfq
    cases hpa : p a with
    | true =>
      rw [hpa] at hfp
      cases hfp
      cases i with
      | zero => exact ⟨f o, .inr rfl, by simp [hp, hpo], by simp [hq, hqo]⟩
      | succ i => exact ⟨o, .inl rfl, by simp [hpo], by simp [hqo]⟩
    | false =>
      have hqa : q a = false := by
        cases hqa : q a with
        | false => rfl
        | true =>
          rw [hqa] at hfq
          cases hfq
          rw [hpa] at hpo
          cases hpo
      rw [hpa] at hfp
      rw [hqa] at hfq
      cases i with
      | zero => exact ⟨o, .inl rfl, by simp [hp, hpa, hfp], by simp [hq, hqa, hfq]⟩
      | succ i =>
        obtain ⟨o', ho', h1, h2⟩ := ih hfp hfq i
        exact ⟨o', ho', by simp [hpa, h1], by simp [hqa, h2]⟩

section Tracking

variable {b : Broker} {broker client brokerOrderId : String} {o : HeldOrder}

theorem Tracks.move (h : Tracks b broker client brokerOrderId o) (m : BrokerMove) :
    ∃ o', Tracks (b.move m) broker client brokerOrderId o' ∧ ∀ v, AnswerOf o v → AnswerOf o' v := by
  cases m with
  | register i id status filledQty filledAvgPrice raw =>
    refine ⟨o, ?_, fun _ hv => hv⟩
    simp only [Broker.move]
    split
    · exact h
    split_ifs
    · exact h
    · constructor
      · exact List.find?_append.trans (by rw [show b.held.find? _ = _ from h.byClient]; rfl)
      · exact List.find?_append.trans (by rw [show b.held.find? _ = _ from h.byId]; rfl)
  | lose i => exact ⟨o, ⟨h.byClient, h.byId⟩, fun _ hv => hv⟩
  | update i status filledQty filledAvgPrice raw =>
    obtain ⟨o', ho', h1, h2⟩ := find?_modify_same
      (f := fun o => o.update status filledQty filledAvgPrice raw)
      (p := fun o => o.placed.isFor broker client)
      (q := fun o => o.placed.brokerPluginId = broker ∧ o.brokerOrderId = brokerOrderId)
      (fun o => by rw [HeldOrder.update_placed])
      (fun o => by rw [HeldOrder.update_placed, HeldOrder.update_brokerOrderId])
      h.byClient h.byId i
    refine ⟨o', ⟨h1, h2⟩, fun v hv => ?_⟩
    rcases ho' with rfl | rfl
    · exact hv
    · exact hv.update _ _ _ _

theorem Tracks.step {s s' : Live} {op : TradeOp} {a : Except Err op.Ans}
    (hs : brokerSem.rel op s a s') (h : Tracks s.broker broker client brokerOrderId o) :
    ∃ o', Tracks s'.broker broker client brokerOrderId o' ∧ ∀ v, AnswerOf o v → AnswerOf o' v := by
  obtain ⟨_, moves, -, hb⟩ := live_cases hs
  rw [hb]
  refine Broker.moves_keep (b := s.broker.send op) (J := fun b => ∃ o',
    Tracks b broker client brokerOrderId o' ∧ ∀ v, AnswerOf o v → AnswerOf o' v) (fun b m => ?_)
    ⟨o, ⟨h.byClient, h.byId⟩, fun _ hv => hv⟩ moves
  rintro ⟨o', h', hv⟩
  obtain ⟨o'', h'', hv'⟩ := h'.move m
  exact ⟨o'', h'', fun v hav => hv' v (hv v hav)⟩

end Tracking

theorem told_byClient {b : Broker} {x : Oracle} {w w' : World} {broker client : String}
    {v : OrderStatusResult}
    (h : handle (b.tell x) (.getOrderByClientId broker client) w = (.ok (some v), w')) :
    ∃ o, b.byClient? broker client = some o ∧ o.view = v := by
  have hans := congrArg Prod.fst h
  simp only [handle, Broker.tell] at hans
  cases hx : x.ext (.getOrderByClientId broker client) with
  | error e =>
    rw [hx] at hans
    cases hans
  | ok r =>
    rw [hx] at hans
    exact Option.map_eq_some_iff.1 (Except.ok.inj hans)

theorem told_byId {b : Broker} {x : Oracle} {w w' : World} {broker id : String}
    {v : OrderStatusResult}
    (h : handle (b.tell x) (.getOrderStatus broker id) w = (.ok v, w')) :
    ∃ o, b.byId? broker id = some o ∧ o.view = v := by
  have hans := congrArg Prod.fst h
  simp only [handle, Broker.tell] at hans
  cases hx : x.ext (.getOrderStatus broker id) with
  | error e =>
    rw [hx] at hans
    cases hans
  | ok r =>
    rw [hx] at hans
    cases ho : b.byId? broker id with
    | none =>
      rw [ho] at hans
      cases hans
    | some o =>
      rw [ho] at hans
      cases hans
      exact ⟨o, rfl, rfl⟩

/-! ## The polls of one row -/

/-- The order row stands for the broker's order. -/
structure Points (broker client brokerOrderId : String) (r : RealOrder) : Prop where
  broker : r.brokerPluginId = broker
  client : r.clientOrderId = client
  id : ∀ id, r.brokerOrderId = some id → id ≠ "" → id = brokerOrderId

/-- The broker has answered a lookup of the order. -/
def AskedAbout (broker client brokerOrderId : String) (h : List (Event tradeSig))
    (v : OrderStatusResult) : Prop :=
  ⟨.getOrderByClientId broker client, .ok (some v)⟩ ∈ h ∨
    ⟨.getOrderStatus broker brokerOrderId, .ok v⟩ ∈ h

/-- **What the polls of a row know of the broker's order.** -/
structure Polling (broker client brokerOrderId id : String) (s : Live)
    (ts : List (Thread tradeSig Unit)) : Prop where
  order : ∃ o, Tracks s.broker broker client brokerOrderId o ∧
    ∀ t ∈ ts, ∀ v, AskedAbout broker client brokerOrderId t.hist v → AnswerOf o v
  row : ∀ r, s.world.order? id = some r → Points broker client brokerOrderId r
  seen : ∀ t ∈ ts, ∀ r, ReadOrder t.hist r → Points broker client brokerOrderId r

section Polls

variable {broker client brokerOrderId id : String} {s s' : Live}
  {xs ys ts : List (Thread tradeSig Unit)} {c : Unit} {h : List (Event tradeSig)} {op : TradeOp}
  {a : Except Err op.Ans} {p q : Trade Unit}

theorem Points.asked {r : RealOrder} {v : OrderStatusResult}
    (hr : Points broker client brokerOrderId r) (ht : Told h r v) :
    AskedAbout broker client brokerOrderId h v := by
  rcases ht with ht | ⟨i, hi, hne, ht⟩
  · rw [hr.broker, hr.client] at ht
    exact .inl ht
  · rw [hr.broker, hr.id i hi hne] at ht
    exact .inr ht

theorem Points.write {d : OrderPatch} {now : ℤ} {r : RealOrder}
    (hr : Points broker client brokerOrderId r) (hstored : (d.apply now r).isSome)
    (hd : d.brokerOrderId = none ∨ d.brokerOrderId = some (some brokerOrderId)) :
    Points broker client brokerOrderId (d.write now r) := by
  refine ⟨by simpa using hr.broker, by simpa using hr.client, fun i hi hne => ?_⟩
  rw [d.write_brokerOrderId now r hstored] at hi
  rcases hd with hd | hd
  · rw [hd, Option.getD_none] at hi
    exact hr.id i hi hne
  · rw [hd, Option.getD_some] at hi
    exact (Option.some.inj hi).symm

theorem Points.updated {now : ℤ} {w w' : World} {f : RealOrder → Bool} {d : OrderPatch}
    (hu : OrdersUpdated now w w' f d)
    (hd : d.brokerOrderId = none ∨ d.brokerOrderId = some (some brokerOrderId))
    (hw : ∀ r, w.order? id = some r → Points broker client brokerOrderId r) {r' : RealOrder}
    (hr' : w'.order? id = some r') : Points broker client brokerOrderId r' := by
  rw [order?_modify hu.orders] at hr'
  obtain ⟨r, hr, rfl⟩ := Option.map_eq_some_iff.1 hr'
  split
  · next hf => exact (hw r hr).write (hu.stored r (mem_of_order? hr) hf) hd
  · exact hw r hr

theorem Polling.brokerOrderId_eq (hJ : Polling broker client brokerOrderId id s ts)
    {t : Thread tradeSig Unit} (ht : t ∈ ts) {r : RealOrder} {v : OrderStatusResult}
    (hr : ReadOrder t.hist r) (htold : Told t.hist r v) : v.brokerOrderId = brokerOrderId := by
  obtain ⟨o, ho, hans⟩ := hJ.order
  have hid := List.find?_some ho.byId
  rw [(hans t ht v ((hJ.seen t ht r hr).asked htold)).id]
  exact (of_decide_eq_true hid).2

theorem Polling.row_step {o : Oracle} {w' : World} (hJ : Polling broker client brokerOrderId id s
      (xs ++ ⟨c, h, p⟩ :: ys)) (ho : handle o op s.world = (a, w')) (hop : PollWrite h op)
    {r' : RealOrder} (hr' : w'.order? id = some r') : Points broker client brokerOrderId r' := by
  have hthis : (⟨c, h, p⟩ : Thread tradeSig Unit) ∈ xs ++ ⟨c, h, p⟩ :: ys := by simp
  have same (hsame : w'.orders = s.world.orders) : Points broker client brokerOrderId r' := by
    rw [World.order?, hsame] at hr'
    exact hJ.row r' hr'
  cases hop with
  | look hq => exact same (handle_quiet hq ho).orders
  | touch hs hf hb =>
    rcases db_cases ho with ⟨rfl, -⟩ | ⟨row, hx, rfl⟩
    · exact same rfl
    · obtain ⟨-, -, -, hu, -⟩ := updateOrder_cases hx
      refine Points.updated hu ?_ hJ.row hr'
      rcases hb with hb | ⟨row, v, hread, -, htold, hb⟩
      · exact .inl hb
      · rw [hJ.brokerOrderId_eq hthis hread htold] at hb
        exact .inr hb
  | part hr hopen hs hid =>
    rcases db_cases ho with ⟨rfl, -⟩ | ⟨n, hx, rfl⟩
    · exact same rfl
    · exact Points.updated (updateOrders_cases hx).1 (.inl hid) hJ.row hr'
  | @close row v hr hopen ht hc =>
    rcases db_cases ho with ⟨rfl, -⟩ | ⟨n, hx, rfl⟩
    · exact same rfl
    · rcases updateOrderAndIntent_cases hx with ⟨-, rfl⟩ | ⟨-, -, hu, -⟩
      · exact same rfl
      · refine Points.updated hu (.inr ?_) hJ.row hr'
        rw [terminalPatch, hJ.brokerOrderId_eq hthis hr ht]

/-- **A step of a poll.** -/
theorem Polling.step (hop : PollWrite h op) (hread : ReadsOnly id op)
    (hs : brokerSem.rel op s a s')
    (hJ : Polling broker client brokerOrderId id s (xs ++ ⟨c, h, p⟩ :: ys)) :
    Polling broker client brokerOrderId id s' (xs ++ ⟨c, h ++ [⟨op, a⟩], q⟩ :: ys) := by
  have hthis : (⟨c, h, p⟩ : Thread tradeSig Unit) ∈ xs ++ ⟨c, h, p⟩ :: ys := by simp
  obtain ⟨x, moves, ho, -⟩ := live_cases hs
  obtain ⟨o, htrack, hans⟩ := hJ.order
  obtain ⟨o', htrack', hlater⟩ := htrack.step hs
  refine ⟨⟨o', htrack', ?_⟩, fun r' hr' => hJ.row_step ho hop hr', ?_⟩
  · refine forall_threads (fun t ht v hv => hlater v (hans t ht v hv)) fun v hv => hlater v ?_
    rcases hv with hv | hv
    · rcases List.mem_append.1 hv with hv | hv
      · exact hans _ hthis v (.inl hv)
      · cases List.mem_singleton.1 hv
        obtain ⟨o₀, ho₀, rfl⟩ := told_byClient ho
        rw [htrack.byClient] at ho₀
        cases ho₀
        exact answerOf_view o
    · rcases List.mem_append.1 hv with hv | hv
      · exact hans _ hthis v (.inr hv)
      · cases List.mem_singleton.1 hv
        obtain ⟨o₀, ho₀, rfl⟩ := told_byId ho
        rw [htrack.byId] at ho₀
        cases ho₀
        exact answerOf_view o
  · refine forall_threads hJ.seen fun r hr => ?_
    obtain ⟨i, hi⟩ := hr
    rcases List.mem_append.1 hi with hi | hi
    · exact hJ.seen _ hthis r ⟨i, hi⟩
    · cases List.mem_singleton.1 hi
      obtain rfl := hread i rfl
      obtain ⟨hw, hans⟩ := query_cases ho
      exact hJ.row r (hans _ rfl).symm

theorem Polling.start (hJ : Polling broker client brokerOrderId id s ts) :
    Polling broker client brokerOrderId id s (ts ++ [⟨c, [], p⟩]) := by
  obtain ⟨o, htrack, hans⟩ := hJ.order
  refine ⟨⟨o, htrack, fun t ht v hv => ?_⟩, hJ.row, fun t ht r hr => ?_⟩
  · rcases List.mem_append.1 ht with ht | ht
    · exact hans t ht v hv
    · rw [List.mem_singleton.1 ht] at hv
      rcases hv with hv | hv <;> cases hv
  · rcases List.mem_append.1 ht with ht | ht
    · exact hJ.seen t ht r hr
    · rw [List.mem_singleton.1 ht] at hr
      obtain ⟨_, hr⟩ := hr
      cases hr

end Polls

/-! ## Every run -/

/-- An open order row, and the order that the broker has for it. -/
structure OpenOrder (s : Live) (row : RealOrder) (o : HeldOrder) : Prop where
  keyed : Store.Keyed RealOrder.id s.world.orders
  stored : row ∈ s.world.orders
  unfinished : ¬ row.status.terminal
  tracks : Tracks s.broker row.brokerPluginId row.clientOrderId o.brokerOrderId o
  id : ∀ id, row.brokerOrderId = some id → id ≠ "" → id = o.brokerOrderId

/-- No fill came after the answer. -/
def NoFillSince (b : OrderStatusResult) (o : HeldOrder) : Prop :=
  ∀ q, b.filledQty = .fin q → ¬ q < o.filledQty

/-- The raw statuses that close a row, and are not final at the broker. -/
def Early (raw : String) : Prop := raw = "pending_cancel" ∨ raw = "done_for_day"

theorem early_of_closes {raw : String} (ht : (normalizeBrokerStatus raw).terminal)
    (hf : ¬ finalAtBroker raw) : Early raw := by
  unfold normalizeBrokerStatus at ht
  split at ht <;> first
    | exact absurd ht Bool.false_ne_true
    | exact .inl rfl
    | exact .inr rfl
    | exact absurd rfl hf

theorem AnswerOf.fill_iff {o : HeldOrder} {b : OrderStatusResult} {q : ℚ} (h : AnswerOf o b)
    (hq : b.filledQty = .fin q) (ht : (normalizeBrokerStatus b.status).terminal) :
    q = o.filledQty ↔ ¬ Early b.status ∨ NoFillSince b o := by
  constructor
  · rintro rfl
    refine .inr fun q' hq' => ?_
    rw [hq] at hq'
    cases hq'
    exact lt_irrefl _
  · rintro (hlate | hno)
    · have hfinal : finalAtBroker b.status := by
        by_contra hf
        exact hlate (early_of_closes ht hf)
      have hqo := (h.final hfinal).2
      rw [hq] at hqo
      exact Number.fin.inj hqo
    · obtain ⟨q', hq', hle⟩ := h.qty
      rw [hq] at hq'
      cases hq'
      exact le_antisymm hle (not_lt.1 (hno q hq))

theorem polling_run {s : Live} {row : RealOrder} {o : HeldOrder} {P : Pool tradeSig Unit Live}
    (hs : OpenOrder s row o)
    (hr : Pool.Reaches brokerSem (polls row.id) Pool.free ⟨s, []⟩ P) :
    Polling row.brokerPluginId row.clientOrderId o.brokerOrderId row.id P.world P.threads := by
  refine Pool.reaches_threads
    (J := Polling row.brokerPluginId row.clientOrderId o.brokerOrderId row.id)
    (polls_spec row.id) (fun v ts c hJ => hJ.start) ?_
    ⟨⟨o, hs.tracks, by simp⟩, fun r hr => ?_, by simp⟩ hr
  · rintro v v' xs ys c h op k a hJ ⟨hop, hread⟩ - hm
    exact hJ.step hop hread hm
  · rw [order?_of_mem hs.keyed hs.stored] at hr
    cases hr
    exact ⟨rfl, rfl, hs.id⟩

theorem world_run {C : Type} {body : C → Trade Unit} {s : Live} {P : Pool tradeSig C Live}
    (hr : Pool.Reaches brokerSem body Pool.free ⟨s, []⟩ P) :
    Pool.Reaches tradeSem body Pool.free ⟨s.world, []⟩ ⟨P.world.world, P.threads⟩ := by
  refine Pool.Reaches.project (fun s : Live => s.world) (fun op s a s' hs => ?_) hr
  obtain ⟨x, moves, ho, -⟩ := live_cases hs
  exact ⟨_, trivial, ho⟩

/-- **When a row has the broker's final fill.** In every run of polls of an open order, along any
history of the broker's order: once the row is terminal, one answer has closed it, and the row's fill
is the broker's exactly if that answer was neither `pending_cancel` nor `done_for_day`, or the broker
has filled nothing after it. -/
theorem final_fill_iff {s : Live} {row : RealOrder} {o₀ : HeldOrder} {P : Pool tradeSig Unit Live}
    (hs : OpenOrder s row o₀) (hr : Pool.Reaches brokerSem (polls row.id) Pool.free ⟨s, []⟩ P)
    {r : RealOrder} (hrow : P.world.world.order? row.id = some r) (hterminal : r.status.terminal)
    {o : HeldOrder} (ho : P.world.broker.byId? row.brokerPluginId o₀.brokerOrderId = some o) :
    ∃ t ∈ P.threads, ∃ seen b n, closings P.threads = [closingEvent seen b n] ∧
      closingEvent seen b n ∈ t.hist ∧ Told t.hist seen b ∧
      (r.filledQty = o.filledQty ↔ ¬ Early b.status ∨ NoFillSince b o) := by
  have hpolling := polling_run hs hr
  rcases (polled_run hs.keyed hs.stored hs.unfinished (world_run hr)).outcome with
    ⟨-, -, r', hr', hopen⟩ | ⟨t, ht, seen, b, n, hone, hmem, hread, htold, hc⟩
  · rw [hrow] at hr'
    cases hr'
    exact absurd hterminal hopen
  · obtain ⟨r', hr', hst, -, hq, -⟩ := hc.order
    rw [hrow] at hr'
    cases hr'
    obtain ⟨o', htrack, hans⟩ := hpolling.order
    obtain rfl : o' = o := Option.some.inj (htrack.byId.symm.trans ho)
    have hanswer := hans t ht b ((hpolling.seen t ht seen hread).asked htold)
    exact ⟨t, ht, seen, b, n, hone, hmem, htold, hanswer.fill_iff hq (hst ▸ hterminal)⟩

/-! ## A fill after `pending_cancel` -/

def sampleHeld : HeldOrder :=
  { placed :=
      { intentId := "intent-1", brokerPluginId := "alpaca"
        order := { symbol := "SPY", qty := .fin 5, side := .buy, type := "market"
                   clientOrderId := "nt-intent-1-1", limitPrice := none } }
    brokerOrderId := "b1", status := "partially_filled", filledQty := 2, filledAvgPrice := some 100
    raw := .null }

def halfFilled : Live := ⟨pollWorld, { held := [sampleHeld] }⟩

theorem openOrder_halfFilled : OpenOrder halfFilled sampleOrder sampleHeld where
  keyed := Store.keyed_nil.concat (by simp)
  stored := by simp [halfFilled, pollWorld]
  unfinished := by decide
  tracks := ⟨rfl, rfl⟩
  id := fun _ hi _ => (Option.some.inj hi).symm

/-- The order reaches the status and the fill. -/
def reaches (status : String) (qty : ℚ) : BrokerMove := .update 0 status qty (some 100) .null

def lateClosing : Option (Pool tradeSig Unit Live) :=
  let o := brokerSays "new" 0
  Pool.replay Live.handle (polls "order-1") Pool.unchecked
    [.start (), .await 0 (o, [reaches "pending_cancel" 2, reaches "filled" 5]), .await 0 (o, []),
      .await 0 (o, [])] ⟨halfFilled, []⟩

/-- The order is polled while it is being canceled, and filled after that. -/
def earlyClosing : Option (Pool tradeSig Unit Live) :=
  let o := brokerSays "new" 0
  Pool.replay Live.handle (polls "order-1") Pool.unchecked
    [.start (), .await 0 (o, [reaches "pending_cancel" 2]), .await 0 (o, []),
      .await 0 (o, [reaches "filled" 5])] ⟨halfFilled, []⟩

/-- The row and the order at the broker. -/
def rowAndHeld (P : Pool tradeSig Unit Live) : Option (RealOrder × HeldOrder) :=
  (P.world.world.order? "order-1").bind fun r =>
    (P.world.broker.byId? "alpaca" "b1").map fun o => (r, o)

theorem rowAndHeld_eq_some {P : Pool tradeSig Unit Live} {r : RealOrder} {o : HeldOrder}
    (h : rowAndHeld P = some (r, o)) : P.world.world.order? "order-1" = some r ∧
      P.world.broker.byId? "alpaca" "b1" = some o := by
  obtain ⟨r', hr, ho⟩ := Option.bind_eq_some_iff.1 h
  obtain ⟨o', ho, heq⟩ := Option.map_eq_some_iff.1 ho
  cases heq
  exact ⟨hr, ho⟩

def statusAndFill (x : RealOrder × HeldOrder) : (OrderStatus × ℚ) × String × ℚ :=
  ((x.1.status, x.1.filledQty), (x.2.status, x.2.filledQty))

theorem lateClosing_eq : (lateClosing.bind rowAndHeld).map statusAndFill =
    some ((.filled, 5), ("filled", 5)) := by
  decide

theorem earlyClosing_eq : (earlyClosing.bind rowAndHeld).map statusAndFill =
    some ((.canceled, 2), ("filled", 5)) := by
  decide

/-- The row that is closed late has the broker's fill. -/
theorem final_fill_lateClosing : ∃ P r o, lateClosing = some P ∧ rowAndHeld P = some (r, o) ∧
    ∃ t ∈ P.threads, ∃ seen b n, closings P.threads = [closingEvent seen b n] ∧
      closingEvent seen b n ∈ t.hist ∧ Told t.hist seen b ∧
      (r.filledQty = o.filledQty ↔ ¬ Early b.status ∨ NoFillSince b o) := by
  obtain ⟨⟨r, o⟩, hro, heq⟩ := Option.map_eq_some_iff.1 lateClosing_eq
  obtain ⟨P, hP, hro⟩ := Option.bind_eq_some_iff.1 hro
  obtain ⟨hr, ho⟩ := rowAndHeld_eq_some hro
  simp only [statusAndFill, Prod.mk.injEq] at heq
  refine ⟨P, r, o, hP, hro, final_fill_iff openOrder_halfFilled
    (Pool.reaches_of_replay (fun _ _ _ _ _ => trivial) hP) hr ?_ ho⟩
  rw [heq.1.1]
  rfl

/-- **A fill after `pending_cancel` is lost**: the row is closed with two filled, the broker fills
five. -/
theorem lost_fill : ¬ ∀ (s : Live) (row : RealOrder) (o₀ : HeldOrder) (P : Pool tradeSig Unit Live)
    (r : RealOrder) (o : HeldOrder), OpenOrder s row o₀ →
    Pool.Reaches brokerSem (polls row.id) Pool.free ⟨s, []⟩ P →
    P.world.world.order? row.id = some r → r.status.terminal →
    P.world.broker.byId? row.brokerPluginId o₀.brokerOrderId = some o → finalAtBroker o.status →
    r.filledQty = o.filledQty := by
  intro hall
  obtain ⟨⟨r, o⟩, hro, heq⟩ := Option.map_eq_some_iff.1 earlyClosing_eq
  obtain ⟨P, hP, hro⟩ := Option.bind_eq_some_iff.1 hro
  obtain ⟨hr, ho⟩ := rowAndHeld_eq_some hro
  simp only [statusAndFill, Prod.mk.injEq] at heq
  obtain ⟨⟨hst, hq⟩, hfinal, hq'⟩ := heq
  have hsame := hall halfFilled sampleOrder sampleHeld P r o openOrder_halfFilled
    (Pool.reaches_of_replay (fun _ _ _ _ _ => trivial) hP) hr (by rw [hst]; rfl) ho
    (by rw [hfinal]; decide)
  rw [hq, hq'] at hsame
  exact absurd hsame (by norm_num)

end NeoTrader

import NeoTrader.Trade.SingleClosing

/-!
# The recorded fill of an order

Several reconciliations of one order row may run side by side: each of them reads the row, asks the
broker, and writes what it was told, where the row still has the status that was read. A partial
fill leaves the status as it is.

* `steady`: the broker's cumulative quantity never decreases; `orderly`: no write of a smaller
  quantity after one of a larger;
* **`fill_kept_iff`**: the recorded quantity is kept by a step exactly where the step is orderly.
-/

namespace NeoTrader.PartialFill

open Js Await Prog Pool

/-! ## What a call was told, and what it writes -/

/-- The broker's answer to a lookup. -/
def answerOf : Event tradeSig → Option OrderStatusResult
  | ⟨.getOrderStatus _ _, .ok b⟩ => some b
  | ⟨.getOrderByClientId _ _, .ok b⟩ => b
  | _ => none

/-- What the broker has answered the call. -/
def answered (h : List (Event tradeSig)) : Option OrderStatusResult := h.findSome? answerOf

/-- The quantity that the call was told. -/
def toldQty (h : List (Event tradeSig)) : Option ℚ := (answered h).bind fun b => column b.filledQty

/-- The event is a write of a fill that has taken effect on a row. -/
def writesFill : Event tradeSig → Bool
  | ⟨.orderUpdateMany _ _ _, .ok n⟩ => affected n
  | ⟨.orderTransaction _ _ _ _ _, .ok n⟩ => affected n
  | _ => false

/-- The call has written its fill. -/
def hasWritten (t : Thread tradeSig String) : Bool := t.hist.any writesFill

/-! ## The runs -/

/-- Reconciliations of order rows, side by side: each call is the row's id. -/
abbrev Calls : Type := Pool tradeSig String World

/-- **The broker's cumulative quantity never decreases**: each answer about a row is at least every
earlier one, and what was recorded at first. -/
def steady (first : World) : Guard tradeSig String World := fun _ ts t e =>
  ∀ b q, answerOf e = some b → column b.filledQty = some q →
    (∀ r, first.order? t.call = some r → r.filledQty ≤ q) ∧
      ∀ u ∈ ts, u.call = t.call → ∀ q', toldQty u.hist = some q' → q' ≤ q

/-- **No stale write**: where a fill is written, no other call that was told more has written the
row before. -/
def orderly : Guard tradeSig String World := fun _ ts t e =>
  writesFill e = true → ∀ u ∈ ts, u.call = t.call → hasWritten u = true →
    ∀ q q', toldQty t.hist = some q → toldQty u.hist = some q' → q' ≤ q

/-- Both. -/
def steadyAndOrderly (first : World) : Guard tradeSig String World :=
  fun w ts t e => steady first w ts t e ∧ orderly w ts t e

/-- **The recorded quantity is kept**: no row's filled quantity decreases. -/
def FillKept (w w' : World) : Prop :=
  ∀ id r r', w.order? id = some r → w'.order? id = some r' → r.filledQty ≤ r'.filledQty

/-! ## What a reconciliation writes -/

/-- **What a reconciliation of a row awaits**, after what it has been told. -/
inductive FillOp (id : String) (h : List (Event tradeSig)) : TradeOp → Prop
  /-- Reads, and the broker's lookups. -/
  | look {op : TradeOp} (quiet : op.quiet) : FillOp id h op
  /-- No news. -/
  | touch {i : String} {p : OrderPatch} (noFill : p.filledQty = none) :
      FillOp id h (.orderUpdate i p)
  /-- A partial fill. -/
  | part {row : RealOrder} {p : OrderPatch} {b : OrderStatusResult}
      (read : ⟨.orderFindUnique id, .ok (some row)⟩ ∈ h) (told : answered h = some b)
      (qty : p.filledQty = some b.filledQty) : FillOp id h (.orderUpdateMany row.id row.status p)
  /-- A terminal transition. -/
  | close {row : RealOrder} {p : OrderPatch} {b : OrderStatusResult} {intentId : String}
      {ip : IntentPatch} (read : ⟨.orderFindUnique id, .ok (some row)⟩ ∈ h)
      (told : answered h = some b) (qty : p.filledQty = some b.filledQty) :
      FillOp id h (.orderTransaction row.id row.status p intentId ip)

section Ops

variable {id : String} {h : List (Event tradeSig)} {row : RealOrder} {b : OrderStatusResult}

theorem touch_ops (i : String) (backfill : Option String) :
    (touchLastReconciledAt i backfill).Wp (histSem tradeSig) (FillOp id) (fun _ _ => True) h :=
  wp_attempt_perform_bind.2 ⟨.touch rfl, fun _ _ _ => trivial⟩

theorem terminalTransaction_ops (hread : ⟨.orderFindUnique id, .ok (some row)⟩ ∈ h)
    (htold : answered h = some b) (status : OrderStatus) :
    (terminalTransaction row status b).Wp (histSem tradeSig) (FillOp id) (fun _ _ => True) h := by
  refine wp_perform_bind.2 ⟨.close hread htold rfl, fun r _ _ => ?_⟩
  cases r <;> trivial

theorem applyBrokerOrder_ops (hread : ⟨.orderFindUnique id, .ok (some row)⟩ ∈ h)
    (htold : answered h = some b) :
    (applyBrokerOrder row b).Wp (histSem tradeSig) (FillOp id) (fun _ _ => True) h := by
  unfold applyBrokerOrder
  refine wp_ite (fun _ => touch_ops _ _) fun _ => ?_
  refine wp_ite (fun _ => terminalTransaction_ops hread htold _) fun _ => ?_
  refine wp_ite (fun _ => ?_) fun _ => ?_
  · refine wp_perform_bind.2 ⟨.part hread htold rfl, fun r _ _ => ?_⟩
    cases r <;> trivial
  · exact wp_ite (fun _ => terminalTransaction_ops hread htold _) fun _ => touch_ops _ _

/-- **A lookup answers the call**, which had no answer. -/
theorem lookupBrokerOrder_ops (hread : ⟨.orderFindUnique id, .ok (some row)⟩ ∈ h)
    (hnone : answered h = none) :
    (lookupBrokerOrder row).Wp (histSem tradeSig) (FillOp id)
      (onOk fun a h' => ⟨.orderFindUnique id, .ok (some row)⟩ ∈ h' ∧
        ∀ b, a = some b → answered h' = some b) h := by
  have hanswer (e : Event tradeSig) : answered (h ++ [e]) = answerOf e := by
    rw [answered, List.findSome?_append, show h.findSome? answerOf = none from hnone]
    cases hanswer : answerOf e <;> simp [hanswer]
  unfold lookupBrokerOrder
  split
  · refine wp_perform_bind.2 ⟨FillOp.look rfl, ?_⟩
    rintro (e | b) h' rfl
    · trivial
    · exact ⟨List.mem_append_left _ hread, fun b' hb => (hanswer _).trans hb⟩
  · refine wp_await.2 ⟨FillOp.look rfl, ?_⟩
    rintro (e | a) h' rfl
    · trivial
    · exact ⟨List.mem_append_left _ hread, fun b' hb => (hanswer _).trans hb⟩

end Ops

theorem reconcileOrder_ops (id : String) :
    (reconcileOrder id).Wp (histSem tradeSig) (FillOp id) (fun _ _ => True) [] := by
  refine wp_perform_bind.2 ⟨.look rfl, fun found h' hh => ?_⟩
  rcases found with e | _ | row
  · trivial
  · trivial
  have hread : ⟨.orderFindUnique id, .ok (some row)⟩ ∈ h' := by
    rw [hh]
    exact List.mem_singleton.2 rfl
  have hnone : answered h' = none := by
    rw [hh]
    rfl
  dsimp only [bindPost]
  refine wp_ite (fun _ => trivial) fun _ => ?_
  refine wp_attempt_bind.2 (wp_post (fun r h'' hp => ?_) (lookupBrokerOrder_ops hread hnone))
  rcases r with e | _ | b
  · exact touch_ops _ _
  · exact touch_ops _ _
  · exact applyBrokerOrder_ops hp.1 (hp.2 b rfl)

/-! ## What one operation records -/

/-- The filled quantity that is recorded for an order. -/
def filledOf (w : World) (id : String) : Option ℚ := (w.order? id).map RealOrder.filledQty

/-- **An operation of a call** leaves the quantities alone, or records what the call was told. -/
inductive Effect (id : String) (h : List (Event tradeSig)) (e : Event tradeSig) (w w' : World) :
    Prop
  | frame (idle : writesFill e = false) (same : filledOf w' = filledOf w)
  | fill (q : ℚ) (writes : writesFill e = true) (told : toldQty h = some q)
      (here : (filledOf w id).isSome) (now : filledOf w' id = some q)
      (others : ∀ i ≠ id, filledOf w' i = filledOf w i)

section Effect

variable {w w' : World} {now : ℤ} {id : String} {st : OrderStatus} {p : OrderPatch}

theorem filledOf_eq (h : w'.orders = w.orders) : filledOf w' = filledOf w := by
  funext i
  rw [filledOf, filledOf, World.order?, World.order?, h]

theorem filledOf_updated {f : RealOrder → Bool} (hu : OrdersUpdated now w w' f p)
    (hnone : p.filledQty = none) : filledOf w' = filledOf w := by
  funext i
  rw [filledOf, filledOf, order?_modify hu.orders, Option.map_map]
  refine Option.map_congr fun r hr => ?_
  by_cases hf : f r = true
  · have hstored := p.write_filledQty now r (hu.stored r (mem_of_order? hr) hf)
    rw [OrderPatch.storedQty, hnone] at hstored
    simp only [Function.comp_apply, if_pos hf]
    exact (Option.some.inj hstored).symm
  · simp only [Function.comp_apply, if_neg hf]

theorem filledOf_written {b : OrderStatusResult} {h : List (Event tradeSig)} {e : Event tradeSig}
    (hk : Store.Keyed RealOrder.id w.orders)
    (hu : OrdersUpdated now w w' (fun r => r.id = id ∧ r.status = st) p)
    (hex : ∃ r ∈ w.orders, r.id = id ∧ r.status = st) (hqty : p.filledQty = some b.filledQty)
    (htold : answered h = some b) (hw : writesFill e = true) : Effect id h e w w' := by
  obtain ⟨r, hr, hid, hstatus⟩ := hex
  have hrow : w.order? id = some r := hid ▸ order?_of_mem hk hr
  have hstored := p.write_filledQty now r (hu.stored r hr (decide_eq_true ⟨hid, hstatus⟩))
  rw [OrderPatch.storedQty, hqty] at hstored
  refine .fill (p.write now r).filledQty hw ?_ ?_ ?_ ?_
  · rw [toldQty, htold]
    exact hstored
  · rw [filledOf, hrow]
    rfl
  · rw [filledOf, order?_modify hu.orders, hrow, Option.map_some, Option.map_some,
      if_pos (decide_eq_true ⟨hid, hstatus⟩)]
  · intro i hi
    rw [filledOf, filledOf, order?_modify hu.orders, Option.map_map]
    refine Option.map_congr fun r' hr' => ?_
    have hne : ¬ (decide (r'.id = id ∧ r'.status = st) = true) := by
      rw [decide_eq_true_eq, order?_id hr']
      exact fun h => hi h.1
    simp only [Function.comp_apply, if_neg hne]

theorem fillOp_effect {o : Oracle} {h : List (Event tradeSig)} {op : TradeOp}
    {r : Except Err op.Ans} (hk : Store.Keyed RealOrder.id w.orders)
    (hread : ∀ row, (⟨.orderFindUnique id, .ok (some row)⟩ : Event tradeSig) ∈ h → row.id = id)
    (hop : FillOp id h op) (hh : handle o op w = (r, w')) : Effect id h ⟨op, r⟩ w w' := by
  cases hop with
  | look hq =>
    refine .frame ?_ (filledOf_eq (handle_quiet hq hh).orders)
    cases op with
    | orderUpdateMany | orderTransaction => cases hq
    | _ => rfl
  | touch hnone =>
    rcases db_cases hh with ⟨rfl, e, rfl⟩ | ⟨row, hx, rfl⟩
    · exact .frame rfl rfl
    · obtain ⟨_, -, -, hu, -⟩ := updateOrder_cases hx
      exact .frame rfl (filledOf_updated hu hnone)
  | @part row p b hfound htold hqty =>
    rcases db_cases hh with ⟨rfl, e, rfl⟩ | ⟨n, hx, rfl⟩
    · exact .frame rfl rfl
    · obtain ⟨hu, -, rfl⟩ := updateOrders_cases hx
      by_cases hzero : w.orders.countP (fun r => r.id = row.id ∧ r.status = row.status) = 0
      · have hnot : ∀ r ∈ w.orders, ¬ decide (r.id = row.id ∧ r.status = row.status) = true :=
          List.countP_eq_zero.1 hzero
        refine .frame ?_ (filledOf_eq ?_)
        · rw [hzero]
          rfl
        · rw [hu.orders, Store.modify_of_not hnot]
      · have hex : ∃ r ∈ w.orders, r.id = row.id ∧ r.status = row.status := by
          obtain ⟨r, hr, hf⟩ := List.countP_pos_iff.1 (Nat.pos_of_ne_zero hzero)
          exact ⟨r, hr, of_decide_eq_true hf⟩
        have hw : affected (w.orders.countP fun r => r.id = row.id ∧ r.status = row.status) = true :=
          decide_eq_true hzero
        rw [hread row hfound] at hu hex
        exact filledOf_written hk hu hex hqty htold hw
  | @close row p b intentId ip hfound htold hqty =>
    rcases db_cases hh with ⟨rfl, e, rfl⟩ | ⟨n, hx, rfl⟩
    · exact .frame rfl rfl
    · rcases updateOrderAndIntent_cases hx with ⟨rfl, rfl⟩ | ⟨hn, hex, hu, -, -⟩
      · exact .frame rfl rfl
      · have hw : affected n = true := by simpa [affected] using hn
        rw [hread row hfound] at hu hex
        exact filledOf_written hk hu hex hqty htold hw

end Effect

/-! ## What is recorded was told -/

section Told

variable {h : List (Event tradeSig)} {e : Event tradeSig} {q : ℚ}

theorem toldQty_snoc (hq : toldQty h = some q) : toldQty (h ++ [e]) = some q := by
  obtain ⟨b, hb, hcol⟩ := Option.bind_eq_some_iff.1 hq
  rw [toldQty, answered, List.findSome?_append, show h.findSome? answerOf = some b from hb]
  exact hcol

theorem toldQty_snoc_cases (hq : toldQty (h ++ [e]) = some q) :
    toldQty h = some q ∨ ∃ b, answerOf e = some b ∧ column b.filledQty = some q := by
  rw [toldQty, answered, List.findSome?_append] at hq
  cases hb : h.findSome? answerOf with
  | some b =>
    rw [hb] at hq
    left
    rw [toldQty, answered, hb]
    exact hq
  | none =>
    rw [hb] at hq
    right
    obtain ⟨b, he, hcol⟩ := Option.bind_eq_some_iff.1 hq
    refine ⟨b, ?_, hcol⟩
    rw [Option.none_or, List.findSome?_singleton] at he
    exact he

theorem hasWritten_snoc {c : String} {p : Trade Unit} :
    hasWritten ⟨c, h ++ [e], p⟩ = true ↔ h.any writesFill = true ∨ writesFill e = true := by
  simp only [hasWritten, List.any_append, List.any_cons, List.any_nil, Bool.or_false,
    Bool.or_eq_true]

end Told

/-- **What is recorded** was recorded at first, or told to a call that has written it; what was told
is at least what was recorded at first, and at most what is recorded where it was written. -/
structure Recorded (first w : World) (ts : List (Thread tradeSig String)) : Prop where
  keyed : Store.Keyed RealOrder.id w.orders
  read : ∀ t ∈ ts, ∀ i row, (⟨.orderFindUnique i, .ok (some row)⟩ : Event tradeSig) ∈ t.hist →
    row.id = i
  told : ∀ t ∈ ts, ∀ q q₀, toldQty t.hist = some q → filledOf first t.call = some q₀ → q₀ ≤ q
  wrote : ∀ t ∈ ts, hasWritten t = true → (toldQty t.hist).isSome
  source : ∀ i q, filledOf w i = some q → (∃ q₀, filledOf first i = some q₀) ∧
    (filledOf first i = some q ∨
      ∃ t ∈ ts, t.call = i ∧ hasWritten t = true ∧ toldQty t.hist = some q)
  kept : ∀ t ∈ ts, hasWritten t = true → ∀ q q', toldQty t.hist = some q →
    filledOf w t.call = some q' → q ≤ q'

section Recorded

variable {first w w' : World} {ts xs ys : List (Thread tradeSig String)} {c : String}
  {h : List (Event tradeSig)} {op : TradeOp} {r : Except Err op.Ans} {p p' : Trade Unit}
  {o : Oracle}

theorem Recorded.init (hkey : Store.Keyed RealOrder.id first.orders) : Recorded first first [] :=
  ⟨hkey, by simp, by simp, by simp, fun _ q hq => ⟨⟨q, hq⟩, .inl hq⟩, by simp⟩

theorem Recorded.start (hR : Recorded first w ts) : Recorded first w (ts ++ [⟨c, [], p⟩]) := by
  have old {Φ : Thread tradeSig String → Prop} (hold : ∀ t ∈ ts, Φ t) (hnew : Φ ⟨c, [], p⟩) :
      ∀ t ∈ ts ++ [⟨c, [], p⟩], Φ t := by
    intro t ht
    rcases List.mem_append.1 ht with ht | ht
    · exact hold t ht
    · rw [List.mem_singleton.1 ht]
      exact hnew
  refine ⟨hR.keyed, old hR.read (by simp), old hR.told ?_, old hR.wrote ?_, fun i q hq => ?_,
    old hR.kept ?_⟩
  · intro q q₀ hq
    cases hq
  · intro hw
    cases hw
  · refine ⟨(hR.source i q hq).1, (hR.source i q hq).2.imp id ?_⟩
    rintro ⟨t, ht, hrest⟩
    exact ⟨t, List.mem_append_left _ ht, hrest⟩
  · intro hw
    cases hw

theorem Recorded.reads (hR : Recorded first w ts) {t : Thread tradeSig String} (ht : t ∈ ts)
    (row : RealOrder)
    (hrow : (⟨.orderFindUnique t.call, .ok (some row)⟩ : Event tradeSig) ∈ t.hist) :
    row.id = t.call := hR.read t ht t.call row hrow

/-- **What a step of a call records.** -/
theorem Recorded.effect (hR : Recorded first w (xs ++ ⟨c, h, p⟩ :: ys)) (hop : FillOp c h op)
    (ho : handle o op w = (r, w')) : Effect c h ⟨op, r⟩ w w' :=
  fillOp_effect hR.keyed (hR.reads (t := ⟨c, h, p⟩) (by simp)) hop ho

theorem Recorded.source_step (hR : Recorded first w (xs ++ ⟨c, h, p⟩ :: ys)) {e : Event tradeSig}
    (heff : Effect c h e w w') {i : String} {q : ℚ} (hq : filledOf w' i = some q) :
    (∃ q₀, filledOf first i = some q₀) ∧ (filledOf first i = some q ∨
      ∃ t ∈ xs ++ ⟨c, h ++ [e], p'⟩ :: ys, t.call = i ∧ hasWritten t = true ∧
        toldQty t.hist = some q) := by
  have old (hq : filledOf w i = some q) : (∃ q₀, filledOf first i = some q₀) ∧
      (filledOf first i = some q ∨ ∃ t ∈ xs ++ ⟨c, h ++ [e], p'⟩ :: ys, t.call = i ∧
        hasWritten t = true ∧ toldQty t.hist = some q) := by
    refine ⟨(hR.source i q hq).1, (hR.source i q hq).2.imp id ?_⟩
    rintro ⟨t, ht, hcall, hwritten, htold⟩
    simp only [List.mem_append, List.mem_cons] at ht
    rcases ht with ht | rfl | ht
    · exact ⟨t, by simp [ht], hcall, hwritten, htold⟩
    · exact ⟨⟨c, h ++ [e], p'⟩, by simp, hcall, hasWritten_snoc.2 (.inl hwritten),
        toldQty_snoc htold⟩
    · exact ⟨t, by simp [ht], hcall, hwritten, htold⟩
  cases heff with
  | frame _ hsame =>
    rw [hsame] at hq
    exact old hq
  | fill q' hwrites htold hhere hnow hothers =>
    by_cases hi : i = c
    · subst hi
      obtain ⟨q₁, hq₁⟩ := Option.isSome_iff_exists.1 hhere
      obtain rfl : q' = q := Option.some.inj (hnow.symm.trans hq)
      exact ⟨(hR.source i q₁ hq₁).1, .inr ⟨⟨i, h ++ [e], p'⟩, by simp, rfl,
        hasWritten_snoc.2 (.inr hwrites), toldQty_snoc htold⟩⟩
    · rw [hothers i hi] at hq
      exact old hq

/-- **What is recorded does not get less** by an orderly step. -/
theorem Recorded.fillKept (hR : Recorded first w (xs ++ ⟨c, h, p⟩ :: ys)) {e : Event tradeSig}
    (heff : Effect c h e w w') (hord : orderly w (xs ++ ys) ⟨c, h, p⟩ e) {i : String} {q q' : ℚ}
    (hq : filledOf w i = some q) (hq' : filledOf w' i = some q') : q ≤ q' := by
  cases heff with
  | frame _ hsame =>
    rw [hsame, hq] at hq'
    exact (Option.some.inj hq').le
  | fill q₁ hwrites htold hhere hnow hothers =>
    by_cases hi : i = c
    · subst hi
      obtain rfl : q₁ = q' := Option.some.inj (hnow.symm.trans hq')
      rcases (hR.source i q hq).2 with hfirst | ⟨t, ht, hcall, hwritten, htold'⟩
      · exact hR.told ⟨i, h, p⟩ (by simp) q₁ q htold hfirst
      · simp only [List.mem_append, List.mem_cons] at ht
        rcases ht with ht | rfl | ht
        · exact hord hwrites t (by simp [ht]) hcall hwritten q₁ q htold htold'
        · exact (Option.some.inj (htold'.symm.trans htold)).le
        · exact hord hwrites t (by simp [ht]) hcall hwritten q₁ q htold htold'
    · rw [hothers i hi, hq] at hq'
      exact (Option.some.inj hq').le

theorem Recorded.kept_step (hR : Recorded first w (xs ++ ⟨c, h, p⟩ :: ys)) {e : Event tradeSig}
    (heff : Effect c h e w w') (hord : orderly w (xs ++ ys) ⟨c, h, p⟩ e)
    {t : Thread tradeSig String} (ht : t ∈ xs ++ ⟨c, h, p⟩ :: ys) (hw : hasWritten t = true)
    {q q' : ℚ} (hq : toldQty t.hist = some q) (hq' : filledOf w' t.call = some q') : q ≤ q' := by
  have hbefore : ∃ q₀, filledOf w t.call = some q₀ := by
    cases heff with
    | frame _ hsame => exact ⟨q', hsame ▸ hq'⟩
    | fill _ _ _ hhere _ hothers =>
      by_cases hi : t.call = c
      · rw [hi]
        exact Option.isSome_iff_exists.1 hhere
      · exact ⟨q', hothers _ hi ▸ hq'⟩
  obtain ⟨q₀, hq₀⟩ := hbefore
  exact (hR.kept t ht hw q q₀ hq hq₀).trans (hR.fillKept heff hord hq₀ hq')

/-- **A step of a call** under both guards. -/
theorem Recorded.step (hR : Recorded first w (xs ++ ⟨c, h, p⟩ :: ys)) (hop : FillOp c h op)
    (hg : steadyAndOrderly first w (xs ++ ys) ⟨c, h, p⟩ ⟨op, r⟩) (ho : handle o op w = (r, w')) :
    Recorded first w' (xs ++ ⟨c, h ++ [⟨op, r⟩], p'⟩ :: ys) := by
  have hthis : (⟨c, h, p⟩ : Thread tradeSig String) ∈ xs ++ ⟨c, h, p⟩ :: ys := by simp
  have heff := hR.effect hop ho
  refine ⟨(handle_tables ho).keyed hR.keyed, forall_threads hR.read fun i row hrow => ?_,
    forall_threads hR.told fun q q₀ hq hq₀ => ?_, forall_threads hR.wrote fun hw => ?_,
    fun i q hq => hR.source_step heff hq, ?_⟩
  · rcases List.mem_append.1 hrow with hrow | hrow
    · exact hR.read _ hthis i row hrow
    · cases List.mem_singleton.1 hrow
      exact order?_id ((query_cases ho).2 _ rfl).symm
  · rcases toldQty_snoc_cases hq with hq | ⟨b, hb, hcol⟩
    · exact hR.told _ hthis q q₀ hq hq₀
    · obtain ⟨row, hrow, rfl⟩ := Option.map_eq_some_iff.1 hq₀
      exact (hg.1 b q hb hcol).1 row hrow
  · have htold : ∃ q, toldQty h = some q := by
      rcases hasWritten_snoc.1 hw with hw | hw
      · exact Option.isSome_iff_exists.1 (hR.wrote _ hthis hw)
      · cases heff with
        | frame hidle _ => exact absurd (hw.symm.trans hidle) Bool.true_eq_false_eq_False
        | fill q _ htold _ _ _ => exact ⟨q, htold⟩
    obtain ⟨q, hq⟩ := htold
    rw [toldQty_snoc hq]
    rfl
  · refine forall_threads (fun t ht hw q q' hq hq' => hR.kept_step heff hg.2 ht hw hq hq') ?_
    intro hw q q' hq hq'
    rcases hasWritten_snoc.1 hw with hw | hw
    · obtain ⟨q₁, hq₁⟩ := Option.isSome_iff_exists.1 (hR.wrote _ hthis hw)
      obtain rfl : q₁ = q := Option.some.inj ((toldQty_snoc hq₁).symm.trans hq)
      exact hR.kept_step heff hg.2 hthis hw hq₁ hq'
    · cases heff with
      | frame hidle _ => exact absurd (hw.symm.trans hidle) Bool.true_eq_false_eq_False
      | fill q₁ _ htold _ hnow _ =>
        obtain rfl : q₁ = q := Option.some.inj ((toldQty_snoc htold).symm.trans hq)
        exact (Option.some.inj (hnow.symm.trans hq')).le

end Recorded

theorem recorded_run {first : World} {P : Calls}
    (hkey : Store.Keyed RealOrder.id first.orders)
    (hr : Reaches tradeSem reconcileOrder (steadyAndOrderly first) ⟨first, []⟩ P) :
    Recorded first P.world P.threads := by
  refine reaches_threads (J := Recorded first) (fun c => reconcileOrder_ops c)
    (fun _ _ _ hR => hR.start) ?_ (.init hkey) hr
  rintro w w' xs ys c h op k r hR hop hg ⟨o, -, ho⟩
  exact hR.step hop hg ho

/-! ## The recorded quantity -/

theorem fillKept_iff_filledOf {w w' : World} : FillKept w w' ↔
    ∀ i q q', filledOf w i = some q → filledOf w' i = some q' → q ≤ q' := by
  constructor
  · intro h i q q' hq hq'
    obtain ⟨r, hr, rfl⟩ := Option.map_eq_some_iff.1 hq
    obtain ⟨r', hr', rfl⟩ := Option.map_eq_some_iff.1 hq'
    exact h i r r' hr hr'
  · intro h i r r' hr hr'
    refine h i r.filledQty r'.filledQty ?_ ?_
    · rw [filledOf, hr, Option.map_some]
    · rw [filledOf, hr', Option.map_some]

/-- **The recorded quantity is kept exactly by the orderly steps.** In every interleaving of any
number of reconciliations of which every step is orderly, no recorded quantity is below the first
one; and a next step, under the broker's promise, decreases no recorded quantity if and only if it
is orderly too. -/
theorem fill_kept_iff {first : World} {P : Calls} (hkey : Store.Keyed RealOrder.id first.orders)
    (hr : Reaches tradeSem reconcileOrder (steadyAndOrderly first) ⟨first, []⟩ P) :
    FillKept first P.world ∧ ∀ P', Step tradeSem reconcileOrder (steady first) P P' →
      (FillKept P.world P'.world ↔
        Step tradeSem reconcileOrder (steadyAndOrderly first) P P') := by
  have hR := recorded_run hkey hr
  refine ⟨fillKept_iff_filledOf.2 fun i q q' hq hq' => ?_, fun P' hs => ⟨fun hkept => ?_, ?_⟩⟩
  · rcases (hR.source i q' hq').2 with hfirst | ⟨t, ht, rfl, -, htold⟩
    · exact (Option.some.inj (hq.symm.trans hfirst)).le
    · exact hR.told t ht q' q htold hq
  · cases hs with
    | start _ c => exact .start _ c
    | @await w w' xs ys c h op k r hg hm =>
      refine .await ⟨hg, fun hwrites u hu hcall hwritten q q' hq hq' => ?_⟩ hm
      obtain ⟨o, -, ho⟩ := hm
      have hop : FillOp c h op :=
        (reaches_sound reconcileOrder_ops hr ⟨c, h, .await op k⟩ (by simp)).2.1
      have hu' : u ∈ xs ++ ⟨c, h, .await op k⟩ :: ys := by
        rcases List.mem_append.1 hu with hu | hu <;> simp [hu]
      cases hR.effect hop ho with
      | frame hidle _ => exact absurd (hwrites.symm.trans hidle) Bool.true_eq_false_eq_False
      | fill q₁ _ htold hhere hnow _ =>
        obtain rfl : q₁ = q := Option.some.inj (htold.symm.trans hq)
        obtain ⟨q₀, hq₀⟩ := Option.isSome_iff_exists.1 hhere
        -- what the other call has written is recorded, and the step keeps it
        calc q' ≤ q₀ := hR.kept u hu' hwritten q' q₀ hq' (hcall ▸ hq₀)
          _ ≤ q₁ := fillKept_iff_filledOf.1 hkept c q₀ q₁ hq₀ hnow
  · intro hs
    refine fillKept_iff_filledOf.2 fun i q q' hq hq' => ?_
    have hsound := reaches_sound reconcileOrder_ops hr
    cases hs with
    | start _ c => exact (Option.some.inj (hq.symm.trans hq')).le
    | @await w w' xs ys c h op k r hg hm =>
      obtain ⟨o, -, ho⟩ := hm
      have heff := hR.effect (hsound ⟨c, h, .await op k⟩ (by simp)).2.1 ho
      exact hR.fillKept heff hg.2 hq hq'

/-! ## Two calls -/

/-- The check of `steady`. -/
def steadyCheck (first : World) : Check tradeSig String World := fun _ ts t e =>
  ((answerOf e).bind fun b => column b.filledQty).all fun q =>
    ((first.order? t.call).all fun r => r.filledQty ≤ q) &&
      ts.all fun u => u.call ≠ t.call || (toldQty u.hist).all fun q' => q' ≤ q

def orderlyCheck : Check tradeSig String World := fun _ ts t e =>
  !writesFill e || ts.all fun u => u.call ≠ t.call || !hasWritten u ||
    (toldQty t.hist).all fun q => (toldQty u.hist).all fun q' => q' ≤ q

section Checks

variable {first w : World} {ts : List (Thread tradeSig String)} {t : Thread tradeSig String}
  {e : Event tradeSig}

theorem steady_of_check (h : steadyCheck first w ts t e = true) : steady first w ts t e := by
  intro b q hb hq
  rw [steadyCheck, hb, Option.bind_some, hq, Option.all_some, Bool.and_eq_true] at h
  refine ⟨fun r hr => ?_, fun u hu hcall q' hq' => ?_⟩
  · simpa [hr] using h.1
  · simpa [hcall, hq'] using List.all_eq_true.1 h.2 u hu

theorem orderly_of_check (h : orderlyCheck w ts t e = true) : orderly w ts t e := by
  intro he u hu hcall hw q q' hq hq'
  rw [orderlyCheck, he, Bool.not_true, Bool.false_or] at h
  simpa [hcall, hw, hq, hq'] using List.all_eq_true.1 h u hu

end Checks

def partOrder : RealOrder := { sampleOrder with status := .partiallyFilled, filledQty := 1 }

def partWorld : World := { pollWorld with orders := [partOrder] }

/-- Two calls read the row. One is told of two shares, then the other of five, which it writes. -/
def partSchedule : List (Move String Oracle) :=
  [.start "order-1", .start "order-1", .await 0 (tells 2), .await 1 (tells 2), .await 0 (tells 2),
    .await 1 (tells 5), .await 1 (tells 5)]
where
  tells : ℚ → Oracle := brokerSays "partially_filled"

def partCalls : Option Calls :=
  Pool.replay handle reconcileOrder
    (fun w ts t e => steadyCheck partWorld w ts t e && orderlyCheck w ts t e) partSchedule
    ⟨partWorld, []⟩

theorem partCalls_isSome : partCalls.isSome := by decide

def staleCalls : Option Calls :=
  Pool.play handle reconcileOrder (steadyCheck partWorld) (partCalls.get partCalls_isSome)
    (.await 0 (brokerSays "partially_filled" 5))

theorem staleCalls_isSome : staleCalls.isSome := by decide

theorem partCalls_reaches : Reaches tradeSem reconcileOrder (steadyAndOrderly partWorld)
    ⟨partWorld, []⟩ (partCalls.get partCalls_isSome) := by
  refine reaches_of_replay (fun w ts t e h => ?_) (Option.some_get partCalls_isSome).symm
  rw [Bool.and_eq_true] at h
  exact ⟨steady_of_check h.1, orderly_of_check h.2⟩

theorem staleCalls_step : Step tradeSem reconcileOrder (steady partWorld)
    (partCalls.get partCalls_isSome) (staleCalls.get staleCalls_isSome) :=
  step_of_play (fun _ _ _ _ h => steady_of_check h) (Option.some_get staleCalls_isSome).symm

/-- So far nothing is lost, and the next write would have to be orderly. -/
theorem partCalls_kept : FillKept partWorld (partCalls.get partCalls_isSome).world ∧
    (FillKept (partCalls.get partCalls_isSome).world (staleCalls.get staleCalls_isSome).world ↔
      Step tradeSem reconcileOrder (steadyAndOrderly partWorld)
        (partCalls.get partCalls_isSome) (staleCalls.get staleCalls_isSome)) := by
  have h := fill_kept_iff (Store.keyed_nil.concat (by simp)) partCalls_reaches
  exact ⟨h.1, h.2 _ staleCalls_step⟩

/-- **An older answer overwrites a newer one**: five shares were recorded, and then two. -/
theorem stale_fill :
    Reaches tradeSem reconcileOrder (steady partWorld) ⟨partWorld, []⟩
      (partCalls.get partCalls_isSome) ∧
    Step tradeSem reconcileOrder (steady partWorld) (partCalls.get partCalls_isSome)
      (staleCalls.get staleCalls_isSome) ∧
    filledOf (partCalls.get partCalls_isSome).world "order-1" = some 5 ∧
    filledOf (staleCalls.get staleCalls_isSome).world "order-1" = some 2 ∧
    ¬ FillKept (partCalls.get partCalls_isSome).world (staleCalls.get staleCalls_isSome).world := by
  have h5 : filledOf (partCalls.get partCalls_isSome).world "order-1" = some 5 := by decide
  have h2 : filledOf (staleCalls.get staleCalls_isSome).world "order-1" = some 2 := by
    decide
  refine ⟨partCalls_reaches.mono fun _ _ _ _ h => h.1, staleCalls_step, h5, h2, fun hkept => ?_⟩
  have hle : (5 : ℚ) ≤ 2 := fillKept_iff_filledOf.1 hkept "order-1" 5 2 h5 h2
  norm_num at hle

end NeoTrader.PartialFill

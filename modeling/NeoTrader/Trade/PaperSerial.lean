import Mathlib.Data.List.Nodup
import Mathlib.Data.List.Permutation
import NeoTrader.Trade.ExactlyOnce

/-!
# The paper account as a serial history of its changes

A paper execution reads the whole row of the account, awaits several quotes and then writes the whole
row. The changes of the row are logged in the order in which they were stored.

* `Serial`: the account is what the log makes of the first account, and what is recorded of a fill is
  what that fill did to it;
* **`paper_serial`**: then every interleaving of decisions on distinct intents is serial;
* **`paper_update_lost`**: two executions that have both read the row before either has written it.
-/

namespace NeoTrader

open Js Await Prog

/-! ## The account and its log -/

/-- The account of a portfolio, which starts with its initial capital. -/
def World.account (w : World) : PaperState := w.portfolio.getD .initial

/-- The account after a list of changes. -/
def replayed (s : PaperState) (log : List PaperWrite) : PaperState := log.foldl PaperWrite.apply s

@[simp] theorem replayed_concat (s : PaperState) (log : List PaperWrite) (x : PaperWrite) :
    replayed s (log ++ [x]) = PaperWrite.apply (replayed s log) x := by
  rw [replayed, List.foldl_concat]
  rfl

/-- The log holds the fill, and made it on the account `s`. -/
def AppliedTo (s₀ : PaperState) (log : List PaperWrite) (f : PaperFill) (s : PaperState) : Prop :=
  ∃ l₁ l₂, log = l₁ ++ .fill f :: l₂ ∧ s = replayed s₀ l₁

theorem AppliedTo.append {s₀ s : PaperState} {log : List PaperWrite} {f : PaperFill}
    (h : AppliedTo s₀ log f s) (more : List PaperWrite) : AppliedTo s₀ (log ++ more) f s := by
  obtain ⟨l₁, l₂, rfl, hs⟩ := h
  exact ⟨l₁, l₂ ++ more, by simp, hs⟩

theorem appliedTo_concat (s₀ : PaperState) (log : List PaperWrite) (f : PaperFill) :
    AppliedTo s₀ (log ++ [.fill f]) f (replayed s₀ log) := ⟨log, [], rfl, rfl⟩

/-- The row of the account that an event has answered. -/
def portfolioRead : Event tradeSig → Option (Option PaperState)
  | ⟨.portfolioFind, .ok row⟩ => some row
  | _ => none

/-- **The account's row is written while it still is what the call has read.** -/
def upToDate : Check tradeSig DecisionCall World :=
  fun w _ t e => (written e).isNone || t.hist.all fun e' =>
    (portfolioRead e').all fun row => row.getD .initial = w.account

theorem upToDate_read {w : World} {ts : List (Thread tradeSig DecisionCall)}
    {t : Thread tradeSig DecisionCall} {e : Event tradeSig} {x : PaperWrite × PaperState}
    {row : Option PaperState} (hg : upToDate w ts t e) (hx : written e = some x)
    (hrow : ReadPortfolio t.hist row) : row.getD .initial = w.account := by
  rw [upToDate, hx] at hg
  have hall := List.all_eq_true.1 (by simpa using hg) _ hrow
  simpa [portfolioRead] using hall

/-! ## Calls that have made themselves felt -/

/-- A call on the intent has made itself felt. -/
def Felt (ts : List (Thread tradeSig DecisionCall)) (id : String) : Prop :=
  ∃ t ∈ ts, t.call.intentId = id ∧ ¬ Untouched t.hist

section Felt

variable {ts xs ys : List (Thread tradeSig DecisionCall)} {id : String} {c : DecisionCall}
  {h : List (Event tradeSig)} {e : Event tradeSig} {k k' : Prog tradeSig Unit}

theorem Untouched.of_snoc (hh : Untouched (h ++ [e])) : Untouched h :=
  fun e' he' => hh e' (List.mem_append_left _ he')

theorem Felt.start (hf : Felt ts id) (t : Thread tradeSig DecisionCall) : Felt (ts ++ [t]) id := by
  obtain ⟨t', ht', hid, hn⟩ := hf
  exact ⟨t', List.mem_append_left _ ht', hid, hn⟩

theorem Felt.await (hf : Felt (xs ++ ⟨c, h, k⟩ :: ys) id) :
    Felt (xs ++ ⟨c, h ++ [e], k'⟩ :: ys) id := by
  obtain ⟨t, ht, hid, hn⟩ := hf
  rcases List.mem_append.1 ht with ht | ht
  · exact ⟨t, List.mem_append_left _ ht, hid, hn⟩
  rcases List.mem_cons.1 ht with rfl | ht
  · exact ⟨⟨c, h ++ [e], k'⟩, by simp, hid, fun hh => hn hh.of_snoc⟩
  · exact ⟨t, List.mem_append_right _ (List.mem_cons_of_mem _ ht), hid, hn⟩

theorem felt_touched (he : e.1.touches) :
    Felt (xs ++ ⟨c, h ++ [e], k⟩ :: ys) c.intentId :=
  ⟨⟨c, h ++ [e], k⟩, by simp, rfl, fun hh => hh e (by simp) he⟩

theorem not_felt (hd : ((xs ++ ⟨c, h, k⟩ :: ys).map fun t => t.call.intentId).Nodup)
    (hh : Untouched h) : ¬ Felt (xs ++ ⟨c, h, k⟩ :: ys) c.intentId := by
  rintro ⟨t, ht, hid, hn⟩
  have hsame : t = ⟨c, h, k⟩ := List.inj_on_of_nodup_map hd ht (by simp) hid
  rw [hsame] at hn
  exact hn hh

end Felt

/-! ## One step -/

/-- The price and the quantity that the row of an intent records. -/
def World.recorded? (w : World) (id : String) : Option (ℚ × Option ℚ) :=
  (w.intent? id).bind fun t => t.fillPrice.map fun p => (p, t.quantity)

/-- What is recorded of the intent is what a logged fill of it did. -/
def RecordedIn (s₀ : PaperState) (log : List PaperWrite) (id : String) (x : ℚ × Option ℚ) : Prop :=
  ∃ f s, AppliedTo s₀ log f s ∧ f.intentId = id ∧ x = (f.price, some (f.fill s).quantity)

/-- **The account is the serial result of the logged changes.** `w₀` is the first world. -/
structure Serial (w₀ w : World) (ts : List (Thread tradeSig DecisionCall)) : Prop where
  account : w.account = replayed w₀.account w.paperLog
  made : ∀ t ∈ ts, ∀ f row, FilledFrom t.hist f row →
    AppliedTo w₀.account w.paperLog f (row.getD .initial)
  once : ∀ id, fillsOf w id = 0 ∨ fillsOf w id = 1 ∧ Felt ts id
  recorded : ∀ id, w₀.recorded? id = none → ∀ x, w.recorded? id = some x →
    RecordedIn w₀.account w.paperLog id x ∧ Felt ts id

/-- The intent that an event fills. -/
def filledBy (e : Event tradeSig) : Option String :=
  (written e).bind fun x => x.1.fill?.map PaperFill.intentId

theorem fillsOf_step {w w' : World} {e : Event tradeSig} (h : LogStep w w' e) (id : String) :
    fillsOf w' id = fillsOf w id + if filledBy e = some id then 1 else 0 := by
  rw [fillsOf, fillsOf, h.paperLog, List.countP_append, filledBy]
  congr 1
  rcases written e with _ | ⟨write, data⟩
  · rfl
  · rcases write with f | _ <;> simp [PaperWrite.fill?, List.countP_cons]

section Step

variable {w₀ w w' : World} {xs ys : List (Thread tradeSig DecisionCall)} {c : DecisionCall}
  {h : List (Event tradeSig)} {op : TradeOp} {r : Except Err op.Ans}
  {k : Except Err op.Ans → Prog tradeSig Unit}

theorem serial_account (hJ : w.account = replayed w₀.account w.paperLog)
    (hop : DecisionOp c.intentId h op)
    (hg : upToDate w (xs ++ ys) ⟨c, h, .await op k⟩ ⟨op, r⟩) (hs : LogStep w w' ⟨op, r⟩) :
    w'.account = replayed w₀.account w'.paperLog := by
  have hp := hs.portfolio
  have hl := hs.paperLog
  cases hx : written ⟨op, r⟩ with
  | none =>
    rw [hx] at hp hl
    have haccount : w'.account = w.account := by
      rw [World.account, hp]
      rfl
    rw [haccount, hl]
    simpa using hJ
  | some x =>
    obtain ⟨write, data⟩ := x
    cases op with
    | portfolioUpsert write' data' =>
      rcases r with e | u <;> cases hx
      obtain ⟨⟨row, hrow, hdata⟩, -⟩ := hop
      have hrow' : row.getD .initial = w.account := upToDate_read hg rfl hrow
      have haccount : w'.account = data := by
        rw [World.account, hp]
        rfl
      have hlog : w'.paperLog = w.paperLog ++ [write] := hl
      rw [haccount, hdata, hrow', hlog, replayed_concat, ← hJ]
    | _ => cases hx

theorem serial_made (hop : DecisionOp c.intentId h op)
    (hJ : Serial w₀ w (xs ++ ⟨c, h, .await op k⟩ :: ys))
    (hg : upToDate w (xs ++ ys) ⟨c, h, .await op k⟩ ⟨op, r⟩) (hs : LogStep w w' ⟨op, r⟩) :
    ∀ t ∈ xs ++ ⟨c, h ++ [⟨op, r⟩], k r⟩ :: ys, ∀ f row, FilledFrom t.hist f row →
      AppliedTo w₀.account w'.paperLog f (row.getD .initial) := by
  intro t ht f row hf
  have old (t : Thread tradeSig DecisionCall) (ht : t ∈ xs ++ ⟨c, h, .await op k⟩ :: ys)
      (hf : FilledFrom t.hist f row) : AppliedTo w₀.account w'.paperLog f (row.getD .initial) := by
    rw [hs.paperLog]
    exact (hJ.made t ht f row hf).append _
  rcases List.mem_append.1 ht with ht | ht
  · exact old t (List.mem_append_left _ ht) hf
  rcases List.mem_cons.1 ht with rfl | ht
  · obtain ⟨h₀, data, hp, hrow⟩ := hf
    rcases List.prefix_concat_iff.1 hp with heq | hp
    · -- the fill is the last event
      obtain ⟨rfl, he⟩ := List.append_inj' heq rfl
      cases he
      have hrow' : row.getD .initial = w.account := upToDate_read hg rfl hrow
      have hlog : w'.paperLog = w.paperLog ++ [.fill f] := hs.paperLog
      rw [hlog, hrow', hJ.account]
      exact appliedTo_concat _ _ _
    · exact old ⟨c, h, .await op k⟩ (by simp) ⟨h₀, data, hp, hrow⟩
  · exact old t (List.mem_append_right _ (List.mem_cons_of_mem _ ht)) hf

theorem filledBy_decision {id : String} (hop : DecisionOp c.intentId h op)
    (he : filledBy ⟨op, r⟩ = some id) : Untouched h ∧ c.intentId = id ∧ op.touches := by
  cases op with
  | portfolioUpsert write data =>
    rcases r with e | u
    · cases he
    rcases write with f | _ <;> cases he
    obtain ⟨hh, hid⟩ := hop.2 f rfl
    exact ⟨hh, hid.symm, rfl⟩
  | _ => cases he

theorem serial_once (hd : ((xs ++ ⟨c, h, .await op k⟩ :: ys).map fun t => t.call.intentId).Nodup)
    (hop : DecisionOp c.intentId h op) (hJ : Serial w₀ w (xs ++ ⟨c, h, .await op k⟩ :: ys))
    (hs : LogStep w w' ⟨op, r⟩) (id : String) :
    fillsOf w' id = 0 ∨ fillsOf w' id = 1 ∧ Felt (xs ++ ⟨c, h ++ [⟨op, r⟩], k r⟩ :: ys) id := by
  have hcount := fillsOf_step hs id
  by_cases he : filledBy ⟨op, r⟩ = some id
  · obtain ⟨hh, rfl, ht⟩ := filledBy_decision hop he
    have h0 : fillsOf w c.intentId = 0 :=
      (hJ.once c.intentId).resolve_right fun hone => not_felt hd hh hone.2
    rw [if_pos he, h0] at hcount
    exact .inr ⟨hcount, felt_touched ht⟩
  · rw [if_neg he, add_zero] at hcount
    rw [hcount]
    exact (hJ.once id).imp_right fun hone => ⟨hone.1, hone.2.await⟩

theorem recorded?_step {now : ℤ} (id : String) (ht : TableStep now w w' op r)
    (hop : DecisionOp c.intentId h op) : w'.recorded? id = w.recorded? id ∨
      id = c.intentId ∧ ∃ d, op = .intentUpdate id d ∧ w'.intent? id = (w.intent? id).map (d.apply now) := by
  have same (hi : w'.intents = w.intents) : w'.recorded? id = w.recorded? id := by
    rw [World.recorded?, World.intent?, hi]
    rfl
  cases ht with
  | frame hi _ | orderCreate _ _ _ _ _ hi _ | orderUpdate _ _ _ hi | orderUpdateMany _ _ hi =>
    exact .inl (same hi)
  | intentCreate => exact hop.elim
  | orderTransaction => exact hop.elim
  | @intentUpdate i d t _ hi _ =>
    have hid : i = c.intentId := hop.1
    have hnew := intent?_modify (i := id) hi
    by_cases he : id = i
    · subst he
      refine .inr ⟨hid, d, rfl, ?_⟩
      rw [hnew]
      simp
    · refine .inl ?_
      rw [World.recorded?, World.recorded?, hnew]
      simp [he]

theorem serial_recorded {now : ℤ}
    (hd : ((xs ++ ⟨c, h, .await op k⟩ :: ys).map fun t => t.call.intentId).Nodup)
    (hop : DecisionOp c.intentId h op) (hJ : Serial w₀ w (xs ++ ⟨c, h, .await op k⟩ :: ys))
    (ht : TableStep now w w' op r) (hs : LogStep w w' ⟨op, r⟩) {id : String}
    (h₀ : w₀.recorded? id = none) {x : ℚ × Option ℚ} (hx : w'.recorded? id = some x) :
    RecordedIn w₀.account w'.paperLog id x ∧ Felt (xs ++ ⟨c, h ++ [⟨op, r⟩], k r⟩ :: ys) id := by
  have old (hx : w.recorded? id = some x) : RecordedIn w₀.account w'.paperLog id x ∧
      Felt (xs ++ ⟨c, h ++ [⟨op, r⟩], k r⟩ :: ys) id := by
    obtain ⟨⟨f, s, happ, hrest⟩, hfelt⟩ := hJ.recorded id h₀ x hx
    rw [hs.paperLog]
    exact ⟨⟨f, s, happ.append _, hrest⟩, hfelt.await⟩
  rcases recorded?_step id ht hop with hsame | ⟨rfl, d, rfl, hnew⟩
  · exact old (hsame ▸ hx)
  have hlog : w'.paperLog = w.paperLog := by simpa [written] using hs.paperLog
  obtain ⟨-, -, -, hrec⟩ := hop
  have hfelt : Felt (xs ++ ⟨c, h ++ [⟨.intentUpdate c.intentId d, r⟩], k r⟩ :: ys) c.intentId :=
    felt_touched rfl
  rw [World.recorded?, hnew] at hx
  cases hintent : w.intent? c.intentId with
  | none =>
    rw [hintent] at hx
    cases hx
  | some t =>
    rw [hintent] at hx
    rcases hrec with ⟨hprice, hquantity⟩ | ⟨f, row, hfilled, hid, hprice, hquantity⟩
    · -- the row keeps what it recorded before, which is nothing where the quantity is written
      have hx' : (t.fillPrice.map fun p => (p, (d.quantity <|> t.quantity))) = some x := by
        simpa [IntentPatch.apply, hprice] using hx
      obtain ⟨p, hp, rfl⟩ := Option.map_eq_some_iff.1 hx'
      have hbefore : w.recorded? c.intentId = some (p, t.quantity) := by
        simp [World.recorded?, hintent, hp]
      rcases hquantity with hnone | hh
      · refine old ?_
        rw [hbefore, hnone]
        rfl
      · exact absurd (hJ.recorded _ h₀ _ hbefore).2 (not_felt hd hh)
    · -- the row records a fill of the call
      have happ := hJ.made _ (List.mem_append_right _ List.mem_cons_self) f row hfilled
      have hx' : some (f.price, some (f.fill (row.getD .initial)).quantity) = some x := by
        simpa [IntentPatch.apply, hprice, hquantity] using hx
      cases hx'
      rw [hlog]
      exact ⟨⟨f, _, happ, hid, rfl⟩, hfelt⟩

theorem serial_step {o : Oracle}
    (hd : ((xs ++ ⟨c, h, .await op k⟩ :: ys).map fun t => t.call.intentId).Nodup)
    (hop : DecisionOp c.intentId h op) (hJ : Serial w₀ w (xs ++ ⟨c, h, .await op k⟩ :: ys))
    (hg : upToDate w (xs ++ ys) ⟨c, h, .await op k⟩ ⟨op, r⟩) (ho : handle o op w = (r, w')) :
    Serial w₀ w' (xs ++ ⟨c, h ++ [⟨op, r⟩], k r⟩ :: ys) where
  account := serial_account hJ.account hop hg (handle_logs ho)
  made := serial_made hop hJ hg (handle_logs ho)
  once := serial_once hd hop hJ (handle_logs ho)
  recorded _ h₀ _ hx := serial_recorded hd hop hJ (handle_tables ho) (handle_logs ho) h₀ hx

end Step

/-! ## Every interleaving -/

/-- **No lost updates.** In every interleaving of decisions on distinct intents in which the
account's row is written only while it still is what the call has read, the account is the result of
the logged changes one after another, an intent has at most one fill, and a price and a quantity
recorded on an intent are those of its fill. -/
theorem paper_serial {w : World} {P : Pool tradeSig DecisionCall World} (hw : w.paperLog = [])
    (hd : (P.threads.map fun t => t.call.intentId).Nodup)
    (hr : Pool.Reaches tradeSem DecisionCall.body (fun w ts t e => upToDate w ts t e) ⟨w, []⟩ P) :
    P.world.account = replayed w.account P.world.paperLog ∧ (∀ id, fillsOf P.world id ≤ 1) ∧
      ∀ id, w.recorded? id = none → ∀ x, P.world.recorded? id = some x →
        RecordedIn w.account P.world.paperLog id x := by
  have hJ : Serial w P.world P.threads := by
    refine Pool.reaches_threads
      (J := fun w' ts => (ts.map fun t => t.call.intentId).Nodup → Serial w w' ts)
      decisionOp_body (fun w' ts c hJ hd => ?_) ?_ (fun _ => ?_) hr hd
    · -- a call starts
      rw [List.map_append] at hd
      have hJ := hJ hd.of_append_left
      refine ⟨hJ.account, fun t ht f row hf => ?_, fun id => ?_, fun id h₀ x hx => ?_⟩
      · rcases List.mem_append.1 ht with ht | ht
        · exact hJ.made t ht f row hf
        · rw [List.mem_singleton.1 ht] at hf
          obtain ⟨h₀, data, hp, -⟩ := hf
          simp at hp
      · exact (hJ.once id).imp_right fun hone => ⟨hone.1, hone.2.start _⟩
      · obtain ⟨hrec, hfelt⟩ := hJ.recorded id h₀ x hx
        exact ⟨hrec, hfelt.start _⟩
    · -- a call awaits
      rintro w₁ w₂ xs ys c h op k r hJ hop hg ⟨o, -, ho⟩ hd
      have hd' : ((xs ++ ⟨c, h, .await op k⟩ :: ys).map fun t => t.call.intentId).Nodup := by
        simpa using hd
      exact serial_step hd' hop (hJ hd') hg ho
    · -- nothing has started
      have hnone (id : String) : fillsOf w id = 0 := by
        rw [fillsOf, hw]
        rfl
      refine ⟨by rw [hw]; rfl, by simp, fun id => .inl (hnone id), fun id h₀ x hx => ?_⟩
      rw [h₀] at hx
      cases hx
  refine ⟨hJ.account, fun id => ?_, fun id h₀ x hx => (hJ.recorded id h₀ x hx).1⟩
  rcases hJ.once id with h0 | ⟨h1, -⟩ <;> omega

def twoPending : World :=
  { kv := fun _ => none
    intents := [sampleIntent "intent-1" "SPY" .long, sampleIntent "intent-2" "QQQ" .long] }

def filledInTurn : Option (Pool tradeSig DecisionCall World) :=
  let o := sampleOracle (.arr [])
  Pool.replay handle DecisionCall.body upToDate
    (.start (.autoProcess "intent-1") :: List.replicate 18 (.await 0 o) ++
      .start (.approve "intent-2" "user") :: List.replicate 19 (.await 1 o))
    ⟨twoPending, []⟩

theorem filledInTurn_isSome : filledInTurn.isSome := by decide +kernel

theorem filledInTurn_distinct : ((filledInTurn.get filledInTurn_isSome).threads.map fun t =>
    t.call.intentId).Nodup := by
  decide +kernel

/-- The account after two calls in turn. -/
theorem paper_serial_inTurn :
    (filledInTurn.get filledInTurn_isSome).world.account = replayed twoPending.account
        (filledInTurn.get filledInTurn_isSome).world.paperLog ∧
      (∀ id, fillsOf (filledInTurn.get filledInTurn_isSome).world id ≤ 1) ∧
      ∀ id, twoPending.recorded? id = none →
        ∀ x, (filledInTurn.get filledInTurn_isSome).world.recorded? id = some x →
          RecordedIn twoPending.account (filledInTurn.get filledInTurn_isSome).world.paperLog id x :=
  paper_serial rfl filledInTurn_distinct
    (Pool.reaches_of_replay (fun _ _ _ _ hc => hc) (Option.some_get filledInTurn_isSome).symm)

/-- Two calls run in lockstep: both read the account before either writes it. -/
def filledAtOnce : Option (Pool tradeSig DecisionCall World) :=
  let o := sampleOracle (.arr [])
  Pool.replay handle DecisionCall.body Pool.unchecked
    (.start (.autoProcess "intent-1") :: .start (.approve "intent-2" "user") ::
      (List.replicate 18 [.await 0 o, .await 1 o]).flatten)
    ⟨twoPending, []⟩

/-- The account is the result of the changes in no order. -/
def inNoOrder (s : PaperState) (w : World) : Bool :=
  w.paperLog.permutations'.all fun log => w.account ≠ replayed s log

/-- The calls execute different intents; none of them is a rejection. -/
def executions (ts : List (Thread tradeSig DecisionCall)) : Bool :=
  (ts.map fun t => t.call.intentId).Nodup && ts.all fun t => match t.call with
    | .reject .. => false
    | _ => true

theorem filledAtOnce_account :
    (filledAtOnce.map fun P => (P.threads.all fun t => t.rest.finished, executions P.threads,
      inNoOrder twoPending.account P.world)) = some (true, true, true) := by
  decide +kernel

/-- **Of two executions that have both read the account before either has written it, one is lost.**
Without any setting every intent is executed on paper. -/
theorem paper_update_lost : ¬ ∀ (w : World) (P : Pool tradeSig DecisionCall World),
    (∀ key, w.kv key = none) → (∀ t ∈ w.intents, t.status = .pending) → w.paperLog = [] →
    Pool.Reaches tradeSem DecisionCall.body Pool.free ⟨w, []⟩ P → executions P.threads →
    (∀ t ∈ P.threads, t.rest.finished) →
    ∃ log, log.Perm P.world.paperLog ∧ P.world.account = replayed w.account log := by
  intro hall
  obtain ⟨P, hP, heq⟩ := Option.map_eq_some_iff.1 filledAtOnce_account
  simp only [Prod.mk.injEq] at heq
  obtain ⟨hfinished, hexec, hno⟩ := heq
  have hreach := Pool.reaches_of_replay (G := Pool.free) (fun _ _ _ _ _ => trivial) hP
  have hpending : ∀ t ∈ twoPending.intents, t.status = .pending := by decide
  obtain ⟨log, hperm, haccount⟩ := hall twoPending P (fun _ => rfl) hpending rfl hreach hexec
    (List.all_eq_true.1 hfinished)
  have hne := List.all_eq_true.1 hno log (List.mem_permutations'.2 hperm)
  simp [haccount] at hne

end NeoTrader

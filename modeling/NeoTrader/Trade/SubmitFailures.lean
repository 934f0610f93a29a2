import NeoTrader.Common.SlidingWindow
import NeoTrader.Trade.TerminalOrders

/-!
# Consecutive submit failures

Each failing submission is counted, and the third one in a row trips the kill-switch, if the three
are close together. The count is kept as a pruned list of times that a placed order empties.

* **`tripped_iff`**: a failure trips the kill-switch exactly where the two outcomes before it are
  failures too, and the three lie within the window.
-/

namespace NeoTrader.SubmitFailures

open Js Await Prog Pool SlidingWindow

/-! ## Outcomes -/

/-- The outcomes of the submissions: a reset where the broker has taken an order, and the time of
each failure. A response of the broker that cannot be read is the one and then the other. -/
abbrev Outcomes : Type := List (Mark ℤ)

/-- The services' world, and the outcomes since the process has started. -/
abbrev Counted : Type := World × Outcomes

/-- What one operation meets: an oracle, and what the other calls of the services and the other
processes have done meanwhile. -/
structure Outside where
  oracle : Oracle
  others : World → World := id

/-- The others do anything but submit orders: the failure times are private to the submissions. -/
def Outside.elsewhere (i : Outside) (w : World) : World :=
  { i.others w with submitFailureTimestamps := w.submitFailureTimestamps }

/-- The outcome that an operation of a submission stands for. -/
def outcomeOf (now : ℤ) : TradeOp → Outcomes
  | .submitFailuresReset => [.reset]
  | .submitFailuresRecord _ => [.hit now]
  | _ => []

/-- **One operation of a submission**, among whatever others do. -/
def countedHandle (i : Outside) (op : TradeOp) (x : Counted) : Except Err op.Ans × Counted :=
  ((handle i.oracle op (i.elsewhere x.1)).1, (handle i.oracle op (i.elsewhere x.1)).2,
    x.2 ++ outcomeOf i.oracle.time op)

abbrev countedSem : Sem tradeSig Counted :=
  Sem.ofHandler (S := tradeSig) countedHandle fun _ _ _ => True

abbrev submission (args : SubmitArgs) : Trade Unit := (submit args).discard

/-- Any number of submissions. -/
abbrev Submissions : Type := Pool tradeSig SubmitArgs Counted

/-- The call goes on to trip the kill-switch. -/
def Trips (p : Trade Unit) : Prop := ∃ k, p = .await (.kvSet realExecutionHaltedKey "true") k

/-- **The two outcomes before are failures as well**, and within the window. -/
def TwoBefore (outcomes : Outcomes) (now : ℤ) : Prop :=
  ∃ before t₁ t₂, outcomes = before ++ [.hit t₁, .hit t₂] ∧
    now - t₁ ≤ submitFailureWindowMs ∧ now - t₂ ≤ submitFailureWindowMs

/-! ## What a submission has to await -/

/-- How far a submission is: its order was answered, it has failed, or its failure was counted. -/
inductive Stage
  | calm
  | answered (response : Json)
  | failed
  | counted (n : ℕ)

/-- The stage after one more event. -/
def advance (s : Stage) : Event tradeSig → Stage
  | ⟨.placeOrder _ _ _, .ok response⟩ => .answered response
  | ⟨.placeOrder _ _ _, .error _⟩ => .failed
  | ⟨.submitFailuresReset, .ok _⟩ =>
    match s with
    | .answered response =>
      if (extractBrokerOrderId response).toOption.isSome then .calm else .failed
    | _ => .calm
  | ⟨.submitFailuresReset, .error _⟩ => .failed
  | ⟨.submitFailuresRecord _, .ok n⟩ => .counted n
  | _ => .calm

def stage (h : List (Event tradeSig)) : Stage := h.foldl advance .calm

/-- **What is to be awaited next**: an answered order resets the count, a failure is counted, and
the third one trips the kill-switch. -/
def owed : Stage → Option TradeOp
  | .calm => none
  | .answered _ => some .submitFailuresReset
  | .failed => some (.submitFailuresRecord submitFailureWindowMs)
  | .counted n =>
    if n < submitFailureThreshold then none else some (.kvSet realExecutionHaltedKey "true")

/-- The operations that are awaited only where they are owed. -/
def counts : TradeOp → Bool
  | .submitFailuresReset | .submitFailuresRecord _ => true
  | .kvSet key _ => key = realExecutionHaltedKey
  | _ => false

/-- What is owed is awaited, and nothing that counts is awaited otherwise. -/
structure OwedOp (h : List (Event tradeSig)) (op : TradeOp) : Prop where
  pays : ∀ op', owed (stage h) = some op' → op = op'
  only : counts op → owed (stage h) = some op

/-- Nothing is owed. -/
def Settled (h : List (Event tradeSig)) : Prop := owed (stage h) = none

@[simp] theorem stage_snoc (h : List (Event tradeSig)) (e : Event tradeSig) :
    stage (h ++ [e]) = advance (stage h) e := by
  simp [stage]

theorem settled_nil : Settled [] := rfl

/-! ## The submissions -/

/-- From where nothing is owed the program awaits what is owed, and ends where nothing is owed. -/
def Pays {α : Type} (p : Trade α) : Prop :=
  ∀ h, Settled h → p.Wp (histSem tradeSig) OwedOp (fun _ => Settled) h

/-- An operation after which nothing is owed. -/
def plain : TradeOp → Bool
  | .placeOrder _ _ _ => false
  | op => !counts op

theorem advance_plain {op : TradeOp} (hop : plain op) (s : Stage) (r : Except Err op.Ans) :
    advance s ⟨op, r⟩ = .calm := by
  cases op with
  | placeOrder => cases hop
  | submitFailuresReset => cases hop
  | submitFailuresRecord => cases hop
  | _ => rfl

theorem counts_of_plain {op : TradeOp} (hop : plain op) : counts op = false := by
  cases op with
  | placeOrder => rfl
  | _ => simpa [plain] using hop

theorem owedOp_of_settled {h : List (Event tradeSig)} {op : TradeOp} (hh : Settled h)
    (hop : counts op = false) : OwedOp h op := by
  refine ⟨fun op' hop' => ?_, fun hc => ?_⟩
  · exact absurd (hop'.symm.trans hh) nofun
  · rw [hop] at hc
    cases hc

theorem owedOp_of_owed {h : List (Event tradeSig)} {op : TradeOp}
    (hop : owed (stage h) = some op) : OwedOp h op :=
  ⟨fun _ hop' => Option.some.inj (hop.symm.trans hop'), fun _ => hop⟩

theorem pays_await {op : TradeOp} (hop : plain op) : Pays (await op) := by
  intro h hh
  refine wp_perform.2 ⟨owedOp_of_settled hh (counts_of_plain hop), ?_⟩
  rintro r h' rfl
  show owed (stage (h ++ [⟨op, r⟩])) = none
  rw [stage_snoc]
  exact congrArg owed (advance_plain hop _ r)

theorem pays_bind {α β : Type} {p : Trade α} {f : α → Trade β} (hp : Pays p)
    (hf : ∀ a, Pays (f a)) : Pays (p >>= f) :=
  fun h hh => wp_bind_of (hp h hh) (fun a h' hh' => hf a h' hh') fun _ _ hh' => hh'

theorem pays_attempt {α : Type} {p : Trade α} (hp : Pays p) : Pays p.attempt :=
  fun h hh => (wp_attempt p h).2 (hp h hh)

theorem pays_ret {α : Type} (a : α) : Pays (.ret a : Trade α) := fun _ hh => hh

theorem pays_throw {α : Type} (e : Err) : Pays (.throw e : Trade α) := fun _ hh => hh

theorem recordSubmitFailureAndMaybeHalt_pays {h : List (Event tradeSig)}
    (hh : stage h = .failed) : recordSubmitFailureAndMaybeHalt.Wp (histSem tradeSig) OwedOp
      (fun _ => Settled) h := by
  refine wp_perform_bind.2 ⟨owedOp_of_owed (by rw [hh]; rfl), ?_⟩
  rintro r h' rfl
  rcases r with e | (n : ℕ)
  · refine bindPost_error.2 ?_
    show owed (stage _) = none
    rw [stage_snoc]
    rfl
  · refine bindPost_ok.2 (wp_ite (fun hn => ?_) fun hn => ?_)
    · show owed (stage _) = none
      rw [stage_snoc]
      exact if_pos hn
    · refine wp_attempt_bind.2 (wp_perform_bind.2 ⟨owedOp_of_owed ?_, ?_⟩)
      · rw [stage_snoc]
        exact if_neg hn
      · rintro r h' rfl
        have hcalm : Settled (h ++ [⟨.submitFailuresRecord submitFailureWindowMs, .ok n⟩] ++
            [⟨.kvSet realExecutionHaltedKey "true", r⟩]) := by
          show owed (stage _) = none
          rw [stage_snoc]
          rfl
        cases r with
        | error e => exact hcalm
        | ok u => exact pays_await rfl _ hcalm

theorem brokerCall_pays {h : List (Event tradeSig)} (hh : Settled h) (intentId broker : String)
    (order : OrderRequest) :
    (do
      let r ← await (.placeOrder intentId broker order)
      await .submitFailuresReset
      Prog.ofOutcome (extractBrokerOrderId r) : Trade (Option String)).Wp (histSem tradeSig) OwedOp
      (fun x h' => (∀ e, x = .error e → stage h' = .failed) ∧ ∀ a, x = .ok a → Settled h') h := by
  refine wp_perform_bind.2 ⟨owedOp_of_settled hh rfl, ?_⟩
  rintro r h' rfl
  cases r with
  | error e =>
    refine bindPost_error.2 ⟨fun _ _ => ?_, nofun⟩
    rw [stage_snoc]
    rfl
  | ok response =>
    refine bindPost_ok.2 (wp_perform_bind.2 ⟨owedOp_of_owed ?_, ?_⟩)
    · rw [stage_snoc]
      rfl
    · rintro r h' rfl
      cases r with
      | error e =>
        refine bindPost_error.2 ⟨fun _ _ => ?_, nofun⟩
        rw [stage_snoc]
        rfl
      | ok u =>
        refine bindPost_ok.2 (wp_ofOutcome.2 ?_)
        simp only [Settled, stage_snoc, advance]
        cases extractBrokerOrderId response with
        | error e => exact ⟨fun _ _ => rfl, nofun⟩
        | ok a => exact ⟨nofun, fun _ _ => rfl⟩

theorem pays_submitAtBroker (args : SubmitArgs) (clientOrderId : String) (row : RealOrder) :
    Pays (submitAtBroker args clientOrderId row) := by
  intro h hh
  refine wp_attempt_bind.2 (wp_post ?_ (brokerCall_pays hh _ _ _))
  rintro x h' ⟨hfailed, hsettled⟩
  cases x with
  | ok brokerOrderId =>
    refine pays_bind (pays_attempt (pays_await rfl)) (fun r => ?_) h' (hsettled _ rfl)
    cases r with
    | error e => exact pays_ret _
    | ok row' => exact pays_ret _
  | error e =>
    refine wp_bind_of (recordSubmitFailureAndMaybeHalt_pays (hfailed e rfl)) ?_ ?_
    · rintro ⟨⟩ h₁ hh₁
      refine pays_bind (pays_attempt (pays_await rfl)) (fun r => ?_) h₁ hh₁
      cases r with
      | error e => exact pays_ret _
      | ok row' => exact pays_ret _
    · exact fun _ _ hh₁ => hh₁

/-- **A submission** awaits what is owed, and trips the kill-switch only there. -/
theorem pays_submit (args : SubmitArgs) : Pays (submit args) := by
  refine pays_bind (pays_await rfl) fun found => ?_
  cases found with
  | some row => exact pays_ret _
  | none =>
    refine pays_bind (pays_await rfl) fun found => ?_
    cases found with
    | some row => exact pays_ret _
    | none =>
      refine pays_bind (pays_bind (pays_await rfl) fun _ => pays_ret _) fun clientOrderId => ?_
      refine pays_bind (pays_attempt (pays_await rfl)) fun r => ?_
      cases r with
      | ok row => exact pays_submitAtBroker args clientOrderId row
      | error e =>
        dsimp only
        split_ifs
        · refine pays_bind (pays_await rfl) fun winner => ?_
          cases winner with
          | some row => exact pays_ret _
          | none => exact pays_throw _
        · exact pays_throw _

theorem submit_ops (args : SubmitArgs) :
    (submission args).Wp (histSem tradeSig) OwedOp (fun _ => Settled) [] :=
  pays_bind (pays_submit args) (fun _ => pays_ret _) [] settled_nil

/-! ## What is kept -/

/-- The times that are kept are the window of the outcomes. -/
def Kept (x : Counted) : Prop :=
  x.1.submitFailureTimestamps = window submitFailureWindowMs x.2

theorem handle_timestamps {o : Oracle} {op : TradeOp} {w w' : World} {r : Except Err op.Ans}
    (h : handle o op w = (r, w')) (hop : outcomeOf o.time op = []) :
    w'.submitFailureTimestamps = w.submitFailureTimestamps := by
  by_cases hrec : op.records
  · cases op with
    | submitFailuresReset => cases hop
    | submitFailuresRecord => cases hop
    | syncTransaction =>
      rcases db_cases h with ⟨rfl, -⟩ | ⟨u, hx, -⟩
      · rfl
      · obtain ⟨positions, navs, rfl⟩ := sync_cases hx
        rfl
    | _ => cases hrec
  · exact (handle_records h hrec).2

section Step

variable {h : List (Event tradeSig)} {op : TradeOp} {x x' : Counted} {r : Except Err op.Ans}

theorem OwedOp.window {ms : ℤ} (hop : OwedOp h (.submitFailuresRecord ms)) :
    ms = submitFailureWindowMs := by
  have howed : owed (stage h) = some (.submitFailuresRecord ms) := hop.only rfl
  cases hs : stage h with
  | calm => simp [hs, owed] at howed
  | answered => simp [hs, owed] at howed
  | failed =>
    rw [hs] at howed
    cases howed
    rfl
  | counted n =>
    rw [hs, owed] at howed
    split_ifs at howed
    cases howed

/-- **One operation keeps the window.** -/
theorem kept_step (hx : Kept x) (hop : OwedOp h op) (hrel : countedSem.rel op x r x') :
    Kept x' := by
  obtain ⟨i, -, hi⟩ := hrel
  cases hi
  have hbefore : (i.elsewhere x.1).submitFailureTimestamps = window submitFailureWindowMs x.2 := hx
  by_cases hout : outcomeOf i.oracle.time op = []
  · show _ = window _ (x.2 ++ outcomeOf i.oracle.time op)
    rw [hout, List.append_nil, ← hbefore]
    exact handle_timestamps rfl hout
  · cases op with
    | submitFailuresReset =>
      show [] = window _ (x.2 ++ [.reset])
      rw [window_snoc]
      rfl
    | submitFailuresRecord ms =>
      obtain rfl := hop.window
      show _ = window _ (x.2 ++ [.hit i.oracle.time])
      rw [window_snoc, ← hbefore]
      rfl
    | _ => exact absurd rfl hout

theorem record_answers {ms : ℤ} {r : Except Err ℕ}
    (hrel : countedSem.rel (.submitFailuresRecord ms) x r x') :
    (∃ now, x'.2 = x.2 ++ [.hit now]) ∧ r = .ok x'.1.submitFailureTimestamps.length := by
  obtain ⟨i, -, hi⟩ := hrel
  cases hi
  exact ⟨⟨i.oracle.time, rfl⟩, rfl⟩

end Step

theorem owed_counted_iff {h : List (Event tradeSig)} {ms : ℤ} {n : ℕ} :
    owed (stage (h ++ [⟨.submitFailuresRecord ms, .ok n⟩])) =
      some (.kvSet realExecutionHaltedKey "true") ↔ submitFailureThreshold ≤ n := by
  rw [stage_snoc]
  show (if n < submitFailureThreshold then none else some _) = some _ ↔ _
  by_cases hn : n < submitFailureThreshold
  · rw [if_pos hn]
    exact ⟨nofun, fun h => absurd hn (Nat.not_lt.2 h)⟩
  · rw [if_neg hn]
    exact ⟨fun _ => Nat.not_lt.1 hn, fun _ => rfl⟩

/-- **In every run the times that are kept are the window of the outcomes.** -/
theorem kept_run {w : World} (hw : w.submitFailureTimestamps = []) {P : Submissions}
    (hr : Reaches countedSem submission free ⟨(w, []), []⟩ P) : Kept P.world :=
  reaches_threads (J := fun x _ => Kept x) submit_ops (fun _ _ _ hx => hx)
    (fun _ _ _ _ _ _ _ _ _ hx hop _ hrel => kept_step hx hop hrel) (show Kept (w, []) from hw) hr

/-! ## The kill-switch -/

theorem trips_iff {t : Thread tradeSig SubmitArgs}
    (ht : t.Sound (fun _ => OwedOp) fun _ _ => Settled) :
    Trips t.rest ↔ owed (stage t.hist) = some (.kvSet realExecutionHaltedKey "true") := by
  obtain ⟨c, h, p⟩ := t
  constructor
  · rintro ⟨k, rfl : p = _⟩
    exact ht.2.1.only rfl
  · intro howed
    cases p with
    | ret a => exact absurd (howed.symm.trans ht.2) nofun
    | throw e => exact absurd (howed.symm.trans ht.2) nofun
    | await op k =>
      obtain rfl := ht.2.1.pays _ howed
      exact ⟨k, rfl⟩

/-- More than two times are in the window exactly where the two outcomes before are failures, and
recent. -/
theorem twoBefore_iff {outcomes : Outcomes} {now : ℤ}
    (htimes : (times (outcomes ++ [.hit now])).Pairwise (· ≤ ·)) :
    submitFailureThreshold ≤ (window submitFailureWindowMs (outcomes ++ [.hit now])).length ↔
      TwoBefore outcomes now := by
  refine (lt_length_window_iff (k := 2) htimes).trans ?_
  constructor
  · rintro ⟨before, ts, rfl, hts, hrecent⟩
    obtain ⟨t₁, t₂, rfl⟩ := List.length_eq_two.1 hts
    exact ⟨before, t₁, t₂, rfl, hrecent t₁ (by simp), hrecent t₂ (by simp)⟩
  · rintro ⟨before, t₁, t₂, rfl, h₁, h₂⟩
    refine ⟨before, [t₁, t₂], rfl, rfl, fun t ht => ?_⟩
    rcases List.mem_pair.1 ht with rfl | rfl
    · exact h₁
    · exact h₂

theorem counted_of_owed {h : List (Event tradeSig)} {value : String}
    (howed : owed (stage h) = some (.kvSet realExecutionHaltedKey value)) :
    ∃ ms r, h.getLast? = some ⟨.submitFailuresRecord ms, r⟩ := by
  rcases List.eq_nil_or_concat' h with rfl | ⟨h, ⟨op, r⟩, rfl⟩
  · cases howed
  · rw [stage_snoc] at howed
    rw [List.getLast?_append, List.getLast?_singleton]
    cases op with
    | submitFailuresRecord ms => exact ⟨ms, r, rfl⟩
    | placeOrder => cases r <;> cases howed
    | submitFailuresReset =>
      cases r with
      | error e => cases howed
      | ok u =>
        simp only [advance] at howed
        split at howed
        · split_ifs at howed <;> cases howed
        · cases howed
    | _ => cases howed

/-- **The kill-switch is tripped exactly by the third failure in a row within the window.** In every
interleaving of submissions, with whatever else goes on: where a call counts its failure, at times
that have not gone back, it goes on to trip the kill-switch if and only if the two outcomes before
are failures within the window as well. Each submission resets the count where the broker has taken
its order, counts where it has failed, and trips the kill-switch only after it has counted. -/
theorem tripped_iff {w : World} (hw : w.submitFailureTimestamps = []) {P : Submissions}
    (hr : Reaches countedSem submission free ⟨(w, []), []⟩ P) :
    (∀ t ∈ P.threads, t.Sound (fun _ => OwedOp) fun _ _ => Settled) ∧
    (∀ t ∈ P.threads, Trips t.rest → ∃ ms r, t.hist.getLast? = some ⟨.submitFailuresRecord ms, r⟩) ∧
    ∀ xs ys c h ms k, P.threads = xs ++ ⟨c, h, .await (.submitFailuresRecord ms) k⟩ :: ys →
      ∀ r x', countedSem.rel (.submitFailuresRecord ms) P.world r x' →
      (times x'.2).Pairwise (· ≤ ·) →
        ∃ now, x'.2 = P.world.2 ++ [.hit now] ∧ (Trips (k r) ↔ TwoBefore P.world.2 now) := by
  have hsound := reaches_sound submit_ops hr
  refine ⟨hsound, fun t ht htrips => ?_, ?_⟩
  · exact counted_of_owed ((trips_iff (hsound t ht)).1 htrips)
  · intro xs ys c h ms k hP r x' hrel htimes
    have ht := hsound ⟨c, h, .await (.submitFailuresRecord ms) k⟩ (by simp [hP])
    obtain rfl := OwedOp.window ht.2.1
    have hkept : Kept x' := kept_step (kept_run hw hr) ht.2.1 hrel
    obtain ⟨⟨now, hnow⟩, rfl⟩ := record_answers hrel
    refine ⟨now, hnow, ?_⟩
    rw [hnow] at htimes
    calc Trips (k _) ↔ owed (stage (h ++ [_])) = some _ := trips_iff (Thread.Sound.next ht _)
      _ ↔ submitFailureThreshold ≤ x'.1.submitFailureTimestamps.length := owed_counted_iff
      _ ↔ submitFailureThreshold ≤ (window submitFailureWindowMs x'.2).length := by
        rw [show x'.1.submitFailureTimestamps = _ from hkept]
      _ ↔ TwoBefore P.world.2 now := by rw [hnow, twoBefore_iff htimes]

/-! ## Three failures -/

def sampleSubmission : SubmitArgs :=
  { tradeIntentId := "intent-1", brokerPluginId := "alpaca", symbol := "SPY", side := .buy
    requestedQty := 1 }

/-- The broker cannot be reached. -/
def unreachable (time : ℤ) (newId : String) : Outside := { oracle := { time, newId } }

/-- Three submissions, one after the other, up to where the third has failed. -/
def threeFailures : Option Submissions :=
  Pool.replay countedHandle submission Pool.unchecked
    (List.flatten [.start sampleSubmission :: List.replicate 7 (.await 0 (unreachable 0 "order-1")),
      .start sampleSubmission :: List.replicate 7 (.await 1 (unreachable 60000 "order-2")),
      .start sampleSubmission :: List.replicate 5 (.await 2 (unreachable 120000 "order-3"))])
    ⟨(sampleWorld [sampleIntent "intent-1" "SPY" .long], []), []⟩

theorem threeFailures_isSome : threeFailures.isSome := by decide

def recording : Trade Unit → Bool
  | .await (.submitFailuresRecord _) _ => true
  | _ => false

theorem exists_of_recording {p : Trade Unit} (hp : recording p = true) :
    ∃ ms k, p = .await (.submitFailuresRecord ms) k := by
  rcases p with a | e | ⟨op, k⟩
  · cases hp
  · cases hp
  · cases op with
    | submitFailuresRecord ms => exact ⟨ms, k, rfl⟩
    | _ => cases hp

/-- The third failure within two minutes trips the kill-switch. -/
theorem threeFailures_trips : ∃ xs ys c h ms k r,
    (threeFailures.get threeFailures_isSome).threads =
      xs ++ ⟨c, h, .await (.submitFailuresRecord ms) k⟩ :: ys ∧ Trips (k r) := by
  have hlog : (threeFailures.get threeFailures_isSome).world.2 = [.hit 0, .hit 60000] := by
    decide
  have hany : (threeFailures.get threeFailures_isSome).threads.any fun t => recording t.rest := by
    decide
  obtain ⟨⟨c, h, p⟩, hmem, hp⟩ := List.any_eq_true.1 hany
  obtain ⟨xs, ys, hP⟩ := List.append_of_mem hmem
  obtain ⟨ms, k, rfl⟩ := exists_of_recording hp
  have hiff := (tripped_iff rfl (reaches_of_replay (fun _ _ _ _ _ => trivial)
    (Option.some_get threeFailures_isSome).symm)).2.2 xs ys c h ms k hP _ _
    ⟨unreachable 120000 "order-3", trivial, rfl⟩
  have htimes : (times ((threeFailures.get threeFailures_isSome).world.2 ++
      [.hit (120000 : ℤ)])).Pairwise (· ≤ ·) := by
    rw [hlog]
    decide
  obtain ⟨now, hnow, htrips⟩ := hiff htimes
  cases List.append_cancel_left hnow
  exact ⟨xs, ys, c, h, ms, k, _, hP, htrips.2 ⟨[], 0, 60000, hlog, by decide⟩⟩

end NeoTrader.SubmitFailures

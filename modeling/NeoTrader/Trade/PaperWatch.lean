import NeoTrader.Await.Session
import NeoTrader.Trade.Drift
import NeoTrader.Trade.OrderOps
import NeoTrader.Trade.PaperSerial

/-!
# A decision and the paper account

What a call on an intent observes of the paper account, and what it makes of it.

* `PaperWatch`, `watch`: the row, the quotes and the time that a call has observed so far;
* `Stores`, `Settled`: the account after a call, as a function of what the call has observed;
* **`settled_body`**, `settled_of_ran`: every call settles the account so.
-/

namespace NeoTrader

open Js Await Prog

/-! ## What a call has observed -/

/-- **What a call has observed of the paper account.** -/
inductive PaperWatch
  /-- The row has not been read. -/
  | idle
  /-- The row has been read, and some symbols have valid quotes. -/
  | priced (s : PaperState) (quotes : List (String × ℚ))
  /-- The clock has been read after the quotes. -/
  | gated (s : PaperState) (quotes : List (String × ℚ)) (now : ℤ)
  /-- The traded symbol has been quoted, validly or not. -/
  | quoted (s : PaperState) (quotes : List (String × ℚ)) (now : ℤ) (price : Option ℚ)
  /-- A quote was not valid, or the real account is looked at. -/
  | elsewhere
  deriving DecidableEq

/-- What one more event tells. -/
def PaperWatch.next : PaperWatch → Event tradeSig → PaperWatch
  | .idle, ⟨.portfolioFind, .ok row⟩ => .priced (row.getD .initial) []
  | .priced s quotes, ⟨.getQuote symbol, r⟩ =>
    match quotedPrice r with
    | some price => .priced s (quotes ++ [(symbol, price)])
    | none => .elsewhere
  | .priced s quotes, ⟨.now, .ok now⟩ => .gated s quotes now
  | .priced s quotes, ⟨.portfolioUpsert _ _, _⟩ => .priced s quotes
  | .priced s quotes, ⟨.intentUpdate _ _, _⟩ => .priced s quotes
  | .priced _ _, _ => .elsewhere
  | .gated s quotes now, ⟨.getQuote _, r⟩ => .quoted s quotes now (quotedPrice r)
  | x, _ => x

/-- **What a call with these events has observed.** -/
def watch (h : List (Event tradeSig)) : PaperWatch := h.foldl PaperWatch.next .idle

@[simp] theorem watch_nil : watch [] = .idle := rfl

@[simp] theorem watch_concat (h : List (Event tradeSig)) (e : Event tradeSig) :
    watch (h ++ [e]) = (watch h).next e := by
  rw [watch, List.foldl_concat]
  rfl

/-- The operation tells nothing new. -/
def PaperWatch.Rests (x : PaperWatch) (op : TradeOp) : Prop := ∀ r, x.next ⟨op, r⟩ = x

theorem rests_elsewhere (op : TradeOp) : PaperWatch.elsewhere.Rests op := fun _ => rfl

theorem rests_idle {op : TradeOp} (h : op.consults) : PaperWatch.idle.Rests op := by
  intro r
  cases op with
  | portfolioFind => exact absurd h Bool.false_ne_true
  | _ => rfl

theorem rests_intentUpdate (x : PaperWatch) (id : String) (d : IntentPatch) :
    x.Rests (.intentUpdate id d) := by
  intro r
  cases x <;> rfl

theorem rests_portfolioUpsert (x : PaperWatch) (write : PaperWrite) (data : PaperState) :
    x.Rests (.portfolioUpsert write data) := by
  intro r
  cases x <;> rfl

/-! ## The account -/

structure SameAccount (w w' : World) : Prop where
  portfolio : w'.portfolio = w.portfolio
  paperLog : w'.paperLog = w.paperLog

theorem SameAccount.refl (w : World) : SameAccount w w := ⟨rfl, rfl⟩

theorem SameAccount.trans {w w' w'' : World} (h : SameAccount w w') (h' : SameAccount w' w'') :
    SameAccount w w'' := ⟨h'.portfolio.trans h.portfolio, h'.paperLog.trans h.paperLog⟩

theorem SameAccount.account {w w' : World} (h : SameAccount w w') : w'.account = w.account := by
  rw [World.account, World.account, h.portfolio]

/-- The operation is not a write of the account's row. -/
def TradeOp.offBook : TradeOp → Bool
  | portfolioUpsert _ _ => false
  | _ => true

theorem offBook_of_quiet {op : TradeOp} (h : op.quiet) : op.offBook := by
  cases op with
  | portfolioUpsert => exact absurd h Bool.false_ne_true
  | _ => rfl

theorem offBook_of_orderOp {h : List (Event tradeSig)} {op : TradeOp} (hop : OrderOp h op) :
    op.offBook := by
  cases op with
  | portfolioUpsert => exact hop.elim
  | _ => rfl

theorem reads_of_consults {op : TradeOp} (h : op.consults) : op.reads := by
  cases op with
  | now | kvGet | intentFindUnique | strategyFind | auditLog | providerGet | providerDefault
  | request => rfl
  | _ => exact absurd h Bool.false_ne_true

theorem handle_offBook {o : Oracle} {op : TradeOp} {w w' : World} {r : Except Err op.Ans}
    (hop : op.offBook) (h : handle o op w = (r, w')) : SameAccount w w' := by
  have hlog := handle_logs h
  have hwritten : written ⟨op, r⟩ = none := by
    cases op with
    | portfolioUpsert => exact absurd hop Bool.false_ne_true
    | _ => rfl
  refine ⟨?_, ?_⟩
  · rw [hlog.portfolio, hwritten]
    rfl
  · rw [hlog.paperLog, hwritten]
    simp

/-- The change of the row is stored, or the database fails. -/
def Stores (A : Oracle → TradeOp → Prop) (w w' : World) (x : PaperWrite) : Prop :=
  (w'.account = x.apply w.account ∧ w'.paperLog = w.paperLog ++ [x]) ∨
    (SameAccount w w' ∧ ∃ o op, A o op ∧ o.dbError ≠ none)

theorem Stores.trans {A : Oracle → TradeOp → Prop} {w w' w'' : World} {x : PaperWrite}
    (h : Stores A w w' x) (h' : SameAccount w' w'') : Stores A w w'' x := by
  rcases h with ⟨haccount, hlog⟩ | ⟨hsame, ho⟩
  · exact .inl ⟨h'.account.trans haccount, h'.paperLog.trans hlog⟩
  · exact .inr ⟨hsame.trans h', ho⟩

/-! ## Programs that the account does not notice -/

section Rules

variable {A : Oracle → TradeOp → Prop} {α β : Type} {w : World} {h : List (Event tradeSig)} {x : PaperWatch}

/-- **Every complete run of the program**, with the events of its past recorded, ends in `Q`. -/
abbrev Watched (A : Oracle → TradeOp → Prop) (Q : Except Err α → World × List (Event tradeSig) → Prop)
    (p : Trade α) (w : World) (h : List (Event tradeSig)) : Prop :=
  p.Wp (meeting A).traced (fun _ _ => True) Q (w, h)

theorem watched_await_bind {op : TradeOp} {f : op.Ans → Trade β}
    {Q : Except Err β → World × List (Event tradeSig) → Prop}
    (hf : ∀ o r w', A o op → handle o op w = (r, w') →
      bindPost (meeting A).traced (fun _ _ => True) Q f r (w', h ++ [⟨op, r⟩])) :
    Watched A Q (await op >>= f) w h := by
  refine wp_perform_bind.2 ⟨trivial, ?_⟩
  rintro r ⟨w', h'⟩ ⟨⟨o, ho, hh⟩, hlog⟩
  obtain rfl : h' = h ++ [⟨op, r⟩] := hlog
  exact hf o r w' ho hh

theorem watched_attempt_bind {op : TradeOp} {f : Except Err op.Ans → Trade β}
    {Q : Except Err β → World × List (Event tradeSig) → Prop}
    (hf : ∀ o r w', A o op → handle o op w = (r, w') → Watched A Q (f r) w' (h ++ [⟨op, r⟩])) :
    Watched A Q ((await op).attempt >>= f) w h := by
  refine wp_attempt_perform_bind.2 ⟨trivial, ?_⟩
  rintro r ⟨w', h'⟩ ⟨⟨o, ho, hh⟩, hlog⟩
  obtain rfl : h' = h ++ [⟨op, r⟩] := hlog
  exact hf o r w' ho hh

theorem watched_always {p : Trade α} {pre : TradeOp → Prop}
    {I : World → List (Event tradeSig) → Prop}
    (hp : Always (S := tradeSig) (fun _ op => pre op) p)
    (hI : ∀ o op w w' h r, pre op → handle o op w = (r, w') → I w h → I w' (h ++ [⟨op, r⟩]))
    (hw : I w h) : Watched A (fun _ y => I y.1 y.2) p w h := by
  have hkeeps : p.Keeps (meeting A).traced fun y => I y.1 y.2 := by
    refine Always.keeps (K := fun _ _ => True) hp ?_
    rintro ⟨w₁, h₁⟩ ⟨w₂, h₂⟩ - op r hw₁ - hop ⟨⟨o, -, hh⟩, hlog⟩
    obtain rfl : h₂ = h₁ ++ [⟨op, r⟩] := hlog
    exact ⟨hI o op w₁ w₂ h₁ r hop hh hw₁, trivial, fun _ _ => trivial⟩
  exact wp_mono (fun _ _ _ => trivial) (fun _ _ hpost => hpost) (hkeeps (w, h) hw)

theorem watched_consulting {p : Trade α} (hp : Consulting p) (hh : watch h = .idle) :
    Watched A (fun _ y => y.1 = w ∧ watch y.2 = .idle) p w h := by
  refine watched_always (I := fun w' h' => w' = w ∧ watch h' = .idle) hp ?_ ⟨rfl, hh⟩
  rintro o op w₁ w₂ h₁ r hop ho ⟨rfl, hidle⟩
  refine ⟨handle_reads (reads_of_consults hop) ho, ?_⟩
  rw [watch_concat, hidle]
  exact rests_idle hop r

theorem watched_rests {p : Trade α}
    (hp : Always (S := tradeSig) (fun _ op => op.offBook ∧ x.Rests op) p) (hh : watch h = x) :
    Watched A (fun _ y => SameAccount w y.1 ∧ watch y.2 = x) p w h := by
  refine watched_always (I := fun w' h' => SameAccount w w' ∧ watch h' = x) hp ?_ ⟨.refl w, hh⟩
  rintro o op w₁ w₂ h₁ r ⟨hop, hrests⟩ ho ⟨hsame, hwatch⟩
  refine ⟨hsame.trans (handle_offBook hop ho), ?_⟩
  rw [watch_concat, hwatch]
  exact hrests r

theorem watched_elsewhere {p : Trade α} (hp : Always (S := tradeSig) (fun _ op => op.offBook) p)
    (hh : watch h = .elsewhere) :
    Watched A (fun _ y => SameAccount w y.1 ∧ watch y.2 = .elsewhere) p w h :=
  watched_rests (hp.mono fun _ op hop => ⟨hop, rests_elsewhere op⟩) hh

theorem watched_intentUpdate {id : String} {d : IntentPatch} (hh : watch h = x) :
    Watched A (fun _ y => SameAccount w y.1 ∧ watch y.2 = x)
      (do let _ ← await (.intentUpdate id d); return () : Trade Unit) w h := by
  refine watched_rests (always_bind (always_perform fun _ => ⟨rfl, ?_⟩) fun _ => always_ret _) hh
  exact rests_intentUpdate x id d

theorem watched_portfolioUpsert {write : PaperWrite} {data : PaperState} {f : Unit → Trade β}
    {Q : Except Err β → World × List (Event tradeSig) → Prop} (hh : watch h = x)
    (hstored : ∀ w' h', w'.account = data → w'.paperLog = w.paperLog ++ [write] → watch h' = x →
      Watched A Q (f ()) w' h')
    (hfailed : ∀ e h', (∃ o op, A o op ∧ o.dbError ≠ none) → watch h' = x → Q (.error e) (w, h')) :
    Watched A Q (await (.portfolioUpsert write data) >>= f) w h := by
  refine watched_await_bind fun o r w' ho hh' => ?_
  have hwatch : watch (h ++ [⟨.portfolioUpsert write data, r⟩]) = x := by
    rw [watch_concat, hh]
    exact rests_portfolioUpsert x write data r
  cases hdb : o.dbError with
  | none =>
    obtain ⟨rfl, rfl⟩ := db_answers hdb rfl hh'
    exact hstored _ _ rfl rfl hwatch
  | some e =>
    rcases db_cases hh' with ⟨rfl, e', rfl⟩ | ⟨u, hx, rfl⟩
    · exact hfailed e' _ ⟨o, _, ho, by simp [hdb]⟩ hwatch
    · have hfail : db o w (.ok ((), { w with portfolio := some data, paperLog := w.paperLog ++ [write] })) =
          (.ok u, w') := hh'
      simp [db, hdb] at hfail

end Rules

/-! ## The entry gate -/

/-- Every open position has a valid quote, in order. -/
structure Pricing (s : PaperState) (quotes : List (String × ℚ)) : Prop where
  symbols : quotes.map Prod.fst = s.positions.map PaperPosition.symbol
  positive : ∀ q ∈ quotes, 0 < q.2

/-- What the gate observes of the quotes. -/
def viewOf (quotes : List (String × ℚ)) (now : ℤ) : GateView := ⟨quotes.map Prod.snd, now⟩

@[simp] theorem viewOf_now (quotes : List (String × ℚ)) (now : ℤ) : (viewOf quotes now).now = now :=
  rfl

theorem quotedPrice_pos {r : Except Err Number} {price : ℚ} (h : quotedPrice r = some price) :
    0 < price := by
  unfold quotedPrice at h
  split at h
  · split_ifs at h with hpos
    cases h
    exact hpos
  · cases h

section Gate

variable {A : Oracle → TradeOp → Prop} {w : World} {h : List (Event tradeSig)} {s : PaperState}

/-- The round of one position. -/
def quoteOf (pos : PaperPosition) : Trade (Option ℚ) := do
  let quote ← (await (.getQuote pos.symbol)).attempt
  return quotedPrice quote

/-- The quotes that have been found so far, unless one of them was not valid. -/
def quotesFound (s : PaperState) : Option (List (String × ℚ)) → PaperWatch
  | some quotes => .priced s quotes
  | none => .elsewhere

/-- The quotes of some positions, in order. -/
def quotesOf (l : List PaperPosition) (prices : List ℚ) : List (String × ℚ) :=
  (l.map PaperPosition.symbol).zip prices

/-- **One round**: a valid quote is added to those found before. -/
theorem watched_quoteOf {acc : Option (List (String × ℚ))} (pos : PaperPosition)
    (hh : watch h = quotesFound s acc) :
    Watched A (fun r y => y.1 = w ∧ ∃ price : Option ℚ, r = .ok price ∧
      (∀ p, price = some p → 0 < p) ∧
      watch y.2 = quotesFound s (acc.bind fun quotes => price.map fun p =>
        quotes ++ [(pos.symbol, p)])) (quoteOf pos) w h := by
  refine watched_attempt_bind fun o r w' ho hr => ⟨handle_reads rfl hr, quotedPrice r, rfl,
    fun p => quotedPrice_pos, ?_⟩
  rw [watch_concat, hh]
  cases acc with
  | none => rfl
  | some quotes =>
    show (match quotedPrice r with
      | some price => PaperWatch.priced s (quotes ++ [(pos.symbol, price)])
      | none => .elsewhere) = _
    cases quotedPrice r <;> rfl

/-- **The quotes of some positions**: all of them are found, or one of them was not valid. -/
theorem watched_quotes (l : List PaperPosition) {acc : Option (List (String × ℚ))}
    (hh : watch h = quotesFound s acc) :
    Watched A (fun r y => y.1 = w ∧ ∃ prices : List (Option ℚ), r = .ok prices ∧
      prices.length = l.length ∧ (∀ p, some p ∈ prices → 0 < p) ∧
      watch y.2 = quotesFound s (acc.bind fun quotes => (prices.mapM id).map fun prices =>
        quotes ++ quotesOf l prices)) (Prog.collect l quoteOf) w h := by
  induction l generalizing acc h with
  | nil =>
    refine ⟨rfl, [], rfl, rfl, by simp, ?_⟩
    rw [hh]
    cases acc <;> simp [quotesOf]
  | cons pos l ih =>
    refine wp_bind_of (watched_quoteOf pos hh) ?_ (by simp)
    rintro price ⟨w₁, h₁⟩ ⟨rfl, _, ⟨⟩, hpos, hwatch⟩
    refine wp_bind_of (ih hwatch) ?_ (by simp)
    rintro prices ⟨w₂, h₂⟩ ⟨rfl, _, ⟨⟩, hlength, hall, hwatch⟩
    refine ⟨rfl, _, rfl, by simp [hlength], fun p hp => ?_, ?_⟩
    · rcases List.mem_cons.1 hp with rfl | hp
      · exact hpos p rfl
      · exact hall p hp
    · rw [hwatch, List.mapM_cons]
      cases acc <;> cases price <;> cases prices.mapM id <;> simp [quotesOf]

theorem mapM_id_eq {l : List (Option ℚ)} {prices : List ℚ} (h : l.mapM id = some prices) :
    l = prices.map some := by
  induction l generalizing prices with
  | nil =>
    cases h
    rfl
  | cons x l ih =>
    rw [List.mapM_cons] at h
    obtain ⟨p, hp, h⟩ := Option.bind_eq_some_iff.1 h
    obtain ⟨ps, hps, h⟩ := Option.bind_eq_some_iff.1 h
    cases h
    rw [ih hps, List.map_cons, ← hp]
    rfl

theorem pricing_quotesOf {prices : List ℚ} (hlength : prices.length = s.positions.length)
    (hpos : ∀ p ∈ prices, 0 < p) : Pricing s (quotesOf s.positions prices) := by
  refine ⟨List.map_fst_zip (by simp [hlength]), fun q hq => hpos q.2 ?_⟩
  exact (List.of_mem_zip hq).2

/-- **The prices of the open positions.** -/
theorem watched_openPrices (hh : watch h = .priced s []) :
    Watched A (fun r y => y.1 = w ∧ ((r = .ok none ∧ watch y.2 = .elsewhere) ∨
      ∃ quotes, Pricing s quotes ∧ r = .ok (some (quotes.map Prod.snd)) ∧
        watch y.2 = .priced s quotes)) (openPrices s) w h := by
  have hfound : watch h = quotesFound s (some []) := hh
  refine wp_bind_of (watched_quotes s.positions hfound) ?_ (by simp)
  rintro prices ⟨w₁, h₁⟩ ⟨rfl, _, ⟨⟩, hlength, hpos, hwatch⟩
  refine ⟨rfl, ?_⟩
  cases hprices : prices.mapM id with
  | none =>
    rw [hprices] at hwatch
    exact .inl ⟨rfl, hwatch⟩
  | some ps =>
    rw [hprices] at hwatch
    obtain rfl := mapM_id_eq hprices
    rw [List.length_map] at hlength
    have hpricing := pricing_quotesOf hlength fun p hp => hpos p (List.mem_map_of_mem hp)
    refine .inr ⟨_, hpricing, ?_, hwatch⟩
    rw [quotesOf, List.map_snd_zip (by simp [hlength])]
    rfl

theorem watched_auditLossBreakerTrip (trip : Option (Period × Text)) {quotes : List (String × ℚ)}
    {now : ℤ} (hh : watch h = .gated s quotes now) :
    Watched A (fun r y => y.1 = w ∧ r = .ok () ∧ watch y.2 = .gated s quotes now)
      (auditLossBreakerTrip trip) w h := by
  cases trip with
  | none => exact ⟨rfl, rfl, hh⟩
  | some trip =>
    refine watched_attempt_bind fun o r w' _ hr => ⟨handle_reads rfl hr, rfl, ?_⟩
    rw [watch_concat, hh]
    rfl

/-- **The entry gate.** -/
theorem watched_evaluateEntryGate (policy : RiskPolicy) (hh : watch h = .priced s []) :
    Watched A (fun r y => y.1 = w ∧ ∃ g : GateOutcome, r = .ok g ∧
      ((g.view = none ∧ g.result.refusal ≠ none ∧ watch y.2 = .elsewhere) ∨
        ∃ quotes now, Pricing s quotes ∧ g.view = some (viewOf quotes now) ∧
          g.result = gateOf s policy (viewOf quotes now) ∧ watch y.2 = .gated s quotes now))
      (evaluateEntryGate s policy) w h := by
  refine wp_bind_of (watched_openPrices hh) ?_ (by simp)
  rintro prices ⟨w₁, h₁⟩ ⟨rfl, ⟨⟨⟩, hwatch⟩ | ⟨quotes, hpricing, ⟨⟩, hwatch⟩⟩
  · exact ⟨rfl, _, rfl, .inl ⟨rfl, Option.some_ne_none _, hwatch⟩⟩
  · refine watched_await_bind fun o r w' _ hr => ?_
    cases hr
    have hgated : watch (h₁ ++ [⟨.now, .ok o.time⟩]) = .gated s quotes o.time := by
      rw [watch_concat, hwatch]
      rfl
    refine wp_bind_of (watched_auditLossBreakerTrip _ hgated) ?_ (by simp)
    rintro u ⟨w₂, h₂⟩ ⟨rfl, -, hwatch⟩
    exact ⟨rfl, _, rfl, .inr ⟨quotes, o.time, hpricing, rfl, rfl, hwatch⟩⟩

/-- A refused entry stores the baselines that its gate has reset; nothing else is stored. -/
def Refuses (A : Oracle → TradeOp → Prop) (id : String) (policy : RiskPolicy) (w : World)
    (v : GateView) (w' : World) : Prop :=
  if (gateOf w.account policy v).baselineChanged then Stores A w w' (.baseline id policy v)
  else SameAccount w w'

theorem Refuses.trans {A : Oracle → TradeOp → Prop} {id : String} {policy : RiskPolicy}
    {w w' w'' : World} {v : GateView} (h : Refuses A id policy w v w') (h' : SameAccount w' w'') :
    Refuses A id policy w v w'' := by
  unfold Refuses at h ⊢
  by_cases hchanged : (gateOf w.account policy v).baselineChanged
  · rw [if_pos hchanged] at h ⊢
    exact h.trans h'
  · rw [if_neg hchanged] at h ⊢
    exact h.trans h'

theorem watched_storeBaseline (id : String) {policy : RiskPolicy} {v : GateView}
    {g : EntryGateResult} {entry : Entry} {x : PaperWatch} (hg : gateOf w.account policy v = g)
    (hh : watch h = x) :
    Watched A (fun r y => watch y.2 = x ∧ (∀ e, r = .ok e → e = entry) ∧
        if g.pass then y.1 = w ∧ r = .ok entry else Refuses A id policy w v y.1)
      (if ¬ g.pass ∧ g.baselineChanged then do
        await (.portfolioUpsert (.baseline id policy v) g.state)
        return entry
      else return entry) w h := by
  refine wp_ite (fun hc => ?_) fun hc => ?_
  · have hrefuses (w' : World) (hw : Stores A w w' (.baseline id policy v)) :
        Refuses A id policy w v w' := by
      rw [Refuses, hg, if_pos hc.2]
      exact hw
    refine watched_portfolioUpsert hh (fun w' h' haccount hlog hwatch => ?_)
      fun e h' ho hwatch => ?_
    · refine ⟨hwatch, fun _ he => (Except.ok.inj he).symm, ?_⟩
      rw [if_neg hc.1]
      refine hrefuses w' (.inl ⟨?_, hlog⟩)
      rw [haccount, ← hg]
      rfl
    · refine ⟨hwatch, fun _ he => (by cases he), ?_⟩
      rw [if_neg hc.1]
      have hstores : Stores A w w (.baseline id policy v) := Or.inr ⟨SameAccount.refl w, ho⟩
      exact hrefuses w hstores
  · refine ⟨hh, fun _ he => (Except.ok.inj he).symm, ?_⟩
    split
    · exact ⟨rfl, rfl⟩
    · next hpass =>
      rw [Refuses, hg, if_neg fun hchanged => hc ⟨hpass, hchanged⟩]
      exact .refl w

/-- **The entry gate of the paper account**, and the baselines that a refused entry has reset. -/
theorem watched_evaluatePaperGate (id : String) (policy : RiskPolicy)
    (hh : watch h = .priced w.account []) :
    Watched A (fun r y =>
      (∃ entry, r = .ok entry ∧ entry.refusal ≠ none ∧ y.1 = w ∧ watch y.2 = .elsewhere) ∨
      ∃ quotes now g, Pricing w.account quotes ∧ watch y.2 = .gated w.account quotes now ∧
        gateOf w.account policy (viewOf quotes now) = g ∧
        (∀ e, r = .ok e → e = ⟨g.refusal, g.state, some (policy, viewOf quotes now)⟩) ∧
        if g.pass then y.1 = w ∧ r = .ok ⟨g.refusal, g.state, some (policy, viewOf quotes now)⟩
        else Refuses A id policy w (viewOf quotes now) y.1)
      (evaluatePaperGate id w.account policy) w h := by
  refine wp_bind_of (watched_evaluateEntryGate policy hh) ?_ (by simp)
  rintro ⟨g, view⟩ ⟨w₁, h₁⟩ ⟨rfl, _, ⟨⟩, ⟨rfl, hrefused, hwatch⟩ | ⟨quotes, now, hpricing, rfl, hg, hwatch⟩⟩
  · exact .inl ⟨_, rfl, hrefused, rfl, hwatch⟩
  · refine wp_post ?_ (watched_storeBaseline id hg.symm hwatch)
    rintro r y ⟨hwatch, hentry, hrest⟩
    exact .inr ⟨quotes, now, g, hpricing, hwatch, hg.symm, hentry, hrest⟩

end Gate

/-! ## The execution -/

/-- The fill that a decision on an intent makes at a price. -/
def fillOf (id : String) (t : TradeIntent) (policy : ExecutionPolicy) (sizingPct : ℚ)
    (gate : Option (RiskPolicy × GateView)) (price : ℚ) : PaperFill :=
  { intentId := id, action := t.action, symbol := t.symbol, price, gate, sizingPct
    maxPositionPct := policy.maxPositionPct, maxShortNotionalPct := policy.maxShortNotionalPct }

/-- A valid quote is filled; without one the account stays as it was. -/
def Fills (A : Oracle → TradeOp → Prop) (w w' : World) (fill : ℚ → PaperFill) : Option ℚ → Prop
  | none => SameAccount w w'
  | some price => 0 < price ∧ Stores A w w' (.fill (fill price))

section Execution

variable {A : Oracle → TradeOp → Prop} {w : World} {h : List (Event tradeSig)} {x : PaperWatch}
  {id decidedBy : String} {t : TradeIntent} {policy : ExecutionPolicy} {sizingPct : ℚ}

theorem watched_failIntent {result : ResultJson} (hh : watch h = x) :
    Watched A (fun _ y => SameAccount w y.1 ∧ watch y.2 = x) (failIntent id decidedBy result) w h :=
  watched_intentUpdate hh

/-- **A fill**: the quote, the account's row, the intent. -/
theorem watched_runPaperExecution {entry : Entry} (hh : watch h = x)
    (hentry : entry.Gated w.account) :
    Watched A (fun _ y => ∃ r : Except Err Number, watch y.2 = x.next ⟨.getQuote t.symbol, r⟩ ∧
        Fills A w y.1 (fillOf id t policy sizingPct entry.gate) (quotedPrice r))
      (runPaperExecution id t.symbol t.action entry decidedBy sizingPct policy.maxPositionPct
        policy.maxShortNotionalPct) w h := by
  refine watched_attempt_bind fun o r w' _ hr => ?_
  obtain rfl : w' = w := handle_reads rfl hr
  have hwatch : watch (h ++ [⟨.getQuote t.symbol, r⟩]) = x.next ⟨.getQuote t.symbol, r⟩ := by
    rw [watch_concat, hh]
  have failed (hquote : quotedPrice r = none) (result : ResultJson) :
      Watched A (fun _ y => ∃ r : Except Err Number, watch y.2 = x.next ⟨.getQuote t.symbol, r⟩ ∧
        Fills A w' y.1 (fillOf id t policy sizingPct entry.gate) (quotedPrice r))
        (failIntent id decidedBy result) w' (h ++ [⟨.getQuote t.symbol, r⟩]) := by
    refine wp_post (fun _ y hy => ⟨r, hy.2, ?_⟩) (watched_failIntent hwatch)
    rw [hquote]
    exact hy.1
  rcases r with e | price | _ | _
  · exact failed rfl _
  · refine wp_ite (fun hle => failed (if_neg (not_lt.2 hle)) _) fun hle => ?_
    have hpos : 0 < price := not_le.1 hle
    have hfills (w₁ : World)
        (hw : Stores A w' w₁ (.fill (fillOf id t policy sizingPct entry.gate price))) :
        Fills A w' w₁ (fillOf id t policy sizingPct entry.gate)
          (quotedPrice (.ok (.fin price))) := by
      have hquote : quotedPrice (.ok (.fin price)) = some price := if_pos hpos
      rw [hquote]
      exact ⟨hpos, hw⟩
    refine watched_portfolioUpsert hwatch (fun w₁ h₁ haccount hlog hwatch => ?_)
      fun e h₁ ho hwatch => ⟨_, hwatch, hfills _ (.inr ⟨.refl _, ho⟩)⟩
    have hstores : Stores A w' w₁ (.fill (fillOf id t policy sizingPct entry.gate price)) := by
      refine .inl ⟨?_, hlog⟩
      rw [haccount, hentry]
      rfl
    -- the status of the intent follows
    refine wp_post (Q := fun _ y => SameAccount w₁ y.1 ∧
      watch y.2 = x.next ⟨.getQuote t.symbol, .ok (.fin price)⟩) ?_ ?_
    · rintro _ y ⟨hsame, hwatch⟩
      exact ⟨_, hwatch, hfills y.1 (hstores.trans hsame)⟩
    · exact wp_ite (fun _ => watched_intentUpdate hwatch) fun _ => watched_intentUpdate hwatch
  · exact failed rfl _
  · exact failed rfl _

end Execution

/-! ## Real execution -/

section Real

variable {α : Type}

/-- The program does not write the account's row. -/
abbrev OffBook (p : Trade α) : Prop := Always (S := tradeSig) (fun _ op => op.offBook) p

theorem offBook_of_quietly {p : Trade α} (hp : Quiet p) : OffBook p :=
  hp.mono fun _ _ => offBook_of_quiet

theorem offBook_intentUpdate (id : String) (d : IntentPatch) :
    OffBook (do let _ ← await (.intentUpdate id d); return () : Trade Unit) :=
  always_bind (always_perform fun _ => rfl) fun _ => always_ret _

theorem offBook_submitReal (id symbol : String) (policy : ExecutionPolicy) (side : Side)
    (qty : Number) (decidedBy : String) :
    OffBook (submitReal id symbol policy side qty decidedBy) := by
  refine always_bind (always_attempt ((orderOp_submit _).mono fun _ _ => offBook_of_orderOp))
    fun r => ?_
  cases r with
  | error e => exact offBook_intentUpdate _ _
  | ok realOrder =>
    refine always_ite (fun _ => offBook_intentUpdate _ _) fun _ => ?_
    exact always_bind (always_perform fun _ => rfl) fun _ => offBook_intentUpdate _ _

theorem offBook_executeReal (id symbol : String) (action : TradeAction) (policy : ExecutionPolicy)
    (realState : Option RealAccountState) (decidedBy : String) (sizingPct : ℚ) :
    OffBook (executeReal id symbol action policy realState decidedBy sizingPct) := by
  refine always_bind (offBook_of_quietly (quiet_checkExecuteRealPreconditions _ _ _)) fun r => ?_
  cases r with
  | some result => exact offBook_intentUpdate _ _
  | none =>
    refine always_bind (always_attempt (always_perform fun _ => rfl)) fun quote => ?_
    refine always_ite (fun _ => offBook_intentUpdate _ _) fun _ => ?_
    refine always_ite (fun _ => offBook_intentUpdate _ _) fun _ => ?_
    refine always_bind (offBook_of_quietly (quiet_resolveRealSideAndQty _ _ _ _ _ _)) fun r => ?_
    rcases r with result | ⟨side, qty⟩
    · exact offBook_intentUpdate _ _
    · refine always_ite (fun _ => offBook_intentUpdate _ _) fun _ => ?_
      exact always_ite (fun _ => offBook_intentUpdate _ _) fun _ => offBook_submitReal _ _ _ _ _ _

theorem offBook_gateAndExecute (id : String) (t : TradeIntent) (policy : ExecutionPolicy)
    (realState : Option RealAccountState) (s : PaperState) (decidedBy : String) (sizingPct : ℚ) :
    OffBook (gateAndExecute id t policy .real realState s decidedBy sizingPct) := by
  refine always_ite (fun _ => ?_) fun _ => offBook_executeReal _ _ _ _ _ _ _
  refine always_bind ?_ fun entry => ?_
  · cases realState
    · exact always_throw _
    · exact always_ret _
  · split
    · exact offBook_intentUpdate _ _
    · exact offBook_executeReal _ _ _ _ _ _ _

end Real

/-! ## Decisions -/

/-- **The account after a call on an intent**, with what the call has observed. -/
def Settled (A : Oracle → TradeOp → Prop) (id : String) (sizing : ExecutionPolicy → ℚ)
    (w w' : World) : PaperWatch → Prop
  | .idle | .elsewhere => SameAccount w w'
  | .priced s quotes => s = w.account ∧ ∃ t, w.intent? id = some t ∧
      ((t.action = .hold ∧ quotes = [] ∧ SameAccount w w') ∨
        (t.action = .exit ∧ ∃ price, quotes = [(t.symbol, price)] ∧
          Fills A w w' (fillOf id t w.policy (sizing w.policy) none) (some price)))
  | .gated s quotes now => s = w.account ∧ Pricing s quotes ∧
      (gateOf s w.policy.risk (viewOf quotes now)).pass = false ∧
      Refuses A id w.policy.risk w (viewOf quotes now) w'
  | .quoted s quotes now price => s = w.account ∧ Pricing s quotes ∧
      (gateOf s w.policy.risk (viewOf quotes now)).pass = true ∧
      ∃ t, w.intent? id = some t ∧ t.action.isEntry ∧
        Fills A w w' (fillOf id t w.policy (sizing w.policy)
          (some (w.policy.risk, viewOf quotes now))) price

section Decisions

variable {A : Oracle → TradeOp → Prop} {w : World} {h : List (Event tradeSig)} {id : String}
  {t : TradeIntent} {decidedBy : String} {sizing : ExecutionPolicy → ℚ}

/-- **An exit** is filled at its quote. -/
theorem settled_exit (ht : w.intent? id = some t) (hexit : t.action = .exit)
    (hh : watch h = .priced w.account []) :
    Watched A (fun _ y => Settled A id sizing w y.1 (watch y.2))
      (runPaperExecution id t.symbol t.action ⟨none, w.account, none⟩ decidedBy (sizing w.policy)
        w.policy.maxPositionPct w.policy.maxShortNotionalPct) w h := by
  have hentry : Entry.Gated ⟨none, w.account, none⟩ w.account := rfl
  refine wp_post ?_ (watched_runPaperExecution hh hentry)
  rintro _ y ⟨r, hwatch, hfills⟩
  cases hquote : quotedPrice r with
  | none =>
    have helse : watch y.2 = .elsewhere := by
      rw [hwatch]
      show (match quotedPrice r with
        | some price => PaperWatch.priced w.account ([] ++ [(t.symbol, price)])
        | none => .elsewhere) = _
      rw [hquote]
    rw [hquote] at hfills
    rw [helse]
    exact hfills
  | some price =>
    have hpriced : watch y.2 = .priced w.account [(t.symbol, price)] := by
      rw [hwatch]
      show (match quotedPrice r with
        | some price => PaperWatch.priced w.account ([] ++ [(t.symbol, price)])
        | none => .elsewhere) = _
      rw [hquote]
      rfl
    rw [hquote] at hfills
    rw [hpriced]
    exact ⟨rfl, t, ht, .inr ⟨hexit, price, rfl, hfills⟩⟩

/-- **An entry** is filled at its quote where the gate passes. -/
theorem settled_entry (ht : w.intent? id = some t) (haction : t.action.isEntry)
    (realState : Option RealAccountState) (hh : watch h = .priced w.account []) :
    Watched A (fun _ y => Settled A id sizing w y.1 (watch y.2))
      (gateAndExecute id t w.policy .paper realState w.account decidedBy (sizing w.policy)) w h := by
  refine wp_ite (fun _ => ?_) fun hno => absurd haction hno
  have hrejected {g : EntryGateResult} {quotes : List (String × ℚ)} {now : ℤ} {w₁ : World}
      (hpricing : Pricing w.account quotes) (hpass : ¬ g.pass)
      (hg : gateOf w.account w.policy.risk (viewOf quotes now) = g)
      (hw : Refuses A id w.policy.risk w (viewOf quotes now) w₁) :
      Settled A id sizing w w₁ (.gated w.account quotes now) := by
    refine ⟨rfl, hpricing, ?_, hw⟩
    rw [hg]
    simpa using hpass
  refine wp_bind_of (watched_evaluatePaperGate id w.policy.risk hh) ?_ ?_
  · rintro entry ⟨w₁, h₁⟩ hpost
    rcases hpost with ⟨_, ⟨⟩, hrefused, rfl, hwatch⟩ |
      ⟨quotes, now, g, hpricing, hwatch, hg, hentry, hrest⟩
    · -- an open position has no valid quote
      cases hrefusal : entry.refusal with
      | none => exact absurd hrefusal hrefused
      | some reason =>
        refine wp_post ?_ (watched_intentUpdate hwatch)
        rintro _ y ⟨hsame, hwatch⟩
        rw [hwatch]
        exact hsame
    obtain rfl := hentry entry rfl
    by_cases hpass : g.pass
    · -- the gate passes
      rw [if_pos hpass] at hrest
      obtain ⟨rfl, -⟩ := hrest
      have hnone : g.refusal = none := pass_iff.1 hpass
      simp only [hnone]
      have hgated : Entry.Gated ⟨none, g.state, some (w₁.policy.risk, viewOf quotes now)⟩
          w₁.account := by
        rw [← hg]
        rfl
      refine wp_post ?_ (watched_runPaperExecution hwatch hgated)
      rintro _ y ⟨r, hwatch, hfills⟩
      rw [hwatch]
      refine ⟨rfl, hpricing, ?_, t, ht, haction, hfills⟩
      rw [hg]
      exact hpass
    · -- the gate refuses
      rw [if_neg hpass] at hrest
      cases hrefusal : g.refusal with
      | none => exact absurd (pass_iff.2 hrefusal) hpass
      | some reason =>
        refine wp_post ?_ (watched_intentUpdate hwatch)
        rintro _ y ⟨hsame, hwatch⟩
        rw [hwatch]
        exact hrejected hpricing hpass hg (hrest.trans hsame)
  · rintro e ⟨w₁, h₁⟩ hpost
    rcases hpost with ⟨_, ⟨⟩, -⟩ | ⟨quotes, now, g, hpricing, hwatch, hg, -, hrest⟩
    split at hrest
    · cases hrest.2
    · next hpass =>
      rw [hwatch]
      exact hrejected hpricing hpass hg hrest

theorem watched_getRealAccountState (brokerPluginId : String) {s : PaperState}
    {quotes : List (String × ℚ)} (hh : watch h = .priced s quotes) :
    Watched A (fun _ y => SameAccount w y.1 ∧ watch y.2 = .elsewhere)
      (getRealAccountState brokerPluginId) w h := by
  refine watched_await_bind fun o r w' _ hr => ?_
  obtain ⟨rfl, -⟩ := query_cases hr
  have helse : watch (h ++ [⟨.navFindLatest brokerPluginId, r⟩]) = .elsewhere := by
    rw [watch_concat, hh]
    rfl
  rcases r with e | snapshot
  · exact ⟨.refl w', helse⟩
  refine watched_elsewhere ?_ helse
  cases snapshot with
  | none => exact always_ret _
  | some snapshot =>
    refine always_bind (always_perform fun _ => rfl) fun _ => ?_
    refine always_bind (offBook_of_quietly (quiet_readClamped _ _ _ _)) fun _ => ?_
    refine always_ite (fun _ => always_ret _) fun _ => ?_
    exact always_bind (always_perform fun _ => rfl) fun _ => always_ret _

theorem watched_query {β : Type} {op : TradeOp} {a : op.Ans} {f : op.Ans → Trade β}
    {Q : Except Err β → World × List (Event tradeSig) → Prop} (hcons : op.consults)
    (hop : ∀ o, handle o op w = query o w a) (hh : watch h = .idle)
    (hf : ∀ h', watch h' = .idle → Watched A Q (f a) w h')
    (herr : ∀ e h', watch h' = .idle → Q (.error e) (w, h')) :
    Watched A Q (await op >>= f) w h := by
  refine watched_await_bind fun o r w' _ hr => ?_
  have hidle : watch (h ++ [⟨op, r⟩]) = .idle := by
    rw [watch_concat, hh]
    exact rests_idle hcons r
  obtain ⟨rfl, ha⟩ := query_cases ((hop o).symm.trans hr)
  rcases r with e | b
  · exact herr e _ hidle
  · rw [ha b rfl] at hidle ⊢
    exact hf _ hidle

theorem watched_pendingIntent (id verb : String) (hh : watch h = .idle) :
    Watched A (fun r y => y.1 = w ∧ watch y.2 = .idle ∧ ∀ t, r = .ok t → w.intent? id = some t)
      (pendingIntent id verb) w h := by
  have failed (e : Err) (h' : List (Event tradeSig)) (hidle : watch h' = .idle) :
      w = w ∧ watch h' = .idle ∧
        ∀ t, (Except.error e : Except Err TradeIntent) = .ok t → w.intent? id = some t :=
    ⟨rfl, hidle, fun _ heq => by cases heq⟩
  refine watched_query rfl (fun _ => rfl) hh (fun h' hidle => ?_) failed
  cases ht : w.intent? id with
  | none =>
    rw [ht] at failed
    exact failed _ _ hidle
  | some t =>
    refine wp_ite (fun _ => ⟨rfl, hidle, fun t' heq => ?_⟩) fun _ => ?_
    · rw [Except.ok.inj heq]
    · rw [ht] at failed
      exact failed _ _ hidle

theorem watched_readExecutionPolicy (hh : watch h = .idle) :
    Watched A (fun r y => y.1 = w ∧ watch y.2 = .idle ∧ ∀ p, r = .ok p → p = w.policy)
      readExecutionPolicy w h := by
  have failed (e : Err) (h' : List (Event tradeSig)) (hidle : watch h' = .idle) :
      w = w ∧ watch h' = .idle ∧
        ∀ p, (Except.error e : Except Err ExecutionPolicy) = .ok p → p = w.policy :=
    ⟨rfl, hidle, fun _ heq => by cases heq⟩
  unfold readExecutionPolicy
  iterate 12 refine watched_query rfl (fun _ => rfl) ‹_› (fun h' hidle => ?_) failed
  refine ⟨rfl, ‹_›, fun p hp => ?_⟩
  rw [← Except.ok.inj hp, World.policy]
  rfl

/-- **A decision whose mode is settled.** -/
theorem settled_processInMode (ht : w.intent? id = some t) (mode : Mode)
    (hh : watch h = .idle) :
    Watched A (fun _ y => Settled A id sizing w y.1 (watch y.2))
      (processInMode id t w.policy mode decidedBy (sizing w.policy)) w h := by
  refine watched_await_bind fun o r w' _ hr => ?_
  obtain ⟨rfl, hrow⟩ := query_cases hr
  rcases r with e | row
  · show Settled A id sizing w' w' (watch _)
    rw [watch_concat, hh]
    exact .refl w'
  obtain rfl := hrow row rfl
  have hpriced : watch (h ++ [⟨.portfolioFind, .ok w'.portfolio⟩]) = .priced w'.account [] := by
    rw [watch_concat, hh]
    rfl
  refine wp_ite (fun hhold => ?_) fun hhold => ?_
  · refine wp_post ?_ (watched_intentUpdate hpriced)
    rintro _ y ⟨hsame, hwatch⟩
    rw [hwatch]
    exact ⟨rfl, t, ht, .inl ⟨hhold, rfl, hsame⟩⟩
  cases mode with
  | paper =>
    by_cases haction : t.action.isEntry
    · exact settled_entry ht haction none hpriced
    · have hexit : t.action = .exit := by
        cases hact : t.action <;> simp_all [TradeAction.isEntry]
      have hgate : Watched A (fun _ y => Settled A id sizing w' y.1 (watch y.2))
          (gateAndExecute id t w'.policy .paper none w'.account decidedBy (sizing w'.policy)) w'
          (h ++ [⟨.portfolioFind, .ok w'.portfolio⟩]) :=
        wp_ite (fun hentry => absurd hentry haction) fun _ => settled_exit ht hexit hpriced
      exact hgate
  | real =>
    refine wp_bind_of (P := fun _ y => SameAccount w' y.1 ∧ watch y.2 = .elsewhere) ?_ ?_ ?_
    · exact watched_getRealAccountState _ hpriced
    · rintro realState ⟨w₁, h₁⟩ ⟨hsame, hwatch⟩
      refine wp_post ?_ (watched_elsewhere (always_ite (fun _ => offBook_intentUpdate _ _) fun _ =>
        offBook_gateAndExecute _ _ _ _ _ _ _) hwatch)
      rintro _ y ⟨hsame', hwatch⟩
      rw [hwatch]
      exact hsame.trans hsame'
    · rintro e ⟨w₁, h₁⟩ ⟨hsame, hwatch⟩
      show Settled A id sizing w' w₁ (watch h₁)
      rw [show watch h₁ = .elsewhere from hwatch]
      exact hsame

/-- **Every decision settles the account by what it has observed.** -/
theorem settled_processIntent (id verb decidedBy : String) (sizing : ExecutionPolicy → ℚ)
    (w : World) :
    Watched A (fun _ y => Settled A id sizing w y.1 (watch y.2))
      (processIntent id verb decidedBy sizing) w [] := by
  have idle {y : World × List (Event tradeSig)} (hy : y.1 = w ∧ watch y.2 = .idle) :
      Settled A id sizing w y.1 (watch y.2) := by
    rw [hy.1, hy.2]
    exact .refl w
  refine wp_bind_of (watched_pendingIntent id verb watch_nil) ?_ fun _ _ hy => idle ⟨hy.1, hy.2.1⟩
  rintro t ⟨w₁, h₁⟩ ⟨rfl, hidle, ht⟩
  refine wp_bind_of (watched_readExecutionPolicy hidle) ?_ fun _ _ hy => idle ⟨hy.1, hy.2.1⟩
  rintro policy ⟨w₂, h₂⟩ ⟨rfl, hidle, hpolicy⟩
  obtain rfl := hpolicy policy rfl
  refine wp_bind_of (watched_consulting (consulting_resolveMode _ _ _ _) hidle) ?_ fun _ _ => idle
  rintro mode ⟨w₃, h₃⟩ ⟨rfl, hidle'⟩
  cases mode with
  | mode mode => exact settled_processInMode (ht t rfl) mode hidle'
  | failed result =>
    refine wp_post ?_ (watched_failIntent hidle')
    rintro _ y ⟨hsame, hwatch⟩
    rw [hwatch]
    exact hsame

end Decisions

/-- The fraction of the cash that an entry of the call uses. -/
def DecisionCall.sizing : DecisionCall → ExecutionPolicy → ℚ
  | autoProcess _ => ExecutionPolicy.maxPositionPct
  | approve _ _ | reject _ _ _ => fun _ => approvedSizingPct

/-- **Every call on an intent settles the account.** -/
theorem settled_body {A : Oracle → TradeOp → Prop} (c : DecisionCall) (w : World) :
    Watched A (fun _ y => Settled A c.intentId c.sizing w y.1 (watch y.2)) c.body w [] := by
  cases c with
  | autoProcess id => exact settled_processIntent id _ _ _ w
  | approve id decidedBy => exact settled_processIntent id _ _ _ w
  | reject id decidedBy reason =>
    refine wp_bind_of (watched_pendingIntent id _ watch_nil) ?_ ?_
    · rintro t ⟨w₁, h₁⟩ ⟨rfl, hidle, -⟩
      refine wp_post ?_ (watched_intentUpdate hidle)
      rintro _ y ⟨hsame, hwatch⟩
      rw [hwatch]
      exact hsame
    · rintro e ⟨w₁, h₁⟩ ⟨rfl, hidle, -⟩
      rw [hidle]
      exact .refl _

/-- A call of a run, with its events. -/
abbrev Decided : Type := Handled tradeSig World DecisionCall Unit

theorem settled_of_ran {A : Oracle → TradeOp → Prop} {r : Decided}
    (hr : r.Ran (meeting A) DecisionCall.body) :
    Settled A r.request.intentId r.request.sizing r.before r.after (watch r.events) :=
  (settled_body r.request r.before).exec hr

end NeoTrader

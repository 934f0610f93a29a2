import NeoTrader.Trade.Adoption
import NeoTrader.Trade.Answers

/-!
# Drifted positions and the kill-switch

A reported position without a filled order of the platform is drift. The detector reads the open
alerts, writes an alert for each drifted position, and then trips the kill-switch.

* `Reports`, `wp_getPortfolio`: the broker reports the same portfolio whenever it is asked;
* `World.drifted`, `World.unalerted`: the drifted positions, and those without an open alert;
* `created`, `attempted`: the alerts that a run has written, and those it tried to write.
-/

namespace NeoTrader

open Js Await Prog

/-! ## The reported portfolio -/

/-- The two requests of the broker have these outcomes. -/
def Reports (m : ProviderManifest) (account positions : Except Err Json) (o : Oracle) : Prop :=
  o.ext (.request m.id "portfolio") = account ∧ o.ext (.request m.id "positions") = positions

/-- The provider of an id; no id asks for the default provider. -/
def World.provider? (w : World) (pluginId : String) : Option ProviderManifest :=
  if pluginId = "" then w.defaultProvider else w.providers pluginId

/-- The oracles that each operation may meet. -/
def meeting (A : Oracle → TradeOp → Prop) : Sem tradeSig World :=
  Sem.ofHandler handle fun o op _ => A o op

section Portfolio

variable {A : Oracle → TradeOp → Prop} {m : ProviderManifest} {account positions : Except Err Json}
  {w : World} {pluginId : String}

theorem wp_requestOr {endpoint : String} {default : Json} {r : Except Err Json}
    {Q : Except Err Json → World → Prop}
    (hA : ∀ o op, A o op → o.ext (.request m.id endpoint) = r)
    (hQ : Q (.ok (bodyOr m endpoint default r)) w) :
    (requestOr m endpoint default).Wp (meeting A) (fun _ _ => True) Q w := by
  unfold requestOr
  refine wp_ite (fun hd => ?_) fun hd => ?_
  · rw [bodyOr_declared hd] at hQ
    refine wp_attempt_perform_bind.2 ⟨trivial, ?_⟩
    rintro r' w' ⟨o, ho, hh⟩
    have hw : w' = w := handle_reads rfl hh
    have hr : o.ext (.request m.id endpoint) = r' := congrArg Prod.fst hh
    rw [hw, ← hr, hA o _ ho]
    cases r with
    | ok body => exact hQ
    | error e => exact hQ
  · rw [bodyOr_undeclared hd] at hQ
    exact hQ

theorem wp_resolveManifest (hm : w.provider? pluginId = some m)
    {Q : Except Err ProviderManifest → World → Prop} (hQ : Q (.ok m) w) :
    (resolveManifest pluginId).Wp (meeting A) (fun _ _ => True) Q w := by
  unfold resolveManifest
  unfold World.provider? at hm
  split at hm
  · next hid =>
    rw [if_pos hid]
    refine wp_perform_bind.2 ⟨trivial, ?_⟩
    rintro r w' ⟨o, -, hh⟩
    cases hh
    rw [hm]
    exact hQ
  · next hid =>
    rw [if_neg hid]
    refine wp_perform_bind.2 ⟨trivial, ?_⟩
    rintro r w' ⟨o, -, hh⟩
    cases hh
    rw [hm]
    exact hQ

/-- **The portfolio is a function of what the broker reports**, whatever the database does. -/
theorem wp_getPortfolio (hA : ∀ o op, A o op → Reports m account positions o)
    (hm : w.provider? pluginId = some m) {Q : Except Err Portfolio → World → Prop}
    (hQ : Q (portfolioOf m account positions) w) :
    (getPortfolio pluginId).Wp (meeting A) (fun _ _ => True) Q w := by
  refine (wp_bind _ _).2 (wp_resolveManifest hm ?_)
  rw [portfolioOf] at hQ
  refine wp_ite (fun hd => ?_) fun hd => ?_
  · rw [if_pos hd] at hQ
    exact hQ
  · rw [if_neg hd] at hQ
    refine (wp_bind _ _).2 (wp_requestOr (fun o op ho => (hA o op ho).1) ?_)
    refine (wp_bind _ _).2 (wp_requestOr (fun o op ho => (hA o op ho).2) ?_)
    exact wp_ofOutcome.2 hQ

end Portfolio

/-! ## Drift -/

/-- A filled order of the platform explains the position. -/
def explained (orders : List RealOrder) (brokerPluginId : String) (pos : Position) : Bool :=
  orders.any fun r =>
    r.symbol = pos.symbol.getD "" ∧ r.brokerPluginId = brokerPluginId ∧ 0 < r.filledQty

/-- The reported positions that no order explains. -/
def drifted (orders : List RealOrder) (brokerPluginId : String) (l : List Position) :
    List Position := l.filter fun pos => ¬ explained orders brokerPluginId pos

/-- An open alert about the drift of a symbol. -/
def AlertEntry.isDrift (symbol : Option String) (a : AlertEntry) : Bool :=
  a.type = "BROKER_DRIFT" ∧ a.symbol = symbol

/-- The drifted positions without an open alert. -/
def unalerted (alerts : List AlertEntry) (l : List Position) : List Position :=
  l.filter fun pos => ¬ alerts.any (·.isDrift pos.symbol)

def driftAlert (pos : Position) : AlertEntry :=
  { type := "BROKER_DRIFT", severity := "CRITICAL", symbol := pos.symbol
    message := [.lit ("Unexplained broker position: symbol=" ++ pos.symbol.getD "" ++ " qty="),
      .num pos.qty,
      .lit " has no filled/partially_filled RealOrder history on this platform"] }

/-! ## The alerts of a run -/

/-- The alert that an event has written. -/
def createdBy : Event tradeSig → List AlertEntry
  | ⟨.alertsCreate a, .ok _⟩ => [a]
  | _ => []

/-- The alert that an event tried to write. -/
def attemptedBy : Event tradeSig → List AlertEntry
  | ⟨.alertsCreate a, _⟩ => [a]
  | _ => []

/-- **The alerts that a run has written.** -/
def created (h : List (Event tradeSig)) : List AlertEntry := h.flatMap createdBy

/-- The alerts that a run tried to write. -/
def attempted (h : List (Event tradeSig)) : List AlertEntry := h.flatMap attemptedBy

/-- The open alerts could not be read. -/
def ReadFailed (h : List (Event tradeSig)) : Prop :=
  ∃ e, (⟨.alertsGetActive, .error e⟩ : Event tradeSig) ∈ h

def Committed (h : List (Event tradeSig)) (brokerPluginId : String) (p : Portfolio)
    (source : String) : Prop :=
  (⟨.syncTransaction brokerPluginId p source, .ok ()⟩ : Event tradeSig) ∈ h

@[simp] theorem created_append (h t : List (Event tradeSig)) :
    created (h ++ t) = created h ++ created t := List.flatMap_append

@[simp] theorem attempted_append (h t : List (Event tradeSig)) :
    attempted (h ++ t) = attempted h ++ attempted t := List.flatMap_append

/-! ## What a sync leaves alone -/

/-- A quiet operation, or the commit of a portfolio. -/
def TradeOp.syncs : TradeOp → Bool
  | syncTransaction _ _ _ => true
  | op => op.quiet

/-- The order rows and the providers are the same in both worlds. -/
structure SameOrders (w w' : World) : Prop where
  orders : w'.orders = w.orders
  provider : ∀ pluginId, w'.provider? pluginId = w.provider? pluginId

theorem SameOrders.refl (w : World) : SameOrders w w := ⟨rfl, fun _ => rfl⟩

theorem SameOrders.trans {w w' w'' : World} (h : SameOrders w w') (h' : SameOrders w' w'') :
    SameOrders w w'' := ⟨h'.orders.trans h.orders, fun id => (h'.provider id).trans (h.provider id)⟩

theorem handle_syncs {o : Oracle} {op : TradeOp} {w w' : World} {r : Except Err op.Ans}
    (hop : op.syncs) (h : handle o op w = (r, w')) :
    SameOrders w w' ∧ w'.alerts = w.alerts ++ createdBy ⟨op, r⟩ := by
  cases op with
  | intentCreate | intentUpdate | portfolioUpsert | orderCreate | orderUpdate | orderUpdateMany
  | orderTransaction | placeOrder => exact absurd hop Bool.false_ne_true
  | syncTransaction broker p source =>
    rcases db_cases h with ⟨rfl, -⟩ | ⟨u, hx, -⟩
    · exact ⟨.refl _, (List.append_nil _).symm⟩
    · obtain ⟨positions, navs, rfl⟩ := sync_cases hx
      exact ⟨⟨rfl, fun _ => rfl⟩, (List.append_nil _).symm⟩
  | alertsCreate a =>
    rcases db_cases h with ⟨rfl, e, rfl⟩ | ⟨u, hx, rfl⟩
    · exact ⟨.refl _, (List.append_nil _).symm⟩
    · cases hx
      exact ⟨⟨rfl, fun _ => rfl⟩, rfl⟩
  | _ =>
    first
      | (obtain ⟨rfl, -⟩ := query_cases h; exact ⟨.refl _, (List.append_nil _).symm⟩)
      | (rcases db_cases h with ⟨rfl, -⟩ | ⟨a, hx, -⟩
         · exact ⟨.refl _, (List.append_nil _).symm⟩
         · cases hx
           exact ⟨⟨rfl, fun _ => rfl⟩, (List.append_nil _).symm⟩)
      | (cases h; exact ⟨⟨rfl, fun _ => rfl⟩, (List.append_nil _).symm⟩)

/-- The program awaits syncing operations only. -/
abbrev Syncs {α : Type} (p : Trade α) : Prop := Always (S := tradeSig) (fun _ op => op.syncs) p

theorem syncs_of_quiet {α : Type} {p : Trade α} (hp : Quiet p) : Syncs p := by
  refine hp.mono fun _ op hop => ?_
  cases op with
  | syncTransaction => rfl
  | _ => exact hop

theorem syncs_syncPortfolio (broker source : String) : Syncs (syncPortfolio broker source) := by
  refine always_bind (syncs_of_quiet (always_attempt (quiet_getPortfolio broker))) fun r => ?_
  cases r with
  | error e => exact always_ret _
  | ok portfolio =>
    exact always_bind (always_perform fun _ => rfl) fun _ =>
      syncs_of_quiet (quiet_detectDrift _ _)

/-- **The open alerts after a sync** are those before it and those that it has written; the order
rows stay. -/
theorem wp_syncs {α : Type} {A : Oracle → TradeOp → Prop} {p : Trade α} (hp : Syncs p) (w : World) :
    p.Wp (meeting A).traced (fun _ _ => True)
      (fun _ w' => SameOrders w w'.1 ∧ w'.1.alerts = w.alerts ++ created w'.2) (w, []) := by
  have hkeeps : p.Keeps (meeting A).traced
      fun w' => SameOrders w w'.1 ∧ w'.1.alerts = w.alerts ++ created w'.2 := by
    refine Always.keeps (K := fun _ _ => True) hp ?_
    rintro w₁ w₂ h op r ⟨hsame, halerts⟩ - hop ⟨⟨o, -, hh⟩, hevents⟩
    obtain ⟨hsame', halerts'⟩ := handle_syncs hop hh
    refine ⟨⟨hsame.trans hsame', ?_⟩, trivial, fun _ _ => trivial⟩
    rw [halerts', halerts, hevents, created_append, List.append_assoc]
    simp [created]
  refine wp_mono (fun _ _ _ => trivial) (fun _ _ h => h) (hkeeps (w, []) ⟨.refl w, ?_⟩)
  exact (List.append_nil _).symm

/-! ## One round of the detector -/

/-- Only statements about alerts fail. -/
def TradeOp.alerting : TradeOp → Bool
  | alertsGetActive | alertsCreate _ => true
  | _ => false

/-- **Every statement that is not about alerts succeeds.** -/
def Steady (A : Oracle → TradeOp → Prop) : Prop := ∀ o op, A o op → ¬ op.alerting → o.dbError = none

section Rounds

variable {A : Oracle → TradeOp → Prop} {active : List AlertEntry} {brokerPluginId : String}
  {w : World} {h : List (Event tradeSig)}

/-- The kill-switch is tripped. -/
def World.halted (w : World) : Bool := kvBool (w.kv realExecutionHaltedKey) false

end Rounds

/-! ## Events without alerts -/

theorem attempted_eq_nil {t : List (Event tradeSig)} (ht : ∀ e ∈ t, e.1.alerting = false) :
    attempted t = [] := by
  refine List.flatMap_eq_nil_iff.2 fun e he => ?_
  obtain ⟨op, r⟩ := e
  cases op with
  | alertsCreate a =>
    have hop := ht _ he
    cases hop
  | _ => rfl

theorem readFailed_append {h t : List (Event tradeSig)} :
    ReadFailed (h ++ t) ↔ ReadFailed h ∨ ReadFailed t := by
  simp only [ReadFailed, List.mem_append, exists_or]

/-- **What became of the alerts and of the kill-switch**: the open alerts could not be read and
nothing was done, or the alerts were tried and the switch is tripped. -/
def AlertsDone (broker : String) (l : List Position) (w w' : World) (t : List (Event tradeSig)) :
    Prop :=
  (ReadFailed t ∧ attempted t = [] ∧ w'.kv = w.kv) ∨
    (¬ ReadFailed t ∧ w'.halted ∧
      attempted t = (unalerted w.alerts (drifted w.orders broker l)).map driftAlert)

theorem AlertsDone.append_left {broker : String} {l : List Position} {w w' : World}
    {h t : List (Event tradeSig)} (hdone : AlertsDone broker l w w' t)
    (hh : ∀ e ∈ h, e.1.alerting = false) : AlertsDone broker l w w' (h ++ t) := by
  have hread : ReadFailed (h ++ t) ↔ ReadFailed t := by
    rw [readFailed_append, or_iff_right]
    rintro ⟨e, he⟩
    cases hh _ he
  have htried : attempted (h ++ t) = attempted t := by
    rw [attempted_append, attempted_eq_nil hh, List.nil_append]
  rwa [AlertsDone, hread, htried]

end NeoTrader

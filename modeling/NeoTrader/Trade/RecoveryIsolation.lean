import NeoTrader.Trade.RealOrder

/-!
# The recovery of one row, and of the others

The recovery sweep asks the broker about every in-flight row. A lookup that fails is caught, and so
is the write that gives a row up; the write of the broker's answer is not.

* **`isolated_iff`**: the sweep is isolated exactly where no write is rejected but the last row's.
-/

namespace NeoTrader.Recovery

open Await Prog

/-! ## Runs -/

/-- The operation reads or writes the service's own memory. -/
def inMemory : TradeOp → Bool
  | .absentCountGet _ | .absentCountSet _ _ => true
  | _ => false

/-- **The outcomes of a sweep**: any, but the memory does not fail. The events are recorded. -/
def memorySem : Sem tradeSig (List (Event tradeSig)) :=
  (histSem tradeSig).guard fun _ e => inMemory e.1 = true → ∃ a, e.2 = .ok a

/-- The write of the broker's answer. -/
def recoveryPatch (brokerOrder : OrderStatusResult) : OrderPatch :=
  { brokerOrderId := some (some brokerOrder.brokerOrderId)
    status := some (pollableStatus brokerOrder.status), reconciled := true }

/-- The rows that are written, with what is written and its outcome. -/
def writeOf : Event tradeSig → Option (String × OrderPatch × Except Err RealOrder)
  | ⟨.orderUpdate id d, r⟩ => some (id, d, r)
  | _ => none

abbrev writes (h : List (Event tradeSig)) : List (String × OrderPatch × Except Err RealOrder) :=
  h.filterMap writeOf

/-- The lookup of a row, with its outcome. -/
abbrev lookup (row : RealOrder) (r : Except Err (Option OrderStatusResult)) : Event tradeSig :=
  ⟨.getOrderByClientId row.brokerPluginId row.clientOrderId, r⟩

/-! ## The property -/

/-- **A row is handled**: it is looked up; what the broker has of it is written; a row that the
broker has denied often enough is given up. -/
def Handled (row : RealOrder) (part : List (Event tradeSig)) : Prop :=
  ∃ r rest, part = lookup row r :: rest ∧
    (∀ b, r = .ok (some b) → ∃ r', (row.id, recoveryPatch b, r') ∈ writes rest) ∧
    ∀ (n : ℕ) rest', r = .ok none → rest = ⟨.absentCountGet row.id, .ok n⟩ :: rest' →
      confirmedAbsentEscalationThreshold ≤ n + 1 →
      ∃ d r', d.status = some .confirmedAbsent ∧ (row.id, d, r') ∈ writes rest'

/-- **The recovery is isolated**: every row of the list is handled, one after another. -/
def Isolated (rows : List RealOrder) (h : List (Event tradeSig)) : Prop :=
  ∃ parts : List (List (Event tradeSig)), h = parts.flatten ∧ List.Forall₂ Handled rows parts

/-- The write of the broker's answer is rejected. -/
def WriteRejected (row : RealOrder) (h : List (Event tradeSig)) : Prop :=
  ∃ b e, (row.id, recoveryPatch b, .error e) ∈ writes h

/-! ## One row -/

/-- The event asks the broker about a row. -/
def isLookup : Event tradeSig → Bool
  | ⟨.getOrderByClientId _ _, _⟩ => true
  | _ => false

/-- **What the recovery of one row does**, and when it throws. -/
structure RowRun (row : RealOrder) (x : Except Err Unit) (part : List (Event tradeSig)) : Prop where
  handled : Handled row part
  once : part.countP isLookup = 1
  own : ∀ w ∈ writes part, w.1 = row.id
  written : x = .ok () → ¬ WriteRejected row part
  thrown : ∀ e, x = .error e → WriteRejected row part

section Row

variable (row : RealOrder)

theorem run_failed (e : Err) :
    RowRun row (.ok ()) [lookup row (.error e), ⟨.absentCountSet row.id 0, .ok ()⟩] where
  handled := by
    refine ⟨_, _, rfl, ?_, ?_⟩
    · intro b hb
      cases hb
    · intro n rest' hr
      cases hr
  once := rfl
  own w hw := by cases hw
  written _ := by
    rintro ⟨b, e, hmem⟩
    cases hmem
  thrown e he := by cases he

theorem run_waiting {n : ℕ} (hfew : n + 1 < confirmedAbsentEscalationThreshold) :
    RowRun row (.ok ()) [lookup row (.ok none), ⟨.absentCountGet row.id, .ok n⟩,
      ⟨.absentCountSet row.id (n + 1), .ok ()⟩] where
  handled := by
    refine ⟨_, _, rfl, ?_, ?_⟩
    · intro b hb
      cases hb
    · intro m rest' _ hrest hmany
      cases hrest
      omega
  once := rfl
  own w hw := by cases hw
  written _ := by
    rintro ⟨b, e, hmem⟩
    cases hmem
  thrown e he := by cases he

theorem run_escalated (n : ℕ) {d : OrderPatch} (hd : d.status = some .confirmedAbsent)
    (hid : d.brokerOrderId = none) (r : tradeSig.Outcome (.orderUpdate row.id d)) :
    RowRun row (.ok ()) [lookup row (.ok none), ⟨.absentCountGet row.id, .ok n⟩,
      ⟨.absentCountSet row.id 0, .ok ()⟩, ⟨.orderUpdate row.id d, r⟩] where
  handled := by
    refine ⟨_, _, rfl, ?_, ?_⟩
    · intro b hb
      cases hb
    · intro m rest' _ hrest _
      cases hrest
      exact ⟨d, r, hd, List.mem_singleton.2 rfl⟩
  once := rfl
  own w hw := by rw [List.mem_singleton.1 hw]
  written _ := by
    rintro ⟨b, e, hmem⟩
    have hpatch : recoveryPatch b = d := congrArg (fun w => w.2.1) (List.mem_singleton.1 hmem)
    rw [← hpatch] at hid
    cases hid
  thrown e he := by cases he

theorem run_found (b : OrderStatusResult) (r : Except Err RealOrder) :
    RowRun row (r.map fun _ => ()) [lookup row (.ok (some b)), ⟨.absentCountSet row.id 0, .ok ()⟩,
      ⟨.orderUpdate row.id (recoveryPatch b), r⟩] where
  handled := by
    refine ⟨_, _, rfl, ?_, ?_⟩
    · intro b' hb
      cases hb
      exact ⟨r, List.mem_singleton.2 rfl⟩
    · intro n rest' hr
      cases hr
  once := rfl
  own w hw := by rw [List.mem_singleton.1 hw]
  written hok := by
    rintro ⟨b', e, hmem⟩
    have hwritten := List.mem_singleton.1 hmem
    rw [Prod.mk.injEq, Prod.mk.injEq] at hwritten
    rw [← hwritten.2.2] at hok
    cases hok
  thrown e he := by
    cases r with
    | ok row' => cases he
    | error e' => exact ⟨b, e', List.mem_singleton.2 rfl⟩

end Row

theorem memory_answers {op : TradeOp} (hop : inMemory op = true) {r : Except Err op.Ans}
    {h h' : List (Event tradeSig)} (hrel : memorySem.rel op h r h') :
    ∃ a, r = .ok a ∧ h' = h ++ [⟨op, .ok a⟩] := by
  obtain ⟨a, ha⟩ := hrel.1 hop
  have hr : r = .ok a := ha
  exact ⟨a, hr, hr ▸ hrel.2⟩

/-- **The recovery of a row**, whatever the broker and the database answer. -/
theorem recoverRow_run (row : RealOrder) (h : List (Event tradeSig)) :
    Wp (S := tradeSig) memorySem (fun _ _ => True)
      (fun (x : Except Err Unit) h' => ∃ part, h' = h ++ part ∧ RowRun row x part)
      (recoverRow row) h := by
  unfold recoverRow
  refine wp_attempt_perform_bind.2 ?_
  refine ⟨trivial, ?_⟩
  rintro r h₁ ⟨-, rfl⟩
  rcases r with e | _ | b <;> dsimp only
  · refine ⟨trivial, fun r₂ h₂ hrel => ?_⟩
    obtain ⟨a, rfl, rfl⟩ := memory_answers rfl hrel
    exact ⟨_, List.append_assoc _ _ _, run_failed row e⟩
  · refine wp_perform_bind.2 ⟨trivial, ?_⟩
    intro r₂ h₂ hrel
    obtain ⟨n, rfl, rfl⟩ := memory_answers rfl hrel
    refine wp_ite (fun hfew => ?_) fun hmany => ?_
    · refine ⟨trivial, fun r₃ h₃ hrel₃ => ?_⟩
      obtain ⟨a, rfl, rfl⟩ := memory_answers rfl hrel₃
      refine ⟨_, ?_, run_waiting row hfew⟩
      rw [List.append_assoc, List.append_assoc]
      rfl
    · refine wp_perform_bind.2 ⟨trivial, ?_⟩
      intro r₃ h₃ hrel₃
      obtain ⟨a, rfl, rfl⟩ := memory_answers rfl hrel₃
      refine bindPost_ok.2 (wp_attempt_perform_bind.2 ?_)
      refine ⟨trivial, ?_⟩
      rintro r₄ h₄ ⟨-, rfl⟩
      refine ⟨_, ?_, run_escalated row n ?_ ?_ r₄⟩
      · rw [List.append_assoc, List.append_assoc, List.append_assoc]
        rfl
      · rfl
      · rfl
  · refine wp_perform_bind.2 ⟨trivial, ?_⟩
    intro r₂ h₂ hrel
    obtain ⟨a, rfl, rfl⟩ := memory_answers rfl hrel
    refine bindPost_ok.2 ?_
    refine wp_perform_bind.2 ⟨trivial, ?_⟩
    rintro r₃ h₃ ⟨-, rfl⟩
    have happend : h ++ [lookup row (.ok (some b))] ++ [⟨.absentCountSet row.id 0, .ok a⟩] ++
        [⟨.orderUpdate row.id (recoveryPatch b), r₃⟩] =
        h ++ [lookup row (.ok (some b)), ⟨.absentCountSet row.id 0, .ok ()⟩,
          ⟨.orderUpdate row.id (recoveryPatch b), r₃⟩] := by
      rw [List.append_assoc, List.append_assoc]
      rfl
    cases r₃ with
    | error e => exact ⟨_, happend, run_found row b (.error e)⟩
    | ok row' => exact ⟨_, happend, run_found row b (.ok row')⟩

/-! ## The sweep -/

/-- **A sweep** over rows: it ends with the first row that throws. -/
inductive Sweep : List RealOrder → Except Err Unit → List (Event tradeSig) → Prop
  | done : Sweep [] (.ok ()) []
  | next {row : RealOrder} {rows : List RealOrder} {x : Except Err Unit}
      {part h : List (Event tradeSig)} (hrow : RowRun row (.ok ()) part) (hrest : Sweep rows x h) :
      Sweep (row :: rows) x (part ++ h)
  | stop {row : RealOrder} {rows : List RealOrder} {e : Err} {part : List (Event tradeSig)}
      (hrow : RowRun row (.error e) part) : Sweep (row :: rows) (.error e) part

theorem forEach_sweep (rows : List RealOrder) (h : List (Event tradeSig)) :
    Wp (S := tradeSig) memorySem (fun _ _ => True)
      (fun (x : Except Err Unit) h' => ∃ h₁, h' = h ++ h₁ ∧ Sweep rows x h₁)
      (forEach rows recoverRow) h := by
  induction rows generalizing h with
  | nil => exact ⟨[], (List.append_nil h).symm, .done⟩
  | cons row rows ih =>
    refine wp_bind_of (recoverRow_run row h) ?_ ?_
    · rintro ⟨⟩ h₁ ⟨part, rfl, hrow⟩
      refine wp_post ?_ (ih (h ++ part))
      rintro x h₂ ⟨h₃, rfl, hrest⟩
      exact ⟨part ++ h₃, List.append_assoc _ _ _, .next hrow hrest⟩
    · rintro e h₁ ⟨part, rfl, hrow⟩
      exact ⟨part, rfl, .stop hrow⟩

theorem writeRejected_append {row : RealOrder} {h h' : List (Event tradeSig)} :
    WriteRejected row (h ++ h') ↔ WriteRejected row h ∨ WriteRejected row h' := by
  simp only [WriteRejected, writes, List.filterMap_append, List.mem_append, exists_or]

section Sweep

variable {rows : List RealOrder} {x : Except Err Unit} {h : List (Event tradeSig)}

theorem Sweep.isolated (hs : Sweep rows x h)
    (hwritten : ∀ row ∈ rows.dropLast, ¬ WriteRejected row h) : Isolated rows h := by
  induction hs with
  | done => exact ⟨[], rfl, .nil⟩
  | @next row rows x part h hrow _ ih =>
    obtain ⟨parts, rfl, hparts⟩ : Isolated rows h := by
      refine ih fun row' hmem hrejected =>
        hwritten row' ?_ (writeRejected_append.2 (.inr hrejected))
      rw [List.dropLast_cons_of_ne_nil (List.ne_nil_of_mem (List.dropLast_subset _ hmem))]
      exact List.mem_cons_of_mem _ hmem
    exact ⟨part :: parts, rfl, .cons hrow.handled hparts⟩
  | @stop row rows e part hrow =>
    have hlast : rows = [] := by
      by_contra hne
      refine hwritten row ?_ (hrow.thrown e rfl)
      rw [List.dropLast_cons_of_ne_nil hne]
      exact List.mem_cons_self
    rw [hlast]
    exact ⟨[part], (List.append_nil part).symm, .cons hrow.handled .nil⟩

theorem Sweep.own (hs : Sweep rows x h) : ∀ w ∈ writes h, w.1 ∈ rows.map RealOrder.id := by
  induction hs with
  | done => exact fun w hw => by cases hw
  | next hrow _ ih =>
    intro w hw
    rw [writes, List.filterMap_append, List.mem_append] at hw
    rw [List.map_cons, List.mem_cons]
    exact hw.imp (hrow.own w) (ih w)
  | stop hrow => exact fun w hw => hrow.own w hw ▸ List.mem_cons_self

/-- **A sweep that looks all of its rows up** has no write rejected but the last row's. -/
theorem Sweep.written (hs : Sweep rows x h) (hids : (rows.map RealOrder.id).Nodup)
    (hlooked : rows.length ≤ h.countP isLookup) :
    ∀ row ∈ rows.dropLast, ¬ WriteRejected row h := by
  induction hs with
  | done => exact fun row hmem => by cases hmem
  | @next row rows x part h hrow hrest ih =>
    rw [List.countP_append, hrow.once, List.length_cons] at hlooked
    have hnodup := List.nodup_cons.1 hids
    intro row' hmem
    rw [writeRejected_append, not_or]
    have hrows : rows ≠ [] := by
      rintro rfl
      cases hmem
    rw [List.dropLast_cons_of_ne_nil hrows] at hmem
    rcases List.mem_cons.1 hmem with rfl | hlater
    · refine ⟨hrow.written rfl, ?_⟩
      rintro ⟨b, e, hw⟩
      exact hnodup.1 (hrest.own _ hw)
    · refine ⟨?_, ih hnodup.2 (by omega) row' hlater⟩
      rintro ⟨b, e, hw⟩
      have hid := List.mem_map_of_mem (f := RealOrder.id) (List.dropLast_subset _ hlater)
      rw [show row'.id = row.id from hrow.own _ hw] at hid
      exact hnodup.1 hid
  | @stop row rows e part hrow =>
    rw [hrow.once, List.length_cons] at hlooked
    have hlast : rows = [] := List.eq_nil_of_length_eq_zero (by omega)
    rw [hlast]
    exact fun row' hmem => by cases hmem

theorem Isolated.looked (hi : Isolated rows h) : rows.length ≤ h.countP isLookup := by
  obtain ⟨parts, rfl, hparts⟩ := hi
  induction hparts with
  | nil => exact Nat.le_refl 0
  | @cons row part rows parts hrow _ ih =>
    obtain ⟨r, rest, rfl, -, -⟩ := hrow
    rw [List.flatten_cons, List.countP_append, List.countP_cons, List.length_cons,
      if_pos (show isLookup (lookup row r) = true from rfl)]
    omega

end Sweep

theorem recoverInflight_sweep : Wp (S := tradeSig) memorySem (fun _ _ => True)
    (fun (x : Except Err Unit) h => ∀ (rows : List RealOrder) rest,
      h = ⟨.orderFindMany [.pendingSubmit, .submitFailed], .ok rows⟩ :: rest → Sweep rows x rest)
    recoverInflight [] := by
  unfold recoverInflight
  refine wp_perform_bind.2 ⟨trivial, ?_⟩
  rintro r h₁ ⟨-, rfl⟩
  cases r with
  | error e =>
    intro rows rest h
    cases h
  | ok rows =>
    refine bindPost_ok.2 (wp_post ?_ (forEach_sweep rows _))
    rintro x h' ⟨h₁, rfl, hsweep⟩ rows' rest h
    cases h
    exact hsweep

/-! ## The property, exactly -/

/-- **The recovery is isolated exactly where no write of the broker's answer is rejected, but that
of the last row**: for every list of rows, and whatever the broker and the database answer. -/
theorem isolated_iff (rows : List RealOrder) (hids : (rows.map RealOrder.id).Nodup)
    (x : Except Err Unit) (h : List (Event tradeSig))
    (hrun : Exec (S := tradeSig) memorySem recoverInflight []
      x (⟨.orderFindMany [.pendingSubmit, .submitFailed], .ok rows⟩ :: h)) :
    Isolated rows h ↔ ∀ row ∈ rows.dropLast, ¬ WriteRejected row h := by
  have hsweep : Sweep rows x h := recoverInflight_sweep.exec hrun rows h rfl
  exact ⟨fun hi => hsweep.written hids hi.looked, hsweep.isolated⟩

/-! ## A sweep that goes on, and one that stops -/

def failedRow (id : String) : RealOrder :=
  { id, tradeIntentId := id, brokerPluginId := "alpaca", clientOrderId := "nt-" ++ id
    brokerOrderId := none, symbol := "SPY", side := .buy, orderType := "market", requestedQty := 1
    limitPrice := none, status := .submitFailed, filledQty := 0, filledAvgPrice := none
    submittedAt := none, filledAt := none, lastReconciledAt := none, error := none }

def acceptedOrder : OrderStatusResult :=
  { brokerOrderId := "b", clientOrderId := none, status := "accepted", filledQty := .fin 0
    filledAvgPrice := none, raw := .null }

theorem rel_outside (op : TradeOp) (r : Except Err op.Ans) (h : List (Event tradeSig))
    (hop : inMemory op = false) : memorySem.rel op h r (h ++ [⟨op, r⟩]) :=
  ⟨fun hmemory => absurd (hop.symm.trans hmemory) Bool.false_ne_true, rfl⟩

theorem rel_memory (op : TradeOp) (a : op.Ans) (h : List (Event tradeSig)) :
    memorySem.rel op h (.ok a) (h ++ [⟨op, .ok a⟩]) := ⟨fun _ => ⟨a, rfl⟩, rfl⟩

/-- The events of a row that the broker has, and whose write has an outcome. -/
def foundEvents (id : String) (r : Except Err RealOrder) : List (Event tradeSig) :=
  [lookup (failedRow id) (.ok (some acceptedOrder)), ⟨.absentCountSet id 0, .ok ()⟩,
    ⟨.orderUpdate id (recoveryPatch acceptedOrder), r⟩]

/-- A lookup that fails does not stop the sweep. -/
theorem failed_lookup_isolated :
    Isolated [failedRow "r1", failedRow "r2"]
      ([lookup (failedRow "r1") (.error uniqueViolation), ⟨.absentCountSet "r1" 0, .ok ()⟩] ++
        foundEvents "r2" (.ok (failedRow "r2"))) := by
  refine (isolated_iff [failedRow "r1", failedRow "r2"] (by decide) (.ok ()) _ ?_).2 ?_
  · exact .await (rel_outside (.orderFindMany _) (.ok [failedRow "r1", failedRow "r2"]) [] rfl)
      (.await (rel_outside (.getOrderByClientId _ _) (.error uniqueViolation) _ rfl)
        (.await (rel_memory (.absentCountSet _ _) () _)
          (.await (rel_outside (.getOrderByClientId _ _) (.ok (some acceptedOrder)) _ rfl)
            (.await (rel_memory (.absentCountSet _ _) () _)
              (.await (rel_outside (.orderUpdate _ _) (.ok (failedRow "r2")) _ rfl)
                (.ret () _))))))
  · rintro row - ⟨b, e, hmem⟩
    have hwritten : (Except.error e : Except Err RealOrder) = .ok (failedRow "r2") :=
      congrArg (fun w => w.2.2) (List.mem_singleton.1 hmem)
    cases hwritten

/-- **A rejected write stops the sweep**: the second row is not looked up. -/
theorem rejected_write_stops : ¬ ∀ (rows : List RealOrder), (rows.map RealOrder.id).Nodup →
    ∀ (x : Except Err Unit) (h : List (Event tradeSig)),
      Exec (S := tradeSig) memorySem recoverInflight []
        x (⟨.orderFindMany [.pendingSubmit, .submitFailed], .ok rows⟩ :: h) →
      Isolated rows h := by
  intro hall
  have hrun : Exec (S := tradeSig) memorySem recoverInflight [] (.error uniqueViolation)
      (⟨.orderFindMany [.pendingSubmit, .submitFailed],
        .ok [failedRow "r1", failedRow "r2"]⟩ :: foundEvents "r1" (.error uniqueViolation)) :=
    .await (rel_outside (.orderFindMany _) (.ok [failedRow "r1", failedRow "r2"]) [] rfl)
      (.await (rel_outside (.getOrderByClientId _ _) (.ok (some acceptedOrder)) _ rfl)
        (.await (rel_memory (.absentCountSet _ _) () _)
          (.await (rel_outside (.orderUpdate _ _) (.error uniqueViolation) _ rfl)
            (.throw _ _))))
  have hlooked := (hall _ (by decide) _ _ hrun).looked
  revert hlooked
  decide

end NeoTrader.Recovery

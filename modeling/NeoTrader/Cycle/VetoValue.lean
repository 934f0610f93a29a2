import NeoTrader.Common.Grouping
import NeoTrader.Cycle.VetoBackfill

/-!
# What the vetoes were worth

Two reports are read off the evaluated decisions: what the veto layer has gained, by comparison with
the trades as they were proposed, and what the proposals of each plugin were worth.

* `gain`, **`getMetrics_law`**: it adds up the profit of what was executed less the one of what was
  proposed, decision by decision;
* **`getPluginValue_law`**: each decision counts for one plugin, and the totals are those of all.
-/

namespace NeoTrader.VetoAnalyzer

open Js

/-! ## The report of the layer -/

/-- The decisions of some time. -/
structure MetricsWindow where
  since : Option ℤ := none
  till : Option ℤ := none

def MetricsWindow.contains (window : MetricsWindow) (ts : ℤ) : Bool :=
  (window.since.all fun t => t ≤ ts) && window.till.all fun t => ts ≤ t

structure VerdictCounts where
  approved : ℕ := 0
  blocked : ℕ := 0
  modified : ℕ := 0

structure VetoMetricsReport where
  netValue : Number := 0
  countsByVerdict : VerdictCounts := {}
  evaluatedCount : ℕ := 0
  unsupportedActionCount : ℕ := 0
  insufficientDataCount : ℕ := 0
  lossesAvoided : Number := 0
  profitsForgone : Number := 0
  byDiscipline : List (String × Number) := []

/-- What the layer has gained by one decision. -/
def contributionFor (row : VetoDecisionRow) (cfPnl : Number) : Number :=
  if row.verdict = "blocked" then cfPnl.neg
  else if row.verdict = "approved" then 0
  else if row.verdict = "modified" then
    let approvedQty := row.approvedQty.getD 0
    let denominator := row.proposedQty.mul (row.refPrice.getD 0)
    if denominator = 0 then 0
    else (((cfPnl.div denominator).mul (row.refPrice.getD 0)).mul approvedQty).sub cfPnl
  else 0

def VerdictCounts.count (counts : VerdictCounts) (verdict : String) : VerdictCounts :=
  if verdict = "approved" then { counts with approved := counts.approved + 1 }
  else if verdict = "blocked" then { counts with blocked := counts.blocked + 1 }
  else if verdict = "modified" then { counts with modified := counts.modified + 1 }
  else counts

/-- An evaluated decision. -/
def VetoMetricsReport.add (report : VetoMetricsReport) (row : VetoDecisionRow) (cfPnl : Number) :
    VetoMetricsReport :=
  let contribution := contributionFor row cfPnl
  { report with
    evaluatedCount := report.evaluatedCount + 1
    netValue := report.netValue.add contribution
    lossesAvoided :=
      if contribution.gt 0 then report.lossesAvoided.add contribution else report.lossesAvoided
    profitsForgone :=
      if contribution.gt 0 then report.profitsForgone
      else if contribution.lt 0 then report.profitsForgone.add contribution
      else report.profitsForgone
    byDiscipline := match row.discipline with
      | some discipline =>
        if discipline = "" then report.byDiscipline
        else Grouping.upsert discipline 0 (fun sum => sum.add contribution) report.byDiscipline
      | none => report.byDiscipline }

/-- **One decision.** -/
def accumulateRow (report : VetoMetricsReport) (row : VetoDecisionRow) : VetoMetricsReport :=
  let report := { report with countsByVerdict := report.countsByVerdict.count row.verdict }
  if row.cfMethod = some "unsupported_action" then
    { report with unsupportedActionCount := report.unsupportedActionCount + 1 }
  else if row.cfMethod = some "insufficient_data" then
    { report with insufficientDataCount := report.insufficientDataCount + 1 }
  else match row.cfPnl with
    | none => report
    | some cfPnl => report.add row cfPnl

/-- The decisions that the report is about. -/
def metricsWhere (window : MetricsWindow) (row : VetoDecisionRow) : Bool :=
  row.cfMethod.isSome && window.contains row.ts

/-- **The report of the layer.** -/
def getMetrics (window : MetricsWindow) (rows : List VetoDecisionRow) : VetoMetricsReport :=
  (rows.filter (metricsWhere window)).foldl accumulateRow {}

/-! ## What it adds up -/

/-- The rational number of a finite one. -/
def amount : Number → ℚ
  | .fin q => q
  | _ => 0

/-- The numbers of a decision are finite, and there is something to trade. -/
structure Solid (row : VetoDecisionRow) : Prop where
  proposed : ∃ q : ℚ, q ≠ 0 ∧ row.proposedQty = .fin q
  approved : ∀ x, row.approvedQty = some x → x.isFinite = true
  value : ∀ x, row.cfPnl = some x → x.isFinite = true

/-- The quantity that was traded in the end. -/
def executedQty (row : VetoDecisionRow) : ℚ :=
  if row.verdict = "blocked" then 0
  else if row.verdict = "modified" then amount (row.approvedQty.getD 0)
  else amount row.proposedQty

/-- The profit of one unit of a decision. -/
def unitPnl (row : VetoDecisionRow) : ℚ := amount (row.cfPnl.getD 0) / amount row.proposedQty

/-- **What a veto has gained**: the profit of what was executed, less the one of what was
proposed. -/
def gain (row : VetoDecisionRow) : ℚ := unitPnl row * (executedQty row - amount row.proposedQty)

section Report

variable {texts : Texts} {h : List (Await.Event vetoSig)} {row : VetoDecisionRow}
  {rows : List VetoDecisionRow} {x : Number}

theorem eq_fin_amount (hx : x.isFinite = true) : x = .fin (amount x) := by
  obtain ⟨q, rfl⟩ := Number.isFinite_iff.1 hx
  rfl

theorem of_validRefPrice {o : Option Number} {q : ℚ} (h : validRefPrice o = some q) :
    0 < q ∧ o = some (.fin q) := by
  unfold validRefPrice at h
  split at h
  · split_ifs at h with hq
    cases h
    exact ⟨hq, rfl⟩
  · cases h

theorem Honest.refPrice (hrow : Honest texts h row.toProposedTrade row.toEvaluation)
    (hx : row.cfPnl = some x) : ∃ q : ℚ, 0 < q ∧ row.refPrice = some (.fin q) := by
  obtain ⟨p, e⟩ := row
  dsimp only at hrow hx ⊢
  cases hrow with
  | unevaluated => cases hx
  | unsupported => cases hx
  | invalid => cases hx
  | insufficient => cases hx
  | evaluated opts now time bars markBar refPrice haction href => exact ⟨refPrice, of_validRefPrice href⟩

/-- **One decision is worth its gain.** -/
theorem contributionFor_eq (hsolid : Solid row) (hx : row.cfPnl = some x) {refPrice : ℚ}
    (hpos : 0 < refPrice) (href : row.refPrice = some (.fin refPrice)) :
    contributionFor row x = .fin (gain row) := by
  obtain ⟨qty, hqty, hproposed⟩ := hsolid.proposed
  have hvalue := eq_fin_amount (hsolid.value x hx)
  have hunit : unitPnl row = amount x / qty := by
    rw [unitPnl, hx, hproposed]
    rfl
  rw [contributionFor, gain, executedQty, hunit, hproposed]
  by_cases hblocked : row.verdict = "blocked"
  · rw [if_pos hblocked, if_pos hblocked, hvalue, Number.neg_fin]
    congr 1
    show -amount x = amount x / qty * (0 - qty)
    rw [zero_sub, mul_neg, div_mul_cancel₀ _ hqty]
  · rw [if_neg hblocked, if_neg hblocked]
    by_cases hmodified : row.verdict = "modified"
    · have happroved : row.verdict ≠ "approved" := by rw [hmodified]; decide
      have hdenominator : qty * refPrice ≠ 0 := mul_ne_zero hqty hpos.ne'
      have hqty' : row.approvedQty.getD 0 = .fin (amount (row.approvedQty.getD 0)) := by
        cases hcase : row.approvedQty with
        | none => rfl
        | some y => exact eq_fin_amount (hsolid.approved y hcase)
      rw [if_neg happroved, if_pos hmodified, if_pos hmodified, href, hvalue]
      dsimp only [Option.getD_some]
      have hne : ¬ (Number.fin qty).mul (.fin refPrice) = 0 := by
        rw [Number.mul_fin]
        exact fun heq => hdenominator (Number.fin.inj heq)
      rw [if_neg hne, Number.mul_fin, Number.div_fin _ hdenominator, Number.mul_fin, hqty',
        Number.mul_fin, Number.sub_fin]
      congr 1
      show amount x / (qty * refPrice) * refPrice * amount (row.approvedQty.getD 0) - amount x =
        amount x / qty * (amount (row.approvedQty.getD 0) - qty)
      field_simp
    · rw [if_neg hmodified, if_neg hmodified, ite_self]
      show Number.fin 0 = .fin (amount x / qty * (qty - qty))
      rw [sub_self, mul_zero]

theorem Honest.cfMethod (hrow : Honest texts h row.toProposedTrade row.toEvaluation)
    (hx : row.cfPnl = some x) : ∃ opts, row.cfMethod = some (buildCfMethod texts opts) := by
  obtain ⟨p, e⟩ := row
  dsimp only at hrow hx ⊢
  cases hrow with
  | unevaluated => cases hx
  | unsupported => cases hx
  | invalid => cases hx
  | insufficient => cases hx
  | evaluated opts => exact ⟨opts, rfl⟩

theorem toList_fixedHorizon : "fixed_horizon:".toList = 'f' :: "ixed_horizon:".toList := by decide

theorem head?_fixedHorizon (a b c : String) :
    ("fixed_horizon:" ++ a ++ ":" ++ b ++ ":costbps" ++ c ++ ":v1").toList.head? = some 'f' := by
  simp only [String.toList_append, List.append_assoc]
  rw [toList_fixedHorizon, List.cons_append, List.head?_cons]

theorem buildCfMethod_ne (opts : ResolvedBackfillOptions) {method : String}
    (hmethod : method.toList.head? ≠ some 'f') : buildCfMethod texts opts ≠ method :=
  fun heq => hmethod (heq ▸ head?_fixedHorizon _ _ _)

/-! ## The tally -/

/-- The decisions that have a value. -/
def evaluated (rows : List VetoDecisionRow) : List VetoDecisionRow :=
  rows.filter fun row => row.cfPnl.isSome

/-- A decision under its discipline. -/
def disciplined (row : VetoDecisionRow) : Option (String × VetoDecisionRow) :=
  match row.discipline with
  | some discipline => if discipline = "" then none else some (discipline, row)
  | none => none

def countVerdicts (rows : List VetoDecisionRow) : VerdictCounts where
  approved := rows.countP fun row => row.verdict = "approved"
  blocked := rows.countP fun row => row.verdict = "blocked"
  modified := rows.countP fun row => row.verdict = "modified"

/-- **What the report says** of some decisions. -/
def tally (rows : List VetoDecisionRow) : VetoMetricsReport where
  netValue := .fin ((evaluated rows).map gain).sum
  countsByVerdict := countVerdicts rows
  evaluatedCount := (evaluated rows).length
  unsupportedActionCount := rows.countP fun row => row.cfMethod = some "unsupported_action"
  insufficientDataCount := rows.countP fun row => row.cfMethod = some "insufficient_data"
  lossesAvoided := .fin ((evaluated rows).map fun row => max (gain row) 0).sum
  profitsForgone := .fin ((evaluated rows).map fun row => min (gain row) 0).sum
  byDiscipline := (Grouping.group ((evaluated rows).filterMap disciplined)).map fun g =>
    (g.1, .fin (g.2.map gain).sum)

theorem countVerdicts_concat (rows : List VetoDecisionRow) (row : VetoDecisionRow) :
    countVerdicts (rows ++ [row]) = (countVerdicts rows).count row.verdict := by
  rw [VerdictCounts.count]
  split_ifs with happroved hblocked hmodified
  · simp [countVerdicts, happroved]
  · simp [countVerdicts, hblocked]
  · simp [countVerdicts, hmodified]
  · simp [countVerdicts, happroved, hblocked, hmodified]

theorem foldl_gain (g : List VetoDecisionRow) (q : ℚ) :
    g.foldl (fun (v : Number) row => v.add (.fin (gain row))) (.fin q) =
      .fin (q + (g.map gain).sum) := by
  induction g generalizing q with
  | nil => simp
  | cons row g ih =>
    rw [List.foldl_cons, Number.add_fin, ih, List.map_cons, List.sum_cons, add_assoc]

theorem upsert_discipline (l : List (String × VetoDecisionRow)) (discipline : String)
    (row : VetoDecisionRow) :
    Grouping.upsert discipline 0 (fun sum => sum.add (.fin (gain row)))
        ((Grouping.group l).map fun g => (g.1, Number.fin (g.2.map gain).sum)) =
      (Grouping.group (l ++ [(discipline, row)])).map fun g => (g.1, .fin (g.2.map gain).sum) := by
  have hgroup : (fun g : String × List VetoDecisionRow => (g.1, Number.fin (g.2.map gain).sum)) =
      Grouping.ofGroup (fun (v : Number) row => v.add (.fin (gain row))) fun _ => 0 := by
    funext g
    rw [Grouping.ofGroup]
    show _ = (g.1, g.2.foldl (fun (v : Number) row => v.add (.fin (gain row))) (.fin 0))
    rw [foldl_gain, zero_add]
  rw [hgroup, Grouping.group_concat, ← Grouping.upsert_map]

theorem losses_snoc (sum q : ℚ) :
    (if (Number.fin q).gt 0 = true then (Number.fin sum).add (.fin q) else .fin sum) =
      .fin (sum + max q 0) := by
  show (if decide (0 < q) = true then _ else _) = _
  simp only [decide_eq_true_eq]
  split_ifs with hq
  · rw [max_eq_left hq.le, Number.add_fin]
  · rw [max_eq_right (not_lt.1 hq), add_zero]

theorem forgone_snoc (sum q : ℚ) :
    (if (Number.fin q).gt 0 = true then Number.fin sum
      else if (Number.fin q).lt 0 = true then (Number.fin sum).add (.fin q) else .fin sum) =
      .fin (sum + min q 0) := by
  show (if decide (0 < q) = true then _ else if decide (q < 0) = true then _ else _) = _
  simp only [decide_eq_true_eq]
  split_ifs with hpos hneg
  · rw [min_eq_right hpos.le, add_zero]
  · rw [min_eq_left hneg.le, Number.add_fin]
  · rw [min_eq_right (not_lt.1 hneg), add_zero]

/-- **One decision more.** -/
theorem accumulateRow_tally {l : List VetoDecisionRow}
    (hrow : Honest texts h row.toProposedTrade row.toEvaluation) (hsolid : Solid row) :
    accumulateRow (tally l) row = tally (l ++ [row]) := by
  have hverdicts := countVerdicts_concat l row
  cases hx : row.cfPnl with
  | none =>
    have hevaluated : evaluated (l ++ [row]) = evaluated l := by
      simp [evaluated, hx]
    rw [accumulateRow, tally, tally, hevaluated, hverdicts, hx]
    split_ifs with hunsupported hinsufficient
    · simp [hunsupported]
    · simp [hinsufficient]
    · simp [hunsupported, hinsufficient]
  | some x =>
    have hevaluated : evaluated (l ++ [row]) = evaluated l ++ [row] := by
      simp [evaluated, hx]
    obtain ⟨opts, hmethod⟩ := hrow.cfMethod hx
    obtain ⟨refPrice, hpos, href⟩ := hrow.refPrice hx
    have hgain := contributionFor_eq hsolid hx hpos href
    have hunsupported : row.cfMethod ≠ some "unsupported_action" := by
      rw [hmethod]
      exact fun heq => buildCfMethod_ne opts (by decide) (Option.some.inj heq)
    have hinsufficient : row.cfMethod ≠ some "insufficient_data" := by
      rw [hmethod]
      exact fun heq => buildCfMethod_ne opts (by decide) (Option.some.inj heq)
    rw [accumulateRow, if_neg hunsupported, if_neg hinsufficient, hx]
    simp only [VetoMetricsReport.add, hgain, tally, hevaluated, hverdicts]
    rw [VetoMetricsReport.mk.injEq]
    refine ⟨?_, rfl, ?_, ?_, ?_, ?_, ?_, ?_⟩
    · rw [Number.add_fin, List.map_append, List.sum_append, List.map_singleton, List.sum_singleton]
    · rw [List.length_append, List.length_singleton]
    · simp [hunsupported]
    · simp [hinsufficient]
    · rw [losses_snoc, List.map_append, List.sum_append, List.map_singleton, List.sum_singleton]
    · rw [forgone_snoc, List.map_append, List.sum_append, List.map_singleton, List.sum_singleton]
    · rw [List.filterMap_append]
      cases hdiscipline : row.discipline with
      | none => simp [disciplined, hdiscipline]
      | some discipline =>
        by_cases hempty : discipline = ""
        · simp [disciplined, hdiscipline, hempty]
        · have hsome : disciplined row = some (discipline, row) := by
            rw [disciplined, hdiscipline]
            exact if_neg hempty
          rw [List.filterMap_cons_some hsome, List.filterMap_nil, ← upsert_discipline]
          exact if_neg hempty

/-- **The report is the tally.** -/
theorem foldl_accumulateRow (hrows : ∀ row ∈ rows,
    Honest texts h row.toProposedTrade row.toEvaluation ∧ Solid row) :
    rows.foldl accumulateRow {} = tally rows := by
  induction rows using List.reverseRecOn with
  | nil => rfl
  | append_singleton l row ih =>
    obtain ⟨hrow, hsolid⟩ := hrows row (List.mem_append_right l (List.mem_singleton_self row))
    rw [List.foldl_append, List.foldl_cons, List.foldl_nil,
      ih fun row' hrow' => hrows row' (List.mem_append_left _ hrow'),
      accumulateRow_tally hrow hsolid]

theorem tally_net (rows : List VetoDecisionRow) :
    (tally rows).netValue = (tally rows).lossesAvoided.add (tally rows).profitsForgone := by
  show Number.fin _ = .fin _
  rw [← List.sum_map_add]
  congr 3
  funext row
  exact (max_add_min (gain row) 0).symm ▸ (add_zero _).symm

/-- **The report of the layer** over a ledger that sweeps and cycles have written, whatever their
order: it adds up the gains of the decisions, those that avoided a loss and those that missed a
profit, each of them once, and under its discipline. -/
theorem getMetrics_law {P : Await.Pool vetoSig VetoCall (Books × List (Await.Event vetoSig))}
    (hr : Await.Pool.Reaches vetoSem.traced (vetoBody texts) Await.Pool.free ⟨({}, []), []⟩ P)
    (hsolid : ∀ row ∈ P.world.1.rows, Solid row) (window : MetricsWindow) :
    getMetrics window P.world.1.rows = tally (P.world.1.rows.filter (metricsWhere window)) ∧
      (getMetrics window P.world.1.rows).netValue =
        (getMetrics window P.world.1.rows).lossesAvoided.add
          (getMetrics window P.world.1.rows).profitsForgone := by
  have htally : getMetrics window P.world.1.rows =
      tally (P.world.1.rows.filter (metricsWhere window)) := by
    have hrows : ∀ row ∈ P.world.1.rows.filter (metricsWhere window),
        Honest texts P.world.2 row.toProposedTrade row.toEvaluation ∧ Solid row := by
      intro row hrow
      have hmem := List.mem_of_mem_filter hrow
      exact ⟨(reaches_honestBooks hr).honest row hmem, hsolid row hmem⟩
    exact foldl_accumulateRow hrows
  rw [htally]
  exact ⟨rfl, tally_net _⟩

end Report

theorem solid_afterFirstSweep :
    ∀ row ∈ (afterFirstSweep.get afterFirstSweep_isSome).world.1.rows, Solid row := by
  intro row hrow
  obtain rfl := List.mem_singleton.1 hrow
  refine ⟨⟨2, by norm_num, rfl⟩, fun x hx => ?_, fun x hx => ?_⟩
  · cases hx
  · cases hx
    rfl

/-- The veto has missed the profit of the blocked trade. -/
theorem getMetrics_afterFirstSweep :
    getMetrics {} (afterFirstSweep.get afterFirstSweep_isSome).world.1.rows =
        tally ((afterFirstSweep.get afterFirstSweep_isSome).world.1.rows.filter (metricsWhere {})) ∧
      (getMetrics {} (afterFirstSweep.get afterFirstSweep_isSome).world.1.rows).netValue =
        (getMetrics {} (afterFirstSweep.get afterFirstSweep_isSome).world.1.rows).lossesAvoided.add
          (getMetrics {} (afterFirstSweep.get afterFirstSweep_isSome).world.1.rows).profitsForgone :=
  getMetrics_law (Await.Pool.traced_of_replay (fun _ _ _ _ _ => trivial)
    (Option.some_get afterFirstSweep_isSome).symm) solid_afterFirstSweep {}

/-! ## The report of the plugins -/

structure PluginValueTotals where
  evaluatedCount : ℕ := 0
  netValue : Number := 0
  wins : ℕ := 0
  winRate : Number := 0
  avgCfPnl : Number := 0

structure PluginValueEntry extends PluginValueTotals where
  sourcePlugin : String

structure PluginValueReport where
  plugins : List PluginValueEntry
  totals : PluginValueTotals

def unknownPluginKey : String := "unknown"

def emptyPluginValueEntry (sourcePlugin : String) : PluginValueEntry := { sourcePlugin }

def PluginValueTotals.finalize (entry : PluginValueTotals) : PluginValueTotals :=
  { entry with
    winRate := if 0 < entry.evaluatedCount then
      (Number.fin entry.wins).div (.fin entry.evaluatedCount) else 0
    avgCfPnl := if 0 < entry.evaluatedCount then
      entry.netValue.div (.fin entry.evaluatedCount) else 0 }

def finalizePluginValueEntry (entry : PluginValueEntry) : PluginValueEntry :=
  { entry with toPluginValueTotals := entry.toPluginValueTotals.finalize }

/-- The plugin of a decision; a blank one is unknown. -/
def pluginKey (row : VetoDecisionRow) : String :=
  if Number.trim row.sourcePlugin.toList = [] then unknownPluginKey else row.sourcePlugin

def PluginValueEntry.add (entry : PluginValueEntry) (cfPnl : Number) : PluginValueEntry :=
  { entry with
    evaluatedCount := entry.evaluatedCount + 1
    netValue := entry.netValue.add cfPnl
    wins := if cfPnl.gt 0 then entry.wins + 1 else entry.wins }

def accumulatePluginRow (byPlugin : List (String × PluginValueEntry)) (row : VetoDecisionRow) :
    List (String × PluginValueEntry) :=
  match row.cfPnl with
  | none => byPlugin
  | some cfPnl => Grouping.upsert (pluginKey row) (emptyPluginValueEntry (pluginKey row))
      (fun entry => entry.add cfPnl) byPlugin

/-- The reasons for which a decision has no value. -/
def terminalNonEvaluatedMethods : List String :=
  ["unsupported_action", "insufficient_data", "invalid_ref_price"]

def pluginValueWhere (window : MetricsWindow) (row : VetoDecisionRow) : Bool :=
  (row.cfMethod.any fun method => method ∉ terminalNonEvaluatedMethods) && window.contains row.ts

/-- An entry is added to the totals. -/
def PluginValueTotals.plus (totals : PluginValueTotals) (entry : PluginValueEntry) :
    PluginValueTotals :=
  { totals with
    evaluatedCount := totals.evaluatedCount + entry.evaluatedCount
    netValue := totals.netValue.add entry.netValue
    wins := totals.wins + entry.wins }

/-- **The report of the plugins**, the best one first. -/
def getPluginValue (window : MetricsWindow) (rows : List VetoDecisionRow) : PluginValueReport :=
  let byPlugin := (rows.filter (pluginValueWhere window)).foldl accumulatePluginRow []
  let plugins := (byPlugin.map fun e => finalizePluginValueEntry e.2).insertionSort fun a b =>
    b.netValue.le a.netValue
  { plugins, totals := (plugins.foldl PluginValueTotals.plus {}).finalize }

/-! ## One plugin for each decision -/

/-- The value of a decision. -/
def pnl (row : VetoDecisionRow) : ℚ := amount (row.cfPnl.getD 0)

/-- What some decisions were worth. -/
def worth (rows : List VetoDecisionRow) : PluginValueTotals where
  evaluatedCount := rows.length
  netValue := .fin (rows.map pnl).sum
  wins := rows.countP fun row => 0 < pnl row

/-- What the decisions of a plugin were worth. -/
def pluginEntry (g : String × List VetoDecisionRow) : PluginValueEntry :=
  { toPluginValueTotals := (worth g.2).finalize, sourcePlugin := g.1 }

def underPlugins (rows : List VetoDecisionRow) : List (String × List VetoDecisionRow) :=
  Grouping.group (rows.map fun row => (pluginKey row, row))

section Plugins

variable {texts : Texts} {row : VetoDecisionRow} {rows : List VetoDecisionRow}

theorem foldl_accumulatePluginRow (rows : List VetoDecisionRow) :
    ∀ byPlugin, rows.foldl accumulatePluginRow byPlugin =
      ((evaluated rows).map fun row => (pluginKey row, row)).foldl (fun byPlugin x =>
        Grouping.upsert x.1 (emptyPluginValueEntry x.1)
          (fun entry => entry.add (x.2.cfPnl.getD 0)) byPlugin) byPlugin := by
  induction rows with
  | nil => exact fun _ => rfl
  | cons row rows ih =>
    intro byPlugin
    cases hx : row.cfPnl with
    | none =>
      have hskip : evaluated (row :: rows) = evaluated rows := by simp [evaluated, hx]
      rw [hskip, ← ih byPlugin, List.foldl_cons, accumulatePluginRow, hx]
    | some x =>
      have hkeep : evaluated (row :: rows) = row :: evaluated rows := by simp [evaluated, hx]
      rw [hkeep, List.foldl_cons, ih, List.map_cons, List.foldl_cons, accumulatePluginRow, hx]
      rfl

theorem foldl_add (k : String) (hfinite : ∀ row ∈ rows, (row.cfPnl.getD 0).isFinite = true) :
    rows.foldl (fun entry row => PluginValueEntry.add entry (row.cfPnl.getD 0))
      (emptyPluginValueEntry k) = { toPluginValueTotals := worth rows, sourcePlugin := k } := by
  induction rows using List.reverseRecOn with
  | nil => rfl
  | append_singleton l row ih =>
    have hrow := eq_fin_amount (hfinite row (List.mem_append_right l (List.mem_singleton_self row)))
    have hwin : (row.cfPnl.getD 0).gt 0 = decide (0 < pnl row) := by
      rw [hrow]
      rfl
    rw [List.foldl_append, List.foldl_cons, List.foldl_nil,
      ih fun row' hrow' => hfinite row' (List.mem_append_left _ hrow'), PluginValueEntry.add, hwin]
    simp only [worth, List.length_append, List.length_singleton, List.map_append, List.map_singleton,
      List.sum_append, List.sum_singleton, List.countP_append, List.countP_singleton]
    rw [hrow, Number.add_fin]
    split_ifs <;> rfl

theorem finalize_entry (hfinite : ∀ row ∈ rows, (row.cfPnl.getD 0).isFinite = true) (k : String) :
    finalizePluginValueEntry (Grouping.ofGroup (fun entry row =>
      PluginValueEntry.add entry (row.cfPnl.getD 0)) emptyPluginValueEntry (k, rows)).2 =
      pluginEntry (k, rows) := by
  rw [Grouping.ofGroup]
  dsimp only
  rw [foldl_add k hfinite]
  rfl

theorem foldl_plus (entries : List PluginValueEntry)
    (hfinite : ∀ e ∈ entries, e.netValue.isFinite = true) :
    entries.foldl PluginValueTotals.plus {} =
      { evaluatedCount := (entries.map fun e => e.evaluatedCount).sum
        netValue := .fin (entries.map fun e => amount e.netValue).sum
        wins := (entries.map fun e => e.wins).sum } := by
  induction entries using List.reverseRecOn with
  | nil => rfl
  | append_singleton l e ih =>
    have he := eq_fin_amount (hfinite e (List.mem_append_right l (List.mem_singleton_self e)))
    rw [List.foldl_append, List.foldl_cons, List.foldl_nil,
      ih fun e' he' => hfinite e' (List.mem_append_left _ he'), PluginValueTotals.plus]
    simp only [List.map_append, List.map_singleton, List.sum_append, List.sum_singleton]
    rw [he, Number.add_fin]
    rfl

theorem isFinite_of_solid (hsolid : ∀ row ∈ rows, Solid row) :
    ∀ row ∈ evaluated rows, (row.cfPnl.getD 0).isFinite = true := by
  intro row hrow
  obtain ⟨hmem, hsome⟩ := List.mem_filter.1 hrow
  obtain ⟨x, hx⟩ := Option.isSome_iff_exists.1 hsome
  rw [hx]
  exact (hsolid row hmem).value x hx

theorem mem_of_underPlugins {g : String × List VetoDecisionRow} (hg : g ∈ underPlugins rows) :
    g.2 ≠ [] ∧ ∀ row ∈ g.2, row ∈ rows := by
  obtain ⟨hne, heq⟩ := Grouping.mem_group_iff.1 (show (g.1, g.2) ∈ underPlugins rows from hg)
  refine ⟨hne, fun row hrow => ?_⟩
  rw [heq] at hrow
  obtain ⟨x, hx, rfl⟩ := List.mem_map.1 hrow
  obtain ⟨row', hrow', rfl⟩ := List.mem_map.1 (List.mem_of_mem_filter hx)
  exact hrow'

theorem entries_eq (hsolid : ∀ row ∈ rows, Solid row) :
    (rows.foldl accumulatePluginRow []).map (fun e => finalizePluginValueEntry e.2) =
      (underPlugins (evaluated rows)).map pluginEntry := by
  have hfinite := isFinite_of_solid hsolid
  rw [foldl_accumulatePluginRow, Grouping.foldl_upsert (fun (entry : PluginValueEntry)
    (row : VetoDecisionRow) => entry.add (row.cfPnl.getD 0)) emptyPluginValueEntry, List.map_map]
  refine List.map_congr_left fun g hg => ?_
  exact finalize_entry (fun row hrow => hfinite row ((mem_of_underPlugins hg).2 row hrow)) g.1

theorem totals_eq (l : List VetoDecisionRow) {entries : List PluginValueEntry}
    (hperm : entries.Perm ((underPlugins l).map pluginEntry)) :
    entries.foldl PluginValueTotals.plus {} = worth l := by
  have hfinite : ∀ e ∈ entries, e.netValue.isFinite = true := by
    intro e he
    obtain ⟨g, -, rfl⟩ := List.mem_map.1 (hperm.subset he)
    rfl
  have hcount : ((underPlugins l).map fun g => g.2.length).sum = l.length := by
    have hsum := Grouping.sum_group (fun _ : VetoDecisionRow => 1)
      (l.map fun row => (pluginKey row, row))
    simpa [underPlugins, Function.comp_def] using hsum
  have hnet : ((underPlugins l).map fun g => (g.2.map pnl).sum).sum = (l.map pnl).sum := by
    have hsum := Grouping.sum_group pnl (l.map fun row => (pluginKey row, row))
    rwa [List.map_map] at hsum
  have hwins : ((underPlugins l).map fun g => g.2.countP fun row => 0 < pnl row).sum =
      l.countP fun row => 0 < pnl row := by
    have hone : ∀ rows : List VetoDecisionRow, (rows.map fun row => if 0 < pnl row then 1 else 0).sum =
        rows.countP fun row => 0 < pnl row := by
      intro rows
      induction rows with
      | nil => rfl
      | cons row rows ih =>
        rw [List.map_cons, List.sum_cons, ih, List.countP_cons, add_comm]
        simp only [decide_eq_true_eq]
    have hsum := Grouping.sum_group (fun row => if 0 < pnl row then 1 else 0)
      (l.map fun row => (pluginKey row, row))
    rw [List.map_map] at hsum
    simp only [hone] at hsum
    exact hsum.trans (hone l)
  rw [foldl_plus entries hfinite, worth, ← hcount, ← hnet, ← hwins]
  rw [(hperm.map fun e => e.evaluatedCount).sum_eq, (hperm.map fun e => amount e.netValue).sum_eq,
    (hperm.map fun e => e.wins).sum_eq, List.map_map, List.map_map, List.map_map]
  rfl

theorem sorted_entries {entries : List PluginValueEntry}
    (hfinite : ∀ e ∈ entries, e.netValue.isFinite = true) :
    (entries.insertionSort fun a b => b.netValue.le a.netValue).Pairwise
      fun a b => amount b.netValue ≤ amount a.netValue := by
  have hle : ∀ a ∈ entries, ∀ b ∈ entries,
      b.netValue.le a.netValue = true ↔ amount a.netValue ≥ amount b.netValue := by
    intro a ha b hb
    rw [eq_fin_amount (hfinite a ha), eq_fin_amount (hfinite b hb), Number.le_fin,
      decide_eq_true_eq]
    exact Iff.rfl
  have hmap := List.map_insertionSort _ (· ≥ ·) (fun e : PluginValueEntry => amount e.netValue)
    entries hle
  have hsorted := List.pairwise_insertionSort (· ≥ ·) (entries.map fun e => amount e.netValue)
  rw [← hmap, List.pairwise_map] at hsorted
  exact hsorted

theorem evaluated_filter {h : List (Await.Event vetoSig)} (window : MetricsWindow)
    (hrows : ∀ row ∈ rows, Honest texts h row.toProposedTrade row.toEvaluation) :
    evaluated (rows.filter (pluginValueWhere window)) =
      evaluated (rows.filter fun row => window.contains row.ts) := by
  rw [evaluated, evaluated, List.filter_filter, List.filter_filter]
  refine List.filter_congr fun row hrow => ?_
  cases hx : row.cfPnl with
  | none => rfl
  | some x =>
    obtain ⟨opts, hmethod⟩ := (hrows row hrow).cfMethod hx
    have hnot : buildCfMethod texts opts ∉ terminalNonEvaluatedMethods := by
      intro hmem
      simp only [terminalNonEvaluatedMethods, List.mem_cons, List.not_mem_nil, or_false] at hmem
      rcases hmem with heq | heq | heq
      · exact buildCfMethod_ne opts (by decide) heq
      · exact buildCfMethod_ne opts (by decide) heq
      · exact buildCfMethod_ne opts (by decide) heq
    rw [pluginValueWhere, hmethod, Option.any_some, decide_eq_true hnot, Bool.true_and]

/-- **The report of the plugins** over a ledger that sweeps and cycles have written, whatever their
order: each decision with a value counts for one plugin, the entries are those of the plugins, the
best one first, and the totals are those of all decisions. -/
theorem getPluginValue_law {P : Await.Pool vetoSig VetoCall (Books × List (Await.Event vetoSig))}
    (hr : Await.Pool.Reaches vetoSem.traced (vetoBody texts) Await.Pool.free ⟨({}, []), []⟩ P)
    (hsolid : ∀ row ∈ P.world.1.rows, Solid row) (window : MetricsWindow) :
    (getPluginValue window P.world.1.rows).plugins.Perm ((underPlugins (evaluated
        (P.world.1.rows.filter fun row => window.contains row.ts))).map pluginEntry) ∧
      (getPluginValue window P.world.1.rows).plugins.Pairwise
        (fun a b => amount b.netValue ≤ amount a.netValue) ∧
      (getPluginValue window P.world.1.rows).totals = (worth (evaluated
        (P.world.1.rows.filter fun row => window.contains row.ts))).finalize := by
  have hcounted : ∀ row ∈ P.world.1.rows.filter (pluginValueWhere window), Solid row :=
    fun row hrow => hsolid row (List.mem_of_mem_filter hrow)
  have hentries := entries_eq hcounted
  rw [evaluated_filter window (reaches_honestBooks hr).honest] at hentries
  have hperm : (getPluginValue window P.world.1.rows).plugins.Perm ((underPlugins (evaluated
      (P.world.1.rows.filter fun row => window.contains row.ts))).map pluginEntry) := by
    rw [getPluginValue, hentries]
    exact List.perm_insertionSort _ _
  refine ⟨hperm, ?_, congrArg PluginValueTotals.finalize (totals_eq _ hperm)⟩
  rw [getPluginValue, hentries]
  exact sorted_entries fun e he => by
    obtain ⟨g, -, rfl⟩ := List.mem_map.1 he
    rfl

end Plugins

theorem getPluginValue_afterFirstSweep :
    (getPluginValue {} (afterFirstSweep.get afterFirstSweep_isSome).world.1.rows).plugins.Perm
        ((underPlugins (evaluated ((afterFirstSweep.get afterFirstSweep_isSome).world.1.rows.filter
          fun row => MetricsWindow.contains {} row.ts))).map pluginEntry) ∧
      (getPluginValue {} (afterFirstSweep.get afterFirstSweep_isSome).world.1.rows).plugins.Pairwise
        (fun a b => amount b.netValue ≤ amount a.netValue) ∧
      (getPluginValue {} (afterFirstSweep.get afterFirstSweep_isSome).world.1.rows).totals =
        (worth (evaluated ((afterFirstSweep.get afterFirstSweep_isSome).world.1.rows.filter
          fun row => MetricsWindow.contains {} row.ts))).finalize :=
  getPluginValue_law (Await.Pool.traced_of_replay (fun _ _ _ _ _ => trivial)
    (Option.some_get afterFirstSweep_isSome).symm) solid_afterFirstSweep {}

end NeoTrader.VetoAnalyzer

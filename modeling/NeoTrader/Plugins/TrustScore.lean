import Mathlib.Data.Option.Basic
import Mathlib.Tactic.Linarith
import NeoTrader.Plugins.Analyzer

/-!
# The trust score of a plugin

The score is the weighted mean of the signals of a plugin that are present: its scan, its smoke test,
its reputation and its votes.

* `normalizeScan`, `normalizeSmoke`, `normalizeVotes`, **`computeTrustScore`**;
* `trustScore_bounded`, **`computeTrustScore_mono`**: the score lies between 0 and 100, and it is
  monotone in each present signal;
* `ReflectsAnalysis`, **`reflects_analysis_iff`**: the score reflects the analyses exactly where the
  scan has no warning and did not fail; **`warning_not_counted`**.
-/

namespace NeoTrader

open Js

/-! ## Signals -/

def penaltyPerWarn : ℚ := 10

/-- What a net vote is worth. -/
def voteStep : ℚ := 5

/-- Between 0 and 100. -/
def clampScore (q : ℚ) : ℚ := max 0 (min 100 q)

/-- `parsed[key]` of a parsed text; reading a field of `null` throws. -/
def parsedField (key : String) : Json → Option (Option Json)
  | .null => none
  | v => some (v.field key)

/-- The elements of a value that may be missing; `filter` of something else throws. -/
def elementsOf : Option Json → Option (List Json)
  | none | some .null => some []
  | some (.arr l) => some l
  | some _ => none

/-- The number of elements with the severity `warning`; a `null` among them throws. -/
def warningCount : List Json → Option ℕ
  | [] => some 0
  | v :: l => do
    let severity ← parsedField "severity" v
    let n ← warningCount l
    return if Json.asString? severity = some "warning" then n + 1 else n

/-- The signal of a stored scan; what throws is excluded. -/
def normalizeScan (scanResult : Option JsonText) : Option ℚ := do
  let parsed ← ← scanResult
  let findings ← elementsOf (← parsedField "findings" parsed)
  let warnCount ← warningCount findings
  return clampScore (100 - penaltyPerWarn * warnCount)

/-- The signal of a stored smoke test; another result is excluded. -/
def normalizeSmoke (smokeResult : Option JsonText) : Option ℚ := do
  let parsed ← ← smokeResult
  match Json.asString? (← parsedField "result" parsed) with
  | some "passed" => some 100
  | some "inconclusive" => some 50
  | some "failed" => some 0
  | _ => none

/-- The signal of the votes, which is always present. -/
def normalizeVotes (votesNet : ℤ) : ℚ := clampScore (50 + voteStep * votesNet)

/-! ## The score -/

structure TrustScoreInput where
  scanResult : Option JsonText
  smokeTestResult : Option JsonText
  reputationScore : Option ℚ
  votesNet : ℤ

structure TrustWeights where
  scan : ℚ
  smoke : ℚ
  reputation : ℚ
  votes : ℚ

/-- The normalized signals. -/
structure TrustInputs where
  scan : Option ℚ
  smoke : Option ℚ
  reputation : Option ℚ
  votes : ℚ
  deriving DecidableEq

structure TrustScoreResult where
  trustScore : Option ℚ
  badge : Bool
  inputs : TrustInputs
  weightsUsed : List (String × ℚ)
  threshold : ℚ

def TrustScoreInput.normalize (plugin : TrustScoreInput) : TrustInputs where
  scan := normalizeScan plugin.scanResult
  smoke := normalizeSmoke plugin.smokeTestResult
  reputation := plugin.reputationScore
  votes := normalizeVotes plugin.votesNet

/-- The sums over the signals so far. -/
structure TrustSums where
  denom : ℚ := 0
  raw : ℚ := 0
  weightsUsed : List (String × ℚ) := []

/-- One signal: its key, its weight and its value. It counts if it is present and has weight. -/
def TrustSums.add (s : TrustSums) (signal : String × ℚ × Option ℚ) : TrustSums :=
  match signal with
  | (_, _, none) => s
  | (key, weight, some value) =>
    if 0 < weight then
      { denom := s.denom + weight, raw := s.raw + weight * value
        weightsUsed := s.weightsUsed ++ [(key, weight)] }
    else s

/-- The signals with their weights. -/
def TrustInputs.signals (n : TrustInputs) (weights : TrustWeights) : List (String × ℚ × Option ℚ) :=
  [("scan", weights.scan, n.scan), ("smoke", weights.smoke, n.smoke),
    ("reputation", weights.reputation, n.reputation), ("votes", weights.votes, some n.votes)]

/-- Rounded to one decimal; a half is rounded up. -/
def roundScore (q : ℚ) : ℚ := ⌊q * 10 + 1 / 2⌋ / 10

def TrustSums.score (s : TrustSums) : Option ℚ :=
  if 0 < s.denom then some (roundScore (clampScore (s.raw / s.denom))) else none

def badgeOf (threshold : ℚ) : Option ℚ → Bool
  | some score => threshold ≤ score
  | none => false

/-- **The trust score of a plugin.** -/
def computeTrustScore (plugin : TrustScoreInput) (weights : TrustWeights) (threshold : ℚ) :
    TrustScoreResult :=
  let inputs := plugin.normalize
  let sums := (inputs.signals weights).foldl TrustSums.add {}
  { trustScore := sums.score
    badge := badgeOf threshold sums.score
    inputs
    weightsUsed := sums.weightsUsed
    threshold }

/-! ## Bounds and monotonicity -/

theorem clampScore_nonneg (q : ℚ) : 0 ≤ clampScore q := le_max_left _ _

theorem clampScore_le (q : ℚ) : clampScore q ≤ 100 :=
  max_le (by norm_num) (min_le_left _ _)

theorem clampScore_mono {q q' : ℚ} (h : q ≤ q') : clampScore q ≤ clampScore q' :=
  max_le_max_left _ (min_le_min_left _ h)

theorem roundScore_mono {q q' : ℚ} (h : q ≤ q') : roundScore q ≤ roundScore q' := by
  have hfloor : ⌊q * 10 + 1 / 2⌋ ≤ ⌊q' * 10 + 1 / 2⌋ := Int.floor_mono (by linarith)
  unfold roundScore
  gcongr

theorem roundScore_zero : roundScore 0 = 0 := by
  norm_num [roundScore]

theorem roundScore_hundred : roundScore 100 = 100 := by
  norm_num [roundScore]

/-- **A score lies between 0 and 100.** -/
theorem trustScore_bounded {plugin : TrustScoreInput} {weights : TrustWeights} {threshold score : ℚ}
    (h : (computeTrustScore plugin weights threshold).trustScore = some score) :
    0 ≤ score ∧ score ≤ 100 := by
  simp only [computeTrustScore, TrustSums.score] at h
  split_ifs at h with hdenom
  cases h
  constructor
  · rw [← roundScore_zero]
    exact roundScore_mono (clampScore_nonneg _)
  · rw [← roundScore_hundred]
    exact roundScore_mono (clampScore_le _)

/-- A present signal that is at most another one. -/
abbrev SignalLe : Option ℚ → Option ℚ → Prop := Option.Rel (· ≤ ·)

theorem SignalLe.refl : ∀ v : Option ℚ, SignalLe v v
  | none => .none
  | some v => .some (le_refl v)

/-- The same signals are present, and none of them is larger. -/
structure TrustInputs.Le (n n' : TrustInputs) : Prop where
  scan : SignalLe n.scan n'.scan
  smoke : SignalLe n.smoke n'.smoke
  reputation : SignalLe n.reputation n'.reputation
  votes : n.votes ≤ n'.votes

/-- The sums have the same weights, and the first is not larger. -/
def TrustSums.Le (s s' : TrustSums) : Prop := s.denom = s'.denom ∧ s.raw ≤ s'.raw

theorem TrustSums.Le.add {s s' : TrustSums} (h : s.Le s') {v v' : Option ℚ} (hv : SignalLe v v')
    (key : String) (weight : ℚ) : (s.add (key, weight, v)).Le (s'.add (key, weight, v')) := by
  cases hv with
  | none => exact h
  | @some v v' hv =>
    simp only [TrustSums.add]
    split_ifs with hweight
    · refine ⟨congrArg (· + weight) h.1, ?_⟩
      have hterm := mul_le_mul_of_nonneg_left hv hweight.le
      exact add_le_add h.2 hterm
    · exact h

theorem TrustSums.Le.signals {s s' : TrustSums} (h : s.Le s') {n n' : TrustInputs} (hn : n.Le n')
    (weights : TrustWeights) :
    ((n.signals weights).foldl TrustSums.add s).Le ((n'.signals weights).foldl TrustSums.add s') :=
  (((h.add hn.scan _ _).add hn.smoke _ _).add hn.reputation _ _).add (.some hn.votes) _ _

theorem TrustSums.Le.score {s s' : TrustSums} (h : s.Le s') : SignalLe s.score s'.score := by
  unfold TrustSums.score
  rw [h.1]
  split_ifs with hdenom
  · refine .some (roundScore_mono (clampScore_mono ?_))
    exact div_le_div_of_nonneg_right h.2 hdenom.le
  · exact .none

/-- **The score is monotone** in each present signal, and so is the badge. -/
theorem computeTrustScore_mono {plugin plugin' : TrustScoreInput} {weights : TrustWeights}
    {threshold : ℚ} (h : plugin.normalize.Le plugin'.normalize) :
    SignalLe (computeTrustScore plugin weights threshold).trustScore
        (computeTrustScore plugin' weights threshold).trustScore ∧
      ((computeTrustScore plugin weights threshold).badge →
        (computeTrustScore plugin' weights threshold).badge) := by
  have hsums : TrustSums.Le {} {} := ⟨rfl, le_refl 0⟩
  have hscore := (hsums.signals h weights).score
  refine ⟨hscore, fun hbadge => ?_⟩
  simp only [computeTrustScore] at hbadge ⊢
  generalize ((plugin.normalize.signals weights).foldl TrustSums.add {}).score = score at *
  generalize ((plugin'.normalize.signals weights).foldl TrustSums.add {}).score = score' at *
  cases hscore with
  | none => exact hbadge
  | some hle => exact decide_eq_true ((of_decide_eq_true hbadge).trans hle)

/-! ## Outcomes of the analyses -/

/-- What a scan has left in the row: nothing, a report of the analyzer, or an error. -/
inductive ScanOutcome
  | absent
  | ran (r : ScanReport) (hr : ∃ py d m, analyzePlugin py d m = .ok r)
  | failed (error : Option String)

/-- What a smoke test has left in the row. -/
inductive SmokeOutcome
  | absent
  | ran (checks : List SmokeCheck)
  | failed (error : Option String)

def ScanOutcome.stored : ScanOutcome → Option JsonText
  | absent => none
  | ran r _ => some (some (scanData (respond (.ok r.toJson))))
  | failed error => some (some (scanData { ok := false, error }))

def SmokeOutcome.stored : SmokeOutcome → Option JsonText
  | absent => none
  | ran checks => some (some (smokeData (respond (.ok (smokeReport checks)))))
  | failed error => some (some (smokeData { ok := false, error }))

/-- The signals of a plugin, with the configuration of the score. -/
structure TrustCase where
  scan : ScanOutcome
  smoke : SmokeOutcome
  reputation : Option ℚ
  votesNet : ℤ
  weights : TrustWeights
  threshold : ℚ

def TrustCase.input (c : TrustCase) : TrustScoreInput :=
  ⟨c.scan.stored, c.smoke.stored, c.reputation, c.votesNet⟩

def TrustCase.result (c : TrustCase) : TrustScoreResult :=
  computeTrustScore c.input c.weights c.threshold

/-! ### Their signals -/

theorem normalizeScan_of {v : Json} {l : List Json} {n : ℕ}
    (hv : parsedField "findings" v = some (some (.arr l))) (hn : warningCount l = some n) :
    normalizeScan (some (some v)) = some (clampScore (100 - penaltyPerWarn * n)) := by
  simp [normalizeScan, hv, elementsOf, hn]

theorem normalizeScan_failed (error : Option String) :
    normalizeScan (ScanOutcome.failed error).stored = some 100 := by
  have hfindings : parsedField "findings" (scanData { ok := false, error }) =
      some (some (.arr [])) := by
    cases error <;> rfl
  rw [ScanOutcome.stored, normalizeScan_of hfindings rfl]
  norm_num [clampScore, penaltyPerWarn]

theorem warningCount_findings (fs : List Finding) : warningCount (fs.map Finding.toJson) =
    some (fs.filter fun f => f.severity = "warning").length := by
  induction fs with
  | nil => rfl
  | cons f fs ih =>
    have hfield : parsedField "severity" f.toJson = some (some (.str f.severity)) := rfl
    rw [List.map_cons, warningCount, hfield, ih, List.filter_cons]
    by_cases hf : f.severity = "warning" <;> simp [hf, Json.asString?]

/-- **No warning of the analyzer is counted.** -/
theorem normalizeScan_ran {r : ScanReport} (hr : ∃ py d m, analyzePlugin py d m = .ok r) :
    normalizeScan (ScanOutcome.ran r hr).stored = some 100 := by
  obtain ⟨py, d, m, han⟩ := hr
  have hnone : (r.findings.filter fun f => f.severity = "warning") = [] := by
    refine List.filter_eq_nil_iff.2 fun f hf => ?_
    rw [severity_of_mem han f hf]
    decide
  have hcount := warningCount_findings r.findings
  rw [hnone] at hcount
  have hfindings : parsedField "findings" (scanData (respond (.ok r.toJson))) =
      some (some (.arr (r.findings.map Finding.toJson))) := rfl
  rw [ScanOutcome.stored, normalizeScan_of hfindings hcount]
  norm_num [clampScore, penaltyPerWarn]

def SmokeStatus.signal : SmokeStatus → ℚ
  | failed => 0
  | inconclusive => 50
  | passed => 100

theorem normalizeSmoke_of {v : Json} {s : SmokeStatus}
    (hv : parsedField "result" v = some (some (.str s.toString))) :
    normalizeSmoke (some (some v)) = some s.signal := by
  cases s <;> simp [normalizeSmoke, hv, Json.asString?, SmokeStatus.toString, SmokeStatus.signal]

theorem normalizeSmoke_failed (error : Option String) :
    normalizeSmoke (SmokeOutcome.failed error).stored = some 50 := by
  refine normalizeSmoke_of (s := .inconclusive) ?_
  cases error <;> rfl

theorem normalizeSmoke_ran (checks : List SmokeCheck) :
    normalizeSmoke (SmokeOutcome.ran checks).stored = some (smokeOverall checks).signal :=
  normalizeSmoke_of rfl

/-! ### Worse outcomes -/

/-- More warnings. -/
inductive ScanOutcome.Worse : ScanOutcome → ScanOutcome → Prop
  | refl (s : ScanOutcome) : Worse s s
  | warnings {r r' hr hr'} : r'.warnCount ≤ r.warnCount → Worse (.ran r hr) (.ran r' hr')

inductive SmokeOutcome.Worse : SmokeOutcome → SmokeOutcome → Prop
  | refl (s : SmokeOutcome) : Worse s s
  | result {checks checks'} : (smokeOverall checks).signal ≤ (smokeOverall checks').signal →
      Worse (.ran checks) (.ran checks')

/-- More warnings, a worse smoke test, a smaller reputation or fewer votes, under the same
configuration. -/
structure TrustCase.Worse (c c' : TrustCase) : Prop where
  scan : c.scan.Worse c'.scan
  smoke : c.smoke.Worse c'.smoke
  reputation : SignalLe c.reputation c'.reputation
  votesNet : c.votesNet ≤ c'.votesNet
  weights : c.weights = c'.weights
  threshold : c.threshold = c'.threshold

/-- A report without a warning. -/
def ScanOutcome.Clean (s : ScanOutcome) : Prop := ∃ r hr, s = .ran r hr ∧ r.warnCount = 0

/-- A smoke test that passed. -/
def SmokeOutcome.Clean (s : SmokeOutcome) : Prop :=
  ∃ checks, s = .ran checks ∧ smokeOverall checks = .passed

/-- A score is not higher than another one. -/
def NotHigher (score score' : Option ℚ) : Prop := ∀ s s', score = some s → score' = some s' → s ≤ s'

/-- **The trust score reflects the analyses.** -/
structure ReflectsAnalysis (c : TrustCase) : Prop where
  bounded : ∀ score, c.result.trustScore = some score → 0 ≤ score ∧ score ≤ 100
  penalty : ∀ r hr, c.scan = .ran r hr →
    c.result.inputs.scan = some (max 0 (100 - 10 * (r.warnCount : ℚ)))
  scanFailed : ∀ error, c.scan = .failed error → ∀ clean : ScanOutcome, clean.Clean →
    c.result.inputs.scan ≠ ({ c with scan := clean } : TrustCase).result.inputs.scan ∧
      NotHigher c.result.trustScore ({ c with scan := clean } : TrustCase).result.trustScore
  smokeFailed : ∀ error, c.smoke = .failed error → ∀ clean : SmokeOutcome, clean.Clean →
    c.result.inputs.smoke ≠ ({ c with smoke := clean } : TrustCase).result.inputs.smoke ∧
      NotHigher c.result.trustScore ({ c with smoke := clean } : TrustCase).result.trustScore
  monotone : ∀ c' : TrustCase, c'.Worse c → SignalLe c'.result.trustScore c.result.trustScore ∧
    (c'.result.badge → c.result.badge)

/-! ## Where the score reflects the analyses -/

theorem NotHigher.of_signalLe {score score' : Option ℚ} (h : SignalLe score score') :
    NotHigher score score' := by
  rintro s s' rfl rfl
  cases h with
  | some hle => exact hle

theorem ScanOutcome.Worse.signalLe {s s' : ScanOutcome} (h : s.Worse s') :
    SignalLe (normalizeScan s.stored) (normalizeScan s'.stored) := by
  cases h with
  | refl => exact .refl _
  | warnings _ =>
    rw [normalizeScan_ran, normalizeScan_ran]
    exact .refl _

theorem SmokeOutcome.Worse.signalLe {s s' : SmokeOutcome} (h : s.Worse s') :
    SignalLe (normalizeSmoke s.stored) (normalizeSmoke s'.stored) := by
  cases h with
  | refl => exact .refl _
  | result hle =>
    rw [normalizeSmoke_ran, normalizeSmoke_ran]
    exact .some hle

theorem normalizeVotes_mono {n n' : ℤ} (h : n ≤ n') : normalizeVotes n ≤ normalizeVotes n' := by
  have hcast : (n : ℚ) ≤ n' := Int.cast_le.2 h
  refine clampScore_mono ?_
  unfold voteStep
  linarith

theorem TrustCase.Worse.inputs {c c' : TrustCase} (h : c.Worse c') :
    c.input.normalize.Le c'.input.normalize where
  scan := h.scan.signalLe
  smoke := h.smoke.signalLe
  reputation := h.reputation
  votes := normalizeVotes_mono h.votesNet

theorem TrustCase.Worse.result {c c' : TrustCase} (h : c.Worse c') :
    SignalLe c.result.trustScore c'.result.trustScore ∧ (c.result.badge → c'.result.badge) := by
  unfold TrustCase.result
  rw [h.weights, h.threshold]
  exact computeTrustScore_mono h.inputs

/-- The report of a directory without files. -/
def emptyReport : ScanReport := ⟨[], 0⟩

theorem emptyReport_analyzed : ∃ py d m, analyzePlugin py d m = .ok emptyReport :=
  ⟨⟨fun _ => .ok [], fun _ => ""⟩, { name := "" }, {}, rfl⟩

theorem smoke_failed_counts_less (c : TrustCase) {error : Option String}
    (hc : c.smoke = .failed error) {clean : SmokeOutcome} (hclean : clean.Clean) :
    c.result.inputs.smoke ≠ ({ c with smoke := clean } : TrustCase).result.inputs.smoke ∧
      NotHigher c.result.trustScore ({ c with smoke := clean } : TrustCase).result.trustScore := by
  obtain ⟨checks, rfl, hpassed⟩ := hclean
  have hfailed : normalizeSmoke c.smoke.stored = some 50 := by
    rw [hc, normalizeSmoke_failed]
  have hpass : normalizeSmoke (SmokeOutcome.ran checks).stored = some 100 := by
    rw [normalizeSmoke_ran, hpassed]
    rfl
  constructor
  · show normalizeSmoke c.smoke.stored ≠ normalizeSmoke (SmokeOutcome.ran checks).stored
    rw [hfailed, hpass]
    norm_num
  · have hle : c.input.normalize.Le
        ({ c with smoke := .ran checks } : TrustCase).input.normalize := by
      refine ⟨.refl _, ?_, .refl _, le_refl _⟩
      show SignalLe (normalizeSmoke c.smoke.stored) (normalizeSmoke (SmokeOutcome.ran checks).stored)
      rw [hfailed, hpass]
      exact .some (by norm_num)
    exact .of_signalLe (computeTrustScore_mono hle).1

/-- **The score reflects the analyses** exactly where the scan, if there is one, ran and reported no
warning. -/
theorem reflects_analysis_iff (c : TrustCase) :
    ReflectsAnalysis c ↔ c.scan = .absent ∨ c.scan.Clean := by
  constructor
  · intro h
    cases hc : c.scan with
    | absent => exact .inl rfl
    | ran r hr =>
      refine .inr ⟨r, hr, rfl, ?_⟩
      have hpenalty := h.penalty r hr hc
      have hscan : c.result.inputs.scan = some 100 := by
        show normalizeScan c.scan.stored = some 100
        rw [hc, normalizeScan_ran]
      rw [hscan, Option.some_inj] at hpenalty
      by_contra hne
      have hpos : (1 : ℚ) ≤ r.warnCount := by exact_mod_cast Nat.one_le_iff_ne_zero.2 hne
      rcases max_choice (0 : ℚ) (100 - 10 * r.warnCount) with hmax | hmax
      · rw [hmax] at hpenalty
        norm_num at hpenalty
      · rw [hmax] at hpenalty
        linarith
    | failed error =>
      have hclean : (ScanOutcome.ran emptyReport emptyReport_analyzed).Clean := ⟨_, _, rfl, rfl⟩
      refine absurd ?_ (h.scanFailed error hc _ hclean).1
      show normalizeScan c.scan.stored = normalizeScan (ScanOutcome.ran emptyReport emptyReport_analyzed).stored
      rw [hc, normalizeScan_failed, normalizeScan_ran]
  · intro hc
    refine ⟨fun _ => trustScore_bounded, ?_, ?_, fun _ hfailed _ => smoke_failed_counts_less c hfailed,
      fun _ hworse => hworse.result⟩
    · intro r hr hran
      have hnone : r.warnCount = 0 := by
        rcases hc with habsent | ⟨r', hr', hran', hnone⟩
        · rw [hran] at habsent
          cases habsent
        · rw [hran] at hran'
          cases hran'
          exact hnone
      show normalizeScan c.scan.stored = _
      rw [hran, normalizeScan_ran, hnone]
      norm_num
    · intro error hfailed
      rcases hc with habsent | ⟨r', hr', hran', -⟩
      · rw [hfailed] at habsent
        cases habsent
      · rw [hfailed] at hran'
        cases hran'

/-! ## A warning that does not count -/

def subprocessPlugin : Directory where
  name := "shell-runner"
  files := [(["plugin.py"], some [0x69])]

def subprocessPython : PythonLib where
  parse _ := .ok [.importNames ["subprocess"] 1]
  osError _ := ""

theorem subprocessPlugin_warned : (analyzePlugin subprocessPython subprocessPlugin {}).toOption.map
    ScanReport.warnCount = some 1 := by
  decide

/-- **A plugin that the analyzer warns of has the scan signal of a clean one.** -/
theorem warning_not_counted : ¬ ∀ c : TrustCase, ReflectsAnalysis c := by
  intro hall
  obtain ⟨r, hr, hwarn⟩ := Option.map_eq_some_iff.1 subprocessPlugin_warned
  have hran : ∃ py d m, analyzePlugin py d m = .ok r := by
    refine ⟨subprocessPython, subprocessPlugin, {}, ?_⟩
    cases hx : analyzePlugin subprocessPython subprocessPlugin {} with
    | error e =>
      rw [hx] at hr
      cases hr
    | ok r' =>
      rw [hx] at hr
      exact congrArg _ (Option.some.inj hr)
  have hpenalty := (hall ⟨.ran r hran, .absent, none, 0, ⟨1, 1, 1, 1⟩, 80⟩).penalty r hran rfl
  have hscan : normalizeScan (ScanOutcome.ran r hran).stored = some 100 := normalizeScan_ran hran
  rw [hwarn] at hpenalty
  refine absurd (hscan.symm.trans hpenalty) ?_
  norm_num

end NeoTrader

import Mathlib.Data.List.Induction
import NeoTrader.Disciplines.CalendarGuard

/-!
# The aggregator of signals

The signals of a symbol vote, and one signal with the side that wins takes their place.

* **`aggregatorOnCycle`**: the hook; **`aggregator_spec`**: what it answers with.

A symbol is a text. The logs are left out.
-/

namespace NeoTrader

open Js Py

/-! ## Votes -/

inductive VoteSide
  | long | short | exit
  deriving DecidableEq

def VoteSide.toText : VoteSide → String
  | .long => "long"
  | .short => "short"
  | .exit => "exit"

/-- `_normalize_action`; `none` is neutral. -/
def normalizeAction (action : String) : Option VoteSide :=
  let action := action.toLower
  if action ∈ ["long", "buy", "long_spread", "enter_long"] then some .long
  else if action ∈ ["short", "sell", "short_spread", "enter_short"] then some .short
  else if action ∈ ["exit", "close", "exit_long", "exit_short", "stop", "flatten"] then some .exit
  else none

structure Vote where
  sig : Obj
  symbol : String
  side : VoteSide
  conf : ℚ

/-- The vote of a signal, if it has one. -/
def voteOf (config sig : Obj) : Except String (Option Vote) :=
  let symbol := getD sig "symbol" (.str "")
  if truthy symbol then
    match getD sig "action" (.str "") with
    | .str action =>
      match normalizeAction action with
      | none => .ok none
      | some side => do
        let conf ← floatField sig "confidence" 0
        if conf < (← numberField config "min_confidence" (3 / 5)) then return none
        return some ⟨sig, ← textField sig "symbol" "", side, conf⟩
    | _ => .error "AttributeError: object has no attribute 'lower'"
  else .ok none

def votesOf (config : Obj) : List Obj → Except String (List Vote) := collect (voteOf config)

/-- The votes by their symbol. -/
def bySymbol (votes : List Vote) : Dict (List Vote) :=
  votes.foldl (fun groups v =>
    Dict.set v.symbol ((Dict.get? groups v.symbol).getD [] ++ [v]) groups) []

/-! ## What they come to -/

/-- `l[:stop]`. -/
def sliceTo {α : Type} (stop : Json) (l : List α) : Except String (List α) :=
  match stop with
  | .null => .ok l
  | v => do
    let n ← wholeNumber v
    return l.take (if 0 ≤ n then n else l.length + n).toNat

/-- The most confident votes. -/
def topVotes (config : Obj) (votes : List Vote) : Except String (List Vote) :=
  sliceTo (getD config "max_signals_per_symbol" (.num 10))
    (votes.mergeSort fun a b => b.conf ≤ a.conf)

def weightOf (byConfidence : Bool) (side : VoteSide) (votes : List Vote) : ℚ :=
  ((votes.filter fun v => v.side = side).map fun v => if byConfidence then v.conf else 1).sum

structure VoteTally where
  long : ℚ
  short : ℚ
  exit : ℚ

def tallyOf (config : Obj) (votes : List Vote) : VoteTally :=
  let byConfidence := flagField config "weight_by_confidence" true
  ⟨weightOf byConfidence .long votes, weightOf byConfidence .short votes,
    weightOf byConfidence .exit votes⟩

namespace VoteTally

def total (t : VoteTally) : ℚ := t.long + t.short + t.exit

def of (t : VoteTally) : VoteSide → ℚ
  | .long => t.long
  | .short => t.short
  | .exit => t.exit

/-- **The side that wins.** -/
def winner (t : VoteTally) : VoteSide :=
  if t.long < t.exit ∧ t.short < t.exit then .exit
  else if t.short ≤ t.long then .long
  else .short

/-- How much of the vote the winner has, in percent. -/
def agreement (t : VoteTally) : ℚ := t.of t.winner / t.total * 100

def conflict (t : VoteTally) : Bool := 0 < t.long ∧ 0 < t.short

end VoteTally

structure Consensus where
  symbol : String
  action : VoteSide
  confidence : ℚ
  tally : VoteTally
  agreementPct : ℚ
  votes : List Vote

/-- The confidence in a side that wins. -/
def consensusConfidence (t : VoteTally) (top : List Vote) : ℚ :=
  let confs := (top.filter fun v => v.side = t.winner).map Vote.conf
  let conf := if confs.isEmpty then t.of t.winner / top.length else confs.sum / confs.length
  roundTo 3 (if t.conflict then roundTo 3 (conf * (17 / 20)) else conf)

/-- **The consensus on a symbol**, if there is one. -/
def consensusOf (config : Obj) (symbol : String) (votes : List Vote) :
    Except String (Option Consensus) := do
  let top ← topVotes config votes
  if (top.length : ℚ) < (← numberField config "require_min_signals" 2) then return none
  let t := tallyOf config top
  if t.total = 0 then return none
  if t.conflict ∧ isText (getD config "conflict_resolution" (.str "skip")) "skip" ∧ t.winner ≠ .exit then
    return none
  if t.agreement < (← numberField config "min_agreement_pct" 60) then return none
  return some ⟨symbol, t.winner, consensusConfidence t top, t, roundTo 1 t.agreement, top⟩

def consensuses (config : Obj) : Dict (List Vote) → Except String (List Consensus) :=
  collect fun g => consensusOf config g.1 g.2

/-- `aggregate_signals`: the most confident first. -/
def aggregateSignals (config : Obj) (signals : List Obj) : Except String (List Consensus) := do
  let votes ← votesOf config signals
  let results ← consensuses config (bySymbol votes)
  return results.mergeSort fun a b => b.confidence ≤ a.confidence

/-! ## The hook -/

/-- The plugin that a vote is from, or its type. -/
def sourceOf (sig : Obj) : Except String String :=
  let pluginId := getD sig "plugin_id" .null
  match if truthy pluginId then pluginId else getD sig "type" (.str "unknown") with
  | .str s => .ok s
  | _ => .error "TypeError: expected str instance"

def consensusSignal (c : Consensus) : Except String Obj := do
  let sources ← c.votes.mapM fun v => sourceOf v.sig
  let sources := sources.foldl (fun l s => if s ∈ l then l else l ++ [s]) []
  return [("type", .str "consensus_signal"), ("symbol", .str c.symbol),
    ("action", .str c.action.toText), ("confidence", .num (.fin c.confidence)),
    ("agreement_pct", .num (.fin c.agreementPct)),
    ("vote_long", .num (.fin (roundTo 3 c.tally.long))),
    ("vote_short", .num (.fin (roundTo 3 c.tally.short))),
    ("contributing_signals", .num (.fin c.votes.length)), ("sources", .arr (sources.map .str))]

def specialTypes : List String := ["pairs_signal", "pead_signal", "pyramid_add"]

/-- A signal that is passed through, whatever the vote. -/
def isSpecial (sig : Obj) : Bool := specialTypes.any fun t => isText (getD sig "type" .null) t

/-- A type is looked up in a set. -/
def hashable : Json → Bool
  | .arr _ | .obj _ => false
  | _ => true

def passThrough (signals : List Obj) : Except String (List Obj) :=
  if signals.all fun s => hashable (getD s "type" .null) then .ok (signals.filter isSpecial)
  else .error "TypeError: unhashable type"

/-- **The hook of the aggregator.** -/
def aggregatorOnCycle (ctx : Obj) : Except String (List Obj) := do
  let signals ← pendingOf ctx
  let config ← asDict (getD ctx "config" (.obj []))
  if signals.isEmpty then return []
  let consensus ← aggregateSignals config signals
  let special ← passThrough signals
  return (← consensus.mapM consensusSignal) ++ special

/-! ## The votes of a symbol -/

def votesFor (symbol : String) (votes : List Vote) : List Vote :=
  votes.filter fun v => v.symbol = symbol

theorem bySymbol_append (votes : List Vote) (v : Vote) : bySymbol (votes ++ [v]) =
    Dict.set v.symbol ((Dict.get? (bySymbol votes) v.symbol).getD [] ++ [v]) (bySymbol votes) := by
  unfold bySymbol
  rw [List.foldl_append]
  rfl

theorem nodup_bySymbol (votes : List Vote) : ((bySymbol votes).map Prod.fst).Nodup := by
  induction votes using List.reverseRecOn with
  | nil => exact List.nodup_nil
  | append_singleton votes v ih =>
    rw [bySymbol_append]
    exact Dict.nodup_keys_set ih _ _

theorem bySymbol_get? (votes : List Vote) (symbol : String) : Dict.get? (bySymbol votes) symbol =
    if votesFor symbol votes = [] then none else some (votesFor symbol votes) := by
  induction votes using List.reverseRecOn with
  | nil => rfl
  | append_singleton votes v ih =>
    rw [bySymbol_append, votesFor, List.filter_append]
    by_cases h : v.symbol = symbol
    · have hgroup : (Dict.get? (bySymbol votes) symbol).getD [] = votesFor symbol votes := by
        rw [ih]
        by_cases hnil : votesFor symbol votes = []
        · rw [if_pos hnil, hnil]
          rfl
        · rw [if_neg hnil]
          rfl
      rw [h, Dict.get?_set_self, hgroup]
      simp [votesFor, h]
    · rw [Dict.get?_set_of_ne _ (Ne.symm h), ih]
      simp [votesFor, h]

/-- **The votes by their symbol** are all the votes of each. -/
theorem mem_bySymbol (votes : List Vote) (symbol : String) (vs : List Vote) :
    (symbol, vs) ∈ bySymbol votes ↔ vs ≠ [] ∧ vs = votesFor symbol votes := by
  constructor
  · intro h
    have hget := Dict.get?_eq_some_of_mem (nodup_bySymbol votes) h
    rw [bySymbol_get?] at hget
    split at hget
    · cases hget
    · cases hget
      exact ⟨‹_›, rfl⟩
  · rintro ⟨hne, rfl⟩
    exact Dict.mem_of_get?_eq_some (by rw [bySymbol_get?, if_neg hne])

/-- **The results** are the consensuses of the symbols with a vote. -/
theorem mem_aggregateSignals {config : Obj} {signals : List Obj} {results : List Consensus}
    (h : aggregateSignals config signals = .ok results) (c : Consensus) : c ∈ results ↔
      ∃ votes, votesOf config signals = .ok votes ∧ ∃ symbol, votesFor symbol votes ≠ [] ∧
        consensusOf config symbol (votesFor symbol votes) = .ok (some c) := by
  obtain ⟨votes, hvotes, h⟩ := bind_eq_ok.1 h
  obtain ⟨cs, hcs, h⟩ := bind_eq_ok.1 h
  cases h
  rw [List.mem_mergeSort, mem_collect hcs]
  constructor
  · rintro ⟨⟨symbol, vs⟩, hmem, hc⟩
    obtain ⟨hne, rfl⟩ := (mem_bySymbol votes symbol vs).1 hmem
    exact ⟨votes, hvotes, symbol, hne, hc⟩
  · rintro ⟨votes', hvotes', symbol, hne, hc⟩
    cases hvotes.symm.trans hvotes'
    exact ⟨_, (mem_bySymbol votes symbol _).2 ⟨hne, rfl⟩, hc⟩

/-! ## The vote -/

structure ComesFrom (config : Obj) (symbol : String) (votes : List Vote) (c : Consensus) : Prop where
  symbol : c.symbol = symbol
  top : topVotes config votes = .ok c.votes
  required : ∃ required, numberField config "require_min_signals" 2 = .ok required ∧
    required ≤ c.votes.length
  total : (tallyOf config c.votes).total ≠ 0
  winner : c.action = (tallyOf config c.votes).winner
  agreement : ∃ minAgreement, numberField config "min_agreement_pct" 60 = .ok minAgreement ∧
    minAgreement ≤ (tallyOf config c.votes).agreement

theorem comesFrom_of_consensus {config : Obj} {symbol : String} {votes : List Vote} {c : Consensus}
    (h : consensusOf config symbol votes = .ok (some c)) : ComesFrom config symbol votes c := by
  obtain ⟨top, htop, h⟩ := bind_eq_ok.1 h
  obtain ⟨required, hrequired, h⟩ := bind_eq_ok.1 h
  split at h
  · cases h
  · dsimp only at h
    split at h
    · cases h
    · split at h
      · cases h
      · obtain ⟨minAgreement, hmin, h⟩ := bind_eq_ok.1 h
        split at h
        · cases h
        · cases h
          exact ⟨rfl, htop, ⟨required, hrequired, not_lt.1 ‹_›⟩, ‹_›, rfl, minAgreement, hmin,
            not_lt.1 ‹_›⟩

theorem winner_eq_exit_iff (t : VoteTally) :
    t.winner = .exit ↔ t.long < t.exit ∧ t.short < t.exit := by
  unfold VoteTally.winner
  by_cases h : t.long < t.exit ∧ t.short < t.exit
  · rw [if_pos h]
    exact ⟨fun _ => h, fun _ => rfl⟩
  · rw [if_neg h]
    refine ⟨fun hw => ?_, fun hw => absurd hw h⟩
    split at hw <;> cases hw

end NeoTrader

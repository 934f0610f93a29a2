import NeoTrader.Disciplines.Aggregator
import NeoTrader.Py.Batch
import Mathlib.Data.List.Forall2

/-!
# The vote of the aggregator

A vote is fair if it does not depend on the order of the ballots, if no side is favoured, and if the
side that wins has the most votes.

* `passes`, `consensusFor`, **`consensusOf_eq`**: a consensus is told from the votes that are kept;
* **`fairVote`**: what is fair of the vote.
-/

namespace NeoTrader.FairVote

open Js Py

/-! ## A consensus from the votes that are kept -/

variable {config : Obj} {symbol : String} {votes votes' top top' : List Vote} {t : VoteTally}

/-- The tests that a vote has to pass. -/
def passes (config : Obj) (len : ℕ) (t : VoteTally) : Except String Bool := do
  if (len : ℚ) < (← numberField config "require_min_signals" 2) then return false
  if t.total = 0 then return false
  if t.conflict ∧ isText (getD config "conflict_resolution" (.str "skip")) "skip" ∧
      t.winner ≠ .exit then
    return false
  if t.agreement < (← numberField config "min_agreement_pct" 60) then return false
  return true

/-- What a vote that passes comes to. -/
def consensusFor (config : Obj) (symbol : String) (top : List Vote) : Consensus :=
  let t := tallyOf config top
  ⟨symbol, t.winner, consensusConfidence t top, t, roundTo 1 t.agreement, top⟩

/-- **A consensus is told from the votes that are kept.** -/
theorem consensusOf_eq : consensusOf config symbol votes = (do
    let top ← topVotes config votes
    let passed ← passes config top.length (tallyOf config top)
    return if passed then some (consensusFor config symbol top) else none) := by
  rw [consensusOf]
  congr 1
  funext top
  rw [passes]
  cases numberField config "require_min_signals" 2 with
  | error e => rfl
  | ok required =>
    show (if _ then _ else _) = Except.bind (if _ then _ else _) _
    split_ifs
    · rfl
    · rfl
    · rfl
    · cases numberField config "min_agreement_pct" 60 with
      | error e => rfl
      | ok minAgreement =>
        show (if _ then _ else _) = Except.bind (if _ then _ else _) _
        split_ifs <;> rfl

/-! ## The votes that are kept -/

/-- `len(l[:stop])`. -/
def keptOf (stop : Json) (len : ℕ) : Except String ℕ :=
  match stop with
  | .null => .ok len
  | v => do
    let n ← wholeNumber v
    return (if 0 ≤ n then n else len + n).toNat

/-- How many of a number of votes are kept. -/
def kept (config : Obj) (len : ℕ) : Except String ℕ :=
  keptOf (getD config "max_signals_per_symbol" (.num 10)) len

theorem sliceTo_eq {α : Type} (stop : Json) (l : List α) :
    sliceTo stop l = (keptOf stop l.length).map fun n => l.take n := by
  have hwhole : ∀ v : Json, (do
      let n ← wholeNumber v
      return l.take (if 0 ≤ n then n else l.length + n).toNat) = Except.map (fun n => l.take n)
        (do
          let n ← wholeNumber v
          return (if 0 ≤ n then n else l.length + n).toNat) := by
    intro v
    cases wholeNumber v <;> rfl
  cases stop with
  | null => exact congrArg Except.ok (List.take_length).symm
  | bool b => exact hwhole _
  | num n => exact hwhole _
  | str s => exact hwhole _
  | arr l => exact hwhole _
  | obj fields => exact hwhole _

/-- The votes, the most confident first. -/
def byConfidence (votes : List Vote) : List Vote :=
  votes.mergeSort fun a b => b.conf ≤ a.conf

theorem topVotes_eq : topVotes config votes =
    (kept config votes.length).map fun n => (byConfidence votes).take n := by
  rw [topVotes, sliceTo_eq, List.length_mergeSort]
  rfl

/-- **No vote that is left out is as confident as one that is kept.** -/
def CleanCut (config : Obj) (votes : List Vote) : Prop :=
  ∀ n, kept config votes.length = .ok n →
    votes.length ≤ n ∨ ∃ q, (votes.countP fun v => q ≤ v.conf) = n

theorem byConfidence_sorted (votes : List Vote) :
    (byConfidence votes).Pairwise fun a b => b.conf ≤ a.conf := by
  have h : (byConfidence votes).Pairwise fun a b => decide (b.conf ≤ a.conf) = true :=
    List.pairwise_mergeSort
      (fun a b c hab hbc => decide_eq_true ((of_decide_eq_true hbc).trans (of_decide_eq_true hab)))
      (fun a b => by
        rw [Bool.or_eq_true, decide_eq_true_eq, decide_eq_true_eq]
        exact le_total b.conf a.conf) votes
  exact h.imp fun hab => of_decide_eq_true hab

theorem take_countP {q : ℚ} (h : votes.Pairwise fun a b => b.conf ≤ a.conf) :
    votes.take (votes.countP fun v => q ≤ v.conf) = votes.filter fun v => q ≤ v.conf := by
  induction votes with
  | nil => rfl
  | cons v votes ih =>
    obtain ⟨hv, hrest⟩ := List.pairwise_cons.1 h
    by_cases hq : q ≤ v.conf
    · rw [List.countP_cons_of_pos (by simpa using hq), List.filter_cons_of_pos (by simpa using hq),
        List.take_succ_cons, ih hrest]
    · have hnone : ∀ w ∈ v :: votes, ¬ q ≤ w.conf := by
        intro w hw hle
        rcases List.mem_cons.1 hw with rfl | hw
        · exact hq hle
        · exact hq (hle.trans (hv w hw))
      rw [List.countP_eq_zero.2 fun w hw => by simpa using hnone w hw,
        List.filter_eq_nil_iff.2 fun w hw => by simpa using hnone w hw, List.take_zero]

/-- **The votes that are kept do not depend on the order**, where the cut is clean. -/
theorem topVotes_perm (h : CleanCut config votes) (hperm : votes.Perm votes')
    (htop : topVotes config votes = .ok top) :
    ∃ top', topVotes config votes' = .ok top' ∧ top.Perm top' := by
  rw [topVotes_eq] at htop ⊢
  rw [← hperm.length_eq]
  cases hn : kept config votes.length with
  | error e => rw [hn] at htop; cases htop
  | ok n =>
    rw [hn] at htop
    cases htop
    refine ⟨_, rfl, ?_⟩
    show ((byConfidence votes).take n).Perm ((byConfidence votes').take n)
    have hsorted : (byConfidence votes).Perm votes := List.mergeSort_perm _ _
    have hsorted' : (byConfidence votes').Perm votes' := List.mergeSort_perm _ _
    rcases h n hn with hle | ⟨q, hq⟩
    · rw [List.take_of_length_le (by rw [hsorted.length_eq]; exact hle),
        List.take_of_length_le (by rw [hsorted'.length_eq, ← hperm.length_eq]; exact hle)]
      exact hsorted.trans (hperm.trans hsorted'.symm)
    · have hcount : ((byConfidence votes).countP fun v => q ≤ v.conf) = n :=
        (hsorted.countP_eq _).trans hq
      have hcount' : ((byConfidence votes').countP fun v => q ≤ v.conf) = n :=
        (hsorted'.countP_eq _).trans ((hperm.countP_eq _).symm.trans hq)
      have htake := take_countP (q := q) (byConfidence_sorted votes)
      have htake' := take_countP (q := q) (byConfidence_sorted votes')
      rw [hcount] at htake
      rw [hcount'] at htake'
      rw [htake, htake']
      exact ((hsorted.trans (hperm.trans hsorted'.symm)).filter _)

theorem weightOf_perm (b : Bool) (side : VoteSide) (h : top.Perm top') :
    weightOf b side top = weightOf b side top' := ((h.filter _).map _).sum_eq

theorem tallyOf_perm (h : top.Perm top') : tallyOf config top = tallyOf config top' := by
  simp only [tallyOf, weightOf_perm _ _ h]

theorem consensusFor_perm (h : top.Perm top') : consensusFor config symbol top' =
    { consensusFor config symbol top with votes := top' } := by
  have hconfs := (h.filter fun v => v.side = (tallyOf config top).winner).map Vote.conf
  have hempty : ((top.filter fun v => v.side = (tallyOf config top).winner).map
      Vote.conf).isEmpty = ((top'.filter fun v => v.side = (tallyOf config top).winner).map
      Vote.conf).isEmpty := by
    rw [Bool.eq_iff_iff, List.isEmpty_iff, List.isEmpty_iff, ← List.length_eq_zero_iff,
      hconfs.length_eq, List.length_eq_zero_iff]
  simp only [consensusFor, consensusConfidence, ← tallyOf_perm h, hempty, hconfs.sum_eq,
    hconfs.length_eq, h.length_eq]

/-! ## Long and short exchanged -/

def exchange : VoteSide → VoteSide
  | .long => .short
  | .short => .long
  | .exit => .exit

@[simp] theorem exchange_exchange (side : VoteSide) : exchange (exchange side) = side := by
  cases side <;> rfl

theorem exchange_eq_iff {side side' : VoteSide} :
    exchange side = side' ↔ side = exchange side' := by
  cases side <;> cases side' <;> decide

def exchangeTally (t : VoteTally) : VoteTally := ⟨t.short, t.long, t.exit⟩

theorem of_exchange (t : VoteTally) (side : VoteSide) :
    (exchangeTally t).of (exchange side) = t.of side := by
  cases side <;> rfl

theorem total_exchange (t : VoteTally) : (exchangeTally t).total = t.total := by
  show t.short + t.long + t.exit = t.long + t.short + t.exit
  ring

/-- Long and short have as much, and an exit has no more. -/
def Tied (t : VoteTally) : Prop := t.long = t.short ∧ t.exit ≤ t.long

instance : Decidable (Tied t) := inferInstanceAs (Decidable (_ ∧ _))

theorem winner_of_tied (h : Tied t) : t.winner = .long := by
  rw [VoteTally.winner, if_neg fun hexit => absurd hexit.1 (not_lt.2 h.2), if_pos h.1.ge]

theorem tied_exchange (h : Tied t) : exchangeTally t = t := by
  rw [exchangeTally, ← h.1]
  nth_rewrite 2 [h.1]
  rfl

theorem winner_exchange (h : ¬ Tied t) : (exchangeTally t).winner = exchange t.winner := by
  rw [VoteTally.winner, VoteTally.winner]
  show (if t.short < t.exit ∧ t.long < t.exit then VoteSide.exit
    else if t.long ≤ t.short then .long else .short) = _
  by_cases hexit : t.long < t.exit ∧ t.short < t.exit
  · rw [if_pos hexit, if_pos hexit.symm]
    rfl
  · rw [if_neg hexit, if_neg fun hback => hexit hback.symm]
    by_cases hle : t.short ≤ t.long
    · have hlt : t.short < t.long := by
        refine lt_of_le_of_ne hle fun heq => h ⟨heq.symm, ?_⟩
        rw [heq, and_self, not_lt] at hexit
        exact hexit
      rw [if_pos hle, if_neg (not_le.2 hlt)]
      rfl
    · rw [if_neg hle, if_pos (not_le.1 hle).le]
      rfl

theorem agreement_exchange (t : VoteTally) : (exchangeTally t).agreement = t.agreement := by
  by_cases h : Tied t
  · rw [tied_exchange h]
  · rw [VoteTally.agreement, winner_exchange h, of_exchange, total_exchange, VoteTally.agreement]

theorem conflict_exchange (t : VoteTally) : (exchangeTally t).conflict = t.conflict := by
  simp only [VoteTally.conflict, exchangeTally, and_comm]

theorem exit_exchange (t : VoteTally) : (exchangeTally t).winner = .exit ↔ t.winner = .exit := by
  rw [winner_eq_exit_iff, winner_eq_exit_iff]
  exact and_comm

/-- **A vote passes when it does with long and short exchanged.** -/
theorem passes_exchange (config : Obj) (len : ℕ) (t : VoteTally) :
    passes config len (exchangeTally t) = passes config len t := by
  simp only [passes, total_exchange, conflict_exchange, agreement_exchange, ne_eq, exit_exchange]

/-! ## Signals exchanged -/

/-- An action for the other side. -/
def ExchangedAction : Json → Json → Prop
  | .str action, .str action' => normalizeAction action' = (normalizeAction action).map exchange
  | v, v' => v' = v

/-- A signal for the other side. -/
structure Exchanged (sig sig' : Obj) : Prop where
  symbol : sig'.get "symbol" = sig.get "symbol"
  action : ExchangedAction (getD sig "action" (.str "")) (getD sig' "action" (.str ""))
  confidence : sig'.get "confidence" = sig.get "confidence"
  plugin_id : sig'.get "plugin_id" = sig.get "plugin_id"
  type : sig'.get "type" = sig.get "type"

/-- A vote for the other side. -/
structure VoteExchanged (v v' : Vote) : Prop where
  symbol : v'.symbol = v.symbol
  side : v'.side = exchange v.side
  conf : v'.conf = v.conf
  source : sourceOf v'.sig = sourceOf v.sig

def VotesExchanged : Option Vote → Option Vote → Prop
  | none, none => True
  | some v, some v' => VoteExchanged v v'
  | _, _ => False

def sideVote (config sig : Obj) : Option VoteSide → Except String (Option Vote)
  | none => .ok none
  | some side => do
    let conf ← floatField sig "confidence" 0
    if conf < (← numberField config "min_confidence" (3 / 5)) then return none
    return some ⟨sig, ← textField sig "symbol" "", side, conf⟩

theorem voteOf_str {sig : Obj} (hsymbol : truthy (getD sig "symbol" (.str "")) = true)
    {action : String} (h : getD sig "action" (.str "") = .str action) :
    voteOf config sig = sideVote config sig (normalizeAction action) := by
  rw [voteOf, if_pos hsymbol, h]
  dsimp only
  cases normalizeAction action <;> rfl

theorem action_of_voteOf {sig : Obj} (hsymbol : truthy (getD sig "symbol" (.str "")) = true)
    {v? : Option Vote} (h : voteOf config sig = .ok v?) :
    ∃ action, getD sig "action" (.str "") = .str action := by
  rw [voteOf, if_pos hsymbol] at h
  cases haction : getD sig "action" (.str "") with
  | str action => exact ⟨action, rfl⟩
  | null | bool _ | num _ | arr _ | obj _ =>
    rw [haction] at h
    cases h

theorem voteOf_exchanged {sig sig' : Obj} (h : Exchanged sig sig') {v? : Option Vote}
    (hv : voteOf config sig = .ok v?) :
    ∃ v?', voteOf config sig' = .ok v?' ∧ VotesExchanged v? v?' := by
  have hsymbol : getD sig' "symbol" (.str "") = getD sig "symbol" (.str "") := by
    rw [getD, h.symbol, getD]
  have hsource : sourceOf sig' = sourceOf sig := by
    rw [sourceOf, sourceOf, getD, getD, getD, getD, h.plugin_id, h.type]
  have hconf : floatField sig' "confidence" 0 = floatField sig "confidence" 0 := by
    rw [floatField, h.confidence, floatField]
  have htext : textField sig' "symbol" "" = textField sig "symbol" "" := by
    rw [textField, h.symbol, textField]
  have haction := h.action
  by_cases hsome : truthy (getD sig "symbol" (.str "")) = true
  · obtain ⟨action, hact⟩ := action_of_voteOf hsome hv
    rw [voteOf_str hsome hact] at hv
    obtain ⟨action', hact', hside⟩ : ∃ action', getD sig' "action" (.str "") = .str action' ∧
        normalizeAction action' = (normalizeAction action).map exchange := by
      rw [hact] at haction
      cases hact' : getD sig' "action" (.str "") with
      | str action' =>
        rw [hact'] at haction
        exact ⟨action', rfl, haction⟩
      | null | bool _ | num _ | arr _ | obj _ =>
        rw [hact'] at haction
        cases haction
    rw [voteOf_str (hsymbol ▸ hsome) hact', hside]
    cases hnormal : normalizeAction action with
    | none =>
      rw [hnormal] at hv
      cases hv
      exact ⟨none, rfl, trivial⟩
    | some side =>
      rw [hnormal] at hv
      obtain ⟨conf, hc, hv⟩ := bind_eq_ok.1 hv
      obtain ⟨minimum, hmin, hv⟩ := bind_eq_ok.1 hv
      rw [Option.map_some, sideVote, hconf, hc, hmin, htext]
      show ∃ v?', (if conf < minimum then _ else _) = _ ∧ _
      by_cases hlow : conf < minimum
      · rw [if_pos hlow] at hv ⊢
        cases hv
        exact ⟨none, rfl, trivial⟩
      · rw [if_neg hlow] at hv ⊢
        obtain ⟨text, ht, hv⟩ := bind_eq_ok.1 hv
        cases hv
        rw [ht]
        exact ⟨_, rfl, ⟨rfl, rfl, rfl, hsource⟩⟩
  · rw [voteOf, if_neg hsome] at hv
    rw [voteOf, hsymbol, if_neg hsome]
    cases hv
    exact ⟨none, rfl, trivial⟩

theorem votesOf_exchanged {signals signals' : List Obj}
    (h : List.Forall₂ Exchanged signals signals') (hvotes : votesOf config signals = .ok votes) :
    ∃ votes', votesOf config signals' = .ok votes' ∧ List.Forall₂ VoteExchanged votes votes' := by
  induction h generalizing votes with
  | nil =>
    cases hvotes
    exact ⟨[], rfl, .nil⟩
  | cons hsig _ ih =>
    obtain ⟨v?, hv, hvotes⟩ := bind_eq_ok.1 hvotes
    obtain ⟨others, hothers, hvotes⟩ := bind_eq_ok.1 hvotes
    cases hvotes
    obtain ⟨v?', hv', hrel⟩ := voteOf_exchanged hsig hv
    obtain ⟨others', hothers', hall⟩ := ih hothers
    refine ⟨v?'.toList ++ others', bind_eq_ok.2 ⟨_, hv', bind_eq_ok.2 ⟨_, hothers', rfl⟩⟩, ?_⟩
    cases v? with
    | none =>
      cases v?' with
      | none => exact hall
      | some v' => exact hrel.elim
    | some v =>
      cases v?' with
      | none => exact hrel.elim
      | some v' => exact .cons hrel hall

theorem exists_pairs (h : List.Forall₂ VoteExchanged votes votes') :
    ∃ pairs : List (Vote × Vote), pairs.map Prod.fst = votes ∧ pairs.map Prod.snd = votes' ∧
      ∀ p ∈ pairs, VoteExchanged p.1 p.2 := by
  induction h with
  | nil => exact ⟨[], rfl, rfl, fun _ h => absurd h List.not_mem_nil⟩
  | cons hv _ ih =>
    obtain ⟨pairs, rfl, rfl, hpairs⟩ := ih
    exact ⟨(_, _) :: pairs, rfl, rfl, List.forall_mem_cons.2 ⟨hv, hpairs⟩⟩

theorem forall₂_of_pairs {pairs : List (Vote × Vote)} (h : ∀ p ∈ pairs, VoteExchanged p.1 p.2) :
    List.Forall₂ VoteExchanged (pairs.map Prod.fst) (pairs.map Prod.snd) := by
  rw [List.forall₂_map_left_iff, List.forall₂_map_right_iff]
  exact List.forall₂_same.2 h

theorem votesFor_exchanged (h : List.Forall₂ VoteExchanged votes votes') (symbol : String) :
    List.Forall₂ VoteExchanged (votesFor symbol votes) (votesFor symbol votes') := by
  induction h with
  | nil => exact .nil
  | cons hv _ ih =>
    rw [votesFor, List.filter_cons, votesFor, List.filter_cons, hv.symbol]
    split_ifs
    · exact .cons hv ih
    · exact ih

theorem byConfidence_exchanged (h : List.Forall₂ VoteExchanged votes votes') :
    List.Forall₂ VoteExchanged (byConfidence votes) (byConfidence votes') := by
  obtain ⟨pairs, rfl, rfl, hpairs⟩ := exists_pairs h
  have hfst : (pairs.mergeSort fun p q => q.1.conf ≤ p.1.conf).map Prod.fst =
      byConfidence (pairs.map Prod.fst) := List.map_mergeSort fun _ _ _ _ => rfl
  have hsnd : (pairs.mergeSort fun p q => q.1.conf ≤ p.1.conf).map Prod.snd =
      byConfidence (pairs.map Prod.snd) := List.map_mergeSort fun p hp q hq => by
    rw [(hpairs p hp).conf, (hpairs q hq).conf]
  rw [← hfst, ← hsnd]
  exact forall₂_of_pairs fun p hp => hpairs p (List.mem_mergeSort.1 hp)

theorem topVotes_exchanged (h : List.Forall₂ VoteExchanged votes votes')
    (htop : topVotes config votes = .ok top) :
    ∃ top', topVotes config votes' = .ok top' ∧ List.Forall₂ VoteExchanged top top' := by
  rw [topVotes_eq] at htop ⊢
  rw [← h.length_eq]
  cases hn : kept config votes.length with
  | error e => rw [hn] at htop; cases htop
  | ok n =>
    rw [hn] at htop
    cases htop
    exact ⟨_, rfl, List.forall₂_take n (byConfidence_exchanged h)⟩

theorem values_exchanged (h : List.Forall₂ VoteExchanged top top') {f : Vote → ℚ}
    (hf : ∀ v v', VoteExchanged v v' → f v' = f v) (side : VoteSide) :
    (top'.filter fun v => v.side = exchange side).map f =
      (top.filter fun v => v.side = side).map f := by
  induction h with
  | nil => rfl
  | @cons v v' _ _ hv _ ih =>
    have hiff : v'.side = exchange side ↔ v.side = side := by
      rw [hv.side, exchange_eq_iff, exchange_exchange]
    by_cases hside : v.side = side
    · simp [List.filter_cons, hiff, hside, ih, hf v v' hv]
    · simp [List.filter_cons, hiff, hside, ih]

theorem tallyOf_exchanged (h : List.Forall₂ VoteExchanged top top') :
    tallyOf config top' = exchangeTally (tallyOf config top) := by
  have hweight : ∀ b side, weightOf b (exchange side) top' = weightOf b side top := by
    intro b side
    rw [weightOf, weightOf, values_exchanged h fun v v' hv => by rw [hv.conf]]
  simp only [tallyOf, exchangeTally, VoteTally.mk.injEq]
  exact ⟨hweight _ .short, hweight _ .long, hweight _ .exit⟩

theorem consensusConfidence_exchanged (h : List.Forall₂ VoteExchanged top top') (hfair : ¬ Tied t) :
    consensusConfidence (exchangeTally t) top' = consensusConfidence t top := by
  simp only [consensusConfidence, winner_exchange hfair, of_exchange, conflict_exchange,
    values_exchanged h (fun v v' hv => hv.conf), h.length_eq]

/-- A consensus on the other side. -/
structure ConsensusExchanged (c c' : Consensus) : Prop where
  symbol : c'.symbol = c.symbol
  action : c'.action = exchange c.action
  confidence : c'.confidence = c.confidence
  tally : c'.tally = exchangeTally c.tally
  agreementPct : c'.agreementPct = c.agreementPct
  votes : List.Forall₂ VoteExchanged c.votes c'.votes

theorem consensusFor_exchanged (h : List.Forall₂ VoteExchanged top top')
    (hfair : ¬ Tied (tallyOf config top)) :
    ConsensusExchanged (consensusFor config symbol top) (consensusFor config symbol top') where
  symbol := rfl
  action := by
    show (tallyOf config top').winner = _
    rw [tallyOf_exchanged h, winner_exchange hfair]
    rfl
  confidence := by
    show consensusConfidence (tallyOf config top') top' = _
    rw [tallyOf_exchanged h, consensusConfidence_exchanged h hfair]
    rfl
  tally := tallyOf_exchanged h
  agreementPct := by
    show roundTo 1 (tallyOf config top').agreement = _
    rw [tallyOf_exchanged h, agreement_exchange]
    rfl
  votes := h

/-! ## All consensuses -/

/-- The results of two calls correspond. -/
def Corresponds (R : Consensus → Consensus → Prop) (results results' : List Consensus) : Prop :=
  (∀ c ∈ results, ∃ c' ∈ results', R c c') ∧ ∀ c' ∈ results', ∃ c ∈ results, R c c'

/-- What is told of a symbol corresponds. -/
def ToldAlike (R : Consensus → Consensus → Prop) : Option Consensus → Option Consensus → Prop
  | none, none => True
  | some c, some c' => R c c'
  | _, _ => False

/-- **Symbol by symbol**, the results of two calls correspond. -/
theorem aggregate_corresponds {R : Consensus → Consensus → Prop} {signals signals' : List Obj}
    {results : List Consensus} (h : aggregateSignals config signals = .ok results)
    (hvotes : votesOf config signals = .ok votes) (hvotes' : votesOf config signals' = .ok votes')
    (hnil : ∀ symbol, votesFor symbol votes = [] ↔ votesFor symbol votes' = [])
    (htold : ∀ symbol r, consensusOf config symbol (votesFor symbol votes) = .ok r →
      ∃ r', consensusOf config symbol (votesFor symbol votes') = .ok r' ∧ ToldAlike R r r') :
    ∃ results', aggregateSignals config signals' = .ok results' ∧
      Corresponds R results results' := by
  have hall := h
  obtain ⟨votes₀, hvotes₀, h⟩ := bind_eq_ok.1 h
  cases hvotes.symm.trans hvotes₀
  obtain ⟨cs, hcs, -⟩ := bind_eq_ok.1 h
  have hone : ∀ symbol, votesFor symbol votes ≠ [] →
      ∃ r, consensusOf config symbol (votesFor symbol votes) = .ok r := fun symbol hne =>
    collect_answers hcs _ ((mem_bySymbol votes symbol _).2 ⟨hne, rfl⟩)
  obtain ⟨cs', hcs'⟩ : ∃ cs', consensuses config (bySymbol votes') = .ok cs' := by
    refine exists_collect fun g hg => ?_
    obtain ⟨hne, heq⟩ := (mem_bySymbol votes' g.1 g.2).1 hg
    obtain ⟨r, hr⟩ := hone g.1 (mt (hnil g.1).1 (heq ▸ hne))
    obtain ⟨r', hr', -⟩ := htold g.1 r hr
    exact ⟨r', heq ▸ hr'⟩
  have hall' : aggregateSignals config signals' =
      .ok (cs'.mergeSort fun a b => b.confidence ≤ a.confidence) :=
    bind_eq_ok.2 ⟨votes', hvotes', bind_eq_ok.2 ⟨cs', hcs', rfl⟩⟩
  refine ⟨_, hall', fun c hc => ?_, fun c' hc' => ?_⟩
  · obtain ⟨votes₁, hvotes₁, symbol, hne, hr⟩ := (mem_aggregateSignals hall c).1 hc
    cases hvotes.symm.trans hvotes₁
    obtain ⟨r', hr', halike⟩ := htold symbol _ hr
    cases r' with
    | none => exact halike.elim
    | some c' =>
      exact ⟨c', (mem_aggregateSignals hall' c').2
        ⟨votes', hvotes', symbol, mt (hnil symbol).2 hne, hr'⟩, halike⟩
  · obtain ⟨votes₁, hvotes₁, symbol, hne, hr'⟩ := (mem_aggregateSignals hall' c').1 hc'
    cases hvotes'.symm.trans hvotes₁
    obtain ⟨r, hr⟩ := hone symbol (mt (hnil symbol).1 hne)
    obtain ⟨r', hr₂, halike⟩ := htold symbol r hr
    cases hr'.symm.trans hr₂
    cases r with
    | none => exact halike.elim
    | some c =>
      exact ⟨c, (mem_aggregateSignals hall c).2
        ⟨votes, hvotes, symbol, mt (hnil symbol).1 hne, hr⟩, halike⟩

/-- A consensus that says the same, from the same votes. -/
def Same (c c' : Consensus) : Prop := c' = { c with votes := c'.votes } ∧ c.votes.Perm c'.votes

theorem consensusOf_perm (hcut : CleanCut config votes) (hperm : votes.Perm votes')
    {r : Option Consensus} (h : consensusOf config symbol votes = .ok r) :
    ∃ r', consensusOf config symbol votes' = .ok r' ∧ ToldAlike Same r r' := by
  rw [consensusOf_eq] at h ⊢
  obtain ⟨top, htop, h⟩ := bind_eq_ok.1 h
  obtain ⟨passed, hpassed, h⟩ := bind_eq_ok.1 h
  obtain ⟨top', htop', hperm'⟩ := topVotes_perm hcut hperm htop
  rw [tallyOf_perm hperm', hperm'.length_eq] at hpassed
  refine ⟨_, bind_eq_ok.2 ⟨top', htop', bind_eq_ok.2 ⟨passed, hpassed, rfl⟩⟩, ?_⟩
  cases h
  cases passed with
  | false => trivial
  | true => exact ⟨consensusFor_perm hperm', hperm'⟩

/-- A consensus with long and short exchanged; of a tie, long. -/
structure Mirrored (c c' : Consensus) : Prop where
  symbol : c'.symbol = c.symbol
  tied : Tied c.tally → c.action = .long ∧ c'.action = .long
  fair : ¬ Tied c.tally → ConsensusExchanged c c'

theorem consensusOf_exchanged (hvotes : List.Forall₂ VoteExchanged votes votes')
    {r : Option Consensus} (h : consensusOf config symbol votes = .ok r) :
    ∃ r', consensusOf config symbol votes' = .ok r' ∧ ToldAlike Mirrored r r' := by
  rw [consensusOf_eq] at h ⊢
  obtain ⟨top, htop, h⟩ := bind_eq_ok.1 h
  obtain ⟨passed, hpassed, h⟩ := bind_eq_ok.1 h
  obtain ⟨top', htop', hall⟩ := topVotes_exchanged hvotes htop
  rw [← passes_exchange, ← tallyOf_exchanged hall, hall.length_eq] at hpassed
  refine ⟨_, bind_eq_ok.2 ⟨top', htop', bind_eq_ok.2 ⟨passed, hpassed, rfl⟩⟩, ?_⟩
  cases h
  cases passed with
  | false => trivial
  | true =>
    refine ⟨rfl, fun htied => ⟨winner_of_tied htied, ?_⟩, consensusFor_exchanged hall⟩
    show (tallyOf config top').winner = _
    have htied : Tied (tallyOf config top) := htied
    rw [tallyOf_exchanged hall, tied_exchange htied, winner_of_tied htied]

/-! ## What is fair of the vote -/

/-- **The winner has the most votes.** -/
theorem of_le_winner (t : VoteTally) (side : VoteSide) : t.of side ≤ t.of t.winner := by
  rw [VoteTally.winner]
  by_cases hexit : t.long < t.exit ∧ t.short < t.exit
  · rw [if_pos hexit]
    cases side
    · exact hexit.1.le
    · exact hexit.2.le
    · exact le_rfl
  · rw [if_neg hexit]
    by_cases hle : t.short ≤ t.long
    · rw [if_pos hle]
      cases side
      · exact le_rfl
      · exact hle
      · exact not_lt.1 fun hlt => hexit ⟨hlt, hle.trans_lt hlt⟩
    · rw [if_neg hle]
      have hlt := not_le.1 hle
      cases side
      · exact hlt.le
      · exact le_rfl
      · exact not_lt.1 fun hlt' => hexit ⟨hlt.trans hlt', hlt'⟩

theorem exit_tied {t : VoteTally} (h : t.exit = max t.long t.short) : t.winner ≠ .exit ∧
    (0 ≤ t.long → 0 ≤ t.short → t.total ≠ 0 → t.agreement ≤ 50) := by
  have hne : t.winner ≠ .exit := by
    intro hwin
    obtain ⟨hlong, hshort⟩ := (winner_eq_exit_iff t).1 hwin
    exact absurd h (max_lt hlong hshort).ne'
  refine ⟨hne, fun hlong hshort htotal => ?_⟩
  have hexit : 0 ≤ t.exit := h ▸ hlong.trans (le_max_left _ _)
  have hpos : 0 < t.total :=
    lt_of_le_of_ne (add_nonneg (add_nonneg hlong hshort) hexit) htotal.symm
  have hhalf : t.of t.winner + t.exit ≤ t.total := by
    rw [VoteTally.total]
    cases hw : t.winner with
    | long => show t.long + t.exit ≤ _; linarith
    | short => show t.short + t.exit ≤ _; linarith
    | exit => exact absurd hw hne
  have hle : t.of t.winner ≤ t.exit := by
    rw [h]
    cases hw : t.winner with
    | long => exact le_max_left _ _
    | short => exact le_max_right _ _
    | exit => exact absurd hw hne
  rw [VoteTally.agreement, div_mul_eq_mul_div, div_le_iff₀ hpos]
  linarith

structure Fair (config : Obj) (signals : List Obj) (results : List Consensus) : Prop where
  /-- In another order the signals say the same, where each cut is clean. -/
  any_order : ∀ votes, votesOf config signals = .ok votes →
    (∀ symbol, CleanCut config (votesFor symbol votes)) →
    ∀ signals', signals.Perm signals' → ∃ results',
      aggregateSignals config signals' = .ok results' ∧ Corresponds Same results results'
  /-- Who wins has the most votes of the symbol, and enough of them. -/
  wins : ∀ c ∈ results, ∃ votes minAgreement, votesOf config signals = .ok votes ∧
    topVotes config (votesFor c.symbol votes) = .ok c.votes ∧ c.tally = tallyOf config c.votes ∧
    (∀ side, c.tally.of side ≤ c.tally.of c.action) ∧
    numberField config "min_agreement_pct" 60 = .ok minAgreement ∧
    minAgreement ≤ c.tally.of c.action / c.tally.total * 100
  /-- With long and short exchanged the results are; where they tie, long wins. -/
  exchanged : ∀ signals', List.Forall₂ Exchanged signals signals' → ∃ results',
    aggregateSignals config signals' = .ok results' ∧ Corresponds Mirrored results results'
  /-- An exit that ties with the most of the others does not win. -/
  exit_ties : ∀ c ∈ results, c.tally.exit = max c.tally.long c.tally.short → c.action ≠ .exit ∧
    (0 ≤ c.tally.long → 0 ≤ c.tally.short → ∃ minAgreement,
      numberField config "min_agreement_pct" 60 = .ok minAgreement ∧ minAgreement ≤ 50)

theorem votesOf_perm {signals signals' : List Obj} (hperm : signals.Perm signals')
    (h : votesOf config signals = .ok votes) :
    ∃ votes', votesOf config signals' = .ok votes' ∧ votes.Perm votes' := by
  obtain ⟨votes', hvotes'⟩ := exists_collect fun sig hsig =>
    collect_answers h sig (hperm.mem_iff.2 hsig)
  refine ⟨votes', hvotes', ?_⟩
  rw [collect_eq h, collect_eq hvotes']
  exact hperm.flatMap_right _

theorem told_of_consensus {c : Consensus} (h : consensusOf config symbol votes = .ok (some c)) :
    ∃ top, topVotes config votes = .ok top ∧ c = consensusFor config symbol top := by
  rw [consensusOf_eq] at h
  obtain ⟨top, htop, h⟩ := bind_eq_ok.1 h
  obtain ⟨passed, -, h⟩ := bind_eq_ok.1 h
  cases passed with
  | false => cases h
  | true => exact ⟨top, htop, (Option.some.inj (Except.ok.inj h)).symm⟩

/-- **What is fair of the vote.** Its results do not depend on the order of signals, where no vote
that is left out is as confident as one that is kept. Who wins has the most votes, and enough of
them. With long and short exchanged the results are, but for a tie that no exit outweighs, which
long wins. An exit that ties with the most of the others does not win, and neither does the other
with more than half required. -/
theorem fairVote (config : Obj) (signals : List Obj) (results : List Consensus)
    (h : aggregateSignals config signals = .ok results) : Fair config signals results where
  any_order votes hvotes hcut signals' hperm := by
    obtain ⟨votes', hvotes', hperm'⟩ := votesOf_perm hperm hvotes
    have hfor : ∀ symbol, (votesFor symbol votes).Perm (votesFor symbol votes') := fun symbol =>
      hperm'.filter _
    refine aggregate_corresponds h hvotes hvotes' (fun symbol => ?_)
      fun symbol r => consensusOf_perm (hcut symbol) (hfor symbol)
    exact ⟨fun hnil => List.nil_perm.1 (hnil ▸ hfor symbol), fun hnil =>
      List.perm_nil.1 (hnil ▸ hfor symbol)⟩
  wins c hc := by
    obtain ⟨votes, hvotes, symbol, -, hr⟩ := (mem_aggregateSignals h c).1 hc
    obtain ⟨top, htop, rfl⟩ := told_of_consensus hr
    obtain ⟨-, -, -, -, -, minAgreement, hmin, hagree⟩ := comesFrom_of_consensus hr
    exact ⟨votes, minAgreement, hvotes, htop, rfl, of_le_winner _, hmin, hagree⟩
  exchanged signals' hsignals := by
    obtain ⟨votes, hvotes, -⟩ := bind_eq_ok.1 h
    obtain ⟨votes', hvotes', hall⟩ := votesOf_exchanged hsignals hvotes
    refine aggregate_corresponds h hvotes hvotes' (fun symbol => ?_)
      fun symbol r => consensusOf_exchanged (votesFor_exchanged hall symbol)
    have hlen := (votesFor_exchanged hall symbol).length_eq
    rw [← List.length_eq_zero_iff, hlen, List.length_eq_zero_iff]
  exit_ties c hc htied := by
    obtain ⟨votes, -, symbol, -, hr⟩ := (mem_aggregateSignals h c).1 hc
    obtain ⟨-, -, -, htotal, -, minAgreement, hmin, hagree⟩ := comesFrom_of_consensus hr
    obtain ⟨top, -, rfl⟩ := told_of_consensus hr
    obtain ⟨hne, hhalf⟩ := exit_tied htied
    exact ⟨hne, fun hlong hshort => ⟨minAgreement, hmin, hagree.trans (hhalf hlong hshort htotal)⟩⟩

/-! ## What is not fair -/

/-- A signal for a share, and its vote. -/
def ballot (action : String) : Obj :=
  [("symbol", .str "AAPL"), ("action", .str action), ("confidence", .num (.fin (4 / 5)))]

def ballotVote (action : String) (side : VoteSide) : Vote := ⟨ballot action, "AAPL", side, 4 / 5⟩

theorem voteOf_ballot {action : String} {side : VoteSide} (h : normalizeAction action = some side)
    (hleast : numberField config "min_confidence" (3 / 5) = .ok (3 / 5)) :
    voteOf config (ballot action) = .ok (some (ballotVote action side)) := by
  rw [voteOf_str rfl rfl, h]
  refine bind_eq_ok.2 ⟨4 / 5, rfl, bind_eq_ok.2 ⟨3 / 5, hleast, ?_⟩⟩
  exact if_neg (by decide +kernel)

theorem topVotes_sorted {n : ℕ} (h : votes.Pairwise fun a b => b.conf ≤ a.conf)
    (hkept : kept config votes.length = .ok n) : topVotes config votes = .ok (votes.take n) := by
  rw [topVotes_eq, hkept, byConfidence,
    List.mergeSort_of_pairwise (h.imp fun hab => decide_eq_true hab)]
  rfl

theorem two_ballots {action action' : String} {side side' : VoteSide} {n : ℕ}
    {required minAgreement : ℚ} {top : List Vote} (h : normalizeAction action = some side)
    (h' : normalizeAction action' = some side')
    (hleast : numberField config "min_confidence" (3 / 5) = .ok (3 / 5))
    (hkept : kept config 2 = .ok n)
    (htop : [ballotVote action side, ballotVote action' side'].take n = top)
    (hrequired : numberField config "require_min_signals" 2 = .ok required)
    (hmin : numberField config "min_agreement_pct" 60 = .ok minAgreement)
    (htests : required ≤ top.length ∧ (tallyOf config top).total ≠ 0 ∧
      isText (getD config "conflict_resolution" (.str "skip")) "skip" = false ∧
      minAgreement ≤ (tallyOf config top).agreement) :
    aggregateSignals config [ballot action, ballot action'] =
      .ok [consensusFor config "AAPL" top] := by
  obtain ⟨hle, htotal, hskip, hagree⟩ := htests
  have hpasses : passes config top.length (tallyOf config top) = .ok true := by
    rw [passes, hrequired, hmin]
    refine (if_neg (not_lt.2 hle)).trans ((if_neg htotal).trans ((if_neg ?_).trans
      (if_neg (not_lt.2 hagree))))
    rintro ⟨-, hc, -⟩
    rw [hskip] at hc
    cases hc
  have hsorted : [ballotVote action side, ballotVote action' side'].Pairwise
      fun a b => b.conf ≤ a.conf := by
    simp [ballotVote]
  have hcons : consensusOf config "AAPL" [ballotVote action side, ballotVote action' side'] =
      .ok (some (consensusFor config "AAPL" top)) := by
    rw [consensusOf_eq, topVotes_sorted hsorted hkept, htop]
    exact bind_eq_ok.2 ⟨top, rfl, bind_eq_ok.2 ⟨true, hpasses, rfl⟩⟩
  refine bind_eq_ok.2 ⟨_, bind_eq_ok.2 ⟨_, voteOf_ballot h hleast, bind_eq_ok.2 ⟨_,
    bind_eq_ok.2 ⟨_, voteOf_ballot h' hleast, rfl⟩, rfl⟩⟩, bind_eq_ok.2 ⟨_, bind_eq_ok.2 ⟨_, hcons,
    rfl⟩, ?_⟩⟩
  exact congrArg Except.ok (List.mergeSort_singleton _)

def halfEnough : Obj := [("conflict_resolution", .str "dominant"), ("min_agreement_pct", .num 50)]

def onlyOne : Obj :=
  ("max_signals_per_symbol", .num 1) :: ("require_min_signals", .num 1) :: halfEnough

theorem action_texts : normalizeAction "long" = some .long ∧
    normalizeAction "short" = some .short ∧ normalizeAction "exit" = some .exit := by decide +kernel

theorem long_exit : aggregateSignals halfEnough [ballot "long", ballot "exit"] =
    .ok [consensusFor halfEnough "AAPL" [ballotVote "long" .long, ballotVote "exit" .exit]] :=
  two_ballots action_texts.1 action_texts.2.2 rfl rfl rfl rfl rfl (by decide +kernel)

theorem fairVote_half : ∃ results,
    aggregateSignals halfEnough [ballot "long", ballot "exit"] = .ok results ∧
      Fair halfEnough [ballot "long", ballot "exit"] results :=
  ⟨_, long_exit, fairVote _ _ _ long_exit⟩

/-- **Ties are decided**: of two signals that are as confident the first is kept, long wins with the
sides exchanged too, and an entry wins over an exit. -/
theorem ties_decided :
    (∃ c c', aggregateSignals onlyOne [ballot "long", ballot "short"] = .ok [c] ∧
      aggregateSignals onlyOne [ballot "short", ballot "long"] = .ok [c'] ∧
      c.action = .long ∧ c'.action = .short) ∧
    (∃ c c', aggregateSignals halfEnough [ballot "long", ballot "short"] = .ok [c] ∧
      aggregateSignals halfEnough [ballot "short", ballot "long"] = .ok [c'] ∧
      c.action = .long ∧ c'.action = .long) ∧
    ∃ c, aggregateSignals halfEnough [ballot "long", ballot "exit"] = .ok [c] ∧
      c.tally.exit = max c.tally.long c.tally.short ∧ c.action = .long := by
  obtain ⟨hlong, hshort, -⟩ := action_texts
  refine ⟨⟨consensusFor onlyOne "AAPL" [ballotVote "long" .long],
      consensusFor onlyOne "AAPL" [ballotVote "short" .short],
      two_ballots hlong hshort rfl rfl rfl rfl rfl (by decide +kernel),
      two_ballots hshort hlong rfl rfl rfl rfl rfl (by decide +kernel), by decide +kernel,
      by decide +kernel⟩,
    ⟨consensusFor halfEnough "AAPL" [ballotVote "long" .long, ballotVote "short" .short],
      consensusFor halfEnough "AAPL" [ballotVote "short" .short, ballotVote "long" .long],
      two_ballots hlong hshort rfl rfl rfl rfl rfl (by decide +kernel),
      two_ballots hshort hlong rfl rfl rfl rfl rfl (by decide +kernel), by decide +kernel,
      by decide +kernel⟩, _, long_exit, by decide +kernel, by decide +kernel⟩

end NeoTrader.FairVote

import NeoTrader.Agents.ToolCalls
import NeoTrader.Common.Delimiters
import NeoTrader.Js.Blocks

/-!
# The debate panel

Each role of a panel answers with a stance, as a JSON object somewhere in its text, and the stances
are weighed into a recommendation. A role with a veto decides alone.

* `Favors`, **`consensus_law`**: the order of the stances does not matter, an approval is
  somebody's, and a stance that is more favourable never costs the approval;
* `parseStance_of_reply`, **`auditor_veto`**: the object of a reply is read, so that a veto stands.
-/

namespace NeoTrader

open Js

namespace Debate

/-! ## The panel -/

/-- A role of the panel. A role that blocks has a veto. -/
structure DebateRole where
  name : String
  prompt : Option String := none
  block : Option Bool := none

/-- What a role says of a call. -/
inductive Stance
  | approve | reject | abstain
  deriving DecidableEq, Repr

/-- A weight between zero and one. -/
abbrev Confidence : Type := {q : ℚ // 0 ≤ q ∧ q ≤ 1}

structure DebateStance where
  role : String
  stance : Stance
  confidence : Confidence
  rationale : String
  block : Option Bool := none

inductive Recommendation
  | approve | reject
  deriving DecidableEq, Repr

structure PanelConsensus where
  recommendation : Recommendation
  auditorBlocked : Bool
  stances : List DebateStance

/-- The stance of a role that failed. -/
def abstainFor (roleName : String) : DebateStance :=
  ⟨roleName, .abstain, ⟨0, le_refl 0, zero_le_one⟩, "", none⟩

/-- The text from the first brace to the one that closes it. -/
def extractBareObject (text : List Char) : Option (List Char) :=
  Delimited.extract '\x7b' '\x7d' text

/-- Unknown values abstain. -/
def coerceStance (raw : String) : Stance :=
  if raw = "approve" then .approve
  else if raw = "reject" then .reject
  else .abstain

/-- `Math.max(0, Math.min(1, x))`; a number of a JSON text is not `NaN`. -/
def clampConfidence : Number → Confidence
  | .fin q => ⟨max 0 (min 1 q), le_max_left _ _, max_le zero_le_one (min_le_left _ _)⟩
  | .inf neg => if neg then ⟨0, le_refl 0, zero_le_one⟩ else ⟨1, zero_le_one, le_refl 1⟩
  | .nan => ⟨0, le_refl 0, zero_le_one⟩

/-! ### The rationale -/

/-- Letters are compared without their case; one letter of the marks is outside ASCII. -/
def foldLetter (c : Char) : Char := if c = 'Ñ' then 'ñ' else c.toLower

/-- Three backquotes. -/
def fenceMark : List Char := ['\x60', '\x60', '\x60']

/-- The tokens that steer a prompt, by how they open and where they end. -/
def controlTokens : List (List Char × List Char) :=
  [("[decision]".toList, []), ("[tool schema]".toList, []),
    ("[señales aprobadas".toList, [']']), ("[episodios relevantes]".toList, []),
    ("[observaciones".toList, [']']), ("[lessons]".toList, []), ("[past episodes]".toList, []),
    (openTag, closeTag), (fenceOpen, fenceMark), (fenceMark, fenceMark)]

/-- Every occurrence of a token, from left to right, is replaced. -/
def replaceToken (text : List Char) (token : List Char × List Char) : List Char :=
  let (parts, rest) := splitBlocks foldLetter token.1 token.2 text.length text
  parts.flatMap (fun part => part.1 ++ "[stripped]".toList) ++ rest

/-- A text without the tokens that steer a prompt. -/
def sanitizeText (s : String) : String := String.ofList (controlTokens.foldl replaceToken s.toList)

/-- The first `n` code units; a pair that would be cut in two is left out. -/
def takeUnits : ℕ → List Char → List Char
  | _, [] => []
  | n, c :: s =>
    let width := if c.toNat < 0x10000 then 1 else 2
    if width ≤ n then c :: takeUnits (n - width) s else []

/-! ### Stances -/

/-- The stance that an object states. -/
def stanceOf (roleName : String) (fields : List (String × Json)) : DebateStance where
  role := roleName
  stance := coerceStance ((Json.asString? ((Json.obj fields).field "stance")).getD "")
  confidence := clampConfidence (match (Json.obj fields).field "confidence" with
    | some (.num x) => x
    | _ => 0)
  rationale := String.ofList (takeUnits 500 (sanitizeText
    ((Json.asString? ((Json.obj fields).field "rationale")).getD "")).toList)

/-- The stance in an answer. A text without an object abstains. -/
def parseStance (text roleName : String) : DebateStance :=
  match (extractFenced text.toList).or (extractBareObject text.toList) with
  | none => abstainFor roleName
  | some raw =>
    if raw = [] then abstainFor roleName
    else match Json.parse (String.ofList raw) with
      | some (.obj fields) => stanceOf roleName fields
      | _ => abstainFor roleName

def DebateStance.vetoes (s : DebateStance) : Bool := s.block = some true ∧ s.stance = .reject

def Stance.value : Stance → ℚ
  | .approve => 1
  | .reject => -1
  | .abstain => 0

/-- The weighted sum of the stances. -/
def score (stances : List DebateStance) : ℚ :=
  stances.foldl (fun total s => total + s.confidence.1 * s.stance.value) 0

/-- The consensus. A veto comes first, then the weighted majority; a draw rejects. -/
def synthesizeConsensus (stances : List DebateStance) : PanelConsensus :=
  if stances.any DebateStance.vetoes then ⟨.reject, true, stances⟩
  else ⟨if 0 < score stances then .approve else .reject, false, stances⟩

/-- The stance of a role, from its answer or the error of its call. -/
def panelStance (role : DebateRole) (answer : Except String String) : DebateStance :=
  match answer with
  | .ok text => { parseStance text role.name with block := role.block }
  | .error _ => { abstainFor role.name with block := role.block }

/-- The panel: the roles answer in parallel, unless the time runs out first. -/
def runPanel (timedOut : Bool) (answers : List (DebateRole × Except String String)) :
    Except String PanelConsensus :=
  if timedOut then .error "panel timeout"
  else .ok (synthesizeConsensus (answers.map fun a => panelStance a.1 a.2))

/-! ## The consensus -/

def DebateStance.weight (s : DebateStance) : ℚ := s.confidence.1 * s.stance.value

theorem score_eq (stances : List DebateStance) :
    score stances = (stances.map DebateStance.weight).sum := by
  have hfold : ∀ (l : List DebateStance) (total : ℚ),
      l.foldl (fun total s => total + s.confidence.1 * s.stance.value) total =
        total + (l.map DebateStance.weight).sum := by
    intro l
    induction l with
    | nil => exact fun total => (add_zero total).symm
    | cons s l ih =>
      intro total
      rw [List.foldl_cons, ih, List.map_cons, List.sum_cons, ← add_assoc]
      rfl
  rw [score, hfold, zero_add]

theorem approve_iff (stances : List DebateStance) :
    (synthesizeConsensus stances).recommendation = .approve ↔
      stances.any DebateStance.vetoes = false ∧ 0 < (stances.map DebateStance.weight).sum := by
  rw [synthesizeConsensus, score_eq]
  split_ifs with hveto hscore
  · exact iff_of_false (by decide) fun h => by rw [hveto] at h; exact Bool.noConfusion h.1
  · exact iff_of_true rfl ⟨Bool.eq_false_iff.2 hveto, hscore⟩
  · exact iff_of_false (by decide) fun h => hscore h.2

theorem auditorBlocked_eq (stances : List DebateStance) :
    (synthesizeConsensus stances).auditorBlocked = stances.any DebateStance.vetoes := by
  rw [synthesizeConsensus]
  by_cases hveto : stances.any DebateStance.vetoes = true
  · rw [if_pos hveto, hveto]
  · rw [if_neg hveto, Bool.eq_false_iff.2 hveto]

theorem recommendation_congr {l l' : List DebateStance}
    (h : (synthesizeConsensus l).recommendation = .approve ↔
      (synthesizeConsensus l').recommendation = .approve) :
    (synthesizeConsensus l).recommendation = (synthesizeConsensus l').recommendation := by
  cases hl : (synthesizeConsensus l).recommendation with
  | approve => exact (h.1 hl).symm
  | reject =>
    cases hl' : (synthesizeConsensus l').recommendation with
    | approve =>
      rw [h.2 hl'] at hl
      cases hl
    | reject => rfl

theorem exists_pos_of_sum_pos : ∀ {l : List ℚ}, 0 < l.sum → ∃ x ∈ l, 0 < x
  | [], h => absurd h (by rw [List.sum_nil]; exact lt_irrefl 0)
  | x :: l, h => by
    by_cases hx : 0 < x
    · exact ⟨x, List.mem_cons_self, hx⟩
    · rw [List.sum_cons] at h
      obtain ⟨y, hy, hpos⟩ := exists_pos_of_sum_pos (show 0 < l.sum by linarith)
      exact ⟨y, List.mem_cons_of_mem x hy, hpos⟩

theorem approve_of_weight_pos {s : DebateStance} (h : 0 < s.weight) :
    s.stance = .approve ∧ 0 < s.confidence.1 := by
  obtain ⟨hnonneg, -⟩ := s.confidence.2
  unfold DebateStance.weight at h
  cases hs : s.stance with
  | approve =>
    rw [hs] at h
    exact ⟨rfl, by simpa [Stance.value] using h⟩
  | reject =>
    rw [hs] at h
    simp only [Stance.value] at h
    linarith
  | abstain =>
    rw [hs] at h
    simp [Stance.value] at h

/-- The same role says the same of a call, or something more favourable. -/
structure Favors (s s' : DebateStance) : Prop where
  stance : s.stance.value ≤ s'.stance.value
  confidence : s'.confidence = s.confidence
  block : s'.block = s.block

theorem Favors.weight_le {s s' : DebateStance} (h : Favors s s') : s.weight ≤ s'.weight := by
  rw [DebateStance.weight, DebateStance.weight, h.confidence]
  exact mul_le_mul_of_nonneg_left h.stance s.confidence.2.1

theorem Favors.vetoes {s s' : DebateStance} (h : Favors s s') (hs : s.vetoes = false) :
    s'.vetoes = false := by
  have hvalue := h.stance
  rw [DebateStance.vetoes, decide_eq_false_iff_not] at hs ⊢
  rw [h.block]
  rintro ⟨hblock, hreject⟩
  refine hs ⟨hblock, ?_⟩
  rw [hreject] at hvalue
  cases hstance : s.stance with
  | approve => rw [hstance] at hvalue; norm_num [Stance.value] at hvalue
  | reject => rfl
  | abstain => rw [hstance] at hvalue; norm_num [Stance.value] at hvalue

theorem favors_vetoes {l l' : List DebateStance} (h : List.Forall₂ Favors l l')
    (hl : l.any DebateStance.vetoes = false) : l'.any DebateStance.vetoes = false := by
  induction h with
  | nil => rfl
  | cons hs _ ih =>
    rw [List.any_cons, Bool.or_eq_false_iff] at hl ⊢
    exact ⟨hs.vetoes hl.1, ih hl.2⟩

theorem favors_sum_le {l l' : List DebateStance} (h : List.Forall₂ Favors l l') :
    (l.map DebateStance.weight).sum ≤ (l'.map DebateStance.weight).sum := by
  induction h with
  | nil => exact le_refl _
  | cons hs _ ih =>
    rw [List.map_cons, List.map_cons, List.sum_cons, List.sum_cons]
    exact add_le_add hs.weight_le ih

/-- **The law of the consensus.** The order of the stances does not matter. An approval is
somebody's with some confidence, against no veto. Stances that are more favourable keep it. -/
theorem consensus_law (l l' : List DebateStance) :
    (l.Perm l' → (synthesizeConsensus l).recommendation = (synthesizeConsensus l').recommendation ∧
      (synthesizeConsensus l).auditorBlocked = (synthesizeConsensus l').auditorBlocked) ∧
    ((synthesizeConsensus l).recommendation = .approve →
      (∃ s ∈ l, s.stance = .approve ∧ 0 < s.confidence.1) ∧
        ∀ s ∈ l, ¬ (s.block = some true ∧ s.stance = .reject)) ∧
    (List.Forall₂ Favors l l' → (synthesizeConsensus l).recommendation = .approve →
      (synthesizeConsensus l').recommendation = .approve) := by
  refine ⟨fun hperm => ?_, fun happrove => ?_, fun hfavors happrove => ?_⟩
  · have hany : l.any DebateStance.vetoes = l'.any DebateStance.vetoes := by
      rw [Bool.eq_iff_iff, List.any_eq_true, List.any_eq_true]
      exact exists_congr fun s => and_congr_left fun _ => hperm.mem_iff
    refine ⟨recommendation_congr ?_, ?_⟩
    · rw [approve_iff, approve_iff, hany, (hperm.map DebateStance.weight).sum_eq]
    · rw [auditorBlocked_eq, auditorBlocked_eq, hany]
  · obtain ⟨hveto, hpos⟩ := (approve_iff l).1 happrove
    obtain ⟨x, hx, hpos⟩ := exists_pos_of_sum_pos hpos
    obtain ⟨s, hs, rfl⟩ := List.mem_map.1 hx
    refine ⟨⟨s, hs, approve_of_weight_pos hpos⟩, fun s hs hvetoes => ?_⟩
    exact List.any_eq_false.1 hveto s hs (decide_eq_true hvetoes)
  · obtain ⟨hveto, hpos⟩ := (approve_iff l).1 happrove
    exact (approve_iff l').2 ⟨favors_vetoes hfavors hveto, hpos.trans_le (favors_sum_le hfavors)⟩

/-! ## Replies -/

/-- A text that is a reply with an object: in a fenced block, with no other before it, or bare, in a
text without a fence, after a text without braces and with all its braces matched. -/
inductive ReplyOf (text : List Char) (fields : List (String × Json)) : Prop
  | fenced (before line body after : List Char)
      (split : text = before ++ fenceOpen ++ (line ++ ['\n'] ++ (body ++ fenceClose ++ after)))
      (first : ¬ fenceOpen <:+: before) (sameLine : '\n' ∉ line)
      (parsed : Json.parse (String.ofList (Number.trim body)) = some (.obj fields))
  | bare (before body after : List Char) (split : text = before ++ body ++ after)
      (noFence : ¬ fenceOpen <:+: text) (noBrace : '\x7b' ∉ before)
      (matched : Delimited.Matched '\x7b' '\x7d' body)
      (parsed : Json.parse (String.ofList body) = some (.obj fields))

theorem extractFenced_of_block {before line body after : List Char}
    {fields : List (String × Json)} (hfirst : ¬ fenceOpen <:+: before) (hline : '\n' ∉ line)
    (hparsed : Json.parse (String.ofList (Number.trim body)) = some (.obj fields)) :
    extractFenced (before ++ fenceOpen ++ (line ++ ['\n'] ++ (body ++ fenceClose ++ after))) =
      some (Number.trim body) := by
  have hopen : breakOn fenceOpen
      (before ++ fenceOpen ++ (line ++ ['\n'] ++ (body ++ fenceClose ++ after))) =
      some (before, line ++ ['\n'] ++ (body ++ fenceClose ++ after)) :=
    @breakOn_of_last _ _ 'n' ['\x60', '\x60', '\x60', 'j', 's', 'o'] (by decide) _ _ hfirst
  have hbreak : breakOn ['\n'] (line ++ ['\n'] ++ (body ++ fenceClose ++ after)) =
      some (line, body ++ fenceClose ++ after) := by
    refine breakOn_of_head List.not_mem_nil _ fun hmem => hline ?_
    exact hmem.subset (List.mem_singleton_self _)
  have hclose : breakOn fenceClose (('\n' :: body) ++ fenceClose ++ after) =
      some ('\n' :: body, after) := by
    refine breakOn_of_head (by decide) _ fun hinfix => ?_
    exact Json.noTick_of_parse_trim hparsed
      (List.IsInfix.trans ⟨[], ['\x60', '\x60'], rfl⟩ hinfix)
  rw [extractFenced, hopen]
  simp only [Option.bind_eq_bind, Option.bind_some, hbreak]
  rw [← List.cons_append, ← List.cons_append, hclose]
  rfl

theorem extractFenced_of_noFence {text : List Char} (h : ¬ fenceOpen <:+: text) :
    extractFenced text = none := by
  rw [extractFenced, breakOn_eq_none_iff.2 h]
  rfl

theorem parse_nil : Json.parse (String.ofList []) = none := by
  rw [Json.parse, String.toList_ofList]
  rfl

theorem parseStance_of_raw {text roleName : String} {raw : List Char}
    {fields : List (String × Json)}
    (hraw : (extractFenced text.toList).or (extractBareObject text.toList) = some raw)
    (hparsed : Json.parse (String.ofList raw) = some (.obj fields)) :
    parseStance text roleName = stanceOf roleName fields := by
  have hne : raw ≠ [] := by
    rintro rfl
    rw [parse_nil] at hparsed
    cases hparsed
  rw [parseStance, hraw]
  dsimp only
  rw [if_neg hne, hparsed]

/-- **The object of a reply is read.** -/
theorem parseStance_of_reply {text : String} {fields : List (String × Json)}
    (h : ReplyOf text.toList fields) (roleName : String) :
    parseStance text roleName = stanceOf roleName fields := by
  cases h with
  | fenced before line body after split first sameLine parsed =>
    refine parseStance_of_raw ?_ parsed
    rw [split, extractFenced_of_block first sameLine parsed]
    rfl
  | bare before body after split noFence noBrace matched parsed =>
    refine parseStance_of_raw ?_ parsed
    obtain ⟨t, rfl, hcloses⟩ := matched
    rw [extractFenced_of_noFence noFence, split]
    exact (Delimited.extract_eq_some_iff (by decide) after noBrace).2 ⟨t, rfl, hcloses⟩

/-- **An auditor's veto stands.** The object of a reply is what the role says, with its confidence
clamped; and where it rejects and the role has a veto, the panel rejects, whatever the other roles
answer. -/
theorem auditor_veto {answers : List (DebateRole × Except String String)} {role : DebateRole}
    {text : String} {fields : List (String × Json)} (hreply : ReplyOf text.toList fields)
    (hanswer : (role, .ok text) ∈ answers) (hblock : role.block = some true) :
    parseStance text role.name = stanceOf role.name fields ∧
    ((Json.obj fields).field "stance" = some (.str "reject") →
      ∃ consensus, runPanel false answers = .ok consensus ∧
        consensus.recommendation = .reject ∧ consensus.auditorBlocked = true) := by
  have hparse := parseStance_of_reply hreply role.name
  refine ⟨hparse, fun hreject => ⟨_, if_neg Bool.false_ne_true, ?_⟩⟩
  have hstance : (stanceOf role.name fields).stance = .reject := by
    rw [stanceOf, hreject]
    rfl
  have hvetoes : (panelStance role (.ok text)).vetoes = true := by
    rw [panelStance, hparse]
    exact decide_eq_true ⟨hblock, hstance⟩
  have hany : (answers.map fun a => panelStance a.1 a.2).any DebateStance.vetoes = true :=
    List.any_eq_true.2 ⟨_, List.mem_map.2 ⟨_, hanswer, rfl⟩, hvetoes⟩
  rw [synthesizeConsensus, if_pos hany]
  exact ⟨rfl, rfl⟩

/-! ## At a panel -/

def riskAuditor : DebateRole := { name := "risk-auditor", block := some true }

def rejection : List Char :=
  ['N', 'o', '.', ' ', '\x7b', '"', 's', 't', 'a', 'n', 'c', 'e', '"', ':', '"', 'r', 'e', 'j', 'e',
    'c', 't', '"', '\x7d']

theorem rejection_reply : ReplyOf rejection [("stance", .str "reject")] := by
  have hmatched : Delimited.Matched '\x7b' '\x7d' (rejection.drop 4) :=
    (Delimited.extract_eq_some_iff (by decide) [] (List.not_mem_nil : '\x7b' ∉ [])).1 rfl
  refine .bare ['N', 'o', '.', ' '] (rejection.drop 4) [] rfl ?_ (by decide) hmatched ?_
  · exact breakOn_eq_none_iff.1 (by decide)
  · rw [Json.parse, String.toList_ofList]
    rfl

/-- A bull is sure, and the auditor rejects. -/
theorem riskAuditor_veto :
    ∃ consensus, runPanel false
        [(⟨"bull", none, none⟩, .ok "approve"), (riskAuditor, .ok (String.ofList rejection))] =
        .ok consensus ∧
      consensus.recommendation = .reject ∧ consensus.auditorBlocked = true :=
  (auditor_veto ((String.toList_ofList (l := rejection)).symm ▸ rejection_reply)
    (List.mem_cons_of_mem _ (List.mem_singleton_self _)) rfl).2 rfl

end Debate

end NeoTrader

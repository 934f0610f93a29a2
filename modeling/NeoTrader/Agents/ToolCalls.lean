import NeoTrader.Agents.Turn
import NeoTrader.Js.ParseText
import NeoTrader.Js.Search

/-!
# The tool calls in an answer of the language model

The calls stand in a fenced block, between two tags, or in a bare array, and are looked for in this
order.

* **`parseToolCalls_round_trip`**: a text that spells calls is read as these calls.
-/

namespace NeoTrader

open Js

/-! ## The parser -/

/-- `<tool_calls>` -/
def openTag : List Char := ['<', 't', 'o', 'o', 'l', '_', 'c', 'a', 'l', 'l', 's', '>']

/-- `</tool_calls>` -/
def closeTag : List Char := ['<', '/', 't', 'o', 'o', 'l', '_', 'c', 'a', 'l', 'l', 's', '>']

/-- The start of a fenced block of JSON. -/
def fenceOpen : List Char := ['\x60', '\x60', '\x60', 'j', 's', 'o', 'n']

/-- The end of a fenced block, on a line of its own. -/
def fenceClose : List Char := ['\n', '\x60', '\x60', '\x60']

/-- What separates the plugin from the function in the name of a tool. -/
def toolSep : List Char := ['_', '_']

/-- The raw JSON text of a fenced block. The end is looked for from the line break on that ends the
opening line. -/
def extractFenced (text : List Char) : Option (List Char) := do
  let (_, afterOpen) ← breakOn fenceOpen text
  let (_, lines) ← breakOn ['\n'] afterOpen
  let (content, _) ← breakOn fenceClose ('\n' :: lines)
  return Number.trim (content.drop 1)

/-- The raw JSON text of a `<tool_calls>` block. -/
def extractTagged (text : List Char) : Option (List Char) := do
  let (_, afterOpen) ← breakOn openTag text
  let (content, _) ← breakOn closeTag afterOpen
  return Number.trim content

/-- The text up to the bracket that closes all those open; `depth` of them are open before it. -/
def scanBrackets : ℕ → List Char → Option (List Char)
  | _, [] => none
  | depth, c :: text =>
    if c = '[' then (scanBrackets (depth + 1) text).map (c :: ·)
    else if c = ']' then
      if depth - 1 = 0 then some [c] else (scanBrackets (depth - 1) text).map (c :: ·)
    else (scanBrackets depth text).map (c :: ·)

/-- The raw JSON text of a bare array. -/
def extractBare (text : List Char) : Option (List Char) := scanBrackets 0 (text.dropWhile (· ≠ '['))

/-- The plugin and the function of `plugin__function`. -/
def splitTool (tool : String) (args : Json) : Option ToolCallRequest :=
  match breakOn toolSep tool.toList with
  | none => none
  | some (pluginId, fn) =>
    if pluginId = [] ∨ fn = [] then none
    else some ⟨String.ofList pluginId, String.ofList fn, args⟩

/-- The arguments of the tool form: a value of type `object` that is not `null`. -/
def toolArgs : Option Json → Option Json
  | some (.obj fields) => some (.obj fields)
  | some (.arr l) => some (.arr l)
  | _ => none

/-- A call from an entry in the object form or in the tool form. -/
def normalizeEntry (entry : Json) : Option ToolCallRequest :=
  match Json.asString? (entry.field "plugin_id"), Json.asString? (entry.field "function") with
  | some pluginId, some fn =>
    match entry.field "args" with
    | none | some .null => some ⟨pluginId, fn, .obj []⟩
    | some args => some ⟨pluginId, fn, args⟩
  | _, _ =>
    match Json.asString? (entry.field "tool") with
    | none => none
    | some tool => (toolArgs (entry.field "args")).bind (splitTool tool)

/-- The calls of a text, and the block that is shown to the audit. -/
structure ParsedCalls where
  calls : List ToolCallRequest := []
  audited : Option String := none

def readBlock (raw : List Char) : ParsedCalls :=
  match Json.parse (String.ofList raw) with
  | some (.arr entries) => { calls := entries.filterMap normalizeEntry }
  | _ => { audited := some (String.ofList raw) }

/-- The calls that a text spells. -/
def parseToolCalls (text : String) : ParsedCalls :=
  if text = "" then {}
  else
    match (extractFenced text.toList).or
      ((extractTagged text.toList).or (extractBare text.toList)) with
    | none => {}
    | some raw => readBlock raw

/-! ## Names of tools -/

/-- The tool form of a call: `{ tool: "plugin__function", args }`. -/
def toolEntry (call : ToolCallRequest) : Json :=
  .obj [("tool", .str (call.pluginId ++ "__" ++ call.function)), ("args", call.args)]

/-- A call whose plugin and function have names, the plugin's without the separator. -/
structure Named (call : ToolCallRequest) : Prop where
  plugin : call.pluginId ≠ ""
  function : call.function ≠ ""
  separator : ¬ toolSep <:+: call.pluginId.toList

/-- What the tool form needs besides: arguments of type `object`, and a plugin whose name does not
run into the separator. -/
structure Separable (call : ToolCallRequest) : Prop where
  args : (toolArgs (some call.args)).isSome
  plugin : call.pluginId.toList.getLast? ≠ some '_'

theorem toolArgs_eq {v w : Json} (h : toolArgs (some v) = some w) : w = v := by
  cases v <;> cases h <;> rfl

theorem breakOn_toolSep (t : List Char) : ∀ {s : List Char}, ¬ toolSep <:+: s →
    s.getLast? ≠ some '_' → breakOn toolSep (s ++ toolSep ++ t) = some (s, t)
  | [], _, _ => breakOn_self_append '_' ['_'] t
  | c :: s, hsep, hlast => by
    have hnot : ¬ toolSep <+: c :: (s ++ toolSep ++ t) := by
      intro hp
      rw [toolSep, List.cons_prefix_cons] at hp
      obtain ⟨rfl, hp⟩ := hp
      cases s with
      | nil => exact hlast rfl
      | cons d s =>
        rw [List.cons_append, List.cons_append, List.cons_prefix_cons] at hp
        refine hsep (List.infix_cons_iff.2 (Or.inl ?_))
        rw [← hp.1]
        exact List.prefix_append toolSep s
    have ih : breakOn toolSep (s ++ toolSep ++ t) = some (s, t) := by
      refine breakOn_toolSep t (fun h => hsep (List.infix_cons h)) fun h => hlast ?_
      rw [List.getLast?_cons, h]
      rfl
    rw [List.cons_append, List.cons_append, breakOn_cons_of_not hnot, ih]
    rfl

/-- **A name is split where it was joined** iff the plugin does not end in half a separator. -/
theorem breakOn_toolSep_iff {s t : List Char} (hsep : ¬ toolSep <:+: s) :
    breakOn toolSep (s ++ toolSep ++ t) = some (s, t) ↔ s.getLast? ≠ some '_' := by
  refine ⟨fun h hlast => ?_, breakOn_toolSep t hsep⟩
  obtain ⟨init, rfl⟩ := List.getLast?_eq_some_iff.1 hlast
  -- the separator is met one character earlier
  have hearly : init ++ ['_'] ++ toolSep ++ t = init ++ toolSep ++ ('_' :: t) := by
    simp [toolSep]
  have hle := breakOn_length_le h hearly
  rw [List.length_append, List.length_singleton] at hle
  omega

theorem toList_tool (call : ToolCallRequest) :
    (call.pluginId ++ "__" ++ call.function).toList =
      call.pluginId.toList ++ toolSep ++ call.function.toList := by
  rw [String.toList_append, String.toList_append]
  rfl

theorem toList_ne_nil {s : String} (h : s ≠ "") : s.toList ≠ [] :=
  fun hnil => h (String.toList_eq_nil_iff.1 hnil)

theorem splitTool_iff {call : ToolCallRequest} (hnamed : Named call) (args : Json) :
    splitTool (call.pluginId ++ "__" ++ call.function) args =
        some ⟨call.pluginId, call.function, args⟩ ↔
      call.pluginId.toList.getLast? ≠ some '_' := by
  rw [← breakOn_toolSep_iff hnamed.separator, splitTool, toList_tool]
  constructor
  · intro h
    split at h
    · cases h
    · next pluginId fn hbreak =>
      split at h
      · cases h
      · simp only [Option.some.injEq, ToolCallRequest.mk.injEq, and_true] at h
        rw [hbreak, ← h.1, ← h.2, String.toList_ofList, String.toList_ofList]
  · intro h
    rw [h]
    simp [toList_ne_nil hnamed.plugin, toList_ne_nil hnamed.function]

theorem normalize_toolEntry (call : ToolCallRequest) :
    normalizeEntry (toolEntry call) = (toolArgs (some call.args)).bind
      (splitTool (call.pluginId ++ "__" ++ call.function)) := rfl

/-- **A call is read back** from its tool form iff it is separable. -/
theorem normalize_toolEntry_iff {call : ToolCallRequest} (hnamed : Named call) :
    normalizeEntry (toolEntry call) = some call ↔ Separable call := by
  rw [normalize_toolEntry]
  cases hargs : toolArgs (some call.args) with
  | none => exact iff_of_false nofun fun h => by simpa [hargs] using h.args
  | some args =>
    cases toolArgs_eq hargs
    rw [Option.bind_some]
    exact (splitTool_iff hnamed call.args).trans
      ⟨fun h => ⟨by rw [hargs]; rfl, h⟩, Separable.plugin⟩

theorem filterMap_eq_self_iff {α : Type} {f : α → Option α} :
    ∀ {l : List α}, l.filterMap f = l ↔ ∀ a ∈ l, f a = some a
  | [] => by simp
  | a :: l => by
    rw [List.forall_mem_cons, ← filterMap_eq_self_iff, List.filterMap_cons]
    cases hfa : f a with
    | none =>
      refine iff_of_false (fun h => ?_) (fun h => by cases h.1)
      have hall : l.filterMap f = a :: l := h
      have hlen := List.length_filterMap_le f l
      rw [hall, List.length_cons] at hlen
      omega
    | some b => simp

/-! ## Blocks -/

/-- The text holds a complete `<tool_calls>` block. -/
def HasBlock (text : List Char) : Prop :=
  ∃ before content after, text = before ++ openTag ++ content ++ closeTag ++ after

/-- The text, without the white space around it, is a JSON text of the calls in the tool form. -/
def Spells (body : List Char) (calls : List ToolCallRequest) : Prop :=
  Json.parse (String.ofList (Number.trim body)) = some (.arr (calls.map toolEntry))

theorem readBlock_of_spells {body : List Char} {calls : List ToolCallRequest}
    (h : Spells body calls) :
    (readBlock (Number.trim body)).calls = (calls.map toolEntry).filterMap normalizeEntry := by
  rw [readBlock, h]

theorem readBlock_eq_iff {body : List Char} {calls : List ToolCallRequest}
    (hnamed : ∀ call ∈ calls, Named call) (h : Spells body calls) :
    (readBlock (Number.trim body)).calls = calls ↔ ∀ call ∈ calls, Separable call := by
  rw [readBlock_of_spells h, List.filterMap_map, filterMap_eq_self_iff]
  exact forall₂_congr fun call hcall => normalize_toolEntry_iff (hnamed call hcall)

theorem extractTagged_none {text : List Char} (h : ¬ HasBlock text) :
    extractTagged text = none := by
  cases hopen : breakOn openTag text with
  | none => rw [extractTagged, hopen]; rfl
  | some parts =>
    obtain ⟨before, afterOpen⟩ := parts
    cases hclose : breakOn closeTag afterOpen with
    | none => rw [extractTagged, hopen]; simp [hclose]
    | some parts =>
      obtain ⟨content, after⟩ := parts
      refine absurd ⟨before, content, after, ?_⟩ h
      rw [breakOn_eq_append hopen, breakOn_eq_append hclose]
      simp only [List.append_assoc]

theorem not_hasBlock {text : List Char} (h : breakOn openTag text = none) : ¬ HasBlock text := by
  rintro ⟨before, content, after, rfl⟩
  refine breakOn_eq_none_iff.1 h ⟨before, content ++ closeTag ++ after, ?_⟩
  simp only [List.append_assoc]

theorem extractTagged_of_block {before body : List Char} (after : List Char)
    (hbefore : ¬ openTag <:+: before) (hbody : ¬ closeTag <:+: body) :
    extractTagged (before ++ openTag ++ body ++ closeTag ++ after) = some (Number.trim body) := by
  have hopen : breakOn openTag (before ++ openTag ++ (body ++ closeTag ++ after)) =
      some (before, body ++ closeTag ++ after) := breakOn_of_head (by decide) _ hbefore
  have hclose : breakOn closeTag (body ++ closeTag ++ after) = some (body, after) :=
    breakOn_of_head (by decide) _ hbody
  rw [extractTagged]
  simp only [List.append_assoc] at hopen hclose ⊢
  simp [hopen, hclose]

theorem extractFenced_none {text : List Char} (h : Json.LineOk text) :
    extractFenced text = none := by
  cases hopen : breakOn fenceOpen text with
  | none => rw [extractFenced, hopen]; rfl
  | some parts =>
    obtain ⟨before, afterOpen⟩ := parts
    cases hline : breakOn ['\n'] afterOpen with
    | none => rw [extractFenced, hopen]; simp [hline]
    | some parts =>
      obtain ⟨line, lines⟩ := parts
      cases hclose : breakOn fenceClose ('\n' :: lines) with
      | none => rw [extractFenced, hopen]; simp [hline, hclose]
      | some parts =>
        obtain ⟨content, after⟩ := parts
        refine absurd ?_ h
        have htick : ['\n', '\x60'] <:+: fenceClose := ⟨[], ['\x60', '\x60'], rfl⟩
        have hlines : fenceClose <:+: '\n' :: lines :=
          ⟨content, after, (breakOn_eq_append hclose).symm⟩
        have hsuffix : ('\n' :: lines) <:+: text := by
          refine ⟨before ++ fenceOpen ++ line, [], ?_⟩
          rw [breakOn_eq_append hopen, breakOn_eq_append hline]
          simp
        exact htick.trans (hlines.trans hsuffix)

/-! ## Bare arrays -/

/-- The brackets of a text match, and at its end for the first time. -/
structure BracketsMatch (text : List Char) : Prop where
  total : text.count '[' = text.count ']'
  initial : ∀ first rest, text = first ++ rest → first ≠ [] → rest ≠ [] →
    first.count ']' < first.count '['

theorem bracketsMatch_iff {text : List Char} : BracketsMatch text ↔
    text.count '[' = text.count ']' ∧
      ∀ first ∈ text.inits, first ≠ [] → first ≠ text → first.count ']' < first.count '[' := by
  constructor
  · rintro ⟨htotal, hinitial⟩
    refine ⟨htotal, fun first hmem hne hproper => ?_⟩
    obtain ⟨rest, hrest⟩ := (List.mem_inits first text).1 hmem
    refine hinitial first rest hrest.symm hne ?_
    rintro rfl
    exact hproper (by rw [← hrest, List.append_nil])
  · rintro ⟨htotal, hinitial⟩
    refine ⟨htotal, fun first rest htext hne hrest => ?_⟩
    have hmem : first ∈ text.inits := (List.mem_inits first text).2 ⟨rest, htext.symm⟩
    refine hinitial first hmem hne fun heq => hrest ?_
    rw [heq] at htext
    exact List.self_eq_append_right.1 htext

instance (text : List Char) : Decidable (BracketsMatch text) :=
  decidable_of_iff' _ bracketsMatch_iff

theorem scanBrackets_open (depth : ℕ) (text : List Char) :
    scanBrackets depth ('[' :: text) = (scanBrackets (depth + 1) text).map ('[' :: ·) := rfl

theorem scanBrackets_append (t : List Char) : ∀ {s : List Char} {depth : ℕ}, 0 < depth →
    depth + s.count '[' = s.count ']' →
    (∀ first rest, s = first ++ rest → rest ≠ [] → first.count ']' < depth + first.count '[') →
    scanBrackets depth (s ++ t) = some s
  | [], depth, hdepth, htotal, _ => by
    rw [List.count_nil, List.count_nil] at htotal
    omega
  | c :: s, depth, hdepth, htotal, hinitial => by
    have hnext : ∀ first rest, s = first ++ rest → rest ≠ [] →
        (c :: first).count ']' < depth + (c :: first).count '[' := fun first rest hs hrest =>
      hinitial (c :: first) rest (by rw [hs, List.cons_append]) hrest
    rw [List.cons_append, scanBrackets]
    simp only [List.count_cons, beq_iff_eq] at htotal hnext
    by_cases hopen : c = '['
    · subst hopen
      simp only [if_true, Char.reduceEq, if_false] at htotal hnext ⊢
      rw [scanBrackets_append t (Nat.succ_pos depth) (by omega)
        fun first rest hs hrest => by have := hnext first rest hs hrest; omega]
      rfl
    by_cases hclose : c = ']'
    · subst hclose
      simp only [if_true, Char.reduceEq, if_false] at htotal hnext ⊢
      by_cases hone : depth - 1 = 0
      · rw [if_pos hone]
        -- the last open bracket is closed, so nothing is left
        by_cases hs : s = []
        · rw [hs]
        · have := hnext [] s rfl hs
          rw [List.count_nil, List.count_nil] at this
          omega
      · rw [if_neg hone, scanBrackets_append t (by omega) (by omega)
          fun first rest hs hrest => by have := hnext first rest hs hrest; omega]
        rfl
    · simp only [if_neg hopen, if_neg hclose] at htotal hnext ⊢
      rw [scanBrackets_append t hdepth (by omega)
        fun first rest hs hrest => by have := hnext first rest hs hrest; omega]
      rfl

/-- **The scan takes the whole array** if its brackets match. -/
theorem extractBare_of_match {body : List Char} {calls : List ToolCallRequest}
    (hbody : Spells body calls) (hmatch : BracketsMatch (Number.trim body)) :
    extractBare body = some (Number.trim body) := by
  obtain ⟨t, ht⟩ := Json.bracket_of_parse_trim hbody
  obtain ⟨w₁, w₂, hsplit, hw₁, -, -⟩ := Json.exists_trim body
  have hskip : body.dropWhile (· ≠ '[') = Number.trim body ++ w₂ := by
    nth_rewrite 1 [hsplit]
    rw [List.dropWhile_append_of_pos, ht, List.cons_append, List.dropWhile_cons_of_neg (by simp)]
    rintro c hc
    refine decide_eq_true ?_
    rintro rfl
    exact absurd (hw₁ _ hc) (by decide)
  obtain ⟨htotal, hinitial⟩ := hmatch
  rw [ht] at htotal hinitial
  simp only [List.count_cons, beq_iff_eq, if_true, Char.reduceEq, if_false] at htotal
  have hscan : scanBrackets 1 (t ++ w₂) = some t := by
    refine scanBrackets_append w₂ one_pos (by omega) fun first rest hs hrest => ?_
    have := hinitial ('[' :: first) rest (by rw [hs, List.cons_append]) (List.cons_ne_nil _ _) hrest
    simp only [List.count_cons, beq_iff_eq, if_true, Char.reduceEq, if_false] at this
    omega
  rw [extractBare, hskip, ht, List.cons_append, scanBrackets_open, hscan]
  rfl

/-! ## Round trip -/

theorem parseToolCalls_of_fenced {text : String} {raw : List Char}
    (h : extractFenced text.toList = some raw) : parseToolCalls text = readBlock raw := by
  rw [parseToolCalls, if_neg, h]
  · rfl
  · rintro rfl
    cases h

theorem parseToolCalls_of_tagged {text : String} {raw : List Char}
    (hfenced : extractFenced text.toList = none) (h : extractTagged text.toList = some raw) :
    parseToolCalls text = readBlock raw := by
  rw [parseToolCalls, if_neg, hfenced, h]
  · rfl
  · rintro rfl
    cases h

theorem parseToolCalls_of_bare {text : String} {raw : List Char}
    (hfenced : extractFenced text.toList = none) (htagged : extractTagged text.toList = none)
    (h : extractBare text.toList = some raw) : parseToolCalls text = readBlock raw := by
  rw [parseToolCalls, if_neg, hfenced, htagged, h]
  · rfl
  · rintro rfl
    cases h

/-- **The text protocol of tool calls.** A fenced block is read before anything else. Without one,
the calls that a tagged block or a bare array spells are what is read iff each of them has arguments
of type `object` and a plugin whose name does not run into the separator. -/
theorem parseToolCalls_round_trip :
    (∀ text raw, extractFenced text.toList = some raw → parseToolCalls text = readBlock raw) ∧
    ∀ calls body, (∀ call ∈ calls, Named call) → Spells body calls →
      (∀ before after, extractFenced (before ++ openTag ++ body ++ closeTag ++ after) = none →
        ¬ openTag <:+: before → ¬ closeTag <:+: body →
        ((parseToolCalls (String.ofList (before ++ openTag ++ body ++ closeTag ++ after))).calls =
          calls ↔ ∀ call ∈ calls, Separable call)) ∧
      (¬ HasBlock body → BracketsMatch (Number.trim body) →
        ((parseToolCalls (String.ofList body)).calls = calls ↔
          ∀ call ∈ calls, Separable call)) := by
  refine ⟨fun text raw => parseToolCalls_of_fenced, fun calls body hnamed hbody =>
    ⟨fun before after hfenced hbefore hclose => ?_, fun hblock hmatch => ?_⟩⟩
  · rw [parseToolCalls_of_tagged (by rwa [String.toList_ofList])
      (by rw [String.toList_ofList]; exact extractTagged_of_block after hbefore hclose)]
    exact readBlock_eq_iff hnamed hbody
  · have hline := (Json.noTick_of_parse_trim hbody).lineOk
    rw [parseToolCalls_of_bare (by rw [String.toList_ofList]; exact extractFenced_none hline)
      (by rw [String.toList_ofList]; exact extractTagged_none hblock)
      (by rw [String.toList_ofList]; exact extractBare_of_match hbody hmatch)]
    exact readBlock_eq_iff hnamed hbody

/-! ## At a call -/

def plainCall : ToolCallRequest := ⟨"p", "f", .obj []⟩

def plainCallText : List Char :=
  ['[', '\x7b', '"', 't', 'o', 'o', 'l', '"', ':', '"', 'p', '_', '_', 'f', '"', ',', '"', 'a', 'r',
    'g', 's', '"', ':', '\x7b', '\x7d', '\x7d', ']']

theorem named_plainCall : ∀ call ∈ [plainCall], Named call := by
  intro call hcall
  rw [List.mem_singleton.1 hcall]
  exact ⟨by decide, by decide, breakOn_eq_none_iff.1 (by decide)⟩

theorem toolEntry_plainCall : toolEntry plainCall =
    .obj [("tool", .str "p__f"), ("args", .obj [])] := by
  have hname : "p" ++ "__" ++ "f" = "p__f" := by decide
  rw [toolEntry, plainCall]
  dsimp only
  rw [hname]

theorem spells_plainCall : Spells plainCallText [plainCall] := by
  have htrim : Number.trim plainCallText = plainCallText := by decide
  rw [Spells, htrim, List.map_singleton, toolEntry_plainCall, Json.parse, String.toList_ofList]
  rfl

/-- The call is read from the tagged block and from the bare array. -/
theorem plainCall_round_trip :
    (parseToolCalls (String.ofList (['N', 'o', 'w', '.'] ++ openTag ++ plainCallText ++ closeTag ++
      ['.']))).calls = [plainCall] ∧
    (parseToolCalls (String.ofList plainCallText)).calls = [plainCall] := by
  have hseparable : ∀ call ∈ [plainCall], Separable call := fun call hcall => by
    rw [List.mem_singleton.1 hcall]
    exact ⟨rfl, by decide⟩
  obtain ⟨htagged, hbare⟩ := parseToolCalls_round_trip.2 [plainCall] plainCallText named_plainCall
    spells_plainCall
  refine ⟨(htagged ['N', 'o', 'w', '.'] ['.'] ?_ ?_ ?_).2 hseparable,
    (hbare ?_ ?_).2 hseparable⟩
  · decide
  · exact breakOn_eq_none_iff.1 (by decide)
  · exact breakOn_eq_none_iff.1 (by decide)
  · exact not_hasBlock (by decide)
  · decide

def emptyFence : List Char := fenceOpen ++ ['\n', '[', ']'] ++ fenceClose

theorem readBlock_empty : (readBlock ['[', ']']).calls = [] := by
  have hparse : Json.parse (String.ofList ['[', ']']) = some (.arr []) := by
    rw [Json.parse, String.toList_ofList]
    rfl
  rw [readBlock, hparse]
  rfl

/-- **A fenced block before the tags** is read in their place. -/
theorem fenced_shadows_tagged :
    ¬ ∀ (calls : List ToolCallRequest) (body before after : List Char),
      (∀ call ∈ calls, Named call) → Spells body calls → ¬ HasBlock before → ¬ HasBlock after →
      (parseToolCalls (String.ofList (before ++ openTag ++ body ++ closeTag ++ after))).calls =
        calls := by
  intro h
  have hcalls := h [plainCall] plainCallText emptyFence [] named_plainCall spells_plainCall
    (not_hasBlock (by decide)) (not_hasBlock (by decide))
  have hfenced : extractFenced (emptyFence ++ openTag ++ plainCallText ++ closeTag ++ []) =
      some ['[', ']'] := by decide
  rw [parseToolCalls_of_fenced (by rw [String.toList_ofList]; exact hfenced),
    readBlock_empty] at hcalls
  cases hcalls

end NeoTrader

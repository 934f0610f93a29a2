import NeoTrader.Agents.ToolCalls
import NeoTrader.Js.Blocks

/-!
# The calls that are taken out of an answer

What is shown of an answer of the language model is its text without the `<tool_calls>` blocks. The
blocks that are taken out and the block that is read are found by two recognisers: all blocks, in
letters of either case, are taken out; the first one in lower case is read, and only if there is no
fenced block.

* **`hidden_parsed_iff`**: which texts hide no call that is not read;
* **`second_block_hidden`**: the second of two blocks is hidden, and not read.
-/

namespace NeoTrader

open Js

/-! ## The text that is shown -/

/-- The blocks of an answer, each with the text before it, and the text after the last one. -/
def splitToolCalls (text : List Char) : List (List Char × Block Char) × List Char :=
  splitBlocks Char.toLower openTag closeTag text.length text

/-- The blocks that are taken out of an answer. -/
def toolCallBlocks (text : List Char) : List (Block Char) := (splitToolCalls text).1.map Prod.snd

/-- At most two line breaks in a row; `seen` of them are before the text. -/
def collapseBreaks : ℕ → List Char → List Char
  | _, [] => []
  | seen, c :: text =>
    if c = '\n' then
      if seen < 2 then c :: collapseBreaks (seen + 1) text else collapseBreaks seen text
    else c :: collapseBreaks 0 text

/-- The text of an answer that is shown and stored. -/
def stripToolCallBlocks (text : String) : String :=
  if text = "" then text
  else
    let (parts, rest) := splitToolCalls text.toList
    String.ofList (Number.trim (collapseBreaks 0 (parts.flatMap Prod.fst ++ rest)))

/-! ## What is read -/

/-- The content of a block is a JSON array of these calls. -/
def WellFormedCalls (content : List Char) (calls : List ToolCallRequest) : Prop :=
  ∃ entries, Json.parse (String.ofList (Number.trim content)) = some (.arr entries) ∧
    entries.map normalizeEntry = calls.map some

/-- **Every call that is taken out of the text is read**: the calls of each block that is taken out
and that holds well-formed calls are among those of the text. -/
def HiddenParsed (text : String) : Prop :=
  ∀ block ∈ toolCallBlocks text.toList, ∀ calls, WellFormedCalls block.content calls →
    ∀ call ∈ calls, call ∈ (parseToolCalls text).calls

/-- The part of a text that is read: a fenced block, or else the first block in lower case, or else
the first array. -/
inductive ReadsFrom (text : List Char) : List Char → Prop
  | fenced {raw : List Char} (found : extractFenced text = some raw) : ReadsFrom text raw
  | tagged {before body after : List Char} (unfenced : extractFenced text = none)
      (text_eq : text = before ++ openTag ++ body ++ closeTag ++ after)
      (first : ¬ openTag <:+: before) (closed : ¬ closeTag <:+: body) :
      ReadsFrom text (Number.trim body)
  | bare {raw : List Char} (unfenced : extractFenced text = none) (untagged : ¬ HasBlock text)
      (found : extractBare text = some raw) : ReadsFrom text raw

/-- A JSON text is an array with an entry for the call. -/
def Offers (raw : List Char) (call : ToolCallRequest) : Prop :=
  ∃ entries, Json.parse (String.ofList raw) = some (.arr entries) ∧
    ∃ entry ∈ entries, normalizeEntry entry = some call

theorem mem_readBlock {raw : List Char} {call : ToolCallRequest} :
    call ∈ (readBlock raw).calls ↔ Offers raw call := by
  rw [readBlock, Offers]
  constructor
  · intro h
    split at h
    · next entries hparse => exact ⟨entries, hparse, List.mem_filterMap.1 h⟩
    · cases h
  · rintro ⟨entries, hparse, h⟩
    rw [hparse]
    exact List.mem_filterMap.2 h

theorem not_hasBlock_of_extractTagged {text : List Char} (h : extractTagged text = none) :
    ¬ HasBlock text := by
  rintro ⟨before, content, after, htext⟩
  rw [List.append_assoc, List.append_assoc] at htext
  have hopening : openTag <:+: text :=
    ⟨before, content ++ (closeTag ++ after), by rw [htext, List.append_assoc]⟩
  obtain ⟨front, afterOpen, hopen⟩ := exists_breakOn hopening
  have hle : front.length ≤ before.length :=
    breakOn_length_le hopen (by rw [htext, List.append_assoc])
  -- the first opening tag is not after this one, so its rest holds the closing tag
  have hrest : content ++ (closeTag ++ after) <:+ text :=
    ⟨before ++ openTag, by rw [htext, List.append_assoc]⟩
  have hafter : afterOpen <:+ text := ⟨front ++ openTag, (breakOn_eq_append hopen).symm⟩
  have hsuffix : content ++ (closeTag ++ after) <:+ afterOpen := by
    refine List.suffix_of_suffix_length_le hrest hafter ?_
    have hlen := congrArg List.length (htext.symm.trans (breakOn_eq_append hopen))
    simp only [List.length_append] at hlen ⊢
    omega
  have hclosing : closeTag <:+: content ++ (closeTag ++ after) :=
    ⟨content, after, by rw [List.append_assoc]⟩
  obtain ⟨body, rest, hclose⟩ := exists_breakOn (hclosing.trans hsuffix.isInfix)
  rw [extractTagged] at h
  simp [hopen, hclose] at h

theorem extractTagged_eq_some {text raw : List Char} (h : extractTagged text = some raw) :
    ∃ before body after, text = before ++ openTag ++ body ++ closeTag ++ after ∧
      ¬ openTag <:+: before ∧ ¬ closeTag <:+: body ∧ raw = Number.trim body := by
  rw [extractTagged] at h
  cases hopen : breakOn openTag text with
  | none => simp [hopen] at h
  | some parts =>
    obtain ⟨before, afterOpen⟩ := parts
    cases hclose : breakOn closeTag afterOpen with
    | none => simp [hopen, hclose] at h
    | some parts =>
      obtain ⟨body, after⟩ := parts
      simp only [hopen, hclose, Option.bind_eq_bind, Option.bind_some, Option.pure_def,
        Option.some.injEq] at h
      refine ⟨before, body, after, ?_, not_infix_of_breakOn (by decide) hopen,
        not_infix_of_breakOn (by decide) hclose, h.symm⟩
      rw [breakOn_eq_append hopen, breakOn_eq_append hclose]
      simp only [List.append_assoc]

/-- **The part that is read** is the one that the three ways of extraction find. -/
theorem readsFrom_iff {text raw : List Char} : ReadsFrom text raw ↔
    (extractFenced text).or ((extractTagged text).or (extractBare text)) = some raw := by
  constructor
  · intro h
    cases h with
    | fenced found => rw [found, Option.some_or]
    | tagged unfenced text_eq first closed =>
      rw [unfenced, Option.none_or, text_eq, extractTagged_of_block _ first closed, Option.some_or]
    | bare unfenced untagged found =>
      rw [unfenced, Option.none_or, extractTagged_none untagged, Option.none_or, found]
  · intro h
    cases hfenced : extractFenced text with
    | some found =>
      rw [hfenced, Option.some_or] at h
      exact .fenced (hfenced.trans h)
    | none =>
      rw [hfenced, Option.none_or] at h
      cases htagged : extractTagged text with
      | some found =>
        rw [htagged, Option.some_or] at h
        obtain ⟨before, body, after, htext, hfirst, hclosed, rfl⟩ := extractTagged_eq_some htagged
        rw [Option.some.injEq] at h
        exact h ▸ .tagged hfenced htext hfirst hclosed
      | none =>
        rw [htagged, Option.none_or] at h
        exact .bare hfenced (not_hasBlock_of_extractTagged htagged) h

/-- **The calls of a text** are those of the part that is read. -/
theorem mem_parseToolCalls {text : String} {call : ToolCallRequest} :
    call ∈ (parseToolCalls text).calls ↔ ∃ raw, ReadsFrom text.toList raw ∧ Offers raw call := by
  rw [parseToolCalls]
  simp only [readsFrom_iff]
  split_ifs with hempty
  · subst hempty
    refine iff_of_false List.not_mem_nil ?_
    rintro ⟨raw, hraw, -⟩
    cases hraw
  · cases hread : (extractFenced text.toList).or
      ((extractTagged text.toList).or (extractBare text.toList)) with
    | none => simp
    | some raw => simp [mem_readBlock]

/-- A block in lower case. -/
structure Lower (block : Block Char) : Prop where
  opening : block.opening = openTag
  closing : block.closing = closeTag

/-- **A first block in lower case is read**, where there is no fenced block. -/
theorem readsFrom_first {text : List Char} {block : Block Char}
    (hfenced : extractFenced text = none) (hlower : Lower block)
    (hfirst : (toolCallBlocks text).head? = some block) :
    ReadsFrom text (Number.trim block.content) := by
  have hopenTag : openTag.map Char.toLower = openTag := by decide
  have hcloseTag : closeTag.map Char.toLower = closeTag := by decide
  obtain ⟨before, after, hblock⟩ : ∃ before after,
      firstBlock Char.toLower openTag closeTag text = some (before, block, after) := by
    rw [toolCallBlocks, splitToolCalls] at hfirst
    cases hlen : text.length with
    | zero => rw [hlen, splitBlocks] at hfirst; cases hfirst
    | succ bound =>
      rw [hlen, splitBlocks] at hfirst
      cases hsome : firstBlock Char.toLower openTag closeTag text with
      | none => rw [hsome] at hfirst; cases hfirst
      | some parts =>
        obtain ⟨before, found, after⟩ := parts
        rw [hsome] at hfirst
        cases hfirst
        exact ⟨before, after, rfl⟩
  have h := FirstBlock.of_eq (by decide) (by decide) hblock
  have htext : text = before ++ openTag ++ block.content ++ closeTag ++ after := by
    rw [h.text_eq, Block.text, hlower.opening, hlower.closing]
    simp only [List.append_assoc]
  refine .tagged hfenced htext (fun hinfix => h.not_before ?_) fun hinfix => h.not_inside ?_
  · rw [← hopenTag]
    exact hinfix.map _
  · rw [← hcloseTag]
    exact hinfix.map _

theorem ReadsFrom.unique {text raw raw' : List Char} (h : ReadsFrom text raw)
    (h' : ReadsFrom text raw') : raw = raw' :=
  Option.some.inj ((readsFrom_iff.1 h).symm.trans (readsFrom_iff.1 h'))

/-! ## What is hidden -/

theorem WellFormedCalls.offers {content : List Char} {calls : List ToolCallRequest}
    (h : WellFormedCalls content calls) {call : ToolCallRequest} (hcall : call ∈ calls) :
    Offers (Number.trim content) call := by
  obtain ⟨entries, hparse, hentries⟩ := h
  have hmem : some call ∈ entries.map normalizeEntry := by
    rw [hentries]
    exact List.mem_map_of_mem hcall
  exact ⟨entries, hparse, List.mem_map.1 hmem⟩

theorem Spells.wellFormed {body : List Char} {calls : List ToolCallRequest}
    (h : Spells body calls) (hnamed : ∀ call ∈ calls, Named call)
    (hseparable : ∀ call ∈ calls, Separable call) : WellFormedCalls body calls := by
  refine ⟨calls.map toolEntry, h, ?_⟩
  rw [List.map_map]
  exact List.map_congr_left fun call hcall =>
    (normalize_toolEntry_iff (hnamed call hcall)).2 (hseparable call hcall)

/-- **Which texts hide no call that is not read.** Each call of a block that is taken out has to be
offered by the part of the text that is read. Where there is no fenced block and the first block is
in lower case, that part is this block, so that only the others can hide a call. -/
theorem hidden_parsed_iff (text : String) :
    (HiddenParsed text ↔
      ∀ block ∈ toolCallBlocks text.toList, ∀ calls, WellFormedCalls block.content calls →
        ∀ call ∈ calls, ∃ raw, ReadsFrom text.toList raw ∧ Offers raw call) ∧
    ∀ first others, toolCallBlocks text.toList = first :: others →
      extractFenced text.toList = none → Lower first →
      (HiddenParsed text ↔
        ∀ block ∈ others, ∀ calls, WellFormedCalls block.content calls →
          ∀ call ∈ calls, Offers (Number.trim first.content) call) := by
  refine ⟨?_, fun first others hblocks hfenced hlower => ?_⟩
  · simp only [HiddenParsed, mem_parseToolCalls]
  have hreads : ReadsFrom text.toList (Number.trim first.content) :=
    readsFrom_first hfenced hlower (by rw [hblocks, List.head?_cons])
  have hcalls (call : ToolCallRequest) :
      call ∈ (parseToolCalls text).calls ↔ Offers (Number.trim first.content) call := by
    rw [mem_parseToolCalls]
    constructor
    · rintro ⟨raw, hraw, hoffers⟩
      exact hreads.unique hraw ▸ hoffers
    · exact fun hoffers => ⟨_, hreads, hoffers⟩
  simp only [HiddenParsed, hcalls, hblocks, List.forall_mem_cons]
  exact and_iff_right fun calls hformed call => hformed.offers

/-- An answer with one block in lower case: what is hidden is read. -/
theorem plainCall_hidden_parsed :
    HiddenParsed (String.ofList (['O', 'k', '.'] ++ openTag ++ plainCallText ++ closeTag)) := by
  refine ((hidden_parsed_iff _).2 ⟨openTag, plainCallText, closeTag⟩ [] ?_ ?_ ⟨rfl, rfl⟩).2 nofun
  · rw [String.toList_ofList]
    decide
  · rw [String.toList_ofList]
    decide

/-! ## At two blocks -/

def otherCall : ToolCallRequest := ⟨"p", "g", .obj []⟩

def otherCallText : List Char :=
  ['[', '\x7b', '"', 't', 'o', 'o', 'l', '"', ':', '"', 'p', '_', '_', 'g', '"', ',', '"', 'a', 'r',
    'g', 's', '"', ':', '\x7b', '\x7d', '\x7d', ']']

def twoBlocks : List Char :=
  openTag ++ plainCallText ++ closeTag ++ openTag ++ otherCallText ++ closeTag

theorem separable_plainCall : ∀ call ∈ [plainCall], Separable call := by
  intro call hcall
  rw [List.mem_singleton.1 hcall]
  exact ⟨rfl, by decide⟩

theorem wellFormed_otherCall : WellFormedCalls otherCallText [otherCall] := by
  have hname : "p" ++ "__" ++ "g" = "p__g" := by decide
  have htrim : Number.trim otherCallText = otherCallText := by decide
  have hspells : Spells otherCallText [otherCall] := by
    rw [Spells, htrim, List.map_singleton, toolEntry, otherCall]
    dsimp only
    rw [hname, Json.parse, String.toList_ofList]
    rfl
  refine hspells.wellFormed (fun call hcall => ?_) fun call hcall => ?_
  · rw [List.mem_singleton.1 hcall]
    exact ⟨by decide, by decide, breakOn_eq_none_iff.1 (by decide)⟩
  · rw [List.mem_singleton.1 hcall]
    exact ⟨rfl, by decide⟩

/-- **The second of two blocks is hidden**, and its call is not read. -/
theorem second_block_hidden : ¬ HiddenParsed (String.ofList twoBlocks) := by
  intro h
  have hblock : ⟨openTag, otherCallText, closeTag⟩ ∈ toolCallBlocks twoBlocks := by
    decide
  rw [HiddenParsed, String.toList_ofList] at h
  have hcall := h _ hblock [otherCall] wellFormed_otherCall otherCall (List.mem_singleton_self _)
  have hfenced : extractFenced twoBlocks = none := by decide +kernel
  have htagged : extractTagged twoBlocks = some plainCallText := by decide
  rw [parseToolCalls_of_tagged (by rw [String.toList_ofList]; exact hfenced)
    (by rw [String.toList_ofList]; exact htagged)] at hcall
  have htrim : Number.trim plainCallText = plainCallText := by decide
  have hread : (readBlock plainCallText).calls = [plainCall] := by
    rw [← htrim]
    exact (readBlock_eq_iff named_plainCall spells_plainCall).2 separable_plainCall
  rw [hread, List.mem_singleton] at hcall
  exact absurd (congrArg ToolCallRequest.function hcall) (by decide)

end NeoTrader

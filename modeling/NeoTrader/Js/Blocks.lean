import NeoTrader.Js.Search

/-!
# The blocks between two marks

`s.replace(/open[\s\S]*?close/g, '')`, where the letters of the marks are compared after `fold`:
from left to right, a block goes from the first opening mark to the first closing mark after it.

* `breakOnBy`: the first occurrence of a pattern up to `fold`, with the text on both sides;
* `firstBlock`, `splitBlocks`: the first block, and all of them;
* **`FirstBlock`**: what is known of the first block.
-/

namespace Js

variable {α β : Type} [DecidableEq β]

/-- What is before the first occurrence of a pattern, the occurrence as it is written, and what is
after it. -/
def breakOnBy (fold : α → β) (pat : List β) (s : List α) : Option (List α × List α × List α) :=
  (breakOn pat (s.map fold)).map fun (before, _) =>
    (s.take before.length, (s.drop before.length).take pat.length,
      s.drop (before.length + pat.length))

structure Block (α : Type) where
  opening : List α
  content : List α
  closing : List α
  deriving DecidableEq, Repr

def Block.text (block : Block α) : List α := block.opening ++ block.content ++ block.closing

section Blocks

variable (fold : α → β) (opening closing : List β)

/-- The first block, with the text on both sides. -/
def firstBlock (text : List α) : Option (List α × Block α × List α) := do
  let (before, opened, afterOpen) ← breakOnBy fold opening text
  let (content, closed, after) ← breakOnBy fold closing afterOpen
  return (before, ⟨opened, content, closed⟩, after)

/-- The blocks of a text, each with the text before it, and the text after the last one. The number
bounds how many blocks are looked for. -/
def splitBlocks : ℕ → List α → List (List α × Block α) × List α
  | 0, text => ([], text)
  | bound + 1, text =>
    match firstBlock fold opening closing text with
    | none => ([], text)
    | some (before, block, after) =>
      ((before, block) :: (splitBlocks bound after).1, (splitBlocks bound after).2)

end Blocks

variable {fold : α → β} {opening closing pat : List β} {s text before after occurrence : List α}
  {block : Block α}

/-! ## The first occurrence -/

theorem breakOnBy_eq_append (h : breakOnBy fold pat s = some (before, occurrence, after)) :
    s = before ++ occurrence ++ after := by
  rw [breakOnBy, Option.map_eq_some_iff] at h
  obtain ⟨⟨front, rest⟩, -, heq⟩ := h
  cases heq
  rw [List.append_assoc, ← List.drop_drop, List.take_append_drop, List.take_append_drop]

theorem breakOnBy_fold (h : breakOnBy fold pat s = some (before, occurrence, after)) :
    breakOn pat (s.map fold) = some (before.map fold, after.map fold) ∧
      occurrence.map fold = pat := by
  rw [breakOnBy, Option.map_eq_some_iff] at h
  obtain ⟨⟨front, rest⟩, hbreak, heq⟩ := h
  cases heq
  have hs := breakOn_eq_append hbreak
  rw [hbreak, List.map_take, List.map_take, List.map_drop, List.map_drop, hs]
  simp

/-! ## The first block -/

/-- **What is known of the first block** of a text. -/
structure FirstBlock (fold : α → β) (opening closing : List β) (text before : List α)
    (block : Block α) (after : List α) : Prop where
  text_eq : text = before ++ block.text ++ after
  opens : block.opening.map fold = opening
  closes : block.closing.map fold = closing
  not_before : ¬ opening <:+: before.map fold
  not_inside : ¬ closing <:+: block.content.map fold

theorem firstBlock_eq_some
    (h : firstBlock fold opening closing text = some (before, block, after)) :
    ∃ afterOpen, breakOnBy fold opening text = some (before, block.opening, afterOpen) ∧
      breakOnBy fold closing afterOpen = some (block.content, block.closing, after) := by
  rw [firstBlock] at h
  cases hopen : breakOnBy fold opening text with
  | none => simp [hopen] at h
  | some parts =>
    obtain ⟨front, opened, afterOpen⟩ := parts
    cases hclose : breakOnBy fold closing afterOpen with
    | none => simp [hopen, hclose] at h
    | some parts =>
      obtain ⟨content, closed, rest⟩ := parts
      simp only [hopen, hclose, Option.bind_eq_bind, Option.bind_some, Option.pure_def,
        Option.some.injEq, Prod.mk.injEq] at h
      obtain ⟨rfl, rfl, rfl⟩ := h
      exact ⟨afterOpen, rfl, hclose⟩

theorem FirstBlock.of_eq (hopening : opening ≠ []) (hclosing : closing ≠ [])
    (h : firstBlock fold opening closing text = some (before, block, after)) :
    FirstBlock fold opening closing text before block after := by
  obtain ⟨afterOpen, hopen, hclose⟩ := firstBlock_eq_some h
  obtain ⟨hbefore, hopens⟩ := breakOnBy_fold hopen
  obtain ⟨hcontent, hcloses⟩ := breakOnBy_fold hclose
  refine ⟨?_, hopens, hcloses, not_infix_of_breakOn hopening hbefore,
    not_infix_of_breakOn hclosing hcontent⟩
  rw [breakOnBy_eq_append hopen, breakOnBy_eq_append hclose, Block.text]
  simp only [List.append_assoc]

end Js

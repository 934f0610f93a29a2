import Mathlib.Data.List.Sort
import NeoTrader.Plugins.Manifest

/-!
# The checksum of a plugin's content

The hash is taken over `manifest.toml`, `plugin.py` and the Python files directly in `hooks`: of each
its path and its text, each ended by a NUL character. Other files are not covered, and a file is read
as text before it is hashed.

* `terminated`, `terminated_inj`: texts that are ended by a character, one after the other;
* `coveredFiles`, `coveredTexts`, `computeContentChecksum`;
* `coveredPieces`, **`computeContentChecksum_inj`**: what two directories of equal checksum have in
  common;
* **`checksum_eq_iff_of_noNul`**: without NUL characters, all that is covered.
-/

namespace NeoTrader

/-! ## Terminated texts -/

section Terminated

variable {α : Type} [DecidableEq α] {z : α}

/-- Texts one after the other, each ended by a terminator. -/
def terminated (z : α) (l : List (List α)) : List α := l.flatMap fun s => s ++ [z]

theorem splitOn_terminated (l : List (List α)) :
    (terminated z l).splitOn z = l.flatMap (List.splitOn z) ++ [[]] := by
  induction l with
  | nil => rfl
  | cons s l ih =>
    have hcons : terminated z (s :: l) = s ++ z :: terminated z l := by
      simp [terminated]
    rw [hcons, List.splitOn_append_cons_self, ih, List.flatMap_cons, List.append_assoc]

/-- **Texts are determined up to where they contain the terminator.** -/
theorem terminated_inj {l l' : List (List α)} :
    terminated z l = terminated z l' ↔ l.flatMap (List.splitOn z) = l'.flatMap (List.splitOn z) := by
  constructor
  · intro h
    have hsplit := congrArg (List.splitOn z) h
    rw [splitOn_terminated, splitOn_terminated] at hsplit
    exact List.append_cancel_right hsplit
  · intro h
    have hjoin : ∀ xs : List α, List.intercalate [z] (xs.splitOn z) = xs :=
      fun _ => List.intercalate_splitOn z
    rw [← hjoin (terminated z l), splitOn_terminated, h, ← splitOn_terminated, hjoin]

theorem flatMap_splitOn_of_not_mem {l : List (List α)} (h : ∀ s ∈ l, z ∉ s) :
    l.flatMap (List.splitOn z) = l := by
  induction l with
  | nil => rfl
  | cons s l ih =>
    obtain ⟨hs, hl⟩ := List.forall_mem_cons.1 h
    rw [List.flatMap_cons, List.splitOn_eq_singleton hs, ih hl]
    rfl

end Terminated

/-! ## The checksum -/

def isPython (name : String) : Bool := ".py".toList.isSuffixOf name.toList

/-- The paths that the checksum covers: the manifest, the plugin, and the hooks in their order. -/
def coveredFiles (lib : PluginLib) (d : Directory) : List RelPath :=
  [["manifest.toml"], ["plugin.py"]] ++
    (((d.list "hooks").filter isPython).insertionSort fun a b => lib.localeLe a b = true).map
      fun name => ["hooks", name]

/-- The covered files that exist and can be read, as pairs of a path and a text. -/
def coveredTexts (lib : PluginLib) (d : Directory) : List (String × String) :=
  (coveredFiles lib d).filterMap fun path =>
    (d.text? path).map fun text => ("/".intercalate path, text)

/-- What the hash is taken over. -/
def hashedTexts (parts : List (String × String)) : List (List Char) :=
  parts.flatMap fun part => [part.1.toList, part.2.toList]

/-- **The checksum of a directory**; without a covered file there is none. -/
def computeContentChecksum (lib : PluginLib) (d : Option Directory) : Option String :=
  d.bind fun d =>
    let parts := coveredTexts lib d
    if parts = [] then none
    else some (lib.sha256 (String.ofList (terminated '\x00' (hashedTexts parts))))

/-! ## What it covers -/

/-- The paths and texts that the checksum covers, cut at their NUL characters. -/
def coveredPieces (lib : PluginLib) (d : Directory) : List (List Char) :=
  (hashedTexts (coveredTexts lib d)).flatMap (List.splitOn '\x00')

theorem hashedTexts_eq_nil {parts : List (String × String)} : hashedTexts parts = [] ↔ parts = [] := by
  cases parts <;> simp [hashedTexts]

theorem coveredPieces_eq_nil {lib : PluginLib} {d : Directory} :
    coveredPieces lib d = [] ↔ coveredTexts lib d = [] := by
  rw [← hashedTexts_eq_nil, coveredPieces]
  constructor
  · intro h
    cases hl : hashedTexts (coveredTexts lib d) with
    | nil => rfl
    | cons s l =>
      rw [hl, List.flatMap_cons, List.append_eq_nil_iff] at h
      exact absurd h.1 (List.splitOn_ne_nil _ _)
  · intro h
    rw [h]
    rfl

/-- **Directories of equal checksum** have the same covered pieces, if the hash has no
collisions. -/
theorem computeContentChecksum_inj {lib : PluginLib} (hsha : Function.Injective lib.sha256)
    {d d' : Directory} : computeContentChecksum lib (some d) = computeContentChecksum lib (some d') ↔
      coveredPieces lib d = coveredPieces lib d' := by
  have hinj : ∀ l l' : List (List Char),
      lib.sha256 (String.ofList (terminated '\x00' l)) =
        lib.sha256 (String.ofList (terminated '\x00' l')) ↔
      l.flatMap (List.splitOn '\x00') = l'.flatMap (List.splitOn '\x00') := by
    intro l l'
    rw [hsha.eq_iff, String.ofList_inj, terminated_inj]
  simp only [computeContentChecksum, Option.bind_some]
  by_cases hd : coveredTexts lib d = [] <;> by_cases hd' : coveredTexts lib d' = []
  · rw [if_pos hd, if_pos hd', coveredPieces_eq_nil.2 hd, coveredPieces_eq_nil.2 hd']
    exact iff_of_true rfl rfl
  · rw [if_pos hd, if_neg hd', coveredPieces_eq_nil.2 hd]
    exact iff_of_false nofun fun h => hd' (coveredPieces_eq_nil.1 h.symm)
  · rw [if_neg hd, if_pos hd', coveredPieces_eq_nil.2 hd']
    exact iff_of_false nofun fun h => hd (coveredPieces_eq_nil.1 h)
  · rw [if_neg hd, if_neg hd', Option.some_inj, hinj]
    rfl

theorem hashedTexts_inj {parts parts' : List (String × String)}
    (h : hashedTexts parts = hashedTexts parts') : parts = parts' := by
  induction parts generalizing parts' with
  | nil => exact (hashedTexts_eq_nil.1 h.symm).symm
  | cons part parts ih =>
    cases parts' with
    | nil => cases h
    | cons part' parts' =>
      simp only [hashedTexts, List.flatMap_cons, List.cons_append, List.nil_append,
        List.cons.injEq, String.toList_inj] at h
      rw [Prod.ext h.1 h.2.1, ih h.2.2]

/-- **Where no text contains a NUL character**, directories of equal checksum are those with the same
covered texts. -/
theorem checksum_eq_iff_of_noNul {lib : PluginLib} (hsha : Function.Injective lib.sha256)
    {d d' : Directory} (hd : ∀ s ∈ hashedTexts (coveredTexts lib d), '\x00' ∉ s)
    (hd' : ∀ s ∈ hashedTexts (coveredTexts lib d'), '\x00' ∉ s) :
    computeContentChecksum lib (some d) = computeContentChecksum lib (some d') ↔
      coveredTexts lib d = coveredTexts lib d' := by
  rw [computeContentChecksum_inj hsha, coveredPieces, coveredPieces, flatMap_splitOn_of_not_mem hd,
    flatMap_splitOn_of_not_mem hd']
  exact ⟨hashedTexts_inj, congrArg hashedTexts⟩

/-- Libraries that leave every text as it is. -/
def unhashedLib : PluginLib where
  parseToml _ := none
  tomllib _ := .ok none
  sha256 := id
  localeLe a b := a ≤ b

def oneFile (bytes : List UInt8) : Directory :=
  { name := "trend-following", files := [(["plugin.py"], some bytes)] }

theorem checksum_oneFile : computeContentChecksum unhashedLib (some (oneFile [0x61])) =
    computeContentChecksum unhashedLib (some (oneFile [0x62])) ↔
      coveredTexts unhashedLib (oneFile [0x61]) = coveredTexts unhashedLib (oneFile [0x62]) :=
  checksum_eq_iff_of_noNul Function.injective_id (by decide) (by decide)

end NeoTrader

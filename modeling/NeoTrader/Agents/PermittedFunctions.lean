import NeoTrader.Agents.ParamTuning

/-!
# The functions that a request may call

A request names a function of a plugin, and the plugin declares the keys of its functions. The names
of a request are matched against the keys by three rules, one after the other.

* **`resolve_permitted`**: both, for all keys and all requests;
* **`suffix_permitted`**: a function whose key is not declared is resolved.
-/

namespace NeoTrader.Resolution

/-! ## Keys -/

/-- The key of a function of a plugin. -/
def qualified (pluginId fn : String) : String := s!"{pluginId}.{fn}"

/-- What comes after the last dot. -/
def lastSegment (key : String) : String := String.ofList ((key.toList.splitOn '.').getLastD [])

/-- The key is one of the plugin, and ends in the name. -/
def endsIn (pluginId name key : String) : Bool :=
  s!".{name}".toList.isSuffixOf key.toList && s!"{pluginId}.".toList.isPrefixOf key.toList

/-- **The rules by which a request is permitted**, and the function that it gets. -/
inductive Permitted (declaredKeys : List String) (pluginId requested : String) : String → Prop
  | own (declared : qualified pluginId requested ∈ declaredKeys) :
      Permitted declaredKeys pluginId requested requested
  | key (declared : requested ∈ declaredKeys) :
      Permitted declaredKeys pluginId requested (lastSegment requested)
  | bare {key : String} (undotted : '.' ∉ requested.toList) (declared : key ∈ declaredKeys)
      (ends : endsIn pluginId requested key = true)
      (only : ∀ k ∈ declaredKeys, endsIn pluginId requested k = true → k = key) :
      Permitted declaredKeys pluginId requested requested

theorem toList_qualified (pluginId fn : String) :
    (qualified pluginId fn).toList = pluginId.toList ++ '.' :: fn.toList := by
  rw [qualified, String.toList_append, String.toList_append, List.append_assoc]
  rfl

theorem lastSegment_qualified (pluginId : String) {fn : String} (hfn : '.' ∉ fn.toList) :
    lastSegment (qualified pluginId fn) = fn := by
  rw [lastSegment, toList_qualified, List.splitOn_append_cons_self, List.splitOn_eq_singleton hfn,
    List.getLastD_concat, String.ofList_toList]

/-! ## The rules -/

section Rules

variable {declaredKeys : List String} {pluginId requested fn : String}

theorem resolve_own (h : qualified pluginId requested ∈ declaredKeys) :
    resolvePermittedFunction declaredKeys pluginId requested = .ok requested :=
  if_pos h

theorem resolve_key (hown : qualified pluginId requested ∉ declaredKeys)
    (h : requested ∈ declaredKeys) :
    resolvePermittedFunction declaredKeys pluginId requested = .ok (lastSegment requested) :=
  (if_neg hown).trans (if_pos h)

/-- **What is resolved is permitted.** -/
theorem resolve_sound
    (h : resolvePermittedFunction declaredKeys pluginId requested = .ok fn) :
    Permitted declaredKeys pluginId requested fn := by
  by_cases hown : qualified pluginId requested ∈ declaredKeys
  · rw [resolve_own hown] at h
    cases h
    exact .own hown
  by_cases hkey : requested ∈ declaredKeys
  · rw [resolve_key hown hkey] at h
    cases h
    exact .key hkey
  rw [resolvePermittedFunction, ← qualified, if_neg hown, if_neg hkey] at h
  dsimp only at h
  split_ifs at h with hdot
  split at h
  · cases h
  · next k hk =>
    cases h
    have hmem (k' : String) :
        k' ∈ [k] ↔ k' ∈ declaredKeys ∧ endsIn pluginId requested k' = true := by
      rw [← hk, List.mem_filter, List.mem_eraseDups]
      rfl
    obtain ⟨hdeclared, hends⟩ := (hmem k).1 (List.mem_singleton_self k)
    exact .bare hdot hdeclared hends fun k' hk' hends' =>
      List.mem_singleton.1 ((hmem k').2 ⟨hk', hends'⟩)
  · cases h

/-- **A declared function is resolved by its key.** -/
theorem resolve_qualified (hfn : '.' ∉ fn.toList) (h : qualified pluginId fn ∈ declaredKeys)
    (hown : qualified pluginId (qualified pluginId fn) ∉ declaredKeys) :
    resolvePermittedFunction declaredKeys pluginId (qualified pluginId fn) = .ok fn := by
  rw [resolve_key hown h, lastSegment_qualified pluginId hfn]

end Rules

/-- **The functions that a request may call**, for all declared keys. A function that is resolved is
permitted by one of the three rules; and a declared function without dots in its name is resolved by
its name, and by its key, which is taken for another name only if that is declared as well. -/
theorem resolve_permitted (declaredKeys : List String) (pluginId : String) :
    (∀ requested fn, resolvePermittedFunction declaredKeys pluginId requested = .ok fn →
      Permitted declaredKeys pluginId requested fn) ∧
    ∀ fn, '.' ∉ fn.toList → qualified pluginId fn ∈ declaredKeys →
      resolvePermittedFunction declaredKeys pluginId fn = .ok fn ∧
      ∃ fn', resolvePermittedFunction declaredKeys pluginId (qualified pluginId fn) = .ok fn' ∧
        (qualified pluginId (qualified pluginId fn) ∉ declaredKeys → fn' = fn) := by
  refine ⟨fun requested fn => resolve_sound, fun fn hfn h => ⟨resolve_own h, ?_⟩⟩
  by_cases hown : qualified pluginId (qualified pluginId fn) ∈ declaredKeys
  · exact ⟨_, resolve_own hown, fun hno => absurd hown hno⟩
  · exact ⟨fn, resolve_qualified hfn h hown, fun _ => rfl⟩

/-- A plugin of two functions, asked for one of them by its key. -/
theorem resolve_permitted_analyze :
    resolvePermittedFunction ["my-plugin.analyze", "my-plugin.on_cycle"] "my-plugin" "analyze" =
      .ok "analyze" ∧
    Permitted ["my-plugin.analyze", "my-plugin.on_cycle"] "my-plugin" "my-plugin.analyze"
      "analyze" := by
  have h := resolve_permitted ["my-plugin.analyze", "my-plugin.on_cycle"] "my-plugin"
  obtain ⟨fn', hfn', hsame⟩ := (h.2 "analyze" (by decide) (by decide)).2
  refine ⟨(h.2 "analyze" (by decide) (by decide)).1, h.1 "my-plugin.analyze" "analyze" ?_⟩
  rwa [hsame (by decide)] at hfn'

/-- **A name is resolved by the end of another key**, and by the key of another plugin. -/
theorem suffix_permitted :
    resolvePermittedFunction ["my-plugin.strategy.run"] "my-plugin" "run" = .ok "run" ∧
    qualified "my-plugin" "run" ∉ ["my-plugin.strategy.run"] ∧
    resolvePermittedFunction ["plugin-b.get_bars"] "plugin-a" "plugin-b.get_bars" =
      .ok "get_bars" ∧
    qualified "plugin-a" "get_bars" ∉ ["plugin-b.get_bars"] := by
  decide

end NeoTrader.Resolution

import NeoTrader.Py.Value

/-!
# Signals and disciplines

A discipline goes over the pending signals: an entry is let through, is let through in another size,
or is cancelled.

* `entryActions`, `exitActions`, `IsEntry`, `IsExit`: what a signal does;
* `Kept`, **`Judges`**: what a discipline that judges makes of its signals;
* `onActive`, `enabledLayer`: a layer over the signals that are not cancelled.
-/

namespace NeoTrader

open Js Py

/-! ## Signals -/

def entryActions : List String := ["long", "buy", "short", "sell_short"]

def exitActions : List String := ["exit", "sell", "close", "cover"]

/-- The action as a key: one that is no text is none of them. -/
def actionOf (sig : Obj) : Except String String :=
  match sig.get "action" with
  | some (.str action) => .ok action
  | some (.arr _) | some (.obj _) => .error "TypeError: unhashable type"
  | _ => .ok ""

/-- `sig.get("action") == action`. -/
def actionIs (sig : Obj) (action : String) : Bool :=
  match sig.get "action" with
  | some (.str a) => a = action
  | _ => false

/-- The pending signals of a context, which have to be dictionaries. -/
def pendingOf (ctx : Obj) : Except String (List Obj) := do
  (← asList (getD ctx "pending_signals" (.arr []))).mapM asDict

theorem mapM_asDict (signals : List Obj) : (signals.map Json.obj).mapM asDict = .ok signals := by
  induction signals with
  | nil => rfl
  | cons sig rest ih =>
    rw [List.map_cons, List.mapM_cons, ih]
    rfl

/-- A signal that closes. -/
def IsExit (s : Obj) : Prop := ∃ action ∈ exitActions, s.get "action" = some (.str action)

/-! ## What a layer makes of its signals -/

def IsEntry (s : Obj) : Prop := ∃ action ∈ entryActions, s.get "action" = some (.str action)

/-- **A signal is kept**, with its symbol and its type; its action stays or is `cancelled`. -/
structure Kept (s s' : Obj) : Prop where
  action : s'.get "action" = s.get "action" ∨ s'.get "action" = some (.str "cancelled")
  symbol : s'.get "symbol" = s.get "symbol"
  type : s'.get "type" = s.get "type"
  other : ¬ IsEntry s → s' = s

/-- **The signals are judged**: each comes from one that was pending, and what is no entry stays. -/
structure Judges (l l' : List Obj) : Prop where
  from_pending : ∀ s' ∈ l', ∃ s ∈ l, Kept s s'
  keeps : ∀ s ∈ l, ¬ IsEntry s → s ∈ l'

theorem Kept.refl (s : Obj) : Kept s s := ⟨Or.inl rfl, rfl, rfl, fun _ => rfl⟩

theorem kept_append {sig fields : Obj} (h : IsEntry sig) (haction : Obj.get fields "action" = none)
    (hsymbol : Obj.get fields "symbol" = none) (htype : Obj.get fields "type" = none) :
    Kept sig (sig ++ fields) := by
  refine ⟨Or.inl ?_, ?_, ?_, fun hother => absurd h hother⟩
  · rw [Obj.get_append, haction]
    rfl
  · rw [Obj.get_append, hsymbol]
    rfl
  · rw [Obj.get_append, htype]
    rfl

theorem isEntry_congr {s s' : Obj} (h : s'.get "action" = s.get "action") :
    IsEntry s' ↔ IsEntry s := by
  unfold IsEntry
  rw [h]

theorem not_isEntry_cancelled {s : Obj} (h : s.get "action" = some (.str "cancelled")) :
    ¬ IsEntry s := by
  rintro ⟨action, hmem, haction⟩
  rw [h] at haction
  rw [← Json.str.inj (Option.some.inj haction)] at hmem
  exact absurd hmem (by decide)

theorem Kept.trans {s s' s'' : Obj} (h : Kept s s') (h' : Kept s' s'') : Kept s s'' where
  action := by
    rcases h'.action with heq | hcancelled
    · rw [heq]
      exact h.action
    · exact Or.inr hcancelled
  symbol := h'.symbol.trans h.symbol
  type := h'.type.trans h.type
  other hs := by
    have heq := h.other hs
    rw [h'.other (heq ▸ hs), heq]

theorem Judges.refl (l : List Obj) : Judges l l :=
  ⟨fun s hs => ⟨s, hs, Kept.refl s⟩, fun _ hs _ => hs⟩

theorem Judges.trans {l l' l'' : List Obj} (h : Judges l l') (h' : Judges l' l'') :
    Judges l l'' where
  from_pending s'' hs'' := by
    obtain ⟨s', hs', hkept'⟩ := h'.from_pending s'' hs''
    obtain ⟨s, hs, hkept⟩ := h.from_pending s' hs'
    exact ⟨s, hs, hkept.trans hkept'⟩
  keeps s hs hother := h'.keeps s (h.keeps s hs hother) hother

theorem Judges.of_forall₂ {l l' : List Obj} (h : List.Forall₂ Kept l l') : Judges l l' := by
  induction h with
  | nil => exact Judges.refl []
  | cons hkept _ ih =>
    refine ⟨fun s' hs' => ?_, fun s hs hother => ?_⟩
    · rcases List.mem_cons.1 hs' with rfl | hs'
      · exact ⟨_, List.mem_cons_self, hkept⟩
      · obtain ⟨s, hs, hk⟩ := ih.from_pending s' hs'
        exact ⟨s, List.mem_cons_of_mem _ hs, hk⟩
    · rcases List.mem_cons.1 hs with rfl | hs
      · rw [hkept.other hother]
        exact List.mem_cons_self
      · exact List.mem_cons_of_mem _ (ih.keeps s hs hother)

theorem isEntry_of_actionOf {sig : Obj} {action : String} (h : actionOf sig = .ok action)
    (hmem : action ∈ entryActions) : IsEntry sig := by
  have hne : action ≠ "" := by
    rintro rfl
    exact absurd hmem (by decide)
  unfold actionOf at h
  split at h
  case h_1 a ha =>
    cases h
    exact ⟨action, hmem, ha⟩
  case h_2 => cases h
  case h_3 => cases h
  case h_4 => exact absurd (Except.ok.inj h).symm hne

theorem isExit_of_actionOf {sig : Obj} {action : String} (h : actionOf sig = .ok action)
    (hmem : action ∈ exitActions) : IsExit sig := by
  have hne : action ≠ "" := by
    rintro rfl
    exact absurd hmem (by decide)
  unfold actionOf at h
  split at h
  case h_1 a ha =>
    cases h
    exact ⟨action, hmem, ha⟩
  case h_2 => cases h
  case h_3 => cases h
  case h_4 => exact absurd (Except.ok.inj h).symm hne

/-! ## Layers -/

/-- A layer goes over the signals that are not cancelled. -/
def onActive (layer : List Obj → Except String (List Obj)) (signals : List Obj) :
    Except String (List Obj) := do
  return signals.filter (actionIs · "cancelled") ++
    (← layer (signals.filter fun s => !actionIs s "cancelled"))

/-- A layer that can be turned off. -/
def enabledLayer (config : Obj) (flag : String) (layer : List Obj → Except String (List Obj))
    (signals : List Obj) : Except String (List Obj) :=
  if flagField config flag true then onActive layer signals else .ok signals

theorem onActive_judges {layer : List Obj → Except String (List Obj)} {signals out : List Obj}
    (hlayer : ∀ l l', layer l = .ok l' → Judges l l') (h : onActive layer signals = .ok out) :
    Judges signals out := by
  obtain ⟨active, hactive, h⟩ := bind_eq_ok.1 h
  cases h
  obtain ⟨hfrom, hkeeps⟩ := hlayer _ _ hactive
  refine ⟨fun s' hs' => ?_, fun s hs hother => ?_⟩
  · rcases List.mem_append.1 hs' with hinactive | hjudged
    · exact ⟨s', (List.mem_filter.1 hinactive).1, Kept.refl s'⟩
    · obtain ⟨s, hs, hkept⟩ := hfrom s' hjudged
      exact ⟨s, (List.mem_filter.1 hs).1, hkept⟩
  · by_cases hcancelled : actionIs s "cancelled" = true
    · exact List.mem_append_left _ (List.mem_filter.2 ⟨hs, hcancelled⟩)
    · exact List.mem_append_right _ (hkeeps s (List.mem_filter.2 ⟨hs, by simpa using hcancelled⟩)
        hother)

theorem enabledLayer_judges {config : Obj} {flag : String}
    {layer : List Obj → Except String (List Obj)} {signals out : List Obj}
    (hlayer : ∀ l l', layer l = .ok l' → Judges l l')
    (h : enabledLayer config flag layer signals = .ok out) : Judges signals out := by
  unfold enabledLayer at h
  split at h
  · exact onActive_judges hlayer h
  · cases h
    exact Judges.refl _

end NeoTrader

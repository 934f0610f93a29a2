import Mathlib.Data.List.Nodup
import NeoTrader.Strategy.Steps
import NeoTrader.Trade.Steps

/-!
# What the walk-forward gate vouches for

The gate looks at the verdict of the applied strategy's row and at its age. The map of the row, the
live settings and the universe of the run that gave the verdict are written by other requests.

* **`walk_forward_gate_vouches`**: after careful requests a gate that passes vouches for the
  configuration that trades;
* **`walk_forward_gate_outdated`**: an update of the map leaves the gate open.
-/

namespace NeoTrader

open Js Await Prog

/-! ## The configuration that trades -/

/-- The universe of a cycle whose setting names none. -/
def defaultUniverse : List String :=
  ["AAPL", "MSFT", "GOOGL", "AMZN", "NVDA", "META", "TSLA", "SPY", "QQQ", "AMD"]

/-- **The universe that the setting gives**: at most 30 symbols. -/
def tradedUniverse (toUpperCase : String → String) (raw : Option String) : List String :=
  let parsed := ((raw.getD "").toList.splitOn ',').map fun l => toUpperCase (trimmed (String.ofList l))
  let named := parsed.filter (· ≠ "")
  (if named = [] then defaultUniverse else named).take 30

/-- The setting that the strategy's map gives. -/
def Strategy.setting (s : Strategy) (k : String) : Option String :=
  Json.asString? (s.config.bind fun c => c.get? k)

def Strategy.tradedSymbols (toUpperCase : String → String) (s : Strategy) : List String :=
  tradedUniverse toUpperCase (s.setting "cycle.universe")

/-- The verdict that the gate requires. -/
def Strategy.robust (s : Strategy) : Prop := s.walkForwardVerdict = some requiredWalkForwardVerdict

/-- What must not change while a verdict counts: the map, and the verdict with its time. -/
def Strategy.certificate (s : Strategy) : Option StrategyConfig × Option String × Option ℤ :=
  (s.config, s.walkForwardVerdict, s.walkForwardCheckedAt)

theorem Strategy.robust_congr {s s' : Strategy} (h : s.certificate = s'.certificate) :
    s.robust ↔ s'.robust := by
  have hv : s.walkForwardVerdict = s'.walkForwardVerdict := congrArg (fun c => c.2.1) h
  unfold robust
  rw [hv]

theorem Strategy.setting_congr {s s' : Strategy} (h : s.config = s'.config) : s.setting = s'.setting := by
  funext k
  rw [setting, setting, h]

/-- The strategy of the id is the applied one, as the gate reads it. -/
def AppliedIn (w : StrategyWorld) (id : String) : Prop := kvStr (w.kv strategyAppliedKey) = some id

/-- The live settings are those of the strategy's map. -/
def Agrees (w : StrategyWorld) (s : Strategy) : Prop := ∀ k ∈ strategyConfigKeys, w.kv k = s.setting k

/-! ## The gate -/

/-- The columns that the gate reads. -/
def Strategy.toRow (s : Strategy) : StrategyRow :=
  { id := s.id, walkForwardVerdict := s.walkForwardVerdict
    walkForwardCheckedAt := s.walkForwardCheckedAt }

/-- The world of the trade services, with these settings and strategies. -/
def StrategyWorld.toWorld (w : StrategyWorld) : World where
  kv := w.kv
  strategies := w.strategies.map Strategy.toRow

/-- **The gate of the trade services can pass.** -/
def GatePasses (w : StrategyWorld) : Prop :=
  ∃ w', checkWalkForwardGate.Exec tradeSem w.toWorld (.ok none) w'

theorem StrategyWorld.find_toWorld (w : StrategyWorld) (id : String) :
    w.toWorld.strategies.find? (fun s => s.id = id) = (w.strategy? id).map Strategy.toRow := by
  show (w.strategies.map Strategy.toRow).find? _ = _
  rw [List.find?_map]
  rfl

theorem StrategyWorld.strategy?_id {w : StrategyWorld} {id : String} {s : Strategy}
    (hs : w.strategy? id = some s) : s.id = id := by
  unfold strategy? at hs
  simpa using List.find?_some hs

theorem GatePasses.robust {w : StrategyWorld} (h : GatePasses w) :
    ∃ s, AppliedIn w s.id ∧ w.strategy? s.id = some s ∧ s.robust := by
  obtain ⟨w', hx⟩ := h
  have hgate : checkWalkForwardGate.Wp tradeSem (fun _ _ => True) (fun r _ => r = .ok none →
      ∃ s, AppliedIn w s.id ∧ w.strategy? s.id = some s ∧ s.robust) w.toWorld := by
    refine wp_attempt_perform_bind.2 (And.intro trivial ?_)
    rintro raw w₁ ⟨o, -, hh⟩
    obtain ⟨rfl, hraw⟩ := query_cases hh
    dsimp only [bindPost]
    split
    · exact fun hnone => by cases hnone
    next strategyId hid =>
    obtain ⟨hstr, -⟩ := Option.filter_eq_some_iff.1 hid
    have happlied : AppliedIn w strategyId := by
      cases raw with
      | error e => cases hstr
      | ok raw =>
        rw [hraw raw rfl] at hstr
        exact hstr
    refine wp_attempt_perform_bind.2 (And.intro trivial ?_)
    rintro row w₂ ⟨o', -, hh'⟩
    obtain ⟨rfl, hrow⟩ := query_cases hh'
    rcases row with e | _ | row
    · exact fun hnone => by cases hnone
    · exact fun hnone => by cases hnone
    refine wp_ite (fun _ hnone => by cases hnone) fun hverdict => ?_
    have hfound := hrow _ rfl
    rw [StrategyWorld.find_toWorld] at hfound
    obtain ⟨s, hs, rfl⟩ := Option.map_eq_some_iff.1 hfound.symm
    obtain rfl := StrategyWorld.strategy?_id hs
    exact wp_of_exec fun _ _ _ _ => ⟨s, happlied, hs, not_not.1 hverdict⟩
  exact hgate.exec hx rfl

theorem gatePasses_of {w : StrategyWorld} {s : Strategy} {checkedAt : ℤ} (happlied : AppliedIn w s.id)
    (hid : s.id ≠ "") (hs : w.strategy? s.id = some s) (hrobust : s.robust)
    (hchecked : s.walkForwardCheckedAt = some checkedAt) : GatePasses w := by
  let M : Sem tradeSig World := Sem.ofHandler (S := tradeSig) handle fun o _ _ => o = { time := checkedAt }
  have htotal : M.Total := fun op w => ⟨_, _, _, rfl, rfl⟩
  obtain ⟨x, w', hx⟩ := Exec.exists htotal checkWalkForwardGate w.toWorld
  have hgate : checkWalkForwardGate.Wp M (fun _ _ => True) (fun r _ => r = .ok none) w.toWorld := by
    refine wp_attempt_perform_bind.2 (And.intro trivial ?_)
    rintro raw w₁ ⟨_, rfl, hh⟩
    obtain ⟨rfl, rfl⟩ := Prod.mk.inj hh
    have hfilter : (kvStr (w.kv strategyAppliedKey)).filter (fun v => decide (v ≠ "")) = some s.id := by
      unfold AppliedIn at happlied
      rw [happlied]
      exact Option.filter_eq_some_iff.2 ⟨rfl, decide_eq_true hid⟩
    split
    · next hnone => cases hfilter.symm.trans hnone
    next strategyId hsome =>
    obtain rfl : s.id = strategyId := Option.some.inj (hfilter.symm.trans hsome)
    refine wp_attempt_perform_bind.2 (And.intro trivial ?_)
    rintro row w₂ ⟨_, rfl, hh'⟩
    obtain ⟨rfl, rfl⟩ := Prod.mk.inj hh'
    rw [StrategyWorld.find_toWorld, hs]
    refine wp_ite (fun hne => absurd hrobust hne) fun _ => ?_
    have hrow : s.toRow.walkForwardCheckedAt = some checkedAt := hchecked
    dsimp only
    rw [hrow]
    have hwindow : readWalkForwardMaxAgeDays.Wp M (fun _ _ => True)
        (fun r _ => ∃ d, r = .ok d ∧ 1 ≤ d) w.toWorld :=
      wp_attempt_perform_bind.2 (And.intro trivial fun r w₃ _ => ⟨_, rfl, le_max_left _ _⟩)
    refine wp_bind_of hwindow ?_ fun e w₃ ⟨d, hd, _⟩ => by cases hd
    rintro d w₃ ⟨_, hd, hone⟩
    cases hd
    refine (wp_bind _ _).2 (And.intro trivial ?_)
    rintro now w₄ ⟨_, rfl, hh''⟩
    obtain ⟨rfl, rfl⟩ := Prod.mk.inj hh''
    refine wp_ite (fun hstale => ?_) fun _ => rfl
    have hage : ((checkedAt : ℚ) - checkedAt) = 0 := sub_self _
    rw [hage] at hstale
    have hpos : 0 < d * msPerDay := mul_pos (by linarith) (by norm_num [msPerDay])
    exact absurd hstale (not_lt.2 hpos.le)
  rw [hgate.exec hx] at hx
  refine ⟨w', hx.mono ?_⟩
  rintro op w₁ r w₂ ⟨o, -, hh⟩
  exact ⟨o, trivial, hh⟩

/-! ## Careful requests -/

/-- No statement of the request fails. -/
def Moment.Unfailing (toUpperCase : String → String) (m : Moment) : Prop :=
  (m.request.body toUpperCase m.totpVerified).Exec (strategySem fun o => o.failure = none) m.before
    m.outcome m.after

/-- The update keeps the map of a strategy with the verdict. -/
def CarefulUpdate (w : StrategyWorld) (id : String) (dto : UpdateStrategyDto) : Prop :=
  ∀ s, w.strategy? id = some s → s.robust → ∀ c, dto.config = some c → c = s.config

/-- The application of a strategy with the verdict makes the live settings those of its map: no
setting that the map lacks is set. An application that stops at a value that is not a string has
written no setting, if there is a strategy with the verdict. -/
def CarefulApply (w : StrategyWorld) (id : String) : Prop :=
  ∀ s c, w.strategy? id = some s → s.config = some c →
    if allStrings c.entries then
      s.robust → ∀ k ∈ strategyConfigKeys, k ∉ c.entries.map Prod.fst → w.kv k = none
    else (∃ id' s', w.strategy? id' = some s' ∧ s'.robust) →
      ∀ e ∈ stringEntries c.entries, e.1 ≠ strategyAppliedKey ∧ e.1 ∉ strategyConfigKeys

/-- The settings agree with the map of the applied strategy, if it has the verdict. -/
def CarefulSettings (w : StrategyWorld) (l : List (String × String)) : Prop :=
  ∀ id s, AppliedIn w id → w.strategy? id = some s → s.robust →
    ∀ k v, (k, v) ∈ l → k ∈ strategyConfigKeys → s.setting k = some v

/-- The verdict is recorded on a strategy with the universe of the run, and if that strategy is the
applied one, then the live settings are those of its map. -/
def CarefulRecord (toUpperCase : String → String) (w : StrategyWorld) (dto : RunBacktestDto) : Prop :=
  ∀ id s, dto.strategyRowId = some id → w.strategy? id = some s →
    (∀ x, x ∈ dto.symbols ↔ x ∈ s.tradedSymbols toUpperCase) ∧ (AppliedIn w id → Agrees w s)

/-- **The request keeps what a verdict vouches for.** -/
def Careful (toUpperCase : String → String) (m : Moment) : Prop :=
  match m.request with
  | .strategyUpdate id dto => CarefulUpdate m.before id dto
  | .strategyApply id => m.Unfailing toUpperCase ∧ CarefulApply m.before id
  | .walkForward dto => m.outcome = .ok (some requiredWalkForwardVerdict) →
      CarefulRecord toUpperCase m.before dto
  | r => CarefulSettings m.before (r.settings toUpperCase)

/-! ## What a verdict vouches for -/

/-- **The run has recorded the verdict of the strategy**: a walk-forward run over its universe gave
it, on the map as it is, and neither the map nor the verdict has changed since. -/
def Recorded (toUpperCase : String → String) (l : List Moment) (s : Strategy) : Prop :=
  ∃ l₁ m l₂ dto, l = l₁ ++ m :: l₂ ∧ m.request = .walkForward dto ∧
    dto.strategyRowId = some s.id ∧ m.outcome = .ok (some requiredWalkForwardVerdict) ∧
    (∀ x, x ∈ dto.symbols ↔ x ∈ s.tradedSymbols toUpperCase) ∧
    (m.before.strategy? s.id).map Strategy.config = some s.config ∧
    ∀ m' ∈ m :: l₂, (m'.after.strategy? s.id).map Strategy.certificate = some s.certificate

/-- **The gate vouches for the configuration that trades.** -/
def Vouched (toUpperCase : String → String) (l : List Moment) (w : StrategyWorld) : Prop :=
  ∃ s, AppliedIn w s.id ∧ w.strategy? s.id = some s ∧ s.robust ∧ Recorded toUpperCase l s ∧
    Agrees w s

/-- What holds after careful requests. -/
structure Vouching (toUpperCase : String → String) (l : List Moment) (w : StrategyWorld) :
    Prop where
  plain : ∀ s ∈ w.strategies, unwrapKv s.id = s.id
  recorded : ∀ id s, w.strategy? id = some s → s.robust → Recorded toUpperCase l s
  agrees : ∀ id s, w.strategy? id = some s → s.robust → AppliedIn w id → Agrees w s

theorem Recorded.snoc {toUpperCase : String → String} {l : List Moment} {m : Moment}
    {s s' : Strategy} (h : Recorded toUpperCase l s) (hid : s'.id = s.id)
    (hc : s'.certificate = s.certificate) (hs' : m.after.strategy? s.id = some s') :
    Recorded toUpperCase (l ++ [m]) s' := by
  obtain ⟨l₁, m₀, l₂, dto, rfl, hr, hdto, hx, hsymbols, hbefore, hafter⟩ := h
  have hconfig : s'.config = s.config := congrArg Prod.fst hc
  refine ⟨l₁, m₀, l₂ ++ [m], dto, by simp, hr, hid ▸ hdto, hx, ?_, ?_, ?_⟩
  · rw [Strategy.tradedSymbols, Strategy.setting_congr hconfig]
    exact hsymbols
  · rw [hid, hconfig]
    exact hbefore
  · rw [hid, hc, ← List.cons_append]
    refine List.forall_mem_append.2 ⟨hafter, List.forall_mem_singleton.2 ?_⟩
    rw [hs', Option.map_some, hc]

/-! ## What a request leaves -/

section Frame

variable {toUpperCase : String → String} {A : StrategyOracle → Prop} {w w' : StrategyWorld}
  {r : Request} {x : Except Err (Option String)}

theorem StrategyWorld.strategy?_modified {id : String} {f : Strategy → Strategy}
    (hf : ∀ s, (f s).id = s.id) (i : String) :
    (w.modified id f).strategy? i = (w.strategy? i).map fun s => if s.id = id then f s else s := by
  have hfind : (Store.modify (fun s => s.id = id) f w.strategies).find? (fun s => s.id = i) = _ :=
    Store.find?_modify fun s _ => by rw [hf]
  simpa [strategy?, modified] using hfind

/-- **Where the row of an id comes from.** -/
theorem RequestStep.origin (h : RequestStep toUpperCase A w r x w') {id : String} {s : Strategy}
    (hs : w'.strategy? id = some s) :
    s.walkForwardVerdict = none ∨ ∃ s₀, w.strategy? id = some s₀ ∧
      (s.certificate = s₀.certificate ∨ (∃ dto, r = .strategyUpdate id dto ∧ s = dto.apply s₀) ∨
        ∃ dto verdict time, r = .walkForward dto ∧ dto.strategyRowId = some id ∧
          x = .ok (some verdict) ∧ s = s₀.record verdict time) := by
  have hmodified {i : String} {f : Strategy → Strategy}
      (hs : (w.modified i f).strategy? id = some s) (hf : ∀ s, (f s).id = s.id) :
      ∃ s₀, w.strategy? id = some s₀ ∧ (s = s₀ ∨ id = i ∧ s = f s₀) := by
    rw [StrategyWorld.strategy?_modified hf] at hs
    obtain ⟨s₀, hs₀, rfl⟩ := Option.map_eq_some_iff.1 hs
    refine ⟨s₀, hs₀, ?_⟩
    rw [StrategyWorld.strategy?_id hs₀]
    split
    · next he => exact .inr ⟨he, rfl⟩
    · exact .inl rfl
  cases h with
  | same => exact .inr ⟨s, hs, .inl rfl⟩
  | wrote => exact .inr ⟨s, hs, .inl rfl⟩
  | cleared => exact .inr ⟨s, hs, .inl rfl⟩
  | created ho =>
    unfold StrategyWorld.strategy? at hs
    rw [List.find?_append] at hs
    rcases Option.or_eq_some_iff.1 hs with hs | ⟨-, hs⟩
    · exact .inr ⟨s, hs, .inl rfl⟩
    · rw [List.mem_singleton.1 (List.mem_of_find?_eq_some hs)]
      exact .inl rfl
  | removed =>
    unfold StrategyWorld.strategy? at hs
    rw [List.find?_filter] at hs
    have hkept := List.find?_some hs
    simp only [decide_eq_true_eq] at hkept
    refine .inr ⟨s, ?_, .inl rfl⟩
    rw [← hs]
    unfold StrategyWorld.strategy?
    congr 1
    funext s'
    by_cases he : s'.id = id
    · simp [he, ← hkept.2, hkept.1]
    · simp [he]
  | updated =>
    obtain ⟨s₀, hs₀, rfl | ⟨rfl, rfl⟩⟩ := hmodified hs fun _ => rfl
    · exact .inr ⟨s, hs₀, .inl rfl⟩
    · exact .inr ⟨s₀, hs₀, .inr (.inl ⟨_, rfl, rfl⟩)⟩
  | activated =>
    obtain ⟨s₀, hs₀, rfl | ⟨-, rfl⟩⟩ := hmodified hs fun _ => rfl
    · exact .inr ⟨s, hs₀, .inl rfl⟩
    · exact .inr ⟨s₀, hs₀, .inl rfl⟩
  | recorded hid =>
    obtain ⟨s₀, hs₀, rfl | ⟨rfl, rfl⟩⟩ := hmodified hs fun _ => rfl
    · exact .inr ⟨s, hs₀, .inl rfl⟩
    · exact .inr ⟨s₀, hs₀, .inr (.inr ⟨_, _, _, rfl, hid, rfl, rfl⟩)⟩

/-- **Which settings a request changes.** -/
theorem RequestStep.kv_cases (h : RequestStep toUpperCase A w r x w') (k : String) :
    w'.kv k = w.kv k ∨ (∃ v, (k, v) ∈ r.settings toUpperCase ∧ w'.kv k = some v) ∨
      k = realExecutionHaltedKey ∨ k = realExecutionHaltReasonKey := by
  cases h with
  | wrote hl =>
    obtain hkv | ⟨v, hv, hkv⟩ := writeAll_cases _ w.kv k
    · exact .inl hkv
    · exact .inr (.inl ⟨v, hl.subset hv, hkv⟩)
  | cleared hkv =>
    by_cases hhalted : k = realExecutionHaltedKey
    · exact .inr (.inr (.inl hhalted))
    by_cases hreason : k = realExecutionHaltReasonKey
    · exact .inr (.inr (.inr hreason))
    exact .inl (hkv k hhalted hreason)
  | _ => exact .inl rfl

theorem mem_givenSettings {l : List (String × Option String)} {k v : String}
    (h : (k, v) ∈ givenSettings l) : (k, some v) ∈ l := by
  obtain ⟨e, he, heq⟩ := List.mem_filterMap.1 h
  obtain ⟨v', hv', hpair⟩ := Option.map_eq_some_iff.1 heq
  cases hpair
  rwa [← hv']

theorem Request.settings_key {k v : String} (h : (k, v) ∈ r.settings toUpperCase) :
    k ≠ strategyAppliedKey := by
  cases r with
  | cycleConfig dto =>
    have hkeys : ∀ e ∈ dto.settings toUpperCase, e.1 ≠ strategyAppliedKey := by
      simp only [UpdateCycleConfigDto.settings, List.forall_mem_cons]
      refine ⟨?_, ?_, ?_, ?_, ?_, List.forall_mem_nil _⟩ <;> decide
    exact hkeys _ (mem_givenSettings h)
  | executionConfig patch =>
    have hkeys : ∀ e ∈ patch.settings, e.1 ≠ strategyAppliedKey := by
      simp only [PolicyPatch.settings, List.forall_mem_cons]
      refine ⟨?_, ?_, ?_, ?_, ?_, ?_, ?_, ?_, ?_, ?_, ?_, ?_, List.forall_mem_nil _⟩ <;> decide
    exact hkeys _ (mem_givenSettings h)
  | _ => cases h

theorem RequestStep.applied_iff (h : RequestStep toUpperCase A w r x w') (id : String) :
    AppliedIn w' id ↔ AppliedIn w id := by
  have hkv : w'.kv strategyAppliedKey = w.kv strategyAppliedKey := by
    obtain hkv | ⟨v, hv, -⟩ | hk | hk := h.kv_cases strategyAppliedKey
    · exact hkv
    · exact absurd rfl (Request.settings_key hv)
    · exact absurd hk (by decide)
    · exact absurd hk (by decide)
  unfold AppliedIn
  rw [hkv]

theorem RequestStep.agrees (h : RequestStep toUpperCase A w r x w') {s : Strategy}
    (hs : Agrees w s) (hw : ∀ k v, (k, v) ∈ r.settings toUpperCase → k ∈ strategyConfigKeys →
      s.setting k = some v) : Agrees w' s := by
  intro k hk
  obtain hkv | ⟨v, hv, hkv⟩ | rfl | rfl := h.kv_cases k
  · rw [hkv]
    exact hs k hk
  · rw [hkv, hw k v hv hk]
  · exact absurd hk (by decide)
  · exact absurd hk (by decide)

theorem RequestStep.plain (h : RequestStep toUpperCase A w r x w')
    (hids : ∀ o, A o → unwrapKv o.newId = o.newId)
    (hw : ∀ s ∈ w.strategies, unwrapKv s.id = s.id) : ∀ s ∈ w'.strategies, unwrapKv s.id = s.id := by
  cases h with
  | created ho =>
    refine List.forall_mem_append.2 ⟨hw, List.forall_mem_singleton.2 ?_⟩
    exact hids _ ho
  | removed => exact fun s hs => hw s (List.mem_of_mem_filter hs)
  | updated => exact Store.forall_modify (fun s hs _ => hw s hs) fun s hs _ => hw s hs
  | activated => exact Store.forall_modify (fun s hs _ => hw s hs) fun s hs _ => hw s hs
  | recorded => exact Store.forall_modify (fun s hs _ => hw s hs) fun s hs _ => hw s hs
  | _ => exact hw

end Frame

/-! ## Careful runs -/

section Careful

variable {toUpperCase : String → String} {A : StrategyOracle → Prop} {l : List Moment} {m : Moment}

/-- **A careful request other than an application** keeps what verdicts vouch for. -/
theorem Vouching.step (h : Vouching toUpperCase l m.before)
    (hids : ∀ o, A o → unwrapKv o.newId = o.newId) (hr : ∀ id, m.request ≠ .strategyApply id)
    (hx : RequestStep toUpperCase A m.before m.request m.outcome m.after)
    (hm : Careful toUpperCase m) : Vouching toUpperCase (l ++ [m]) m.after := by
  have hcases {id : String} {s : Strategy} (hs : m.after.strategy? id = some s) (hrobust : s.robust) :
      ∃ s₀, m.before.strategy? id = some s₀ ∧ (s.certificate = s₀.certificate ∨
        ∃ dto time, m.request = .walkForward dto ∧ dto.strategyRowId = some id ∧
          m.outcome = .ok (some requiredWalkForwardVerdict) ∧
          s = s₀.record requiredWalkForwardVerdict time) := by
    obtain hnone | ⟨s₀, hs₀, hcert | ⟨dto, hreq, rfl⟩ | ⟨dto, verdict, time, hreq, hid, hout, rfl⟩⟩ :=
      hx.origin hs
    · rw [Strategy.robust, hnone] at hrobust
      cases hrobust
    · exact ⟨s₀, hs₀, .inl hcert⟩
    · refine ⟨s₀, hs₀, .inl ?_⟩
      unfold Careful at hm
      rw [hreq] at hm
      have hconfig : (dto.apply s₀).config = s₀.config := by
        cases hc : dto.config with
        | none => simp [UpdateStrategyDto.apply, hc]
        | some c => simp [UpdateStrategyDto.apply, hc, hm s₀ hs₀ hrobust c hc]
      rw [Strategy.certificate, hconfig]
      rfl
    · obtain rfl : verdict = requiredWalkForwardVerdict := Option.some.inj hrobust
      exact ⟨s₀, hs₀, .inr ⟨dto, time, hreq, hid, hout, rfl⟩⟩
  refine ⟨hx.plain hids h.plain, ?_, ?_⟩
  · intro id s hs hrobust
    obtain ⟨s₀, hs₀, hcert | ⟨dto, time, hreq, hid, hout, rfl⟩⟩ := hcases hs hrobust
    · obtain rfl := StrategyWorld.strategy?_id hs₀
      have hrec := h.recorded s₀.id s₀ hs₀ ((Strategy.robust_congr hcert).1 hrobust)
      exact hrec.snoc (StrategyWorld.strategy?_id hs) hcert hs
    · obtain rfl := StrategyWorld.strategy?_id hs₀
      unfold Careful at hm
      rw [hreq] at hm
      refine ⟨l, m, [], dto, rfl, hreq, hid, hout, (hm hout s₀.id s₀ hid hs₀).1, ?_, ?_⟩
      · show (m.before.strategy? s₀.id).map _ = _
        rw [hs₀]
        rfl
      · refine List.forall_mem_singleton.2 ?_
        show (m.after.strategy? s₀.id).map _ = _
        rw [hs]
        rfl
  · intro id s hs hrobust happlied
    replace happlied := (hx.applied_iff id).1 happlied
    obtain ⟨s₀, hs₀, hcert | ⟨dto, time, hreq, hid, hout, rfl⟩⟩ := hcases hs hrobust
    · have hconfig : s.config = s₀.config := congrArg Prod.fst hcert
      have hrobust₀ := (Strategy.robust_congr hcert).1 hrobust
      unfold Agrees
      rw [Strategy.setting_congr hconfig]
      refine hx.agrees (h.agrees id s₀ hs₀ hrobust₀ happlied) ?_
      unfold Careful at hm
      split at hm
      · next hreq => rw [hreq]; exact fun k v hv => by cases hv
      · next hreq => exact absurd hreq (hr _)
      · next hreq => rw [hreq]; exact fun k v hv => by cases hv
      · exact hm id s₀ happlied hs₀ hrobust₀
    · unfold Careful at hm
      rw [hreq] at hm
      have hagrees := (hm hout id s₀ hid hs₀).2 happlied
      refine hx.agrees (s := s₀.record _ time) hagrees ?_
      rw [hreq]
      exact fun k v hv => by cases hv

theorem Moment.Unfailing.applied {id : String} (h : m.Unfailing toUpperCase)
    (hr : m.request = .strategyApply id) : m.after = m.before ∨
      ∃ s c, m.before.strategy? id = some s ∧ s.config = some c ∧ m.after = m.before.applied id c := by
  have hbody : ((Request.strategyApply id).body toUpperCase m.totpVerified).Wp
      (strategySem fun o => o.failure = none) (fun _ _ => True)
      (fun _ w' => w' = m.before ∨ w' = m.before.afterApply id) m.before := by
    refine (wp_bind _ _).2 (wp_ofOutcome.2 ?_)
    cases (Request.strategyApply id).guards m.totpVerified with
    | error e => exact .inl rfl
    | ok u =>
      exact wp_bind_of (wp_applyStrategy (fun _ ho => ho) id) (fun _ _ h => .inr h) fun _ _ h => .inr h
  unfold Moment.Unfailing at h
  rw [hr] at h
  obtain heq | heq := hbody.exec h
  · exact .inl heq
  unfold StrategyWorld.afterApply at heq
  cases hc : (m.before.strategy? id).bind Strategy.config with
  | none =>
    rw [hc] at heq
    exact .inl heq
  | some c =>
    rw [hc] at heq
    obtain ⟨s, hs, hconfig⟩ := Option.bind_eq_some_iff.1 hc
    exact .inr ⟨s, c, hs, hconfig, heq⟩

theorem asString?_eq_some {j : Option Json} {v : String} (h : Json.asString? j = some v) :
    j = some (.str v) := by
  unfold Json.asString? at h
  split at h
  · cases h
    rfl
  · cases h

theorem StrategyConfig.get?_of_mem {c : StrategyConfig} {k : String} {j : Json}
    (h : (k, j) ∈ c.entries) : c.get? k = some j := by
  cases hfind : c.entries.find? fun e => e.1 = k with
  | none => exact absurd (decide_eq_true rfl) (List.find?_eq_none.1 hfind _ h)
  | some e =>
    have hkey : e.1 = k := of_decide_eq_true (List.find?_some (p := fun e : String × Json => e.1 = k) hfind)
    have he : e = (k, j) := List.inj_on_of_nodup_map c.nodup (List.mem_of_find?_eq_some hfind) h hkey
    rw [get?, hfind, he]
    rfl

theorem StrategyConfig.get?_of_not_mem {c : StrategyConfig} {k : String}
    (h : k ∉ c.entries.map Prod.fst) : c.get? k = none := by
  have hfind : (c.entries.find? fun e => e.1 = k) = none := by
    refine List.find?_eq_none.2 fun e he hk => h ?_
    rw [← of_decide_eq_true hk]
    exact List.mem_map_of_mem he
  rw [get?, hfind]
  rfl

theorem StrategyWorld.applied_agrees {w : StrategyWorld} {s : Strategy} {id : String}
    {c : StrategyConfig} (hc : s.config = some c) (hall : allStrings c.entries)
    (hrest : ∀ k ∈ strategyConfigKeys, k ∉ c.entries.map Prod.fst → w.kv k = none) :
    Agrees (w.applied id c) s := by
  intro k hk
  have hne : k ≠ strategyAppliedKey := by
    rintro rfl
    exact absurd hk (by decide)
  rw [Strategy.setting, hc, Option.bind_some]
  by_cases hmem : k ∈ c.entries.map Prod.fst
  · obtain ⟨⟨k', j⟩, he, rfl⟩ := List.mem_map.1 hmem
    obtain ⟨v, hv⟩ := Option.isSome_iff_exists.1 (List.all_eq_true.1 hall _ he)
    cases asString?_eq_some hv
    rw [StrategyConfig.get?_of_mem he]
    exact applied_of_mem hne (mem_stringEntries_of_all hall he)
  · rw [StrategyConfig.get?_of_not_mem hmem, applied_kv hne, writeAll_of_not_mem, hrest k hk hmem]
    · rfl
    · exact fun hk' => hmem ((stringEntries_keys _).subset hk')

/-- **A careful application** keeps what verdicts vouch for. -/
theorem Vouching.apply {id : String} (h : Vouching toUpperCase l m.before)
    (hr : m.request = .strategyApply id) (hm : Careful toUpperCase m) :
    Vouching toUpperCase (l ++ [m]) m.after := by
  unfold Careful at hm
  rw [hr] at hm
  obtain ⟨hunfailing, hcareful⟩ := hm
  have hrows : m.after.strategies = m.before.strategies := by
    obtain heq | ⟨s, c, -, -, heq⟩ := hunfailing.applied hr
    · rw [heq]
    · rw [heq]
      rfl
  have hfind (i : String) : m.after.strategy? i = m.before.strategy? i := by
    rw [StrategyWorld.strategy?, hrows]
    rfl
  refine ⟨?_, ?_, ?_⟩
  · rw [hrows]
    exact h.plain
  · intro i s hs hrobust
    obtain rfl := StrategyWorld.strategy?_id hs
    exact (h.recorded s.id s ((hfind s.id).symm.trans hs) hrobust).snoc rfl rfl hs
  · intro i s hs hrobust happlied
    rw [hfind] at hs
    obtain heq | ⟨s₀, c, hs₀, hconfig, heq⟩ := hunfailing.applied hr
    · rw [heq] at happlied ⊢
      exact h.agrees i s hs hrobust happlied
    replace hcareful := hcareful s₀ c hs₀ hconfig
    rw [heq] at happlied ⊢
    split at hcareful
    · next hall =>
      have hplain := h.plain s₀ (List.mem_of_find?_eq_some hs₀)
      rw [StrategyWorld.strategy?_id hs₀] at hplain
      have hpointer : kvStr ((m.before.applied id c).kv strategyAppliedKey) = some id := by
        simp [StrategyWorld.applied, hall, kvStr, hplain]
      obtain rfl : id = i := Option.some.inj (hpointer.symm.trans happlied)
      obtain rfl : s₀ = s := Option.some.inj (hs₀.symm.trans hs)
      exact StrategyWorld.applied_agrees hconfig hall (hcareful hrobust)
    · next hall =>
      have hkeys := hcareful ⟨i, s, hs, hrobust⟩
      have hkv {k : String} (hk : ∀ v, (k, v) ∉ stringEntries c.entries) :
          (m.before.applied id c).kv k = m.before.kv k := by
        have hmem : k ∉ (stringEntries c.entries).map Prod.fst := by
          intro hmem
          obtain ⟨e, he, rfl⟩ := List.mem_map.1 hmem
          exact hk e.2 he
        rw [StrategyWorld.applied, if_neg hall]
        exact writeAll_of_not_mem hmem
      have hpointer : AppliedIn m.before i := by
        have hkept := hkv (k := strategyAppliedKey) fun v hv => (hkeys _ hv).1 rfl
        unfold AppliedIn at happlied
        rwa [hkept] at happlied
      intro k hk
      rw [hkv fun v hv => (hkeys _ hv).2 hk]
      exact h.agrees i s hs hrobust hpointer k hk

/-- **Careful requests** keep what verdicts vouch for. -/
theorem Run.vouching {start w : StrategyWorld} (hids : ∀ o, A o → unwrapKv o.newId = o.newId)
    (hstart : start.strategies = []) (hrun : Run toUpperCase A start l w)
    (hcareful : ∀ m ∈ l, Careful toUpperCase m) : Vouching toUpperCase l w := by
  induction hrun with
  | nil =>
    have hnone (id : String) : start.strategy? id = none := by
      rw [StrategyWorld.strategy?, hstart]
      rfl
    refine ⟨?_, fun id s hs => ?_, fun id s hs => ?_⟩
    · rw [hstart]
      exact List.forall_mem_nil _
    · rw [hnone] at hs
      cases hs
    · rw [hnone] at hs
      cases hs
  | @snoc l m hrun hx ih =>
    obtain ⟨hl, hm⟩ := List.forall_mem_append.1 hcareful
    replace hm := hm m (List.mem_singleton_self m)
    by_cases happly : ∃ id, m.request = .strategyApply id
    · obtain ⟨id, hr⟩ := happly
      exact (ih hl).apply hr hm
    · have hr : ∀ id, m.request ≠ .strategyApply id := fun id hr => happly ⟨id, hr⟩
      exact (ih hl).step hids hr ((Request.wp_body hr).exec hx) hm

/-- **After careful requests a gate that passes vouches for the configuration that trades.** -/
theorem walk_forward_gate_vouches {start w : StrategyWorld}
    (hids : ∀ o, A o → unwrapKv o.newId = o.newId) (hstart : start.strategies = [])
    (hrun : Run toUpperCase A start l w) (hcareful : ∀ m ∈ l, Careful toUpperCase m)
    (hgate : GatePasses w) : Vouched toUpperCase l w := by
  have hvouching := hrun.vouching hids hstart hcareful
  obtain ⟨s, happlied, hs, hrobust⟩ := hgate.robust
  exact ⟨s, happlied, hs, hrobust, hvouching.recorded s.id s hs hrobust,
    hvouching.agrees s.id s hs hrobust happlied⟩

end Careful

/-! ## A strategy that is validated and applied -/

/-- A check that is enough for a careful request. -/
def Moment.careful (m : Moment) : Bool :=
  match m.request with
  | .strategyUpdate _ dto => dto.config.isNone
  | .strategyApply id => ((m.before.strategy? id).bind Strategy.config).all fun c =>
    allStrings c.entries &&
      strategyConfigKeys.all fun k => k ∈ c.entries.map Prod.fst || (m.before.kv k).isNone
  | .walkForward dto => ((dto.strategyRowId.bind m.before.strategy?)).all fun s =>
    dto.symbols = s.tradedSymbols id && kvStr (m.before.kv strategyAppliedKey) ≠ some s.id
  | r => (r.settings id).isEmpty

theorem careful_of_check {m : Moment} (hm : m.careful) (hunfailing : m.Unfailing id) :
    Careful id m := by
  unfold Careful
  unfold Moment.careful at hm
  cases hr : m.request with
  | strategyUpdate id dto =>
    rw [hr] at hm
    intro s _ _ c hc
    rw [Option.isNone_iff_eq_none.1 hm] at hc
    cases hc
  | strategyApply id =>
    rw [hr] at hm
    refine ⟨hunfailing, fun s c hs hc => ?_⟩
    dsimp only at hm
    rw [hs, Option.bind_some, hc, Option.all_some, Bool.and_eq_true, List.all_eq_true] at hm
    rw [if_pos hm.1]
    intro _ k hk hmem
    have hkey := hm.2 k hk
    rw [decide_eq_false hmem, Bool.false_or] at hkey
    exact Option.isNone_iff_eq_none.1 hkey
  | walkForward dto =>
    rw [hr] at hm
    intro _ i s hi hs
    dsimp only at hm
    rw [hi, Option.bind_some, hs, Option.all_some, Bool.and_eq_true] at hm
    obtain rfl := StrategyWorld.strategy?_id hs
    have hother : kvStr (m.before.kv strategyAppliedKey) ≠ some s.id := of_decide_eq_true hm.2
    refine ⟨fun x => ?_, fun happlied => absurd happlied hother⟩
    rw [of_decide_eq_true hm.1]
  | _ =>
    rw [hr] at hm
    have hempty := List.isEmpty_iff.1 hm
    intro i s _ _ _ k v hv
    rw [hempty] at hv
    cases hv

theorem unfailing_of_runRequests {o : StrategyOracle} {v : Option Bool} {requests : List Request}
    {w₀ w : StrategyWorld} {l : List Moment} (ho : o.failure = none)
    (h : runRequests id o v requests w₀ = some (l, w)) : ∀ m ∈ l, m.Unfailing id := by
  induction requests generalizing w₀ l with
  | nil =>
    cases h
    exact List.forall_mem_nil _
  | cons r rs ih =>
    obtain ⟨⟨x, w₁⟩, hx, h⟩ := Option.bind_eq_some_iff.1 h
    obtain ⟨⟨l', w'⟩, hl', h⟩ := Option.bind_eq_some_iff.1 h
    cases h
    have hexec := exec_of_execute (M := strategySem fun o => o.failure = none)
      (fun op w _ => ⟨o, ho, rfl⟩) hx
    exact List.forall_mem_cons.2 ⟨hexec, ih hl'⟩

/-- A map whose universe is the given symbols. -/
def universeConfig (symbols : String) : StrategyConfig where
  entries := [("cycle.universe", .str symbols)]
  nodup := List.nodup_singleton _

/-- A strategy is created, validated on its universe, perhaps updated, and applied. -/
def validatedRequests (update : List Request) : List Request :=
  .strategyCreate { name := "Momentum", config := some (universeConfig "SPY,QQQ") } ::
    .walkForward { strategy := "momentum", symbols := ["SPY", "QQQ"], strategyRowId := some "s1" } ::
    update ++ [.strategyApply "s1"]

/-- The requests, with a second factor; the sandbox finds the strategy robust. -/
def validatedRun (update : List Request) : Option (List Moment × StrategyWorld) :=
  runRequests id { newId := "s1", verdict := "ROBUSTO" } (some true) (validatedRequests update)
    { kv := fun _ => none }

/-- The gate finds the strategy applied and robust; the universe of the strategy is the given one. -/
def gateOpen (w : StrategyWorld) (symbols : List String) : Bool :=
  kvStr (w.kv strategyAppliedKey) = some "s1" && (w.strategy? "s1").any fun s =>
    s.walkForwardVerdict = some "ROBUSTO" && s.walkForwardCheckedAt = some 0 &&
      s.tradedSymbols id = symbols

theorem of_gateOpen {w : StrategyWorld} {symbols : List String} (h : gateOpen w symbols) :
    GatePasses w ∧ kvStr (w.kv strategyAppliedKey) = some "s1" ∧
      ∃ s, w.strategy? "s1" = some s ∧ s.tradedSymbols id = symbols := by
  unfold gateOpen at h
  rw [Bool.and_eq_true, Option.any_eq_true] at h
  obtain ⟨happlied, s, hs, hcolumns⟩ := h
  rw [Bool.and_eq_true, Bool.and_eq_true] at hcolumns
  obtain ⟨⟨hverdict, hchecked⟩, hsymbols⟩ := hcolumns
  replace happlied := of_decide_eq_true happlied
  refine ⟨?_, happlied, s, hs, of_decide_eq_true hsymbols⟩
  have hrobust : s.walkForwardVerdict = some "ROBUSTO" := of_decide_eq_true hverdict
  have hid := StrategyWorld.strategy?_id hs
  rw [← hid] at happlied hs
  refine gatePasses_of happlied ?_ hs hrobust (of_decide_eq_true hchecked)
  rw [hid]
  decide

theorem validatedRun_careful : (validatedRun []).map (fun y =>
    (y.1.all Moment.careful, gateOpen y.2 ["SPY", "QQQ"])) = some (true, true) := by
  decide

/-- **A strategy that is validated and applied** passes the gate, which vouches for it. -/
theorem walk_forward_gate_vouches_validated : ∃ l w,
    Run id (fun o => o.newId = "s1") { kv := fun _ => none } l w ∧ GatePasses w ∧ Vouched id l w := by
  obtain ⟨⟨l, w⟩, hrun, hres⟩ := Option.map_eq_some_iff.1 validatedRun_careful
  obtain ⟨hcareful, hopen⟩ := Prod.mk.inj hres
  obtain ⟨hgate, -⟩ := of_gateOpen hopen
  have hrun' := run_of_runRequests (A := fun o => o.newId = "s1") rfl hrun
  have hids : ∀ o : StrategyOracle, o.newId = "s1" → unwrapKv o.newId = o.newId := by
    intro o ho
    rw [ho]
    decide
  refine ⟨l, w, hrun', hgate, walk_forward_gate_vouches hids rfl hrun' (fun m hm => ?_) hgate⟩
  exact careful_of_check (List.all_eq_true.1 hcareful m hm) (unfailing_of_runRequests rfl hrun m hm)

/-- An update of the map, between the verdict and the application. -/
def outdatingUpdate : List Request :=
  [.strategyUpdate "s1" { config := some (some (universeConfig "TSLA")) }]

theorem validatedRun_outdated :
    (validatedRun outdatingUpdate).map (fun y => gateOpen y.2 ["TSLA"]) = some true := by
  decide

/-- **A map that was never validated passes the gate**: the update leaves the verdict. -/
theorem walk_forward_gate_outdated : ¬ ∀ {toUpperCase : String → String} {A : StrategyOracle → Prop}
    {l : List Moment} {start w : StrategyWorld}, (∀ o, A o → unwrapKv o.newId = o.newId) →
    start.strategies = [] → Run toUpperCase A start l w → GatePasses w → Vouched toUpperCase l w := by
  intro hall
  obtain ⟨⟨l, w⟩, hrun, hopen⟩ := Option.map_eq_some_iff.1 validatedRun_outdated
  obtain ⟨hgate, hpointer, s, hs, hsymbols⟩ := of_gateOpen hopen
  have hids : ∀ o : StrategyOracle, o.newId = "s1" → unwrapKv o.newId = o.newId := by
    intro o ho
    rw [ho]
    decide
  obtain ⟨s', happlied, hs', -, hrecorded, -⟩ := hall (A := fun o => o.newId = "s1") hids rfl
    (run_of_runRequests rfl hrun) hgate
  have hid : s'.id = "s1" := Option.some.inj (happlied.symm.trans hpointer)
  obtain rfl : s = s' := Option.some.inj (hs.symm.trans (hid ▸ hs'))
  obtain ⟨l₁, m, l₂, dto, rfl, hr, -, -, hrecorded, -⟩ := hrecorded
  have hmem : Request.walkForward dto ∈ validatedRequests outdatingUpdate := by
    rw [← requests_of_runRequests hrun, ← hr]
    exact List.mem_map_of_mem (by simp)
  have hdto : dto.symbols = ["SPY", "QQQ"] := by
    simp only [validatedRequests, outdatingUpdate, List.cons_append, List.nil_append, List.mem_cons,
      reduceCtorEq, Request.walkForward.injEq, List.not_mem_nil, or_false, false_or] at hmem
    rw [hmem]
  have hspy := (hrecorded "SPY").1 (by simp [hdto])
  rw [hsymbols] at hspy
  exact absurd hspy (by decide)

end NeoTrader

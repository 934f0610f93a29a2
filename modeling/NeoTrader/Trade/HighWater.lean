import Mathlib.Data.List.Induction
import Mathlib.Order.Bounds.Basic
import NeoTrader.Trade.RealEntry

/-!
# The high-water mark of the real account

Each sync appends a snapshot of a broker's account, whose high-water mark is taken from the latest
snapshot of the broker and from the equity that is reported.

* **`hwm_isGreatest`**: both, in every run.
-/

namespace NeoTrader.HighWater

open Js Await Pool

/-! ## Snapshots -/

/-- The snapshots of a broker, in the order in which they were stored. -/
def snapshots (w : World) (broker : String) : List RealNavSnapshot :=
  w.navs.filter fun s => s.brokerPluginId = broker

def equities (w : World) (broker : String) : Set ℚ := {e | ∃ s ∈ snapshots w broker, s.equity = e}

/-- The times of each broker's snapshots increase strictly. -/
def InOrder (w : World) : Prop := ∀ b, (snapshots w b).Pairwise fun s t => s.ts < t.ts

/-- **The mark of the latest snapshot is the maximum of the equities**, for each broker. -/
def HighWater (w : World) : Prop :=
  ∀ b s, w.latestNav? b = some s → IsGreatest (equities w b) s.hwm

/-- No equity is above its own mark. -/
def Below (w : World) : Prop := ∀ s ∈ w.navs, s.equity ≤ s.hwm

section Latest

/-- The later of two snapshots, and the second one of the same time. -/
def later (best : Option RealNavSnapshot) (s : RealNavSnapshot) : Option RealNavSnapshot :=
  if best.all fun b => b.ts ≤ s.ts then some s else best

variable {w w' : World} {s t : RealNavSnapshot} {b : String}

theorem latestNav?_eq (w : World) (b : String) :
    w.latestNav? b = (snapshots w b).foldl later none := by
  rw [World.latestNav?]
  refine congrArg (List.foldl · none (snapshots w b)) ?_
  funext best s
  cases best with
  | none => rfl
  | some b => simp [later]

theorem mem_of_latestNav? (h : w.latestNav? b = some s) : s ∈ snapshots w b := by
  rw [latestNav?_eq] at h
  generalize snapshots w b = l at h ⊢
  induction l using List.reverseRecOn with
  | nil => cases h
  | append_singleton l t ih =>
    rw [List.foldl_append, List.foldl_cons, List.foldl_nil, later] at h
    split_ifs at h
    · cases h
      simp
    · exact List.mem_append_left _ (ih h)

theorem latestNav?_eq_none : w.latestNav? b = none ↔ snapshots w b = [] := by
  rw [latestNav?_eq]
  generalize snapshots w b = l
  induction l using List.reverseRecOn with
  | nil => simp
  | append_singleton l t ih =>
    rw [List.foldl_append, List.foldl_cons, List.foldl_nil, later]
    cases h : l.foldl later none with
    | none => simp
    | some u =>
      split_ifs <;> simp

theorem snapshots_snoc (hw : w'.navs = w.navs ++ [t]) (b : String) :
    snapshots w' b = snapshots w b ++ if t.brokerPluginId = b then [t] else [] := by
  rw [snapshots, hw, List.filter_append, ← snapshots]
  by_cases hb : t.brokerPluginId = b <;> simp [hb]

theorem latestNav?_snoc (hw : w'.navs = w.navs ++ [t])
    (hlast : ∀ s ∈ snapshots w t.brokerPluginId, s.ts < t.ts) (b : String) :
    w'.latestNav? b = if t.brokerPluginId = b then some t else w.latestNav? b := by
  rw [latestNav?_eq, latestNav?_eq, snapshots_snoc hw]
  by_cases hb : t.brokerPluginId = b
  · subst hb
    rw [if_pos rfl, if_pos rfl, List.foldl_append, List.foldl_cons, List.foldl_nil,
      ← latestNav?_eq, later, if_pos]
    rw [Option.all_eq_true_iff_get]
    intro h
    exact decide_eq_true (hlast _ (mem_of_latestNav? (Option.some_get h).symm)).le
  · rw [if_neg hb, if_neg hb, List.append_nil]

end Latest

/-! ## One operation -/

section Step

variable {o : Oracle} {w w' : World}

theorem sync_navs {now : ℤ} {broker source : String} {portfolio : Portfolio} {u : Unit}
    (h : w.sync now broker portfolio source = .ok (u, w')) :
    ∃ t : RealNavSnapshot, w'.navs = w.navs ++ [t] ∧ t.brokerPluginId = broker ∧
      t.hwm = max (((w.latestNav? broker).map RealNavSnapshot.hwm).getD t.equity) t.equity := by
  simp only [World.sync] at h
  split at h
  · cases h
    exact ⟨_, rfl, rfl, rfl⟩
  · cases h

/-- **What one operation does to the snapshots.** -/
theorem handle_navs {op : TradeOp} {r : Except Err op.Ans} (h : handle o op w = (r, w')) :
    w'.navs = w.navs ∨ ∃ t : RealNavSnapshot, w'.navs = w.navs ++ [t] ∧
      t.hwm = max (((w.latestNav? t.brokerPluginId).map RealNavSnapshot.hwm).getD t.equity)
        t.equity := by
  by_cases hrec : op.records
  · cases op with
    | submitFailuresReset =>
      cases h
      exact .inl rfl
    | submitFailuresRecord =>
      cases h
      exact .inl rfl
    | syncTransaction broker portfolio source =>
      rcases db_cases h with ⟨rfl, -⟩ | ⟨u, hx, -⟩
      · exact .inl rfl
      · obtain ⟨t, hnavs, rfl, hhwm⟩ := sync_navs hx
        exact .inr ⟨t, hnavs, hhwm⟩
    | _ => cases hrec
  · exact .inl (handle_records h hrec).1

theorem snapshots_congr (h : w'.navs = w.navs) (b : String) : snapshots w' b = snapshots w b := by
  rw [snapshots, h, ← snapshots]

theorem InOrder.before (hnavs : w.navs <+: w'.navs) (h : InOrder w') : InOrder w :=
  fun b => (h b).sublist (hnavs.sublist.filter _)

/-- **A sync keeps the maximum**, if its snapshot is later than the others of the broker. -/
theorem HighWater.snoc {t : RealNavSnapshot} (hw : HighWater w) (hnavs : w'.navs = w.navs ++ [t])
    (hlast : ∀ s ∈ snapshots w t.brokerPluginId, s.ts < t.ts)
    (hhwm : t.hwm = max (((w.latestNav? t.brokerPluginId).map RealNavSnapshot.hwm).getD t.equity)
      t.equity) : HighWater w' := by
  intro b s hs
  rw [latestNav?_snoc hnavs hlast] at hs
  by_cases hb : t.brokerPluginId = b
  · subst hb
    rw [if_pos rfl] at hs
    cases hs
    have hins : equities w' t.brokerPluginId =
        insert t.equity (equities w t.brokerPluginId) := by
      ext e
      simp [equities, snapshots_snoc hnavs, eq_comm, or_comm, or_and_right, exists_or]
    rw [hins, hhwm]
    cases hbefore : w.latestNav? t.brokerPluginId with
    | none =>
      have hempty : equities w t.brokerPluginId = ∅ := by
        simp [equities, latestNav?_eq_none.1 hbefore]
      rw [hempty]
      simp
    | some u =>
      rw [max_comm]
      exact (hw _ u hbefore).insert t.equity
  · rw [if_neg hb] at hs
    have hsame : equities w' b = equities w b := by
      rw [equities, snapshots_snoc hnavs, if_neg hb, List.append_nil, ← equities]
    rw [hsame]
    exact hw b s hs

/-- **One operation keeps the maximum**, as long as the snapshots are in order. -/
theorem highWater_step {op : TradeOp} {r : Except Err op.Ans} (hw : InOrder w → HighWater w)
    (h : handle o op w = (r, w')) (horder : InOrder w') : HighWater w' := by
  rcases handle_navs h with hnavs | ⟨t, hnavs, hhwm⟩
  · have hbefore := hw (horder.before (hnavs ▸ List.prefix_rfl))
    intro b s hs
    rw [equities, snapshots_congr hnavs]
    rw [latestNav?_eq, snapshots_congr hnavs, ← latestNav?_eq] at hs
    exact hbefore b s hs
  · have hbefore := horder.before (hnavs ▸ List.prefix_append _ _)
    refine (hw hbefore).snoc hnavs (fun s hs => ?_) hhwm
    have hpair := horder t.brokerPluginId
    rw [snapshots_snoc hnavs, if_pos rfl, List.pairwise_append] at hpair
    exact hpair.2.2 s hs t (List.mem_singleton_self t)

theorem below_step {op : TradeOp} {r : Except Err op.Ans} (hw : Below w)
    (h : handle o op w = (r, w')) : Below w' := by
  intro s hs
  rcases handle_navs h with hnavs | ⟨t, hnavs, hhwm⟩
  · exact hw s (hnavs ▸ hs)
  · rw [hnavs] at hs
    rcases List.mem_append.1 hs with hs | hs
    · exact hw s hs
    · rw [List.mem_singleton.1 hs, hhwm]
      exact le_max_right _ _

end Step

/-! ## Runs -/

/-- The snapshots that a call has been given are below their marks. -/
def Given (h : List (Event tradeSig)) : Prop :=
  ∀ b s, (⟨.navFindLatest b, .ok (some s)⟩ : Event tradeSig) ∈ h → s.equity ≤ s.hwm

/-- What holds along a run. -/
structure Marked {C : Type} (w : World) (ts : List (Thread tradeSig C)) : Prop where
  greatest : InOrder w → HighWater w
  below : Below w
  given : ∀ t ∈ ts, Given t.hist

theorem given_snoc {o : Oracle} {op : TradeOp} {w w' : World} {r : Except Err op.Ans}
    {h : List (Event tradeSig)} (hw : Below w) (hh : Given h) (hrel : handle o op w = (r, w')) :
    Given (h ++ [⟨op, r⟩]) := by
  intro b s hs
  rcases List.mem_append.1 hs with hs | hs
  · exact hh b s hs
  · cases List.mem_singleton.1 hs
    have hlatest : w.latestNav? b = some s := ((query_cases hrel).2 _ rfl).symm
    exact hw s (List.mem_of_mem_filter (mem_of_latestNav? hlatest))

/-- **In every run**, whatever the calls are. -/
theorem marked_run {C : Type} {body : C → Trade Unit} {w : World} (hw : w.navs = [])
    {P : Pool tradeSig C World} (hr : Reaches tradeSem body free ⟨w, []⟩ P) :
    Marked P.world P.threads := by
  have hbody : ∀ c, (body c).Wp (histSem tradeSig) (fun _ _ => True) (fun _ _ => True) [] :=
    fun c => Prog.wp_any (body c) []
  refine reaches_threads (J := Marked) hbody (fun w ts c hJ => ⟨hJ.greatest, hJ.below, ?_⟩) ?_
    ⟨?_, ?_, by simp⟩ hr
  · intro t ht
    rcases List.mem_append.1 ht with ht | ht
    · exact hJ.given t ht
    · rw [List.mem_singleton.1 ht]
      exact fun b s hs => absurd hs List.not_mem_nil
  · rintro w w' xs ys c h op k r hJ - - ⟨o, -, ho⟩
    refine ⟨highWater_step hJ.greatest ho, below_step hJ.below ho, forall_threads hJ.given ?_⟩
    exact given_snoc hJ.below (hJ.given ⟨c, h, .await op k⟩ (by simp)) ho
  · intro _ b s hs
    have hmem := mem_of_latestNav? hs
    rw [snapshots, hw] at hmem
    cases hmem
  · intro s hs
    rw [hw] at hs
    cases hs

theorem drawdownPct_mem {s : RealNavSnapshot} (hequity : 0 < s.equity) (hle : s.equity ≤ s.hwm) :
    drawdownPct s ∈ Set.Icc 0 100 := by
  have hhwm : 0 < s.hwm := hequity.trans_le hle
  have hratio : (s.hwm - s.equity) / s.hwm ≤ 1 := by
    rw [div_le_one hhwm]
    linarith
  rw [drawdownPct, if_pos hhwm]
  refine ⟨le_max_left _ _, max_le (by norm_num) ?_⟩
  linarith

/-- **The high-water mark of the real account.** In every run of any calls over the operations of
the services, syncs that fail and syncs of several brokers among them, from an empty table: where
the times of each broker's snapshots increase strictly, the mark of its latest snapshot is the
maximum of its equities; and for a positive equity the drawdown that the gates compute, from
whatever snapshot they have been given, is between 0 and 100 percent. -/
theorem hwm_isGreatest {C : Type} {body : C → Trade Unit} {w : World} (hw : w.navs = [])
    {P : Pool tradeSig C World} (hr : Reaches tradeSem body free ⟨w, []⟩ P) :
    (InOrder P.world → ∀ b s, P.world.latestNav? b = some s →
      IsGreatest (equities P.world b) s.hwm) ∧
    ∀ t ∈ P.threads, ∀ b s, (⟨.navFindLatest b, .ok (some s)⟩ : Event tradeSig) ∈ t.hist →
      0 < s.equity → ∀ count, ∃ d,
        realDrawdownPct (s.state count) = .fin d ∧ d ∈ Set.Icc 0 100 := by
  have hmarked := marked_run hw hr
  refine ⟨fun horder => hmarked.greatest horder, fun t ht b s hs hequity count => ?_⟩
  exact ⟨_, realDrawdownPct_state s count,
    drawdownPct_mem hequity (hmarked.given t ht b s hs)⟩

/-! ## Two syncs -/

/-- At this time the broker reports this equity, and no position. -/
def reports (time : ℤ) (equity : String) : Oracle where
  time
  ext
    | .request _ "positions" => .ok (.arr [])
    | .request _ _ => .ok (.obj [("equity", .str equity)])
    | _ => .error (err [])

def twoSyncs : Option (Pool tradeSig ServiceCall World) :=
  Pool.replay handle ServiceCall.body Pool.unchecked
    (.start (.syncPortfolio "alpaca" "poll") ::
      List.replicate 4 (.await 0 (reports 0 "1000")) ++
      .start (.syncPortfolio "alpaca" "poll") ::
      List.replicate 4 (.await 1 (reports 60000 "900"))) ⟨sampleWorld [], []⟩

theorem twoSyncs_isSome : twoSyncs.isSome := by decide +kernel

/-- The mark stays at the first equity. -/
theorem twoSyncs_hwm : ∃ s,
    (twoSyncs.get twoSyncs_isSome).world.latestNav? "alpaca" = some s ∧ s.equity = 900 ∧
      s.hwm = 1000 ∧ IsGreatest (equities (twoSyncs.get twoSyncs_isSome).world "alpaca") s.hwm := by
  have hnavs : (twoSyncs.get twoSyncs_isSome).world.navs =
      [⟨0, "alpaca", 1000, 0, 0, 0, 1000, "poll"⟩,
        ⟨60000, "alpaca", 900, 0, 0, 0, 1000, "poll"⟩] := by
    decide +kernel
  have horder : InOrder (twoSyncs.get twoSyncs_isSome).world := by
    intro b
    refine List.Pairwise.filter _ ?_
    rw [hnavs]
    decide
  have hlatest : (twoSyncs.get twoSyncs_isSome).world.latestNav? "alpaca" =
      some ⟨60000, "alpaca", 900, 0, 0, 0, 1000, "poll"⟩ := by
    rw [World.latestNav?, hnavs]
    decide
  exact ⟨_, hlatest, rfl, rfl, (hwm_isGreatest rfl (reaches_of_replay (fun _ _ _ _ _ => trivial)
    (Option.some_get twoSyncs_isSome).symm)).1 horder "alpaca" _ hlatest⟩

end NeoTrader.HighWater

import Mathlib.Data.List.Nodup
import NeoTrader.Trade.KillSwitch

/-!
# The positions after a sync

A sync deletes the broker's rows that are not reported, within the broker, and inserts or replaces the
row of each reported symbol, whoever holds it.

* `mem_upsertPosition`, `mem_foldl_upsertPosition`: the rows after the upserts;
* `ExactReplacement`: the broker's rows are the reported positions, and the rows of the others stay;
* **`exactReplacement_iff`**: a committed sync is one exactly if no other broker holds a reported
  symbol, and a sync that takes the row of another broker (**`sync_takes_row`**).
-/

namespace NeoTrader

open Js Await Prog

/-! ## Upserts -/

theorem mem_upsertPosition {rows : List RealPosition} {p r : RealPosition} :
    r ∈ upsertPosition rows p ↔ r = p ∨ r ∈ rows ∧ r.symbol ≠ p.symbol := by
  unfold upsertPosition
  by_cases hany : (rows.any fun r => r.symbol = p.symbol) = true
  · rw [if_pos hany, Store.mem_modify]
    obtain ⟨held, hheld, hsymbol⟩ := List.any_eq_true.1 hany
    constructor
    · rintro ⟨a, ha, ⟨-, rfl⟩ | ⟨hne, rfl⟩⟩
      · exact .inl rfl
      · exact .inr ⟨ha, by simpa using hne⟩
    · rintro (rfl | ⟨hr, hne⟩)
      · exact ⟨held, hheld, .inl ⟨hsymbol, rfl⟩⟩
      · exact ⟨r, hr, .inr ⟨by simpa using hne, rfl⟩⟩
  · rw [if_neg hany, List.mem_append, List.mem_singleton, or_comm]
    refine or_congr_right ⟨fun hr => ⟨hr, fun heq => ?_⟩, fun hr => hr.1⟩
    exact hany (List.any_eq_true.2 ⟨r, hr, decide_eq_true heq⟩)

theorem nodup_upsertPosition {rows : List RealPosition} {p : RealPosition}
    (h : (rows.map RealPosition.symbol).Nodup) :
    ((upsertPosition rows p).map RealPosition.symbol).Nodup := by
  unfold upsertPosition
  by_cases hany : (rows.any fun r => r.symbol = p.symbol) = true
  · rw [if_pos hany]
    have hsame : (Store.modify (fun r => r.symbol = p.symbol) (fun _ => p) rows).map
        RealPosition.symbol = rows.map RealPosition.symbol := by
      rw [Store.modify, List.map_map]
      refine List.map_congr_left fun r _ => ?_
      by_cases hr : r.symbol = p.symbol
      · simp [hr]
      · simp [hr]
    rw [hsame]
    exact h
  · rw [if_neg hany, List.map_append, List.map_singleton, List.nodup_append]
    refine ⟨h, List.nodup_singleton _, fun s hs s' hs' heq => hany ?_⟩
    obtain ⟨r, hr, rfl⟩ := List.mem_map.1 hs
    rw [List.mem_singleton.1 hs'] at heq
    exact List.any_eq_true.2 ⟨r, hr, decide_eq_true heq⟩

/-- **The rows after upserts of different symbols**: the new ones, and the old ones of other symbols. -/
theorem mem_foldl_upsertPosition {rows kept : List RealPosition} {r : RealPosition}
    (hrows : (rows.map RealPosition.symbol).Nodup) : r ∈ rows.foldl upsertPosition kept ↔
      r ∈ rows ∨ r ∈ kept ∧ ∀ p ∈ rows, r.symbol ≠ p.symbol := by
  induction rows generalizing kept with
  | nil => simp
  | cons p rows ih =>
    rw [List.map_cons, List.nodup_cons] at hrows
    have hother : ∀ q ∈ rows, p.symbol ≠ q.symbol := by
      intro q hq heq
      exact hrows.1 (heq ▸ List.mem_map_of_mem hq)
    rw [List.foldl_cons, ih hrows.2, mem_upsertPosition, List.mem_cons, List.forall_mem_cons]
    constructor
    · rintro (hr | ⟨rfl | ⟨hr, hne⟩, hall⟩)
      · exact .inl (.inr hr)
      · exact .inl (.inl rfl)
      · exact .inr ⟨hr, hne, hall⟩
    · rintro ((rfl | hr) | ⟨hr, hne, hall⟩)
      · exact .inr ⟨.inl rfl, hother⟩
      · exact .inl hr
      · exact .inr ⟨.inr ⟨hr, hne⟩, hall⟩

theorem nodup_foldl_upsertPosition {rows kept : List RealPosition}
    (h : (kept.map RealPosition.symbol).Nodup) :
    ((rows.foldl upsertPosition kept).map RealPosition.symbol).Nodup := by
  induction rows generalizing kept with
  | nil => exact h
  | cons p rows ih => exact ih (nodup_upsertPosition h)

/-! ## Reported rows -/

theorem Position.symbol_of_row {pos : Position} {broker : String} {row : RealPosition}
    (h : pos.row broker = some row) : pos.symbol = some row.symbol ∧ row.brokerPluginId = broker := by
  unfold Position.row at h
  simp only [Option.bind_eq_bind, Option.bind_eq_some_iff] at h
  obtain ⟨symbol, hsymbol, _, -, _, -, _, -, _, -, hrow⟩ := h
  cases hrow
  exact ⟨hsymbol, rfl⟩

theorem mem_of_mapM {α β : Type} {f : α → Option β} {l : List α} {l' : List β}
    (h : l.mapM f = some l') {b : β} : b ∈ l' ↔ ∃ a ∈ l, f a = some b := by
  induction l generalizing l' with
  | nil =>
    cases h
    simp
  | cons a l ih =>
    rw [List.mapM_cons] at h
    obtain ⟨b', hb', h⟩ := Option.bind_eq_some_iff.1 h
    obtain ⟨rest, hrest, h⟩ := Option.bind_eq_some_iff.1 h
    cases h
    rw [List.mem_cons, ih hrest, List.exists_mem_cons_iff, hb', Option.some.injEq, eq_comm]

theorem map_of_mapM {α β γ : Type} {f : α → Option β} {g : α → γ} {k : β → γ}
    (hf : ∀ a b, f a = some b → g a = k b) {l : List α} {l' : List β} (h : l.mapM f = some l') :
    l'.map k = l.map g := by
  induction l generalizing l' with
  | nil =>
    cases h
    rfl
  | cons a l ih =>
    rw [List.mapM_cons] at h
    obtain ⟨b', hb', h⟩ := Option.bind_eq_some_iff.1 h
    obtain ⟨rest, hrest, h⟩ := Option.bind_eq_some_iff.1 h
    cases h
    rw [List.map_cons, List.map_cons, ih hrest, hf a b' hb']

theorem symbols_of_mapM {broker : String} {l : List Position} {rows : List RealPosition}
    (h : (l.mapM fun pos => pos.row broker) = some rows) :
    (rows.map RealPosition.symbol).map some = l.map Position.symbol := by
  rw [List.map_map]
  exact map_of_mapM (fun _ _ hrow => (Position.symbol_of_row hrow).1) h

/-! ## Replacement -/

/-- The positions of a table have different symbols. -/
def World.positionsKeyed (w : World) : Prop := (w.positions.map RealPosition.symbol).Nodup

/-- **The broker's rows are exactly the reported positions**, and the rows of the others stay. -/
structure ExactReplacement (broker : String) (p : Portfolio) (w w' : World) : Prop where
  keyed : w'.positionsKeyed
  reported : ∀ row, row.brokerPluginId = broker →
    (row ∈ w'.positions ↔ ∃ pos ∈ p.positions, pos.row broker = some row)
  others : ∀ row, row.brokerPluginId ≠ broker → (row ∈ w'.positions ↔ row ∈ w.positions)

/-- No other broker holds a reported symbol. -/
def NoOverlap (broker : String) (p : Portfolio) (w : World) : Prop :=
  ∀ row ∈ w.positions, row.brokerPluginId ≠ broker → some row.symbol ∉ p.positions.map Position.symbol

/-- The rows that the deletion of a sync keeps. -/
def World.keptPositions (w : World) (broker : String) (p : Portfolio) : List RealPosition :=
  w.positions.filter fun r =>
    r.brokerPluginId ≠ broker || p.positions.any fun pos => pos.symbol = some r.symbol

theorem mem_keptPositions {w : World} {broker : String} {p : Portfolio} {r : RealPosition} :
    r ∈ w.keptPositions broker p ↔ r ∈ w.positions ∧
      (r.brokerPluginId ≠ broker ∨ some r.symbol ∈ p.positions.map Position.symbol) := by
  simp [World.keptPositions, List.mem_filter]

theorem positions_of_sync {w w' : World} {now : ℤ} {broker source : String} {p : Portfolio}
    (h : w.sync now broker p source = .ok ((), w')) :
    ∃ rows, (p.positions.mapM fun pos => pos.row broker) = some rows ∧
      w'.positions = rows.foldl upsertPosition (w.keptPositions broker p) := by
  simp only [World.sync] at h
  split at h
  · next rows _ _ _ _ hrows _ _ _ _ =>
    cases h
    refine ⟨rows, hrows, congrArg (rows.foldl upsertPosition) (List.filter_congr fun r _ => ?_)⟩
    rw [Bool.eq_iff_iff]
    simp
  · cases h

/-- **When the transaction of a sync replaces exactly the broker's rows.** -/
theorem sync_replaces_iff {w w' : World} {now : ℤ} {broker source : String} {p : Portfolio}
    (hkeyed : w.positionsKeyed) (hdistinct : (p.positions.map Position.symbol).Nodup)
    (h : w.sync now broker p source = .ok ((), w')) :
    ExactReplacement broker p w w' ↔ NoOverlap broker p w := by
  obtain ⟨rows, hrows, hpositions⟩ := positions_of_sync h
  have hsymbols := symbols_of_mapM hrows
  have hnodup : (rows.map RealPosition.symbol).Nodup := by
    rw [← hsymbols] at hdistinct
    exact hdistinct.of_map _
  have hbroker : ∀ r ∈ rows, r.brokerPluginId = broker := by
    intro r hr
    obtain ⟨pos, -, hrow⟩ := (mem_of_mapM hrows).1 hr
    exact (Position.symbol_of_row hrow).2
  have hreported : ∀ s, some s ∈ p.positions.map Position.symbol ↔ ∃ r ∈ rows, s = r.symbol := by
    intro s
    rw [← hsymbols, List.mem_map]
    simp [eq_comm]
  have hmem : ∀ r, r ∈ w'.positions ↔ r ∈ rows ∨ r ∈ w.keptPositions broker p ∧
      some r.symbol ∉ p.positions.map Position.symbol := by
    intro r
    rw [hpositions, mem_foldl_upsertPosition hnodup, hreported]
    simp
  have hkept : ((w.keptPositions broker p).map RealPosition.symbol).Nodup :=
    (List.filter_sublist.map _).nodup hkeyed
  constructor
  · intro hexact row hrow hne hoverlap
    have hstays := (hexact.others row hne).2 hrow
    rcases (hmem row).1 hstays with hnew | ⟨-, hfree⟩
    · exact hne (hbroker row hnew)
    · exact hfree hoverlap
  · intro hfree
    refine ⟨?_, fun row hrow => ?_, fun row hne => ?_⟩
    · show (w'.positions.map RealPosition.symbol).Nodup
      rw [hpositions]
      exact nodup_foldl_upsertPosition hkept
    · rw [hmem, mem_of_mapM hrows]
      refine or_iff_left ?_
      rintro ⟨hold, hnot⟩
      rcases (mem_keptPositions.1 hold).2 with hother | hin
      · exact hother hrow
      · exact hnot hin
    · rw [hmem]
      constructor
      · rintro (hnew | ⟨hold, -⟩)
        · exact absurd (hbroker row hnew) hne
        · exact (mem_keptPositions.1 hold).1
      · exact fun hold => .inr ⟨mem_keptPositions.2 ⟨hold, .inl hne⟩, hfree row hold hne⟩

/-! ## The whole sync -/

/-- What a run of a sync does to the positions: nothing but the transaction that it commits. -/
def PositionsSynced (broker source : String) (w : World) (w' : World × List (Event tradeSig)) : Prop :=
  ∀ p, Committed w'.2 broker p source → ∃ (now : ℤ) (w₁ w₂ : World), w₁.positions = w.positions ∧
    w₁.sync now broker p source = .ok ((), w₂) ∧ w'.1.positions = w₂.positions

theorem quiet_keeps_positions {α : Type} {p : Trade α} (hp : Quiet p) (w : World)
    (h : List (Event tradeSig)) : p.Wp tradeSem.traced (fun _ _ => True)
      (fun _ w' => w'.1.positions = w.positions ∧ ∃ t, w'.2 = h ++ t ∧ ∀ e ∈ t, e.1.quiet) (w, h) := by
  have hkeeps : p.Keeps tradeSem.traced fun w' =>
      w'.1.positions = w.positions ∧ ∃ t, w'.2 = h ++ t ∧ ∀ e ∈ t, e.1.quiet := by
    refine Always.keeps (K := fun _ _ => True) hp ?_
    rintro w₁ w₂ h' op r ⟨hsame, t, ht, hquiet⟩ - hop ⟨⟨o, -, hh⟩, hevents⟩
    refine ⟨⟨(handle_quiet hop hh).positions.trans hsame, t ++ [⟨op, r⟩], ?_, ?_⟩, trivial,
      fun _ _ => trivial⟩
    · rw [hevents, ht, List.append_assoc]
    · refine List.forall_mem_append.2 ⟨hquiet, fun e he => ?_⟩
      rw [List.mem_singleton.1 he]
      exact hop
  exact wp_mono (fun _ _ _ => trivial) (fun _ _ h => h)
    (hkeeps (w, h) ⟨rfl, [], (List.append_nil h).symm, fun e he => by cases he⟩)

theorem not_committed_of_quiet {h : List (Event tradeSig)} (hquiet : ∀ e ∈ h, e.1.quiet)
    {broker source : String} {p : Portfolio} : ¬ Committed h broker p source := by
  intro hmem
  exact absurd (hquiet _ hmem) Bool.false_ne_true

theorem wp_sync_positions (broker source : String) (w : World) :
    (syncPortfolio broker source).Wp tradeSem.traced (fun _ _ => True)
      (fun _ => PositionsSynced broker source w) (w, []) := by
  have hread : Quiet (getPortfolio broker).attempt := always_attempt (quiet_getPortfolio broker)
  refine wp_bind_of (quiet_keeps_positions hread w []) ?_ ?_
  · rintro r ⟨w₁, h₁⟩ ⟨hsame, t, ht, hquiet⟩
    rw [List.nil_append] at ht
    subst ht
    cases r with
    | error e => exact fun p hp => absurd hp (not_committed_of_quiet hquiet)
    | ok portfolio =>
      refine And.intro trivial ?_
      rintro r ⟨w₂, h₂⟩ ⟨⟨o, -, hh⟩, hevents⟩
      have hevents : h₂ = h₁ ++ [⟨.syncTransaction broker portfolio source, r⟩] := hevents
      cases r with
      | error e =>
        intro p hp
        rw [hevents] at hp
        rcases List.mem_append.1 hp with hmem | hmem
        · exact absurd hmem (not_committed_of_quiet hquiet)
        · cases List.mem_singleton.1 hmem
      | ok u =>
        obtain ⟨-, e, he⟩ | ⟨u', hsync, -⟩ := db_cases hh
        · cases he
        refine wp_post ?_ (quiet_keeps_positions (quiet_detectDrift portfolio.positions broker) w₂ h₂)
        rintro r ⟨w₃, h₃⟩ ⟨hlast, t, ht, hquiet'⟩ p hp
        have ht : h₃ = h₂ ++ t := ht
        rw [ht, hevents] at hp
        rcases List.mem_append.1 hp with hp | hp
        · rcases List.mem_append.1 hp with hmem | hmem
          · exact absurd hmem (not_committed_of_quiet hquiet)
          · cases List.mem_singleton.1 hmem
            exact ⟨o.time, w₁, w₂, hsame, hsync, hlast⟩
        · exact absurd hp (not_committed_of_quiet hquiet')
  · rintro e w' ⟨-, t, ht, hquiet⟩ p hp
    rw [ht, List.nil_append] at hp
    exact absurd hp (not_committed_of_quiet hquiet)

/-- A run of a sync that committed a portfolio of different symbols, from a table of different
symbols. -/
structure CommittedSync where
  broker : String
  source : String
  portfolio : Portfolio
  start : World
  finish : World
  result : Except Err (List (Option String))
  history : List (Event tradeSig)
  keyed : start.positionsKeyed
  distinct : (portfolio.positions.map Position.symbol).Nodup
  run : (syncPortfolio broker source).Exec tradeSem.traced (start, []) result (finish, history)
  committed : Committed history broker portfolio source

/-- **A committed sync replaces exactly the broker's rows if and only if no other broker holds a
reported symbol.** -/
theorem exactReplacement_iff (c : CommittedSync) :
    ExactReplacement c.broker c.portfolio c.start c.finish ↔ NoOverlap c.broker c.portfolio c.start := by
  obtain ⟨now, w₁, w₂, hstart, hsync, hfinish⟩ :=
    (wp_sync_positions c.broker c.source c.start).exec c.run c.portfolio c.committed
  have hkeyed : w₁.positionsKeyed := by
    unfold World.positionsKeyed
    rw [hstart]
    exact c.keyed
  have hiff := sync_replaces_iff hkeyed c.distinct hsync
  have hoverlap : NoOverlap c.broker c.portfolio w₁ ↔ NoOverlap c.broker c.portfolio c.start := by
    unfold NoOverlap
    rw [hstart]
  rw [← hoverlap, ← hiff]
  have hfinish : c.finish.positions = w₂.positions := hfinish
  constructor
  · rintro ⟨hnodup, hreported, hothers⟩
    refine ⟨?_, ?_, ?_⟩
    · unfold World.positionsKeyed at hnodup ⊢
      rwa [← hfinish]
    · rwa [← hfinish]
    · rwa [← hfinish, hstart]
  · rintro ⟨hnodup, hreported, hothers⟩
    refine ⟨?_, ?_, ?_⟩
    · unfold World.positionsKeyed at hnodup ⊢
      rwa [hfinish]
    · rwa [hfinish]
    · rwa [hfinish, ← hstart]

/-! ## A row of another broker -/

/-- A position of another broker in the symbol that is reported. -/
def otherBrokerRow : RealPosition :=
  { symbol := "SPY", brokerPluginId := "binance", qty := 1, avgEntry := 90, marketValue := 100
    unrealizedPnl := 10, side := "long" }

def overlapWorld : World := { driftWorld with positions := [otherBrokerRow] }

def overlapRun : Option (Except Err (List (Option String)) × World × List (Event tradeSig)) :=
  (syncPortfolio "alpaca" "poll").execute (fun op w =>
    let y := handle (driftOracle true op) op w.1
    (y.1, y.2, w.2 ++ [⟨op, y.1⟩])) (fun _ _ => true) (overlapWorld, [])

theorem overlapRun_commits : (overlapRun.map fun y => (y.2.2.any commitsDrift,
    y.2.1.positions.contains otherBrokerRow)) = some (true, false) := by
  decide +kernel

/-- **A sync takes the row of another broker.** -/
theorem sync_takes_row : ¬ ∀ c : CommittedSync, ExactReplacement c.broker c.portfolio c.start c.finish := by
  intro hall
  obtain ⟨y, hy, hres⟩ := Option.map_eq_some_iff.1 overlapRun_commits
  obtain ⟨hcommits, hgone⟩ := Prod.mk.inj hres
  have hrun : (syncPortfolio "alpaca" "poll").Exec tradeSem.traced (overlapWorld, []) y.1 y.2 := by
    refine exec_of_execute (fun op w _ => ?_) hy
    exact ⟨⟨driftOracle true op, trivial, rfl⟩, rfl⟩
  have hexact := hall
    { broker := "alpaca", source := "poll", portfolio := driftPortfolio, start := overlapWorld
      finish := y.2.1, result := y.1, history := y.2.2
      keyed := List.nodup_singleton _, distinct := List.nodup_singleton _
      run := hrun, committed := commitsDrift_mem hcommits }
  have hother : otherBrokerRow.brokerPluginId ≠ "alpaca" := by decide
  have hstays := (hexact.others otherBrokerRow hother).2 (List.mem_singleton_self _)
  rw [List.contains_iff_mem.2 hstays] at hgone
  cases hgone

end NeoTrader

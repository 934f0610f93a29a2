import Mathlib.Data.Finset.Card
import NeoTrader.Disciplines.RiskManager
import NeoTrader.Py.Batch

/-!
# The caps of the concentration

The layer of the concentration counts sectors, the whole portfolio and positions while it goes over
a batch.

* **`concentration_caps`**: the caps hold over a batch, and no entry is enlarged.
-/

namespace NeoTrader

open Js Py

/-! ## Parts -/

/-- A part of a portfolio, or an entry. -/
structure SizedPart where
  symbol : String
  sector : String
  size : ℚ

/-- A position of a portfolio. -/
def sizedPartOf (f : String × Json) : Except String SizedPart := do
  let pos ← asDict f.2
  return ⟨f.1, ← sectorOf pos, ← floatField pos "size_pct" 0⟩

/-- The entry of a signal; any other has none. -/
def entryOf (sig : Obj) : Option SizedPart := do
  let action ← (actionOf sig).toOption
  let symbol ← (textField sig "symbol" "").toOption
  let sector ← (textField sig "sector" "unknown").toOption
  let size ← (floatField sig "size_pct" 5).toOption
  if action ∈ entryActions then some ⟨symbol, sector, size⟩ else none

def sectorTotal (parts : List SizedPart) (sector : String) : ℚ :=
  ((parts.filter fun p => p.sector = sector).map SizedPart.size).sum

/-- What all parts come to. -/
def sizeTotal (parts : List SizedPart) : ℚ := (parts.map SizedPart.size).sum

/-- The number of distinct symbols. -/
def symbolCount (parts : List SizedPart) : ℕ := (parts.map SizedPart.symbol).toFinset.card

/-- What the rounding of a size to two decimals can come to. -/
def sizeUnit : ℚ := 1 / (2 * 10 ^ 2)

/-- **The caps are kept** by a portfolio and the entries into it. -/
structure ConcentrationKept (cfg : ConcentrationConfig) (parts entries : List SizedPart) :
    Prop where
  sector : ∀ sector, sectorTotal (parts ++ entries) sector ≤
    max (sectorTotal parts sector) cfg.maxSector + entries.length * sizeUnit
  total : sizeTotal (parts ++ entries) ≤
    max (sizeTotal parts) (100 - cfg.minCash) + entries.length * sizeUnit
  count : (symbolCount (parts ++ entries) : ℤ) ≤ max (symbolCount parts : ℤ) cfg.maxPositions

/-- An entry that is emitted is the one that was pending, and not larger. -/
def NotEnlarged (sig out : Obj) : Prop :=
  ∀ p ∈ entryOf out, ∃ p' ∈ entryOf sig, p.symbol = p'.symbol ∧ p.sector = p'.sector ∧
    p.size ≤ p'.size + sizeUnit

section Parts

variable {parts entries : List SizedPart} {p : SizedPart} {sector : String}

@[simp] theorem sectorTotal_append : sectorTotal (parts ++ entries) sector =
    sectorTotal parts sector + sectorTotal entries sector := by
  simp [sectorTotal]

theorem sectorTotal_singleton :
    sectorTotal [p] sector = if p.sector = sector then p.size else 0 := by
  by_cases h : p.sector = sector <;> simp [sectorTotal, h]

@[simp] theorem sizeTotal_append : sizeTotal (parts ++ entries) =
    sizeTotal parts + sizeTotal entries := by
  simp [sizeTotal]

@[simp] theorem sizeTotal_singleton : sizeTotal [p] = p.size := by simp [sizeTotal]

theorem symbolCount_concat_le : symbolCount (parts ++ [p]) ≤ symbolCount parts + 1 := by
  rw [symbolCount, List.map_append, List.toFinset_append, List.map_singleton]
  refine (Finset.card_union_le _ _).trans ?_
  simp [symbolCount]

theorem symbolCount_concat (h : p.symbol ∈ parts.map SizedPart.symbol) :
    symbolCount (parts ++ [p]) = symbolCount parts := by
  have hmem : p.symbol ∈ (parts.map SizedPart.symbol).toFinset := List.mem_toFinset.2 h
  rw [symbolCount, List.map_append, List.toFinset_append, List.map_singleton, symbolCount]
  congr 1
  simpa using hmem

theorem portfolioSectors_eq {portfolio : Obj} {st : SectorState}
    (h : portfolio.mapM sizedPartOf = .ok parts) : ∃ st', portfolioSectors portfolio st = .ok st' ∧
      (∀ sector, st'.held sector = st.held sector + sectorTotal parts sector) ∧
      st'.total = st.total + sizeTotal parts ∧ st'.count = st.count + portfolio.length := by
  induction portfolio generalizing st parts with
  | nil =>
    cases h
    exact ⟨st, rfl, fun _ => by simp [sectorTotal], by simp [sizeTotal], by simp⟩
  | cons f rest ih =>
    rw [List.mapM_cons] at h
    obtain ⟨p, hp, h⟩ := bind_eq_ok.1 h
    obtain ⟨others, hothers, h⟩ := bind_eq_ok.1 h
    cases h
    obtain ⟨pos, hpos, hp⟩ := bind_eq_ok.1 hp
    obtain ⟨sector, hsector, hp⟩ := bind_eq_ok.1 hp
    obtain ⟨size, hsize, hp⟩ := bind_eq_ok.1 hp
    cases hp
    obtain ⟨st', hst', hheld, htotal, hcount⟩ := @ih _
      ⟨Dict.set sector (st.held sector + size) st.sectors, st.total + size, st.count + 1⟩ hothers
    refine ⟨st', ?_, fun other => ?_, ?_, ?_⟩
    · rw [portfolioSectors, hpos]
      dsimp only [bind, Except.bind]
      rw [hsector, hsize]
      exact hst'
    · have hcons : sectorTotal (⟨f.1, sector, size⟩ :: others) other =
          (if sector = other then size else 0) + sectorTotal others other := by
        have happend : sectorTotal ([⟨f.1, sector, size⟩] ++ others) other =
            sectorTotal [⟨f.1, sector, size⟩] other + sectorTotal others other := sectorTotal_append
        rwa [sectorTotal_singleton] at happend
      have hset : SectorState.held ⟨Dict.set sector (st.held sector + size) st.sectors,
          st.total + size, st.count + 1⟩ other =
          st.held other + if sector = other then size else 0 := by
        show Dict.value (Dict.set sector _ st.sectors) other = Dict.value st.sectors other + _
        by_cases hsame : sector = other
        · rw [← hsame, Dict.value_set_self, if_pos rfl]
          rfl
        · rw [Dict.value_set_of_ne (Ne.symm hsame), if_neg hsame, add_zero]
      rw [hheld, hset, hcons]
      ring
    · rw [htotal]
      simp only [sizeTotal, List.map_cons, List.sum_cons]
      ring
    · rw [hcount, List.length_cons]
      push_cast
      ring

end Parts

/-! ## One signal -/

section Step

variable {cfg : ConcentrationConfig} {st st' : SectorState} {isNew : Bool} {sector : String}
variable {size size' : ℚ} {portfolio sig out : Obj}

theorem cash_fits {fitted total minCash : ℚ} {reason : String}
    (h : (if 100 - total - fitted < minCash then
      if 100 - total - minCash ≤ 0 then throw reason
      else Except.ok (min fitted (100 - total - minCash))
    else Except.ok fitted : Except String ℚ) = .ok size') :
    size' ≤ fitted ∧ total + size' ≤ 100 - minCash := by
  split at h
  · split at h
    · cases h
    · cases h
      have hroom : min fitted (100 - total - minCash) ≤ 100 - total - minCash := min_le_right _ _
      exact ⟨min_le_left _ _, by linarith⟩
  · next hcash =>
    cases h
    exact ⟨le_refl _, by linarith⟩

/-- **An entry that is let through fits** all caps. -/
theorem judgeSize_ok (h : judgeSize cfg st isNew sector size = .ok size') :
    size' ≤ size ∧ st.held sector + size' ≤ cfg.maxSector ∧
      st.total + size' ≤ 100 - cfg.minCash ∧ (isNew → st.count < cfg.maxPositions) := by
  unfold judgeSize at h
  dsimp only [bind, Except.bind, pure, Except.pure] at h
  by_cases hslot : isNew = true ∧ cfg.maxPositions ≤ st.count
  · rw [if_pos hslot] at h
    cases h
  rw [if_neg hslot] at h
  have hcount : isNew → st.count < cfg.maxPositions := fun hnew =>
    not_le.1 fun hfull => hslot ⟨hnew, hfull⟩
  by_cases hover : cfg.maxSector < st.held sector + size
  · rw [if_pos hover] at h
    by_cases hfull : cfg.maxSector - st.held sector ≤ 0
    · rw [if_pos hfull] at h
      cases h
    · rw [if_neg hfull] at h
      obtain ⟨hle, hcash⟩ := cash_fits h
      exact ⟨by linarith, by linarith, hcash, hcount⟩
  · rw [if_neg hover] at h
    obtain ⟨hle, hcash⟩ := cash_fits h
    exact ⟨hle, by linarith, hcash, hcount⟩

theorem entryOf_cancel (sig : Obj) (reason : String) :
    entryOf (cancelSignal sig reason) = none := by
  have haction : actionOf (cancelSignal sig reason) = .ok "cancelled" := by
    rw [actionOf, cancelSignal_action]
  have hother : "cancelled" ∉ entryActions := by decide
  unfold entryOf
  rw [haction]
  cases (textField (cancelSignal sig reason) "symbol" "") <;>
    cases (textField (cancelSignal sig reason) "sector" "unknown") <;>
    cases (floatField (cancelSignal sig reason) "size_pct" 5) <;>
    simp [Except.toOption, hother]

theorem entryOf_other {action : String} (haction : actionOf sig = .ok action)
    (hother : action ∉ entryActions) : entryOf sig = none := by
  unfold entryOf
  rw [haction]
  cases (textField sig "symbol" "") <;> cases (textField sig "sector" "unknown") <;>
    cases (floatField sig "size_pct" 5) <;> simp [Except.toOption, hother]

/-- **One signal**: one that opens nothing stays, an entry is cancelled, or let through in a size
that fits. -/
theorem concentrationStep_cases (h : concentrationStep portfolio cfg st sig = .ok (out, st')) :
    (entryOf out = none ∧ st' = st) ∨
    ∃ p size, entryOf sig = some p ∧
      judgeSize cfg st (portfolio.get p.symbol).isNone p.sector p.size = .ok size ∧
      entryOf out = some { p with size := roundTo 2 size } ∧
      st' = ⟨Dict.set p.sector (st.held p.sector + size) st.sectors, st.total + size,
        if (portfolio.get p.symbol).isNone then st.count + 1 else st.count⟩ := by
  obtain ⟨action, haction, h⟩ := bind_eq_ok.1 h
  split at h
  · next hother =>
    cases h
    exact .inl ⟨entryOf_other haction hother, rfl⟩
  · next hmem =>
    obtain ⟨symbol, hsymbol, h⟩ := bind_eq_ok.1 h
    obtain ⟨sector, hsector, h⟩ := bind_eq_ok.1 h
    obtain ⟨size, hsize, h⟩ := bind_eq_ok.1 h
    dsimp only at h
    split at h
    · cases h
      exact .inl ⟨entryOf_cancel _ _, rfl⟩
    · next fitted hfitted =>
      cases h
      refine .inr ⟨⟨symbol, sector, size⟩, fitted, ?_, hfitted, ?_, rfl⟩
      · simp [entryOf, haction, hsymbol, hsector, hsize, Except.toOption, not_not.1 hmem]
      · have hget : ∀ key ≠ "size_pct",
            (sig.set "size_pct" (.num (.fin (roundTo 2 fitted)))).get key = sig.get key :=
          fun key hkey => Obj.get_set_of_ne sig hkey _
        have haction' : actionOf (sig.set "size_pct" (.num (.fin (roundTo 2 fitted)))) =
            .ok action := by
          rw [actionOf, hget _ (by decide)]
          exact haction
        have hsymbol' : textField (sig.set "size_pct" (.num (.fin (roundTo 2 fitted)))) "symbol"
            "" = .ok symbol := by
          rw [textField, hget _ (by decide)]
          exact hsymbol
        have hsector' : textField (sig.set "size_pct" (.num (.fin (roundTo 2 fitted)))) "sector"
            "unknown" = .ok sector := by
          rw [textField, hget _ (by decide)]
          exact hsector
        have hsize' : floatField (sig.set "size_pct" (.num (.fin (roundTo 2 fitted)))) "size_pct"
            5 = .ok (roundTo 2 fitted) := by
          rw [floatField, Obj.get_set_self]
          rfl
        simp [entryOf, haction', hsymbol', hsector', hsize', Except.toOption, not_not.1 hmem]

end Step

/-! ## The running totals -/

section Totals

variable {cfg : ConcentrationConfig} {parts entries : List SizedPart} {st st' : SectorState}
variable {portfolio : Obj}

/-- **The state of the layer**: what it counts is what the portfolio and the entries come to, up to
rounding, and within the caps. -/
structure Tallied (cfg : ConcentrationConfig) (parts entries : List SizedPart) (st : SectorState) :
    Prop where
  sectorClose : ∀ sector,
    |sectorTotal (parts ++ entries) sector - st.held sector| ≤ entries.length * sizeUnit
  totalClose : |sizeTotal (parts ++ entries) - st.total| ≤ entries.length * sizeUnit
  sector : ∀ sector, st.held sector ≤ max (sectorTotal parts sector) cfg.maxSector
  total : st.total ≤ max (sizeTotal parts) (100 - cfg.minCash)
  count : st.count ≤ max (parts.length : ℤ) cfg.maxPositions
  symbols : (symbolCount (parts ++ entries) : ℤ) ≤ st.count

/-- **What is counted within the caps** is kept within them. -/
theorem Tallied.kept (h : Tallied cfg parts entries st)
    (hdistinct : (parts.map SizedPart.symbol).Nodup) : ConcentrationKept cfg parts entries where
  sector sector := by
    linarith [le_abs_self (sectorTotal (parts ++ entries) sector - st.held sector),
      h.sectorClose sector, h.sector sector]
  total := by
    linarith [le_abs_self (sizeTotal (parts ++ entries) - st.total), h.totalClose, h.total]
  count := by
    have hlength : symbolCount parts = parts.length := by
      rw [symbolCount, List.toFinset_card_of_nodup hdistinct, List.length_map]
    rw [hlength]
    exact h.symbols.trans h.count

theorem Tallied.entry (h : Tallied cfg parts entries st) {p : SizedPart} {size : ℚ}
    (hkeys : parts.map SizedPart.symbol = portfolio.map Prod.fst)
    (hsize : judgeSize cfg st (portfolio.get p.symbol).isNone p.sector p.size = .ok size) :
    Tallied cfg parts (entries ++ [{ p with size := roundTo 2 size }])
      ⟨Dict.set p.sector (st.held p.sector + size) st.sectors, st.total + size,
        if (portfolio.get p.symbol).isNone then st.count + 1 else st.count⟩ := by
  obtain ⟨-, hsector, htotal, hcount⟩ := judgeSize_ok hsize
  have hround : |roundTo 2 size - size| ≤ sizeUnit := abs_roundTo_sub_le 2 size
  have hunit : 0 ≤ sizeUnit := (abs_nonneg _).trans hround
  have hlength : ((entries ++ [{ p with size := roundTo 2 size }]).length : ℚ) * sizeUnit =
      entries.length * sizeUnit + sizeUnit := by
    rw [List.length_append, List.length_singleton]
    push_cast
    ring
  have hheld : ∀ sector, SectorState.held ⟨Dict.set p.sector (st.held p.sector + size) st.sectors,
      st.total + size, if (portfolio.get p.symbol).isNone then st.count + 1 else st.count⟩ sector =
      st.held sector + if p.sector = sector then size else 0 := by
    intro sector
    show Dict.value (Dict.set p.sector _ st.sectors) sector = Dict.value st.sectors sector + _
    by_cases hsame : p.sector = sector
    · rw [← hsame, Dict.value_set_self, if_pos rfl]
      rfl
    · rw [Dict.value_set_of_ne (Ne.symm hsame), if_neg hsame, add_zero]
  constructor
  case sectorClose =>
    intro sector
    rw [hlength, hheld, ← List.append_assoc, sectorTotal_append, sectorTotal_singleton]
    dsimp only
    have hclose := h.sectorClose sector
    by_cases hsame : p.sector = sector
    · rw [if_pos hsame, if_pos hsame]
      rw [abs_le] at hclose hround ⊢
      constructor <;> linarith
    · rw [if_neg hsame, if_neg hsame, add_zero, add_zero]
      linarith
  case totalClose =>
    rw [hlength, ← List.append_assoc, sizeTotal_append, sizeTotal_singleton]
    dsimp only
    have hclose := h.totalClose
    rw [abs_le] at hclose hround ⊢
    constructor <;> linarith
  case sector =>
    intro sector
    rw [hheld]
    by_cases hsame : p.sector = sector
    · rw [if_pos hsame, ← hsame]
      exact hsector.trans (le_max_right _ _)
    · rw [if_neg hsame, add_zero]
      exact h.sector sector
  case total => exact htotal.trans (le_max_right _ _)
  case count =>
    dsimp only
    split
    · next hnew => exact (Int.add_one_le_of_lt (hcount hnew)).trans (le_max_right _ _)
    · exact h.count
  case symbols =>
    rw [← List.append_assoc]
    dsimp only
    have hsymbols := h.symbols
    split
    · have hle : symbolCount (parts ++ entries ++ [{ p with size := roundTo 2 size }]) ≤
          symbolCount (parts ++ entries) + 1 := symbolCount_concat_le
      omega
    · next hold =>
      -- the symbol is in the portfolio
      obtain ⟨v, hv⟩ : ∃ v, portfolio.get p.symbol = some v :=
        Option.ne_none_iff_exists'.1 fun hnone => hold (Option.isNone_iff_eq_none.2 hnone)
      obtain ⟨f, hf, -⟩ := Option.map_eq_some_iff.1 hv
      have hkey := List.find?_some hf
      have hmem : p.symbol ∈ (parts ++ entries).map SizedPart.symbol := by
        rw [List.map_append, hkeys]
        refine List.mem_append_left _ ?_
        rw [← of_decide_eq_true hkey]
        exact List.mem_map_of_mem (List.mem_reverse.1 (List.mem_of_find?_eq_some hf))
      have hsame : symbolCount (parts ++ entries ++ [{ p with size := roundTo 2 size }]) =
          symbolCount (parts ++ entries) := symbolCount_concat hmem
      rw [hsame]
      exact hsymbols

theorem Tallied.step (hkeys : parts.map SizedPart.symbol = portfolio.map Prod.fst)
    (outs : List Obj) (st : SectorState) (sig out : Obj) (st' : SectorState)
    (h : Tallied cfg parts (outs.filterMap entryOf) st)
    (hstep : concentrationStep portfolio cfg st sig = .ok (out, st')) :
    Tallied cfg parts ((outs ++ [out]).filterMap entryOf) st' := by
  rw [List.filterMap_append]
  rcases concentrationStep_cases hstep with ⟨hnone, rfl⟩ | ⟨p, size, -, hsize, hentry, rfl⟩
  · simpa [hnone] using h
  · have hcounted := h.entry hkeys hsize
    simpa [hentry] using hcounted

theorem notEnlarged_of_step {sig out : Obj}
    (hstep : concentrationStep portfolio cfg st sig = .ok (out, st')) : NotEnlarged sig out := by
  intro p hp
  rcases concentrationStep_cases hstep with ⟨hnone, -⟩ | ⟨p', size, hsig, hsize, hentry, -⟩
  · rw [hnone] at hp
    cases hp
  · rw [hentry] at hp
    cases hp
    have hle := (judgeSize_ok hsize).1
    have hround : |roundTo 2 size - size| ≤ sizeUnit := abs_roundTo_sub_le 2 size
    refine ⟨p', hsig, rfl, rfl, ?_⟩
    show roundTo 2 size ≤ p'.size + sizeUnit
    linarith [le_abs_self (roundTo 2 size - size)]

theorem map_symbol_of_mapM (h : portfolio.mapM sizedPartOf = .ok parts) :
    parts.map SizedPart.symbol = portfolio.map Prod.fst := by
  induction portfolio generalizing parts with
  | nil =>
    cases h
    rfl
  | cons f rest ih =>
    rw [List.mapM_cons] at h
    obtain ⟨p, hp, h⟩ := bind_eq_ok.1 h
    obtain ⟨others, hothers, h⟩ := bind_eq_ok.1 h
    cases h
    obtain ⟨pos, -, hp⟩ := bind_eq_ok.1 hp
    obtain ⟨sector, -, hp⟩ := bind_eq_ok.1 hp
    obtain ⟨size, -, hp⟩ := bind_eq_ok.1 hp
    cases hp
    rw [List.map_cons, List.map_cons, ih hothers]

theorem Tallied.start (hparts : portfolio.mapM sizedPartOf = .ok parts)
    (hst : portfolioSectors portfolio ⟨[], 0, 0⟩ = .ok st) : Tallied cfg parts [] st := by
  obtain ⟨st', hst', hheld, htotal, hcount⟩ :=
    @portfolioSectors_eq parts portfolio ⟨[], 0, 0⟩ hparts
  rw [hst] at hst'
  cases hst'
  have hempty : ∀ sector, SectorState.held ⟨[], 0, 0⟩ sector = 0 := fun _ => rfl
  have hlength : parts.length = portfolio.length := by
    have hkeys := congrArg List.length (map_symbol_of_mapM hparts)
    rwa [List.length_map, List.length_map] at hkeys
  have hsymbols : symbolCount parts ≤ parts.length := by
    have hcard := List.toFinset_card_le (parts.map SizedPart.symbol)
    rwa [List.length_map] at hcard
  rw [zero_add] at htotal hcount
  constructor
  case sectorClose =>
    intro sector
    rw [hheld, hempty, List.append_nil]
    simp
  case totalClose =>
    rw [htotal, List.append_nil]
    simp
  case sector =>
    intro sector
    rw [hheld, hempty, zero_add]
    exact le_max_left _ _
  case total => exact htotal ▸ le_max_left _ _
  case count =>
    rw [hcount, hlength]
    exact le_max_left _ _
  case symbols =>
    rw [hcount, List.append_nil, ← hlength]
    exact_mod_cast hsymbols

end Totals

/-! ## A batch -/

/-- **The caps are kept over a whole batch**, and no entry is enlarged. -/
theorem concentration_caps {signals out : List Obj} {portfolio : Json} {fields config : Obj}
    {cfg : ConcentrationConfig} {parts : List SizedPart}
    (hconfig : concentrationConfig config = .ok cfg) (hfields : asDict portfolio = .ok fields)
    (hdistinct : (fields.map Prod.fst).Nodup) (hparts : fields.mapM sizedPartOf = .ok parts)
    (hout : applyConcentrationLayer portfolio config signals = .ok out) :
    (∀ k, ConcentrationKept cfg parts ((out.take k).filterMap entryOf)) ∧
      List.Forall₂ NotEnlarged signals out := by
  have hkeys := map_symbol_of_mapM hparts
  unfold applyConcentrationLayer at hout
  rw [hconfig, hfields] at hout
  obtain ⟨_, hcfg, hout⟩ := bind_eq_ok.1 hout
  cases hcfg
  obtain ⟨_, hdict, hout⟩ := bind_eq_ok.1 hout
  cases hdict
  obtain ⟨st, hst, hrun⟩ := bind_eq_ok.1 hout
  have hstart : Tallied cfg parts (([] : List Obj).filterMap entryOf) st :=
    Tallied.start hparts hst
  have hnone_larger : List.Forall₂ NotEnlarged signals out :=
    mapState_spec (R := NotEnlarged) (fun _ _ _ _ => notEnlarged_of_step) st signals hrun
  refine ⟨fun k => ?_, hnone_larger⟩
  obtain ⟨st', hst'⟩ := mapState_run (p := fun _ _ => True)
    (fun outs st sig out st' h _ hstep => Tallied.step hkeys outs st sig out st' h hstep) hstart
    (Along.of_forall (fun _ _ => trivial) _ _) (mapState_take hrun k)
  exact hst'.kept (hkeys ▸ hdistinct)

def techPortfolio : Obj :=
  [("AAPL", .obj [("sector", .str "tech"), ("size_pct", .num (.fin 20))])]

def sectorEntry (symbol sector : String) (size : ℚ) : Obj :=
  [("action", .str "buy"), ("symbol", .str symbol), ("sector", .str sector),
    ("size_pct", .num (.fin size))]

theorem concentration_caps_tech : ∃ out, applyConcentrationLayer (.obj techPortfolio) []
      [sectorEntry "MSFT" "tech" 15, sectorEntry "XOM" "energy" 15] = .ok out ∧
    ConcentrationKept ⟨30, 10, 20⟩ [⟨"AAPL", "tech", 20⟩] ((out.take 2).filterMap entryOf) := by
  have hrun : (applyConcentrationLayer (.obj techPortfolio) []
      [sectorEntry "MSFT" "tech" 15, sectorEntry "XOM" "energy" 15]).toOption.isSome := by
    decide +kernel
  cases hout : applyConcentrationLayer (.obj techPortfolio) []
      [sectorEntry "MSFT" "tech" 15, sectorEntry "XOM" "energy" 15] with
  | error e =>
    rw [hout] at hrun
    cases hrun
  | ok out =>
    refine ⟨out, rfl, ?_⟩
    exact (@concentration_caps _ _ (.obj techPortfolio) techPortfolio [] _ _ rfl rfl
      (List.nodup_singleton _) rfl hout).1 2

end NeoTrader

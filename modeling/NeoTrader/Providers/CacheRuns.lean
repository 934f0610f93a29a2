import NeoTrader.Providers.OhlcvCache

/-!
# Runs of the cache of market data

A text joins what an entry was asked for, and a pattern of such texts picks the entries that are
invalidated. Where no two requests of a run have one text and no pattern picks another's entry, the
service is a cache of what was asked for.

* **`sound_of_meets`**: in a run whose calls all meet their conditions, every call is sound.
-/

namespace NeoTrader.MarketCache

open Expiring

variable {Bar Quote : Type} {calls : List (ℤ × Call Bar Quote)} {now : ℤ}

/-! ## What a read may answer with -/

/-- How long bars are served. -/
def barsTtl (timeframe : String) (bars : List Bar) : Option ℤ :=
  if bars.isEmpty then some EMPTY_OHLCV_TTL else timeframeTtl timeframe

/-- A call after which the bars for a request are no longer to be served. -/
def SupersedesBars (x : OhlcvArgs) : Call Bar Quote → Prop
  | .setOhlcv y _ => y = x
  | .invalidateSymbol symbol => symbol = x.symbol
  | .invalidateProvider provider => provider = x.provider
  | _ => False

/-- A call after which the quote for a request is no longer to be served. -/
def SupersedesQuote (x : QuoteArgs) : Call Bar Quote → Prop
  | .setQuote y _ => y = x
  | .invalidateSymbol symbol => symbol = x.symbol
  | .invalidateProvider provider => provider = x.provider
  | _ => False

/-- The bars are the latest ones set for the request, no longer ago than they are served. -/
def LatestBars (calls : List (ℤ × Call Bar Quote)) (now : ℤ) (x : OhlcvArgs) (bars : List Bar) :
    Prop :=
  ∃ before t since, calls = before ++ (t, .setOhlcv x bars) :: since ∧
    (∃ ttl, barsTtl x.timeframe bars = some ttl ∧ now - t ≤ ttl) ∧
    ∀ c ∈ since, ¬ SupersedesBars x c.2

/-- The quote is the latest one set for the request, no longer ago than it is served. -/
def LatestQuote (calls : List (ℤ × Call Bar Quote)) (now : ℤ) (x : QuoteArgs) (quote : Quote) :
    Prop :=
  ∃ before t since, calls = before ++ (t, .setQuote x quote) :: since ∧ now - t ≤ QUOTE_TTL ∧
    ∀ c ∈ since, ¬ SupersedesQuote x c.2

/-! ## What a call does -/

def SetBars (calls : List (ℤ × Call Bar Quote)) (x : OhlcvArgs) : Prop :=
  ∃ t bars, (t, .setOhlcv x bars) ∈ calls

def SetQuote (calls : List (ℤ × Call Bar Quote)) (x : QuoteArgs) : Prop :=
  ∃ t quote, (t, .setQuote x quote) ∈ calls

/-- Entries of other requests are left in place. -/
structure LeavesOthers (calls : List (ℤ × Call Bar Quote)) (s' : OhlcvCacheService Bar Quote)
    (bars : OhlcvArgs → Prop) (quotes : QuoteArgs → Prop) : Prop where
  bars : ∀ x, SetBars calls x → ¬ bars x →
    lookup s'.ohlcvCache x.key = lookup (after calls).ohlcvCache x.key
  quotes : ∀ x, SetQuote calls x → ¬ quotes x →
    lookup s'.quoteCache x.key = lookup (after calls).quoteCache x.key

/-- **A call that is sound** after some others. -/
structure Sound (calls : List (ℤ × Call Bar Quote)) (now : ℤ) (c : Call Bar Quote) : Prop where
  ohlcv_room : ((after calls).call now c).ohlcvCache.length ≤ MAX_OHLCV_ENTRIES
  quote_room : ((after calls).call now c).quoteCache.length ≤ MAX_QUOTE_ENTRIES
  bars : ∀ x bars, c = .getOhlcv x → ((after calls).getOhlcv now x).1 = some bars →
    LatestBars calls now x bars
  quote : ∀ x quote, c = .getQuote x → ((after calls).getQuote now x).1 = some quote →
    LatestQuote calls now x quote
  symbol : ∀ symbol, c = .invalidateSymbol symbol →
    LeavesOthers calls ((after calls).call now c) (·.symbol = symbol) (·.symbol = symbol)
  provider : ∀ provider, c = .invalidateProvider provider →
    LeavesOthers calls ((after calls).call now c) (·.provider = provider) (·.provider = provider)

/-- **What a call takes**, for all of it to be sound. -/
structure Meets (calls : List (ℤ × Call Bar Quote)) (now : ℤ) (c : Call Bar Quote) : Prop where
  timeframe : ∀ x bars, c = .setOhlcv x bars → bars = [] ∨ x.timeframe ∉ objectPrototypeNames
  bars : ∀ x, c = .getOhlcv x → ∀ y, SetBars calls y → y.key = x.key → y = x
  quote : ∀ x, c = .getQuote x → ∀ y, SetQuote calls y → y.key = x.key → y = x
  room : ∀ x quote, c = .setQuote x quote →
    (unexpired now (after calls).quoteCache).length < MAX_QUOTE_ENTRIES ∨
      x.key ∈ (unexpired now (after calls).quoteCache).map Prod.fst
  symbol : ∀ symbol, c = .invalidateSymbol symbol →
    (∀ x, SetBars calls x → includes x.key (":" ++ symbol ++ ":") → x.symbol = symbol) ∧
      ∀ x, SetQuote calls x → endsWith x.key (":" ++ symbol) → x.symbol = symbol
  provider : ∀ provider, c = .invalidateProvider provider →
    (∀ x, SetBars calls x → startsWith x.key (provider ++ ":") → x.provider = provider) ∧
      ∀ x, SetQuote calls x → startsWith x.key (provider ++ ":") → x.provider = provider

/-! ## The maps as caches -/

section Maps

/-- What a call does to the bars. -/
def ohlcvOp (c : ℤ × Call Bar Quote) : Op String (CacheEntry (List Bar)) :=
  match c.2 with
  | .setOhlcv x bars => .put x.key ⟨bars, OhlcvCacheService.ohlcvExpiry c.1 x.timeframe bars⟩
  | .invalidateSymbol symbol => .drop (includes · (":" ++ symbol ++ ":"))
  | .invalidateProvider provider => .drop (startsWith · (provider ++ ":"))
  | _ => .trim

def quoteOp (c : ℤ × Call Bar Quote) : Op String (CacheEntry Quote) :=
  match c.2 with
  | .setQuote x quote => .put x.key ⟨quote, some (c.1 + QUOTE_TTL)⟩
  | .invalidateSymbol symbol => .drop (endsWith · (":" ++ symbol))
  | .invalidateProvider provider => .drop (startsWith · (provider ++ ":"))
  | _ => .trim

theorem store_step {α : Type} (max : ℕ) (key : String) (entry : CacheEntry α)
    (cache : CacheMap α) : Step (.put key entry) cache (store max now key entry cache) := by
  refine Step.put ?_
  split_ifs
  · exact evictExpired_sublist now cache
  · exact List.Sublist.refl cache

theorem ohlcv_run (calls : List (ℤ × Call Bar Quote)) :
    Run (calls.map ohlcvOp) (after calls).ohlcvCache := by
  induction calls using List.reverseRecOn with
  | nil => exact Run.nil
  | append_singleton calls c ih =>
    rw [List.map_append, List.map_singleton, after_concat]
    refine ih.snoc ?_
    obtain ⟨now, c⟩ := c
    cases c with
    | getOhlcv x => exact Step.trim (read_sublist now x.key _)
    | setOhlcv x bars => exact store_step _ _ _ _
    | getQuote x => exact Step.trim (List.Sublist.refl _)
    | setQuote x quote => exact Step.trim (List.Sublist.refl _)
    | invalidateSymbol symbol => exact Step.drop
    | invalidateProvider provider => exact Step.drop

theorem quote_run (calls : List (ℤ × Call Bar Quote)) :
    Run (calls.map quoteOp) (after calls).quoteCache := by
  induction calls using List.reverseRecOn with
  | nil => exact Run.nil
  | append_singleton calls c ih =>
    rw [List.map_append, List.map_singleton, after_concat]
    refine ih.snoc ?_
    obtain ⟨now, c⟩ := c
    cases c with
    | getOhlcv x => exact Step.trim (List.Sublist.refl _)
    | setOhlcv x bars => exact Step.trim (List.Sublist.refl _)
    | getQuote x => exact Step.trim (read_sublist now x.key _)
    | setQuote x quote => exact store_step _ _ _ _
    | invalidateSymbol symbol => exact Step.drop
    | invalidateProvider provider => exact Step.drop

theorem mem_of_read {α : Type} {key : String} {cache : CacheMap α} {v : α}
    (h : (read now key cache).1 = some v) :
    ∃ entry, (key, entry) ∈ cache ∧ entry.data = v ∧ entry.expired now = false := by
  rw [read] at h
  cases hentry : lookup cache key with
  | none =>
    rw [hentry] at h
    cases h
  | some entry =>
    rw [hentry] at h
    dsimp only at h
    split_ifs at h with hexpired
    · cases h
      exact ⟨entry, mem_of_lookup hentry, rfl, by simpa using hexpired⟩

end Maps

/-! ## Own keys -/

section Own

theorem OhlcvArgs.includes_key (x : OhlcvArgs) :
    includes x.key (":" ++ x.symbol ++ ":") = true := by
  rw [includes, OhlcvArgs.key]
  simp only [String.toList_append, decide_eq_true_eq]
  refine ⟨x.provider.toList, x.timeframe.toList ++ ":".toList ++ (toString x.limit).toList, ?_⟩
  simp only [List.append_assoc]

theorem OhlcvArgs.startsWith_key (x : OhlcvArgs) : startsWith x.key (x.provider ++ ":") = true := by
  rw [startsWith, OhlcvArgs.key]
  simp only [String.toList_append, decide_eq_true_eq, List.append_assoc]
  rw [List.prefix_append_right_inj]
  exact List.prefix_append _ _

theorem QuoteArgs.endsWith_key (x : QuoteArgs) : endsWith x.key (":" ++ x.symbol) = true := by
  rw [endsWith, QuoteArgs.key]
  simp only [String.toList_append, decide_eq_true_eq, List.append_assoc]
  exact List.suffix_append _ _

theorem QuoteArgs.startsWith_key (x : QuoteArgs) : startsWith x.key (x.provider ++ ":") = true := by
  rw [startsWith, QuoteArgs.key]
  simp only [String.toList_append, decide_eq_true_eq]
  exact List.prefix_append _ _

theorem ends_of_supersedesBars {x : OhlcvArgs} {c : ℤ × Call Bar Quote}
    (h : SupersedesBars x c.2) : (ohlcvOp c).Ends x.key := by
  obtain ⟨t, c⟩ := c
  cases c with
  | setOhlcv y bars => exact congrArg OhlcvArgs.key h
  | invalidateSymbol symbol =>
    obtain rfl : symbol = x.symbol := h
    exact x.includes_key
  | invalidateProvider provider =>
    obtain rfl : provider = x.provider := h
    exact x.startsWith_key
  | getOhlcv y => exact h
  | getQuote y => exact h
  | setQuote y quote => exact h

theorem ends_of_supersedesQuote {x : QuoteArgs} {c : ℤ × Call Bar Quote}
    (h : SupersedesQuote x c.2) : (quoteOp c).Ends x.key := by
  obtain ⟨t, c⟩ := c
  cases c with
  | setQuote y quote => exact congrArg QuoteArgs.key h
  | invalidateSymbol symbol =>
    obtain rfl : symbol = x.symbol := h
    exact x.endsWith_key
  | invalidateProvider provider =>
    obtain rfl : provider = x.provider := h
    exact x.startsWith_key
  | getOhlcv y => exact h
  | setOhlcv y bars => exact h
  | getQuote y => exact h

end Own

/-! ## Where the entries are from -/

section Origin

theorem ohlcvOp_eq_put {c : ℤ × Call Bar Quote} {key : String} {entry : CacheEntry (List Bar)}
    (h : ohlcvOp c = .put key entry) : ∃ x bars, c.2 = .setOhlcv x bars ∧ x.key = key ∧
      entry = ⟨bars, (barsTtl x.timeframe bars).map (c.1 + ·)⟩ := by
  obtain ⟨t, c⟩ := c
  cases c with
  | setOhlcv x bars =>
    cases h
    exact ⟨x, bars, rfl, rfl, rfl⟩
  | getOhlcv | getQuote | setQuote | invalidateSymbol | invalidateProvider => cases h

theorem quoteOp_eq_put {c : ℤ × Call Bar Quote} {key : String} {entry : CacheEntry Quote}
    (h : quoteOp c = .put key entry) : ∃ x quote, c.2 = .setQuote x quote ∧ x.key = key ∧
      entry = ⟨quote, some (c.1 + QUOTE_TTL)⟩ := by
  obtain ⟨t, c⟩ := c
  cases c with
  | setQuote x quote =>
    cases h
    exact ⟨x, quote, rfl, rfl, rfl⟩
  | getOhlcv | setOhlcv | getQuote | invalidateSymbol | invalidateProvider => cases h

/-- **The bars that are held** were set, and since then nothing ended them. -/
theorem ohlcv_origin {key : String} {entry : CacheEntry (List Bar)}
    (h : (key, entry) ∈ (after calls).ohlcvCache) :
    ∃ before t x bars since, calls = before ++ (t, .setOhlcv x bars) :: since ∧ x.key = key ∧
      entry = ⟨bars, (barsTtl x.timeframe bars).map (t + ·)⟩ ∧
      ∀ c ∈ since, ¬ (ohlcvOp c).Ends key := by
  obtain ⟨before, since, hops, hsince⟩ := (ohlcv_run calls).origin h
  obtain ⟨before', rest, rfl, rfl, hrest⟩ := List.map_eq_append_iff.1 hops
  obtain ⟨c, since', rfl, hput, rfl⟩ := List.map_eq_cons_iff.1 hrest
  obtain ⟨x, bars, hc, hkey, hentry⟩ := ohlcvOp_eq_put hput
  refine ⟨before', c.1, x, bars, since', by rw [← hc], hkey, hentry, fun c' hc' => ?_⟩
  exact hsince _ (List.mem_map_of_mem hc')

theorem quote_origin {key : String} {entry : CacheEntry Quote}
    (h : (key, entry) ∈ (after calls).quoteCache) :
    ∃ before t x quote since, calls = before ++ (t, .setQuote x quote) :: since ∧ x.key = key ∧
      entry = ⟨quote, some (t + QUOTE_TTL)⟩ ∧ ∀ c ∈ since, ¬ (quoteOp c).Ends key := by
  obtain ⟨before, since, hops, hsince⟩ := (quote_run calls).origin h
  obtain ⟨before', rest, rfl, rfl, hrest⟩ := List.map_eq_append_iff.1 hops
  obtain ⟨c, since', rfl, hput, rfl⟩ := List.map_eq_cons_iff.1 hrest
  obtain ⟨x, quote, hc, hkey, hentry⟩ := quoteOp_eq_put hput
  refine ⟨before', c.1, x, quote, since', by rw [← hc], hkey, hentry, fun c' hc' => ?_⟩
  exact hsince _ (List.mem_map_of_mem hc')

end Origin

/-! ## Sound calls -/

section Sound

theorem barsTtl_ne_none {timeframe : String} {bars : List Bar}
    (h : bars = [] ∨ timeframe ∉ objectPrototypeNames) :
    ∃ ttl, barsTtl timeframe bars = some ttl := by
  rw [barsTtl, timeframeTtl]
  rcases h with rfl | h
  · exact ⟨_, rfl⟩
  · split_ifs
    · exact ⟨_, rfl⟩
    · cases hfound : lookup TTL_BY_TIMEFRAME timeframe with
      | some ttl => exact ⟨ttl, rfl⟩
      | none => exact ⟨DEFAULT_TTL, rfl⟩

theorem latestBars_of_read {x : OhlcvArgs} {bars : List Bar}
    (hset : ∀ before t y b since, calls = before ++ (t, .setOhlcv y b) :: since →
      b = [] ∨ y.timeframe ∉ objectPrototypeNames)
    (hkeys : ∀ y, SetBars calls y → y.key = x.key → y = x)
    (h : ((after calls).getOhlcv now x).1 = some bars) : LatestBars calls now x bars := by
  obtain ⟨entry, hmem, hdata, hexpired⟩ := mem_of_read h
  obtain ⟨before, t, y, b, since, hcalls, hkey, rfl, hsince⟩ := ohlcv_origin hmem
  obtain rfl : y = x := hkeys y ⟨t, b, by simp [hcalls]⟩ hkey
  obtain rfl : b = bars := hdata
  obtain ⟨ttl, httl⟩ := barsTtl_ne_none (hset before t y b since hcalls)
  refine ⟨before, t, since, hcalls, ⟨ttl, httl, ?_⟩,
    fun c hc hsupersedes => hsince c hc (ends_of_supersedesBars hsupersedes)⟩
  rw [httl] at hexpired
  have hle : ¬ t + ttl < now := of_decide_eq_false hexpired
  omega

theorem latestQuote_of_read {x : QuoteArgs} {quote : Quote}
    (hkeys : ∀ y, SetQuote calls y → y.key = x.key → y = x)
    (h : ((after calls).getQuote now x).1 = some quote) : LatestQuote calls now x quote := by
  obtain ⟨entry, hmem, hdata, hexpired⟩ := mem_of_read h
  obtain ⟨before, t, y, q, since, hcalls, hkey, rfl, hsince⟩ := quote_origin hmem
  obtain rfl : y = x := hkeys y ⟨t, q, by simp [hcalls]⟩ hkey
  obtain rfl : q = quote := hdata
  refine ⟨before, t, since, hcalls, ?_,
    fun c hc hsupersedes => hsince c hc (ends_of_supersedesQuote hsupersedes)⟩
  have hle : ¬ t + QUOTE_TTL < now := of_decide_eq_false hexpired
  omega

theorem length_store_quote_le {cache : CacheMap Quote} {key : String} {entry : CacheEntry Quote}
    (hcache : cache.length ≤ MAX_QUOTE_ENTRIES)
    (hroom : (unexpired now cache).length < MAX_QUOTE_ENTRIES ∨
      key ∈ (unexpired now cache).map Prod.fst) :
    (store MAX_QUOTE_ENTRIES now key entry cache).length ≤ MAX_QUOTE_ENTRIES := by
  have hunexpired : (unexpired now cache).length ≤ cache.length := List.length_filter_le _ _
  have hquotes : MAX_QUOTE_ENTRIES = 200 := rfl
  have hbars : MAX_OHLCV_ENTRIES = 500 := rfl
  have hevict : evictExpired now cache = unexpired now cache := if_neg (by omega)
  rw [store]
  split_ifs with hfull
  · rw [hevict]
    rcases hroom with hroom | hroom
    · exact length_put_le.trans hroom
    · rw [length_put_of_mem hroom]
      omega
  · exact length_put_le.trans (not_le.1 hfull)

theorem quote_room (h : (after calls).quoteCache.length ≤ MAX_QUOTE_ENTRIES) {c : Call Bar Quote}
    (hmeets : Meets calls now c) :
    ((after calls).call now c).quoteCache.length ≤ MAX_QUOTE_ENTRIES := by
  cases c with
  | getOhlcv x => exact h
  | setOhlcv x bars => exact h
  | getQuote x => exact (read_sublist now x.key _).length_le.trans h
  | setQuote x quote => exact length_store_quote_le h (hmeets.room x quote rfl)
  | invalidateSymbol symbol => exact (List.length_filter_le _ _).trans h
  | invalidateProvider provider => exact (List.length_filter_le _ _).trans h

theorem lookup_drop_of {α : Type} {p : String → Bool} {cache : CacheMap α} {key : String}
    (h : ¬ p key = true) : lookup (drop p cache) key = lookup cache key :=
  lookup_drop (by simpa using h)

/-- **In a run whose calls all meet their conditions, every call is sound.** -/
theorem sound_of_meets (calls : List (ℤ × Call Bar Quote))
    (h : ∀ before c, before ++ [c] <+: calls → Meets before c.1 c.2) :
    ∀ before c, before ++ [c] <+: calls → Sound before c.1 c.2 := by
  have hroom : ∀ before, before <+: calls →
      (after before).quoteCache.length ≤ MAX_QUOTE_ENTRIES := by
    intro before
    induction before using List.reverseRecOn with
    | nil => exact fun _ => Nat.zero_le _
    | append_singleton before c ih =>
      intro hpre
      rw [after_concat]
      exact quote_room (ih ((List.prefix_append _ _).trans hpre)) (h before c hpre)
  intro before c hpre
  have hmeets := h before c hpre
  have hset : ∀ b t y bars since, before = b ++ (t, .setOhlcv y bars) :: since →
      bars = [] ∨ y.timeframe ∉ objectPrototypeNames := by
    intro b t y bars since hbefore
    refine (h b (t, .setOhlcv y bars) ?_).timeframe y bars rfl
    refine List.IsPrefix.trans ⟨since ++ [c], ?_⟩ hpre
    rw [hbefore]
    simp
  constructor
  case ohlcv_room =>
    have hlength := ohlcv_length_le (before ++ [c])
    rw [after_concat] at hlength
    exact hlength
  case quote_room => exact quote_room (hroom before ((List.prefix_append _ _).trans hpre)) hmeets
  case bars =>
    intro x bars hc hread
    exact latestBars_of_read hset (hmeets.bars x hc) hread
  case quote =>
    intro x quote hc hread
    exact latestQuote_of_read (hmeets.quote x hc) hread
  case symbol =>
    intro symbol hc
    obtain ⟨hbars, hquotes⟩ := hmeets.symbol symbol hc
    rw [hc]
    exact ⟨fun x hx hne => lookup_drop_of (p := (includes · (":" ++ symbol ++ ":")))
        fun hin => hne (hbars x hx hin),
      fun x hx hne => lookup_drop_of (p := (endsWith · (":" ++ symbol)))
        fun hin => hne (hquotes x hx hin)⟩
  case provider =>
    intro provider hc
    obtain ⟨hbars, hquotes⟩ := hmeets.provider provider hc
    rw [hc]
    exact ⟨fun x hx hne => lookup_drop_of (p := (startsWith · (provider ++ ":")))
        fun hin => hne (hbars x hx hin),
      fun x hx hne => lookup_drop_of (p := (startsWith · (provider ++ ":")))
        fun hin => hne (hquotes x hx hin)⟩

end Sound

/-- The bars of a request, read a moment later. -/
theorem sound_of_meets_read : Sound [(0, Call.setOhlcv ⟨"yahoo", "BTC:USD", "1d", 200⟩ [()])] 1
    (.getOhlcv ⟨"yahoo", "BTC:USD", "1d", 200⟩ : Call Unit Unit) := by
  refine sound_of_meets [(0, .setOhlcv ⟨"yahoo", "BTC:USD", "1d", 200⟩ [()]),
    (1, .getOhlcv ⟨"yahoo", "BTC:USD", "1d", 200⟩)] (fun before c hpre => ?_)
    [(0, .setOhlcv ⟨"yahoo", "BTC:USD", "1d", 200⟩ [()])]
    (1, .getOhlcv ⟨"yahoo", "BTC:USD", "1d", 200⟩) (List.prefix_refl _)
  obtain ⟨rest, hcalls⟩ := hpre
  rcases before with - | ⟨d, - | ⟨d', before⟩⟩
  · obtain ⟨rfl, -⟩ := List.cons.inj hcalls
    refine ⟨fun x bars h => ?_, nofun, nofun, nofun, nofun, nofun⟩
    cases h
    exact Or.inr (by decide)
  · simp only [List.cons_append, List.nil_append, List.cons.injEq] at hcalls
    obtain ⟨rfl, rfl, -⟩ := hcalls
    refine ⟨nofun, fun x h y hset hkey => ?_, nofun, nofun, nofun, nofun⟩
    cases h
    obtain ⟨t, bars, hmem⟩ := hset
    simp at hmem
    exact hmem.2.1
  · simp at hcalls

/-- Two requests of one text: the bars of `c` from `a:b` are served as those of `b:c` from `a`. -/
theorem joined_keys : ¬ ∀ (calls : List (ℤ × Call Unit Unit)) (now : ℤ) (c : Call Unit Unit),
    Sound calls now c := by
  intro h
  have hread : ((after [(0, Call.setOhlcv ⟨"a:b", "c", "1d", 1⟩ [()])] :
      OhlcvCacheService Unit Unit).getOhlcv 1 ⟨"a", "b:c", "1d", 1⟩).1 = some [()] := by
    decide
  obtain ⟨before, t, since, hcalls, -⟩ :=
    (h _ 1 (.getOhlcv ⟨"a", "b:c", "1d", 1⟩)).bars _ _ rfl hread
  have hmem : (t, Call.setOhlcv ⟨"a", "b:c", "1d", 1⟩ [()]) ∈
      [((0 : ℤ), (Call.setOhlcv ⟨"a:b", "c", "1d", 1⟩ [()] : Call Unit Unit))] := by
    rw [hcalls]
    simp
  simp at hmem

end NeoTrader.MarketCache

import Mathlib.Data.List.Infix
import NeoTrader.Common.Expiring

/-!
# The cache of market data

`OhlcvCacheService` keeps bars and quotes in two maps, under a text that joins what they were asked
for. An entry that is read after its time is deleted; a map that is full is rid of what has expired
and, if it is still nearly full, of its oldest entries.

* **`ohlcv_length_le`**: the bars are never more than their bound.
-/

namespace NeoTrader.MarketCache

open Expiring

/-! ## Entries -/

/-- Data with the time up to which it is served; `none` is no number, which no time is after. -/
structure CacheEntry (α : Type) where
  data : α
  expiresAt : Option ℤ

/-- `Date.now() > entry.expiresAt`. -/
def CacheEntry.expired {α : Type} (entry : CacheEntry α) (now : ℤ) : Bool :=
  match entry.expiresAt with
  | some t => t < now
  | none => false

/-- A map in the order of its insertions. -/
abbrev CacheMap (α : Type) : Type := List (String × CacheEntry α)

def MAX_OHLCV_ENTRIES : ℕ := 500
def MAX_QUOTE_ENTRIES : ℕ := 200
def QUOTE_TTL : ℤ := 30000
def DEFAULT_TTL : ℤ := 5 * 60000
def EMPTY_OHLCV_TTL : ℤ := 60000

/-- `TTL_BY_TIMEFRAME`. -/
def TTL_BY_TIMEFRAME : List (String × ℤ) :=
  [("1m", 60000), ("5m", 3 * 60000), ("15m", 7 * 60000), ("30m", 12 * 60000), ("1h", 15 * 60000),
    ("4h", 60 * 60000), ("1d", 4 * 3600000), ("1w", 8 * 3600000), ("1mo", 12 * 3600000)]

/-- What every object literal inherits, none of it a number. -/
def objectPrototypeNames : List String :=
  ["constructor", "__defineGetter__", "__defineSetter__", "hasOwnProperty", "__lookupGetter__",
    "__lookupSetter__", "isPrototypeOf", "propertyIsEnumerable", "toString", "valueOf",
    "__proto__", "toLocaleString"]

/-- `TTL_BY_TIMEFRAME[timeframe] ?? DEFAULT_TTL`, where it is a number. -/
def timeframeTtl (timeframe : String) : Option ℤ :=
  match lookup TTL_BY_TIMEFRAME timeframe with
  | some ttl => some ttl
  | none => if timeframe ∈ objectPrototypeNames then none else some DEFAULT_TTL

/-! ## Keys -/

/-- What bars are asked for. -/
structure OhlcvArgs where
  provider : String
  symbol : String
  timeframe : String
  limit : ℤ
  deriving DecidableEq

structure QuoteArgs where
  provider : String
  symbol : String
  deriving DecidableEq

def OhlcvArgs.key (x : OhlcvArgs) : String :=
  x.provider ++ ":" ++ x.symbol ++ ":" ++ x.timeframe ++ ":" ++ toString x.limit

def QuoteArgs.key (x : QuoteArgs) : String := x.provider ++ ":" ++ x.symbol

/-- `key.includes(part)`. -/
def includes (key part : String) : Bool := decide (part.toList <:+: key.toList)

/-- `key.startsWith(part)`. -/
def startsWith (key part : String) : Bool := decide (part.toList <+: key.toList)

/-- `key.endsWith(part)`. -/
def endsWith (key part : String) : Bool := decide (part.toList <:+ key.toList)

/-! ## The service -/

variable {Bar Quote : Type}

structure OhlcvCacheService (Bar Quote : Type) where
  ohlcvCache : CacheMap (List Bar) := []
  quoteCache : CacheMap Quote := []
  hits : ℕ := 0
  misses : ℕ := 0

/-- The oldest entries are deleted until as many are as half of those that are left. -/
def removeOldest {α : Type} (removed : ℕ) : CacheMap α → CacheMap α
  | [] => []
  | _ :: rest => if rest.length / 2 ≤ removed + 1 then rest else removeOldest (removed + 1) rest

/-- The entries that are served at a time. -/
def unexpired {α : Type} (now : ℤ) (cache : CacheMap α) : CacheMap α :=
  cache.filter fun x => !x.2.expired now

def evictExpired {α : Type} (now : ℤ) (cache : CacheMap α) : CacheMap α :=
  if MAX_OHLCV_ENTRIES * 9 ≤ (unexpired now cache).length * 10 then
    removeOldest 0 (unexpired now cache)
  else unexpired now cache

/-- What a map has under a key, and the map without an entry that has expired. -/
def read {α : Type} (now : ℤ) (key : String) (cache : CacheMap α) : Option α × CacheMap α :=
  match lookup cache key with
  | some entry =>
    if entry.expired now then (none, drop (· = key) cache) else (some entry.data, cache)
  | none => (none, drop (· = key) cache)

/-- An entry is put into a map, which is rid of others if it has `max` of them. -/
def store {α : Type} (max : ℕ) (now : ℤ) (key : String) (entry : CacheEntry α)
    (cache : CacheMap α) : CacheMap α :=
  put key entry (if max ≤ cache.length then evictExpired now cache else cache)

namespace OhlcvCacheService

variable (s : OhlcvCacheService Bar Quote) (now : ℤ)

def getOhlcv (x : OhlcvArgs) : Option (List Bar) × OhlcvCacheService Bar Quote :=
  let (bars, cache) := read now x.key s.ohlcvCache
  (bars, { s with
    ohlcvCache := cache
    hits := if bars.isSome then s.hits + 1 else s.hits
    misses := if bars.isSome then s.misses else s.misses + 1 })

/-- The time up to which bars are served. -/
def ohlcvExpiry (timeframe : String) (bars : List Bar) : Option ℤ :=
  (if bars.isEmpty then some EMPTY_OHLCV_TTL else timeframeTtl timeframe).map (now + ·)

def setOhlcv (x : OhlcvArgs) (bars : List Bar) : OhlcvCacheService Bar Quote :=
  let entry := ⟨bars, ohlcvExpiry now x.timeframe bars⟩
  { s with ohlcvCache := store MAX_OHLCV_ENTRIES now x.key entry s.ohlcvCache }

def getQuote (x : QuoteArgs) : Option Quote × OhlcvCacheService Bar Quote :=
  let (quote, cache) := read now x.key s.quoteCache
  (quote, { s with quoteCache := cache })

def setQuote (x : QuoteArgs) (quote : Quote) : OhlcvCacheService Bar Quote :=
  let entry := ⟨quote, some (now + QUOTE_TTL)⟩
  { s with quoteCache := store MAX_QUOTE_ENTRIES now x.key entry s.quoteCache }

def invalidateSymbol (symbol : String) : OhlcvCacheService Bar Quote :=
  { s with
    ohlcvCache := drop (includes · (":" ++ symbol ++ ":")) s.ohlcvCache
    quoteCache := drop (endsWith · (":" ++ symbol)) s.quoteCache }

def invalidateProvider (provider : String) : OhlcvCacheService Bar Quote :=
  { s with
    ohlcvCache := drop (startsWith · (provider ++ ":")) s.ohlcvCache
    quoteCache := drop (startsWith · (provider ++ ":")) s.quoteCache }

end OhlcvCacheService

/-! ## Calls -/

inductive Call (Bar Quote : Type)
  | getOhlcv (x : OhlcvArgs)
  | setOhlcv (x : OhlcvArgs) (bars : List Bar)
  | getQuote (x : QuoteArgs)
  | setQuote (x : QuoteArgs) (quote : Quote)
  | invalidateSymbol (symbol : String)
  | invalidateProvider (provider : String)

/-- **The service after a call** at a time. -/
def OhlcvCacheService.call (s : OhlcvCacheService Bar Quote) (now : ℤ) :
    Call Bar Quote → OhlcvCacheService Bar Quote
  | .getOhlcv x => (s.getOhlcv now x).2
  | .setOhlcv x bars => s.setOhlcv now x bars
  | .getQuote x => (s.getQuote now x).2
  | .setQuote x quote => s.setQuote now x quote
  | .invalidateSymbol symbol => s.invalidateSymbol symbol
  | .invalidateProvider provider => s.invalidateProvider provider

/-- The service after some calls, each with its time. -/
def after (calls : List (ℤ × Call Bar Quote)) : OhlcvCacheService Bar Quote :=
  calls.foldl (fun s c => s.call c.1 c.2) {}

@[simp] theorem after_concat (calls : List (ℤ × Call Bar Quote)) (c : ℤ × Call Bar Quote) :
    after (calls ++ [c]) = (after calls).call c.1 c.2 := by
  simp [after]

/-! ## Room -/

section Room

variable {α : Type} {now : ℤ} {key : String} {entry : CacheEntry α} {cache : CacheMap α}

theorem removeOldest_sublist (removed : ℕ) (cache : CacheMap α) :
    (removeOldest removed cache).Sublist cache := by
  induction cache generalizing removed with
  | nil => exact List.Sublist.refl []
  | cons x rest ih =>
    rw [removeOldest]
    split_ifs
    · exact List.sublist_cons_self x rest
    · exact (ih (removed + 1)).cons x

theorem length_removeOldest_le (removed : ℕ) (cache : CacheMap α) :
    (removeOldest removed cache).length ≤ cache.length - 1 := by
  cases cache with
  | nil => exact Nat.le_refl 0
  | cons x rest =>
    rw [removeOldest]
    split_ifs
    · simp
    · simpa using (removeOldest_sublist (removed + 1) rest).length_le

theorem evictExpired_sublist (now : ℤ) (cache : CacheMap α) :
    (evictExpired now cache).Sublist cache := by
  rw [evictExpired]
  split_ifs
  · exact (removeOldest_sublist 0 _).trans List.filter_sublist
  · exact List.filter_sublist

theorem length_evictExpired_lt (h : cache.length ≤ MAX_OHLCV_ENTRIES) :
    (evictExpired now cache).length < MAX_OHLCV_ENTRIES := by
  have hunexpired : (unexpired now cache).length ≤ cache.length := List.length_filter_le _ _
  have hmax : MAX_OHLCV_ENTRIES = 500 := rfl
  rw [evictExpired]
  split_ifs with hfull
  · have hremoved := length_removeOldest_le 0 (unexpired now cache)
    omega
  · omega

theorem read_sublist (now : ℤ) (key : String) (cache : CacheMap α) :
    (read now key cache).2.Sublist cache := by
  rw [read]
  split
  · split_ifs
    · exact List.filter_sublist
    · exact List.Sublist.refl cache
  · exact List.filter_sublist

theorem length_store_le (max : ℕ) (now : ℤ) (key : String) (entry : CacheEntry α)
    (cache : CacheMap α) : (store max now key entry cache).length ≤
      (if max ≤ cache.length then evictExpired now cache else cache).length + 1 := length_put_le

/-- **The bars are never more than their bound.** -/
theorem ohlcv_length_le (calls : List (ℤ × Call Bar Quote)) :
    (after calls).ohlcvCache.length ≤ MAX_OHLCV_ENTRIES := by
  induction calls using List.reverseRecOn with
  | nil => exact Nat.zero_le _
  | append_singleton calls c ih =>
    rw [after_concat]
    obtain ⟨now, c⟩ := c
    cases c with
    | getOhlcv x => exact (read_sublist now x.key (after calls).ohlcvCache).length_le.trans ih
    | setOhlcv x bars =>
      refine (length_store_le _ _ _ _ _).trans ?_
      split_ifs with hfull
      · exact length_evictExpired_lt ih
      · exact not_le.1 hfull
    | getQuote x => exact ih
    | setQuote x quote => exact ih
    | invalidateSymbol symbol => exact (List.length_filter_le _ _).trans ih
    | invalidateProvider provider => exact (List.length_filter_le _ _).trans ih

end Room

end NeoTrader.MarketCache

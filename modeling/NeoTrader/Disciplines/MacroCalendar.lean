import NeoTrader.Py.Dates
import NeoTrader.Py.Batch

/-!
# The windows of the macro calendar

The calendar has events of its own, some of them in a list and one on the first Friday of each
month, and others that are injected. An event has a window, some hours before and after it.

* `Due`, `Exact`: the windows are those of the events that are due; `Foreseen`: the calendar has them
  and can read them;
* **`exact_iff_foreseen`**: that is when the windows are exact.
-/

namespace NeoTrader.MacroCalendar

open Gregorian Js Py

/-! ## Events -/

structure MacroEvent where
  name : Json
  eventDate : Date
  eventTimeUtc : Json
  category : Json
  impact : Json
  affected : Json

/-- The configuration. What it does not have is `none`. -/
structure Config where
  blackoutHoursBefore : Option ℚ := none
  blackoutHoursAfter : Option ℚ := none
  affectedAssets : Option String := none
  fedEvents : Option Bool := none
  cpiEvents : Option Bool := none
  ecbEvents : Option Bool := none
  nfpEvents : Option Bool := none

/-- `d = date(year, month, day)`, then the day after as long as it is no Friday. -/
def fridayFrom (year month : ℤ) : ℕ → ℤ → Option Date
  | 0, _ => none
  | n + 1, day =>
    (date year month day).bind fun d =>
      if d.weekday ≠ 4 then fridayFrom year month n (day + 1) else some d

/-- The first Friday of a month, which is among the first seven days. -/
def firstFriday (year month : ℤ) : Option Date := fridayFrom year month 7 1

def getNfpDates (year : ℤ) : Except String (List Date) :=
  (List.range' 1 12).mapM fun month : ℕ =>
    match firstFriday year month with
    | some d => .ok d
    | none => .error "ValueError: year is out of range"

structure FixedRow where
  name : String
  date : String
  timeUtc : String
  category : String
  impact : String
  affected : String

def fomc (date timeUtc : String) : FixedRow := ⟨"FOMC Meeting", date, timeUtc, "fed", "high", "all"⟩

def usCpi (date timeUtc : String) : FixedRow := ⟨"US CPI", date, timeUtc, "cpi", "high", "all"⟩

def ecbDecision (date timeUtc : String) : FixedRow :=
  ⟨"ECB Rate Decision", date, timeUtc, "ecb", "high", "forex"⟩

def fixedEvents2026 : List FixedRow :=
  [fomc "2026-01-28" "19:00", fomc "2026-03-18" "18:00", fomc "2026-05-06" "18:00",
   fomc "2026-06-17" "18:00", fomc "2026-07-29" "18:00", fomc "2026-09-16" "18:00",
   fomc "2026-11-04" "19:00", fomc "2026-12-16" "19:00",
   usCpi "2026-01-15" "13:30", usCpi "2026-02-12" "13:30", usCpi "2026-03-12" "13:30",
   usCpi "2026-04-10" "12:30", usCpi "2026-05-13" "12:30", usCpi "2026-06-10" "12:30",
   usCpi "2026-07-14" "12:30", usCpi "2026-08-13" "12:30", usCpi "2026-09-11" "12:30",
   usCpi "2026-10-14" "12:30", usCpi "2026-11-12" "13:30", usCpi "2026-12-10" "13:30",
   ecbDecision "2026-01-30" "13:15", ecbDecision "2026-03-05" "13:15",
   ecbDecision "2026-04-16" "12:15", ecbDecision "2026-06-04" "12:15",
   ecbDecision "2026-07-23" "12:15", ecbDecision "2026-09-10" "12:15",
   ecbDecision "2026-10-29" "13:15", ecbDecision "2026-12-17" "13:15"]

/-- The event of a row, if it is enabled and in the year. -/
def rowEvent (year : ℤ) (cfg : Config) (row : FixedRow) : Except String (Option MacroEvent) :=
  if row.category = "fed" ∧ cfg.fedEvents.getD true = false then .ok none
  else if row.category = "cpi" ∧ cfg.cpiEvents.getD true = false then .ok none
  else if row.category = "ecb" ∧ cfg.ecbEvents.getD true = false then .ok none
  else
    match fromisoformat row.date with
    | none => .error "ValueError: Invalid isoformat string"
    | some d =>
      if d.year ≠ year then .ok none
      else .ok (some ⟨.str row.name, d, .str row.timeUtc, .str row.category, .str row.impact,
        .str row.affected⟩)

def nfpEvent (d : Date) : MacroEvent :=
  ⟨.str "Non-Farm Payrolls", d, .str "12:30", .str "nfp", .str "high", .str "all"⟩

def buildEventCalendar (year : ℤ) (cfg : Config) : Except String (List MacroEvent) := do
  let events ← collect (rowEvent year cfg) fixedEvents2026
  if cfg.nfpEvents.getD true then
    let dates ← getNfpDates year
    return events ++ dates.map nfpEvent
  else return events

/-- An event that is injected. One without a name or a date is suppressed. -/
def injectedEvent (ev : Json) : Option MacroEvent :=
  match ev with
  | .obj fields =>
    match Obj.get fields "name", Obj.get fields "date" with
    | some name, some (.str s) => (fromisoformat s).map fun d =>
      ⟨name, d, getD fields "time_utc" (.str "12:00"), getD fields "category" (.str "other"),
        getD fields "impact" (.str "high"), getD fields "affected" (.str "all")⟩
    | _, _ => none
  | _ => none

/-! ## Windows -/

structure BlackoutWindow where
  event : MacroEvent
  windowStart : ℤ
  windowEnd : ℤ
  isBlackout : Bool
  reason : String

/-- `v == s`. -/
def isText (v : Json) (s : String) : Bool :=
  match v with
  | .str t => t = s
  | _ => false

/-- The asset filter lets an event pass. -/
def covered (cfg : Config) (event : MacroEvent) : Bool :=
  let filter := cfg.affectedAssets.getD "all"
  filter = "all" || isText event.affected "all" || isText event.affected filter

variable (u : Unicode) (text : Json → String)

/-- The hour and the minute of a time, in microseconds. -/
def timeOfDay (s : String) : Except String ℤ :=
  match s.toList.splitOn ':' with
  | [h, m] =>
    match int u h, int u m with
    | some h, some m =>
      if (0 ≤ h ∧ h ≤ 23) ∧ 0 ≤ m ∧ m ≤ 59 then .ok (h * hourMicros + m * 60000000)
      else .error "ValueError: hour must be in 0..23 and minute in 0..59"
    | _, _ => .error "ValueError: invalid literal for int() with base 10"
  | _ => .error "ValueError: not two values to unpack"

def eventTime (event : MacroEvent) : Except String ℤ :=
  match event.eventTimeUtc with
  | .str s => do return instantOf event.eventDate (← timeOfDay u s)
  | _ => .error "AttributeError: object has no attribute 'split'"

/-- The bounds of the window at a time, and of the blackout. -/
structure Bounds where
  winStart : ℤ
  winEnd : ℤ
  blackoutStart : ℤ
  blackoutEnd : ℤ

def boundsOf (cfg : Config) (t : ℤ) : Except String Bounds := do
  let before ← timedelta (cfg.blackoutHoursBefore.getD 4)
  let winStart ← shift t (-before)
  let after ← timedelta (cfg.blackoutHoursAfter.getD 2)
  let winEnd ← shift t after
  let blackoutStart ← shift t (-hourMicros)
  let blackoutEnd ← shift t hourMicros
  return ⟨winStart, winEnd, blackoutStart, blackoutEnd⟩

/-- Why a window is open. -/
def reasonOf (event : MacroEvent) (isBlackout : Bool) : String :=
  text event.name ++ " el " ++ isoformat event.eventDate ++ " " ++ text event.eventTimeUtc ++
    " UTC (" ++ (if isBlackout then "blackout total" else "zona de precaución") ++ ")"

/-- The window of an event that passes the filter, if it is open. -/
def windowOf (now : ℤ) (cfg : Config) (event : MacroEvent) :
    Except String (Option BlackoutWindow) := do
  if covered cfg event then
    let t ← eventTime u event
    let b ← boundsOf cfg t
    if b.winStart ≤ now ∧ now ≤ b.winEnd then
      let isBlackout : Bool := b.blackoutStart ≤ now ∧ now ≤ b.blackoutEnd
      return some ⟨event, b.winStart, b.winEnd, isBlackout, reasonOf text event isBlackout⟩
    else return none
  else return none

/-- The events of the year, and in December of the next one. -/
def builtInEvents (now : DateTime) (cfg : Config) : Except String (List MacroEvent) := do
  let events ← buildEventCalendar now.date.year cfg
  if now.date.month = 12 then
    return events ++ (← buildEventCalendar (now.date.year + 1) cfg)
  else return events

/-- **The windows that are open.** -/
def getActiveBlackouts (now : DateTime) (cfg : Config) (extraEvents : List Json) :
    Except String (List BlackoutWindow) := do
  let events ← builtInEvents now cfg
  collect (windowOf u text now.instant cfg) (events ++ extraEvents.filterMap injectedEvent)

/-! ## The first Friday -/

theorem date_eq_some {year month : ℤ} (day : ℤ) (hyear : 1 ≤ year ∧ year ≤ 9999)
    (hmonth : 1 ≤ month ∧ month ≤ 12) (hday : 1 ≤ day ∧ day ≤ 28) :
    ∃ d, date year month day = some d ∧ d.year = year ∧ d.month = month.toNat ∧
      d.day = day.toNat := by
  have hlong : 28 ≤ daysInMonth (isLeap year) month.toNat := by
    rw [daysInMonth]
    split_ifs <;> omega
  rw [date, if_pos hyear, Date.of?, dif_pos (by omega)]
  exact ⟨_, rfl, rfl, rfl, rfl⟩

theorem weekday_of_day {d d' : Date} (hyear : d.year = d'.year) (hmonth : d.month = d'.month) :
    d'.weekday = (d.weekday + d'.day - d.day) % 7 := by
  rw [Date.weekday, Date.weekday, Date.ordinal, Date.ordinal, Date.yearDay, Date.yearDay, hyear,
    hmonth]
  omega

theorem fridayFrom_spec {year month : ℤ} (hyear : 1 ≤ year ∧ year ≤ 9999)
    (hmonth : 1 ≤ month ∧ month ≤ 12) (n : ℕ) (day : ℤ) (hpos : 1 ≤ day) (hle : day + n ≤ 28)
    (hnear : ∀ d, date year month day = some d → (4 - d.weekday) % 7 < n) :
    ∃ d, fridayFrom year month n day = some d ∧ d.year = year ∧ d.month = month.toNat ∧
      d.weekday = 4 ∧ d.day < day + n := by
  obtain ⟨d, hd, hy, hm, hday⟩ := date_eq_some day hyear hmonth ⟨hpos, by omega⟩
  have hlt := hnear d hd
  induction n generalizing day d with
  | zero => omega
  | succ n ih =>
    rw [fridayFrom, hd, Option.bind_some]
    by_cases hfriday : d.weekday = 4
    · rw [if_neg (not_not.2 hfriday)]
      exact ⟨d, rfl, hy, hm, hfriday, by omega⟩
    · rw [if_pos hfriday]
      obtain ⟨d', hd', hy', hm', hday'⟩ := date_eq_some (day + 1) hyear hmonth
        ⟨by omega, by omega⟩
      have hnext : d'.weekday = (d.weekday + d'.day - d.day) % 7 :=
        weekday_of_day (hy.trans hy'.symm) (hm.trans hm'.symm)
      have hrange : 0 ≤ d.weekday ∧ d.weekday < 7 := by
        rw [Date.weekday]
        omega
      have hlt' : (4 - d'.weekday) % 7 < n := by omega
      obtain ⟨f, hf, hfy, hfm, hfw, hfd⟩ := ih (day + 1) (by omega) (by omega)
        (fun e he => by rw [hd'] at he; cases he; exact hlt') d' hd' hy' hm' hday' hlt'
      exact ⟨f, hf, hfy, hfm, hfw, by omega⟩

/-- **The loop finds the first Friday.** -/
theorem firstFriday_spec {year : ℤ} (month : ℤ) (hyear : 1 ≤ year ∧ year ≤ 9999)
    (hmonth : 1 ≤ month ∧ month ≤ 12) :
    ∃ d, firstFriday year month = some d ∧ d.year = year ∧ d.month = month.toNat ∧
      d.weekday = 4 ∧ d.day ≤ 7 := by
  obtain ⟨d, hd, hy, hm, hw, hlt⟩ := fridayFrom_spec hyear hmonth 7 1 le_rfl (by omega)
    fun d _ => by omega
  exact ⟨d, hd, hy, hm, hw, by omega⟩

theorem firstFriday_eq {d : Date} (hyear : 1 ≤ d.year ∧ d.year ≤ 9999) (hweekday : d.weekday = 4)
    (hday : d.day ≤ 7) : firstFriday d.year d.month = some d := by
  have hmonth := d.month_pos
  have hmonth' := d.month_le
  have hpos := d.day_pos
  obtain ⟨f, hf, hy, hm, hw, hle⟩ := firstFriday_spec d.month hyear (by omega)
  have hfpos := f.day_pos
  rw [Int.toNat_natCast] at hm
  have hdays := weekday_of_day hy hm
  have heq : f = d := by
    apply Date.ordinal_injective
    rw [Date.ordinal, Date.ordinal, Date.yearDay, Date.yearDay, hy, hm]
    omega
  rw [hf, heq]

theorem getNfpDates_ok {year : ℤ} (hyear : 1 ≤ year ∧ year ≤ 9999) :
    ∃ dates, getNfpDates year = .ok dates := by
  refine exists_mapM fun month hmonth => ?_
  obtain ⟨hlo, hhi⟩ := List.mem_range'_1.1 hmonth
  obtain ⟨d, hd, -⟩ := firstFriday_spec month hyear (by omega)
  exact ⟨d, by rw [hd]⟩

/-! ## The events of the years -/

variable {u text} {now : DateTime} {cfg : Config} {extraEvents : List Json} {event : MacroEvent}
  {year t : ℤ}

/-- The events of a year that has a calendar. -/
def calendarOf (cfg : Config) (year : ℤ) : List MacroEvent :=
  match buildEventCalendar year cfg with
  | .ok events => events
  | .error _ => []

/-- The years that a call has the events of. -/
def yearsOf (now : DateTime) : List ℤ :=
  if now.date.month = 12 then [now.date.year, now.date.year + 1] else [now.date.year]

theorem mem_yearsOf : year ∈ yearsOf now ↔
    year = now.date.year ∨ now.date.month = 12 ∧ year = now.date.year + 1 := by
  rw [yearsOf]
  split_ifs with h <;> simp [h]

theorem nodup_yearsOf (now : DateTime) : (yearsOf now).Nodup := by
  rw [yearsOf]
  split_ifs <;> simp

def allYears : List ℤ := (List.range' 1 9999).map Nat.cast

theorem mem_allYears : year ∈ allYears ↔ 1 ≤ year ∧ year ≤ 9999 := by
  simp only [allYears, List.mem_map, List.mem_range'_1]
  constructor
  · rintro ⟨n, hn, rfl⟩
    omega
  · intro h
    exact ⟨year.toNat, by omega, by omega⟩

theorem nodup_allYears : allYears.Nodup :=
  List.Nodup.map Nat.cast_injective List.nodup_range'

theorem fixed_read : ∀ row ∈ fixedEvents2026,
    ((fromisoformat row.date).map Date.year) = some 2026 := by decide

theorem exists_rowEvent (year : ℤ) (cfg : Config) {row : FixedRow}
    (h : row ∈ fixedEvents2026) :
    ∃ event?, rowEvent year cfg row = .ok event? ∧ (year ≠ 2026 → event? = none) := by
  obtain ⟨d, hd, hyear⟩ := Option.map_eq_some_iff.1 (fixed_read row h)
  rw [rowEvent, hd]
  split_ifs
  · exact ⟨none, rfl, fun _ => rfl⟩
  · exact ⟨none, rfl, fun _ => rfl⟩
  · exact ⟨none, rfl, fun _ => rfl⟩
  · show ∃ event?, (if d.year ≠ year then _ else _) = _ ∧ _
    by_cases hne : d.year = year
    · rw [if_neg (not_not.2 hne)]
      exact ⟨_, rfl, fun h => absurd (hne.symm.trans hyear) h⟩
    · rw [if_pos hne]
      exact ⟨none, rfl, fun _ => rfl⟩

theorem exists_fixed (year : ℤ) (cfg : Config) :
    ∃ events, collect (rowEvent year cfg) fixedEvents2026 = .ok events ∧
      (year ≠ 2026 → events = []) := by
  obtain ⟨events, hevents⟩ := exists_collect fun row hrow =>
    (exists_rowEvent year cfg hrow).imp fun _ h => h.1
  refine ⟨events, hevents, fun hyear => List.eq_nil_iff_forall_not_mem.2 fun event hmem => ?_⟩
  obtain ⟨row, hrow, hev⟩ := (mem_collect hevents).1 hmem
  obtain ⟨event?, hev?, hnone⟩ := exists_rowEvent year cfg hrow
  rw [hev?, hnone hyear] at hev
  cases hev

theorem calendar_ok (h : 1 ≤ year ∧ year ≤ 9999) :
    buildEventCalendar year cfg = .ok (calendarOf cfg year) := by
  obtain ⟨events, hevents, -⟩ := exists_fixed year cfg
  obtain ⟨dates, hdates⟩ := getNfpDates_ok h
  have hok : ∃ events, buildEventCalendar year cfg = .ok events := by
    rw [buildEventCalendar, hevents]
    show ∃ l, (if cfg.nfpEvents.getD true then _ else _) = _
    split_ifs
    · rw [hdates]
      exact ⟨_, rfl⟩
    · exact ⟨_, rfl⟩
  obtain ⟨l, hl⟩ := hok
  rw [calendarOf, hl]

theorem mem_calendarOf (h : 1 ≤ year ∧ year ≤ 9999) : event ∈ calendarOf cfg year ↔
    (∃ row ∈ fixedEvents2026, rowEvent year cfg row = .ok (some event)) ∨
      cfg.nfpEvents.getD true = true ∧ ∃ month : ℕ, (1 ≤ month ∧ month ≤ 12) ∧
        ∃ d, firstFriday year month = some d ∧ event = nfpEvent d := by
  obtain ⟨events, hevents, -⟩ := exists_fixed year cfg
  obtain ⟨dates, hdates⟩ := getNfpDates_ok h
  have hdate : ∀ d, d ∈ dates ↔ ∃ month : ℕ, (1 ≤ month ∧ month ≤ 12) ∧
      firstFriday year month = some d := by
    intro d
    rw [mem_mapM hdates]
    refine exists_congr fun month => and_congr ?_ ?_
    · rw [List.mem_range'_1]
      omega
    · cases firstFriday year month <;> simp
  rw [← mem_collect hevents]
  by_cases hon : cfg.nfpEvents.getD true = true
  · have hcal : buildEventCalendar year cfg = .ok (events ++ dates.map nfpEvent) := by
      rw [buildEventCalendar, hevents]
      show (if cfg.nfpEvents.getD true then _ else _) = _
      rw [if_pos hon, hdates]
      rfl
    rw [calendarOf, hcal, List.mem_append, List.mem_map]
    simp only [hdate, hon, true_and]
    exact or_congr_right ⟨fun ⟨d, ⟨m, hm, hd⟩, he⟩ => ⟨m, hm, d, hd, he.symm⟩,
      fun ⟨m, hm, d, hd, he⟩ => ⟨d, ⟨m, hm, hd⟩, he.symm⟩⟩
  · have hcal : buildEventCalendar year cfg = .ok events := by
      rw [buildEventCalendar, hevents]
      show (if cfg.nfpEvents.getD true then _ else _) = _
      rw [if_neg hon]
      rfl
    rw [calendarOf, hcal]
    simp [hon]

theorem calendar_after :
    (cfg.nfpEvents.getD true = false → buildEventCalendar 10000 cfg = .ok []) ∧
      (cfg.nfpEvents.getD true = true → ∃ e, buildEventCalendar 10000 cfg = .error e) := by
  obtain ⟨events, hevents, hnone⟩ := exists_fixed 10000 cfg
  have hempty := hnone (by decide)
  rw [buildEventCalendar, hevents, hempty]
  constructor
  · intro h
    show (if cfg.nfpEvents.getD true then _ else _) = _
    rw [h]
    rfl
  · intro h
    show ∃ e, (if cfg.nfpEvents.getD true then _ else _) = _
    rw [h]
    exact ⟨_, rfl⟩

theorem builtInEvents_ok (h : cfg.nfpEvents.getD true = true → now.date.month = 12 →
    now.date.year ≠ 9999) :
    builtInEvents now cfg = .ok ((yearsOf now).flatMap (calendarOf cfg)) := by
  have hyear := now.year_pos
  have hle := now.year_le
  rw [builtInEvents, calendar_ok ⟨hyear, hle⟩, yearsOf]
  show (if now.date.month = 12 then _ else _) = _
  by_cases hmonth : now.date.month = 12
  · rw [if_pos hmonth, if_pos hmonth]
    have hnext : buildEventCalendar (now.date.year + 1) cfg =
        .ok (calendarOf cfg (now.date.year + 1)) := by
      by_cases hlast : now.date.year = 9999
      · have hoff : cfg.nfpEvents.getD true = false :=
          Bool.eq_false_iff.2 fun hon => h hon hmonth hlast
        have hbuilt := calendar_after.1 hoff
        rw [hlast]
        show buildEventCalendar 10000 cfg = .ok (calendarOf cfg 10000)
        rw [calendarOf, hbuilt]
      · exact calendar_ok ⟨by omega, by omega⟩
    rw [hnext]
    simp only [List.flatMap_cons, List.flatMap_nil, List.append_nil]
    rfl
  · rw [if_neg hmonth, if_neg hmonth]
    simp only [List.flatMap_cons, List.flatMap_nil, List.append_nil]
    rfl

theorem of_builtInEvents {events : List MacroEvent} (h : builtInEvents now cfg = .ok events)
    (hon : cfg.nfpEvents.getD true = true) (hmonth : now.date.month = 12) :
    now.date.year ≠ 9999 := by
  intro hlast
  obtain ⟨e, he⟩ := calendar_after.2 hon
  have hnext : buildEventCalendar (now.date.year + 1) cfg = .error e := by
    rw [hlast]
    exact he
  obtain ⟨own, -, h⟩ := bind_eq_ok.1 h
  rw [if_pos hmonth, hnext] at h
  cases h

/-- **The events of all years** are the rows that are enabled and the first Fridays. -/
theorem mem_calendars : event ∈ allYears.flatMap (calendarOf cfg) ↔
    (∃ row ∈ fixedEvents2026, rowEvent 2026 cfg row = .ok (some event)) ∨
      cfg.nfpEvents.getD true = true ∧ ∃ d : Date, (1 ≤ d.year ∧ d.year ≤ 9999) ∧
        d.weekday = 4 ∧ d.day ≤ 7 ∧ event = nfpEvent d := by
  rw [List.mem_flatMap]
  constructor
  · rintro ⟨year, hyear, hevent⟩
    rw [mem_allYears] at hyear
    rcases (mem_calendarOf hyear).1 hevent with ⟨row, hrow, hok⟩ | ⟨hon, month, hmonth, d, hd, rfl⟩
    · refine Or.inl ⟨row, hrow, ?_⟩
      obtain ⟨event?, hev, hnone⟩ := exists_rowEvent year cfg hrow
      rw [hok] at hev
      cases hev
      by_cases heq : year = 2026
      · rw [← heq, hok]
      · cases hnone heq
    · obtain ⟨f, hf, hy, -, hw, hle⟩ := firstFriday_spec month hyear (by omega)
      rw [hd] at hf
      cases hf
      exact Or.inr ⟨hon, d, hy ▸ hyear, hw, hle, rfl⟩
  · rintro (⟨row, hrow, hok⟩ | ⟨hon, d, hyear, hw, hle, rfl⟩)
    · have hyear : 1 ≤ (2026 : ℤ) ∧ (2026 : ℤ) ≤ 9999 := by decide
      exact ⟨2026, mem_allYears.2 hyear, (mem_calendarOf hyear).2 (Or.inl ⟨row, hrow, hok⟩)⟩
    · have hmonth : 1 ≤ d.month ∧ d.month ≤ 12 := ⟨d.month_pos, d.month_le⟩
      exact ⟨d.year, mem_allYears.2 hyear, (mem_calendarOf hyear).2
        (Or.inr ⟨hon, d.month, hmonth, d, firstFriday_eq hyear hw hle, rfl⟩)⟩

/-! ## The windows that are due -/

variable (u) in
/-- The time is in the window of the event. -/
def Due (now : DateTime) (cfg : Config) (event : MacroEvent) : Prop :=
  ∃ t, eventTime u event = .ok t ∧ t - hours (cfg.blackoutHoursBefore.getD 4) ≤ now.instant ∧
    now.instant ≤ t + hours (cfg.blackoutHoursAfter.getD 2)

instance : Decidable (Due u now cfg event) :=
  match h : eventTime u event with
  | .ok t =>
    decidable_of_iff (t - hours (cfg.blackoutHoursBefore.getD 4) ≤ now.instant ∧
      now.instant ≤ t + hours (cfg.blackoutHoursAfter.getD 2))
      ⟨fun hdue => ⟨t, h, hdue⟩, fun ⟨_, ht, hdue⟩ => by
        rw [h] at ht
        cases ht
        exact hdue⟩
  | .error _ => isFalse fun ⟨_, ht, _⟩ => by
      rw [h] at ht
      cases ht

/-- A duration is not too long. -/
def Short (h : ℚ) : Prop :=
  -999999999 ≤ hours h / dayMicros ∧ hours h / dayMicros ≤ 999999999

/-- A time that is moved by a duration is in the calendar. -/
def InCalendar (t δ : ℤ) : Prop :=
  1 ≤ (t + δ) / dayMicros ∧ (t + δ) / dayMicros ≤ daysBeforeYear 10000

/-- The window at a time and its blackout are in the calendar. -/
structure Fits (cfg : Config) (t : ℤ) : Prop where
  before_short : Short (cfg.blackoutHoursBefore.getD 4)
  start_in : InCalendar t (-hours (cfg.blackoutHoursBefore.getD 4))
  after_short : Short (cfg.blackoutHoursAfter.getD 2)
  end_in : InCalendar t (hours (cfg.blackoutHoursAfter.getD 2))
  hour_before_in : InCalendar t (-hourMicros)
  hour_after_in : InCalendar t hourMicros

theorem timedelta_ok {h : ℚ} {δ : ℤ} : timedelta h = .ok δ ↔ Short h ∧ δ = hours h := by
  rw [timedelta]
  split_ifs with hshort
  · exact ⟨fun heq => ⟨hshort, (Except.ok.inj heq).symm⟩, fun heq => congrArg _ heq.2.symm⟩
  · exact ⟨(fun heq => by cases heq), fun heq => absurd heq.1 hshort⟩

theorem shift_ok {δ t' : ℤ} : shift t δ = .ok t' ↔ InCalendar t δ ∧ t' = t + δ := by
  rw [shift]
  split_ifs with hin
  · exact ⟨fun heq => ⟨hin, (Except.ok.inj heq).symm⟩, fun heq => congrArg _ heq.2.symm⟩
  · exact ⟨(fun heq => by cases heq), fun heq => absurd heq.1 hin⟩

theorem boundsOf_ok {b : Bounds} : boundsOf cfg t = .ok b ↔
    Fits cfg t ∧ b = ⟨t + -hours (cfg.blackoutHoursBefore.getD 4),
      t + hours (cfg.blackoutHoursAfter.getD 2), t + -hourMicros, t + hourMicros⟩ := by
  simp only [boundsOf, bind_eq_ok, timedelta_ok, shift_ok]
  constructor
  · rintro ⟨_, ⟨h₁, rfl⟩, _, ⟨h₂, rfl⟩, _, ⟨h₃, rfl⟩, _, ⟨h₄, rfl⟩, _, ⟨h₅, rfl⟩, _, ⟨h₆, rfl⟩, h⟩
    exact ⟨⟨h₁, h₂, h₃, h₄, h₅, h₆⟩, (Except.ok.inj h).symm⟩
  · rintro ⟨⟨h₁, h₂, h₃, h₄, h₅, h₆⟩, rfl⟩
    exact ⟨_, ⟨h₁, rfl⟩, _, ⟨h₂, rfl⟩, _, ⟨h₃, rfl⟩, _, ⟨h₄, rfl⟩, _, ⟨h₅, rfl⟩, _, ⟨h₆, rfl⟩, rfl⟩

variable (u) in
/-- The window of an event can be told: the event has a time, and the window is in the calendar. -/
def Told (cfg : Config) (event : MacroEvent) : Prop :=
  ∃ t, eventTime u event = .ok t ∧ Fits cfg t

variable (text now) in
/-- **The window of an event** is there when the event is due. -/
theorem windowOf_told (h : Told u cfg event) : ∃ w?,
    windowOf u text now.instant cfg event = .ok w? ∧
      w?.toList.map BlackoutWindow.event =
        [event].filter fun event => covered cfg event ∧ Due u now cfg event := by
  obtain ⟨t, ht, hfits⟩ := h
  have hdue : Due u now cfg event ↔
      t + -hours (cfg.blackoutHoursBefore.getD 4) ≤ now.instant ∧
        now.instant ≤ t + hours (cfg.blackoutHoursAfter.getD 2) := by
    rw [Due, ← sub_eq_add_neg]
    exact ⟨fun ⟨t', ht', h⟩ => by rw [ht] at ht'; cases ht'; exact h, fun h => ⟨t, ht, h⟩⟩
  have hbounds := boundsOf_ok.2 ⟨hfits, rfl⟩
  by_cases hcovered : covered cfg event = true
  · by_cases hopen : Due u now cfg event
    · apply Exists.intro
      constructor
      · rw [windowOf, if_pos hcovered]
        exact bind_eq_ok.2 ⟨t, ht, bind_eq_ok.2 ⟨_, hbounds, if_pos (hdue.1 hopen)⟩⟩
      · simp [hcovered, hopen]
    · refine ⟨none, ?_, by simp [hopen]⟩
      rw [windowOf, if_pos hcovered]
      exact bind_eq_ok.2 ⟨t, ht, bind_eq_ok.2 ⟨_, hbounds, if_neg (mt hdue.2 hopen)⟩⟩
  · refine ⟨none, ?_, by simp [hcovered]⟩
    rw [windowOf, if_neg hcovered]
    rfl

variable (text) in
theorem windowOf_answers : (∃ w?, windowOf u text now.instant cfg event = .ok w?) ↔
    (covered cfg event = true → Told u cfg event) := by
  constructor
  · rintro ⟨w?, h⟩ hcovered
    rw [windowOf, if_pos hcovered] at h
    obtain ⟨t, ht, h⟩ := bind_eq_ok.1 h
    obtain ⟨b, hb, -⟩ := bind_eq_ok.1 h
    exact ⟨t, ht, (boundsOf_ok.1 hb).1⟩
  · intro h
    by_cases hcovered : covered cfg event = true
    · exact (windowOf_told _ _ (h hcovered)).imp fun _ hw => hw.1
    · exact ⟨none, by rw [windowOf, if_neg hcovered]; rfl⟩

/-- **What is open** are the events that pass the filter and are due. -/
theorem events_collect {events : List MacroEvent} {ws : List BlackoutWindow}
    (h : collect (windowOf u text now.instant cfg) events = .ok ws) :
    ws.map BlackoutWindow.event =
      events.filter fun event => covered cfg event ∧ Due u now cfg event := by
  induction events generalizing ws with
  | nil =>
    cases h
    rfl
  | cons event events ih =>
    obtain ⟨w?, hw, h⟩ := bind_eq_ok.1 h
    obtain ⟨others, hothers, h⟩ := bind_eq_ok.1 h
    cases h
    have hone : w?.toList.map BlackoutWindow.event =
        [event].filter fun event => covered cfg event ∧ Due u now cfg event := by
      by_cases hcovered : covered cfg event = true
      · obtain ⟨w?', hw', hev⟩ := windowOf_told text now
          ((windowOf_answers text).1 ⟨w?, hw⟩ hcovered)
        rw [hw'] at hw
        cases hw
        exact hev
      · rw [windowOf, if_neg hcovered] at hw
        cases hw
        simp [hcovered]
    rw [List.map_append, hone, ih hothers]
    exact (List.filter_append [event] events).symm

/-! ## When the windows are exact -/

variable (u) in
/-- The events of all years and those that are injected that pass the filter and are due. -/
def dueEvents (now : DateTime) (cfg : Config) (extraEvents : List Json) : List MacroEvent :=
  (allYears.flatMap (calendarOf cfg) ++ extraEvents.filterMap injectedEvent).filter fun event =>
    covered cfg event ∧ Due u now cfg event

variable (u text) in
/-- **The windows are those of the events that are due.** -/
def Exact (now : DateTime) (cfg : Config) (extraEvents : List Json) : Prop :=
  ∃ ws, getActiveBlackouts u text now cfg extraEvents = .ok ws ∧
    (ws.map BlackoutWindow.event).Perm (dueEvents u now cfg extraEvents)

variable (u) in
/-- **The calendar has what is due and can read what it has.** -/
structure Foreseen (now : DateTime) (cfg : Config) (extraEvents : List Json) : Prop where
  /-- There is a calendar of the next year when it is asked for. -/
  has_years : cfg.nfpEvents.getD true = true → now.date.month = 12 → now.date.year ≠ 9999
  /-- What passes the filter has a time, which has a window. -/
  told : ∀ event ∈ (yearsOf now).flatMap (calendarOf cfg) ++ extraEvents.filterMap injectedEvent,
    covered cfg event = true → Told u cfg event
  /-- Nothing is due of the other years. -/
  other_years : ∀ year ∈ allYears, year ∉ yearsOf now →
    ∀ event ∈ calendarOf cfg year, covered cfg event = true → ¬ Due u now cfg event

theorem getActiveBlackouts_ok {ws : List BlackoutWindow} :
    getActiveBlackouts u text now cfg extraEvents = .ok ws ↔
      (cfg.nfpEvents.getD true = true → now.date.month = 12 → now.date.year ≠ 9999) ∧
        collect (windowOf u text now.instant cfg) ((yearsOf now).flatMap (calendarOf cfg) ++
          extraEvents.filterMap injectedEvent) = .ok ws := by
  rw [getActiveBlackouts, bind_eq_ok]
  constructor
  · rintro ⟨events, hevents, h⟩
    have hyears := of_builtInEvents hevents
    rw [builtInEvents_ok hyears] at hevents
    cases hevents
    exact ⟨hyears, h⟩
  · rintro ⟨hyears, h⟩
    exact ⟨_, builtInEvents_ok hyears, h⟩

theorem flatMap_filter {α β : Type} {p : α → Bool} {f : α → List β} {l : List α}
    (h : ∀ x ∈ l, ¬ p x = true → f x = []) : (l.filter p).flatMap f = l.flatMap f := by
  induction l with
  | nil => rfl
  | cons x l ih =>
    rw [List.forall_mem_cons] at h
    by_cases hx : p x = true
    · rw [List.filter_cons_of_pos hx, List.flatMap_cons, List.flatMap_cons, ih h.2]
    · rw [List.filter_cons_of_neg hx, List.flatMap_cons, ih h.2, h.1 hx, List.nil_append]

theorem perm_calendars (h : cfg.nfpEvents.getD true = true → now.date.month = 12 →
    now.date.year ≠ 9999) :
    (allYears.flatMap (calendarOf cfg)).Perm ((yearsOf now).flatMap (calendarOf cfg) ++
      (allYears.filter fun year => year ∉ yearsOf now).flatMap (calendarOf cfg)) := by
  have hpos := now.year_pos
  have hle := now.year_le
  have hsplit := List.filter_append_perm (fun year => decide (year ∈ yearsOf now)) allYears
  simp only [← decide_not] at hsplit
  have hown : (allYears.filter fun year => year ∈ yearsOf now).Perm
      ((yearsOf now).filter fun year => year ≤ 9999) := by
    refine (List.perm_ext_iff_of_nodup (nodup_allYears.filter _)
      ((nodup_yearsOf now).filter _)).2 fun year => ?_
    simp only [List.mem_filter, decide_eq_true_eq, mem_allYears, mem_yearsOf]
    omega
  have hafter : ((yearsOf now).filter fun year => year ≤ 9999).flatMap (calendarOf cfg) =
      (yearsOf now).flatMap (calendarOf cfg) := by
    refine flatMap_filter fun year hmem hlate => ?_
    have hyear := mem_yearsOf.1 hmem
    have hlate : ¬ year ≤ 9999 := fun hle => hlate (decide_eq_true hle)
    have hoff : cfg.nfpEvents.getD true = false :=
      Bool.eq_false_iff.2 fun hon => h hon (by omega) (by omega)
    rw [show year = 10000 by omega, calendarOf, calendar_after.1 hoff]
  rw [← hafter]
  refine (hsplit.symm.flatMap_right _).trans ?_
  rw [List.flatMap_append]
  exact (hown.flatMap_right _).append_right _

theorem perm_dueEvents (h : cfg.nfpEvents.getD true = true → now.date.month = 12 →
    now.date.year ≠ 9999) :
    (dueEvents u now cfg extraEvents).Perm
      (((yearsOf now).flatMap (calendarOf cfg) ++ extraEvents.filterMap injectedEvent).filter
          (fun event => covered cfg event ∧ Due u now cfg event) ++
        ((allYears.filter fun year => year ∉ yearsOf now).flatMap (calendarOf cfg)).filter
          fun event => covered cfg event ∧ Due u now cfg event) := by
  rw [← List.filter_append]
  refine List.Perm.filter _ (((perm_calendars h).append_right _).trans ?_)
  rw [List.append_assoc, List.append_assoc]
  exact List.perm_append_comm.append_left _

/-- **The windows are exact when the calendar has what is due and can read what it has.** -/
theorem exact_iff_foreseen (u : Unicode) (text : Json → String) (now : DateTime) (cfg : Config)
    (extraEvents : List Json) :
    Exact u text now cfg extraEvents ↔ Foreseen u now cfg extraEvents := by
  constructor
  · rintro ⟨ws, hws, hperm⟩
    obtain ⟨hyears, hcollect⟩ := getActiveBlackouts_ok.1 hws
    refine ⟨hyears,
      fun event hevent => (windowOf_answers text).1 (collect_answers hcollect event hevent),
      fun year hyear hother event hevent hcovered hdue => ?_⟩
    rw [events_collect hcollect] at hperm
    have hlength := (hperm.trans (perm_dueEvents hyears)).length_eq
    rw [List.length_append, Nat.left_eq_add, List.length_eq_zero_iff, List.filter_eq_nil_iff]
      at hlength
    exact hlength event (List.mem_flatMap.2 ⟨year, List.mem_filter.2
      ⟨hyear, decide_eq_true hother⟩, hevent⟩) (decide_eq_true ⟨hcovered, hdue⟩)
  · rintro ⟨hyears, htold, hother⟩
    obtain ⟨ws, hws⟩ := exists_collect fun event hevent =>
      (windowOf_answers text).2 (htold event hevent)
    refine ⟨ws, getActiveBlackouts_ok.2 ⟨hyears, hws⟩, ?_⟩
    rw [events_collect hws]
    refine ((perm_dueEvents hyears).trans (List.Perm.of_eq ?_)).symm
    rw [List.append_right_eq_self, List.filter_eq_nil_iff]
    intro event hevent hdue
    obtain ⟨year, hyear, hevent⟩ := List.mem_flatMap.1 hevent
    obtain ⟨hyear, hnot⟩ := List.mem_filter.1 hyear
    obtain ⟨hcovered, hdue⟩ := of_decide_eq_true hdue
    exact hother year hyear (of_decide_eq_true hnot) event hevent hcovered hdue

def june : DateTime where
  date := ⟨2026, 6, 15, by decide, by decide, by decide, by decide⟩
  micros := 43200000000
  year_pos := by decide
  year_le := by decide
  micros_lt := by decide

def january : DateTime where
  date := ⟨2028, 1, 2, by decide, by decide, by decide, by decide⟩
  micros := 0
  year_pos := by decide
  year_le := by decide
  micros_lt := by decide

def speech : Json :=
  .obj [("name", .str "Fed speech"), ("date", .str "2026-06-15"), ("time_utc", .str "2pm")]

/-- **An event whose time cannot be read leaves no windows**, and neither is there one of the year
before. -/
theorem windows_lost : ¬ Exact ascii (fun _ => "") june {} [speech] ∧
    ¬ Exact ascii (fun _ => "") january { blackoutHoursAfter := some 800 } [] := by
  constructor
  · rintro ⟨ws, hws, -⟩
    have hraised : (getActiveBlackouts ascii (fun _ => "") june {} [speech]).toOption.isNone =
        true := by decide +kernel
    rw [hws] at hraised
    cases hraised
  · rintro ⟨ws, hws, hperm⟩
    have hempty : ((getActiveBlackouts ascii (fun _ => "") january
        { blackoutHoursAfter := some 800 } []).toOption.map List.length) = some 0 := by
      decide +kernel
    rw [hws] at hempty
    have hnone : (dueEvents ascii january { blackoutHoursAfter := some 800 } []).length = 0 := by
      rw [← hperm.length_eq, List.length_map]
      exact Option.some.inj hempty
    have hdue : nfpEvent ⟨2027, 12, 3, by decide, by decide, by decide, by decide⟩ ∈
        dueEvents ascii january { blackoutHoursAfter := some 800 } [] := by
      refine List.mem_filter.2 ⟨List.mem_append_left _ (mem_calendars.2 (Or.inr ⟨rfl, _, ?_, ?_, ?_,
        rfl⟩)), ?_⟩ <;> decide +kernel
    rw [List.length_eq_zero_iff.1 hnone] at hdue
    cases hdue

end NeoTrader.MacroCalendar

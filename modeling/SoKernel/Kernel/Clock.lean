import SoKernel.Lib.Calendar

namespace SoKernel.Clock
open Lib

/-! ## `drivers/clock.c` and `drivers/time.c` -/

def y2k : Int32 := 2000

/-- The registers of the clock, in BCD. -/
structure Rtc where
  seconds : UInt8
  minutes : UInt8
  hours : UInt8
  dayOfMonth : UInt8
  month : UInt8
  year : UInt8

/-- `time_t`. -/
structure Time where
  sec : Int32
  min : Int32
  hour : Int32
  day : Int32
  month : Int32
  year : Int32
deriving DecidableEq

def BCDToDecimal (time : UInt8) : UInt8 := ((time &&& 0xF0) >>> 4) * 10 + (time &&& 0x0F)

/-- What a register stands for. -/
def register (byte : UInt8) : Int32 := Int32.ofNat (BCDToDecimal byte).toNat

def isLeapYear (year : Int32) : Bool := (year % 4 = 0 ∧ year % 100 ≠ 0) ∨ year % 400 = 0

/-- The row of `daytab` for the year, at the month. -/
def daytab (year month : Int32) : Int32 :=
  [0, 31, if isLeapYear year then 29 else 28, 31, 30, 31, 30, 31, 31, 30, 31, 30, 31].getD
    month.toInt.toNat 0

def checkDay (t : Time) : Time :=
  if t.day > daytab t.year t.month then
    let t := { t with day := 1, month := t.month + 1 }
    if t.month > 12 then { t with month := 1, year := t.year + 1 } else t
  else if t.day ≤ 0 then
    let t := { t with month := t.month - 1 }
    let t := if t.month ≤ 0 then { t with month := 12, year := t.year - 1 } else t
    { t with day := daytab t.year t.month }
  else t

def getTime (timeZone : Int64) (rtc : Rtc) : Time :=
  let currentTime : Time := {
    sec := register rtc.seconds
    min := register rtc.minutes
    hour := ((register rtc.hours).toInt64 + timeZone).toInt32
    day := register rtc.dayOfMonth
    month := register rtc.month
    year := register rtc.year + y2k }
  let currentTime :=
    if currentTime.hour ≥ 24 then
      { currentTime with hour := currentTime.hour - 24, day := currentTime.day + 1 }
    else if currentTime.hour < 0 then
      { currentTime with hour := currentTime.hour + 24, day := currentTime.day - 1 }
    else currentTime
  checkDay currentTime

/-- `startMillis` and `endMillis`; an `int` that overflows wraps around. -/
def millis (t : Time) : Int64 :=
  (t.sec * 1000 + t.min * 60 * 1000 + t.hour * 3600 * 1000 + t.day * 24 * 3600 * 1000 +
    t.month * 30 * 24 * 3600 * 1000 + (t.year - y2k) * 365 * 24 * 3600 * 1000).toInt64

def diffTimeMillis (start stop : Time) : Int64 := millis stop - millis start

/-- The loop of `wait_seconds`, with what the clock shows each time it is read: how often the
process yields, or `none` while it waits. -/
def waitFrom (curr : Time) (secondsToWait : UInt64) : List Rtc → Option Nat
  | [] => none
  | rtc :: later =>
    if (diffTimeMillis curr (getTime 0 rtc) / 1000).toUInt64 < secondsToWait then
      (waitFrom curr secondsToWait later).map (· + 1)
    else some 0

def wait_seconds (secondsToWait : UInt64) : List Rtc → Option Nat
  | [] => none
  | rtc :: later => waitFrom (getTime 0 rtc) secondsToWait later

/-! ## Valid readings -/

def bcd (n : Nat) : UInt8 := UInt8.ofNat (16 * (n / 10) + n % 10)

/-- The clock at a moment of its century. -/
def Rtc.at (moment : Moment) : Rtc where
  seconds := bcd moment.second
  minutes := bcd moment.minute
  hours := bcd moment.hour
  dayOfMonth := bcd moment.date.day
  month := bcd moment.date.month
  year := bcd (moment.date.year - 2000)

def Time.at (moment : Moment) : Time where
  sec := .ofNat moment.second
  min := .ofNat moment.minute
  hour := .ofNat moment.hour
  day := .ofNat moment.date.day
  month := .ofNat moment.date.month
  year := .ofNat moment.date.year

variable {n year month : Nat} {moment start stop : Moment}

theorem register_bcd (small : n < 100) : register (bcd n) = Int32.ofNat n := by
  have all : ∀ n : Fin 100, register (bcd n) = Int32.ofNat n := by decide
  exact all ⟨n, small⟩

theorem toInt_ofNat (small : n < 10000) : (Int32.ofNat n).toInt = n :=
  Int32.toInt_ofNat_of_lt (by omega)

theorem isLeapYear_ofNat (small : year < 10000) :
    isLeapYear (Int32.ofNat year) = decide (leapDay year = 1) := by
  have mod : ∀ m : Int32, ∀ d : Nat, m.toInt = d → (Int32.ofNat year % m = 0 ↔ year % d = 0) := by
    intro m d value
    rw [← Int32.toInt_inj, Int32.toInt_mod, toInt_ofNat small, value, ← Int.ofNat_tmod,
      Int32.toInt_zero]
    omega
  unfold isLeapYear leapDay
  simp only [ne_eq, mod 4 4 rfl, mod 100 100 rfl, mod 400 400 rfl]
  split <;> simp_all

theorem daytab_ofNat (small : year < 10000) (positive : 1 ≤ month) (last : month ≤ 12) :
    daytab (Int32.ofNat year) (Int32.ofNat month) = Int32.ofNat (monthLength year month) := by
  have leap : leapDay year = 0 ∨ leapDay year = 1 := by
    have bound : leapDay year ≤ 1 := leapDay_le
    omega
  unfold daytab monthLength
  rw [toInt_ofNat (by omega), Int.toNat_natCast, isLeapYear_ofNat small]
  interval_cases month <;> rcases leap with none | one <;> simp [*]

theorem ofNat_le {a b : Nat} (small : a < 10000) (small' : b < 10000) :
    Int32.ofNat a ≤ Int32.ofNat b ↔ a ≤ b := by
  rw [Int32.le_iff_toInt_le, toInt_ofNat small, toInt_ofNat small', Int.ofNat_le]

/-- A date of the calendar is left as it is. -/
theorem checkDay_at (small : moment.date.year < 10000) :
    checkDay (Time.at moment) = Time.at moment := by
  have date := moment.date.bounds
  have month : monthLength moment.date.year moment.date.month ≤ 31 := monthLength_le
  have past : ¬ (Time.at moment).day >
      daytab (Time.at moment).year (Time.at moment).month := by
    change ¬ daytab (Int32.ofNat _) (Int32.ofNat _) < Int32.ofNat _
    rw [daytab_ofNat small date.1 date.2.1, Int32.not_lt, ofNat_le (by omega) (by omega)]
    exact moment.date.day_le
  have before : ¬ (Time.at moment).day ≤ 0 := by
    change ¬ Int32.ofNat _ ≤ Int32.ofNat 0
    rw [ofNat_le (by omega) (by omega)]
    omega
  unfold checkDay
  rw [if_neg past, if_neg before]

theorem getTime_at (since : 2000 ≤ moment.date.year) (till : moment.date.year ≤ 2099) :
    getTime 0 (Rtc.at moment) = Time.at moment := by
  have date := moment.date.bounds
  have second := moment.second_lt
  have minute := moment.minute_lt
  have hour := moment.hour_lt
  have year : Int32.ofNat (moment.date.year - 2000) + y2k = Int32.ofNat moment.date.year := by
    change Int32.ofNat _ + Int32.ofNat 2000 = _
    rw [← Int32.ofNat_add, Nat.sub_add_cancel since]
  have today : ¬ Int32.ofNat moment.hour ≥ 24 := by
    change ¬ Int32.ofNat 24 ≤ Int32.ofNat _
    rw [ofNat_le (by omega) (by omega)]
    omega
  have early : ¬ Int32.ofNat moment.hour < 0 := by
    change ¬ Int32.ofNat _ < Int32.ofNat 0
    rw [Int32.not_lt, ofNat_le (by omega) (by omega)]
    exact Nat.zero_le _
  unfold getTime Rtc.at
  dsimp only
  rw [register_bcd (by omega), register_bcd (by omega), register_bcd (by omega),
    register_bcd (by omega), register_bcd (by omega), register_bcd (by omega), year,
    Int64.add_zero, Int32.toInt32_toInt64, if_neg today, if_neg early]
  exact checkDay_at (by omega)

/-! ## Years of 365 days and months of 30 -/

/-- The milliseconds of a moment when every year has 365 days and every month 30. -/
def flatMillis (moment : Moment) : Int :=
  1000 * (3600 * moment.hour + 60 * moment.minute + moment.second) +
    86400000 * (moment.date.day + 30 * moment.date.month + 365 * (moment.date.year - 2000))

/-- Which of the stretches of `2 ^ 32` milliseconds, the first around 0, a moment is in. -/
def stretch (moment : Moment) : Int := (flatMillis moment + 2 ^ 31) / 2 ^ 32

theorem millis_at (moment : Moment) :
    (millis (Time.at moment)).toInt = flatMillis moment - 2 ^ 32 * stretch moment := by
  have sum : flatMillis moment = moment.second * 1000 + moment.minute * 60 * 1000 +
      moment.hour * 3600 * 1000 + moment.date.day * 24 * 3600 * 1000 +
      moment.date.month * 30 * 24 * 3600 * 1000 +
      (moment.date.year - 2000) * 365 * 24 * 3600 * 1000 := by
    unfold flatMillis
    ring
  -- The conversion to `int` wraps around like its operations do.
  have whole : millis (Time.at moment) = (Int32.ofInt (flatMillis moment)).toInt64 := by
    rw [sum]
    simp only [Int32.ofInt_add, Int32.ofInt_mul, Int32.ofInt_sub, Int32.ofInt_eq_ofNat]
    rfl
  rw [whole, Int32.toInt_toInt64, Int32.toInt_ofInt]
  unfold stretch Int32.size
  rw [Int.bmod_def]
  split <;> omega

theorem flatMillis_eq (moment : Moment) : flatMillis moment = 1000 * moment.seconds -
    86400000 * (729969 + leapDays moment.date.year +
      excess moment.date.year moment.date.month) := by
  have number := moment.date.number_eq
  unfold flatMillis Moment.seconds
  push_cast
  rw [number]
  ring

/-! ## What is measured -/

/-- `diffTimeMillis` is the time between the two, and no wait that begins with the one and ends
with the other has been too short. -/
structure Measures (start stop : Moment) : Prop where
  millis : (diffTimeMillis (Time.at start) (Time.at stop)).toInt =
    1000 * ((stop.seconds : Int) - start.seconds)
  waits : ∀ (secondsToWait : UInt64) (between : List Moment),
    wait_seconds secondsToWait ((start :: (between ++ [stop])).map Rtc.at) =
      some between.length → start.seconds + secondsToWait.toNat ≤ stop.seconds

/-- Both lie in one year and in one stretch, and the months in between have 30 days each, taken
together. -/
structure Counted (start stop : Moment) : Prop where
  year : start.date.year = stop.date.year
  months : ∑ month ∈ Finset.Ico start.date.month stop.date.month,
    monthLength start.date.year month = 30 * (stop.date.month - start.date.month)
  stretch : stretch start = stretch stop

theorem diffTimeMillis_at (start stop : Moment) :
    (diffTimeMillis (Time.at start) (Time.at stop)).toInt =
      flatMillis stop - flatMillis start - 2 ^ 32 * (stretch stop - stretch start) := by
  have first : stretch start = (flatMillis start + 2 ^ 31) / 2 ^ 32 := rfl
  have second : stretch stop = (flatMillis stop + 2 ^ 31) / 2 ^ 32 := rfl
  unfold diffTimeMillis
  rw [Int64.toInt_sub, millis_at, millis_at, Int.bmod_eq_of_le (by omega) (by omega)]
  ring

theorem date_ordered (ordered : start.seconds ≤ stop.seconds) :
    start.date.number ≤ stop.date.number := by
  have hour := stop.hour_lt
  have minute := stop.minute_lt
  have second := stop.second_lt
  unfold Moment.seconds at ordered
  omega

theorem excess_eq_iff (same : start.date.year = stop.date.year)
    (ordered : start.seconds ≤ stop.seconds) :
    excess start.date.year start.date.month = excess stop.date.year stop.date.month ↔
      ∑ month ∈ Finset.Ico start.date.month stop.date.month,
        monthLength start.date.year month = 30 * (stop.date.month - start.date.month) := by
  have months := Date.month_le_of_number_le same (date_ordered ordered)
  have sum : daysBefore start.date.year stop.date.month = _ :=
    daysBefore_add start.date.month_pos months
  unfold excess
  rw [← same, sum]
  omega

/-- The years that the clock can show. -/
def Shown (moment : Moment) : Prop := 2000 ≤ moment.date.year ∧ moment.date.year ≤ 2099

theorem Shown.leaps (shown : Shown moment) : leapDays 2000 ≤ leapDays moment.date.year ∧
    leapDays moment.date.year ≤ leapDays 2000 + 99 := by
  obtain ⟨since, till⟩ := shown
  obtain ⟨more, year⟩ : ∃ more, moment.date.year = 2000 + more :=
    ⟨_, (Nat.add_sub_cancel' since).symm⟩
  have bounds : leapDays 2000 ≤ leapDays (2000 + more) ∧ _ := leapDays_add
  rw [year] at till ⊢
  omega

/-- The days that are counted too many. -/
def surplus (moment : Moment) : Int :=
  -(leapDays moment.date.year + excess moment.date.year moment.date.month)

theorem Shown.bounds (shown : Shown moment) : -(leapDays 2000 + 104 : Int) ≤ surplus moment ∧
    surplus moment ≤ 1 - leapDays 2000 := by
  have leaps := shown.leaps
  have excess : -1 ≤ excess moment.date.year moment.date.month ∧ _ :=
    excess_bounds moment.date.month_pos moment.date.month_le
  have leap : leapDay moment.date.year ≤ 1 := leapDay_le
  unfold surplus
  omega

/-- A day has not enough factors 2 for some of them to make a stretch. -/
theorem days_ne_stretches {days stretches : Int} (few : |days| < 2 ^ 22)
    (equal : 86400000 * days = 2 ^ 32 * stretches) : days = 0 ∧ stretches = 0 := by
  have divides : (2 ^ 22 : Int) ∣ 84375 * days := ⟨stretches, by linarith only [equal]⟩
  have odd : IsCoprime (2 ^ 22 : Int) 84375 := by
    rw [Int.isCoprime_iff_gcd_eq_one]
    decide
  have none := Int.eq_zero_of_abs_lt_dvd (odd.dvd_of_dvd_mul_left divides) few
  rw [none] at equal
  exact ⟨none, by omega⟩

theorem near_of_stretch (same : stretch start = stretch stop)
    (exact : flatMillis stop - flatMillis start = 1000 * ((stop.seconds : Int) - start.seconds)) :
    stop.date.number ≤ start.date.number + 50 := by
  have close : flatMillis stop - flatMillis start < 2 ^ 32 := by
    unfold stretch at same
    omega
  have hour := start.hour_lt
  have minute := start.minute_lt
  have second := start.second_lt
  rw [exact] at close
  unfold Moment.seconds at close
  omega

theorem diffTimeMillis_iff (first : Shown start) (last : Shown stop)
    (ordered : start.seconds ≤ stop.seconds) :
    (diffTimeMillis (Time.at start) (Time.at stop)).toInt =
      1000 * ((stop.seconds : Int) - start.seconds) ↔ Counted start stop := by
  have flat : flatMillis stop - flatMillis start = 1000 * ((stop.seconds : Int) - start.seconds) +
      86400000 * (surplus stop - surplus start) := by
    rw [flatMillis_eq, flatMillis_eq]
    unfold surplus
    ring
  rw [diffTimeMillis_at, flat]
  constructor
  · intro equal
    have bounds := first.bounds
    have bounds' := last.bounds
    have few : |surplus stop - surplus start| < 2 ^ 22 := by
      rw [abs_lt]
      constructor <;> linarith only [bounds, bounds']
    obtain ⟨even, stretches⟩ := days_ne_stretches few
      (show _ = 2 ^ 32 * (stretch stop - stretch start) by linarith only [equal])
    have together : stretch start = stretch stop := by linarith only [stretches]
    have near := near_of_stretch together (by rw [flat, even, Int.mul_zero, Int.add_zero])
    unfold surplus at even
    have same := Date.year_eq (date_ordered ordered) near (by linarith only [even])
    refine ⟨same, (excess_eq_iff same ordered).mp ?_, together⟩
    rw [same] at even ⊢
    linarith only [even]
  · rintro ⟨same, months, together⟩
    have equal := (excess_eq_iff same ordered).mpr months
    have even : surplus stop = surplus start := by
      unfold surplus
      rw [equal, same]
    rw [even, together]
    ring

/-! ## Waiting -/

theorem waitFrom_ends {curr : Time} {secondsToWait : UInt64} {rtc : Rtc} {between : List Rtc}
    (ends : waitFrom curr secondsToWait (between ++ [rtc]) = some between.length) :
    secondsToWait ≤ (diffTimeMillis curr (getTime 0 rtc) / 1000).toUInt64 := by
  induction between with
  | nil =>
    rw [List.nil_append, waitFrom] at ends
    split at ends
    · cases ends
    · rename_i long
      exact UInt64.not_lt.mp long
  | cons first between ih =>
    rw [List.cons_append, waitFrom] at ends
    split at ends
    · obtain ⟨n, waited, more⟩ := Option.map_eq_some_iff.mp ends
      rw [Nat.succ.inj more] at waited
      exact ih waited
    · cases ends

theorem seconds_of_millis {millis : Int64} {seconds : Nat} (exact : millis.toInt = 1000 * seconds) :
    (millis / 1000).toUInt64.toNat = seconds := by
  have whole : (millis / 1000).toInt = seconds := by
    rw [Int64.toInt_div_of_ne_right _ _ (by decide), exact]
    exact Int.mul_tdiv_cancel_left _ (by decide)
  have positive : 0 ≤ millis / 1000 := by
    rw [Int64.le_iff_toInt_le, whole]
    exact Int.natCast_nonneg _
  rw [Int64.toNat_toUInt64_of_le positive]
  exact congrArg Int.toNat whole

theorem measures_iff (first : Shown start) (last : Shown stop)
    (ordered : start.seconds ≤ stop.seconds) : Measures start stop ↔ Counted start stop := by
  rw [← diffTimeMillis_iff first last ordered]
  refine ⟨fun measures => measures.millis, fun millis => ⟨millis, ?_⟩⟩
  intro secondsToWait between waited
  rw [List.map_cons, List.map_append, List.map_cons, List.map_nil, wait_seconds,
    getTime_at first.1 first.2] at waited
  rw [← List.length_map Rtc.at] at waited
  have long := waitFrom_ends waited
  have seconds : (diffTimeMillis (Time.at start) (Time.at stop) / 1000).toUInt64.toNat =
      stop.seconds - start.seconds := seconds_of_millis (by omega)
  rw [getTime_at last.1 last.2, UInt64.le_iff_toNat_le, seconds] at long
  omega

def juneEnds : Moment where
  date := ⟨2025, 6, 30, by decide, by decide, by decide, by decide⟩
  hour := 23
  minute := 59
  second := 59
  hour_lt := by decide
  minute_lt := by decide
  second_lt := by decide

def julyBegins : Moment where
  date := ⟨2025, 7, 1, by decide, by decide, by decide, by decide⟩
  hour := 0
  minute := 0
  second := 0
  hour_lt := by decide
  minute_lt := by decide
  second_lt := by decide

theorem june_measures : Measures juneEnds julyBegins := by
  have july : daysBefore 2025 7 = daysBefore 2025 6 + 30 := daysBefore_succ (by decide)
  refine (measures_iff ⟨by decide, by decide⟩ ⟨by decide, by decide⟩ ?_).mpr
    ⟨rfl, by decide, by decide⟩
  unfold Moment.seconds Date.number juneEnds julyBegins
  dsimp only
  omega

def februaryEnds : Moment :=
  { juneEnds with date := ⟨2025, 2, 28, by decide, by decide, by decide, by decide⟩ }

def marchBegins : Moment :=
  { julyBegins with date := ⟨2025, 3, 1, by decide, by decide, by decide, by decide⟩ }

/-- One second is taken for two days and a second. -/
theorem february_ends_waits : ¬ ∀ start stop, Shown start → Shown stop →
    start.seconds ≤ stop.seconds → Measures start stop := by
  intro all
  have march : daysBefore 2025 3 = daysBefore 2025 2 + 28 := daysBefore_succ (by decide)
  have second : marchBegins.seconds = februaryEnds.seconds + 1 := by
    unfold Moment.seconds Date.number februaryEnds marchBegins juneEnds julyBegins
    dsimp only
    omega
  have measures := all februaryEnds marchBegins ⟨by decide, by decide⟩ ⟨by decide, by decide⟩
    (by omega)
  have early := measures.waits 172801 [] (by decide)
  rw [second] at early
  exact absurd early (by simp)

end SoKernel.Clock

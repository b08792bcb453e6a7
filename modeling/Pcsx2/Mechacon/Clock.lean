import Mathlib.Tactic.IntervalCases
import Pcsx2.Foundation.Calendar
import Pcsx2.Mechacon.Safety

/-!
# The clock

A date that the program has written is kept as it was converted. From a valid one the seconds are those of the calendar,
in the years from 2000 on.
-/

namespace Pcsx2.Mechacon
open Foundation

/-! ## The century -/

def firstYear : Nat := 2000

/-- The days of the years that it has. -/
def century : Nat := 36525

theorem firstYear_four : firstYear % 400 = 0 := rfl

/-! ## Valid dates -/

namespace RTC

variable {rtc : RTC} {s : Cdvd}

def date (rtc : RTC) : Date := ⟨firstYear + rtc.year.toNat, rtc.month.toNat, rtc.day.toNat⟩

structure DateValid (rtc : RTC) : Prop where
  year : rtc.year.toNat < 100
  date : rtc.date.Valid

structure HourValid (rtc : RTC) : Prop extends rtc.DateValid where
  hour : rtc.hour.toNat < 24

structure MinuteValid (rtc : RTC) : Prop extends rtc.HourValid where
  minute : rtc.minute.toNat < 60

structure Valid (rtc : RTC) : Prop extends rtc.MinuteValid where
  second : rtc.second.toNat < 60

def days (rtc : RTC) : Nat := rtc.date.number - daysBeforeYear firstYear

def hours (rtc : RTC) : Nat := rtc.days * 24 + rtc.hour.toNat

def minutes (rtc : RTC) : Nat := rtc.hours * 60 + rtc.minute.toNat

def seconds (rtc : RTC) : Nat := rtc.minutes * 60 + rtc.second.toNat

theorem number_eq (rtc : RTC) : rtc.date.number = daysBeforeYear firstYear + rtc.days := by
  have above := rtc.date.above_year
  have later := daysBeforeYear_monotone (show firstYear ≤ rtc.date.year from Nat.le_add_right _ _)
  unfold days
  omega

theorem DateValid.days_lt (valid : rtc.DateValid) : rtc.days < century := by
  have below := valid.date.below_year
  have last := daysBeforeYear_monotone (show rtc.date.year + 1 ≤ firstYear + 100 from Nat.add_le_add_left valid.year _)
  rw [daysBeforeYear_century firstYear_four] at last
  rw [number_eq] at below
  unfold century
  omega

theorem monthLength_eq (year : rtc.year.toNat < 100) (first : 1 ≤ rtc.month.toNat) (last : rtc.month.toNat ≤ 12) :
    rtc.monthLength s = some (.ofNat 8 (Foundation.monthLength (firstYear + rtc.year.toNat) rtc.month.toNat), s) := by
  have quarter : rtc.year % 4 = 0 ↔ leapYear (firstYear + rtc.year.toNat) = true := by
    rw [leapYear_century firstYear_four year, decide_eq_true_eq, ← BitVec.toNat_inj]
    rfl
  generalize number : rtc.month.toNat = month at *
  have same : rtc.month = .ofNat 8 month := by rw [← number, BitVec.ofNat_toNat, BitVec.setWidth_eq]
  unfold RTC.monthLength Foundation.monthLength
  by_cases leap : rtc.year % 4 = 0
  · rw [quarter.mp leap]
    simp only [same, leap, and_true]
    interval_cases month <;> rfl
  · rw [Bool.eq_false_of_not_eq_true fun yes => leap (quarter.mpr yes)]
    simp only [same, leap, and_false]
    interval_cases month <;> rfl

/-! ## The next second -/

theorem add_one_toNat {b : Byte} {n : Nat} (below : b.toNat < n) (small : n ≤ 255) : (b + 1).toNat = b.toNat + 1 := by
  rw [BitVec.toNat_add, show (1 : Byte).toNat = 1 from rfl]
  omega

theorem digit_stays {high low base count : Nat} (below : high < count) (within : low + 1 < base) :
    high * base + (low + 1) = (high * base + low + 1) % (count * base) := by
  have whole : (high + 1) * base ≤ count * base := Nat.mul_le_mul_right base below
  rw [Nat.add_mul, Nat.one_mul] at whole
  rw [Nat.mod_eq_of_lt (by omega), Nat.add_assoc]

theorem digit_carries {high low base count next : Nat} (ends : low + 1 = base) (carried : next = (high + 1) % count) :
    next * base + 0 = (high * base + low + 1) % (count * base) := by
  rw [Nat.add_assoc, ends, ← Nat.succ_mul, Nat.mul_mod_mul_right, carried, Nat.add_zero]

theorem DateValid.next (valid : rtc.DateValid) (next : RTC) (year : next.year.toNat < 100)
    (date : next.date = rtc.date.next) : next.DateValid ∧ next.days = (rtc.days + 1) % century := by
  have dated : next.DateValid := ⟨year, date ▸ valid.date.next⟩
  have number := Date.number_next valid.date
  rw [← date, number_eq, number_eq] at number
  have below := dated.days_lt
  refine ⟨dated, ?_⟩
  rw [Nat.mod_eq_of_lt (by omega)]
  omega

theorem DateValid.wrap (valid : rtc.DateValid) (next : RTC) (last : rtc.date.next = ⟨firstYear + 100, 1, 1⟩)
    (first : next.date = ⟨firstYear, 1, 1⟩) (year : next.year.toNat < 100) :
    next.DateValid ∧ next.days = (rtc.days + 1) % century := by
  have number := Date.number_next valid.date
  have whole := daysBeforeYear_century firstYear_four
  have january (y : Nat) : (⟨y, 1, 1⟩ : Date).number = daysBeforeYear y := rfl
  have zero : next.date.number = daysBeforeYear firstYear := by rw [first, january]
  rw [last, january, number_eq, whole] at number
  rw [number_eq] at zero
  refine ⟨⟨year, ?_⟩, ?_⟩
  · rw [first]
    exact ⟨⟨le_rfl, Nat.le_add_left 1 11⟩, le_rfl, monthLength_pos _ _⟩
  · rw [show rtc.days + 1 = century by unfold century; omega, Nat.mod_self]
    omega

theorem nextMonth_valid (valid : rtc.DateValid) (ends : ¬rtc.date.day < Foundation.monthLength rtc.date.year rtc.date.month) :
    ({ rtc with day := 1 }.nextMonth).DateValid ∧ ({ rtc with day := 1 }.nextMonth).days = (rtc.days + 1) % century := by
  obtain ⟨first, last⟩ := valid.date.month
  have month := add_one_toNat (Nat.lt_succ_of_le last) (by decide)
  have year := add_one_toNat valid.year (by decide)
  unfold nextMonth nextYear
  dsimp only
  split_ifs with within before
  · have less : (rtc.month + 1).toNat ≤ 12 := within
    refine valid.next _ valid.year ?_
    rw [Date.next, if_neg ends, if_pos (by simp only [date] at *; omega)]
    simp only [date, month]
    rfl
  · have beyond : ¬(rtc.month + 1).toNat ≤ 12 := within
    refine valid.next _ before ?_
    rw [Date.next, if_neg ends, if_neg (by simp only [date] at *; omega)]
    simp only [date, year]
    rfl
  · have beyond : ¬(rtc.month + 1).toNat ≤ 12 := within
    have late : ¬(rtc.year + 1).toNat < 100 := before
    have below := valid.year
    refine valid.wrap _ ?_ rfl (Nat.zero_lt_succ 99)
    rw [Date.next, if_neg ends, if_neg (by simp only [date] at *; omega)]
    simp only [date]
    rw [show rtc.year.toNat = 99 by omega]

theorem nextMonth_time (rtc : RTC) : rtc.nextMonth.second = rtc.second ∧ rtc.nextMonth.minute = rtc.minute ∧
    rtc.nextMonth.hour = rtc.hour := by
  unfold nextMonth nextYear
  dsimp only
  split_ifs <;> exact ⟨rfl, rfl, rfl⟩

theorem nextDay_valid (valid : rtc.DateValid) :
    ∃ next, rtc.nextDay s = some (next, s) ∧ next.DateValid ∧ next.days = (rtc.days + 1) % century ∧
      next.second = rtc.second ∧ next.minute = rtc.minute ∧ next.hour = rtc.hour := by
  obtain ⟨first, last⟩ := valid.date.month
  have few := monthLength_le (firstYear + rtc.year.toNat) rtc.month.toNat
  have ends := valid.date.day.2
  have bumped := add_one_toNat (show rtc.day.toNat < 32 from Nat.lt_succ_of_le (ends.trans few)) (by decide)
  have length : (BitVec.ofNat 8 (Foundation.monthLength (firstYear + rtc.year.toNat) rtc.month.toNat)).toNat =
      Foundation.monthLength (firstYear + rtc.year.toNat) rtc.month.toNat :=
    Nat.mod_eq_of_lt (by omega)
  have ran : rtc.nextDay s = some
      (if rtc.day + 1 ≤ BitVec.ofNat 8 (Foundation.monthLength (firstYear + rtc.year.toNat) rtc.month.toNat)
        then { rtc with day := rtc.day + 1 } else { rtc with day := 1 }.nextMonth, s) :=
    Program.andThen_some (monthLength_eq valid.year first last)
  refine ⟨_, ran, ?_⟩
  split_ifs with within
  · have less : (rtc.day + 1).toNat ≤ _ := within
    rw [length, bumped] at less
    have before : rtc.date.day < Foundation.monthLength rtc.date.year rtc.date.month := less
    obtain ⟨dated, days⟩ := valid.next { rtc with day := rtc.day + 1 } valid.year (by
      rw [Date.next, if_pos before]
      simp only [date, bumped])
    exact ⟨dated, days, rfl, rfl, rfl⟩
  · have beyond : ¬(rtc.day + 1).toNat ≤ _ := within
    rw [length, bumped] at beyond
    obtain ⟨dated, days⟩ := nextMonth_valid valid beyond
    exact ⟨dated, days, nextMonth_time _⟩

theorem HourValid.hours_lt (valid : rtc.HourValid) : rtc.hours < century * 24 := by
  have days := valid.days_lt
  have hour := valid.hour
  unfold hours
  omega

theorem MinuteValid.minutes_lt (valid : rtc.MinuteValid) : rtc.minutes < century * 24 * 60 := by
  have hours := valid.hours_lt
  have minute := valid.minute
  unfold minutes
  omega

theorem nextHour_valid (valid : rtc.HourValid) :
    ∃ next, rtc.nextHour s = some (next, s) ∧ next.HourValid ∧ next.hours = (rtc.hours + 1) % (century * 24) ∧
      next.second = rtc.second ∧ next.minute = rtc.minute := by
  have bumped := add_one_toNat valid.hour (by decide)
  by_cases within : rtc.hour + 1 < 24
  · have less : (rtc.hour + 1).toNat < 24 := within
    refine ⟨{ rtc with hour := rtc.hour + 1 }, ?_, ⟨⟨valid.year, valid.date⟩, less⟩, ?_, rfl, rfl⟩
    · simp only [nextHour, within, if_true]
      rfl
    · rw [bumped] at less
      exact (congrArg (rtc.days * 24 + ·) bumped).trans (digit_stays valid.days_lt less)
  · have midnight : ({ rtc with hour := 0 } : RTC).DateValid := ⟨valid.year, valid.date⟩
    obtain ⟨next, ran, dated, days, second, minute, hour⟩ := nextDay_valid (s := s) midnight
    have low : ¬(rtc.hour + 1).toNat < 24 := within
    have last := valid.hour
    refine ⟨next, ?_, ⟨dated, ?_⟩, ?_, second, minute⟩
    · simp only [nextHour, within, if_false]
      exact ran
    · rw [hour]
      exact Nat.zero_lt_succ 23
    · unfold hours
      rw [hour]
      exact digit_carries (by omega) days

theorem nextMinute_valid (valid : rtc.MinuteValid) :
    ∃ next, rtc.nextMinute s = some (next, s) ∧ next.MinuteValid ∧
      next.minutes = (rtc.minutes + 1) % (century * 24 * 60) ∧ next.second = rtc.second := by
  have bumped := add_one_toNat valid.minute (by decide)
  by_cases within : rtc.minute + 1 < 60
  · have less : (rtc.minute + 1).toNat < 60 := within
    refine ⟨{ rtc with minute := rtc.minute + 1 }, ?_, ⟨⟨⟨valid.year, valid.date⟩, valid.hour⟩, less⟩, ?_, rfl⟩
    · simp only [nextMinute, within, if_true]
      rfl
    · rw [bumped] at less
      exact (congrArg (rtc.hours * 60 + ·) bumped).trans (digit_stays valid.hours_lt less)
  · have ended : ({ rtc with minute := 0 } : RTC).HourValid := ⟨⟨valid.year, valid.date⟩, valid.hour⟩
    obtain ⟨next, ran, dated, hours, second, minute⟩ := nextHour_valid (s := s) ended
    have low : ¬(rtc.minute + 1).toNat < 60 := within
    have last := valid.minute
    refine ⟨next, ?_, ⟨dated, ?_⟩, ?_, second⟩
    · simp only [nextMinute, within, if_false]
      exact ran
    · rw [minute]
      exact Nat.zero_lt_succ 59
    · unfold minutes
      rw [minute]
      exact digit_carries (by omega) hours

theorem nextSecond_valid (valid : rtc.Valid) (s : Cdvd) :
    ∃ next, rtc.nextSecond s = some (next, s) ∧ next.Valid ∧
      next.seconds = (rtc.seconds + 1) % (century * 24 * 60 * 60) := by
  have bumped := add_one_toNat valid.second (by decide)
  by_cases within : rtc.second + 1 < 60
  · have less : (rtc.second + 1).toNat < 60 := within
    refine ⟨{ rtc with second := rtc.second + 1 }, ?_,
      ⟨⟨⟨⟨valid.year, valid.date⟩, valid.hour⟩, valid.minute⟩, less⟩, ?_⟩
    · simp only [nextSecond, within, if_true]
      rfl
    · rw [bumped] at less
      exact (congrArg (rtc.minutes * 60 + ·) bumped).trans (digit_stays valid.minutes_lt less)
  · have ended : ({ rtc with second := 0 } : RTC).MinuteValid := ⟨⟨⟨valid.year, valid.date⟩, valid.hour⟩, valid.minute⟩
    obtain ⟨next, ran, dated, minutes, second⟩ := nextMinute_valid (s := s) ended
    have low : ¬(rtc.second + 1).toNat < 60 := within
    have last := valid.second
    refine ⟨next, ?_, ⟨dated, ?_⟩, ?_⟩
    · simp only [nextSecond, within, if_false]
      exact ran
    · rw [second]
      exact Nat.zero_lt_succ 59
    · unfold seconds
      rw [second]
      exact digit_carries (by omega) minutes

/-! ## Its number -/

/-- What the program sees of it. -/
def fields (rtc : RTC) : Byte × Byte × Byte × Byte × Byte × Byte :=
  (rtc.second, rtc.minute, rtc.hour, rtc.day, rtc.month, rtc.year)

theorem seconds_injective {other : RTC} (valid : rtc.Valid) (also : other.Valid) (same : rtc.seconds = other.seconds) :
    rtc.fields = other.fields := by
  have second := valid.second
  have second' := also.second
  have minute := valid.minute
  have minute' := also.minute
  have hour := valid.hour
  have hour' := also.hour
  unfold seconds minutes hours at same
  have days : rtc.days = other.days := by omega
  have number : rtc.date.number = other.date.number := by rw [number_eq, number_eq, days]
  have dates := Date.number_injective valid.date also.date number
  simp only [date, Date.mk.injEq, Nat.add_left_cancel_iff] at dates
  obtain ⟨sameYear, sameMonth, sameDay⟩ := dates
  simp only [fields, Prod.mk.injEq]
  refine ⟨?_, ?_, ?_, BitVec.eq_of_toNat_eq sameDay, BitVec.eq_of_toNat_eq sameMonth, BitVec.eq_of_toNat_eq sameYear⟩
  · exact BitVec.eq_of_toNat_eq (by omega)
  · exact BitVec.eq_of_toNat_eq (by omega)
  · exact BitVec.eq_of_toNat_eq (by omega)

end RTC

/-! ## Commands -/

section

variable (console : Console)

/-- A command after its parameters. -/
def issue (rt : Byte) (params : List Byte) : Program Cdvd Unit := do
  params.forM cdvdWrite17
  cdvdWrite16 console rt

def Cdvd.issued (s : Cdvd) (rt : Byte) : Cdvd := { s with sCommand := rt }.write .scmdResult 0 (List.replicate 16 0)

def Cdvd.cleared (s : Cdvd) : Cdvd := { s with scmdParamPos := 0, scmdParamCnt := 0 }

theorem cdvdWrite16_eq {s t : Cdvd} {rt : Byte} (ran : sCommand console rt (s.issued rt) = some ((), t)) :
    cdvdWrite16 console rt s = some ((), t.cleared) := by
  have zeros : storeBlock .scmdResult 0 (List.replicate 16 0) { s with sCommand := rt } = some ((), s.issued rt) := rfl
  unfold cdvdWrite16
  refine (Program.andThen_some rfl).trans ?_
  rw [Program.andThen_some zeros, Program.andThen_some ran]
  rfl

def Cdvd.withParam (s : Cdvd) (rt : Byte) : Cdvd :=
  { s.write .scmdParam s.scmdParamPos [rt] with
    scmdParamPos := s.scmdParamPos + 1
    scmdParamCnt := s.scmdParamCnt + 1 }

theorem cdvdWrite17_eq {s : Cdvd} (rt : Byte) (room : s.scmdParamPos < 16) :
    cdvdWrite17 rt s = some ((), s.withParam rt) := by
  have low : ¬16 ≤ s.scmdParamPos := Nat.not_le.mpr room
  have has : Buffer.scmdParam.Has s.scmdParamPos [rt].length := by
    constructor
    · exact Int.natCast_nonneg _
    · simp only [List.length_singleton, Buffer.size]
      omega
  have stored : store .scmdParam s.scmdParamPos rt s = some ((), s.write .scmdParam s.scmdParamPos [rt]) := by
    rw [store, storeBlock, if_pos has, Int.toNat_natCast]
  unfold cdvdWrite17
  rw [Program.andThen_some (rfl : (get : Program Cdvd Cdvd) s = some (s, s))]
  simp only [low, if_false]
  rw [Program.andThen_some stored]
  rfl

theorem withParam_bytes (s : Cdvd) (rt : Byte) (i : Nat) :
    (s.withParam rt).bytes .scmdParam i = if i = s.scmdParamPos then rt else s.bytes .scmdParam i := by
  by_cases same : i = s.scmdParamPos
  · simp [Cdvd.withParam, Cdvd.write, same]
  · simp [Cdvd.withParam, Cdvd.write, same]
    omega

theorem forM_cdvdWrite17 (params : List Byte) : ∀ s : Cdvd, s.scmdParamPos + params.length ≤ 16 →
    ∃ t, params.forM cdvdWrite17 s = some ((), t) ∧ t.scmdParamPos = s.scmdParamPos + params.length ∧
      ∀ i, t.bytes .scmdParam i =
        if s.scmdParamPos ≤ i then params.getD (i - s.scmdParamPos) (s.bytes .scmdParam i) else s.bytes .scmdParam i := by
  induction params with
  | nil => exact fun s _ => ⟨s, rfl, rfl, fun i => by simp⟩
  | cons rt params ih =>
    intro s fits
    rw [List.length_cons] at fits ⊢
    have first := cdvdWrite17_eq rt (s := s) (by omega)
    obtain ⟨t, ran, pos, bytes⟩ := ih (s.withParam rt) (by simp only [Cdvd.withParam]; omega)
    refine ⟨t, (Program.andThen_some first).trans ran, ?_, ?_⟩
    · rw [pos]
      simp only [Cdvd.withParam]
      omega
    · intro i
      rw [bytes i, withParam_bytes, show (s.withParam rt).scmdParamPos = s.scmdParamPos + 1 from rfl]
      rcases lt_trichotomy i s.scmdParamPos with less | rfl | more
      · simp [Nat.not_le.mpr less, Nat.not_le.mpr (Nat.lt_succ_of_lt less), less.ne]
      · simp
      · obtain ⟨k, rfl⟩ := Nat.exists_eq_add_of_lt more
        have behind : s.scmdParamPos + k + 1 - s.scmdParamPos = k + 1 := by omega
        have rest : s.scmdParamPos + k + 1 - (s.scmdParamPos + 1) = k := by omega
        rw [if_pos (by omega), if_neg (by omega), if_pos (by omega), behind, rest, List.getD_cons_succ]

/-! ## Dates -/

/-- The date that seven parameters give. -/
def writtenDate (params : Vector Byte 7) : RTC where
  second := btoi params[0]
  minute := btoi params[1] % 60
  hour := btoi params[2] % 24
  pad := 0
  day := btoi params[4]
  month := btoi (params[5] &&& (0x7f : Byte))
  year := btoi params[6]

theorem takeDate_eq {s : Cdvd} (params : Vector Byte 7) (found : ∀ i : Fin 7, s.bytes .scmdParam i = params[i]) :
    takeDate 7 s = some ((), { s with rtc := writtenDate params }) := by
  have read (i : Fin 7) : param (i : Nat) s = some (params[i], s) := by
    rw [← found i]
    exact load_inside (show i.val < 16 by omega)
  have second : param (7 - 7) s = some (params[0], s) := read 0
  have minute : param (7 - 6) s = some (params[1], s) := read 1
  have hour : param (7 - 5) s = some (params[2], s) := read 2
  have day : param (7 - 3) s = some (params[4], s) := read 4
  have month : param (7 - 2) s = some (params[5], s) := read 5
  have year : param (7 - 1) s = some (params[6], s) := read 6
  unfold takeDate
  rw [Program.andThen_some second, Program.andThen_some minute, Program.andThen_some hour, Program.andThen_some day,
    Program.andThen_some month, Program.andThen_some year]
  rfl

theorem sceCdWriteRTC_eq {s : Cdvd} (params : Vector Byte 7) (pos : s.scmdParamPos = 7)
    (found : ∀ i : Fin 7, s.bytes .scmdParam i = params[i]) :
    sceCdWriteRTC s = some ((), { (s.sized 1).write .scmdResult 0 [0] with rtc := writtenDate params }) := by
  have date : takeDate ((s.sized 1).write .scmdResult 0 [0]).scmdParamPos ((s.sized 1).write .scmdResult 0 [0]) =
      some ((), { (s.sized 1).write .scmdResult 0 [0] with rtc := writtenDate params }) := by
    rw [show ((s.sized 1).write .scmdResult 0 [0]).scmdParamPos = 7 from pos]
    refine takeDate_eq params fun i => ?_
    rw [← found i]
    simp [Cdvd.write, Cdvd.sized]
  unfold sceCdWriteRTC
  rw [Program.andThen_some (rfl : answer [0] s = some ((), (s.sized 1).write .scmdResult 0 [0]))]
  exact (Program.andThen_some rfl).trans date

theorem issue_writeRTC {s : Cdvd} (idle : s.scmdParamPos = 0) (params : Vector Byte 7) :
    ∃ t, issue console 0x09 params.toList s = some ((), t) ∧ t.scmdParamPos = 0 ∧ t.rtc = writtenDate params := by
  obtain ⟨t, ran, pos, bytes⟩ := forM_cdvdWrite17 params.toList s (by rw [idle, Vector.length_toList]; decide)
  rw [idle, Vector.length_toList] at pos
  have found (i : Fin 7) : (t.issued 0x09).bytes .scmdParam i = params[i] := by
    have same : (t.issued 0x09).bytes .scmdParam i = t.bytes .scmdParam i := by simp [Cdvd.issued, Cdvd.write]
    rw [same, bytes, idle, if_pos (Nat.zero_le _)]
    simp
  have wrote : sCommand console 0x09 (t.issued 0x09) = _ := sceCdWriteRTC_eq params pos found
  exact ⟨_, (Program.andThen_some ran).trans (cdvdWrite16_eq console wrote), rfl, rfl⟩

structure GivesDate (params : Vector Byte 7) : Prop where
  second : (btoi params[0]).toNat < 60
  month : 1 ≤ (btoi (params[5] &&& (0x7f : Byte))).toNat ∧ (btoi (params[5] &&& (0x7f : Byte))).toNat ≤ 12
  day : 1 ≤ (btoi params[4]).toNat ∧ (btoi params[4]).toNat ≤
    monthLength (firstYear + (btoi params[6]).toNat) (btoi (params[5] &&& (0x7f : Byte))).toNat
  year : (btoi params[6]).toNat < 100

theorem writtenDate_valid_iff (params : Vector Byte 7) : (writtenDate params).Valid ↔ GivesDate params := by
  constructor
  · intro valid
    exact ⟨valid.second, valid.date.month, valid.date.day, valid.year⟩
  · intro gives
    have minute : (btoi params[1] % (60 : Byte)).toNat < 60 := by
      rw [BitVec.toNat_umod]
      exact Nat.mod_lt _ (by decide)
    have hour : (btoi params[2] % (24 : Byte)).toNat < 24 := by
      rw [BitVec.toNat_umod]
      exact Nat.mod_lt _ (by decide)
    exact ⟨⟨⟨⟨gives.year, gives.month, gives.day⟩, hour⟩, minute⟩, gives.second⟩

/-! ## Runs -/

inductive ClockEvent
  | write (params : Vector Byte 7)
  | second

def clockAct : ClockEvent → Program Cdvd Unit
  | .write params => issue console 0x09 params.toList
  | .second => cdvdVsync console true

theorem second_valid {s : Cdvd} (valid : s.rtc.Valid) :
    ∃ t, cdvdVsync console true s = some ((), t) ∧ t.scmdParamPos = s.scmdParamPos ∧ t.rtc.Valid ∧
      t.rtc.seconds = (s.rtc.seconds + 1) % (century * 24 * 60 * 60) := by
  obtain ⟨next, ran, dated, seconds⟩ :=
    RTC.nextSecond_valid valid { s with drive := s.drive.updateTrayState console.toHost }
  refine ⟨{ s with drive := s.drive.updateTrayState console.toHost, rtc := next }, ?_, rfl, dated, seconds⟩
  unfold cdvdVsync
  rw [if_pos rfl]
  refine (Program.andThen_some rfl).trans ((Program.andThen_some rfl).trans ?_)
  rw [Program.andThen_some ran]
  rfl

theorem clockAct_step {s : Cdvd} (idle : s.scmdParamPos = 0) (valid : s.rtc.Valid) (event : ClockEvent) :
    ∃ t, clockAct console event s = some ((), t) ∧ t.scmdParamPos = 0 ∧
      (t.rtc.Valid ↔ ∀ params, event = .write params → GivesDate params) := by
  cases event with
  | write params =>
    obtain ⟨t, ran, pos, rtc⟩ := issue_writeRTC console idle params
    refine ⟨t, ran, pos, ?_⟩
    rw [rtc, writtenDate_valid_iff]
    constructor
    · rintro gives _ ⟨⟩
      exact gives
    · exact fun all => all params rfl
  | second =>
    obtain ⟨t, ran, pos, dated, -⟩ := second_valid console valid
    exact ⟨t, ran, pos.trans idle, iff_of_true dated nofun⟩

theorem forM_clockAct {events : List ClockEvent} : ∀ {s : Cdvd}, s.scmdParamPos = 0 → s.rtc.Valid →
    (∀ params, .write params ∈ events → GivesDate params) →
      ∃ t, events.forM (clockAct console) s = some ((), t) ∧ t.scmdParamPos = 0 ∧ t.rtc.Valid := by
  induction events with
  | nil => exact fun {s} idle valid _ => ⟨s, rfl, idle, valid⟩
  | cons event events ih =>
    intro s idle valid dates
    obtain ⟨t, ran, pos, keeps⟩ := clockAct_step console idle valid event
    have dated := keeps.mpr fun params same => dates params (same ▸ List.mem_cons_self)
    obtain ⟨u, rest, last⟩ := ih pos dated fun params member => dates params (List.mem_cons_of_mem _ member)
    exact ⟨u, (Program.andThen_some ran).trans rest, last⟩

theorem seconds_pass (n : Nat) : ∀ {s : Cdvd}, s.rtc.Valid →
    ∃ t, (List.replicate n ClockEvent.second).forM (clockAct console) s = some ((), t) ∧ t.rtc.Valid ∧
      t.rtc.seconds = (s.rtc.seconds + n) % (century * 24 * 60 * 60) := by
  induction n with
  | zero =>
    intro s valid
    have minutes := valid.minutes_lt
    have second := valid.second
    refine ⟨s, rfl, valid, (Nat.mod_eq_of_lt ?_).symm⟩
    unfold RTC.seconds
    omega
  | succ n ih =>
    intro s valid
    obtain ⟨t, ran, -, dated, seconds⟩ := second_valid console valid
    obtain ⟨u, rest, last, passed⟩ := ih dated
    refine ⟨u, (Program.andThen_some ran).trans rest, last, ?_⟩
    rw [passed, seconds, Nat.mod_add_mod, Nat.add_assoc, Nat.add_comm 1 n]

/-! ## What is read -/

structure Bcd (b : Byte) (n : Nat) : Prop where
  tens : b.toNat / 16 < 10
  ones : b.toNat % 16 < 10
  number : b.toNat / 16 * 10 + b.toNat % 16 = n

theorem btoi_toNat (b : Byte) : (btoi b).toNat = b.toNat / 16 * 10 + b.toNat % 16 := by
  have small := b.isLt
  simp only [btoi, BitVec.toNat_add, BitVec.toNat_mul, BitVec.toNat_udiv, BitVec.toNat_umod]
  simp
  omega

theorem itob_toNat {i : Byte} (below : i.toNat < 100) : (itob i).toNat = i.toNat / 10 * 16 + i.toNat % 10 := by
  simp only [itob, BitVec.toNat_add, BitVec.toNat_mul, BitVec.toNat_udiv, BitVec.toNat_umod]
  simp
  omega

theorem itob_bcd {i : Byte} (below : i.toNat < 100) : Bcd (itob i) i.toNat := by
  have digits := itob_toNat below
  constructor <;> omega

theorem Bcd.btoi {b : Byte} {n : Nat} (digits : Bcd b n) : (btoi b).toNat = n := (btoi_toNat b).trans digits.number

theorem Bcd.itob_btoi {b : Byte} {n : Nat} (digits : Bcd b n) : itob (Mechacon.btoi b) = b := by
  obtain ⟨tens, ones, number⟩ := digits
  have value := btoi_toNat b
  apply BitVec.eq_of_toNat_eq
  rw [itob_toNat (by omega), value]
  omega

structure BcdDate (params : Vector Byte 7) : Prop where
  second : ∃ n < 60, Bcd params[0] n
  minute : ∃ n < 60, Bcd params[1] n
  hour : ∃ n < 24, Bcd params[2] n
  date : ∃ date : Date, date.Valid ∧ Bcd params[4] date.day ∧ Bcd params[5] date.month ∧
    ∃ n < 100, date.year = firstYear + n ∧ Bcd params[6] n

/-- The bytes that `sceCdReadRTC` answers. -/
def RTC.answered (rtc : RTC) : List Byte :=
  [0, itob rtc.second, itob rtc.minute, itob rtc.hour, 0, itob rtc.day, itob rtc.month, itob rtc.year]

theorem cdReadRTC_eq (s : Cdvd) :
    ∃ t, cdvdWrite16 console 0x08 s = some ((), t) ∧ t.block .scmdResult 0 8 = s.rtc.answered ∧ t.rtc = s.rtc ∧
      t.scmdResultPos = 0 ∧ t.scmdResultCnt = 8 := by
  have ran : sCommand console 0x08 (s.issued 0x08) = some ((), ((s.issued 0x08).sized 8).write .scmdResult 0 s.rtc.answered) := rfl
  exact ⟨_, cdvdWrite16_eq console ran, rfl, rfl, rfl, rfl⟩

theorem RTC.Valid.answered {rtc : RTC} (valid : rtc.Valid) :
    Bcd (itob rtc.second) rtc.second.toNat ∧ Bcd (itob rtc.minute) rtc.minute.toNat ∧ Bcd (itob rtc.hour) rtc.hour.toNat ∧
      Bcd (itob rtc.day) rtc.day.toNat ∧ Bcd (itob rtc.month) rtc.month.toNat ∧ Bcd (itob rtc.year) rtc.year.toNat := by
  have day := valid.date.day.2.trans (monthLength_le _ _)
  have month := valid.date.month.2
  exact ⟨itob_bcd (valid.second.trans (by decide)), itob_bcd (valid.minute.trans (by decide)),
    itob_bcd (valid.hour.trans (by decide)), itob_bcd (Nat.lt_of_le_of_lt day (by decide)),
    itob_bcd (Nat.lt_of_le_of_lt month (by decide)), itob_bcd valid.year⟩

theorem BcdDate.answered {params : Vector Byte 7} (dated : BcdDate params) : (writtenDate params).answered =
    ([0, params[0], params[1], params[2], 0, params[4], params[5], params[6]] : List Byte) := by
  obtain ⟨_, _, second⟩ := dated.second
  obtain ⟨_, below, minute⟩ := dated.minute
  obtain ⟨_, early, hour⟩ := dated.hour
  obtain ⟨date, valid, day, month, _, _, _, year⟩ := dated.date
  have last := valid.month.2
  have minutes : btoi params[1] % (60 : Byte) = btoi params[1] := by
    apply BitVec.eq_of_toNat_eq
    rw [BitVec.toNat_umod, minute.btoi]
    exact Nat.mod_eq_of_lt below
  have hours : btoi params[2] % (24 : Byte) = btoi params[2] := by
    apply BitVec.eq_of_toNat_eq
    rw [BitVec.toNat_umod, hour.btoi]
    exact Nat.mod_eq_of_lt early
  have months : params[5] &&& (0x7f : Byte) = params[5] := by
    have value := month.number
    apply BitVec.eq_of_toNat_eq
    rw [BitVec.toNat_and]
    exact (Nat.and_two_pow_sub_one_eq_mod _ 7).trans (Nat.mod_eq_of_lt (by omega))
  simp only [RTC.answered, writtenDate, minutes, hours, months, second.itob_btoi, minute.itob_btoi, hour.itob_btoi,
    day.itob_btoi, month.itob_btoi, year.itob_btoi]

theorem dates_of_valid {events : List ClockEvent} : ∀ {s : Cdvd}, s.scmdParamPos = 0 → s.rtc.Valid →
    (∀ earlier, earlier <+: events → ∃ t, earlier.forM (clockAct console) s = some ((), t) ∧ t.rtc.Valid) →
      ∀ params, .write params ∈ events → GivesDate params := by
  induction events with
  | nil => exact fun _ _ _ params member => absurd member List.not_mem_nil
  | cons event events ih =>
    intro s idle valid all
    obtain ⟨t, ran, pos, keeps⟩ := clockAct_step console idle valid event
    have next (earlier : List ClockEvent) : (event :: earlier).forM (clockAct console) s = earlier.forM (clockAct console) t :=
      Program.andThen_some ran
    have dated : t.rtc.Valid := by
      obtain ⟨u, once, last⟩ := all [event] (List.prefix_append [event] events)
      have same := (Prod.mk.inj (Option.some.inj ((next []).symm.trans once))).2
      rwa [same]
    have rest := ih pos dated fun earlier first => by
      obtain ⟨u, went, last⟩ := all (event :: earlier) (List.cons_prefix_cons.mpr ⟨rfl, first⟩)
      exact ⟨u, (next earlier).symm.trans went, last⟩
    intro params member
    rcases List.mem_cons.mp member with same | later
    · exact keeps.mp dated params same.symm
    · exact rest params later

end

/-- Every state of a run has a valid clock exactly when every date that is written is one. From such a state the seconds
pass as in the calendar, and what is read are the digits of the clock, which are those of a date just written. -/
theorem clock_valid_iff (console : Console) (nvram : Nat → Byte) {rtc : RTC} (valid : rtc.Valid)
    (events : List ClockEvent) :
    ((∀ earlier, earlier <+: events →
        ∃ t, earlier.forM (clockAct console) (cdvdReset console nvram rtc) = some ((), t) ∧ t.rtc.Valid) ↔
      ∀ params, .write params ∈ events → GivesDate params) ∧
    ∀ t, events.forM (clockAct console) (cdvdReset console nvram rtc) = some ((), t) →
      (∀ params, .write params ∈ events → GivesDate params) →
      (∀ n, ∃ u, (List.replicate n ClockEvent.second).forM (clockAct console) t = some ((), u) ∧ u.rtc.Valid ∧
        u.rtc.seconds = (t.rtc.seconds + n) % (century * 24 * 60 * 60) ∧
        ∀ later : RTC, later.Valid → later.seconds = (t.rtc.seconds + n) % (century * 24 * 60 * 60) →
          u.rtc.fields = later.fields) ∧
      (∃ u, cdvdWrite16 console 0x08 t = some ((), u) ∧ u.block .scmdResult 0 8 = t.rtc.answered ∧
        Bcd (itob t.rtc.second) t.rtc.second.toNat ∧ Bcd (itob t.rtc.minute) t.rtc.minute.toNat ∧
        Bcd (itob t.rtc.hour) t.rtc.hour.toNat ∧ Bcd (itob t.rtc.day) t.rtc.day.toNat ∧
        Bcd (itob t.rtc.month) t.rtc.month.toNat ∧ Bcd (itob t.rtc.year) t.rtc.year.toNat) ∧
      ∀ params, BcdDate params → ∃ u v, issue console 0x09 params.toList t = some ((), u) ∧
        cdvdWrite16 console 0x08 u = some ((), v) ∧
        v.block .scmdResult 0 8 = ([0, params[0], params[1], params[2], 0, params[4], params[5], params[6]] : List Byte) := by
  have idle : (cdvdReset console nvram rtc).scmdParamPos = 0 := rfl
  refine ⟨⟨dates_of_valid console idle valid, fun dates earlier first => ?_⟩, fun t ran dates => ?_⟩
  · obtain ⟨t, ran, -, dated⟩ := forM_clockAct console idle valid fun params member => dates params (first.mem member)
    exact ⟨t, ran, dated⟩
  obtain ⟨t', went, pos, dated⟩ := forM_clockAct console idle valid dates
  obtain rfl : t = t' := (Prod.mk.inj (Option.some.inj (ran.symm.trans went))).2
  refine ⟨fun n => ?_, ?_, fun params written => ?_⟩
  · obtain ⟨u, passed, last, seconds⟩ := seconds_pass console n dated
    exact ⟨u, passed, last, seconds, fun later lasting same => RTC.seconds_injective last lasting (seconds.trans same.symm)⟩
  · obtain ⟨u, read, block, -⟩ := cdReadRTC_eq console t
    exact ⟨u, read, block, dated.answered⟩
  · obtain ⟨u, wrote, -, same⟩ := issue_writeRTC console pos params
    obtain ⟨v, read, block, -⟩ := cdReadRTC_eq console u
    exact ⟨u, v, wrote, read, by rw [block, same, written.answered]⟩

theorem newYear_valid : ({} : RTC).Valid := by
  have day : 1 ≤ monthLength firstYear 1 := monthLength_pos _ _
  exact ⟨⟨⟨⟨by decide, ⟨le_rfl, by decide⟩, le_rfl, day⟩, by decide⟩, by decide⟩, by decide⟩

theorem clock_valid_newYear :
    ((∀ earlier, earlier <+: [ClockEvent.second] →
        ∃ t, earlier.forM (clockAct bare) (cdvdReset bare (fun _ => 0) {}) = some ((), t) ∧ t.rtc.Valid) ↔
      ∀ params, .write params ∈ [ClockEvent.second] → GivesDate params) :=
  (clock_valid_iff bare (fun _ => 0) newYear_valid [ClockEvent.second]).1

/-- The sixtieth second is stored as it is written. -/
theorem clock_sixty : ¬∀ (console : Console) (nvram : Nat → Byte) (rtc : RTC) (events earlier : List ClockEvent),
    rtc.Valid → earlier <+: events →
      ∃ t, earlier.forM (clockAct console) (cdvdReset console nvram rtc) = some ((), t) ∧ t.rtc.Valid := by
  intro all
  have dates := dates_of_valid bare (s := started) rfl newYear_valid fun earlier first =>
    all bare (fun _ => 0) {} [.write #v[0x60, 0, 0, 0, 1, 1, 0]] earlier newYear_valid first
  have second := (dates _ List.mem_cons_self).second
  exact absurd second (by decide)

end Pcsx2.Mechacon

import Mathlib.Data.Nat.Find
import VissServer.Go.JsonNumbers

/-!
Times as the package time has them: the Gregorian calendar from the year 0 on, texts of the format
RFC 3339, and seconds and nanoseconds since 1970.
-/
namespace VissServer.Go

def isLeap (year : ℕ) : Bool := year % 4 = 0 && (year % 100 ≠ 0 || year % 400 = 0)

/-- The days from the year 0 to the beginning of a year. -/
def yearStart : ℕ → ℕ
  | 0 => 0
  | year + 1 => yearStart year + if isLeap year then 366 else 365

/-- The days of a year before a month, which counts from 1. -/
def monthStart (leap : Bool) (month : ℕ) : ℕ :=
  [0, 0, 31, 59, 90, 120, 151, 181, 212, 243, 273, 304, 334, 365].getD month 365 +
    if leap ∧ 2 < month then 1 else 0

def daysIn (year month : ℕ) : ℕ :=
  monthStart (isLeap year) (month + 1) - monthStart (isLeap year) month

/-- A date and a time of day in UTC. -/
structure DateTime where
  year : ℕ
  month : ℕ
  day : ℕ
  hour : ℕ
  minute : ℕ
  second : ℕ
  deriving DecidableEq

/-- The fields are those of a whole second. -/
structure DateTime.Valid (t : DateTime) : Prop where
  month : 1 ≤ t.month ∧ t.month ≤ 12
  day : 1 ≤ t.day ∧ t.day ≤ daysIn t.year t.month
  hour : t.hour < 24
  minute : t.minute < 60
  second : t.second < 60

/-- The days before a date. -/
def DateTime.days (t : DateTime) : ℕ :=
  yearStart t.year + monthStart (isLeap t.year) t.month + (t.day - 1)

/-- The seconds since the beginning of the year 0. -/
def DateTime.seconds (t : DateTime) : ℕ :=
  86400 * t.days + 3600 * t.hour + 60 * t.minute + t.second

/-- The seconds from the beginning of the year 0 to that of 1970. -/
def unixEpoch : ℕ := 62167219200

def DateTime.unix (t : DateTime) : ℤ := (t.seconds : ℤ) - unixEpoch

/-- The date and the time of day after so many seconds. -/
def dateTime (seconds : ℕ) : DateTime :=
  let days := seconds / 86400
  let year := Nat.findGreatest (fun y => yearStart y ≤ days) (days / 365)
  let yday := days - yearStart year
  let month := Nat.findGreatest (fun m => monthStart (isLeap year) m ≤ yday) 12
  { year, month
    day := yday - monthStart (isLeap year) month + 1
    hour := seconds % 86400 / 3600
    minute := seconds % 3600 / 60
    second := seconds % 60 }

/-! ## Texts -/

def digit (n : ℕ) : UInt8 := UInt8.ofNat (48 + n % 10)

/-- Two digits, the first of which may be 0. -/
def twoDigits (n : ℕ) : GoString := [digit (n / 10), digit n]

/-- The four digits of a year up to 9999. -/
def fourDigits (n : ℕ) : GoString := [digit (n / 1000), digit (n / 100), digit (n / 10), digit n]

def DateTime.dateText (t : DateTime) : GoString :=
  fourDigits t.year ++ str "-" ++ twoDigits t.month ++ str "-" ++ twoDigits t.day

def DateTime.clockText (t : DateTime) : GoString :=
  twoDigits t.hour ++ str ":" ++ twoDigits t.minute ++ str ":" ++ twoDigits t.second

/-- The method String of a time in UTC. -/
def DateTime.utcString (t : DateTime) : GoString :=
  t.dateText ++ str " " ++ t.clockText ++ str " +0000 UTC"

/-- The text of a whole second in UTC. -/
def DateTime.rfc3339 (t : DateTime) : GoString := t.dateText ++ str "T" ++ t.clockText ++ str "Z"

/-- The zone of the format RFC 3339, to the minute. -/
def zoneText (offset : ℤ) : GoString :=
  if offset = 0 then str "Z"
  else
    let zone := offset.tdiv 60
    (if zone < 0 then 45 else 43) ::
      (twoDigits (zone.natAbs / 60) ++ str ":" ++ twoDigits (zone.natAbs % 60))

def digitVal (c : UInt8) : ℕ := c.toNat - 48

/-- One or two digits, or two where the number of digits is fixed. -/
def getnum (fixed : Bool) : GoString → Option (ℕ × GoString)
  | [] => none
  | a :: s =>
    if isDigit a then
      match s with
      | [] => if fixed then none else some (digitVal a, s)
      | b :: rest =>
        if isDigit b then some (10 * digitVal a + digitVal b, rest)
        else if fixed then none else some (digitVal a, s)
    else none

def getYear : GoString → Option (ℕ × GoString)
  | a :: b :: c :: d :: s =>
    if isDigit a && isDigit b && isDigit c && isDigit d then
      some (1000 * digitVal a + 100 * digitVal b + 10 * digitVal c + digitVal d, s)
    else none
  | _ => none

/-- The nanoseconds of the digits behind a decimal point, as far as they go. -/
def nanoseconds (digits : GoString) : ℕ :=
  let digits := digits.take 9
  digits.foldl (fun n c => 10 * n + digitVal c) 0 * 10 ^ (9 - digits.length)

/-- A fraction of a second, which the layout does not have but a text may. -/
def getFraction : GoString → ℕ × GoString
  | a :: b :: s =>
    if (a = 46 ∨ a = 44) ∧ isDigit b then
      (nanoseconds ((b :: s).takeWhile isDigit), (b :: s).dropWhile isDigit)
    else (0, a :: b :: s)
  | s => (0, s)

/-- The seconds that the time zone is ahead of UTC. -/
def getZone : GoString → Option (ℤ × GoString)
  | 90 :: s => some (0, s)
  | sign :: a :: b :: colon :: c :: d :: s => do
      if colon ≠ 58 then none
      let (hours, _) ← getnum true [a, b]
      let (minutes, _) ← getnum true [c, d]
      if 24 < hours ∨ 60 < minutes then none
      if sign = 43 then some (((hours * 60 + minutes) * 60 : ℕ), s)
      else if sign = 45 then some (-((hours * 60 + minutes) * 60 : ℕ), s)
      else none
  | _ => none

/-- The date and the time of day at the beginning of a text. -/
def getDateTime (s : GoString) : Option (DateTime × GoString) := do
  let (year, s) ← getYear s
  let s ← expect 45 s
  let (month, s) ← getnum true s
  let s ← expect 45 s
  let (day, s) ← getnum true s
  let s ← expect 84 s
  let (hour, s) ← getnum false s
  let s ← expect 58 s
  let (minute, s) ← getnum true s
  let s ← expect 58 s
  let (second, s) ← getnum true s
  some ({ year, month, day, hour, minute, second }, s)

instance DateTime.decidableValid (t : DateTime) : Decidable t.Valid :=
  decidable_of_iff ((1 ≤ t.month ∧ t.month ≤ 12) ∧ (1 ≤ t.day ∧ t.day ≤ daysIn t.year t.month) ∧
    t.hour < 24 ∧ t.minute < 60 ∧ t.second < 60)
    ⟨fun h => ⟨h.1, h.2.1, h.2.2.1, h.2.2.2.1, h.2.2.2.2⟩,
      fun h => ⟨h.month, h.day, h.hour, h.minute, h.second⟩⟩

/-- A time: the fields that its location shows, and the seconds that this is ahead of UTC. -/
structure Time where
  clock : DateTime
  nanosecond : ℕ := 0
  offset : ℤ := 0
  deriving DecidableEq

/-- The zero value, which Parse gives with an error. -/
def Time.zero : Time := { clock := ⟨1, 1, 1, 0, 0, 0⟩ }

/-- Seconds since 1970, rounded down. -/
def Time.unix (t : Time) : ℤ := t.clock.unix - t.offset

def Time.unixNano (t : Time) : ℤ := t.unix * 1000000000 + t.nanosecond

/-- The text of a whole second in the zone of its location. -/
def Time.rfc3339 (t : Time) : GoString :=
  t.clock.dateText ++ str "T" ++ t.clock.clockText ++ zoneText t.offset

/-- time.Parse for the layout RFC3339. -/
def parseTime (s : GoString) : Option Time := do
  let (clock, s) ← getDateTime s
  let (nanosecond, s) := getFraction s
  let (offset, s) ← getZone s
  if clock.Valid ∧ s = [] then some { clock, nanosecond, offset } else none

/-! ## The calendar -/

theorem yearStart_succ (year : ℕ) :
    yearStart (year + 1) = yearStart year + monthStart (isLeap year) 13 := by
  rw [yearStart]
  cases isLeap year <;> rfl

theorem yearStart_mono {a b : ℕ} (h : a ≤ b) : yearStart a ≤ yearStart b := by
  induction h with
  | refl => exact le_rfl
  | step _ ih =>
    rw [Nat.succ_eq_add_one, yearStart_succ]
    omega

theorem monthStart_mono (leap : Bool) {a b : ℕ} (h : a ≤ b) (hb : b ≤ 13) :
    monthStart leap a ≤ monthStart leap b := by
  have hall : ∀ leap : Bool, ∀ b ≤ 13, ∀ a ≤ b, monthStart leap a ≤ monthStart leap b := by decide
  exact hall leap b hb a h

theorem le_yearStart (year : ℕ) : 365 * year ≤ yearStart year := by
  induction year with
  | zero => exact le_rfl
  | succ year ih =>
    rw [yearStart]
    split <;> omega

/-- The day of the year of a date. -/
theorem DateTime.Valid.yday {t : DateTime} (h : t.Valid) :
    monthStart (isLeap t.year) t.month + (t.day - 1) < monthStart (isLeap t.year) (t.month + 1) := by
  have hday := h.day
  unfold daysIn at hday
  omega

theorem DateTime.Valid.day_le {t : DateTime} (h : t.Valid) : t.day ≤ 31 := by
  have hlast : ∀ leap : Bool, ∀ m ≤ 12, monthStart leap (m + 1) - monthStart leap m ≤ 31 := by
    decide
  have hmonth := hlast (isLeap t.year) t.month h.month.2
  have hday := h.day
  unfold daysIn at hday
  omega

theorem DateTime.Valid.days_mem {t : DateTime} (h : t.Valid) :
    yearStart t.year ≤ t.days ∧ t.days < yearStart (t.year + 1) := by
  have hyday := h.yday
  have hmonth := h.month
  have hlast := monthStart_mono (isLeap t.year) (show t.month + 1 ≤ 13 by omega) le_rfl
  have hnext := yearStart_succ t.year
  unfold DateTime.days
  omega

theorem DateTime.Valid.seconds_mem {t : DateTime} (h : t.Valid) :
    86400 * yearStart t.year ≤ t.seconds ∧ t.seconds < 86400 * yearStart (t.year + 1) := by
  obtain ⟨hhour, hminute, hsecond⟩ := And.intro h.hour (And.intro h.minute h.second)
  have hdays := h.days_mem
  unfold DateTime.seconds
  omega

/-- A date is found again from the days before it. -/
theorem dateTime_seconds {t : DateTime} (h : t.Valid) : dateTime t.seconds = t := by
  obtain ⟨hhour, hminute, hsecond⟩ := And.intro h.hour (And.intro h.minute h.second)
  have hdays : t.seconds / 86400 = t.days := by
    unfold DateTime.seconds
    omega
  have hyday := h.yday
  have hmonth := h.month
  obtain ⟨hstart, hnext⟩ := h.days_mem
  have hyear : Nat.findGreatest (fun y => yearStart y ≤ t.days) (t.days / 365) = t.year := by
    rw [Nat.findGreatest_eq_iff]
    have hle := le_yearStart t.year
    refine ⟨by omega, fun _ => hstart, fun n hn _ => ?_⟩
    have hmono := yearStart_mono (show t.year + 1 ≤ n from hn)
    omega
  have hrest : t.days - yearStart t.year = monthStart (isLeap t.year) t.month + (t.day - 1) := by
    unfold DateTime.days
    omega
  have hfound : Nat.findGreatest (fun m => monthStart (isLeap t.year) m ≤
      monthStart (isLeap t.year) t.month + (t.day - 1)) 12 = t.month := by
    rw [Nat.findGreatest_eq_iff]
    refine ⟨hmonth.2, fun _ => Nat.le_add_right _ _, fun n hn hle => ?_⟩
    have hmono := monthStart_mono (isLeap t.year) (show t.month + 1 ≤ n from hn) (by omega)
    omega
  have hday := h.day.1
  simp only [dateTime, hdays, hyear, hrest, hfound]
  have hclock : t.seconds % 86400 / 3600 = t.hour ∧ t.seconds % 3600 / 60 = t.minute ∧
      t.seconds % 60 = t.second := by
    unfold DateTime.seconds
    omega
  rw [hclock.1, hclock.2.1, hclock.2.2]
  have hd : monthStart (isLeap t.year) t.month + (t.day - 1) -
      monthStart (isLeap t.year) t.month + 1 = t.day := by omega
  rw [hd]

theorem year_of_days (days : ℕ) :
    yearStart (Nat.findGreatest (fun y => yearStart y ≤ days) (days / 365)) ≤ days ∧
      days < yearStart (Nat.findGreatest (fun y => yearStart y ≤ days) (days / 365) + 1) := by
  refine ⟨Nat.findGreatest_spec (P := fun y => yearStart y ≤ days) (Nat.zero_le _)
    (Nat.zero_le _), ?_⟩
  by_contra hle
  have hstart := le_yearStart (Nat.findGreatest (fun y => yearStart y ≤ days) (days / 365) + 1)
  have hgreatest := Nat.le_findGreatest (P := fun y => yearStart y ≤ days)
    (show Nat.findGreatest (fun y => yearStart y ≤ days) (days / 365) + 1 ≤ days / 365 by omega)
    (by omega)
  omega

theorem month_of_yday {leap : Bool} {yday month : ℕ} (hyday : yday < monthStart leap 13)
    (hmonth : Nat.findGreatest (fun m => monthStart leap m ≤ yday) 12 = month) :
    (1 ≤ month ∧ month ≤ 12) ∧ monthStart leap month ≤ yday ∧
      yday < monthStart leap (month + 1) := by
  have hjanuary : monthStart leap 1 ≤ yday := by
    cases leap
    all_goals exact Nat.zero_le _
  have hfound := Nat.findGreatest_spec (P := fun m => monthStart leap m ≤ yday)
    (show 1 ≤ 12 by decide) hjanuary
  have hfirst := Nat.le_findGreatest (P := fun m => monthStart leap m ≤ yday)
    (show 1 ≤ 12 by decide) hjanuary
  have hlast := Nat.findGreatest_le (P := fun m => monthStart leap m ≤ yday) 12
  rw [hmonth] at hfound hfirst hlast
  refine ⟨⟨hfirst, hlast⟩, hfound, ?_⟩
  by_contra hle
  obtain rfl | hlt := Nat.eq_or_lt_of_le hlast
  · exact hle hyday
  · have hgreatest := Nat.le_findGreatest (P := fun m => monthStart leap m ≤ yday)
      (show month + 1 ≤ 12 from hlt) (not_lt.mp hle)
    omega

/-- Every number of seconds is that of a time. -/
theorem dateTime_spec (n : ℕ) : (dateTime n).Valid ∧ (dateTime n).seconds = n := by
  obtain ⟨hstart, hnext⟩ := year_of_days (n / 86400)
  generalize hyear : Nat.findGreatest (fun y => yearStart y ≤ n / 86400) (n / 86400 / 365) = year
    at hstart hnext
  rw [yearStart_succ] at hnext
  generalize hyday : n / 86400 - yearStart year = yday
  generalize hmonth : Nat.findGreatest (fun m => monthStart (isLeap year) m ≤ yday) 12 = month
  obtain ⟨hbounds, hfound, hmonthNext⟩ := month_of_yday (by omega) hmonth
  have heq : dateTime n = ⟨year, month, yday - monthStart (isLeap year) month + 1,
      n % 86400 / 3600, n % 3600 / 60, n % 60⟩ := by
    simp only [dateTime, hyear, hyday, hmonth]
  rw [heq]
  refine ⟨⟨hbounds, ⟨Nat.le_add_left 1 _, ?_⟩, ?_, ?_, ?_⟩, ?_⟩
  · simp only [daysIn]
    omega
  · exact Nat.div_lt_of_lt_mul (Nat.mod_lt n (by decide))
  · exact Nat.div_lt_of_lt_mul (Nat.mod_lt n (by decide))
  · exact Nat.mod_lt n (by decide)
  · simp only [DateTime.seconds, DateTime.days]
    omega

/-! ## Texts are read back -/

theorem toNat_digit10 (n : ℕ) : (digit n).toNat = 48 + n % 10 := by
  rw [digit, UInt8.toNat_ofNat']
  omega

theorem isDigit_digit (n : ℕ) : isDigit (digit n) = true := by
  have hn := toNat_digit10 n
  have h48 : (48 : UInt8).toNat = 48 := rfl
  have h57 : (57 : UInt8).toNat = 57 := rfl
  simp only [isDigit, Bool.and_eq_true, decide_eq_true_eq, UInt8.le_iff_toNat_le]
  omega

theorem digitVal_digit (n : ℕ) : digitVal (digit n) = n % 10 := by
  rw [digitVal, toNat_digit10]
  omega

theorem getnum_twoDigits (fixed : Bool) {n : ℕ} (hn : n < 100) (s : GoString) :
    getnum fixed (twoDigits n ++ s) = some (n, s) := by
  have hvalue : 10 * (n / 10 % 10) + n % 10 = n := by omega
  simp only [twoDigits, List.cons_append, List.nil_append, getnum, isDigit_digit, if_true,
    digitVal_digit, hvalue]

theorem getYear_fourDigits {n : ℕ} (hn : n < 10000) (s : GoString) :
    getYear (fourDigits n ++ s) = some (n, s) := by
  have hvalue : 1000 * (n / 1000 % 10) + 100 * (n / 100 % 10) + 10 * (n / 10 % 10) + n % 10 = n := by
    omega
  simp only [fourDigits, List.cons_append, List.nil_append, getYear, isDigit_digit, Bool.and_self,
    if_true, digitVal_digit, hvalue]

theorem getDateTime_text {t : DateTime} (h : t.Valid) (hyear : t.year < 10000) (s : GoString) :
    getDateTime (t.dateText ++ str "T" ++ t.clockText ++ s) = some (t, s) := by
  have hmonth := h.month
  have hhour := h.hour
  have hminute := h.minute
  have hsecond := h.second
  have hday : t.day < 100 := by
    have hle := h.day_le
    omega
  have htext : t.dateText ++ str "T" ++ t.clockText ++ s =
      fourDigits t.year ++ 45 :: (twoDigits t.month ++ 45 :: (twoDigits t.day ++ 84 ::
        (twoDigits t.hour ++ 58 :: (twoDigits t.minute ++ 58 :: (twoDigits t.second ++ s))))) := by
    simp only [DateTime.dateText, DateTime.clockText, List.append_assoc]
    rfl
  rw [htext, getDateTime]
  simp only [getYear_fourDigits hyear, expect_self, getnum_twoDigits _ (show t.month < 100 by omega),
    getnum_twoDigits _ hday, getnum_twoDigits _ (show t.hour < 100 by omega),
    getnum_twoDigits _ (show t.minute < 100 by omega),
    getnum_twoDigits _ (show t.second < 100 by omega), Option.bind_eq_bind, Option.bind_some]

/-- The text of a whole second gives this second. -/
theorem parseTime_text {t : DateTime} (h : t.Valid) (hyear : t.year < 10000) :
    parseTime t.rfc3339 = some { clock := t } := by
  rw [parseTime, DateTime.rfc3339, getDateTime_text h hyear]
  have hfraction : getFraction (str "Z") = (0, str "Z") := rfl
  have hzone : getZone (str "Z") = some (0, []) := rfl
  simp only [Option.bind_eq_bind, Option.bind_some, hfraction, hzone, h, and_self, if_true]

/-- A text that does not start with a digit is no time. -/
theorem parseTime_eq_none {c : UInt8} (hc : isDigit c = false) (s : GoString) :
    parseTime (c :: s) = none := by
  have hyear : getYear (c :: s) = none := by
    unfold getYear
    split
    · next heq =>
      obtain ⟨rfl, -⟩ := List.cons.inj heq
      simp [hc]
    · rfl
  rw [parseTime, getDateTime, hyear]
  rfl

theorem ne_digit {c : UInt8} (hc : c < 45) (n : ℕ) : c ≠ digit n := by
  intro heq
  have hn := toNat_digit10 n
  rw [← heq] at hn
  have hlt := UInt8.lt_iff_toNat_lt.mp hc
  have h45 : (45 : UInt8).toNat = 45 := rfl
  omega

/-- The digits and the signs of a text hold no plus and no space. -/
theorem DateTime.notMem_date (t : DateTime) {c : UInt8} (hc : c < 45) : c ∉ t.dateText := by
  have hdash : c ≠ 45 := by
    rintro rfl
    exact absurd hc (by decide)
  simp [DateTime.dateText, fourDigits, twoDigits, ne_digit hc, show str "-" = [45] from rfl, hdash]

theorem DateTime.notMem_clock (t : DateTime) {c : UInt8} (hc : c < 45) : c ∉ t.clockText := by
  have hcolon : c ≠ 58 := by
    rintro rfl
    exact absurd hc (by decide)
  simp [DateTime.clockText, twoDigits, ne_digit hc, show str ":" = [58] from rfl, hcolon]

end VissServer.Go

import VissServer.Go.Time
import VissServer.Utils.Codecs

/-!
The time that the server puts into its messages where its clock shows a local time, and what the
two compressions of times make of it.
-/
namespace VissServer.Utils

open Go

/-- The time of a clock that is some seconds ahead of UTC. -/
def localTime (utc : DateTime) (offset : ℤ) : Time :=
  { clock := dateTime (utc.seconds + offset).toNat, offset }

/-- GetRfcTime. -/
def getRfcTime (now : Time) : MayPanic GoString := do
  let withTimeZone := now.rfc3339
  if (← byteAt withTimeZone (withTimeZone.length - 6)) = 43 then
    some ((← slice withTimeZone 0 (withTimeZone.length - 6)) ++ str "Z")
  else some withTimeZone

/-- CompressTS: 0 where the text is no time. -/
def compressTS32 (ts : GoString) : Int32 :=
  match parseTime ts with
  | none => 0
  | some t => Int32.ofInt t.unix

/-- DecompressTs. -/
def decompressTs32 (tsCompressed : Int32) : MayPanic GoString := do
  let utcZone := (dateTime (tsCompressed.toInt + unixEpoch).toNat).utcString
  let zoneIndex := index utcZone (str "+")
  let utcTime := replaceFirst (← slice utcZone 0 (zoneIndex - 1)) (str " ") (str "T")
  some (utcTime ++ str "Z")

/-- The text is that of a time at this instant. -/
def Denotes (ts : GoString) (utc : DateTime) : Prop :=
  (parseTime ts).map Time.unix = some utc.unix

instance (ts : GoString) (utc : DateTime) : Decidable (Denotes ts utc) :=
  inferInstanceAs (Decidable (_ = _))

/-- The text of GetRfcTime and what the compressions keep of it are times at the instant at which
the text was made. -/
structure KeepsInstant (utc : DateTime) (ts : GoString) : Prop where
  text : Denotes ts utc
  bytes : ∃ code ts', compressTS (quoted ts) = some code ∧ decompressTs code = some (quoted ts') ∧
    Denotes ts' utc
  seconds : ∃ ts', decompressTs32 (compressTS32 ts) = some ts' ∧ Denotes ts' utc

/-! ## The text of the server -/

/-- A text without a zone, or with the zone of the clock. -/
theorem getRfcTime_eq (now : Time) :
    ∃ zone, getRfcTime now = some (now.clock.dateText ++ str "T" ++ now.clock.clockText ++ zone) ∧
      (now.offset = 0 → zone = str "Z") := by
  by_cases hzero : now.offset = 0
  · have hbyte : byteAt now.rfc3339 (now.rfc3339.length - 6) =
        some (digit (now.clock.minute / 10)) := by
      rw [Time.rfc3339, zoneText, if_pos hzero]
      rfl
    refine ⟨str "Z", ?_, fun _ => rfl⟩
    simp only [getRfcTime, hbyte, Option.bind_eq_bind, Option.bind_some,
      if_neg (ne_digit (show (43 : UInt8) < 45 by decide) _).symm]
    rw [Time.rfc3339, zoneText, if_pos hzero]
  · generalize hsign : (if now.offset.tdiv 60 < 0 then 45 else 43 : UInt8) = sign
    have htext : now.rfc3339 = now.clock.dateText ++ str "T" ++ now.clock.clockText ++
        (sign :: (Go.twoDigits ((now.offset.tdiv 60).natAbs / 60) ++ str ":" ++
          Go.twoDigits ((now.offset.tdiv 60).natAbs % 60))) := by
      rw [Time.rfc3339, zoneText, if_neg hzero, ← hsign]
    have hbyte : byteAt now.rfc3339 (now.rfc3339.length - 6) = some sign := by
      rw [htext]
      rfl
    have hfront : slice now.rfc3339 0 (now.rfc3339.length - 6) =
        some (now.clock.dateText ++ str "T" ++ now.clock.clockText) := by
      rw [htext]
      rfl
    simp only [getRfcTime, hbyte, hfront, Option.bind_eq_bind, Option.bind_some]
    by_cases hplus : sign = 43
    · exact ⟨str "Z", by rw [if_pos hplus], fun _ => rfl⟩
    · exact ⟨_, by rw [if_neg hplus, htext], fun heq => absurd heq hzero⟩

/-! ## Four bytes -/

/-- A time with the year that four bytes keep of it. -/
def inDecade (t : DateTime) : DateTime := { t with year := 2020 + t.year % 10 }

/-- The fields of a time that go into four bytes. -/
def timestampOf {t : DateTime} (h : t.Valid) : Timestamp :=
  { year := t.year % 10
    month := t.month
    day := t.day
    hour := t.hour
    minute := t.minute
    second := t.second
    year_lt := Nat.mod_lt _ (by decide)
    month_mem := h.month
    day_mem := ⟨h.day.1, h.day_le⟩
    hour_lt := h.hour
    minute_lt := h.minute
    second_lt := h.second }

theorem twoDigits_eq {n : ℕ} (h : n < 100) : Utils.twoDigits n = Go.twoDigits n := by
  have hall : ∀ n < 100, Utils.twoDigits n = Go.twoDigits n := by decide
  exact hall n h

theorem timestampOf_text {t : DateTime} (h : t.Valid) :
    (timestampOf h).text = (inDecade t).rfc3339 := by
  have hyear : ∀ n < 10, fourDigits (2020 + n) = [50, 48, 50, UInt8.ofNat (48 + n)] := by
    decide
  have hmonth := h.month
  have hday := h.day_le
  have hhour := h.hour
  have hminute := h.minute
  have hsecond := h.second
  simp only [Timestamp.text, timestampOf, DateTime.rfc3339, DateTime.dateText, DateTime.clockText,
    inDecade, hyear _ (Nat.mod_lt _ (by decide : 0 < 10)),
    twoDigits_eq (show t.month < 100 by omega), twoDigits_eq (show t.day < 100 by omega),
    twoDigits_eq (show t.hour < 100 by omega), twoDigits_eq (show t.minute < 100 by omega),
    twoDigits_eq (show t.second < 100 by omega)]
  rfl

/-- compressTS finds the fields of a time whatever its century and its zone. -/
theorem timestampOf_slices {t : DateTime} (h : t.Valid) (zone : GoString) :
    (timestampOf h).Slices (quoted (t.dateText ++ str "T" ++ t.clockText ++ zone)) := by
  have htext : quoted (t.dateText ++ str "T" ++ t.clockText ++ zone) =
      34 :: (t.dateText ++ str "T" ++ t.clockText) ++ (zone ++ [34]) := by
    simp only [quoted, List.append_assoc, List.cons_append]
  have hmonth := h.month
  have hday := h.day_le
  have hhour := h.hour
  have hminute := h.minute
  have hsecond := h.second
  rw [htext]
  refine ⟨slice_front ?_ _, slice_front ?_ _, slice_front ?_ _, slice_front ?_ _,
    slice_front ?_ _, rfl⟩
  · rw [timestampOf, twoDigits_eq (show t.second < 100 by omega)]
    rfl
  · rw [timestampOf, twoDigits_eq (show t.minute < 100 by omega)]
    rfl
  · rw [timestampOf, twoDigits_eq (show t.hour < 100 by omega)]
    rfl
  · rw [timestampOf, twoDigits_eq (show t.day < 100 by omega)]
    rfl
  · rw [timestampOf, twoDigits_eq (show t.month < 100 by omega)]
    rfl

theorem decompressTs_compressTS {t : DateTime} (h : t.Valid) (zone : GoString) :
    ∃ code, compressTS (quoted (t.dateText ++ str "T" ++ t.clockText ++ zone)) = some code ∧
      decompressTs code = some (quoted (inDecade t).rfc3339) := by
  refine ⟨(timestampOf h).bytes, (timestampOf_slices h zone).compressTS_eq, ?_⟩
  have hread := decompressTs_bytes (timestampOf h) []
  rwa [List.append_nil, timestampOf_text] at hread

/-! ## Four bytes of seconds -/

theorem decompressTs32_eq (tsCompressed : Int32) :
    decompressTs32 tsCompressed =
      some (dateTime (tsCompressed.toInt + unixEpoch).toNat).rfc3339 := by
  generalize ht : dateTime (tsCompressed.toInt + unixEpoch).toNat = t
  have hzone : index t.utcString (str "+") = 20 := by
    have hplus : (43 : UInt8) ∉ t.dateText ++ str " " ++ t.clockText ++ str " " := by
      simp only [List.mem_append, not_or]
      exact ⟨⟨⟨t.notMem_date (by decide), by decide⟩, t.notMem_clock (by decide)⟩, by decide⟩
    have hindex := index_byte_append hplus (str "0000 UTC")
    rw [List.append_assoc] at hindex
    exact hindex
  have hslice : slice t.utcString 0 19 = some (t.dateText ++ str " " ++ t.clockText) := rfl
  have hspace : index? (str " ") (t.dateText ++ str " " ++ t.clockText) = some 10 := by
    have hindex := index?_append (t.notMem_date (by decide : (32 : UInt8) < 45)) [] t.clockText
    rw [List.append_assoc]
    exact hindex
  have hreplace : replaceFirst (t.dateText ++ str " " ++ t.clockText) (str " ") (str "T") =
      t.dateText ++ str "T" ++ t.clockText := by
    rw [replaceFirst, hspace]
    rfl
  simp only [decompressTs32, ht, hzone, Int.reduceSub, hslice, Option.bind_eq_bind,
    Option.bind_some, hreplace]
  rfl

theorem yearStart_decade : yearStart 2019 = 737425 ∧ yearStart 2020 = 737790 ∧
    yearStart 2029 = 741078 ∧ yearStart 2030 = 741443 ∧ yearStart 2031 = 741808 := by
  decide +kernel

theorem decompressTs32_compressTS32 {t : DateTime} (h : t.Valid) (hlow : 2020 ≤ t.year)
    (hhigh : t.year ≤ 2029) : decompressTs32 (compressTS32 t.rfc3339) = some t.rfc3339 := by
  obtain ⟨-, hstart, -, hend, -⟩ := yearStart_decade
  have hmem := h.seconds_mem
  have hfirst := yearStart_mono hlow
  have hlast := yearStart_mono (show t.year + 1 ≤ 2030 by omega)
  have hunix : ({ clock := t } : Time).unix = (t.seconds : ℤ) - unixEpoch := sub_zero _
  have hint : (Int32.ofInt ({ clock := t } : Time).unix).toInt = (t.seconds : ℤ) - unixEpoch := by
    rw [hunix, unixEpoch]
    apply Int32.toInt_ofInt_of_le
    all_goals omega
  rw [decompressTs32_eq, compressTS32, parseTime_text h (by omega)]
  simp only [hint, Int.sub_add_cancel, Int.toNat_natCast, dateTime_seconds h]

/-! ## The offsets at which the instant is kept -/

theorem localTime_zero {utc : DateTime} (h : utc.Valid) : localTime utc 0 = { clock := utc } := by
  simp only [localTime, Int.add_zero, Int.toNat_natCast, dateTime_seconds h]

/-- The texts at a clock that shows UTC. -/
theorem keepsInstant_utc {utc : DateTime} (h : utc.Valid) (hlow : 2020 ≤ utc.year)
    (hhigh : utc.year ≤ 2029) : KeepsInstant utc utc.rfc3339 := by
  have hdenotes : Denotes utc.rfc3339 utc := by
    rw [Denotes, parseTime_text h (by omega), Option.map_some, Time.unix, Int.sub_zero]
  have hdecade : inDecade utc = utc := by
    have hyear : 2020 + utc.year % 10 = utc.year := by omega
    rw [inDecade, hyear]
  refine ⟨hdenotes, ?_, _, decompressTs32_compressTS32 h hlow hhigh, hdenotes⟩
  obtain ⟨code, hcompress, hdecompress⟩ := decompressTs_compressTS h (str "Z")
  rw [hdecade] at hdecompress
  exact ⟨code, utc.rfc3339, hcompress, hdecompress, hdenotes⟩

/-- A clock that is within a hundred hours of the decade shows a year of it, or the one before or
after. -/
theorem localTime_clock {utc : DateTime} (h : utc.Valid) (hlow : 2020 ≤ utc.year)
    (hhigh : utc.year ≤ 2029) {offset : ℤ} (hoffset : offset.natAbs < 360000) :
    (localTime utc offset).clock.Valid ∧
      ((localTime utc offset).clock.seconds : ℤ) = utc.seconds + offset ∧
      2019 ≤ (localTime utc offset).clock.year ∧ (localTime utc offset).clock.year ≤ 2030 := by
  obtain ⟨-, hstart, -, hend, hafter⟩ := yearStart_decade
  obtain ⟨hvalid, hseconds⟩ := dateTime_spec (utc.seconds + offset).toNat
  have hmem := h.seconds_mem
  have hfirst := yearStart_mono hlow
  have hlast := yearStart_mono (show utc.year + 1 ≤ 2030 by omega)
  have hlocal := hvalid.seconds_mem
  refine ⟨hvalid, ?_, ?_, ?_⟩
  · simp only [localTime]
    omega
  all_goals
    simp only [localTime]
    by_contra hyear
  · have hbefore := yearStart_mono
      (show (dateTime (utc.seconds + offset).toNat).year + 1 ≤ 2019 by omega)
    obtain ⟨hbeforeStart, -⟩ := yearStart_decade
    omega
  · have hbehind := yearStart_mono
      (show 2031 ≤ (dateTime (utc.seconds + offset).toNat).year by omega)
    omega

/-- The years next to the decade have no day that the decade lacks. -/
theorem inDecade_valid {t : DateTime} (h : t.Valid) (hlow : 2019 ≤ t.year)
    (hhigh : t.year ≤ 2030) : (inDecade t).Valid := by
  have hdays : ∀ leap : Bool, ∀ m ≤ 12, monthStart false (m + 1) - monthStart false m ≤
      monthStart leap (m + 1) - monthStart leap m := by decide
  have hday : t.day ≤ daysIn (2020 + t.year % 10) t.month := by
    by_cases hinside : 2020 ≤ t.year ∧ t.year ≤ 2029
    · rw [show 2020 + t.year % 10 = t.year by omega]
      exact h.day.2
    · have hoff : t.year = 2019 ∨ t.year = 2030 := by omega
      have hleap : isLeap t.year = false := by
        obtain heq | heq := hoff
        all_goals
          rw [heq]
          decide
      have hmonth := h.day.2
      rw [daysIn, hleap] at hmonth
      exact hmonth.trans (hdays _ t.month h.month.2)
  exact ⟨h.month, ⟨h.day.1, hday⟩, h.hour, h.minute, h.second⟩

theorem eq_zero_of_keeps {utc : DateTime} (h : utc.Valid) (hlow : 2020 ≤ utc.year)
    (hhigh : utc.year ≤ 2029) {offset : ℤ} (hoffset : offset.natAbs < 360000) {ts : GoString}
    (hts : getRfcTime (localTime utc offset) = some ts) (hkeeps : KeepsInstant utc ts) :
    offset = 0 := by
  obtain ⟨hvalid, hseconds, hlocalLow, hlocalHigh⟩ := localTime_clock h hlow hhigh hoffset
  obtain ⟨zone, htext, -⟩ := getRfcTime_eq (localTime utc offset)
  generalize (localTime utc offset).clock = clock at hvalid hseconds hlocalLow hlocalHigh htext
  obtain rfl := Option.some.inj (hts.symm.trans htext)
  obtain ⟨code, ts', hcompress, hdecompress, hdenotes⟩ := hkeeps.bytes
  obtain ⟨code', hcompress', hdecompress'⟩ := decompressTs_compressTS hvalid zone
  obtain rfl := Option.some.inj (hcompress'.symm.trans hcompress)
  have hread := Option.some.inj (hdecompress.symm.trans hdecompress')
  have hinside := inDecade_valid hvalid hlocalLow hlocalHigh
  have hinstant : (inDecade clock).seconds = utc.seconds := by
    have htexts : ts' = (inDecade clock).rfc3339 := by simpa [quoted] using hread
    have hyear : (inDecade clock).year < 10000 := by
      simp only [inDecade]
      omega
    rw [htexts, Denotes, parseTime_text hinside hyear, Option.map_some, Option.some.injEq,
      Time.unix, DateTime.unix, DateTime.unix] at hdenotes
    simp only at hdenotes
    omega
  by_cases hdecade : 2020 ≤ clock.year ∧ clock.year ≤ 2029
  · have hsame : inDecade clock = clock := by
      rw [inDecade, show 2020 + clock.year % 10 = clock.year by omega]
    rw [hsame] at hinstant
    omega
  · -- The clock shows 2019 or 2030, ten years from the year that the bytes tell.
    have hfar : (inDecade clock).year = 2029 ∧ clock.year = 2019 ∨
        (inDecade clock).year = 2020 ∧ clock.year = 2030 := by
      simp only [inDecade]
      omega
    obtain ⟨-, hstart, hlast, hend, -⟩ := yearStart_decade
    have hmem := hvalid.seconds_mem
    have hmem' := hinside.seconds_mem
    obtain ⟨hyear', hyear⟩ | ⟨hyear', hyear⟩ := hfar
    all_goals
      rw [hyear] at hmem
      rw [hyear'] at hmem'
    · have hnext := yearStart_mono (show 2019 + 1 ≤ 2020 by decide)
      omega
    · have hnext := yearStart_mono (show 2020 + 1 ≤ 2029 by decide)
      omega

/-- The texts denote the instant exactly where the clock of the server shows UTC. -/
theorem keepsInstant_iff {utc : DateTime} (h : utc.Valid) (hlow : 2020 ≤ utc.year)
    (hhigh : utc.year ≤ 2029) {offset : ℤ} (hoffset : offset.natAbs < 360000) :
    (∃ ts, getRfcTime (localTime utc offset) = some ts ∧ KeepsInstant utc ts) ↔ offset = 0 := by
  constructor
  · rintro ⟨ts, hts, hkeeps⟩
    exact eq_zero_of_keeps h hlow hhigh hoffset hts hkeeps
  · rintro rfl
    obtain ⟨zone, htext, hzone⟩ := getRfcTime_eq (localTime utc 0)
    rw [hzone rfl, localTime_zero h] at htext
    rw [localTime_zero h]
    exact ⟨utc.rfc3339, htext, keepsInstant_utc h hlow hhigh⟩

theorem keepsInstant_iff_noon :
    (∃ ts, getRfcTime (localTime ⟨2024, 2, 29, 12, 0, 0⟩ (-18000)) = some ts ∧
      KeepsInstant ⟨2024, 2, 29, 12, 0, 0⟩ ts) ↔ (-18000 : ℤ) = 0 :=
  keepsInstant_iff (by decide) (by decide) (by decide) (by decide)

/-- A server two hours ahead of UTC. -/
theorem getRfcTime_two_hours :
    getRfcTime (localTime ⟨2020, 5, 1, 13, 34, 35⟩ 7200) = some (str "2020-05-01T15:34:35Z") ∧
      ¬ KeepsInstant ⟨2020, 5, 1, 13, 34, 35⟩ (str "2020-05-01T15:34:35Z") := by
  have htext : getRfcTime (localTime ⟨2020, 5, 1, 13, 34, 35⟩ 7200) =
      some (str "2020-05-01T15:34:35Z") := by decide +kernel
  have hother : ¬ Denotes (str "2020-05-01T15:34:35Z") ⟨2020, 5, 1, 13, 34, 35⟩ := by
    decide +kernel
  exact ⟨htext, fun hkeeps => hother hkeeps.text⟩

end VissServer.Utils

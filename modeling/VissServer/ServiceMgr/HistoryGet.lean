import Mathlib.Algebra.Order.Ring.Rat
import Mathlib.Tactic.Linarith
import VissServer.Go.Slices
import VissServer.Go.Time
import VissServer.ServiceMgr.History

/-!
History requests (serviceMgr.go): the samples of a recording from the present back over a period.
The period is an ISO 8601 duration, which processHistoryGet parses as a time.
-/
namespace VissServer.ServiceMgr

open Go Utils

/-- The error is ignored where this is called. -/
def convertFromIsoTime (isoTime : GoString) : Time := (parseTime isoTime).getD .zero

def getDPTs (dp : GoString) : GoString := (unpackDataPoint dp).2

/-- The time in nanoseconds up to which the samples are returned. -/
def oldTs (currentTs : ℤ) (periodTime : Time) : ℤ :=
  currentTs + 3600000000000 * ((24 * periodTime.clock.day + periodTime.clock.hour) * (-1)) -
    60000000000 * periodTime.clock.minute - 1000000000 * periodTime.clock.second

def storedTs (dp : GoString) : ℤ := (convertFromIsoTime (getDPTs dp)).unixNano

/-- The loop from an index on, for so many passes: it stops at a sample before the given time. -/
def countMatches (buffer : List GoString) (old : ℤ) : ℕ → ℕ → MayPanic ℕ
  | 0, i => some i
  | passes + 1, i => do
      let dp ← buffer[i]?
      if storedTs dp < old then some i else countMatches buffer old passes (i + 1)

def historicDp (dp : GoString) : GoString :=
  str "\x7b\"value\":\"" ++ getDPValue dp ++ str "\", \"ts\":\"" ++ getDPTs dp ++ str "\"\x7d"

def historicDataPack (buffer : List GoString) (count : ℕ) : MayPanic GoString := do
  let dps ← (List.range count).mapM fun i => buffer[i]?
  let dp := (if count > 1 then str "[" else []) ++
    dps.flatMap fun dp => historicDp dp ++ str ", "
  let dp ← if count > 0 then slice dp 0 (dp.length - 2) else some dp
  some (if count > 1 then dp ++ str "]" else dp)

/-- The index -1 panics at the condition of the loop. -/
def processHistoryGet (historyList : List HistoryList) (currentTs : ℤ) (request : GoString) :
    MayPanic GoString := do
  let requestMap := requestMapOf request
  let path ← asString (valueAt requestMap (str "path"))
  let index := getHistoryListIndex path historyList
  let period ← asString (valueAt requestMap (str "period"))
  let k ← index
  let signal ← historyList[k]?
  let old := oldTs currentTs (convertFromIsoTime period)
  let count ← countMatches signal.buffer old signal.bufIndex.toNat 0
  historicDataPack signal.buffer count

/-! ## Durations -/

/-- A number, maybe with a decimal fraction, in front of the letter of a unit. -/
def durationPart (unit : UInt8) (s : GoString) : Option (ℚ × GoString) :=
  let whole := s.takeWhile isDigit
  let value (digits : GoString) : ℕ := digits.foldl (fun n c => 10 * n + digitVal c) 0
  if whole = [] then none
  else
    match s.dropWhile isDigit with
    | [] => none
    | c :: s =>
        if c = unit then some (value whole, s)
        else if c = 46 ∨ c = 44 then
          let fraction := s.takeWhile isDigit
          match s.dropWhile isDigit with
          | [] => none
          | c :: s =>
              if c = unit ∧ fraction ≠ [] then
                some (value whole + value fraction / 10 ^ fraction.length, s)
              else none
        else none

/-- Parts in the order of the units, each of which may be left out, in seconds. -/
def durationParts : List (UInt8 × ℚ) → GoString → Option ℚ
  | [], s => if s = [] then some 0 else none
  | (unit, seconds) :: units, s =>
      match durationPart unit s with
      | some (n, s) => (durationParts units s).map fun rest => n * seconds + rest
      | none => durationParts units s

/-- The seconds of an ISO 8601 duration of days, hours, minutes and seconds. -/
def isoDuration : GoString → Option ℚ
  | 80 :: s =>
      let clock (s : GoString) := durationParts [(72, 3600), (77, 60), (83, 1)] s
      match durationPart 68 s with
      | some (n, []) => some (n * 86400)
      | some (n, 84 :: s) => if s = [] then none else (clock s).map fun rest => n * 86400 + rest
      | some _ => none
      | none =>
          match s with
          | 84 :: s => if s = [] then none else clock s
          | _ => none
  | _ => none

example : isoDuration (str "P2DT12H") = some 216000 := by decide +kernel

/-! ## What a request returns -/

/-- The data points of the given samples with commas between them. -/
def commaSeparated : List GoString → GoString
  | [] => []
  | [dp] => historicDp dp
  | dp :: dp' :: dps => historicDp dp ++ str ", " ++ commaSeparated (dp' :: dps)

def dataPackOf (dps : List GoString) : GoString :=
  if 1 < dps.length then str "[" ++ commaSeparated dps ++ str "]" else commaSeparated dps

def HistoryList.samples (signal : HistoryList) : List GoString :=
  signal.buffer.take signal.bufIndex.toNat

/-- The buffer holds as many samples as its index says. -/
def HistoryList.Filled (signal : HistoryList) : Prop :=
  0 ≤ signal.bufIndex ∧ signal.bufIndex ≤ signal.buffer.length

def Chronological (samples : List GoString) : Prop :=
  samples.Pairwise fun dp dp' => storedTs dp ≤ storedTs dp'

/-- Not older than so many seconds. -/
def Recent (currentTs : ℤ) (seconds : ℚ) (dp : GoString) : Prop :=
  (currentTs : ℚ) - seconds * 1000000000 ≤ storedTs dp

instance (currentTs : ℤ) (seconds : ℚ) (dp : GoString) : Decidable (Recent currentTs seconds dp) :=
  inferInstanceAs (Decidable (_ ≤ _))

/-- Where the first sample is of the last 24 hours it is of the period; where it is not, the last
sample is not of the period. -/
def Uncut (currentTs : ℤ) (seconds : ℚ) (samples : List GoString) : Prop :=
  ∀ first ∈ samples.head?, ∀ last ∈ samples.getLast?,
    if Recent currentTs 86400 first then Recent currentTs seconds first
    else ¬ Recent currentTs seconds last

section Gets

variable {dps dps' buffer : List GoString} {old currentTs : ℤ} {seconds : ℚ}

/-! ## The text -/

theorem mapM_getElem? {n : ℕ} (hn : n ≤ buffer.length) :
    ((List.range n).mapM fun i => buffer[i]?) = some (buffer.take n) := by
  induction n with
  | zero => rfl
  | succ n ih =>
    have hget : buffer[n]? = some buffer[n] := List.getElem?_eq_getElem hn
    rw [List.range_succ, List.mapM_append, ih (by omega), List.take_add_one, hget]
    simp [hget]

theorem flatMap_points (hne : dps ≠ []) :
    (dps.flatMap fun dp => historicDp dp ++ str ", ") = commaSeparated dps ++ str ", " := by
  induction dps with
  | nil => exact absurd rfl hne
  | cons dp rest ih =>
    cases rest with
    | nil => simp [commaSeparated]
    | cons dp' rest =>
      rw [List.flatMap_cons, ih (List.cons_ne_nil dp' rest), commaSeparated]
      simp

theorem slice_comma (s : GoString) :
    slice (s ++ str ", ") 0 ((s ++ str ", ").length - 2) = some s := by
  apply slice_append [] (str ", ") rfl rfl
  have hcomma : (str ", ").length = 2 := rfl
  rw [List.length_append, List.length_nil]
  omega

theorem historicDataPack_eq {count : ℕ} (hcount : count ≤ buffer.length) :
    historicDataPack buffer count = some (dataPackOf (buffer.take count)) := by
  have hlength : (buffer.take count).length = count := by
    rw [List.length_take]
    omega
  rw [historicDataPack, mapM_getElem? hcount, dataPackOf, hlength]
  by_cases hzero : count = 0
  · subst hzero
    rfl
  · have hne : buffer.take count ≠ [] := by
      intro hnil
      rw [hnil, List.length_nil] at hlength
      omega
    have hpos : count > 0 := by omega
    simp only [Option.bind_eq_bind, Option.bind_some, flatMap_points hne, if_pos hpos]
    by_cases hone : count > 1
    · rw [if_pos hone, if_pos hone, ← List.append_assoc, slice_comma, Option.bind_some,
        if_pos hone]
    · rw [if_neg hone, if_neg hone, List.nil_append, slice_comma, Option.bind_some, if_neg hone]

/-- The bytes that the data points take with a comma behind each of them. -/
def pointBytes (dps : List GoString) : ℕ :=
  (dps.flatMap fun dp => historicDp dp ++ str ", ").length

theorem pointBytes_cons (dp : GoString) (dps : List GoString) :
    pointBytes (dp :: dps) = (historicDp dp).length + 2 + pointBytes dps := by
  rw [pointBytes, List.flatMap_cons, List.length_append, List.length_append]
  rfl

theorem historicDp_pos (dp : GoString) : 0 < (historicDp dp).length := by
  have hopen : (str "\x7b\"value\":\"").length = 10 := rfl
  simp only [historicDp, List.length_append]
  omega

theorem pointBytes_sublist (h : dps.Sublist dps') :
    dps = dps' ∨ pointBytes dps + 2 < pointBytes dps' := by
  induction h with
  | slnil => exact .inl rfl
  | @cons l₁ l₂ dp _ ih =>
    have hbytes := pointBytes_cons dp l₂
    have hpos := historicDp_pos dp
    rcases ih with heq | hlt
    · rw [heq]
      exact .inr (by omega)
    · exact .inr (by omega)
  | @cons_cons l₁ l₂ dp _ ih =>
    rcases ih with heq | hlt
    · rw [heq]
      exact .inl rfl
    · right
      rw [pointBytes_cons, pointBytes_cons]
      omega

theorem length_dataPackOf (hne : dps ≠ []) :
    pointBytes dps - 2 ≤ (dataPackOf dps).length ∧ (dataPackOf dps).length ≤ pointBytes dps := by
  have hbytes : pointBytes dps = (commaSeparated dps).length + 2 := by
    rw [pointBytes, flatMap_points hne, List.length_append]
    rfl
  have hbracket : (str "[").length = 1 ∧ (str "]").length = 1 := ⟨rfl, rfl⟩
  unfold dataPackOf
  split
  · rw [List.length_append, List.length_append]
    omega
  · omega

/-- Fewer samples make another text. -/
theorem dataPackOf_sublist (h : dps.Sublist dps') :
    dataPackOf dps = dataPackOf dps' ↔ dps = dps' := by
  constructor
  · intro htext
    rcases pointBytes_sublist h with heq | hlt
    · exact heq
    · exfalso
      have hne : dps' ≠ [] := by
        rintro rfl
        exact absurd hlt (Nat.not_lt_zero _)
      have hlong := (length_dataPackOf hne).1
      have hshort : (dataPackOf dps).length ≤ pointBytes dps := by
        by_cases hnil : dps = []
        · rw [hnil]
          exact le_rfl
        · exact (length_dataPackOf hnil).2
      rw [htext] at hshort
      omega
  · exact congrArg dataPackOf

/-! ## The scan -/

theorem countMatches_eq {passes i : ℕ} (h : i + passes ≤ buffer.length) :
    countMatches buffer old passes i =
      some (i + (((buffer.drop i).take passes).takeWhile fun dp => old ≤ storedTs dp).length) := by
  induction passes generalizing i with
  | zero => rfl
  | succ passes ih =>
    have hlt : i < buffer.length := by omega
    rw [countMatches, List.getElem?_eq_getElem hlt, List.drop_eq_getElem_cons hlt,
      List.take_succ_cons, List.takeWhile_cons, Option.bind_eq_bind, Option.bind_some]
    by_cases hold : storedTs buffer[i] < old
    · have hnot : ¬ old ≤ storedTs buffer[i] := by omega
      rw [if_pos hold, decide_eq_false hnot]
      rfl
    · have hnot : old ≤ storedTs buffer[i] := by omega
      rw [if_neg hold, ih (by omega), decide_eq_true hnot, if_pos rfl, List.length_cons]
      congr 1
      omega

/-- In chronological order the scan goes to the end, or stops at once. -/
theorem takeWhile_chronological {p : GoString → Prop} [DecidablePred p]
    (hmono : ∀ dp dp', storedTs dp ≤ storedTs dp' → p dp → p dp') {first : GoString}
    (h : Chronological (first :: dps)) :
    (first :: dps).takeWhile (fun dp => p dp) = if p first then first :: dps else [] := by
  by_cases hp : p first
  · rw [if_pos hp, List.takeWhile_eq_self_iff]
    intro dp hdp
    rw [decide_eq_true_eq]
    rcases List.mem_cons.mp hdp with rfl | hdp
    · exact hp
    · exact hmono first dp (List.rel_of_pairwise_cons h hdp) hp
  · rw [if_neg hp, List.takeWhile_cons, decide_eq_false hp]
    rfl

theorem Recent.mono {dp dp' : GoString} (hle : storedTs dp ≤ storedTs dp')
    (h : Recent currentTs seconds dp) : Recent currentTs seconds dp' := by
  have hcast : (storedTs dp : ℚ) ≤ storedTs dp' := Int.cast_le.mpr hle
  unfold Recent at h ⊢
  linarith

/-- A duration is no time, and the zero value has the day 1. -/
theorem oldTs_duration {period : GoString} (h : isoDuration period = some seconds) :
    oldTs currentTs (convertFromIsoTime period) = currentTs - 86400 * 1000000000 := by
  have hzero : convertFromIsoTime period = .zero := by
    unfold isoDuration at h
    split at h
    · rw [convertFromIsoTime, parseTime_eq_none (by decide)]
      rfl
    · exact nomatch h
  rw [hzero, oldTs, Time.zero]
  dsimp only
  omega

theorem recent_day (currentTs : ℤ) (dp : GoString) :
    Recent currentTs 86400 dp ↔ currentTs - 86400 * 1000000000 ≤ storedTs dp := by
  unfold Recent
  rw [← Int.cast_le (R := ℚ)]
  push_cast
  norm_num

/-- The samples that are returned: all or none. -/
theorem processHistoryGet_eq {historyList : List HistoryList} {request path period : GoString}
    {k : ℕ} {signal : HistoryList} (hpath : valueAt (requestMapOf request) (str "path") = .str path)
    (hperiod : valueAt (requestMapOf request) (str "period") = .str period)
    (hduration : isoDuration period = some seconds)
    (hindex : getHistoryListIndex path historyList = some k) (hsignal : historyList[k]? = some signal)
    (hfilled : signal.Filled) :
    processHistoryGet historyList currentTs request = some (dataPackOf
      (signal.samples.takeWhile fun dp => Recent currentTs 86400 dp)) := by
  obtain ⟨hpos, hle⟩ := hfilled
  have hwithin : 0 + signal.bufIndex.toNat ≤ signal.buffer.length := by omega
  have htake : ∀ p : GoString → Bool, signal.buffer.take (signal.samples.takeWhile p).length =
      signal.samples.takeWhile p := by
    intro p
    have hprefix : signal.samples.takeWhile p <+: signal.buffer :=
      (List.takeWhile_prefix p).trans (List.take_prefix _ _)
    exact (List.prefix_iff_eq_take.mp hprefix).symm
  have hrecent : (fun dp => decide (currentTs - 86400 * 1000000000 ≤ storedTs dp)) =
      fun dp => decide (Recent currentTs 86400 dp) := by
    funext dp
    exact decide_eq_decide.mpr (recent_day currentTs dp).symm
  rw [processHistoryGet]
  simp only [hpath, hperiod, asString, hindex, hsignal, oldTs_duration hduration,
    Option.bind_eq_bind, Option.bind_some, countMatches_eq hwithin, List.drop_zero, Nat.zero_add,
    hrecent]
  have hsamples : signal.buffer.take signal.bufIndex.toNat = signal.samples := rfl
  have hlength := (List.takeWhile_prefix (fun dp => decide (Recent currentTs 86400 dp))
    (l := signal.samples)).length_le
  have hshort : signal.samples.length ≤ signal.buffer.length := by
    rw [HistoryList.samples, List.length_take]
    exact min_le_right _ _
  rw [hsamples, historicDataPack_eq (hlength.trans hshort), htake]

theorem Chronological.le_last (h : Chronological dps) {last dp : GoString}
    (hlast : last ∈ dps.getLast?) (hdp : dp ∈ dps) : storedTs dp ≤ storedTs last := by
  obtain ⟨front, rfl⟩ := List.getLast?_eq_some_iff.mp hlast
  rcases List.mem_append.mp hdp with hdp | hdp
  · exact (List.pairwise_append.mp h).2.2 dp hdp last (List.mem_singleton_self last)
  · rw [List.mem_singleton.mp hdp]

/-- A history request returns the samples of the period exactly where the period does not cut
them, and a day neither. -/
theorem history_get_iff {historyList : List HistoryList} {request path period : GoString}
    {k : ℕ} {signal : HistoryList} (hpath : valueAt (requestMapOf request) (str "path") = .str path)
    (hperiod : valueAt (requestMapOf request) (str "period") = .str period)
    (hduration : isoDuration period = some seconds)
    (hindex : getHistoryListIndex path historyList = some k) (hsignal : historyList[k]? = some signal)
    (hfilled : signal.Filled) (horder : Chronological signal.samples) :
    processHistoryGet historyList currentTs request =
        some (dataPackOf (signal.samples.filter fun dp => Recent currentTs seconds dp)) ↔
      Uncut currentTs seconds signal.samples := by
  rw [processHistoryGet_eq hpath hperiod hduration hindex hsignal hfilled, Option.some_inj]
  have hsublist := List.filter_sublist (l := signal.samples)
    (p := fun dp => decide (Recent currentTs seconds dp))
  generalize signal.samples = samples at horder hsublist ⊢
  cases samples with
  | nil => exact iff_of_true rfl nofun
  | cons first rest =>
    obtain ⟨last, hlast⟩ : ∃ last, last ∈ (first :: rest).getLast? :=
      ⟨_, List.getLast?_eq_some_getLast (List.cons_ne_nil first rest)⟩
    have huncut : Uncut currentTs seconds (first :: rest) ↔
        if Recent currentTs 86400 first then Recent currentTs seconds first
        else ¬ Recent currentTs seconds last := by
      constructor
      · intro h
        exact h first rfl last hlast
      · intro h first' hfirst last' hlast'
        obtain rfl := Option.some.inj hfirst
        obtain rfl := Option.some.inj (hlast.symm.trans hlast')
        exact h
    rw [huncut, takeWhile_chronological (fun _ _ hle hp => hp.mono hle) horder]
    by_cases hday : Recent currentTs 86400 first
    · rw [if_pos hday, if_pos hday, eq_comm, dataPackOf_sublist hsublist, List.filter_eq_self]
      constructor
      · intro hall
        exact of_decide_eq_true (hall first List.mem_cons_self)
      · intro hfirst dp hdp
        rw [decide_eq_true_eq]
        rcases List.mem_cons.mp hdp with rfl | hdp
        · exact hfirst
        · exact hfirst.mono (List.rel_of_pairwise_cons horder hdp)
    · rw [if_neg hday, if_neg hday, dataPackOf_sublist (List.nil_sublist _), eq_comm,
        List.filter_eq_nil_iff]
      constructor
      · intro hall hrecent
        exact hall last (List.mem_of_getLast? hlast) (decide_eq_true hrecent)
      · intro hnot dp hdp hrecent
        exact hnot ((of_decide_eq_true hrecent).mono (horder.le_last hlast hdp))

end Gets

def historicSpeed (value ts : String) : GoString :=
  str ("\x7b\"value\":\"" ++ value ++ "\", \"ts\":\"" ++ ts ++ "\"\x7d")

/-- Two samples of a quarter and of half an hour before eight o'clock. -/
def speedRecording : HistoryList where
  path := str "Vehicle.Speed"
  frequency := 4
  bufSize := 10
  bufIndex := 2
  buffer := [historicSpeed "50" "2024-05-01T07:30:00Z", historicSpeed "60" "2024-05-01T07:45:00Z"] ++
    List.replicate 8 []

def speedRequest (period : String) : GoString :=
  str ("\x7b\"path\":\"Vehicle.Speed\", \"period\":\"" ++ period ++ "\"\x7d")

def timeOf (ts : String) : ℤ := (convertFromIsoTime (str ts)).unixNano

theorem history_get_hour :
    processHistoryGet [speedRecording] (timeOf "2024-05-01T08:00:00Z") (speedRequest "PT1H") =
      some (dataPackOf (speedRecording.samples.filter fun dp =>
        Recent (timeOf "2024-05-01T08:00:00Z") 3600 dp)) := by
  have hfilled : speedRecording.Filled := by
    unfold HistoryList.Filled
    decide
  have horder : Chronological speedRecording.samples := by
    unfold Chronological
    decide +kernel
  have hpath : valueAt (requestMapOf (speedRequest "PT1H")) (str "path") =
      .str (str "Vehicle.Speed") := asString_eq_some.mp (by decide +kernel)
  have hperiod : valueAt (requestMapOf (speedRequest "PT1H")) (str "period") =
      .str (str "PT1H") := asString_eq_some.mp (by decide +kernel)
  refine (history_get_iff (k := 0) hpath hperiod (by decide +kernel) (by decide +kernel) rfl
    hfilled horder).mpr ?_
  rintro first ⟨rfl⟩ last -
  rw [if_pos (by decide +kernel)]
  decide +kernel

/-- A period of two and a half days, of which the last day and a half has no samples. -/
theorem history_get_empty :
    ¬ ∀ (historyList : List HistoryList) (currentTs : ℤ) (request path period : GoString) (k : ℕ)
      (signal : HistoryList) (seconds : ℚ),
      valueAt (requestMapOf request) (str "path") = .str path →
      valueAt (requestMapOf request) (str "period") = .str period →
      isoDuration period = some seconds → getHistoryListIndex path historyList = some k →
      historyList[k]? = some signal → signal.Filled → Chronological signal.samples →
      processHistoryGet historyList currentTs request =
        some (dataPackOf (signal.samples.filter fun dp => Recent currentTs seconds dp)) := by
  intro h
  have hfilled : speedRecording.Filled := by
    unfold HistoryList.Filled
    decide
  have horder : Chronological speedRecording.samples := by
    unfold Chronological
    decide +kernel
  have hget := h [speedRecording] (timeOf "2024-05-02T20:00:00Z") (speedRequest "P2DT12H")
    (str "Vehicle.Speed") (str "P2DT12H") 0 speedRecording 216000
    (asString_eq_some.mp (by decide +kernel)) (asString_eq_some.mp (by decide +kernel))
    (by decide +kernel) (by decide +kernel) rfl hfilled horder
  revert hget
  decide +kernel

end VissServer.ServiceMgr

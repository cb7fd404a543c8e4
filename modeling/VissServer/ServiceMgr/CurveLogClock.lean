import Mathlib.Tactic.Ring
import VissServer.ServiceMgr.CurveLog

/-!
What a session of curve logging delivers, and the wall clock. The times of the elements that
post-processing compares are taken relative to different readings of the clock, so that the
fraction between them can be any number. A session in which no fraction matters is one of a
machine without a clock.
-/
namespace VissServer.ServiceMgr.CurveLog

open Go

/-! ## Elements without times -/

/-- An element of postProc without its time. -/
structure Slot where
  value : Float64
  dp : Option RingElement
  type : ℤ
  deriving DecidableEq

structure Slots where
  pos0 : Slot
  pos1 : Slot
  pos2 : Slot
  deriving DecidableEq

def PostProcessBufElement1dim.slot (e : PostProcessBufElement1dim) : Slot where
  value := e.data.value
  dp := e.dp
  type := e.type

def PostProc.slots (p : PostProc) : Slots where
  pos0 := p.pos0.slot
  pos1 := p.pos1.slot
  pos2 := p.pos2.slot

/-- The value that is read from a datapoint. -/
def Numbers.value (n : Numbers) (dp : RingElement) : Float64 := (n.parseFloat dp.value).getD 0

def writeSlot (n : Numbers) (r : RingBuffer) (index : ℕ) : MayPanic Slot :=
  (readRing r index).map fun dp => { value := n.value dp, dp := some dp, type := index }

/-- The elements after a call of postProcess1dim. -/
def nextSlots (n : Numbers) (r : RingBuffer) (firstSelected lastSelected : ℕ) (p : Slots) :
    MayPanic Slots :=
  if p.pos0.type = -1 then (writeSlot n r lastSelected).map fun pos0 => { p with pos0 }
  else if p.pos1.type = -1 then
    if firstSelected = 0 then (writeSlot n r lastSelected).map fun pos1 => { p with pos1 }
    else (writeSlot n r lastSelected).map fun pos0 => { p with pos0 }
  else
    (writeSlot n r firstSelected).bind fun pos2 =>
      if firstSelected = 0 then
        some { pos0 := p.pos1, pos1 := pos2, pos2 := { pos2 with type := -1 } }
      else (writeSlot n r lastSelected).map fun pos0 =>
        { pos0, pos1 := { p.pos1 with type := -1 }, pos2 := { pos2 with type := -1 } }

/-! ## Steps -/

/-- No fraction between the times makes the value in the middle deviate by more than the
maximum from what lies between the values around it. -/
def Unaffected (value0 value1 value2 maxError : Float64) : Prop :=
  ∀ fraction, ¬ maxError < pos2Error value0 value1 value2 fraction

/-- Where a datapoint in the middle could be returned, the clock does not decide about it. -/
def SteadyPost (n : Numbers) (r : RingBuffer) (firstSelected : ℕ) (p : Slots)
    (maxError : Float64) : Prop :=
  p.pos0.type ≠ -1 → p.pos1.type ≠ -1 → p.pos1.dp ≠ none → ∀ dp,
    readRing r firstSelected = some dp →
      Unaffected p.pos0.value p.pos1.value (n.value dp) maxError

section Steps

variable {n : Numbers} {r : RingBuffer} {firstSelected lastSelected : ℕ} {p : PostProc}
  {maxError : Float64} {now : ℕ → ℤ}

theorem transform_value (n : Numbers) (dp : RingElement) (tsBase : ℤ) :
    (transform n dp tsBase).1.value = n.value dp := by
  unfold transform Numbers.value
  cases n.parseFloat dp.value with
  | none => rfl
  | some value => cases n.parseTime dp.timestamp <;> rfl

theorem writePostProcElement1dim_slot (n : Numbers) (r : RingBuffer) (index : ℕ) (now : ℤ) :
    (writePostProcElement1dim n r index now).map PostProcessBufElement1dim.slot =
      writeSlot n r index := by
  rw [writePostProcElement1dim_eq, writeSlot, Option.map_map]
  apply congrArg fun f => Option.map f (readRing r index)
  funext dp
  simp [PostProcessBufElement1dim.slot, transform_value]

/-- A comparison that the clock does not decide keeps the datapoint in the middle back. -/
theorem extraData_none {pos2 : PostProcessBufElement1dim} {t : ℤ}
    (hsteady : SteadyPost n r firstSelected p.slots maxError) (h0 : p.pos0.type ≠ -1)
    (h1 : p.pos1.type ≠ -1) (hwrite : writePostProcElement1dim n r firstSelected t = some pos2) :
    (if saveNonPdrDp { p with pos2 } maxError then p.pos1.dp else none) = none := by
  cases hdp : p.pos1.dp with
  | none => simp
  | some mid =>
    rw [writePostProcElement1dim_eq] at hwrite
    obtain ⟨dp, hread, rfl⟩ := Option.map_eq_some_iff.mp hwrite
    have hmid : p.slots.pos1.dp ≠ none := by simp [PostProc.slots, PostProcessBufElement1dim.slot,
      hdp]
    have hunaffected := hsteady h0 h1 hmid dp hread
    rw [← transform_value n dp t] at hunaffected
    have hkeep : saveNonPdrDp { p with
        pos2 := { data := (transform n dp t).1, dp := some dp, type := firstSelected } }
        maxError = false := by
      rw [saveNonPdrDp, decide_eq_false_iff_not]
      exact hunaffected _
    simp [hkeep]

/-- Post-processing that the clock does not decide returns nothing, and goes on as the machine
without a clock does. -/
theorem postProcess1dim_steady (hsteady : SteadyPost n r firstSelected p.slots maxError)
    (lastSelected : ℕ) (now : ℕ → ℤ) :
    (postProcess1dim n r firstSelected lastSelected p maxError now).map
        (fun o => (o.1, o.2.slots)) =
      (nextSlots n r firstSelected lastSelected p.slots).map fun q => (none, q) := by
  have hwrite := fun index t => (writePostProcElement1dim_slot n r index t).symm
  have htype0 : p.slots.pos0.type = p.pos0.type := rfl
  have htype1 : p.slots.pos1.type = p.pos1.type := rfl
  unfold postProcess1dim nextSlots
  rw [htype0, htype1]
  by_cases h0 : p.pos0.type = -1
  · rw [if_pos h0, if_pos h0, hwrite lastSelected (now 0)]
    cases writePostProcElement1dim n r lastSelected (now 0) <;> rfl
  · rw [if_neg h0, if_neg h0]
    by_cases h1 : p.pos1.type = -1
    · rw [if_pos h1, if_pos h1, hwrite lastSelected (now 0)]
      split <;> cases writePostProcElement1dim n r lastSelected (now 0) <;> rfl
    · rw [if_neg h1, if_neg h1, hwrite firstSelected (now 0), hwrite lastSelected (now 1)]
      cases hpos2 : writePostProcElement1dim n r firstSelected (now 0) with
      | none => rfl
      | some pos2 =>
        have hextra := extraData_none hsteady h0 h1 hpos2
        simp only [Option.bind_eq_bind, Option.bind_some, Option.map_some, hextra]
        split
        · rfl
        · cases writePostProcElement1dim n r lastSelected (now 1) <;> rfl

/-! The other direction: where the times of the elements in the middle and behind it could be
read, two readings of the clock give every fraction. -/

/-- Between numbers no fraction matters where the values around the middle are the same and the
one in the middle is near them. -/
theorem unaffected_fin_iff {v0 v1 v2 e : ℚ} :
    Unaffected (.fin v0) (.fin v1) (.fin v2) (.fin e) ↔ v0 = v2 ∧ |v1 - v0| ≤ e := by
  constructor
  · intro h
    have hzero := h (.fin 0)
    simp only [pos2Error, Float64.fin_sub, Float64.fin_mul, Float64.fin_add, mul_zero, add_zero,
      Float64.magnitude_fin, Float64.fin_lt, not_lt] at hzero
    refine ⟨?_, hzero⟩
    by_contra hne
    have hslope : v2 - v0 ≠ 0 := sub_ne_zero.mpr (Ne.symm hne)
    apply h (.inf false)
    have hinf : ∀ negative, (.fin e : Float64) <
        (Float64.fin v1 - (.fin v0 + .inf negative)).magnitude := by
      intro negative
      cases negative <;> rfl
    have hproduct : Float64.fin (v2 - v0) * .inf false = .inf (false ^^ decide (v2 - v0 < 0)) :=
      if_neg hslope
    rw [pos2Error, Float64.fin_sub, hproduct]
    exact hinf _
  · rintro ⟨rfl, hle⟩ fraction
    have hzero : pos2Error (.fin v0) (.fin v1) (.fin v0) fraction = .fin |v1 - v0| ∨
        pos2Error (.fin v0) (.fin v1) (.fin v0) fraction = .nan := by
      cases fraction with
      | fin q => exact .inl (by simp [pos2Error])
      | nan => exact .inr (by simp [pos2Error])
      | inf negative =>
        have hproduct : Float64.fin 0 * .inf negative = .nan := rfl
        exact .inr (by simp [pos2Error, hproduct])
    rcases hzero with hfin | hnan
    · rw [hfin, Float64.fin_lt]
      exact not_lt.mpr hle
    · rw [hnan]
      exact Float64.not_lt_nan _

end Steps

/-! ## Runs -/

/-- The state of a session without times. -/
structure Recorded where
  aRingBuffer : RingBuffer
  slots : Slots
  deriving DecidableEq

def ClState.recorded (s : ClState) : Recorded where
  aRingBuffer := s.aRingBuffer
  slots := s.postProc.slots

/-- What a pass reads, and whether it is the last one. -/
def Pass.input (x : Pass) : Reading × Bool := (x.reading, x.close)

/-- A pass without the clock, and with no datapoint but those of the reduction. -/
def nextRecorded (c : ClSession) (s : Recorded) (x : Reading × Bool) :
    MayPanic (Recorded × List CLPack) := do
  let r ← capture s.aRingBuffer x.1
  if getNumOfPopulatedRingElements r = c.bufSize ∨ x.2 = true then
    let (data, lastSelected, firstSelected) ←
      clAnalyze1dim c.numbers r (getNumOfPopulatedRingElements r).toNat c.maxError
    let slots ← nextSlots c.numbers r firstSelected lastSelected s.slots
    some ({ aRingBuffer := setRingTail r lastSelected, slots },
      if 0 < lastSelected then [c.pack (.saved data)] else [])
  else some ({ s with aRingBuffer := r }, [])

/-- The analysis in a pass, where there is one, is not decided by the clock. -/
def SteadyPass (c : ClSession) (s : Recorded) (x : Reading × Bool) : Prop :=
  ∀ r data lastSelected firstSelected, capture s.aRingBuffer x.1 = some r →
    getNumOfPopulatedRingElements r = c.bufSize ∨ x.2 = true →
    clAnalyze1dim c.numbers r (getNumOfPopulatedRingElements r).toNat c.maxError =
      some (data, lastSelected, firstSelected) →
    SteadyPost c.numbers r firstSelected s.slots c.maxError

/-- The passes up to the end of the session, one after the other. -/
def SteadyRun (c : ClSession) : Recorded → List (Reading × Bool) → Prop
  | _, [] => True
  | s, x :: xs => SteadyPass c s x ∧
      (x.2 = false → ∀ s' packs, nextRecorded c s x = some (s', packs) → SteadyRun c s' xs)

/-- The packs of the passes without the clock. -/
def recordedPasses (c : ClSession) (final : Reading) :
    Recorded → List (Reading × Bool) → MayPanic (List CLPack)
  | _, [] => some []
  | s, x :: xs => do
      let (s', packs) ← nextRecorded c s x
      if x.2 then some (packs ++ [returnSingleDp c final])
      else
        let rest ← recordedPasses c final s' xs
        some (packs ++ rest)

section Runs

variable {c : ClSession} {s : ClState} {x : Pass} {xs ys : List Pass} {initial final : Reading}

/-- A pass that the clock does not decide is the one without a clock. -/
theorem pass_steady (h : SteadyPass c s.recorded x.input) :
    (pass c s x).map (fun o => (o.1.recorded, o.2)) = nextRecorded c s.recorded x.input := by
  have hring : s.recorded.aRingBuffer = s.aRingBuffer := rfl
  unfold pass nextRecorded
  rw [hring]
  cases hcapture : capture s.aRingBuffer x.reading with
  | none => rw [Pass.input, hcapture]; rfl
  | some r =>
    rw [Pass.input, hcapture]
    simp only [Option.bind_eq_bind, Option.bind_some]
    by_cases hfull : getNumOfPopulatedRingElements r = c.bufSize ∨ x.close = true
    · rw [if_pos hfull, if_pos hfull, analyze]
      cases hanalyze : clAnalyze1dim c.numbers r (getNumOfPopulatedRingElements r).toNat
          c.maxError with
      | none => simp
      | some selected =>
        obtain ⟨data, lastSelected, firstSelected⟩ := selected
        have hpost := postProcess1dim_steady
          (h r data lastSelected firstSelected hcapture hfull hanalyze) lastSelected x.now
        have hslots : s.recorded.slots = s.postProc.slots := rfl
        simp only [Option.bind_eq_bind, Option.bind_some, hslots]
        cases hout : postProcess1dim c.numbers r firstSelected lastSelected s.postProc c.maxError
            x.now with
        | none =>
          rw [hout, Option.map_none] at hpost
          rw [Option.map_eq_none_iff.mp hpost.symm]
          rfl
        | some out =>
          rw [hout, Option.map_some] at hpost
          obtain ⟨slots, hnext, heq⟩ := Option.map_eq_some_iff.mp hpost.symm
          rw [Prod.mk.injEq] at heq
          simp [hnext, heq.2, ClState.recorded, ← heq.1]
    · rw [if_neg hfull, if_neg hfull]
      rfl

theorem passes_steady (h : SteadyRun c s.recorded (xs.map Pass.input)) :
    passes c final s xs = recordedPasses c final s.recorded (xs.map Pass.input) := by
  induction xs generalizing s with
  | nil => rfl
  | cons x xs ih =>
    have hpass := pass_steady h.1
    rw [List.map_cons, passes, recordedPasses, ← hpass]
    cases hout : pass c s x with
    | none => rfl
    | some out =>
      obtain ⟨s', packs⟩ := out
      rw [hout, Option.map_some] at hpass
      simp only [Option.bind_eq_bind, Option.bind_some, Option.map_some, Pass.input]
      cases hclose : x.close with
      | true => rfl
      | false =>
        have hrest := h.2 hclose s'.recorded packs hpass.symm
        rw [ih hrest]

/-- The session from its start on is not decided by the clock. -/
def SteadySession (c : ClSession) (xs : List (Reading × Bool)) : Prop :=
  ∀ aRingBuffer, createRingBuffer (c.bufSize + 1) = some aRingBuffer →
    SteadyRun c { aRingBuffer, slots := PostProc.slots {} } xs

theorem clCapture1dim_steady (h : SteadySession c (xs.map Pass.input)) :
    clCapture1dim c xs final = (createRingBuffer (c.bufSize + 1)).bind fun aRingBuffer =>
      recordedPasses c final { aRingBuffer, slots := PostProc.slots {} } (xs.map Pass.input) := by
  unfold clCapture1dim
  cases hring : createRingBuffer (c.bufSize + 1) with
  | none => rfl
  | some aRingBuffer => exact passes_steady (h aRingBuffer hring)

/-- Two sessions over the same samples deliver the same datapoints, whatever the clock shows, if
none of the comparisons of post-processing is decided by the clock. -/
theorem curveLog1dim_clock_free (c : ClSession) (initial final : Reading) (xs ys : List Pass)
    (hsame : xs.map Pass.input = ys.map Pass.input)
    (hsteady : SteadySession c.limited (xs.map Pass.input)) :
    curveLog1dim c initial xs final = curveLog1dim c initial ys final := by
  have hsteady' := hsteady
  rw [hsame] at hsteady'
  rw [curveLog1dim, curveLog1dim, clCapture1dim_steady hsteady, clCapture1dim_steady hsteady',
    hsame]

end Runs

/-! ## Examples of sessions -/

/-- Texts of digits, and the first ten seconds of 2020. -/
def smallNumbers : Numbers where
  parseFloat s := if s ≠ [] ∧ s.all isDigit then some (.fin (digitsVal s)) else none
  parseTime s :=
    if s.length = 20 ∧ s.take 18 = str "2020-01-01T00:00:0" ∧ s.drop 19 = str "Z" then
      some ((1577836800 + digitsVal (s.drop 18).dropLast) * 1000000000)
    else none
  parseTime_nil := rfl

def readingAt (value ts : GoString) : Reading where
  dp := str "\x7b\"value\":\"" ++ value ++ str "\", \"ts\":\"" ++ ts ++ str "\"\x7d"
  value := value
  ts := ts

/-- A session with buffers of two samples and a maximal error of 1. -/
def smallSession : ClSession where
  numbers := smallNumbers
  subscriptionId := 1
  path := str "Vehicle.Speed"
  bufSize := 2
  maxError := .fin 1

/-- A pass where the clock is so many milliseconds ahead of the sample. -/
def passAt (value ts : GoString) (close : Bool) (delay : ℤ) : Pass where
  reading := readingAt value ts
  close := close
  now := fun _ => (smallNumbers.parseTime ts).getD 0 + delay * 1000000

/-- Three samples, the last two of them with delays. -/
def threePasses (value0 value1 value2 : GoString) (delay1 delay2 : ℤ) : List Pass :=
  [passAt value0 (str "2020-01-01T00:00:00Z") false 0,
   passAt value1 (str "2020-01-01T00:00:01Z") false delay1,
   passAt value2 (str "2020-01-01T00:00:02Z") true delay2]

/-- A signal at rest is not affected by the clock. -/
theorem steady_at_rest :
    SteadySession smallSession
      ((threePasses (str "0") (str "0") (str "0") 100 100).map Pass.input) := by
  intro aRingBuffer hring
  have hfirst : ∀ s x, s.slots = PostProc.slots {} → SteadyPass smallSession s x := by
    intro s x hslots r data lastSelected firstSelected _ _ _ _ _ hmiddle
    rw [hslots] at hmiddle
    exact absurd rfl hmiddle
  cases hring
  refine ⟨hfirst _ _ rfl, ?_⟩
  intro _ s1 packs1 h1
  cases h1
  refine ⟨hfirst _ _ rfl, ?_⟩
  intro _ s2 packs2 h2
  cases h2
  refine ⟨?_, nofun⟩
  intro r data lastSelected firstSelected hcapture _ hanalyze _ _ _ dp hread
  cases hcapture
  cases hanalyze
  cases hread
  exact unaffected_fin_iff.mpr ⟨rfl, by decide +kernel⟩

/-- Two sessions over the signal at rest deliver the same. -/
theorem curveLog1dim_clock_free_at_rest :
    curveLog1dim smallSession (readingAt (str "0") (str "2020-01-01T00:00:00Z"))
        (threePasses (str "0") (str "0") (str "0") 100 100)
        (readingAt (str "0") (str "2020-01-01T00:00:02Z")) =
      curveLog1dim smallSession (readingAt (str "0") (str "2020-01-01T00:00:00Z"))
        (threePasses (str "0") (str "0") (str "0") 100 500)
        (readingAt (str "0") (str "2020-01-01T00:00:02Z")) :=
  curveLog1dim_clock_free smallSession _ _ _ (threePasses (str "0") (str "0") (str "0") 100 500)
    rfl steady_at_rest

/-- Of two sessions over a signal that jumps to 5, one delivers the datapoint of the jump. -/
theorem clock_decides :
    (threePasses (str "0") (str "5") (str "5") 100 100).map Pass.input =
      (threePasses (str "0") (str "5") (str "5") 100 500).map Pass.input ∧
    curveLog1dim smallSession (readingAt (str "0") (str "2020-01-01T00:00:00Z"))
        (threePasses (str "0") (str "5") (str "5") 100 100)
        (readingAt (str "5") (str "2020-01-01T00:00:02Z")) ≠
      curveLog1dim smallSession (readingAt (str "0") (str "2020-01-01T00:00:00Z"))
        (threePasses (str "0") (str "5") (str "5") 100 500)
        (readingAt (str "5") (str "2020-01-01T00:00:02Z")) := by
  constructor
  · rfl
  · decide +kernel

end VissServer.ServiceMgr.CurveLog

import Mathlib.Data.List.Sort
import VissServer.Go.Float64
import VissServer.Go.Strings

/-!
Curve logging of one signal (curvelog.go): the ring buffer of captured samples, the reduction
of a full buffer to the datapoints that are saved, the post-processing of buffers that save
none, and the loop of a session.
-/
namespace VissServer.ServiceMgr.CurveLog

open Go

/-! ## The ring buffer -/

structure RingElement where
  value : GoString
  timestamp : GoString
  deriving DecidableEq

structure RingBuffer where
  bufSize : ℤ
  ringElem : List RingElement
  head : ℤ
  tail : ℤ
  deriving DecidableEq

/-- A buffer of a negative size cannot be made. -/
def createRingBuffer (bufSize : ℤ) : MayPanic RingBuffer :=
  if bufSize < 0 then none
  else
    let ringElem := List.replicate bufSize.toNat { value := [], timestamp := [] }
    some { bufSize, ringElem, head := 0, tail := 0 }

/-- head points to the next element to be written. -/
def setRingTail (r : RingBuffer) (tail : ℤ) : RingBuffer := { r with tail := r.head - (tail + 1) }

def writeRing (r : RingBuffer) (value timestamp : GoString) : MayPanic RingBuffer :=
  if 0 ≤ r.head ∧ r.head < r.ringElem.length then
    let ringElem := r.ringElem.set r.head.toNat { value, timestamp }
    some { r with ringElem, head := if r.head + 1 = r.bufSize then 0 else r.head + 1 }
  else none

def readRing (r : RingBuffer) (headOffset : ℤ) : MayPanic RingElement :=
  let currentHead := r.head - (headOffset + 1)
  let currentHead := if currentHead < 0 then currentHead + r.bufSize else currentHead
  if 0 ≤ currentHead then r.ringElem[currentHead.toNat]? else none

def getNumOfPopulatedRingElements (r : RingBuffer) : ℤ :=
  if r.head < r.tail then r.head + r.bufSize - r.tail else r.head - r.tail

/-! ## Samples as numbers -/

/-- The functions of strconv and time that read samples. -/
structure Numbers where
  /-- strconv.ParseFloat; none is an error. -/
  parseFloat : GoString → Option Float64
  /-- time.Parse of an RFC 3339 text, as nanoseconds since 1970; none is an error. -/
  parseTime : GoString → Option ℤ
  parseTime_nil : parseTime [] = none

structure CLBufElement where
  value : Float64 := 0
  timestamp : Float64 := 0
  deriving DecidableEq

/-- t.Sub(tsBase).Seconds(), for a difference of any size. -/
def secondsSince (t tsBase : ℤ) : Float64 := .fin (((t - tsBase : ℤ) : ℚ) / 1000000000)

/-- The element, and whether value and time could be read. -/
def transform (n : Numbers) (dp : RingElement) (tsBase : ℤ) : CLBufElement × Bool :=
  match n.parseFloat dp.value with
  | none => ({}, false)
  | some value =>
      match n.parseTime dp.timestamp with
      | none => ({ value }, false)
      | some t => ({ value, timestamp := secondsSince t tsBase }, true)

def transformDataPoint (n : Numbers) (r : RingBuffer) (index : ℤ) (tsBase : ℤ) :
    MayPanic (CLBufElement × Bool) :=
  (readRing r index).map fun dp => transform n dp tsBase

/-- The zero value of time.Time, which is the begin of the year 1. -/
def zeroTime : ℤ := -62135596800000000000

/-- The loop of transformDataPoints, which gives up at an element that cannot be read. -/
def transformAll (n : Numbers) (r : RingBuffer) (tsBase : ℤ) :
    List ℕ → MayPanic (Option (List CLBufElement))
  | [] => some (some [])
  | index :: indices => do
      let (e, status) ← transformDataPoint n r index tsBase
      if status then
        let rest ← transformAll n r tsBase indices
        some (rest.map fun clBuffer => e :: clBuffer)
      else some none

/-- The elements from the latest to the first captured; none inside is the nil slice. -/
def transformDataPoints (n : Numbers) (r : RingBuffer) (bufSize : ℕ) :
    MayPanic (Option (List CLBufElement)) := do
  let first ← readRing r ((bufSize : ℤ) - 1)
  let tsBase := (n.parseTime first.timestamp).getD zeroTime
  transformAll n r tsBase (List.range bufSize)

/-! ## The reduction of a buffer -/

def measuredError (a b : CLBufElement) (linearSlope : Float64) : Float64 :=
  (b.value - (a.value + linearSlope * (b.timestamp - a.timestamp))).magnitude

/-- The largest error so far, and where it was measured. -/
def measure (a : CLBufElement) (linearSlope : Float64) (max : Float64 × ℕ)
    (e : CLBufElement × ℕ) : Float64 × ℕ :=
  let error := measuredError a e.1 linearSlope
  if max.1 < error then (error, e.2) else max

/-- The elements of a buffer between two indices, with their indices. -/
def indexed (clBuffer : List CLBufElement) (firstIndex lastIndex : ℕ) :
    List (CLBufElement × ℕ) :=
  (clBuffer.zipIdx.take (lastIndex + 1)).drop firstIndex

/-- The indices of the elements that are saved, where an empty list is nil. A recursion without
end, for which the fuel is too little, overflows the stack. -/
def clReduction1Dim (clBuffer : List CLBufElement) (maxError : Float64) :
    ℕ → ℕ → ℕ → MayPanic (List ℕ)
  | 0, firstIndex, lastIndex => if lastIndex - firstIndex ≤ 1 then some [] else none
  | fuel + 1, firstIndex, lastIndex =>
      if lastIndex - firstIndex ≤ 1 then some []
      else do
        let last ← clBuffer[lastIndex]?
        let first ← clBuffer[firstIndex]?
        let linearSlope := (last.value - first.value) / (last.timestamp - first.timestamp)
        let (maxMeasuredError, indexOfMaxMeasuredError) :=
          (indexed clBuffer firstIndex lastIndex).foldl (measure first linearSlope) (0, firstIndex)
        if maxError < maxMeasuredError then do
          let savedIndex1 ← clReduction1Dim clBuffer maxError fuel firstIndex
            indexOfMaxMeasuredError
          let savedIndex2 ← clReduction1Dim clBuffer maxError fuel indexOfMaxMeasuredError
            lastIndex
          some (savedIndex1 ++ savedIndex2 ++ [indexOfMaxMeasuredError])
        else some []

/-- The datapoints, and the indices of the last and the first of them, which are 0 where none
is saved. -/
def clAnalyze1dim (n : Numbers) (r : RingBuffer) (bufSize : ℕ) (maxError : Float64) :
    MayPanic (List RingElement × ℕ × ℕ) := do
  let clBuffer ← transformDataPoints n r bufSize
  let savedIndex ← clReduction1Dim (clBuffer.getD []) maxError bufSize 0 (bufSize - 1)
  match savedIndex.insertionSort (· ≥ ·) with
  | [] => do
      let dp ← readRing r 0
      some ([dp], 0, 0)
  | firstSelected :: rest => do
      let dataPoint ← (firstSelected :: rest).mapM fun index : ℕ => readRing r index
      some (dataPoint, (firstSelected :: rest).getLast (List.cons_ne_nil _ _), firstSelected)

/-! ## The post-processing -/

/-- The type is positive for a datapoint that the reduction saved, 0 for one that it did not
save, and -1 for an empty element; dp is none where it is the empty text. -/
structure PostProcessBufElement1dim where
  data : CLBufElement := {}
  dp : Option RingElement := none
  type : ℤ := 0

/-- The three elements of postProc. -/
structure PostProc where
  pos0 : PostProcessBufElement1dim := {}
  pos1 : PostProcessBufElement1dim := {}
  pos2 : PostProcessBufElement1dim := {}

/-- The element that is written, with a time that is taken relative to the present. -/
def writePostProcElement1dim (n : Numbers) (r : RingBuffer) (firstSelected : ℕ) (now : ℤ) :
    MayPanic PostProcessBufElement1dim := do
  let dp ← readRing r firstSelected
  let (data, _) ← transformDataPoint n r firstSelected now
  some { data, dp := some dp, type := firstSelected }

theorem writePostProcElement1dim_eq (n : Numbers) (r : RingBuffer) (index : ℕ) (now : ℤ) :
    writePostProcElement1dim n r index now = (readRing r index).map fun dp =>
      { data := (transform n dp now).1, dp := some dp, type := index } := by
  unfold writePostProcElement1dim transformDataPoint
  cases readRing r index <;> rfl

def pos2Error (value0 value1 value2 fraction : Float64) : Float64 :=
  (value1 - (value0 + (value2 - value0) * fraction)).magnitude

def saveNonPdrDp (p : PostProc) (maxError : Float64) : Bool :=
  let fraction := (p.pos1.data.timestamp - p.pos0.data.timestamp) /
    (p.pos2.data.timestamp - p.pos0.data.timestamp)
  maxError < pos2Error p.pos0.data.value p.pos1.data.value p.pos2.data.value fraction

/-- The datapoint that is returned, and the elements afterwards; now holds the readings of the
clock, one for each element that is written. -/
def postProcess1dim (n : Numbers) (r : RingBuffer) (firstSelected lastSelected : ℕ)
    (p : PostProc) (maxError : Float64) (now : ℕ → ℤ) :
    MayPanic (Option RingElement × PostProc) :=
  if p.pos0.type = -1 then do
    let pos0 ← writePostProcElement1dim n r lastSelected (now 0)
    some (none, { p with pos0 })
  else if p.pos1.type = -1 then
    if firstSelected = 0 then do
      let pos1 ← writePostProcElement1dim n r lastSelected (now 0)
      some (none, { p with pos1 })
    else do
      let pos0 ← writePostProcElement1dim n r lastSelected (now 0)
      some (none, { p with pos0 })
  else do
    let pos2 ← writePostProcElement1dim n r firstSelected (now 0)
    let p := { p with pos2 }
    let extraData := if saveNonPdrDp p maxError then p.pos1.dp else none
    if firstSelected = 0 then
      some (extraData, { pos0 := p.pos1, pos1 := p.pos2, pos2 := { p.pos2 with type := -1 } })
    else do
      let pos0 ← writePostProcElement1dim n r lastSelected (now 1)
      some (extraData,
        { pos0, pos1 := { p.pos1 with type := -1 }, pos2 := { p.pos2 with type := -1 } })

/-! ## A session -/

/-- What getVehicleData gives: the text, and the members value and ts that MapRequest finds
in it. -/
structure Reading where
  dp : GoString
  value : GoString
  ts : GoString
  deriving DecidableEq

def Reading.sample (x : Reading) : RingElement where
  value := x.value
  timestamp := x.ts

/-- The data of a pack: datapoints of the ring buffer, or a reading as it is. -/
inductive CLData
  | saved (dps : List RingElement)
  | single (x : Reading)
  deriving DecidableEq

def savedText (dp : RingElement) : GoString :=
  str "\x7b\"value\":\"" ++ dp.value ++ str "\",\"ts\":\"" ++ dp.timestamp ++ str "\"\x7d"

def CLData.text : CLData → GoString
  | .saved [dp] => savedText dp
  | .saved dps =>
      str "[" ++ (dps.flatMap fun dp => savedText dp ++ str ",").dropLast ++ str "]"
  | .single x => x.dp

/-- The datapoints of a pack. -/
def CLData.dps : CLData → List RingElement
  | .saved dps => dps
  | .single x => [x.sample]

structure CLPack where
  subscriptionId : ℤ
  path : GoString
  data : CLData
  deriving DecidableEq

def CLPack.dataPack (p : CLPack) : GoString :=
  str "\x7b\"path\":\"" ++ p.path ++ str "\",\"data\":" ++ p.data.text ++ str "\x7d"

/-- What a session is started with. -/
structure ClSession where
  numbers : Numbers
  subscriptionId : ℤ
  path : GoString
  bufSize : ℤ
  maxError : Float64

def ClSession.pack (c : ClSession) (data : CLData) : CLPack where
  subscriptionId := c.subscriptionId
  path := c.path
  data := data

/-- One pass of the loop: what is read, whether the session is closed by then, and the readings
of the clock. -/
structure Pass where
  reading : Reading
  close : Bool
  now : ℕ → ℤ

structure ClState where
  aRingBuffer : RingBuffer
  postProc : PostProc

/-- A sample with the timestamp of the latest one is not stored again. -/
def capture (r : RingBuffer) (x : Reading) : MayPanic RingBuffer := do
  let latest ← readRing r 0
  if latest.timestamp ≠ x.ts then writeRing r x.value x.ts else some r

/-- The analysis of a buffer that is full, or the last one of the session. -/
def analyze (c : ClSession) (s : ClState) (now : ℕ → ℤ) : MayPanic (ClState × List CLPack) := do
  let currentBufSize := (getNumOfPopulatedRingElements s.aRingBuffer).toNat
  let (data, lastSelected, firstSelected) ←
    clAnalyze1dim c.numbers s.aRingBuffer currentBufSize c.maxError
  let (extraData, postProc) ←
    postProcess1dim c.numbers s.aRingBuffer firstSelected lastSelected s.postProc c.maxError now
  let extra := extraData.toList.map fun dp => c.pack (.saved [dp])
  let selected := if 0 < lastSelected then [c.pack (.saved data)] else []
  some ({ aRingBuffer := setRingTail s.aRingBuffer lastSelected, postProc }, extra ++ selected)

def pass (c : ClSession) (s : ClState) (x : Pass) : MayPanic (ClState × List CLPack) := do
  let aRingBuffer ← capture s.aRingBuffer x.reading
  let s := { s with aRingBuffer }
  if getNumOfPopulatedRingElements aRingBuffer = c.bufSize ∨ x.close = true then
    analyze c s x.now
  else some (s, [])

def returnSingleDp (c : ClSession) (x : Reading) : CLPack := c.pack (.single x)

/-- The packs of the passes; a session that is closed ends with a reading of its own. -/
def passes (c : ClSession) (final : Reading) : ClState → List Pass → MayPanic (List CLPack)
  | _, [] => some []
  | s, x :: xs => do
      let (s', packs) ← pass c s x
      if x.close then some (packs ++ [returnSingleDp c final])
      else
        let rest ← passes c final s' xs
        some (packs ++ rest)

def clCapture1dim (c : ClSession) (xs : List Pass) (final : Reading) : MayPanic (List CLPack) := do
  let aRingBuffer ← createRingBuffer (c.bufSize + 1)
  passes c final { aRingBuffer, postProc := {} } xs

def MAXCLBUFSIZE : ℤ := 240

/-- A size beyond the maximum is not used. -/
def ClSession.limited (c : ClSession) : ClSession :=
  { c with bufSize := min c.bufSize MAXCLBUFSIZE }

/-- What curveLoggingServer delivers for a signal of one dimension. -/
def curveLog1dim (c : ClSession) (initial : Reading) (xs : List Pass) (final : Reading) :
    MayPanic (List CLPack) := do
  let packs ← clCapture1dim c.limited xs final
  some (returnSingleDp c initial :: packs)

end VissServer.ServiceMgr.CurveLog

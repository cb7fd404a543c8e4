import VissServer.Go.JsonDecode
import VissServer.Library.Splitting
import VissServer.ServiceMgr.CurveLog

/-!
Curve logging of two and of three signals (curvelog.go): the reductions and the analyses of their
buffers. The reductions are one recursion over the errors that they measure. A curve log from
the text of its filter and the texts of the datapoints on (serviceMgr.go, curvelog.go): the
parameters, and the loop that captures one, two or three signals, which is the same but for the
analysis.
-/
namespace VissServer.ServiceMgr.CurveLog

open Go

/-! ## The reductions -/

/-- How far an element is from the line through two others. -/
def errorDim (clBuffer : List CLBufElement) (firstIndex lastIndex i : ℕ) : MayPanic Float64 := do
  let last ← clBuffer[lastIndex]?
  let first ← clBuffer[firstIndex]?
  let linearSlope := (last.value - first.value) / (last.timestamp - first.timestamp)
  let e ← clBuffer[i]?
  some (e.value - (first.value + linearSlope * (e.timestamp - first.timestamp)))

/-- The error without its square root. -/
def squaredError2Dim (clBuffer1 clBuffer2 : List CLBufElement) (firstIndex lastIndex i : ℕ) :
    MayPanic Float64 := do
  let errorDim1 ← errorDim clBuffer1 firstIndex lastIndex i
  let errorDim2 ← errorDim clBuffer2 firstIndex lastIndex i
  some (errorDim1 * errorDim1 + errorDim2 * errorDim2)

def squaredError3Dim (clBuffer1 clBuffer2 clBuffer3 : List CLBufElement)
    (firstIndex lastIndex i : ℕ) : MayPanic Float64 := do
  let errorDim1 ← errorDim clBuffer1 firstIndex lastIndex i
  let errorDim2 ← errorDim clBuffer2 firstIndex lastIndex i
  let errorDim3 ← errorDim clBuffer3 firstIndex lastIndex i
  some (errorDim1 * errorDim1 + errorDim2 * errorDim2 + errorDim3 * errorDim3)

/-- The largest error between two indices, and where it is measured first. -/
def maxMeasured (measuredError : ℕ → ℕ → ℕ → MayPanic Float64) (firstIndex lastIndex : ℕ) :
    MayPanic (Float64 × ℕ) :=
  (List.range' firstIndex (lastIndex - firstIndex + 1)).foldlM
    (fun max i => (measuredError firstIndex lastIndex i).map fun error =>
      if max.1 < error then (error, i) else max) (0, firstIndex)

/-- The index of the largest error, if this is beyond the bound. -/
def splitIndex (measuredError : ℕ → ℕ → ℕ → MayPanic Float64) (bound : Float64)
    (firstIndex lastIndex : ℕ) : MayPanic (Option ℕ) := do
  let (maxMeasuredError, indexOfMaxMeasuredError) ← maxMeasured measuredError firstIndex lastIndex
  some (if bound < maxMeasuredError then some indexOfMaxMeasuredError else none)

/-- The maximum is squared as the errors are. -/
def clReduction2Dim (clBuffer1 clBuffer2 : List CLBufElement) (maxError : Float64) :
    ℕ → ℕ → ℕ → MayPanic (List ℕ) :=
  Splitting.split (splitIndex (squaredError2Dim clBuffer1 clBuffer2) (maxError * maxError))

def clReduction3Dim (clBuffer1 clBuffer2 clBuffer3 : List CLBufElement) (maxError : Float64) :
    ℕ → ℕ → ℕ → MayPanic (List ℕ) :=
  Splitting.split
    (splitIndex (squaredError3Dim clBuffer1 clBuffer2 clBuffer3) (maxError * maxError))

/-! ## The analyses -/

/-- The elements at the saved indices, or the latest one where none is saved. -/
def readSaved (r : RingBuffer) : List ℕ → MayPanic (List RingElement)
  | [] => (readRing r 0).map fun dp => [dp]
  | savedIndex => savedIndex.mapM fun index : ℕ => readRing r index

/-- The datapoints of both signals, and the index of the last of them. -/
def clAnalyze2dim (n : Numbers) (r1 r2 : RingBuffer) (bufSize : ℕ) (maxError : Float64) :
    MayPanic (List RingElement × List RingElement × ℕ) := do
  let clBuffer1 ← transformDataPoints n r1 bufSize
  let clBuffer2 ← transformDataPoints n r2 bufSize
  let savedIndex ← clReduction2Dim (clBuffer1.getD []) (clBuffer2.getD []) maxError bufSize 0
    (bufSize - 1)
  let savedIndex := savedIndex.insertionSort (· ≥ ·)
  let dataPoint1 ← readSaved r1 savedIndex
  let dataPoint2 ← readSaved r2 savedIndex
  some (dataPoint1, dataPoint2, savedIndex.getLastD 0)

def clAnalyze3dim (n : Numbers) (r1 r2 r3 : RingBuffer) (bufSize : ℕ) (maxError : Float64) :
    MayPanic (List RingElement × List RingElement × List RingElement × ℕ) := do
  let clBuffer1 ← transformDataPoints n r1 bufSize
  let clBuffer2 ← transformDataPoints n r2 bufSize
  let clBuffer3 ← transformDataPoints n r3 bufSize
  let savedIndex ← clReduction3Dim (clBuffer1.getD []) (clBuffer2.getD []) (clBuffer3.getD [])
    maxError bufSize 0 (bufSize - 1)
  let savedIndex := savedIndex.insertionSort (· ≥ ·)
  let dataPoint1 ← readSaved r1 savedIndex
  let dataPoint2 ← readSaved r2 savedIndex
  let dataPoint3 ← readSaved r3 savedIndex
  some (dataPoint1, dataPoint2, dataPoint3, savedIndex.getLastD 0)

/-! ## Captures -/

/-! ## The parameters -/

/-- The type that getCurveLoggingParams declares as CLData. -/
structure CLParameters where
  maxErr : GoString := []
  bufSize : GoString := []

def CLParameters.setField (d : CLParameters) (key : GoString) (v : Json) : Option CLParameters :=
  if fieldNamed (str "maxerr") key then
    (decodeString d.maxErr v).map fun x => { d with maxErr := x }
  else if fieldNamed (str "bufsize") key then
    (decodeString d.bufSize v).map fun x => { d with bufSize := x }
  else some d

/-- A size that is no number becomes 0, and one beyond the range the nearest number in it; then the
maximum is 0 as well. -/
def getCurveLoggingParams (n : Numbers) (opValue : GoString) : Float64 × ℤ :=
  match (parseText opValue).bind (decodeStruct CLParameters.setField {}) with
  | none => (0, 0)
  | some cLData =>
      let maxErr := (n.parseFloat cLData.maxErr).getD 0
      (if (atoi cLData.bufSize).isSome then maxErr else 0, atoiIgnoringError cLData.bufSize)

/-! ## The signals -/

/-- MapRequest into a map that holds the members of earlier datapoints. -/
def mapRequestInto (dpMap : GoMap Json) (dp : GoString) : GoMap Json :=
  match parseFirst dp with
  | some (.obj members, _) => (canonMembers members).foldl (fun m p => m.set p.1 p.2) dpMap
  | some (.null, _) => []
  | _ => dpMap

/-- A signal that is captured, with the map of its datapoints. -/
structure Signal where
  aRingBuffer : RingBuffer
  dpMap : GoMap Json := []

def Signal.value (g : Signal) : MayPanic GoString := asString (valueAt g.dpMap (str "value"))

def Signal.ts (g : Signal) : MayPanic GoString := asString (valueAt g.dpMap (str "ts"))

def Signal.read (g : Signal) (dp : GoString) : Signal :=
  { g with dpMap := mapRequestInto g.dpMap dp }

def Signal.write (g : Signal) : MayPanic Signal := do
  let value ← g.value
  let ts ← g.ts
  let aRingBuffer ← writeRing g.aRingBuffer value ts
  some { g with aRingBuffer }

/-- The comparisons with the latest samples, up to the first that finds a duplicate. -/
def allNew : List (Signal × RingElement) → MayPanic Bool
  | [] => some true
  | (g, latest) :: rest => do
      let ts ← g.ts
      if latest.timestamp ≠ ts then allNew rest else some false

/-- The comparisons of the signals with each other. -/
def allEqual : List Signal → MayPanic Bool
  | g1 :: g2 :: rest => do
      let ts1 ← g1.ts
      let ts2 ← g2.ts
      if ts1 = ts2 then allEqual (g2 :: rest) else some false
  | _ => some true

/-- New samples that all have the same time are stored. -/
def isNewSample (gs : List Signal) : MayPanic Bool := do
  let latest ← gs.mapM fun g => readRing g.aRingBuffer 0
  let new ← allNew (gs.zip latest)
  if new then allEqual gs else some false

def captureSignals (gs : List Signal) : MayPanic (List Signal) := do
  let new ← isNewSample gs
  if new then gs.mapM Signal.write else some gs

/-! ## The loop -/

/-- One pass: the datapoints of the signals, whether the session is closed by then, and the readings
of the clock. -/
structure SignalPass where
  dps : List GoString
  close : Bool
  now : ℕ → ℤ

/-- The analysis of the buffers, from a state of its own: what it sends, and the index from which
on elements stay in the buffers. -/
abbrev AnalysisDim (σ P : Type) :=
  σ → List RingBuffer → ℕ → (ℕ → ℤ) → MayPanic (σ × List P × ℕ)

section Loop

variable {σ P : Type} (analysis : AnalysisDim σ P) (bufSize : ℤ)

def setTails (updatedTail : ℕ) (gs : List Signal) : List Signal :=
  gs.map fun g => { g with aRingBuffer := setRingTail g.aRingBuffer updatedTail }

/-- The buffers are filled alike, and the first one is counted. -/
def analyzeSignals (close : Bool) (now : ℕ → ℤ) (s : σ) (gs : List Signal) :
    MayPanic ((List Signal × σ) × List P) := do
  let first ← gs.head?
  let currentBufSize := getNumOfPopulatedRingElements first.aRingBuffer
  if currentBufSize = bufSize ∨ close = true then do
    let (s, packs, updatedTail) ←
      analysis s (gs.map fun g => g.aRingBuffer) currentBufSize.toNat now
    some ((setTails updatedTail gs, s), packs)
  else some ((gs, s), [])

def passDim (state : List Signal × σ) (x : SignalPass) :
    MayPanic ((List Signal × σ) × List P) := do
  let gs ← captureSignals (state.1.zipWith Signal.read x.dps)
  analyzeSignals analysis bufSize x.close x.now state.2 gs

def passesDim : List Signal × σ → List SignalPass → MayPanic (List P)
  | _, [] => some []
  | state, x :: xs => do
      let (state', packs) ← passDim analysis bufSize state x
      if x.close then some packs
      else
        let rest ← passesDim state' xs
        some (packs ++ rest)

/-- The buffers have one element more than needed. -/
def captureDim (dimensions : ℕ) (s : σ) (xs : List SignalPass) : MayPanic (List P) := do
  let aRingBuffer ← createRingBuffer (bufSize + 1)
  passesDim analysis bufSize (List.replicate dimensions { aRingBuffer }, s) xs

end Loop

/-! ## The captures -/

def analysis1dim (c : ClSession) : AnalysisDim PostProc CLPack
  | postProc, [r], currentBufSize, now => do
      let (data, lastSelected, firstSelected) ←
        clAnalyze1dim c.numbers r currentBufSize c.maxError
      let (extraData, postProc) ←
        postProcess1dim c.numbers r firstSelected lastSelected postProc c.maxError now
      let extra := extraData.toList.map fun dp => c.pack (.saved [dp])
      let selected := if 0 < lastSelected then [c.pack (.saved data)] else []
      some (postProc, extra ++ selected, lastSelected)
  | _, _, _, _ => none

/-- A pack of several signals is sent as one. -/
def analysis2dim (c : ClSession) (path2 : GoString) : AnalysisDim Unit (List CLPack)
  | _, [r1, r2], currentBufSize, _ => do
      let (data1, data2, updatedTail) ← clAnalyze2dim c.numbers r1 r2 currentBufSize c.maxError
      some ((), [[c.pack (.saved data1), { c with path := path2 }.pack (.saved data2)]],
        updatedTail)
  | _, _, _, _ => none

def analysis3dim (c : ClSession) (path2 path3 : GoString) : AnalysisDim Unit (List CLPack)
  | _, [r1, r2, r3], currentBufSize, _ => do
      let (data1, data2, data3, updatedTail) ←
        clAnalyze3dim c.numbers r1 r2 r3 currentBufSize c.maxError
      some ((), [[c.pack (.saved data1), { c with path := path2 }.pack (.saved data2),
        { c with path := path3 }.pack (.saved data3)]], updatedTail)
  | _, _, _, _ => none

/-- The data pack of several signals. -/
def dataPacks (packs : List CLPack) : GoString :=
  str "[" ++ (packs.flatMap fun p => p.dataPack ++ str ",").dropLast ++ str "]"

/-- The session that the filter of a subscription asks for. -/
def session (n : Numbers) (opValue : GoString) (subscriptionId : ℤ) (path : GoString) :
    ClSession :=
  let (maxError, bufSize) := getCurveLoggingParams n opValue
  ClSession.limited { numbers := n, subscriptionId, path, bufSize, maxError }

/-- clCapture1dim, which is closed by a last datapoint, from the texts of the datapoints on. -/
def captureTexts1dim (c : ClSession) (xs : List SignalPass) : MayPanic (List CLPack) :=
  captureDim (analysis1dim c) c.bufSize 1 {} xs

/-- A local variable hides the updatedTail after the loop, so no last datapoint follows. -/
def clCapture2dim (c : ClSession) (path2 : GoString) (xs : List SignalPass) :
    MayPanic (List (List CLPack)) :=
  captureDim (analysis2dim c path2) c.bufSize 2 () xs

def clCapture3dim (c : ClSession) (path2 path3 : GoString) (xs : List SignalPass) :
    MayPanic (List (List CLPack)) :=
  captureDim (analysis3dim c path2 path3) c.bufSize 3 () xs

/-! ## One signal -/

end VissServer.ServiceMgr.CurveLog

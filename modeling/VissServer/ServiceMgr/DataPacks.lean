import VissServer.ServiceMgr.Subscriptions

/-!
What the service manager reads from the state storage, the data packs of its messages,
and the evaluation of range and change filters (serviceMgr.go). The storage, the clock,
the history server and the arithmetic on floating point values are supplied by the
environment.
-/
namespace VissServer.ServiceMgr

open Go Utils

structure Config where
  /-- Whether stateDbType is none, for which there is no dummyTicker. -/
  stateDbNone : Bool
  historySupport : Bool

/-- What the environment supplies while one message is handled. -/
structure Moment where
  rfcTime : GoString
  /-- The order in which range visits the members of a map. -/
  range : GoMap Json → GoMap Json
  range_perm : ∀ m, (range m).Perm m
  /-- getVehicleData: the data point that the storage holds for a path. -/
  vehicleData : GoString → GoString
  /-- setVehicleData: the time of the update, empty where it failed. -/
  setVehicleData : GoString → GoString → MayPanic GoString
  /-- The reply of the history server to a request. -/
  history : GoString → MayPanic GoString
  isFloatType : GoString → Bool
  /-- compareValues on floating point values: logic-op, latest, current, diff. -/
  compareFloats : GoString → GoString → GoString → GoString → Bool

/-- None where a text with an opening bracket is no array of strings. -/
def unpackPaths (paths : GoString) : Option (List GoString) :=
  if contains paths (str "[") then unmarshalStrings paths else some [paths]

def addPackage (incompleteMessage packName packValue : GoString) : MayPanic GoString := do
  let front ← slice incompleteMessage 0 (incompleteMessage.length - 1)
  some (front ++ str ", \"" ++ packName ++ str "\":" ++ packValue ++ str "\x7d")

def getMetadataDomainDp (m : Moment) (domain : GoString) : GoString :=
  let value :=
    if domain = str "samplerate" then str "X Hz"
    else if domain = str "availability" then str "available"
    else if domain = str "validate" then str "read-write"
    else str "Unknown domain"
  str "\x7b\"value\":\"" ++ value ++ str "\",\"ts\":\"" ++ m.rfcTime ++ str "\"\x7d"

/-- The source of the data points of a request. -/
inductive DataSource
  | history (period : GoString)
  | domain (domain : GoString)
  | vehicle

/-- The first history or dynamic-metadata filter decides. -/
def dataSource : List FilterObject → DataSource
  | [] => .vehicle
  | f :: filterList =>
      if f.type = str "history" then .history f.parameter
      else if f.type = str "dynamic-metadata" then .domain f.parameter
      else dataSource filterList

def dataPoint (m : Moment) (source : DataSource) (path : GoString) : MayPanic GoString :=
  match source with
  | .history period => m.history (str "\x7b\"path\":\"" ++ path ++ str "\", \"period\":\"" ++
      period ++ str "\"\x7d")
  | .domain domain => some (getMetadataDomainDp m domain)
  | .vehicle => some (m.vehicleData path)

/-- The data points of the paths, each with a comma behind it; the inner none is an empty
reply of the history server. -/
def dataPoints (m : Moment) (source : DataSource) :
    List GoString → MayPanic (Option GoString)
  | [] => some (some [])
  | path :: pathArray => do
      let dp ← dataPoint m source path
      match source, dp with
      | .history _, [] => some none
      | _, dp => do
          let rest ← dataPoints m source pathArray
          some (rest.map fun rest =>
            str "\x7b\"path\":\"" ++ path ++ str "\", \"dp\":" ++ dp ++ str "\x7d, " ++ rest)

def getDataPack (cfg : Config) (m : Moment) (pathArray : List GoString)
    (filterList : List FilterObject) : MayPanic GoString :=
  match dataSource filterList, cfg.historySupport with
  | .history _, false => some []
  | source, _ => do
      match ← dataPoints m source pathArray with
      | none => some []
      | some points =>
          let dataPack := if pathArray.length > 1 then str "[" ++ points else points
          let dataPack ← slice dataPack 0 (dataPack.length - 2)
          some (if pathArray.length > 1 then dataPack ++ str "]" else dataPack)

/-- Decoding into a struct with two string fields. -/
def decodeFields (name₁ name₂ : GoString) (v : Json) : Option (GoString × GoString) :=
  decodeStruct (fun (fields : GoString × GoString) key v =>
    if fieldNamed name₁ key then (Go.decodeString fields.1 v).map fun t => (t, fields.2)
    else if fieldNamed name₂ key then (Go.decodeString fields.2 v).map fun t => (fields.1, t)
    else some fields) ([], []) v

/-- The value and the time of a data point, both empty where it cannot be decoded. -/
def unpackDataPoint (dp : GoString) : GoString × GoString :=
  ((parseText dp).bind (decodeFields (str "value") (str "ts"))).getD ([], [])

def getDPValue (dp : GoString) : GoString := (unpackDataPoint dp).1

def analyzeValueType (m : Moment) (value : GoString) : Fin 4 :=
  if (atoi value).isSome then 1
  else if value = str "true" ∨ value = str "false" then 2
  else if m.isFloatType value then 3
  else 0

def compareInts (logicOp : GoString) (latVal curVal diffVal : ℤ) : Bool :=
  let v := wrapInt64 (curVal - diffVal)
  if logicOp = str "eq" then v = latVal
  else if logicOp = str "ne" then v ≠ latVal
  else if logicOp = str "gt" then v > latVal
  else if logicOp = str "gte" then v ≥ latVal
  else if logicOp = str "lt" then v < latVal
  else if logicOp = str "lte" then v ≤ latVal
  else false

/-- The values of strings and booleans. -/
def compareTexts (logicOp latestValue currentValue : GoString) : Bool × Bool :=
  if logicOp = str "eq" then (currentValue = latestValue, true)
  else if logicOp = str "ne" then (currentValue ≠ latestValue, true)
  else if logicOp = str "gt" then
    (latestValue = str "false" ∧ currentValue ≠ latestValue, true)
  else if logicOp = str "lt" then
    (latestValue = str "true" ∧ currentValue ≠ latestValue, true)
  else (false, false)

/-- Whether the comparison holds, and whether the latest value is to be updated. -/
def compareValues (m : Moment) (logicOp latestValue currentValue diff : GoString) :
    Bool × Bool :=
  if analyzeValueType m latestValue ≠ analyzeValueType m currentValue then (false, false)
  else if analyzeValueType m latestValue = 1 then
    match atoi currentValue, atoi latestValue, atoi diff with
    | some curVal, some latVal, some diffVal =>
        (compareInts logicOp latVal curVal diffVal, false)
    | _, _, _ => (false, false)
  else if analyzeValueType m latestValue = 3 then
    (m.compareFloats logicOp latestValue currentValue diff, false)
  else if diff ≠ str "0" then (false, false)
  else compareTexts logicOp latestValue currentValue

/-- The conditions of a range filter; none where they cannot be decoded. -/
def rangeConditions (opValue : GoString) : Option (List (GoString × GoString)) := do
  let v ← parseText opValue
  if contains opValue (str "[") then
    match v with
    | .arr items => items.mapM (decodeFields (str "logic-op") (str "boundary"))
    | .null => some []
    | _ => none
  else return [← decodeFields (str "logic-op") (str "boundary") v]

def evaluateRangeFilter (m : Moment) (opValue currentValue : GoString) : Bool :=
  match rangeConditions opValue with
  | none => false
  | some conditions =>
      conditions.all fun c => (compareValues m c.1 c.2 currentValue (str "0")).1

/-- Whether to notify, whether to update the latest data point, and to what. -/
def evaluateChangeFilter (m : Moment) (opValue latestValue currentValue : GoString)
    (currentDataPoint : GoString) : Bool × Bool × GoString :=
  match (parseText opValue).bind (decodeFields (str "logic-op") (str "diff")) with
  | none => (false, false, [])
  | some (logicOp, diff) =>
      let (val1, val2) := compareValues m logicOp latestValue currentValue diff
      (val1, val2, currentDataPoint)

def checkRangeChangeFilter (m : Moment) (filterList : List FilterObject)
    (latestDataPoint path : GoString) : Bool × Bool × GoString :=
  match filterList with
  | [] => (false, false, [])
  | f :: filterList =>
      let currentDataPoint := m.vehicleData path
      if f.type = str "range" then
        (evaluateRangeFilter m f.parameter (getDPValue currentDataPoint), false,
          currentDataPoint)
      else if f.type = str "change" then
        evaluateChangeFilter m f.parameter (getDPValue latestDataPoint)
          (getDPValue currentDataPoint) currentDataPoint
      else checkRangeChangeFilter m filterList latestDataPoint path

end VissServer.ServiceMgr

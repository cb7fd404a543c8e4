import VissServer.Go.JsonDecode

/-!
The messages that the protobuf files of the repository share, with the functions that take
a filter or a data object out of a decoded JSON message and those that print it again. The
gRPC code (grcputils.go) and the websocket code (pbutils.go, names that end in _pb) have
these functions twice. A pointer to a message is an option; a getter reads nil as the
message without content. A type assertion that fails panics.
-/
namespace VissServer.Utils

open Go

inductive Compression
  | none
  | proprietary
  | pbLevel1
  | pbLevel2
  deriving DecidableEq

/-- The enumeration is open: a message may hold a number that is none of these. -/
inductive FilterType
  | paths
  | timebased
  | range
  | change
  | curvelog
  | history
  | staticMetadata
  | dynamicMetadata
  | unknown
  deriving DecidableEq

inductive ResponseStatus
  | success
  | error
  | unknown
  deriving DecidableEq

structure ErrorResponseMessage where
  number : GoString := []
  reason : Option GoString := none
  message : Option GoString := none
  deriving DecidableEq

structure PathsValue where
  relativePath : List GoString := []
  deriving DecidableEq

structure TimebasedValue where
  period : GoString := []
  deriving DecidableEq

structure RangeValue where
  logicOperator : GoString := []
  boundary : GoString := []
  deriving DecidableEq

structure ChangeValue where
  logicOperator : GoString := []
  diff : GoString := []
  deriving DecidableEq

structure CurvelogValue where
  maxErr : GoString := []
  bufSize : GoString := []
  deriving DecidableEq

structure HistoryValue where
  timePeriod : GoString := []
  deriving DecidableEq

structure StaticMetadataValue where
  tree : GoString := []
  deriving DecidableEq

structure DynamicMetadataValue where
  metadataDomain : GoString := []
  deriving DecidableEq

structure FilterValue where
  valuePaths : Option PathsValue := none
  valueTimebased : Option TimebasedValue := none
  valueRange : List RangeValue := []
  valueChange : Option ChangeValue := none
  valueCurvelog : Option CurvelogValue := none
  valueHistory : Option HistoryValue := none
  valueStaticMetadata : Option StaticMetadataValue := none
  valueDynamicMetadata : Option DynamicMetadataValue := none
  deriving DecidableEq

structure FilterExpression where
  fType : FilterType := .paths
  value : Option FilterValue := none
  deriving DecidableEq

structure FilterExpressions where
  filterExp : List FilterExpression := []
  deriving DecidableEq

structure DataPoint where
  value : GoString := []
  ts : Option GoString := none
  tsC : Option Int32 := none
  deriving DecidableEq

structure DataPackage where
  path : Option GoString := none
  pathC : Option Int32 := none
  dp : List DataPoint := []
  deriving DecidableEq

structure DataPackages where
  data : List DataPackage := []
  deriving DecidableEq

/-! ## From JSON -/

/-- The type assertion v.(map[string]interface{}). -/
def asMap : Json → MayPanic (GoMap Json)
  | .obj members => some members
  | _ => none

/-- The string under the key. -/
def stringAt (m : GoMap Json) (k : GoString) : MayPanic GoString := asString (valueAt m k)

/-- The string under the key, nil where there is nothing. -/
def optionalStringAt (m : GoMap Json) (k : GoString) : MayPanic (Option GoString) :=
  if isNull (valueAt m k) then some none else (stringAt m k).map some

def getFilterType (filterType : GoString) : FilterType :=
  if filterType = str "paths" then .paths
  else if filterType = str "timebased" then .timebased
  else if filterType = str "range" then .range
  else if filterType = str "change" then .change
  else if filterType = str "curvelog" then .curvelog
  else if filterType = str "history" then .history
  else if filterType = str "static-metadata" then .staticMetadata
  else if filterType = str "dynamic-metadata" then .dynamicMetadata
  else .unknown

def getPbPathsFilterValue : Json → MayPanic PathsValue
  | .arr items => (items.mapM asString).map fun relativePath => ⟨relativePath⟩
  | .str path => some ⟨[path]⟩
  | _ => some {}

def getPbTimebasedFilterValue (filterExpression : GoMap Json) : MayPanic TimebasedValue :=
  (stringAt filterExpression (str "period")).map fun period => ⟨period⟩

/-- One condition of a range; the two files read its operator under different names. -/
def rangeFilterValue (operatorName : GoString) (rangeObject : GoMap Json) :
    MayPanic RangeValue := do
  let logicOperator ← stringAt rangeObject operatorName
  let boundary ← stringAt rangeObject (str "boundary")
  some ⟨logicOperator, boundary⟩

/-- The conditions of a range. For a parameter that is neither an array nor an object there
is one condition, a nil pointer, which reads as a condition without content. -/
def rangeFilterValues (operatorName : GoString) : Json → MayPanic (List RangeValue)
  | .arr items => items.mapM fun item => do rangeFilterValue operatorName (← asMap item)
  | .obj members => (rangeFilterValue operatorName members).map fun value => [value]
  | _ => some [{}]

def getPbChangeFilterValue (filterExpression : GoMap Json) : MayPanic ChangeValue := do
  let logicOperator ← stringAt filterExpression (str "logic-op")
  let diff ← stringAt filterExpression (str "diff")
  some ⟨logicOperator, diff⟩

def getPbCurvelogFilterValue (filterExpression : GoMap Json) : MayPanic CurvelogValue := do
  let maxErr ← stringAt filterExpression (str "maxerr")
  let bufSize ← stringAt filterExpression (str "bufsize")
  some ⟨maxErr, bufSize⟩

/-- The value that createPbFilter makes of the parameter. -/
def filterValue (operatorName : GoString) (filterType : FilterType) (parameter : Json) :
    MayPanic FilterValue :=
  match filterType with
  | .paths => do some { valuePaths := some (← getPbPathsFilterValue parameter) }
  | .timebased => do
      some { valueTimebased := some (← getPbTimebasedFilterValue (← asMap parameter)) }
  | .range => do some { valueRange := ← rangeFilterValues operatorName parameter }
  | .change => do some { valueChange := some (← getPbChangeFilterValue (← asMap parameter)) }
  | .curvelog => do
      some { valueCurvelog := some (← getPbCurvelogFilterValue (← asMap parameter)) }
  | .history => do some { valueHistory := some ⟨← asString parameter⟩ }
  | .dynamicMetadata => do some { valueDynamicMetadata := some ⟨← asString parameter⟩ }
  | .staticMetadata => some {}
  | .unknown => some {}

/-! ## To JSON -/

/-- The loops that print a list put a comma behind each item, cut the last one off and put
brackets around two or more items; an empty list is cut to a negative length. -/
def listText (items : List GoString) : MayPanic GoString := do
  let value : GoString := if 1 < items.length then str "[" else []
  let value := value ++ items.flatMap (· ++ str ",")
  let value ← slice value 0 (value.length - 1)
  some (if 1 < items.length then value ++ str "]" else value)

def getJsonFilterValuePaths (filterExp : FilterExpression) : MayPanic GoString :=
  let relativePaths := ((filterExp.value.getD {}).valuePaths.getD {}).relativePath
  listText (relativePaths.map fun path => str "\"" ++ path ++ str "\"")

def getJsonFilterValueTimebased (filterExp : FilterExpression) : GoString :=
  let period := ((filterExp.value.getD {}).valueTimebased.getD {}).period
  str "\x7b\"period\":\"" ++ period ++ str "\"\x7d"

def getJsonFilterValueRange (filterExp : FilterExpression) : MayPanic GoString :=
  listText ((filterExp.value.getD {}).valueRange.map fun rangeValue =>
    str "\x7b\"logic-op\":\"" ++ rangeValue.logicOperator ++ str "\",\"boundary\":\"" ++
      rangeValue.boundary ++ str "\"\x7d")

def getJsonFilterValueChange (filterExp : FilterExpression) : GoString :=
  let change := (filterExp.value.getD {}).valueChange.getD {}
  str "\x7b\"logic-op\":\"" ++ change.logicOperator ++ str "\",\"diff\":\"" ++ change.diff ++
    str "\"\x7d"

def getJsonFilterValueCurvelog (filterExp : FilterExpression) : GoString :=
  let curvelog := (filterExp.value.getD {}).valueCurvelog.getD {}
  str "\x7b\"maxerr\":\"" ++ curvelog.maxErr ++ str "\",\"bufsize\":\"" ++ curvelog.bufSize ++
    str "\"\x7d"

def getJsonFilterValueHistory (filterExp : FilterExpression) : GoString :=
  let timePeriod := ((filterExp.value.getD {}).valueHistory.getD {}).timePeriod
  str "\"" ++ timePeriod ++ str "\""

def getJsonFilterValueStaticMetadata (filterExp : FilterExpression) : GoString :=
  ((filterExp.value.getD {}).valueStaticMetadata.getD {}).tree

def getJsonFilterValueDynamicMetadata (filterExp : FilterExpression) : GoString :=
  ((filterExp.value.getD {}).valueDynamicMetadata.getD {}).metadataDomain

/-- The name of a filter type and the text of its value. -/
def filterText (filterExp : FilterExpression) : MayPanic (GoString × GoString) :=
  match filterExp.fType with
  | .paths => (getJsonFilterValuePaths filterExp).map fun value => (str "paths", value)
  | .timebased => some (str "timebased", getJsonFilterValueTimebased filterExp)
  | .range => (getJsonFilterValueRange filterExp).map fun value => (str "range", value)
  | .change => some (str "change", getJsonFilterValueChange filterExp)
  | .curvelog => some (str "curvelog", getJsonFilterValueCurvelog filterExp)
  | .history => some (str "history", getJsonFilterValueHistory filterExp)
  | .staticMetadata => some (str "static-metadata", getJsonFilterValueStaticMetadata filterExp)
  | .dynamicMetadata => some (str "dynamic-metadata", getJsonFilterValueDynamicMetadata filterExp)
  | .unknown => some ([], [])

/-- synthesizeFilter of grcputils.go, and the end of getJsonFilter_pb of pbutils.go. -/
def synthesizeFilter (filterExp : FilterExpression) : MayPanic GoString :=
  (filterText filterExp).map fun (fType, value) =>
    str "\x7b\"type\":\"" ++ fType ++ str "\",\"parameter\":" ++ value ++ str "\x7d"

/-- A member, left out where its value is the empty string. -/
def createJSON (value key : GoString) : GoString :=
  if 0 < value.length then str ",\"" ++ key ++ str "\":\"" ++ value ++ str "\"" else []

/-- The error member of a response; nil reads as an error without content. -/
def errorText (errorResponse : Option ErrorResponseMessage) : GoString :=
  let errorResponse := errorResponse.getD {}
  str ",\"error\":\x7b\"number\":\"" ++ errorResponse.number ++ str "\",\"reason\":\"" ++
    errorResponse.reason.getD [] ++ str "\",\"message\":\"" ++ errorResponse.message.getD [] ++
    str "\"\x7d"

end VissServer.Utils

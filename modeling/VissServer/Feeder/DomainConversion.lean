import VissServer.Feeder.ScalingList
import VissServer.Feeder.StateStorage
import VissServer.Go.ExactNumbers
import VissServer.Go.Search

/-!
The conversion of domain data: the domain conversion tool joins the signals of two domains
into rows of a table, and makes the feeder map out of them (DomainConversionTool.go); the
feeder converts names and values in both directions (feederv2.go). Numbers are not rounded.
-/
namespace VissServer.Feeder

open Go

/-! ## The domain conversion tool -/

structure ToolConversionData where
  name : GoString := []
  type : GoString := []
  datatype : GoString := []
  unit : GoString := []
  enumValues : GoString := []
  deriving DecidableEq

structure UnitScaleElem where
  unit1 : GoString
  unit2 : GoString
  a : GoString
  b : GoString

structure SignalMapElem where
  north : GoString
  south : GoString

/-- A row of the table ConversionPreparation. -/
structure ConversionRow where
  name : GoString
  type : GoString
  datatype : GoString
  mapIndex : ℕ
  conversionIndex : ℕ
  deriving DecidableEq

/-- The package variables of the tool. -/
structure ConversionTool where
  scaleDataList : List GoString := []
  unitScaleList : List UnitScaleElem

/-- The query for a name, which is unique in the table of a domain. -/
def getDomainData (tbl : List ToolConversionData) (signalName : GoString) : ToolConversionData :=
  (tbl.find? fun data => data.name = signalName).getD {}

/-- The index that no scaling text has, before the offset of 2 is added. -/
def unresolved : ℕ := 65535 - 2

/-- The index of a text that is appended where the list does not have it yet. -/
def indexOfText (scaleDataList : List GoString) (text : GoString) : List GoString × ℕ :=
  match scaleDataList.findIdx? (· = text) with
  | some i => (scaleDataList, i)
  | none => (scaleDataList ++ [text], scaleDataList.length)

/-- The object that maps the values of two enumerations; the last comma is cut off. -/
def enumMap (nbdEnumMap sbdEnumMap : List GoString) : MayPanic GoString :=
  let members := (nbdEnumMap.zip sbdEnumMap).flatMap fun p =>
    str "\"" ++ p.1 ++ str "\":\"" ++ p.2 ++ str "\", "
  let enumMap := str "\x7b" ++ members
  (slice enumMap 0 (enumMap.length - 2)).map (· ++ str "\x7d")

def getConversionTypeForEnum (tool : ConversionTool) (nbdEnums sbdEnums : GoString) :
    MayPanic (ConversionTool × ℕ) :=
  match unmarshalStrings nbdEnums with
  | none => some (tool, unresolved)
  | some nbdEnumMap =>
      match unmarshalStrings sbdEnums with
      | none => some (tool, unresolved)
      | some sbdEnumMap =>
          if nbdEnumMap.length ≠ sbdEnumMap.length then some (tool, unresolved)
          else (enumMap nbdEnumMap sbdEnumMap).map fun enumMap =>
            let (scaleDataList, i) := indexOfText tool.scaleDataList enumMap
            ({ tool with scaleDataList }, i)

section Tool

variable (numbers : ExactNumbers)

/-- None where a coefficient is no number. -/
def invertCoefficients (elem : UnitScaleElem) : Option UnitScaleElem := do
  let A ← numbers.parseFloat elem.a
  let B ← numbers.parseFloat elem.b
  some { elem with a := numbers.formatFloat (.fin 1 / A), b := numbers.formatFloat (-B / A) }

/-- The element for two units, and the list in which it may have been inverted. -/
def scaleUnits (nbdUnit sbdUnit : GoString) :
    List UnitScaleElem → Option (List UnitScaleElem × UnitScaleElem)
  | [] => none
  | elem :: rest =>
      if elem.unit1 = nbdUnit ∧ elem.unit2 = sbdUnit ∨
          elem.unit1 = sbdUnit ∧ elem.unit2 = nbdUnit then
        (if elem.unit1 = sbdUnit then invertCoefficients numbers elem else some elem).map
          fun elem => (elem :: rest, elem)
      else (scaleUnits nbdUnit sbdUnit rest).map fun found => (elem :: found.1, found.2)

def getConversionTypeForLinear (tool : ConversionTool) (nbdUnit sbdUnit : GoString) :
    ConversionTool × ℕ :=
  match scaleUnits numbers nbdUnit sbdUnit tool.unitScaleList with
  | none => (tool, unresolved)
  | some (unitScaleList, elem) =>
      let conversionCoefficients := str "[" ++ elem.a ++ str ", " ++ elem.b ++ str "]"
      let (scaleDataList, i) := indexOfText tool.scaleDataList conversionCoefficients
      ({ scaleDataList, unitScaleList }, i)

/-- The conversion index of two signals. -/
def conversionType (tool : ConversionTool) (nbdtData sbdtData : ToolConversionData) :
    MayPanic (ConversionTool × ℕ) :=
  if sbdtData.datatype = nbdtData.datatype ∧ nbdtData.datatype = str "boolean" then
    some (tool, 1)
  else if sbdtData.unit = nbdtData.unit ∧ nbdtData.enumValues = [] then some (tool, 0)
  else if nbdtData.enumValues ≠ [] ∧ sbdtData.enumValues ≠ [] then
    (getConversionTypeForEnum tool nbdtData.enumValues sbdtData.enumValues).map
      fun found => (found.1, found.2 + 2)
  else if nbdtData.unit ≠ [] ∧ sbdtData.unit ≠ [] ∧ sbdtData.unit ≠ nbdtData.unit then
    let found := getConversionTypeForLinear numbers tool nbdtData.unit sbdtData.unit
    some (found.1, found.2 + 2)
  else some (tool, 65535)

/-- insertFeederData. -/
def feederData (data : ToolConversionData) (mapIndex conversionIndex : ℕ) : ConversionRow where
  name := data.name
  type := data.type
  datatype := data.datatype
  mapIndex := mapIndex
  conversionIndex := conversionIndex

def createFeederConversionData (tool : ConversionTool) (nbdtData sbdtData : ToolConversionData)
    (mapIndex : ℕ) : MayPanic (ConversionTool × List ConversionRow) :=
  (conversionType numbers tool nbdtData sbdtData).map fun found =>
    (found.1, [feederData nbdtData mapIndex found.2, feederData sbdtData mapIndex found.2])

/-- Both signals have been imported into their domains. -/
def Complete (nbd sbd : List ToolConversionData) (elem : SignalMapElem) : Prop :=
  (getDomainData nbd elem.north).name ≠ [] ∧ (getDomainData sbd elem.south).name ≠ []

instance decidableComplete (nbd sbd : List ToolConversionData) (elem : SignalMapElem) :
    Decidable (Complete nbd sbd elem) := inferInstanceAs (Decidable (_ ∧ _))

/-- The rows of one element; a signal that is not in its domain leaves it without rows. -/
def populateElement (nbd sbd : List ToolConversionData) (tool : ConversionTool)
    (elem : SignalMapElem) (i : ℕ) : MayPanic (ConversionTool × List ConversionRow) :=
  if Complete nbd sbd elem then
    createFeederConversionData numbers tool (getDomainData nbd elem.north)
      (getDomainData sbd elem.south) i
  else some (tool, [])

/-- The loop of populateConversionTable, over the elements with their indices. -/
def populateRows (nbd sbd : List ToolConversionData) :
    ConversionTool → List (SignalMapElem × ℕ) → MayPanic (ConversionTool × List ConversionRow)
  | tool, [] => some (tool, [])
  | tool, (elem, i) :: rest => do
      let (tool, rows) ← populateElement numbers nbd sbd tool elem i
      let (tool, more) ← populateRows nbd sbd tool rest
      some (tool, rows ++ more)

def populateConversionTable (nbd sbd : List ToolConversionData) (tool : ConversionTool)
    (signalMapList : List SignalMapElem) : MayPanic (ConversionTool × List ConversionRow) :=
  populateRows numbers nbd sbd tool signalMapList.zipIdx

end Tool

def getTypeIndex (VSStype : GoString) : Int8 :=
  if VSStype = str "sensor" then 0
  else if VSStype = str "actuator" then 1
  else if VSStype = str "attribute" then 2
  else -1

def datatypes : List (GoString × Int8) :=
  [(str "uint8", 0), (str "uint16", 1), (str "uint32", 2), (str "uint64", 3), (str "int8", 4),
    (str "int16", 5), (str "int32", 6), (str "int64", 7), (str "float", 8), (str "float32", 8),
    (str "double", 9), (str "float64", 9), (str "boolean", 10), (str "string", 11),
    (str "uint8[]", 12), (str "uint16[]", 13), (str "uint32[]", 14), (str "uint64[]", 15),
    (str "int8[]", 16), (str "int16[]", 17), (str "int32[]", 18), (str "int64[]", 19),
    (str "float32[]", 20), (str "float64[]", 21), (str "boolean[]", 22), (str "string[]", 23)]

def getDatatypeIndex (VSSDatatype : GoString) : Int8 := (datatypes.lookup VSSDatatype).getD (-1)

def feederElement (row : ConversionRow) : MapElement where
  mapIndex := UInt16.ofNat row.mapIndex
  name := row.name
  type := getTypeIndex row.type
  datatype := getDatatypeIndex row.datatype
  convertIndex := UInt16.ofNat row.conversionIndex

/-- Indices that do not fit into an uint16 are an error. -/
def scanRow (row : ConversionRow) : Option MapElement :=
  if row.mapIndex ≤ 65535 ∧ row.conversionIndex ≤ 65535 then some (feederElement row) else none

def MAXUINT16 : UInt16 := 65535

/-- The loop of getCorrespondingIndex, from an index on. -/
def correspondingFrom (thisIndex : ℕ) (thisMapIndex : UInt16) : ℕ → List MapElement → UInt16
  | _, [] => MAXUINT16
  | i, e :: rest =>
      if e.mapIndex = thisMapIndex ∧ i ≠ thisIndex then UInt16.ofNat i
      else correspondingFrom thisIndex thisMapIndex (i + 1) rest

def getCorrespondingIndex (thisIndex : ℕ) (thisMapIndex : UInt16) (feederMap : List MapElement) :
    UInt16 :=
  correspondingFrom thisIndex thisMapIndex 0 feederMap

/-- The map keeps its indices where one of them cannot be replaced. -/
def reorderMapIndex (feederMap : List MapElement) : List MapElement :=
  let reorderMap := feederMap.mapIdx fun i e => getCorrespondingIndex i e.mapIndex feederMap
  if MAXUINT16 ∈ reorderMap then feederMap
  else feederMap.zipWith (fun e mapIndex => { e with mapIndex }) reorderMap

/-- The array of the rows in the order of their query, which is that of the names; none where
no file is written. -/
def createFeederArray (rows : List ConversionRow) : Option (List MapElement) :=
  (rows.mapM scanRow).map reorderMapIndex

/-! ## The feeder -/

/-- The order in which range visits the members of a map. -/
structure MapOrder where
  range : GoMap Json → GoMap Json
  range_perm : ∀ m, (range m).Perm m

/-- The loop of enumConversion. -/
def enumLoop (north2SouthConv : Bool) (inValue : GoString) :
    List (GoString × Json) → MayPanic GoString
  | [] => some []
  | (k, v) :: rest =>
      if north2SouthConv then
        if k = inValue then asString v else enumLoop north2SouthConv inValue rest
      else do
        let v ← asString v
        if v = inValue then some k else enumLoop north2SouthConv inValue rest

def enumConversion (order : MapOrder) (enumObj : GoMap Json) (north2SouthConv : Bool)
    (inValue : GoString) : MayPanic GoString :=
  enumLoop north2SouthConv inValue (order.range enumObj)

/-- The type assertion v.(float64) on a number that has been decoded. -/
def asFloat (numbers : ExactNumbers) : Json → MayPanic Float64
  | .num literal => numbers.parseFloat literal
  | _ => none

def linearConversion (numbers : ExactNumbers) (coeffArray : List Json) (north2SouthConv : Bool)
    (inValue : GoString) : MayPanic GoString :=
  match numbers.parseFloat inValue with
  | none => some []
  | some x => do
      let A ← asFloat numbers (← coeffArray[0]?)
      let B ← asFloat numbers (← coeffArray[1]?)
      let y := if north2SouthConv then A * x + B else (x - B) / A
      some (numbers.formatFloat y)

section Feeder

variable (numbers : ExactNumbers) (order : MapOrder) (scalingDataList : List GoString)

def convertValue (value : GoString) (convertIndex : UInt16) (_inDatatype _outDatatype : Int8)
    (north2SouthConv : Bool) : MayPanic GoString :=
  if convertIndex = 0 then some value
  else do
    let item ← scalingData scalingDataList convertIndex.toNat
    match (parseText item).map canon with
    | none => some []
    | some (.obj enumObj) => enumConversion order enumObj north2SouthConv value
    | some .null => some []
    | some (.arr coeffArray) => linearConversion numbers coeffArray north2SouthConv value
    | some _ => none

/-- The index of the element with a name; none stands for -1. -/
def matchIndex (feederMap : List MapElement) (name : GoString) : Option ℕ :=
  let i := search feederMap.length fun i => feederMap[i]?.any fun e => decide (name ≤ e.name)
  if feederMap[i]?.map MapElement.name = some name then some i else none

/-- A name that the map does not have is looked up at the index -1. -/
def convertDomainData (north2SouthConv : Bool) (inData : DomainData)
    (feederMap : List MapElement) : MayPanic DomainData := do
  let found ← feederMap[← matchIndex feederMap inData.name]?
  let mapped ← feederMap[found.mapIndex.toNat]?
  let value ← convertValue numbers order scalingDataList inData.value found.convertIndex
    found.datatype mapped.datatype north2SouthConv
  some { name := mapped.name, value }

end Feeder

end VissServer.Feeder

import VissServer.Datamodel.TreeFiles
import VissServer.Go.JsonTexts
import VissServer.Go.Lines

/-!
The import of a datamodel file into a table of the domain conversion tool
(DomainConversionTool.go), and the same import as a machine that takes one line at a time.
-/
namespace VissServer.Datamodel

open Go

/-! ## Tables -/

/-- The domain tables. -/
abbrev Tables := GoMap (List DomainData)

def createDomainTableIfNotExist (db : Tables) (tableName : GoString) : Tables :=
  if (db.get tableName).isSome then db else db.set tableName []

/-- The names in a table are unique: a row whose name is there already is not inserted. -/
def addRow (table : List DomainData) (domainData : DomainData) : List DomainData :=
  if domainData.path ∈ table.map DomainData.path then table else table ++ [domainData]

/-- Nothing is inserted where there is no such table. -/
def insertTableRow (db : Tables) (domainData : DomainData) (tableName : GoString) : Tables :=
  match db.get tableName with
  | some table => db.set tableName (addRow table domainData)
  | none => db

/-! ## Values -/

/-- What is behind the first colon, or the whole line. -/
def readValue (line : GoString) : GoString :=
  trimSpace (line.drop (index line (str ":") + 1).toNat)

def isEmptyLine (line : GoString) : Bool := line.all fun c => c = 32

def readArrayValue (line : GoString) : GoString :=
  let element := line.drop (index line (str " - ") + 3).toNat
  let value :=
    if index element (str ",") ≠ -1 then element.take (index element (str ",")).toNat
    else if index element (str "#") ≠ -1 then element.take (index element (str "#")).toNat
    else element
  trimPrefix (trimSuffix (trimSpace value) (str "'")) (str "'")

/-- The loop of readArray, with the line that ends it and the lines that are left. -/
def readArrayFrom (array : GoString) : List GoString → GoString × GoString × List GoString
  | [] => (array, [], [])
  | text :: scanner =>
      if contains text (str " - ") then
        readArrayFrom (array ++ (34 :: (readArrayValue text ++ str "\", "))) scanner
      else if isEmptyLine text then readArrayFrom array scanner
      else (array, text, scanner)

/-- Without an element the line behind the array is lost. -/
def readArray (scanner : List GoString) : GoString × GoString × List GoString :=
  let (array, firstLineAfterArrayElem, scanner) := readArrayFrom (str "[") scanner
  if array.length > 1 then
    (array.take (array.length - 2) ++ str "]", firstLineAfterArrayElem, scanner)
  else ([], [], scanner)

/-! ## Keys -/

inductive Key
  | unit
  | datatype
  | type
  | allowed
  | min
  | max
  | description
  | comment
  | uuid
  | default
  deriving DecidableEq

def Key.name : Key → GoString
  | unit => str "unit"
  | datatype => str "datatype"
  | type => str "type"
  | allowed => str "allowed"
  | min => str "min"
  | max => str "max"
  | description => str "description"
  | comment => str "comment"
  | uuid => str "uuid"
  | default => str "default"

def Key.text (key : Key) : GoString := key.name ++ str ":"

/-- The keys in the order in which they are looked for in a line. -/
def keys : List Key :=
  [.unit, .datatype, .type, .allowed, .min, .max, .description, .comment, .uuid, .default]

def keyOf (text : GoString) : Option Key := keys.find? fun key => contains text key.text

namespace DomainData

def get (domainData : DomainData) : Key → GoString
  | .unit => domainData.unit
  | .datatype => domainData.datatype
  | .type => domainData.type
  | .allowed => domainData.enumValues
  | .min => domainData.min
  | .max => domainData.max
  | .description => domainData.description
  | .comment => domainData.comment
  | .uuid => domainData.uid
  | .default => domainData.deflt

def set (domainData : DomainData) (key : Key) (value : GoString) : DomainData :=
  match key with
  | .unit => { domainData with unit := value }
  | .datatype => { domainData with datatype := value }
  | .type => { domainData with type := value }
  | .allowed => { domainData with enumValues := value }
  | .min => { domainData with min := value }
  | .max => { domainData with max := value }
  | .description => { domainData with description := value }
  | .comment => { domainData with comment := value }
  | .uuid => { domainData with uid := value }
  | .default => { domainData with deflt := value }

@[simp] theorem get_set (domainData : DomainData) (key key' : Key) (value : GoString) :
    (domainData.set key value).get key' = if key' = key then value else domainData.get key' := by
  cases key <;> cases key' <;> rfl

@[simp] theorem set_path (domainData : DomainData) (key : Key) (value : GoString) :
    (domainData.set key value).path = domainData.path := by
  cases key <;> rfl

theorem set_get (domainData : DomainData) (key : Key) :
    domainData.set key (domainData.get key) = domainData := by
  cases key <;> rfl

end DomainData

/-! ## The import -/

/-- The variables of populateTable. -/
structure Reading where
  scanner : List GoString
  db : Tables
  domainName : GoString := []
  domainData : DomainData := {}
  firstIteration : Bool := true
  lineAfterArrayRead : GoString := []
  deferScan : Bool := false
  continueScan : Bool := true

/-- Whether a line holds the name of a signal. -/
def isName (text : GoString) : Bool := text.getLast? = some 58 && text.head? ≠ some 32

namespace Reading

def readArrayOf (r : Reading) (key : Key) : Reading :=
  let (array, lineAfterArrayRead, scanner) := readArray r.scanner
  { r with
    domainData := r.domainData.set key array
    lineAfterArrayRead
    scanner
    deferScan := true }

/-- The row in front is inserted, where it is no branch. -/
def saveSignal (r : Reading) : Reading :=
  let r :=
    if r.domainName = [] then
      { r with
        domainName := str "nonametable"
        db := createDomainTableIfNotExist r.db (str "nonametable") }
    else r
  { r with
    db := if r.domainData.type ≠ str "branch" then insertTableRow r.db r.domainData r.domainName
      else r.db
    domainData := {} }

/-- The body of the loop behind the scan of a line. -/
def readLine (r : Reading) (text : GoString) : Reading :=
  if contains text (str "Domain:") then
    if r.domainName = [] then
      { r with
        domainName := readValue text
        db := createDomainTableIfNotExist r.db (readValue text) }
    else r
  else if isName text then
    let r := if r.firstIteration then r else r.saveSignal
    { r with
      domainData := { r.domainData with path := text.dropLast }
      firstIteration := false }
  else
    match keyOf text with
    | some .allowed => r.readArrayOf .allowed
    | some .default =>
        if text.getLast? ≠ some 58 then
          { r with domainData := r.domainData.set .default (readValue text) }
        else r.readArrayOf .default
    | some key => { r with domainData := r.domainData.set key (readValue text) }
    | none =>
        if r.domainData.comment ≠ [] then
          { r with
            domainData := r.domainData.set .comment (r.domainData.comment ++ readValue text) }
        else r

def iteration (r : Reading) : Reading :=
  if r.deferScan then { r with deferScan := false }.readLine r.lineAfterArrayRead
  else
    match r.scanner with
    | [] => { r with continueScan := false }.readLine []
    | text :: scanner => { r with scanner }.readLine text

/-- The loop, with as many steps as it has left. -/
def loop : ℕ → Reading → Option Reading
  | 0, r => if r.continueScan then none else some r
  | steps + 1, r => if r.continueScan then loop steps r.iteration else some r

end Reading

/-- Each line takes one iteration, and one more where it ends an array. -/
def populateTable (db : Tables) (file : GoString) : Option Tables :=
  let scanner := scanLines file
  (Reading.loop (2 * scanner.length + 2) { scanner, db }).map fun r =>
    insertTableRow r.db r.domainData r.domainName

end VissServer.Datamodel

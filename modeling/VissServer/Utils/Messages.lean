import VissServer.Go.JsonDecode
import VissServer.Go.JsonEncode

/-!
Messages between the parts of the server (utils/common.go): JSON texts that are
decoded into a map, changed there and printed again, and the filter member of a request,
unpacked into a list of filter objects.
-/
namespace VissServer.Utils

open Go

/-- MapRequest into an empty map; none is the return value -1. -/
def mapRequest (request : GoString) : Option (GoMap Json) := decodeMap request

def urlToPath (url : GoString) : GoString := trimPrefix (replaceAll url (str "/") (str ".")) (str ".")

/-- The origin member is deleted from the map before it is printed. -/
def finalizeMessage (responseMap : GoMap Json) : GoString :=
  marshal (.obj (responseMap.delete (str "origin")))

/-- A value that starts with a brace is appended as it is, any other as a string. -/
def addKeyValue (message key value : GoString) : MayPanic GoString :=
  match value with
  | [] => some message
  | c :: _ => do
      let front ← slice message 0 (message.length - 1)
      if c = 123 then some (front ++ str ", \"" ++ key ++ str "\":" ++ value ++ str "\x7d")
      else some (front ++ str ", \"" ++ key ++ str "\":\"" ++ value ++ str "\"\x7d")

structure ErrorInformation where
  number : GoString
  reason : GoString
  message : GoString

def ErrorInfoList : List ErrorInformation := [
  ⟨str "400", str "bad_request", str "The request is malformed."⟩,
  ⟨str "400", str "invalid_data", str "Data present in the request is invalid."⟩,
  ⟨str "401", str "expired_token", str "Access token has expired."⟩,
  ⟨str "401", str "invalid_token", str "Access token is invalid."⟩,
  ⟨str "401", str "missing_token", str "Access token is missing."⟩,
  ⟨str "403", str "forbidden_request", str "The server refuses to carry out the request."⟩,
  ⟨str "404", str "unavailable_data", str "The requested data was not found."⟩,
  ⟨str "503", str "service_unavailable",
    str "The server is temporarily unable to handle the request."⟩]

/-- A member of the request that is there replaces that of the error response. -/
def copyMember (reqMap errRespMap : GoMap Json) (k : GoString) : GoMap Json :=
  if isNull (valueAt reqMap k) then errRespMap else errRespMap.set k (valueAt reqMap k)

/-- The error response map after SetErrorResponse; ts is what GetRfcTime returns. -/
def setErrorResponse (ts : GoString) (reqMap errRespMap : GoMap Json) (errorListIndex : Fin 8)
    (altErrorMessage : GoString) : GoMap Json :=
  let errRespMap := copyMember reqMap errRespMap (str "RouterId")
  let errRespMap := copyMember reqMap errRespMap (str "action")
  let errRespMap :=
    if isNull (valueAt reqMap (str "requestId")) then errRespMap.delete (str "requestId")
    else errRespMap.set (str "requestId") (valueAt reqMap (str "requestId"))
  let errRespMap := copyMember reqMap errRespMap (str "subscriptionId")
  let info := ErrorInfoList.get errorListIndex
  let errMap : GoMap Json := GoMap.ofMembers
    [(str "number", .str info.number), (str "reason", .str info.reason),
      (str "message", .str (if altErrorMessage = [] then info.message else altErrorMessage))]
  (errRespMap.set (str "error") (.obj errMap)).set (str "ts") (.str ts)

/-! ## Filters -/

structure FilterObject where
  type : GoString := []
  parameter : GoString := []
  deriving DecidableEq

/-- The members are visited in the order they are given; an object sets the parameter
under any name. -/
def unpackFilterLevel2 (filterExpression : GoMap Json) : FilterObject :=
  filterExpression.foldl (fun f p =>
    match p.2 with
    | .str v =>
        if p.1 = str "type" then { f with type := v }
        else if p.1 = str "parameter" then { f with parameter := v }
        else f
    | .arr items =>
        if p.1 = str "parameter" then { f with parameter := marshal (.arr items) } else f
    | .obj members => { f with parameter := marshal (.obj members) }
    | _ => f) {}

/-- An element that is no object leaves its filter object empty. -/
def unpackFilterLevel1 (range : GoMap Json → GoMap Json) (filterArray : List Json) :
    List FilterObject :=
  filterArray.map fun v =>
    match v with
    | .obj members => unpackFilterLevel2 (range members)
    | _ => {}

/-- UnpackFilter into an empty list; range gives the order in which the members of a map
are visited. -/
def unpackFilter (range : GoMap Json → GoMap Json) : Json → List FilterObject
  | .arr items => unpackFilterLevel1 range items
  | .obj members => [unpackFilterLevel2 (range members)]
  | _ => []

end VissServer.Utils

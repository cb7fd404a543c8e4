import Mathlib.Data.Fin.VecNotation
import VissServer.Core.Metadata
import VissServer.Utils.Messages

/-!
How the server core serves a request that a transport manager sends it: the checks of
its text and its members, the search for its paths, the validation of its token, and the
message that is sent on for it (vissv2server.go).
-/
namespace VissServer.Core

open Go Utils

section Validity

variable (request : GoString)

def isValidGetFilter : Bool :=
  contains request (str "parameter") &&
    (contains request (str "paths") || contains request (str "history") ||
      contains request (str "static-metadata") || contains request (str "dynamic-metadata"))

def isValidGetParams : Bool :=
  contains request (str "path") &&
    (!contains request (str "filter") || isValidGetFilter request)

def isValidSetParams : Bool :=
  contains request (str "path") && contains request (str "value")

def isValidSubscribeFilter : Bool :=
  isValidGetFilter request ||
  (contains request (str "timebased") && contains request (str "parameter") &&
    contains request (str "period")) ||
  (contains request (str "range") && contains request (str "parameter") &&
    contains request (str "logic-op") && contains request (str "boundary")) ||
  (contains request (str "change") && contains request (str "parameter") &&
    contains request (str "logic-op") && contains request (str "diff")) ||
  (contains request (str "curvelog") && contains request (str "parameter") &&
    contains request (str "maxerr") && contains request (str "bufsize"))

def isValidSubscribeParams : Bool :=
  contains request (str "path") &&
    (!contains request (str "filter") || isValidSubscribeFilter request)

def isValidUnsubscribeParams : Bool := contains request (str "subscriptionId")

def validRequest (action : GoString) : Bool :=
  if action = str "get" then isValidGetParams request
  else if action = str "set" then isValidSetParams request
  else if action = str "subscribe" then isValidSubscribeParams request
  else if action = str "unsubscribe" then isValidUnsubscribeParams request
  else if action = str "internal-killsubscriptions" then true
  else if action = str "internal-cancelsubscription" then true
  else false

end Validity

/-- The value that is inherited down the tree: read-write before write-only, consent
before no consent (utils/common.go). -/
def validationMatrix : Fin 5 → Fin 5 → ℤ :=
  ![![0, 1, 2, 11, 12], ![1, 1, 2, 11, 12], ![2, 2, 2, 12, 12], ![11, 11, 12, 11, 12],
    ![12, 12, 12, 12, 12]]

def translateToMatrixIndex (index : ℤ) : Fin 5 :=
  if index = 1 then 1 else if index = 2 then 2 else if index = 11 then 3
  else if index = 12 then 4 else 0

def getMaxValidation (newValidation currentMaxValidation : ℤ) : ℤ :=
  validationMatrix (translateToMatrixIndex newValidation)
    (translateToMatrixIndex currentMaxValidation)

def getTokenErrorMessage (index : ℤ) : GoString :=
  if index = 1 then str "Invalid Access Token. "
  else if index = 2 then str "Access Token not found. "
  else if index = 5 then str "Invalid Access Token Signature. "
  else if index = 6 then str "Invalid Access Token Signature Algorithm. "
  else if index = 10 then str "Invalid iat claim. Invalid time format. "
  else if index = 11 then str "Invalid iat claim. Future time. "
  else if index = 15 then str "Invalid exp claim. Invalid time format. "
  else if index = 16 then str "Invalid exp claim. Token Expired. "
  else if index = 20 then str "Invalid AUD. "
  else if index = 21 then str "Invalid Context. "
  else if index = 30 then str "Invalid Token: token revoked. "
  else if index = 40 ∨ index = 41 ∨ index = 42 then str "Internal error. "
  else if index = 60 then str "Permission denied. Purpose does not match signals requested. "
  else if index = 61 then str "Permission denied. Read only access mode trying to write. "
  else str "Unknown error. "

/-- The message that asks the access token server to validate a token. -/
def tokenRequest (token action paths : GoString) (validation : ℤ) : GoString :=
  str "\x7b\"token\":\"" ++ token ++ str "\",\"paths\":\"" ++ paths ++ str "\",\"action\":\"" ++
    action ++ str "\",\"validation\":\"" ++ itoa validation ++ str "\"\x7d"

/-- A member of the reply, empty where it is missing; a value that is no string panics. -/
def replyMember (bdy : GoMap Json) (k : GoString) : MayPanic GoString :=
  if isNull (valueAt bdy k) then some [] else asString (valueAt bdy k)

/-- The error code, the token handle and the gating id. -/
def verifyToken (m : Moment) (token action paths : GoString) (validation : ℤ) :
    MayPanic (ℤ × GoString × GoString) :=
  match unmarshalMap (m.atsReply (tokenRequest token action paths validation)) with
  | none => some (41, [], [])
  | some bdy =>
      if isNull (valueAt bdy (str "validation")) then some (42, [], [])
      else do
        let claim ← asString (valueAt bdy (str "validation"))
        match atoi claim with
        | none => some (42, [], [])
        | some atsValidation =>
            if atsValidation = 0 then do
              let handle ← replyMember bdy (str "handle")
              let gatingId ← replyMember bdy (str "gatingId")
              some (atsValidation, handle, gatingId)
            else some (atsValidation, [], [])

/-- What the core sends for a request: an error response to the transport manager, any
other response to it, or a request to the service manager. -/
inductive Reply
  | error (requestMap : GoMap Json) (errorListIndex : Fin 8) (altErrorMessage : GoString)
  | response (message : GoString)
  | service (message : GoString)

/-- Where the scan of the filters leads to: the paths to search, or a reply. -/
abbrev Scan := List GoString ⊕ Reply

/-- The search paths of a paths filter; none where its parameter is no list of strings. -/
def pathsFilter (rootPath parameter : GoString) : Option (List GoString) :=
  if contains parameter (str "[") then
    (unmarshalStrings parameter).map fun searchPath =>
      searchPath.map fun path => rootPath ++ str "." ++ urlToPath path
  else some [rootPath ++ str "." ++ urlToPath parameter]

/-- The reply to a request with a static-metadata filter. -/
def staticMetadata (cfg : Config) (m : Moment) (requestMap : GoMap Json) (path : GoString) :
    MayPanic Reply := do
  let tokenContext ← getTokenContext requestMap
  let tokenContext :=
    if tokenContext = [] then str "Undefined+Undefined+Undefined" else tokenContext
  let metadata ← synthesizeJsonTree cfg m path 2 tokenContext
  if metadata = [] then some (.error requestMap 0 [])
  else
    let requestMap := (requestMap.delete (str "path")).delete (str "filter")
    let requestMap := requestMap.set (str "ts") (.str m.rfcTime)
    let message ← addKeyValue (finalizeMessage requestMap) (str "metadata") metadata
    some (.response message)

/-- The first filter of one of these types decides. -/
def scanFilters (cfg : Config) (m : Moment) (requestMap : GoMap Json) (rootPath : GoString) :
    List FilterObject → MayPanic Scan
  | [] => some (.inl [])
  | f :: filterList =>
      if f.type = str "paths" then
        match pathsFilter rootPath f.parameter with
        | none => some (.inr (.error requestMap 0 []))
        | some searchPath => some (.inl searchPath)
      else if f.type = str "static-metadata" then
        (staticMetadata cfg m requestMap rootPath).map .inr
      else if f.type = str "dynamic-metadata" ∧ f.parameter = str "server_capabilities" then
        some (.inr (.service (finalizeMessage requestMap)))
      else scanFilters cfg m requestMap rootPath filterList

/-- The nodes that are found for each of the search paths. -/
abbrev Found := List (List SearchData × ℤ)

def Found.totalMatches (found : Found) : ℕ := (found.map fun r => r.1.length).sum

def Found.maxValidation (found : Found) : ℤ :=
  found.foldl (fun maxValidation r => getMaxValidation r.2 maxValidation) (-1)

/-- A single path as it is, several as a JSON array. -/
def Found.paths (found : Found) : MayPanic GoString := do
  let paths := found.flatMap fun r => r.1.flatMap fun data =>
    str "\"" ++ pathOf data.nodePath ++ str "\", "
  let paths ← slice paths 0 (paths.length - 2)
  if found.totalMatches = 1 then slice paths 1 (paths.length - 1)
  else some (str "[" ++ paths ++ str "]")

/-- The type of the first node of the last search. -/
def Found.nodeType (found : Found) : MayPanic ℤ := do
  let last ← found.getLast?
  let data ← last.1.head?
  some data.nodeHandle.type

/-- The error code, token handle and gating id for a request whose paths need validation. -/
def checkToken (m : Moment) (requestMap : GoMap Json) (action paths : GoString)
    (maxValidation : ℤ) : MayPanic (ℤ × GoString × GoString) :=
  match valueAt requestMap (str "authorization") with
  | .null => some (2, [], [])
  | authorization =>
      if action = str "set" ∨ maxValidation % 10 = 2 then
        match asString authorization with
        | none => some (1, [], [])
        | some authToken => verifyToken m authToken action paths maxValidation
      else some (0, [], [])

/-- The map of the request that is sent to the service manager. -/
def serviceMap (requestMap : GoMap Json) (paths tokenHandle gatingId : GoString) : GoMap Json :=
  let requestMap := requestMap.set (str "path") (.str paths)
  let requestMap :=
    if tokenHandle = [] then requestMap else requestMap.set (str "handle") (.str tokenHandle)
  if gatingId = [] then requestMap else requestMap.set (str "gatingId") (.str gatingId)

/-- An internal message needs no validation. -/
def requiredValidation (requestMap : GoMap Json) (found : Found) : ℤ :=
  if asString (valueAt requestMap (str "origin")) = some (str "internal") then 0
  else found.maxValidation

/-- The part of issueServiceRequest behind the search. -/
def issueFound (m : Moment) (requestMap : GoMap Json) (action : GoString) (found : Found) :
    MayPanic Reply := do
  let paths ← found.paths
  let maxValidation := requiredValidation requestMap found
  if maxValidation % 10 = 0 then
    some (.service (finalizeMessage (serviceMap requestMap paths [] [])))
  else if maxValidation % 10 = 1 ∨ maxValidation % 10 = 2 then do
    let (errorCode, tokenHandle, gatingId) ← checkToken m requestMap action paths maxValidation
    if errorCode ≠ 0 then some (.error requestMap 3 (getTokenErrorMessage errorCode))
    else some (.service (finalizeMessage (serviceMap requestMap paths tokenHandle gatingId)))
  else some (.error requestMap 7 [])

/-- The search for the paths, and what follows from it. -/
def issueSearch (cfg : Config) (m : Moment) (requestMap : GoMap Json) (action : GoString)
    (searchPath : List GoString) : MayPanic Reply :=
  let found := searchPath.map fun path => searchTree cfg path true true []
  if Found.totalMatches found = 0 then some (.error requestMap 6 [])
  else if action = str "set" then do
    let nodeType ← Found.nodeType found
    if nodeType ≠ ACTUATOR then some (.error requestMap 1 [])
    else issueFound m requestMap action found
  else issueFound m requestMap action found

def issueServiceRequest (cfg : Config) (m : Moment) (requestMap : GoMap Json)
    (action : GoString) : MayPanic Reply :=
  if action = str "internal-killsubscriptions" ∨ action = str "internal-cancelsubscription" then
    some (.service (finalizeMessage requestMap))
  else do
    let rootPath ← asString (valueAt requestMap (str "path"))
    let filterList :=
      if isNull (valueAt requestMap (str "filter")) then []
      else unpackFilter m.range (valueAt requestMap (str "filter"))
    match ← scanFilters cfg m requestMap rootPath filterList with
    | .inr reply => some reply
    | .inl [] => issueSearch cfg m requestMap action [rootPath]
    | .inl searchPath => issueSearch cfg m requestMap action searchPath

/-- The request with its path in dot notation; none where the path has a wildcard. -/
def normalizePath (requestMap : GoMap Json) : MayPanic (Option (GoMap Json)) :=
  if isNull (valueAt requestMap (str "path")) then some (some requestMap)
  else do
    let path ← asString (valueAt requestMap (str "path"))
    if contains path (str "*") then some none
    else some (some (requestMap.set (str "path") (.str (urlToPath path))))

/-- The reply to a request; an action that is no string panics. -/
def serveRequest (cfg : Config) (m : Moment) (request : GoString) : MayPanic Reply :=
  match mapRequest request with
  | none => some (.error [] 0 [])
  | some requestMap =>
      if isNull (valueAt requestMap (str "action")) then some (.error requestMap 1 [])
      else do
        let action ← asString (valueAt requestMap (str "action"))
        if ¬ validRequest request action then some (.error requestMap 1 [])
        else
          match ← normalizePath requestMap with
          | none => some (.error requestMap 1 [])
          | some requestMap =>
              if action = str "set" ∧ ¬ isNull (valueAt requestMap (str "filter")) then
                some (.error requestMap 0 [])
              else if action = str "unsubscribe" then some (.service request)
              else issueServiceRequest cfg m requestMap action

end VissServer.Core

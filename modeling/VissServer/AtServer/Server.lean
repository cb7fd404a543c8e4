import VissServer.AtServer.Requests

/-!
The messages of the ECF and of the core, the expiry tick, and the select loop of
AtServerInit, one arm of which is one step.
-/
namespace VissServer.AtServer

open Go Utils

/-- The number that a messageId member holds: the outer none is the panic of a
member that is no string, the inner none an id that is missing. -/
def messageId (requestMap : GoMap Json) : MayPanic (Option GoString) :=
  if isNull (valueAt requestMap (str "messageId")) then some none
  else (asString (valueAt requestMap (str "messageId"))).map some

def consentReplyResponse (s : State) (request : GoString) : MayPanic (State × GoString) := do
  match unmarshalMap request with
  | none => some (s, str "\x7b\"action\":\"consent-reply\", \"status\":\"401-Bad request\"\x7d")
  | some requestMap =>
      match ← messageId requestMap with
      | none => some (s, str "\x7b\"action\":\"consent-reply\", \"status\":\"404-Not found\"\x7d")
      | some id =>
          match atoi id with
          | none =>
              some (s, str "\x7b\"action\":\"consent-reply\", \"status\":\"401-Bad request\"\x7d")
          | some gatingId =>
              match s.pendingSlot gatingId with
              | some i => do
                  let consent ← asString (valueAt requestMap (str "consent"))
                  some (s.setPending i { s.pendingList i with consent },
                    str "\x7b\"action\":\"consent-reply\", \"status\":\"200-OK\"\x7d")
              | none =>
                  some (s, str "\x7b\"action\":\"consent-reply\", \"status\":\"404-Not found\"\x7d")

/-- The next state, the gating id that is sent to the core for a removed token, and
the response. -/
def consentCancelResponse (s : State) (request : GoString) :
    MayPanic (State × List Effect × GoString) := do
  match unmarshalMap request with
  | none =>
      some (s, [], str "\x7b\"action\":\"consent-cancel\", \"status\":\"401-Bad request\"\x7d")
  | some requestMap =>
      match ← messageId requestMap with
      | none =>
          some (s, [], str "\x7b\"action\":\"consent-cancel\", \"status\":\"404-Not found\"\x7d")
      | some id =>
          match atoi id with
          | none => some (s, [],
              str "\x7b\"action\":\"consent-cancel\", \"status\":\"401-Bad request\"\x7d")
          | some gatingId =>
              match s.pendingSlot gatingId, s.activeSlot gatingId with
              | some i, _ => some (removeFromPendingList s i, [],
                  str "\x7b\"action\":\"consent-cancel\", \"status\":\"200-OK\"\x7d")
              | none, some i => some (removeFromActiveList s i, [.cancel id],
                  str "\x7b\"action\":\"consent-cancel\", \"status\":\"200-OK\"\x7d")
              | none, none => some (s, [],
                  str "\x7b\"action\":\"consent-cancel\", \"status\":\"404-Not found\"\x7d")

def generateEcfResponse (s : State) (input : GoString) : Outcome :=
  if contains input (str "consent-reply") then
    (consentReplyResponse s input).map fun r => (r.1, [.ecf r.2])
  else if contains input (str "consent-cancel") then
    (consentCancelResponse s input).map fun r => (r.1, r.2.1 ++ [.ecf r.2.2])
  else some (s, [.ecf (str "\x7b\"action\":\"unknown\",\"status\":\"401-Bad request\"\x7d")])

/-- The context member of a no-scope request, decoded into a NoScopePayload. -/
def noScopeContext (input : GoString) : Option GoString :=
  (parseText input).bind (decodeStruct (fun context key v =>
    if fieldNamed (str "context") key then Go.decodeString context v else some context) [])

def noScopeResponse (cfg : Config) (input : GoString) : MayPanic GoString :=
  match noScopeContext input with
  | none => some (str "\x7b\"no_access\":\"\"\x7d")
  | some context => do
      let res ← getNoAccessScope cfg context
      some (str "\x7b\"no_access\":" ++ res ++ str "\x7d")

structure AtValidatePayload where
  token : GoString := []
  paths : List GoString := []
  action : GoString := []
  validation : GoString := []

/-- An array sets the paths, whatever its member is named. -/
def extractAtValidatePayloadLevel2 (pathList : List Json) (payload : AtValidatePayload) :
    AtValidatePayload :=
  { payload with paths := pathList.map fun v => (asString v).getD [] }

/-- The members are visited in the order they are given. -/
def extractAtValidatePayloadLevel1 (members : GoMap Json) (payload : AtValidatePayload) :
    AtValidatePayload :=
  members.foldl (fun payload p =>
    match p.2 with
    | .arr pathList => extractAtValidatePayloadLevel2 pathList payload
    | .str v =>
        if p.1 = str "token" then { payload with token := v }
        else if p.1 = str "action" then { payload with action := v }
        else if p.1 = str "validation" then { payload with validation := v }
        else if p.1 = str "paths" then { payload with paths := [v] }
        else payload
    | _ => payload) payload

/-- Whether a presented text is the token or the handle of a slot, free or not. -/
def ActiveListElem.matchesToken (e : ActiveListElem) (token : GoString) : Bool :=
  token = e.atoken || token = e.atokenHandle

def getCompleteToken (s : State) (token : GoString) : GoString :=
  match firstSlot (fun e => e.matchesToken token) s.activeList with
  | some i => (s.activeList i).atoken
  | none => []

def getGatingIdAndTokenHandle (s : State) (token : GoString) : GoString × GoString :=
  match firstSlot (fun e => token = e.atoken) s.activeList with
  | some i => (itoa (s.activeList i).gatingId, (s.activeList i).atokenHandle)
  | none => ([], [])

def validateTokenExpiry (now : ℤ) (token : GoString) : MayPanic ℤ := do
  let iatStr ← extractFromToken token (str "iat")
  match atoi iatStr with
  | none => some 10
  | some iat =>
      if now < iat * second then some 11
      else
        let expStr ← extractFromToken token (str "exp")
        match atoi expStr with
        | none => some 15
        | some exp => if exp * second < now then some 16 else some 0

/-- The error code of the checks on a complete token, 0 where all succeed. -/
def validateToken (cfg : Config) (now : ℤ) (payload : AtValidatePayload) (token : GoString) :
    MayPanic ℤ := do
  if ¬ verifyTokenSignature cfg.crypto token theAtSecret then some 5
  else
    let purpose ← extractFromToken token (str "scp")
    let res := validateRequestAccess cfg purpose payload.action payload.paths
    if res ≠ 0 then some res else validateTokenExpiry now token

def decodeValidate (m : Moment) (input : GoString) : Option AtValidatePayload :=
  (unmarshalMap input).map fun inputMap => extractAtValidatePayloadLevel1 (m.range inputMap) {}

def tokenValidationResponse (cfg : Config) (m : Moment) (s : State) (input : GoString) :
    MayPanic GoString :=
  match decodeValidate m input with
  | none => some (str "\x7b\"validation\":\"1\"\x7d")
  | some payload => do
      let token := getCompleteToken s payload.token
      let res ← validateToken cfg m.now payload token
      if res ≠ 0 then some (str "\x7b\"validation\":\"" ++ itoa res ++ str "\"\x7d")
      else
        let (gatingId, tokenHandle) := getGatingIdAndTokenHandle s token
        if tokenHandle ≠ [] then
          some (str "\x7b\"validation\":\"0\", \"gatingId\":\"" ++ gatingId ++
            str "\", \"handle\":\"" ++ tokenHandle ++ str "\"\x7d")
        else some (str "\x7b\"validation\":\"0\", \"gatingId\":\"" ++ gatingId ++ str "\"\x7d")

def generateParentResponse (cfg : Config) (m : Moment) (s : State) (input : GoString) :
    MayPanic GoString :=
  if contains input (str "context") then noScopeResponse cfg input
  else tokenValidationResponse cfg m s input

/-- What a select of AtServerInit receives, and the end of a deleteJti sleep. -/
inductive Event
  | client (request : GoString)
  | parent (request : GoString)
  | ecf (message : GoString)
  | expiryTick
  | deleteJti (jti : GoString)
  deriving DecidableEq

def ecfStep (s : State) (message : GoString) : Outcome :=
  if message = str "internal-ecfAvailable" then some ({ s with ecfAvailable := true }, [])
  else if contains message (str "status") then some (s, [])
  else generateEcfResponse s message

def expiryStep (m : Moment) (s : State) : State × List Effect :=
  let r := purgeLists m.now s
  (r.1, r.2.toList.map fun gatingId => .cancel (itoa gatingId))

/-- One pass of the loop of AtServerInit. -/
def step (cfg : Config) (m : Moment) (s : State) : Event → Outcome
  | .client request => generateClientResponse cfg m s request
  | .parent request => (generateParentResponse cfg m s request).map fun r => (s, [.parent r])
  | .ecf message => ecfStep s message
  | .expiryTick => some (expiryStep m s)
  | .deleteJti jti => some ({ s with jtiCache := s.jtiCache.filter fun j => j ≠ jti }, [])

end VissServer.AtServer

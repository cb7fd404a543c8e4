import VissServer.AtServer.Policy

/-!
Requests of clients to the access token server: at-request with the checks of the
access grant token and of the proof of possession, and at-inquiry. A handler
returns the next state and the effects in the order of the code; the pair of
generateAt and writeToActiveList is recorded as an issue effect.
-/
namespace VissServer.AtServer

open Go Utils

/-- What the environment supplies while one message is handled. -/
structure Moment where
  now : ℤ
  /-- uuid.NewRandom; none is its error. -/
  uuid : Option GoString
  /-- The order in which range visits the members of a map. -/
  range : GoMap Json → GoMap Json
  range_perm : ∀ m, (range m).Perm m

/-- time.Now().Unix(). -/
def Moment.unix (m : Moment) : ℤ := m.now / second

inductive Effect
  | client (response : GoString)
  | parent (response : GoString)
  | ecf (message : GoString)
  | cancel (gatingId : GoString)
  | issue (purpose atoken : GoString)
  deriving DecidableEq

abbrev Outcome := MayPanic (State × List Effect)

def AT_DURATION : ℤ := 1 * 60 * 60

def GAP : ℤ := 3

def LIFETIME : ℤ := 5

def theAtSecret : GoString := str "averysecretkeyvalue2"

namespace AtGenPayload

def setField (payload : AtGenPayload) (key : GoString) (v : Json) : Option AtGenPayload :=
  if fieldNamed (str "agToken") key then
    (Go.decodeString payload.token v).map fun x => { payload with token := x }
  else if fieldNamed (str "purpose") key then
    (Go.decodeString payload.purpose v).map fun x => { payload with purpose := x }
  else if fieldNamed (str "pop") key then
    (Go.decodeString payload.pop v).map fun x => { payload with pop := x }
  else if fieldNamed (str "Agt") key then
    (decodeStruct ExtendedJwt.setField payload.agt v).map fun x => { payload with agt := x }
  else if fieldNamed (str "PopTk") key then
    (decodeStruct PopToken.setField payload.popTk v).map fun x => { payload with popTk := x }
  else some payload

/-- json.Unmarshal into a zero AtGenPayload. -/
def unmarshal (request : GoString) : Option AtGenPayload :=
  (parseText request).bind (decodeStruct setField {})

end AtGenPayload

/-- Whether the id is new, and the cache that then holds it. -/
def addCheckJti (jtiCache : List GoString) (jti : GoString) : Bool × List GoString :=
  if jti ∈ jtiCache then (false, jtiCache) else (true, jti :: jtiCache)

/-- The error response, empty where the proof of possession is accepted, and the
cache, which holds the id of the proof even where a later check fails. -/
def validatePop (cfg : Config) (m : Moment) (jtiCache : List GoString) (payload : AtGenPayload) :
    MayPanic (GoString × List GoString) := do
  let (isNew, cache) := addCheckJti jtiCache (claim payload.popTk.payloadClaims (str "jti"))
  if ¬ isNew then some (str "\x7b\"error\": \"Repeated JTI\"\x7d", cache)
  else if ¬ (← payload.popTk.checkSignature cfg.crypto) then
    some (str "\x7b\"error\": \"Cannot validate POP signature\"\x7d", cache)
  else if ¬ payload.popTk.checkIat m.unix GAP LIFETIME then
    some (str "\x7b\"error\": \"Cannot validate POP iat\"\x7d", cache)
  else if ¬ payload.popTk.checkThumb (claim payload.agt.payloadClaims (str "pub")) then
    some (str "\x7b\"error\": \"Keys in POP and AGToken are not matching\"\x7d", cache)
  else if ¬ payload.popTk.checkAud (str "vissv2/agts") then
    some (str "\x7b\"error\": \"Invalid aud\"\x7d", cache)
  else some ([], cache)

def validateTokenTimestamps (now iat exp : ℤ) : Bool :=
  ¬ (now < iat * second) && ¬ (exp * second < now)

/-- The error response, empty where the request is valid, and the cache of used
proof ids. checkVin accepts every vehicle identification. -/
def validateRequest (cfg : Config) (m : Moment) (jtiCache : List GoString)
    (payload : AtGenPayload) : MayPanic (GoString × List GoString) := do
  let claims := payload.agt.payloadClaims
  if ¬ payload.agt.token.checkRsaSignature cfg.crypto cfg.agtKey then
    some (str "\x7b\"error\": \"AG token signature validation failed\"\x7d", jtiCache)
  else
    match atoi (claim claims (str "iat")), atoi (claim claims (str "exp")) with
    | none, _ => some (str "\x7b\"error\": AG token iat timestamp malformed\"\x7d", jtiCache)
    | some _, none =>
        some (str "\x7b\"error\": \"AG token exp timestamp malformed\"\x7d", jtiCache)
    | some iat, some exp =>
        if ¬ validateTokenTimestamps m.now iat exp then
          some (str "\x7b\"error\": \"AG token timestamp validation failed\"\x7d", jtiCache)
        else
          let (errResponse, cache) ←
            if claim claims (str "pub") ≠ [] then validatePop cfg m jtiCache payload
            else some ([], jtiCache)
          if errResponse ≠ [] then some (errResponse, cache)
          else if ← validatePurpose cfg payload.purpose (claim claims (str "clx")) then
            some ([], cache)
          else some (str "\x7b\"error\": \"Purpose validation failed\"\x7d", cache)

/-- The unsigned access token of a payload. -/
def accessTokenOf (m : Moment) (payload : AtGenPayload) (jti : GoString) : JsonWebToken :=
  ((((((({} : JsonWebToken).setHeader (str "HS256")).addClaim (str "iat") (itoa m.unix)).addClaim
    (str "exp") (itoa (m.unix + AT_DURATION))).addClaim (str "scp") payload.purpose).addClaim
    (str "clx") (claim payload.agt.payloadClaims (str "clx"))).addClaim
    (str "aud") (str "w3org/gen2")).addClaim (str "jti") jti

def generateAt (cfg : Config) (m : Moment) (payload : AtGenPayload) : GoString :=
  match m.uuid with
  | none => str "\x7b\"error\": \"Internal error\"\x7d"
  | some jti => ((accessTokenOf m payload jti).symmSign cfg.crypto theAtSecret).getFullToken

/-- generateAt followed by writeToActiveList. -/
def issueAt (cfg : Config) (m : Moment) (s : State) (gatingId : ℤ) (payload : AtGenPayload) :
    MayPanic (State × GoString) := do
  let atoken := generateAt cfg m payload
  let s ← writeToActiveList m.now s gatingId atoken
  some (s, atoken)

/-- The message that asks the ECF for consent. -/
def consentAsk (cfg : Config) (payload : AtGenPayload) (gatingId : ℤ) : GoString :=
  str "\x7b\"action\": \"consent-ask\", \"user-roles\": \"" ++
    claim payload.agt.payloadClaims (str "clx") ++ str "\", \"purpose\": \"" ++ payload.purpose ++
    str "\", \"signal_access\":" ++ getSignalAccess cfg payload.purpose ++
    str ", \"messageId\": \"" ++ itoa gatingId ++ str "\"\x7d"

/-- What accessTokenResponse does for a payload that passed validateRequest. -/
def grantRequest (cfg : Config) (m : Moment) (s : State) (payload : AtGenPayload) : Outcome :=
  let gatingId := newGatingId s
  if checkifConsent cfg payload.purpose then
    if s.ecfAvailable then do
      let s ← writeToPendingList m.now s gatingId payload
      some (s, [.ecf (consentAsk cfg payload gatingId), .client (
        str "\x7b\"action\": \"at-request\", \"sessionId\":\"" ++ itoa gatingId ++
          str "\", \"consent\":\"NOT_SET\"\x7d")])
    else some (s, [.client (str
      "\x7b\"action\": \"at-request\", \"error\":\"consent framework not accessible\"\x7d")])
  else do
    let (s, atoken) ← issueAt cfg m s gatingId payload
    some (s, [.issue payload.purpose atoken, .client (
      str "\x7b\"action\": \"at-request\", \"aToken\":\"" ++ atoken ++ str "\"\x7d")])

/-- The payload of an at-request: the inner values are its errors, in their order. -/
def decodeRequest (cfg : Config) (request : GoString) :
    MayPanic (GoString ⊕ AtGenPayload) := do
  match AtGenPayload.unmarshal request with
  | none => some (.inl (str
      "\x7b\"action\": \"at-request\", \"error\": \"Client request malformed\"\x7d"))
  | some payload =>
      match payload.agt.decodeFromFull payload.token with
      | none => some (.inl (str
          "\x7b\"action\": \"at-request\", \"error\":\"AGT Malformed\"\x7d"))
      | some agt =>
          let payload := { payload with agt }
          if payload.pop = [] then some (.inr payload)
          else
            match ← payload.popTk.unmarshal cfg.crypto payload.pop with
            | none => some (.inl (str
                "\x7b\"action\": \"at-request\", \"error\":\"POP malformed\"\x7d"))
            | some popTk => some (.inr { payload with popTk })

def accessTokenResponse (cfg : Config) (m : Moment) (s : State) (request : GoString) :
    Outcome := do
  match ← decodeRequest cfg request with
  | .inl errResponse => some (s, [.client errResponse])
  | .inr payload =>
      let (errResponse, jtiCache) ← validateRequest cfg m s.jtiCache payload
      let s := { s with jtiCache }
      if errResponse = [] then grantRequest cfg m s payload
      else some (s, [.client errResponse])

/-- The string member of that name; a member that is missing or no string panics. -/
def extractKeyValue (key input : GoString) : MayPanic GoString :=
  match unmarshalMap input with
  | none => some []
  | some inputMap => asString (valueAt inputMap key)

/-- -1 where the session id is not a number. -/
def extractGatingId (input : GoString) : MayPanic ℤ :=
  (extractKeyValue (str "sessionId") input).map fun id => (atoi id).getD (-1)

/-- What consentInquiryResponse does at the slot its scan stops at. -/
def inquirySlot (cfg : Config) (m : Moment) (s : State) (gatingId : ℤ) (i : Slot) : Outcome :=
  let e := s.pendingList i
  if e.consent = str "NOT_SET" then
    some (s, [.client (str "\x7b\"action\": \"at-inquiry\", \"sessionId\":" ++ itoa gatingId ++
      str "\", \"consent\":\"NOT_SET\"\x7d")])
  else if e.consent = str "NO" then
    some (removeFromPendingList s i,
      [.client (str "\x7b\"action\": \"at-inquiry\", \"consent\":\"NO\"\x7d")])
  else do
    -- YES or IN_VEHICLE, and every other text
    let (s, atoken) ← issueAt cfg m (removeFromPendingList s i) gatingId e.atGenData
    some (s, [.issue e.atGenData.purpose atoken, .client (
      str "\x7b\"action\": \"at-inquiry\", \"aToken\":\"" ++ atoken ++ str "\", \"consent\":\"" ++
        e.consent ++ str "\"\x7d")])

def consentInquiryResponse (cfg : Config) (m : Moment) (s : State) (input : GoString) :
    Outcome := do
  let gatingId ← extractGatingId input
  match s.pendingSlot gatingId with
  | some i => inquirySlot cfg m s gatingId i
  | none =>
      some (s, [.client (str "\x7b\"action\": \"at-inquiry\", \"error\":\"404 - Not-found\"\x7d")])

def generateClientResponse (cfg : Config) (m : Moment) (s : State) (input : GoString) : Outcome :=
  if contains input (str "at-request") then accessTokenResponse cfg m s input
  else if contains input (str "at-inquiry") then consentInquiryResponse cfg m s input
  else some (s, [.client (str "\x7b\"action\":\"unknown\",\"status\":\"401-Bad request\"\x7d")])

end VissServer.AtServer

import VissServer.Utils.Tokens

/-!
The access grant token server: the request of a client, with the roles it claims and its
proof of possession where it has one, and the grant token it is given. One pass of the loop
of main handles a body and the PoP header behind it.
-/
namespace VissServer.AgtServer

open Go Utils

structure Payload where
  vin : GoString := []
  context : GoString := []
  proof : GoString := []
  key : GoString := []
  deriving DecidableEq

/-- The server's crypto libraries and its private key. -/
structure Config where
  crypto : Crypto
  /-- rsa.SignPKCS1v15 of a hash; none is its error. -/
  sign : GoString → Option GoString

/-- What the environment supplies while one request is handled. -/
structure Moment where
  now : ℤ
  /-- uuid.NewRandom; none is its error. -/
  uuid : Option GoString

def second : ℤ := 1000000000

/-- time.Now().Unix(). -/
def Moment.unix (m : Moment) : ℤ := m.now / second

def LT_DURATION : ℤ := 4 * 24 * 60 * 60

def ST_DURATION : ℤ := 4 * 60 * 60

def GAP : ℤ := 3

def LIFETIME : ℤ := 5 * 60

namespace Payload

def setField (payload : Payload) (key : GoString) (v : Json) : Option Payload :=
  if fieldNamed (str "vin") key then
    (Go.decodeString payload.vin v).map fun x => { payload with vin := x }
  else if fieldNamed (str "context") key then
    (Go.decodeString payload.context v).map fun x => { payload with context := x }
  else if fieldNamed (str "proof") key then
    (Go.decodeString payload.proof v).map fun x => { payload with proof := x }
  else if fieldNamed (str "key") key then
    (Go.decodeString payload.key v).map fun x => { payload with key := x }
  else some payload

/-- json.Unmarshal into a zero Payload. -/
def unmarshal (input : GoString) : Option Payload :=
  (parseText input).bind (decodeStruct setField {})

end Payload

def checkUserRole (userRole : GoString) : Bool :=
  userRole = str "OEM" || userRole = str "Dealer" || userRole = str "Independent" ||
    userRole = str "Owner" || userRole = str "Driver" || userRole = str "Passenger"

def checkAppRole (appRole : GoString) : Bool :=
  appRole = str "OEM" || appRole = str "Third party"

def checkDeviceRole (deviceRole : GoString) : Bool :=
  deviceRole = str "Vehicle" || deviceRole = str "Nomadic" || deviceRole = str "Cloud"

/-- The three roles of a context with two plus signs. -/
def checkRoles (context : GoString) : MayPanic Bool :=
  if context.count 43 ≠ 2 then some false
  else do
    let delimiter1 := index context (str "+")
    let rest ← sliceFrom context (delimiter1 + 1)
    let delimiter2 := index rest (str "+")
    if ¬ checkUserRole (← slice context 0 delimiter1) then some false
    else if ¬ checkAppRole (← slice context (delimiter1 + 1) (delimiter1 + 1 + delimiter2)) then
      some false
    else some (checkDeviceRole (← sliceFrom context (delimiter1 + 1 + delimiter2 + 1)))

def authenticateClient (payload : Payload) : MayPanic Bool := do
  some ((← checkRoles payload.context) && payload.proof = str "ABC")

/-- Whether the id is new, and the cache that then holds it. -/
def addCheckJti (jtiCache : List GoString) (jti : GoString) : Bool × List GoString :=
  if jti ∈ jtiCache then (false, jtiCache) else (true, jti :: jtiCache)

/-- What deleteJti does after its sleep. -/
def deleteJti (jtiCache : List GoString) (jti : GoString) : List GoString :=
  jtiCache.filter fun j => j ≠ jti

/-- getUUID; the empty text where there is no random number. -/
def getUUID (m : Moment) : GoString := m.uuid.getD []

/-- The unsigned grant token without the claim pub. -/
def grantOf (m : Moment) (payload : Payload) (duration : ℤ) : JsonWebToken :=
  ((((((({} : JsonWebToken).setHeader (str "RS256")).addClaim (str "vin") payload.vin).addClaim
    (str "iat") (itoa m.unix)).addClaim (str "exp") (itoa (m.unix + duration))).addClaim
    (str "clx") payload.context).addClaim (str "aud") (str "w3org/gen2")).addClaim
    (str "jti") (getUUID m)

/-- The response with a token, which is encoded and signed. -/
def tokenResponse (cfg : Config) (jwtoken : JsonWebToken) : GoString :=
  str "\x7b\"action\": \"agt-request\", \"token\":\"" ++
    (jwtoken.encode.assymSign cfg.crypto cfg.sign).getFullToken ++ str "\"\x7d"

/-- No error response is the text of a token. -/
theorem tokenText_ne (token : GoString) {errResponse : GoString}
    (h : errResponse.take 28 = str "\x7b\"action\": \"agt-request\", \"e") :
    errResponse ≠ str "\x7b\"action\": \"agt-request\", \"token\":\"" ++ token ++ str "\"\x7d" := by
  rintro rfl
  rw [List.append_assoc, List.take_append_of_le_length (by decide)] at h
  exact absurd h (by decide)

/-- The error response of the checks behind addCheckJti, none where they all succeed. -/
def checkPop (cfg : Config) (m : Moment) (payload : Payload) (popToken : PopToken) :
    MayPanic (Option GoString) := do
  if ¬ (← popToken.checkSignature cfg.crypto) then
    some (some (str "\x7b\"action\": \"agt-request\", \"error\": \"Invalid POP signature\"\x7d"))
  else if ¬ (← popToken.validate cfg.crypto m.unix payload.key (str "vissv2/agts") GAP
      LIFETIME) then
    some (some (str "\x7b\"action\": \"agt-request\", \"error\": \"Invalid POP Token\"\x7d"))
  else some none

/-- The response and the cache of used proof ids, which holds the id of the proof even
where a later check fails. -/
def generateLTAgt (cfg : Config) (m : Moment) (jtiCache : List GoString) (payload : Payload)
    (pop : GoString) : MayPanic (GoString × List GoString) := do
  match ← ({} : PopToken).unmarshal cfg.crypto pop with
  | none => some (str
      "\x7b\"action\": \"agt-request\", \"error\": \"Client request malformed\"\x7d", jtiCache)
  | some popToken =>
      let (isNew, cache) := addCheckJti jtiCache (claim popToken.payloadClaims (str "jti"))
      if ¬ isNew then
        some (str "\x7b\"action\": \"agt-request\", \"error\": \"Repeated JTI\"\x7d", cache)
      else
        match ← checkPop cfg m payload popToken with
        | some errResponse => some (errResponse, cache)
        | none => some (tokenResponse cfg
            ((grantOf m payload LT_DURATION).addClaim (str "pub") payload.key), cache)

def generateAgt (cfg : Config) (m : Moment) (payload : Payload) : GoString :=
  tokenResponse cfg (grantOf m payload ST_DURATION)

def generateResponse (cfg : Config) (m : Moment) (jtiCache : List GoString)
    (input pop : GoString) : MayPanic (GoString × List GoString) :=
  match Payload.unmarshal input with
  | none => some (str
      "\x7b\"action\": \"agt-request\", \"error\": \"Client request malformed\"\x7d", jtiCache)
  | some payload => do
      if ← authenticateClient payload then
        if pop ≠ [] then generateLTAgt cfg m jtiCache payload pop
        else some (generateAgt cfg m payload, jtiCache)
      else some (str
        "\x7b\"action\": \"agt-request\", \"error\": \"Client authentication failed\"\x7d",
        jtiCache)

end VissServer.AgtServer

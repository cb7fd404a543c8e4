import VissServer.Go.Base64
import VissServer.Go.JsonDecode

/-!
JSON web tokens and proof-of-possession tokens (utils/datatypes.go,
utils/cryptoutils.go and ExtractFromToken of utils/common.go). The primitives of
Go's crypto packages are the fields of Crypto.
-/
namespace VissServer.Utils

open Go

structure RsaPublicKey where
  n : ℕ
  e : ℤ

/-- A public key on the curve P-256. -/
structure EcdsaPublicKey where
  x : ℕ
  y : ℕ

structure Crypto where
  sha256 : GoString → GoString
  hmacSha256 : (key message : GoString) → GoString
  /-- rsa.VerifyPKCS1v15 on the SHA-256 hash; true stands for a nil error. -/
  verifyPkcs1v15 : RsaPublicKey → (hashed signature : GoString) → Bool
  ecdsaVerify : EcdsaPublicKey → (hashed : GoString) → (r s : ℕ) → Bool

/-- big.Int.SetBytes. -/
def bigInt (bytes : GoString) : ℕ := bytes.foldl (fun n b => 256 * n + b.toNat) 0

/-- jsonRecursiveMarshall appends a member to the text of an object. -/
def jsonRecursiveMarshall (key value jplain : GoString) : GoString :=
  if key = [] ∨ value = [] then jplain
  else
    let value := if value.head? = some 123 then value else str "\"" ++ value ++ str "\""
    if jplain = [] then
      str "\x7b\"" ++ key ++ str "\":" ++ value ++ str "\x7d"
    else jplain.dropLast ++ str ",\"" ++ key ++ str "\":" ++ value ++ str "\x7d"

structure JsonWebToken where
  header : GoString := []
  payload : GoString := []
  encodedHeader : GoString := []
  encodedPayload : GoString := []
  encodedSignature : GoString := []
  deriving DecidableEq

namespace JsonWebToken

def setHeader (token : JsonWebToken) (algorithm : GoString) : JsonWebToken :=
  { token with header := str "\x7b\"alg\":\"" ++ algorithm ++ str "\",\"typ\":\"JWT\"\x7d" }

def addClaim (token : JsonWebToken) (key value : GoString) : JsonWebToken :=
  { token with payload := jsonRecursiveMarshall key value token.payload }

def encode (token : JsonWebToken) : JsonWebToken :=
  { token with
    encodedHeader := Base64.encode token.header
    encodedPayload := Base64.encode token.payload }

/-- The bytes that a signature is made over. -/
def signedText (token : JsonWebToken) : GoString :=
  token.encodedHeader ++ str "." ++ token.encodedPayload

def symmSign (crypto : Crypto) (token : JsonWebToken) (key : GoString) : JsonWebToken :=
  { token.encode with
    encodedSignature := Base64.encode (crypto.hmacSha256 key token.encode.signedText) }

/-- AssymSign with a key that gives that signature of a hash; without one the token stays
unsigned. -/
def assymSign (crypto : Crypto) (token : JsonWebToken) (sign : GoString → Option GoString) :
    JsonWebToken :=
  match sign (crypto.sha256 token.encode.signedText) with
  | none => token.encode
  | some signature => { token.encode with encodedSignature := Base64.encode signature }

def getFullToken (token : JsonWebToken) : GoString :=
  token.encodedHeader ++ str "." ++ token.encodedPayload ++ str "." ++ token.encodedSignature

/-- The token after decoding and whether there was no error. The fields that were
set before an error keep their new values. -/
def decodeFromFull (token : JsonWebToken) (input : GoString) : JsonWebToken × Bool :=
  match splitByte 46 input with
  | [h, p, s] =>
      let token := { token with encodedHeader := h, encodedPayload := p, encodedSignature := s }
      match Base64.decode h with
      | none => (token, false)
      | some header =>
          let token := { token with header := header }
          match Base64.decode p with
          | none => (token, false)
          | some payload => ({ token with payload := payload }, true)
  | _ => (token, false)

/-- CheckSignature with a string key; true stands for a nil error. -/
def checkSignature (crypto : Crypto) (token : JsonWebToken) (key : GoString) : Bool :=
  contains token.header (str "HS256") &&
    Base64.encode (crypto.hmacSha256 key token.signedText) = token.encodedSignature

/-- CheckAssymSignature with an RSA key. -/
def checkRsaSignature (crypto : Crypto) (token : JsonWebToken) (key : RsaPublicKey) : Bool :=
  match Base64.decode token.encodedSignature with
  | none => false
  | some signature => crypto.verifyPkcs1v15 key (crypto.sha256 token.signedText) signature

/-- CheckAssymSignature with an ECDSA key: the slices of the signature panic where
it has fewer than 32 bytes. -/
def checkEcdsaSignature (crypto : Crypto) (token : JsonWebToken) (key : EcdsaPublicKey) :
    MayPanic Bool :=
  match Base64.decode token.encodedSignature with
  | none => some false
  | some signature => do
      let r ← slice signature 0 32
      let s ← sliceFrom signature 32
      some (crypto.ecdsaVerify key (crypto.sha256 token.signedText) (bigInt r) (bigInt s))

/-- Decoding of a JSON member into the struct. -/
def setField (token : JsonWebToken) (key : GoString) (v : Json) : Option JsonWebToken :=
  if fieldNamed (str "Header") key then
    (Go.decodeString token.header v).map fun x => { token with header := x }
  else if fieldNamed (str "Payload") key then
    (Go.decodeString token.payload v).map fun x => { token with payload := x }
  else if fieldNamed (str "EncodedHeader") key then
    (Go.decodeString token.encodedHeader v).map fun x => { token with encodedHeader := x }
  else if fieldNamed (str "EncodedPayload") key then
    (Go.decodeString token.encodedPayload v).map fun x => { token with encodedPayload := x }
  else if fieldNamed (str "EncodedSignature") key then
    (Go.decodeString token.encodedSignature v).map fun x => { token with encodedSignature := x }
  else some token

end JsonWebToken

/-- VerifyTokenSignature; true stands for a nil error. -/
def verifyTokenSignature (crypto : Crypto) (token key : GoString) : Bool :=
  let jwt := ({} : JsonWebToken).decodeFromFull token
  jwt.2 && jwt.1.checkSignature crypto key

/-- The value of a claim, cut out of the decoded text by position; the claim name
is searched for anywhere in the text. -/
def claimValue (decoded claim : GoString) : MayPanic GoString := do
  let startIndex := index decoded claim + claim.length + 2
  let afterStart ← sliceFrom decoded startIndex
  let comma := index afterStart (str ",") + startIndex
  let endIndex := if comma = startIndex - 1 then (decoded.length : ℤ) - 1 else comma
  let last ← byteAt decoded (endIndex - 1)
  let endIndex := if last = 34 then endIndex - 1 else endIndex
  let first ← byteAt decoded startIndex
  let startIndex := if first = 34 then startIndex + 1 else startIndex
  slice decoded startIndex endIndex

/-- ExtractFromToken: the claim from the header, else from the payload, else empty. -/
def extractFromToken (token claim : GoString) : MayPanic GoString := do
  let delimiter1 := index token (str ".")
  let afterHeader ← sliceFrom token (delimiter1 + 1)
  let delimiter2 := index afterHeader (str ".") + delimiter1 + 1
  let header ← slice token 0 delimiter1
  let payload ← slice token (delimiter1 + 1) delimiter2
  let decodedHeader := (Base64.decodeString header).1
  if index decodedHeader claim ≠ -1 then claimValue decodedHeader claim
  else
    let decodedPayload := (Base64.decodeString payload).1
    if index decodedPayload claim ≠ -1 then claimValue decodedPayload claim
    else some []

structure ExtendedJwt where
  token : JsonWebToken := {}
  headerClaims : GoMap GoString := []
  payloadClaims : GoMap GoString := []
  deriving DecidableEq

/-- The claim of a string map; a missing one is empty. -/
def claim (claims : GoMap GoString) (key : GoString) : GoString := (claims.get key).getD []

namespace ExtendedJwt

/-- DecodeFromFull; claims that the maps held already are kept. -/
def decodeFromFull (ext : ExtendedJwt) (input : GoString) : Option ExtendedJwt := do
  let decoded := ext.token.decodeFromFull input
  if decoded.2 then
    let header ← parseText decoded.1.header
    let headerClaims ← decodeStringMap ext.headerClaims header
    let payload ← parseText decoded.1.payload
    let payloadClaims ← decodeStringMap ext.payloadClaims payload
    some { token := decoded.1, headerClaims, payloadClaims }
  else none

def setField (ext : ExtendedJwt) (key : GoString) (v : Json) : Option ExtendedJwt :=
  if fieldNamed (str "Token") key then
    (decodeStruct JsonWebToken.setField ext.token v).map fun x => { ext with token := x }
  else if fieldNamed (str "HeaderClaims") key then
    (decodeStringMap ext.headerClaims v).map fun x => { ext with headerClaims := x }
  else if fieldNamed (str "PayloadClaims") key then
    (decodeStringMap ext.payloadClaims v).map fun x => { ext with payloadClaims := x }
  else some ext

end ExtendedJwt

structure JsonWebKey where
  thumb : GoString := []
  type : GoString := []
  use : GoString := []
  pubMod : GoString := []
  pubExp : GoString := []
  curve : GoString := []
  xcoord : GoString := []
  ycoord : GoString := []
  deriving DecidableEq

namespace JsonWebKey

def genThumbprint (crypto : Crypto) (jkey : JsonWebKey) : GoString :=
  let text :=
    if jkey.type = str "RSA" then
      jsonRecursiveMarshall (str "n") jkey.pubMod
        (jsonRecursiveMarshall (str "kty") jkey.type
          (jsonRecursiveMarshall (str "e") jkey.pubExp []))
    else if jkey.type = str "EC" then
      jsonRecursiveMarshall (str "y") jkey.ycoord
        (jsonRecursiveMarshall (str "x") jkey.xcoord
          (jsonRecursiveMarshall (str "kty") jkey.type
            (jsonRecursiveMarshall (str "crv") jkey.curve [])))
    else []
  Base64.encode (crypto.sha256 text)

def setField (jkey : JsonWebKey) (key : GoString) (v : Json) : Option JsonWebKey :=
  if fieldNamed (str "kty") key then
    (Go.decodeString jkey.type v).map fun x => { jkey with type := x }
  else if fieldNamed (str "use") key then
    (Go.decodeString jkey.use v).map fun x => { jkey with use := x }
  else if fieldNamed (str "n") key then
    (Go.decodeString jkey.pubMod v).map fun x => { jkey with pubMod := x }
  else if fieldNamed (str "e") key then
    (Go.decodeString jkey.pubExp v).map fun x => { jkey with pubExp := x }
  else if fieldNamed (str "crv") key then
    (Go.decodeString jkey.curve v).map fun x => { jkey with curve := x }
  else if fieldNamed (str "x") key then
    (Go.decodeString jkey.xcoord v).map fun x => { jkey with xcoord := x }
  else if fieldNamed (str "y") key then
    (Go.decodeString jkey.ycoord v).map fun x => { jkey with ycoord := x }
  else some jkey

def unmarshall (crypto : Crypto) (jkey : JsonWebKey) (rcv : GoString) : Option JsonWebKey := do
  let v ← parseText rcv
  let jkey ← decodeStruct setField jkey v
  some { jkey with thumb := jkey.genThumbprint crypto }

end JsonWebKey

structure PopToken where
  headerClaims : GoMap GoString := []
  payloadClaims : GoMap GoString := []
  jwk : JsonWebKey := {}
  jwt : JsonWebToken := {}
  deriving DecidableEq

namespace PopToken

/-- The raw texts without their first and last byte; a text of one byte panics. -/
def trimClaims (raw : GoMap GoString) : MayPanic (GoMap GoString) :=
  raw.mapM fun p => (slice p.2 1 (p.2.length - 1)).map fun v => (p.1, v)

/-- Unmarshal: the inner none is the error. -/
def unmarshal (crypto : Crypto) (popToken : PopToken) (token : GoString) :
    MayPanic (Option PopToken) := do
  let jwt := (popToken.jwt.decodeFromFull token).1
  match unmarshalRaw jwt.header with
  | none => some none
  | some headerMap => do
      let headerClaims ← trimClaims headerMap
      let jwkText := claim headerMap (str "jwk")
      match popToken.jwk.unmarshall crypto jwkText with
      | none => some none
      | some jwk =>
          match unmarshalRaw jwt.payload with
          | none => some none
          | some payloadMap => do
              let payloadClaims ← trimClaims payloadMap
              some (some {
                headerClaims := headerClaims.set (str "jwk") jwkText
                payloadClaims, jwk, jwt })

/-- The exponent int(e.Int64()): the low 64 bits, read as a signed number. -/
def getPubRsa (popToken : PopToken) : Option RsaPublicKey := do
  let n ← Base64.decode popToken.jwk.pubMod
  let e ← Base64.decode popToken.jwk.pubExp
  some { n := bigInt n, e := (BitVec.ofNat 64 (bigInt e)).toInt }

def getPubEcdsa (popToken : PopToken) : Option EcdsaPublicKey := do
  if popToken.jwk.curve = str "P-256" then
    let x ← Base64.decode popToken.jwk.xcoord
    let y ← Base64.decode popToken.jwk.ycoord
    some { x := bigInt x, y := bigInt y }
  else none

def checkThumb (popToken : PopToken) (thumprint : GoString) : Bool :=
  ¬ (thumprint = [] ∨ thumprint ≠ popToken.jwk.thumb)

def checkAud (popToken : PopToken) (aud : GoString) : Bool :=
  claim popToken.payloadClaims (str "aud") = aud

/-- CheckSignature under the key of the token itself; true stands for a nil error. -/
def checkSignature (crypto : Crypto) (popToken : PopToken) : MayPanic Bool :=
  let alg := claim popToken.headerClaims (str "alg")
  if alg = str "RS256" then
    match popToken.getPubRsa with
    | none => some false
    | some key => some (popToken.jwt.checkRsaSignature crypto key)
  else if alg = str "ES256" then
    match popToken.getPubEcdsa with
    | none => some false
    | some key => popToken.jwt.checkEcdsaSignature crypto key
  else some false

/-- CheckIat at the Unix time act. -/
def checkIat (popToken : PopToken) (act : ℤ) (gap lifetime : ℤ) : Bool :=
  match atoi (claim popToken.payloadClaims (str "iat")) with
  | none => false
  | some iat => act < iat + gap + lifetime && iat - gap < act

theorem checkIat_window {popToken : PopToken} {act gap lifetime iat : ℤ}
    (hiat : atoi (claim popToken.payloadClaims (str "iat")) = some iat)
    (h : popToken.checkIat act gap lifetime = true) :
    iat - gap < act ∧ act < iat + gap + lifetime := by
  simp only [checkIat, hiat, Bool.and_eq_true, decide_eq_true_eq] at h
  exact h.symm

def validate (crypto : Crypto) (popToken : PopToken) (act : ℤ) (thumbprint aud : GoString)
    (gap lifetime : ℤ) : MayPanic Bool :=
  if ¬ popToken.checkIat act gap lifetime then some false
  else if ¬ popToken.checkAud aud then some false
  else if ¬ popToken.checkThumb thumbprint then some false
  else popToken.checkSignature crypto

def setField (popToken : PopToken) (key : GoString) (v : Json) : Option PopToken :=
  if fieldNamed (str "HeaderClaims") key then
    (decodeStringMap popToken.headerClaims v).map fun x => { popToken with headerClaims := x }
  else if fieldNamed (str "PayloadClaims") key then
    (decodeStringMap popToken.payloadClaims v).map fun x => { popToken with payloadClaims := x }
  else if fieldNamed (str "Jwk") key then
    (decodeStruct JsonWebKey.setField popToken.jwk v).map fun x => { popToken with jwk := x }
  else if fieldNamed (str "Jwt") key then
    (decodeStruct JsonWebToken.setField popToken.jwt v).map fun x => { popToken with jwt := x }
  else some popToken

end PopToken

end VissServer.Utils

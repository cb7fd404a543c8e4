import VissServer.AgtServer.Requests
import VissServer.AtServer.Replays

/-!
The cache of used proof ids of the access grant token server over the time that passes,
and the result for both token servers: a proof of possession is accepted once by each.
-/
namespace VissServer.AgtServer

open Go Utils Runs

/-- The payload and the proof of possession that a request presents to generateLTAgt. -/
def presented (cfg : Config) (body pop : GoString) : Option (Payload × PopToken) :=
  match Payload.unmarshal body with
  | none => none
  | some payload =>
      if authenticateClient payload = some true ∧ pop ≠ [] then
        match ({} : PopToken).unmarshal cfg.crypto pop with
        | some (some popToken) => some (payload, popToken)
        | _ => none
      else none

def jtiOf (proof : Payload × PopToken) : GoString := claim proof.2.payloadClaims (str "jti")

/-- The sleep of deleteJti. -/
def jtiRetention : ℤ := (GAP + LIFETIME + 5) * second

structure Clocked where
  jtiCache : List GoString
  /-- The ids to be deleted, with the times at which they were stored. -/
  sleeping : List (GoString × ℤ)
  clock : ℤ

inductive Event
  | request (m : Moment) (body pop : GoString)
  | wake (m : Moment) (sleeper : GoString × ℤ)

/-- The sleepers after a request: addCheckJti starts one where the id is new. -/
def startSleeper (cfg : Config) (m : Moment) (x : Clocked) (body pop : GoString) :
    List (GoString × ℤ) :=
  match presented cfg body pop with
  | none => x.sleeping
  | some proof =>
      if jtiOf proof ∈ x.jtiCache then x.sleeping else (jtiOf proof, m.now) :: x.sleeping

/-- One pass of the loop of main, or the end of a sleep, at a time that is not before the
time of the last one. -/
def clockedStep (cfg : Config) (x : Clocked) : Event → Option (Clocked × GoString)
  | .request m body pop =>
      if x.clock ≤ m.now then
        (generateResponse cfg m x.jtiCache body pop).map fun r =>
          (⟨r.2, startSleeper cfg m x body pop, m.now⟩, r.1)
      else none
  | .wake m sleeper =>
      if x.clock ≤ m.now ∧ sleeper ∈ x.sleeping ∧ sleeper.2 + jtiRetention ≤ m.now then
        some (⟨deleteJti x.jtiCache sleeper.1, x.sleeping.erase sleeper, m.now⟩, [])
      else none

def ClockStarted (x : Clocked) : Prop := x.jtiCache = [] ∧ x.sleeping = []

abbrev ClockedMove := Move Clocked Event GoString

abbrev ClockedRun (cfg : Config) := Run (clockedStep cfg) ClockStarted

/-- A run given by its events and a property of its history. -/
theorem exists_clockedRun (cfg : Config) (es : List Event)
    (p : History Clocked Event GoString → Prop)
    (hes : ∃ r ∈ replay (clockedStep cfg) [] ⟨[], [], 0⟩ es, p r.1) :
    ∃ h s, ClockedRun cfg h s ∧ p h :=
  exists_run_of_replay es p ⟨rfl, rfl⟩ hes

/-- The long term grant token of a request. -/
def longTermGrant (cfg : Config) (m : Moment) (payload : Payload) : GoString :=
  tokenResponse cfg ((grantOf m payload LT_DURATION).addClaim (str "pub") payload.key)

/-- Whether it is the proof with that id and that time of issue. -/
def presents (jti : GoString) (iat : ℤ) (proof : Payload × PopToken) : Bool :=
  jtiOf proof = jti && atoi (claim proof.2.payloadClaims (str "iat")) = some iat

/-- Whether the move presents that proof and is answered with a grant token. -/
def acceptsProof (cfg : Config) (jti : GoString) (iat : ℤ) (x : ClockedMove) : Bool :=
  match x.event with
  | .request m body pop =>
      (presented cfg body pop).any fun proof =>
        presents jti iat proof && x.output = longTermGrant cfg m proof.1
  | .wake _ _ => false

/-- The checks of generateLTAgt behind addCheckJti. -/
def popPasses (cfg : Config) (now : ℤ) (proof : Payload × PopToken) : Bool :=
  proof.2.checkSignature cfg.crypto = some true && proof.2.checkIat (now / second) GAP LIFETIME &&
    proof.2.checkAud (str "vissv2/agts") && proof.2.checkThumb proof.1.key

section

variable {cfg : Config} {m : Moment} {payload : Payload} {popToken : PopToken}
  {proof : Payload × PopToken} {jtiCache cache : List GoString} {body pop response : GoString}

/-- The checks of validate, for a token whose signature holds. -/
theorem validate_of_signed (hsigned : popToken.checkSignature cfg.crypto = some true) :
    popToken.validate cfg.crypto m.unix payload.key (str "vissv2/agts") GAP LIFETIME =
      some (popPasses cfg m.now (payload, popToken)) := by
  unfold PopToken.validate popPasses
  rw [← Moment.unix]
  by_cases hiat : popToken.checkIat m.unix GAP LIFETIME = true
  · by_cases haud : popToken.checkAud (str "vissv2/agts") = true
    · by_cases hthumb : popToken.checkThumb payload.key = true
      · simp [hsigned, hiat, haud, hthumb]
      · simp [hsigned, hiat, haud, hthumb]
    · simp [hiat, haud]
  · simp [hiat]

theorem checkPop_cases {r : Option GoString} (h : checkPop cfg m payload popToken = some r) :
    (r = none ∧ popPasses cfg m.now (payload, popToken) = true) ∨
      ∃ errResponse, r = some errResponse ∧
        ∀ jwtoken, errResponse ≠ tokenResponse cfg jwtoken := by
  simp only [checkPop, Option.bind_eq_bind, Option.bind_eq_some_iff] at h
  obtain ⟨signed, hsigned, h⟩ := h
  cases signed with
  | false =>
    simp only [Bool.false_eq_true, not_false_eq_true, if_true, Option.some.injEq] at h
    exact .inr ⟨_, h.symm, fun _ => tokenText_ne _ (by decide)⟩
  | true =>
    simp only [not_true_eq_false, if_false, validate_of_signed hsigned, Option.bind_some] at h
    cases hpasses : popPasses cfg m.now (payload, popToken) with
    | true =>
      simp only [hpasses, not_true_eq_false, if_false, Option.some.injEq] at h
      exact .inl ⟨h.symm, rfl⟩
    | false =>
      simp only [hpasses, Bool.false_eq_true, not_false_eq_true, if_true, Option.some.injEq] at h
      exact .inr ⟨_, h.symm, fun _ => tokenText_ne _ (by decide)⟩

/-- What generateResponse does where a proof is presented. -/
theorem generateLTAgt_cases (hpop : ({} : PopToken).unmarshal cfg.crypto pop = some (some popToken))
    (h : generateLTAgt cfg m jtiCache payload pop = some (response, cache)) :
    (jtiOf (payload, popToken) ∈ jtiCache ∧ cache = jtiCache ∧
        response ≠ longTermGrant cfg m payload) ∨
      (jtiOf (payload, popToken) ∉ jtiCache ∧ cache = jtiOf (payload, popToken) :: jtiCache ∧
        (response = longTermGrant cfg m payload →
          popPasses cfg m.now (payload, popToken) = true)) := by
  unfold jtiOf
  simp only [generateLTAgt, hpop, Option.bind_eq_bind, Option.bind_some, addCheckJti] at h
  by_cases hold : claim popToken.payloadClaims (str "jti") ∈ jtiCache
  · simp only [if_pos hold, Bool.false_eq_true, not_false_eq_true, if_true, Option.some.injEq,
      Prod.mk.injEq] at h
    obtain ⟨rfl, rfl⟩ := h
    exact .inl ⟨hold, rfl, tokenText_ne _ (by decide)⟩
  · simp only [if_neg hold, not_true_eq_false, if_false, Option.bind_eq_some_iff] at h
    obtain ⟨r, hcheck, h⟩ := h
    refine .inr ⟨hold, ?_⟩
    obtain ⟨rfl, hpasses⟩ | ⟨errResponse, rfl, hne⟩ := checkPop_cases hcheck
    · obtain ⟨-, hcache⟩ := Prod.mk.inj (Option.some.inj h)
      exact ⟨hcache.symm, fun _ => hpasses⟩
    · obtain ⟨hresponse, hcache⟩ := Prod.mk.inj (Option.some.inj h)
      exact ⟨hcache.symm, fun hgrant => absurd (hresponse.trans hgrant) (hne _)⟩

theorem generateResponse_presented (hpresented : presented cfg body pop = some proof)
    (h : generateResponse cfg m jtiCache body pop = some (response, cache)) :
    (jtiOf proof ∈ jtiCache ∧ cache = jtiCache ∧ response ≠ longTermGrant cfg m proof.1) ∨
      (jtiOf proof ∉ jtiCache ∧ cache = jtiOf proof :: jtiCache ∧
        (response = longTermGrant cfg m proof.1 → popPasses cfg m.now proof = true)) := by
  unfold presented at hpresented
  unfold generateResponse at h
  split at hpresented
  · cases hpresented
  · next payload hpayload =>
    split at hpresented
    · next hguard =>
      obtain ⟨hclient, hpop⟩ := hguard
      split at hpresented
      · next popToken hunmarshal =>
        obtain rfl := Option.some.inj hpresented
        simp only [hpayload, hclient, Option.bind_eq_bind, Option.bind_some, if_true,
          if_pos hpop] at h
        exact generateLTAgt_cases hunmarshal h
      · cases hpresented
    · cases hpresented

/-- A request that presents no proof leaves the cache as it is. -/
theorem generateResponse_absent (hno : presented cfg body pop = none)
    (h : generateResponse cfg m jtiCache body pop = some (response, cache)) :
    cache = jtiCache := by
  unfold presented at hno
  unfold generateResponse at h
  split at h
  · exact (Prod.mk.inj (Option.some.inj h)).2.symm
  · next payload hpayload =>
    obtain ⟨client, hclient, h⟩ := Option.bind_eq_some_iff.mp h
    simp only [hpayload, hclient] at hno
    split at h
    · next hyes =>
      split at h
      · next hpop =>
        obtain ⟨r, hunmarshal, h⟩ := Option.bind_eq_some_iff.mp h
        cases r with
        | none => exact (Prod.mk.inj (Option.some.inj h)).2.symm
        | some popToken => simp [hyes, hpop, hunmarshal] at hno
      · exact (Prod.mk.inj (Option.some.inj h)).2.symm
    · exact (Prod.mk.inj (Option.some.inj h)).2.symm

end

/-- A state, seen as that of a replay cache. -/
def Clocked.replay (x : Clocked) : ReplayCache.State GoString ℤ :=
  ⟨x.jtiCache, x.sleeping, x.clock⟩

/-- A move, seen as one of a replay cache on the presented proofs. -/
def replaySeen (cfg : Config) (x : ClockedMove) :
    ReplayCache.Event GoString (Payload × PopToken) ℤ × Bool :=
  match x.event with
  | .request m body pop =>
      match presented cfg body pop with
      | some proof =>
          (.present m.now proof, jtiOf proof ∉ x.before.jtiCache && popPasses cfg m.now proof)
      | none => (.pass m.now, false)
  | .wake m sleeper => (.wake m.now sleeper, false)

section

variable {cfg : Config} {x : ClockedMove}

theorem request_replay {m : Moment} {body pop : GoString} {before after : Clocked}
    {output : GoString} (hx : clockedStep cfg before (.request m body pop) = some (after, output)) :
    ((⟨before, .request m body pop, after, output⟩ : ClockedMove).map Clocked.replay
      (replaySeen cfg)).Of (ReplayCache.step jtiOf (popPasses cfg) jtiRetention) := by
  simp only [clockedStep] at hx
  split at hx
  · next hclock =>
    obtain ⟨⟨response, cache⟩, hresponse, heq⟩ := Option.map_eq_some_iff.mp hx
    obtain ⟨rfl, rfl⟩ := Prod.mk.inj heq
    simp only [Move.Of, Move.map, replaySeen, Clocked.replay, startSleeper]
    cases hpresented : presented cfg body pop with
    | none => simp [ReplayCache.step, hclock, generateResponse_absent hpresented hresponse]
    | some proof =>
      obtain ⟨hold, hcache, -⟩ | ⟨hnew, hcache, -⟩ :=
        generateResponse_presented hpresented hresponse
      · simp [ReplayCache.step, hclock, hold, hcache]
      · simp [ReplayCache.step, hclock, hnew, hcache]
  · cases hx

/-- A step of the server with its clock is one of the replay cache. -/
theorem replay_of_move (hx : x.Of (clockedStep cfg)) :
    (x.map Clocked.replay (replaySeen cfg)).Of
      (ReplayCache.step jtiOf (popPasses cfg) jtiRetention) := by
  obtain ⟨before, e, after, output⟩ := x
  cases e with
  | request m body pop => exact request_replay hx
  | wake m sleeper =>
    simp only [Move.Of, clockedStep] at hx
    split at hx
    · next hguard =>
      obtain ⟨rfl, -⟩ := Prod.mk.inj (Option.some.inj hx)
      simp [Move.Of, Move.map, replaySeen, Clocked.replay, ReplayCache.step, hguard, deleteJti]
    · cases hx

theorem accepts_of_acceptsProof {jti : GoString} {iat : ℤ} (hof : x.Of (clockedStep cfg))
    (hx : acceptsProof cfg jti iat x = true) :
    ReplayCache.Accepts (fun proof => presents jti iat proof = true)
      (x.map Clocked.replay (replaySeen cfg)) := by
  obtain ⟨before, e, after, output⟩ := x
  cases e with
  | wake m sleeper => cases hx
  | request m body pop =>
    obtain ⟨proof, hpresented, hproof⟩ := (Option.any_eq_true ..).mp hx
    simp only [Bool.and_eq_true, decide_eq_true_eq] at hproof
    obtain ⟨hpresents, houtput⟩ := hproof
    simp only [Move.Of, clockedStep] at hof
    split at hof
    · obtain ⟨⟨response, cache⟩, hresponse, heq⟩ := Option.map_eq_some_iff.mp hof
      obtain ⟨-, rfl⟩ := Prod.mk.inj heq
      obtain ⟨-, -, hne⟩ | ⟨hnew, -, hpasses⟩ := generateResponse_presented hpresented hresponse
      · exact absurd houtput hne
      · refine ⟨m.now, proof, ?_, ?_, hpresents⟩
        · simp [Move.map, replaySeen, hpresented]
        · simp [Move.map, replaySeen, hpresented, hnew, hpasses houtput]
    · cases hof

/-- The time in which CheckIat lets a proof pass is shorter than the sleep of deleteJti. -/
theorem window_lt_retention {jti : GoString} {iat now now' : ℤ} {p q : Payload × PopToken}
    (hp : presents jti iat p = true) (hq : presents jti iat q = true)
    (hpass : popPasses cfg now p = true) (hpass' : popPasses cfg now' q = true) :
    ¬ now + jtiRetention ≤ now' := by
  simp only [presents, Bool.and_eq_true, decide_eq_true_eq] at hp hq
  simp only [popPasses, Bool.and_eq_true] at hpass hpass'
  have hfirst := PopToken.checkIat_window hp.2 hpass.1.1.2
  have hlast := PopToken.checkIat_window hq.2 hpass'.1.1.2
  simp only [jtiRetention, GAP, LIFETIME, second] at hfirst hlast ⊢
  omega

/-- In a run of the server every proof of possession is accepted at most once. -/
theorem generateLTAgt_accepts_once {h : History Clocked Event GoString} {s : Clocked}
    (hrun : ClockedRun cfg h s) (jti : GoString) (iat : ℤ) :
    h.Pairwise fun x y => ¬ (acceptsProof cfg jti iat x ∧ acceptsProof cfg jti iat y) := by
  have hreplay : Run _ ReplayCache.Started _ _ :=
    hrun.map Clocked.replay (replaySeen cfg) (fun s hs => hs) fun x hx => replay_of_move hx
  have honce := ReplayCache.accepts_once (P := fun proof => presents jti iat proof = true) ?_
    (fun now now' p q hp hq => window_lt_retention hp hq) hreplay
  · refine (List.pairwise_map.mp honce).imp_of_mem ?_
    intro x y hx hy hxy hboth
    exact hxy ⟨accepts_of_acceptsProof (hrun.of_mem hx) hboth.1,
      accepts_of_acceptsProof (hrun.of_mem hy) hboth.2⟩
  · intro p q hp hq
    simp only [presents, Bool.and_eq_true, decide_eq_true_eq] at hp hq
    exact hp.1.trans hq.1.symm

/-- Each of the two token servers accepts a proof of possession at most once. -/
theorem proof_accepted_once {atCfg : AtServer.Config} {cfg : Config}
    {atHistory : History AtServer.Clocked AtServer.ClockedEvent (List AtServer.Effect)}
    {atEnd : AtServer.Clocked} {history : History Clocked Event GoString} {last : Clocked}
    (hat : AtServer.ClockedRun atCfg atHistory atEnd) (hagt : ClockedRun cfg history last)
    (jti : GoString) (iat : ℤ) :
    (atHistory.Pairwise fun x y =>
      ¬ (AtServer.acceptsProof atCfg jti iat x ∧ AtServer.acceptsProof atCfg jti iat y)) ∧
    history.Pairwise fun x y => ¬ (acceptsProof cfg jti iat x ∧ acceptsProof cfg jti iat y) :=
  ⟨AtServer.validatePop_accepts_once hat jti iat, generateLTAgt_accepts_once hagt jti iat⟩

end

/-- The RSA key of a client. -/
def sampleJwk : GoString := str (
  "\x7b\"kty\":\"RSA\",\"n\":\"1xCfy8AA7EQrBUxFKXzHXfOMb00LXxI1bc0H-2AhhikhnDv91GCpd2Ii9P332gSr" ++
  "TpXfjj57-AF4jla8GUu8kQ\",\"e\":\"AQAB\"\x7d")

/-- The signature of the client's proof. -/
def samplePopSignature : GoString := str (
  "cCt0bXm4hKL_YsmA_pgt98MqOwSfxTg8uAt5NLDC2weIQ2hCpWJwlt-1TI7MXXJywmLbHT9u8hwGBusRHd7Gpw")

/-- A proof of possession of that key. -/
def samplePop : GoString :=
  Base64.encode (str "\x7b\"typ\":\"dpop+jwt\",\"alg\":\"RS256\",\"jwk\":" ++ sampleJwk ++
    str "\x7d") ++ str "." ++
  Base64.encode (str "\x7b\"iat\":\"1700000000\",\"jti\":\"7d01\",\"aud\":\"vissv2/agts\"\x7d") ++
  str "." ++ samplePopSignature

/-- The thumbprint of that key. -/
def sampleThumb : GoString := str "6a7yD25Vccp1jQ58wudQoK-4dGxX8kx0BSRFd6vvkSk"

/-- The signature of the grant token for the key. -/
def sampleGrantSignature : GoString := str (
  "VrAgo_0RYeziJa01AKCrwGOH0_ztIe4dvxcKTzrfpenbvYk9EfHzf6lRvr_mbjlmF-O2YffmL9CLJGepTnvUGg")

/-- The values of SHA-256 on the signed texts and on the text of the thumbprint, and
the signatures that hold. -/
def sampleCrypto : Crypto where
  sha256 := fun text =>
    if contains text (str "kty") then (Base64.decodeString sampleThumb).1
    else if (str "eyJ0eXAi").isPrefixOf text then
      (Base64.decodeString (str "Z7ppydZ9SaOD3xQX0D9eQdlMOzmKYMLU7C3TspMFsPs")).1
    else (Base64.decodeString (str "zaJklUVCX0VIPnbmxKUPouXyCL6XE3qvBUEnNnsAf5w")).1
  hmacSha256 := fun _ _ => []
  verifyPkcs1v15 := fun _ _ signature =>
    Base64.encode signature = samplePopSignature || Base64.encode signature = sampleGrantSignature
  ecdsaVerify := fun _ _ _ _ => false

def sampleConfig : Config where
  crypto := sampleCrypto
  sign := fun _ => some (Base64.decodeString sampleGrantSignature).1

/-- A moment so many seconds after the proof was made. -/
def sampleMoment (after : ℤ) : Moment where
  now := (1700000000 + after) * second
  uuid := some (str "4fc2")

/-- The body of a request for a grant token. -/
def sampleBody : GoString := str (
  "\x7b\"context\":\"Owner+OEM+Cloud\",\"proof\":\"ABC\",\"key\":\"6a7yD25Vccp1jQ58wudQoK-4dGxX8kx0" ++
  "BSRFd6vvkSk\"\x7d")

/-- The access token server, with a purpose that those roles may use. -/
def sampleAtConfig : AtServer.Config where
  crypto := sampleCrypto
  agtKey :=
    { n := 0x9d8e51dbb96a53825c474ec19123881750e5c99d080b9d05a0423d9c23e4b5b4595222cd7d8bee52fa00e25fb7f4e2c74d24f4659254d89c7fa846901ba9199b
      e := 65537 }
  pList := [{
    short := str "fuel"
    context := [{ user := [str "Owner"], app := [str "OEM"], device := [str "Cloud"] }]
    access := some [{ path := str "Vehicle.FuelLevel", permission := str "read-only" }] }]
  sList := []
  searchValidation := fun _ => 1
  searchNodes := fun path => [path]

def sampleAtMoment (after : ℤ) : AtServer.Moment where
  now := (1700000000 + after) * second
  uuid := some (str "51ab")
  range := id
  range_perm := GoMap.perm_id

/-- An at-request with the grant token for the key and the proof. -/
def sampleAtRequest : GoString :=
  str "\x7b\"action\":\"at-request\",\"purpose\":\"fuel\",\"agToken\":\"" ++
  Base64.encode (str "\x7b\"alg\":\"RS256\",\"typ\":\"JWT\"\x7d") ++ str "." ++
  Base64.encode (str ("\x7b\"iat\":\"1700000000\",\"exp\":\"1700345600\",\"clx\":\"" ++
    "Owner+OEM+Cloud\",\"aud\":\"w3org/gen2\",\"jti\":\"4fc2\",\"pub\":\"" ++
    "6a7yD25Vccp1jQ58wudQoK-4dGxX8kx0BSRFd6vvkSk\"\x7d")) ++ str "." ++ sampleGrantSignature ++
  str "\",\"pop\":\"" ++ samplePop ++ str "\"\x7d"

/-- Each server accepts the proof, and refuses it when it is presented once more. -/
theorem proof_accepted_once_sample :
    ∃ atHistory atEnd history last, AtServer.ClockedRun sampleAtConfig atHistory atEnd ∧
      ClockedRun sampleConfig history last ∧
      (atHistory.map (AtServer.acceptsProof sampleAtConfig (str "7d01") 1700000000) =
        [false, true]) ∧
      (history.map (acceptsProof sampleConfig (str "7d01") 1700000000) = [false, true]) ∧
      (atHistory.Pairwise fun x y =>
        ¬ (AtServer.acceptsProof sampleAtConfig (str "7d01") 1700000000 x ∧
          AtServer.acceptsProof sampleAtConfig (str "7d01") 1700000000 y)) ∧
      history.Pairwise fun x y =>
        ¬ (acceptsProof sampleConfig (str "7d01") 1700000000 x ∧
          acceptsProof sampleConfig (str "7d01") 1700000000 y) := by
  obtain ⟨atHistory, atEnd, hat, hatAccepts⟩ := AtServer.exists_clockedRun sampleAtConfig
    [.receive (sampleAtMoment 4) (.client sampleAtRequest),
      .receive (sampleAtMoment 7) (.client sampleAtRequest)]
    (fun h => h.map (AtServer.acceptsProof sampleAtConfig (str "7d01") 1700000000) =
      [false, true]) (by decide +kernel)
  obtain ⟨history, last, hagt, haccepts⟩ := exists_clockedRun sampleConfig
    [.request (sampleMoment 2) sampleBody samplePop,
      .request (sampleMoment 200) sampleBody samplePop]
    (fun h => h.map (acceptsProof sampleConfig (str "7d01") 1700000000) = [false, true])
    (by decide +kernel)
  obtain ⟨hatOnce, hagtOnce⟩ := proof_accepted_once hat hagt (str "7d01") 1700000000
  exact ⟨atHistory, atEnd, history, last, hat, hagt, hatAccepts, haccepts, hatOnce, hagtOnce⟩

end VissServer.AgtServer

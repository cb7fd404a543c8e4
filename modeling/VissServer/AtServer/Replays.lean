import Mathlib.Algebra.Order.Group.Int
import VissServer.AtServer.Steps
import VissServer.Library.ReplayCache

/-!
The cache of used proof ids over the time that passes. addCheckJti starts a sleeper for each
id that it stores, and the clock of the runs here decides when a sleeper may wake. A run of
the server is seen as a run of a replay cache, so that a proof of possession is accepted once.
-/
namespace VissServer.AtServer

open Go Utils Runs

/-- Whether the checks of the grant token lead to validatePop. -/
def reachesPop (cfg : Config) (m : Moment) (payload : AtGenPayload) : Bool :=
  let claims := payload.agt.payloadClaims
  payload.agt.token.checkRsaSignature cfg.crypto cfg.agtKey &&
    (match atoi (claim claims (str "iat")), atoi (claim claims (str "exp")) with
    | some iat, some exp => validateTokenTimestamps m.now iat exp
    | _, _ => false) &&
    claim claims (str "pub") ≠ []

/-- The payload whose proof of possession a message presents to validatePop. -/
def presented (cfg : Config) (m : Moment) : Event → Option AtGenPayload
  | .client request =>
      if contains request (str "at-request") then
        match decodeRequest cfg request with
        | some (.inr payload) => if reachesPop cfg m payload then some payload else none
        | _ => none
      else none
  | _ => none

/-- The id of the proof of a payload. -/
def AtGenPayload.jti (payload : AtGenPayload) : GoString :=
  claim payload.popTk.payloadClaims (str "jti")

/-- The sleep of deleteJti. -/
def jtiRetention : ℤ := (GAP + LIFETIME + 5) * second

instance decidableSleeping (sleeper : GoString × ℤ) (sleeping : List (GoString × ℤ)) :
    Decidable (sleeper ∈ sleeping) :=
  List.instDecidableMemOfLawfulBEq sleeper sleeping

/-- The server with its sleeping deleteJti calls and the time. -/
structure Clocked where
  server : State
  /-- The ids to be deleted, with the times at which they were stored. -/
  sleeping : List (GoString × ℤ)
  clock : ℤ

inductive ClockedEvent
  | receive (m : Moment) (e : Event)
  | wake (m : Moment) (sleeper : GoString × ℤ)

/-- The sleepers after a message: addCheckJti starts one where the id is new. -/
def startSleeper (cfg : Config) (m : Moment) (x : Clocked) (e : Event) : List (GoString × ℤ) :=
  match presented cfg m e with
  | none => x.sleeping
  | some payload =>
      if payload.jti ∈ x.server.jtiCache then x.sleeping else (payload.jti, m.now) :: x.sleeping

def Event.isDeleteJti : Event → Bool
  | .deleteJti _ => true
  | _ => false

/-- One step at a time that is not before the time of the last one. -/
def clockedStep (cfg : Config) (x : Clocked) : ClockedEvent → Option (Clocked × List Effect)
  | .receive m e =>
      if x.clock ≤ m.now ∧ e.isDeleteJti = false then
        (step cfg m x.server e).map fun r => (⟨r.1, startSleeper cfg m x e, m.now⟩, r.2)
      else none
  | .wake m sleeper =>
      if x.clock ≤ m.now ∧ sleeper ∈ x.sleeping ∧ sleeper.2 + jtiRetention ≤ m.now then
        (step cfg m x.server (.deleteJti sleeper.1)).map fun r =>
          (⟨r.1, x.sleeping.erase sleeper, m.now⟩, r.2)
      else none

def ClockStarted (x : Clocked) : Prop :=
  (∃ seed now, x.server = State.initial seed now) ∧ x.sleeping = []

abbrev ClockedMove := Move Clocked ClockedEvent (List Effect)

abbrev ClockedRun (cfg : Config) := Run (clockedStep cfg) ClockStarted

/-- A run from the seed 0, given by its events and a property of its history. -/
theorem exists_clockedRun (cfg : Config) (es : List ClockedEvent)
    (p : History Clocked ClockedEvent (List Effect) → Prop)
    (hes : ∃ r ∈ replay (clockedStep cfg) [] ⟨State.initial 0 0, [], 0⟩ es, p r.1) :
    ∃ h s, ClockedRun cfg h s ∧ p h :=
  exists_run_of_replay es p ⟨⟨0, 0, rfl⟩, rfl⟩ hes

/-- Whether the payload presents the proof with that id and that time of issue. -/
def AtGenPayload.presents (jti : GoString) (iat : ℤ) (payload : AtGenPayload) : Bool :=
  payload.jti = jti && atoi (claim payload.popTk.payloadClaims (str "iat")) = some iat

/-- Whether the move presents that proof and validatePop accepts it. -/
def acceptsProof (cfg : Config) (jti : GoString) (iat : ℤ) (x : ClockedMove) : Bool :=
  match x.event with
  | .receive m e =>
      (presented cfg m e).any fun payload => payload.presents jti iat &&
        (validatePop cfg m x.before.server.jtiCache payload).map Prod.fst = some []
  | .wake _ _ => false

/-- validatePop behind addCheckJti, for a proof that is new. -/
def popPasses (cfg : Config) (now : ℤ) (payload : AtGenPayload) : Bool :=
  payload.popTk.checkSignature cfg.crypto = some true &&
    payload.popTk.checkIat (now / second) GAP LIFETIME &&
    payload.popTk.checkThumb (claim payload.agt.payloadClaims (str "pub")) &&
    payload.popTk.checkAud (str "vissv2/agts")

section

variable {cfg : Config} {m : Moment} {s s' : State} {payload : AtGenPayload} {e : Event}
  {effects : List Effect} {jtiCache cache : List GoString} {errResponse : GoString}

theorem validatePop_known (hold : payload.jti ∈ jtiCache) :
    validatePop cfg m jtiCache payload =
      some (str "\x7b\"error\": \"Repeated JTI\"\x7d", jtiCache) := by
  unfold AtGenPayload.jti at hold
  simp [validatePop, addCheckJti, hold]

/-- A new id is stored, and the checks behind addCheckJti decide. -/
theorem validatePop_new (hnew : payload.jti ∉ jtiCache)
    (h : validatePop cfg m jtiCache payload = some (errResponse, cache)) :
    cache = payload.jti :: jtiCache ∧ (errResponse = [] ↔ popPasses cfg m.now payload = true) := by
  unfold AtGenPayload.jti at hnew ⊢
  simp only [validatePop, addCheckJti, if_neg hnew, not_true_eq_false, if_false,
    Option.bind_eq_bind, Option.bind_eq_some_iff] at h
  obtain ⟨signed, hsigned, h⟩ := h
  unfold popPasses
  rw [hsigned, ← Moment.unix]
  cases hs : signed with
  | false =>
    simp only [hs, Bool.false_eq_true, not_false_eq_true, if_true, Option.some.injEq,
      Prod.mk.injEq] at h
    obtain ⟨rfl, rfl⟩ := h
    exact ⟨rfl, by simp; decide⟩
  | true =>
    simp only [hs, not_true_eq_false, if_false] at h
    split at h
    · next hiat =>
      obtain ⟨rfl, rfl⟩ := Prod.mk.inj (Option.some.inj h)
      exact ⟨rfl, by simp [hiat]; decide⟩
    · next hiat =>
      split at h
      · next hthumb =>
        obtain ⟨rfl, rfl⟩ := Prod.mk.inj (Option.some.inj h)
        exact ⟨rfl, by simp [hthumb]; decide⟩
      · next hthumb =>
        split at h
        · next haud =>
          obtain ⟨rfl, rfl⟩ := Prod.mk.inj (Option.some.inj h)
          exact ⟨rfl, by simp [haud]; decide⟩
        · next haud =>
          obtain ⟨rfl, rfl⟩ := Prod.mk.inj (Option.some.inj h)
          simp only [not_not] at hiat hthumb haud
          exact ⟨rfl, by simp [hiat, hthumb, haud]⟩

theorem validateRequest_reaches (hreaches : reachesPop cfg m payload = true)
    (h : validateRequest cfg m jtiCache payload = some (errResponse, cache)) :
    ∃ popResponse, validatePop cfg m jtiCache payload = some (popResponse, cache) := by
  simp only [reachesPop, Bool.and_eq_true, decide_eq_true_eq] at hreaches
  obtain ⟨⟨hsigned, hstamps⟩, hpub⟩ := hreaches
  simp only [validateRequest, hsigned, not_true_eq_false, if_false] at h
  split at hstamps
  · next iat exp hiat hexp =>
    simp only [hiat, hexp, hstamps, not_true_eq_false, if_false, if_pos hpub, Option.bind_eq_bind,
      Option.bind_eq_some_iff] at h
    obtain ⟨⟨popResponse, popCache⟩, hpop, h⟩ := h
    refine ⟨popResponse, ?_⟩
    rw [hpop]
    split at h
    · exact congrArg (fun c => some (popResponse, c)) (Prod.mk.inj (Option.some.inj h)).2
    · obtain ⟨valid, -, h⟩ := Option.bind_eq_some_iff.mp h
      cases valid with
      | true => exact congrArg (fun c => some (popResponse, c)) (Prod.mk.inj (Option.some.inj h)).2
      | false =>
        exact congrArg (fun c => some (popResponse, c)) (Prod.mk.inj (Option.some.inj h)).2
  · cases hstamps

/-- A request that does not get to validatePop leaves the cache as it is. -/
theorem validateRequest_misses (hmisses : reachesPop cfg m payload = false)
    (h : validateRequest cfg m jtiCache payload = some (errResponse, cache)) :
    cache = jtiCache := by
  unfold validateRequest at h
  split at h
  · exact (Prod.mk.inj (Option.some.inj h)).2.symm
  · next hsigned =>
    dsimp only at h
    split at h
    · exact (Prod.mk.inj (Option.some.inj h)).2.symm
    · exact (Prod.mk.inj (Option.some.inj h)).2.symm
    · next iat exp hiat hexp =>
      split at h
      · exact (Prod.mk.inj (Option.some.inj h)).2.symm
      · next hstamps =>
        have hpub : ¬ claim payload.agt.payloadClaims (str "pub") ≠ [] := by
          intro hpub
          simp only [not_not] at hsigned hstamps
          simp [reachesPop, hsigned, hiat, hexp, hstamps, hpub] at hmisses
        simp only [if_neg hpub, Option.bind_eq_bind, Option.bind_some, ne_eq, not_true_eq_false,
          if_false, Option.bind_eq_some_iff] at h
        obtain ⟨valid, -, h⟩ := h
        cases valid with
        | true => exact (Prod.mk.inj (Option.some.inj h)).2.symm
        | false => exact (Prod.mk.inj (Option.some.inj h)).2.symm

end

section

variable {cfg : Config} {m : Moment} {s s' : State} {payload : AtGenPayload} {e : Event}
  {effects : List Effect}

@[simp] theorem setExpiryTicker_jtiCache (now : ℤ) :
    (setExpiryTicker now s).jtiCache = s.jtiCache := by
  obtain ⟨ticker, h⟩ := setExpiryTicker_eq now s
  rw [h]

@[simp] theorem State.setPending_jtiCache (i : Slot) (x : PendingListElem) :
    (s.setPending i x).jtiCache = s.jtiCache := rfl

@[simp] theorem State.setActive_jtiCache (i : Slot) (x : ActiveListElem) :
    (s.setActive i x).jtiCache = s.jtiCache := rfl

@[simp] theorem removeFromPendingList_jtiCache (i : Slot) :
    (removeFromPendingList s i).jtiCache = s.jtiCache := rfl

@[simp] theorem removeFromActiveList_jtiCache (i : Slot) :
    (removeFromActiveList s i).jtiCache = s.jtiCache := rfl

theorem writeToPendingList_jtiCache {gatingId : ℤ}
    (h : writeToPendingList m.now s gatingId payload = some s') : s'.jtiCache = s.jtiCache := by
  obtain ⟨-, rfl⟩ | ⟨i, expiry, -, -, rfl⟩ := writeToPendingList_some h
  · rfl
  · simp

theorem issueAt_jtiCache {gatingId : ℤ} {atoken : GoString}
    (h : issueAt cfg m s gatingId payload = some (s', atoken)) : s'.jtiCache = s.jtiCache := by
  simp only [issueAt, Option.bind_eq_bind, Option.bind_eq_some_iff, Option.some.injEq,
    Prod.mk.injEq] at h
  obtain ⟨s₁, hwrite, rfl, -⟩ := h
  obtain ⟨-, rfl⟩ | ⟨i, expiry, -, -, rfl⟩ := writeToActiveList_some hwrite
  · rfl
  · simp

theorem grantRequest_jtiCache (h : grantRequest cfg m s payload = some (s', effects)) :
    s'.jtiCache = s.jtiCache := by
  unfold grantRequest at h
  split at h
  · split at h
    · simp only [Option.bind_eq_bind, Option.bind_eq_some_iff, Option.some.injEq,
        Prod.mk.injEq] at h
      obtain ⟨s₁, hwrite, rfl, -⟩ := h
      exact writeToPendingList_jtiCache hwrite
    · rw [(Prod.mk.inj (Option.some.inj h)).1.symm]
  · simp only [Option.bind_eq_bind, Option.bind_eq_some_iff, Option.some.injEq,
      Prod.mk.injEq] at h
    obtain ⟨⟨s₁, atoken⟩, hissue, rfl, -⟩ := h
    exact issueAt_jtiCache hissue

theorem consentInquiryResponse_jtiCache {input : GoString}
    (h : consentInquiryResponse cfg m s input = some (s', effects)) :
    s'.jtiCache = s.jtiCache := by
  simp only [consentInquiryResponse, Option.bind_eq_bind, Option.bind_eq_some_iff] at h
  obtain ⟨gatingId, -, h⟩ := h
  split at h
  · next i hi =>
    unfold inquirySlot at h
    dsimp only at h
    split at h
    · rw [(Prod.mk.inj (Option.some.inj h)).1.symm]
    · split at h
      · rw [(Prod.mk.inj (Option.some.inj h)).1.symm, removeFromPendingList_jtiCache]
      · simp only [Option.bind_eq_bind, Option.bind_eq_some_iff, Option.some.injEq,
          Prod.mk.injEq] at h
        obtain ⟨⟨s₁, atoken⟩, hissue, rfl, -⟩ := h
        exact (issueAt_jtiCache hissue).trans (removeFromPendingList_jtiCache i)
  · rw [(Prod.mk.inj (Option.some.inj h)).1.symm]

theorem consentReplyResponse_jtiCache {message response : GoString}
    (h : consentReplyResponse s message = some (s', response)) : s'.jtiCache = s.jtiCache := by
  unfold consentReplyResponse at h
  split at h
  · rw [(Prod.mk.inj (Option.some.inj h)).1.symm]
  · obtain ⟨id, -, h⟩ := Option.bind_eq_some_iff.mp h
    split at h
    · rw [(Prod.mk.inj (Option.some.inj h)).1.symm]
    · split at h
      · rw [(Prod.mk.inj (Option.some.inj h)).1.symm]
      · split at h
        · next i hi =>
          obtain ⟨consent, -, h⟩ := Option.bind_eq_some_iff.mp h
          rw [(Prod.mk.inj (Option.some.inj h)).1.symm, State.setPending_jtiCache]
        · rw [(Prod.mk.inj (Option.some.inj h)).1.symm]

theorem consentCancelResponse_jtiCache {message response : GoString} {cancels : List Effect}
    (h : consentCancelResponse s message = some (s', cancels, response)) :
    s'.jtiCache = s.jtiCache := by
  unfold consentCancelResponse at h
  split at h
  · rw [(Prod.mk.inj (Option.some.inj h)).1.symm]
  · obtain ⟨id, -, h⟩ := Option.bind_eq_some_iff.mp h
    split at h
    · rw [(Prod.mk.inj (Option.some.inj h)).1.symm]
    · split at h
      · rw [(Prod.mk.inj (Option.some.inj h)).1.symm]
      · split at h
        · rw [(Prod.mk.inj (Option.some.inj h)).1.symm, removeFromPendingList_jtiCache]
        · rw [(Prod.mk.inj (Option.some.inj h)).1.symm, removeFromActiveList_jtiCache]
        · rw [(Prod.mk.inj (Option.some.inj h)).1.symm]

theorem ecfStep_jtiCache {message : GoString} (h : ecfStep s message = some (s', effects)) :
    s'.jtiCache = s.jtiCache := by
  unfold ecfStep generateEcfResponse at h
  split at h
  · rw [(Prod.mk.inj (Option.some.inj h)).1.symm]
  · split at h
    · rw [(Prod.mk.inj (Option.some.inj h)).1.symm]
    · split at h
      · obtain ⟨r, hr, h⟩ := Option.map_eq_some_iff.mp h
        rw [← (Prod.mk.inj h).1]
        exact consentReplyResponse_jtiCache hr
      · split at h
        · obtain ⟨r, hr, h⟩ := Option.map_eq_some_iff.mp h
          rw [← (Prod.mk.inj h).1]
          exact consentCancelResponse_jtiCache hr
        · rw [(Prod.mk.inj (Option.some.inj h)).1.symm]

theorem expiryStep_jtiCache : (expiryStep m s).1.jtiCache = s.jtiCache := by
  unfold expiryStep purgeLists
  dsimp only
  split
  · split
    · rfl
    · simp
  · split
    · split
      · rfl
      · simp
    · rfl

/-- A message that presents no proof leaves the cache as it is. -/
theorem step_jtiCache (hno : presented cfg m e = none) (hdelete : e.isDeleteJti = false)
    (h : step cfg m s e = some (s', effects)) : s'.jtiCache = s.jtiCache := by
  cases e with
  | client request =>
    simp only [step, generateClientResponse] at h
    split at h
    · next hrequest =>
      simp only [accessTokenResponse, Option.bind_eq_bind, Option.bind_eq_some_iff] at h
      obtain ⟨decoded, hdecoded, h⟩ := h
      cases decoded with
      | inl errResponse => rw [(Prod.mk.inj (Option.some.inj h)).1.symm]
      | inr payload =>
        obtain ⟨⟨errResponse, jtiCache⟩, hvalidate, h⟩ := Option.bind_eq_some_iff.mp h
        have hmisses : reachesPop cfg m payload = false := by
          simpa [presented, hrequest, hdecoded] using hno
        have hcache : jtiCache = s.jtiCache := validateRequest_misses hmisses hvalidate
        dsimp only at h
        split at h
        · exact (grantRequest_jtiCache h).trans hcache
        · rw [(Prod.mk.inj (Option.some.inj h)).1.symm]
          exact hcache
    · split at h
      · exact consentInquiryResponse_jtiCache h
      · rw [(Prod.mk.inj (Option.some.inj h)).1.symm]
  | parent request =>
    obtain ⟨response, -, h⟩ := Option.map_eq_some_iff.mp h
    rw [(Prod.mk.inj h).1.symm]
  | ecf message => exact ecfStep_jtiCache h
  | expiryTick =>
    have hafter : (expiryStep m s).1 = s' := congrArg Prod.fst (Option.some.inj h)
    exact hafter ▸ expiryStep_jtiCache
  | deleteJti jti => cases hdelete

/-- A message that presents a proof leaves the cache that validatePop returns. -/
theorem step_presented (hpresented : presented cfg m e = some payload)
    (h : step cfg m s e = some (s', effects)) :
    ∃ popResponse, validatePop cfg m s.jtiCache payload = some (popResponse, s'.jtiCache) := by
  cases e with
  | client request =>
    simp only [presented] at hpresented
    split at hpresented
    · next hrequest =>
      split at hpresented
      · next decoded hdecoded =>
        split at hpresented
        · next hreaches =>
          obtain rfl := Option.some.inj hpresented
          simp only [step, generateClientResponse, if_pos hrequest, accessTokenResponse, hdecoded,
            Option.bind_eq_bind, Option.bind_some, Option.bind_eq_some_iff] at h
          obtain ⟨⟨errResponse, jtiCache⟩, hvalidate, h⟩ := h
          obtain ⟨popResponse, hpop⟩ := validateRequest_reaches hreaches hvalidate
          refine ⟨popResponse, ?_⟩
          dsimp only at h
          split at h
          · rw [hpop, grantRequest_jtiCache h]
          · rw [hpop, (Prod.mk.inj (Option.some.inj h)).1.symm]
        · cases hpresented
      · cases hpresented
    · cases hpresented
  | parent request => cases hpresented
  | ecf message => cases hpresented
  | expiryTick => cases hpresented
  | deleteJti jti => cases hpresented

end

/-- A state, seen as that of a replay cache. -/
def Clocked.replay (x : Clocked) : ReplayCache.State GoString ℤ :=
  ⟨x.server.jtiCache, x.sleeping, x.clock⟩

/-- A move, seen as one of a replay cache on the presented payloads. -/
def replaySeen (cfg : Config) (x : ClockedMove) :
    ReplayCache.Event GoString AtGenPayload ℤ × Bool :=
  match x.event with
  | .receive m e =>
      match presented cfg m e with
      | some payload => (.present m.now payload,
          payload.jti ∉ x.before.server.jtiCache && popPasses cfg m.now payload)
      | none => (.pass m.now, false)
  | .wake m sleeper => (.wake m.now sleeper, false)

section

variable {cfg : Config} {x : ClockedMove}

theorem receive_replay {m : Moment} {e : Event} {before after : Clocked} {effects : List Effect}
    (hx : clockedStep cfg before (.receive m e) = some (after, effects)) :
    ((⟨before, .receive m e, after, effects⟩ : ClockedMove).map Clocked.replay
      (replaySeen cfg)).Of (ReplayCache.step AtGenPayload.jti (popPasses cfg) jtiRetention) := by
  simp only [clockedStep] at hx
  split at hx
  · next hguard =>
    obtain ⟨hclock, hdelete⟩ := hguard
    obtain ⟨⟨s', effects'⟩, hstep, heq⟩ := Option.map_eq_some_iff.mp hx
    obtain ⟨rfl, rfl⟩ := Prod.mk.inj heq
    simp only [Move.Of, Move.map, replaySeen, Clocked.replay, startSleeper]
    cases hpresented : presented cfg m e with
    | none => simp [ReplayCache.step, hclock, step_jtiCache hpresented hdelete hstep]
    | some payload =>
      obtain ⟨popResponse, hpop⟩ := step_presented hpresented hstep
      by_cases hold : payload.jti ∈ before.server.jtiCache
      · rw [validatePop_known hold] at hpop
        obtain ⟨-, hcache⟩ := Prod.mk.inj (Option.some.inj hpop)
        simp [ReplayCache.step, hclock, hold, ← hcache]
      · obtain ⟨hcache, -⟩ := validatePop_new hold hpop
        simp [ReplayCache.step, hclock, hold, hcache]
  · cases hx

/-- A step of the server with its clock is one of the replay cache. -/
theorem replay_of_move (hx : x.Of (clockedStep cfg)) :
    (x.map Clocked.replay (replaySeen cfg)).Of
      (ReplayCache.step AtGenPayload.jti (popPasses cfg) jtiRetention) := by
  obtain ⟨before, e, after, effects⟩ := x
  cases e with
  | receive m e => exact receive_replay hx
  | wake m sleeper =>
    simp only [Move.Of, clockedStep] at hx
    split at hx
    · next hguard =>
      simp only [step, Option.map_some, Option.some.injEq, Prod.mk.injEq] at hx
      obtain ⟨rfl, -⟩ := hx
      simp [Move.Of, Move.map, replaySeen, Clocked.replay, ReplayCache.step, hguard]
    · cases hx

theorem accepts_of_acceptsProof {jti : GoString} {iat : ℤ}
    (hx : acceptsProof cfg jti iat x = true) :
    ReplayCache.Accepts (fun payload : AtGenPayload => payload.presents jti iat = true)
      (x.map Clocked.replay (replaySeen cfg)) := by
  obtain ⟨before, e, after, effects⟩ := x
  cases e with
  | wake m sleeper => cases hx
  | receive m e =>
    obtain ⟨payload, hpresented, hpayload⟩ := (Option.any_eq_true ..).mp hx
    simp only [Bool.and_eq_true, decide_eq_true_eq, Option.map_eq_some_iff] at hpayload
    obtain ⟨hpresents, ⟨errResponse, cache⟩, hpop, rfl⟩ := hpayload
    have hnew : payload.jti ∉ before.server.jtiCache := by
      intro hold
      rw [validatePop_known hold] at hpop
      exact absurd (Prod.mk.inj (Option.some.inj hpop)).1 (by decide)
    have hpasses : popPasses cfg m.now payload = true := (validatePop_new hnew hpop).2.mp rfl
    refine ⟨m.now, payload, ?_, ?_, hpresents⟩
    · simp [Move.map, replaySeen, hpresented]
    · simp [Move.map, replaySeen, hpresented, hnew, hpasses]

/-- The time in which CheckIat lets a proof pass is shorter than the sleep of deleteJti. -/
theorem window_lt_retention {jti : GoString} {iat now now' : ℤ} {p q : AtGenPayload}
    (hp : p.presents jti iat = true) (hq : q.presents jti iat = true)
    (hpass : popPasses cfg now p = true) (hpass' : popPasses cfg now' q = true) :
    ¬ now + jtiRetention ≤ now' := by
  simp only [AtGenPayload.presents, Bool.and_eq_true, decide_eq_true_eq] at hp hq
  simp only [popPasses, Bool.and_eq_true] at hpass hpass'
  have hfirst := PopToken.checkIat_window hp.2 hpass.1.1.2
  have hlast := PopToken.checkIat_window hq.2 hpass'.1.1.2
  simp only [jtiRetention, GAP, LIFETIME, second] at hfirst hlast ⊢
  omega

/-- In a run of the server every proof of possession is accepted at most once. -/
theorem validatePop_accepts_once {h : History Clocked ClockedEvent (List Effect)} {s : Clocked}
    (hrun : ClockedRun cfg h s) (jti : GoString) (iat : ℤ) :
    h.Pairwise fun x y => ¬ (acceptsProof cfg jti iat x ∧ acceptsProof cfg jti iat y) := by
  have hreplay : Run _ ReplayCache.Started _ _ :=
    hrun.map Clocked.replay (replaySeen cfg) ?_ fun x hx => replay_of_move hx
  · have honce := ReplayCache.accepts_once
      (P := fun payload : AtGenPayload => payload.presents jti iat = true) ?_
      (fun now now' p q hp hq => window_lt_retention hp hq) hreplay
    · refine (List.pairwise_map.mp honce).imp ?_
      intro x y hxy hboth
      exact hxy ⟨accepts_of_acceptsProof hboth.1, accepts_of_acceptsProof hboth.2⟩
    · intro p q hp hq
      simp only [AtGenPayload.presents, Bool.and_eq_true, decide_eq_true_eq] at hp hq
      exact hp.1.trans hq.1.symm
  · intro s hs
    obtain ⟨⟨seed, now, hserver⟩, hsleeping⟩ := hs
    exact ⟨by simp [Clocked.replay, hserver, State.initial], hsleeping⟩

end

end VissServer.AtServer

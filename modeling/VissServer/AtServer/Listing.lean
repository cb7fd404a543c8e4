import VissServer.AtServer.Consent
import VissServer.AtServer.GatingIds
import VissServer.Utils.TokenClaims

/-!
The access tokens and session ids that replies hand to clients, and the entries of the lists
behind them. A write to a full list is dropped and the reply goes out all the same; and an
at-inquiry for the session -1 finds a free slot of the pending list.
-/
namespace VissServer.AtServer

open Go Utils Runs

/-- The reply to the client among the effects of a step. -/
def clientReply (effects : List Effect) : Option GoString :=
  effects.findSome? fun
    | .client response => some response
    | _ => none

/-- What a reply starts with that hands out an access token. -/
def tokenMarks : List GoString :=
  [str "\x7b\"action\": \"at-request\", \"aToken\":\"",
    str "\x7b\"action\": \"at-inquiry\", \"aToken\":\""]

/-- What a reply starts with that hands out a session id. -/
def sessionMarks : List GoString :=
  [str "\x7b\"action\": \"at-request\", \"sessionId\":\"",
    str "\x7b\"action\": \"at-inquiry\", \"sessionId\":"]

/-- What an error reply starts with. -/
def errorMarks : List GoString :=
  [str "\x7b\"action\": \"at-request\", \"error\"",
    str "\x7b\"action\": \"at-inquiry\", \"error\"", str "\x7b\"error\""]

/-- The text behind one of the marks, up to the next quotation mark. -/
def quotedAfter (marks : List GoString) (reply : GoString) : Option GoString :=
  (marks.find? fun mark => mark.isPrefixOf reply).map fun mark =>
    (reply.drop mark.length).takeWhile fun c => c ≠ 34

/-- The access token in the reply of a move. -/
def handedToken (x : ServerMove) : Option GoString :=
  (clientReply x.output).bind (quotedAfter tokenMarks)

/-- The session id in the reply of a move. -/
def handedSession (x : ServerMove) : Option GoString :=
  (clientReply x.output).bind (quotedAfter sessionMarks)

def isErrorReply (x : ServerMove) : Bool :=
  (clientReply x.output).any fun reply => errorMarks.any fun mark => mark.isPrefixOf reply

/-- The pending entry that an at-inquiry finds, with the session id it names. -/
def inquired (x : ServerMove) : Option (ℤ × PendingListElem) :=
  (inquiryId x.event.2).bind fun g =>
    (x.before.pendingSlot g).map fun i => (g, x.before.pendingList i)

/-- The gating id of a request, with the payload it is about. -/
def granted (cfg : Config) (x : ServerMove) : Option (ℤ × AtGenPayload) :=
  match accepted cfg x.event.1 x.before x.event.2 with
  | some payload => some (newGatingId x.before, payload)
  | none => (inquired x).map fun r => (r.1, r.2.atGenData)

/-- Whether the request gets an access token. -/
def tokenDue (cfg : Config) (x : ServerMove) : Bool :=
  match accepted cfg x.event.1 x.before x.event.2 with
  | some payload => ¬ checkifConsent cfg payload.purpose
  | none => (inquired x).any fun r => ¬ withholds r.2.consent

/-- Whether the request opens a session. -/
def sessionDue (cfg : Config) (x : ServerMove) : Bool :=
  (accepted cfg x.event.1 x.before x.event.2).any fun payload =>
    checkifConsent cfg payload.purpose && x.before.ecfAvailable

/-- The token was made for the purpose of the request, and the active list holds it with
its expiry under the gating id of the request. -/
def TokenListed (cfg : Config) (x : ServerMove) (atoken : GoString) : Prop :=
  ∃ g payload i, granted cfg x = some (g, payload) ∧ g ≠ -1 ∧
    atoken = generateAt cfg x.event.1 payload ∧ (x.after.activeList i).gatingId = g ∧
    (x.after.activeList i).atoken = atoken ∧
    extractFromToken atoken (str "exp") = some (x.after.activeList i).atExpiryTime

/-- The pending list holds the session with the payload of its request, which names the
purpose, and with the expiry of its grant token. -/
def SessionListed (cfg : Config) (x : ServerMove) (id : GoString) : Prop :=
  ∃ g payload i, granted cfg x = some (g, payload) ∧ g ≠ -1 ∧ id = itoa g ∧
    (x.after.pendingList i).gatingId = g ∧ (x.after.pendingList i).atGenData = payload ∧
    extractFromToken payload.token (str "exp") = some (x.after.pendingList i).agtExpiryTime

/-- What the reply of a move hands out is listed, and a full list makes it an error. -/
def HandsListed (cfg : Config) (x : ServerMove) : Prop :=
  (∀ atoken, handedToken x = some atoken → TokenListed cfg x atoken) ∧
  (∀ id, handedSession x = some id → SessionListed cfg x id) ∧
  (tokenDue cfg x = true → x.before.activeSlot (-1) = none → isErrorReply x = true) ∧
  (sessionDue cfg x = true → x.before.pendingSlot (-1) = none → isErrorReply x = true)

/-- The list that the request is written to has a free slot, and an at-inquiry does not
get an answer from a free slot. -/
def HasRoom (cfg : Config) (x : ServerMove) : Prop :=
  (tokenDue cfg x = true → x.before.activeSlot (-1) ≠ none) ∧
  (sessionDue cfg x = true → x.before.pendingSlot (-1) ≠ none) ∧
  ∀ r ∈ inquired x, r.1 = -1 → r.2.consent = str "NO"

/-- Each pending entry holds the expiry of its grant token. -/
def ExpiryKept (s : State) : Prop :=
  ∀ i, (s.pendingList i).gatingId ≠ -1 →
    extractFromToken (s.pendingList i).atGenData.token (str "exp") =
      some (s.pendingList i).agtExpiryTime

section

variable {marks : List GoString} {mark text tail : GoString}

/-- Neither text starts with the other one. -/
def apart (p q : GoString) : Bool := ¬ p.isPrefixOf q && ¬ q.isPrefixOf p

theorem isPrefixOf_append_of_apart {p q : GoString} (h : apart p q = true) :
    q.isPrefixOf (p ++ tail) = false := by
  by_contra hprefix
  simp only [apart, Bool.and_eq_true, decide_eq_true_eq, List.isPrefixOf_iff_prefix] at h
  rw [Bool.not_eq_false, List.isPrefixOf_iff_prefix] at hprefix
  obtain hpq | hqp := List.prefix_or_prefix_of_prefix (List.prefix_append p tail) hprefix
  · exact h.1 hpq
  · exact h.2 hqp

theorem any_isPrefixOf_apart (h : (marks.all fun m => apart mark m) = true) :
    (marks.any fun m => m.isPrefixOf (mark ++ tail)) = false := by
  apply List.any_eq_false.mpr
  intro m hm
  rw [isPrefixOf_append_of_apart (List.all_eq_true.mp h m hm)]
  decide

theorem quotedAfter_apart (h : (marks.all fun m => apart mark m) = true) :
    quotedAfter marks (mark ++ tail) = none := by
  have hfind : (marks.find? fun m => m.isPrefixOf (mark ++ tail)) = none := by
    apply List.find?_eq_none.mpr
    intro m hm
    rw [isPrefixOf_append_of_apart (List.all_eq_true.mp h m hm)]
    decide
  rw [quotedAfter, hfind, Option.map_none]

theorem quotedAfter_isSome (h : mark ∈ marks) : (quotedAfter marks (mark ++ tail)).isSome := by
  rw [quotedAfter, Option.isSome_map]
  apply List.find?_isSome.mpr
  exact ⟨mark, h, List.isPrefixOf_iff_prefix.mpr (List.prefix_append mark tail)⟩

/-- The text between a mark and the next quotation mark. -/
theorem quotedAfter_mark (before : List GoString) {after : List GoString}
    (hmarks : marks = before ++ mark :: after)
    (hbefore : (before.all fun m => apart mark m) = true) (htext : 34 ∉ text) :
    quotedAfter marks (mark ++ (text ++ 34 :: tail)) = some text := by
  have hstart : (marks.find? fun m => m.isPrefixOf (mark ++ (text ++ 34 :: tail))) = some mark := by
    have hnone : (before.find? fun m => m.isPrefixOf (mark ++ (text ++ 34 :: tail))) = none := by
      apply List.find?_eq_none.mpr
      intro m hm
      rw [isPrefixOf_append_of_apart (List.all_eq_true.mp hbefore m hm)]
      decide
    rw [hmarks, List.find?_append, hnone, Option.none_or]
    exact List.find?_cons_of_pos
      (List.isPrefixOf_iff_prefix.mpr (List.prefix_append mark (text ++ 34 :: tail)))
  have hkeep : ∀ c ∈ text, decide (c ≠ 34) = true := by
    intro c hc
    have hne : c ≠ 34 := fun heq => htext (heq ▸ hc)
    simpa using hne
  rw [quotedAfter, hstart, Option.map_some, List.drop_left, List.takeWhile_append_of_pos hkeep,
    List.takeWhile_cons_of_neg (by simp), List.append_nil]

theorem itoa_noQuote (z : ℤ) : 34 ∉ itoa z := by
  have hdigits : ∀ n : ℕ, 34 ∉ natDigits n := by
    intro n hmem
    exact absurd (isDigit_of_mem_natDigits hmem) (by decide)
  unfold itoa
  split
  · intro hmem
    obtain heq | hmem := List.mem_cons.mp hmem
    · exact absurd heq (by decide)
    · exact hdigits _ hmem
  · exact hdigits _

theorem encode_noQuote (s : GoString) : 34 ∉ Base64.encode s := by
  intro hmem
  exact (Base64.ne_of_mem_of_decode (Base64.decode_encode s) hmem).1 rfl

end

section

variable {cfg : Config} {m : Moment} {s s' : State} {payload : AtGenPayload}

theorem generateAt_noQuote (huuid : m.uuid ≠ none) : 34 ∉ generateAt cfg m payload := by
  obtain ⟨jti, hjti⟩ := Option.ne_none_iff_exists'.mp huuid
  simp only [generateAt, hjti, JsonWebToken.getFullToken, JsonWebToken.symmSign,
    JsonWebToken.encode, List.mem_append, not_or]
  refine ⟨⟨⟨⟨encode_noQuote _, ?_⟩, encode_noQuote _⟩, ?_⟩, encode_noQuote _⟩
  · decide
  · decide

/-- Without a random number the text in place of a token has no claims. -/
theorem uuid_of_extract {claim : GoString}
    (h : (extractFromToken (generateAt cfg m payload) claim).isSome) : m.uuid ≠ none := by
  intro hnone
  obtain ⟨header, rest, hparts⟩ := exists_tokenParts h
  obtain ⟨-, -, signature, htoken⟩ := hparts
  have hdot : (46 : UInt8) ∈ generateAt cfg m payload := by
    rw [htoken]
    simp
  simp only [generateAt, hnone] at hdot
  exact absurd hdot (by decide)

end

section

variable {cfg : Config} {x : ServerMove}

/-- A move that hands out nothing and has nothing to hand out. -/
theorem handsListed_iff_of_nothing (htoken : handedToken x = none)
    (hsession : handedSession x = none) (hnoToken : tokenDue cfg x = false) (hnoSession : sessionDue cfg x = false)
    (hinquired : ∀ r ∈ inquired x, r.1 = -1 → r.2.consent = str "NO") :
    HandsListed cfg x ↔ HasRoom cfg x := by
  have hlisted : HandsListed cfg x := by simp [HandsListed, htoken, hsession, hnoToken, hnoSession]
  have hroom : HasRoom cfg x := ⟨by simp [hnoToken], by simp [hnoSession], hinquired⟩
  exact ⟨fun _ => hroom, fun _ => hlisted⟩

/-- What is granted does not go to the session -1 where every answered session refused. -/
theorem ne_minus_iff {g : ℤ}
    (hminus : g = -1 ↔ ∃ r ∈ inquired x, r.1 = -1 ∧ r.2.consent ≠ str "NO") :
    g ≠ -1 ↔ ∀ r ∈ inquired x, r.1 = -1 → r.2.consent = str "NO" := by
  constructor
  · intro hne r hr hid
    by_contra hconsent
    exact hne (hminus.mpr ⟨r, hr, hid, hconsent⟩)
  · intro hall hg
    obtain ⟨r, hr, hid, hconsent⟩ := hminus.mp hg
    exact hconsent (hall r hr hid)

theorem isErrorReply_of_mark {mark tail : GoString}
    (hreply : clientReply x.output = some (mark ++ tail)) (hmark : mark ∈ tokenMarks ++ sessionMarks) :
    isErrorReply x = false := by
  rw [isErrorReply, hreply, Option.any_some]
  exact any_isPrefixOf_apart (List.all_eq_true.mp (by decide : ((tokenMarks ++ sessionMarks).all
    fun mark => errorMarks.all fun m => apart mark m) = true) mark hmark)

/-- A reply with a token, to a request with the gating id g. -/
theorem handsListed_iff_of_token {mark tail : GoString} {g : ℤ} {payload : AtGenPayload}
    (hreply : clientReply x.output = some (mark ++ tail)) (hmark : mark ∈ tokenMarks)
    (hgranted : granted cfg x = some (g, payload)) (hdue : tokenDue cfg x = true)
    (hnoSession : sessionDue cfg x = false)
    (hminus : g = -1 ↔ ∃ r ∈ inquired x, r.1 = -1 ∧ r.2.consent ≠ str "NO")
    (hlisted : x.before.activeSlot (-1) ≠ none → g ≠ -1 →
      ∀ atoken, handedToken x = some atoken → TokenListed cfg x atoken) :
    HandsListed cfg x ↔ HasRoom cfg x := by
  have hsome : (handedToken x).isSome := by
    rw [handedToken, hreply, Option.bind_some]
    exact quotedAfter_isSome hmark
  have hsession : handedSession x = none := by
    rw [handedSession, hreply, Option.bind_some]
    exact quotedAfter_apart (List.all_eq_true.mp (by decide :
      (tokenMarks.all fun mark => sessionMarks.all fun m => apart mark m) = true) mark hmark)
  have hnoError := isErrorReply_of_mark hreply (List.mem_append_left sessionMarks hmark)
  constructor
  · intro hhands
    obtain ⟨htokens, -, hfull, -⟩ := hhands
    refine ⟨?_, by simp [hnoSession], (ne_minus_iff hminus).mp fun hg => ?_⟩
    · intro _ hslot
      rw [hfull hdue hslot] at hnoError
      cases hnoError
    · obtain ⟨atoken, hatoken⟩ := Option.isSome_iff_exists.mp hsome
      obtain ⟨g', payload', i, hgranted', hne, -⟩ := htokens atoken hatoken
      have hg' : g' = g := congrArg Prod.fst (Option.some.inj (hgranted'.symm.trans hgranted))
      exact hne (hg'.trans hg)
  · intro hroom
    obtain ⟨hslot, -, hinquired⟩ := hroom
    refine ⟨hlisted (hslot hdue) ((ne_minus_iff hminus).mpr hinquired), by simp [hsession], ?_,
      by simp [hnoSession]⟩
    intro _ hnone
    exact absurd hnone (hslot hdue)

/-- A reply with a session id, to a request with the gating id g. -/
theorem handsListed_iff_of_session {mark tail : GoString} {g : ℤ} {payload : AtGenPayload}
    (hreply : clientReply x.output = some (mark ++ tail)) (hmark : mark ∈ sessionMarks)
    (hgranted : granted cfg x = some (g, payload)) (hnoToken : tokenDue cfg x = false)
    (hminus : g = -1 ↔ ∃ r ∈ inquired x, r.1 = -1 ∧ r.2.consent ≠ str "NO")
    (hlisted : (sessionDue cfg x = true → x.before.pendingSlot (-1) ≠ none) → g ≠ -1 →
      ∀ id, handedSession x = some id → SessionListed cfg x id) :
    HandsListed cfg x ↔ HasRoom cfg x := by
  have hsome : (handedSession x).isSome := by
    rw [handedSession, hreply, Option.bind_some]
    exact quotedAfter_isSome hmark
  have htoken : handedToken x = none := by
    rw [handedToken, hreply, Option.bind_some]
    exact quotedAfter_apart (List.all_eq_true.mp (by decide :
      (sessionMarks.all fun mark => tokenMarks.all fun m => apart mark m) = true) mark hmark)
  have hnoError := isErrorReply_of_mark hreply (List.mem_append_right tokenMarks hmark)
  constructor
  · intro hhands
    obtain ⟨-, hsessions, -, hfull⟩ := hhands
    refine ⟨by simp [hnoToken], ?_, (ne_minus_iff hminus).mp fun hg => ?_⟩
    · intro hdue hslot
      rw [hfull hdue hslot] at hnoError
      cases hnoError
    · obtain ⟨id, hgiven⟩ := Option.isSome_iff_exists.mp hsome
      obtain ⟨g', payload', i, hgranted', hne, -⟩ := hsessions id hgiven
      have hg' : g' = g := congrArg Prod.fst (Option.some.inj (hgranted'.symm.trans hgranted))
      exact hne (hg'.trans hg)
  · intro hroom
    obtain ⟨-, hslot, hinquired⟩ := hroom
    refine ⟨by simp [htoken], hlisted hslot ((ne_minus_iff hminus).mpr hinquired),
      by simp [hnoToken], ?_⟩
    intro hdue hnone
    exact absurd hnone (hslot hdue)

end

/-- A reply that hands out neither a token nor a session id. -/
def handsNothing (reply : GoString) : Bool :=
  quotedAfter tokenMarks reply = none && quotedAfter sessionMarks reply = none

section

variable {cfg : Config} {m : Moment} {s s' : State} {payload : AtGenPayload} {e : Event}
  {effects : List Effect} {request : GoString}

/-- The error texts of decodeRequest. -/
def decodeErrors : List GoString :=
  [str "\x7b\"action\": \"at-request\", \"error\": \"Client request malformed\"\x7d",
    str "\x7b\"action\": \"at-request\", \"error\":\"AGT Malformed\"\x7d",
    str "\x7b\"action\": \"at-request\", \"error\":\"POP malformed\"\x7d"]

/-- The error texts of validatePop. -/
def popErrors : List GoString :=
  [str "\x7b\"error\": \"Repeated JTI\"\x7d",
    str "\x7b\"error\": \"Cannot validate POP signature\"\x7d",
    str "\x7b\"error\": \"Cannot validate POP iat\"\x7d",
    str "\x7b\"error\": \"Keys in POP and AGToken are not matching\"\x7d",
    str "\x7b\"error\": \"Invalid aud\"\x7d"]

/-- The error text for a grant token whose time of issue cannot be read. -/
def undatedError : GoString := str "\x7b\"error\": AG token iat timestamp malformed\"\x7d"

/-- The other error texts of validateRequest. -/
def requestErrors : List GoString :=
  popErrors ++ [str "\x7b\"error\": \"AG token signature validation failed\"\x7d",
    str "\x7b\"error\": \"AG token exp timestamp malformed\"\x7d",
    str "\x7b\"error\": \"AG token timestamp validation failed\"\x7d",
    str "\x7b\"error\": \"Purpose validation failed\"\x7d"]

/-- A grant token is signed, and its time of issue cannot be read. -/
def Undated (cfg : Config) (payload : AtGenPayload) : Prop :=
  payload.agt.token.checkRsaSignature cfg.crypto cfg.agtKey = true ∧
    atoi (claim payload.agt.payloadClaims (str "iat")) = none

theorem decodeRequest_error {errResponse : GoString}
    (h : decodeRequest cfg request = some (.inl errResponse)) : errResponse ∈ decodeErrors := by
  unfold decodeRequest at h
  split at h
  · rw [← Sum.inl.inj (Option.some.inj h)]
    decide
  · split at h
    · rw [← Sum.inl.inj (Option.some.inj h)]
      decide
    · dsimp only at h
      split at h
      · cases h
      · obtain ⟨r, -, h⟩ := Option.bind_eq_some_iff.mp h
        cases r with
        | none =>
          rw [← Sum.inl.inj (Option.some.inj h)]
          decide
        | some popTk => cases h

theorem validatePop_error {jtiCache cache : List GoString} {errResponse : GoString}
    (h : validatePop cfg m jtiCache payload = some (errResponse, cache)) :
    errResponse ∈ [] :: popErrors := by
  unfold validatePop at h
  dsimp only at h
  split at h
  · rw [← (Prod.mk.inj (Option.some.inj h)).1]
    decide
  · obtain ⟨signed, -, h⟩ := Option.bind_eq_some_iff.mp h
    split at h
    · rw [← (Prod.mk.inj (Option.some.inj h)).1]
      decide
    · split at h
      · rw [← (Prod.mk.inj (Option.some.inj h)).1]
        decide
      · split at h
        · rw [← (Prod.mk.inj (Option.some.inj h)).1]
          decide
        · split at h
          · rw [← (Prod.mk.inj (Option.some.inj h)).1]
            decide
          · rw [← (Prod.mk.inj (Option.some.inj h)).1]
            decide

theorem validateRequest_error {jtiCache cache : List GoString} {errResponse : GoString}
    (h : validateRequest cfg m jtiCache payload = some (errResponse, cache)) :
    (Undated cfg payload ∧ errResponse = undatedError) ∨
      (¬ Undated cfg payload ∧ errResponse ∈ [] :: requestErrors) := by
  unfold validateRequest at h
  split at h
  · next hunsigned =>
    rw [← (Prod.mk.inj (Option.some.inj h)).1]
    exact .inr ⟨fun hundated => hunsigned hundated.1, by decide⟩
  · next hsigned =>
    dsimp only at h
    split at h
    · next hiat =>
      rw [← (Prod.mk.inj (Option.some.inj h)).1]
      exact .inl ⟨⟨not_not.mp hsigned, hiat⟩, rfl⟩
    · next iat hiat hexp =>
      rw [← (Prod.mk.inj (Option.some.inj h)).1]
      exact .inr ⟨by simp [Undated, hiat], by decide⟩
    · next iat exp hiat hexp =>
      refine .inr ⟨by simp [Undated, hiat], ?_⟩
      split at h
      · rw [← (Prod.mk.inj (Option.some.inj h)).1]
        decide
      · have hpop : ∃ r : GoString × List GoString, r.1 ∈ [] :: popErrors ∧
            (if r.1 ≠ [] then some r else (validatePurpose cfg payload.purpose
              (claim payload.agt.payloadClaims (str "clx"))).bind
                fun valid => if valid = true then some ([], r.2) else
                  some (str "\x7b\"error\": \"Purpose validation failed\"\x7d", r.2)) =
            some (errResponse, cache) := by
          split at h
          · obtain ⟨r, hr, h⟩ := Option.bind_eq_some_iff.mp h
            exact ⟨r, validatePop_error hr, h⟩
          · exact ⟨([], jtiCache), List.mem_cons_self, h⟩
        obtain ⟨r, hr, h⟩ := hpop
        split at h
        · rw [← (Prod.mk.inj (Option.some.inj h)).1]
          exact (List.mem_cons.mp hr).elim (fun hnil => by rw [hnil]; exact List.mem_cons_self)
            fun hpop => List.mem_cons_of_mem _ (List.mem_append_left _ hpop)
        · obtain ⟨valid, -, h⟩ := Option.bind_eq_some_iff.mp h
          split at h
          · rw [← (Prod.mk.inj (Option.some.inj h)).1]
            decide
          · rw [← (Prod.mk.inj (Option.some.inj h)).1]
            decide

theorem decodeErrors_nothing : ∀ text ∈ decodeErrors, handsNothing text = true := by decide

theorem validateRequest_nothing {jtiCache cache : List GoString} {errResponse : GoString}
    (h : validateRequest cfg m jtiCache payload = some (errResponse, cache)) :
    handsNothing errResponse = true := by
  have hnothing : ∀ text ∈ [] :: requestErrors, handsNothing text = true := by decide
  rcases validateRequest_error h with ⟨-, rfl⟩ | ⟨-, hmem⟩
  · decide
  · exact hnothing errResponse hmem

/-- A reply without a token or a session id, where none is due. -/
theorem handsListed_iff_of_reply {reply : GoString} (hnothing : handsNothing reply = true)
    (hnoToken : tokenDue cfg ⟨s, (m, e), s', [.client reply]⟩ = false)
    (hnoSession : sessionDue cfg ⟨s, (m, e), s', [.client reply]⟩ = false)
    (hinquired : ∀ r ∈ inquired ⟨s, (m, e), s', [.client reply]⟩, r.1 = -1 →
      r.2.consent = str "NO") :
    HandsListed cfg ⟨s, (m, e), s', [.client reply]⟩ ↔
      HasRoom cfg ⟨s, (m, e), s', [.client reply]⟩ := by
  simp only [handsNothing, Bool.and_eq_true, decide_eq_true_eq] at hnothing
  exact handsListed_iff_of_nothing hnothing.1 hnothing.2 hnoToken hnoSession hinquired

theorem inquired_of_accepted (haccepted : accepted cfg m s e = some payload) :
    inquired ⟨s, (m, e), s', effects⟩ = none := by
  simp [inquired, accepted_inquiryId haccepted]

theorem granted_of_accepted (haccepted : accepted cfg m s e = some payload) :
    granted cfg ⟨s, (m, e), s', effects⟩ = some (newGatingId s, payload) := by
  simp [granted, haccepted]

theorem inquired_of_slot {g : ℤ} {i : Slot} (hinquiry : inquiryId e = some g)
    (hi : s.pendingSlot g = some i) :
    inquired ⟨s, (m, e), s', effects⟩ = some (g, s.pendingList i) := by
  simp [inquired, hinquiry, hi]

theorem granted_of_slot {g : ℤ} {i : Slot} (haccepted : accepted cfg m s e = none)
    (hinquiry : inquiryId e = some g) (hi : s.pendingSlot g = some i) :
    granted cfg ⟨s, (m, e), s', effects⟩ = some (g, (s.pendingList i).atGenData) := by
  simp [granted, haccepted, inquired, hinquiry, hi]

/-- A token that went into the active list, behind a mark of the reply. -/
theorem tokenListed_of_write {x : ServerMove} {before : State} {g : ℤ} {mark tail : GoString}
    (marksBefore : List GoString) {marksAfter : List GoString}
    (hmarks : tokenMarks = marksBefore ++ mark :: marksAfter)
    (hbefore : (marksBefore.all fun m => apart mark m) = true)
    (hwrite : writeToActiveList x.event.1.now before g (generateAt cfg x.event.1 payload) =
      some x.after)
    (hreply : clientReply x.output =
      some (mark ++ (generateAt cfg x.event.1 payload ++ 34 :: tail)))
    (hgranted : granted cfg x = some (g, payload)) (hslot : before.activeSlot (-1) ≠ none)
    (hne : g ≠ -1) : ∀ atoken, handedToken x = some atoken → TokenListed cfg x atoken := by
  obtain ⟨hfull, -⟩ | ⟨i, expiry, -, hexpiry, hafter⟩ := writeToActiveList_some hwrite
  · exact absurd hfull hslot
  · intro atoken htoken
    have huuid : x.event.1.uuid ≠ none := uuid_of_extract (Option.isSome_of_eq_some hexpiry)
    rw [handedToken, hreply, Option.bind_some,
      quotedAfter_mark marksBefore hmarks hbefore (generateAt_noQuote huuid),
      Option.some.injEq] at htoken
    subst htoken
    refine ⟨g, payload, i, hgranted, hne, rfl, ?_, ?_, ?_⟩
    · simp [hafter]
    · simp [hafter]
    · simp [hafter, hexpiry]

/-- The reply to an at-request that needs no consent. -/
theorem grant_listed {jtiCache : List GoString} (haccepted : accepted cfg m s e = some payload)
    (hconsent : checkifConsent cfg payload.purpose = false)
    (hwrite : writeToActiveList m.now { s with jtiCache } (newGatingId s)
      (generateAt cfg m payload) = some s')
    (heffects : effects = [.issue payload.purpose (generateAt cfg m payload), .client (
      str "\x7b\"action\": \"at-request\", \"aToken\":\"" ++ generateAt cfg m payload ++
        str "\"\x7d")]) :
    HandsListed cfg ⟨s, (m, e), s', effects⟩ ↔ HasRoom cfg ⟨s, (m, e), s', effects⟩ := by
  have hreply : clientReply effects =
      some (str "\x7b\"action\": \"at-request\", \"aToken\":\"" ++
        (generateAt cfg m payload ++ 34 :: str "\x7d")) := by
    rw [heffects, ← List.append_assoc]
    rfl
  refine handsListed_iff_of_token hreply (by decide) (granted_of_accepted haccepted)
    (by simp [tokenDue, haccepted, hconsent]) (by simp [sessionDue, haccepted, hconsent]) ?_ ?_
  · simp [inquired_of_accepted haccepted, State.newGatingId_ne]
  · intro hslot hne
    exact tokenListed_of_write [] rfl rfl hwrite hreply
      (granted_of_accepted haccepted) hslot hne

/-- The reply to an at-request that waits for consent. -/
theorem ask_listed {jtiCache : List GoString} (haccepted : accepted cfg m s e = some payload)
    (hconsent : checkifConsent cfg payload.purpose = true) (hecf : s.ecfAvailable = true)
    (hwrite : writeToPendingList m.now { s with jtiCache } (newGatingId s) payload = some s')
    (heffects : effects = [.ecf (consentAsk cfg payload (newGatingId s)), .client (
      str "\x7b\"action\": \"at-request\", \"sessionId\":\"" ++ itoa (newGatingId s) ++
        str "\", \"consent\":\"NOT_SET\"\x7d")]) :
    HandsListed cfg ⟨s, (m, e), s', effects⟩ ↔ HasRoom cfg ⟨s, (m, e), s', effects⟩ := by
  have hreply : clientReply effects =
      some (str "\x7b\"action\": \"at-request\", \"sessionId\":\"" ++
        (itoa (newGatingId s) ++ 34 :: str ", \"consent\":\"NOT_SET\"\x7d")) := by
    rw [heffects, ← List.append_assoc]
    rfl
  have hgranted : granted cfg ⟨s, (m, e), s', effects⟩ = some (newGatingId s, payload) :=
    granted_of_accepted haccepted
  refine handsListed_iff_of_session hreply (by decide) hgranted
    (by simp [tokenDue, haccepted, hconsent]) ?_ ?_
  · simp [inquired_of_accepted haccepted, State.newGatingId_ne]
  · intro hslot hne id hid
    have hdue : sessionDue cfg ⟨s, (m, e), s', effects⟩ = true := by
      simp [sessionDue, haccepted, hconsent, hecf]
    obtain ⟨hfull, -⟩ | ⟨i, expiry, -, hexpiry, hafter⟩ := writeToPendingList_some hwrite
    · exact absurd hfull (hslot hdue)
    · have hfirst : sessionMarks =
          [] ++ str "\x7b\"action\": \"at-request\", \"sessionId\":\"" :: sessionMarks.tail := rfl
      rw [handedSession, hreply, Option.bind_some,
        quotedAfter_mark [] hfirst rfl (itoa_noQuote _), Option.some.injEq] at hid
      refine ⟨newGatingId s, payload, i, hgranted, hne, hid.symm, ?_, ?_, ?_⟩
      · simp [hafter]
      · simp [hafter]
      · simp [hafter, hexpiry]

/-- The reply to an at-inquiry that finds an entry. -/
theorem inquirySlot_listed {g : ℤ} {i : Slot} (hkept : ExpiryKept s)
    (haccepted : accepted cfg m s e = none) (hinquiry : inquiryId e = some g)
    (hi : s.pendingSlot g = some i) (h : inquirySlot cfg m s g i = some (s', effects)) :
    HandsListed cfg ⟨s, (m, e), s', effects⟩ ↔ HasRoom cfg ⟨s, (m, e), s', effects⟩ := by
  have hinquired : inquired ⟨s, (m, e), s', effects⟩ = some (g, s.pendingList i) :=
    inquired_of_slot hinquiry hi
  have hgranted : granted cfg ⟨s, (m, e), s', effects⟩ = some (g, (s.pendingList i).atGenData) :=
    granted_of_slot haccepted hinquiry hi
  have hnoSession : sessionDue cfg ⟨s, (m, e), s', effects⟩ = false := by
    simp [sessionDue, haccepted]
  have hid : (s.pendingList i).gatingId = g := State.pendingSlot_some hi
  unfold inquirySlot at h
  dsimp only at h
  split at h
  · next hnotset =>
    obtain ⟨rfl, heffects⟩ := Prod.mk.inj (Option.some.inj h)
    have hreply : clientReply effects =
        some (str "\x7b\"action\": \"at-inquiry\", \"sessionId\":" ++
          (itoa g ++ 34 :: str ", \"consent\":\"NOT_SET\"\x7d")) := by
      rw [← heffects, ← List.append_assoc]
      rfl
    refine handsListed_iff_of_session hreply (by decide) hgranted
      (by simp [tokenDue, haccepted, hinquired, withholds, hnotset]) ?_ ?_
    · have hno : (s.pendingList i).consent ≠ str "NO" := by
        rw [hnotset]
        decide
      simp [hinquired, hno]
    · intro _ hne id hgiven
      have hlast : sessionMarks = [str "\x7b\"action\": \"at-request\", \"sessionId\":\""] ++
          str "\x7b\"action\": \"at-inquiry\", \"sessionId\":" :: [] := rfl
      rw [handedSession, hreply, Option.bind_some,
        quotedAfter_mark _ hlast (by decide) (itoa_noQuote _), Option.some.injEq] at hgiven
      refine ⟨g, _, i, hgranted, hne, hgiven.symm, hid, rfl, ?_⟩
      exact hkept i (by rw [hid]; exact hne)
  · next hset =>
    split at h
    · next hno =>
      obtain ⟨rfl, rfl⟩ := Prod.mk.inj (Option.some.inj h)
      refine handsListed_iff_of_reply (by decide)
        (by simp [tokenDue, haccepted, hinquired, withholds, hno]) hnoSession ?_
      simp [hinquired, hno]
    · next hyes =>
      simp only [issueAt, Option.bind_eq_bind, Option.bind_eq_some_iff, Option.some.injEq,
        Prod.mk.injEq] at h
      obtain ⟨⟨s₁, atoken⟩, ⟨s₂, hwrite, heq⟩, rfl, heffects⟩ := h
      obtain ⟨rfl, rfl⟩ := Prod.mk.inj heq
      have hreply : clientReply effects =
          some (str "\x7b\"action\": \"at-inquiry\", \"aToken\":\"" ++
            (generateAt cfg m (s.pendingList i).atGenData ++ 34 ::
              (str ", \"consent\":\"" ++ (s.pendingList i).consent ++ str "\"\x7d"))) := by
        have hquote : str "\", \"consent\":\"" = 34 :: str ", \"consent\":\"" := rfl
        rw [← heffects]
        simp [clientReply, hquote]
      refine handsListed_iff_of_token hreply (by decide) hgranted
        (by simp [tokenDue, haccepted, hinquired, withholds, hset, hyes]) hnoSession ?_ ?_
      · simp [hinquired, hyes]
      · intro hslot hne
        exact tokenListed_of_write [str "\x7b\"action\": \"at-request\", \"aToken\":\""] rfl
          (by decide) hwrite hreply hgranted hslot hne

theorem grantRequest_listed {jtiCache : List GoString}
    (haccepted : accepted cfg m s e = some payload)
    (h : grantRequest cfg m { s with jtiCache } payload = some (s', effects)) :
    HandsListed cfg ⟨s, (m, e), s', effects⟩ ↔ HasRoom cfg ⟨s, (m, e), s', effects⟩ := by
  unfold grantRequest at h
  dsimp only at h
  split at h
  · next hconsent =>
    split at h
    · next hecf =>
      simp only [Option.bind_eq_bind, Option.bind_eq_some_iff, Option.some.injEq,
        Prod.mk.injEq] at h
      obtain ⟨s₁, hwrite, rfl, heffects⟩ := h
      exact ask_listed haccepted hconsent hecf hwrite heffects.symm
    · next hecf =>
      obtain ⟨rfl, rfl⟩ := Prod.mk.inj (Option.some.inj h)
      refine handsListed_iff_of_reply (by decide) (by simp [tokenDue, haccepted, hconsent])
        (by simp [sessionDue, haccepted, hecf]) ?_
      simp [inquired_of_accepted haccepted]
  · next hconsent =>
    simp only [issueAt, Option.bind_eq_bind, Option.bind_eq_some_iff, Option.some.injEq,
      Prod.mk.injEq] at h
    obtain ⟨⟨s₁, atoken⟩, ⟨s₂, hwrite, heq⟩, rfl, heffects⟩ := h
    obtain ⟨rfl, rfl⟩ := Prod.mk.inj heq
    exact grant_listed haccepted (by simpa using hconsent) hwrite heffects.symm

theorem client_listed (hkept : ExpiryKept s)
    (h : generateClientResponse cfg m s request = some (s', effects)) :
    HandsListed cfg ⟨s, (m, .client request), s', effects⟩ ↔
      HasRoom cfg ⟨s, (m, .client request), s', effects⟩ := by
  unfold generateClientResponse at h
  by_cases hrequest : contains request (str "at-request") = true
  · rw [if_pos hrequest] at h
    simp only [accessTokenResponse, Option.bind_eq_bind, Option.bind_eq_some_iff] at h
    have hinquired : ∀ x : ServerMove, x.event.2 = .client request → inquired x = none := by
      intro x hx
      simp [inquired, hx, inquiryId, hrequest]
    obtain ⟨decoded, hdecoded, h⟩ := h
    cases decoded with
    | inl errResponse =>
      obtain ⟨rfl, rfl⟩ := Prod.mk.inj (Option.some.inj h)
      have hnone : accepted cfg m s (.client request) = none := by
        simp [accepted, hrequest, hdecoded]
      exact handsListed_iff_of_reply (decodeErrors_nothing _ (decodeRequest_error hdecoded))
        (by simp [tokenDue, hnone, hinquired]) (by simp [sessionDue, hnone]) (by simp [hinquired])
    | inr payload =>
      obtain ⟨⟨errResponse, jtiCache⟩, hvalidate, h⟩ := Option.bind_eq_some_iff.mp h
      dsimp only at h
      split at h
      · next herr =>
        refine grantRequest_listed ?_ h
        simp [accepted, hrequest, hdecoded, hvalidate, herr]
      · next herr =>
        obtain ⟨rfl, rfl⟩ := Prod.mk.inj (Option.some.inj h)
        have hnone : accepted cfg m s (.client request) = none := by
          simp [accepted, hrequest, hdecoded, hvalidate, herr]
        exact handsListed_iff_of_reply (validateRequest_nothing hvalidate)
          (by simp [tokenDue, hnone, hinquired]) (by simp [sessionDue, hnone])
          (by simp [hinquired])
  · rw [if_neg hrequest] at h
    have hnone : accepted cfg m s (.client request) = none := by simp [accepted, hrequest]
    split at h
    · next hinq =>
      simp only [consentInquiryResponse, Option.bind_eq_bind, Option.bind_eq_some_iff] at h
      obtain ⟨g, hg, h⟩ := h
      have hinquiry : inquiryId (.client request) = some g := by
        simpa [inquiryId, hrequest, hinq] using hg
      split at h
      · next i hi => exact inquirySlot_listed hkept hnone hinquiry hi h
      · next hi =>
        obtain ⟨rfl, rfl⟩ := Prod.mk.inj (Option.some.inj h)
        exact handsListed_iff_of_reply (by decide)
          (by simp [tokenDue, hnone, inquired, hinquiry, hi]) (by simp [sessionDue, hnone]) (by simp [inquired, hinquiry, hi])
    · next hinq =>
      obtain ⟨rfl, rfl⟩ := Prod.mk.inj (Option.some.inj h)
      exact handsListed_iff_of_reply (by decide)
        (by simp [tokenDue, hnone, inquired, inquiryId, hrequest, hinq])
        (by simp [sessionDue, hnone]) (by simp [inquired, inquiryId, hrequest, hinq])

theorem consentCancelResponse_effects {message response : GoString} {cancels : List Effect}
    (h : consentCancelResponse s message = some (s', cancels, response)) :
    cancels = [] ∨ ∃ id, cancels = [.cancel id] := by
  unfold consentCancelResponse at h
  split at h
  · exact .inl (Prod.mk.inj (Prod.mk.inj (Option.some.inj h)).2).1.symm
  · obtain ⟨id, -, h⟩ := Option.bind_eq_some_iff.mp h
    split at h
    · exact .inl (Prod.mk.inj (Prod.mk.inj (Option.some.inj h)).2).1.symm
    · next id =>
      split at h
      · exact .inl (Prod.mk.inj (Prod.mk.inj (Option.some.inj h)).2).1.symm
      · split at h
        · exact .inl (Prod.mk.inj (Prod.mk.inj (Option.some.inj h)).2).1.symm
        · exact .inr ⟨id, (Prod.mk.inj (Prod.mk.inj (Option.some.inj h)).2).1.symm⟩
        · exact .inl (Prod.mk.inj (Prod.mk.inj (Option.some.inj h)).2).1.symm

theorem ecfStep_clientReply {message : GoString} (h : ecfStep s message = some (s', effects)) :
    clientReply effects = none := by
  unfold ecfStep generateEcfResponse at h
  split at h
  · rw [← (Prod.mk.inj (Option.some.inj h)).2]
    rfl
  · split at h
    · rw [← (Prod.mk.inj (Option.some.inj h)).2]
      rfl
    · split at h
      · obtain ⟨r, hr, h⟩ := Option.map_eq_some_iff.mp h
        rw [← (Prod.mk.inj h).2]
        rfl
      · split at h
        · obtain ⟨r, hr, h⟩ := Option.map_eq_some_iff.mp h
          rw [← (Prod.mk.inj h).2]
          obtain hcancels | ⟨id, hcancels⟩ := consentCancelResponse_effects hr
          · rw [hcancels]
            rfl
          · rw [hcancels]
            rfl
        · rw [← (Prod.mk.inj (Option.some.inj h)).2]
          rfl

/-- Only a message of a client has a reply to a client. -/
theorem clientReply_none (hclient : ∀ request, e ≠ .client request)
    (h : step cfg m s e = some (s', effects)) : clientReply effects = none := by
  cases e with
  | client request => exact absurd rfl (hclient request)
  | parent request =>
    obtain ⟨response, -, heq⟩ := Option.map_eq_some_iff.mp h
    rw [← (Prod.mk.inj heq).2]
    rfl
  | ecf message => exact ecfStep_clientReply h
  | expiryTick =>
    have heffects : (purgeLists m.now s).2.toList.map (fun gatingId => .cancel (itoa gatingId)) =
        effects := congrArg Prod.snd (Option.some.inj h)
    rw [← heffects]
    cases (purgeLists m.now s).2 with
    | none => rfl
    | some gatingId => rfl
  | deleteJti jti =>
    rw [← (Prod.mk.inj (Option.some.inj h)).2]
    rfl

theorem ExpiryKept.update (hkept : ExpiryKept s) {i : Slot} {entry : PendingListElem}
    (hlist : s'.pendingList = Function.update s.pendingList i entry)
    (hentry : entry.gatingId ≠ -1 →
      extractFromToken entry.atGenData.token (str "exp") = some entry.agtExpiryTime) :
    ExpiryKept s' := by
  intro j hj
  by_cases hij : j = i
  · subst hij
    rw [hlist, Function.update_self] at hj ⊢
    exact hentry hj
  · rw [hlist, Function.update_of_ne hij] at hj ⊢
    exact hkept j hj

theorem ExpiryKept.same (hkept : ExpiryKept s) (hlist : s'.pendingList = s.pendingList) :
    ExpiryKept s' := by
  unfold ExpiryKept
  rw [hlist]
  exact hkept

theorem ExpiryKept.next (hkept : ExpiryKept s) (h : Change cfg m s e s' effects) :
    ExpiryKept s' := by
  cases h with
  | quiet hpending _ _ _ _ _ _ _ _ => exact hkept.same hpending
  | ask _ _ _ _ hexpiry =>
    exact hkept.update (setExpiryTicker_pendingList ..) fun _ => hexpiry
  | grant _ _ hwrite => exact hkept.same ((writeToActiveList_pendingList hwrite).trans rfl)
  | refuse _ _ _ => exact hkept.update rfl fun hlive => absurd rfl hlive
  | yield _ _ _ _ hwrite =>
    exact hkept.update (writeToActiveList_pendingList hwrite) fun hlive => absurd rfl hlive
  | @reply _ _ i _ _ _ _ _ => exact hkept.update rfl (hkept i)
  | cancelPending _ _ => exact hkept.update rfl fun hlive => absurd rfl hlive
  | cancelActive _ _ _ _ => exact hkept.same rfl
  | purgePending _ _ _ =>
    exact hkept.update (setExpiryTicker_pendingList ..) fun hlive => absurd rfl hlive
  | purgeActive _ _ _ => exact hkept.same (setExpiryTicker_pendingList ..)

end

/-- One move hands out what is listed exactly when it has room. -/
theorem handsListed_iff {cfg : Config} {x : ServerMove} (hkept : ExpiryKept x.before)
    (hx : x.Of (serverStep cfg)) : HandsListed cfg x ↔ HasRoom cfg x := by
  obtain ⟨s, ⟨m, e⟩, s', effects⟩ := x
  by_cases hclient : ∃ request, e = .client request
  · obtain ⟨request, rfl⟩ := hclient
    exact client_listed hkept hx
  · have hno : ∀ request, e ≠ .client request := fun request heq => hclient ⟨request, heq⟩
    have hreply : clientReply effects = none := clientReply_none hno hx
    have haccepted : accepted cfg m s e = none := by
      cases e with
      | client request => exact absurd rfl (hno request)
      | _ => rfl
    have hinquired : inquired ⟨s, (m, e), s', effects⟩ = none := by
      cases e with
      | client request => exact absurd rfl (hno request)
      | _ => rfl
    exact handsListed_iff_of_nothing (by simp [handedToken, hreply])
      (by simp [handedSession, hreply]) (by simp [tokenDue, haccepted, hinquired])
      (by simp [sessionDue, haccepted]) (by simp [hinquired])

/-- In every run, each token and each session id that a reply hands out is listed, and a full
list makes the reply an error, exactly when no request is written to a full list and no
at-inquiry for the session -1 gets an answer from a free slot. -/
theorem handed_out_listed_iff {cfg : Config} {h : ServerHistory} {s : State}
    (hrun : ServerRun cfg h s) :
    Always (fun _ x => HandsListed cfg x) h ↔ Always (fun _ x => HasRoom cfg x) h := by
  refine hrun.always_iff (I := fun _ s => ExpiryKept s) ?_ (fun _ _ => handsListed_iff)
    fun _ x hkept hx _ => hkept.next (change_of_move hx)
  intro s hs
  obtain ⟨seed, now, rfl⟩ := hs
  intro i hlive
  exact absurd rfl hlive

instance (cfg : Config) (x : ServerMove) : Decidable (HasRoom cfg x) := by
  unfold HasRoom
  infer_instance

/-- A session that is asked for, agreed to and granted. -/
theorem handed_out_listed_session : ∃ h s, ServerRun (sampleConfig true) h s ∧
    h.map handedSession = [none, none, some (str "667"), none] ∧
    (h.head?.bind handedToken).isSome ∧ Always (fun _ x => HandsListed (sampleConfig true) x) h := by
  obtain ⟨h, s, hrun, hsessions, htoken, hroom⟩ := exists_serverRun (sampleConfig true)
    ([.ecf (str "internal-ecfAvailable"), .client sampleRequest,
      .ecf (str "\x7b\"action\":\"consent-reply\",\"messageId\":\"667\",\"consent\":\"YES\"\x7d"),
      .client (str "\x7b\"action\":\"at-inquiry\",\"sessionId\":\"667\"\x7d")].map
        fun e => (sampleMoment, e))
    (fun h => h.map handedSession = [none, none, some (str "667"), none] ∧
      (h.head?.bind handedToken).isSome ∧ Always (fun _ x => HasRoom (sampleConfig true) x) h)
    (by decide +kernel)
  exact ⟨h, s, hrun, hsessions, htoken, (handed_out_listed_iff hrun).mpr hroom⟩

/-- An at-inquiry for the session -1 is handed a token that is in no live entry. -/
theorem handed_out_unlisted :
    ¬ ∀ cfg h s, ServerRun cfg h s → Always (fun _ x => HandsListed cfg x) h := by
  intro hall
  obtain ⟨h, s, hrun, hbad⟩ := exists_serverRun (sampleConfig true)
    ([.client (str "\x7b\"action\":\"at-inquiry\",\"sessionId\":\"-1\"\x7d")].map
        fun e => (sampleMoment, e))
    (fun h => ¬ Always (fun _ x => HasRoom (sampleConfig true) x) h)
    (by decide +kernel)
  exact hbad ((handed_out_listed_iff hrun).mp (hall _ h s hrun))

end VissServer.AtServer

import VissServer.Core.Isolation
import VissServer.ServiceMgr.Answers
import VissServer.ServiceMgr.ErrorMap

/-!
Error responses and what earlier requests left in them. The core and the service manager
make each error response in a map that the last one was made in.
-/
namespace VissServer.Core

open Go Utils Runs ServiceMgr

section Requests

variable {cfg : Config} {m : Moment} {requestMap reqMap : GoMap Json} {action : GoString}
  {errorListIndex : Fin 8} {altErrorMessage : GoString}

theorem issueFound_error {found : Found}
    (h : issueFound m requestMap action found =
      some (.error reqMap errorListIndex altErrorMessage)) : reqMap = requestMap := by
  simp only [issueFound, Option.bind_eq_bind, Option.bind_eq_some_iff] at h
  obtain ⟨paths, -, h⟩ := h
  split at h
  · simp at h
  · split at h
    · simp only [Option.bind_eq_some_iff] at h
      obtain ⟨⟨errorCode, tokenHandle, gatingId⟩, -, h⟩ := h
      dsimp only at h
      split at h
      · exact (Reply.error.inj (Option.some.inj h)).1.symm
      · simp at h
    · exact (Reply.error.inj (Option.some.inj h)).1.symm

theorem issueSearch_error {searchPath : List GoString}
    (h : issueSearch cfg m requestMap action searchPath =
      some (.error reqMap errorListIndex altErrorMessage)) : reqMap = requestMap := by
  unfold issueSearch at h
  dsimp only at h
  split at h
  · exact (Reply.error.inj (Option.some.inj h)).1.symm
  · split at h
    · simp only [Option.bind_eq_bind, Option.bind_eq_some_iff] at h
      obtain ⟨nodeType, -, h⟩ := h
      split at h
      · exact (Reply.error.inj (Option.some.inj h)).1.symm
      · exact issueFound_error h
    · exact issueFound_error h

theorem scanFilters_error {rootPath : GoString} {filterList : List FilterObject}
    (h : scanFilters cfg m requestMap rootPath filterList =
      some (.inr (.error reqMap errorListIndex altErrorMessage))) : reqMap = requestMap := by
  induction filterList with
  | nil => simp [scanFilters] at h
  | cons f filterList ih =>
    rw [scanFilters] at h
    split at h
    · split at h
      · exact (Reply.error.inj (Sum.inr.inj (Option.some.inj h))).1.symm
      · simp at h
    · split at h
      · rw [Option.map_eq_some_iff] at h
        obtain ⟨reply, hreply, heq⟩ := h
        rw [Sum.inr.inj heq] at hreply
        simp only [staticMetadata, Option.bind_eq_bind, Option.bind_eq_some_iff] at hreply
        obtain ⟨tokenContext, -, metadata, -, hreply⟩ := hreply
        split at hreply
        · exact (Reply.error.inj (Option.some.inj hreply)).1.symm
        · simp [Option.bind_eq_some_iff] at hreply
      · split at h
        · simp at h
        · exact ih h

theorem issueServiceRequest_error
    (h : issueServiceRequest cfg m requestMap action =
      some (.error reqMap errorListIndex altErrorMessage)) : reqMap = requestMap := by
  unfold issueServiceRequest at h
  split at h
  · simp at h
  · simp only [Option.bind_eq_bind, Option.bind_eq_some_iff] at h
    obtain ⟨rootPath, -, scan, hscan, h⟩ := h
    split at h
    · rw [Option.some.inj h] at hscan
      exact scanFilters_error hscan
    · exact issueSearch_error h
    · exact issueSearch_error h

/-- An error response is made for the request, whose path may have been rewritten. -/
theorem serveRequest_error {request : GoString}
    (h : serveRequest cfg m request = some (.error reqMap errorListIndex altErrorMessage)) :
    ∀ k ≠ str "path", valueAt reqMap k = valueAt (requestMapOf request) k := by
  unfold serveRequest at h
  split at h
  · next hdecode =>
    rw [requestMapOf, hdecode, ← (Reply.error.inj (Option.some.inj h)).1]
    exact fun _ _ => rfl
  · next requestMap hdecode =>
    have hrequest : requestMapOf request = requestMap := by
      rw [requestMapOf, hdecode, Option.getD_some]
    rw [hrequest]
    split at h
    · rw [← (Reply.error.inj (Option.some.inj h)).1]
      exact fun _ _ => rfl
    · simp only [Option.bind_eq_bind, Option.bind_eq_some_iff] at h
      obtain ⟨action, -, h⟩ := h
      split at h
      · rw [← (Reply.error.inj (Option.some.inj h)).1]
        exact fun _ _ => rfl
      · simp only [Option.bind_eq_some_iff] at h
        obtain ⟨normalized, hnormalize, h⟩ := h
        split at h
        · rw [← (Reply.error.inj (Option.some.inj h)).1]
          exact fun _ _ => rfl
        · next requestMap' =>
          obtain ⟨-, hvalues, -⟩ := normalizePath_some hdecode hnormalize
          split at h
          · rw [← (Reply.error.inj (Option.some.inj h)).1]
            exact hvalues
          · split at h
            · simp at h
            · rw [issueServiceRequest_error h]
              exact hvalues

end Requests

/-- A call of SetErrorResponse. -/
structure ErrorCall where
  ts : GoString
  reqMap : GoMap Json
  errRespMap : GoMap Json
  errorListIndex : Fin 8
  altErrorMessage : GoString

/-- What FinalizeMessage prints after the call. -/
def ErrorCall.message (call : ErrorCall) : GoString :=
  errorMessage call.ts call.reqMap call.errRespMap call.errorListIndex call.altErrorMessage

/-- The call in a map that no request has left anything in. -/
def ErrorCall.fresh (call : ErrorCall) : ErrorCall := { call with errRespMap := [] }

/-- The error responses of a step: of the core, and of the service manager, whose answers
are the same for every error response map but for this response. -/
inductive Makes (cfg : Configs) (y : SystemMove) : ErrorCall → Prop
  | core {request : GoString} {reqMap : GoMap Json} {errorListIndex : Fin 8}
      {altErrorMessage : GoString} :
      y.event.2.request = some request →
      serveRequest cfg.core y.event.1.core request =
        some (.error reqMap errorListIndex altErrorMessage) →
      Makes cfg y ⟨y.event.1.core.rfcTime, reqMap, y.before.errorResponseMap, errorListIndex,
        altErrorMessage⟩
  | service {request message : GoString} {errorListIndex : Fin 8} {altErrorMessage : GoString}
      {answers : List GoString} :
      y.event.2.request = some request →
      serveRequest cfg.core y.event.1.core request = some (.service message) →
      (∀ M, (handleRequest cfg.service y.event.1.service (y.before.service.mgr.withErrors M)
        message).answers = errorMessage y.event.1.service.rfcTime
          (errorRequestMap y.before.service.mgr (requestMapOf message)) M errorListIndex
            altErrorMessage :: answers) →
      Makes cfg y ⟨y.event.1.service.rfcTime,
        errorRequestMap y.before.service.mgr (requestMapOf message),
        y.before.service.mgr.errorResponseMap, errorListIndex, altErrorMessage⟩

/-- The system as if there had been no error response. -/
def System.withoutErrors (x : System) : System where
  errorResponseMap := []
  service := ⟨x.service.mgr.withErrors [], x.service.status⟩

/-- The messages of the step are those that are sent without earlier error responses. -/
def SentAfresh (cfg : Configs) (y : SystemMove) : Prop :=
  (systemStep cfg y.before.withoutErrors y.event).map Prod.snd = some y.output
  deriving Decidable

/-- An error response repeats the members of its request and has no others of these. -/
def ErrorCall.RepeatsRequest (call : ErrorCall) : Prop :=
  call.message = call.fresh.message ∧ ∃ m, decodeMap call.message = some m ∧
    ∀ k ∈ identifyingMembers, valueAt m k = canon (sanitize (valueAt call.reqMap k))

/-- No message of the step depends on earlier requests through an error response. -/
def WithoutHistory (cfg : Configs) (_ : SystemHistory) (y : SystemMove) : Prop :=
  SentAfresh cfg y ∧ ∀ call, Makes cfg y call → call.RepeatsRequest

/-- The requests of the error responses have the members that their maps would keep. -/
def NothingKept (cfg : Configs) (_ : SystemHistory) (y : SystemMove) : Prop :=
  ∀ call, Makes cfg y call → Covers call.reqMap call.errRespMap

/-- Both error response maps are made of nothing but error responses. -/
structure ErrorMaps (x : System) : Prop where
  core : ErrorMap x.errorResponseMap
  service : ErrorMap x.service.mgr.errorResponseMap

section Step

variable {cfg : Configs} {y : SystemMove} {call : ErrorCall}

theorem printable_of_requestMapOf (request k : GoString) :
    Printable (maxNestingDepth - 1) (valueAt (requestMapOf request) k) := by
  unfold requestMapOf mapRequest
  cases hdecode : decodeMap request with
  | none => trivial
  | some requestMap =>
    by_cases hnull : valueAt requestMap k = .null
    · rw [Option.getD_some, hnull]
      trivial
    · exact (decodeMap_printableMap hdecode).values _ (valueAt_mem hnull)

theorem printable_errorRequestMap (s : State) (request k : GoString) :
    Printable (maxNestingDepth - 1) (valueAt (errorRequestMap s (requestMapOf request)) k) := by
  unfold errorRequestMap
  split
  · simp only [valueAt_set]
    split_ifs
    · trivial
    · trivial
    · trivial
    · trivial
    · exact printable_of_requestMapOf request k
  · exact printable_of_requestMapOf request k

theorem printable_serveRequest {m : Moment} {request : GoString} {reqMap : GoMap Json}
    {errorListIndex : Fin 8} {altErrorMessage : GoString}
    (h : serveRequest cfg.core m request = some (.error reqMap errorListIndex altErrorMessage)) :
    ∀ k ∈ identifyingMembers, Printable (maxNestingDepth - 1) (valueAt reqMap k) := by
  intro k hk
  have hpath : ∀ k ∈ identifyingMembers, k ≠ str "path" := by decide
  rw [serveRequest_error h k (hpath k hk)]
  exact printable_of_requestMapOf request k

theorem Makes.printable (h : Makes cfg y call) :
    ∀ k ∈ identifyingMembers, Printable (maxNestingDepth - 1) (valueAt call.reqMap k) := by
  cases h with
  | core _ hserve => exact printable_serveRequest hserve
  | service => exact fun k _ => printable_errorRequestMap _ _ k

theorem Makes.errorMap (hx : ErrorMaps y.before) (h : Makes cfg y call) :
    ErrorMap call.errRespMap := by
  cases h with
  | core => exact hx.core
  | service => exact hx.service

/-- One error response repeats its request exactly where the request has the members that the
map would keep. -/
theorem repeatsRequest_iff (hx : ErrorMaps y.before) (h : Makes cfg y call) :
    call.RepeatsRequest ↔ Covers call.reqMap call.errRespMap := by
  have hiff := errorMessage_eq_iff call.ts call.errorListIndex call.altErrorMessage
    (h.errorMap hx) h.printable
  constructor
  · intro hrepeats
    exact hiff.mp hrepeats.1
  · intro hcovers
    have hmessage : call.message = call.fresh.message := hiff.mpr hcovers
    refine ⟨hmessage, ?_⟩
    rw [hmessage]
    exact decode_errorMessage_nil call.ts call.errorListIndex call.altErrorMessage h.printable

theorem withErrors_self (s : State) : s.withErrors s.errorResponseMap = s := rfl

/-- The answers of the service manager without earlier error responses. -/
theorem answers_afresh {m : ServiceMgr.Moment} {s : State} {message : GoString}
    (hs : ErrorMap s.errorResponseMap)
    (hcovers : ∀ errorListIndex altErrorMessage answers,
      (∀ M, (handleRequest cfg.service m (s.withErrors M) message).answers =
        errorMessage m.rfcTime (errorRequestMap s (requestMapOf message)) M errorListIndex
          altErrorMessage :: answers) →
      Covers (errorRequestMap s (requestMapOf message)) s.errorResponseMap) :
    (handleRequest cfg.service m (s.withErrors []) message).answers =
      (handleRequest cfg.service m s message).answers := by
  cases handleRequest_usesErrors cfg.service m s message with
  | quiet answers ending h =>
    have hself := h s.errorResponseMap
    rw [withErrors_self] at hself
    rw [hself, h []]
  | error errorListIndex altErrorMessage answers ending h =>
    have hcover := hcovers errorListIndex altErrorMessage answers fun M => by rw [h M]
    have hself := h s.errorResponseMap
    rw [withErrors_self] at hself
    rw [hself, h [], (errorMessage_eq_iff m.rfcTime errorListIndex altErrorMessage hs
      fun k _ => printable_errorRequestMap s message k).mpr hcover]

theorem serveStep_afresh {m : Moments} {x x' : System} {request : GoString}
    {output : List GoString} (hx : ErrorMaps x)
    (hstep : serveStep cfg m x request = some (x', output))
    (hcore : ∀ reqMap errorListIndex altErrorMessage,
      serveRequest cfg.core m.core request = some (.error reqMap errorListIndex altErrorMessage) →
      Covers reqMap x.errorResponseMap)
    (hservice : ∀ message errorListIndex altErrorMessage answers,
      serveRequest cfg.core m.core request = some (.service message) →
      (∀ M, (handleRequest cfg.service m.service (x.service.mgr.withErrors M) message).answers =
        errorMessage m.service.rfcTime (errorRequestMap x.service.mgr (requestMapOf message)) M
          errorListIndex altErrorMessage :: answers) →
      Covers (errorRequestMap x.service.mgr (requestMapOf message))
        x.service.mgr.errorResponseMap) :
    (serveStep cfg m x.withoutErrors request).map Prod.snd = some output := by
  unfold serveStep at hstep ⊢
  have hstatus : x.withoutErrors.service.status = x.service.status := rfl
  rw [hstatus]
  split at hstep
  · simp at hstep
  · next hpanicked =>
    rw [if_neg hpanicked]
    cases hserve : serveRequest cfg.core m.core request with
    | none =>
      simp only [hserve, Option.some.injEq, Prod.mk.injEq] at hstep
      rw [← hstep.2]
      rfl
    | some reply =>
      cases reply with
      | error reqMap errorListIndex altErrorMessage =>
        simp only [hserve, Option.some.injEq, Prod.mk.injEq] at hstep
        rw [← hstep.2]
        have hmessage := (errorMessage_eq_iff m.core.rfcTime errorListIndex altErrorMessage hx.core
          (printable_serveRequest hserve)).mpr (hcore _ _ _ hserve)
        unfold errorMessage at hmessage
        rw [hmessage]
        rfl
      | response message =>
        simp only [hserve, Option.some.injEq, Prod.mk.injEq] at hstep
        rw [← hstep.2]
        rfl
      | service message =>
        simp only [hserve, Option.map_eq_some_iff, Prod.mk.injEq] at hstep
        obtain ⟨r, hr, -, houtput⟩ := hstep
        unfold serviceStep at hr
        dsimp only at hr
        split at hr
        · simp at hr
        · next hrunning =>
          dsimp only [serviceStep]
          have hstatus : x.withoutErrors.service.status = x.service.status := rfl
          rw [hstatus, if_neg hrunning, ← houtput, ← Option.some.inj hr]
          simp only [Option.map_some, answers_requestStep, Option.some.injEq]
          exact answers_afresh hx.service fun errorListIndex altErrorMessage answers h =>
            hservice message errorListIndex altErrorMessage answers hserve h

/-- What the loop does besides requests sends the same notifications. -/
theorem serviceStep_afresh {m : ServiceMgr.Moment} {e : ServiceMgr.Event} {x : Service}
    {r : Service × Output} (he : ∀ request, e ≠ .request request)
    (h : serviceStep cfg.service x (m, e) = some r) :
    ∃ r', serviceStep cfg.service ⟨x.mgr.withErrors [], x.status⟩ (m, e) = some r' ∧
      r'.2 = r.2 := by
  have htrigger : (triggerStep cfg.service m ⟨x.mgr.withErrors [], x.status⟩ e).2 =
      (triggerStep cfg.service m x e).2 := by
    unfold triggerStep
    dsimp only
    rw [handleTrigger_withErrors]
    cases handleTrigger cfg.service m x.mgr e <;> rfl
  cases e with
  | request request => exact absurd rfl (he request)
  | _ =>
    simp only [serviceStep] at h ⊢
    split at h
    · simp at h
    · next hrunning =>
      rw [if_neg hrunning, ← Option.some.inj h]
      exact ⟨_, rfl, htrigger⟩

theorem sentAfresh_of_nothingKept {h : SystemHistory} (hx : ErrorMaps y.before)
    (hy : y.Of (systemStep cfg)) (hkept : NothingKept cfg h y) : SentAfresh cfg y := by
  unfold SentAfresh
  unfold Move.Of at hy
  cases hrequest : y.event.2.request with
  | some request =>
    rw [systemStep_serve hrequest] at hy ⊢
    exact serveStep_afresh hx hy
      (fun _ _ _ hserve => hkept _ (.core hrequest hserve))
      (fun _ _ _ _ hserve hanswers => hkept _ (.service hrequest hserve hanswers))
  | none =>
    obtain ⟨before, ⟨m, e⟩, after, output⟩ := y
    cases e with
    | client session reqMessage => simp [Event.request] at hrequest
    | gatingId gatingId => simp [Event.request] at hrequest
    | trigger e =>
      have hrun := systemStep_trigger hy
      have hstep : ∀ x : System, systemStep cfg x (m, .trigger e) = (serviceStep cfg.service x.service
          (m.service, e)).map fun r => ({ x with service := r.1 }, r.2.notifications) := by
        intro x
        cases e with
        | request request => exact absurd rfl (hrun.1 request)
        | _ => rfl
      rw [hstep] at hy ⊢
      obtain ⟨r, hr, houtput⟩ := Option.map_eq_some_iff.mp hy
      obtain ⟨r', hr', hsame⟩ := serviceStep_afresh hrun.1 hr
      dsimp only [System.withoutErrors]
      rw [hr']
      simp only [Option.map_some, hsame, (Prod.mk.inj houtput).2]

theorem Ending.errorResponseMap_of_back {ending : Ending} {M : GoMap Json} {s' : State}
    (h : ending.withErrors M = .back s') : s'.errorResponseMap = M := by
  cases ending with
  | back s =>
    rw [← Ending.back.inj h]
    rfl
  | panic => simp [Ending.withErrors] at h
  | hang => simp [Ending.withErrors] at h

theorem errorMap_handleRequest {m : ServiceMgr.Moment} {s s' : State} {message : GoString}
    (hs : ErrorMap s.errorResponseMap)
    (h : (handleRequest cfg.service m s message).ending = .back s') :
    ErrorMap s'.errorResponseMap := by
  rw [← withErrors_self s] at h
  cases handleRequest_usesErrors cfg.service m s message with
  | quiet answers ending husing =>
    rw [husing] at h
    rw [Ending.errorResponseMap_of_back h]
    exact hs
  | error errorListIndex altErrorMessage answers ending husing =>
    rw [husing] at h
    rw [Ending.errorResponseMap_of_back h]
    exact hs.setErrorResponse (fun k _ => printable_errorRequestMap s message k) _ _ _

theorem errorMap_serviceStep {m : ServiceMgr.Moment} {e : ServiceMgr.Event} {x x' : Service}
    {o : Output} (hx : ErrorMap x.mgr.errorResponseMap)
    (h : serviceStep cfg.service x (m, e) = some (x', o)) :
    ErrorMap x'.mgr.errorResponseMap := by
  have htrigger : ErrorMap (triggerStep cfg.service m x e).1.mgr.errorResponseMap := by
    unfold triggerStep
    have hframe := handleTrigger_withErrors cfg.service m x.mgr x.mgr.errorResponseMap e
    rw [withErrors_self] at hframe
    cases htrigger : handleTrigger cfg.service m x.mgr e with
    | none => exact hx
    | some r =>
      rw [htrigger] at hframe
      have hr := Option.some.inj hframe
      rw [hr]
      exact hx
  cases e with
  | request request =>
    simp only [serviceStep] at h
    split at h
    · simp at h
    · have hafter := congrArg (fun r => r.1.mgr.errorResponseMap) (Option.some.inj h)
      dsimp only at hafter
      rw [← hafter, requestStep]
      cases hending : (handleRequest cfg.service m x.mgr request).ending with
      | back s' => exact errorMap_handleRequest hx hending
      | panic => exact hx
      | hang => exact hx
  | _ =>
    simp only [serviceStep] at h
    split at h
    · simp at h
    · have hafter := congrArg (fun r => r.1.mgr.errorResponseMap) (Option.some.inj h)
      dsimp only at hafter
      rw [← hafter]
      exact htrigger

theorem errorMaps_serveStep {m : Moments} {x x' : System} {request : GoString}
    {output : List GoString} (hx : ErrorMaps x)
    (h : serveStep cfg m x request = some (x', output)) : ErrorMaps x' := by
  unfold serveStep at h
  split at h
  · simp at h
  · split at h
    · rw [← (Prod.mk.inj (Option.some.inj h)).1]
      exact ⟨hx.core, hx.service⟩
    · next hserve =>
      rw [← (Prod.mk.inj (Option.some.inj h)).1]
      exact ⟨hx.core.setErrorResponse (printable_serveRequest hserve) _ _ _, hx.service⟩
    · rw [← (Prod.mk.inj (Option.some.inj h)).1]
      exact hx
    · obtain ⟨⟨service, o⟩, hservice, heq⟩ := Option.map_eq_some_iff.mp h
      rw [← (Prod.mk.inj heq).1]
      exact ⟨hx.core, errorMap_serviceStep hx.service hservice⟩

theorem errorMaps_next (hx : ErrorMaps y.before) (hy : y.Of (systemStep cfg)) :
    ErrorMaps y.after := by
  obtain ⟨before, ⟨m, e⟩, after, output⟩ := y
  cases e with
  | client session reqMessage => exact errorMaps_serveStep hx hy
  | gatingId gatingId => exact errorMaps_serveStep hx hy
  | trigger e =>
    obtain ⟨hrequest, o, hservice⟩ := systemStep_trigger hy
    refine ⟨?_, errorMap_serviceStep hx.service hservice⟩
    have hcore : after.errorResponseMap = before.errorResponseMap := by
      cases e with
      | request request => exact absurd rfl (hrequest request)
      | _ =>
        obtain ⟨r, -, hr⟩ := Option.map_eq_some_iff.mp hy
        have hafter : _ = after := (Prod.mk.inj hr).1
        rw [← hafter]
    rw [hcore]
    exact hx.core

/-- A step whose request the core refuses makes no other error response. -/
theorem nothingKept_of_refused {h : SystemHistory} {request : GoString} {reqMap : GoMap Json}
    {errorListIndex : Fin 8} {altErrorMessage : GoString}
    (hrequest : y.event.2.request = some request)
    (hserve : serveRequest cfg.core y.event.1.core request =
      some (.error reqMap errorListIndex altErrorMessage))
    (hcovers : Covers reqMap y.before.errorResponseMap) : NothingKept cfg h y := by
  intro call hcall
  cases hcall with
  | core hrequest' hserve' =>
    rw [← Option.some.inj (hrequest.symm.trans hrequest'), hserve] at hserve'
    rw [← (Reply.error.inj (Option.some.inj hserve')).1]
    exact hcovers
  | service hrequest' hserve' =>
    rw [← Option.some.inj (hrequest.symm.trans hrequest'), hserve] at hserve'
    simp at hserve'

end Step

theorem numeral_of_afterNumber {lit : GoString} (h : afterNumber lit = some []) : Numeral lit := by
  obtain ⟨lit', heq, hlit⟩ := afterNumber_numeral h
  rw [List.append_nil] at heq
  rwa [heq]

theorem errorMap_ofMembers {members : List (GoString × Json)}
    (hkeys : ∀ p ∈ members, p.1 ∈ errorMembers)
    (hvalues : ∀ p ∈ members, Printable (maxNestingDepth - 1) p.2 ∧ isNull p.2 = false) :
    ErrorMap (GoMap.ofMembers members) where
  printable := ⟨GoMap.sorted_ofMembers _,
    fun p hp => ErrorMap.validString_of_mem (hkeys p (GoMap.mem_ofMembers hp)),
    fun p hp => (hvalues p (GoMap.mem_ofMembers hp)).1⟩
  keys p hp := hkeys p (GoMap.mem_ofMembers hp)
  values p hp := (hvalues p (GoMap.mem_ofMembers hp)).2

theorem errorMaps_initialSystem : ErrorMaps initialSystem where
  core := by
    refine errorMap_ofMembers (by decide) fun p hp => ?_
    simp only [List.mem_cons, List.not_mem_nil, or_false] at hp
    rcases hp with rfl | rfl | rfl | rfl | rfl
    · exact ⟨numeral_of_afterNumber (by decide), rfl⟩
    · exact ⟨trivial, rfl⟩
    · exact ⟨trivial, rfl⟩
    · exact ⟨trivial, rfl⟩
    · exact ⟨numeral_of_afterNumber (by decide), rfl⟩
  service := by
    refine errorMap_ofMembers (by decide) fun p hp => ?_
    simp only [List.mem_cons, List.not_mem_nil, or_false] at hp
    rcases hp with rfl | rfl | rfl | rfl | rfl <;> exact ⟨trivial, rfl⟩

/-- In a run the error responses carry no history exactly where the request of each one has
the members that the map would keep. -/
theorem error_responses_iff {cfg : Configs} {h : SystemHistory} {x : System}
    (hrun : SystemRun cfg h x) :
    Always (WithoutHistory cfg) h ↔ Always (NothingKept cfg) h := by
  refine hrun.always_iff (I := fun _ x => ErrorMaps x) ?_ ?_ ?_
  · rintro x rfl
    exact errorMaps_initialSystem
  · intro h y hx hy
    constructor
    · intro hwithout call hcall
      exact (repeatsRequest_iff hx hcall).mp (hwithout.2 call hcall)
    · intro hkept
      exact ⟨sentAfresh_of_nothingKept hx hy hkept,
        fun call hcall => (repeatsRequest_iff hx hcall).mpr (hkept call hcall)⟩
  · intro h y hx hy _
    exact errorMaps_next hx hy

def getWithoutPath : GoString := str "\x7b\"action\":\"get\",\"requestId\":\"7\"\x7d"

/-- The error response to the only request of a run repeats this request. -/
theorem error_response_of_first : ∃ h x, SystemRun sampleConfigs h x ∧ h ≠ [] ∧
    Always (WithoutHistory sampleConfigs) h := by
  have hserved : (systemStep sampleConfigs initialSystem
      (sampleMoments, .client sessionA getWithoutPath)).isSome = true := by decide +kernel
  obtain ⟨⟨x, output⟩, hstep⟩ := Option.isSome_iff_exists.mp hserved
  have hrun : SystemRun sampleConfigs
      [⟨initialSystem, (sampleMoments, .client sessionA getWithoutPath), x, output⟩] x :=
    Run.next (x := ⟨_, _, _, _⟩) (.start rfl) hstep
  refine ⟨_, x, hrun, by simp, (error_responses_iff hrun).mpr ⟨?_, trivial⟩⟩
  have hserve : serveRequest sampleConfigs.core sampleMoments.core
      (sessionA.forward getWithoutPath) =
        some (.error (requestMapOf (sessionA.forward getWithoutPath)) 1 []) := by rfl
  have hcovers : Covers (requestMapOf (sessionA.forward getWithoutPath))
      initialErrorResponseMap := by decide +kernel
  exact nothingKept_of_refused rfl hserve hcovers

/-- A client that sends a text that is no JSON makes the core send the error response to an
earlier request of another client. -/
theorem error_response_of_others : ¬ ∀ cfg h x, SystemRun cfg h x →
    Always (WithoutHistory cfg) h := by
  intro hall
  obtain ⟨h, x, hrun, hkept⟩ := exists_systemRun sampleConfigs
    [(sampleMoments, .client sessionA getWithoutPath),
      (sampleMoments, .client sessionB (str "get"))]
    (fun h => ¬ Always (fun _ y => SentAfresh sampleConfigs y) h) (by decide +kernel)
  exact hkept ((hall sampleConfigs h x hrun).imp fun _ _ hwithout => hwithout.1)

end VissServer.Core

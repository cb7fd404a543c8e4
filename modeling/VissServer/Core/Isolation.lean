import VissServer.Core.Forwarded
import VissServer.Core.System

/-!
Isolation of the clients: what the requests of one session can do to the subscriptions
that other sessions created, in one step and against a run without these requests.
-/
namespace VissServer.Core

open Go Utils Runs ServiceMgr

/-- The request that the core serves in a step. -/
def Event.request : Event → Option GoString
  | .client session reqMessage => some (session.forward reqMessage)
  | .gatingId id => some (cancelRequest id)
  | .trigger _ => none

/-- The client that sent the request of a step. -/
def Event.sender : Event → Option Session
  | .client session _ => some session
  | _ => none

/-- The entries that a session created. -/
def entriesOf (h : SystemHistory) (session : Session) (x : System) :
    Multiset SubscriptionState :=
  (entries x.service.mgr).filter fun e => creator h e.subscriptionId = some session

/-- The entries that other sessions created. -/
def others (h : SystemHistory) (session : Session) (x : System) : Multiset SubscriptionState :=
  (entries x.service.mgr).filter fun e => creator h e.subscriptionId ≠ some session

/-- A request of the session removes no entry that the session did not create. -/
def KeepsToOwn (session : Session) (h : SystemHistory) (s : State) (e : Event) : Prop :=
  e.sender = some session → ∀ request ∈ e.request, Accepted request →
    ∀ e ∈ s.subscriptionList, removes s (requestMapOf request) e →
      creator h e.subscriptionId = some session
  deriving Decidable

/-- An entry that a cancel may remove, if the order of the list is right for it. -/
def candidate (s : State) (requestMap : GoMap Json) (e : SubscriptionState) : Bool :=
  (asString (valueAt requestMap (str "gatingId"))).any fun gatingId =>
    s.subscriptionList.any fun e' => e'.gatingId = gatingId ∧ e.routerId = e'.routerId

/-- An entry that the session created, or that no request removes. -/
def harmless (session : Session) (h : SystemHistory) (e : SubscriptionState) : Prop :=
  creator h e.subscriptionId = some session ∨ isCurveLog e
  deriving Decidable

/-- A cancel leaves no choice between the entries of other sessions. -/
def Unambiguous (session : Session) (h : SystemHistory) (s : State) (request : GoString) : Prop :=
  Accepted request → actionOf (requestMapOf request) = .cancelSubscription →
    ∀ e ∈ s.subscriptionList, ∀ e' ∈ s.subscriptionList,
      candidate s (requestMapOf request) e → candidate s (requestMapOf request) e' →
        e = e' ∨ (harmless session h e ∧ harmless session h e')
  deriving Decidable

def Isolating (session : Session) (h : SystemHistory) (y : SystemMove) : Prop :=
  KeepsToOwn session h y.before.service.mgr y.event.2 ∧
    ∀ request ∈ y.event.2.request, Unambiguous session h y.before.service.mgr request
  deriving Decidable

/-- A step that the session's requests lead to: the request itself, and the triggers of the
subscriptions that it created. -/
def causedBy (session : Session) (h : SystemHistory) : Event → Bool
  | .client session' _ => session' = session
  | .trigger (.interval id) => creator h id = some session
  | .trigger (.clPack id _) => creator h id = some session
  | _ => false

def System.withNextId (x : System) (id : ℤ) : System :=
  { x with service := { x.service with mgr := { x.service.mgr with subscriptionId := id } } }

/-- The end of the run in which the requests of the session are left out; the other requests
get the same subscription ids as in the run. -/
def withoutRequests (cfg : Configs) (session : Session) : SystemHistory → Option System
  | [] => some initialSystem
  | y :: h => do
      let x ← withoutRequests cfg session h
      if causedBy session h y.event.2 then
        some (x.withNextId y.after.service.mgr.subscriptionId)
      else (systemStep cfg x y.event).map Prod.fst

/-- A request of one session leaves the entries of the other as they are. -/
def LeavesEntries (sessionA sessionB : Session) (h : SystemHistory) (y : SystemMove) : Prop :=
  y.event.2.sender = some sessionA →
    entriesOf (y :: h) sessionB y.after = entriesOf h sessionB y.before
  deriving Decidable

section

variable {cfg : Configs} {m : Moments} {x x' : System} {request : GoString}
  {session : Session} {h : SystemHistory} {y : SystemMove}

theorem systemStep_serve {e : Moments × Event} (he : e.2.request = some request) :
    systemStep cfg x e = serveStep cfg e.1 x request := by
  obtain ⟨m, e⟩ := e
  cases e with
  | client session reqMessage =>
    obtain rfl := Option.some.inj he
    rfl
  | gatingId id =>
    obtain rfl := Option.some.inj he
    rfl
  | trigger e => simp [Event.request] at he

/-- A request that the core serves goes through the service manager, or leaves it as it is. -/
theorem serveStep_entries (hx : Fresh x.service.mgr) {output : List GoString}
    (h : serveStep cfg m x request = some (x', output)) :
    (((∀ message, serveRequest cfg.core m.core request ≠ some (.service message)) ∨
        ¬ x'.service.Alive) ∧
      entries x'.service.mgr = entries x.service.mgr ∧
      x'.service.mgr.subscriptionId = x.service.mgr.subscriptionId) ∨
    ∃ message, serveRequest cfg.core m.core request = some (.service message) ∧
      entries x'.service.mgr =
        ((entries x.service.mgr).filter fun e =>
          ¬ removes x.service.mgr (requestMapOf message) e) +
          (subscribed m.service x.service.mgr.subscriptionId (requestMapOf message)).toList ∧
      x'.service.mgr.subscriptionId = x.service.mgr.subscriptionId +
        (subscribed m.service x.service.mgr.subscriptionId (requestMapOf message)).toList.length := by
  rcases serveStep_service h with ⟨hserve, hmgr, -⟩ | ⟨message, o, hserve, hstep⟩
  · exact .inl ⟨.inl hserve, by rw [hmgr], by rw [hmgr]⟩
  · rcases (serviceStep_request hstep).2 with ⟨hend, -⟩ | ⟨hmgr, hdead⟩
    · exact .inr ⟨message, hserve, handleRequest_entries hx.nodup hend⟩
    · exact .inl ⟨.inr hdead, by rw [hmgr], by rw [hmgr]⟩

theorem creator_cons_old {id : ℤ} (hid : id < y.before.service.mgr.subscriptionId) :
    creator (y :: h) id = creator h id := by
  rw [creator]
  split
  · rw [if_neg fun hnew => absurd hnew.1 (by omega)]
  · rfl

theorem creator_cons_new {id : ℤ} {reqMessage : GoString}
    (hevent : y.event.2 = .client session reqMessage)
    (hid : y.before.service.mgr.subscriptionId ≤ id ∧ id < y.after.service.mgr.subscriptionId) :
    creator (y :: h) id = some session := by
  rw [creator, hevent]
  exact if_pos hid

theorem systemStep_trigger_entries (hx : Fresh x.service.mgr) {e : ServiceMgr.Event}
    {output : List GoString} (h : systemStep cfg x (m, .trigger e) = some (x', output)) :
    x'.service.mgr.subscriptionId = x.service.mgr.subscriptionId ∧
      (x'.service.Alive → entries x'.service.mgr =
        (entries x.service.mgr).map (triggered cfg.service m.service e)) := by
  obtain ⟨he, o, hstep⟩ := systemStep_trigger h
  rcases (serviceStep_trigger he hstep).2 with ⟨messages, htrigger⟩ | ⟨hmgr, hdead⟩
  · exact ⟨(handleTrigger_some hx.threads htrigger).2.1, fun _ => handleTrigger_entries hx htrigger⟩
  · exact ⟨by rw [hmgr], fun halive => absurd halive hdead⟩

theorem systemStep_subscriptionId (hx : Fresh x.service.mgr) {e : Moments × Event}
    {output : List GoString} (h : systemStep cfg x e = some (x', output)) :
    x.service.mgr.subscriptionId ≤ x'.service.mgr.subscriptionId := by
  have hserve : ∀ m request, serveStep cfg m x request = some (x', output) →
      x.service.mgr.subscriptionId ≤ x'.service.mgr.subscriptionId := by
    intro m request hstep
    rcases serveStep_entries hx hstep with ⟨-, -, hid⟩ | ⟨_, -, -, hid⟩ <;> omega
  obtain ⟨m, e⟩ := e
  cases e with
  | client session reqMessage => exact hserve m _ h
  | gatingId gatingId => exact hserve m _ h
  | trigger e => exact (systemStep_trigger_entries hx h).1.ge

/-- Only ids that were given out have a creator. -/
theorem SystemRun.created (hrun : SystemRun cfg h x) :
    ∀ id session, creator h id = some session → id < x.service.mgr.subscriptionId := by
  suffices hboth : Fresh x.service.mgr ∧
      ∀ id session, creator h id = some session → id < x.service.mgr.subscriptionId from hboth.2
  refine hrun.invariant (I := fun h x => Fresh x.service.mgr ∧
    ∀ id session, creator h id = some session → id < x.service.mgr.subscriptionId) ?_ ?_
  · rintro x rfl
    exact ⟨fresh_initialState, nofun⟩
  · intro h y ⟨hfresh, hcreated⟩ hy
    refine ⟨systemStep_fresh hfresh hy, fun id session hid => ?_⟩
    have hle := systemStep_subscriptionId hfresh hy
    by_cases hold : id < y.before.service.mgr.subscriptionId
    · omega
    · rw [creator] at hid
      split at hid
      · split at hid
        · next hnew => exact hnew.2
        · exact absurd (hcreated id _ hid) hold
      · exact absurd (hcreated id _ hid) hold

/-- The entries of a state keep their creator in a longer history. -/
theorem others_cons (hx : Fresh y.before.service.mgr) (p : Option Session → Prop)
    [DecidablePred p] :
    ((entries y.before.service.mgr).filter fun e => p (creator (y :: h) e.subscriptionId)) =
      (entries y.before.service.mgr).filter fun e => p (creator h e.subscriptionId) := by
  refine Multiset.filter_congr fun e he => ?_
  rw [creator_cons_old (hx.entries e (Multiset.mem_coe.mp he))]

/-- A request of the session changes nothing among the entries of the others. -/
theorem others_client (hx : Fresh y.before.service.mgr) (hy : y.Of (systemStep cfg))
    (hown : KeepsToOwn session h y.before.service.mgr y.event.2) {reqMessage : GoString}
    (hevent : y.event.2 = .client session reqMessage) :
    others (y :: h) session y.after = others h session y.before := by
  have hrequest : y.event.2.request = some (session.forward reqMessage) := by
    rw [hevent]
    rfl
  have hstep := (systemStep_serve hrequest).symm.trans hy
  unfold others
  rcases serveStep_entries hx hstep with ⟨-, hentries, -⟩ | ⟨message, hserve, hentries, hid⟩
  · rw [hentries]
    exact others_cons hx fun c => c ≠ some session
  · obtain ⟨haccepted, -, hnames⟩ := serveRequest_service hserve
    have hsender : y.event.2.sender = some session := by
      rw [hevent]
      rfl
    have hkept : ((entries y.before.service.mgr).filter fun e =>
        ¬ removes y.before.service.mgr (requestMapOf message) e).filter (fun e =>
          creator (y :: h) e.subscriptionId ≠ some session) =
        (entries y.before.service.mgr).filter fun e =>
          creator h e.subscriptionId ≠ some session := by
      rw [Multiset.filter_filter]
      refine Multiset.filter_congr fun e he => ?_
      have hmem := Multiset.mem_coe.mp he
      rw [creator_cons_old (hx.entries e hmem)]
      refine ⟨And.left, fun hother => ⟨hother, fun hremoves => hother ?_⟩⟩
      rw [removes, hnames] at hremoves
      exact hown hsender _ hrequest haccepted e hmem hremoves
    have hnew : ((subscribed y.event.1.service y.before.service.mgr.subscriptionId
        (requestMapOf message)).toList : Multiset SubscriptionState).filter (fun e =>
          creator (y :: h) e.subscriptionId ≠ some session) = 0 := by
      refine Multiset.filter_eq_nil.mpr fun e he => not_not_intro ?_
      rw [Multiset.mem_coe, Option.mem_toList] at he
      rw [he, Option.toList_some, List.length_singleton] at hid
      refine creator_cons_new hevent ?_
      rw [subscribed_id he]
      omega
    rw [hentries, Multiset.filter_add, hkept, hnew, Multiset.add_zero]

/-- The same of the entries of one other session. -/
theorem leavesEntries_of_keepsToOwn {sessionA sessionB : Session} (hAB : sessionA ≠ sessionB)
    (hx : Fresh y.before.service.mgr) (hy : y.Of (systemStep cfg))
    (hown : KeepsToOwn sessionA h y.before.service.mgr y.event.2) :
    LeavesEntries sessionA sessionB h y := by
  intro hsender
  obtain ⟨reqMessage, hevent⟩ : ∃ reqMessage, y.event.2 = .client sessionA reqMessage := by
    cases hevent : y.event.2 with
    | client session reqMessage =>
      rw [hevent] at hsender
      rw [Option.some.inj hsender]
      exact ⟨reqMessage, rfl⟩
    | gatingId id => simp [hevent, Event.sender] at hsender
    | trigger e => simp [hevent, Event.sender] at hsender
  have hpart : ∀ h x, entriesOf h sessionB x =
      (others h sessionA x).filter fun e => creator h e.subscriptionId = some sessionB := by
    intro h x
    rw [entriesOf, others, Multiset.filter_filter]
    refine Multiset.filter_congr fun e _ => ⟨fun hB => ⟨hB, ?_⟩, And.left⟩
    rw [hB]
    exact fun hA => hAB (Option.some.inj hA).symm
  rw [hpart, hpart, others_client hx hy hown hevent]
  refine Multiset.filter_congr fun e he => ?_
  have hmem := Multiset.mem_coe.mp (Multiset.mem_of_mem_filter he)
  rw [creator_cons_old (hx.entries e hmem)]

theorem cancelled_some {s : State} {requestMap : GoMap Json} {e : SubscriptionState}
    (h : cancelled s requestMap = some e) :
    ∃ gatingId, asString (valueAt requestMap (str "gatingId")) = some gatingId ∧
      e ∈ s.subscriptionList ∧ ∃ e₁ ∈ s.subscriptionList, e₁.gatingId = gatingId ∧
        e₁.routerId ≠ [] ∧ e.routerId = e₁.routerId := by
  simp only [cancelled, Option.bind_eq_bind, Option.bind_eq_some_iff] at h
  obtain ⟨gatingId, hgating, e₁, hfind, h⟩ := h
  split at h
  · simp at h
  · next hrouter =>
    refine ⟨gatingId, hgating, List.mem_of_find?_eq_some h, e₁,
      List.mem_of_find?_eq_some hfind, ?_, hrouter, ?_⟩
    · simpa using List.find?_some hfind
    · simpa using List.find?_some h

theorem candidate_of {s : State} {requestMap : GoMap Json} {gatingId : GoString}
    {e e₁ : SubscriptionState}
    (hgating : asString (valueAt requestMap (str "gatingId")) = some gatingId)
    (he₁ : e₁ ∈ s.subscriptionList) (hid : e₁.gatingId = gatingId)
    (hrouter : e.routerId = e₁.routerId) : candidate s requestMap e := by
  rw [candidate, hgating, Option.any_some, List.any_eq_true]
  exact ⟨e₁, he₁, by simp [hid, hrouter]⟩

/-- Where there is only one candidate, the order of the list does not matter. -/
theorem cancelled_of_unique {s : State} {requestMap : GoMap Json} {gatingId : GoString}
    {e : SubscriptionState}
    (hgating : asString (valueAt requestMap (str "gatingId")) = some gatingId)
    (he : e ∈ s.subscriptionList) (hid : e.gatingId = gatingId) (hrouter : e.routerId ≠ [])
    (hunique : ∀ e' ∈ s.subscriptionList, candidate s requestMap e' → e' = e) :
    cancelled s requestMap = some e := by
  have hfirst : s.subscriptionList.find? (fun e => e.gatingId = gatingId) = some e := by
    cases hfind : s.subscriptionList.find? fun e => e.gatingId = gatingId with
    | none =>
      have hfound := List.find?_eq_none.mp hfind e he
      simp [hid] at hfound
    | some e₁ =>
      have hmem := List.mem_of_find?_eq_some hfind
      have hid₁ : e₁.gatingId = gatingId := by simpa using List.find?_some hfind
      rw [hunique e₁ hmem (candidate_of hgating hmem hid₁ rfl)]
  have hsecond : s.subscriptionList.find? (fun e' => e'.routerId = e.routerId) = some e := by
    cases hfind : s.subscriptionList.find? fun e' => e'.routerId = e.routerId with
    | none =>
      have hfound := List.find?_eq_none.mp hfind e he
      simp at hfound
    | some e₂ =>
      have hmem := List.mem_of_find?_eq_some hfind
      have hrouter₂ : e₂.routerId = e.routerId := by simpa using List.find?_some hfind
      rw [hunique e₂ hmem (candidate_of hgating he hid hrouter₂)]
  rw [cancelled, hgating, Option.bind_eq_bind, Option.bind_some, hfirst]
  simp only [Option.bind_eq_bind, Option.bind_some, if_neg hrouter, hsecond]

theorem candidate_mono {s s' : State} {requestMap : GoMap Json} {e : SubscriptionState}
    (hsub : ∀ e ∈ s'.subscriptionList, e ∈ s.subscriptionList)
    (h : candidate s' requestMap e) : candidate s requestMap e := by
  rw [candidate, Option.any_eq_true] at h
  obtain ⟨gatingId, hgating, h⟩ := h
  rw [List.any_eq_true] at h
  obtain ⟨e₁, he₁, h⟩ := h
  simp only [decide_eq_true_eq] at h
  exact candidate_of hgating (hsub e₁ he₁) h.1 h.2

/-- A cancel that removes an entry which the session did not create has that candidate only,
in every list that holds it and fewer others. -/
theorem cancelled_similar {s s₁ s₂ : State} {requestMap : GoMap Json} {e : SubscriptionState}
    (hsub₁ : ∀ e ∈ s₁.subscriptionList, e ∈ s.subscriptionList)
    (hsub₂ : ∀ e ∈ s₂.subscriptionList, e ∈ s.subscriptionList)
    (hunique : candidate s requestMap e →
      ∀ e' ∈ s.subscriptionList, candidate s requestMap e' → e' = e)
    (he : e ∈ s₂.subscriptionList) (h : cancelled s₁ requestMap = some e) :
    cancelled s₂ requestMap = some e := by
  obtain ⟨gatingId, hgating, -, e₁, he₁, hid₁, hrouter₁, hrouter⟩ := cancelled_some h
  have hcandidate : candidate s requestMap e :=
    candidate_of hgating (hsub₁ e₁ he₁) hid₁ hrouter
  have hsame : e₁ = e :=
    hunique hcandidate e₁ (hsub₁ e₁ he₁) (candidate_of hgating (hsub₁ e₁ he₁) hid₁ rfl)
  subst hsame
  refine cancelled_of_unique hgating he hid₁ hrouter₁ fun e' he' h' => ?_
  exact hunique hcandidate e' (hsub₂ e' he') (candidate_mono hsub₂ h')

theorem names_cancel {s : State} {requestMap : GoMap Json} {e : SubscriptionState}
    (hs : DistinctIds s) (haction : actionOf requestMap = .cancelSubscription)
    (he : e ∈ s.subscriptionList) :
    names s requestMap e = true ↔ cancelled s requestMap = some e := by
  unfold names
  rw [haction]
  dsimp only
  cases hcancelled : cancelled s requestMap with
  | none => simp
  | some e' =>
    obtain ⟨-, -, he', -⟩ := cancelled_some hcancelled
    rw [Option.any_some, decide_eq_true_eq, Option.some.injEq]
    exact ⟨fun hid => (List.inj_on_of_nodup_map hs he he' hid).symm, fun heq => by rw [heq]⟩

/-- A request removes the same entries of other sessions in both lists. -/
theorem removes_similar {s s' : State} {requestMap : GoMap Json} {e : SubscriptionState}
    (hs : DistinctIds s)
    (hentries : entries s' = (entries s).filter fun e => creator h e.subscriptionId ≠ some session)
    (hunambiguous : actionOf requestMap = .cancelSubscription →
      ∀ e ∈ s.subscriptionList, ∀ e' ∈ s.subscriptionList, candidate s requestMap e →
        candidate s requestMap e' → e = e' ∨ (harmless session h e ∧ harmless session h e'))
    (he : e ∈ entries s') : removes s' requestMap e = removes s requestMap e := by
  have hsub : ∀ e ∈ s'.subscriptionList, e ∈ s.subscriptionList := by
    intro e he
    have hmem : e ∈ entries s' := Multiset.mem_coe.mpr he
    rw [hentries] at hmem
    exact Multiset.mem_coe.mp (Multiset.mem_of_mem_filter hmem)
  by_cases hcurve : isCurveLog e
  · simp [removes, hcurve]
  have hother : creator h e.subscriptionId ≠ some session := by
    rw [hentries] at he
    exact (Multiset.mem_filter.mp he).2
  have hmem' : e ∈ s'.subscriptionList := Multiset.mem_coe.mp he
  have hmem := hsub e hmem'
  suffices hnames : names s' requestMap e = names s requestMap e by rw [removes, removes, hnames]
  cases haction : actionOf requestMap with
  | cancelSubscription =>
    have hunique : candidate s requestMap e →
        ∀ e' ∈ s.subscriptionList, candidate s requestMap e' → e' = e := by
      intro hcandidate e' he' hcandidate'
      rcases hunambiguous haction e hmem e' he' hcandidate hcandidate' with heq | ⟨hharmless, -⟩
      · exact heq.symm
      · exact absurd hharmless (not_or.mpr ⟨hother, hcurve⟩)
    have hs' : DistinctIds s' := hs.of_filter hentries
    refine Bool.eq_iff_iff.mpr ?_
    rw [names_cancel hs' haction hmem', names_cancel hs haction hmem]
    exact ⟨cancelled_similar hsub (fun _ he => he) hunique hmem,
      cancelled_similar (fun _ he => he) hsub hunique hmem'⟩
  | set => simp [names, haction]
  | get => simp [names, haction]
  | subscribe => simp [names, haction]
  | unsubscribe => simp [names, haction]
  | killSubscriptions => simp [names, haction]
  | other => simp [names, haction]

end

/-- The state without the requests of a session agrees with the state of the run on the
entries of the others. -/
structure Similar (session : Session) (h : SystemHistory) (x x' : System) : Prop where
  fresh : Fresh x'.service.mgr
  nextId : x'.service.mgr.subscriptionId = x.service.mgr.subscriptionId
  agrees : entries x'.service.mgr = others h session x

section

variable {cfg : Configs} {x x' x₁ : System} {session : Session} {h : SystemHistory}
  {y : SystemMove}

theorem fresh_withNextId {id : ℤ} (hx : Fresh x.service.mgr)
    (hid : x.service.mgr.subscriptionId ≤ id) : Fresh (x.withNextId id).service.mgr where
  positive := lt_of_lt_of_le hx.positive hid
  entries e he := lt_of_lt_of_le (hx.entries e he) hid
  nodup := hx.nodup
  threads := hx.threads
  tickers i := lt_of_lt_of_le (hx.tickers i) hid
  servers c hc := lt_of_lt_of_le (hx.servers c hc) hid

/-- A state in which the process runs comes from one. -/
theorem alive_before {e : Moments × Event} {output : List GoString}
    (h : systemStep cfg x e = some (x', output)) (halive : x'.service.Alive) :
    x.service.Alive := by
  have hstatus : ∀ {status : Status}, status = .running ∨ status = .unanswered →
      status ≠ .panicked ∧ status ≠ .hanging := by
    rintro _ (rfl | rfl) <;> exact ⟨nofun, nofun⟩
  have hserve : ∀ m request, serveStep cfg m x request = some (x', output) →
      x.service.Alive := by
    intro m request hstep
    rcases serveStep_service hstep with ⟨-, -, hsame | hpanic⟩ | ⟨message, o, -, hservice⟩
    · rwa [Service.Alive, hsame] at halive
    · exact absurd hpanic halive.1
    · exact hstatus (.inl (serviceStep_request hservice).1)
  obtain ⟨m, e⟩ := e
  cases e with
  | client session reqMessage => exact hserve m _ h
  | gatingId id => exact hserve m _ h
  | trigger e =>
    obtain ⟨he, o, hservice⟩ := systemStep_trigger h
    exact hstatus (serviceStep_trigger he hservice).1

/-- A trigger does the same to every entry, whoever created it. -/
theorem others_trigger (hx : Fresh y.before.service.mgr) (hy : y.Of (systemStep cfg))
    (halive : y.after.service.Alive) {e : ServiceMgr.Event} (hevent : y.event.2 = .trigger e) :
    others (y :: h) session y.after =
      (others h session y.before).map (triggered cfg.service y.event.1.service e) := by
  have hstep : systemStep cfg y.before (y.event.1, .trigger e) = some (y.after, y.output) := by
    rw [← hevent]
    exact hy
  have hcreator : ∀ id, creator (y :: h) id = creator h id := by
    intro id
    rw [creator, hevent]
  unfold others
  rw [(systemStep_trigger_entries hx hstep).2 halive, Multiset.filter_map]
  refine congrArg _ (Multiset.filter_congr fun x _ => ?_)
  rw [Function.comp_apply, triggered_subscriptionId, hcreator]

/-- The step in which the session's own request is left out. -/
theorem Similar.skip (hsimilar : Similar session h y.before x') (hx : Fresh y.before.service.mgr)
    (hy : y.Of (systemStep cfg)) (halive : y.after.service.Alive)
    (hown : KeepsToOwn session h y.before.service.mgr y.event.2)
    (hcaused : causedBy session h y.event.2) :
    Similar session (y :: h) y.after
      (x'.withNextId y.after.service.mgr.subscriptionId) where
  fresh := by
    refine fresh_withNextId hsimilar.fresh ?_
    rw [hsimilar.nextId]
    exact systemStep_subscriptionId hx hy
  nextId := rfl
  agrees := by
    show entries x'.service.mgr = _
    rw [hsimilar.agrees]
    have htrigger : ∀ e, y.event.2 = .trigger e →
        (∀ x, creator h x.subscriptionId ≠ some session →
          triggered cfg.service y.event.1.service e x = x) →
        others h session y.before = others (y :: h) session y.after := by
      intro e hevent hsame
      rw [others_trigger hx hy halive hevent, eq_comm]
      refine (Multiset.map_congr rfl fun x hx => hsame x ?_).trans (Multiset.map_id _)
      exact (Multiset.mem_filter.mp hx).2
    cases hevent : y.event.2 with
    | client session' reqMessage =>
      rw [hevent] at hcaused
      obtain rfl : session' = session := by simpa [causedBy] using hcaused
      exact (others_client hx hy hown hevent).symm
    | gatingId id => simp [causedBy, hevent] at hcaused
    | trigger e =>
      rw [hevent] at hcaused
      cases e with
      | interval id => exact htrigger _ hevent fun _ _ => rfl
      | clPack id dataPack =>
        have hcreator : creator h id = some session := by simpa [causedBy] using hcaused
        refine htrigger _ hevent fun x hother => if_neg fun hid => hother ?_
        rw [hid, hcreator]
      | request => simp [causedBy] at hcaused
      | dummyTick => simp [causedBy] at hcaused
      | subscriptTick => simp [causedBy] at hcaused
      | capture => simp [causedBy] at hcaused

/-- An id that another session's request uses up is not one of the session's. -/
theorem creator_next (hcreated : ∀ id c, creator h id = some c →
      id < y.before.service.mgr.subscriptionId)
    (hcaused : ¬ causedBy session h y.event.2) :
    creator (y :: h) y.before.service.mgr.subscriptionId ≠ some session := by
  have hold : creator h y.before.service.mgr.subscriptionId ≠ some session :=
    fun hid => lt_irrefl _ (hcreated _ _ hid)
  rw [creator]
  split
  · next session' reqMessage hevent =>
    split
    · rintro heq
      rw [hevent] at hcaused
      exact hcaused (by simpa [causedBy] using heq)
    · exact hold
  · exact hold

/-- The request of another session in both runs. -/
theorem Similar.serve (hsimilar : Similar session h y.before x')
    (hx : Fresh y.before.service.mgr)
    (hcreated : ∀ id c, creator h id = some c → id < y.before.service.mgr.subscriptionId)
    {request : GoString} {output : List GoString}
    (hy : serveStep cfg y.event.1 y.before request = some (y.after, y.output))
    (hx₁ : serveStep cfg y.event.1 x' request = some (x₁, output))
    (halive : y.after.service.Alive) (halive₁ : x₁.service.Alive)
    (hunambiguous : Unambiguous session h y.before.service.mgr request)
    (hcaused : ¬ causedBy session h y.event.2) :
    x₁.service.mgr.subscriptionId = y.after.service.mgr.subscriptionId ∧
      entries x₁.service.mgr = others (y :: h) session y.after := by
  rcases serveStep_entries hx hy with ⟨hquiet, hentries, hid⟩ | ⟨message, hserve, hentries, hid⟩
  · rcases serveStep_entries hsimilar.fresh hx₁ with
      ⟨-, hentries₁, hid₁⟩ | ⟨message, hserve, -⟩
    · refine ⟨by rw [hid₁, hid, hsimilar.nextId], ?_⟩
      rw [hentries₁, hsimilar.agrees, others, others, hentries]
      exact (others_cons hx fun c => c ≠ some session).symm
    · rcases hquiet with hquiet | hdead
      · exact absurd hserve (hquiet message)
      · exact absurd halive hdead
  · rcases serveStep_entries hsimilar.fresh hx₁ with
      ⟨hquiet, -⟩ | ⟨message₁, hserve₁, hentries₁, hid₁⟩
    · rcases hquiet with hquiet | hdead
      · exact absurd hserve (hquiet message)
      · exact absurd halive₁ hdead
    · obtain rfl := Reply.service.inj (Option.some.inj (hserve.symm.trans hserve₁))
      rw [hsimilar.nextId] at hentries₁ hid₁
      refine ⟨hid₁.trans hid.symm, ?_⟩
      obtain ⟨haccepted, haction, hnames⟩ := serveRequest_service hserve
      have hremoves : ∀ e ∈ entries x'.service.mgr,
          removes x'.service.mgr (requestMapOf message) e =
            removes y.before.service.mgr (requestMapOf message) e := by
        intro e he
        rw [removes, removes, hnames, hnames]
        exact removes_similar hx.nodup hsimilar.agrees (hunambiguous haccepted) he
      have hkept : (entries x'.service.mgr).filter (fun e =>
          ¬ removes x'.service.mgr (requestMapOf message) e) =
          ((entries y.before.service.mgr).filter fun e =>
            ¬ removes y.before.service.mgr (requestMapOf message) e).filter fun e =>
              creator (y :: h) e.subscriptionId ≠ some session := by
        rw [Multiset.filter_congr fun e he => by rw [hremoves e he], hsimilar.agrees, others,
          ← others_cons hx fun c => c ≠ some session, Multiset.filter_filter,
          Multiset.filter_filter]
        exact Multiset.filter_congr fun e _ => and_comm
      have hnew : ((subscribed y.event.1.service y.before.service.mgr.subscriptionId
          (requestMapOf message)).toList : Multiset SubscriptionState).filter (fun e =>
            creator (y :: h) e.subscriptionId ≠ some session) =
          (subscribed y.event.1.service y.before.service.mgr.subscriptionId
            (requestMapOf message)).toList := by
        refine Multiset.filter_eq_self.mpr fun e he => ?_
        rw [Multiset.mem_coe, Option.mem_toList] at he
        rw [subscribed_id he]
        exact creator_next hcreated hcaused
      rw [hentries₁, hkept, others, hentries, Multiset.filter_add, hnew]

/-- The step of another session, or of a trigger, in both runs. -/
theorem Similar.step (hsimilar : Similar session h y.before x') (hx : Fresh y.before.service.mgr)
    (hcreated : ∀ id c, creator h id = some c → id < y.before.service.mgr.subscriptionId)
    (hy : y.Of (systemStep cfg)) {output : List GoString}
    (hx₁ : systemStep cfg x' y.event = some (x₁, output))
    (halive : y.after.service.Alive) (halive₁ : x₁.service.Alive)
    (hunambiguous : ∀ request ∈ y.event.2.request,
      Unambiguous session h y.before.service.mgr request)
    (hcaused : ¬ causedBy session h y.event.2) : Similar session (y :: h) y.after x₁ := by
  suffices hboth : x₁.service.mgr.subscriptionId = y.after.service.mgr.subscriptionId ∧
      entries x₁.service.mgr = others (y :: h) session y.after from
    ⟨systemStep_fresh hsimilar.fresh hx₁, hboth.1, hboth.2⟩
  cases hrequest : y.event.2.request with
  | some request =>
    have hy' := (systemStep_serve hrequest).symm.trans hy
    rw [systemStep_serve hrequest] at hx₁
    exact hsimilar.serve hx hcreated hy' hx₁ halive halive₁ (hunambiguous request hrequest)
      hcaused
  | none =>
    obtain ⟨e, hevent⟩ : ∃ e, y.event.2 = .trigger e := by
      cases hevent : y.event.2 with
      | client session' reqMessage => simp [hevent, Event.request] at hrequest
      | gatingId id => simp [hevent, Event.request] at hrequest
      | trigger e => exact ⟨e, rfl⟩
    have hstep : systemStep cfg y.before (y.event.1, .trigger e) = some (y.after, y.output) := by
      rw [← hevent]
      exact hy
    have hstep₁ : systemStep cfg x' (y.event.1, .trigger e) = some (x₁, output) := by
      rw [← hevent]
      exact hx₁
    obtain ⟨hid, -⟩ := systemStep_trigger_entries hx hstep
    obtain ⟨hid₁, hentries₁⟩ := systemStep_trigger_entries hsimilar.fresh hstep₁
    refine ⟨by rw [hid₁, hid, hsimilar.nextId], ?_⟩
    rw [hentries₁ halive₁, others_trigger hx hy halive hevent, hsimilar.agrees]

/-- Along a run in which the session is isolating, the run without its requests agrees with
it on the entries of the others. -/
theorem similar_of_isolating (hrun : SystemRun cfg h x) (hcond : Always (Isolating session) h)
    (hx' : withoutRequests cfg session h = some x') (halive : x.service.Alive)
    (halive' : x'.service.Alive) : Similar session h x x' := by
  induction hrun generalizing x' with
  | start hinit =>
    obtain rfl := Option.some.inj hx'
    obtain rfl := hinit
    refine ⟨fresh_initialState, rfl, ?_⟩
    exact (Multiset.filter_eq_self.mpr fun _ _ => nofun).symm
  | @next h y hrun hy ih =>
    obtain ⟨⟨hown, hunambiguous⟩, hcond⟩ := hcond
    have hbefore := alive_before hy halive
    have hx := SystemRun.fresh hrun
    simp only [withoutRequests, Option.bind_eq_bind, Option.bind_eq_some_iff] at hx'
    obtain ⟨x₀, hx₀, hx'⟩ := hx'
    split at hx'
    · next hcaused =>
      obtain rfl := Option.some.inj hx'
      exact (ih hcond hx₀ hbefore halive').skip hx hy halive hown hcaused
    · next hcaused =>
      rw [Option.map_eq_some_iff] at hx'
      obtain ⟨⟨x₁, output⟩, hstep, rfl⟩ := hx'
      have hsimilar := ih hcond hx₀ hbefore (alive_before hstep halive')
      exact hsimilar.step hx (SystemRun.created hrun) hy hstep halive halive' hunambiguous hcaused

end

/-- A tree in which every path is one sensor that needs no token. -/
def sampleConfigs : Configs where
  core := ⟨fun path _ _ _ => ([⟨path, .mk path 1 [] [] []⟩], 0)⟩
  service := sampleConfig

def sampleMoments : Moments where
  core :=
    { rfcTime := str "2024-05-01T08:00:00Z"
      range := id
      postReply := fun _ => none
      atsReply := fun _ => [] }
  service := sampleMoment

/-- Two websocket clients. -/
def sessionA : Session := ⟨1, 0⟩

def sessionB : Session := ⟨1, 1⟩

def subscribeChange : GoString := str (
  "\x7b\"action\":\"subscribe\",\"path\":\"Vehicle.Speed\",\"filter\":" ++
  "\x7b\"type\":\"change\",\"parameter\":\x7b\"logic-op\":\"ne\",\"diff\":\"0\"\x7d\x7d," ++
  "\"requestId\":\"7\"\x7d")

def unsubscribeFirst : GoString := str
  "\x7b\"action\":\"unsubscribe\",\"subscriptionId\":\"1\",\"requestId\":\"8\"\x7d"

/-- A client subscribes, another one subscribes, and the first unsubscribes. -/
def ownEvents : List (Moments × Event) :=
  [(sampleMoments, .client sessionA subscribeChange),
    (sampleMoments, .client sessionB subscribeChange),
    (sampleMoments, .client sessionA unsubscribeFirst)]

end VissServer.Core

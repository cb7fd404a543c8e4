import VissServer.AgtServer.Replays
import VissServer.AtServer.Answering
import VissServer.Channels.TokenServer
import VissServer.Channels.Transport
import VissServer.Library.SharedChannel

/-!
The HTTP handlers of the HTTP manager, of the access token server and of the access grant
server. All handlers of a server share one unbuffered channel with its loop: they send on it
what they ask, the grant server's handlers the body and then the PoP header, and receive from
it (managerhandlers.go, httpMgr.go, atServer.go, agt_server.go).
-/
namespace VissServer.Channels.Handlers

open Go Runs SharedChannel

/-- The HTTP manager with the requests behind what the core, transportDataSession and the hub
hold. -/
structure HttpLoop where
  network : Transport.Network
  atCore : List (ℕ × GoString)
  atSession : List (ℕ × GoString)
  atHub : List (ℕ × GoString)

/-- The steps between the hub and the core. -/
inductive HttpEvent
  /-- transportDataSession takes the request of the hub. -/
  | take
  /-- The core takes the request of transportDataSession. -/
  | core
  /-- The core sends the response to a request that it has taken. -/
  | answer (k : ℕ) (response : GoString)
  /-- The core sends a message that is no response to a request. -/
  | notify (message : GoString)
  /-- The hub takes the message of transportDataSession. -/
  | takeBack
  deriving DecidableEq

/-- The HTTP manager's own step. -/
def HttpLoop.move (s : HttpLoop) (e : Transport.Event) : Option Transport.Network :=
  (Transport.networkStep .http s.network e).map Prod.fst

def httpInternal (s : HttpLoop) : HttpEvent → Option HttpLoop
  | .take => (s.move .take).map fun network =>
      { s with network, atHub := [], atSession := s.atHub }
  | .core => (s.move .core).map fun network =>
      { s with network, atSession := [], atCore := s.atCore ++ s.atSession }
  | .answer k response =>
      (s.atCore[k]?).bind fun request => (s.move (.backend response)).map fun network =>
        { s with network, atCore := s.atCore.eraseIdx k, atSession := [request] }
  | .notify message => (s.move (.backend message)).map fun network =>
      { s with network, atSession := [] }
  | .takeBack => (s.move .takeBack).map fun network =>
      { s with network, atSession := [], atHub := s.atSession }

/-- HttpClientChan has the one channel 0, so that another client id panics. -/
def httpLoop : Loop HttpLoop Unit HttpEvent GoString where
  receive s _ p := (s.move (.client 0 p.2)).map fun network => { s with network, atHub := [p] }
  send s :=
    match s.network.hub with
    | .delivering message clientId =>
        if clientId = 0 then (s.move .deliver).map fun network =>
          (s.atHub, message, { s with network, atHub := [] })
        else none
    | _ => none
  internal := httpInternal

/-- The access token server with the request that it serves. -/
structure AtLoop where
  network : TokenServer.Network
  serving : List (ℕ × GoString)

/-- Whether a step of the access token server is about the channel of its clients. -/
def onClientChan (x : TokenServer.Network) : TokenServer.Event → Bool
  | .server (.client _) => true
  | .send =>
      match x.loop with
      | .sending (.client _) _ => true
      | _ => false
  | _ => false

def AtLoop.move (cfg : AtServer.Config) (s : AtLoop) (e : AtServer.Moment × TokenServer.Event) :
    Option TokenServer.Network := (TokenServer.networkStep cfg s.network e).map Prod.fst

def atLoop (cfg : AtServer.Config) :
    Loop AtLoop AtServer.Moment (AtServer.Moment × TokenServer.Event) GoString where
  receive s m p := (s.move cfg (m, .server (.client p.2))).map fun network =>
    { network, serving := [p] }
  send s :=
    match s.network.panicked, s.network.loop with
    | false, .sending (.client response) effects => some (s.serving, response,
        { network := { s.network with loop := .of effects }, serving := [] })
    | _, _ => none
  internal s e :=
    if onClientChan s.network e.2 then none
    else (s.move cfg e).map fun network => { s with network }

/-- Where the loop of main of the access grant server is. -/
inductive AgtPhase
  | ready
  | expecting (request : ℕ × GoString)
  | replying (sources : List (ℕ × GoString)) (response : GoString)
  deriving DecidableEq

structure AgtLoop where
  phase : AgtPhase
  jtiCache : List GoString
  deriving DecidableEq

/-- A panic of generateResponse ends the run. The ids of used proofs are deleted by
goroutines of their own. -/
def agtLoop (cfg : AgtServer.Config) : Loop AgtLoop AgtServer.Moment GoString GoString where
  receive s m p :=
    match s.phase with
    | .ready => some { s with phase := .expecting p }
    | .expecting request =>
        (AgtServer.generateResponse cfg m s.jtiCache request.2 p.2).map fun r =>
          { phase := .replying [request, p] r.1, jtiCache := r.2 }
    | .replying _ _ => none
  send s :=
    match s.phase with
    | .replying sources response => some (sources, response, { s with phase := .ready })
    | _ => none
  internal s jti := some { s with jtiCache := AgtServer.deleteJti s.jtiCache jti }

/-- The HTTP manager sends a response of the core without its routing data. -/
def HttpAnswers (own : List GoString) (text : GoString) : Prop :=
  own.length = 1 ∧ ∃ response clientId,
    Managers.removeInternalData response = some (text, clientId)

def AtAnswers (cfg : AtServer.Config) (own : List GoString) (text : GoString) : Prop :=
  ∃ request m s r, own = [request] ∧
    AtServer.generateClientResponse cfg m s request = some r ∧
      AtServer.clientResponses r.2 = [text]

def AgtAnswers (cfg : AgtServer.Config) (own : List GoString) (text : GoString) : Prop :=
  ∃ body pop m jtiCache r, own = [body, pop] ∧
    AgtServer.generateResponse cfg m jtiCache body pop = some r ∧ r.1 = text

/-- The core sends nothing to the HTTP manager but the responses to its requests. -/
def HttpQuiet (_ : HttpLoop) : HttpEvent → Prop
  | .notify _ => False
  | _ => True

instance (s : HttpLoop) : ∀ e, Decidable (HttpQuiet s e)
  | .notify _ => inferInstanceAs (Decidable False)
  | .take | .core | .answer _ _ | .takeBack => inferInstanceAs (Decidable True)

def initialHttp : HttpLoop := ⟨Transport.initialNetwork .http, [], [], []⟩

def HttpStarted (s : HttpLoop) : Prop := s = initialHttp

def AtStarted (s : AtLoop) : Prop := TokenServer.Started s.network ∧ s.serving = []

def initialAgt : AgtLoop := ⟨.ready, []⟩

def AgtStarted (s : AgtLoop) : Prop := s = initialAgt

section Agt

variable {cfg : AgtServer.Config}

def AgtLoop.held (s : AgtLoop) : List (ℕ × GoString) :=
  match s.phase with
  | .ready => []
  | .expecting request => [request]
  | .replying sources _ => sources

/-- The grant server replies to the body and the PoP header that it has received. -/
def AgtInv (cfg : AgtServer.Config) (s : AgtLoop) : Prop :=
  ∀ sources response, s.phase = .replying sources response →
    sources.length = 2 ∧ AgtAnswers cfg (sources.map Prod.snd) response

theorem agtLoop_regular : (agtLoop cfg).Regular 2 (AgtInv cfg) (fun _ _ => True) AgtLoop.held
    (AgtAnswers cfg) where
  receive := by
    intro s m p s' hinv hreceive
    simp only [agtLoop] at hreceive
    split at hreceive
    · next hphase =>
      obtain rfl := Option.some.inj hreceive
      exact ⟨nofun, by simp [AgtLoop.held, hphase]⟩
    · next request hphase =>
      obtain ⟨r, hr, rfl⟩ := Option.map_eq_some_iff.mp hreceive
      refine ⟨?_, by simp [AgtLoop.held, hphase]⟩
      intro sources response hreplying
      obtain ⟨rfl, rfl⟩ := AgtPhase.replying.inj hreplying
      exact ⟨rfl, request.2, p.2, m, s.jtiCache, r, rfl, hr, rfl⟩
    · cases hreceive
  send := by
    intro s sources text s' hinv _ hsend
    simp only [agtLoop] at hsend
    split at hsend
    · next sources response hphase =>
      obtain ⟨rfl, hrest⟩ := Prod.mk.inj (Option.some.inj hsend)
      obtain ⟨rfl, rfl⟩ := Prod.mk.inj hrest
      obtain ⟨hlength, hanswers⟩ := hinv sources response hphase
      exact ⟨nofun, rfl, by simp [AgtLoop.held, hphase], hlength, hanswers⟩
    · cases hsend
  internal := by
    intro s jti s' hinv _ _ hinternal
    obtain rfl := Option.some.inj hinternal
    exact ⟨hinv, rfl⟩

end Agt

section At

open AtServer (clientResponses)

variable {cfg : AtServer.Config}

/-- The messages that the loop of AtServerInit has still to send. -/
def effects : TokenServer.Loop → List AtServer.Effect
  | .select => []
  | .sending effect effects => effect :: effects

@[simp] theorem effects_of (es : List AtServer.Effect) : effects (.of es) = es := by
  cases es <;> rfl

/-- The server has one response to send to the client it serves. -/
def AtServes (cfg : AtServer.Config) (serving : List (ℕ × GoString))
    (es : List AtServer.Effect) : Prop :=
  (serving = [] ∧ clientResponses es = []) ∨
    ∃ p response, serving = [p] ∧ clientResponses es = [response] ∧ AtAnswers cfg [p.2] response

def AtInv (cfg : AtServer.Config) (s : AtLoop) : Prop :=
  s.network.panicked = false → AtServes cfg s.serving (effects s.network.loop)

theorem AtServes.idle {serving : List (ℕ × GoString)} (h : AtServes cfg serving []) :
    serving = [] := by
  obtain ⟨hserving, -⟩ | ⟨p, response, -, hnil, -⟩ := h
  · exact hserving
  · cases hnil

/-- A message that is not for a client is sent. -/
theorem AtServes.tail {serving : List (ℕ × GoString)} {effect : AtServer.Effect}
    {es : List AtServer.Effect} (h : AtServes cfg serving (effect :: es))
    (heffect : clientResponses [effect] = []) : AtServes cfg serving es := by
  have hsame : clientResponses (effect :: es) = clientResponses es := by
    have happend : clientResponses (effect :: es) = clientResponses [effect] ++ clientResponses es :=
      List.filterMap_append (l := [effect]) ..
    rw [happend, heffect, List.nil_append]
  unfold AtServes at h ⊢
  rwa [hsame] at h

theorem AtLoop.move_some {s : AtLoop} {e : AtServer.Moment × TokenServer.Event}
    {network : TokenServer.Network} (h : s.move cfg e = some network) :
    s.network.panicked = false ∧ TokenServer.meet cfg e.1 s.network e.2 = some network := by
  obtain ⟨⟨x, o⟩, hstep, rfl⟩ := Option.map_eq_some_iff.mp h
  exact TokenServer.meet_of_networkStep hstep

/-- A pass for anything but a client's message has no response to a client. -/
theorem clientResponses_step {m : AtServer.Moment} {s s' : AtServer.State} {e : AtServer.Event}
    {es : List AtServer.Effect} (hclient : ∀ request, e ≠ .client request)
    (h : AtServer.step cfg m s e = some (s', es)) : clientResponses es = [] := by
  have hreply := AtServer.clientReply_none hclient h
  unfold AtServer.clientReply at hreply
  unfold clientResponses
  rw [List.filterMap_eq_nil_iff]
  exact List.findSome?_eq_none_iff.mp hreply

theorem pass_serves {m : AtServer.Moment} {x : TokenServer.Network} {e : AtServer.Event}
    (hclient : ∀ request, e ≠ .client request) :
    (TokenServer.pass cfg m x e).panicked = false →
      AtServes cfg [] (effects (TokenServer.pass cfg m x e).loop) := by
  unfold TokenServer.pass
  cases hstep : AtServer.step cfg m x.server e with
  | none => simp
  | some r =>
    intro _
    rw [effects_of]
    exact .inl ⟨rfl, clientResponses_step hclient hstep⟩

/-- The steps that are not about the clients' channel leave the response where it is. -/
theorem meet_serves {m : AtServer.Moment} {x x' : TokenServer.Network} {e : TokenServer.Event}
    {serving : List (ℕ × GoString)} (hchan : onClientChan x e = false)
    (hserves : AtServes cfg serving (effects x.loop))
    (h : TokenServer.meet cfg m x e = some x') :
    x'.panicked = false → AtServes cfg serving (effects x'.loop) := by
  unfold TokenServer.meet at h
  split at h
  · obtain rfl := Option.some.inj h
    exact fun _ => hserves
  · obtain rfl := Option.some.inj h
    exact fun _ => hserves
  · next request hcore hloop =>
    obtain rfl := Option.some.inj h
    rw [hloop] at hserves
    obtain rfl := hserves.idle
    exact pass_serves nofun
  · next response es hcore hloop =>
    obtain rfl := Option.some.inj h
    rw [hloop] at hserves
    rw [effects_of]
    exact fun _ => hserves.tail rfl
  · obtain rfl := Option.some.inj h
    exact fun _ => hserves
  · next e =>
    have hclient : ∀ request, e ≠ .client request := by
      rintro request rfl
      cases hchan
    obtain ⟨hselect, rfl⟩ | ⟨jti, rfl, rfl⟩ := TokenServer.serve_select h
    · rw [hselect] at hserves
      obtain rfl := hserves.idle
      exact pass_serves hclient
    · exact fun _ => hserves
  · next effect es hloop =>
    obtain ⟨hout, hsome⟩ := Option.ite_none_right_eq_some.mp h
    obtain rfl := Option.some.inj hsome
    rw [hloop] at hserves
    rw [effects_of]
    intro _
    apply hserves.tail
    cases effect with
    | client response => simp [onClientChan, hloop] at hchan
    | _ => rfl
  · next gatingId es hcore hloop =>
    obtain rfl := Option.some.inj h
    rw [hloop] at hserves
    rw [effects_of]
    exact fun _ => hserves.tail rfl
  · cases h

theorem atLoop_regular : (atLoop cfg).Regular 1 (AtInv cfg) (fun _ _ => True) AtLoop.serving
    (AtAnswers cfg) where
  receive := by
    intro s m p s' hinv hreceive
    obtain ⟨network, hmove, rfl⟩ := Option.map_eq_some_iff.mp hreceive
    obtain ⟨hrunning, hmeet⟩ := AtLoop.move_some hmove
    obtain ⟨hselect, rfl⟩ | ⟨jti, hjti, -⟩ := TokenServer.serve_select hmeet
    · have hidle : s.serving = [] := by
        have hserves := hinv hrunning
        rw [hselect] at hserves
        exact hserves.idle
      refine ⟨?_, by simp [hidle]⟩
      unfold AtInv TokenServer.pass
      cases hstep : AtServer.step cfg m s.network.server (.client p.2) with
      | none => simp
      | some r =>
        intro _
        obtain ⟨response, hresponse⟩ := List.length_eq_one_iff.mp
          (AtServer.generateClientResponse_once r hstep)
        rw [effects_of]
        exact .inr ⟨p, response, rfl, hresponse, p.2, m, s.network.server, r, rfl, hstep,
          hresponse⟩
    · cases hjti
  send := by
    intro s sources text s' hinv _ hsend
    simp only [atLoop] at hsend
    split at hsend
    · next response es hrunning hloop =>
      obtain ⟨rfl, hrest⟩ := Prod.mk.inj (Option.some.inj hsend)
      obtain ⟨rfl, rfl⟩ := Prod.mk.inj hrest
      have hserves := hinv hrunning
      rw [hloop] at hserves
      have hresponses : clientResponses (effects (.sending (.client response) es)) =
          response :: clientResponses es := rfl
      obtain ⟨-, hnil⟩ | ⟨p, text, hserving, heffects, hanswers⟩ := hserves
      · rw [hresponses] at hnil
        cases hnil
      · rw [hresponses] at heffects
        obtain ⟨rfl, hrest⟩ := List.cons.inj heffects
        refine ⟨fun _ => .inl ⟨rfl, ?_⟩, rfl, rfl, by rw [hserving]; rfl, by rwa [hserving]⟩
        rw [effects_of]
        exact hrest
    · cases hsend
  internal := by
    intro s e s' hinv _ _ hinternal
    simp only [atLoop, Option.ite_none_left_eq_some] at hinternal
    obtain ⟨hchan, hsome⟩ := hinternal
    obtain ⟨network, hmove, rfl⟩ := Option.map_eq_some_iff.mp hsome
    obtain ⟨hrunning, hmeet⟩ := AtLoop.move_some hmove
    rw [Bool.not_eq_true] at hchan
    exact ⟨meet_serves hchan (hinv hrunning) hmeet, rfl⟩

end At

section Http

def HttpLoop.held (s : HttpLoop) : List (ℕ × GoString) := s.atCore ++ s.atSession ++ s.atHub

/-- What the hub holds is behind its state. -/
def HubHolds (atHub : List (ℕ × GoString)) : Transport.Hub → Prop
  | .select => atHub = []
  | .sending _ => atHub.length = 1
  | .delivering message clientId => atHub.length = 1 ∧ ∃ response,
      Managers.removeInternalData response = some (message, clientId)
  | .asking _ | .awaitingVin => False

/-- What transportDataSession holds is behind its state. -/
def SessionHolds (atSession : List (ℕ × GoString)) : Transport.Session → Prop
  | .select => atSession = []
  | .toCore _ | .toHub _ => atSession.length = 1

def HttpInv (s : HttpLoop) : Prop :=
  s.network.ended = false →
    HubHolds s.atHub s.network.hub ∧ SessionHolds s.atSession s.network.session

theorem HttpLoop.move_some {s : HttpLoop} {e : Transport.Event} {network : Transport.Network}
    (h : s.move e = some network) :
    s.network.ended = false ∧ Transport.meet .http e s.network = some network := by
  obtain ⟨⟨x, o⟩, hstep, rfl⟩ := Option.map_eq_some_iff.mp h
  refine ⟨?_, Transport.meet_of_networkStep hstep⟩
  by_contra hended
  rw [Bool.not_eq_false] at hended
  simp [Transport.networkStep, hended] at hstep

/-- What the hub and transportDataSession do in the steps of the HTTP manager. -/
theorem meet_http {x x' : Transport.Network} {e : Transport.Event}
    (h : Transport.meet .http e x = some x') :
    match e with
    | .client _ _ => x.hub = .select ∧ x'.session = x.session ∧ x'.ended = x.ended ∧
        ∃ request, x'.hub = .sending request
    | .take => (∃ request, x.hub = .asking request) ∨ (∃ request, x.hub = .sending request) ∧
        x.session = .select ∧ x'.hub = .select ∧ ∃ request, x'.session = .toCore request
    | .core => (∃ request, x.session = .toCore request) ∧ x'.session = .select ∧ x'.hub = x.hub
    | .backend message => x.session = .select ∧ x'.session = .toHub message ∧ x'.hub = x.hub
    | .takeBack => x.hub = .awaitingVin ∨ x.hub = .select ∧ (∃ message, x.session = .toHub message) ∧
        (x'.ended = false → x'.session = .select ∧ ∃ response message clientId,
          x'.hub = .delivering message clientId ∧
            Managers.removeInternalData response = some (message, clientId))
    | .deliver => (∃ message clientId, x.hub = .delivering message clientId) ∧ x'.hub = .select ∧
        x'.session = x.session
    | .receive | .echo | .pass => True := by
  obtain ⟨hub, receiver, session, topicId, ended⟩ := x
  cases e with
  | client clientId reqMessage =>
    cases hub with
    | select =>
      obtain rfl := Option.some.inj h
      exact ⟨rfl, rfl, rfl, _, rfl⟩
    | _ => cases h
  | take =>
    cases hub with
    | asking request => exact .inl ⟨request, rfl⟩
    | sending request =>
      cases session with
      | select =>
        obtain rfl := Option.some.inj h
        exact .inr ⟨⟨request, rfl⟩, rfl, rfl, _, rfl⟩
      | _ => cases h
    | _ => cases h
  | core =>
    cases session with
    | toCore request =>
      obtain rfl := Option.some.inj h
      exact ⟨⟨request, rfl⟩, rfl, rfl⟩
    | _ => cases h
  | backend message =>
    cases session with
    | select =>
      obtain rfl := Option.some.inj h
      exact ⟨rfl, rfl, rfl⟩
    | _ => cases h
  | takeBack =>
    cases hub with
    | awaitingVin => exact .inl rfl
    | select =>
      cases session with
      | toHub message =>
        cases receiver with
        | absent =>
          obtain rfl := Option.some.inj h
          refine .inr ⟨rfl, ⟨message, rfl⟩, ?_⟩
          unfold Transport.forwardResponse
          cases hrest : Managers.removeInternalData message with
          | none => nofun
          | some r => exact fun _ => ⟨rfl, message, r.1, r.2, rfl, hrest⟩
        | _ => cases h
      | _ => cases h
    | _ => cases h
  | deliver =>
    cases hub with
    | delivering message clientId =>
      obtain rfl := Option.some.inj h
      exact ⟨⟨message, clientId, rfl⟩, rfl, rfl⟩
    | _ => cases h
  | _ => trivial

theorem httpLoop_regular : httpLoop.Regular 1 HttpInv HttpQuiet HttpLoop.held HttpAnswers where
  receive := by
    intro s _ p s' hinv hreceive
    obtain ⟨network, hmove, rfl⟩ := Option.map_eq_some_iff.mp hreceive
    obtain ⟨hrunning, hmeet⟩ := HttpLoop.move_some hmove
    obtain ⟨hhub, hsession⟩ := hinv hrunning
    obtain ⟨hselect, hsame, -, request, hsending⟩ := meet_http hmeet
    rw [hselect] at hhub
    refine ⟨fun _ => ⟨?_, ?_⟩, ?_⟩
    · rw [hsending]
      rfl
    · rw [hsame]
      exact hsession
    · have hempty : s.atHub = [] := hhub
      simp [HttpLoop.held, hempty]
  send := by
    intro s sources text s' hinv hlength hsend
    simp only [httpLoop] at hsend
    split at hsend
    · next message clientId hdelivering =>
      obtain ⟨-, hsome⟩ := Option.ite_none_right_eq_some.mp hsend
      obtain ⟨network, hmove, heq⟩ := Option.map_eq_some_iff.mp hsome
      obtain ⟨rfl, hrest⟩ := Prod.mk.inj heq
      obtain ⟨rfl, rfl⟩ := Prod.mk.inj hrest
      obtain ⟨hrunning, hmeet⟩ := HttpLoop.move_some hmove
      obtain ⟨hhub, hsession⟩ := hinv hrunning
      obtain ⟨-, hselect, hsame⟩ := meet_http hmeet
      rw [hdelivering] at hhub
      obtain ⟨hone, response, hresponse⟩ := hhub
      have hothers : s.atCore = [] ∧ s.atSession = [] := by
        simp only [HttpLoop.held, List.length_append, hone] at hlength
        exact ⟨List.length_eq_zero_iff.mp (by omega), List.length_eq_zero_iff.mp (by omega)⟩
      refine ⟨fun _ => ⟨?_, ?_⟩, ?_, ?_, hone, ?_, response, clientId, hresponse⟩
      · rw [hselect]
        rfl
      · rw [hsame]
        exact hsession
      · simp [HttpLoop.held, hothers]
      · simp [HttpLoop.held, hothers]
      · rw [List.length_map, hone]
    · cases hsend
  internal := by
    intro s e s' hinv hlength hquiet hinternal
    cases e with
    | take =>
      obtain ⟨network, hmove, rfl⟩ := Option.map_eq_some_iff.mp hinternal
      obtain ⟨hrunning, hmeet⟩ := HttpLoop.move_some hmove
      obtain ⟨hhub, hsession⟩ := hinv hrunning
      obtain ⟨_, hasking⟩ | ⟨⟨request, hsending⟩, hfree, hselect, _, htoCore⟩ := meet_http hmeet
      · rw [hasking] at hhub
        cases hhub
      · rw [hsending] at hhub
        rw [hfree] at hsession
        have hempty : s.atSession = [] := hsession
        refine ⟨fun _ => ⟨?_, ?_⟩, by simp [HttpLoop.held, hempty]⟩
        · rw [hselect]
          rfl
        · rw [htoCore]
          exact hhub
    | core =>
      obtain ⟨network, hmove, rfl⟩ := Option.map_eq_some_iff.mp hinternal
      obtain ⟨hrunning, hmeet⟩ := HttpLoop.move_some hmove
      obtain ⟨hhub, hsession⟩ := hinv hrunning
      obtain ⟨-, hselect, hsame⟩ := meet_http hmeet
      refine ⟨fun _ => ⟨?_, ?_⟩, by simp [HttpLoop.held]⟩
      · rw [hsame]
        exact hhub
      · rw [hselect]
        rfl
    | answer k response =>
      obtain ⟨p, hp, hsome⟩ := Option.bind_eq_some_iff.mp hinternal
      obtain ⟨network, hmove, rfl⟩ := Option.map_eq_some_iff.mp hsome
      obtain ⟨hrunning, hmeet⟩ := HttpLoop.move_some hmove
      obtain ⟨hhub, hsession⟩ := hinv hrunning
      obtain ⟨hfree, htoHub, hsame⟩ := meet_http hmeet
      rw [hfree] at hsession
      have hempty : s.atSession = [] := hsession
      refine ⟨fun _ => ⟨?_, ?_⟩, ?_⟩
      · rw [hsame]
        exact hhub
      · rw [htoHub]
        rfl
      · -- the core has no second request
        obtain ⟨hk, -⟩ := List.getElem?_eq_some_iff.mp hp
        simp only [HttpLoop.held, List.length_append] at hlength
        obtain ⟨q, hq⟩ := List.length_eq_one_iff.mp (by omega : s.atCore.length = 1)
        have hzero : k = 0 := by omega
        rw [hq, hzero] at hp
        obtain rfl := Option.some.inj hp
        simp [HttpLoop.held, hq, hzero, hempty]
    | notify message => cases hquiet
    | takeBack =>
      obtain ⟨network, hmove, rfl⟩ := Option.map_eq_some_iff.mp hinternal
      obtain ⟨hrunning, hmeet⟩ := HttpLoop.move_some hmove
      obtain ⟨hhub, hsession⟩ := hinv hrunning
      obtain hawaiting | ⟨hselect, ⟨_, htoHub⟩, hrest⟩ := meet_http hmeet
      · rw [hawaiting] at hhub
        cases hhub
      · rw [hselect] at hhub
        rw [htoHub] at hsession
        have hempty : s.atHub = [] := hhub
        refine ⟨fun hended => ?_, by simp [HttpLoop.held, hempty]⟩
        obtain ⟨hfree, response, message, clientId, hdelivering, hresponse⟩ := hrest hended
        refine ⟨?_, ?_⟩
        · rw [hdelivering]
          exact ⟨hsession, response, hresponse⟩
        · rw [hfree]
          rfl

end Http

abbrev HttpHistory := History (Network HttpLoop GoString) (Event Unit HttpEvent GoString) Unit

abbrev AtHistory := History (Network AtLoop GoString)
  (Event AtServer.Moment (AtServer.Moment × TokenServer.Event) GoString) Unit

abbrev AgtHistory :=
  History (Network AgtLoop GoString) (Event AgtServer.Moment GoString GoString) Unit

abbrev HttpRun : HttpHistory → Network HttpLoop GoString → Prop :=
  Run (networkStep httpLoop 1) (Started HttpStarted)

abbrev AtRun (cfg : AtServer.Config) : AtHistory → Network AtLoop GoString → Prop :=
  Run (networkStep (atLoop cfg) 1) (Started AtStarted)

abbrev AgtRun (cfg : AgtServer.Config) : AgtHistory → Network AgtLoop GoString → Prop :=
  Run (networkStep (agtLoop cfg) 2) (Started AgtStarted)

/-- Where the messages of a handler are taken only while no other one is between its first
message and its reply, and the core sends to the HTTP manager but the responses to its
requests, each handler receives the reply that its server computed from its own messages. -/
theorem handlers_matched (atCfg : AtServer.Config) (agtCfg : AgtServer.Config) :
    (∀ h x, HttpRun h x → Always (fun _ y => InTurn HttpQuiet y.before y.event) h →
      Always (fun _ y => Matched HttpAnswers y.after) h) ∧
    (∀ h x, AtRun atCfg h x →
      Always (fun _ y => InTurn (fun _ _ => True) y.before y.event) h →
      Always (fun _ y => Matched (AtAnswers atCfg) y.after) h) ∧
    (∀ h x, AgtRun agtCfg h x →
      Always (fun _ y => InTurn (fun _ _ => True) y.before y.event) h →
      Always (fun _ y => Matched (AgtAnswers agtCfg) y.after) h) := by
  refine ⟨fun h x hrun hturn => ?_, fun h x hrun hturn => ?_, fun h x hrun hturn => ?_⟩
  · refine matched_of_inTurn httpLoop_regular Nat.one_pos ?_ hrun hturn
    rintro s rfl
    exact ⟨fun _ => ⟨rfl, rfl⟩, rfl⟩
  · refine matched_of_inTurn atLoop_regular Nat.one_pos ?_ hrun hturn
    intro s hs
    obtain ⟨⟨server, -, hnetwork⟩, hserving⟩ := hs
    refine ⟨fun _ => .inl ⟨hserving, ?_⟩, hserving⟩
    rw [hnetwork]
    rfl
  · refine matched_of_inTurn agtLoop_regular Nat.two_pos ?_ hrun hturn
    rintro s rfl
    exact ⟨nofun, rfl⟩

/-- An at-inquiry for a session that is not there. -/
def sampleInquiry : GoString := str "\x7b\"action\":\"at-inquiry\",\"sessionId\":\"667\"\x7d"

theorem atStarted_initial :
    AtStarted ⟨TokenServer.initialNetwork (AtServer.State.initial 0 0), []⟩ :=
  ⟨⟨_, ⟨0, 0, rfl⟩, rfl⟩, rfl⟩

/-- At each server the second of two handlers comes while the first one waits. -/
theorem handlers_matched_in_turn :
    (∃ h x, HttpRun h x ∧ h.length = 14 ∧ Always (fun _ y => Matched HttpAnswers y.after) h) ∧
    (∃ cfg h x, AtRun cfg h x ∧ h.length = 6 ∧
      Always (fun _ y => Matched (AtAnswers cfg) y.after) h) ∧
    (∃ cfg h x, AgtRun cfg h x ∧ h.length = 8 ∧
      Always (fun _ y => Matched (AgtAnswers cfg) y.after) h) := by
  refine ⟨?_, ?_, ?_⟩
  · have hstart : HttpStarted initialHttp := rfl
    obtain ⟨h, x, hrun, hlength, hturn⟩ := exists_run httpLoop 1 hstart
      [.arrive [Transport.getRequest], .take () 0, .arrive [Transport.getRequest],
        .internal .take, .internal .core, .internal (.answer 0 (Transport.getResponse .http)),
        .internal .takeBack, .reply 0, .take () 1, .internal .take, .internal .core,
        .internal (.answer 0 (Transport.getResponse .http)), .internal .takeBack, .reply 1]
      (fun h => h.length = 14 ∧ Always (fun _ y => InTurn HttpQuiet y.before y.event) h)
      (by decide +kernel)
    have hmatched := handlers_matched (AtServer.sampleConfig true) AgtServer.sampleConfig
    exact ⟨h, x, hrun, hlength, hmatched.1 h x hrun hturn⟩
  · obtain ⟨h, x, hrun, hlength, hturn⟩ := exists_run (atLoop (AtServer.sampleConfig true)) 1
      atStarted_initial
      [.arrive [AtServer.sampleRequest], .take AtServer.sampleMoment 0, .arrive [sampleInquiry],
        .reply 0, .take AtServer.sampleMoment 1, .reply 1]
      (fun h => h.length = 6 ∧ Always (fun _ y => InTurn (fun _ _ => True) y.before y.event) h)
      (by decide +kernel)
    exact ⟨_, h, x, hrun, hlength,
      (handlers_matched _ AgtServer.sampleConfig).2.1 h x hrun hturn⟩
  · have hstart : AgtStarted initialAgt := rfl
    obtain ⟨h, x, hrun, hlength, hturn⟩ := exists_run (agtLoop AgtServer.sampleConfig) 2 hstart
      [.arrive [AgtServer.sampleBody, AgtServer.samplePop], .take (AgtServer.sampleMoment 1) 0,
        .arrive [AgtServer.sampleBody, []], .take (AgtServer.sampleMoment 1) 0, .reply 0,
        .take (AgtServer.sampleMoment 1) 1, .take (AgtServer.sampleMoment 1) 1, .reply 1]
      (fun h => h.length = 8 ∧ Always (fun _ y => InTurn (fun _ _ => True) y.before y.event) h)
      (by decide +kernel)
    exact ⟨_, h, x, hrun, hlength,
      (handlers_matched (AtServer.sampleConfig true) _).2.2 h x hrun hturn⟩

/-- At each server the handler that waits receives the request of another one. -/
theorem handlers_crossed :
    (¬ ∀ h x, HttpRun h x → Always (fun _ y => Matched HttpAnswers y.after) h) ∧
    (¬ ∀ cfg h x, AtRun cfg h x → Always (fun _ y => Matched (AtAnswers cfg) y.after) h) ∧
    (¬ ∀ cfg h x, AgtRun cfg h x → Always (fun _ y => Matched (AgtAnswers cfg) y.after) h) := by
  refine ⟨fun hall => ?_, fun hall => ?_, fun hall => ?_⟩
  · have hstart : HttpStarted initialHttp := rfl
    obtain ⟨h, x, hrun, y, hy, hcrossed⟩ := exists_run httpLoop 1 hstart
      [.arrive [Transport.getRequest], .arrive [Transport.getRequest], .take () 0, .cross 1 0]
      (fun h => ∃ y ∈ h.head?, (y.after.clients[0]?).map Client.phase =
        some (.served (.request 1 Transport.getRequest)))
      (by decide +kernel)
    obtain ⟨rest, rfl⟩ := List.head?_eq_some_iff.mp hy
    exact not_matched hcrossed (hall _ x hrun).1
  · obtain ⟨h, x, hrun, y, hy, hcrossed⟩ := exists_run (atLoop (AtServer.sampleConfig true)) 1
      atStarted_initial
      [.arrive [sampleInquiry], .arrive [AtServer.sampleRequest], .take AtServer.sampleMoment 0,
        .cross 1 0]
      (fun h => ∃ y ∈ h.head?, (y.after.clients[0]?).map Client.phase =
        some (.served (.request 1 AtServer.sampleRequest)))
      (by decide +kernel)
    obtain ⟨rest, rfl⟩ := List.head?_eq_some_iff.mp hy
    exact not_matched hcrossed (hall _ _ x hrun).1
  · have hstart : AgtStarted initialAgt := rfl
    obtain ⟨h, x, hrun, y, hy, hcrossed⟩ := exists_run (agtLoop AgtServer.sampleConfig) 2 hstart
      [.arrive [AgtServer.sampleBody, []], .arrive [AgtServer.sampleBody, AgtServer.samplePop],
        .take (AgtServer.sampleMoment 1) 0, .take (AgtServer.sampleMoment 1) 0, .cross 1 0]
      (fun h => ∃ y ∈ h.head?, (y.after.clients[0]?).map Client.phase =
        some (.served (.request 1 AgtServer.sampleBody)))
      (by decide +kernel)
    obtain ⟨rest, rfl⟩ := List.head?_eq_some_iff.mp hy
    exact not_matched hcrossed (hall _ _ x hrun).1

end VissServer.Channels.Handlers

import Mathlib.Data.Multiset.UnionInter
import VissServer.WsMgr.ClientIndices

/-!
Sessions that follow each other on one client index (managerhandlers.go, wsMgr.go,
serviceMgr.go). The goroutines of a session and the hub meet at the channels of its index;
requests go from the hub to the service manager through goroutines that keep their order, and
what the service manager sends comes back in any order. A connection is set up in one step.
-/
namespace VissServer.WsMgr.Isolation

open Runs

/-- What a request asks for; internal-killsubscriptions is sent by a client, or for a session
that ends. -/
inductive Action
  | subscribe
  | unsubscribe
  | killSubscriptions (byClient : Bool)
  | cancelSubscription
  | other
  deriving DecidableEq

/-- The session that sent a request, and the client index in the RouterId that is read from
its text. -/
structure Request where
  owner : ℕ
  routerId : ℕ
  action : Action
  deriving DecidableEq

/-- A response may contain the word subscription, a notification always does. -/
inductive Kind
  | response (subscription : Bool)
  | notification
  deriving DecidableEq

/-- The session whose request caused a message, and the client index in its RouterId. -/
structure Message where
  owner : ℕ
  routerId : ℕ
  kind : Kind
  deriving DecidableEq

structure SubscriptionState where
  owner : ℕ
  routerId : ℕ
  deriving DecidableEq

/-- Where frontendWSAppSession is. -/
inductive Front
  | reading
  | sending (action : Action) (routerId : ℕ)
  | awaiting
  | answering (response : Message)
  | killing
  | sleeping
  | terminating
  | returning
  | ended
  deriving DecidableEq

/-- The RouterId of the request that a session sends to the hub. -/
def Front.routerId : Front → Option ℕ
  | .sending _ routerId => some routerId
  | _ => none

/-- Where backendWSAppSession is. -/
inductive Back
  | receiving
  | writing (message : Message)
  | ended
  deriving DecidableEq

/-- Where the loop of WsMgrInit is. -/
inductive Hub
  | select
  | forwarding (request : Request)
  | delivering (message : Message)
  deriving DecidableEq

/-- The sessions are numbered in the order in which they start. -/
structure WsSystem where
  wsClientIndexList : ClientIndexList
  started : ℕ
  clientId : ℕ → ℕ
  front : ℕ → Front
  back : ℕ → Back
  hub : Hub
  requests : List Request
  subscriptionList : List SubscriptionState
  messages : List Message

def initialSystem : WsSystem where
  wsClientIndexList := List.replicate 20 true
  started := 0
  clientId := fun _ => 0
  front := fun _ => .ended
  back := fun _ => .ended
  hub := .select
  requests := []
  subscriptionList := []
  messages := []

/-- What the core and the service manager do with a request: they answer it, with an error or
a result, they add or remove a subscription and answer, or they give no answer. -/
inductive Effect
  | answer (routerId : ℕ) (subscription : Bool)
  | subscribe (subscription : Bool)
  | unsubscribe (k : ℕ) (subscription : Bool)
  | kill
  | silent
  deriving DecidableEq

/-- The sessions are named by their numbers, subscriptions and messages by their places. -/
inductive Event
  | connect
  | read (n : ℕ) (action : Action) (routerId : ℕ)
  | readError (n : ℕ)
  | hubRequest (n : ℕ)
  | hubForward
  | serve (effect : Effect)
  | notify (k : ℕ)
  | cancel (k : ℕ)
  | hubMessage (k : ℕ)
  | deliver (n : ℕ)
  | answer (n b : ℕ)
  | written (b : ℕ)
  | wake (n : ℕ)
  | terminate (n b : ℕ)
  | returnIndex (n : ℕ)
  deriving DecidableEq

/-- A message that is written to the client of a session, and the subscriptions that a kill
for a session removes. -/
inductive Output
  | nothing
  | written (n : ℕ) (message : Message)
  | killed (n : ℕ) (removed : List SubscriptionState)
  deriving DecidableEq

def WsSystem.setFront (s : WsSystem) (n : ℕ) (front : Front) : WsSystem :=
  { s with front := Function.update s.front n front }

def WsSystem.setBack (s : WsSystem) (n : ℕ) (back : Back) : WsSystem :=
  { s with back := Function.update s.back n back }

/-- A session with the index, if there is a free one. -/
def connect (s : WsSystem) : WsSystem :=
  let taken := getWsClientIndex s.wsClientIndexList
  if taken.1 = -1 then s
  else
    { s with
      wsClientIndexList := taken.2
      started := s.started + 1
      clientId := Function.update s.clientId s.started taken.1.toNat
      front := Function.update s.front s.started .reading
      back := Function.update s.back s.started .receiving }

def WsSystem.respond (s : WsSystem) (r : Request) (routerId : ℕ) (subscription : Bool) :
    WsSystem :=
  { s with messages := s.messages ++ [⟨r.owner, routerId, .response subscription⟩] }

/-- The request r is handled; it is no longer among the requests of s. -/
def serve (s : WsSystem) (r : Request) (effect : Effect) : Option (WsSystem × Output) :=
  match r.action, effect with
  | .killSubscriptions _, .kill =>
      some ({ s with subscriptionList := s.subscriptionList.filter (·.routerId ≠ r.routerId) },
        .killed r.owner (s.subscriptionList.filter (·.routerId = r.routerId)))
  | .killSubscriptions false, _ => none
  | .subscribe, .subscribe subscription =>
      let s' := s.respond r r.routerId subscription
      some ({ s' with subscriptionList := s.subscriptionList ++ [⟨r.owner, r.routerId⟩] }, .nothing)
  | .unsubscribe, .unsubscribe k subscription =>
      let s' := s.respond r r.routerId subscription
      some ({ s' with subscriptionList := s.subscriptionList.eraseIdx k }, .nothing)
  | .cancelSubscription, .silent => some (s, .nothing)
  | _, .answer routerId subscription => some (s.respond r routerId subscription, .nothing)
  | _, _ => none

def notificationOf (e : SubscriptionState) : Message := ⟨e.owner, e.routerId, .notification⟩

/-- removeRoutingForwardResponse: the channel to the backend of a session for all texts with
the word subscription, the channel to its frontend for the others. -/
def toBackend : Kind → Bool
  | .response subscription => subscription
  | .notification => true

def step (s : WsSystem) : Event → Option (WsSystem × Output)
  | .connect => some (connect s, .nothing)
  | .read n action routerId =>
      if s.front n = .reading ∧ action ≠ .killSubscriptions false then
        some (s.setFront n (.sending action routerId), .nothing)
      else none
  | .readError n =>
      if s.front n = .reading then some (s.setFront n .killing, .nothing) else none
  | .hubRequest n =>
      match s.hub, s.front n with
      | .select, .sending action routerId =>
          some ({ s.setFront n .awaiting with hub := .forwarding ⟨n, routerId, action⟩ }, .nothing)
      | .select, .killing =>
          some ({ s.setFront n .sleeping with
            hub := .forwarding ⟨n, s.clientId n, .killSubscriptions false⟩ }, .nothing)
      | _, _ => none
  | .hubForward =>
      match s.hub with
      | .forwarding r => some ({ s with hub := .select, requests := s.requests ++ [r] }, .nothing)
      | _ => none
  | .serve effect =>
      match s.requests with
      | r :: requests => serve { s with requests } r effect
      | [] => none
  | .notify k => s.subscriptionList[k]?.map fun e =>
      ({ s with messages := s.messages ++ [notificationOf e] }, .nothing)
  | .cancel k => s.subscriptionList[k]?.map fun e =>
      -- the session is told, and the first subscription with its RouterId removed
      ({ s with messages := s.messages ++ [notificationOf e]
                subscriptionList := s.subscriptionList.eraseP (·.routerId = e.routerId) },
        .nothing)
  | .hubMessage k =>
      match s.hub, s.messages[k]? with
      | .select, some m =>
          some ({ s with hub := .delivering m, messages := s.messages.eraseIdx k }, .nothing)
      | _, _ => none
  | .deliver n =>
      match s.hub with
      | .delivering m =>
          if s.clientId n = m.routerId then
            if toBackend m.kind then
              if s.back n = .receiving then
                some ({ s.setBack n (.writing m) with hub := .select }, .nothing)
              else none
            else if s.front n = .awaiting then
              some ({ s.setFront n (.answering m) with hub := .select }, .nothing)
            else none
          else none
      | _ => none
  | .answer n b =>
      match s.front n with
      | .answering m =>
          if s.clientId n = s.clientId b ∧ s.back b = .receiving then
            some ((s.setFront n .reading).setBack b (.writing m), .nothing)
          else none
      | _ => none
  | .written b =>
      match s.back b with
      | .writing m => some (s.setBack b .receiving, .written b m)
      | _ => none
  | .wake n =>
      if s.front n = .sleeping then some (s.setFront n .terminating, .nothing) else none
  | .terminate n b =>
      if s.front n = .terminating ∧ s.clientId n = s.clientId b ∧ s.back b = .receiving then
        some ((s.setFront n .returning).setBack b .ended, .nothing)
      else none
  | .returnIndex n =>
      if s.front n = .returning then
        some ({ s.setFront n .ended with
          wsClientIndexList := returnWsClientIndex s.wsClientIndexList (s.clientId n) }, .nothing)
      else none

/-- The requests on their way to the service manager, the next one first. -/
def WsSystem.queue (s : WsSystem) : List Request :=
  s.requests ++ match s.hub with
    | .forwarding r => [r]
    | _ => []

/-- The messages on their way to the sessions. -/
def WsSystem.flight (s : WsSystem) : List Message :=
  s.messages ++ match s.hub with
    | .delivering m => [m]
    | _ => []

/-- No later session took the index of the session. -/
def Latest (started : ℕ) (clientId : ℕ → ℕ) (n : ℕ) : Prop :=
  ∀ n' < started, n < n' → clientId n' ≠ clientId n

/-- What goes to the client of a session was caused by its requests, and a kill removes no
subscription of a later session. -/
def Output.Owned : Output → Prop
  | .nothing => True
  | .written n m => m.owner = n
  | .killed n removed => ∀ e ∈ removed, e.owner ≤ n

/-- The RouterId of a request names the index of its session, and that of an answer is the
one of its request; no notification is on its way to an index that a session takes, and none
is made for a session whose index has been taken. -/
def Clear (s : WsSystem) : Event → Prop
  | .hubRequest n => ∀ routerId ∈ (s.front n).routerId, routerId = s.clientId n
  | .serve (.answer routerId _) => ∀ r ∈ s.requests.head?, routerId = r.routerId
  | .connect => ∀ m ∈ s.flight, m.kind = .notification →
      (m.routerId : ℤ) ≠ (getWsClientIndex s.wsClientIndexList).1
  | .notify k | .cancel k => ∀ e ∈ s.subscriptionList[k]?, Latest s.started s.clientId e.owner
  | _ => True

/-! ## Slots -/

/-- An index is held by its latest session only, until this gives it back. -/
structure Slots (list : ClientIndexList) (started : ℕ) (clientId : ℕ → ℕ) (front : ℕ → Front)
    (back : ℕ → Back) : Prop where
  fresh : ∀ n, started ≤ n → front n = .ended ∧ back n = .ended
  latest : ∀ n, front n ≠ .ended → Latest started clientId n
  marked : ∀ n, front n ≠ .ended → list[clientId n]? = some false
  closed : ∀ n, front n = .ended ∨ front n = .returning → back n = .ended

section Slots

variable {list : ClientIndexList} {started n b : ℕ} {clientId : ℕ → ℕ} {front : ℕ → Front}
  {back : ℕ → Back} {f : Front} {k : Back}

theorem Slots.live_of_back (h : Slots list started clientId front back) (hb : back b ≠ .ended) :
    front b ≠ .ended :=
  fun hf => hb (h.closed b (.inl hf))

theorem Slots.lt_started (h : Slots list started clientId front back) (hn : front n ≠ .ended) :
    n < started :=
  Nat.lt_of_not_le fun hle => hn (h.fresh n hle).1

/-- Two live sessions have different indices. -/
theorem Slots.unique (h : Slots list started clientId front back) (hn : front n ≠ .ended)
    (hb : front b ≠ .ended) (heq : clientId n = clientId b) : b = n := by
  rcases Nat.lt_trichotomy b n with hlt | rfl | hlt
  · exact absurd heq (h.latest b hb n (h.lt_started hn) hlt)
  · rfl
  · exact absurd heq.symm (h.latest n hn b (h.lt_started hb) hlt)

/-- The latest session of an index is the one that receives for it. -/
theorem Slots.eq_of_latest (h : Slots list started clientId front back)
    (hn : Latest started clientId n) (hlt : n < started) (hb : back b ≠ .ended)
    (heq : clientId b = clientId n) : n = b := by
  have hlive := h.live_of_back hb
  rcases Nat.lt_trichotomy b n with hbn | rfl | hnb
  · exact absurd heq.symm (h.latest b hlive n hlt hbn)
  · rfl
  · exact absurd heq (hn b (h.lt_started hlive) hnb)

theorem Slots.setFront (h : Slots list started clientId front back) (hn : front n ≠ .ended)
    (hf : f = .returning → back n = .ended) (hne : f ≠ .ended) :
    Slots list started clientId (Function.update front n f) back where
  fresh n' hle := by
    have hne' : n' ≠ n := fun heq => hn (heq ▸ (h.fresh n' hle).1)
    rw [Function.update_of_ne hne']
    exact h.fresh n' hle
  latest n' hlive := by
    by_cases heq : n' = n
    · rw [heq]
      exact h.latest n hn
    · rw [Function.update_of_ne heq] at hlive
      exact h.latest n' hlive
  marked n' hlive := by
    by_cases heq : n' = n
    · rw [heq]
      exact h.marked n hn
    · rw [Function.update_of_ne heq] at hlive
      exact h.marked n' hlive
  closed n' hend := by
    by_cases heq : n' = n
    · subst heq
      rw [Function.update_self] at hend
      rcases hend with hend | hend
      · exact absurd hend hne
      · exact hf hend
    · rw [Function.update_of_ne heq] at hend
      exact h.closed n' hend

theorem Slots.setBack (h : Slots list started clientId front back) (hb : back b ≠ .ended) :
    Slots list started clientId front (Function.update back b k) where
  fresh n hle := by
    have hne : n ≠ b := fun heq => hb (heq ▸ (h.fresh n hle).2)
    rw [Function.update_of_ne hne]
    exact h.fresh n hle
  latest := h.latest
  marked := h.marked
  closed n hend := by
    have hne : n ≠ b := fun heq => hb (heq ▸ h.closed n hend)
    rw [Function.update_of_ne hne]
    exact h.closed n hend

/-- A session gives its index back. -/
theorem Slots.giveBack (h : Slots list started clientId front back)
    (hn : front n = .returning) :
    Slots (returnWsClientIndex list (clientId n)) started clientId
      (Function.update front n .ended) back where
  fresh n' hle := by
    by_cases heq : n' = n
    · subst heq
      exact ⟨Function.update_self .., (h.fresh n' hle).2⟩
    · rw [Function.update_of_ne heq]
      exact h.fresh n' hle
  latest n' hlive := by
    have hne : n' ≠ n := by
      rintro rfl
      exact hlive (Function.update_self ..)
    rw [Function.update_of_ne hne] at hlive
    exact h.latest n' hlive
  marked n' hlive := by
    have hne : n' ≠ n := by
      rintro rfl
      exact hlive (Function.update_self ..)
    rw [Function.update_of_ne hne] at hlive
    have hlive' : front n ≠ .ended := by
      rw [hn]
      decide
    exact occupied_other (fun heq => hne (h.unique hlive' hlive heq)) (h.marked n' hlive)
  closed n' hend := by
    by_cases heq : n' = n
    · subst heq
      exact h.closed n' (.inr hn)
    · rw [Function.update_of_ne heq] at hend
      exact h.closed n' hend

/-- A session starts on a free index. -/
theorem Slots.connect {c : ℕ} (h : Slots list started clientId front back)
    (hc : list[c]? = some true) :
    Slots (list.set c false) (started + 1) (Function.update clientId started c)
      (Function.update front started .reading) (Function.update back started .receiving) where
  fresh n hle := by
    have hne : n ≠ started := by omega
    rw [Function.update_of_ne hne, Function.update_of_ne hne]
    exact h.fresh n (by omega)
  latest n hlive n' hlt hnn' := by
    have hne : n ≠ started := by omega
    rw [Function.update_of_ne hne] at hlive ⊢
    by_cases heq : n' = started
    · rw [heq, Function.update_self]
      intro hindex
      have hmark := h.marked n hlive
      rw [← hindex, hc] at hmark
      exact absurd hmark (by decide)
    · rw [Function.update_of_ne heq]
      exact h.latest n hlive n' (by omega) hnn'
  marked n hlive := by
    by_cases heq : n = started
    · rw [heq, Function.update_self]
      exact List.getElem?_set_self (List.getElem?_eq_some_iff.mp hc).1
    · rw [Function.update_of_ne heq] at hlive ⊢
      have hmark := h.marked n hlive
      have hne : c ≠ clientId n := by
        intro hindex
        rw [← hindex, hc] at hmark
        exact absurd hmark (by decide)
      exact occupied_other hne hmark
  closed n hend := by
    have hne : n ≠ started := by
      rintro rfl
      simp at hend
    rw [Function.update_of_ne hne] at hend ⊢
    exact h.closed n hend

end Slots

/-! ## Traffic -/

/-- Requests, messages and subscriptions name the index of their session; for one index those
of later sessions come later, and notifications are for its latest session. -/
structure Traffic (started : ℕ) (clientId : ℕ → ℕ) (queue : List Request)
    (flight : List Message) (entries : List SubscriptionState) : Prop where
  requests : ∀ r ∈ queue, r.owner < started ∧ r.routerId = clientId r.owner
  messages : ∀ m ∈ flight, m.owner < started ∧ m.routerId = clientId m.owner
  subscriptions : ∀ e ∈ entries, e.owner < started ∧ e.routerId = clientId e.owner
  sorted : queue.Pairwise fun r r' => r.routerId = r'.routerId → r.owner ≤ r'.owner
  older : ∀ e ∈ entries, ∀ r ∈ queue, e.routerId = r.routerId → e.owner ≤ r.owner
  notified : ∀ m ∈ flight, m.kind = .notification → Latest started clientId m.owner

section Traffic

variable {started n c : ℕ} {clientId : ℕ → ℕ} {queue queue' : List Request}
  {flight flight' : List Message} {entries entries' : List SubscriptionState} {r : Request}
  {m : Message}

theorem Latest.le {n' : ℕ} (h : Latest started clientId n) (hlt : n' < started)
    (heq : clientId n' = clientId n) : n' ≤ n :=
  Nat.le_of_not_lt fun hn => h n' hlt hn heq

theorem Traffic.mono (h : Traffic started clientId queue flight entries)
    (hqueue : queue'.Sublist queue) (hflight : flight' ⊆ flight) (hentries : entries' ⊆ entries) :
    Traffic started clientId queue' flight' entries' where
  requests r hr := h.requests r (hqueue.subset hr)
  messages m hm := h.messages m (hflight hm)
  subscriptions e he := h.subscriptions e (hentries he)
  sorted := h.sorted.sublist hqueue
  older e he r hr := h.older e (hentries he) r (hqueue.subset hr)
  notified m hm := h.notified m (hflight hm)

/-- A request of the latest session joins the queue. -/
theorem Traffic.addRequest (h : Traffic started clientId queue flight entries)
    (hlatest : Latest started clientId r.owner) (hlt : r.owner < started)
    (hrouter : r.routerId = clientId r.owner) :
    Traffic started clientId (queue ++ [r]) flight entries where
  requests r' hr' := by
    rcases List.mem_append.mp hr' with hr' | hr'
    · exact h.requests r' hr'
    · rw [List.mem_singleton.mp hr']
      exact ⟨hlt, hrouter⟩
  messages := h.messages
  subscriptions := h.subscriptions
  sorted := by
    refine List.pairwise_append.mpr ⟨h.sorted, List.pairwise_singleton _ _, ?_⟩
    intro r' hr' r'' hr'' heq
    obtain ⟨hlt', hrouter'⟩ := h.requests r' hr'
    rw [List.mem_singleton.mp hr''] at heq ⊢
    exact hlatest.le hlt' (hrouter'.symm.trans (heq.trans hrouter))
  older e he r' hr' heq := by
    rcases List.mem_append.mp hr' with hr' | hr'
    · exact h.older e he r' hr' heq
    · obtain ⟨hlt', hrouter'⟩ := h.subscriptions e he
      rw [List.mem_singleton.mp hr'] at heq ⊢
      exact hlatest.le hlt' (hrouter'.symm.trans (heq.trans hrouter))
  notified := h.notified

theorem Traffic.addMessage (h : Traffic started clientId queue flight entries)
    (hm : m.owner < started ∧ m.routerId = clientId m.owner)
    (hlatest : m.kind = .notification → Latest started clientId m.owner)
    (hflight : ∀ m' ∈ flight', m' ∈ flight ∨ m' = m) :
    Traffic started clientId queue flight' entries where
  requests := h.requests
  messages m' hm' := by
    rcases hflight m' hm' with hmem | rfl
    · exact h.messages m' hmem
    · exact hm
  subscriptions := h.subscriptions
  sorted := h.sorted
  older := h.older
  notified m' hm' := by
    rcases hflight m' hm' with hmem | rfl
    · exact h.notified m' hmem
    · exact hlatest

/-- The subscription of the first request of the queue. -/
theorem Traffic.subscribe (h : Traffic started clientId (r :: queue) flight entries) :
    Traffic started clientId queue flight (entries ++ [⟨r.owner, r.routerId⟩]) where
  requests r' hr' := h.requests r' (List.mem_cons_of_mem r hr')
  messages := h.messages
  subscriptions e he := by
    rcases List.mem_append.mp he with he | he
    · exact h.subscriptions e he
    · rw [List.mem_singleton.mp he]
      exact h.requests r List.mem_cons_self
  sorted := (List.pairwise_cons.mp h.sorted).2
  older e he r' hr' heq := by
    rcases List.mem_append.mp he with he | he
    · exact h.older e he r' (List.mem_cons_of_mem r hr') heq
    · rw [List.mem_singleton.mp he] at heq ⊢
      exact (List.pairwise_cons.mp h.sorted).1 r' hr' heq
  notified := h.notified

theorem Latest.connect (h : Latest started clientId n) (hlt : n < started)
    (hne : c ≠ clientId n) :
    Latest (started + 1) (Function.update clientId started c) n := by
  intro n' hlt' hnn'
  rw [Function.update_of_ne (by omega : n ≠ started)]
  by_cases heq : n' = started
  · rw [heq, Function.update_self]
    exact hne
  · rw [Function.update_of_ne heq]
    exact h n' (by omega) hnn'

/-- A session starts on an index for which no notification is on its way. -/
theorem Traffic.connect (h : Traffic started clientId queue flight entries)
    (hclear : ∀ m ∈ flight, m.kind = .notification → m.routerId ≠ c) :
    Traffic (started + 1) (Function.update clientId started c) queue flight entries := by
  have hold : ∀ {owner routerId : ℕ}, owner < started ∧ routerId = clientId owner →
      owner < started + 1 ∧ routerId = Function.update clientId started c owner := by
    rintro owner routerId ⟨hlt, hrouter⟩
    refine ⟨by omega, ?_⟩
    rw [Function.update_of_ne (by omega)]
    exact hrouter
  refine ⟨fun r hr => hold (h.requests r hr), fun m hm => hold (h.messages m hm),
    fun e he => hold (h.subscriptions e he), h.sorted, h.older, fun m hm hkind => ?_⟩
  obtain ⟨hlt, hrouter⟩ := h.messages m hm
  refine (h.notified m hm hkind).connect hlt fun heq => ?_
  exact hclear m hm hkind (hrouter.trans heq.symm)

end Traffic

/-! ## Turns -/

def awaitsAnswer (r : Request) : Bool := r.action ≠ .killSubscriptions false

def isResponse : Kind → Bool
  | .response _ => true
  | .notification => false

/-- The sessions with a request or a response on its way. -/
def pendingOf (queue : List Request) (flight : List Message) : Multiset ℕ :=
  ((queue.filter awaitsAnswer).map (·.owner) : Multiset ℕ) +
    ((flight.filter fun m => isResponse m.kind).map (·.owner) : Multiset ℕ)

/-- A session waits for one answer at most, and what it got is its own. -/
structure Turns (pending : Multiset ℕ) (front : ℕ → Front) (back : ℕ → Back) : Prop where
  nodup : pending.Nodup
  awaiting : ∀ n ∈ pending, front n = .awaiting
  answering : ∀ n m, front n = .answering m → m.owner = n
  writing : ∀ n m, back n = .writing m → m.owner = n

section Turns

variable {pending pending' : Multiset ℕ} {front : ℕ → Front} {back : ℕ → Back} {n b : ℕ}
  {f : Front} {k : Back} {queue : List Request} {flight : List Message} {r : Request}
  {m : Message}

theorem Turns.mono (h : Turns pending front back) (hle : pending' ≤ pending) :
    Turns pending' front back where
  nodup := Multiset.nodup_of_le hle h.nodup
  awaiting n hn := h.awaiting n (Multiset.mem_of_le hle hn)
  answering := h.answering
  writing := h.writing

theorem Turns.not_pending (h : Turns pending front back) (hn : front n ≠ .awaiting) :
    n ∉ pending :=
  fun hmem => hn (h.awaiting n hmem)

theorem Turns.setFront (h : Turns pending front back) (hn : n ∉ pending)
    (hf : ∀ m, f = .answering m → m.owner = n) :
    Turns pending (Function.update front n f) back where
  nodup := h.nodup
  awaiting n' hn' := by
    have hne : n' ≠ n := fun heq => hn (heq ▸ hn')
    rw [Function.update_of_ne hne]
    exact h.awaiting n' hn'
  answering n' m hm := by
    by_cases heq : n' = n
    · rw [heq, Function.update_self] at hm
      rw [heq]
      exact hf m hm
    · rw [Function.update_of_ne heq] at hm
      exact h.answering n' m hm
  writing := h.writing

theorem Turns.setBack (h : Turns pending front back) (hk : ∀ m, k = .writing m → m.owner = b) :
    Turns pending front (Function.update back b k) where
  nodup := h.nodup
  awaiting := h.awaiting
  answering := h.answering
  writing n m hm := by
    by_cases heq : n = b
    · rw [heq, Function.update_self] at hm
      rw [heq]
      exact hk m hm
    · rw [Function.update_of_ne heq] at hm
      exact h.writing n m hm

theorem Turns.request (h : Turns pending front back) (hn : n ∉ pending) :
    Turns (n ::ₘ pending) (Function.update front n .awaiting) back := by
  have hset : Turns pending (Function.update front n .awaiting) back :=
    h.setFront hn fun m hm => by cases hm
  refine ⟨Multiset.nodup_cons.mpr ⟨hn, h.nodup⟩, fun n' hn' => ?_, hset.answering, hset.writing⟩
  rcases Multiset.mem_cons.mp hn' with rfl | hn'
  · exact Function.update_self ..
  · exact hset.awaiting n' hn'

theorem pendingOf_addRequest (queue : List Request) (flight : List Message) (r : Request) :
    pendingOf (queue ++ [r]) flight =
      (if awaitsAnswer r then {r.owner} else 0) + pendingOf queue flight := by
  unfold pendingOf
  rw [List.filter_append, List.map_append, ← Multiset.coe_add]
  by_cases hr : awaitsAnswer r
  · simp only [hr, List.filter_cons_of_pos, List.filter_nil, List.map_cons, List.map_nil,
      if_true, Multiset.coe_singleton]
    rw [Multiset.add_comm (Multiset.ofList _) {r.owner}, Multiset.add_assoc]
  · simp [hr]

theorem pendingOf_cons (queue : List Request) (flight : List Message) (r : Request) :
    pendingOf (r :: queue) flight =
      (if awaitsAnswer r then {r.owner} else 0) + pendingOf queue flight := by
  unfold pendingOf
  by_cases hr : awaitsAnswer r
  · simp only [hr, List.filter_cons_of_pos, List.map_cons, if_true, ← Multiset.cons_coe]
    rw [Multiset.cons_add, Multiset.singleton_add]
  · simp [hr]

theorem pendingOf_perm {flight' : List Message} (h : flight'.Perm flight) :
    pendingOf queue flight' = pendingOf queue flight := by
  unfold pendingOf
  rw [Multiset.coe_eq_coe.mpr ((h.filter _).map _)]

theorem pendingOf_addMessage (queue : List Request) (flight : List Message) (m : Message) :
    pendingOf queue (m :: flight) =
      (if isResponse m.kind then {m.owner} else 0) + pendingOf queue flight := by
  unfold pendingOf
  by_cases hm : isResponse m.kind
  · simp only [hm, List.filter_cons_of_pos, List.map_cons, if_true, ← Multiset.cons_coe]
    rw [Multiset.add_cons, Multiset.singleton_add]
  · simp [hm]

end Turns

/-! ## Steps -/

/-- The invariant of clear runs. -/
structure Isolated (s : WsSystem) : Prop where
  slots : Slots s.wsClientIndexList s.started s.clientId s.front s.back
  traffic : Traffic s.started s.clientId s.queue s.flight s.subscriptionList
  turns : Turns (pendingOf s.queue s.flight) s.front s.back

section Steps

variable {s s' : WsSystem} {o : Output} {n b k : ℕ} {r : Request} {m : Message}
  {requests : List Request}

theorem isolated_init : Isolated initialSystem where
  slots := ⟨fun _ _ => ⟨rfl, rfl⟩, fun _ h => absurd rfl h, fun _ h => absurd rfl h,
    fun _ _ => rfl⟩
  traffic := ⟨nofun, nofun, nofun, .nil, nofun, nofun⟩
  turns := ⟨Multiset.nodup_zero, fun _ h => absurd h (Multiset.notMem_zero _), nofun, nofun⟩

/-- A step of one session that neither takes nor sends a message. -/
theorem Isolated.setFront {f f' : Front} (hs : Isolated s) (hfront : s.front n = f)
    (hlive : f ≠ .ended) (hwait : f ≠ .awaiting) (hne : f' ≠ .ended) (hret : f' ≠ .returning)
    (hanswer : ∀ m, f' ≠ .answering m) : Isolated (s.setFront n f') where
  slots := hs.slots.setFront (hfront ▸ hlive) (fun h => absurd h hret) hne
  traffic := hs.traffic
  turns := hs.turns.setFront (hs.turns.not_pending (hfront ▸ hwait)) fun m h =>
    absurd h (hanswer m)

theorem Isolated.connect (hs : Isolated s) (hC : Clear s .connect) : Isolated (connect s) := by
  unfold Isolation.connect
  rcases getWsClientIndex_cases s.wsClientIndexList with ⟨c, hget, htrue⟩ | ⟨hget, -⟩
  · have hne : (c : ℤ) ≠ -1 := by omega
    simp only [hget, if_neg hne, Int.toNat_natCast]
    have hclear : ∀ m ∈ s.flight, m.kind = .notification → m.routerId ≠ c := by
      intro m hm hkind heq
      exact hC m hm hkind (by rw [hget, heq])
    have hidle : s.started ∉ pendingOf s.queue s.flight := by
      intro hmem
      have hwait := hs.turns.awaiting _ hmem
      rw [(hs.slots.fresh s.started (Nat.le_refl _)).1] at hwait
      cases hwait
    have hfront : Turns (pendingOf s.queue s.flight)
        (Function.update s.front s.started .reading) s.back := hs.turns.setFront hidle nofun
    exact ⟨hs.slots.connect htrue, hs.traffic.connect hclear, hfront.setBack nofun⟩
  · simp only [hget, if_true]
    exact hs

/-- The hub takes a request, or the kill of a session. -/
theorem Isolated.takeRequest {f f' : Front} (hs : Isolated s) (hhub : s.hub = .select)
    (hfront : s.front n = f) (hlive : f ≠ .ended) (hwait : f ≠ .awaiting) (howner : r.owner = n)
    (hrouter : r.routerId = s.clientId n)
    (hf : f' = .awaiting ∨ awaitsAnswer r = false ∧ f' = .sleeping) :
    Isolated { s.setFront n f' with hub := .forwarding r } := by
  have hn : s.front n ≠ .ended := hfront ▸ hlive
  have hnot := hs.turns.not_pending (hfront ▸ hwait)
  have hqueue : s.queue = s.requests := by
    rw [WsSystem.queue, hhub]
    exact List.append_nil _
  have hflight : s.flight = s.messages := by
    rw [WsSystem.flight, hhub]
    exact List.append_nil _
  obtain ⟨hslots, htraffic, hturns⟩ := hs
  rw [hqueue, hflight] at htraffic hturns hnot
  have hmessages : s.messages ++ [] = s.messages := List.append_nil _
  refine ⟨hslots.setFront hn ?_ ?_, ?_, ?_⟩
  · rcases hf with rfl | ⟨-, rfl⟩ <;> exact nofun
  · rcases hf with rfl | ⟨-, rfl⟩ <;> exact nofun
  · change Traffic s.started s.clientId (s.requests ++ [r]) (s.messages ++ []) s.subscriptionList
    rw [hmessages]
    refine htraffic.addRequest ?_ ?_ ?_
    · rw [howner]
      exact hslots.latest n hn
    · rw [howner]
      exact hslots.lt_started hn
    · rw [howner, hrouter]
  · change Turns (pendingOf (s.requests ++ [r]) (s.messages ++ [])) _ _
    rw [hmessages, pendingOf_addRequest, howner]
    rcases hf with rfl | ⟨hr, rfl⟩
    · refine (hturns.request hnot).mono ?_
      rw [← Multiset.singleton_add]
      split
      · exact le_refl _
      · exact Multiset.add_le_add_right (Multiset.zero_le _)
    · rw [if_neg (by simp [hr]), Multiset.zero_add]
      exact hturns.setFront hnot nofun

theorem Isolated.hubRequest (hs : Isolated s) (hC : Clear s (.hubRequest n))
    (hstep : step s (.hubRequest n) = some (s', o)) : Isolated s' ∧ o.Owned := by
  simp only [step] at hstep
  split at hstep
  · next action routerId hhub hfront =>
    obtain ⟨rfl, rfl⟩ := Prod.mk.inj (Option.some.inj hstep)
    have hrouter : routerId = s.clientId n := hC routerId (by rw [hfront]; rfl)
    exact ⟨hs.takeRequest hhub hfront nofun nofun rfl hrouter (.inl rfl), trivial⟩
  · next hhub hfront =>
    obtain ⟨rfl, rfl⟩ := Prod.mk.inj (Option.some.inj hstep)
    exact ⟨hs.takeRequest hhub hfront nofun nofun rfl rfl (.inr ⟨rfl, rfl⟩), trivial⟩
  · cases hstep

theorem queue_of_requests (hrequests : s.requests = r :: requests) :
    s.queue = r :: ({ s with requests } : WsSystem).queue := by
  rw [WsSystem.queue, hrequests]
  rfl

/-- A new message joins the others in front of the one that the hub has. -/
theorem flight_perm (s : WsSystem) (m : Message) :
    ({ s with messages := s.messages ++ [m] } : WsSystem).flight.Perm (m :: s.flight) := by
  change ((s.messages ++ [m]) ++ _).Perm (m :: (s.messages ++ _))
  rw [List.append_assoc]
  exact List.perm_middle

theorem mem_flight_add {m' : Message}
    (h : m' ∈ ({ s with messages := s.messages ++ [m] } : WsSystem).flight) :
    m' ∈ s.flight ∨ m' = m := by
  rcases List.mem_cons.mp ((flight_perm s m).mem_iff.mp h) with rfl | h
  · exact .inr rfl
  · exact .inl h

theorem pendingOf_flight_add (queue : List Request) (s : WsSystem) (m : Message) :
    pendingOf queue ({ s with messages := s.messages ++ [m] } : WsSystem).flight =
      (if isResponse m.kind then {m.owner} else 0) + pendingOf queue s.flight := by
  rw [pendingOf_perm (flight_perm s m), pendingOf_addMessage]

/-- The request at the head of the queue leaves it without an answer. -/
theorem Isolated.dropRequest {subscriptionList : List SubscriptionState} (hs : Isolated s)
    (hrequests : s.requests = r :: requests)
    (hsubset : subscriptionList ⊆ s.subscriptionList) :
    Isolated { s with requests, subscriptionList } where
  slots := hs.slots
  traffic := by
    refine hs.traffic.mono ?_ (List.Subset.refl _) hsubset
    rw [queue_of_requests hrequests]
    exact List.sublist_cons_self r _
  turns := by
    have hturns := hs.turns
    rw [queue_of_requests hrequests, pendingOf_cons] at hturns
    exact hturns.mono (Multiset.le_add_left _ _)

/-- The request at the head of the queue is answered. -/
theorem Isolated.respond {subscription : Bool} {subscriptionList : List SubscriptionState}
    (hs : Isolated s) (hrequests : s.requests = r :: requests) (hr : awaitsAnswer r)
    (htraffic : Traffic s.started s.clientId ({ s with requests } : WsSystem).queue s.flight
      subscriptionList) :
    Isolated { ({ s with requests } : WsSystem).respond r r.routerId subscription with
      subscriptionList } := by
  have hqueue := queue_of_requests hrequests
  have hmem : r ∈ s.queue := by
    rw [hqueue]
    exact List.mem_cons_self
  refine ⟨hs.slots, ?_, ?_⟩
  · exact htraffic.addMessage (m := ⟨r.owner, r.routerId, .response subscription⟩)
      (hs.traffic.requests r hmem) nofun fun m' hm' => mem_flight_add hm'
  · have hturns := hs.turns
    rw [hqueue, pendingOf_cons, if_pos hr] at hturns
    have hadd : pendingOf ({ s with requests } : WsSystem).queue
        ({ s with messages := s.messages ++ [⟨r.owner, r.routerId, .response subscription⟩] } :
          WsSystem).flight =
        {r.owner} + pendingOf ({ s with requests } : WsSystem).queue s.flight :=
      pendingOf_flight_add ..
    rw [← hadd] at hturns
    exact hturns

theorem serve_isolated {effect : Effect} (hs : Isolated s) (hrequests : s.requests = r :: requests)
    (hC : ∀ routerId subscription, effect = .answer routerId subscription → routerId = r.routerId)
    (hserve : serve { s with requests } r effect = some (s', o)) : Isolated s' ∧ o.Owned := by
  have hqueue := queue_of_requests hrequests
  have htraffic : Traffic s.started s.clientId ({ s with requests } : WsSystem).queue s.flight
      s.subscriptionList := by
    refine hs.traffic.mono ?_ (List.Subset.refl _) (List.Subset.refl _)
    rw [hqueue]
    exact List.sublist_cons_self r _
  have hanswered : ∀ subscription, r.action ≠ .killSubscriptions false →
      Isolated (({ s with requests } : WsSystem).respond r r.routerId subscription) :=
    fun subscription hr => hs.respond hrequests (decide_eq_true hr) htraffic
  unfold serve at hserve
  split at hserve
  · next byClient haction =>
    obtain ⟨rfl, rfl⟩ := Prod.mk.inj (Option.some.inj hserve)
    refine ⟨hs.dropRequest hrequests (List.filter_subset_self _), ?_⟩
    intro e he
    obtain ⟨hmem, hrouter⟩ := List.mem_filter.mp he
    refine hs.traffic.older e hmem r ?_ (of_decide_eq_true hrouter)
    rw [hqueue]
    exact List.mem_cons_self
  · cases hserve
  · next subscription haction =>
    obtain ⟨rfl, rfl⟩ := Prod.mk.inj (Option.some.inj hserve)
    refine ⟨hs.respond hrequests (by simp [awaitsAnswer, haction]) ?_, trivial⟩
    have htraffic := hs.traffic
    rw [hqueue] at htraffic
    exact htraffic.subscribe
  · next k subscription haction =>
    obtain ⟨rfl, rfl⟩ := Prod.mk.inj (Option.some.inj hserve)
    refine ⟨hs.respond hrequests (by simp [awaitsAnswer, haction]) ?_, trivial⟩
    exact htraffic.mono (List.Sublist.refl _) (List.Subset.refl _) (List.eraseIdx_subset ..)
  · obtain ⟨rfl, rfl⟩ := Prod.mk.inj (Option.some.inj hserve)
    exact ⟨hs.dropRequest hrequests (List.Subset.refl _), trivial⟩
  · next routerId subscription haction =>
    obtain ⟨rfl, rfl⟩ := Prod.mk.inj (Option.some.inj hserve)
    rw [hC routerId subscription rfl]
    exact ⟨hanswered subscription haction, trivial⟩
  · cases hserve

/-- A notification is sent to the latest session of its index. -/
theorem Isolated.notify {e : SubscriptionState} {subscriptionList : List SubscriptionState}
    (hs : Isolated s) (he : e ∈ s.subscriptionList)
    (hlatest : Latest s.started s.clientId e.owner)
    (hsubset : subscriptionList ⊆ s.subscriptionList) :
    Isolated { s with messages := s.messages ++ [notificationOf e], subscriptionList } where
  slots := hs.slots
  traffic := by
    have htraffic := hs.traffic.mono (List.Sublist.refl _) (List.Subset.refl _) hsubset
    exact htraffic.addMessage (m := notificationOf e) (hs.traffic.subscriptions e he)
      (fun _ => hlatest) fun m' hm' => mem_flight_add hm'
  turns := by
    have hadd : pendingOf s.queue
        ({ s with messages := s.messages ++ [notificationOf e] } : WsSystem).flight =
          0 + pendingOf s.queue s.flight := pendingOf_flight_add ..
    have hturns := hs.turns
    rw [← Multiset.zero_add (pendingOf s.queue s.flight), ← hadd] at hturns
    exact hturns

/-- The hub takes a message. -/
theorem Isolated.hubMessage (hs : Isolated s) (hhub : s.hub = .select)
    (hk : s.messages[k]? = some m) :
    Isolated { s with hub := .delivering m, messages := s.messages.eraseIdx k } := by
  have hqueue : s.queue = s.requests ++ [] := by rw [WsSystem.queue, hhub]
  have hflight : s.flight = s.messages := by
    rw [WsSystem.flight, hhub]
    exact List.append_nil _
  have hperm : (s.messages.eraseIdx k ++ [m]).Perm s.flight := by
    rw [hflight]
    obtain ⟨hlt, rfl⟩ := List.getElem?_eq_some_iff.mp hk
    exact List.perm_append_singleton .. |>.trans (List.getElem_cons_eraseIdx_perm hlt)
  obtain ⟨hslots, htraffic, hturns⟩ := hs
  rw [hqueue] at htraffic hturns
  refine ⟨hslots, htraffic.mono (List.Sublist.refl _) hperm.subset (List.Subset.refl _), ?_⟩
  rw [← pendingOf_perm hperm] at hturns
  exact hturns

/-- The message that the hub delivers, and the others. -/
theorem flight_delivering (hhub : s.hub = .delivering m) :
    s.flight.Perm (m :: ({ s with hub := .select } : WsSystem).flight) := by
  have hflight : s.flight = s.messages ++ [m] := by rw [WsSystem.flight, hhub]
  rw [hflight]
  exact (List.perm_append_singleton m s.messages).trans
    (List.Perm.cons m (by rw [WsSystem.flight, List.append_nil]))

/-- The hub has sent its message, which is not on its way any more. -/
theorem Isolated.sent (hs : Isolated s) (hhub : s.hub = .delivering m) :
    Isolated { s with hub := .select } ∧
      (isResponse m.kind = true →
        m.owner ∉ pendingOf s.requests ({ s with hub := .select } : WsSystem).flight ∧
          s.front m.owner = .awaiting) := by
  have hqueue : s.queue = s.requests ++ [] := by rw [WsSystem.queue, hhub]
  have hperm := flight_delivering hhub
  obtain ⟨hslots, htraffic, hturns⟩ := hs
  rw [pendingOf_perm hperm, pendingOf_addMessage] at hturns
  rw [hqueue] at htraffic hturns
  refine ⟨⟨hslots, htraffic.mono (List.Sublist.refl _) ?_ (List.Subset.refl _),
    hturns.mono (Multiset.le_add_left _ _)⟩, fun hresponse => ?_⟩
  · exact fun m' hm' => hperm.mem_iff.mpr (List.mem_cons_of_mem m hm')
  · rw [if_pos hresponse, Multiset.singleton_add, List.append_nil] at hturns
    exact ⟨(Multiset.nodup_cons.mp hturns.nodup).1,
      hturns.awaiting _ (Multiset.mem_cons_self _ _)⟩

/-- A message reaches a session of its index only if this is its owner. -/
theorem Isolated.owner_eq (hs : Isolated s) (hhub : s.hub = .delivering m)
    (hn : s.front n ≠ .ended) (hreceives : isResponse m.kind = true ∨ s.back n ≠ .ended)
    (heq : s.clientId n = m.routerId) : m.owner = n := by
  have hmem : m ∈ s.flight := (flight_delivering hhub).mem_iff.mpr List.mem_cons_self
  obtain ⟨hlt, hrouter⟩ := hs.traffic.messages m hmem
  by_cases hresponse : isResponse m.kind = true
  · have howner := ((hs.sent hhub).2 hresponse).2
    have hlive : s.front m.owner ≠ .ended := by
      rw [howner]
      exact nofun
    exact hs.slots.unique hn hlive (heq.trans hrouter)
  · have hnotified : m.kind = .notification := by
      cases hkind : m.kind with
      | response subscription => simp [hkind, isResponse] at hresponse
      | notification => rfl
    exact hs.slots.eq_of_latest (hs.traffic.notified m hmem hnotified) hlt
      (hreceives.resolve_left hresponse) (heq.trans hrouter)

theorem Isolated.deliver (hs : Isolated s) (hstep : step s (.deliver n) = some (s', o)) :
    Isolated s' ∧ o.Owned := by
  simp only [step] at hstep
  cases hhub : s.hub with
  | select => simp [hhub] at hstep
  | forwarding r => simp [hhub] at hstep
  | delivering m =>
    simp only [hhub, Option.ite_none_right_eq_some] at hstep
    obtain ⟨heq, hstep⟩ := hstep
    obtain ⟨hsent, hresponse⟩ := hs.sent hhub
    split at hstep
    · rw [Option.ite_none_right_eq_some] at hstep
      obtain ⟨hback, hstep⟩ := hstep
      obtain ⟨rfl, rfl⟩ := Prod.mk.inj (Option.some.inj hstep)
      have hlive : s.back n ≠ .ended := by
        rw [hback]
        exact nofun
      have howner := hs.owner_eq hhub (hs.slots.live_of_back hlive) (.inr hlive) heq
      refine ⟨⟨hsent.slots.setBack hlive, hsent.traffic, hsent.turns.setBack ?_⟩, trivial⟩
      intro m' hm'
      rw [← Back.writing.inj hm']
      exact howner
    · next hkind =>
      rw [Option.ite_none_right_eq_some] at hstep
      obtain ⟨hfront, hstep⟩ := hstep
      obtain ⟨rfl, rfl⟩ := Prod.mk.inj (Option.some.inj hstep)
      have hlive : s.front n ≠ .ended := by
        rw [hfront]
        exact nofun
      have hanswer : isResponse m.kind = true := by
        cases hm : m.kind with
        | response subscription => rfl
        | notification => simp [hm, toBackend] at hkind
      have howner := hs.owner_eq hhub hlive (.inl hanswer) heq
      have hnot : n ∉ pendingOf ({ s with hub := .select } : WsSystem).queue
          ({ s with hub := .select } : WsSystem).flight := by
        have hqueue : ({ s with hub := .select } : WsSystem).queue = s.requests :=
          List.append_nil _
        rw [hqueue, ← howner]
        exact (hresponse hanswer).1
      refine ⟨⟨hsent.slots.setFront hlive nofun nofun, hsent.traffic,
        hsent.turns.setFront hnot ?_⟩, trivial⟩
      intro m' hm'
      rw [← Front.answering.inj hm']
      exact howner

theorem Isolated.answer (hs : Isolated s) (hstep : step s (.answer n b) = some (s', o)) :
    Isolated s' ∧ o.Owned := by
  simp only [step] at hstep
  split at hstep
  · next m hfront =>
    rw [Option.ite_none_right_eq_some] at hstep
    obtain ⟨⟨heq, hback⟩, hstep⟩ := hstep
    obtain ⟨rfl, rfl⟩ := Prod.mk.inj (Option.some.inj hstep)
    have hlive : s.front n ≠ .ended := by
      rw [hfront]
      exact nofun
    have hbackLive : s.back b ≠ .ended := by
      rw [hback]
      exact nofun
    obtain rfl := hs.slots.unique hlive (hs.slots.live_of_back hbackLive) heq
    have hfrontStep : Isolated (s.setFront _ .reading) :=
      hs.setFront hfront nofun nofun nofun nofun nofun
    refine ⟨⟨hfrontStep.slots.setBack hbackLive, hfrontStep.traffic,
      hfrontStep.turns.setBack ?_⟩, trivial⟩
    intro m' hm'
    rw [← Back.writing.inj hm']
    exact hs.turns.answering _ m hfront
  · simp at hstep

theorem Isolated.terminate (hs : Isolated s) (hstep : step s (.terminate n b) = some (s', o)) :
    Isolated s' ∧ o.Owned := by
  simp only [step, Option.ite_none_right_eq_some] at hstep
  obtain ⟨⟨hfront, heq, hback⟩, hstep⟩ := hstep
  obtain ⟨rfl, rfl⟩ := Prod.mk.inj (Option.some.inj hstep)
  have hlive : s.front n ≠ .ended := by
    rw [hfront]
    exact nofun
  have hwait : s.front n ≠ .awaiting := by
    rw [hfront]
    exact nofun
  have hbackLive : s.back b ≠ .ended := by
    rw [hback]
    exact nofun
  obtain rfl := hs.slots.unique hlive (hs.slots.live_of_back hbackLive) heq
  have hslots : Slots s.wsClientIndexList s.started s.clientId s.front
      (Function.update s.back b .ended) := hs.slots.setBack hbackLive
  have hturns : Turns (pendingOf s.queue s.flight) s.front (Function.update s.back b .ended) :=
    hs.turns.setBack nofun
  refine ⟨⟨hslots.setFront hlive (fun _ => Function.update_self ..) nofun, hs.traffic, ?_⟩,
    trivial⟩
  exact hturns.setFront (hturns.not_pending hwait) nofun

theorem Isolated.returnIndex (hs : Isolated s)
    (hstep : step s (.returnIndex n) = some (s', o)) : Isolated s' ∧ o.Owned := by
  simp only [step, Option.ite_none_right_eq_some] at hstep
  obtain ⟨hfront, hstep⟩ := hstep
  obtain ⟨rfl, rfl⟩ := Prod.mk.inj (Option.some.inj hstep)
  have hwait : s.front n ≠ .awaiting := by
    rw [hfront]
    exact nofun
  exact ⟨⟨hs.slots.giveBack hfront, hs.traffic,
    hs.turns.setFront (hs.turns.not_pending hwait) nofun⟩, trivial⟩

theorem Isolated.hubForward (hs : Isolated s) (hstep : step s .hubForward = some (s', o)) :
    Isolated s' ∧ o.Owned := by
  simp only [step] at hstep
  split at hstep
  · next r hhub =>
    obtain ⟨rfl, rfl⟩ := Prod.mk.inj (Option.some.inj hstep)
    have hqueue : s.queue = (s.requests ++ [r]) ++ [] := by
      rw [WsSystem.queue, hhub, List.append_nil]
    have hflight : s.flight = s.messages ++ [] := by rw [WsSystem.flight, hhub]
    obtain ⟨hslots, htraffic, hturns⟩ := hs
    rw [hqueue, hflight] at htraffic hturns
    exact ⟨⟨hslots, htraffic, hturns⟩, trivial⟩
  · cases hstep

/-- Every step of a clear run keeps the invariant, and what it delivers or removes is owned. -/
theorem Isolated.step {x : Move WsSystem Event Output} (hs : Isolated x.before)
    (hx : x.Of step) (hC : Clear x.before x.event) : Isolated x.after ∧ x.output.Owned := by
  obtain ⟨s, event, s', o⟩ := x
  dsimp only at hs hC ⊢
  have hstep : Isolation.step s event = some (s', o) := hx
  cases event with
  | connect =>
    obtain ⟨rfl, rfl⟩ := Prod.mk.inj (Option.some.inj hstep)
    exact ⟨hs.connect hC, trivial⟩
  | read n action routerId =>
    obtain ⟨⟨hfront, -⟩, hstep⟩ := Option.ite_none_right_eq_some.mp hstep
    obtain ⟨rfl, rfl⟩ := Prod.mk.inj (Option.some.inj hstep)
    exact ⟨hs.setFront hfront nofun nofun nofun nofun nofun, trivial⟩
  | readError n =>
    obtain ⟨hfront, hstep⟩ := Option.ite_none_right_eq_some.mp hstep
    obtain ⟨rfl, rfl⟩ := Prod.mk.inj (Option.some.inj hstep)
    exact ⟨hs.setFront hfront nofun nofun nofun nofun nofun, trivial⟩
  | hubRequest n => exact hs.hubRequest hC hstep
  | hubForward => exact hs.hubForward hstep
  | serve effect =>
    simp only [Isolation.step] at hstep
    split at hstep
    · next r requests hrequests =>
      refine serve_isolated hs hrequests ?_ hstep
      rintro routerId subscription rfl
      exact hC r (by rw [hrequests]; rfl)
    · cases hstep
  | notify k =>
    obtain ⟨e, he, heq⟩ := Option.map_eq_some_iff.mp hstep
    obtain ⟨rfl, rfl⟩ := Prod.mk.inj heq
    exact ⟨hs.notify (List.mem_of_getElem? he) (hC e he) (List.Subset.refl _), trivial⟩
  | cancel k =>
    obtain ⟨e, he, heq⟩ := Option.map_eq_some_iff.mp hstep
    obtain ⟨rfl, rfl⟩ := Prod.mk.inj heq
    exact ⟨hs.notify (List.mem_of_getElem? he) (hC e he) List.eraseP_subset, trivial⟩
  | hubMessage k =>
    simp only [Isolation.step] at hstep
    split at hstep
    · next m hhub hk =>
      obtain ⟨rfl, rfl⟩ := Prod.mk.inj (Option.some.inj hstep)
      exact ⟨hs.hubMessage hhub hk, trivial⟩
    · cases hstep
  | deliver n => exact hs.deliver hstep
  | answer n b => exact hs.answer hstep
  | written b =>
    simp only [Isolation.step] at hstep
    split at hstep
    · next m hback =>
      obtain ⟨rfl, rfl⟩ := Prod.mk.inj (Option.some.inj hstep)
      have hlive : s.back b ≠ .ended := hback ▸ nofun
      exact ⟨⟨hs.slots.setBack hlive, hs.traffic, hs.turns.setBack nofun⟩,
        hs.turns.writing b m hback⟩
    · cases hstep
  | wake n =>
    obtain ⟨hfront, hstep⟩ := Option.ite_none_right_eq_some.mp hstep
    obtain ⟨rfl, rfl⟩ := Prod.mk.inj (Option.some.inj hstep)
    exact ⟨hs.setFront hfront nofun nofun nofun nofun nofun, trivial⟩
  | terminate n b => exact hs.terminate hstep
  | returnIndex n => exact hs.returnIndex hstep

end Steps

/-- Every run of the websocket manager with the service manager behind it. -/
abbrev WsRun := Run step (· = initialSystem)

/-- In a clear run every message goes to the session whose request caused it, and a kill
removes no subscription of a later session. -/
theorem session_isolation {h : History WsSystem Event Output} {s : WsSystem} (hrun : WsRun h s)
    (hC : Always (fun _ x => Clear x.before x.event) h) : Always (fun _ x => x.output.Owned) h := by
  suffices hboth : Isolated s ∧ Always (fun _ x => x.output.Owned) h from hboth.2
  induction hrun with
  | start hs =>
    subst hs
    exact ⟨isolated_init, trivial⟩
  | next _ hx ih =>
    obtain ⟨hbefore, howned⟩ := ih hC.2
    obtain ⟨hafter, hnew⟩ := hbefore.step hx hC.1
    exact ⟨hafter, hnew, howned⟩

/-- A session subscribes and ends, and another one starts with its index. -/
def reuse (before after : List Event) : List Event :=
  [.connect, .read 0 .subscribe 0, .hubRequest 0, .hubForward, .serve (.subscribe false),
    .hubMessage 0, .deliver 0, .answer 0 0, .written 0] ++ before ++
  [.readError 0, .hubRequest 0, .hubForward, .serve .kill, .wake 0, .terminate 0 0,
    .returnIndex 0, .connect] ++ after

instance decidableOwned : ∀ o : Output, Decidable o.Owned
  | .nothing => inferInstanceAs (Decidable True)
  | .written n m => inferInstanceAs (Decidable (m.owner = n))
  | .killed n removed => inferInstanceAs (Decidable (∀ e ∈ removed, e.owner ≤ n))

instance decidableLatest (started : ℕ) (clientId : ℕ → ℕ) (n : ℕ) :
    Decidable (Latest started clientId n) :=
  inferInstanceAs (Decidable (∀ n' < started, _))

instance decidableClear (s : WsSystem) (e : Event) : Decidable (Clear s e) := by
  unfold Clear
  split <;> infer_instance

/-- The notification of the first session is written before its index is given back. -/
theorem session_isolation_reuse : ∃ h s, WsRun h s ∧ s.started = 2 ∧ s.clientId 0 = s.clientId 1 ∧
    Always (fun _ x => x.output.Owned) h := by
  obtain ⟨r, hr, hstarted, hindex, hC⟩ : ∃ r ∈ replay step [] initialSystem
      (reuse [.notify 0, .hubMessage 0, .deliver 0, .written 0] []),
      r.2.started = 2 ∧ r.2.clientId 0 = r.2.clientId 1 ∧
        Always (fun _ x => Clear x.before x.event) r.1 := by decide
  have hrun : WsRun r.1 r.2 := .of_replay (.start rfl) hr
  exact ⟨r.1, r.2, hrun, hstarted, hindex, session_isolation hrun hC⟩

/-- A notification that is still on its way then is written to the next session. -/
theorem late_notification_delivered :
    ¬ ∀ h s, WsRun h s → Always (fun _ x => x.output.Owned) h := by
  intro hall
  obtain ⟨r, hr, hforeign⟩ : ∃ r ∈ replay step [] initialSystem
      (reuse [.notify 0] [.hubMessage 0, .deliver 1, .written 1]),
      ¬ Always (fun _ x => x.output.Owned) r.1 := by decide
  exact hforeign (hall r.1 r.2 (.of_replay (.start rfl) hr))

end VissServer.WsMgr.Isolation

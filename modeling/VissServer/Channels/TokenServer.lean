import VissServer.AtServer.Steps
import VissServer.Core.Requests

/-!
The core and the access token server, which call each other over unbuffered channels: the
core has tokens validated, the access token server has subscriptions cancelled
(vissv2server.go, atServer.go).
-/
namespace VissServer.Channels.TokenServer

open Go Runs
open AtServer (Effect State)
open VissServer.Core (tokenRequest)

/-- Where the main loop of the core is: at its select, with a message, or in verifyToken,
where it first sends and then waits. -/
inductive Core
  | select
  | serving
  | sending (request : GoString)
  | awaiting
  deriving DecidableEq

/-- Where the loop of AtServerInit is: at its select, or with the first of the messages that
a pass sends. -/
inductive Loop
  | select
  | sending (effect : Effect) (effects : List Effect)
  deriving DecidableEq

structure Network where
  core : Core
  loop : Loop
  server : State
  panicked : Bool

/-- The steps of the two goroutines, and the end of a deleteJti sleep. -/
inductive Event
  /-- The core takes a message of a transport manager. -/
  | accept
  /-- The core calls verifyToken for the message. -/
  | validate (token action paths : GoString) (validation : ℤ)
  /-- The access token server takes the request of the core. -/
  | ask
  /-- The core takes the answer of the access token server. -/
  | answer
  /-- The core has served the message. -/
  | finish
  /-- The access token server takes anything but a request of the core. -/
  | server (e : AtServer.Event)
  /-- A message of the access token server to a client or the ECF is taken. -/
  | send
  /-- The core takes the gating id of the access token server. -/
  | cancel
  deriving DecidableEq

def Core.verifies : Core → Bool
  | .sending _ | .awaiting => true
  | _ => false

def isCancel : Effect → Bool
  | .cancel _ => true
  | _ => false

/-- The message is not for the core; an issue record is no message. -/
def goesOut : Effect → Bool
  | .client _ | .ecf _ | .issue _ _ => true
  | .parent _ | .cancel _ => false

def Loop.cancels : Loop → Bool
  | .sending effect _ => isCancel effect
  | .select => false

/-- The loop with what is left to be sent. -/
def Loop.of : List Effect → Loop
  | [] => .select
  | effect :: effects => .sending effect effects

section Steps

variable (cfg : AtServer.Config) (m : AtServer.Moment) (x : Network)

/-- A pass of the loop of AtServerInit. -/
def pass (e : AtServer.Event) : Network :=
  match AtServer.step cfg m x.server e with
  | none => { x with panicked := true }
  | some (server, effects) => { x with server, loop := .of effects }

/-- The ids of used proofs are deleted by goroutines of their own. -/
def serve (e : AtServer.Event) : Option Network :=
  match e, x.loop with
  | .parent _, _ => none
  | .deleteJti jti, loop => some { pass cfg m x (.deleteJti jti) with loop }
  | e, .select => some (pass cfg m x e)
  | _, _ => none

/-- A step, possible where both sides of a channel are at it. -/
def meet (e : Event) : Option Network :=
  match e, x.core, x.loop with
  | .accept, .select, _ => some { x with core := .serving }
  | .validate token action paths validation, .serving, _ =>
      some { x with core := .sending (tokenRequest token action paths validation) }
  | .ask, .sending request, .select =>
      some { pass cfg m x (.parent request) with core := .awaiting }
  | .answer, .awaiting, .sending (.parent _) effects =>
      some { x with core := .serving, loop := .of effects }
  | .finish, .serving, _ => some { x with core := .select }
  | .server e, _, _ => serve cfg m x e
  | .send, _, .sending effect effects =>
      if goesOut effect then some { x with loop := .of effects } else none
  | .cancel, .select, .sending (.cancel _) effects =>
      some { x with core := .serving, loop := .of effects }
  | _, _, _ => none

end Steps

/-- The gating id that a step hands over to the core. -/
def cancelled (x : Network) : Event → Option GoString
  | .cancel =>
      match x.loop with
      | .sending (.cancel gatingId) _ => some gatingId
      | _ => none
  | _ => none

def networkStep (cfg : AtServer.Config) (x : Network) (e : AtServer.Moment × Event) :
    Option (Network × Option GoString) :=
  if x.panicked then none else (meet cfg e.1 x e.2).map fun x' => (x', cancelled x e.2)

def initialNetwork (server : State) : Network where
  core := .select
  loop := .select
  server
  panicked := false

def Started (x : Network) : Prop :=
  ∃ server, AtServer.Started server ∧ x = initialNetwork server

abbrev NetworkHistory := History Network (AtServer.Moment × Event) (Option GoString)

abbrev NetworkRun (cfg : AtServer.Config) (h : NetworkHistory) (x : Network) : Prop :=
  Run (networkStep cfg) Started h x

/-- The core is in verifyToken, and the access token server sends it a gating id. -/
def Jammed (x : Network) : Prop := x.core.verifies ∧ x.loop.cancels
  deriving Decidable

/-- The pass removes an active token, whose gating id is then sent. -/
def cancels (cfg : AtServer.Config) (m : AtServer.Moment) (s : State) (e : AtServer.Event) :
    Bool :=
  match AtServer.step cfg m s e with
  | some (_, effect :: _) => isCancel effect
  | _ => false

/-- No token is validated while a gating id is sent, and no active token is removed while one
is validated. -/
def GivesWay (cfg : AtServer.Config) (x : Network) : AtServer.Moment × Event → Prop
  | (_, .validate _ _ _ _) => ¬ x.loop.cancels
  | (m, .server e) => cancels cfg m x.server e → ¬ x.core.verifies
  | (_, .accept) => True
  | (_, .ask) => True
  | (_, .answer) => True
  | (_, .finish) => True
  | (_, .send) => True
  | (_, .cancel) => True

instance (cfg : AtServer.Config) (x : Network) : ∀ e, Decidable (GivesWay cfg x e)
  | (_, .validate _ _ _ _) => inferInstanceAs (Decidable (¬ x.loop.cancels))
  | (m, .server e) => inferInstanceAs (Decidable (cancels cfg m x.server e → ¬ x.core.verifies))
  | (_, .accept) | (_, .ask) | (_, .answer) | (_, .finish) | (_, .send) | (_, .cancel) =>
      inferInstanceAs (Decidable True)

section

variable {cfg : AtServer.Config} {m : AtServer.Moment} {x x' : Network}

theorem not_isCancel_of_isResponse {effect : Effect} (h : effect.isResponse) :
    isCancel effect = false := by
  cases effect <;> first | rfl | simp [Effect.isResponse] at h

/-- A gating id is the first message that a pass sends. -/
theorem step_tail {s s' : State} {e : AtServer.Event} {effects : List Effect}
    (h : AtServer.step cfg m s e = some (s', effects)) :
    ∀ effect ∈ effects.tail, isCancel effect = false := by
  have hchange := AtServer.step_change h
  cases hchange with
  | quiet _ _ _ _ hresponses =>
    intro effect heffect
    exact not_isCancel_of_isResponse (hresponses effect (List.mem_of_mem_tail heffect))
  | _ => simp [isCancel]

theorem step_parent {s s' : State} {request : GoString} {effects : List Effect}
    (h : AtServer.step cfg m s (.parent request) = some (s', effects)) :
    ∃ response, effects = [.parent response] := by
  obtain ⟨response, -, heq⟩ := Option.map_eq_some_iff.mp h
  exact ⟨response, (Prod.mk.inj heq).2.symm⟩

@[simp] theorem of_cancels (effects : List Effect) :
    (Loop.of effects).cancels = effects.head?.any isCancel := by
  cases effects <;> rfl

/-- What a pass does to the two goroutines. -/
theorem pass_goroutines (cfg : AtServer.Config) (m : AtServer.Moment) (e : AtServer.Event)
    (hloop : x.loop = .select) :
    (pass cfg m x e).core = x.core ∧
      (pass cfg m x e).loop.cancels = cancels cfg m x.server e ∧
      ∀ effect effects, (pass cfg m x e).loop = .sending effect effects →
        ∀ other ∈ effects, isCancel other = false := by
  unfold pass cancels
  cases hstep : AtServer.step cfg m x.server e with
  | none => exact ⟨rfl, by rw [hloop]; rfl, fun _ _ hsending => by simp [hloop] at hsending⟩
  | some r =>
    obtain ⟨server, effects⟩ := r
    have htail := step_tail hstep
    cases effects with
    | nil => exact ⟨rfl, rfl, nofun⟩
    | cons effect effects =>
      refine ⟨rfl, rfl, ?_⟩
      intro _ _ hsending
      obtain ⟨-, rfl⟩ := Loop.sending.inj hsending
      exact htail

/-- What the goroutines know of each other. -/
structure Consistent (x : Network) : Prop where
  awaiting : x.panicked = false → x.core = .awaiting →
    ∃ response, x.loop = .sending (.parent response) []
  rest : ∀ effect effects, x.loop = .sending effect effects →
    ∀ other ∈ effects, isCancel other = false

theorem consistent_of_core {core : Core} (hx : Consistent x) (hcore : core ≠ .awaiting) :
    Consistent { x with core } where
  awaiting _ hawaiting := absurd hawaiting hcore
  rest := hx.rest

theorem consistent_of_rest {core : Core} {effects : List Effect} (hcore : core ≠ .awaiting)
    (h : ∀ effect ∈ effects, isCancel effect = false) :
    Consistent { x with core, loop := .of effects } where
  awaiting _ hawaiting := absurd hawaiting hcore
  rest := by
    intro effect rest hsending
    cases effects with
    | nil => simp [Loop.of] at hsending
    | cons first others =>
      obtain ⟨-, rfl⟩ := Loop.sending.inj hsending
      exact fun other hother => h other (List.mem_cons_of_mem _ hother)

theorem serve_select {e : AtServer.Event} (h : serve cfg m x e = some x') :
    (x.loop = .select ∧ x' = pass cfg m x e) ∨
      ∃ jti, e = .deleteJti jti ∧ x' = { pass cfg m x e with loop := x.loop } := by
  unfold serve at h
  split at h
  · simp at h
  · next jti => exact .inr ⟨jti, rfl, (Option.some.inj h).symm⟩
  · next hloop => exact .inl ⟨hloop, (Option.some.inj h).symm⟩
  · simp at h

theorem meet_consistent {e : Event} (hx : Consistent x) (hpanicked : x.panicked = false)
    (h : meet cfg m x e = some x') : Consistent x' := by
  unfold meet at h
  split at h
  · obtain rfl := Option.some.inj h
    exact consistent_of_core hx nofun
  · obtain rfl := Option.some.inj h
    exact consistent_of_core hx nofun
  · next request hcore hloop =>
    obtain rfl := Option.some.inj h
    obtain ⟨-, -, hrest⟩ := pass_goroutines cfg m (.parent request) hloop
    refine ⟨fun hrunning _ => ?_, hrest⟩
    unfold pass at hrunning ⊢
    cases hstep : AtServer.step cfg m x.server (.parent request) with
    | none => simp [hstep] at hrunning
    | some r =>
      obtain ⟨server, effects⟩ := r
      obtain ⟨response, rfl⟩ := step_parent hstep
      exact ⟨response, rfl⟩
  · next response effects hcore hloop =>
    obtain rfl := Option.some.inj h
    exact consistent_of_rest nofun (hx.rest _ _ hloop)
  · obtain rfl := Option.some.inj h
    exact consistent_of_core hx nofun
  · next e =>
    rcases serve_select h with ⟨hloop, rfl⟩ | ⟨jti, rfl, rfl⟩
    · obtain ⟨hcore, -, hrest⟩ := pass_goroutines cfg m e hloop
      refine ⟨fun _ hawaiting => ?_, hrest⟩
      obtain ⟨response, hsending⟩ := hx.awaiting hpanicked (hcore ▸ hawaiting)
      simp [hloop] at hsending
    · exact ⟨fun _ hawaiting => hx.awaiting hpanicked hawaiting, hx.rest⟩
  · next effect effects hloop =>
    obtain ⟨hout, hsome⟩ := Option.ite_none_right_eq_some.mp h
    obtain rfl := Option.some.inj hsome
    have hcore : x.core ≠ .awaiting := by
      intro hawaiting
      obtain ⟨response, hsending⟩ := hx.awaiting hpanicked hawaiting
      rw [hloop] at hsending
      obtain ⟨rfl, -⟩ := Loop.sending.inj hsending
      simp [goesOut] at hout
    exact consistent_of_rest hcore (hx.rest _ _ hloop)
  · next gatingId effects hcore hloop =>
    obtain rfl := Option.some.inj h
    exact consistent_of_rest nofun (hx.rest _ _ hloop)
  · simp at h

/-- A step out of a state that is not jammed leads to one that is not, if and only if the core
and the access token server give way to each other. -/
theorem meet_jammed_iff {e : Event} (hx : Consistent x) (hjammed : ¬ Jammed x)
    (h : meet cfg m x e = some x') :
    ¬ Jammed x' ↔ GivesWay cfg x (m, e) := by
  unfold meet at h
  split at h
  · obtain rfl := Option.some.inj h
    exact iff_of_true (by simp [Jammed, Core.verifies]) trivial
  · obtain rfl := Option.some.inj h
    simp [Jammed, Core.verifies, GivesWay]
  · next request hcore hloop =>
    obtain rfl := Option.some.inj h
    have hcancels : cancels cfg m x.server (.parent request) = false := by
      unfold cancels
      cases hstep : AtServer.step cfg m x.server (.parent request) with
      | none => rfl
      | some r =>
        obtain ⟨server, effects⟩ := r
        obtain ⟨response, rfl⟩ := step_parent hstep
        rfl
    obtain ⟨-, hsame, -⟩ := pass_goroutines cfg m (.parent request) hloop
    exact iff_of_true (by simp [Jammed, hsame, hcancels]) trivial
  · obtain rfl := Option.some.inj h
    exact iff_of_true (by simp [Jammed, Core.verifies]) trivial
  · obtain rfl := Option.some.inj h
    exact iff_of_true (by simp [Jammed, Core.verifies]) trivial
  · next e =>
    rcases serve_select h with ⟨hloop, rfl⟩ | ⟨jti, rfl, rfl⟩
    · obtain ⟨hcore, hsame, -⟩ := pass_goroutines cfg m e hloop
      rw [Jammed, hcore, hsame, not_and', GivesWay]
    · exact iff_of_true hjammed fun hcancels => by simp [cancels, AtServer.step] at hcancels
  · next effect effects hloop =>
    obtain ⟨hout, hsome⟩ := Option.ite_none_right_eq_some.mp h
    obtain rfl := Option.some.inj hsome
    have hrest := hx.rest _ _ hloop
    refine iff_of_true ?_ trivial
    rintro ⟨-, hcancels⟩
    cases effects with
    | nil => simp at hcancels
    | cons first others => simp [hrest first (List.mem_cons_self ..)] at hcancels
  · obtain rfl := Option.some.inj h
    exact iff_of_true (by simp [Jammed, Core.verifies]) trivial
  · simp at h

theorem meet_of_networkStep {e : AtServer.Moment × Event} {o : Option GoString}
    (h : networkStep cfg x e = some (x', o)) :
    x.panicked = false ∧ meet cfg e.1 x e.2 = some x' := by
  unfold networkStep at h
  split at h
  · simp at h
  · next hpanicked =>
    obtain ⟨x₁, hmeet, heq⟩ := Option.map_eq_some_iff.mp h
    obtain ⟨rfl, -⟩ := Prod.mk.inj heq
    exact ⟨by simpa using hpanicked, hmeet⟩

theorem consistent_started (hx : Started x) : Consistent x := by
  obtain ⟨server, -, rfl⟩ := hx
  exact ⟨nofun, nofun⟩

end

/-- No state of a run is jammed, if and only if the core and the access token server give way
to each other in every step. -/
theorem token_server_deadlock_iff {cfg : AtServer.Config} {h : NetworkHistory} {x : Network}
    (hrun : NetworkRun cfg h x) :
    Always (fun _ y => ¬ Jammed y.after) h ↔
      Always (fun _ y => GivesWay cfg y.before y.event) h := by
  refine hrun.avoids_iff (J := Consistent) ?_ ?_ ?_
  · intro x hx
    refine ⟨consistent_started hx, ?_⟩
    obtain ⟨server, -, rfl⟩ := hx
    simp [Jammed, initialNetwork, Core.verifies]
  · intro y hy hbefore
    obtain ⟨hpanicked, hmeet⟩ := meet_of_networkStep hy
    exact meet_consistent hbefore hpanicked hmeet
  · intro y hy hconsistent hbefore
    obtain ⟨-, hmeet⟩ := meet_of_networkStep hy
    exact meet_jammed_iff hconsistent hbefore hmeet

/-- A run, given by its events and a property of its history. -/
theorem exists_networkRun (cfg : AtServer.Config) (es : List (AtServer.Moment × Event))
    (p : NetworkHistory → Prop)
    (hes : ∃ r ∈ replay (networkStep cfg) [] (initialNetwork (State.initial 0 0)) es, p r.1) :
    ∃ h x, NetworkRun cfg h x ∧ p h :=
  exists_run_of_replay es p ⟨State.initial 0 0, ⟨0, 0, rfl⟩, rfl⟩ hes

/-- The steps that grant a token, with steps that follow. -/
def granted (es : List Event) : List (AtServer.Moment × Event) :=
  (.server (.client AtServer.sampleRequest) :: .send :: .send :: es).map
    fun e => (AtServer.sampleMoment, e)

def cancelMessage : GoString :=
  str "\x7b\"action\":\"consent-cancel\",\"messageId\":\"667\"\x7d"

/-- A token is validated, and its consent is cancelled after that. -/
theorem token_server_in_turn : ∃ h x, NetworkRun (AtServer.sampleConfig false) h x ∧
    h.length = 11 ∧ Always (fun _ y => ¬ Jammed y.after) h := by
  obtain ⟨h, x, hrun, hlength, hgives⟩ := exists_networkRun (AtServer.sampleConfig false)
    (granted [.accept, .validate (str "1") (str "get") (str "Vehicle.FuelLevel") 2, .ask,
      .answer, .finish, .server (.ecf cancelMessage), .cancel, .send])
    (fun h => h.length = 11 ∧
      Always (fun _ y => GivesWay (AtServer.sampleConfig false) y.before y.event) h)
    (by decide +kernel)
  exact ⟨h, x, hrun, hlength, (token_server_deadlock_iff hrun).mpr hgives⟩

/-- A consent is cancelled while the core asks for the validation of a token. -/
theorem token_server_deadlocks : ¬ ∀ cfg h x, NetworkRun cfg h x →
    Always (fun _ y => ¬ Jammed y.after) h := by
  intro hall
  obtain ⟨h, x, hrun, y, hy, hjammed⟩ := exists_networkRun (AtServer.sampleConfig false)
    (granted [.accept, .validate (str "1") (str "get") (str "Vehicle.FuelLevel") 2,
      .server (.ecf cancelMessage)])
    (fun h => ∃ y ∈ h.head?, Jammed y.after)
    (by decide +kernel)
  obtain ⟨rest, rfl⟩ := List.head?_eq_some_iff.mp hy
  exact (hall _ _ _ hrun).1 hjammed

end VissServer.Channels.TokenServer

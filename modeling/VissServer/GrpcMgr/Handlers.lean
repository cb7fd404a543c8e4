import VissServer.GrpcMgr.Release

/-!
The hub of the gRPC manager and the handlers of the calls (grpcMgr.go). The hub does the
effects of a call or of a message one after the other; a send to the channel of a call waits
until the handler of the call receives. The handler of a subscribe call receives again after
each message that it could send to its client, all others receive once.
-/
namespace VissServer.GrpcMgr.Handlers

open Go Managers Runs

/-- Where the handler of a call is. -/
inductive Handler
  | receiving
  | sendingToClient
  | returned
  deriving DecidableEq

/-- The manager behind the last event that it took, the effects that the hub has not done
yet, and the handlers by the numbers of their channels. -/
structure Calls where
  mgr : State
  pending : List Effect
  handlers : ℕ → Handler

def initialCalls : Calls := ⟨initialState, [], fun _ => .receiving⟩

/-- An event that the hub takes, an effect of it that is no send, a send, and the end of
stream.Send at a handler. -/
inductive Event
  | hub (e : GrpcMgr.Event)
  | proceed
  | hand
  | streamSend (channel : ℕ) (fails : Bool)

/-- What the handler of a call does with a message. -/
def receive (call : Call) (vssResp : GoString) : Handler :=
  if call.isSubscribe then
    if contains vssResp killMessage then .returned else .sendingToClient
  else .returned

/-- The handler that made a call waits for its first message. -/
def startHandler (s : Calls) : GrpcMgr.Event → ℕ → Handler
  | .call _ => Function.update s.handlers s.mgr.channels .receiving
  | .response _ => s.handlers

def step (mgrId : ℤ) (s : Calls) : Event → Option (Calls × Unit)
  | .hub e =>
      match s.pending with
      | [] => (GrpcMgr.step mgrId s.mgr e).map fun r => (⟨r.1, r.2, startHandler s e⟩, ())
      | _ => none
  | .proceed =>
      match s.pending with
      | e :: pending => if e.message? = none then some ({ s with pending }, ()) else none
      | [] => none
  | .hand =>
      match s.pending with
      | e :: pending =>
          match e.message? with
          | some (channel, message) =>
              if s.handlers channel.number = .receiving then
                some ({ s with
                  pending
                  handlers := Function.update s.handlers channel.number
                    (receive channel.call message) }, ())
              else none
          | none => none
      | [] => none
  | .streamSend channel fails =>
      if s.handlers channel = .sendingToClient then
        let handler := if fails then Handler.returned else .receiving
        some ({ s with handlers := Function.update s.handlers channel handler }, ())
      else none

abbrev CallsRun (mgrId : ℤ) := Runs.Run (step mgrId) (· = initialCalls)

/-- The number of the channel that an effect sends to. -/
def target (e : Effect) : Option ℕ := e.message?.map fun m => m.1.number

/-- The hub sends to a channel whose handler has returned. -/
def Calls.Blocked (s : Calls) : Prop :=
  ∃ e ∈ s.pending.head?, ∃ channel ∈ target e, s.handlers channel = .returned

/-- The handler that has the client id of a message has not returned; where the message ends
a stream, its handler has not returned either, and is another one. The send of a stream does
not fail while the hub has a message for it. -/
def Attended (s : Calls) : Event → Prop
  | .hub (.response respMessage) =>
      ∀ r ∈ removeInternalData respMessage,
        ∀ channel ∈ (getGrpcRoutingData s.mgr.tables r.2).1,
          s.handlers channel.number ≠ .returned ∧
            ((getGrpcRoutingData s.mgr.tables r.2).2 = true →
              contains respMessage (str "unsubscribe") = true →
                ∀ q ∈ getSubscribeRoutingData s.mgr.tables respMessage, ∀ stream ∈ q.2,
                  s.handlers stream.number ≠ .returned ∧ stream.number ≠ channel.number)
  | .streamSend channel fails => fails = true → ∀ e ∈ s.pending, target e ≠ some channel
  | _ => True

/-- Each effect that is left sends to another channel, whose handler has not returned. -/
structure Waited (s : Calls) : Prop where
  distinct : (s.pending.filterMap target).Nodup
  alive : ∀ channel ∈ s.pending.filterMap target, s.handlers channel ≠ .returned

section Steps

variable {mgrId : ℤ} {s s' : Calls} {t : Tables} {c : ℤ} {o : Outcome}

theorem Waited.not_blocked (hs : Waited s) : ¬ s.Blocked := by
  rintro ⟨e, he, channel, hchannel, hreturned⟩
  have hmem : e ∈ s.pending := List.mem_of_mem_head? he
  exact hs.alive channel (List.mem_filterMap.mpr ⟨e, hmem, hchannel⟩) hreturned

/-- The channels that an outcome sends to. -/
def targets (o : Outcome) : List ℕ := o.effects.filterMap target

theorem targets_andThen (o : Outcome) (f : Tables → Outcome) :
    targets (o.andThen f) =
      targets o ++ if o.status = .running then targets (f o.tables) else [] := by
  unfold Outcome.andThen
  split
  · exact List.filterMap_append
  · rw [List.append_nil]

theorem targets_reset (t : Tables) (c : ℤ) : targets (resetGrpcRoutingData t c) = [] := by
  unfold resetGrpcRoutingData
  split
  · unfold resetClientId
    split <;> rfl
  · rfl

theorem targets_sendTo (c : ℤ) (grpcRespChan : Option RespChannel) (message : GoString)
    (t : Tables) :
    targets (sendTo c grpcRespChan message t) = (grpcRespChan.map (·.number)).toList := by
  cases grpcRespChan <;> rfl

/-- The end of a stream sends to the stream only. -/
theorem targets_endStream (t : Tables) (d : ℤ) (subscribeChan : Option RespChannel) (c : ℤ) :
    (targets (endStream t d subscribeChan c)).Sublist
      (subscribeChan.map (·.number)).toList := by
  have hkill : (targets ((resetGrpcRoutingData t d).andThen
      (sendTo d subscribeChan killMessage))).Sublist (subscribeChan.map (·.number)).toList := by
    rw [targets_andThen, targets_reset, List.nil_append]
    split
    · rw [targets_sendTo]
    · exact List.nil_sublist _
  rw [endStream, targets_andThen, targets_reset, ite_self, List.append_nil]
  exact hkill

/-- Only a stream that is ended is sent to while the routing list is updated. -/
theorem targets_updateRoutingList (t : Tables) (resp : GoString) (c : ℤ)
    (isMultipleEvent : Bool) :
    targets (updateRoutingList t resp c isMultipleEvent) = [] ∨
      ∃ q ∈ getSubscribeRoutingData t resp, ∃ stream ∈ q.2, isMultipleEvent = true ∧
        contains resp (str "unsubscribe") = true ∧
          targets (updateRoutingList t resp c isMultipleEvent) = [stream.number] := by
  rcases updateRoutingList_cases t resp c isMultipleEvent with
    ⟨heq, -⟩ | ⟨heq, -⟩ | ⟨d, subscribeChan, heq, hmulti, htext, hget⟩ | ⟨t', heq, -⟩
  · exact .inl (by rw [heq, targets_reset])
  · exact .inl (by rw [heq]; rfl)
  · have hsub := targets_endStream t d subscribeChan c
    rw [← heq] at hsub
    cases subscribeChan with
    | none => exact .inl (List.sublist_nil.mp hsub)
    | some stream =>
      rcases List.sublist_singleton.mp hsub with hnil | hone
      · exact .inl hnil
      · exact .inr ⟨(d, some stream), hget, stream, rfl, hmulti, htext, hone⟩
  · exact .inl (by rw [heq]; rfl)

/-- A message of the core is sent to the call with its client id, behind the kill message for
a stream. -/
theorem targets_response (t : Tables) (response : GoString) :
    targets (removeRoutingForwardResponse t response) = [] ∨
      ∃ r ∈ removeInternalData response, ∃ channel ∈ (getGrpcRoutingData t r.2).1,
        (targets (removeRoutingForwardResponse t response)).Sublist
          (targets (updateRoutingList t response r.2 (getGrpcRoutingData t r.2).2) ++
            [channel.number]) := by
  unfold removeRoutingForwardResponse
  split
  · exact .inl rfl
  · next trimmedResponse clientId hremove =>
    split
    · exact .inl rfl
    · next channel isMultipleEvent hget =>
      refine .inr ⟨(trimmedResponse, clientId), hremove, channel, by rw [hget]; rfl, ?_⟩
      rw [hget, targets_andThen]
      refine List.Sublist.append (List.Sublist.refl _) ?_
      split
      · rw [targets_sendTo]
        exact List.Sublist.refl _
      · exact List.nil_sublist _

/-- Each of these calls waits, and none is sent to twice. -/
theorem waited_response {respMessage : GoString} {mgr : State}
    (hC : Attended s (.hub (.response respMessage))) :
    Waited ⟨mgr, (removeRoutingForwardResponse s.mgr.tables respMessage).effects, s.handlers⟩ := by
  suffices h : (targets (removeRoutingForwardResponse s.mgr.tables respMessage)).Nodup ∧
      ∀ channel ∈ targets (removeRoutingForwardResponse s.mgr.tables respMessage),
        s.handlers channel ≠ .returned from ⟨h.1, h.2⟩
  rcases targets_response s.mgr.tables respMessage with
    hnil | ⟨r, hremove, channel, hget, hsub⟩
  · rw [hnil]
    exact ⟨List.nodup_nil, nofun⟩
  obtain ⟨halive, hstream⟩ := hC r hremove channel hget
  rcases targets_updateRoutingList s.mgr.tables respMessage r.2
      (getGrpcRoutingData s.mgr.tables r.2).2 with
    hnil | ⟨q, hq, stream, hmem, hmulti, htext, hone⟩
  · rw [hnil, List.nil_append] at hsub
    refine ⟨(List.nodup_singleton _).sublist hsub, fun n hn => ?_⟩
    rw [List.mem_singleton.mp (hsub.subset hn)]
    exact halive
  · obtain ⟨hstreamAlive, hne⟩ := hstream hmulti htext q hq stream hmem
    rw [hone] at hsub
    have hpair : [stream.number, channel.number].Nodup := by
      simpa using hne
    refine ⟨hpair.sublist hsub, fun n hn => ?_⟩
    rcases List.mem_pair.mp (hsub.subset hn) with rfl | rfl
    · exact hstreamAlive
    · exact halive

theorem targets_call (mgrId : ℤ) (t : Tables) (vssReq : GoString) (channel : RespChannel) :
    (targets (serveCall mgrId t vssReq channel)).Sublist [channel.number] := by
  unfold serveCall
  split
  · rw [targets_andThen]
    have hset : ∀ t c multi, targets (setGrpcRoutingData t c channel multi) = [] := by
      intro t c multi
      unfold setGrpcRoutingData
      split <;> rfl
    rw [hset]
    split
    · exact List.nil_sublist _
    · exact List.nil_sublist _
  · exact List.Sublist.refl _

theorem Waited.hub {e : GrpcMgr.Event} (hC : Attended s (.hub e))
    (hstep : step mgrId s (.hub e) = some (s', ())) : Waited s' := by
  simp only [step] at hstep
  split at hstep
  · obtain ⟨⟨mgr, effects⟩, hmgr, heq⟩ := Option.map_eq_some_iff.mp hstep
    obtain ⟨rfl, -⟩ := Prod.mk.inj heq
    have heffects : effects = (serve mgrId s.mgr e).effects := by
      unfold GrpcMgr.step at hmgr
      split at hmgr
      · exact (Prod.mk.inj (Option.some.inj hmgr)).2.symm
      · cases hmgr
    cases e with
    | response respMessage =>
      rw [heffects]
      exact waited_response hC
    | call call =>
      have hsub : (effects.filterMap target).Sublist [s.mgr.channels] := by
        rw [heffects, serve]
        split
        · exact List.nil_sublist _
        · exact targets_call ..
      refine ⟨(List.nodup_singleton _).sublist hsub, fun n hn => ?_⟩
      rw [List.mem_singleton.mp (hsub.subset hn)]
      change Function.update s.handlers s.mgr.channels .receiving s.mgr.channels ≠ _
      simp
  · cases hstep

/-- A handler changes that no effect behind the present one sends to. -/
theorem Waited.drop {e : Effect} {pending : List Effect} {handlers : ℕ → Handler}
    (hs : Waited s) (hpending : s.pending = e :: pending)
    (hhandlers : ∀ n, target e ≠ some n → handlers n = s.handlers n) :
    Waited { s with pending, handlers } := by
  obtain ⟨hdistinct, halive⟩ := hs
  rw [hpending] at hdistinct halive
  have hsub : (pending.filterMap target).Sublist ((e :: pending).filterMap target) :=
    (List.sublist_cons_self e pending).filterMap target
  refine ⟨hdistinct.sublist hsub, fun n hn => ?_⟩
  have hne : target e ≠ some n := by
    intro htarget
    rw [List.filterMap_cons_some htarget] at hdistinct
    exact (List.nodup_cons.mp hdistinct).1 hn
  change handlers n ≠ _
  rw [hhandlers n hne]
  exact halive n (hsub.subset hn)

theorem Waited.step {x : Runs.Move Calls Event Unit} (hs : Waited x.before)
    (hx : x.Of (step mgrId)) (hC : Attended x.before x.event) : Waited x.after := by
  obtain ⟨s, event, s', u⟩ := x
  dsimp only at hs hC ⊢
  have hstep : Handlers.step mgrId s event = some (s', ()) := hx
  cases event with
  | hub e => exact .hub hC hstep
  | proceed =>
    simp only [Handlers.step] at hstep
    split at hstep
    · next e pending hpending =>
      obtain ⟨-, hstep⟩ := Option.ite_none_right_eq_some.mp hstep
      obtain ⟨rfl, -⟩ := Prod.mk.inj (Option.some.inj hstep)
      exact hs.drop hpending fun _ _ => rfl
    · cases hstep
  | hand =>
    simp only [Handlers.step] at hstep
    split at hstep
    · next e pending hpending =>
      split at hstep
      · next channel message hmessage =>
        obtain ⟨-, hstep⟩ := Option.ite_none_right_eq_some.mp hstep
        obtain ⟨rfl, -⟩ := Prod.mk.inj (Option.some.inj hstep)
        refine hs.drop hpending fun n hn => ?_
        have hne : n ≠ channel.number := by
          rintro rfl
          exact hn (by rw [target, hmessage]; rfl)
        exact Function.update_of_ne hne ..
      · cases hstep
    · cases hstep
  | streamSend channel fails =>
    obtain ⟨-, hstep⟩ := Option.ite_none_right_eq_some.mp hstep
    obtain ⟨rfl, -⟩ := Prod.mk.inj (Option.some.inj hstep)
    refine ⟨hs.distinct, fun n hn => ?_⟩
    by_cases heq : n = channel
    · subst heq
      obtain ⟨e, he, htarget⟩ := List.mem_filterMap.mp hn
      cases fails with
      | false =>
        change Function.update s.handlers n .receiving n ≠ _
        rw [Function.update_self]
        exact nofun
      | true => exact absurd htarget (hC rfl e he)
    · change Function.update s.handlers channel _ n ≠ _
      rw [Function.update_of_ne heq]
      exact hs.alive n hn

end Steps

/-- In an attended run the hub never sends to a channel whose handler has returned. -/
theorem never_blocked {mgrId : ℤ} {h : Runs.History Calls Event Unit} {s : Calls}
    (hrun : CallsRun mgrId h s) (hC : Always (fun _ x => Attended x.before x.event) h) :
    ¬ s.Blocked := by
  apply Waited.not_blocked
  refine hrun.invariant_of (I := fun _ s => Waited s) hC ?_ ?_
  · rintro s rfl
    exact ⟨List.nodup_nil, nofun⟩
  · intro _ x hx hstep hC
    exact hx.step hstep hC

instance decidableBlocked (s : Calls) : Decidable s.Blocked :=
  inferInstanceAs (Decidable (∃ e ∈ s.pending.head?, _))

instance decidableAttended (s : Calls) (e : Event) : Decidable (Attended s e) := by
  unfold Attended
  split <;> infer_instance

/-- A subscribe call whose handler gets the response, and a notification for it. -/
def streamEvents (departs : Bool) : List Event :=
  [.hub (.call subscribeCall), .proceed, .proceed,
    .hub (.response (responseText "0" "\"action\":\"subscribe\",\"subscriptionId\":\"7\"")),
    .hand, .streamSend 0 departs,
    .hub (.response (responseText "0" "\"action\":\"subscription\",\"subscriptionId\":\"7\""))]

theorem never_blocked_stream : ∃ h s, CallsRun 3 h s ∧ s.pending.length = 1 ∧ ¬ s.Blocked := by
  obtain ⟨r, hr, hpending, hC⟩ : ∃ r ∈ replay (step 3) [] initialCalls (streamEvents false),
      r.2.pending.length = 1 ∧ Always (fun _ x => Attended x.before x.event) r.1 := by
    decide +kernel
  have hrun : CallsRun 3 r.1 r.2 := .of_replay (.start rfl) hr
  exact ⟨r.1, r.2, hrun, hpending, never_blocked hrun hC⟩

/-- The handler leaves when it cannot send to its client, and the hub waits for it. -/
theorem departed_stream_blocks : ¬ ∀ mgrId h s, CallsRun mgrId h s → ¬ s.Blocked := by
  intro hall
  obtain ⟨r, hr, hblocked⟩ : ∃ r ∈ replay (step 3) [] initialCalls (streamEvents true),
      r.2.Blocked := by decide +kernel
  exact hall 3 r.1 r.2 (.of_replay (.start rfl) hr) hblocked

end VissServer.GrpcMgr.Handlers

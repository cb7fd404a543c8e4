import VissServer.GrpcMgr.Tables

/-!
Which call holds a client id, and on which channel the manager sends what is meant for the
id. A response for a call that holds its id is sent to this call. Two kinds of responses go
astray: one for the id -1, which the manager looks up like any other id and finds in a free
entry, and one that is taken for an unsubscribe response without a stream to end, for which
the manager resets the id -1.
-/
namespace VissServer.GrpcMgr

open Go Utils Managers Runs

variable {h : History} {s : State} {t : Tables} {c : ℤ} {j : Fin maxGrpcClients}

/-- The client ids that calls got, the latest first. -/
def registrations (h : History) : List (ℤ × RespChannel) :=
  h.flatMap fun x => x.output.filterMap Effect.registration?

/-- The channel of the call that holds the client id. -/
def holder (h : History) (t : Tables) (c : ℤ) : Option RespChannel :=
  if t.MarkedUsed c then (registrations h).lookup c else none

/-- The entries in use have the channels of the calls that hold their ids, and each call
came with a channel of its own. -/
structure Registered (h : History) (s : State) : Prop where
  agree : s.tables.Agree
  channel : ∀ j, (s.tables.grpcRoutingDataList j).clientId ≠ -1 →
    ∃ channel, (s.tables.grpcRoutingDataList j).grpcRespChannel = some channel ∧
      (registrations h).lookup (s.tables.grpcRoutingDataList j).clientId = some channel ∧
      ∃ vssReq, channel.call.vssReq = some vssReq ∧
        (s.tables.grpcRoutingDataList j).isMultipleEvents = isMultipleEvents vssReq
  fresh : ∀ p ∈ registrations h, p.2.number < s.channels
  nodup : ((registrations h).map fun p => p.2.number).Nodup

theorem registered_init : Registered [] initialState where
  agree := initialTables_agree
  channel _ hj := absurd rfl hj
  fresh _ hp := absurd hp List.not_mem_nil
  nodup := List.nodup_nil

theorem registrations_cons (x : Move) (h : History) :
    registrations (x :: h) =
      x.output.filterMap Effect.registration? ++ registrations h := rfl

/-- A step that gives no client id. -/
theorem Registered.keep {x : Move} (hreg : Registered h x.before)
    (hkeeps : Keeps x.before.tables ⟨x.after.tables, x.output, x.after.status⟩)
    (hchannels : x.before.channels ≤ x.after.channels) : Registered (x :: h) x.after := by
  have hregs : registrations (x :: h) = registrations h := by
    rw [registrations_cons, hkeeps.silent, List.nil_append]
  refine ⟨hkeeps.agree, ?_, ?_, ?_⟩
  · intro j hj
    obtain ⟨hid, hchannel, hmultiple⟩ := hkeeps.narrows j hj
    rw [hregs, hid, hchannel, hmultiple]
    exact hreg.channel j (hid ▸ hj)
  · intro p hp
    rw [hregs] at hp
    exact Nat.lt_of_lt_of_le (hreg.fresh p hp) hchannels
  · rw [hregs]
    exact hreg.nodup

/-- A call that gets a client id. -/
theorem Registered.call {x : Move} {call : Call} {vssReq : GoString} {mgrId : ℤ}
    (hreg : Registered h x.before) (hreq : call.vssReq = some vssReq)
    (hserve : serveCall mgrId x.before.tables vssReq ⟨x.before.channels, call⟩ =
      ⟨x.after.tables, x.output, x.after.status⟩)
    (hchannels : x.after.channels = x.before.channels + 1) : Registered (x :: h) x.after := by
  have hagree := serveCall_agree hreg.agree mgrId vssReq ⟨x.before.channels, call⟩
  rw [hserve] at hagree
  rcases serveCall_cases hreg.agree mgrId vssReq ⟨x.before.channels, call⟩ with
    ⟨i, j, hi, hj, heq⟩ | ⟨-, heq⟩
  · obtain ⟨htables, houtput, -⟩ := Outcome.mk.inj (hserve.symm.trans heq)
    have hregs : registrations (x :: h) =
        ((i.val : ℤ), ⟨x.before.channels, call⟩) :: registrations h := by
      rw [registrations_cons, houtput]
      rfl
    refine ⟨hagree, ?_, ?_, ?_⟩
    · intro j' hj'
      rw [hregs]
      rw [htables] at hj' ⊢
      by_cases heq : j' = j
      · subst heq
        refine ⟨⟨x.before.channels, call⟩, ?_, ?_, vssReq, hreq, ?_⟩ <;> simp
      · simp only [setEntry_routing, Function.update_of_ne heq, markIndex_routing] at hj' ⊢
        have hne : (x.before.tables.grpcRoutingDataList j').clientId ≠ i.val := by
          intro hid
          apply hi
          rw [hreg.agree.used_iff]
          exact ⟨j', held_eq_some.mpr ⟨hid, by omega⟩⟩
        rw [List.lookup_cons, beq_eq_false_iff_ne.mpr hne]
        exact hreg.channel j' hj'
    · intro p hp
      rw [hregs] at hp
      rw [hchannels]
      rcases List.mem_cons.mp hp with rfl | hp
      · exact Nat.lt_succ_self _
      · exact Nat.lt_succ_of_lt (hreg.fresh p hp)
    · rw [hregs, List.map_cons, List.nodup_cons]
      refine ⟨?_, hreg.nodup⟩
      intro hmem
      obtain ⟨p, hp, hnumber⟩ := List.mem_map.mp hmem
      exact (hreg.fresh p hp).ne hnumber
  · obtain ⟨htables, houtput, hstatus⟩ := Outcome.mk.inj (hserve.symm.trans heq)
    apply hreg.keep
    · rw [htables, houtput]
      exact keeps_rfl hreg.agree rfl
    · omega

theorem step_some {mgrId : ℤ} {x : Move} (hx : x.Of (step mgrId)) :
    x.before.status = .running ∧
      serve mgrId x.before x.event = ⟨x.after.tables, x.output, x.after.status⟩ ∧
      x.after.channels = x.event.channels x.before.channels := by
  unfold Move.Of step at hx
  split at hx
  · next hrunning =>
    obtain ⟨hafter, houtput⟩ := Prod.mk.inj (Option.some.inj hx)
    refine ⟨hrunning, ?_, ?_⟩
    · rw [← hafter, ← houtput]
    · rw [← hafter]
  · simp at hx

theorem Registered.move {mgrId : ℤ} {x : Move} (hreg : Registered h x.before)
    (hx : x.Of (step mgrId)) : Registered (x :: h) x.after := by
  obtain ⟨-, hserve, hchannels⟩ := step_some hx
  cases hevent : x.event with
  | call call =>
    rw [hevent] at hserve hchannels
    cases hreq : call.vssReq with
    | none =>
      simp only [serve, hreq] at hserve
      apply hreg.keep
      · rw [← hserve]
        exact keeps_rfl hreg.agree rfl
      · simp only [Event.channels] at hchannels
        omega
    | some vssReq =>
      simp only [serve, hreq] at hserve
      exact hreg.call hreq hserve hchannels
  | response respMessage =>
    rw [hevent] at hserve hchannels
    apply hreg.keep
    · rw [← hserve]
      exact removeRoutingForwardResponse_keeps hreg.agree respMessage
    · simp only [Event.channels] at hchannels
      omega

/-- The channel of an entry in use is that of the call that holds the id. -/
theorem Registered.holder_eq (hreg : Registered h s)
    (hj : (s.tables.grpcRoutingDataList j).clientId = c) (hc : c ≠ -1) :
    ∃ channel, (s.tables.grpcRoutingDataList j).grpcRespChannel = some channel ∧
      holder h s.tables c = some channel := by
  obtain ⟨channel, hchannel, hlookup, -⟩ := hreg.channel j (hj ▸ hc)
  refine ⟨channel, hchannel, ?_⟩
  have hused : s.tables.MarkedUsed c :=
    (hreg.agree.used_iff c).mpr ⟨j, held_eq_some.mpr ⟨hj, hc⟩⟩
  rw [holder, if_pos hused, ← hj, hlookup]

/-! ## Which responses go astray -/

/-- A reset is for an id of the list, and what is sent for a client id goes to the call that
holds it. -/
def Effect.Proper (holderOf : ℤ → Option RespChannel) : Effect → Prop
  | .resetClientId c => 0 ≤ c ∧ c < maxGrpcClients
  | .send c channel _ => holderOf c = some channel
  | _ => True

/-- The tables agree behind a step, and its effects are proper. -/
structure RoutesProperly (h : History) (x : Move) : Prop where
  agree : x.after.tables.Agree
  proper : ∀ e ∈ x.output, e.Proper (holder h x.before.tables)

/-- A routing entry is free. -/
def Tables.HasFree (t : Tables) : Prop := ∃ j, (t.grpcRoutingDataList j).clientId = -1

/-- For a call with more than one message the id of a subscription is read from the
response. -/
def readsSubscriptionId (resp : GoString) : Bool :=
  contains resp (str "unsubscribe") ||
    (contains resp (str "subscribe") && contains resp (str "subscriptionId"))

/-- A response for the client id -1, while the first free entry has a channel left from an
earlier call. -/
def Tables.MeetsLeftover (t : Tables) (resp : GoString) (clientId : ℤ) : Prop :=
  clientId = -1 ∧ (getGrpcRoutingData t clientId).1.isSome = true ∧
    ((getGrpcRoutingData t clientId).2 = true → readsSubscriptionId resp = true →
      getSubscriptionId resp ≠ none)

/-- A response with the text unsubscribe for a call with more than one message, whose
subscription id is that of a freed entry or of none, while an entry is free. -/
def Tables.MissesStream (t : Tables) (resp : GoString) (clientId : ℤ) : Prop :=
  clientId ≠ -1 ∧ (getGrpcRoutingData t clientId).1.isSome = true ∧
    (getGrpcRoutingData t clientId).2 = true ∧ contains resp (str "unsubscribe") = true ∧
    t.HasFree ∧ (getSubscribeRoutingData t resp).map Prod.fst = some (-1)

/-- The event is a response of one of the two kinds. -/
def Stray (t : Tables) : Event → Prop
  | .call _ => False
  | .response resp =>
      match removeInternalData resp with
      | none => False
      | some (_, clientId) => t.MeetsLeftover resp clientId ∨ t.MissesStream resp clientId

instance (t : Tables) : Decidable t.HasFree :=
  inferInstanceAs (Decidable (∃ j, (t.grpcRoutingDataList j).clientId = -1))

instance (t : Tables) (resp : GoString) (clientId : ℤ) :
    Decidable (t.MeetsLeftover resp clientId) := inferInstanceAs (Decidable (_ ∧ _ ∧ (_ → _ → _)))

instance (t : Tables) (resp : GoString) (clientId : ℤ) :
    Decidable (t.MissesStream resp clientId) :=
  inferInstanceAs (Decidable (_ ∧ _ ∧ _ ∧ _ ∧ _ ∧ _))

instance (t : Tables) : (e : Event) → Decidable (Stray t e)
  | .call _ => inferInstanceAs (Decidable False)
  | .response resp =>
      match h : removeInternalData resp with
      | none => decidable_of_iff False (by simp [Stray, h])
      | some (_, clientId) =>
          decidable_of_iff (t.MeetsLeftover resp clientId ∨ t.MissesStream resp clientId)
            (by simp [Stray, h])

section Proper

variable {holderOf : ℤ → Option RespChannel}

/-- All effects of the code are proper. -/
def Outcome.Proper (holderOf : ℤ → Option RespChannel) (o : Outcome) : Prop :=
  ∀ e ∈ o.effects, e.Proper holderOf

theorem proper_nil (status : Status) : (Outcome.mk t [] status).Proper holderOf :=
  fun _ he => absurd he List.not_mem_nil

theorem proper_andThen {o : Outcome} {f : Tables → Outcome} :
    (o.andThen f).Proper holderOf ↔
      o.Proper holderOf ∧ (o.status = .running → (f o.tables).Proper holderOf) := by
  unfold Outcome.andThen Outcome.Proper
  split
  · next hrunning =>
    simp only [List.mem_append, or_imp, forall_and, hrunning, forall_const]
  · next hstopped => simp [hstopped]

theorem proper_sendTo (grpcRespChan : Option RespChannel) (message : GoString) :
    (sendTo c grpcRespChan message t).Proper holderOf ↔
      ∀ channel, grpcRespChan = some channel → holderOf c = some channel := by
  cases grpcRespChan with
  | none => simp [sendTo, Outcome.Proper]
  | some channel => simp [sendTo, Outcome.Proper, Effect.Proper]

/-- A reset of an id of a call is proper and ends. -/
theorem reset_proper (h : t.Agree) (hc : c ≠ -1) :
    (resetGrpcRoutingData t c).Proper holderOf ∧
      (resetGrpcRoutingData t c).status = .running := by
  rcases resetGrpcRoutingData_cases h c with ⟨-, heq⟩ | ⟨hminus, -, -⟩ | ⟨-, j, i, hj, -, heq⟩
  · rw [heq]
    exact ⟨proper_nil _, rfl⟩
  · exact absurd hminus hc
  · rw [heq]
    refine ⟨?_, rfl⟩
    intro e he
    rw [List.mem_singleton.mp he]
    exact h.range hj hc

/-- A reset of the id -1 finds a free entry and leaves the list. -/
theorem reset_improper (h : t.Agree) (hfree : t.HasFree) :
    ¬ (resetGrpcRoutingData t (-1)).Proper holderOf := by
  obtain ⟨j, hj⟩ := hfree
  rcases resetGrpcRoutingData_cases h (-1) with ⟨hnone, -⟩ | ⟨-, -, heq⟩ | ⟨hne, -⟩
  · exact absurd hj (hnone j)
  · rw [heq]
    intro hproper
    have hrange := hproper _ (List.mem_singleton_self _)
    exact absurd hrange.1 (by decide)
  · exact absurd rfl hne

theorem hasFree_of_keeps {o : Outcome} (hkeeps : Keeps t o) (hfree : t.HasFree) :
    o.tables.HasFree := by
  obtain ⟨j, hj⟩ := hfree
  refine ⟨j, ?_⟩
  by_contra hheld
  have hid := (hkeeps.narrows j hheld).1
  rw [hj] at hid
  exact hheld hid

end Proper

/-- The entry that is found for a client id. -/
theorem getGrpcRoutingData_some {channel : RespChannel} {isMultipleEvent : Bool}
    (hget : getGrpcRoutingData t c = (some channel, isMultipleEvent)) :
    ∃ j, (t.grpcRoutingDataList j).clientId = c ∧
      (t.grpcRoutingDataList j).grpcRespChannel = some channel ∧
      (t.grpcRoutingDataList j).isMultipleEvents = isMultipleEvent := by
  unfold getGrpcRoutingData at hget
  split at hget
  · next j hfirst =>
    obtain ⟨hchannel, hmultiple⟩ := Prod.mk.inj hget
    exact ⟨j, of_decide_eq_true (firstEntry_eq_some hfirst), hchannel, hmultiple⟩
  · simp at hget

/-- The entry that is found for the subscription id of a response. -/
theorem getSubscribeRoutingData_some {resp : GoString} {grpcRespChan : Option RespChannel}
    (hget : getSubscribeRoutingData t resp = some (c, grpcRespChan)) :
    (∃ j, (t.grpcRoutingDataList j).clientId = c ∧
      (t.grpcRoutingDataList j).grpcRespChannel = grpcRespChan) ∨
    (c = -1 ∧ grpcRespChan = none) := by
  unfold getSubscribeRoutingData at hget
  obtain ⟨subscriptionId, -, hget⟩ := Option.bind_eq_some_iff.mp hget
  split at hget
  · next j _ =>
    obtain ⟨hid, hchannel⟩ := Prod.mk.inj (Option.some.inj hget)
    exact .inl ⟨j, hid, hchannel⟩
  · obtain ⟨hid, hchannel⟩ := Prod.mk.inj (Option.some.inj hget)
    exact .inr ⟨hid.symm, hchannel.symm⟩

/-- What is sent to the channel that was found for an id goes to the call that holds it. -/
theorem Registered.kill_proper (hreg : Registered h s) {resp : GoString} {d : ℤ}
    {grpcRespChan : Option RespChannel} (hd : d ≠ -1)
    (hget : getSubscribeRoutingData s.tables resp = some (d, grpcRespChan)) :
    grpcRespChan ≠ none ∧ ∀ channel, grpcRespChan = some channel →
      holder h s.tables d = some channel := by
  rcases getSubscribeRoutingData_some hget with ⟨j, hj, hchannel⟩ | ⟨hminus, -⟩
  · obtain ⟨channel, hchannel', hholder⟩ := hreg.holder_eq hj hd
    rw [← hchannel, hchannel']
    refine ⟨Option.some_ne_none channel, ?_⟩
    intro channel' hsome
    rw [hholder, hsome]
  · exact absurd hminus hd

/-- Ending a stream for an unsubscribing call: it goes wrong where the stream has the id -1
and a free entry is found for it. -/
theorem Registered.endStream_proper (hreg : Registered h s) {resp : GoString} {d : ℤ}
    {grpcRespChan : Option RespChannel} (hc : c ≠ -1)
    (hget : getSubscribeRoutingData s.tables resp = some (d, grpcRespChan)) :
    (endStream s.tables d grpcRespChan c).Proper (holder h s.tables) ↔
      ¬ (d = -1 ∧ s.tables.HasFree) := by
  unfold endStream
  rw [proper_andThen, proper_andThen]
  by_cases hd : d = -1
  · subst hd
    by_cases hfree : s.tables.HasFree
    · exact iff_of_false (fun h => reset_improper hreg.agree hfree h.1.1)
        (not_not_intro ⟨rfl, hfree⟩)
    · have hchan : grpcRespChan = none := by
        rcases getSubscribeRoutingData_some hget with ⟨j, hj, -⟩ | ⟨-, hnone⟩
        · exact absurd ⟨j, hj⟩ hfree
        · exact hnone
      rcases resetGrpcRoutingData_cases hreg.agree (-1) with ⟨-, heq⟩ | ⟨-, hfree', -⟩ | ⟨hne, -⟩
      · -- No entry is free, so that nothing is reset and the kill message blocks the loop.
        rw [heq, hchan]
        exact iff_of_true (by simp [Outcome.andThen, sendTo, Outcome.Proper])
          fun h => hfree h.2
      · exact absurd hfree' hfree
      · exact absurd rfl hne
  · obtain ⟨-, hkill⟩ := hreg.kill_proper hd hget
    have hreset : (resetGrpcRoutingData s.tables d).Proper (holder h s.tables) ∧ _ :=
      reset_proper hreg.agree hd
    obtain ⟨hproper, -⟩ := hreset
    have hkeeps := (resetGrpcRoutingData_keeps hreg.agree d).andThen fun h' =>
      sendTo_keeps (c := d) h' grpcRespChan killMessage
    refine iff_of_true ⟨⟨hproper, fun _ => ?_⟩, fun _ => ?_⟩ fun h => hd h.1
    · exact (proper_sendTo grpcRespChan killMessage).mpr hkill
    · exact (reset_proper hkeeps.agree hc).1

/-- Ending a stream for the id -1 always goes wrong. -/
theorem Registered.endStream_improper (hreg : Registered h s) {resp : GoString} {d : ℤ}
    {grpcRespChan : Option RespChannel} (hfree : s.tables.HasFree)
    (hget : getSubscribeRoutingData s.tables resp = some (d, grpcRespChan)) :
    ¬ (endStream s.tables d grpcRespChan (-1)).Proper (holder h s.tables) := by
  unfold endStream
  rw [proper_andThen, proper_andThen]
  by_cases hd : d = -1
  · rw [hd]
    exact fun h => reset_improper hreg.agree hfree h.1.1
  · obtain ⟨hsome, -⟩ := hreg.kill_proper hd hget
    obtain ⟨channel, hchannel⟩ := Option.ne_none_iff_exists'.mp hsome
    have hreset : (resetGrpcRoutingData s.tables d).Proper (holder h s.tables) ∧ _ :=
      reset_proper hreg.agree hd
    obtain ⟨-, hrunning⟩ := hreset
    have hkeeps := (resetGrpcRoutingData_keeps hreg.agree d).andThen fun h' =>
      sendTo_keeps (c := d) h' grpcRespChan killMessage
    intro hproper
    refine reset_improper hkeeps.agree (hasFree_of_keeps hkeeps hfree) (hproper.2 ?_)
    simp [Outcome.andThen, hrunning, hchannel, sendTo]

/-- The loop for a response to a call that holds its id. -/
theorem Registered.response_held (hreg : Registered h s) {resp trimmed : GoString}
    {channel : RespChannel} {isMultipleEvent : Bool} (hc : c ≠ -1)
    (hget : getGrpcRoutingData s.tables c = (some channel, isMultipleEvent)) :
    ((updateRoutingList s.tables resp c isMultipleEvent).andThen
      (sendTo c (some channel) trimmed)).Proper (holder h s.tables) ↔
      ¬ s.tables.MissesStream resp c := by
  obtain ⟨j, hj, hchannel, -⟩ := getGrpcRoutingData_some hget
  obtain ⟨channel', hchannel', hholder⟩ := hreg.holder_eq hj hc
  have hsend : ∀ t, (sendTo c (some channel) trimmed t).Proper (holder h s.tables) := by
    intro t
    rw [proper_sendTo, ← hchannel, hchannel', hholder]
    exact fun _ => id
  rw [proper_andThen, and_iff_left fun _ => hsend _]
  rcases updateRoutingList_cases s.tables resp c isMultipleEvent with
    ⟨heq, htext⟩ | ⟨heq, -, -, hnone⟩ | ⟨d, grpcRespChan, heq, hmultiple, htext, hfound⟩ |
      ⟨t', heq, -, htext, -⟩
  · rw [heq]
    refine iff_of_true (reset_proper hreg.agree hc).1 fun hmisses => ?_
    obtain ⟨-, -, hmultiple, hunsubscribe, -⟩ := hmisses
    rw [hget] at hmultiple
    have hno := (htext hmultiple).1
    exact Bool.false_ne_true (hno.symm.trans hunsubscribe)
  · rw [heq]
    refine iff_of_true (proper_nil _) fun hmisses => ?_
    obtain ⟨-, -, -, -, -, hfound⟩ := hmisses
    rw [getSubscribeRoutingData_eq_none.mpr hnone] at hfound
    exact Option.some_ne_none _ hfound.symm
  · rw [heq, hreg.endStream_proper hc hfound]
    refine not_congr ⟨fun h => ?_, fun hmisses => ?_⟩
    · refine ⟨hc, by rw [hget, Option.isSome_some], by rw [hget, hmultiple], htext, h.2, ?_⟩
      rw [hfound, h.1, Option.map_some]
    · obtain ⟨-, -, -, -, hfree, hfound'⟩ := hmisses
      rw [hfound, Option.map_some] at hfound'
      exact ⟨Option.some.inj hfound', hfree⟩
  · rw [heq]
    refine iff_of_true (proper_nil _) fun hmisses => ?_
    exact Bool.false_ne_true (htext.symm.trans hmisses.2.2.2.1)

/-- The loop for a response that met a channel left in a free entry. -/
theorem Registered.response_leftover (hreg : Registered h s) {resp trimmed : GoString}
    {channel : RespChannel} {isMultipleEvent : Bool}
    (hget : getGrpcRoutingData s.tables (-1) = (some channel, isMultipleEvent)) :
    ((updateRoutingList s.tables resp (-1) isMultipleEvent).andThen
      (sendTo (-1) (some channel) trimmed)).Proper (holder h s.tables) ↔
      ¬ s.tables.MeetsLeftover resp (-1) := by
  obtain ⟨j, hj, -⟩ := getGrpcRoutingData_some hget
  have hfree : s.tables.HasFree := ⟨j, hj⟩
  have hminus : holder h s.tables (-1) = none := by
    rw [holder, if_neg]
    exact fun hused => absurd (markedUsed_range hused).1 (by decide)
  have hsend : ∀ t, ¬ (sendTo (-1) (some channel) trimmed t).Proper (holder h s.tables) := by
    intro t hproper
    rw [proper_sendTo, hminus] at hproper
    exact absurd (hproper channel rfl) (Option.some_ne_none channel).symm
  have hmeets : (isMultipleEvent = true → readsSubscriptionId resp = true →
      getSubscriptionId resp ≠ none) → s.tables.MeetsLeftover resp (-1) :=
    fun hread => ⟨rfl, by rw [hget, Option.isSome_some], by rwa [hget]⟩
  rw [proper_andThen]
  rcases updateRoutingList_cases s.tables resp (-1) isMultipleEvent with
    ⟨heq, htext⟩ | ⟨heq, hmultiple, htext, hnone⟩ |
      ⟨d, grpcRespChan, heq, hmultiple, htext, hfound⟩ | ⟨t', heq, -, htext, hid⟩
  · rw [heq]
    refine iff_of_false (fun h => reset_improper hreg.agree hfree h.1) (not_not_intro ?_)
    refine hmeets fun hmultiple hreads => ?_
    simp [readsSubscriptionId, htext hmultiple] at hreads
  · rw [heq]
    refine iff_of_true ⟨proper_nil _, fun h => absurd h (by simp)⟩ fun hmeets => ?_
    obtain ⟨-, -, hread⟩ := hmeets
    rw [hget] at hread
    refine hread hmultiple ?_ hnone
    cases hunsubscribe : contains resp (str "unsubscribe") with
    | false => simp [readsSubscriptionId, htext hunsubscribe]
    | true => simp [readsSubscriptionId, hunsubscribe]
  · rw [heq]
    refine iff_of_false (fun h => hreg.endStream_improper hfree hfound h.1) (not_not_intro ?_)
    refine hmeets fun _ _ hnone => ?_
    rw [getSubscribeRoutingData_eq_none.mpr hnone] at hfound
    exact Option.some_ne_none _ hfound.symm
  · rw [heq]
    refine iff_of_false (fun h => hsend _ (h.2 rfl)) (not_not_intro ?_)
    refine hmeets fun _ hreads => ?_
    rcases hid with ⟨-, hsubscribe⟩ | ⟨subscriptionId, hsome, -⟩
    · simp [readsSubscriptionId, htext, hsubscribe] at hreads
    · rw [hsome]
      exact Option.some_ne_none subscriptionId

theorem Registered.response_proper (hreg : Registered h s) (resp : GoString) :
    (removeRoutingForwardResponse s.tables resp).Proper (holder h s.tables) ↔
      ¬ Stray s.tables (.response resp) := by
  unfold removeRoutingForwardResponse
  cases hdata : removeInternalData resp with
  | none => simp [proper_nil, Stray, hdata]
  | some found =>
    obtain ⟨trimmed, clientId⟩ := found
    have hstray : Stray s.tables (.response resp) ↔
        s.tables.MeetsLeftover resp clientId ∨ s.tables.MissesStream resp clientId := by
      simp [Stray, hdata]
    rw [hstray]
    cases hget : getGrpcRoutingData s.tables clientId with
    | mk grpcRespChan isMultipleEvent =>
      cases grpcRespChan with
      | none => simp [proper_nil, Tables.MeetsLeftover, Tables.MissesStream, hget]
      | some channel =>
        simp only [hget]
        by_cases hc : clientId = -1
        · subst hc
          rw [hreg.response_leftover hget, not_or, and_iff_left fun hmisses => hmisses.1 rfl]
        · rw [hreg.response_held hc hget, not_or, and_iff_right fun hmeets => hc hmeets.1]

/-- A call is given an id or refused; its effects are proper. -/
theorem serveCall_proper (hagree : t.Agree) (mgrId : ℤ) (vssReq : GoString)
    (channel : RespChannel) (holderOf : ℤ → Option RespChannel) :
    (serveCall mgrId t vssReq channel).Proper holderOf := by
  rcases serveCall_cases hagree mgrId vssReq channel with ⟨i, j, -, -, heq⟩ | ⟨-, heq⟩
  · rw [heq]
    simp [Outcome.Proper, Effect.Proper]
  · rw [heq]
    simp [Outcome.Proper, Effect.Proper]

theorem Registered.routesProperly_iff {mgrId : ℤ} {x : Move} (hreg : Registered h x.before)
    (hx : x.Of (step mgrId)) :
    RoutesProperly h x ↔ ¬ Stray x.before.tables x.event := by
  have hagree := (hreg.move hx).agree
  obtain ⟨-, hserve, -⟩ := step_some hx
  have hiff : RoutesProperly h x ↔ (serve mgrId x.before x.event).Proper
      (holder h x.before.tables) := by
    rw [hserve]
    exact ⟨fun h => h.proper, fun h => ⟨hagree, h⟩⟩
  rw [hiff]
  cases x.event with
  | response resp => exact hreg.response_proper resp
  | call call =>
    refine iff_of_true ?_ id
    cases hreq : call.vssReq with
    | none =>
      simp only [serve, hreq]
      exact proper_nil _
    | some vssReq =>
      simp only [serve, hreq]
      exact serveCall_proper hreg.agree _ _ _ _

variable {mgrId : ℤ}

/-- In every run of the manager the tables agree behind each step, every reset is for an id
of the list, and a message for a client id is sent to the call that holds it, if and only if
no response of the run goes astray. -/
theorem routes_properly (hrun : Run mgrId h s) :
    Always RoutesProperly h ↔ Always (fun _ x => ¬ Stray x.before.tables x.event) h :=
  hrun.always_iff (I := Registered) (fun _ hs => hs ▸ registered_init)
    (fun _ _ hreg hx => hreg.routesProperly_iff hx) fun _ _ hreg hx _ => hreg.move hx

theorem exists_run (mgrId : ℤ) (es : List Event) (p : History → Prop)
    (hes : ∃ r ∈ replay (step mgrId) [] initialState es, p r.1) :
    ∃ h s, Run mgrId h s ∧ p h :=
  exists_run_of_replay es p rfl hes

/-- A response of the core to the gRPC manager. -/
def responseText (clientId : String) (members : String) : GoString :=
  str "\x7b\"RouterId\":\"3?" ++ str clientId ++ str "\"," ++ str members ++ str "\x7d"

def getCall (path : String) : Call := .get { path := str path }

/-- A get call and its response. -/
theorem answered_call_routes_properly : ∃ h s, Run 3 h s ∧ h.length = 2 ∧
    Always RoutesProperly h := by
  obtain ⟨h, s, hrun, hlength, hstraight⟩ := exists_run 3
    [.call (getCall "Vehicle.Speed"), .response (responseText "0" "\"action\":\"get\"")]
    (fun h => h.length = 2 ∧ Always (fun _ x => ¬ Stray x.before.tables x.event) h)
    (by decide +kernel)
  exact ⟨h, s, hrun, hlength, (routes_properly hrun).mpr hstraight⟩

def Effect.isReset (c : ℤ) : Effect → Bool
  | .resetClientId c' => c' = c
  | _ => false

/-- Two calls, of which the second is answered; then a response comes with the client id -1,
which a client can have put into the path of its request. The reset of the index -1 panics. -/
theorem stray_response_resets_outside : ∃ h s, Run 3 h s ∧ ¬ Always RoutesProperly h := by
  obtain ⟨h, s, hrun, hreset⟩ := exists_run 3
    [.call (getCall "Vehicle.Speed\",\"RouterId\":\"3?-1"), .call (getCall "Vehicle.Speed"),
      .response (responseText "1" "\"action\":\"get\""),
      .response (responseText "-1" "\"action\":\"get\"")]
    (fun h => (h.head?.any fun x => x.output.any (Effect.isReset (-1))) = true)
    (by decide +kernel)
  refine ⟨h, s, hrun, ?_⟩
  intro hproper
  cases h with
  | nil => simp at hreset
  | cons x h =>
    obtain ⟨e, he, hminus⟩ := List.any_eq_true.mp hreset
    have hrange := hproper.1.proper e he
    cases e with
    | resetClientId c =>
      have hc : c = -1 := of_decide_eq_true hminus
      have hlow : 0 ≤ c := hrange.1
      omega
    | _ => exact absurd hminus Bool.false_ne_true

end VissServer.GrpcMgr

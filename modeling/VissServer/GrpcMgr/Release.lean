import Mathlib.Data.Fintype.Card
import VissServer.Go.Slices
import VissServer.GrpcMgr.Agreement

/-!
What becomes of a stream whose subscription is unsubscribed. The manager ends a stream when
an unsubscribe response comes for a call with more than one message; the entry of an
unsubscribing call says that it gets one message. So the response only frees the entry and
the client id of this call, and the stream keeps its own.
-/
namespace VissServer.GrpcMgr

open Go Utils Managers Runs

variable {h : History} {s : State} {t : Tables} {c : ℤ} {j : Fin maxGrpcClients}
  {channel : RespChannel} {subscriptionId : GoString}

def Call.isSubscribe : Call → Bool
  | .subscribe _ => true
  | _ => false

def Call.isUnsubscribe : Call → Bool
  | .unsubscribe _ => true
  | _ => false

/-- What is sent to the channel of a call. -/
def Effect.message? : Effect → Option (RespChannel × GoString)
  | .send _ channel message => some (channel, message)
  | .refuse channel message => some (channel, message)
  | _ => none

/-- The messages that calls got, the latest first. -/
def sent (h : History) : List (RespChannel × GoString) :=
  h.flatMap fun x => x.output.reverse.filterMap Effect.message?

/-- The subscription id of a response that reports the success of the action. -/
def succeeded (action text : GoString) : Option GoString := do
  let respMap ← unmarshalMap text
  if asString (valueAt respMap (str "action")) = some action ∧
      isNull (valueAt respMap (str "error")) then
    asString (valueAt respMap (str "subscriptionId"))
  else none

/-- The streams that got the subscription id in the response to their subscribe call, and no
kill message yet. -/
def liveStreams (h : History) (subscriptionId : GoString) : List RespChannel :=
  ((sent h).filter fun m => m.1.call.isSubscribe &&
    succeeded (str "subscribe") m.2 = some subscriptionId &&
    (sent h).all fun m' => m'.1 ≠ m.1 || !contains m'.2 killMessage).map Prod.fst

/-- The unsubscribing call for which a successful response passes, and the subscription. -/
def passing (h : History) (x : Move) : Option (RespChannel × GoString) :=
  match x.event with
  | .call _ => none
  | .response resp => do
      let (_, clientId) ← removeInternalData resp
      let channel ← holder h x.before.tables clientId
      let subscriptionId ← succeeded (str "unsubscribe") resp
      if channel.call.isUnsubscribe then some (channel, subscriptionId) else none

/-- The call holds no routing entry and no client id. -/
def Free (h : History) (t : Tables) (channel : RespChannel) : Prop :=
  (∀ j, (t.grpcRoutingDataList j).clientId ≠ -1 →
    (t.grpcRoutingDataList j).grpcRespChannel ≠ some channel) ∧
  ∀ c, holder h t c ≠ some channel

def Tables.freeEntries (t : Tables) : Finset (Fin maxGrpcClients) :=
  Finset.univ.filter fun j => (t.grpcRoutingDataList j).clientId = -1

def Tables.freeIndexes (t : Tables) : Finset (Fin maxGrpcClients) :=
  Finset.univ.filter fun i => t.grpcClientIndexList i = false

/-- The entries that the calls hold. -/
def Tables.entriesOf (t : Tables) (channels : List RespChannel) : Finset (Fin maxGrpcClients) :=
  Finset.univ.filter fun j => (t.grpcRoutingDataList j).clientId ≠ -1 ∧
    ∃ channel ∈ channels, (t.grpcRoutingDataList j).grpcRespChannel = some channel

/-- When a successful unsubscribe response passes, the streams of the subscription get the
kill message, they and the unsubscribing call become free, and so many more entries and
client indexes are free. -/
def Releases (h : History) (x : Move) : Prop :=
  ∀ channel subscriptionId, passing h x = some (channel, subscriptionId) →
    (∀ stream ∈ liveStreams h subscriptionId, ∃ c, .send c stream killMessage ∈ x.output) ∧
    (∀ ended ∈ channel :: liveStreams h subscriptionId, Free (x :: h) x.after.tables ended) ∧
    x.after.tables.freeEntries.card = x.before.tables.freeEntries.card +
      (x.before.tables.entriesOf (channel :: liveStreams h subscriptionId)).card ∧
    x.after.tables.freeIndexes.card = x.before.tables.freeIndexes.card +
      (x.before.tables.entriesOf (channel :: liveStreams h subscriptionId)).card

/-- No stream is subscribed where a successful unsubscribe response passes. -/
def NothingToRelease (h : History) (x : Move) : Prop :=
  ∀ p ∈ passing h x, liveStreams h p.2 = []

instance (h : History) (x : Move) : Decidable (NothingToRelease h x) :=
  inferInstanceAs (Decidable (∀ p ∈ passing h x, liveStreams h p.2 = []))

theorem isMultipleEvents_unsubscribe (message : UnsubscribeRequestMessage) :
    isMultipleEvents (unsubscribeRequestPbToJson message) = false := by
  have hcontains : contains (unsubscribeRequestPbToJson message) (str "unsubscribe") = true := by
    have hfront : str "\x7b\"action\":\"unsubscribe\"" =
        str "\x7b\"action\":\"" ++ (str "unsubscribe" ++ [34]) := rfl
    have hsub : str "unsubscribe" = 117 :: str "nsubscribe" := rfl
    have hnotMem : (117 : UInt8) ∉ str "\x7b\"action\":\"" := by decide
    rw [contains, unsubscribeRequestPbToJson, hfront, hsub, List.append_assoc, List.append_assoc,
      List.append_assoc, List.append_assoc, index?_append hnotMem]
    rfl
  simp [isMultipleEvents, hcontains]

/-- Two ids of one call are the same id. -/
theorem Registered.lookup_inj (hreg : Registered h s) {c' : ℤ}
    (hc : (registrations h).lookup c = some channel)
    (hc' : (registrations h).lookup c' = some channel) : c = c' := by
  have hmem : ∀ {c}, (registrations h).lookup c = some channel →
      (c, channel) ∈ registrations h := by
    intro c hlookup
    obtain ⟨front, rest, hregs, -⟩ := List.lookup_eq_some_iff.mp hlookup
    simp [hregs]
  have heq := List.inj_on_of_nodup_map hreg.nodup (hmem hc) (hmem hc') rfl
  exact (Prod.mk.inj heq).1

theorem holder_eq_some :
    holder h t c = some channel ↔
      t.MarkedUsed c ∧ (registrations h).lookup c = some channel := by
  unfold holder
  split
  · next hused => simp [hused]
  · next hunused => simp [hunused]

/-- What a successful unsubscribe response does: the entry and the id of the unsubscribing
call are freed, and the response is sent to it. -/
theorem Registered.passing_cases {mgrId : ℤ} {x : Move} (hreg : Registered h x.before)
    (hx : x.Of (step mgrId)) (hpassing : passing h x = some (channel, subscriptionId)) :
    channel.call.isUnsubscribe = true ∧ ∃ c j i trimmed, c ≠ -1 ∧
      (x.before.tables.grpcRoutingDataList j).clientId = c ∧ (i.val : ℤ) = c ∧
      (x.before.tables.grpcRoutingDataList j).grpcRespChannel = some channel ∧
      holder h x.before.tables c = some channel ∧
      x.after.tables = (x.before.tables.setEntry j
        (x.before.tables.grpcRoutingDataList j).reset).markIndex i false ∧
      x.output = [.resetClientId c, .send c channel trimmed] := by
  obtain ⟨-, hserve, -⟩ := step_some hx
  unfold passing at hpassing
  cases hevent : x.event with
  | call call => simp [hevent] at hpassing
  | response resp =>
    rw [hevent] at hserve
    simp only [hevent, Option.bind_eq_bind, Option.bind_eq_some_iff] at hpassing
    obtain ⟨⟨trimmed, c⟩, hdata, channel', hholder, subscriptionId', -, hpassing⟩ := hpassing
    split at hpassing
    · next hunsubscribe =>
      obtain ⟨rfl, -⟩ := Prod.mk.inj (Option.some.inj hpassing)
      obtain ⟨hused, hlookup⟩ := holder_eq_some.mp hholder
      have hc : c ≠ -1 := by
        have hrange := markedUsed_range hused
        omega
      refine ⟨hunsubscribe, ?_⟩
      cases hfirst : x.before.tables.firstEntry (fun entry => entry.clientId = c) with
      | none =>
        obtain ⟨j, hj⟩ := (hreg.agree.used_iff c).mp hused
        have hnone := firstEntry_eq_none.mp hfirst j
        simp [(held_eq_some.mp hj).1] at hnone
      | some j =>
        have hj : (x.before.tables.grpcRoutingDataList j).clientId = c :=
          of_decide_eq_true (firstEntry_eq_some hfirst)
        obtain ⟨channel, hchannel, hlookup', vssReq, hreq, hmultiple⟩ :=
          hreg.channel j (hj ▸ hc)
        rw [hj, hlookup] at hlookup'
        obtain rfl := Option.some.inj hlookup'
        -- The text of an unsubscribe call says that one message is sent for it.
        have hone : (x.before.tables.grpcRoutingDataList j).isMultipleEvents = false := by
          rw [hmultiple]
          cases hcall : channel'.call with
          | unsubscribe message =>
            rw [hcall] at hreq
            rw [← Option.some.inj hreq]
            exact isMultipleEvents_unsubscribe message
          | _ => simp [hcall, Call.isUnsubscribe] at hunsubscribe
        rcases resetGrpcRoutingData_cases hreg.agree c with
          ⟨hnone, -⟩ | ⟨hminus, -⟩ | ⟨-, j', i, hj', hi, heq⟩
        · exact absurd hj (hnone j)
        · exact absurd hminus hc
        · obtain rfl : j' = j := hreg.agree.unique j' j c (held_eq_some.mpr ⟨hj', hc⟩)
            (held_eq_some.mpr ⟨hj, hc⟩)
          have hget : getGrpcRoutingData x.before.tables c = (some channel', false) := by
            rw [getGrpcRoutingData, hfirst]
            simp only [hchannel, hone]
          simp only [serve, removeRoutingForwardResponse, hdata, hget, updateRoutingList,
            Bool.not_false, if_true, heq, Outcome.andThen, sendTo] at hserve
          obtain ⟨htables, houtput, -⟩ := Outcome.mk.inj hserve
          exact ⟨c, j', i, trimmed, hc, hj, hi, hchannel, hholder, htables.symm, houtput.symm⟩
    · simp at hpassing

/-- The unsubscribing call is free behind its response. -/
theorem Registered.passing_free {mgrId : ℤ} {x : Move} (hreg : Registered h x.before)
    (hx : x.Of (step mgrId)) (hpassing : passing h x = some (channel, subscriptionId)) :
    Free (x :: h) x.after.tables channel := by
  obtain ⟨-, c, j, i, trimmed, hc, hj, hi, hchannel, hholder, htables, houtput⟩ :=
    hreg.passing_cases hx hpassing
  have hregs : registrations (x :: h) = registrations h := by
    rw [registrations_cons, houtput]
    rfl
  have hlookup := (holder_eq_some.mp hholder).2
  constructor
  · intro j' hheld hchannel'
    rw [htables] at hheld hchannel'
    by_cases heq : j' = j
    · simp [heq, GrpcRoutingData.reset] at hheld
    · simp only [markIndex_routing, setEntry_routing, Function.update_of_ne heq] at hheld hchannel'
      obtain ⟨channel', hchannel'', hlookup', -⟩ := hreg.channel j' hheld
      obtain rfl := Option.some.inj (hchannel'.symm.trans hchannel'')
      have hid := hreg.lookup_inj hlookup' hlookup
      exact heq (hreg.agree.unique j' j c (held_eq_some.mpr ⟨hid, hc⟩)
        (held_eq_some.mpr ⟨hj, hc⟩))
  · intro c' hholder'
    obtain ⟨hused, hlookup'⟩ := holder_eq_some.mp hholder'
    rw [hregs] at hlookup'
    rw [htables, markIndex_false, hi] at hused
    exact hused.2 (hreg.lookup_inj hlookup' hlookup)

/-- One more entry and one more client index are free, those of the unsubscribing call. -/
theorem Registered.passing_card {mgrId : ℤ} {x : Move} (hreg : Registered h x.before)
    (hx : x.Of (step mgrId)) (hpassing : passing h x = some (channel, subscriptionId)) :
    (x.before.tables.entriesOf [channel]).card = 1 ∧
      x.after.tables.freeEntries.card = x.before.tables.freeEntries.card + 1 ∧
      x.after.tables.freeIndexes.card = x.before.tables.freeIndexes.card + 1 := by
  obtain ⟨-, c, j, i, trimmed, hc, hj, hi, hchannel, hholder, htables, -⟩ :=
    hreg.passing_cases hx hpassing
  obtain ⟨hused, hlookup⟩ := holder_eq_some.mp hholder
  have hentries : x.before.tables.entriesOf [channel] = {j} := by
    ext j'
    simp only [Tables.entriesOf, Finset.mem_filter, Finset.mem_univ, true_and,
      List.mem_singleton, exists_eq_left, Finset.mem_singleton]
    constructor
    · intro hj'
      obtain ⟨hheld, hchannel'⟩ := hj'
      obtain ⟨channel', hchannel'', hlookup', -⟩ := hreg.channel j' hheld
      obtain rfl := Option.some.inj (hchannel'.symm.trans hchannel'')
      exact hreg.agree.unique j' j c (held_eq_some.mpr ⟨hreg.lookup_inj hlookup' hlookup, hc⟩)
        (held_eq_some.mpr ⟨hj, hc⟩)
    · intro heq
      rw [heq]
      exact ⟨hj ▸ hc, hchannel⟩
  have hfree : x.after.tables.freeEntries = insert j x.before.tables.freeEntries := by
    ext j'
    by_cases heq : j' = j
    · simp [Tables.freeEntries, htables, heq, GrpcRoutingData.reset]
    · simp [Tables.freeEntries, htables, heq]
  have hindexes : x.after.tables.freeIndexes = insert i x.before.tables.freeIndexes := by
    ext i'
    by_cases heq : i' = i
    · simp [Tables.freeIndexes, htables, heq, Tables.setEntry]
    · simp [Tables.freeIndexes, htables, heq, Tables.setEntry]
  have hmarked : x.before.tables.grpcClientIndexList i = true := by
    obtain ⟨k, hk, hmark⟩ := hused
    obtain rfl : k = i := Fin.ext (by omega)
    exact hmark
  refine ⟨by rw [hentries, Finset.card_singleton], ?_, ?_⟩
  · rw [hfree, Finset.card_insert_of_notMem]
    simp [Tables.freeEntries, hj, hc]
  · rw [hindexes, Finset.card_insert_of_notMem]
    simp [Tables.freeIndexes, hmarked]

/-- A live stream was opened by a subscribe call. -/
theorem isSubscribe_of_mem {stream : RespChannel} (h' : stream ∈ liveStreams h subscriptionId) :
    stream.call.isSubscribe = true := by
  obtain ⟨m, hm, rfl⟩ := List.mem_map.mp h'
  have hall := (List.mem_filter.mp hm).2
  simp only [Bool.and_eq_true] at hall
  exact hall.1.1

theorem Registered.releases_iff {mgrId : ℤ} {x : Move} (hreg : Registered h x.before)
    (hx : x.Of (step mgrId)) : Releases h x ↔ NothingToRelease h x := by
  constructor
  · intro hreleases p hp
    obtain ⟨channel, subscriptionId⟩ := p
    obtain ⟨hkilled, -⟩ := hreleases channel subscriptionId hp
    obtain ⟨hunsubscribe, c, j, i, trimmed, -, -, -, -, -, -, houtput⟩ :=
      hreg.passing_cases hx hp
    apply List.eq_nil_iff_forall_not_mem.mpr
    intro stream hstream
    -- The only message of the step goes to the unsubscribing call, which is no stream.
    obtain ⟨c', hsend⟩ := hkilled stream hstream
    rw [houtput] at hsend
    simp only [List.mem_cons, reduceCtorEq, Effect.send.injEq, List.not_mem_nil, or_false,
      false_or] at hsend
    have hsubscribe := isSubscribe_of_mem hstream
    rw [hsend.2.1] at hsubscribe
    cases hcall : channel.call <;>
      simp [hcall, Call.isSubscribe, Call.isUnsubscribe] at hsubscribe hunsubscribe
  · intro hnothing channel subscriptionId hpassing
    have hnone : liveStreams h subscriptionId = [] := hnothing (channel, subscriptionId) hpassing
    obtain ⟨hcard, hentries, hindexes⟩ := hreg.passing_card hx hpassing
    rw [hnone, hcard]
    refine ⟨by simp, ?_, hentries, hindexes⟩
    intro ended hended
    rw [List.mem_singleton.mp hended]
    exact hreg.passing_free hx hpassing

variable {mgrId : ℤ}

/-- In every run of the manager the successful unsubscribe responses release the streams and
the unsubscribing calls if and only if no stream is subscribed whenever one passes. -/
theorem unsubscribe_releases (hrun : Run mgrId h s) :
    Always Releases h ↔ Always NothingToRelease h :=
  hrun.always_iff (I := Registered) (fun _ hs => hs ▸ registered_init)
    (fun _ _ hreg hx => hreg.releases_iff hx) fun _ _ hreg hx _ => hreg.move hx

def subscribeCall : Call := .subscribe { path := str "Vehicle.Speed", requestId := str "1" }

def unsubscribeCall : Call := .unsubscribe { subscriptionId := str "7" }

/-- A subscription of another transport manager is unsubscribed. -/
theorem foreign_unsubscribe_releases : ∃ h s, Run 3 h s ∧
    (h.map fun x => x.after.tables.freeEntries.card) = [50, 49] ∧ Always Releases h := by
  obtain ⟨h, s, hrun, hcard, hnothing⟩ := exists_run 3
    [.call unsubscribeCall,
      .response (responseText "0" "\"action\":\"unsubscribe\",\"subscriptionId\":\"7\"")]
    (fun h => (h.map fun x => x.after.tables.freeEntries.card) = [50, 49] ∧
      Always NothingToRelease h) (by decide +kernel)
  exact ⟨h, s, hrun, hcard, (unsubscribe_releases hrun).mpr hnothing⟩

def Effect.isKill : Effect → Bool
  | .send _ _ message => message = killMessage
  | _ => false

/-- One subscribe/unsubscribe cycle: the stream gets no kill message, and one entry and one
client index less are free than before the cycle. -/
theorem unsubscribed_stream_kept : ∃ h s, Run 3 h s ∧
    (h.map fun x => x.after.tables.freeEntries.card) = [49, 48, 49, 49] ∧
    (h.map fun x => x.after.tables.freeIndexes.card) = [49, 48, 49, 49] ∧
    ¬ Always Releases h := by
  obtain ⟨h, s, hrun, hentries, hindexes, q, hpassing, hlive, hkill⟩ := exists_run 3
    [.call subscribeCall,
      .response (responseText "0" "\"action\":\"subscribe\",\"subscriptionId\":\"7\""),
      .call unsubscribeCall,
      .response (responseText "1" "\"action\":\"unsubscribe\",\"subscriptionId\":\"7\"")]
    (fun h => (h.map fun x => x.after.tables.freeEntries.card) = [49, 48, 49, 49] ∧
      (h.map fun x => x.after.tables.freeIndexes.card) = [49, 48, 49, 49] ∧
      ∃ q ∈ h.head?.bind (passing h.tail), liveStreams h.tail q.2 ≠ [] ∧
        ((h.head?.map Move.output).getD []).any Effect.isKill = false)
    (by decide +kernel)
  refine ⟨h, s, hrun, hentries, hindexes, ?_⟩
  intro hreleases
  cases h with
  | nil => simp at hentries
  | cons x h =>
    obtain ⟨channel, subscriptionId⟩ := q
    obtain ⟨stream, rest, hstream⟩ := List.exists_cons_of_ne_nil hlive
    obtain ⟨hkilled, -⟩ := hreleases.1 channel subscriptionId hpassing
    have hmem : stream ∈ liveStreams h subscriptionId := hstream ▸ List.mem_cons_self
    obtain ⟨c, hsend⟩ := hkilled stream hmem
    have hall := List.any_eq_false.mp hkill _ hsend
    simp [Effect.isKill] at hall

end VissServer.GrpcMgr

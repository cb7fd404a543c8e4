import VissServer.GrpcMgr.Manager
import VissServer.Library.Holders

/-!
The two tables of the gRPC manager agree: a client id is marked in the index list if and
only if one routing entry holds it. No function of the manager changes this, and none but
setGrpcRoutingData gives an entry a client id.
-/
namespace VissServer.GrpcMgr

open Go Utils Managers

variable {t t' : Tables} {c : ℤ} {i j : Fin maxGrpcClients}

/-- The client id is marked used in the index list. -/
def Tables.MarkedUsed (t : Tables) (c : ℤ) : Prop :=
  ∃ i : Fin maxGrpcClients, (i.val : ℤ) = c ∧ t.grpcClientIndexList i = true

instance (t : Tables) (c : ℤ) : Decidable (t.MarkedUsed c) :=
  inferInstanceAs (Decidable (∃ i : Fin maxGrpcClients, (i.val : ℤ) = c ∧
    t.grpcClientIndexList i = true))

/-- The client id that a routing entry holds, none where the entry is free. -/
def GrpcRoutingData.held (entry : GrpcRoutingData) : Option ℤ :=
  if entry.clientId = -1 then none else some entry.clientId

def Tables.held (t : Tables) (j : Fin maxGrpcClients) : Option ℤ :=
  (t.grpcRoutingDataList j).held

/-- The ids marked used are those that routing entries hold, each held by one entry. -/
def Tables.Agree (t : Tables) : Prop := Holders.Agree t.MarkedUsed t.held

theorem held_eq_some {entry : GrpcRoutingData} :
    entry.held = some c ↔ entry.clientId = c ∧ c ≠ -1 := by
  unfold GrpcRoutingData.held
  split
  · next h =>
    simp only [reduceCtorEq, false_iff, not_and, not_not]
    intro hc
    rw [← hc, h]
  · next h =>
    simp only [Option.some.injEq]
    exact ⟨fun hc => ⟨hc, hc ▸ h⟩, And.left⟩

theorem held_eq_none {entry : GrpcRoutingData} : entry.held = none ↔ entry.clientId = -1 := by
  simp [GrpcRoutingData.held]

theorem firstIndex_eq_some {p : Fin maxGrpcClients → Bool} (h : firstIndex p = some i) :
    p i = true := List.find?_some h

theorem firstIndex_eq_none {p : Fin maxGrpcClients → Bool} :
    firstIndex p = none ↔ ∀ i, p i = false := by
  simp [firstIndex]

theorem firstEntry_eq_some {p : GrpcRoutingData → Bool} (h : t.firstEntry p = some j) :
    p (t.grpcRoutingDataList j) = true :=
  firstIndex_eq_some (p := fun j => p (t.grpcRoutingDataList j)) h

theorem firstEntry_eq_none {p : GrpcRoutingData → Bool} :
    t.firstEntry p = none ↔ ∀ j, p (t.grpcRoutingDataList j) = false := firstIndex_eq_none

@[simp] theorem setEntry_markedUsed (entry : GrpcRoutingData) :
    (t.setEntry j entry).MarkedUsed = t.MarkedUsed := rfl

@[simp] theorem markIndex_held (used : Bool) : (t.markIndex i used).held = t.held := rfl

@[simp] theorem markIndex_routing (used : Bool) :
    (t.markIndex i used).grpcRoutingDataList = t.grpcRoutingDataList := rfl

@[simp] theorem markIndex_index (used : Bool) :
    (t.markIndex i used).grpcClientIndexList = Function.update t.grpcClientIndexList i used := rfl

@[simp] theorem setEntry_routing (entry : GrpcRoutingData) :
    (t.setEntry j entry).grpcRoutingDataList =
      Function.update t.grpcRoutingDataList j entry := rfl

theorem setEntry_held (entry : GrpcRoutingData) :
    (t.setEntry j entry).held = Function.update t.held j entry.held := by
  funext j'
  by_cases h : j' = j
  · simp [Tables.held, Tables.setEntry, h]
  · simp [Tables.held, Tables.setEntry, h]

theorem markedUsed_range (h : t.MarkedUsed c) : 0 ≤ c ∧ c < maxGrpcClients := by
  obtain ⟨i, hi, -⟩ := h
  have := i.isLt
  omega

theorem markIndex_true : (t.markIndex i true).MarkedUsed c ↔ t.MarkedUsed c ∨ c = i.val := by
  constructor
  · intro h
    obtain ⟨k, hk, hused⟩ := h
    by_cases heq : k = i
    · exact .inr (by rw [← hk, heq])
    · rw [markIndex_index, Function.update_of_ne heq] at hused
      exact .inl ⟨k, hk, hused⟩
  · intro h
    by_cases hc : c = i.val
    · exact ⟨i, hc.symm, Function.update_self ..⟩
    · obtain ⟨k, hk, hused⟩ := h.resolve_right hc
      have hne : k ≠ i := fun heq => hc (by rw [← hk, heq])
      exact ⟨k, hk, by rw [markIndex_index, Function.update_of_ne hne, hused]⟩

theorem markIndex_false :
    (t.markIndex i false).MarkedUsed c ↔ t.MarkedUsed c ∧ c ≠ i.val := by
  constructor
  · intro h
    obtain ⟨k, hk, hused⟩ := h
    have hne : k ≠ i := by
      intro heq
      simp [heq] at hused
    rw [markIndex_index, Function.update_of_ne hne] at hused
    refine ⟨⟨k, hk, hused⟩, ?_⟩
    intro hc
    apply hne
    apply Fin.ext
    omega
  · intro h
    obtain ⟨⟨k, hk, hused⟩, hc⟩ := h
    have hne : k ≠ i := fun heq => hc (by rw [← hk, heq])
    exact ⟨k, hk, by rw [markIndex_index, Function.update_of_ne hne, hused]⟩

theorem initialTables_agree : initialTables.Agree where
  used_iff c := by simp [Tables.MarkedUsed, initialTables, Tables.held, GrpcRoutingData.held]
  unique := by simp [initialTables, Tables.held, GrpcRoutingData.held]

theorem Tables.Agree.range (h : t.Agree) (hj : (t.grpcRoutingDataList j).clientId = c)
    (hc : c ≠ -1) : 0 ≤ c ∧ c < maxGrpcClients :=
  markedUsed_range ((h.used_iff c).mpr ⟨j, held_eq_some.mpr ⟨hj, hc⟩⟩)

/-! ## What the functions leave alone -/

/-- Every entry that holds a client id behind the code held it before, for the same call. -/
def Narrows (t t' : Tables) : Prop :=
  ∀ j, (t'.grpcRoutingDataList j).clientId ≠ -1 →
    (t'.grpcRoutingDataList j).clientId = (t.grpcRoutingDataList j).clientId ∧
    (t'.grpcRoutingDataList j).grpcRespChannel = (t.grpcRoutingDataList j).grpcRespChannel ∧
    (t'.grpcRoutingDataList j).isMultipleEvents = (t.grpcRoutingDataList j).isMultipleEvents

theorem narrows_rfl : Narrows t t := fun _ _ => ⟨rfl, rfl, rfl⟩

theorem Narrows.trans {t'' : Tables} (h : Narrows t t') (h' : Narrows t' t'') :
    Narrows t t'' := by
  intro j hj
  obtain ⟨hid, hchannel, hmultiple⟩ := h' j hj
  obtain ⟨hid', hchannel', hmultiple'⟩ := h j (hid ▸ hj)
  exact ⟨hid.trans hid', hchannel.trans hchannel', hmultiple.trans hmultiple'⟩

/-- Code that starts with agreeing tables leaves them agreeing and gives no client id. -/
structure Keeps (t : Tables) (o : Outcome) : Prop where
  agree : o.tables.Agree
  narrows : Narrows t o.tables
  silent : o.effects.filterMap Effect.registration? = []

theorem keeps_rfl (h : t.Agree) {effects : List Effect} {status : Status}
    (heffects : effects.filterMap Effect.registration? = []) : Keeps t ⟨t, effects, status⟩ :=
  ⟨h, narrows_rfl, heffects⟩

theorem Keeps.andThen {o : Outcome} {f : Tables → Outcome} (ho : Keeps t o)
    (hf : o.tables.Agree → Keeps o.tables (f o.tables)) : Keeps t (o.andThen f) := by
  unfold Outcome.andThen
  split
  · obtain ⟨hagree, hnarrows, hsilent⟩ := hf ho.agree
    exact ⟨hagree, ho.narrows.trans hnarrows, by simp [ho.silent, hsilent]⟩
  · exact ho

theorem sendTo_keeps (h : t.Agree) (grpcRespChan : Option RespChannel) (message : GoString) :
    Keeps t (sendTo c grpcRespChan message t) := by
  cases grpcRespChan with
  | some channel => exact keeps_rfl h rfl
  | none => exact keeps_rfl h rfl

/-- A reset finds no entry, or frees the entry and the index of the id, or finds a free entry
where the id is -1, which is outside the list. -/
theorem resetGrpcRoutingData_cases (h : t.Agree) (c : ℤ) :
    ((∀ j, (t.grpcRoutingDataList j).clientId ≠ c) ∧
      resetGrpcRoutingData t c = ⟨t, [], .running⟩) ∨
    (c = -1 ∧ (∃ j, (t.grpcRoutingDataList j).clientId = -1) ∧
      resetGrpcRoutingData t c = ⟨t, [.resetClientId (-1)], .panicked⟩) ∨
    (c ≠ -1 ∧ ∃ j i, (t.grpcRoutingDataList j).clientId = c ∧ (i.val : ℤ) = c ∧
      resetGrpcRoutingData t c =
        ⟨(t.setEntry j (t.grpcRoutingDataList j).reset).markIndex i false,
          [.resetClientId c], .running⟩) := by
  cases hfirst : t.firstEntry (fun entry => entry.clientId = c) with
  | none =>
    refine .inl ⟨?_, by rw [resetGrpcRoutingData, hfirst]⟩
    simpa using firstEntry_eq_none.mp hfirst
  | some j =>
    have hj : (t.grpcRoutingDataList j).clientId = c := by simpa using firstEntry_eq_some hfirst
    rw [resetGrpcRoutingData, hfirst]
    by_cases hc : c = -1
    · refine .inr (.inl ⟨hc, ⟨j, hj.trans hc⟩, ?_⟩)
      have hentry : (t.grpcRoutingDataList j).reset = t.grpcRoutingDataList j := by
        rw [GrpcRoutingData.reset, ← hc, ← hj]
      have hsame : t.setEntry j (t.grpcRoutingDataList j).reset = t := by
        rw [Tables.setEntry, hentry, Function.update_eq_self]
      simp only [hsame]
      rw [resetClientId, dif_neg (by omega), hc]
    · have hrange := h.range hj hc
      refine .inr (.inr ⟨hc, j, ⟨c.toNat, by omega⟩, hj, by simp [hrange.1], ?_⟩)
      simp only [resetClientId]
      rw [dif_pos hrange]

theorem resetGrpcRoutingData_keeps (h : t.Agree) (c : ℤ) :
    Keeps t (resetGrpcRoutingData t c) := by
  rcases resetGrpcRoutingData_cases h c with ⟨-, heq⟩ | ⟨-, -, heq⟩ | ⟨hc, j, i, hj, hi, heq⟩
  · rw [heq]
    exact keeps_rfl h rfl
  · rw [heq]
    exact keeps_rfl h rfl
  · rw [heq]
    refine ⟨?_, ?_, rfl⟩
    · have hrelease := h.release (held_eq_some.mpr ⟨hj, hc⟩)
      have hused : (t.setEntry j (t.grpcRoutingDataList j).reset
          |>.markIndex i false).MarkedUsed = fun c' => t.MarkedUsed c' ∧ c' ≠ c := by
        funext c'
        rw [markIndex_false, hi, setEntry_markedUsed]
      rw [Tables.Agree, hused, markIndex_held, setEntry_held]
      exact hrelease
    · intro j' hj'
      by_cases heq : j' = j
      · simp [heq, GrpcRoutingData.reset] at hj'
      · simp [heq]

theorem updateGrpcRoutingData_keeps (h : t.Agree) (c : ℤ) (subscriptionId : GoString)
    (status : Status) : Keeps t ⟨updateGrpcRoutingData t c subscriptionId, [], status⟩ := by
  unfold updateGrpcRoutingData
  split
  · next j _ =>
    refine ⟨?_, ?_, rfl⟩
    · rw [Tables.Agree, setEntry_markedUsed, setEntry_held]
      have hsame : Function.update t.held j
          (GrpcRoutingData.held { t.grpcRoutingDataList j with subscriptionId }) = t.held :=
        Function.update_eq_self j t.held
      rw [hsame]
      exact h
    · intro j' _
      by_cases heq : j' = j
      · simp [Tables.setEntry, heq]
      · simp [Tables.setEntry, heq]
  · exact keeps_rfl h rfl

theorem endStream_keeps (h : t.Agree) (subscribeClientId : ℤ)
    (subscribeChan : Option RespChannel) (c : ℤ) :
    Keeps t (endStream t subscribeClientId subscribeChan c) := by
  have hreset := resetGrpcRoutingData_keeps h subscribeClientId
  have hsend := hreset.andThen fun h' =>
    sendTo_keeps (c := subscribeClientId) h' subscribeChan killMessage
  exact hsend.andThen fun h' => resetGrpcRoutingData_keeps h' c

theorem getSubscribeRoutingData_eq_none {resp : GoString} :
    getSubscribeRoutingData t resp = none ↔ getSubscriptionId resp = none := by
  unfold getSubscribeRoutingData
  cases getSubscriptionId resp with
  | none => simp
  | some subscriptionId =>
    simp only [Option.bind_eq_bind, Option.bind_some, reduceCtorEq, iff_false]
    split <;> simp

/-- What updateRoutingList does, by the text of the response. -/
theorem updateRoutingList_cases (t : Tables) (resp : GoString) (c : ℤ)
    (isMultipleEvent : Bool) :
    (updateRoutingList t resp c isMultipleEvent = resetGrpcRoutingData t c ∧
      (isMultipleEvent = true → contains resp (str "unsubscribe") = false ∧
        contains resp (str "subscriptionId") = false)) ∨
    (updateRoutingList t resp c isMultipleEvent = ⟨t, [], .panicked⟩ ∧ isMultipleEvent = true ∧
      (contains resp (str "unsubscribe") = false → contains resp (str "subscribe") = true ∧
        contains resp (str "subscriptionId") = true) ∧ getSubscriptionId resp = none) ∨
    (∃ subscribeClientId subscribeChan,
      updateRoutingList t resp c isMultipleEvent =
        endStream t subscribeClientId subscribeChan c ∧ isMultipleEvent = true ∧
      contains resp (str "unsubscribe") = true ∧
      getSubscribeRoutingData t resp = some (subscribeClientId, subscribeChan)) ∨
    (∃ t', updateRoutingList t resp c isMultipleEvent = ⟨t', [], .running⟩ ∧
      isMultipleEvent = true ∧ contains resp (str "unsubscribe") = false ∧
      (t' = t ∧ contains resp (str "subscribe") = false ∨
        ∃ subscriptionId, getSubscriptionId resp = some subscriptionId ∧
          t' = updateGrpcRoutingData t c subscriptionId)) := by
  cases isMultipleEvent with
  | false => exact .inl ⟨rfl, fun h => absurd h Bool.false_ne_true⟩
  | true =>
    cases hunsubscribe : contains resp (str "unsubscribe") with
    | true =>
      cases hget : getSubscribeRoutingData t resp with
      | none =>
        exact .inr (.inl ⟨by simp [updateRoutingList, hunsubscribe, hget], rfl, by simp,
          getSubscribeRoutingData_eq_none.mp hget⟩)
      | some found =>
        exact .inr (.inr (.inl ⟨found.1, found.2, by simp [updateRoutingList, hunsubscribe, hget],
          rfl, rfl, rfl⟩))
    | false =>
      cases hsubscribe : contains resp (str "subscribe") with
      | false =>
        refine .inr (.inr (.inr ⟨t, ?_, rfl, rfl, .inl ⟨rfl, rfl⟩⟩))
        simp [updateRoutingList, hunsubscribe, hsubscribe]
      | true =>
        cases hid : contains resp (str "subscriptionId") with
        | false =>
          refine .inl ⟨?_, fun _ => ⟨rfl, rfl⟩⟩
          simp [updateRoutingList, hunsubscribe, hsubscribe, hid]
        | true =>
          cases hget : getSubscriptionId resp with
          | none =>
            refine .inr (.inl ⟨?_, rfl, fun _ => ⟨rfl, rfl⟩, rfl⟩)
            simp [updateRoutingList, hunsubscribe, hsubscribe, hid, hget]
          | some subscriptionId =>
            refine .inr (.inr (.inr ⟨_, ?_, rfl, rfl, .inr ⟨subscriptionId, rfl, rfl⟩⟩))
            simp [updateRoutingList, hunsubscribe, hsubscribe, hid, hget]

theorem updateRoutingList_keeps (h : t.Agree) (resp : GoString) (c : ℤ)
    (isMultipleEvent : Bool) : Keeps t (updateRoutingList t resp c isMultipleEvent) := by
  rcases updateRoutingList_cases t resp c isMultipleEvent with
    ⟨heq, -⟩ | ⟨heq, -⟩ | ⟨d, grpcRespChan, heq, -⟩ | ⟨t', heq, -, -, hupdate⟩
  · rw [heq]
    exact resetGrpcRoutingData_keeps h c
  · rw [heq]
    exact keeps_rfl h rfl
  · rw [heq]
    exact endStream_keeps h d grpcRespChan c
  · rw [heq]
    rcases hupdate with ⟨rfl, -⟩ | ⟨subscriptionId, -, rfl⟩
    · exact keeps_rfl h rfl
    · exact updateGrpcRoutingData_keeps h c subscriptionId _

theorem removeRoutingForwardResponse_keeps (h : t.Agree) (response : GoString) :
    Keeps t (removeRoutingForwardResponse t response) := by
  unfold removeRoutingForwardResponse
  split
  · exact keeps_rfl h rfl
  · split
    · exact keeps_rfl h rfl
    · exact (updateRoutingList_keeps h _ _ _).andThen fun h' => sendTo_keeps h' _ _

/-! ## Calls -/

/-- A call gets the first unused client id and a free routing entry, or there is no unused
id. -/
theorem serveCall_cases (h : t.Agree) (mgrId : ℤ) (vssReq : GoString) (channel : RespChannel) :
    (∃ i j, ¬ t.MarkedUsed i.val ∧ (t.grpcRoutingDataList j).clientId = -1 ∧
      serveCall mgrId t vssReq channel =
        ⟨(t.markIndex i true).setEntry j
            { t.grpcRoutingDataList j with
              clientId := i.val
              grpcRespChannel := some channel
              isMultipleEvents := isMultipleEvents vssReq },
          [.setGrpcRoutingData i.val channel,
            .forward (addRoutingForwardRequest vssReq mgrId i.val)], .running⟩) ∨
    ((∀ i, t.grpcClientIndexList i = true) ∧
      serveCall mgrId t vssReq channel = ⟨t, [.refuse channel maxSessionsResponse], .running⟩) := by
  cases hfirst : firstIndex (fun i => !t.grpcClientIndexList i) with
  | none =>
    refine .inr ⟨?_, by simp [serveCall, getClientId, hfirst]⟩
    simpa using firstIndex_eq_none.mp hfirst
  | some i =>
    have hi : t.grpcClientIndexList i = false := by simpa using firstIndex_eq_some hfirst
    have hunused : ¬ t.MarkedUsed i.val := by
      intro hused
      obtain ⟨k, hk, hk'⟩ := hused
      have heq : k = i := Fin.ext (by omega)
      simp [heq, hi] at hk'
    have hmarks : ∀ c, t.MarkedUsed c → ∃ k : Fin maxGrpcClients, (k.val : ℤ) = c :=
      fun c hc => hc.imp fun k hk => hk.1
    obtain ⟨j₀, hj₀⟩ := h.exists_free hmarks hunused
    cases hentry : (t.markIndex i true).firstEntry (fun entry => entry.clientId = -1) with
    | none =>
      have hnone := firstEntry_eq_none.mp hentry j₀
      simp [held_eq_none.mp hj₀] at hnone
    | some j =>
      have hj : (t.grpcRoutingDataList j).clientId = -1 :=
        of_decide_eq_true (firstEntry_eq_some hentry)
      refine .inl ⟨i, j, hunused, hj, ?_⟩
      simp [serveCall, getClientId, hfirst, setGrpcRoutingData, hentry, Outcome.andThen]

theorem serveCall_agree (h : t.Agree) (mgrId : ℤ) (vssReq : GoString) (channel : RespChannel) :
    (serveCall mgrId t vssReq channel).tables.Agree := by
  rcases serveCall_cases h mgrId vssReq channel with ⟨i, j, hi, hj, heq⟩ | ⟨-, heq⟩
  · have htake := h.take hi (held_eq_none.mpr hj)
    have hne : (i.val : ℤ) ≠ -1 := by omega
    have hused : (t.markIndex i true).MarkedUsed = fun c => t.MarkedUsed c ∨ c = i.val := by
      funext c
      rw [markIndex_true]
    rw [heq, Tables.Agree, setEntry_held, setEntry_markedUsed, hused, markIndex_held]
    simpa [GrpcRoutingData.held, hne] using htake
  · rw [heq]
    exact h

end VissServer.GrpcMgr

import VissServer.AtServer.Steps

/-!
Consent and the access tokens that an at-inquiry yields. The history of a run tells
which consent-reply an entry of the pending list got last since it was created; the
Consent field of its slot holds that text once there is one, and before that the
text which an earlier session left there.
-/
namespace VissServer.AtServer

open Go Utils Runs

/-- The slot of the pending list that a consent-reply is for. -/
def repliedSlot (x : ServerMove) : Option Slot :=
  (replyId x.event.2).bind x.before.pendingSlot

/-- The text of the last consent-reply to the entry of a slot since it was created. -/
def lastReply : ServerHistory → Slot → Option GoString
  | [], _ => none
  | x :: past, i =>
      if (x.before.pendingList i).gatingId = -1 then none
      else if repliedSlot x = some i then replyConsent x.event.2
      else lastReply past i

/-- The last reply to a session; the id -1 finds free slots, which are no session. -/
def sessionReply (past : ServerHistory) (gatingId : ℤ) (i : Slot) : Option GoString :=
  if gatingId = -1 then none else lastReply past i

def agrees (consent : GoString) : Bool :=
  consent = str "YES" || consent = str "IN_VEHICLE"

/-- The consents on which an at-inquiry yields no token. -/
def withholds (consent : GoString) : Bool :=
  consent = str "NOT_SET" || consent = str "NO"

def issuedPurposes (effects : List Effect) : List GoString :=
  effects.filterMap fun
    | .issue purpose _ => some purpose
    | _ => none

/-- A token for a purpose that needs consent is issued on an at-inquiry of a session
whose last consent-reply agrees. -/
def Consented (cfg : Config) (past : ServerHistory) (x : ServerMove) : Prop :=
  ∀ purpose ∈ issuedPurposes x.output, checkifConsent cfg purpose →
    ∃ g ∈ inquiryId x.event.2, ∃ i ∈ x.before.pendingSlot g,
      ∃ consent ∈ sessionReply past g i, agrees consent

/-- Whether the code treats an inquiry as it should: the last reply has one of the four
texts that the protocol knows, or there is none and the slot holds a withholding text
of an earlier session. -/
def answersInquiry (reply : Option GoString) (stored : GoString) : Bool :=
  match reply with
  | some consent => agrees consent || withholds consent
  | none => withholds stored

def InquiryAnswered (cfg : Config) (past : ServerHistory) (x : ServerMove) : Prop :=
  ∀ g ∈ inquiryId x.event.2, ∀ i ∈ x.before.pendingSlot g,
    checkifConsent cfg (x.before.pendingList i).atGenData.purpose →
      answersInquiry (sessionReply past g i) (x.before.pendingList i).consent

instance (cfg : Config) (past : ServerHistory) (x : ServerMove) :
    Decidable (Consented cfg past x) := by
  unfold Consented
  infer_instance

instance (cfg : Config) (past : ServerHistory) (x : ServerMove) :
    Decidable (InquiryAnswered cfg past x) := by
  unfold InquiryAnswered
  infer_instance

/-- Once a live entry got a reply, its slot holds the text of the last one. -/
def ReplyStored (past : ServerHistory) (s : State) : Prop :=
  ∀ i consent, (s.pendingList i).gatingId ≠ -1 → lastReply past i = some consent →
    (s.pendingList i).consent = consent

section

variable {cfg : Config} {past : ServerHistory} {x : ServerMove}

theorem lastReply_cons_free {i : Slot} (hfree : (x.before.pendingList i).gatingId = -1) :
    lastReply (x :: past) i = none := by
  simp [lastReply, hfree]

theorem lastReply_cons_live {i : Slot} (hlive : (x.before.pendingList i).gatingId ≠ -1)
    (hreplied : repliedSlot x ≠ some i) : lastReply (x :: past) i = lastReply past i := by
  simp [lastReply, hlive, hreplied]

/-- A move keeps the replies stored where each slot that is live afterwards was free
before, or was not replied to and keeps its consent. -/
theorem ReplyStored.frame (h : ReplyStored past x.before)
    (hframe : ∀ i, (x.after.pendingList i).gatingId ≠ -1 →
      (x.before.pendingList i).gatingId ≠ -1 →
      repliedSlot x ≠ some i ∧
        (x.after.pendingList i).consent = (x.before.pendingList i).consent) :
    ReplyStored (x :: past) x.after := by
  intro i consent hafter hlast
  by_cases hbefore : (x.before.pendingList i).gatingId = -1
  · simp [lastReply_cons_free hbefore] at hlast
  · obtain ⟨hreplied, hconsent⟩ := hframe i hafter hbefore
    rw [lastReply_cons_live hbefore hreplied] at hlast
    exact hconsent.trans (h i consent hbefore hlast)

theorem repliedSlot_none (h : replyId x.event.2 = none) : repliedSlot x = none := by
  simp [repliedSlot, h]

theorem ReplyStored.frame_same (h : ReplyStored past x.before) (hreplied : repliedSlot x = none)
    (hlist : x.after.pendingList = x.before.pendingList) : ReplyStored (x :: past) x.after :=
  h.frame fun i _ _ => ⟨by simp [hreplied], by rw [hlist]⟩

/-- The frame where one slot is freed or filled and all others are as before. -/
theorem ReplyStored.frame_update (h : ReplyStored past x.before)
    (hreplied : repliedSlot x = none) {i : Slot} {e : PendingListElem}
    (hlist : x.after.pendingList = Function.update x.before.pendingList i e)
    (hi : e.gatingId = -1 ∨ (x.before.pendingList i).gatingId = -1) :
    ReplyStored (x :: past) x.after := by
  refine h.frame fun j hafter hbefore => ⟨by simp [hreplied], ?_⟩
  by_cases hij : j = i
  · subst hij
    rw [hlist, Function.update_self] at hafter
    exact absurd (hi.resolve_left hafter) hbefore
  · rw [hlist, Function.update_of_ne hij]

/-- The consent-reply stores its text where the history records it. -/
theorem ReplyStored.frame_reply (h : ReplyStored past x.before) {i : Slot} {consent : GoString}
    (hreplied : repliedSlot x = some i) (hconsent : replyConsent x.event.2 = some consent)
    (hlist : x.after.pendingList =
      Function.update x.before.pendingList i { x.before.pendingList i with consent }) :
    ReplyStored (x :: past) x.after := by
  intro j text hafter hlast
  by_cases hij : j = i
  · subst hij
    rw [hlist, Function.update_self] at hafter ⊢
    simp only [lastReply, hreplied, if_true, if_neg hafter, hconsent] at hlast
    exact Option.some.inj hlast
  · rw [hlist, Function.update_of_ne hij] at hafter ⊢
    have hother : repliedSlot x ≠ some j := by
      rw [hreplied]
      exact fun heq => hij (Option.some.inj heq).symm
    rw [lastReply_cons_live hafter hother] at hlast
    exact h j text hafter hlast

theorem replyStored_next (h : ReplyStored past x.before) (hx : x.Of (serverStep cfg)) :
    ReplyStored (x :: past) x.after := by
  obtain ⟨s, ⟨m, e⟩, s', effects⟩ := x
  have hchange : Change cfg m s e s' effects := change_of_move hx
  have hnone : replyId e = none → repliedSlot ⟨s, (m, e), s', effects⟩ = none :=
    repliedSlot_none (x := ⟨s, (m, e), s', effects⟩)
  clear hx
  cases hchange with
  | quiet hpending _ _ _ _ _ _ hreply _ =>
    refine h.frame_same ?_ hpending
    simpa [repliedSlot, Option.bind_eq_none_iff] using hreply
  | ask haccepted _ _ hi _ =>
    exact h.frame_update (hnone (accepted_replyId haccepted)) (setExpiryTicker_pendingList _ _)
      (.inr (State.pendingSlot_some hi))
  | grant haccepted _ hwrite =>
    have hlist := writeToActiveList_pendingList hwrite
    exact h.frame_same (hnone (accepted_replyId haccepted)) hlist
  | refuse hinquiry _ _ => exact h.frame_update (hnone (inquiryId_replyId hinquiry)) rfl (.inl rfl)
  | yield hinquiry _ _ _ hwrite =>
    exact h.frame_update (hnone (inquiryId_replyId hinquiry))
      (writeToActiveList_pendingList hwrite) (.inl rfl)
  | reply hreply hi hconsent =>
    exact h.frame_reply (by simp [repliedSlot, hreply, hi]) hconsent rfl
  | cancelPending hcancel _ =>
    exact h.frame_update (hnone (cancelId_replyId hcancel)) rfl (.inl rfl)
  | cancelActive hcancel _ _ _ => exact h.frame_same (hnone (cancelId_replyId hcancel)) rfl
  | purgePending _ _ _ =>
    exact h.frame_update (hnone rfl) (setExpiryTicker_pendingList _ _) (.inl rfl)
  | purgeActive _ _ _ => exact h.frame_same (hnone rfl) (setExpiryTicker_pendingList _ _)

/-- The reply of a session, once there is one, is the text stored in its slot. -/
theorem sessionReply_stored (h : ReplyStored past x.before) {g : ℤ} {i : Slot}
    {consent : GoString} (hi : x.before.pendingSlot g = some i)
    (hreply : sessionReply past g i = some consent) :
    (x.before.pendingList i).consent = consent := by
  by_cases hg : g = -1
  · simp [sessionReply, hg] at hreply
  · rw [sessionReply, if_neg hg] at hreply
    exact h i consent (by rwa [State.pendingSlot_some hi]) hreply

/-- Where the slot holds a withholding text, the inquiry is answered as it should be. -/
theorem answersInquiry_of_withholds (h : ReplyStored past x.before) {g : ℤ} {i : Slot}
    (hi : x.before.pendingSlot g = some i)
    (hstored : withholds (x.before.pendingList i).consent = true) :
    answersInquiry (sessionReply past g i) (x.before.pendingList i).consent = true := by
  cases hreply : sessionReply past g i with
  | none => exact hstored
  | some consent =>
    rw [sessionReply_stored h hi hreply] at hstored
    simp [answersInquiry, hstored]

/-- Where it holds another text, the answer is right exactly on an agreeing reply. -/
theorem answersInquiry_iff_agrees (h : ReplyStored past x.before) {g : ℤ} {i : Slot}
    (hi : x.before.pendingSlot g = some i)
    (hstored : withholds (x.before.pendingList i).consent = false) :
    answersInquiry (sessionReply past g i) (x.before.pendingList i).consent = true ↔
      ∃ consent ∈ sessionReply past g i, agrees consent := by
  cases hreply : sessionReply past g i with
  | none => simp [answersInquiry, hstored]
  | some consent =>
    rw [sessionReply_stored h hi hreply] at hstored
    simp [answersInquiry, hstored]

theorem issuedPurposes_responses {effects : List Effect}
    (h : ∀ e ∈ effects, e.isResponse = true) : issuedPurposes effects = [] := by
  rw [issuedPurposes, List.filterMap_eq_nil_iff]
  intro e he
  have hresponse := h e he
  cases e <;> first | rfl | simp [Effect.isResponse] at hresponse

/-- A move without a token and without an inquiry has nothing to answer. -/
theorem consented_iff_of_none (hissue : issuedPurposes x.output = [])
    (hinquiry : inquiryId x.event.2 = none) :
    Consented cfg past x ↔ InquiryAnswered cfg past x := by
  simp [Consented, InquiryAnswered, hissue, hinquiry]

/-- An inquiry that yields no token is answered as it should be. -/
theorem consented_iff_of_withholds (h : ReplyStored past x.before)
    (hissue : issuedPurposes x.output = [])
    (hstored : ∀ g, inquiryId x.event.2 = some g → ∀ i, x.before.pendingSlot g = some i →
      withholds (x.before.pendingList i).consent = true) :
    Consented cfg past x ↔ InquiryAnswered cfg past x := by
  have hconsented : Consented cfg past x := by simp [Consented, hissue]
  refine ⟨fun _ g hg i hi _ => ?_, fun _ => hconsented⟩
  exact answersInquiry_of_withholds h hi (hstored g hg i hi)

/-- An inquiry that yields a token does so rightly exactly on an agreeing reply. -/
theorem consented_iff_of_yield (h : ReplyStored past x.before) {g : ℤ} {i : Slot}
    (hinquiry : inquiryId x.event.2 = some g) (hi : x.before.pendingSlot g = some i)
    (hissue : issuedPurposes x.output = [(x.before.pendingList i).atGenData.purpose])
    (hstored : withholds (x.before.pendingList i).consent = false) :
    Consented cfg past x ↔ InquiryAnswered cfg past x := by
  have hanswer := answersInquiry_iff_agrees h hi hstored
  simp only [Consented, InquiryAnswered, hissue, hinquiry, hi, List.mem_singleton, forall_eq,
    Option.mem_def, Option.some.injEq, forall_eq', exists_eq_left', hanswer]

/-- One move issues tokens rightly exactly when its inquiry is answered rightly. -/
theorem consented_iff (h : ReplyStored past x.before) (hx : x.Of (serverStep cfg)) :
    Consented cfg past x ↔ InquiryAnswered cfg past x := by
  obtain ⟨s, ⟨m, e⟩, s', effects⟩ := x
  have hchange : Change cfg m s e s' effects := change_of_move hx
  clear hx
  cases hchange with
  | quiet _ _ _ _ hresponses _ hinquiry _ _ =>
    refine consented_iff_of_withholds h (issuedPurposes_responses hresponses) ?_
    intro g hg i hi
    simp [withholds, hinquiry g hg i hi]
  | ask haccepted _ _ _ _ => exact consented_iff_of_none rfl (accepted_inquiryId haccepted)
  | @grant payload _ _ _ _ haccepted hconsent _ =>
    have hnone := accepted_inquiryId haccepted
    simp [Consented, InquiryAnswered, issuedPurposes, hconsent, hnone]
  | refuse hinquiry hi hno =>
    refine consented_iff_of_withholds h rfl ?_
    intro g' hg' i' hi'
    rw [hinquiry, Option.some.injEq] at hg'
    rw [← hg', hi, Option.some.injEq] at hi'
    simp [withholds, ← hi', hno]
  | yield hinquiry hi hnotset hno _ =>
    exact consented_iff_of_yield h hinquiry hi rfl (by simp [withholds, hnotset, hno])
  | reply hreply _ _ => exact consented_iff_of_none rfl (replyId_inquiryId hreply)
  | cancelPending hcancel _ => exact consented_iff_of_none rfl (cancelId_inquiryId hcancel)
  | cancelActive hcancel _ _ _ => exact consented_iff_of_none rfl (cancelId_inquiryId hcancel)
  | purgePending _ _ _ => exact consented_iff_of_none rfl rfl
  | purgeActive _ _ _ => exact consented_iff_of_none rfl rfl

end

/-- In every run, tokens are issued on agreeing consents only exactly when each
at-inquiry comes after a reply with one of the known texts, or finds a withholding one. -/
theorem consent_required_iff {cfg : Config} {h : ServerHistory} {s : State}
    (hrun : ServerRun cfg h s) :
    Always (Consented cfg) h ↔ Always (InquiryAnswered cfg) h := by
  refine hrun.always_iff (I := ReplyStored) ?_ (fun _ _ => consented_iff)
    (fun _ _ hinv hx _ => replyStored_next hinv hx)
  rintro s -  i consent - hlast
  simp [lastReply] at hlast

/-- A session that gets its token after the reply YES. -/
theorem consent_required_after_yes : ∃ h s, ServerRun (sampleConfig true) h s ∧
    h.length = 4 ∧ (h.flatMap fun x => issuedPurposes x.output) = [str "fuel"] ∧
    Always (Consented (sampleConfig true)) h := by
  obtain ⟨h, s, hrun, hlength, hissued, hanswered⟩ := exists_serverRun (sampleConfig true)
    ([.ecf (str "internal-ecfAvailable"), .client sampleRequest,
      .ecf (str "\x7b\"action\":\"consent-reply\",\"messageId\":\"667\",\"consent\":\"YES\"\x7d"),
      .client (str "\x7b\"action\":\"at-inquiry\",\"sessionId\":\"667\"\x7d")].map
        fun e => (sampleMoment, e))
    (fun h => h.length = 4 ∧
      (h.flatMap fun x => issuedPurposes x.output) = [str "fuel"] ∧
      Always (InquiryAnswered (sampleConfig true)) h)
    (by decide +kernel)
  exact ⟨h, s, hrun, hlength, hissued, (consent_required_iff hrun).mpr hanswered⟩

/-- An at-inquiry right after the at-request yields a token for a purpose that needs
consent. -/
theorem consent_not_awaited :
    ¬ ∀ cfg h s, ServerRun cfg h s → Always (Consented cfg) h := by
  intro hall
  obtain ⟨h, s, hrun, hbad⟩ := exists_serverRun (sampleConfig true)
    ([.ecf (str "internal-ecfAvailable"), .client sampleRequest,
      .client (str "\x7b\"action\":\"at-inquiry\",\"sessionId\":\"667\"\x7d")].map
        fun e => (sampleMoment, e))
    (fun h => ¬ Always (Consented (sampleConfig true)) h)
    (by decide +kernel)
  exact hbad (hall _ h s hrun)

end VissServer.AtServer

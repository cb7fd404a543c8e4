import VissServer.Go.Decimals
import VissServer.Go.JsonMembers
import VissServer.Go.Searches
import VissServer.Managers.Origin
import VissServer.Managers.Routing
import VissServer.ServiceMgr.DataPacks

/-!
How the routing data is found again in the texts that the core and the service manager print for
a transport manager. Both readers search for the first text RouterId, wherever it stands.
-/
namespace VissServer.Managers

open Go Utils
open ServiceMgr (addPackage)

def routerKey : GoString := str "RouterId"

theorem routerKey_valid : ValidString routerKey := validString_of_isPlain (by decide +kernel)

/-! ## Routing data between quotes -/

/-- A text with the router id of a session behind its front. -/
def routedText (front : GoString) (mgrId clientId : ℤ) (rest : GoString) : GoString :=
  front ++ 34 :: (routerKey ++ 34 :: 58 :: 34 :: (routerId mgrId clientId ++ 34 :: rest))

theorem nextQuoteMark_append (front : GoString) {mid : GoString} (h : 34 ∉ mid)
    (rest : GoString) {offset : ℤ} (hoffset : offset = front.length) :
    nextQuoteMark (front ++ (mid ++ 34 :: rest)) offset = offset + mid.length := by
  have hindex := index?_append h [] rest
  have hdrop : (front ++ (mid ++ 34 :: rest)).drop offset.toNat = mid ++ ([34] ++ rest) := by
    rw [hoffset, Int.toNat_natCast, List.drop_left, List.singleton_append]
  have hquote : str "\"" = [34] := rfl
  rw [nextQuoteMark, hdrop, hquote, hindex]

theorem notMem_routerId {c : UInt8} (hsign : c ≠ 45) (hquestion : c ≠ 63)
    (hdigit : isDigit c = false) (mgrId clientId : ℤ) : c ∉ routerId mgrId clientId := by
  simp only [routerId, List.mem_append, not_or]
  exact ⟨⟨notMem_itoa hsign hdigit mgrId, fun h => hquestion (List.mem_singleton.mp h)⟩,
    notMem_itoa hsign hdigit clientId⟩

theorem quote_notMem_routerId (mgrId clientId : ℤ) : 34 ∉ routerId mgrId clientId :=
  notMem_routerId (by decide) (by decide) rfl mgrId clientId

theorem question_notMem_itoa (i : ℤ) : 63 ∉ itoa i := notMem_itoa (by decide) rfl i

theorem index_routedText {front : GoString} (hfront : index? routerKey front = none)
    (mgrId clientId : ℤ) (rest : GoString) :
    index (routedText front mgrId clientId rest) routerKey = front.length + 1 := by
  have hquote : (34 : UInt8) ∉ routerKey := by decide
  have hkey : index? routerKey (routerKey ++ 34 :: 58 :: 34 ::
      (routerId mgrId clientId ++ 34 :: rest)) = some 0 := rfl
  rw [index, routedText, index?_separated hquote (by decide), hfront, hkey]
  simp

theorem getRouterId_routedText {front : GoString} (hfront : index? routerKey front = none)
    (mgrId clientId : ℤ) (rest : GoString) :
    getRouterId (routedText front mgrId clientId rest) = some (routerId mgrId clientId) := by
  have hindex := index_routedText hfront mgrId clientId rest
  have hopen : routedText front mgrId clientId rest =
      (front ++ 34 :: (routerKey ++ [34])) ++
        ([58] ++ 34 :: (routerId mgrId clientId ++ 34 :: rest)) := by
    simp [routedText]
  have hvalue : routedText front mgrId clientId rest =
      (front ++ 34 :: (routerKey ++ [34, 58, 34])) ++ (routerId mgrId clientId ++ 34 :: rest) := by
    simp [routedText]
  have hkey : routerKey.length = 8 := rfl
  have hstart : nextQuoteMark (routedText front mgrId clientId rest) (front.length + 1 + (8 + 1)) =
      front.length + 1 + (8 + 1) + 1 := by
    rw [hopen]
    refine nextQuoteMark_append _ (by decide) _ ?_
    simp [hkey]
    omega
  have hstop : nextQuoteMark (routedText front mgrId clientId rest)
      (front.length + 1 + (8 + 1) + 1 + 1) =
        front.length + 1 + (8 + 1) + 1 + 1 + (routerId mgrId clientId).length := by
    rw [hvalue]
    refine nextQuoteMark_append _ (quote_notMem_routerId mgrId clientId) _ ?_
    simp [hkey]
    omega
  have hkeyText : str "RouterId" = routerKey := rfl
  simp only [getRouterId, hkeyText, hindex, hstart, hstop]
  rw [if_neg (by omega)]
  refine slice_append (front ++ 34 :: (routerKey ++ [34, 58, 34])) (34 :: rest) ?_ ?_ rfl
  · exact hvalue.trans (List.append_assoc _ _ _).symm
  · simp [hkey]
    omega

theorem extractMgrId_routerId {mgrId : ℤ} (clientId : ℤ) (hlow : -9223372036854775808 ≤ mgrId)
    (hhigh : mgrId ≤ 9223372036854775807) :
    extractMgrId (routerId mgrId clientId) = some mgrId := by
  have hquestion : str "?" = [63] := rfl
  have htext : routerId mgrId clientId = itoa mgrId ++ 63 :: itoa clientId := by
    rw [routerId, hquestion, List.append_assoc, List.singleton_append]
  have hindex := index_byte_append (question_notMem_itoa mgrId) (itoa clientId)
  have hslice : slice (itoa mgrId ++ 63 :: itoa clientId) 0 (itoa mgrId).length =
      some (itoa mgrId) := slice_append [] (63 :: itoa clientId) rfl rfl (by simp)
  rw [extractMgrId, htext, hquestion, hindex, hslice, Option.map_some,
    atoiIgnoringError_itoa hlow hhigh]

/-- The text is cut from the quote before the key to the first comma behind the router id. -/
theorem removeInternalData_routedText {front : GoString} (hfront : index? routerKey front = none)
    (mgrId : ℤ) {clientId : ℤ} (hlow : -9223372036854775808 ≤ clientId)
    (hhigh : clientId ≤ 9223372036854775807) (rest : GoString) :
    removeInternalData (routedText front mgrId clientId rest) =
      (sliceFrom (34 :: rest) (index (34 :: rest) (str ",") + 1)).map fun back =>
        (front ++ back, clientId) := by
  have hkey : routerKey.length = 8 := rfl
  have hkeyText : str "RouterId" = routerKey := rfl
  have hquestionText : str "?" = [63] := rfl
  have hindex := index_routedText hfront mgrId clientId rest
  -- What stands before the question mark of the router id, from the quote before the key on.
  generalize hlead : 34 :: (routerKey ++ 34 :: 58 :: 34 :: itoa mgrId) = lead
  have hnoQuestion : 63 ∉ lead := by
    rw [← hlead]
    simp only [List.mem_cons, List.mem_append, not_or]
    exact ⟨by decide, by decide, by decide, by decide, by decide, question_notMem_itoa mgrId⟩
  have htext : routedText front mgrId clientId rest =
      front ++ (lead ++ 63 :: (itoa clientId ++ 34 :: rest)) := by
    simp [routedText, routerId, hquestionText, ← hlead]
  have hfrom : sliceFrom (routedText front mgrId clientId rest) (front.length + 1 - 1) =
      some (lead ++ 63 :: (itoa clientId ++ 34 :: rest)) := by
    rw [show (front.length : ℤ) + 1 - 1 = front.length by omega, htext]
    exact sliceFrom_append front _
  have hquestion := index_byte_append hnoQuestion (itoa clientId ++ 34 :: rest)
  have hclient : routedText front mgrId clientId rest =
      (front ++ lead ++ [63]) ++ (itoa clientId ++ 34 :: rest) := by
    simp [htext]
  have hclientStart : ((front ++ lead ++ [63]).length : ℤ) =
      lead.length + 1 + (front.length + 1 - 1) := by
    simp only [List.length_append, List.length_singleton]
    omega
  have hstop := nextQuoteMark_append (front ++ lead ++ [63]) (quote_notMem_itoa clientId) rest
    hclientStart.symm
  have hid : slice (routedText front mgrId clientId rest)
      (lead.length + 1 + (front.length + 1 - 1))
      (lead.length + 1 + (front.length + 1 - 1) + (itoa clientId).length) =
        some (itoa clientId) :=
    slice_append (front ++ lead ++ [63]) (34 :: rest)
      (hclient.trans (List.append_assoc _ _ _).symm) hclientStart.symm rfl
  have hbehind : routedText front mgrId clientId rest =
      (front ++ lead ++ [63] ++ itoa clientId) ++ 34 :: rest := by
    rw [hclient, List.append_assoc (front ++ lead ++ [63])]
  have hbehindStart : ((front ++ lead ++ [63] ++ itoa clientId).length : ℤ) =
      lead.length + 1 + (front.length + 1 - 1) + (itoa clientId).length := by
    rw [List.length_append, Int.natCast_add, hclientStart]
  have hafter : sliceFrom (routedText front mgrId clientId rest)
      (lead.length + 1 + (front.length + 1 - 1) + (itoa clientId).length) =
        some (34 :: rest) := by
    rw [hbehind, ← hbehindStart]
    exact sliceFrom_append _ _
  have hback : ∀ i : ℤ, 0 ≤ i → sliceFrom (routedText front mgrId clientId rest)
      (i + (lead.length + 1 + (front.length + 1 - 1) + (itoa clientId).length)) =
        sliceFrom (34 :: rest) i := by
    intro i hi
    rw [hbehind, ← hbehindStart, Int.add_comm]
    exact sliceFrom_length_add _ _ hi
  have hfrontSlice : slice (routedText front mgrId clientId rest) 0 (front.length + 1 - 1) =
      some front := by
    refine slice_append [] (lead ++ 63 :: (itoa clientId ++ 34 :: rest)) ?_ rfl (by simp)
    exact htext
  rw [← hclient] at hstop
  have hcomma : 0 ≤ index (34 :: rest) (str ",") + 1 := by
    unfold index
    split
    all_goals omega
  simp only [removeInternalData, hkeyText, hindex, hfrom, hquestionText, hquestion, hstop, hid,
    hafter, hfrontSlice, hback _ hcomma, Option.bind_eq_bind, Option.bind_some,
    atoiIgnoringError_itoa hlow hhigh]
  exact Option.map_eq_bind.symm

/-! ## Texts of maps -/

/-- A text that reads as a value where the closing brace of an object follows. -/
def IsPackage (packValue : GoString) : Prop :=
  ∃ v, parseValue (maxNestingDepth - 1) (skipSpace (packValue ++ [125])) = some (v, [125])

/-- The text that AddKeyValue writes behind the colon. -/
def valueText (value : GoString) : GoString :=
  if value.head? = some 123 then value else 34 :: (value ++ [34])

/-- The texts that are made of a map: printed, or printed and with a further member. -/
inductive Sent (responseMap : GoMap Json) : GoString → Prop
  | finalized : Sent responseMap (finalizeMessage responseMap)
  | withValue {key value text : GoString} :
      addKeyValue (finalizeMessage responseMap) key value = some text →
      IsLiteral key → key ≠ routerKey → IsPackage (valueText value) → Sent responseMap text
  | withPackage {packName packValue text : GoString} :
      addPackage (finalizeMessage responseMap) packName packValue = some text →
      IsLiteral packName → packName ≠ routerKey → IsPackage packValue → Sent responseMap text

/-- The routing data is found, and what is left is the object without it. -/
structure Routes (mgrId clientId : ℤ) (text : GoString) : Prop where
  mgr : ((getRouterId text).bind extractMgrId) = some mgrId
  trimmed : ∃ t object, removeInternalData text = some (t, clientId) ∧
    unmarshalMap text = some object ∧ unmarshalMap t = some (object.delete routerKey)

/-- No member that is printed before RouterId has this text in it. -/
def NotBefore (responseMap : GoMap Json) : Prop :=
  ∀ p ∈ responseMap, p.1 < routerKey → contains (printedMember p) routerKey = false

/-- A member of the map is printed behind RouterId, or one is added to the text. -/
def Followed (responseMap : GoMap Json) (text : GoString) : Prop :=
  (∃ p ∈ responseMap, p.1 ≠ str "origin" ∧ routerKey < p.1) ∨ text ≠ finalizeMessage responseMap

/-- The texts of an object by the text that is added before its closing brace. -/
def packedText (responseMap : GoMap Json) (pack : GoString) : GoString :=
  123 :: (marshalMembers (responseMap.delete (str "origin")) ++ (pack ++ [125]))

def packText (packName packValue : GoString) : GoString :=
  44 :: 32 :: 34 :: (packName ++ 34 :: 58 :: packValue)

theorem finalizeMessage_eq (responseMap : GoMap Json) :
    finalizeMessage responseMap = packedText responseMap [] := rfl

theorem addPackage_eq (responseMap : GoMap Json) (packName packValue : GoString) :
    addPackage (finalizeMessage responseMap) packName packValue =
      some (packedText responseMap (packText packName packValue)) := by
  have htext : finalizeMessage responseMap =
      (123 :: marshalMembers (responseMap.delete (str "origin"))) ++ [125] := rfl
  have hopen : str ", \"" = [44, 32, 34] := rfl
  have hcolon : str "\":" = [34, 58] := rfl
  have hclose : str "\x7d" = [125] := rfl
  rw [addPackage, htext, slice_init, hopen, hcolon, hclose]
  simp [packedText, packText]

theorem addKeyValue_eq (responseMap : GoMap Json) (key : GoString) {value : GoString}
    (h : value ≠ []) : addKeyValue (finalizeMessage responseMap) key value =
      some (packedText responseMap (packText key (valueText value))) := by
  have htext : finalizeMessage responseMap =
      (123 :: marshalMembers (responseMap.delete (str "origin"))) ++ [125] := rfl
  have hopen : str ", \"" = [44, 32, 34] := rfl
  have hcolon : str "\":" = [34, 58] := rfl
  have hquote : str "\":\"" = [34, 58, 34] := rfl
  have hclose : str "\x7d" = [125] := rfl
  have hquoteClose : str "\"\x7d" = [34, 125] := rfl
  obtain ⟨c, value, rfl⟩ := List.exists_cons_of_ne_nil h
  rw [addKeyValue, htext, slice_init, hopen, hcolon, hclose, hquote, hquoteClose]
  by_cases hc : c = 123
  · simp [packedText, packText, valueText, hc]
  · simp [packedText, packText, valueText, hc]

/-- What is added to a text, and the members that it reads as. -/
theorem Sent.cases_pack {responseMap : GoMap Json} {text : GoString}
    (h : Sent responseMap text) :
    text = finalizeMessage responseMap ∨
      ∃ pack name v, text = packedText responseMap (44 :: pack) ∧ name ≠ routerKey ∧
        ReadAsMembers (parseValue (maxNestingDepth - 1)) (pack ++ [125]) [(name, v)] := by
  have hread : ∀ {name value : GoString}, IsLiteral name → IsPackage value →
      ∃ pack v, packText name value = 44 :: pack ∧
        ReadAsMembers (parseValue (maxNestingDepth - 1)) (pack ++ [125]) [(name, v)] := by
    rintro name value hname ⟨v, hv⟩
    refine ⟨32 :: 34 :: (name ++ 34 :: 58 :: value), v, rfl, ?_⟩
    have hnamed := readAsMembers_named hname hv
    simpa using hnamed
  cases h with
  | finalized => exact .inl rfl
  | @withValue key value text htext hkey hne hvalue =>
    by_cases hempty : value = []
    · subst hempty
      exact .inl (Option.some.inj htext).symm
    · obtain ⟨pack, v, hpack, hmembers⟩ := hread hkey hvalue
      rw [addKeyValue_eq responseMap key hempty, hpack, Option.some.injEq] at htext
      exact .inr ⟨pack, key, v, htext.symm, hne, hmembers⟩
  | @withPackage packName packValue text htext hname hne hvalue =>
    obtain ⟨pack, v, hpack, hmembers⟩ := hread hname hvalue
    rw [addPackage_eq, hpack, Option.some.injEq] at htext
    exact .inr ⟨pack, packName, v, htext.symm, hne, hmembers⟩

/-! ## The member of the router id -/

theorem exists_split {responseMap : GoMap Json} (hsorted : responseMap.Sorted) {v : Json}
    (hrouter : valueAt responseMap routerKey = v) (hv : v ≠ .null) :
    ∃ before after, responseMap.delete (str "origin") = before ++ (routerKey, v) :: after ∧
      (∀ p ∈ before, p.1 < routerKey) ∧ ∀ p ∈ after, routerKey < p.1 := by
  have hvalue : valueAt (responseMap.delete (str "origin")) routerKey = v := by
    rw [valueAt_delete, if_neg (by decide), hrouter]
  have hmem := valueAt_mem (hvalue.symm ▸ hv)
  rw [hvalue] at hmem
  obtain ⟨before, after, hsplit⟩ := List.append_of_mem hmem
  have hordered := hsorted.delete (str "origin")
  rw [hsplit, GoMap.Sorted, List.pairwise_append, List.pairwise_cons] at hordered
  obtain ⟨-, ⟨hafter, -⟩, hbefore⟩ := hordered
  exact ⟨before, after, hsplit, fun p hp => hbefore p hp _ List.mem_cons_self,
    fun p hp => hafter p hp⟩

theorem packedText_split {responseMap : GoMap Json} {before after : List (GoString × Json)}
    {mgrId clientId : ℤ} (hsplit : responseMap.delete (str "origin") =
      before ++ (routerKey, .str (routerId mgrId clientId)) :: after) (pack : GoString) :
    packedText responseMap pack = 123 :: (membersBefore before ++
      (printedMember (routerKey, .str (routerId mgrId clientId)) ++
        (membersAfter after ++ (pack ++ [125])))) := by
  rw [packedText, hsplit, marshalMembers_split, List.append_assoc, List.append_assoc]

theorem printedMember_router (mgrId clientId : ℤ) :
    printedMember (routerKey, .str (routerId mgrId clientId)) =
      34 :: (routerKey ++ 34 :: 58 :: 34 :: (routerId mgrId clientId ++ [34])) := by
  have hkey : quote routerKey = 34 :: (routerKey ++ [34]) := by decide +kernel
  have hvalue : quote (routerId mgrId clientId) = 34 :: (routerId mgrId clientId ++ [34]) := by
    apply quote_of_isPlain
    intro c hc
    refine ⟨isPlain_routerId mgrId clientId c hc, ?_, ?_, ?_⟩
    all_goals
      rintro rfl
      exact notMem_routerId (by decide) (by decide) rfl mgrId clientId hc
  rw [printedMember, marshal, hkey, hvalue]
  simp

/-- Where the router id is found, the text before it has none. -/
theorem index?_membersBefore {before : List (GoString × Json)}
    (h : ∀ p ∈ before, contains (printedMember p) routerKey = false) :
    index? routerKey (123 :: membersBefore before) = none := by
  have hmembers : index? routerKey (membersBefore before) = none := by
    induction before with
    | nil => rfl
    | cons p before ih =>
      obtain ⟨hp, hrest⟩ := List.forall_mem_cons.mp h
      have hcomma := @index?_separated 44 routerKey (by decide) (by decide)
        (printedMember p) (membersBefore before)
      rw [contains, Option.isSome_eq_false_iff, Option.isNone_iff_eq_none] at hp
      rw [membersBefore, List.flatMap_cons, List.append_assoc, List.singleton_append,
        ← membersBefore, hcomma, hp, ih hrest]
      rfl
  have hbrace := @index?_separated 123 routerKey (by decide) (by decide) []
    (membersBefore before)
  rw [List.nil_append] at hbrace
  rw [hbrace, hmembers]
  rfl

section Readers

variable {before : List (GoString × Json)} {mgrId clientId : ℤ}

/-- The text with the router id, and what stands before and behind it. -/
theorem routedText_members (tail : GoString) :
    123 :: (membersBefore before ++
        (printedMember (routerKey, .str (routerId mgrId clientId)) ++ tail)) =
      routedText (123 :: membersBefore before) mgrId clientId tail := by
  rw [printedMember_router, routedText]
  simp

theorem removeInternalData_comma {front : GoString} (hfront : index? routerKey front = none)
    (hlow : -9223372036854775808 ≤ clientId) (hhigh : clientId ≤ 9223372036854775807)
    (behind : GoString) :
    removeInternalData (routedText front mgrId clientId (44 :: behind)) =
      some (front ++ behind, clientId) := by
  have hcomma : index (34 :: 44 :: behind) (str ",") = 1 :=
    index_byte_append (show 44 ∉ [34] by decide) behind
  have hback : sliceFrom (34 :: 44 :: behind) (1 + 1) = some behind :=
    sliceFrom_append [34, 44] behind
  rw [removeInternalData_routedText hfront mgrId hlow hhigh, hcomma, hback]
  rfl

theorem removeInternalData_last {front : GoString} (hfront : index? routerKey front = none)
    (hlow : -9223372036854775808 ≤ clientId) (hhigh : clientId ≤ 9223372036854775807) :
    removeInternalData (routedText front mgrId clientId [125]) =
      some (front ++ [34, 125], clientId) := by
  rw [removeInternalData_routedText hfront mgrId hlow hhigh]
  rfl

end Readers

/-! ## The law -/

section Law

variable {responseMap : GoMap Json} {mgrId clientId : Int64} {text : GoString}

/-- Without a package the member is followed by the others of the map. -/
theorem followed_finalizeMessage_iff {before after : List (GoString × Json)} {v : Json}
    (hsplit : responseMap.delete (str "origin") = before ++ (routerKey, v) :: after)
    (hlow : ∀ p ∈ before, p.1 < routerKey) (hhigh : ∀ p ∈ after, routerKey < p.1) :
    Followed responseMap (finalizeMessage responseMap) ↔ after ≠ [] := by
  have hmem : ∀ p, p ∈ responseMap ∧ p.1 ≠ str "origin" ↔
      p ∈ before ++ (routerKey, v) :: after := by
    intro p
    rw [← hsplit, GoMap.delete, List.mem_filter, decide_eq_true_iff]
  constructor
  · rintro (⟨p, hp, horigin, hlt⟩ | hne) rfl
    · rcases List.mem_append.mp ((hmem p).mp ⟨hp, horigin⟩) with hp | hp
      · exact List.lt_irrefl _ (List.lt_trans hlt (hlow p hp))
      · rw [List.mem_singleton.mp hp] at hlt
        exact List.lt_irrefl _ hlt
    · exact hne rfl
  · intro hne
    obtain ⟨p, after, rfl⟩ := List.exists_cons_of_ne_nil hne
    obtain ⟨hp, horigin⟩ := (hmem p).mpr (by simp)
    exact .inl ⟨p, hp, horigin, hhigh p List.mem_cons_self⟩

/-- The texts of a map around the member of the router id: what stands before it, and what
follows it up to the end. -/
theorem Sent.split (hmap : PrintableMap responseMap)
    (hrouter : valueAt responseMap routerKey = .str (routerId mgrId.toInt clientId.toInt))
    (hbefore : NotBefore responseMap) (h : Sent responseMap text) :
    ∃ before tail, text = routedText (123 :: membersBefore before) mgrId.toInt clientId.toInt tail ∧
      index? routerKey (123 :: membersBefore before) = none ∧
      (∀ p ∈ before, Printable (maxNestingDepth - 1) p.2 ∧ sanitizeString p.1 ≠ routerKey) ∧
      (Followed responseMap text → ∃ behind members, tail = 44 :: behind ∧
        ReadAsMembers (parseValue (maxNestingDepth - 1)) behind members ∧
        ∀ q ∈ members, q.1 ≠ routerKey) ∧
      (¬ Followed responseMap text → tail = [125]) := by
  obtain ⟨before, after, hsplit, hlow, hhigh⟩ := exists_split hmap.sorted hrouter (by simp)
  have hmem : ∀ p, p ∈ before ∨ p ∈ after → p ∈ responseMap.delete (str "origin") := by
    intro p hp
    rw [hsplit]
    simp only [List.mem_append, List.mem_cons]
    tauto
  have hdeleted := hmap.delete (str "origin")
  have hkey : ∀ p, p ∈ before ∨ p ∈ after → sanitizeString p.1 ≠ routerKey := by
    rintro p hp heq
    rw [(hdeleted.keys p (hmem p hp)).sanitize] at heq
    rcases hp with hp | hp
    · exact List.lt_irrefl _ (heq ▸ hlow p hp)
    · exact List.lt_irrefl _ (heq ▸ hhigh p hp)
  have hreads : ∀ p ∈ after,
      ReadsBack (maxNestingDepth - 1) (parseValue (maxNestingDepth - 1)) p.2 := by
    intro p hp
    have hprintable := hdeleted.values p (hmem p (.inr hp))
    exact ⟨hprintable, fun _ => parseValue_marshal hprintable⟩
  have hfront : index? routerKey (123 :: membersBefore before) = none :=
    index?_membersBefore fun p hp =>
      hbefore p (List.mem_of_mem_filter (hmem p (.inl hp))) (hlow p hp)
  have hafterKeys : ∀ q ∈ sanitizeMembers after, q.1 ≠ routerKey := by
    rw [sanitizeMembers_eq_map]
    intro q hq
    obtain ⟨p, hp, rfl⟩ := List.mem_map.mp hq
    exact hkey p (.inr hp)
  obtain htext | ⟨pack, name, v, htext, hname, hread⟩ := h.cases_pack
  · refine ⟨before, membersAfter after ++ [125], ?_, hfront, fun p hp =>
      ⟨hdeleted.values p (hmem p (.inl hp)), hkey p (.inl hp)⟩, fun hnext => ?_, fun hnot => ?_⟩
    · rw [htext, finalizeMessage_eq, packedText_split hsplit, routedText_members, List.nil_append]
    · rw [htext, followed_finalizeMessage_iff hsplit hlow hhigh] at hnext
      obtain ⟨behind, hbehind, hmembers⟩ := readAsMembers_after hnext hreads
      exact ⟨behind, _, hbehind, hmembers, hafterKeys⟩
    · rw [htext, followed_finalizeMessage_iff hsplit hlow hhigh, not_not] at hnot
      rw [hnot]
      rfl
  · obtain ⟨behind, hbehind, hmembers⟩ := hread.after hreads
    refine ⟨before, membersAfter after ++ 44 :: (pack ++ [125]), ?_, hfront, fun p hp =>
      ⟨hdeleted.values p (hmem p (.inl hp)), hkey p (.inl hp)⟩, fun _ => ?_, fun hnot => ?_⟩
    · rw [htext, packedText_split hsplit, routedText_members, List.cons_append]
    · refine ⟨behind, _, hbehind, hmembers, ?_⟩
      intro q hq
      rcases List.mem_append.mp hq with hq | hq
      · exact hafterKeys q hq
      · rw [List.mem_singleton.mp hq]
        exact hname
    · refine absurd (.inr ?_) hnot
      rw [htext, finalizeMessage_eq]
      intro heq
      have hlength := congrArg List.length heq
      simp [packedText] at hlength

/-- Where no member before it has the text RouterId, the routing data is found and cut out
exactly where another member follows. -/
theorem routes_iff (hmap : PrintableMap responseMap)
    (hrouter : valueAt responseMap routerKey = .str (routerId mgrId.toInt clientId.toInt))
    (hbefore : NotBefore responseMap) (h : Sent responseMap text) :
    Routes mgrId.toInt clientId.toInt text ↔ Followed responseMap text := by
  obtain ⟨before, tail, htext, hfront, hmembers, hfollowed, hlast⟩ :=
    h.split hmap hrouter hbefore
  have hprintable : ∀ p ∈ before, Printable (maxNestingDepth - 1) p.2 :=
    fun p hp => (hmembers p hp).1
  constructor
  · intro hroutes
    by_contra hnot
    obtain ⟨t, object, hremoved, -, hread⟩ := hroutes.trimmed
    rw [htext, hlast hnot, removeInternalData_last hfront clientId.le_toInt
      (Int.le_of_lt_add_one clientId.toInt_lt), Option.some.injEq, Prod.mk.injEq] at hremoved
    rw [← hremoved.1, List.cons_append, unmarshalMap_openQuote hprintable] at hread
    cases hread
  · intro hnext
    obtain ⟨behind, members, rfl, hread, hkeys⟩ := hfollowed hnext
    obtain ⟨object, hobject, hcut⟩ := unmarshalMap_cut hprintable trivial hread
      (p := (routerKey, .str (routerId mgrId.toInt clientId.toInt)))
      routerKey_valid (fun q hq => (hmembers q hq).2) hkeys
    rw [routedText_members] at hobject
    refine ⟨?_, 123 :: membersBefore before ++ behind, object, ?_, ?_, hcut⟩
    · rw [htext, getRouterId_routedText hfront, Option.bind_some,
        extractMgrId_routerId clientId.toInt mgrId.le_toInt
          (Int.le_of_lt_add_one mgrId.toInt_lt)]
    · rw [htext, removeInternalData_comma hfront clientId.le_toInt
        (Int.le_of_lt_add_one clientId.toInt_lt)]
    · rw [htext, hobject]

end Law

/-! ## A member of the client that is printed first -/

/-- The map of a static metadata response to a request with a further member. -/
def responseOf (v : GoString) : GoMap Json :=
  [(str "A", .str v), (routerKey, .str (routerId 0 5)), (str "action", .str (str "get"))]

theorem printableMap_responseOf (v : GoString) : PrintableMap (responseOf v) where
  sorted := by
    have hmember : str "A" < routerKey := by decide
    have haction : routerKey < str "action" := by decide
    simpa [GoMap.Sorted, responseOf, hmember, haction] using List.lt_trans hmember haction
  keys p hp := by
    simp only [responseOf, List.mem_cons, List.not_mem_nil, or_false] at hp
    obtain rfl | rfl | rfl := hp
    · exact validString_of_isPlain (s := str "A") (by decide +kernel)
    · exact routerKey_valid
    · exact validString_of_isPlain (s := str "action") (by decide +kernel)
  values p hp := by
    simp only [responseOf, List.mem_cons, List.not_mem_nil, or_false] at hp
    obtain rfl | rfl | rfl := hp
    all_goals trivial

theorem routes_iff_plain :
    Routes 0 5 (finalizeMessage (responseOf (str "1"))) ↔
      Followed (responseOf (str "1")) (finalizeMessage (responseOf (str "1"))) := by
  have hnot : NotBefore (responseOf (str "1")) := by
    unfold NotBefore
    decide +kernel
  exact @routes_iff _ 0 5 _ (printableMap_responseOf _) rfl hnot .finalized

def vehicleMetadata : GoString := str "\x7b\"Vehicle\":\x7b\"type\":\"branch\"\x7d\x7d"

/-- The value of the member is taken for the key of the router id, and its key for the value, in
which there is no question mark. -/
theorem routerId_of_client :
    ∃ text, addKeyValue (finalizeMessage (responseOf routerKey)) (str "metadata")
        vehicleMetadata = some text ∧
      valueAt (responseOf routerKey) routerKey = .str (routerId 0 5) ∧
      PrintableMap (responseOf routerKey) ∧ Sent (responseOf routerKey) text ∧
      getRouterId text = some routerKey ∧ ¬ Routes 0 5 text := by
  have hpackage : IsPackage (valueText vehicleMetadata) :=
    ⟨.obj [(str "Vehicle", .obj [(str "type", .str (str "branch"))])], rfl⟩
  have htext := addKeyValue_eq (responseOf routerKey) (str "metadata")
    (show vehicleMetadata ≠ [] by decide)
  have hrouter : getRouterId (packedText (responseOf routerKey)
      (packText (str "metadata") (valueText vehicleMetadata))) = some routerKey := by
    decide +kernel
  refine ⟨_, htext, rfl, printableMap_responseOf routerKey,
    .withValue htext (isLiteral_of_all (by decide)) (by decide) hpackage, hrouter, ?_⟩
  intro hroutes
  have hmgr := hroutes.mgr
  rw [hrouter] at hmgr
  exact absurd hmgr (by decide)

end VissServer.Managers

import VissServer.Go.JsonMaps
import VissServer.Utils.Messages

/-!
Error responses (SetErrorResponse and FinalizeMessage of utils/common.go). Each part of the
server sets the members of one map again and again; a member that a request lacks is
deleted from it or stays as an earlier request left it.
-/
namespace VissServer.Utils

open Go

/-- SetErrorResponse followed by FinalizeMessage. -/
def errorMessage (ts : GoString) (reqMap errRespMap : GoMap Json) (errorListIndex : Fin 8)
    (altErrorMessage : GoString) : GoString :=
  finalizeMessage (setErrorResponse ts reqMap errRespMap errorListIndex altErrorMessage)

/-- The members that SetErrorResponse leaves as they are where the request lacks them. -/
def keptMembers : List GoString := [str "RouterId", str "action", str "subscriptionId"]

/-- The members of a request that its error response repeats. -/
def identifyingMembers : List GoString := str "requestId" :: keptMembers

def errorMembers : List GoString := str "error" :: str "ts" :: identifyingMembers

/-- What the request lacks, the error response map lacks too. -/
def Covers (reqMap errRespMap : GoMap Json) : Prop :=
  ∀ k ∈ keptMembers, isNull (valueAt reqMap k) = true → isNull (valueAt errRespMap k) = true
  deriving Decidable

theorem isNull_iff {j : Json} : isNull j = true ↔ j = .null := by
  cases j <;> simp [isNull]

theorem valueAt_copyMember (reqMap errRespMap : GoMap Json) (k k' : GoString) :
    valueAt (copyMember reqMap errRespMap k) k' =
      if k' = k ∧ isNull (valueAt reqMap k) = false then valueAt reqMap k
      else valueAt errRespMap k' := by
  unfold copyMember
  cases hnull : isNull (valueAt reqMap k) with
  | true => simp
  | false => simp [valueAt_set]

/-- A map of an error response: nothing but its members, with values that can be printed. -/
structure ErrorMap (m : GoMap Json) : Prop where
  printable : PrintableMap m
  keys : ∀ p ∈ m, p.1 ∈ errorMembers
  values : ∀ p ∈ m, isNull p.2 = false

namespace ErrorMap

variable {m m' reqMap errRespMap : GoMap Json} {k : GoString}

theorem nil : ErrorMap [] := ⟨⟨.nil, by simp, by simp⟩, by simp, by simp⟩

theorem validString_of_mem (hk : k ∈ errorMembers) : ValidString k := by
  have hplain : ∀ k ∈ errorMembers, k.all isPlain = true := by decide
  exact validString_of_isPlain (List.all_eq_true.mp (hplain k hk))

theorem set (hm : ErrorMap m) (hk : k ∈ errorMembers) {v : Json}
    (hprintable : Printable (maxNestingDepth - 1) v) (hv : isNull v = false) :
    ErrorMap (m.set k v) where
  printable := hm.printable.set (validString_of_mem hk) hprintable
  keys p hp := by
    rcases GoMap.mem_set hp with rfl | hp
    · exact hk
    · exact hm.keys p hp
  values p hp := by
    rcases GoMap.mem_set hp with rfl | hp
    · exact hv
    · exact hm.values p hp

theorem delete (hm : ErrorMap m) (k : GoString) : ErrorMap (m.delete k) where
  printable := hm.printable.delete k
  keys p hp := hm.keys p (List.mem_of_mem_filter hp)
  values p hp := hm.values p (List.mem_of_mem_filter hp)

theorem copyMember (hm : ErrorMap m) (hk : k ∈ errorMembers)
    (hprintable : Printable (maxNestingDepth - 1) (valueAt reqMap k)) :
    ErrorMap (copyMember reqMap m k) := by
  unfold Utils.copyMember
  cases hnull : isNull (valueAt reqMap k) with
  | true => exact hm
  | false => exact hm.set hk hprintable hnull

/-- Setting the members of a request that was decoded from a text. -/
theorem setErrorResponse (hm : ErrorMap errRespMap)
    (hreq : ∀ k ∈ identifyingMembers, Printable (maxNestingDepth - 1) (valueAt reqMap k))
    (ts : GoString) (errorListIndex : Fin 8) (altErrorMessage : GoString) :
    ErrorMap (setErrorResponse ts reqMap errRespMap errorListIndex altErrorMessage) := by
  have hstrings : ∀ members : List (GoString × GoString), Printable (maxNestingDepth - 1)
      (.obj (GoMap.ofMembers (members.map fun p => (p.1, .str p.2)))) := by
    intro members p hp
    obtain ⟨q, -, rfl⟩ := List.mem_map.mp (GoMap.mem_ofMembers hp)
    trivial
  unfold Utils.setErrorResponse
  dsimp only
  refine ((copyMember ?_ (by decide) (hreq _ (by decide))).set (by decide) (hstrings
    [(_, _), (_, _), (_, _)]) rfl).set (by decide) trivial rfl
  have hfirst := (hm.copyMember (by decide) (hreq (str "RouterId") (by decide))).copyMember
    (by decide) (hreq (str "action") (by decide))
  split
  · exact hfirst.delete _
  · next hnull => exact hfirst.set (by decide) (hreq _ (by decide)) (by simpa using hnull)

/-- Sorted maps without nil values are told by their values. -/
theorem ext (hm : ErrorMap m) (hm' : ErrorMap m') (h : ∀ k, valueAt m k = valueAt m' k) :
    m = m' := by
  refine hm.printable.sorted.ext hm'.printable.sorted fun k => ?_
  have hvalue := h k
  unfold valueAt at hvalue
  have hne : ∀ {m : GoMap Json} {v : Json}, ErrorMap m → m.get k = some v → v ≠ .null := by
    rintro m v hm hget rfl
    obtain ⟨before, after, hlist, -⟩ := List.lookup_eq_some_iff.mp hget
    have hnull := hm.values (k, .null) (by rw [hlist]; simp)
    simp [isNull] at hnull
  cases hget : m.get k with
  | none =>
    cases hget' : m'.get k with
    | none => rfl
    | some v' =>
      rw [hget, hget'] at hvalue
      exact absurd hvalue.symm (hne hm' hget')
  | some v =>
    cases hget' : m'.get k with
    | none =>
      rw [hget, hget'] at hvalue
      exact absurd hvalue (hne hm hget)
    | some v' =>
      rw [hget, hget'] at hvalue
      exact congrArg some hvalue

theorem valueAt_of_notMem (hm : ErrorMap m) (hk : k ∉ errorMembers) : valueAt m k = .null := by
  by_contra hne
  exact hk (hm.keys _ (valueAt_mem hne))

end ErrorMap

/-- The values of the map after SetErrorResponse. -/
theorem valueAt_setErrorResponse (ts : GoString) (reqMap errRespMap : GoMap Json)
    (errorListIndex : Fin 8) (altErrorMessage k : GoString) :
    valueAt (setErrorResponse ts reqMap errRespMap errorListIndex altErrorMessage) k =
      if k = str "ts" ∨ k = str "error" then
        valueAt (setErrorResponse ts [] [] errorListIndex altErrorMessage) k
      else if k = str "requestId" ∨ k ∈ keptMembers ∧ isNull (valueAt reqMap k) = false then
        valueAt reqMap k
      else valueAt errRespMap k := by
  by_cases hts : k = str "ts"
  · subst hts
    simp only [setErrorResponse, valueAt_set, if_true, true_or]
  by_cases herror : k = str "error"
  · subst herror
    have hne : str "error" ≠ str "ts" := by decide
    simp only [setErrorResponse, valueAt_set, if_true, or_true, if_neg hne]
  rw [if_neg (by simp [hts, herror])]
  simp only [setErrorResponse, valueAt_set, if_neg hts, if_neg herror, valueAt_copyMember]
  by_cases hid : k = str "requestId"
  · subst hid
    have hne : str "requestId" ≠ str "subscriptionId" := by decide
    simp only [hne, false_and, if_false, true_or, if_true]
    cases hnull : isNull (valueAt reqMap (str "requestId")) with
    | true => simp [valueAt_delete, isNull_iff.mp hnull]
    | false => simp [valueAt_set]
  have hmiddle : ∀ {M : GoMap Json}, valueAt (if isNull (valueAt reqMap (str "requestId")) then
      M.delete (str "requestId") else M.set (str "requestId") (valueAt reqMap (str "requestId"))) k =
        valueAt M k := by
    intro M
    split
    · rw [valueAt_delete, if_neg hid]
    · rw [valueAt_set, if_neg hid]
  simp only [hmiddle, valueAt_copyMember, hid, false_or, keptMembers, List.mem_cons,
    List.not_mem_nil, or_false]
  have hne₁ : str "subscriptionId" ≠ str "RouterId" := by decide
  have hne₂ : str "subscriptionId" ≠ str "action" := by decide
  have hne₃ : str "action" ≠ str "RouterId" := by decide
  by_cases hsubscription : k = str "subscriptionId"
  · subst hsubscription
    cases isNull (valueAt reqMap (str "subscriptionId")) <;> simp [hne₁, hne₂]
  · by_cases haction : k = str "action"
    · subst haction
      cases isNull (valueAt reqMap (str "action")) <;> simp [hne₂.symm, hne₃]
    · by_cases hrouter : k = str "RouterId"
      · subst hrouter
        cases isNull (valueAt reqMap (str "RouterId")) <;> simp [hne₁.symm, hne₃.symm]
      · simp [hsubscription, haction, hrouter]

section Messages

variable {reqMap errRespMap : GoMap Json} (ts : GoString) (errorListIndex : Fin 8)
  (altErrorMessage : GoString)

/-- Where the request has every member that would be kept, the map is as if it had been
empty. -/
theorem setErrorResponse_eq_of_covers (hM : ErrorMap errRespMap)
    (hreq : ∀ k ∈ identifyingMembers, Printable (maxNestingDepth - 1) (valueAt reqMap k))
    (h : Covers reqMap errRespMap) :
    setErrorResponse ts reqMap errRespMap errorListIndex altErrorMessage =
      setErrorResponse ts reqMap [] errorListIndex altErrorMessage := by
  refine (hM.setErrorResponse hreq ts errorListIndex altErrorMessage).ext
    (ErrorMap.nil.setErrorResponse hreq ts errorListIndex altErrorMessage) fun k => ?_
  rw [valueAt_setErrorResponse, valueAt_setErrorResponse ts reqMap []]
  split
  · rfl
  · next hfixed =>
    split
    · rfl
    · next hcopied =>
      rw [not_or] at hfixed hcopied
      have hnil : valueAt [] k = .null := rfl
      rw [hnil]
      by_cases hk : k ∈ keptMembers
      · refine isNull_iff.mp (h k hk ?_)
        cases hnull : isNull (valueAt reqMap k) with
        | true => rfl
        | false => exact absurd ⟨hk, hnull⟩ hcopied.2
      · refine hM.valueAt_of_notMem ?_
        simp [errorMembers, identifyingMembers, hfixed, hcopied.1, hk]

/-- The values that are decoded from an error message. -/
theorem decode_errorMessage (hM : ErrorMap errRespMap)
    (hreq : ∀ k ∈ identifyingMembers, Printable (maxNestingDepth - 1) (valueAt reqMap k)) :
    ∃ m, decodeMap (errorMessage ts reqMap errRespMap errorListIndex altErrorMessage) = some m ∧
      ∀ k ≠ str "origin", valueAt m k = canon (sanitize (valueAt
        (setErrorResponse ts reqMap errRespMap errorListIndex altErrorMessage) k)) := by
  have hmap := (hM.setErrorResponse hreq ts errorListIndex altErrorMessage).printable
  obtain ⟨m, hdecode, hvalue⟩ := (hmap.delete (str "origin")).decode_marshal
  refine ⟨m, hdecode, fun k hk => ?_⟩
  rw [hvalue, valueAt_delete, if_neg hk]

theorem canon_sanitize_eq_null {j : Json} : canon (sanitize j) = .null ↔ j = .null := by
  cases j <;> simp [sanitize, canon]

/-- The message is that of an empty map exactly where the request has every member that
would be kept. -/
theorem errorMessage_eq_iff (hM : ErrorMap errRespMap)
    (hreq : ∀ k ∈ identifyingMembers, Printable (maxNestingDepth - 1) (valueAt reqMap k)) :
    errorMessage ts reqMap errRespMap errorListIndex altErrorMessage =
      errorMessage ts reqMap [] errorListIndex altErrorMessage ↔ Covers reqMap errRespMap := by
  constructor
  · intro h k hk hnull
    obtain ⟨m, hdecode, hvalue⟩ := decode_errorMessage ts errorListIndex altErrorMessage hM hreq
    obtain ⟨m', hdecode', hvalue'⟩ :=
      decode_errorMessage ts errorListIndex altErrorMessage ErrorMap.nil hreq
    rw [h, hdecode'] at hdecode
    obtain rfl := Option.some.inj hdecode
    have hkept : ∀ k ∈ keptMembers, k ≠ str "origin" ∧ k ≠ str "ts" ∧ k ≠ str "error" ∧
        k ≠ str "requestId" := by decide
    obtain ⟨horigin, hts, herror, hid⟩ := hkept k hk
    have hsame := (hvalue k horigin).symm.trans (hvalue' k horigin)
    rw [valueAt_setErrorResponse, valueAt_setErrorResponse ts reqMap [],
      if_neg (by simp [hts, herror]), if_neg (by simp [hid, hnull])] at hsame
    rw [if_neg (by simp [hts, herror]), if_neg (by simp [hid, hnull])] at hsame
    exact isNull_iff.mpr (canon_sanitize_eq_null.mp hsame)
  · intro h
    rw [errorMessage, setErrorResponse_eq_of_covers ts errorListIndex altErrorMessage hM hreq h,
      errorMessage]

/-- The message of an empty map repeats the members of the request, and no others of these. -/
theorem decode_errorMessage_nil
    (hreq : ∀ k ∈ identifyingMembers, Printable (maxNestingDepth - 1) (valueAt reqMap k)) :
    ∃ m, decodeMap (errorMessage ts reqMap [] errorListIndex altErrorMessage) = some m ∧
      ∀ k ∈ identifyingMembers, valueAt m k = canon (sanitize (valueAt reqMap k)) := by
  obtain ⟨m, hdecode, hvalue⟩ :=
    decode_errorMessage ts errorListIndex altErrorMessage ErrorMap.nil hreq
  refine ⟨m, hdecode, fun k hk => ?_⟩
  have hnames : ∀ k ∈ identifyingMembers, k ≠ str "origin" ∧ k ≠ str "ts" ∧
      k ≠ str "error" := by decide
  obtain ⟨horigin, hts, herror⟩ := hnames k hk
  rw [hvalue k horigin, valueAt_setErrorResponse, if_neg (by simp [hts, herror])]
  split
  · rfl
  · next hcopied =>
    rw [not_or, not_and] at hcopied
    have hkept : k ∈ keptMembers := (List.mem_cons.mp hk).resolve_left hcopied.1
    have hnull : isNull (valueAt reqMap k) = true := by simpa using hcopied.2 hkept
    rw [isNull_iff.mp hnull]
    rfl

end Messages

end VissServer.Utils

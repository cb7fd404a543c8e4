import VissServer.Library.Traversals
import VissServer.Utils.GrpcMessages
import VissServer.Utils.ProtoTexts

/-!
The JSON texts of the requests of a gRPC client, as the server prints them from the protobuf
messages: which of them can be printed, and what their texts mean.
-/
namespace VissServer.Utils

open Go

/-- The message of a call, of the type that its method has. -/
inductive GrpcRequest
  | get (m : GetRequestMessage)
  | set (m : SetRequestMessage)
  | subscribe (m : SubscribeRequestMessage)
  | unsubscribe (m : UnsubscribeRequestMessage)

/-- The *RequestPbToJson functions. -/
def GrpcRequest.pbToJson : GrpcRequest → MayPanic GoString
  | .get m => getRequestPbToJson m
  | .set m => some (setRequestPbToJson m)
  | .subscribe m => subscribeRequestPbToJson m
  | .unsubscribe m => some (unsubscribeRequestPbToJson m)

def GrpcRequest.action : GrpcRequest → GoString
  | .get _ => str "get"
  | .set _ => str "set"
  | .subscribe _ => str "subscribe"
  | .unsubscribe _ => str "unsubscribe"

/-- The members that the text of a request can have behind its action, in their order. -/
def GrpcRequest.members : GrpcRequest → List (GoString × Field)
  | .get m => [(str "path", .text m.path), (str "filter", .filter m.filter),
      (str "authorization", .optional m.authorization), (str "requestId", .optional m.requestId)]
  | .set m => [(str "path", .text m.path), (str "value", .text m.value),
      (str "authorization", .optional m.authorization), (str "requestId", .optional m.requestId)]
  | .subscribe m => [(str "path", .text m.path), (str "filter", .filter m.filter),
      (str "authorization", .optional m.authorization), (str "requestId", .nonEmpty m.requestId)]
  | .unsubscribe m => [(str "subscriptionId", .nonEmpty m.subscriptionId),
      (str "requestId", .optional m.requestId)]

def GrpcRequest.fields (r : GrpcRequest) : List (GoString × Field) :=
  (str "action", .text r.action) :: r.members

def GrpcRequest.json (reading : Reading) (r : GrpcRequest) : Json := fieldsJson reading r.fields

/-- The lists of the request that the printer goes through have items. -/
def GrpcRequest.Listed (r : GrpcRequest) : Prop := ∀ p ∈ r.fields, p.2.Listed

/-- No string of the request is left out or printed without its quotes. -/
def GrpcRequest.Quoted (r : GrpcRequest) : Prop := ∀ p ∈ r.fields, p.2.Quoted

theorem mapM_synthesizeFilter (filterExp : List FilterExpression)
    (h : ∀ f ∈ filterExp, f.Listed) :
    filterExp.mapM synthesizeFilter =
      some (filterExp.map fun f => rawText [] (f.json .printed)) := by
  refine Traversals.mapM_eq_map fun f hf => ?_
  rw [synthesizeFilter_eq, if_pos (h f hf)]

theorem mapM_unlisted {filterExp : List FilterExpression} {f : FilterExpression}
    (hf : f ∈ filterExp) (h : ¬ f.Listed) : filterExp.mapM synthesizeFilter = none := by
  refine Traversals.mapM_eq_none hf ?_
  rw [synthesizeFilter_eq, if_neg h]

theorem getJsonFilter_listed {filter : Option FilterExpressions} (h : ∀ f ∈ filter, f.Listed) :
    getJsonFilter filter =
      some (memberTail [] (str "filter", filter.map (·.json .printed))) := by
  cases filter with
  | none => rfl
  | some f =>
    obtain ⟨hne, hlisted⟩ := h f rfl
    have hlist := listText_eq (f.filterExp.map fun filterExp => filterExp.json .printed)
    have hne' : f.filterExp.map (fun filterExp => filterExp.json .printed) ≠ [] := by
      simpa using hne
    rw [if_neg hne', List.map_map] at hlist
    rw [getJsonFilter, mapM_synthesizeFilter _ hlisted]
    simp only [Option.bind_eq_bind, Option.bind_some]
    change (listText (f.filterExp.map (rawText [] ∘ fun filterExp => filterExp.json .printed))).bind
      _ = _
    rw [hlist]
    rfl

theorem getJsonFilter_unlisted {filter : Option FilterExpressions}
    (h : ¬ ∀ f ∈ filter, f.Listed) : getJsonFilter filter = none := by
  cases filter with
  | none => exact absurd (by simp) h
  | some f =>
    rw [getJsonFilter]
    by_cases hne : f.filterExp = []
    · rw [hne]
      rfl
    · have hmem : ∃ filterExp ∈ f.filterExp, ¬ filterExp.Listed := by
        by_contra hall
        push Not at hall
        refine h fun f' hf' => ?_
        obtain rfl := Option.mem_some_iff.mp hf'
        exact ⟨hne, hall⟩
      obtain ⟨filterExp, hmem, hunlisted⟩ := hmem
      rw [mapM_unlisted hmem hunlisted]
      rfl


/-- The text of an object whose first field is a text. -/
theorem rawText_fieldsJson (k s : GoString) (fields : List (GoString × Field)) :
    rawText [] (fieldsJson .printed ((k, .text s) :: fields)) =
      123 :: 34 :: (k ++ 34 :: 58 :: (rawText [] (.str s) ++
        ((fieldsTable .printed fields).flatMap (memberTail []) ++ [125]))) := by
  rw [← rawText_present]
  rfl

theorem memberTail_text (k s : GoString) :
    memberTail [] (k, Field.json .printed (.text s)) =
      44 :: 34 :: (k ++ 34 :: 58 :: 34 :: (s ++ [34])) := rfl

/-- The text of a request whose lists have items is the text of its value as it is printed. -/
theorem GrpcRequest.pbToJson_listed {r : GrpcRequest} (h : r.Listed) :
    r.pbToJson = some (rawText [] (r.json .printed)) := by
  have hmembers := (List.forall_mem_cons.mp h).2
  rw [GrpcRequest.json, GrpcRequest.fields, rawText_fieldsJson]
  cases r with
  | get m =>
    have hfilter := getJsonFilter_listed (hmembers (str "filter", .filter m.filter)
      (by simp [members]))
    rw [GrpcRequest.pbToJson, getRequestPbToJson, hfilter]
    simp only [Option.bind_eq_bind, Option.bind_some, createJSON_eq, GrpcRequest.members,
      fieldsTable, List.map_cons, List.map_nil, List.flatMap_cons, List.flatMap_nil,
      memberTail_text, rawText, List.append_assoc, List.cons_append, List.nil_append]
    rfl
  | set m =>
    simp only [GrpcRequest.pbToJson, setRequestPbToJson, createJSON_eq, GrpcRequest.members,
      fieldsTable, List.map_cons, List.map_nil, List.flatMap_cons, List.flatMap_nil,
      memberTail_text, rawText, List.append_assoc, List.cons_append, List.nil_append]
    rfl
  | subscribe m =>
    have hfilter := getJsonFilter_listed (hmembers (str "filter", .filter m.filter)
      (by simp [members]))
    rw [GrpcRequest.pbToJson, subscribeRequestPbToJson, hfilter]
    simp only [Option.bind_eq_bind, Option.bind_some, createJSON_eq, GrpcRequest.members,
      fieldsTable, List.map_cons, List.map_nil, List.flatMap_cons, List.flatMap_nil,
      memberTail_text, rawText, List.append_assoc, List.cons_append, List.nil_append]
    rfl
  | unsubscribe m =>
    simp only [GrpcRequest.pbToJson, unsubscribeRequestPbToJson, createJSON_eq,
      GrpcRequest.members, fieldsTable, List.map_cons, List.map_nil, List.flatMap_cons,
      List.flatMap_nil, rawText, List.append_assoc, List.cons_append, List.nil_append]
    rfl

theorem GrpcRequest.pbToJson_unlisted {r : GrpcRequest} (h : ¬ r.Listed) : r.pbToJson = none := by
  unfold GrpcRequest.Listed at h
  cases r with
  | get m =>
    have hfilter : getJsonFilter m.filter = none := getJsonFilter_unlisted fun hlisted => h (by
      simp only [fields, members, List.forall_mem_cons, Field.Listed, true_and]
      exact ⟨hlisted, nofun⟩)
    rw [GrpcRequest.pbToJson, getRequestPbToJson, hfilter]
    rfl
  | subscribe m =>
    have hfilter : getJsonFilter m.filter = none := getJsonFilter_unlisted fun hlisted => h (by
      simp only [fields, members, List.forall_mem_cons, Field.Listed, true_and]
      exact ⟨hlisted, nofun⟩)
    rw [GrpcRequest.pbToJson, subscribeRequestPbToJson, hfilter]
    rfl
  | set m => exact absurd (by simp [fields, members, Field.Listed]) h
  | unsubscribe m => exact absurd (by simp [fields, members, Field.Listed]) h

theorem GrpcRequest.names (r : GrpcRequest) : Named (r.fields.map Prod.fst) := by
  cases r with
  | get m =>
    exact (by decide : Named [str "action", str "path", str "filter", str "authorization",
      str "requestId"])
  | set m =>
    exact (by decide : Named [str "action", str "path", str "value", str "authorization",
      str "requestId"])
  | subscribe m =>
    exact (by decide : Named [str "action", str "path", str "filter", str "authorization",
      str "requestId"])
  | unsubscribe m => exact (by decide : Named [str "action", str "subscriptionId", str "requestId"])

/-- Where a value keeps the strings of the request, the text that is printed means this value if
and only if the lists of the request have items, no string is left out or printed without its
quotes, all strings are literals, and the value is the one that is meant. -/
theorem GrpcRequest.pbToJson_keeps_iff (r : GrpcRequest) {v : Json}
    (hkeeps : Keeps maxNestingDepth (r.json .meant) v) :
    (∃ s, r.pbToJson = some s ∧ (parseText s).map canon = some (canon v)) ↔
      r.Listed ∧ r.Quoted ∧ Literal maxNestingDepth (r.json .meant) ∧
        canon v = canon (r.json .meant) := by
  by_cases hlisted : r.Listed
  · have hprinted := GrpcRequest.pbToJson_listed hlisted
    have hread := fieldsJson_keeps_iff r.names hlisted hkeeps
    simp only [hprinted, Option.some.injEq, exists_eq_left', hlisted, true_and]
    exact hread
  · simp [GrpcRequest.pbToJson_unlisted hlisted, hlisted]

/-- The text that is printed for a request means the request if and only if its lists have
items, no string is left out or printed without its quotes, and all strings are literals. -/
theorem GrpcRequest.pbToJson_means_iff (r : GrpcRequest) :
    (∃ s, r.pbToJson = some s ∧ (parseText s).map canon = some (canon (r.json .meant))) ↔
      r.Listed ∧ r.Quoted ∧ Literal maxNestingDepth (r.json .meant) := by
  have htextual := ((fieldsJson_textual r.names).mono (show 5 ≤ maxNestingDepth by unfold maxNestingDepth; omega)).1
  have hkeeps := r.pbToJson_keeps_iff (Keeps.refl htextual)
  simpa using hkeeps

end VissServer.Utils

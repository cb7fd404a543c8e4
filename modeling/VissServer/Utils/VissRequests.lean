import VissServer.Library.Traversals
import VissServer.Utils.GrpcTexts
import VissServer.Utils.VissMessages

/-!
The requests of a VISS client as JSON objects, and the way of a request over gRPC: the client
makes a protobuf message of its text, from which the server prints a text again.
-/
namespace VissServer.Utils

open Go

/-- A filter object of a request, by the parameter that its type has. -/
inductive VissFilter
  | paths (parameter : Many GoString)
  | timebased (parameter : TimebasedValue)
  | range (parameter : Many RangeValue)
  | change (parameter : ChangeValue)
  | curvelog (parameter : CurvelogValue)
  | history (parameter : GoString)
  | dynamicMetadata (parameter : GoString)

/-- The filter member: none, one filter object, or an array of two. -/
inductive VissFilters
  | none
  | one (f : VissFilter)
  | two (f g : VissFilter)

inductive VissRequest
  | get (path : GoString) (filter : VissFilters) (authorization requestId : Option GoString)
  | set (path value : GoString) (authorization requestId : Option GoString)
  | subscribe (path : GoString) (filter : VissFilters) (authorization requestId : Option GoString)
  | unsubscribe (subscriptionId : GoString) (authorization requestId : Option GoString)

def Many.json {α : Type} (json : α → Json) : Many α → Json
  | .one a => json a
  | .many as => .arr (as.map json)

def VissFilter.fType : VissFilter → FilterType
  | .paths _ => .paths
  | .timebased _ => .timebased
  | .range _ => .range
  | .change _ => .change
  | .curvelog _ => .curvelog
  | .history _ => .history
  | .dynamicMetadata _ => .dynamicMetadata

def VissFilter.parameter : VissFilter → Json
  | .paths p => p.json .str
  | .timebased p => p.json
  | .range p => p.json RangeValue.json
  | .change p => p.json
  | .curvelog p => p.json
  | .history p => .str p
  | .dynamicMetadata p => .str p

def VissFilter.json (f : VissFilter) : Json := filterObject f.fType.name f.parameter

def VissFilters.json : VissFilters → Option Json
  | .none => Option.none
  | .one f => some f.json
  | .two f g => some (.arr [f.json, g.json])

def VissFilters.list : VissFilters → List VissFilter
  | .none => []
  | .one f => [f]
  | .two f g => [f, g]

def VissRequest.action : VissRequest → GoString
  | .get .. => str "get"
  | .set .. => str "set"
  | .subscribe .. => str "subscribe"
  | .unsubscribe .. => str "unsubscribe"

def VissRequest.table : VissRequest → List (GoString × Option Json)
  | .get path filter authorization requestId => [(str "path", some (.str path)),
      (str "filter", filter.json), (str "authorization", authorization.map .str),
      (str "requestId", requestId.map .str)]
  | .set path value authorization requestId => [(str "path", some (.str path)),
      (str "value", some (.str value)), (str "authorization", authorization.map .str),
      (str "requestId", requestId.map .str)]
  | .subscribe path filter authorization requestId => [(str "path", some (.str path)),
      (str "filter", filter.json), (str "authorization", authorization.map .str),
      (str "requestId", requestId.map .str)]
  | .unsubscribe subscriptionId authorization requestId =>
      [(str "subscriptionId", some (.str subscriptionId)),
        (str "authorization", authorization.map .str), (str "requestId", requestId.map .str)]

def VissRequest.members (r : VissRequest) : List (GoString × Json) :=
  present ((str "action", some (.str r.action)) :: r.table)

/-- The map that decoding a text of the request gives. -/
def VissRequest.map (r : VissRequest) : GoMap Json := GoMap.ofMembers (canonMembers r.members)

/-- The *RequestJsonToPb function for the method of the request. -/
def VissRequest.jsonToPb (r : VissRequest) (vssReq : GoString) : MayPanic (Option GrpcRequest) :=
  match r with
  | .get .. => (getRequestJsonToPb vssReq).map (Option.map .get)
  | .set .. => (setRequestJsonToPb vssReq).map (Option.map .set)
  | .subscribe .. => (subscribeRequestJsonToPb vssReq).map (Option.map .subscribe)
  | .unsubscribe .. => (unsubscribeRequestJsonToPb vssReq).map (Option.map .unsubscribe)

/-! ## The messages that the client makes -/

/-- The filter expression that is made of a filter object; a condition of a range has no
member boundary-op. -/
def VissFilter.pb : VissFilter → MayPanic FilterExpression
  | .paths p => some ⟨.paths, some { valuePaths := some ⟨p.toList⟩ }⟩
  | .timebased p => some ⟨.timebased, some { valueTimebased := some p }⟩
  | .range p => if p.toList = [] then some ⟨.range, some {}⟩ else none
  | .change p => some ⟨.change, some { valueChange := some p }⟩
  | .curvelog p => some ⟨.curvelog, some { valueCurvelog := some p }⟩
  | .history p => some ⟨.history, some { valueHistory := some ⟨p⟩ }⟩
  | .dynamicMetadata p => some ⟨.dynamicMetadata, some { valueDynamicMetadata := some ⟨p⟩ }⟩

def VissFilters.pb : VissFilters → MayPanic (Option FilterExpressions)
  | .none => some Option.none
  | .one f => do some (some ⟨[← f.pb]⟩)
  | .two f g => do some (some ⟨[← f.pb, ← g.pb]⟩)

def VissRequest.pb : VissRequest → MayPanic GrpcRequest
  | .get path filter authorization requestId => do
      let filter ← filter.pb
      some (.get { path, filter, authorization, requestId })
  | .set path value authorization requestId =>
      some (.set { path, value, authorization, requestId })
  | .subscribe path filter authorization requestId => do
      let filter ← filter.pb
      some (.subscribe { path, filter, authorization, requestId := requestId.getD [] })
  | .unsubscribe subscriptionId _ requestId =>
      some (.unsubscribe { subscriptionId, requestId })

theorem canon_map_str (as : List GoString) :
    canonItems (as.map Json.str) = as.map Json.str := by
  rw [canonItems_eq_map, List.map_map]
  rfl

theorem filterValue_paths (p : Many GoString) :
    getPbPathsFilterValue (canon (p.json .str)) = some ⟨p.toList⟩ := by
  cases p with
  | one a => rfl
  | many as =>
    have hread : (as.map Json.str).mapM asString = some as :=
      Traversals.mapM_map_self fun _ => rfl
    rw [Many.json, canon, canon_map_str, getPbPathsFilterValue, hread]
    rfl

theorem filterValue_range (p : Many RangeValue) :
    rangeFilterValues (str "boundary-op") (canon (p.json RangeValue.json)) =
      if p.toList = [] then some [] else none := by
  cases p with
  | one a => rfl
  | many as =>
    cases as with
    | nil => rfl
    | cons a as =>
      rw [Many.json, canon, canonItems_eq_map, List.map_map, rangeFilterValues, List.map_cons,
        List.mapM_cons]
      rfl

/-- What createPbFilter makes of the filter object of a type with this parameter. -/
theorem createPbFilter_object (t : FilterType) (ht : t ≠ .unknown) (parameter : Json) :
    (asMap (canon (filterObject t.name parameter))).bind createPbFilter =
      (filterValue (str "boundary-op") t (canon parameter)).map fun value => ⟨t, some value⟩ := by
  have hfilter : ∀ name, (asMap (canon (filterObject name parameter))).bind createPbFilter =
      (filterValue (str "boundary-op") (getFilterType name) (canon parameter)).bind fun value =>
        some ⟨getFilterType name, some value⟩ := fun _ => rfl
  have hname : getFilterType t.name = t := by
    cases t with
    | unknown => exact absurd rfl ht
    | _ => rfl
  rw [hfilter, hname, Option.map_eq_bind]
  rfl

theorem createPbFilter_json (f : VissFilter) :
    (asMap (canon f.json)).bind createPbFilter = f.pb := by
  have hobject := createPbFilter_object f.fType (by cases f <;> nofun) f.parameter
  rw [VissFilter.json, hobject]
  cases f with
  | paths p =>
    have hvalue := filterValue_paths p
    simp only [VissFilter.fType, VissFilter.parameter, filterValue, hvalue, Option.bind_eq_bind,
      Option.bind_some, Option.map_some, VissFilter.pb]
  | range p =>
    have hvalue := filterValue_range p
    simp only [VissFilter.fType, VissFilter.parameter, filterValue, hvalue, VissFilter.pb]
    split <;> rfl
  | timebased p => rfl
  | change p => rfl
  | curvelog p => rfl
  | history p => rfl
  | dynamicMetadata p => rfl

/-- What the client makes of the filter member. -/
theorem createPbFilters_json (filter : VissFilters) :
    createPbFilters ((filter.json.map canon).getD .null) = filter.pb := by
  cases filter with
  | none => rfl
  | one f =>
    have hf := createPbFilter_json f
    simp only [VissFilters.json, VissFilters.pb, ← hf]
    rfl
  | two f g =>
    have hf := createPbFilter_json f
    have hg := createPbFilter_json g
    simp only [VissFilters.json, VissFilters.pb, ← hf, ← hg]
    change createPbFilters (.arr [canon f.json, canon g.json]) = _
    simp only [createPbFilters, Option.bind_eq_bind, Option.bind_assoc]

theorem VissRequest.names (r : VissRequest) :
    let names := ((str "action", some (Json.str r.action)) :: r.table).map Prod.fst
    names.Nodup ∧ ∀ k ∈ names, k.all isPlain = true := by
  have hget : ([str "action", str "path", str "filter", str "authorization",
      str "requestId"].Nodup ∧ ∀ k ∈ [str "action", str "path", str "filter", str "authorization",
      str "requestId"], k.all isPlain = true) := by decide
  cases r with
  | get path filter authorization requestId => exact hget
  | set path value authorization requestId =>
    exact (by decide : [str "action", str "path", str "value", str "authorization",
      str "requestId"].Nodup ∧ ∀ k ∈ [str "action", str "path", str "value", str "authorization",
      str "requestId"], k.all isPlain = true)
  | subscribe path filter authorization requestId => exact hget
  | unsubscribe subscriptionId authorization requestId =>
    exact (by decide : [str "action", str "subscriptionId", str "authorization",
      str "requestId"].Nodup ∧ ∀ k ∈ [str "action", str "subscriptionId", str "authorization",
      str "requestId"], k.all isPlain = true)

/-- The value under a name in the decoded map. -/
theorem VissRequest.valueAt_map (r : VissRequest) (k : GoString) :
    valueAt r.map k =
      ((((str "action", some (.str r.action)) :: r.table).lookup k).join.map canon).getD .null :=
  valueAt_present r.names.1 k

theorem optionalStringAt_eq {m : GoMap Json} {k : GoString} {s : Option GoString}
    (h : valueAt m k = ((s.map Json.str).map canon).getD .null) :
    optionalStringAt m k = some s := by
  rw [optionalStringAt, stringAt, h]
  cases s <;> rfl

/-- What the client makes of a text of the request. -/
theorem VissRequest.jsonToPb_eq {r : VissRequest} {vssReq : GoString}
    (h : unmarshalMap vssReq = some r.map) : r.jsonToPb vssReq = r.pb.map some := by
  have hvalue := r.valueAt_map
  generalize r.map = m at h hvalue
  cases r with
  | get path filter authorization requestId =>
    have hpath : stringAt m (str "path") = some path := congrArg asString (hvalue _)
    have hfilter : createPbFilters (valueAt m (str "filter")) = filter.pb := by
      rw [hvalue]
      exact createPbFilters_json filter
    have hauthorization : optionalStringAt m (str "authorization") = some authorization :=
      optionalStringAt_eq (hvalue _)
    have hrequestId : optionalStringAt m (str "requestId") = some requestId :=
      optionalStringAt_eq (hvalue _)
    rw [VissRequest.jsonToPb, getRequestJsonToPb, requestJsonToPb, h]
    simp only [createGetRequestPb, hpath, hfilter, hauthorization, hrequestId,
      Option.bind_eq_bind, Option.bind_some, VissRequest.pb]
    cases filter.pb <;> rfl
  | set path value authorization requestId =>
    have hpath : stringAt m (str "path") = some path := congrArg asString (hvalue _)
    have hvalue' : stringAt m (str "value") = some value := congrArg asString (hvalue _)
    have hauthorization : optionalStringAt m (str "authorization") = some authorization :=
      optionalStringAt_eq (hvalue _)
    have hrequestId : optionalStringAt m (str "requestId") = some requestId :=
      optionalStringAt_eq (hvalue _)
    rw [VissRequest.jsonToPb, setRequestJsonToPb, requestJsonToPb, h]
    simp only [createSetRequestPb, hpath, hvalue', hauthorization, hrequestId,
      Option.bind_eq_bind, Option.bind_some, VissRequest.pb]
    rfl
  | subscribe path filter authorization requestId =>
    have hpath : stringAt m (str "path") = some path := congrArg asString (hvalue _)
    have hfilter : createPbFilters (valueAt m (str "filter")) = filter.pb := by
      rw [hvalue]
      exact createPbFilters_json filter
    have hauthorization : optionalStringAt m (str "authorization") = some authorization :=
      optionalStringAt_eq (hvalue _)
    have hrequestId : optionalStringAt m (str "requestId") = some requestId :=
      optionalStringAt_eq (hvalue _)
    rw [VissRequest.jsonToPb, subscribeRequestJsonToPb, requestJsonToPb, h]
    simp only [createSubscribeRequestPb, hpath, hfilter, hauthorization, hrequestId,
      Option.bind_eq_bind, Option.bind_some, VissRequest.pb]
    cases filter.pb <;> rfl
  | unsubscribe subscriptionId authorization requestId =>
    have hsubscriptionId : stringAt m (str "subscriptionId") = some subscriptionId :=
      congrArg asString (hvalue _)
    have hrequestId : optionalStringAt m (str "requestId") = some requestId :=
      optionalStringAt_eq (hvalue _)
    rw [VissRequest.jsonToPb, unsubscribeRequestJsonToPb, requestJsonToPb, h]
    simp only [createUnsubscribeRequestPb, hsubscriptionId, hrequestId, Option.bind_eq_bind,
      Option.bind_some, VissRequest.pb]
    rfl

/-! ## Round trips -/

/-- A list of paths comes back as an array where it has at least two items. A range is not
accepted, and the name of a metadata domain comes back without quotes. -/
def VissFilter.Carried : VissFilter → Prop
  | .paths (.many as) => 2 ≤ as.length
  | .range _ => False
  | .dynamicMetadata _ => False
  | _ => True

theorem filterObject_canon {name : GoString} {j j' : Json}
    (h : canon (filterObject name j) = canon (filterObject name j')) : canon j = canon j' := by
  have hparameter : ∀ j, canon (filterObject name j) =
      .obj [(str "parameter", canon j), (str "type", .str name)] := fun _ => rfl
  rw [hparameter, hparameter] at h
  simpa using h

theorem keeps_filterObject {depth : ℕ} {name : GoString} {j j' : Json}
    (h : j = .null ∨ Keeps depth j j') :
    Keeps (depth + 1) (filterObject name j) (filterObject name j') := by
  have hnodup : [str "type", str "parameter"].Nodup := by decide
  have hpresent : ∀ j, filterObject name j =
      .obj (present [(str "type", some (.str name)), (str "parameter", some j)]) := fun _ => rfl
  rw [hpresent, hpresent]
  refine keeps_present hnodup (List.forall_mem_cons.mpr ⟨?_, List.forall_mem_singleton.mpr ?_⟩)
  · intro j hj
    obtain rfl := Option.mem_some_iff.mp hj
    exact ⟨_, List.mem_cons_self .., .inr (keeps_str depth name)⟩
  · intro i hi
    obtain rfl := Option.mem_some_iff.mp hi
    exact ⟨j', List.mem_cons_of_mem _ (List.mem_singleton_self _), h⟩

section Filters

variable {f : VissFilter} {e : FilterExpression}

/-- A filter keeps the strings of the filter object that it is made of. -/
theorem VissFilter.keeps (h : f.pb = some e) (depth : ℕ) :
    Keeps (depth + 3) (e.json .meant) f.json := by
  have htextual := (e.textual.mono (Nat.le_add_left 3 depth)).1
  cases f with
  | paths p =>
    obtain rfl := Option.some.inj h
    match p with
    | .one a => exact .refl htextual
    | .many [] => exact .refl htextual
    | .many [a] =>
      refine keeps_filterObject (.inr ?_)
      exact .inr ⟨.str a, rfl, .inl rfl⟩
    | .many (a :: a' :: as) => exact .refl htextual
  | range p =>
    rw [VissFilter.pb] at h
    split at h
    · next hnil =>
      obtain rfl := Option.some.inj h
      cases p with
      | one a => simp [Many.toList] at hnil
      | many as =>
        obtain rfl : as = [] := hnil
        exact .refl htextual
    · simp at h
  | timebased p =>
    obtain rfl := Option.some.inj h
    exact .refl htextual
  | change p =>
    obtain rfl := Option.some.inj h
    exact .refl htextual
  | curvelog p =>
    obtain rfl := Option.some.inj h
    exact .refl htextual
  | history p =>
    obtain rfl := Option.some.inj h
    exact .refl htextual
  | dynamicMetadata p =>
    obtain rfl := Option.some.inj h
    exact .refl htextual

theorem VissFilter.pb_of_carried (h : f.Carried) :
    ∃ e, f.pb = some e ∧ e.Listed ∧ e.Quoted ∧ e.json .meant = f.json := by
  cases f with
  | paths p =>
    refine ⟨_, rfl, ?_, ⟨nofun, nofun⟩, ?_⟩
    · match p with
      | .one a => exact List.cons_ne_nil a []
      | .many (a :: as) => exact List.cons_ne_nil a as
    · match p with
      | .one a => rfl
      | .many (a :: a' :: as) => rfl
      | .many [a] => exact absurd h (by simp [VissFilter.Carried])
  | range p => exact absurd h id
  | dynamicMetadata p => exact absurd h id
  | timebased p => exact ⟨_, rfl, trivial, ⟨nofun, nofun⟩, rfl⟩
  | change p => exact ⟨_, rfl, trivial, ⟨nofun, nofun⟩, rfl⟩
  | curvelog p => exact ⟨_, rfl, trivial, ⟨nofun, nofun⟩, rfl⟩
  | history p => exact ⟨_, rfl, trivial, ⟨nofun, nofun⟩, rfl⟩

theorem VissFilter.carried (h : f.pb = some e) (hlisted : e.Listed) (hquoted : e.Quoted)
    (hcanon : canon f.json = canon (e.json .meant)) : f.Carried := by
  cases f with
  | paths p =>
    obtain rfl := Option.some.inj h
    match p with
    | .one a => trivial
    | .many [] => exact absurd rfl hlisted
    | .many [a] =>
      have hparameter := filterObject_canon hcanon
      simp [VissFilter.parameter, FilterValue.parameter, PathsValue.json, Many.json, Many.toList,
        listValue, canon] at hparameter
    | .many (a :: a' :: as) => simp [VissFilter.Carried]
  | range p =>
    rw [VissFilter.pb] at h
    split at h
    · obtain rfl := Option.some.inj h
      exact absurd rfl hlisted
    · simp at h
  | dynamicMetadata p =>
    obtain rfl := Option.some.inj h
    exact absurd rfl hquoted.2
  | timebased p => trivial
  | change p => trivial
  | curvelog p => trivial
  | history p => trivial

variable {filter : VissFilters} {fs : Option FilterExpressions}

/-- The filter expressions of the message are made of the filter objects, one of each. -/
theorem VissFilters.pb_cases (h : filter.pb = some fs) :
    (filter = .none ∧ fs = Option.none) ∨
      (∃ f e, filter = .one f ∧ f.pb = some e ∧ fs = some ⟨[e]⟩) ∨
      ∃ f g e e', filter = .two f g ∧ f.pb = some e ∧ g.pb = some e' ∧ fs = some ⟨[e, e']⟩ := by
  cases filter with
  | none => exact .inl ⟨rfl, (Option.some.inj h).symm⟩
  | one f =>
    simp only [VissFilters.pb, Option.bind_eq_bind, Option.bind_eq_some_iff,
      Option.some.injEq] at h
    obtain ⟨e, he, rfl⟩ := h
    exact .inr (.inl ⟨f, e, rfl, he, rfl⟩)
  | two f g =>
    simp only [VissFilters.pb, Option.bind_eq_bind, Option.bind_eq_some_iff,
      Option.some.injEq] at h
    obtain ⟨e, he, e', he', rfl⟩ := h
    exact .inr (.inr ⟨f, g, e, e', rfl, he, he', rfl⟩)

theorem VissFilters.keeps (h : filter.pb = some fs) (depth : ℕ) :
    ∀ j ∈ fs.map (·.json .meant), ∃ j' ∈ filter.json, j = .null ∨ Keeps (depth + 4) j j' := by
  intro j hj
  rcases VissFilters.pb_cases h with ⟨rfl, rfl⟩ | ⟨f, e, rfl, he, rfl⟩ |
    ⟨f, g, e, e', rfl, he, he', rfl⟩
  · simp at hj
  · obtain rfl := Option.mem_some_iff.mp hj
    exact ⟨_, rfl, .inr (VissFilter.keeps he (depth + 1))⟩
  · obtain rfl := Option.mem_some_iff.mp hj
    refine ⟨_, rfl, .inr ⟨_, rfl, ?_⟩⟩
    exact .cons (VissFilter.keeps he depth) (.cons (VissFilter.keeps he' depth) .nil)

theorem VissFilters.pb_of_carried (h : ∀ f ∈ filter.list, f.Carried) :
    ∃ fs, filter.pb = some fs ∧ (∀ f ∈ fs, f.Listed) ∧ (∀ f ∈ fs, f.Quoted) ∧
      fs.map (·.json .meant) = filter.json := by
  have hsome : ∀ {f : FilterExpressions} {P : FilterExpressions → Prop}, P f →
      ∀ f' ∈ some f, P f' := by
    intro f P hf f' hf'
    obtain rfl := Option.mem_some_iff.mp hf'
    exact hf
  cases filter with
  | none => exact ⟨Option.none, rfl, by simp, by simp, rfl⟩
  | one f =>
    obtain ⟨e, he, hlisted, hquoted, hjson⟩ := VissFilter.pb_of_carried (h f (by simp [list]))
    refine ⟨some ⟨[e]⟩, by simp [pb, he], hsome ⟨List.cons_ne_nil _ _, ?_⟩, hsome ?_,
      congrArg some hjson⟩
    · exact List.forall_mem_singleton.mpr hlisted
    · exact List.forall_mem_singleton.mpr hquoted
  | two f g =>
    obtain ⟨e, he, hlisted, hquoted, hjson⟩ := VissFilter.pb_of_carried (h f (by simp [list]))
    obtain ⟨e', he', hlisted', hquoted', hjson'⟩ :=
      VissFilter.pb_of_carried (h g (by simp [list]))
    refine ⟨some ⟨[e, e']⟩, by simp [pb, he, he'], hsome ⟨List.cons_ne_nil _ _, ?_⟩, hsome ?_, ?_⟩
    · exact List.forall_mem_cons.mpr ⟨hlisted, List.forall_mem_singleton.mpr hlisted'⟩
    · exact List.forall_mem_cons.mpr ⟨hquoted, List.forall_mem_singleton.mpr hquoted'⟩
    · rw [VissFilters.json, ← hjson, ← hjson']
      rfl

theorem VissFilters.carried (h : filter.pb = some fs) (hlisted : ∀ f ∈ fs, f.Listed)
    (hquoted : ∀ f ∈ fs, f.Quoted)
    (hcanon : filter.json.map canon = (fs.map (·.json .meant)).map canon) :
    ∀ f ∈ filter.list, f.Carried := by
  rcases VissFilters.pb_cases h with ⟨rfl, rfl⟩ | ⟨f, e, rfl, he, rfl⟩ |
    ⟨f, g, e, e', rfl, he, he', rfl⟩
  · simp [list]
  · refine List.forall_mem_singleton.mpr ?_
    exact VissFilter.carried he ((hlisted _ rfl).2 e (by simp)) (hquoted _ rfl e (by simp))
      (Option.some.inj hcanon)
  · have hitems := Option.some.inj hcanon
    simp only [FilterExpressions.json, List.map_cons, List.map_nil, listValue, canon, canonItems,
      Json.arr.injEq, List.cons.injEq, and_true] at hitems
    refine List.forall_mem_cons.mpr ⟨?_, List.forall_mem_singleton.mpr ?_⟩
    · exact VissFilter.carried he ((hlisted _ rfl).2 e (by simp)) (hquoted _ rfl e (by simp))
        hitems.1
    · exact VissFilter.carried he' ((hlisted _ rfl).2 e' (by simp)) (hquoted _ rfl e' (by simp))
        hitems.2

end Filters

def VissRequest.json (r : VissRequest) : Json := .obj r.members

/-- The request comes back: its filters do, no identifier or token of it is empty, and an
unsubscribe request has no token. -/
def VissRequest.Carried : VissRequest → Prop
  | .get _ filter authorization requestId =>
      (∀ f ∈ filter.list, f.Carried) ∧ authorization ≠ some [] ∧ requestId ≠ some []
  | .set _ _ authorization requestId => authorization ≠ some [] ∧ requestId ≠ some []
  | .subscribe _ filter authorization requestId =>
      (∀ f ∈ filter.list, f.Carried) ∧ authorization ≠ some [] ∧ requestId ≠ some []
  | .unsubscribe subscriptionId authorization requestId =>
      subscriptionId ≠ [] ∧ authorization = none ∧ requestId ≠ some []

section Requests

variable {r : VissRequest} {pb : GrpcRequest}

/-- A table keeps the fields of a message, if each field is kept under its name. -/
theorem keeps_fields {depth : ℕ} {fields : List (GoString × Field)}
    {table : List (GoString × Option Json)} (hnodup : (table.map Prod.fst).Nodup)
    (h : ∀ p ∈ fields, ∃ o, (p.1, o) ∈ table ∧
      ∀ j ∈ p.2.json .meant, ∃ j' ∈ o, j = .null ∨ Keeps depth j j') :
    Keeps (depth + 1) (fieldsJson .meant fields) (.obj (present table)) := by
  refine keeps_present hnodup fun p hp j hj => ?_
  obtain ⟨q, hq, rfl⟩ := List.mem_map.mp hp
  obtain ⟨o, hmem, hkept⟩ := h q hq
  obtain ⟨j', hj', hkeeps⟩ := hkept j hj
  obtain rfl := Option.mem_def.mp hj'
  exact ⟨j', hmem, hkeeps⟩

theorem Field.keeps (field : Field) (depth : ℕ) :
    ∀ j ∈ field.json .meant, ∃ j' ∈ field.json .meant, j = .null ∨ Keeps (depth + 4) j j' := by
  intro j hj
  exact ⟨j, hj, .inr (.refl ((field.textual j hj).mono (Nat.le_add_left 4 depth)).1)⟩

theorem keeps_nonEmpty (depth : ℕ) {s : GoString} {o : Option Json}
    (h : s ≠ [] → o = some (.str s)) :
    ∀ j ∈ nonEmpty s, ∃ j' ∈ o, j = .null ∨ Keeps (depth + 4) j j' := by
  intro j hj
  unfold nonEmpty at hj
  split at hj
  · simp at hj
  · next hne =>
    obtain rfl := Option.mem_some_iff.mp hj
    exact ⟨_, h hne, .inr (keeps_str _ s)⟩

/-- The request keeps the strings of the message that is made of it. -/
theorem VissRequest.keeps (h : r.pb = some pb) (depth : ℕ) :
    Keeps (depth + 5) (pb.json .meant) r.json := by
  have haction : pb.action = r.action := by
    cases r <;>
      simp only [VissRequest.pb, Option.bind_eq_bind, Option.bind_eq_some_iff,
        Option.some.injEq] at h
    case get => obtain ⟨fs, -, rfl⟩ := h; rfl
    case subscribe => obtain ⟨fs, -, rfl⟩ := h; rfl
    case set => subst h; rfl
    case unsubscribe => subst h; rfl
  refine keeps_fields r.names.1 (List.forall_mem_cons.mpr ⟨?_, ?_⟩)
  · rw [haction]
    exact ⟨_, List.mem_cons_self .., (Field.text r.action).keeps depth⟩
  cases r with
  | get path filter authorization requestId =>
    simp only [VissRequest.pb, Option.bind_eq_bind, Option.bind_eq_some_iff,
      Option.some.injEq] at h
    obtain ⟨fs, hfs, rfl⟩ := h
    simp only [GrpcRequest.members, List.forall_mem_cons, List.not_mem_nil, false_imp_iff,
      implies_true, and_true]
    refine ⟨?_, ?_, ?_, ?_⟩
    · exact ⟨_, by simp [VissRequest.table, Field.json], (Field.text path).keeps depth⟩
    · exact ⟨_, by simp [VissRequest.table], VissFilters.keeps hfs depth⟩
    · exact ⟨_, by simp [VissRequest.table, Field.json, Reading.optional],
        (Field.optional authorization).keeps depth⟩
    · exact ⟨_, by simp [VissRequest.table, Field.json, Reading.optional],
        (Field.optional requestId).keeps depth⟩
  | set path value authorization requestId =>
    obtain rfl := Option.some.inj h
    simp only [GrpcRequest.members, List.forall_mem_cons, List.not_mem_nil, false_imp_iff,
      implies_true, and_true]
    refine ⟨?_, ?_, ?_, ?_⟩
    · exact ⟨_, by simp [VissRequest.table, Field.json], (Field.text path).keeps depth⟩
    · exact ⟨_, by simp [VissRequest.table, Field.json], (Field.text value).keeps depth⟩
    · exact ⟨_, by simp [VissRequest.table, Field.json, Reading.optional],
        (Field.optional authorization).keeps depth⟩
    · exact ⟨_, by simp [VissRequest.table, Field.json, Reading.optional],
        (Field.optional requestId).keeps depth⟩
  | subscribe path filter authorization requestId =>
    simp only [VissRequest.pb, Option.bind_eq_bind, Option.bind_eq_some_iff,
      Option.some.injEq] at h
    obtain ⟨fs, hfs, rfl⟩ := h
    simp only [GrpcRequest.members, List.forall_mem_cons, List.not_mem_nil, false_imp_iff,
      implies_true, and_true]
    refine ⟨?_, ?_, ?_, ?_⟩
    · exact ⟨_, by simp [VissRequest.table, Field.json], (Field.text path).keeps depth⟩
    · exact ⟨_, by simp [VissRequest.table], VissFilters.keeps hfs depth⟩
    · exact ⟨_, by simp [VissRequest.table, Field.json, Reading.optional],
        (Field.optional authorization).keeps depth⟩
    · refine ⟨requestId.map .str, by simp [VissRequest.table], keeps_nonEmpty depth fun hne => ?_⟩
      cases requestId with
      | none => exact absurd rfl hne
      | some s => rfl
  | unsubscribe subscriptionId authorization requestId =>
    obtain rfl := Option.some.inj h
    simp only [GrpcRequest.members, List.forall_mem_cons, List.not_mem_nil, false_imp_iff,
      implies_true, and_true]
    refine ⟨?_, ?_⟩
    · exact ⟨_, by simp [VissRequest.table], keeps_nonEmpty depth fun _ => rfl⟩
    · exact ⟨_, by simp [VissRequest.table, Field.json, Reading.optional],
        (Field.optional requestId).keeps depth⟩

theorem nonEmpty_getD {s : Option GoString} (h : s ≠ some []) :
    nonEmpty (s.getD []) = s.map Json.str := by
  match s with
  | none => rfl
  | some [] => exact absurd rfl h
  | some (c :: s) => rfl

theorem VissRequest.pb_of_carried (h : r.Carried) :
    ∃ pb, r.pb = some pb ∧ pb.Listed ∧ pb.Quoted ∧ pb.json .meant = r.json := by
  cases r with
  | get path filter authorization requestId =>
    obtain ⟨hfilter, hauthorization, hrequestId⟩ := h
    obtain ⟨fs, hfs, hlisted, hquoted, hjson⟩ := VissFilters.pb_of_carried hfilter
    refine ⟨.get { path, filter := fs, authorization, requestId }, ?_, ?_, ?_, ?_⟩
    · simp only [pb, hfs, Option.bind_eq_bind, Option.bind_some]
    · simpa [GrpcRequest.Listed, GrpcRequest.fields, GrpcRequest.members, Field.Listed] using hlisted
    · simpa [GrpcRequest.Quoted, GrpcRequest.fields, GrpcRequest.members, Field.Quoted,
        hauthorization, hrequestId] using hquoted
    · simp only [GrpcRequest.json, GrpcRequest.fields, GrpcRequest.members, fieldsJson, fieldsTable,
        List.map_cons, List.map_nil, Field.json, hjson]
      rfl
  | set path value authorization requestId =>
    refine ⟨_, rfl, ?_, ?_, rfl⟩
    · simp [GrpcRequest.Listed, GrpcRequest.fields, GrpcRequest.members, Field.Listed]
    · simpa [GrpcRequest.Quoted, GrpcRequest.fields, GrpcRequest.members, Field.Quoted,
        VissRequest.Carried] using h
  | subscribe path filter authorization requestId =>
    obtain ⟨hfilter, hauthorization, hrequestId⟩ := h
    obtain ⟨fs, hfs, hlisted, hquoted, hjson⟩ := VissFilters.pb_of_carried hfilter
    refine ⟨.subscribe { path, filter := fs, authorization, requestId := requestId.getD [] }, ?_,
      ?_, ?_, ?_⟩
    · simp only [pb, hfs, Option.bind_eq_bind, Option.bind_some]
    · simpa [GrpcRequest.Listed, GrpcRequest.fields, GrpcRequest.members, Field.Listed] using hlisted
    · simpa [GrpcRequest.Quoted, GrpcRequest.fields, GrpcRequest.members, Field.Quoted,
        hauthorization] using hquoted
    · simp only [GrpcRequest.json, GrpcRequest.fields, GrpcRequest.members, fieldsJson, fieldsTable,
        List.map_cons, List.map_nil, Field.json, hjson, nonEmpty_getD hrequestId]
      rfl
  | unsubscribe subscriptionId authorization requestId =>
    obtain ⟨hsubscriptionId, rfl, hrequestId⟩ := h
    refine ⟨_, rfl, ?_, ?_, ?_⟩
    · simp [GrpcRequest.Listed, GrpcRequest.fields, GrpcRequest.members, Field.Listed]
    · simpa [GrpcRequest.Quoted, GrpcRequest.fields, GrpcRequest.members, Field.Quoted]
        using hrequestId
    · simp only [GrpcRequest.json, GrpcRequest.fields, GrpcRequest.members, fieldsJson, fieldsTable,
        List.map_cons, List.map_nil, Field.json, nonEmpty, if_neg hsubscriptionId]
      rfl

theorem VissRequest.carried (h : r.pb = some pb) (hlisted : pb.Listed) (hquoted : pb.Quoted)
    (hcanon : canon r.json = canon (pb.json .meant)) : r.Carried := by
  have hnames := pb.names.1
  rw [← names_fieldsTable .meant] at hnames
  have hget := lookup_canon r.names.1 hnames hcanon
  have hmembers := (List.forall_mem_cons.mp hquoted).2
  have hmembers' := (List.forall_mem_cons.mp hlisted).2
  cases r with
  | get path filter authorization requestId =>
    simp only [VissRequest.pb, Option.bind_eq_bind, Option.bind_eq_some_iff,
      Option.some.injEq] at h
    obtain ⟨fs, hfs, rfl⟩ := h
    simp only [GrpcRequest.members, List.forall_mem_cons, Field.Quoted, Field.Listed]
      at hmembers hmembers'
    obtain ⟨-, hfilter, hauthorization, hrequestId, -⟩ := hmembers
    exact ⟨VissFilters.carried hfs hmembers'.2.1 hfilter (hget (str "filter")), hauthorization,
      hrequestId⟩
  | set path value authorization requestId =>
    obtain rfl := Option.some.inj h
    simp only [GrpcRequest.members, List.forall_mem_cons, Field.Quoted] at hmembers
    obtain ⟨-, -, hauthorization, hrequestId, -⟩ := hmembers
    exact ⟨hauthorization, hrequestId⟩
  | subscribe path filter authorization requestId =>
    simp only [VissRequest.pb, Option.bind_eq_bind, Option.bind_eq_some_iff,
      Option.some.injEq] at h
    obtain ⟨fs, hfs, rfl⟩ := h
    simp only [GrpcRequest.members, List.forall_mem_cons, Field.Quoted, Field.Listed]
      at hmembers hmembers'
    obtain ⟨-, hfilter, hauthorization, -, -⟩ := hmembers
    refine ⟨VissFilters.carried hfs hmembers'.2.1 hfilter (hget (str "filter")), hauthorization, ?_⟩
    intro hempty
    subst hempty
    exact Option.some_ne_none _ (hget (str "requestId"))
  | unsubscribe subscriptionId authorization requestId =>
    obtain rfl := Option.some.inj h
    simp only [GrpcRequest.members, List.forall_mem_cons, Field.Quoted] at hmembers
    obtain ⟨-, hrequestId, -⟩ := hmembers
    refine ⟨?_, ?_, hrequestId⟩
    · intro hempty
      subst hempty
      exact Option.some_ne_none _ (hget (str "subscriptionId"))
    · cases authorization with
      | none => rfl
      | some s => exact (Option.some_ne_none _ (hget (str "authorization"))).elim

end Requests

theorem VissRequest.map_ne_nil (r : VissRequest) : r.map ≠ [] := by
  intro hnil
  have hget : r.map.get (str "action") = _ := get_present r.names.1 (str "action")
  rw [hnil] at hget
  exact absurd hget nofun

/-- A request comes back from the server's side of gRPC, as a text that denotes it, if and only
if its filters are carried, its identifiers and tokens are not empty, an unsubscribe request
has no token, and all strings are literals. -/
theorem grpc_request_round_trip (r : VissRequest) (vssReq : GoString)
    (h : unmarshalMap vssReq = some r.map) :
    (∃ pb jsonMessage, r.jsonToPb vssReq = some (some pb) ∧ pb.pbToJson = some jsonMessage ∧
        unmarshalMap jsonMessage = some r.map) ↔
      r.Carried ∧ Literal maxNestingDepth r.json := by
  have hmeans : ∀ jsonMessage, unmarshalMap jsonMessage = some r.map ↔
      (parseText jsonMessage).map canon = some (canon r.json) :=
    fun jsonMessage => unmarshalMap_eq_some_iff r.map_ne_nil
  have hpb : ∀ pb, r.jsonToPb vssReq = some (some pb) ↔ r.pb = some pb := by
    intro pb
    rw [VissRequest.jsonToPb_eq h]
    simp
  simp only [hpb, hmeans, exists_and_left]
  constructor
  · intro hround
    obtain ⟨pb, hpb, hround⟩ := hround
    have hkeeps := VissRequest.keeps hpb (maxNestingDepth - 5)
    obtain ⟨hlisted, hquoted, hliteral, hcanon⟩ := (pb.pbToJson_keeps_iff hkeeps).mp hround
    have hcarried := VissRequest.carried hpb hlisted hquoted hcanon
    obtain ⟨pb', hpb', -, -, hjson⟩ := VissRequest.pb_of_carried hcarried
    obtain rfl := Option.some.inj (hpb.symm.trans hpb')
    exact ⟨hcarried, hjson ▸ hliteral⟩
  · intro hcarried
    obtain ⟨hcarried, hliteral⟩ := hcarried
    obtain ⟨pb, hpb, hlisted, hquoted, hjson⟩ := VissRequest.pb_of_carried hcarried
    refine ⟨pb, hpb, ?_⟩
    rw [← hjson] at hliteral ⊢
    exact (pb.pbToJson_means_iff).mpr ⟨hlisted, hquoted, hliteral⟩

/-- A request for two signals, and its text. -/
def lightsRequest : VissRequest :=
  .get (str "Vehicle") (.one (.paths (.many [str "Body.Lights", str "Speed"]))) none
    (some (str "237"))

def lightsText : GoString :=
  str "\x7b\"action\":\"get\",\"path\":\"Vehicle\",\"filter\":\x7b\"type\":\"paths\"," ++
    str "\"parameter\":[\"Body.Lights\",\"Speed\"]\x7d,\"requestId\":\"237\"\x7d"

theorem lights_round_trip :
    ∃ pb jsonMessage, lightsRequest.jsonToPb lightsText = some (some pb) ∧
      pb.pbToJson = some jsonMessage ∧ unmarshalMap jsonMessage = some lightsRequest.map := by
  refine (grpc_request_round_trip lightsRequest lightsText rfl).mpr ⟨⟨?_, nofun, nofun⟩, ?_⟩
  · exact List.forall_mem_singleton.mpr le_rfl
  · have hfilter : Literal 9999 (VissFilter.paths (.many [str "Body.Lights", str "Speed"])).json := by
      refine List.forall_mem_cons.mpr ⟨isLiteral_of_all (by decide),
        List.forall_mem_singleton.mpr ?_⟩
      exact List.forall_mem_cons.mpr ⟨isLiteral_of_all (by decide),
        List.forall_mem_singleton.mpr (isLiteral_of_all (by decide))⟩
    exact List.forall_mem_cons.mpr ⟨isLiteral_of_all (by decide), List.forall_mem_cons.mpr
      ⟨isLiteral_of_all (by decide), List.forall_mem_cons.mpr ⟨hfilter,
        List.forall_mem_singleton.mpr (isLiteral_of_all (by decide))⟩⟩⟩

/-- A subscription to a range, and its text. The operator is read under another name. -/
def rangeRequest : VissRequest :=
  .subscribe (str "Vehicle.Speed") (.one (.range (.one ⟨str "gt", str "50"⟩))) none
    (some (str "285"))

def rangeText : GoString :=
  str "\x7b\"action\":\"subscribe\",\"path\":\"Vehicle.Speed\",\"filter\":\x7b\"type\":\"range\"," ++
    str "\"parameter\":\x7b\"logic-op\":\"gt\",\"boundary\":\"50\"\x7d\x7d,\"requestId\":\"285\"\x7d"

theorem rangeRequest_literal : Literal maxNestingDepth rangeRequest.json := by
  have hfilter : Literal 9999 (VissFilter.range (.one ⟨str "gt", str "50"⟩)).json := by
    refine List.forall_mem_cons.mpr ⟨isLiteral_of_all (by decide),
      List.forall_mem_singleton.mpr ?_⟩
    exact List.forall_mem_cons.mpr ⟨isLiteral_of_all (by decide),
      List.forall_mem_singleton.mpr (isLiteral_of_all (by decide))⟩
  exact List.forall_mem_cons.mpr ⟨isLiteral_of_all (by decide), List.forall_mem_cons.mpr
    ⟨isLiteral_of_all (by decide), List.forall_mem_cons.mpr ⟨hfilter,
      List.forall_mem_singleton.mpr (isLiteral_of_all (by decide))⟩⟩⟩

set_option maxRecDepth 2000 in
theorem range_request_lost :
    Literal maxNestingDepth rangeRequest.json ∧ unmarshalMap rangeText = some rangeRequest.map ∧
      ¬ ∃ pb jsonMessage, rangeRequest.jsonToPb rangeText = some (some pb) ∧
        pb.pbToJson = some jsonMessage ∧ unmarshalMap jsonMessage = some rangeRequest.map := by
  refine ⟨rangeRequest_literal, rfl, ?_⟩
  intro hround
  obtain ⟨pb, -, hpb, -⟩ := hround
  have hpanics : rangeRequest.jsonToPb rangeText = none := rfl
  rw [hpanics] at hpb
  simp at hpb

end VissServer.Utils

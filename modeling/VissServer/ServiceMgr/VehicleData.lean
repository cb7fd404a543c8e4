import VissServer.Feeder.StateStorage
import VissServer.ServiceMgr.Requests

/-!
The service manager's side of the state storages: the data point that it reads for a path,
and what it writes or sends for a set request (serviceMgr.go). The feeder that writes the
data points into the storage is another program, which agrees with the service manager on
their texts by convention only.
-/
namespace VissServer.ServiceMgr

open Go Utils Feeder

/-- The text of a data point as the service manager puts it together. -/
def dataPointText (value ts : GoString) : GoString :=
  str "\x7b\"value\":\"" ++ value ++ str "\", \"ts\":\"" ++ ts ++ str "\"\x7d"

/-- What setVehicleData and getVehicleData find outside: the storage, the time, the counter
that stands in for a storage, and the feeders that can be connected to and written to. -/
structure Backend where
  stateDbType : StateDbType
  storage : StateStorage
  rfcTime : RfcTime
  dummyValue : ℕ
  udsConn : GoString → Bool
  udsWrite : Bool

def getVehicleData (b : Backend) (path : GoString) : GoString :=
  match b.stateDbType with
  | .sqlite =>
      if b.storage.reachable then
        match (b.storage.vssMap path).bind fun row =>
            row.cValue.bind fun value => row.cTs.map fun timestamp => (value, timestamp) with
        | none => dataPointText (str "Data-not-available") b.rfcTime.text
        | some (value, timestamp) => dataPointText value timestamp
      else dataPointText (str "Data-error") b.rfcTime.text
  | .redis =>
      if b.storage.reachable then
        match b.storage.redis path with
        | none => dataPointText (str "Data-not-found") b.rfcTime.text
        | some dp => dp
      else dataPointText (str "Database-error") b.rfcTime.text
  | .apacheIotdb =>
      if b.storage.reachable then
        match b.storage.iotdb (str "`" ++ path ++ str "`") with
        | none => dataPointText [] []
        | some (value, ts) => dataPointText value ts
      else dataPointText (str "Data-not-found") b.rfcTime.text
  | .none => dataPointText (itoa b.dummyValue) b.rfcTime.text

/-- What setVehicleData hands to a storage or to a feeder. -/
inductive Written
  | row (path dValue dTs : GoString)
  | message (text : GoString)
  | record (vssKey vssValue : GoString)
  deriving DecidableEq

/-- What is written, and the time of the update, which is empty where nothing is. -/
def setVehicleData (b : Backend) (path value : GoString) :
    MayPanic (Option Written × GoString) :=
  let ts := b.rfcTime.text
  match b.stateDbType with
  | .sqlite =>
      if b.storage.reachable then do
        let path ← slice path 1 (path.length - 1) -- remove quotes surrounding path
        some (some (.row path value ts), ts)
      else some (none, [])
  | .redis =>
      if b.udsConn path then
        let data := str "\x7b\"path\":\"" ++ path ++ str "\", \"dp\":\x7b\"value\":\"" ++ value ++
          str "\", \"ts\":\"" ++ ts ++ str "\"\x7d\x7d"
        if b.udsWrite then some (some (.message data), ts) else some (none, [])
      else some (none, [])
  | .apacheIotdb =>
      if b.storage.reachable then
        some (some (.record (str "`" ++ path ++ str "`") value), ts)
      else some (none, [])
  | .none => some (none, [])

/-- The path and the value that a set request is written with; none where the path is a list,
which is refused. -/
def setCall (requestMap : GoMap Json) : MayPanic (Option (GoString × GoString)) := do
  let path ← asString (valueAt requestMap (str "path"))
  if contains path (str "[") then some none
  else
    let value ← asString (valueAt requestMap (str "value"))
    some (some (path, value))

/-- What a moment reads and writes is what the backend does. -/
def Backend.moment (b : Backend) (m : Moment) : Moment :=
  { m with
    rfcTime := b.rfcTime.text
    vehicleData := getVehicleData b
    setVehicleData := fun path value => (setVehicleData b path value).map Prod.snd }

section DataPoints

variable {name₁ name₂ k v t : GoString} {members : List (GoString × Json)}

/-- One member of an object that is decoded into two string fields. -/
def fieldStep (name₁ name₂ : GoString) (fields : GoString × GoString) (p : GoString × Json) :
    Option (GoString × GoString) :=
  if fieldNamed name₁ p.1 then (Go.decodeString fields.1 p.2).map fun t => (t, fields.2)
  else if fieldNamed name₂ p.1 then (Go.decodeString fields.2 p.2).map fun t => (fields.1, t)
  else some fields

/-- Where the fields come from: members of the object, or what was in them before. -/
theorem fieldStep_sources {fields : GoString × GoString}
    (h : members.foldlM (fieldStep name₁ name₂) fields = some (v, t)) :
    (v = fields.1 ∨ ∃ p ∈ members, fieldNamed name₁ p.1 = true ∧ p.2 = .str v) ∧
      (t = fields.2 ∨ ∃ p ∈ members, fieldNamed name₁ p.1 = false ∧ p.2 = .str t) := by
  have hdecode : ∀ {field t : GoString} {j : Json}, Go.decodeString field j = some t →
      t = field ∨ j = .str t := by
    intro field t j hj
    cases j with
    | null => exact .inl (Option.some.inj hj).symm
    | str s => exact .inr (congrArg Json.str (Option.some.inj hj))
    | _ => simp [Go.decodeString] at hj
  induction members generalizing fields with
  | nil =>
    obtain rfl := Option.some.inj h
    exact ⟨.inl rfl, .inl rfl⟩
  | cons p members ih =>
    rw [List.foldlM_cons, Option.bind_eq_bind, Option.bind_eq_some_iff] at h
    obtain ⟨fields', hstep, hrest⟩ := h
    obtain ⟨hv, ht⟩ := ih hrest
    have hlater : ∀ {b : Bool} {w : GoString},
        (∃ p ∈ members, fieldNamed name₁ p.1 = b ∧ p.2 = .str w) →
        ∃ q ∈ p :: members, fieldNamed name₁ q.1 = b ∧ q.2 = .str w := by
      intro b w hmem
      obtain ⟨q, hq, hname, hvalue⟩ := hmem
      exact ⟨q, List.mem_cons_of_mem p hq, hname, hvalue⟩
    have hfirst := List.mem_cons_self (a := p) (l := members)
    unfold fieldStep at hstep
    by_cases hname₁ : fieldNamed name₁ p.1 = true
    · rw [if_pos hname₁, Option.map_eq_some_iff] at hstep
      obtain ⟨w, hw, rfl⟩ := hstep
      refine ⟨?_, ht.imp_right hlater⟩
      rcases hv with rfl | hv
      · exact (hdecode hw).imp_right fun hp => ⟨p, hfirst, hname₁, hp⟩
      · exact .inr (hlater hv)
    · rw [if_neg hname₁] at hstep
      rw [Bool.not_eq_true] at hname₁
      split at hstep
      · obtain ⟨w, hw, rfl⟩ := Option.map_eq_some_iff.mp hstep
        refine ⟨hv.imp_right hlater, ?_⟩
        rcases ht with rfl | ht
        · exact (hdecode hw).imp_right fun hp => ⟨p, hfirst, hname₁, hp⟩
        · exact .inr (hlater ht)
      · obtain rfl := Option.some.inj hstep
        exact ⟨hv.imp_right hlater, ht.imp_right hlater⟩

/-- Two members with different names are both taken from the text. -/
theorem memberCost_two {p q : GoString × Json} (hp : p ∈ members) (hq : q ∈ members)
    (hne : p ≠ q) : memberCost p + memberCost q ≤ membersCost members := by
  have hle : ∀ {p : GoString × Json} {members : List (GoString × Json)}, p ∈ members →
      memberCost p ≤ membersCost members := by
    intro p members hp
    rw [membersCost_eq_sum]
    exact List.le_sum_of_mem (List.mem_map_of_mem hp)
  induction members with
  | nil => simp at hp
  | cons r members ih =>
    rw [membersCost_cons]
    rcases List.mem_cons.mp hp with rfl | hp'
    · have hcost := hle ((List.mem_cons.mp hq).resolve_left (Ne.symm hne))
      omega
    · rcases List.mem_cons.mp hq with rfl | hq'
      · have hcost := hle hp'
        omega
      · have hrest := ih hp' hq'
        omega

/-- The value of a data point with a member for the value and one for its time. -/
def pointOf (k v t : GoString) : Json := .obj [(k, .str v), (str "ts", .str t)]

theorem dataPointText_eq (value ts : GoString) :
    dataPointText value ts = rawText (str " ") (pointOf (str "value") value ts) := by
  have hopen : str "\x7b\"value\":\"" = 123 :: 34 :: (str "value" ++ [34, 58, 34]) := rfl
  have hts : str "\", \"ts\":\"" = 34 :: 44 :: (str " " ++ 34 :: (str "ts" ++ [34, 58, 34])) := rfl
  have hend : str "\"\x7d" = [34, 125] := rfl
  rw [dataPointText, hopen, hts, hend]
  simp [pointOf, rawText, rawMembers]

theorem pointOf_textual (hk : IsLiteral k) (hne : k ≠ str "ts") :
    Textual 1 (pointOf k v t) ∧ (Literal 1 (pointOf k v t) ↔ IsLiteral v ∧ IsLiteral t) := by
  have hts : IsLiteral (str "ts") := isLiteral_of_all (by decide)
  simp only [pointOf, Textual, Literal, List.forall_mem_cons, List.map_cons, List.map_nil]
  refine ⟨⟨by simp [hne], ⟨hk, .inr trivial⟩, ⟨hts, .inr trivial⟩, by simp⟩, by simp⟩

/-- The text of a data point begins with the member for the value, and has no marks left for
other members than the one for the time. -/
theorem pointOf_members (hk : IsLiteral k) (hne : k ≠ str "ts") (ht : IsLiteral t)
    (h : parseText (rawText (str " ") (pointOf k v t)) = some (.obj members)) :
    ∃ w members', members = (k, .str w) :: members' ∧
      marks w + membersCost members' ≤ 4 + marks v ∧
      (w = v → 4 ≤ membersCost members' → IsLiteral v) := by
  have hcharges := parseValue_charges 9999
  rw [parseText_eq (pointOf_textual hk hne).1, Option.bind_eq_some_iff] at h
  obtain ⟨⟨v', r⟩, hread, h⟩ := h
  obtain rfl : v' = .obj members := by
    dsimp only at h
    split at h
    · exact Option.some.inj h
    · simp at h
  rw [← List.append_nil (rawText (str " ") (pointOf k v t)), pointOf, rawText_obj,
    show maxNestingDepth = 9999 + 1 from rfl, parseValue_brace, Option.map_eq_some_iff] at hread
  obtain ⟨⟨members', r'⟩, hread, heq⟩ := hread
  obtain ⟨hmembers, rfl⟩ := Prod.mk.inj heq
  obtain rfl := Json.obj.inj hmembers
  rw [readObject, rawMembers_open (List.cons_ne_nil _ _), rawMembers_first,
    if_neg (List.cons_ne_nil _ _)] at hread
  dsimp only at hread
  obtain ⟨v', members', m, s, rfl, hfirst, hnext⟩ := readMembers_inversion hk hread
  have htextual : Textual 0 (.str v) := trivial
  rw [skipSpace_rawText htextual] at hfirst
  generalize hrest : 44 :: (str " " ++
    (rawMembers (str " ") [(str "ts", Json.str t)] ++ [125])) = rest at hfirst
  obtain ⟨n, -, hstring⟩ := parseValue_rawString (str " ") 9999 v rest
  rw [hstring, Option.map_eq_some_iff] at hfirst
  obtain ⟨⟨w, s'⟩, hfirst, heq⟩ := hfirst
  obtain ⟨rfl, rfl⟩ := Prod.mk.inj heq
  dsimp only at hnext
  have hmarks : marks rest = 4 := by
    have hts : marks (str "ts") = 0 := by decide
    have hplain : ∀ c s, c ≠ 34 → c ≠ 92 → marks (c :: s) = marks s :=
      fun c s hquote hslash => marks_cons_of_ne hquote hslash s
    have hnil : marks [] = 0 := rfl
    rw [← hrest, hplain 44 _ (by decide) (by decide), marks_append, marks_gap space_gap, marks_append,
      marks_rawMembers space_gap (by simpa using marks_rawText space_gap (show Textual 0 (.str t) from trivial)),
      hplain 125 _ (by decide) (by decide), hnil, membersCost, membersCost, cost, hts,
      ht.marks_eq_zero]
  have hspent := readString_marks hfirst
  rw [marks_append, marks_quote, hmarks] at hspent
  have hlater : membersCost members' ≤ marks s' := by
    rcases hnext with ⟨rfl, -⟩ | ⟨s₂, -, hcomma, hnext⟩
    · exact Nat.zero_le _
    · have hle := readMembers_charges hcharges hnext
      have hcomma := marks_expect hcomma
      omega
  refine ⟨w, members', rfl, by omega, fun hw hcost => ?_⟩
  subst hw
  exact (readString_kept hfirst (by omega)).1

/-- What unpackDataPoint reads from a text that is an object. -/
theorem unpackDataPoint_eq {dp : GoString} (ht : t ≠ []) (h : unpackDataPoint dp = (v, t)) :
    ∃ members, parseText dp = some (.obj members) ∧
      members.foldlM (fieldStep (str "value") (str "ts")) ([], []) = some (v, t) := by
  unfold unpackDataPoint at h
  cases hdecode : (parseText dp).bind (decodeFields (str "value") (str "ts")) with
  | none =>
    rw [hdecode] at h
    exact absurd (Prod.mk.inj h).2.symm ht
  | some fields =>
    rw [hdecode, Option.getD_some] at h
    subst h
    obtain ⟨j, hparse, hj⟩ := Option.bind_eq_some_iff.mp hdecode
    cases j with
    | obj members => exact ⟨members, hparse, hj⟩
    | null => exact absurd (Prod.mk.inj (Option.some.inj hj)).2.symm ht
    | _ => simp [decodeFields, decodeStruct] at hj

/-- Two members for the value and one for the time do not fit into the text. -/
theorem no_later_value {w : GoString} (ht : t ≠ [])
    (hmarks : marks w + membersCost members ≤ 4 + marks v)
    (hvalue : ∃ p ∈ members, fieldNamed (str "value") p.1 = true ∧ p.2 = .str v)
    (htime : t = [] ∨ ∃ p ∈ members, fieldNamed (str "value") p.1 = false ∧ p.2 = .str t) :
    False := by
  obtain ⟨p, hp, hpname, hpvalue⟩ := hvalue
  obtain ⟨q, hq, hqname, hqvalue⟩ := htime.resolve_left ht
  have hcost := memberCost_two hp hq (by
    rintro rfl
    rw [hpname] at hqname
    simp at hqname)
  rw [memberCost, memberCost, hpvalue, hqvalue, cost, cost] at hcost
  omega

theorem unpackDataPoint_value_iff (ht : IsLiteral t) (hne : t ≠ []) :
    unpackDataPoint (rawText (str " ") (pointOf (str "value") v t)) = (v, t) ↔ IsLiteral v := by
  have hk : IsLiteral (str "value") := isLiteral_of_all (by decide)
  have hts : str "value" ≠ str "ts" := by decide
  constructor
  · intro h
    obtain ⟨members, hparse, hfields⟩ := unpackDataPoint_eq hne h
    obtain ⟨w, members', rfl, hmarks, hliteral⟩ := pointOf_members hk hts ht hparse
    have hstep : fieldStep (str "value") (str "ts") ([], []) (str "value", .str w) =
        some (w, []) := rfl
    rw [List.foldlM_cons, hstep, Option.bind_eq_bind, Option.bind_some] at hfields
    obtain ⟨hv, htime⟩ := fieldStep_sources hfields
    rcases hv with rfl | hv
    · obtain ⟨q, hq, -, hqvalue⟩ := htime.resolve_left hne
      refine hliteral rfl ?_
      have hcost : memberCost q ≤ membersCost members' := by
        rw [membersCost_eq_sum]
        exact List.le_sum_of_mem (List.mem_map_of_mem hq)
      rw [memberCost, hqvalue, cost] at hcost
      omega
    · exact (no_later_value hne hmarks hv htime).elim
  · intro h
    obtain ⟨htextual, hliteral⟩ := pointOf_textual (v := v) (t := t) hk hts
    obtain ⟨hmono, hiff⟩ := htextual.mono (show 1 ≤ maxNestingDepth by unfold maxNestingDepth; omega)
    rw [unpackDataPoint, parseText_literal space_gap hmono (hiff.mpr (hliteral.mpr ⟨h, ht⟩))]
    rfl

/-- A member with the name val is not decoded. -/
theorem unpackDataPoint_val_iff (ht : IsLiteral t) (hne : t ≠ []) :
    unpackDataPoint (rawText (str " ") (pointOf (str "val") v t)) = (v, t) ↔ v = [] := by
  have hk : IsLiteral (str "val") := isLiteral_of_all (by decide)
  have hts : str "val" ≠ str "ts" := by decide
  constructor
  · intro h
    obtain ⟨members, hparse, hfields⟩ := unpackDataPoint_eq hne h
    obtain ⟨w, members', rfl, hmarks, -⟩ := pointOf_members hk hts ht hparse
    have hstep : fieldStep (str "value") (str "ts") ([], []) (str "val", .str w) =
        some ([], []) := rfl
    rw [List.foldlM_cons, hstep, Option.bind_eq_bind, Option.bind_some] at hfields
    obtain ⟨hv, htime⟩ := fieldStep_sources hfields
    exact hv.resolve_right fun hv => no_later_value hne hmarks hv htime
  · rintro rfl
    obtain ⟨htextual, hliteral⟩ := pointOf_textual (v := []) (t := t) hk hts
    obtain ⟨hmono, hiff⟩ := htextual.mono (show 1 ≤ maxNestingDepth by unfold maxNestingDepth; omega)
    rw [unpackDataPoint,
      parseText_literal space_gap hmono (hiff.mpr (hliteral.mpr ⟨isLiteral_nil, ht⟩))]
    rfl

end DataPoints

/-! ## The round trip -/

section RoundTrip

variable {b : Backend} {path val : GoString} {ts : RfcTime}

/-- The storage after the feeder has written a data point. -/
def Backend.fed (b : Backend) (path val : GoString) (ts : RfcTime) : Backend :=
  { b with storage := (statestorageSet b.stateDbType b.storage path val ts.text).1 }

/-- A storage that both sides use and that returns for the path what was last written. -/
structure Backend.Holds (b : Backend) (path : GoString) : Prop where
  shared : b.stateDbType = .sqlite ∨ b.stateDbType = .redis
  reachable : b.storage.reachable = true
  row : b.stateDbType = .sqlite → (b.storage.vssMap path).isSome

/-- What is read for the path after the feeder has written it. -/
theorem getVehicleData_fed (h : b.Holds path) :
    getVehicleData (b.fed path val ts) path = rawText (str " ")
      (pointOf (if b.stateDbType = .sqlite then str "value" else str "val") val ts.text) := by
  have hreachable := h.reachable
  rcases h.shared with hdb | hdb
  · obtain ⟨row, hrow⟩ := Option.isSome_iff_exists.mp (h.row hdb)
    rw [if_pos hdb, ← dataPointText_eq]
    simp [getVehicleData, Backend.fed, statestorageSet, hdb, hreachable, hrow,
      StateStorage.updateRow]
  · rw [if_neg (by rw [hdb]; decide)]
    have hval : str "\x7b\"val\":\"" = 123 :: 34 :: (str "val" ++ [34, 58, 34]) := rfl
    have hts : str "\", \"ts\":\"" = 34 :: 44 :: (str " " ++ 34 :: (str "ts" ++ [34, 58, 34])) :=
      rfl
    have hend : str "\"\x7d" = [34, 125] := rfl
    simp [getVehicleData, Backend.fed, statestorageSet, hdb, hreachable, hval, hts, hend, pointOf,
      rawText, rawMembers]

/-- The service manager reads the value and the time that the feeder has written if and only
if the value is a literal in a sqlite database, or empty in a redis one. -/
theorem feeder_datapoint_read_back (b : Backend) (path val : GoString) (ts : RfcTime)
    (h : b.Holds path) :
    unpackDataPoint (getVehicleData (b.fed path val ts) path) = (val, ts.text) ↔
      (b.stateDbType = .sqlite ∧ IsLiteral val) ∨ (b.stateDbType = .redis ∧ val = []) := by
  rw [getVehicleData_fed h]
  rcases h.shared with hdb | hdb
  · rw [if_pos hdb, unpackDataPoint_value_iff ts.isLiteral ts.ne_nil, hdb]
    simp
  · rw [if_neg (by rw [hdb]; decide), unpackDataPoint_val_iff ts.isLiteral ts.ne_nil, hdb]
    simp

/-- A redis database that is empty. -/
def emptyRedis : Backend where
  stateDbType := .redis
  storage := ⟨true, fun _ => none, fun _ => none, fun _ => none⟩
  rfcTime := ⟨str "2024-05-01T08:00:00Z", by decide, by decide⟩
  dummyValue := 0
  udsConn _ := true
  udsWrite := true

theorem emptyRedis_holds (path : GoString) : emptyRedis.Holds path where
  shared := .inr rfl
  reachable := rfl
  row h := by cases h

/-- A sqlite database with an empty row for each path. -/
def emptyRows : Backend :=
  { emptyRedis with
    stateDbType := .sqlite
    storage := ⟨true, fun _ => some ⟨none, none, none, none⟩, fun _ => none, fun _ => none⟩ }

theorem emptyRows_holds (path : GoString) : emptyRows.Holds path where
  shared := .inl rfl
  reachable := rfl
  row _ := rfl

theorem speed_read_back :
    unpackDataPoint (getVehicleData
        (emptyRows.fed (str "Vehicle.Speed") (str "50") emptyRows.rfcTime) (str "Vehicle.Speed")) =
      (str "50", emptyRows.rfcTime.text) :=
  (feeder_datapoint_read_back emptyRows (str "Vehicle.Speed") (str "50") emptyRows.rfcTime
    (emptyRows_holds _)).mpr (.inl ⟨rfl, isLiteral_of_all (by decide)⟩)

/-- The value 50 that the feeder writes into a redis database is read as an empty one. -/
theorem redis_value_lost : ¬ ∀ (b : Backend) (path val : GoString) (ts : RfcTime), b.Holds path →
    unpackDataPoint (getVehicleData (b.fed path val ts) path) = (val, ts.text) := by
  intro hall
  have hread := hall emptyRedis (str "Vehicle.Speed") (str "50") emptyRedis.rfcTime
    (emptyRedis_holds _)
  have hlost : unpackDataPoint (getVehicleData
      (emptyRedis.fed (str "Vehicle.Speed") (str "50") emptyRedis.rfcTime)
      (str "Vehicle.Speed")) = ([], emptyRedis.rfcTime.text) := by decide +kernel
  rw [hlost] at hread
  exact absurd (Prod.mk.inj hread).1 (by decide)

end RoundTrip

end VissServer.ServiceMgr

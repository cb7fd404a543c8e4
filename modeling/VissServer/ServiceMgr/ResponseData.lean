import VissServer.Go.JsonMaps
import VissServer.Go.JsonObjects
import VissServer.Go.JsonSlots
import VissServer.Go.Slices
import VissServer.ServiceMgr.Loop
import VissServer.ServiceMgr.VehicleData

/-!
The assembly of a response: FinalizeMessage prints the map with json.Marshal, the data pack is
put together by hand from what the storage holds, and addPackage puts it behind the last member
of the map.
-/
namespace VissServer.ServiceMgr

open Go Utils Feeder

/-- The storage holds a value with its time for a path: a redis database holds the text that is
read from it, and a counter stands in for no storage. -/
def Backend.Stores (b : Backend) (path value ts : GoString) : Prop :=
  match b.stateDbType with
  | .sqlite => b.storage.reachable = true ∧ ∃ row, b.storage.vssMap path = some row ∧
      row.cValue = some value ∧ row.cTs = some ts
  | .redis => b.storage.reachable = true ∧
      b.storage.redis path = some (dataPointText value ts)
  | .apacheIotdb => b.storage.reachable = true ∧
      b.storage.iotdb (str "`" ++ path ++ str "`") = some (value, ts)
  | .none => value = itoa b.dummyValue ∧ ts = b.rfcTime.text

/-- The entry for a path in the member data. -/
def dataEntry (stored : GoString → GoString × GoString) (path : GoString) : Json :=
  .obj [(str "path", .str path),
    (str "dp", pointOf (str "value") (stored path).1 (stored path).2)]

/-- The member data: the entry for a single path, or the list of the entries. -/
def dataValue (stored : GoString → GoString × GoString) (paths : List GoString) : Json :=
  listValue (paths.map (dataEntry stored))

def responseText (cfg : Config) (m : Moment) (responseMap : GoMap Json)
    (paths : List GoString) : MayPanic GoString := do
  let dataPack ← getDataPack cfg m paths []
  addPackage (finalizeMessage responseMap) (str "data") dataPack

/-- The text of a response is decoded into a map with the member data and the other members of
the map that it is made of. FinalizeMessage deletes the member origin from this map. -/
def Assembled (cfg : Config) (m : Moment) (responseMap : GoMap Json) (paths : List GoString)
    (stored : GoString → GoString × GoString) : Prop :=
  ∃ text decoded, responseText cfg m responseMap paths = some text ∧
    unmarshalMap text = some decoded ∧
    decoded.get (str "data") = some (canon (dataValue stored paths)) ∧
    ∀ k ≠ str "data", decoded.get k = (responseMap.delete (str "origin")).get k

section Packs

variable {b : Backend} {cfg : Config} {m : Moment} {paths : List GoString}
variable {stored : GoString → GoString × GoString}

theorem getVehicleData_stored {path value ts : GoString} (h : b.Stores path value ts) :
    getVehicleData b path = dataPointText value ts := by
  unfold Backend.Stores at h
  unfold getVehicleData
  cases hdb : b.stateDbType with
  | sqlite =>
    simp only [hdb] at h
    obtain ⟨hreachable, row, hrow, hvalue, hts⟩ := h
    simp [hreachable, hrow, hvalue, hts]
  | redis =>
    simp only [hdb] at h
    simp [h.1, h.2]
  | apacheIotdb =>
    simp only [hdb] at h
    simp only [h.1, h.2, if_true]
  | none =>
    simp only [hdb] at h
    simp [h.1, h.2]

theorem dataEntry_text (path : GoString) :
    str "\x7b\"path\":\"" ++ path ++ str "\", \"dp\":" ++
        dataPointText (stored path).1 (stored path).2 ++ str "\x7d, " =
      rawText [32] (dataEntry stored path) ++ [44, 32] := by
  rw [dataPointText_eq]
  simp only [List.append_assoc]
  simp [dataEntry, rawText, rawMembers]
  rfl

theorem dataPoints_stored
    (h : ∀ path ∈ paths, b.Stores path (stored path).1 (stored path).2) :
    dataPoints (b.moment m) .vehicle paths = some (some
      ((paths.map (dataEntry stored)).flatMap fun j => rawText [32] j ++ [44, 32])) := by
  induction paths with
  | nil => rfl
  | cons path paths ih =>
    obtain ⟨hpath, hpaths⟩ := List.forall_mem_cons.mp h
    have hpoint : dataPoint (b.moment m) .vehicle path =
        some (dataPointText (stored path).1 (stored path).2) :=
      congrArg some (getVehicleData_stored hpath)
    rw [dataPoints, hpoint, ih hpaths, List.map_cons, List.flatMap_cons, ← dataEntry_text]
    simp

theorem getDataPack_stored (hne : paths ≠ [])
    (h : ∀ path ∈ paths, b.Stores path (stored path).1 (stored path).2) :
    getDataPack cfg (b.moment m) paths [] = some (rawText [32] (dataValue stored paths)) := by
  have hentries : paths.map (dataEntry stored) ≠ [] := by simpa using hne
  have hpoints := dataPoints_stored (m := m) h
  rw [rawItems_trailing [32] hentries] at hpoints
  unfold getDataPack
  rw [show dataSource [] = .vehicle from rfl]
  dsimp only
  rw [hpoints, Option.bind_eq_bind, Option.bind_some]
  match paths with
  | [] => exact absurd rfl hne
  | [path] =>
    have hcut := slice_trailing (rawItems [32] ([path].map (dataEntry stored))) rfl
    simp only [List.length_singleton, Nat.lt_irrefl, if_false, gt_iff_lt, hcut,
      Option.bind_eq_bind, Option.bind_some]
    rfl
  | path :: path' :: paths =>
    have hcut := slice_trailing
      (91 :: rawItems [32] ((path :: path' :: paths).map (dataEntry stored))) rfl
    have hlength : 1 < (path :: path' :: paths).length := by simp
    simp only [gt_iff_lt, if_pos hlength]
    rw [show str "[" = [91] from rfl, List.singleton_append, ← List.cons_append, hcut]
    rfl

/-- The text of a response with at least one path. -/
theorem responseText_stored {responseMap : GoMap Json} (hne : paths ≠ [])
    (h : ∀ path ∈ paths, b.Stores path (stored path).1 (stored path).2) :
    responseText cfg (b.moment m) responseMap paths = some (123 ::
      (marshalMembers (responseMap.delete (str "origin")) ++ 44 :: 32 ::
        (rawMembers [32] [(str "data", dataValue stored paths)] ++ [125]))) := by
  have hcut := slice_init (123 :: marshalMembers (responseMap.delete (str "origin"))) 125
  rw [responseText, getDataPack_stored hne h, Option.bind_eq_bind, Option.bind_some, addPackage,
    finalizeMessage, marshal, ← List.cons_append, hcut, Option.bind_eq_bind, Option.bind_some]
  simp only [List.append_assoc]
  rfl

end Packs

section Entries

variable {stored : GoString → GoString × GoString} {paths : List GoString} {depth : ℕ}

theorem dataEntry_textual (path : GoString) :
    Textual 2 (dataEntry stored path) ∧ (Literal 2 (dataEntry stored path) ↔
      IsLiteral path ∧ IsLiteral (stored path).1 ∧ IsLiteral (stored path).2) := by
  have hpath : IsLiteral (str "path") := isLiteral_of_all (by decide)
  have hdp : IsLiteral (str "dp") := isLiteral_of_all (by decide)
  have hpoint := @pointOf_textual (str "value") (stored path).1 (stored path).2
    (isLiteral_of_all (by decide)) (by decide)
  simp only [dataEntry, Textual, Literal, List.forall_mem_cons, List.map_cons, List.map_nil]
  refine ⟨⟨by decide, ⟨hpath, .inr trivial⟩, ⟨hdp, .inr hpoint.1⟩, by simp⟩, ?_⟩
  rw [hpoint.2]
  simp

theorem dataValue_textual : Textual (depth + 3) (dataValue stored paths) := by
  refine textual_listValue fun j hj => ?_
  obtain ⟨path, -, rfl⟩ := List.mem_map.mp hj
  exact ((dataEntry_textual path).1.mono (Nat.le_add_left 2 depth)).1

theorem dataValue_literal_iff : Literal (depth + 3) (dataValue stored paths) ↔
    ∀ path ∈ paths, IsLiteral path ∧ IsLiteral (stored path).1 ∧ IsLiteral (stored path).2 := by
  have hentry : ∀ {depth}, 2 ≤ depth → ∀ path, Literal depth (dataEntry stored path) ↔
      IsLiteral path ∧ IsLiteral (stored path).1 ∧ IsLiteral (stored path).2 := fun hle path =>
    ((dataEntry_textual path).1.mono hle).2.trans (dataEntry_textual path).2
  match paths with
  | [] => simp [dataValue, listValue, Literal]
  | [path] =>
    rw [List.forall_mem_singleton]
    exact hentry (by omega) path
  | path :: path' :: paths =>
    change (∀ j ∈ (path :: path' :: paths).map (dataEntry stored), Literal (depth + 2) j) ↔ _
    rw [List.forall_mem_map]
    exact forall₂_congr fun path _ => hentry (by omega) path

end Entries

section Reading

variable {members found : List (GoString × Json)} {depth n : ℕ} {v : Json} {r : GoString}

/-- How printed members with one further member behind them are read. -/
theorem parseText_package (hdepth : maxNestingDepth = depth + 1) (hne : members ≠ [])
    (h : ∀ p ∈ members, Printable depth p.2) (v : Json) :
    ∃ n, parseText (123 :: (marshalMembers members ++ 44 :: 32 ::
        (rawMembers [32] [(str "data", v)] ++ [125]))) =
      (readMembers (parseValue depth) (n + 1) (rawMembers [32] [(str "data", v)] ++ [125])).bind
        fun q => if skipSpace q.2 = [] then some (.obj (sanitizeMembers members ++ q.1))
          else none := by
  obtain ⟨t, ht⟩ : ∃ t, marshalMembers members ++ 44 :: 32 ::
      (rawMembers [32] [(str "data", v)] ++ [125]) = 34 :: t := by
    obtain ⟨p, members, rfl⟩ := List.exists_cons_of_ne_nil hne
    obtain ⟨k, v⟩ := p
    cases members with
    | nil => exact ⟨_, rfl⟩
    | cons q members => exact ⟨_, rfl⟩
  have hlength : members.length + 1 ≤ (34 :: t).length := by
    have hmembers := length_le_marshalMembers members
    rw [← ht, List.length_append, List.length_cons]
    omega
  obtain ⟨n, hn⟩ := Nat.exists_eq_add_of_le hlength
  refine ⟨n, ?_⟩
  have hback : ∀ p ∈ members, ReadsBack depth (parseValue depth) p.2 :=
    fun p hp => ⟨h p hp, fun rest hrest => parseValue_marshal (h p hp) hrest⟩
  have hread := readMembers_marshal_comma hne hback (n + 1)
    (32 :: (rawMembers [32] [(str "data", v)] ++ [125]))
  rw [ht, parseText_open hdepth, hn, Nat.add_assoc, Nat.add_comm 1 n, ← ht, hread,
    readMembers_space]
  cases readMembers (parseValue depth) (n + 1) (rawMembers [32] [(str "data", v)] ++ [125]) with
  | none => rfl
  | some q => rfl

/-- The member data is found in the text. -/
theorem lastMember_found
    (hread : readMembers (parseValue depth) n (rawMembers [32] [(str "data", v)] ++ [125]) =
      some (found, r)) : (lastMember found (str "data")).isSome := by
  have htext : rawMembers [32] [(str "data", v)] ++ [125] =
      34 :: (str "data" ++ 34 :: 58 :: (rawText [32] v ++ [125])) := by simp [rawMembers]
  rw [htext] at hread
  obtain ⟨j, found', -, -, rfl, -⟩ := readMembers_inversion (isLiteral_of_all rfl) hread
  rw [lastMember_cons, if_pos rfl]
  simp

/-- The last member of the text is the member data that was put there if and only if its
strings are literals. -/
theorem readMembers_data (h : Textual depth v)
    (hread : readMembers (parseValue depth) n (rawMembers [32] [(str "data", v)] ++ [125]) =
      some (found, r))
    (hdata : (lastMember found (str "data")).map canon = some (canon v)) :
    found = [(str "data", v)] ∧ Literal depth v := by
  obtain ⟨j, hlast, hcanon⟩ := Option.map_eq_some_iff.mp hdata
  have hkeeps : KeepsRaw [32] depth (parseValue depth) v :=
    ⟨h, fun v' rest r => parseValue_kept isSpace_gap h⟩
  have hfound := readMembers_keepsRaw isSpace_gap (parseValue_charges depth)
    (parseValue_missing depth) (by simp)
    (List.forall_mem_singleton.mpr ⟨isLiteral_of_all rfl, .inr hkeeps⟩) hread
    (List.forall_mem_singleton.mpr ⟨j, hlast, .inr (keeps_of_canon h hcanon)⟩)
    (List.cons_ne_nil _ _) (Nat.zero_le _)
  exact ⟨hfound.1, hfound.2.1 _ List.mem_cons_self⟩

end Reading

/-- The map has a member besides origin, what it holds is read back from what is printed of it
(all strings are valid UTF-8), and the strings that are put between quotes are literals. -/
structure Assemblable (responseMap : GoMap Json) (paths : List GoString)
    (stored : GoString → GoString × GoString) : Prop where
  members : responseMap.delete (str "origin") ≠ []
  names : ∀ p ∈ responseMap.delete (str "origin"), ValidString p.1
  values : ∀ p ∈ responseMap.delete (str "origin"), p.1 ≠ str "data" → canon (sanitize p.2) = p.2
  literals : ∀ path ∈ paths,
    IsLiteral path ∧ IsLiteral (stored path).1 ∧ IsLiteral (stored path).2

section Assembly

variable {members : GoMap Json} {v : Json}

/-- Whether the members of a map are found again in front of the member data. -/
theorem get_package_iff (hsorted : members.Sorted) :
    (∀ k ≠ str "data", (lastMember (sanitizeMembers members ++ [(str "data", v)]) k).map canon =
        members.get k) ↔
      (∀ p ∈ members, ValidString p.1) ∧
        ∀ p ∈ members, p.1 ≠ str "data" → canon (sanitize p.2) = p.2 := by
  have hlast : ∀ k ≠ str "data", lastMember (sanitizeMembers members ++ [(str "data", v)]) k =
      lastMember (sanitizeMembers members) k := by
    intro k hk
    have hnone : lastMember [(str "data", v)] k = none :=
      lastMember_eq_none (by simpa using hk.symm)
    rw [lastMember_append, hnone, Option.none_or]
  constructor
  · intro h
    have hnames : ∀ p ∈ members, ValidString p.1 := by
      intro p hp
      by_cases hdata : p.1 = str "data"
      · rw [hdata]
        exact validString_of_isPlain (List.all_eq_true.mp rfl)
      · have hget := h p.1 hdata
        rw [hlast p.1 hdata, hsorted.get_of_mem hp] at hget
        by_contra hinvalid
        have hnone : lastMember (sanitizeMembers members) p.1 = none := by
          refine lastMember_eq_none fun q hq hname => hinvalid ?_
          rw [sanitizeMembers_eq_map] at hq
          obtain ⟨q', -, rfl⟩ := List.mem_map.mp hq
          rw [← hname]
          exact validString_sanitize q'.1
        rw [hnone] at hget
        cases hget
    refine ⟨hnames, fun p hp hdata => ?_⟩
    have hget := h p.1 hdata
    rw [hlast p.1 hdata, hsorted.lastMember_sanitize hnames, hsorted.get_of_mem hp] at hget
    exact Option.some.inj hget
  · rintro ⟨hnames, hvalues⟩ k hk
    rw [hlast k hk, hsorted.lastMember_sanitize hnames]
    cases hget : members.get k with
    | none => rfl
    | some w =>
      obtain ⟨before, after, hmembers, -⟩ := List.lookup_eq_some_iff.mp hget
      have hmem : (k, w) ∈ members := by
        rw [hmembers]
        simp
      exact congrArg some (hvalues (k, w) hmem hk)

/-- Behind no member the comma of the member data cannot be read. -/
theorem parseText_comma (t : GoString) : parseText (123 :: 44 :: t) = none := by
  obtain ⟨depth, hdepth⟩ : ∃ depth, maxNestingDepth = depth + 1 := ⟨9999, rfl⟩
  rw [parseText, parseFirst, skipSpace_of_head (show isSpace 123 = false from rfl), hdepth,
    parseValue_brace]
  rfl

/-- The member data and the members of a map are decoded from their text if and only if the map
is not empty and is read back, and the strings of the data are literals. -/
theorem unmarshalMap_package_iff {depth : ℕ} (hdepth : maxNestingDepth = depth + 1)
    (hsorted : members.Sorted) (hmembers : ∀ p ∈ members, Printable depth p.2)
    (hv : Textual depth v) :
    (∃ decoded, unmarshalMap (123 :: (marshalMembers members ++ 44 :: 32 ::
        (rawMembers [32] [(str "data", v)] ++ [125]))) = some decoded ∧
      decoded.get (str "data") = some (canon v) ∧
      ∀ k ≠ str "data", decoded.get k = members.get k) ↔
    members ≠ [] ∧ ((∀ p ∈ members, ValidString p.1) ∧
      ∀ p ∈ members, p.1 ≠ str "data" → canon (sanitize p.2) = p.2) ∧ Literal depth v := by
  by_cases hne : members = []
  · subst hne
    refine iff_of_false ?_ fun h => h.1 rfl
    rintro ⟨decoded, hread, -⟩
    rw [unmarshalMap, marshalMembers, List.nil_append, parseText_comma] at hread
    cases hread
  · obtain ⟨n, hparse⟩ := parseText_package hdepth hne hmembers v
    rw [and_iff_right hne, ← get_package_iff (v := v) hsorted]
    unfold unmarshalMap
    rw [hparse]
    constructor
    · rintro ⟨decoded, hread, hdata, hother⟩
      cases hfound : readMembers (parseValue depth) (n + 1)
          (rawMembers [32] [(str "data", v)] ++ [125]) with
      | none =>
        rw [hfound] at hread
        cases hread
      | some q =>
        obtain ⟨found, r⟩ := q
        rw [hfound, Option.bind_some] at hread
        by_cases hend : skipSpace r = []
        · rw [if_pos hend] at hread
          obtain rfl := Option.some.inj hread
          rw [get_canonMembers, lastMember_append] at hdata
          have hlast := lastMember_found hfound
          obtain ⟨j, hj⟩ := Option.isSome_iff_exists.mp hlast
          rw [hj, Option.some_or, ← hj] at hdata
          obtain ⟨rfl, hliteral⟩ := readMembers_data hv hfound hdata
          exact ⟨fun k hk => (get_canonMembers _ k).symm.trans (hother k hk), hliteral⟩
        · rw [if_neg hend] at hread
          cases hread
    · rintro ⟨hother, hliteral⟩
      have hraw : ReadsRaw [32] depth (parseValue depth) v :=
        ⟨hv, parseValue_raw isSpace_gap hv hliteral⟩
      have hread := readMembers_raw isSpace_gap (List.cons_ne_nil (str "data", v) [])
        (List.forall_mem_singleton.mpr ⟨isLiteral_of_all rfl, hraw⟩) (Nat.le_add_left 1 n) []
      refine ⟨GoMap.ofMembers (canonMembers (sanitizeMembers members ++ [(str "data", v)])), ?_,
        ?_, fun k hk => ?_⟩
      · rw [hread]
        rfl
      · rw [get_canonMembers, lastMember_append]
        rfl
      · rw [get_canonMembers]
        exact hother k hk

end Assembly

/-- The text of a response is well formed and tells the stored values with their times and the
members of the map if and only if no string needs an escape and the map is not empty. -/
theorem assembled_iff {b : Backend} {cfg : Config} {m : Moment} {responseMap : GoMap Json}
    {paths : List GoString} {stored : GoString → GoString × GoString}
    (hsorted : responseMap.Sorted)
    (hvalues : ∀ p ∈ responseMap, Printable (maxNestingDepth - 1) p.2) (hne : paths ≠ [])
    (hstored : ∀ path ∈ paths, b.Stores path (stored path).1 (stored path).2) :
    Assembled cfg (b.moment m) responseMap paths stored ↔ Assemblable responseMap paths stored := by
  obtain ⟨depth, hdepth⟩ : ∃ depth, maxNestingDepth = depth + 4 := ⟨9996, rfl⟩
  have hpred : maxNestingDepth - 1 = depth + 3 := by omega
  rw [hpred] at hvalues
  have htext := @responseText_stored b cfg m paths stored responseMap hne hstored
  have hiff := unmarshalMap_package_iff hdepth (hsorted.delete (str "origin"))
    (fun p hp => hvalues p (List.mem_of_mem_filter hp)) (@dataValue_textual stored paths depth)
  rw [dataValue_literal_iff] at hiff
  unfold Assembled
  rw [htext]
  simp only [Option.some.injEq, exists_and_left, exists_eq_left']
  exact hiff.trans ⟨fun h => ⟨h.1, h.2.1.1, h.2.1.2, h.2.2⟩,
    fun h => ⟨h.members, ⟨h.names, h.values⟩, h.literals⟩⟩

/-- A sqlite database with a value for each path. -/
def filledRows (value : GoString) : Backend :=
  { emptyRows with
    storage :=
      { emptyRows.storage with
        vssMap := fun _ => some ⟨some value, some emptyRows.rfcTime.text, none, none⟩ } }

theorem filledRows_stores (value path : GoString) :
    (filledRows value).Stores path value emptyRows.rfcTime.text :=
  ⟨rfl, _, rfl, rfl, rfl⟩

def getResponseMap : GoMap Json :=
  [(str "action", .str (str "get")), (str "requestId", .str (str "268"))]

theorem getResponseMap_sorted : GoMap.Sorted getResponseMap := by
  unfold GoMap.Sorted
  decide

theorem getResponseMap_printable :
    ∀ p ∈ getResponseMap, Printable (maxNestingDepth - 1) p.2 := by
  simp only [getResponseMap, List.forall_mem_cons]
  exact ⟨trivial, trivial, nofun⟩

theorem speed_assembled : Assembled sampleConfig ((filledRows (str "50")).moment sampleMoment)
    getResponseMap [str "Vehicle.Speed"] fun _ => (str "50", emptyRows.rfcTime.text) := by
  have hvalid : ∀ s : GoString, s.all isPlain = true → ValidString s :=
    fun s hs => validString_of_isPlain (List.all_eq_true.mp hs)
  refine (assembled_iff getResponseMap_sorted getResponseMap_printable (List.cons_ne_nil _ _)
    (fun path _ => filledRows_stores _ path)).mpr ⟨by decide, ?_, ?_, ?_⟩
  · intro p hp
    rcases List.mem_pair.mp (List.mem_of_mem_filter hp) with rfl | rfl <;> exact hvalid _ rfl
  · intro p hp _
    rcases List.mem_pair.mp (List.mem_of_mem_filter hp) with rfl | rfl
    · exact congrArg Json.str (hvalid _ rfl).sanitize
    · exact congrArg Json.str (hvalid _ rfl).sanitize
  · rw [List.forall_mem_singleton]
    exact ⟨isLiteral_of_all rfl, isLiteral_of_all rfl, isLiteral_of_all rfl⟩

/-- A stored value with quotes. -/
theorem quoted_not_assembled : ¬ ∀ (b : Backend) (cfg : Config) (m : Moment)
    (responseMap : GoMap Json) (paths : List GoString)
    (stored : GoString → GoString × GoString), responseMap.Sorted →
    (∀ p ∈ responseMap, Printable (maxNestingDepth - 1) p.2) → paths ≠ [] →
    (∀ path ∈ paths, b.Stores path (stored path).1 (stored path).2) →
    Assembled cfg (b.moment m) responseMap paths stored := by
  intro hall
  obtain ⟨text, decoded, htext, hdecoded, -⟩ :=
    hall (filledRows (str "\"high\"")) sampleConfig sampleMoment getResponseMap
      [str "Vehicle.Speed"] (fun _ => (str "\"high\"", emptyRows.rfcTime.text))
      getResponseMap_sorted getResponseMap_printable (List.cons_ne_nil _ _) (fun path _ => filledRows_stores _ path)
  have hnone : (responseText sampleConfig ((filledRows (str "\"high\"")).moment sampleMoment)
      getResponseMap [str "Vehicle.Speed"]).bind unmarshalMap = none := by decide +kernel
  rw [htext, Option.bind_some, hdecoded] at hnone
  cases hnone

end VissServer.ServiceMgr

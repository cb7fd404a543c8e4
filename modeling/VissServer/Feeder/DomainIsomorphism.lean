import VissServer.Feeder.ConvertedValues
import VissServer.Feeder.FeederMap
import VissServer.Feeder.JoinedSignals
import VissServer.Library.Traversals

/-!
Names and values that the feeder converts north to south and back are those that it started
from, where the map of the tool has room for its pairs and no name is in two of them.
-/
namespace VissServer.Feeder

open Go

/-- The values that a pair of signals exchanges, each with the text in which it comes back. -/
inductive Convertible (numbers : ExactNumbers) (scalingDataList : List GoString)
    (north south : ToolConversionData) (conversionIndex : ℕ) : GoString → GoString → Prop
  | boolean {v} (h : IsBoolean north south) (hv : v = str "false" ∨ v = str "true") :
      Convertible numbers scalingDataList north south conversionIndex v v
  | identity (v) (hboolean : ¬ IsBoolean north south) (h : IsIdentity north south) :
      Convertible numbers scalingDataList north south conversionIndex v v
  | enumeration {v ns ss} (hboolean : ¬ IsBoolean north south)
      (hns : unmarshalStrings north.enumValues = some ns)
      (hss : unmarshalStrings south.enumValues = some ss) (h : Enumerations ns ss) (hv : v ∈ ns) :
      Convertible numbers scalingDataList north south conversionIndex v v
  | linear {v item a b A B x}
      (hitem : ItemAt scalingDataList (UInt16.ofNat conversionIndex) item)
      (hparse : parseText item = some (.arr [.num a, .num b]))
      (ha : numbers.parseFloat a = some (.fin A)) (hA : A ≠ 0)
      (hb : numbers.parseFloat b = some (.fin B)) (hx : numbers.parseFloat v = some (.fin x)) :
      Convertible numbers scalingDataList north south conversionIndex v
        (numbers.formatFloat (.fin x))

/-- No name is in two pairs of the mapping. -/
def Unshared (signalMapList : List SignalMapElem) : Prop :=
  signalMapList.Pairwise fun p q =>
    p.north ≠ q.north ∧ p.south ≠ q.south ∧ p.north ≠ q.south ∧ p.south ≠ q.north

/-! ## Values -/

section Values

variable {numbers : ExactNumbers} {list : List GoString} {north south : ToolConversionData}
variable {c : ℕ} {v v' : GoString}

theorem scalingData_offset (k : ℕ) :
    scalingData (booleanMap :: list) (k + 2) = list[k]? := rfl

theorem itemAt_offset {k : ℕ} {text : GoString} (hk : k + 2 ≤ 65535) (h : list[k]? = some text) :
    ItemAt (booleanMap :: list) (UInt16.ofNat (k + 2)) text := by
  have hnat : (UInt16.ofNat (k + 2)).toNat = k + 2 := by
    rw [UInt16.toNat_ofNat', Nat.mod_eq_of_lt (by omega)]
  constructor
  · intro hzero
    rw [hzero] at hnat
    exact absurd hnat (by simp)
  · rw [hnat, scalingData_offset, h]

/-- The item for booleans is that of two enumerations. -/
theorem enumerations_boolean :
    Enumerations [str "false", str "true"] [str "0", str "1"] ∧
      booleanMap = rawText [32]
        (.obj (enumMembers [str "false", str "true"] [str "0", str "1"])) := by
  refine ⟨⟨rfl, by decide, by decide, ?_, ?_⟩, by decide⟩
  · intro n hn
    apply isLiteral_of_all
    revert n
    decide
  · intro s hs
    apply isLiteral_of_all
    revert s
    decide

/-- A convertible value goes south, and comes back from there. -/
theorem Convertible.there_and_back (h : Convertible numbers (booleanMap :: list) north south c v v')
    (hresolved : Resolved list north south c) (hlist : list.length ≤ 65533) :
    ∃ w, ∀ order : MapOrder,
      convertValue numbers order (booleanMap :: list) v (UInt16.ofNat c) 0 0 true = some w ∧
        convertValue numbers order (booleanMap :: list) w (UInt16.ofNat c) 0 0 false =
          some v' := by
  cases h with
  | boolean h hv =>
    obtain ⟨henum, hmap⟩ := enumerations_boolean
    obtain rfl := hresolved.boolean h
    have hitem : ItemAt (booleanMap :: list) (UInt16.ofNat 1) (rawText [32]
        (.obj (enumMembers [str "false", str "true"] [str "0", str "1"]))) := by
      rw [← hmap]
      exact ⟨by decide, rfl⟩
    rcases hv with rfl | rfl
    · exact ⟨str "0", fun order => henum.convert hitem (by decide) 0 0⟩
    · exact ⟨str "1", fun order => henum.convert hitem (by decide) 0 0⟩
  | identity hboolean h =>
    obtain rfl := hresolved.identity hboolean h
    exact ⟨v, fun order => ⟨rfl, rfl⟩⟩
  | @enumeration ns ss hboolean hns hss h hv =>
    obtain ⟨k, text, rfl, htext, hk⟩ := hresolved.enumeration hboolean ns ss hns hss h.length
    have hlt := (List.getElem?_eq_some_iff.mp hk).1
    obtain ⟨j, hj, rfl⟩ := List.getElem_of_mem hv
    have hj' : j < ss.length := by rwa [← h.length]
    have hzip : (ns[j], ss[j]) ∈ ns.zip ss :=
      List.mem_iff_getElem.mpr ⟨j, by simpa using ⟨hj, hj'⟩, by simp⟩
    rw [enumMap_eq (List.ne_nil_of_mem hzip)] at htext
    have hitem := itemAt_offset (by omega) hk
    rw [← Option.some.inj htext] at hitem
    exact ⟨_, fun order => h.convert hitem hzip 0 0⟩
  | linear hitem hparse ha hA hb hx =>
    exact ⟨_, fun order => linear_convert hitem hparse ha hA hb hx 0 0⟩

end Values

/-! ## The map of the tool -/

section Map

variable {nbd sbd : List ToolConversionData} {signalMapList : List SignalMapElem}
variable {tool tool' : ConversionTool} {rows sorted : List ConversionRow}
variable {pairs : List MappedPair} {p q : MappedPair}

theorem getDomainData_name {tbl : List ToolConversionData} {name : GoString}
    (h : (getDomainData tbl name).name ≠ []) : (getDomainData tbl name).name = name := by
  unfold getDomainData at h ⊢
  cases hfind : tbl.find? fun data => data.name = name with
  | none =>
    rw [hfind] at h
    exact absurd rfl h
  | some data => simpa using List.find?_some hfind

/-- A pair is an element of the mapping, at its index, with signals of the two domains. -/
theorem Joined.pair (h : Joined nbd sbd signalMapList.zipIdx tool tool' rows pairs)
    (hp : p ∈ pairs) :
    signalMapList[p.mapIndex]? = some p.signals ∧ (p.north nbd).name = p.signals.north ∧
      (p.south sbd).name = p.signals.south := by
  have hmem : (p.signals, p.mapIndex) ∈
      signalMapList.zipIdx.filter fun x => Complete nbd sbd x.1 := by
    rw [← h.signals]
    exact List.mem_map.mpr ⟨p, hp, rfl⟩
  obtain ⟨hzip, hcomplete⟩ := List.mem_filter.mp hmem
  have hcomplete : Complete nbd sbd p.signals := by simpa using hcomplete
  exact ⟨List.mem_zipIdx_iff_getElem?.mp hzip, getDomainData_name hcomplete.1,
    getDomainData_name hcomplete.2⟩

theorem Joined.exists_pair (h : Joined nbd sbd signalMapList.zipIdx tool tool' rows pairs)
    {k : ℕ} {elem : SignalMapElem} (hk : signalMapList[k]? = some elem)
    (hcomplete : Complete nbd sbd elem) :
    ∃ p ∈ pairs, p.signals = elem ∧ p.mapIndex = k := by
  have hmem : (elem, k) ∈ pairs.map fun p => (p.signals, p.mapIndex) := by
    rw [h.signals]
    exact List.mem_filter.mpr ⟨List.mem_zipIdx_iff_getElem?.mpr hk, by simpa using hcomplete⟩
  obtain ⟨p, hp, heq⟩ := List.mem_map.mp hmem
  obtain ⟨rfl, rfl⟩ := Prod.mk.inj heq
  exact ⟨p, hp, rfl, rfl⟩

theorem Joined.nodup (h : Joined nbd sbd signalMapList.zipIdx tool tool' rows pairs) :
    (pairs.map MappedPair.mapIndex).Nodup := by
  have hsnd : pairs.map MappedPair.mapIndex =
      (signalMapList.zipIdx.filter fun x => Complete nbd sbd x.1).map Prod.snd := by
    rw [← h.signals, List.map_map]
    rfl
  rw [hsnd]
  have hsublist := (List.filter_sublist (p := fun x : SignalMapElem × ℕ => Complete nbd sbd x.1)
    (l := signalMapList.zipIdx)).map Prod.snd
  refine hsublist.nodup ?_
  rw [List.zipIdx_map_snd]
  exact List.nodup_range'

/-- The rows of one index are those of its pair. -/
theorem filter_rows (hnodup : (pairs.map MappedPair.mapIndex).Nodup) (hp : p ∈ pairs) :
    (pairs.flatMap (MappedPair.rows nbd sbd)).filter (fun r => r.mapIndex = p.mapIndex) =
      p.rows nbd sbd := by
  have hother : ∀ ps : List MappedPair, (∀ q ∈ ps, q.mapIndex ≠ p.mapIndex) →
      (ps.flatMap (MappedPair.rows nbd sbd)).filter (fun r => r.mapIndex = p.mapIndex) = [] := by
    intro ps hne
    rw [List.filter_eq_nil_iff]
    intro r hr
    obtain ⟨q, hq, hr⟩ := List.mem_flatMap.mp hr
    have hindex : r.mapIndex = q.mapIndex := by
      rcases List.mem_pair.mp hr with rfl | rfl <;> rfl
    rw [hindex]
    simpa using hne q hq
  induction pairs with
  | nil => exact absurd hp (List.not_mem_nil)
  | cons q pairs ih =>
    rw [List.map_cons, List.nodup_cons] at hnodup
    rw [List.flatMap_cons, List.filter_append]
    rcases List.mem_cons.mp hp with rfl | hp
    · have hrest : ∀ q ∈ pairs, q.mapIndex ≠ p.mapIndex := by
        intro q hq heq
        exact hnodup.1 (heq ▸ List.mem_map_of_mem hq)
      rw [hother pairs hrest, List.append_nil]
      simp [MappedPair.rows, feederData]
    · have hne : q.mapIndex ≠ p.mapIndex := by
        intro heq
        exact hnodup.1 (heq ▸ List.mem_map_of_mem hp)
      rw [ih hnodup.2 hp]
      simp [MappedPair.rows, feederData, hne]

theorem ofNat_inj_of_le {m n : ℕ} (hm : m ≤ 65535) (hn : n ≤ 65535) :
    UInt16.ofNat m = UInt16.ofNat n ↔ m = n := by
  constructor
  · intro h
    have hnat := congrArg UInt16.toNat h
    rw [UInt16.toNat_ofNat', UInt16.toNat_ofNat', Nat.mod_eq_of_lt (by omega),
      Nat.mod_eq_of_lt (by omega)] at hnat
    exact hnat
  · exact congrArg UInt16.ofNat

theorem Joined.row (h : Joined nbd sbd signalMapList.zipIdx tool tool' rows pairs)
    {r : ConversionRow} (hr : r ∈ rows) :
    ∃ p ∈ pairs, r.mapIndex = p.mapIndex ∧ r.conversionIndex = p.conversionIndex ∧
      (r.name = p.signals.north ∨ r.name = p.signals.south) := by
  rw [h.rows] at hr
  obtain ⟨p, hp, hr⟩ := List.mem_flatMap.mp hr
  obtain ⟨-, hnorth, hsouth⟩ := h.pair hp
  rcases List.mem_pair.mp hr with rfl | rfl
  · exact ⟨p, hp, rfl, rfl, .inl hnorth⟩
  · exact ⟨p, hp, rfl, rfl, .inr hsouth⟩

/-- What the query of the rows may give; rows of one name come in any order. -/
structure Queried (rows sorted : List ConversionRow) : Prop where
  perm : sorted.Perm rows
  ordered : sorted.Pairwise fun r r' => r.name ≤ r'.name

theorem length_flatMap_rows (nbd sbd : List ToolConversionData) (pairs : List MappedPair) :
    (pairs.flatMap (MappedPair.rows nbd sbd)).length = 2 * pairs.length := by
  induction pairs with
  | nil => rfl
  | cons p pairs ih =>
    have htwo : (p.rows nbd sbd).length = 2 := rfl
    rw [List.flatMap_cons, List.length_append, htwo, ih, List.length_cons]
    omega

theorem Queried.map_ordered (h : Queried rows sorted) :
    Ordered (sorted.map feederElement) :=
  List.pairwise_map.mpr h.ordered

/-- Two rows add at most one scaling text. -/
theorem Joined.scaling_length (h : Joined nbd sbd signalMapList.zipIdx tool tool' rows pairs)
    (hempty : tool.scaleDataList = []) (hroom : rows.length < 65536) :
    tool'.scaleDataList.length ≤ 65533 := by
  have hlength := h.length
  have hrows : rows.length = 2 * pairs.length := by
    rw [h.rows, length_flatMap_rows]
  rw [hempty, List.length_nil] at hlength
  omega

theorem Joined.mapIndex_le (h : Joined nbd sbd signalMapList.zipIdx tool tool' rows pairs)
    (hlisted : signalMapList.length ≤ 65536) (hp : p ∈ pairs) : p.mapIndex ≤ 65535 := by
  have hlt := (List.getElem?_eq_some_iff.mp (h.pair hp).1).1
  omega

section Built

variable (hjoined : Joined nbd sbd signalMapList.zipIdx tool tool' rows pairs)
variable (hqueried : Queried rows sorted)

include hjoined hqueried

/-- A name of the map tells its pair. -/
theorem Joined.names (hunshared : Unshared signalMapList) (hp : p ∈ pairs) {x : MapElement}
    (hx : x ∈ sorted.map feederElement)
    (hname : x.name = p.signals.north ∨ x.name = p.signals.south) :
    x.mapIndex = UInt16.ofNat p.mapIndex := by
  obtain ⟨r, hr, rfl⟩ := List.mem_map.mp hx
  obtain ⟨q, hq, hmap, -, hrname⟩ := hjoined.row (hqueried.perm.mem_iff.mp hr)
  have hsame : q.mapIndex = p.mapIndex := by
    obtain ⟨hpk, -⟩ := hjoined.pair hp
    obtain ⟨hqk, -⟩ := hjoined.pair hq
    obtain ⟨hplt, hpget⟩ := List.getElem?_eq_some_iff.mp hpk
    obtain ⟨hqlt, hqget⟩ := List.getElem?_eq_some_iff.mp hqk
    change r.name = _ ∨ r.name = _ at hname
    rcases Nat.lt_trichotomy q.mapIndex p.mapIndex with hlt | heq | hgt
    · obtain ⟨h₁, h₂, h₃, h₄⟩ := List.pairwise_iff_getElem.mp hunshared _ _ hqlt hplt hlt
      rw [hpget, hqget] at h₁ h₂ h₃ h₄
      grind
    · exact heq
    · obtain ⟨h₁, h₂, h₃, h₄⟩ := List.pairwise_iff_getElem.mp hunshared _ _ hplt hqlt hgt
      rw [hpget, hqget] at h₁ h₂ h₃ h₄
      grind
  change UInt16.ofNat r.mapIndex = _
  rw [hmap, hsame]

variable (hlisted : signalMapList.length ≤ 65536)

include hlisted

theorem Joined.scanned (hlist : tool'.scaleDataList.length ≤ 65533) :
    sorted.mapM scanRow = some (sorted.map feederElement) := by
  have hscan : ∀ r ∈ sorted, scanRow r = some (feederElement r) := by
    intro r hr
    obtain ⟨p, hp, hmap, hconversion, -⟩ := hjoined.row (hqueried.perm.mem_iff.mp hr)
    have hindex := hjoined.mapIndex_le hlisted hp
    have hbound := (hjoined.resolved p hp).bound
    rw [scanRow, if_pos]
    omega
  exact Traversals.mapM_eq_map hscan

/-- Each pair of the mapping is a pair of the map. -/
theorem Joined.pairAt (hp : p ∈ pairs) :
    ∃ m n, PairAt (sorted.map feederElement) (UInt16.ofNat p.mapIndex) m n
      (feederElement (feederData (p.north nbd) p.mapIndex p.conversionIndex))
      (feederElement (feederData (p.south sbd) p.mapIndex p.conversionIndex)) := by
  apply pairAt_of_filter
  have hcongr : rows.filter (fun r => (feederElement r).mapIndex = UInt16.ofNat p.mapIndex) =
      rows.filter fun r => r.mapIndex = p.mapIndex := by
    apply List.filter_congr
    intro r hr
    obtain ⟨q, hq, hmap, -⟩ := hjoined.row hr
    have hrle : r.mapIndex ≤ 65535 := by
      rw [hmap]
      exact hjoined.mapIndex_le hlisted hq
    exact decide_eq_decide.mpr (ofNat_inj_of_le hrle (hjoined.mapIndex_le hlisted hp))
  have hrows : rows.filter (fun r => r.mapIndex = p.mapIndex) = p.rows nbd sbd := by
    rw [hjoined.rows]
    exact filter_rows hjoined.nodup hp
  rw [List.filter_map]
  have hperm := (hqueried.perm.filter fun r =>
    (feederElement r).mapIndex = UInt16.ofNat p.mapIndex).map feederElement
  rw [hcongr, hrows] at hperm
  exact hperm

theorem Joined.paired : Paired (sorted.map feederElement) := by
  intro x hx
  obtain ⟨r, hr, rfl⟩ := List.mem_map.mp hx
  obtain ⟨p, hp, hmap, -⟩ := hjoined.row (hqueried.perm.mem_iff.mp hr)
  obtain ⟨m, n, hpair⟩ := hjoined.pairAt hqueried hlisted hp
  rw [← hmap] at hpair
  exact ⟨m, n, _, _, hpair⟩

end Built

end Map

/-! ## The round trip -/

section RoundTrip

variable {numbers : ExactNumbers} {nbd sbd : List ToolConversionData}
variable {signalMapList : List SignalMapElem} {unitScaleList : List UnitScaleElem}
variable {tool : ConversionTool} {rows sorted : List ConversionRow}

/-- For a mapping that joins fewer than 32768 of at most 65536 pairs, and has no name in two of
them, each convertible value goes to the signal of the other domain and comes back from it. -/
theorem domainConversion_there_and_back
    (hjoin : populateConversionTable numbers nbd sbd { unitScaleList } signalMapList =
      some (tool, rows))
    (hqueried : Queried rows sorted) (hunshared : Unshared signalMapList)
    (hlisted : signalMapList.length ≤ 65536) (hroom : rows.length < 65536) :
    ∃ feederMap, createFeederArray sorted = some feederMap ∧
      ∀ k elem, signalMapList[k]? = some elem → Complete nbd sbd elem →
        ∀ row ∈ rows, row.mapIndex = k → ∀ v v',
          Convertible numbers (booleanMap :: tool.scaleDataList) (getDomainData nbd elem.north)
              (getDomainData sbd elem.south) row.conversionIndex v v' →
            ∃ w, ∀ order : MapOrder,
              convertDomainData numbers order (booleanMap :: tool.scaleDataList) true
                  ⟨elem.north, v⟩ feederMap = some ⟨elem.south, w⟩ ∧
                convertDomainData numbers order (booleanMap :: tool.scaleDataList) false
                  ⟨elem.south, w⟩ feederMap = some ⟨elem.north, v'⟩ := by
  obtain ⟨pairs, hjoined⟩ := populateRows_joined hjoin
  have hlist := hjoined.scaling_length rfl hroom
  have hscan := hjoined.scanned hqueried hlisted hlist
  refine ⟨reorderMapIndex (sorted.map feederElement), by rw [createFeederArray, hscan]; rfl, ?_⟩
  intro k elem hk hcomplete row hrow hindex v v' hconvertible
  obtain ⟨p, hp, rfl, rfl⟩ := hjoined.exists_pair hk hcomplete
  obtain ⟨q, hq, hmap, hconversion, -⟩ := hjoined.row hrow
  obtain rfl : q = p := List.inj_on_of_nodup_map hjoined.nodup hq hp (hmap.symm.trans hindex)
  rw [hconversion] at hconvertible
  obtain ⟨w, hw⟩ := hconvertible.there_and_back (hjoined.resolved q hq) hlist
  obtain ⟨m, n, hpair⟩ := hjoined.pairAt hqueried hlisted hq
  obtain ⟨-, hnorth, hsouth⟩ := hjoined.pair hq
  have hordered := hqueried.map_ordered
  have hpaired := hjoined.paired hqueried hlisted
  have hlength : (sorted.map feederElement).length ≤ 65535 := by
    rw [List.length_map, hqueried.perm.length_eq]
    omega
  refine ⟨w, fun order => ⟨?_, ?_⟩⟩
  · rw [← hnorth, ← hsouth]
    refine (convertDomainData_pair hordered hpaired hlength ?_ hpair rfl true v).trans ?_
    · intro x hx hname
      exact hjoined.names hqueried hunshared hq hx (.inl (hname.trans hnorth))
    · exact congrArg (Option.map _) (hw order).1
  · rw [← hnorth, ← hsouth]
    refine (convertDomainData_pair hordered hpaired hlength ?_ hpair.symm rfl false w).trans ?_
    · intro x hx hname
      exact hjoined.names hqueried hunshared hq hx (.inr (hname.trans hsouth))
    · exact congrArg (Option.map _) (hw order).2

/-- A speed that the south gives in half the unit, with an offset. -/
def speedNorth : List ToolConversionData :=
  [{ name := str "Vehicle.Speed", datatype := str "float", unit := str "km/h" }]

def speedSouth : List ToolConversionData :=
  [{ name := str "v", datatype := str "float", unit := str "raw" }]

def speedUnits : List UnitScaleElem := [⟨str "km/h", str "raw", str "0.5", str "-1"⟩]

def speedTool : ConversionTool := ⟨[str "[0.5, -1]"], speedUnits⟩

def speedRows : List ConversionRow :=
  [⟨str "Vehicle.Speed", [], str "float", 0, 2⟩, ⟨str "v", [], str "float", 0, 2⟩]

theorem domainConversion_speed_there_and_back :
    ∃ feederMap w, createFeederArray speedRows = some feederMap ∧ ∀ order : MapOrder,
      convertDomainData decimals order [booleanMap, str "[0.5, -1]"] true
          ⟨str "Vehicle.Speed", str "36.5"⟩ feederMap = some ⟨str "v", w⟩ ∧
        convertDomainData decimals order [booleanMap, str "[0.5, -1]"] false ⟨str "v", w⟩
          feederMap = some ⟨str "Vehicle.Speed", str "36.5"⟩ := by
  have hjoin : populateConversionTable decimals speedNorth speedSouth
      { unitScaleList := speedUnits } [⟨str "Vehicle.Speed", str "v"⟩] =
        some (speedTool, speedRows) := by rfl
  have hqueried : Queried speedRows speedRows := ⟨.refl _, by decide⟩
  have hitem : ItemAt [booleanMap, str "[0.5, -1]"] (UInt16.ofNat 2) (str "[0.5, -1]") :=
    ⟨by decide, rfl⟩
  obtain ⟨feederMap, hmap, hconvert⟩ := domainConversion_there_and_back hjoin hqueried
    (List.pairwise_singleton _ _) (by decide) (by decide)
  have htext : decimals.formatFloat (.fin (73 / 2)) = str "36.5" := by decide +kernel
  obtain ⟨w, hw⟩ := hconvert 0 ⟨str "Vehicle.Speed", str "v"⟩ rfl (by decide) _
    (List.mem_cons_self ..) rfl (str "36.5") (str "36.5") (by
      rw [← htext]
      exact .linear (A := 1 / 2) (B := -1) hitem rfl (by decide +kernel) (by norm_num)
        (by decide +kernel) (by decide +kernel))
  exact ⟨feederMap, w, hmap, hw⟩

/-- Each convertible value of a mapping comes back from the south. -/
def ComesBack (numbers : ExactNumbers) (nbd sbd : List ToolConversionData)
    (unitScaleList : List UnitScaleElem) (signalMapList : List SignalMapElem) : Prop :=
  ∀ tool rows sorted,
    populateConversionTable numbers nbd sbd { unitScaleList } signalMapList = some (tool, rows) →
      Queried rows sorted →
        ∃ feederMap, createFeederArray sorted = some feederMap ∧
          ∀ k elem, signalMapList[k]? = some elem → Complete nbd sbd elem →
            ∀ row ∈ rows, row.mapIndex = k → ∀ v v',
              Convertible numbers (booleanMap :: tool.scaleDataList)
                  (getDomainData nbd elem.north) (getDomainData sbd elem.south)
                  row.conversionIndex v v' →
                ∀ order : MapOrder, ∃ south,
                  convertDomainData numbers order (booleanMap :: tool.scaleDataList) true
                      ⟨elem.north, v⟩ feederMap = some south ∧
                    convertDomainData numbers order (booleanMap :: tool.scaleDataList) false
                      south feederMap = some ⟨elem.north, v'⟩

end RoundTrip

/-! ## Names in two pairs -/

section Shared

/-- A signal that is joined without conversion. -/
def plainSignal (name : GoString) : ToolConversionData := { name }

/-- The southbound signal of one pair has the name of the northbound one of another pair. -/
def sharedMapping : List SignalMapElem := [⟨str "B", str "C"⟩, ⟨str "A", str "B"⟩]

def sharedNorth : List ToolConversionData := [plainSignal (str "A"), plainSignal (str "B")]

def sharedSouth : List ToolConversionData := [plainSignal (str "B"), plainSignal (str "C")]

def sharedRows : List ConversionRow :=
  [feederData (plainSignal (str "B")) 0 0, feederData (plainSignal (str "C")) 0 0,
    feederData (plainSignal (str "A")) 1 0, feederData (plainSignal (str "B")) 1 0]

def sharedSorted : List ConversionRow :=
  [feederData (plainSignal (str "A")) 1 0, feederData (plainSignal (str "B")) 0 0,
    feederData (plainSignal (str "B")) 1 0, feederData (plainSignal (str "C")) 0 0]

theorem not_comesBack_shared : ¬ ComesBack decimals sharedNorth sharedSouth [] sharedMapping := by
  intro h
  have hqueried : Queried sharedRows sharedSorted := ⟨by decide, by decide⟩
  obtain ⟨feederMap, hmap, hback⟩ := h { unitScaleList := [] } sharedRows sharedSorted rfl hqueried
  obtain ⟨south, hsouth, hnorth⟩ := hback 1 ⟨str "A", str "B"⟩ rfl (by decide)
    (feederData (plainSignal (str "A")) 1 0) (by decide) rfl [] []
    (.identity [] (by decide) (by decide)) ⟨id, GoMap.perm_id⟩
  have hthere : (createFeederArray sharedSorted).bind (convertDomainData decimals
      ⟨id, GoMap.perm_id⟩ [booleanMap] true ⟨str "A", []⟩) = some ⟨str "B", []⟩ := by decide
  have hagain : (createFeederArray sharedSorted).bind (convertDomainData decimals
      ⟨id, GoMap.perm_id⟩ [booleanMap] false ⟨str "B", []⟩) = some ⟨str "C", []⟩ := by decide
  rw [hmap, Option.bind_some] at hthere hagain
  obtain rfl := Option.some.inj (hsouth.symm.trans hthere)
  have hname := Option.some.inj (hnorth.symm.trans hagain)
  exact absurd hname (by decide)

end Shared

/-! ## More pairs than an uint16 can tell -/

section Long

variable {numbers : ExactNumbers} {nbd sbd : List ToolConversionData} {n k l : ℕ} {c d : UInt8}

theorem getDomainData_of_mem {tbl : List ToolConversionData} {data : ToolConversionData}
    (hnodup : (tbl.map ToolConversionData.name).Nodup) (h : data ∈ tbl) :
    getDomainData tbl data.name = data := by
  unfold getDomainData
  cases hfind : tbl.find? fun data' => data'.name = data.name with
  | none =>
    have hnone := List.find?_eq_none.mp hfind data h
    exact absurd (by simp) hnone
  | some data' =>
    have hname : data'.name = data.name := by simpa using List.find?_some hfind
    exact List.inj_on_of_nodup_map hnodup (List.mem_of_find?_eq_some hfind) h hname

/-- A mapping without conversions gives the rows of its pairs as they are listed. -/
theorem populateRows_plain {tool : ConversionTool} {list : List (SignalMapElem × ℕ)}
    (h : ∀ x ∈ list, Complete nbd sbd x.1 ∧
      ¬ IsBoolean (getDomainData nbd x.1.north) (getDomainData sbd x.1.south) ∧
      IsIdentity (getDomainData nbd x.1.north) (getDomainData sbd x.1.south)) :
    populateRows numbers nbd sbd tool list = some (tool, list.flatMap fun x =>
      [feederData (getDomainData nbd x.1.north) x.2 0,
        feederData (getDomainData sbd x.1.south) x.2 0]) := by
  induction list with
  | nil => rfl
  | cons x list ih =>
    obtain ⟨⟨hcomplete, hboolean, hidentity⟩, hlist⟩ := List.forall_mem_cons.mp h
    have htype : conversionType numbers tool (getDomainData nbd x.1.north)
        (getDomainData sbd x.1.south) = some (tool, 0) :=
      (if_neg hboolean).trans (if_pos hidentity)
    rw [populateRows, populateElement, if_pos hcomplete, createFeederConversionData, htype]
    simp only [Option.map_some, Option.bind_eq_bind, Option.bind_some, ih hlist]
    rfl

/-- A letter and five digits. -/
def longName (c : UInt8) (k : ℕ) : GoString := c :: lastDigits 5 k

theorem longName_inj (hk : k < 32768) (hl : l < 32768) (h : longName c k = longName d l) :
    c = d ∧ k = l := by
  obtain ⟨rfl, hdigits⟩ := List.cons.inj h
  have hval := congrArg digitsVal hdigits
  rw [digitsVal_lastDigits, digitsVal_lastDigits, Nat.mod_eq_of_lt (by omega),
    Nat.mod_eq_of_lt (by omega)] at hval
  exact ⟨rfl, hval⟩

theorem replicate_le {t : GoString} (h : ∀ b ∈ t, d ≤ b) : List.replicate t.length d ≤ t := by
  induction t with
  | nil => exact List.le_refl _
  | cons b t ih =>
    obtain ⟨hb, ht⟩ := List.forall_mem_cons.mp h
    rw [List.length_cons, List.replicate_succ, List.cons_le_cons_iff]
    rcases UInt8.lt_or_eq_of_le hb with hlt | rfl
    · exact .inl hlt
    · exact .inr ⟨rfl, ih ht⟩

/-- The first of the southbound names is the least of all names. -/
theorem longName_least (hc : 97 ≤ c) (k : ℕ) : longName 97 0 ≤ longName c k := by
  have hzeros : lastDigits 5 0 = List.replicate (lastDigits 5 k).length 48 := by
    rw [length_lastDigits]
    rfl
  have hdigits : lastDigits 5 0 ≤ lastDigits 5 k := by
    rw [hzeros]
    apply replicate_le
    intro b hb
    have hdigit := List.all_eq_true.mp (all_isDigit_lastDigits 5 k) b hb
    simp only [isDigit, Bool.and_eq_true, decide_eq_true_eq] at hdigit
    exact hdigit.1
  rw [longName, longName, List.cons_le_cons_iff]
  rcases UInt8.lt_or_eq_of_le hc with hlt | rfl
  · exact .inl hlt
  · exact .inr ⟨rfl, hdigits⟩

def longDomain (n : ℕ) (c : UInt8) : List ToolConversionData :=
  (List.range n).map fun k => plainSignal (longName c k)

def longElem (k : ℕ) : SignalMapElem := ⟨longName 110 k, longName 97 k⟩

/-- A mapping of n pairs. -/
def longMapping (n : ℕ) : List SignalMapElem := (List.range n).map longElem

def longRows (n : ℕ) : List ConversionRow :=
  (longMapping n).zipIdx.flatMap fun x =>
    [feederData (plainSignal x.1.north) x.2 0, feederData (plainSignal x.1.south) x.2 0]

theorem getDomainData_long (hn : n ≤ 32768) (hk : k < n) :
    getDomainData (longDomain n c) (longName c k) = plainSignal (longName c k) := by
  have hnodup : ((longDomain n c).map ToolConversionData.name).Nodup := by
    rw [longDomain, List.map_map]
    apply List.Nodup.map_on _ List.nodup_range
    intro i hi j hj hname
    have hi := List.mem_range.mp hi
    have hj := List.mem_range.mp hj
    exact (longName_inj (by omega) (by omega) hname).2
  have hmem : plainSignal (longName c k) ∈ longDomain n c :=
    List.mem_map.mpr ⟨k, List.mem_range.mpr hk, rfl⟩
  exact getDomainData_of_mem hnodup hmem

/-- The elements of the mapping, with their indices. -/
theorem getElem?_long {elem : SignalMapElem} (h : (longMapping n)[k]? = some elem) :
    k < n ∧ elem = longElem k := by
  rw [longMapping, List.getElem?_map, Option.map_eq_some_iff] at h
  obtain ⟨j, hj, rfl⟩ := h
  obtain ⟨hlt, rfl⟩ := List.getElem?_eq_some_iff.mp hj
  rw [List.getElem_range]
  exact ⟨by simpa using hlt, rfl⟩

theorem mem_zipIdx_long {x : SignalMapElem × ℕ} (hx : x ∈ (longMapping n).zipIdx) :
    x.2 < n ∧ x.1 = longElem x.2 :=
  getElem?_long (List.mem_zipIdx_iff_getElem?.mp hx)

theorem unshared_long (hn : n ≤ 32768) : Unshared (longMapping n) := by
  rw [Unshared, longMapping, List.pairwise_map]
  refine List.pairwise_lt_range.imp_of_mem ?_
  intro i j hi hj hlt
  have hi := List.mem_range.mp hi
  have hj := List.mem_range.mp hj
  have hne : ∀ c d, longName c i ≠ longName d j := by
    intro c d heq
    have hsame := (longName_inj (by omega) (by omega) heq).2
    omega
  exact ⟨hne _ _, hne _ _, hne _ _, hne _ _⟩

theorem populate_long (hn : n ≤ 32768) (tool : ConversionTool) :
    populateConversionTable numbers (longDomain n 110) (longDomain n 97) tool (longMapping n) =
      some (tool, longRows n) := by
  have hplain : ∀ x ∈ (longMapping n).zipIdx,
      getDomainData (longDomain n 110) x.1.north = plainSignal x.1.north ∧
        getDomainData (longDomain n 97) x.1.south = plainSignal x.1.south := by
    intro x hx
    obtain ⟨hlt, helem⟩ := mem_zipIdx_long hx
    rw [helem]
    exact ⟨getDomainData_long hn hlt, getDomainData_long hn hlt⟩
  rw [populateConversionTable, populateRows_plain]
  · refine congrArg (fun rows => some (tool, rows)) (List.flatMap_congr ?_)
    intro x hx
    rw [(hplain x hx).1, (hplain x hx).2]
  · intro x hx
    obtain ⟨hlt, helem⟩ := mem_zipIdx_long hx
    rw [Complete, (hplain x hx).1, (hplain x hx).2, helem]
    have hboolean : ¬ IsBoolean (plainSignal (longElem x.2).north)
        (plainSignal (longElem x.2).south) := by
      intro h
      have hname : ([] : GoString) = str "boolean" := h.2
      exact absurd hname (by decide)
    exact ⟨⟨List.cons_ne_nil _ _, List.cons_ne_nil _ _⟩, hboolean, rfl, rfl⟩

theorem mem_longRows {r : ConversionRow} (hr : r ∈ longRows n) :
    ∃ k < n, ∃ c, 97 ≤ c ∧ r = feederData (plainSignal (longName c k)) k 0 := by
  obtain ⟨x, hx, hr⟩ := List.mem_flatMap.mp hr
  obtain ⟨hlt, helem⟩ := mem_zipIdx_long hx
  rw [helem] at hr
  rcases List.mem_pair.mp hr with rfl | rfl
  · exact ⟨x.2, hlt, 110, by decide, rfl⟩
  · exact ⟨x.2, hlt, 97, by decide, rfl⟩

theorem getElem?_longMapping (hk : k < n) : (longMapping n)[k]? = some (longElem k) := by
  rw [longMapping, List.getElem?_map, List.getElem?_range hk]
  rfl

theorem first_mem_longRows (hn : 0 < n) (hc : c = 110 ∨ c = 97) :
    feederData (plainSignal (longName c 0)) 0 0 ∈ longRows n := by
  refine List.mem_flatMap.mpr ⟨(longElem 0, 0), ?_, ?_⟩
  · exact List.mem_zipIdx_iff_getElem?.mpr (getElem?_longMapping hn)
  · rcases hc with rfl | rfl
    · exact List.mem_pair.mpr (.inl rfl)
    · exact List.mem_pair.mpr (.inr rfl)

theorem length_longRows (n : ℕ) : (longRows n).length = 2 * n := by
  have htwo : ∀ list : List (SignalMapElem × ℕ), (list.flatMap fun x =>
      [feederData (plainSignal x.1.north) x.2 0,
        feederData (plainSignal x.1.south) x.2 0]).length = 2 * list.length := by
    intro list
    induction list with
    | nil => rfl
    | cons x list ih =>
      rw [List.flatMap_cons, List.length_append, ih]
      simp only [List.length_cons, List.length_nil]
      omega
  rw [longRows, htwo, List.length_zipIdx, longMapping, List.length_map, List.length_range]

/-- The rows in the order of their names. -/
theorem exists_queried (rows : List ConversionRow) : ∃ sorted, Queried rows sorted := by
  refine ⟨rows.mergeSort fun r r' => decide (r.name ≤ r'.name), List.mergeSort_perm _ _, ?_⟩
  have hpairwise := @List.pairwise_mergeSort ConversionRow
    (fun r r' => decide (r.name ≤ r'.name)) ?_ ?_ rows
  · simpa using hpairwise
  · intro a b c hab hbc
    simp only [decide_eq_true_eq] at hab hbc ⊢
    exact List.le_trans hab hbc
  · intro a b
    simpa using List.le_total a.name b.name

/-- In a map that kept its indices, all names of the first pair lead to the least name. -/
theorem convertDomainData_unreordered {feederMap : List MapElement} {order : MapOrder}
    {scalingDataList : List GoString} {first e : MapElement} (hordered : Ordered feederMap)
    (hfirst : feederMap[0]? = some first) (he : e ∈ feederMap)
    (hnames : ∀ x ∈ feederMap, x.name = e.name → x.mapIndex = 0 ∧ x.convertIndex = 0)
    (north2SouthConv : Bool) (value : GoString) :
    convertDomainData numbers order scalingDataList north2SouthConv ⟨e.name, value⟩ feederMap =
      some ⟨first.name, value⟩ := by
  obtain ⟨m, f, hmatch, hm, hname⟩ := matchIndex_found hordered he
  obtain ⟨hindex, hconvert⟩ := hnames f (List.mem_of_getElem? hm) hname
  have hvalue : ∀ t t', convertValue numbers order scalingDataList value 0 t t' north2SouthConv =
      some value := fun t t' => rfl
  simp [convertDomainData, hmatch, hm, hindex, hfirst, hconvert, hvalue]

/-- Of 32768 pairs, a northbound name of the first one does not come back. -/
theorem not_comesBack_long (h : n = 32768) (numbers : ExactNumbers) :
    ¬ ComesBack numbers (longDomain n 110) (longDomain n 97) [] (longMapping n) := by
  intro hback
  have hn : n ≤ 32768 := by omega
  have hpopulate : populateConversionTable numbers (longDomain n 110) (longDomain n 97)
      { unitScaleList := [] } (longMapping n) = some ({ unitScaleList := [] }, longRows n) :=
    populate_long hn _
  obtain ⟨sorted, hqueried⟩ := exists_queried (longRows n)
  obtain ⟨pairs, hjoined⟩ := populateRows_joined hpopulate
  have hlisted : (longMapping n).length ≤ 65536 := by
    rw [longMapping, List.length_map, List.length_range]
    omega
  have hscan := hjoined.scanned hqueried hlisted (Nat.zero_le _)
  have hordered := hqueried.map_ordered
  have hlong : 65536 ≤ (sorted.map feederElement).length := by
    rw [List.length_map, hqueried.perm.length_eq, length_longRows]
    omega
  have harray : createFeederArray sorted = some (sorted.map feederElement) := by
    rw [createFeederArray, hscan, Option.map_some,
      reorderMapIndex_too_long (hjoined.paired hqueried hlisted) hlong]
  obtain ⟨first, hfirst⟩ : ∃ first, (sorted.map feederElement)[0]? = some first :=
    ⟨_, List.getElem?_eq_getElem (by omega)⟩
  have hrow : ∀ x ∈ sorted.map feederElement, ∃ k < n, ∃ c, 97 ≤ c ∧
      x = feederElement (feederData (plainSignal (longName c k)) k 0) := by
    intro x hx
    obtain ⟨r, hr, rfl⟩ := List.mem_map.mp hx
    obtain ⟨k, hk, c, hc, rfl⟩ := mem_longRows (hqueried.perm.mem_iff.mp hr)
    exact ⟨k, hk, c, hc, rfl⟩
  have hthere : ∀ c, c = 110 ∨ c = 97 → ∀ north2SouthConv value,
      convertDomainData numbers ⟨id, GoMap.perm_id⟩ [booleanMap] north2SouthConv
        ⟨longName c 0, value⟩ (sorted.map feederElement) = some ⟨first.name, value⟩ := by
    intro c hc north2SouthConv value
    refine convertDomainData_unreordered hordered hfirst (List.mem_map_of_mem
      (hqueried.perm.mem_iff.mpr (first_mem_longRows (by omega) hc))) ?_ north2SouthConv value
    intro x hx hname
    obtain ⟨k, hk, d, -, rfl⟩ := hrow x hx
    obtain ⟨-, rfl⟩ := longName_inj (by omega) (by omega) hname
    exact ⟨rfl, rfl⟩
  have hleast : first.name = longName 97 0 := by
    apply List.le_antisymm
    · obtain ⟨j, hj⟩ := List.getElem?_of_mem (List.mem_map_of_mem (f := feederElement)
        (hqueried.perm.mem_iff.mpr (first_mem_longRows (show 0 < n by omega) (.inr rfl))))
      obtain ⟨hjlt, hj⟩ := List.getElem?_eq_some_iff.mp hj
      obtain ⟨h0lt, rfl⟩ := List.getElem?_eq_some_iff.mp hfirst
      rcases Nat.eq_zero_or_pos j with rfl | hpos
      · rw [hj]
        exact List.le_refl _
      · have hle := List.pairwise_iff_getElem.mp hordered 0 j h0lt hjlt hpos
        rw [hj] at hle
        exact hle
    · obtain ⟨k, -, c, hc, rfl⟩ := hrow first (List.mem_of_getElem? hfirst)
      exact longName_least hc k
  obtain ⟨feederMap, hmap, hback⟩ := hback _ _ sorted hpopulate hqueried
  obtain rfl := Option.some.inj (harray.symm.trans hmap)
  have hnorth := getDomainData_long (c := 110) hn (show 0 < n by omega)
  have hsouth := getDomainData_long (c := 97) hn (show 0 < n by omega)
  have hconvertible : Convertible numbers [booleanMap]
      (getDomainData (longDomain n 110) (longElem 0).north)
      (getDomainData (longDomain n 97) (longElem 0).south) 0 [] [] := by
    refine .identity [] ?_ ?_
    · rw [longElem, hnorth, hsouth]
      intro h
      have hname : ([] : GoString) = str "boolean" := h.2
      exact absurd hname (by decide)
    · rw [longElem, hnorth, hsouth]
      exact ⟨rfl, rfl⟩
  have hcomplete : Complete (longDomain n 110) (longDomain n 97) (longElem 0) := by
    rw [Complete, longElem, hnorth, hsouth]
    exact ⟨List.cons_ne_nil _ _, List.cons_ne_nil _ _⟩
  obtain ⟨south, hgone, hcome⟩ := hback 0 (longElem 0) (getElem?_longMapping (by omega))
    hcomplete _ (first_mem_longRows (by omega) (.inl rfl)) rfl [] [] hconvertible
    ⟨id, GoMap.perm_id⟩
  obtain rfl := Option.some.inj ((hthere 110 (.inl rfl) true []).symm.trans hgone)
  rw [hleast, hthere 97 (.inr rfl) false [], hleast] at hcome
  have hname : longName 97 0 = longName 110 0 :=
    congrArg DomainData.name (Option.some.inj hcome)
  exact absurd hname (by decide)

/-- The round trip fails where a name is in two pairs, and where there are too many pairs. -/
theorem conversion_does_not_come_back :
    ((sharedMapping.map SignalMapElem.north).Nodup ∧ (sharedMapping.map SignalMapElem.south).Nodup ∧
        ¬ ComesBack decimals sharedNorth sharedSouth [] sharedMapping) ∧
      Unshared (longMapping 32768) ∧
        ¬ ComesBack decimals (longDomain 32768 110) (longDomain 32768 97) []
          (longMapping 32768) :=
  ⟨⟨by decide, by decide, not_comesBack_shared⟩, unshared_long (Nat.le_refl _),
    not_comesBack_long rfl decimals⟩

end Long

end VissServer.Feeder

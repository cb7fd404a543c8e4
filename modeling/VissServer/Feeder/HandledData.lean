import VissServer.Feeder.DomainIsomorphism
import VissServer.Library.Traversals

/-!
Which names and values the feeder converts at all. It looks the partner of a signal and the
scaling data of its conversion up by indices that it does not check, and asserts the types of
what the scaling data are decoded to.
-/
namespace VissServer.Feeder

open Go

/-! ## The element of a name -/

section Match

variable {feederMap : List MapElement}

/-- The first element of a name is found; without one there is no index. -/
theorem matchIndex_find (h : Ordered feederMap) (name : GoString) :
    (matchIndex feederMap name).bind (fun k => feederMap[k]?) =
      feederMap.find? fun e => e.name = name := by
  generalize hp : (fun j : ℕ => feederMap[j]?.any fun e => decide (name ≤ e.name)) = p
  have hpj : ∀ j (hj : j < feederMap.length), p j = true ↔ name ≤ feederMap[j].name := by
    intro j hj
    rw [← hp]
    simp [hj]
  have hle : ∀ a b (hab : a ≤ b) (hb : b < feederMap.length),
      feederMap[a].name ≤ feederMap[b].name := by
    intro a b hab hb
    rcases Nat.lt_or_eq_of_le hab with hlt | rfl
    · exact List.pairwise_iff_getElem.mp h a b (by omega) hb hlt
    · exact List.le_refl _
  have hmono : ∀ a b, a ≤ b → b < feederMap.length → p a = true → p b = true := by
    intro a b hab hb ha
    rw [hpj b hb]
    exact List.le_trans ((hpj a (by omega)).mp ha) (hle a b hab hb)
  obtain ⟨-, hbefore, hfrom⟩ := search_splits hmono
  rw [matchIndex, hp]
  generalize search feederMap.length p = i at hbefore hfrom
  have hearlier : ∀ j (hj : j < feederMap.length), j < i → feederMap[j].name ≠ name := by
    intro j hj hji hname
    have hfalse := hbefore j hji
    rw [(hpj j hj).mpr (by rw [hname]; exact List.le_refl _)] at hfalse
    exact absurd hfalse (by decide)
  by_cases hfound : feederMap[i]?.map MapElement.name = some name
  · rw [if_pos hfound, Option.bind_some]
    obtain ⟨e, he, hname⟩ := Option.map_eq_some_iff.mp hfound
    obtain ⟨hi, rfl⟩ := List.getElem?_eq_some_iff.mp he
    rw [he]
    refine (List.find?_eq_some_iff_getElem.mpr ⟨by simpa using hname, i, hi, rfl, ?_⟩).symm
    intro j hj
    simpa using hearlier j (by omega) hj
  · rw [if_neg hfound, Option.bind_none]
    refine (List.find?_eq_none.mpr ?_).symm
    intro e he hname
    obtain ⟨k, hk, rfl⟩ := List.getElem_of_mem he
    have hname : feederMap[k].name = name := by simpa using hname
    have hik : i ≤ k := by
      by_contra hlt
      exact hearlier k hk (by omega) hname
    have hi : i < feederMap.length := by omega
    apply hfound
    rw [List.getElem?_eq_getElem hi, Option.map_some, Option.some.injEq]
    refine List.le_antisymm ?_ ((hpj i hi).mp (hfrom i (Nat.le_refl _) hi))
    rw [← hname]
    exact hle i k hik hk

end Match

/-! ## The partner -/

section Partner

variable {feederMap : List MapElement} {i : UInt16}

theorem correspondingFrom_found {thisIndex j k : ℕ} {rest : List MapElement} {e : MapElement}
    (hk : rest[k]? = some e) (he : e.mapIndex = i) (hne : j + k ≠ thisIndex) :
    ∃ l < rest.length, correspondingFrom thisIndex i j rest = UInt16.ofNat (j + l) := by
  induction rest generalizing j k with
  | nil => simp at hk
  | cons x rest ih =>
    rw [correspondingFrom]
    split
    · exact ⟨0, by simp, rfl⟩
    · next hskip =>
      cases k with
      | zero =>
        obtain rfl : x = e := by simpa using hk
        exact absurd ⟨he, by omega⟩ hskip
      | succ k =>
        obtain ⟨l, hl, heq⟩ := ih (j := j + 1) (k := k) (by simpa using hk) (by omega)
        refine ⟨l + 1, by simpa using hl, ?_⟩
        rw [heq, show j + 1 + l = j + (l + 1) by omega]

theorem reorderMapIndex_names (feederMap : List MapElement) :
    (reorderMapIndex feederMap).map MapElement.name = feederMap.map MapElement.name := by
  rw [reorderMapIndex]
  split
  · rfl
  · rw [zipWith_mapIdx, map_name_mapIdx]

/-- Where each element shares its index with another one, all indices of the reordered map are
those of its elements. -/
theorem reorderMapIndex_inside
    (h : ∀ (k : ℕ) x, feederMap[k]? = some x →
      ∃ (l : ℕ) (y : MapElement), feederMap[l]? = some y ∧ y.mapIndex = x.mapIndex ∧ l ≠ k)
    {k : ℕ} {x : MapElement} (hx : (reorderMapIndex feederMap)[k]? = some x) :
    x.mapIndex.toNat < feederMap.length := by
  have hfound : ∀ (k : ℕ) x, feederMap[k]? = some x → ∃ l < feederMap.length,
      getCorrespondingIndex k x.mapIndex feederMap = UInt16.ofNat l := by
    intro k x hx
    obtain ⟨l, y, hy, hindex, hne⟩ := h k x hx
    obtain ⟨l', hl', heq⟩ := @correspondingFrom_found _ k 0 l _ _ hy hindex (by omega)
    rw [Nat.zero_add] at heq
    exact ⟨l', hl', heq⟩
  rw [reorderMapIndex] at hx
  split at hx
  · next hmax =>
    -- only the position 65535 is taken for a missing one
    obtain ⟨m, hm⟩ := List.getElem?_of_mem hmax
    rw [List.getElem?_mapIdx, Option.map_eq_some_iff] at hm
    obtain ⟨y, hy, hym⟩ := hm
    obtain ⟨l, hl, heq⟩ := hfound m y hy
    rw [heq] at hym
    have hlong : 65535 ≤ l := by
      by_contra hlt
      exact ofNat_ne_MAXUINT16 (by omega) hym
    have hbound := x.mapIndex.toNat_lt
    omega
  · rw [zipWith_mapIdx, List.getElem?_mapIdx, Option.map_eq_some_iff] at hx
    obtain ⟨y, hy, rfl⟩ := hx
    obtain ⟨l, hl, heq⟩ := hfound k y hy
    simp only [heq, UInt16.toNat_ofNat']
    exact lt_of_le_of_lt (Nat.mod_le _ _) hl

end Partner

/-! ## The value -/

section Value

variable {numbers : ExactNumbers} {scalingDataList : List GoString} {value : GoString}

/-- Whether a member of an enumeration is looked at for a value. -/
def Visited (north2SouthConv : Bool) (value : GoString) (p : GoString × Json) : Prop :=
  north2SouthConv = true → p.1 = value

/-- The items that convert a value: texts that cannot be decoded, objects of strings, as far as
they are looked at, and arrays that begin with two numbers. -/
def Converts (numbers : ExactNumbers) (north2SouthConv : Bool) (value item : GoString) : Prop :=
  match (parseText item).map canon with
  | none => True
  | some .null => True
  | some (.obj enumObj) =>
      ∀ p ∈ enumObj, Visited north2SouthConv value p → ∃ s, p.2 = .str s
  | some (.arr coeffArray) =>
      numbers.parseFloat value = none ∨
        ((coeffArray[0]?.bind (asFloat numbers)).isSome ∧
          (coeffArray[1]?.bind (asFloat numbers)).isSome)
  | some _ => False

theorem enumLoop_isSome {north2SouthConv : Bool} {members : List (GoString × Json)}
    (h : ∀ p ∈ members, Visited north2SouthConv value p → ∃ s, p.2 = .str s) :
    (enumLoop north2SouthConv value members).isSome := by
  induction members with
  | nil => rfl
  | cons p members ih =>
    obtain ⟨k, v⟩ := p
    obtain ⟨hp, hmembers⟩ := List.forall_mem_cons.mp h
    rw [enumLoop]
    split
    · next hnorth =>
      split
      · next hk =>
        obtain ⟨s, rfl : v = .str s⟩ := hp fun _ => hk
        rfl
      · exact ih hmembers
    · next hsouth =>
      obtain ⟨s, rfl : v = .str s⟩ := hp fun hnorth => absurd hnorth hsouth
      simp only [asString, Option.bind_eq_bind, Option.bind_some]
      split
      · rfl
      · exact ih hmembers

/-- A member that is no string is the first one in some order. -/
theorem exists_order {enumObj : GoMap Json} {p : GoString × Json} (hp : p ∈ enumObj) :
    ∃ (order : MapOrder) (rest : List (GoString × Json)), order.range enumObj = p :: rest := by
  classical
  obtain ⟨front, behind, hsplit⟩ := List.append_of_mem hp
  refine ⟨⟨fun m => if m = enumObj then p :: (front ++ behind) else m, ?_⟩, front ++ behind,
    if_pos rfl⟩
  intro m
  split
  · next heq =>
    rw [heq, hsplit]
    exact List.perm_middle.symm
  · exact .refl m

theorem enumConversion_isSome_iff {north2SouthConv : Bool} {enumObj : GoMap Json} :
    (∀ order, (enumConversion order enumObj north2SouthConv value).isSome) ↔
      ∀ p ∈ enumObj, Visited north2SouthConv value p → ∃ s, p.2 = .str s := by
  constructor
  · intro h p hp hvisited
    obtain ⟨order, rest, hrange⟩ := exists_order hp
    have hsome := h order
    obtain ⟨k, v⟩ := p
    rw [enumConversion, hrange, enumLoop] at hsome
    cases hstring : asString v with
    | some s =>
      cases v with
      | str s => exact ⟨s, rfl⟩
      | _ => cases hstring
    | none =>
      split at hsome
      · next hnorth =>
        rw [if_pos (hvisited hnorth).symm.symm, hstring] at hsome
        cases hsome
      · rw [hstring] at hsome
        cases hsome
  · intro h order
    apply enumLoop_isSome
    intro p hp
    exact h p ((order.range_perm enumObj).mem_iff.mp hp)

theorem linearConversion_isSome_iff {north2SouthConv : Bool} {coeffArray : List Json} :
    (linearConversion numbers coeffArray north2SouthConv value).isSome ↔
      numbers.parseFloat value = none ∨
        ((coeffArray[0]?.bind (asFloat numbers)).isSome ∧
          (coeffArray[1]?.bind (asFloat numbers)).isSome) := by
  unfold linearConversion
  cases hvalue : numbers.parseFloat value with
  | none => simp
  | some x =>
    simp only [Option.bind_eq_bind, reduceCtorEq, false_or]
    cases coeffArray[0]? with
    | none => simp
    | some v =>
      rw [Option.bind_some, Option.bind_some]
      cases asFloat numbers v with
      | none => simp
      | some A =>
        cases coeffArray[1]? with
        | none => simp
        | some w =>
          rw [Option.bind_some, Option.bind_some, Option.bind_some]
          cases asFloat numbers w with
          | none => simp
          | some B => simp

/-- A value is converted in all orders by an item that converts it. -/
theorem convertValue_isSome_iff {convertIndex : UInt16} {north2SouthConv : Bool} (t t' : Int8) :
    (∀ order, (convertValue numbers order scalingDataList value convertIndex t t'
        north2SouthConv).isSome) ↔
      convertIndex = 0 ∨ ∃ item, scalingData scalingDataList convertIndex.toNat = some item ∧
        Converts numbers north2SouthConv value item := by
  unfold convertValue
  by_cases hzero : convertIndex = 0
  · simp [hzero]
  · simp only [if_neg hzero]
    rw [or_iff_right hzero]
    cases hitem : scalingData scalingDataList convertIndex.toNat with
    | none =>
      refine iff_of_false (fun h => ?_) (by simp)
      have hsome := h ⟨id, GoMap.perm_id⟩
      cases hsome
    | some item =>
      simp only [Option.bind_eq_bind, Option.bind_some, Option.some.injEq, exists_eq_left',
        Converts]
      cases (parseText item).map canon with
      | none => simp
      | some v =>
        cases v with
        | null => simp
        | obj enumObj => exact enumConversion_isSome_iff
        | arr coeffArray =>
          have hlinear := @linearConversion_isSome_iff numbers value north2SouthConv coeffArray
          exact ⟨fun h => hlinear.mp (h ⟨id, GoMap.perm_id⟩), fun h _ => hlinear.mpr h⟩
        | bool b => simpa using ⟨⟨id, GoMap.perm_id⟩⟩
        | num literal => simpa using ⟨⟨id, GoMap.perm_id⟩⟩
        | str s => simpa using ⟨⟨id, GoMap.perm_id⟩⟩

end Value

/-! ## The maps of the tool -/

section Total

variable {numbers : ExactNumbers} {nbd sbd : List ToolConversionData}
variable {signalMapList : List SignalMapElem} {tool tool' : ConversionTool}
variable {rows sorted : List ConversionRow} {pairs : List MappedPair} {feederMap : List MapElement}

theorem scanRow_some {r : ConversionRow} {e : MapElement} (h : scanRow r = some e) :
    e = feederElement r := by
  rw [scanRow] at h
  split at h
  · exact (Option.some.inj h).symm
  · cases h

theorem Joined.complete (h : Joined nbd sbd signalMapList.zipIdx tool tool' rows pairs)
    {p : MappedPair} (hp : p ∈ pairs) : Complete nbd sbd p.signals := by
  have hmem : (p.signals, p.mapIndex) ∈
      signalMapList.zipIdx.filter fun x => Complete nbd sbd x.1 := by
    rw [← h.signals]
    exact List.mem_map.mpr ⟨p, hp, rfl⟩
  simpa using (List.mem_filter.mp hmem).2

theorem Joined.name_ne_nil (h : Joined nbd sbd signalMapList.zipIdx tool tool' rows pairs)
    {r : ConversionRow} (hr : r ∈ rows) : r.name ≠ [] := by
  rw [h.rows] at hr
  obtain ⟨p, hp, hr⟩ := List.mem_flatMap.mp hr
  obtain ⟨hnorth, hsouth⟩ := h.complete hp
  rcases List.mem_pair.mp hr with rfl | rfl
  · exact hnorth
  · exact hsouth

theorem Joined.two_rows (h : Joined nbd sbd signalMapList.zipIdx tool tool' rows pairs)
    {r : ConversionRow} (hr : r ∈ rows) :
    (rows.filter fun r' => r'.mapIndex = r.mapIndex).length = 2 := by
  obtain ⟨p, hp, hmap, -⟩ := h.row hr
  rw [h.rows, hmap, filter_rows h.nodup hp]
  rfl

/-- Of two positions one is not the given one. -/
theorem exists_other {α : Type} {l : List α} {q : α → Bool} (h : 2 ≤ (l.filter q).length)
    (k : ℕ) : ∃ (j : ℕ) (y : α), l[j]? = some y ∧ q y = true ∧ j ≠ k := by
  obtain ⟨a, b, rest, heq⟩ : ∃ a b rest, l.filter q = a :: b :: rest := by
    generalize l.filter q = found at h
    match found with
    | [] => simp at h
    | [a] => simp at h
    | a :: b :: rest => exact ⟨a, b, rest, rfl⟩
  obtain ⟨before, behind, rfl, -, ha, hbehind⟩ := List.filter_eq_cons_iff.mp heq
  obtain ⟨between, after, rfl, -, hb, -⟩ := List.filter_eq_cons_iff.mp hbehind
  by_cases hk : before.length = k
  · refine ⟨before.length + (between.length + 1), b, ?_, hb, by omega⟩
    rw [List.getElem?_append_right (by omega), Nat.add_sub_cancel_left, List.getElem?_cons_succ,
      List.getElem?_append_right (Nat.le_refl _), Nat.sub_self]
    rfl
  · refine ⟨before.length, a, ?_, ha, hk⟩
    rw [List.getElem?_append_right (Nat.le_refl _), Nat.sub_self]
    rfl

/-- The indices of a map of the tool are those of its elements, which have names. -/
theorem Joined.mapped (hjoined : Joined nbd sbd signalMapList.zipIdx tool tool' rows pairs)
    (hqueried : Queried rows sorted) (hmap : createFeederArray sorted = some feederMap) {k : ℕ}
    {e : MapElement} (he : feederMap[k]? = some e) :
    ∃ f, feederMap[e.mapIndex.toNat]? = some f ∧ f.name ≠ [] := by
  obtain ⟨scanned, hscan, rfl⟩ := Option.map_eq_some_iff.mp hmap
  obtain rfl := Traversals.eq_map_of_mapM (fun _ _ => scanRow_some) hscan
  have hshared : ∀ (k : ℕ) x, (sorted.map feederElement)[k]? = some x →
      ∃ (l : ℕ) (y : MapElement), (sorted.map feederElement)[l]? = some y ∧
        y.mapIndex = x.mapIndex ∧ l ≠ k := by
    intro k x hx
    rw [List.getElem?_map, Option.map_eq_some_iff] at hx
    obtain ⟨r, hr, rfl⟩ := hx
    have hrows : r ∈ rows := hqueried.perm.mem_iff.mp (List.mem_of_getElem? hr)
    have htwo : 2 ≤ (sorted.filter fun r' => decide (r'.mapIndex = r.mapIndex)).length := by
      rw [(hqueried.perm.filter _).length_eq, hjoined.two_rows hrows]
    obtain ⟨l, r', hr', hindex, hne⟩ := exists_other htwo k
    refine ⟨l, feederElement r', by rw [List.getElem?_map, hr', Option.map_some], ?_, hne⟩
    have hsame : r'.mapIndex = r.mapIndex := by simpa using hindex
    rw [feederElement, feederElement, hsame]
  have hlt := reorderMapIndex_inside hshared he
  have hnames := reorderMapIndex_names (sorted.map feederElement)
  have hlength : (reorderMapIndex (sorted.map feederElement)).length =
      (sorted.map feederElement).length := by
    have hlengths := congrArg List.length hnames
    rwa [List.length_map, List.length_map] at hlengths
  rw [← hlength] at hlt
  refine ⟨_, List.getElem?_eq_getElem hlt, ?_⟩
  have hmem := List.mem_map_of_mem (f := MapElement.name) (List.getElem_mem hlt)
  rw [hnames, List.map_map] at hmem
  obtain ⟨r, hr, hname⟩ := List.mem_map.mp hmem
  rw [← hname]
  exact hjoined.name_ne_nil (hqueried.perm.mem_iff.mp hr)

/-- What a domain data has to be converted to: to some domain data whatever the order of the
maps, and to none of another signal where its name is unknown, or its conversion impossible. -/
def Handled (numbers : ExactNumbers) (scalingDataList : List GoString) (north2SouthConv : Bool)
    (inData : DomainData) (feederMap : List MapElement) : Prop :=
  ∀ order : MapOrder, ∃ outData,
    convertDomainData numbers order scalingDataList north2SouthConv inData feederMap =
        some outData ∧
      ((∀ e, feederMap.find? (fun e => e.name = inData.name) = some e → e.convertIndex = 65535) →
        outData.name = [])

theorem convertDomainData_eq (h : Ordered feederMap) (order : MapOrder)
    (scalingDataList : List GoString) (north2SouthConv : Bool) (inData : DomainData) :
    convertDomainData numbers order scalingDataList north2SouthConv inData feederMap =
      (feederMap.find? fun e => e.name = inData.name).bind fun found =>
        feederMap[found.mapIndex.toNat]?.bind fun mapped =>
          (convertValue numbers order scalingDataList inData.value found.convertIndex
            found.datatype mapped.datatype north2SouthConv).map fun value =>
              ⟨mapped.name, value⟩ := by
  rw [← matchIndex_find h, convertDomainData]
  simp only [Option.bind_eq_bind, Option.bind_assoc, Option.map_eq_bind, Function.comp_def]

/-- Domain data are handled where the first element of their name has a conversion, and its
scaling data convert the value. -/
theorem convertDomainData_handled_iff
    (hjoin : populateConversionTable numbers nbd sbd tool signalMapList = some (tool', rows))
    (hqueried : Queried rows sorted) (hmap : createFeederArray sorted = some feederMap)
    (scalingDataList : List GoString) (north2SouthConv : Bool) (inData : DomainData) :
    Handled numbers scalingDataList north2SouthConv inData feederMap ↔
      ∃ e, feederMap.find? (fun e => e.name = inData.name) = some e ∧ e.convertIndex ≠ 65535 ∧
        (e.convertIndex = 0 ∨
          ∃ item, scalingData scalingDataList e.convertIndex.toNat = some item ∧
            Converts numbers north2SouthConv inData.value item) := by
  obtain ⟨pairs, hjoined⟩ := populateRows_joined hjoin
  have hordered : Ordered feederMap := by
    obtain ⟨scanned, hscan, rfl⟩ := Option.map_eq_some_iff.mp hmap
    obtain rfl := Traversals.eq_map_of_mapM (fun _ _ => scanRow_some) hscan
    exact hqueried.map_ordered.of_map (reorderMapIndex_names _)
  unfold Handled
  simp only [convertDomainData_eq hordered]
  cases hfind : feederMap.find? fun e => decide (e.name = inData.name) with
  | none =>
    refine iff_of_false (fun h => ?_) (by simp)
    obtain ⟨outData, hout, -⟩ := h ⟨id, GoMap.perm_id⟩
    cases hout
  | some e =>
    obtain ⟨k, hk⟩ := List.getElem?_of_mem (List.mem_of_find?_eq_some hfind)
    obtain ⟨f, hf, hname⟩ := hjoined.mapped hqueried hmap hk
    simp only [Option.bind_some, hf, Option.some.injEq, forall_eq', exists_eq_left',
      Option.map_eq_some_iff]
    rw [← convertValue_isSome_iff e.datatype f.datatype]
    constructor
    · intro h
      refine ⟨fun hnone => ?_, fun order => ?_⟩
      · obtain ⟨outData, ⟨value, -, rfl⟩, himpossible⟩ := h ⟨id, GoMap.perm_id⟩
        exact hname (himpossible hnone)
      · obtain ⟨outData, ⟨value, hvalue, -⟩, -⟩ := h order
        rw [hvalue]
        rfl
    · intro h order
      obtain ⟨value, hvalue⟩ := Option.isSome_iff_exists.mp (h.2 order)
      exact ⟨_, ⟨value, hvalue, rfl⟩, fun hnone => absurd hnone h.1⟩

end Total

/-- The speed of the sample map is converted by its coefficients. -/
theorem convertDomainData_speed_handled :
    Handled decimals [booleanMap, str "[0.5, -1]"] true ⟨str "Vehicle.Speed", str "36.5"⟩
        (reorderMapIndex (speedRows.map feederElement)) ↔
      ∃ e, (reorderMapIndex (speedRows.map feederElement)).find?
          (fun e => e.name = str "Vehicle.Speed") = some e ∧ e.convertIndex ≠ 65535 ∧
        (e.convertIndex = 0 ∨ ∃ item,
          scalingData [booleanMap, str "[0.5, -1]"] e.convertIndex.toNat = some item ∧
            Converts decimals true (str "36.5") item) :=
  @convertDomainData_handled_iff decimals speedNorth speedSouth
    [⟨str "Vehicle.Speed", str "v"⟩] { unitScaleList := speedUnits } speedTool speedRows speedRows
    (reorderMapIndex (speedRows.map feederElement)) rfl ⟨.refl _, by decide⟩ rfl
    [booleanMap, str "[0.5, -1]"] true ⟨str "Vehicle.Speed", str "36.5"⟩

/-- A name that is not in the map. -/
theorem convertDomainData_unknown : ¬ ∀ (numbers : ExactNumbers) nbd sbd tool tool' signalMapList
    rows sorted feederMap,
    populateConversionTable numbers nbd sbd tool signalMapList = some (tool', rows) →
      Queried rows sorted → createFeederArray sorted = some feederMap →
        ∀ north2SouthConv inData, Handled numbers (booleanMap :: tool'.scaleDataList)
          north2SouthConv inData feederMap := by
  intro h
  have hhandled := h decimals speedNorth speedSouth { unitScaleList := speedUnits } speedTool
    [⟨str "Vehicle.Speed", str "v"⟩] speedRows speedRows _ rfl ⟨.refl _, by decide⟩ rfl true
    ⟨str "Speed", str "36.5"⟩
  obtain ⟨outData, hout, -⟩ := hhandled ⟨id, GoMap.perm_id⟩
  have hpanic : convertDomainData decimals ⟨id, GoMap.perm_id⟩
      (booleanMap :: speedTool.scaleDataList) true ⟨str "Speed", str "36.5"⟩
        (reorderMapIndex (speedRows.map feederElement)) = none := rfl
  exact absurd (hpanic.symm.trans hout) (by simp)

end VissServer.Feeder

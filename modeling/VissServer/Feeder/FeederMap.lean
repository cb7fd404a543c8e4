import Mathlib.Data.List.Permutation
import VissServer.Feeder.DomainConversion

/-!
What the feeder finds in the map of the tool: the element of a name, and by its index the other
element of its pair. The tool replaces the indices that pairs share by their positions.
-/
namespace VissServer.Feeder

open Go

variable {feederMap : List MapElement} {i : UInt16}

/-! ## The element of a name -/

/-- The elements stand in the order of their names. -/
def Ordered (feederMap : List MapElement) : Prop :=
  feederMap.Pairwise fun e e' => e.name ≤ e'.name

/-- A name of the map is found at one of the elements that have it. -/
theorem matchIndex_found (h : Ordered feederMap) {e : MapElement} (he : e ∈ feederMap) :
    ∃ m f, matchIndex feederMap e.name = some m ∧ feederMap[m]? = some f ∧ f.name = e.name := by
  obtain ⟨k, hk, rfl⟩ := List.getElem_of_mem he
  generalize hp : (fun j : ℕ => feederMap[j]?.any fun f =>
    decide (feederMap[k].name ≤ f.name)) = p
  have hpj : ∀ j (hj : j < feederMap.length),
      p j = true ↔ feederMap[k].name ≤ feederMap[j].name := by
    intro j hj
    rw [← hp]
    simp [hj]
  have hle : ∀ a b (hab : a ≤ b) (hb : b < feederMap.length),
      feederMap[a].name ≤ feederMap[b].name := by
    intro a b hab hb
    rcases Nat.lt_or_eq_of_le hab with hlt | rfl
    · exact List.pairwise_iff_getElem.mp h a b (by omega) hb hlt
    · exact List.le_refl _
  have hmono : ∀ a b, a ≤ b → b < feederMap.length → p a = true → p b = true := by
    intro a b hab hb ha
    rw [hpj b hb]
    exact List.le_trans ((hpj a (by omega)).mp ha) (hle a b hab hb)
  obtain ⟨-, hbefore, hfrom⟩ := search_splits hmono
  -- the search stops at or before the element, at one whose name is not less
  have hstop : search feederMap.length p ≤ k := by
    by_contra hlt
    have hfalse := hbefore k (by omega)
    rw [(hpj k hk).mpr (List.le_refl _)] at hfalse
    exact absurd hfalse (by decide)
  have hm : search feederMap.length p < feederMap.length := by omega
  have hname : feederMap[search feederMap.length p].name = feederMap[k].name :=
    List.le_antisymm (hle _ _ hstop hk) ((hpj _ hm).mp (hfrom _ (Nat.le_refl _) hm))
  refine ⟨search feederMap.length p, _, ?_, List.getElem?_eq_getElem hm, hname⟩
  rw [matchIndex, hp, if_pos]
  rw [List.getElem?_eq_getElem hm, Option.map_some, hname]

/-! ## The other element of a pair -/

theorem correspondingFrom_skip {skipped : List MapElement} (h : ∀ x ∈ skipped, x.mapIndex ≠ i)
    (thisIndex j : ℕ) (rest : List MapElement) :
    correspondingFrom thisIndex i j (skipped ++ rest) =
      correspondingFrom thisIndex i (j + skipped.length) rest := by
  induction skipped generalizing j with
  | nil => rfl
  | cons x skipped ih =>
    obtain ⟨hx, hskipped⟩ := List.forall_mem_cons.mp h
    have hlength : j + (x :: skipped).length = j + 1 + skipped.length := by
      rw [List.length_cons]
      omega
    rw [List.cons_append, correspondingFrom, if_neg (fun hboth => hx hboth.1), ih hskipped,
      hlength]

theorem correspondingFrom_this {e : MapElement} (thisIndex : ℕ) (rest : List MapElement) :
    correspondingFrom thisIndex i thisIndex (e :: rest) =
      correspondingFrom thisIndex i (thisIndex + 1) rest := by
  rw [correspondingFrom, if_neg (fun hboth => hboth.2 rfl)]

theorem correspondingFrom_other {e : MapElement} {thisIndex j : ℕ} (he : e.mapIndex = i)
    (hj : j ≠ thisIndex) (rest : List MapElement) :
    correspondingFrom thisIndex i j (e :: rest) = UInt16.ofNat j := by
  rw [correspondingFrom, if_pos ⟨he, hj⟩]

/-- Two elements of one index, and none but them. -/
structure PairAt (feederMap : List MapElement) (i : UInt16) (m n : ℕ) (e f : MapElement) :
    Prop where
  first : feederMap[m]? = some e
  second : feederMap[n]? = some f
  firstIndex : e.mapIndex = i
  secondIndex : f.mapIndex = i
  toSecond : getCorrespondingIndex m i feederMap = UInt16.ofNat n
  toFirst : getCorrespondingIndex n i feederMap = UInt16.ofNat m
  only : ∀ k x, feederMap[k]? = some x → x.mapIndex = i → k = m ∨ k = n

theorem PairAt.symm {m n : ℕ} {e f : MapElement} (h : PairAt feederMap i m n e f) :
    PairAt feederMap i n m f e :=
  ⟨h.second, h.first, h.secondIndex, h.firstIndex, h.toFirst, h.toSecond,
    fun k x hk hx => (h.only k x hk hx).symm⟩

theorem pairAt_of_split {before between after : List MapElement} {e f : MapElement}
    (h : feederMap = before ++ e :: (between ++ f :: after)) (he : e.mapIndex = i)
    (hf : f.mapIndex = i) (hothers : ∀ x ∈ before ++ between ++ after, x.mapIndex ≠ i) :
    PairAt feederMap i before.length (before.length + 1 + between.length) e f := by
  have hbefore : ∀ x ∈ before, x.mapIndex ≠ i := fun x hx => hothers x (by simp [hx])
  have hbetween : ∀ x ∈ between, x.mapIndex ≠ i := fun x hx => hothers x (by simp [hx])
  have hafter : ∀ x ∈ after, x.mapIndex ≠ i := fun x hx => hothers x (by simp [hx])
  subst h
  constructor
  · simp
  · rw [List.getElem?_append_right (by omega)]
    simp [show before.length + 1 + between.length - before.length = between.length + 1 by omega]
  · exact he
  · exact hf
  · rw [getCorrespondingIndex, correspondingFrom_skip hbefore, Nat.zero_add,
      correspondingFrom_this, correspondingFrom_skip hbetween,
      correspondingFrom_other hf (by omega)]
  · rw [getCorrespondingIndex, correspondingFrom_skip hbefore, Nat.zero_add,
      correspondingFrom_other he (by omega)]
  · intro k x hk hx
    rcases Nat.lt_trichotomy k before.length with hlt | heq | hgt
    · rw [List.getElem?_append_left hlt] at hk
      exact absurd hx (hbefore x (List.mem_of_getElem? hk))
    · exact .inl heq
    · rw [List.getElem?_append_right (by omega)] at hk
      obtain ⟨j, hj⟩ : ∃ j, k - before.length = j + 1 := ⟨k - before.length - 1, by omega⟩
      rw [hj, List.getElem?_cons_succ] at hk
      rcases Nat.lt_trichotomy j between.length with hlt | heq | hgt
      · rw [List.getElem?_append_left hlt] at hk
        exact absurd hx (hbetween x (List.mem_of_getElem? hk))
      · right
        omega
      · rw [List.getElem?_append_right (by omega)] at hk
        obtain ⟨l, hl⟩ : ∃ l, j - between.length = l + 1 := ⟨j - between.length - 1, by omega⟩
        rw [hl, List.getElem?_cons_succ] at hk
        exact absurd hx (hafter x (List.mem_of_getElem? hk))

/-- The elements of one index decide where it stands. -/
theorem pairAt_of_filter {e f : MapElement}
    (h : (feederMap.filter fun x => x.mapIndex = i).Perm [e, f]) :
    ∃ m n, PairAt feederMap i m n e f := by
  have hsplit : ∀ {a b : MapElement}, feederMap.filter (fun x => x.mapIndex = i) = [a, b] →
      ∃ m n, PairAt feederMap i m n a b := by
    intro a b hab
    obtain ⟨before, rest, rfl, hbefore, ha, hrest⟩ := List.filter_eq_cons_iff.mp hab
    obtain ⟨between, after, rfl, hbetween, hb, hafter⟩ := List.filter_eq_cons_iff.mp hrest
    have hnone := List.filter_eq_nil_iff.mp hafter
    simp only [decide_eq_true_eq] at ha hb hbefore hbetween hnone
    refine ⟨_, _, pairAt_of_split rfl ha hb ?_⟩
    intro x hx
    rcases List.mem_append.mp hx with hx | hx
    · rcases List.mem_append.mp hx with hx | hx
      · exact hbefore x hx
      · exact hbetween x hx
    · exact hnone x hx
  rcases List.perm_pair.mp h with heq | heq
  · exact hsplit heq
  · obtain ⟨m, n, hpair⟩ := hsplit heq
    exact ⟨n, m, hpair.symm⟩

/-! ## The reordered map -/

/-- Each index is that of a pair. -/
def Paired (feederMap : List MapElement) : Prop :=
  ∀ x ∈ feederMap, ∃ m n e f, PairAt feederMap x.mapIndex m n e f

/-- The elements with the indices of their counterparts. -/
def reordered (feederMap : List MapElement) : List MapElement :=
  feederMap.mapIdx fun k e => { e with mapIndex := getCorrespondingIndex k e.mapIndex feederMap }

theorem getElem?_reordered (k : ℕ) (feederMap : List MapElement) :
    (reordered feederMap)[k]? = feederMap[k]?.map fun x =>
      { x with mapIndex := getCorrespondingIndex k x.mapIndex feederMap } :=
  List.getElem?_mapIdx

theorem map_name_mapIdx (g : ℕ → MapElement → UInt16) (feederMap : List MapElement) :
    (feederMap.mapIdx fun k e => { e with mapIndex := g k e }).map MapElement.name =
      feederMap.map MapElement.name := by
  apply List.ext_getElem?
  intro k
  rw [List.getElem?_map, List.getElem?_mapIdx, Option.map_map, List.getElem?_map]
  rfl

theorem zipWith_mapIdx (g : ℕ → MapElement → UInt16) (feederMap : List MapElement) :
    feederMap.zipWith (fun e mapIndex => { e with mapIndex }) (feederMap.mapIdx g) =
      feederMap.mapIdx fun k e => { e with mapIndex := g k e } := by
  apply List.ext_getElem?
  intro k
  rw [List.getElem?_zipWith, List.getElem?_mapIdx, List.getElem?_mapIdx]
  cases feederMap[k]? <;> rfl

/-- The counterpart of an element, by its position. -/
theorem Paired.counterpart (h : Paired feederMap) {k : ℕ} {x : MapElement}
    (hx : feederMap[k]? = some x) :
    ∃ l y, PairAt feederMap x.mapIndex k l x y := by
  obtain ⟨m, n, e, f, hpair⟩ := h x (List.mem_of_getElem? hx)
  rcases hpair.only k x hx rfl with rfl | rfl
  · obtain rfl := Option.some.inj (hpair.first.symm.trans hx)
    exact ⟨n, f, hpair⟩
  · obtain rfl := Option.some.inj (hpair.second.symm.trans hx)
    exact ⟨m, e, hpair.symm⟩

theorem ofNat_ne_MAXUINT16 {n : ℕ} (h : n < 65535) : UInt16.ofNat n ≠ MAXUINT16 := by
  intro heq
  have hnat := congrArg UInt16.toNat heq
  rw [UInt16.toNat_ofNat', Nat.mod_eq_of_lt (by omega)] at hnat
  exact absurd hnat (Nat.ne_of_lt h)

/-- A map of pairs is reordered where its last index is not taken for a missing one. -/
theorem reorderMapIndex_of_paired (h : Paired feederMap) (hlength : feederMap.length ≤ 65535) :
    reorderMapIndex feederMap = reordered feederMap := by
  have hnone : MAXUINT16 ∉ feederMap.mapIdx fun k e =>
      getCorrespondingIndex k e.mapIndex feederMap := by
    intro hmem
    obtain ⟨k, hk⟩ := List.getElem?_of_mem hmem
    rw [List.getElem?_mapIdx, Option.map_eq_some_iff] at hk
    obtain ⟨x, hx, hmax⟩ := hk
    obtain ⟨l, y, hpair⟩ := h.counterpart hx
    have hl := (List.getElem?_eq_some_iff.mp hpair.second).1
    rw [hpair.toSecond] at hmax
    exact ofNat_ne_MAXUINT16 (by omega) hmax
  rw [reorderMapIndex, if_neg hnone, zipWith_mapIdx]
  rfl

/-- One position behind those that an uint16 can tell from a missing one. -/
theorem reorderMapIndex_too_long (h : Paired feederMap) (hlength : 65536 ≤ feederMap.length) :
    reorderMapIndex feederMap = feederMap := by
  rw [reorderMapIndex, if_pos]
  have hlast := List.getElem?_eq_getElem (show 65535 < feederMap.length by omega)
  obtain ⟨l, y, hpair⟩ := h.counterpart hlast
  apply List.mem_of_getElem? (i := l)
  rw [List.getElem?_mapIdx, hpair.second, Option.map_some, hpair.secondIndex, hpair.toFirst]
  rfl

/-! ## The pairs of the reordered map -/

/-- The elements of a map that have the index of an element. -/
def sharers (feederMap : List MapElement) (x : MapElement) : List MapElement :=
  feederMap.filter fun y => y.mapIndex = x.mapIndex

/-- A map whose indices are positions, each that of the only other element which shared the
index of its element before. -/
structure PairsSharers (before after : List MapElement) : Prop where
  others : ∀ k : ℕ, after[k]?.map (fun x : MapElement => { x with mapIndex := 0 }) =
    before[k]?.map fun x : MapElement => { x with mapIndex := 0 }
  moves : ∀ (k : ℕ) x, after[k]? = some x → x.mapIndex.toNat ≠ k
  returns : ∀ (k : ℕ) x, after[k]? = some x →
    ∃ y, after[x.mapIndex.toNat]? = some y ∧ y.mapIndex.toNat = k
  shared : ∀ (k l : ℕ) x y z, before[k]? = some x → before[l]? = some y → after[k]? = some z →
    (z.mapIndex.toNat = l ↔ k ≠ l ∧ x.mapIndex = y.mapIndex)

/-- The search for another element of an index finds one, or tells that there is none. -/
theorem correspondingFrom_cases (thisIndex j : ℕ) (rest : List MapElement) :
    correspondingFrom thisIndex i j rest = MAXUINT16 ∨
      ∃ k e, rest[k]? = some e ∧ e.mapIndex = i ∧ j + k ≠ thisIndex ∧
        correspondingFrom thisIndex i j rest = UInt16.ofNat (j + k) := by
  induction rest generalizing j with
  | nil => exact .inl rfl
  | cons e rest ih =>
    by_cases hfound : e.mapIndex = i ∧ j ≠ thisIndex
    · refine .inr ⟨0, e, rfl, hfound.1, hfound.2, ?_⟩
      rw [correspondingFrom, if_pos hfound, Nat.add_zero]
    · rw [correspondingFrom, if_neg hfound]
      obtain hnone | ⟨k, f, hf, hindex, hne, heq⟩ := ih (j + 1)
      · exact .inl hnone
      · have hshift : j + 1 + k = j + (k + 1) := by omega
        rw [hshift] at hne heq
        exact .inr ⟨k + 1, f, hf, hindex, hne, heq⟩

theorem toNat_ofNat_position {n : ℕ} (hlength : feederMap.length ≤ 65535)
    {x : MapElement} (hx : feederMap[n]? = some x) : (UInt16.ofNat n).toNat = n := by
  have hn := (List.getElem?_eq_some_iff.mp hx).1
  rw [UInt16.toNat_ofNat', Nat.mod_eq_of_lt (by omega)]

/-- The positions of a pair are two. -/
theorem PairAt.ne {m n : ℕ} {e f : MapElement} (h : PairAt feederMap i m n e f)
    (hlength : feederMap.length ≤ 65535) : m ≠ n := by
  have hm := (List.getElem?_eq_some_iff.mp h.first).1
  have hn := (List.getElem?_eq_some_iff.mp h.second).1
  have hto := h.toSecond
  obtain hnone | ⟨k, x, hx, -, hne, heq⟩ := correspondingFrom_cases (i := i) m 0 feederMap
  · rw [getCorrespondingIndex, hnone] at hto
    exact absurd hto.symm (ofNat_ne_MAXUINT16 (by omega))
  · rw [Nat.zero_add] at hne heq
    rw [getCorrespondingIndex, heq] at hto
    have hnat := congrArg UInt16.toNat hto
    rw [toNat_ofNat_position hlength hx, toNat_ofNat_position hlength h.second] at hnat
    omega

theorem paired_of_sharers (h : ∀ x ∈ feederMap, (sharers feederMap x).length = 2) :
    Paired feederMap := by
  intro x hx
  obtain ⟨e, f, heq⟩ := List.length_eq_two.mp (h x hx)
  have hperm : (feederMap.filter fun y => y.mapIndex = x.mapIndex).Perm [e, f] := .of_eq heq
  obtain ⟨m, n, hpair⟩ := pairAt_of_filter hperm
  exact ⟨m, n, e, f, hpair⟩

theorem Paired.pairsSharers (h : Paired feederMap) (hlength : feederMap.length ≤ 65535) :
    PairsSharers feederMap (reordered feederMap) := by
  constructor
  · intro k
    rw [getElem?_reordered, Option.map_map]
    rfl
  · intro k x hx
    rw [getElem?_reordered, Option.map_eq_some_iff] at hx
    obtain ⟨e, he, rfl⟩ := hx
    obtain ⟨l, f, hpair⟩ := h.counterpart he
    have hl : (UInt16.ofNat l).toNat = l := toNat_ofNat_position hlength hpair.second
    simp only [hpair.toSecond, hl]
    exact (hpair.ne hlength).symm
  · intro k x hx
    rw [getElem?_reordered, Option.map_eq_some_iff] at hx
    obtain ⟨e, he, rfl⟩ := hx
    obtain ⟨l, f, hpair⟩ := h.counterpart he
    have hl : (UInt16.ofNat l).toNat = l := toNat_ofNat_position hlength hpair.second
    have hk : (UInt16.ofNat k).toNat = k := toNat_ofNat_position hlength he
    simp only [hpair.toSecond, hl, getElem?_reordered, hpair.second, Option.map_some]
    refine ⟨_, rfl, ?_⟩
    rw [hpair.secondIndex, hpair.toFirst, hk]
  · intro k l e f z he hf hz
    rw [getElem?_reordered, he, Option.map_some, Option.some.injEq] at hz
    subst hz
    obtain ⟨m, g, hpair⟩ := h.counterpart he
    have hm : (UInt16.ofNat m).toNat = m := toNat_ofNat_position hlength hpair.second
    simp only [hpair.toSecond, hm]
    constructor
    · rintro rfl
      obtain rfl := Option.some.inj (hf.symm.trans hpair.second)
      exact ⟨hpair.ne hlength, hpair.secondIndex.symm⟩
    · intro hshared
      obtain hkl | hml := hpair.only l f hf hshared.2.symm
      · exact absurd hkl.symm hshared.1
      · exact hml.symm

/-- An element that shares its index with none is at the only position of the index. -/
theorem position_unique {x : MapElement} (h : (sharers feederMap x).length = 1) {k l : ℕ}
    {e f : MapElement} (he : feederMap[k]? = some e) (hf : feederMap[l]? = some f)
    (hex : e.mapIndex = x.mapIndex) (hfx : f.mapIndex = x.mapIndex) : k = l := by
  obtain ⟨only, honly⟩ := List.length_eq_one_iff.mp h
  obtain ⟨before, after, rfl, hbefore, -, hafter⟩ := List.filter_eq_cons_iff.mp honly
  have hnone := List.filter_eq_nil_iff.mp hafter
  simp only [decide_eq_true_eq] at hbefore hnone
  have hplace : ∀ j y, (before ++ only :: after)[j]? = some y → y.mapIndex = x.mapIndex →
      j = before.length := by
    intro j y hy hindex
    rcases Nat.lt_trichotomy j before.length with hlt | heq | hgt
    · rw [List.getElem?_append_left hlt] at hy
      exact absurd hindex (hbefore y (List.mem_of_getElem? hy))
    · exact heq
    · rw [List.getElem?_append_right (by omega),
        show j - before.length = j - before.length - 1 + 1 by omega,
        List.getElem?_cons_succ] at hy
      exact absurd hindex (hnone y (List.mem_of_getElem? hy))
  rw [hplace k e he hex, hplace l f hf hfx]

/-- An index of one element only cannot be replaced. -/
theorem reorderMapIndex_of_single {x : MapElement} (hx : x ∈ feederMap)
    (h : (sharers feederMap x).length = 1) : reorderMapIndex feederMap = feederMap := by
  obtain ⟨k, hk⟩ := List.getElem?_of_mem hx
  rw [reorderMapIndex, if_pos]
  apply List.mem_of_getElem? (i := k)
  rw [List.getElem?_mapIdx, hk, Option.map_some, getCorrespondingIndex]
  obtain hnone | ⟨l, f, hf, hindex, hne, -⟩ :=
    correspondingFrom_cases (i := x.mapIndex) k 0 feederMap
  · rw [hnone]
  · rw [Nat.zero_add] at hne
    exact absurd (position_unique h hf hk hindex rfl) hne

/-- Where each index is that of two elements, the elements lead to each other's positions;
where one is that of one element only, nothing is changed. -/
theorem reorderMapIndex_pairs (hlength : feederMap.length ≤ 65535) :
    ((∀ x ∈ feederMap, (sharers feederMap x).length = 2) →
      PairsSharers feederMap (reorderMapIndex feederMap)) ∧
    ((∃ x ∈ feederMap, (sharers feederMap x).length = 1) →
      reorderMapIndex feederMap = feederMap) := by
  constructor
  · intro h
    have hpaired : Paired feederMap := paired_of_sharers h
    rw [reorderMapIndex_of_paired hpaired hlength]
    exact hpaired.pairsSharers hlength
  · intro h
    obtain ⟨x, hx, hsingle⟩ := h
    exact reorderMapIndex_of_single hx hsingle

/-- An element of a map, by its name and its index. -/
def sampleElement (name : GoString) (mapIndex : UInt16) : MapElement where
  mapIndex := mapIndex
  name := name
  type := 0
  datatype := 0
  convertIndex := 0

/-- Two pairs are reordered; two elements and a single one are left as they are. -/
theorem reorderMapIndex_samples :
    PairsSharers [sampleElement (str "a") 7, sampleElement (str "b") 3,
        sampleElement (str "c") 3, sampleElement (str "d") 7]
      (reorderMapIndex [sampleElement (str "a") 7, sampleElement (str "b") 3,
        sampleElement (str "c") 3, sampleElement (str "d") 7]) ∧
    reorderMapIndex [sampleElement (str "a") 7, sampleElement (str "b") 3,
        sampleElement (str "d") 7] =
      [sampleElement (str "a") 7, sampleElement (str "b") 3, sampleElement (str "d") 7] :=
  ⟨(reorderMapIndex_pairs (by decide)).1 (by decide),
    (reorderMapIndex_pairs (by decide)).2 ⟨sampleElement (str "b") 3, by decide, by decide⟩⟩

/-! ## Conversion -/

section Conversion

variable {numbers : ExactNumbers} {order : MapOrder} {scalingDataList : List GoString}
variable {m n : ℕ} {e f : MapElement}

theorem Ordered.of_map {feederMap' : List MapElement} (h : Ordered feederMap)
    (hnames : feederMap'.map MapElement.name = feederMap.map MapElement.name) :
    Ordered feederMap' := by
  have hpairwise : (feederMap.map MapElement.name).Pairwise (· ≤ ·) := List.pairwise_map.mpr h
  rw [← hnames] at hpairwise
  exact List.pairwise_map.mp hpairwise

/-- Where a name is found at the first element, the second one is taken for it. -/
theorem convertDomainData_found (hpair : PairAt feederMap i m n e f)
    (hlength : feederMap.length ≤ 65535) {name : GoString}
    (hmatch : matchIndex (reordered feederMap) name = some m) (north2SouthConv : Bool)
    (value : GoString) :
    convertDomainData numbers order scalingDataList north2SouthConv ⟨name, value⟩
        (reordered feederMap) =
      (convertValue numbers order scalingDataList value e.convertIndex 0 0 north2SouthConv).map
        fun value => ⟨f.name, value⟩ := by
  have hn := (List.getElem?_eq_some_iff.mp hpair.second).1
  have htoNat : (UInt16.ofNat n).toNat = n := by
    rw [UInt16.toNat_ofNat', Nat.mod_eq_of_lt (by omega)]
  have hmapped := getElem?_reordered n feederMap
  rw [hpair.second, Option.map_some] at hmapped
  rw [convertDomainData, hmatch, Option.bind_eq_bind, Option.bind_some, getElem?_reordered,
    hpair.first, Option.map_some, hpair.firstIndex, hpair.toSecond]
  simp only [Option.bind_eq_bind, Option.bind_some, htoNat, hmapped]
  exact Option.map_eq_bind.symm

/-- A name is converted to the other name of its pair. -/
theorem convertDomainData_pair (hordered : Ordered feederMap) (hpaired : Paired feederMap)
    (hlength : feederMap.length ≤ 65535)
    (hnames : ∀ x ∈ feederMap, x.name = e.name → x.mapIndex = e.mapIndex)
    (hpair : PairAt feederMap i m n e f) (hconvert : f.convertIndex = e.convertIndex)
    (north2SouthConv : Bool) (value : GoString) :
    convertDomainData numbers order scalingDataList north2SouthConv ⟨e.name, value⟩
        (reorderMapIndex feederMap) =
      (convertValue numbers order scalingDataList value e.convertIndex 0 0 north2SouthConv).map
        fun value => ⟨f.name, value⟩ := by
  rw [reorderMapIndex_of_paired hpaired hlength]
  have hordered' : Ordered (reordered feederMap) := hordered.of_map (map_name_mapIdx _ _)
  have hfirst := getElem?_reordered m feederMap
  rw [hpair.first, Option.map_some] at hfirst
  obtain ⟨k, x', hmatch, hk, hname⟩ := matchIndex_found hordered' (List.mem_of_getElem? hfirst)
  rw [getElem?_reordered, Option.map_eq_some_iff] at hk
  obtain ⟨x, hx, rfl⟩ := hk
  have hindex : x.mapIndex = i :=
    (hnames x (List.mem_of_getElem? hx) hname).trans hpair.firstIndex
  -- the two names of a pair may be the same, so that either element may be found
  rcases hpair.only k x hx hindex with rfl | rfl
  · exact convertDomainData_found hpair hlength hmatch north2SouthConv value
  · obtain rfl := Option.some.inj (hpair.second.symm.trans hx)
    rw [convertDomainData_found hpair.symm hlength hmatch, hconvert, ← hname]

end Conversion

end VissServer.Feeder

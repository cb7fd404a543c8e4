import VissServer.Feeder.DomainConversion

/-!
What the tool makes of a mapping: two rows for each pair of signals, with a conversion index
that stays good while the list of scaling texts grows.
-/
namespace VissServer.Feeder

open Go

/-! ## Conversion indices -/

/-- The pair is converted by the first item of the feeder's list. -/
def IsBoolean (north south : ToolConversionData) : Prop :=
  south.datatype = north.datatype ∧ north.datatype = str "boolean"

/-- The pair needs no conversion. -/
def IsIdentity (north south : ToolConversionData) : Prop :=
  south.unit = north.unit ∧ north.enumValues = []

instance decidableIsBoolean (north south : ToolConversionData) :
    Decidable (IsBoolean north south) := inferInstanceAs (Decidable (_ ∧ _))

instance decidableIsIdentity (north south : ToolConversionData) :
    Decidable (IsIdentity north south) := inferInstanceAs (Decidable (_ ∧ _))

/-- What the tool promises of the conversion index of a pair. -/
structure Resolved (scaleDataList : List GoString) (north south : ToolConversionData) (c : ℕ) :
    Prop where
  bound : c < scaleDataList.length + 2 ∨ c = 65535
  boolean : IsBoolean north south → c = 1
  identity : ¬ IsBoolean north south → IsIdentity north south → c = 0
  enumeration : ¬ IsBoolean north south → ∀ ns ss,
    unmarshalStrings north.enumValues = some ns → unmarshalStrings south.enumValues = some ss →
      ns.length = ss.length →
        ∃ k text, c = k + 2 ∧ enumMap ns ss = some text ∧ scaleDataList[k]? = some text

section Indices

variable {list list' : List GoString} {text : GoString} {i c : ℕ}
variable {north south : ToolConversionData} {numbers : ExactNumbers} {tool tool' : ConversionTool}

theorem Resolved.mono (h : Resolved list north south c) (hlist : list <+: list') :
    Resolved list' north south c where
  bound := by
    have hlength := hlist.length_le
    rcases h.bound with hlt | heq
    · left
      omega
    · exact .inr heq
  boolean := h.boolean
  identity := h.identity
  enumeration hboolean ns ss hns hss hlength := by
    obtain ⟨k, text, hc, htext, hk⟩ := h.enumeration hboolean ns ss hns hss hlength
    obtain ⟨more, rfl⟩ := hlist
    refine ⟨k, text, hc, htext, ?_⟩
    rw [List.getElem?_append_left (List.getElem?_eq_some_iff.mp hk).1, hk]

/-- A list that has grown by at most one text. -/
structure Grown (list list' : List GoString) : Prop where
  isPrefix : list <+: list'
  length : list'.length ≤ list.length + 1

theorem Grown.refl (list : List GoString) : Grown list list :=
  ⟨List.prefix_refl list, Nat.le_succ _⟩

theorem indexOfText_grown (h : indexOfText list text = (list', i)) :
    Grown list list' ∧ list'[i]? = some text := by
  unfold indexOfText at h
  split at h
  · next j hfind =>
    obtain ⟨rfl, rfl⟩ := Prod.mk.inj h
    obtain ⟨hj, htext, -⟩ := List.findIdx?_eq_some_iff_getElem.mp hfind
    refine ⟨Grown.refl _, ?_⟩
    rw [List.getElem?_eq_getElem hj]
    exact congrArg some (by simpa using htext)
  · obtain ⟨rfl, rfl⟩ := Prod.mk.inj h
    refine ⟨⟨List.prefix_append _ _, by simp⟩, ?_⟩
    simp

/-- The index of a scaling text, or the one that no text has. -/
theorem getConversionTypeForLinear_grown {nbdUnit sbdUnit : GoString}
    (h : getConversionTypeForLinear numbers tool nbdUnit sbdUnit = (tool', i)) :
    Grown tool.scaleDataList tool'.scaleDataList ∧
      (i < tool'.scaleDataList.length ∨ i = unresolved) := by
  unfold getConversionTypeForLinear at h
  split at h
  · obtain ⟨rfl, rfl⟩ := Prod.mk.inj h
    exact ⟨Grown.refl _, .inr rfl⟩
  · next unitScaleList elem hunits =>
    dsimp only at h
    generalize hfound : indexOfText tool.scaleDataList
      (str "[" ++ elem.a ++ str ", " ++ elem.b ++ str "]") = found at h
    obtain ⟨list', j⟩ := found
    obtain ⟨rfl, rfl⟩ := Prod.mk.inj h
    obtain ⟨hgrown, htext⟩ := indexOfText_grown hfound
    exact ⟨hgrown, .inl (List.getElem?_eq_some_iff.mp htext).1⟩

theorem getConversionTypeForEnum_grown {nbdEnums sbdEnums : GoString}
    (h : getConversionTypeForEnum tool nbdEnums sbdEnums = some (tool', i)) :
    Grown tool.scaleDataList tool'.scaleDataList ∧
      (i < tool'.scaleDataList.length ∨ i = unresolved) ∧
      ∀ ns ss, unmarshalStrings nbdEnums = some ns → unmarshalStrings sbdEnums = some ss →
        ns.length = ss.length →
          ∃ text, enumMap ns ss = some text ∧ tool'.scaleDataList[i]? = some text := by
  unfold getConversionTypeForEnum at h
  split at h
  · next hns =>
    obtain ⟨rfl, rfl⟩ := Prod.mk.inj (Option.some.inj h)
    refine ⟨Grown.refl _, .inr rfl, ?_⟩
    intro ns ss hsome
    simp [hns] at hsome
  · next ns hns =>
    split at h
    · next hss =>
      obtain ⟨rfl, rfl⟩ := Prod.mk.inj (Option.some.inj h)
      refine ⟨Grown.refl _, .inr rfl, ?_⟩
      intro ns ss hnsome hsome
      simp [hss] at hsome
    · next ss hss =>
      split at h
      · next hlength =>
        obtain ⟨rfl, rfl⟩ := Prod.mk.inj (Option.some.inj h)
        refine ⟨Grown.refl _, .inr rfl, ?_⟩
        intro ns' ss' hns' hss' hlength'
        obtain rfl := Option.some.inj (hns.symm.trans hns')
        obtain rfl := Option.some.inj (hss.symm.trans hss')
        exact absurd hlength' hlength
      · obtain ⟨text, htext, h⟩ := Option.map_eq_some_iff.mp h
        generalize hfound : indexOfText tool.scaleDataList text = found at h
        obtain ⟨list', j⟩ := found
        obtain ⟨rfl, rfl⟩ := Prod.mk.inj h
        obtain ⟨hgrown, hindex⟩ := indexOfText_grown hfound
        refine ⟨hgrown, .inl (List.getElem?_eq_some_iff.mp hindex).1, ?_⟩
        intro ns' ss' hns' hss' hlength'
        obtain rfl := Option.some.inj (hns.symm.trans hns')
        obtain rfl := Option.some.inj (hss.symm.trans hss')
        exact ⟨text, htext, hindex⟩

theorem unmarshalStrings_ne_nil {s : GoString} {ns : List GoString}
    (h : unmarshalStrings s = some ns) : s ≠ [] := by
  have hnone : unmarshalStrings [] = none := by decide
  rintro rfl
  rw [hnone] at h
  exact absurd h (by simp)

/-- One pair adds at most one scaling text, and its conversion index is that of its kind. -/
theorem conversionType_resolved (h : conversionType numbers tool north south = some (tool', c)) :
    Grown tool.scaleDataList tool'.scaleDataList ∧
      Resolved tool'.scaleDataList north south c := by
  have hindex : ∀ {j : ℕ} {l : List GoString}, j < l.length ∨ j = unresolved →
      j + 2 < l.length + 2 ∨ j + 2 = 65535 := by
    rintro j l (hlt | rfl)
    · left
      omega
    · exact .inr rfl
  unfold conversionType at h
  split at h
  · next hboolean =>
    obtain ⟨rfl, rfl⟩ := Prod.mk.inj (Option.some.inj h)
    refine ⟨Grown.refl _, .inl (by omega), fun _ => rfl, ?_, ?_⟩
    · intro hnot
      exact absurd hboolean hnot
    · intro hnot
      exact absurd hboolean hnot
  · next hboolean =>
    split at h
    · next hidentity =>
      obtain ⟨rfl, rfl⟩ := Prod.mk.inj (Option.some.inj h)
      refine ⟨Grown.refl _, .inl (by omega), fun hyes => absurd hyes hboolean, fun _ _ => rfl, ?_⟩
      intro _ ns ss hns
      exact absurd hidentity.2 (unmarshalStrings_ne_nil hns)
    · next hidentity =>
      split at h
      · next henums =>
        obtain ⟨⟨tool₁, j⟩, hfound, h⟩ := Option.map_eq_some_iff.mp h
        obtain ⟨rfl, rfl⟩ := Prod.mk.inj h
        obtain ⟨hgrown, hbound, henum⟩ := getConversionTypeForEnum_grown hfound
        refine ⟨hgrown, hindex hbound, fun hyes => absurd hyes hboolean,
          fun _ hyes => absurd hyes hidentity, ?_⟩
        intro _ ns ss hns hss hlength
        obtain ⟨text, htext, hj⟩ := henum ns ss hns hss hlength
        exact ⟨j, text, rfl, htext, hj⟩
      · next henums =>
        have hno : ∀ ns ss, unmarshalStrings north.enumValues = some ns →
            unmarshalStrings south.enumValues ≠ some ss := fun ns ss hns hss =>
          henums ⟨unmarshalStrings_ne_nil hns, unmarshalStrings_ne_nil hss⟩
        split at h
        · generalize hfound : getConversionTypeForLinear numbers tool north.unit south.unit =
            found at h
          obtain ⟨tool₁, j⟩ := found
          obtain ⟨rfl, rfl⟩ := Prod.mk.inj (Option.some.inj h)
          obtain ⟨hgrown, hbound⟩ := getConversionTypeForLinear_grown hfound
          exact ⟨hgrown, hindex hbound, fun hyes => absurd hyes hboolean,
            fun _ hyes => absurd hyes hidentity,
            fun _ ns ss hns hss => absurd hss (hno ns ss hns)⟩
        · obtain ⟨rfl, rfl⟩ := Prod.mk.inj (Option.some.inj h)
          exact ⟨Grown.refl _, .inr rfl, fun hyes => absurd hyes hboolean,
            fun _ hyes => absurd hyes hidentity,
            fun _ ns ss hns hss => absurd hss (hno ns ss hns)⟩

end Indices

/-! ## The rows of a mapping -/

/-- An element of the mapping, and the indices that its signals are given. -/
structure MappedPair where
  signals : SignalMapElem
  mapIndex : ℕ
  conversionIndex : ℕ

def MappedPair.north (nbd : List ToolConversionData) (p : MappedPair) : ToolConversionData :=
  getDomainData nbd p.signals.north

def MappedPair.south (sbd : List ToolConversionData) (p : MappedPair) : ToolConversionData :=
  getDomainData sbd p.signals.south

def MappedPair.rows (nbd sbd : List ToolConversionData) (p : MappedPair) : List ConversionRow :=
  [feederData (p.north nbd) p.mapIndex p.conversionIndex,
    feederData (p.south sbd) p.mapIndex p.conversionIndex]

section Rows

variable {numbers : ExactNumbers} {nbd sbd : List ToolConversionData}
variable {tool tool' : ConversionTool} {rows : List ConversionRow}

/-- The rows of a mapping are those of its pairs. -/
structure Joined (nbd sbd : List ToolConversionData) (list : List (SignalMapElem × ℕ))
    (tool tool' : ConversionTool) (rows : List ConversionRow) (pairs : List MappedPair) :
    Prop where
  signals : pairs.map (fun p => (p.signals, p.mapIndex)) =
    list.filter fun x => Complete nbd sbd x.1
  rows : rows = pairs.flatMap (MappedPair.rows nbd sbd)
  isPrefix : tool.scaleDataList <+: tool'.scaleDataList
  length : tool'.scaleDataList.length ≤ tool.scaleDataList.length + pairs.length
  resolved : ∀ p ∈ pairs,
    Resolved tool'.scaleDataList (p.north nbd) (p.south sbd) p.conversionIndex

theorem populateRows_joined {list : List (SignalMapElem × ℕ)}
    (h : populateRows numbers nbd sbd tool list = some (tool', rows)) :
    ∃ pairs, Joined nbd sbd list tool tool' rows pairs := by
  induction list generalizing tool rows with
  | nil =>
    obtain ⟨rfl, rfl⟩ := Prod.mk.inj (Option.some.inj h)
    exact ⟨[], rfl, rfl, List.prefix_refl _, Nat.le_refl _, nofun⟩
  | cons x list ih =>
    obtain ⟨elem, i⟩ := x
    simp only [populateRows, Option.bind_eq_bind, Option.bind_eq_some_iff, Option.some.injEq,
      Prod.mk.injEq] at h
    obtain ⟨⟨tool₁, rows₁⟩, hstep, ⟨tool₂, more⟩, hrest, rfl, rfl⟩ := h
    obtain ⟨pairs, hsignals, hrows, hprefix, hlength, hresolved⟩ := ih hrest
    unfold populateElement at hstep
    split at hstep
    · next hcomplete =>
      obtain ⟨⟨tool₀, c⟩, htype, heq⟩ := Option.map_eq_some_iff.mp hstep
      obtain ⟨rfl, rfl⟩ := Prod.mk.inj heq
      obtain ⟨hgrown, hpair⟩ := conversionType_resolved htype
      refine ⟨⟨elem, i, c⟩ :: pairs, ?_, ?_, hgrown.isPrefix.trans hprefix, ?_, ?_⟩
      · rw [List.map_cons, hsignals, List.filter_cons_of_pos (by simpa using hcomplete)]
      · rw [List.flatMap_cons, hrows]
        rfl
      · have hone := hgrown.length
        rw [List.length_cons]
        dsimp only at hone hlength ⊢
        omega
      · exact List.forall_mem_cons.mpr ⟨hpair.mono hprefix, hresolved⟩
    · next hcomplete =>
      obtain ⟨rfl, rfl⟩ := Prod.mk.inj (Option.some.inj hstep)
      refine ⟨pairs, ?_, by rw [hrows]; rfl, hprefix, hlength, hresolved⟩
      rw [hsignals, List.filter_cons_of_neg (by simpa using hcomplete)]

end Rows

end VissServer.Feeder

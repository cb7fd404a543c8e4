import Mathlib.Algebra.Group.Nat.Even
import VissServer.Feeder.CoefficientTexts
import VissServer.Feeder.DomainIsomorphism

/-!
The coefficients that the tool gives a pair of units. An element of the unit list that is used
against its direction is inverted in place, but keeps the order of its units.
-/
namespace VissServer.Feeder

open Go

/-! ## Inverted coefficients -/

section Inverses

variable {numbers : ExactNumbers} {elem elem' : UnitScaleElem} {A B : ℚ} {m : ℕ}

/-- The numbers that the texts of an element denote. -/
structure Coefficients (numbers : ExactNumbers) (elem : UnitScaleElem) (A B : ℚ) : Prop where
  slope : numbers.parseFloat elem.a = some (.fin A)
  offset : numbers.parseFloat elem.b = some (.fin B)
  nonzero : A ≠ 0

/-- The inverted coefficients can be printed without rounding. -/
def Invertible (A B : ℚ) : Prop := IsDecimal (1 / A) ∧ IsDecimal (-B / A)

/-- The coefficients after some inversions. -/
def coefficientsAfter (inversions : ℕ) (A B : ℚ) : ℚ × ℚ :=
  if Even inversions then (A, B) else (1 / A, -B / A)

/-- The inverted coefficients are the same ones. -/
def SelfInverse (A B : ℚ) : Prop := A = 1 ∧ B = 0 ∨ A = -1

theorem coefficientsAfter_succ (hA : A ≠ 0) (m : ℕ) (B : ℚ) :
    coefficientsAfter (m + 1) A B =
      (1 / (coefficientsAfter m A B).1,
        -(coefficientsAfter m A B).2 / (coefficientsAfter m A B).1) := by
  have hslope : 1 / (1 / A) = A := by field_simp
  have hoffset : -(-B / A) / (1 / A) = B := by field_simp
  by_cases heven : Even m
  · rw [coefficientsAfter, coefficientsAfter, if_pos heven,
      if_neg (by simpa [Nat.even_add_one] using heven)]
  · rw [coefficientsAfter, coefficientsAfter, if_neg heven,
      if_pos (by simpa [Nat.even_add_one] using heven), hslope, hoffset]

theorem inverse_eq_iff (hA : A ≠ 0) : 1 / A = A ∧ -B / A = B ↔ SelfInverse A B := by
  constructor
  · rintro ⟨hslope, hoffset⟩
    have hsquare : A * A = 1 := by
      field_simp at hslope
      linarith
    rcases mul_self_eq_one_iff.mp hsquare with rfl | rfl
    · exact .inl ⟨rfl, by linarith⟩
    · exact .inr rfl
  · rintro (⟨rfl, rfl⟩ | rfl)
    · norm_num
    · norm_num

/-- Some inversions give the coefficients in an order as two of them do. -/
theorem coefficientsAfter_add_iff (hA : A ≠ 0) (m r : ℕ) :
    coefficientsAfter (m + r) A B = coefficientsAfter r A B ↔ Even m ∨ SelfInverse A B := by
  by_cases hm : Even m
  · have hsame : Even (m + r) ↔ Even r := by simp [Nat.even_add, hm]
    simp only [coefficientsAfter, hsame, hm, true_or]
  · have hother : Even (m + r) ↔ ¬ Even r := by simp [Nat.even_add, hm]
    rw [← inverse_eq_iff hA, or_iff_right hm]
    by_cases hr : Even r
    · simp [coefficientsAfter, hother, hr]
    · simp only [coefficientsAfter, hother, hr, not_false_iff, if_true, if_false, Prod.mk.injEq]
      exact ⟨fun h => ⟨h.1.symm, h.2.symm⟩, fun h => ⟨h.1.symm, h.2.symm⟩⟩

theorem isDecimal_coefficientsAfter (h : Coefficients numbers elem A B)
    (hinvertible : Invertible A B) (m : ℕ) :
    IsDecimal (coefficientsAfter m A B).1 ∧ IsDecimal (coefficientsAfter m A B).2 := by
  unfold coefficientsAfter
  split
  · exact ⟨numbers.decimal h.slope, numbers.decimal h.offset⟩
  · exact hinvertible

theorem coefficientsAfter_ne_zero (hA : A ≠ 0) (m : ℕ) (B : ℚ) :
    (coefficientsAfter m A B).1 ≠ 0 := by
  unfold coefficientsAfter
  split
  · exact hA
  · exact one_div_ne_zero hA

/-- What some inversions have made of an element. -/
structure InvertedTimes (numbers : ExactNumbers) (elem elem' : UnitScaleElem) (A B : ℚ) (m : ℕ) :
    Prop where
  unit1 : elem'.unit1 = elem.unit1
  unit2 : elem'.unit2 = elem.unit2
  coefficients : Coefficients numbers elem' (coefficientsAfter m A B).1
    (coefficientsAfter m A B).2
  untouched : m = 0 → elem' = elem
  printed : m ≠ 0 → Numeral elem'.a ∧ Numeral elem'.b

theorem InvertedTimes.zero (h : Coefficients numbers elem A B) :
    InvertedTimes numbers elem elem A B 0 :=
  ⟨rfl, rfl, by simpa [coefficientsAfter] using h, fun _ => rfl, fun hne => absurd rfl hne⟩

theorem InvertedTimes.invert (hprint : numbers.PrintsNumerals)
    (h : Coefficients numbers elem A B) (hinvertible : Invertible A B)
    (hm : InvertedTimes numbers elem elem' A B m) :
    ∃ inverted, invertCoefficients numbers elem' = some inverted ∧
      InvertedTimes numbers elem inverted A B (m + 1) := by
  have hdecimal := isDecimal_coefficientsAfter h hinvertible (m + 1)
  have hnonzero := coefficientsAfter_ne_zero h.nonzero (m + 1) B
  rw [coefficientsAfter_succ h.nonzero] at hdecimal hnonzero
  obtain ⟨hslope, hoffset, hne⟩ := hm.coefficients
  refine ⟨{ elem' with
    a := numbers.formatFloat (.fin (1 / (coefficientsAfter m A B).1))
    b := numbers.formatFloat
      (.fin (-(coefficientsAfter m A B).2 / (coefficientsAfter m A B).1)) }, ?_, ?_⟩
  · simp only [invertCoefficients, hslope, hoffset, Option.bind_eq_bind, Option.bind_some,
      Float64.neg_fin, Float64.fin_div hne]
  · refine ⟨hm.unit1, hm.unit2, ?_, fun hzero => absurd hzero (Nat.succ_ne_zero m), fun _ => ?_⟩
    · rw [coefficientsAfter_succ h.nonzero]
      exact ⟨numbers.parse_format hdecimal.1, numbers.parse_format hdecimal.2, hnonzero⟩
    · exact ⟨hprint _ hdecimal.1, hprint _ hdecimal.2⟩

/-- What the feeder decodes from the coefficients of an element. -/
theorem InvertedTimes.decodesTo_iff (hm : InvertedTimes numbers elem elem' A B m) (C D : ℚ) :
    DecodesTo numbers (coefficientsText elem'.a elem'.b) C D ↔
      if m = 0 then DecodesTo numbers (coefficientsText elem.a elem.b) C D
      else coefficientsAfter m A B = (C, D) := by
  split
  · next hzero => rw [hm.untouched hzero]
  · next hne =>
    obtain ⟨ha, hb⟩ := hm.printed hne
    obtain ⟨hslope, hoffset, -⟩ := hm.coefficients
    have hdecodes : DecodesTo numbers (coefficientsText elem'.a elem'.b)
        (coefficientsAfter m A B).1 (coefficientsAfter m A B).2 := by
      refine ⟨[.num elem'.a, .num elem'.b], ?_, hslope, hoffset⟩
      rw [parseText_coefficients ha hb]
      rfl
    constructor
    · intro h
      obtain ⟨hC, hD⟩ := hdecodes.unique h
      exact Prod.ext hC hD
    · intro h
      rw [h] at hdecodes
      exact hdecodes

end Inverses

/-! ## The element of two units -/

section Units

variable {numbers : ExactNumbers} {nbdUnit sbdUnit n s : GoString}
variable {units units' : List UnitScaleElem} {elem elem' used : UnitScaleElem} {A B : ℚ} {m : ℕ}

/-- An element for two units, in either direction. -/
def Relates (nbdUnit sbdUnit : GoString) (elem : UnitScaleElem) : Prop :=
  elem.unit1 = nbdUnit ∧ elem.unit2 = sbdUnit ∨ elem.unit1 = sbdUnit ∧ elem.unit2 = nbdUnit

instance decidableRelates (nbdUnit sbdUnit : GoString) (elem : UnitScaleElem) :
    Decidable (Relates nbdUnit sbdUnit elem) := inferInstanceAs (Decidable (_ ∨ _))

theorem Relates.congr (h : elem'.unit1 = elem.unit1 ∧ elem'.unit2 = elem.unit2) :
    Relates n s elem' ↔ Relates n s elem := by
  rw [Relates, Relates, h.1, h.2]

/-- Two pairs of units with a common element have the same elements. -/
theorem Relates.same (h : Relates n s elem) (h' : Relates nbdUnit sbdUnit elem)
    (e : UnitScaleElem) : Relates n s e ↔ Relates nbdUnit sbdUnit e := by
  unfold Relates
  rcases h with ⟨rfl, rfl⟩ | ⟨rfl, rfl⟩
  · rcases h' with ⟨rfl, rfl⟩ | ⟨rfl, rfl⟩
    · exact Iff.rfl
    · exact or_comm
  · rcases h' with ⟨rfl, rfl⟩ | ⟨rfl, rfl⟩
    · exact or_comm
    · exact Iff.rfl

/-- How an element is used for two units. -/
def UsedAs (numbers : ExactNumbers) (sbdUnit : GoString) (elem used : UnitScaleElem) : Prop :=
  (if elem.unit1 = sbdUnit then invertCoefficients numbers elem else some elem) = some used

theorem UsedAs.sameUnits (h : UsedAs numbers sbdUnit elem used) :
    used.unit1 = elem.unit1 ∧ used.unit2 = elem.unit2 := by
  unfold UsedAs at h
  split at h
  · simp only [invertCoefficients, Option.bind_eq_bind, Option.bind_eq_some_iff,
      Option.some.injEq] at h
    obtain ⟨-, -, -, -, rfl⟩ := h
    exact ⟨rfl, rfl⟩
  · obtain rfl := Option.some.inj h
    exact ⟨rfl, rfl⟩

theorem scaleUnits_cons (numbers : ExactNumbers) (nbdUnit sbdUnit : GoString) (e : UnitScaleElem)
    (units : List UnitScaleElem) :
    scaleUnits numbers nbdUnit sbdUnit (e :: units) =
      if Relates nbdUnit sbdUnit e then
        (if e.unit1 = sbdUnit then invertCoefficients numbers e else some e).map
          fun elem => (elem :: units, elem)
      else (scaleUnits numbers nbdUnit sbdUnit units).map fun found => (e :: found.1, found.2) :=
  rfl

/-- The element for two units is used; that of other units is left as it is. -/
theorem scaleUnits_related (h : scaleUnits numbers nbdUnit sbdUnit units = some (units', used))
    (hfind : units.find? (fun e => Relates n s e) = some elem) :
    (Relates nbdUnit sbdUnit elem ∧ UsedAs numbers sbdUnit elem used ∧
        units'.find? (fun e => Relates n s e) = some used) ∨
      (¬ Relates nbdUnit sbdUnit elem ∧ units'.find? (fun e => Relates n s e) = some elem) := by
  induction units generalizing units' with
  | nil => cases hfind
  | cons e units ih =>
    rw [scaleUnits_cons] at h
    split at h
    · next hrelates =>
      obtain ⟨used', hused, heq⟩ := Option.map_eq_some_iff.mp h
      obtain ⟨rfl, rfl⟩ := Prod.mk.inj heq
      have hunit : UsedAs numbers sbdUnit e used' := hused
      by_cases hns : Relates n s e
      · rw [List.find?_cons_of_pos (by simpa using hns)] at hfind
        obtain rfl := Option.some.inj hfind
        exact .inl ⟨hrelates, hused, List.find?_cons_of_pos
          (by simpa using (Relates.congr hunit.sameUnits).mpr hns)⟩
      · rw [List.find?_cons_of_neg (by simpa using hns)] at hfind
        have helem : Relates n s elem := by simpa using List.find?_some hfind
        have hnsUsed : ¬ Relates n s used' := fun hu => hns ((Relates.congr hunit.sameUnits).mp hu)
        refine .inr ⟨fun hrel => hns ((helem.same hrel e).mpr hrelates), ?_⟩
        rwa [List.find?_cons_of_neg (by simpa using hnsUsed)]
    · next hrelates =>
      obtain ⟨⟨rest, used'⟩, hrest, heq⟩ := Option.map_eq_some_iff.mp h
      obtain ⟨rfl, rfl⟩ := Prod.mk.inj heq
      by_cases hns : Relates n s e
      · rw [List.find?_cons_of_pos (by simpa using hns)] at hfind ⊢
        obtain rfl := Option.some.inj hfind
        exact .inr ⟨hrelates, rfl⟩
      · rw [List.find?_cons_of_neg (by simpa using hns)] at hfind ⊢
        exact ih hrest hfind

/-- Units with an element that can be used are found. -/
theorem scaleUnits_found (hfind : units.find? (fun e => Relates nbdUnit sbdUnit e) = some elem)
    (hused : UsedAs numbers sbdUnit elem used) :
    ∃ units', scaleUnits numbers nbdUnit sbdUnit units = some (units', used) := by
  induction units with
  | nil => cases hfind
  | cons e units ih =>
    rw [scaleUnits_cons]
    by_cases hrelates : Relates nbdUnit sbdUnit e
    · rw [List.find?_cons_of_pos (by simpa using hrelates)] at hfind
      obtain rfl := Option.some.inj hfind
      refine ⟨used :: units, ?_⟩
      rw [if_pos hrelates, show _ = some used from hused]
      rfl
    · rw [List.find?_cons_of_neg (by simpa using hrelates)] at hfind
      obtain ⟨units', hunits⟩ := ih hfind
      refine ⟨e :: units', ?_⟩
      rw [if_neg hrelates, hunits]
      rfl

/-- One more inversion, where the element is used against its direction. -/
theorem InvertedTimes.use (hprint : numbers.PrintsNumerals) (h : Coefficients numbers elem A B)
    (hinvertible : Invertible A B) (hm : InvertedTimes numbers elem elem' A B m) :
    ∃ used, UsedAs numbers sbdUnit elem' used ∧
      InvertedTimes numbers elem used A B (m + if elem.unit1 = sbdUnit then 1 else 0) := by
  unfold UsedAs
  rw [hm.unit1]
  split
  · exact hm.invert hprint h hinvertible
  · exact ⟨elem', rfl, hm⟩

/-- The list after some inversions of the element for two units. -/
def InvertedIn (numbers : ExactNumbers) (n s : GoString) (elem : UnitScaleElem) (A B : ℚ) (m : ℕ)
    (units : List UnitScaleElem) : Prop :=
  ∃ elem', units.find? (fun e => Relates n s e) = some elem' ∧
    InvertedTimes numbers elem elem' A B m

/-- The tool finds the element for its units, and counts no inversion for other ones. -/
theorem InvertedIn.scale (hprint : numbers.PrintsNumerals) (h : Coefficients numbers elem A B)
    (hinvertible : Invertible A B) (hin : InvertedIn numbers n s elem A B m units) :
    (Relates nbdUnit sbdUnit elem → ∃ units' used,
        scaleUnits numbers nbdUnit sbdUnit units = some (units', used) ∧
          InvertedTimes numbers elem used A B (m + if elem.unit1 = sbdUnit then 1 else 0) ∧
            InvertedIn numbers n s elem A B (m + if elem.unit1 = sbdUnit then 1 else 0) units') ∧
      (¬ Relates nbdUnit sbdUnit elem → ∀ units' used,
        scaleUnits numbers nbdUnit sbdUnit units = some (units', used) →
          InvertedIn numbers n s elem A B m units') := by
  obtain ⟨elem', hfind, hm⟩ := hin
  have hrelated : Relates nbdUnit sbdUnit elem' ↔ Relates nbdUnit sbdUnit elem :=
    Relates.congr ⟨hm.unit1, hm.unit2⟩
  have hns : Relates n s elem' := by simpa using List.find?_some hfind
  constructor
  · intro hrel
    obtain ⟨used, hused, hinverted⟩ := hm.use hprint h hinvertible
    have hfind' : units.find? (fun e => Relates nbdUnit sbdUnit e) = some elem' := by
      simpa only [hns.same (hrelated.mpr hrel)] using hfind
    obtain ⟨units', hscale⟩ := scaleUnits_found hfind' hused
    refine ⟨units', used, hscale, hinverted, used, ?_, hinverted⟩
    rcases scaleUnits_related hscale hfind with ⟨-, -, hafter⟩ | ⟨hnot, -⟩
    · exact hafter
    · exact absurd (hrelated.mpr hrel) hnot
  · intro hnot units' used hscale
    rcases scaleUnits_related hscale hfind with ⟨hrel, -⟩ | ⟨-, hafter⟩
    · exact absurd (hrelated.mp hrel) hnot
    · exact ⟨elem', hafter, hm⟩

end Units

/-! ## Runs of the tool -/

section Runs

variable {numbers : ExactNumbers} {n s : GoString} {tool tool' : ConversionTool}
variable {elem : UnitScaleElem} {A B : ℚ} {m c : ℕ} {north south : ToolConversionData}
variable {rows : List ConversionRow}

/-- A pair of signals that the tool gives coefficients. -/
def IsLinear (north south : ToolConversionData) : Prop :=
  ¬ IsBoolean north south ∧ ¬ IsIdentity north south ∧
    ¬ (north.enumValues ≠ [] ∧ south.enumValues ≠ []) ∧
      (north.unit ≠ [] ∧ south.unit ≠ [] ∧ south.unit ≠ north.unit)

instance decidableIsLinear (north south : ToolConversionData) :
    Decidable (IsLinear north south) := inferInstanceAs (Decidable (_ ∧ _))

/-- A pair of signals for which the tool inverts an element. -/
def Inverts (elem : UnitScaleElem) (north south : ToolConversionData) : Prop :=
  IsLinear north south ∧ elem.unit1 = south.unit ∧ elem.unit2 = north.unit

instance decidableInverts (elem : UnitScaleElem) (north south : ToolConversionData) :
    Decidable (Inverts elem north south) := inferInstanceAs (Decidable (_ ∧ _))

/-- A pair of signals that is mapped, with its index in the mapping. -/
structure SignalPair where
  nbdtData : ToolConversionData
  sbdtData : ToolConversionData
  mapIndex : ℕ

/-- The pairs that the tool has processed one after another. -/
def convertPairs (numbers : ExactNumbers) :
    ConversionTool → List SignalPair → MayPanic (ConversionTool × List ConversionRow)
  | tool, [] => some (tool, [])
  | tool, p :: pairs => do
      let (tool, rows) ← createFeederConversionData numbers tool p.nbdtData p.sbdtData p.mapIndex
      let (tool, more) ← convertPairs numbers tool pairs
      some (tool, rows ++ more)

/-- How often an element is inverted. -/
def inversions (elem : UnitScaleElem) (pairs : List SignalPair) : ℕ :=
  pairs.countP fun p => Inverts elem p.nbdtData p.sbdtData

theorem getConversionTypeForEnum_units {nbdEnums sbdEnums : GoString} {i : ℕ}
    (h : getConversionTypeForEnum tool nbdEnums sbdEnums = some (tool', i)) :
    tool'.unitScaleList = tool.unitScaleList := by
  unfold getConversionTypeForEnum at h
  split at h
  · obtain ⟨rfl, -⟩ := Prod.mk.inj (Option.some.inj h)
    rfl
  · split at h
    · obtain ⟨rfl, -⟩ := Prod.mk.inj (Option.some.inj h)
      rfl
    · split at h
      · obtain ⟨rfl, -⟩ := Prod.mk.inj (Option.some.inj h)
        rfl
      · obtain ⟨text, -, h⟩ := Option.map_eq_some_iff.mp h
        obtain ⟨rfl, -⟩ := Prod.mk.inj h
        rfl

/-- Only pairs with coefficients change the list of units. -/
theorem conversionType_units (h : conversionType numbers tool north south = some (tool', c)) :
    tool' = (getConversionTypeForLinear numbers tool north.unit south.unit).1 ∧
        IsLinear north south ∨
      tool'.unitScaleList = tool.unitScaleList ∧ ¬ IsLinear north south := by
  unfold conversionType at h
  split at h
  · next hboolean =>
    obtain ⟨rfl, -⟩ := Prod.mk.inj (Option.some.inj h)
    exact .inr ⟨rfl, fun hlinear => hlinear.1 hboolean⟩
  · next hboolean =>
    split at h
    · next hidentity =>
      obtain ⟨rfl, -⟩ := Prod.mk.inj (Option.some.inj h)
      exact .inr ⟨rfl, fun hlinear => hlinear.2.1 hidentity⟩
    · next hidentity =>
      split at h
      · next henums =>
        obtain ⟨⟨tool₁, j⟩, hfound, h⟩ := Option.map_eq_some_iff.mp h
        obtain ⟨rfl, -⟩ := Prod.mk.inj h
        exact .inr ⟨getConversionTypeForEnum_units hfound, fun hlinear => hlinear.2.2.1 henums⟩
      · next henums =>
        split at h
        · next hunits =>
          obtain ⟨rfl, -⟩ := Prod.mk.inj (Option.some.inj h)
          exact .inl ⟨rfl, hboolean, hidentity, henums, hunits⟩
        · next hunits =>
          obtain ⟨rfl, -⟩ := Prod.mk.inj (Option.some.inj h)
          exact .inr ⟨rfl, fun hlinear => hunits hlinear.2.2.2⟩

theorem inverts_iff (hlinear : IsLinear north south) :
    Inverts elem north south ↔ Relates north.unit south.unit elem ∧ elem.unit1 = south.unit := by
  have hne : south.unit ≠ north.unit := hlinear.2.2.2.2.2
  unfold Inverts Relates
  constructor
  · rintro ⟨-, h1, h2⟩
    exact ⟨.inr ⟨h1, h2⟩, h1⟩
  · rintro ⟨⟨h1, -⟩ | ⟨h1, h2⟩, hsouth⟩
    · exact absurd (hsouth.symm.trans h1) hne
    · exact ⟨hlinear, h1, h2⟩

/-- One pair inverts the element for two units, or leaves it as it is. -/
theorem InvertedIn.step (hprint : numbers.PrintsNumerals) (hcoeff : Coefficients numbers elem A B)
    (hinvertible : Invertible A B) (hin : InvertedIn numbers n s elem A B m tool.unitScaleList)
    (h : conversionType numbers tool north south = some (tool', c)) :
    InvertedIn numbers n s elem A B (m + if Inverts elem north south then 1 else 0)
      tool'.unitScaleList := by
  rcases conversionType_units h with ⟨rfl, hlinear⟩ | ⟨hunits, hnot⟩
  · obtain ⟨hused, hother⟩ := @InvertedIn.scale _ north.unit south.unit _ _ _ _ _ _ _ hprint
      hcoeff hinvertible hin
    simp only [inverts_iff hlinear]
    unfold getConversionTypeForLinear
    by_cases hrel : Relates north.unit south.unit elem
    · obtain ⟨units', used, hscale, -, hafter⟩ := hused hrel
      rw [hscale]
      simpa only [hrel, true_and] using hafter
    · rw [if_neg fun hand => hrel hand.1]
      split
      · exact hin
      · next units' used hscale => exact hother hrel _ _ hscale
  · rw [if_neg fun hinverts => hnot hinverts.1, hunits]
    exact hin

theorem InvertedIn.run {pairs : List SignalPair} (hprint : numbers.PrintsNumerals)
    (hcoeff : Coefficients numbers elem A B) (hinvertible : Invertible A B)
    (hin : InvertedIn numbers n s elem A B m tool.unitScaleList)
    (h : convertPairs numbers tool pairs = some (tool', rows)) :
    InvertedIn numbers n s elem A B (m + inversions elem pairs) tool'.unitScaleList := by
  induction pairs generalizing tool m rows with
  | nil =>
    obtain ⟨rfl, -⟩ := Prod.mk.inj (Option.some.inj h)
    exact hin
  | cons p pairs ih =>
    simp only [convertPairs, createFeederConversionData, Option.bind_eq_bind,
      Option.bind_eq_some_iff, Option.map_eq_some_iff, Option.some.injEq] at h
    obtain ⟨_, ⟨⟨tool₁, c⟩, htype, rfl⟩, ⟨tool₂, more⟩, hrest, heq⟩ := h
    obtain ⟨rfl, -⟩ := Prod.mk.inj heq
    have hafter := ih (hin.step hprint hcoeff hinvertible htype) hrest
    rw [inversions, List.countP_cons, ← inversions, Nat.add_comm (inversions elem pairs),
      ← Nat.add_assoc]
    simpa only [decide_eq_true_eq] using hafter

theorem getConversionTypeForLinear_text {nbdUnit sbdUnit : GoString} {used : UnitScaleElem}
    {units' : List UnitScaleElem} {i : ℕ}
    (hscale : scaleUnits numbers nbdUnit sbdUnit tool.unitScaleList = some (units', used))
    (h : getConversionTypeForLinear numbers tool nbdUnit sbdUnit = (tool', i)) :
    tool'.scaleDataList[i]? = some (coefficientsText used.a used.b) := by
  rw [getConversionTypeForLinear, hscale] at h
  dsimp only at h
  generalize hfound : indexOfText tool.scaleDataList
    (str "[" ++ used.a ++ str ", " ++ used.b ++ str "]") = found at h
  obtain ⟨list, j⟩ := found
  obtain ⟨rfl, rfl⟩ := Prod.mk.inj h
  exact (indexOfText_grown hfound).2

/-- The value in the southbound unit, as an element for the two units has it. -/
def southOf (sbdUnit : GoString) (elem : UnitScaleElem) (A B x : ℚ) : ℚ :=
  if elem.unit1 = sbdUnit then (x - B) / A else A * x + B

theorem southOf_eq (sbdUnit : GoString) (elem : UnitScaleElem) (A B : ℚ) :
    southOf sbdUnit elem A B = fun x =>
      (coefficientsAfter (if elem.unit1 = sbdUnit then 1 else 0) A B).1 * x +
        (coefficientsAfter (if elem.unit1 = sbdUnit then 1 else 0) A B).2 := by
  funext x
  unfold southOf
  split
  · simp only [coefficientsAfter, Nat.not_even_one, if_false]
    ring
  · simp [coefficientsAfter]

end Runs

/-! ## A pair that turns the coefficients round -/

/-- A pair of signals that has the units of the speed the other way. -/
def rawPair : SignalPair where
  nbdtData := { name := str "Vehicle.Raw", datatype := str "float", unit := str "raw" }
  sbdtData := { name := str "w", datatype := str "float", unit := str "km/h" }
  mapIndex := 0

def rawRows : List ConversionRow :=
  [⟨str "Vehicle.Raw", [], str "float", 0, 2⟩, ⟨str "w", [], str "float", 0, 2⟩]

def rawTool : ConversionTool := ⟨[str "[2, 2]"], [⟨str "km/h", str "raw", str "2", str "2"⟩]⟩

theorem convertPairs_raw :
    convertPairs decimals { unitScaleList := speedUnits } [rawPair] = some (rawTool, rawRows) := by
  with_unfolding_all rfl

theorem linear_raw :
    getConversionTypeForLinear decimals rawTool (str "km/h") (str "raw") = (rawTool, 0) := by
  rfl

theorem coefficients_speed :
    Coefficients decimals ⟨str "km/h", str "raw", str "0.5", str "-1"⟩ (1 / 2) (-1) ∧
      Invertible (1 / 2) (-1) :=
  ⟨⟨by decide +kernel, by decide +kernel, by norm_num⟩, ⟨2, 0, by norm_num⟩, ⟨2, 0, by norm_num⟩⟩

end VissServer.Feeder

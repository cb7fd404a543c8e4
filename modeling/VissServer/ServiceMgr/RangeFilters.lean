import VissServer.Go.ExactNumbers
import VissServer.ServiceMgr.Loop

/-!
Range filters on decimal numerals. A numeral with a point is of another type than one without,
and is never compared with it.
-/
namespace VissServer.ServiceMgr

open Go Utils

/-! ## Exact arithmetic -/

/-- The limits of isFloatType. -/
def minFloat : ℚ := 1175494351 / 10 ^ 47

def maxFloat : ℚ := 3402823466 * 10 ^ 29

def exactFloatType (value : GoString) : Bool :=
  match parseDecimal value with
  | none => false
  | some fVal => minFloat ≤ |fVal| ∧ |fVal| ≤ maxFloat

def compareExact (logicOp : GoString) (latVal curVal diffVal : ℚ) : Bool :=
  let v := curVal - diffVal
  if logicOp = str "eq" then v = latVal
  else if logicOp = str "ne" then v ≠ latVal
  else if logicOp = str "gt" then v > latVal
  else if logicOp = str "gte" then v ≥ latVal
  else if logicOp = str "lt" then v < latVal
  else if logicOp = str "lte" then v ≤ latVal
  else false

def exactCompareFloats (logicOp latestValue currentValue diff : GoString) : Bool :=
  match parseDecimal currentValue, parseDecimal latestValue, parseDecimal diff with
  | some curVal, some latVal, some diffVal => compareExact logicOp latVal curVal diffVal
  | _, _, _ => false

/-- The arithmetic on floating point values without rounding. -/
def Moment.exact (m : Moment) : Moment :=
  { m with
    isFloatType := exactFloatType
    compareFloats := exactCompareFloats }

/-! ## Numerals -/

/-- A numeral without a point, of 64 bits. -/
def IsInteger (s : GoString) : Prop := (atoi s).isSome = true
  deriving Decidable

/-- A numeral with a point, of the magnitude of a float32. -/
def IsFraction (s : GoString) : Prop :=
  46 ∈ s ∧ ∃ q ∈ parseDecimal s, minFloat ≤ |q| ∧ |q| ≤ maxFloat
  deriving Decidable

def IsNumeral (s : GoString) : Prop := IsInteger s ∨ IsFraction s
  deriving Decidable

def SameForm (s t : GoString) : Prop := 46 ∈ s ↔ 46 ∈ t
  deriving Decidable

def rangeOps : List GoString :=
  [str "eq", str "ne", str "gt", str "gte", str "lt", str "lte"]

/-- The comparisons of numbers. -/
def Compares {α : Type*} [LE α] [LT α] (logicOp : GoString) (a b : α) : Prop :=
  (logicOp = str "eq" ∧ a = b) ∨ (logicOp = str "ne" ∧ a ≠ b) ∨
  (logicOp = str "gt" ∧ a > b) ∨ (logicOp = str "gte" ∧ a ≥ b) ∨
  (logicOp = str "lt" ∧ a < b) ∨ (logicOp = str "lte" ∧ a ≤ b)

instance (logicOp : GoString) (a b : ℚ) : Decidable (Compares logicOp a b) :=
  inferInstanceAs (Decidable (_ ∨ _))

/-- The numbers that two numerals denote meet a condition. -/
def Meets (logicOp value boundary : GoString) : Prop :=
  ∃ v ∈ parseDecimal value, ∃ b ∈ parseDecimal boundary, Compares logicOp v b
  deriving Decidable

section Numerals

variable {s value boundary logicOp : GoString} {i : ℤ}

theorem splitSign_mem {c : UInt8} (hc : c ≠ 45) (hplus : c ≠ 43) :
    c ∈ (splitSign s).2 ↔ c ∈ s := by
  cases s with
  | nil => rfl
  | cons d s =>
    rw [splitSign]
    split
    · next hd => simp [hd, hc]
    split
    · next hd => simp [hd, hplus]
    · rfl

theorem atoi_digits (h : atoi s = some i) :
    (splitSign s).2 ≠ [] ∧ (splitSign s).2.all isDigit = true ∧
      i = if (splitSign s).1 then -(digitsVal (splitSign s).2 : ℤ)
        else digitsVal (splitSign s).2 := by
  unfold atoi at h
  dsimp only at h
  split at h
  · cases h
  · next hdigits =>
    rw [not_or, not_not] at hdigits
    rw [Option.ite_none_right_eq_some] at h
    exact ⟨hdigits.1, hdigits.2, (Option.some.inj h.2).symm⟩

theorem point_notMem_of_atoi (h : atoi s = some i) : 46 ∉ s := by
  intro hmem
  have hdigit := List.all_eq_true.mp (atoi_digits h).2.1 46
    ((splitSign_mem (by decide) (by decide)).mpr hmem)
  exact absurd hdigit (by decide)

theorem parseDecimal_of_atoi (h : atoi s = some i) : parseDecimal s = some (i : ℚ) := by
  obtain ⟨hne, hdigits, hi⟩ := atoi_digits h
  have htake : (splitSign s).2.takeWhile isDigit = (splitSign s).2 :=
    List.takeWhile_eq_self_iff.mpr (List.all_eq_true.mp hdigits)
  have hdrop : (splitSign s).2.dropWhile isDigit = [] :=
    List.dropWhile_eq_nil_iff.mpr (List.all_eq_true.mp hdigits)
  unfold parseDecimal
  dsimp only
  rw [htake, hdrop, List.tail_nil, List.append_nil, if_pos ⟨.inl rfl, rfl, hne⟩, hi]
  cases (splitSign s).1 <;> simp [digitsVal]

variable {m : Moment} {latVal curVal diffVal : ℤ}

/-- What the names of the comparisons stand for. -/
theorem compares_iff {α : Type*} [LinearOrder α] {v latVal : α} :
    (if logicOp = str "eq" then decide (v = latVal)
    else if logicOp = str "ne" then decide (v ≠ latVal)
    else if logicOp = str "gt" then decide (v > latVal)
    else if logicOp = str "gte" then decide (v ≥ latVal)
    else if logicOp = str "lt" then decide (v < latVal)
    else if logicOp = str "lte" then decide (v ≤ latVal)
    else false) = true ↔ Compares logicOp v latVal := by
  unfold Compares
  split
  · next hop => simp +decide [hop]
  split
  · next hop => simp +decide [hop]
  split
  · next hop => simp +decide [hop]
  split
  · next hop => simp +decide [hop]
  split
  · next hop => simp +decide [hop]
  split
  · next hop => simp +decide [hop]
  · simp [*]

theorem compareInts_iff : compareInts logicOp latVal curVal diffVal = true ↔
    Compares logicOp (wrapInt64 (curVal - diffVal)) latVal :=
  compares_iff

theorem compareExact_iff {latVal curVal diffVal : ℚ} :
    compareExact logicOp latVal curVal diffVal = true ↔
      Compares logicOp (curVal - diffVal) latVal :=
  compares_iff

theorem compares_cast {a b : ℤ} : Compares logicOp (a : ℚ) (b : ℚ) ↔ Compares logicOp a b := by
  simp [Compares]

theorem wrapInt64_of_atoi (h : atoi s = some i) : wrapInt64 (i - 0) = i := by
  obtain ⟨hlow, hhigh⟩ := atoi_bounds h
  rw [wrapInt64, Int.emod_eq_of_lt (by omega) (by omega)]
  omega

theorem IsInteger.type (h : IsInteger s) : analyzeValueType m s = 1 := by
  unfold analyzeValueType
  exact if_pos h

theorem IsInteger.point (h : IsInteger s) : 46 ∉ s := by
  obtain ⟨i, hi⟩ := Option.isSome_iff_exists.mp h
  exact point_notMem_of_atoi hi

theorem IsFraction.type (h : IsFraction s) : analyzeValueType m.exact s = 3 := by
  obtain ⟨hpoint, q, hq, hrange⟩ := h
  have hinteger : ¬ (atoi s).isSome = true := fun h => IsInteger.point h hpoint
  have hboolean : ¬ (s = str "true" ∨ s = str "false") := by
    rintro (rfl | rfl)
    · exact absurd hpoint (by decide)
    · exact absurd hpoint (by decide)
  have hfloat : m.exact.isFloatType s = true := by
    change exactFloatType s = true
    rw [exactFloatType, Option.mem_def.mp hq]
    exact decide_eq_true hrange
  rw [analyzeValueType, if_neg hinteger, if_neg hboolean, if_pos hfloat]

theorem compareValues_integers (hvalue : IsInteger value) (hboundary : IsInteger boundary) :
    (compareValues m logicOp boundary value (str "0")).1 = true ↔ Meets logicOp value boundary := by
  rw [compareValues, hvalue.type, hboundary.type, if_neg fun hne => hne rfl, if_pos rfl]
  obtain ⟨v, hv⟩ := Option.isSome_iff_exists.mp hvalue
  obtain ⟨b, hb⟩ := Option.isSome_iff_exists.mp hboundary
  have hzero : atoi (str "0") = some 0 := by decide
  rw [hv, hb, hzero]
  dsimp only
  rw [compareInts_iff, wrapInt64_of_atoi hv, ← compares_cast]
  simp [Meets, parseDecimal_of_atoi hv, parseDecimal_of_atoi hb]

theorem compareValues_fractions (hvalue : IsFraction value) (hboundary : IsFraction boundary) :
    (compareValues m.exact logicOp boundary value (str "0")).1 = true ↔
      Meets logicOp value boundary := by
  rw [compareValues, hvalue.type, hboundary.type, if_neg fun hne => hne rfl, if_neg (by decide),
    if_pos rfl]
  obtain ⟨-, v, hv, -⟩ := hvalue
  obtain ⟨-, b, hb, -⟩ := hboundary
  have hzero : parseDecimal (str "0") = some 0 := by decide +kernel
  change exactCompareFloats logicOp boundary value (str "0") = true ↔ _
  rw [exactCompareFloats, Option.mem_def.mp hv, Option.mem_def.mp hb, hzero]
  dsimp only
  rw [compareExact_iff, sub_zero]
  simp [Meets, Option.mem_def.mp hv, Option.mem_def.mp hb]

/-- A comparison of two numerals as it is made by a range filter. -/
theorem compareValues_numerals (hvalue : IsNumeral value) (hboundary : IsNumeral boundary) :
    (compareValues m.exact logicOp boundary value (str "0")).1 = true ↔
      SameForm boundary value ∧ Meets logicOp value boundary := by
  rcases hboundary with hboundary | hboundary
  · rcases hvalue with hvalue | hvalue
    · have hform : SameForm boundary value := iff_of_false hboundary.point hvalue.point
      rw [compareValues_integers hvalue hboundary, and_iff_right hform]
    · have hform : ¬ SameForm boundary value := fun h => hboundary.point (h.mpr hvalue.1)
      rw [compareValues, hvalue.type, hboundary.type, if_pos (by decide)]
      simp [hform]
  · rcases hvalue with hvalue | hvalue
    · have hform : ¬ SameForm boundary value := fun h => hvalue.point (h.mp hboundary.1)
      rw [compareValues, hvalue.type, hboundary.type, if_pos (by decide)]
      simp [hform]
    · have hform : SameForm boundary value := iff_of_true hboundary.1 hvalue.1
      rw [compareValues_fractions hvalue hboundary, and_iff_right hform]

end Numerals

/-- A range filter is the conjunction of the comparisons of its boundaries with the value; a
boundary with a point is refused for a value without one, and one without for one with. -/
theorem range_filter_forms (m : Moment) (opValue currentValue : GoString)
    (conditions : List (GoString × GoString)) (hread : rangeConditions opValue = some conditions)
    (hcurrent : IsNumeral currentValue)
    (hconditions : ∀ c ∈ conditions, c.1 ∈ rangeOps ∧ IsNumeral c.2) :
    evaluateRangeFilter m.exact opValue currentValue = true ↔
      ∀ c ∈ conditions, SameForm c.2 currentValue ∧ Meets c.1 currentValue c.2 := by
  rw [evaluateRangeFilter, hread]
  dsimp only
  rw [List.all_eq_true]
  exact forall₂_congr fun c hc => compareValues_numerals hcurrent (hconditions c hc).2

/-- Two conditions, the text of an array of which is the parameter of a range filter. -/
def betweenText (low high : String) : GoString := str (
  "[\x7b\"logic-op\":\"gt\",\"boundary\":\"" ++ low ++
    "\"\x7d,\x7b\"logic-op\":\"lte\",\"boundary\":\"" ++ high ++ "\"\x7d]")

/-- Negative boundaries with a point. -/
theorem range_filter_fractions : evaluateRangeFilter sampleMoment.exact
    (betweenText "-50.5" "-49.25") (str "-50.0") = true :=
  (range_filter_forms sampleMoment (betweenText "-50.5" "-49.25") (str "-50.0")
    [(str "gt", str "-50.5"), (str "lte", str "-49.25")] (by decide +kernel) (by decide +kernel)
    (by decide +kernel)).mpr (by decide +kernel)

/-- A value with a point, and boundaries without. -/
theorem range_filter_mixed : ¬ ∀ (m : Moment) (opValue currentValue : GoString)
    (conditions : List (GoString × GoString)), rangeConditions opValue = some conditions →
    IsNumeral currentValue → (∀ c ∈ conditions, c.1 ∈ rangeOps ∧ IsNumeral c.2) →
    (evaluateRangeFilter m.exact opValue currentValue = true ↔
      ∀ c ∈ conditions, Meets c.1 currentValue c.2) := by
  intro hall
  have hfalse : evaluateRangeFilter sampleMoment.exact (betweenText "49" "51") (str "50.5") =
      false := by decide +kernel
  have htrue := (hall sampleMoment (betweenText "49" "51") (str "50.5")
    [(str "gt", str "49"), (str "lte", str "51")] (by decide +kernel) (by decide +kernel)
    (by decide +kernel)).mpr (by decide +kernel)
  rw [hfalse] at htrue
  cases htrue

end VissServer.ServiceMgr

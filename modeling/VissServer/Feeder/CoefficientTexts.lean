import VissServer.Feeder.ConvertedValues
import VissServer.Go.JsonTexts

/-!
Items that convert numbers: the text that the tool makes of two coefficients, and when the feeder
converts all numbers by the coefficients that it decodes from an item.
-/
namespace VissServer.Feeder

open Go

/-! ## The text of two coefficients -/

section Texts

variable {numbers : ExactNumbers} {a b : GoString} {A B : ℚ}

/-- The text that the tool makes of two coefficients. -/
def coefficientsText (a b : GoString) : GoString := str "[" ++ a ++ str ", " ++ b ++ str "]"

theorem parseValue_numeral (depth : ℕ) (ha : Numeral a) {rest : GoString}
    (hrest : NotHead continuesNumber rest) :
    parseValue depth (a ++ rest) = some (.num a, rest) := by
  have hprintable : Printable depth (.num a) := by cases depth <;> exact ha
  exact parseValue_scalar hprintable (by simp) (by simp) hrest

theorem skipSpace_numeral (ha : Numeral a) (rest : GoString) :
    skipSpace (a ++ rest) = a ++ rest := by
  have hprintable : Printable 0 (.num a) := ha
  exact skipSpace_marshal hprintable rest

theorem parseText_coefficients (ha : Numeral a) (hb : Numeral b) :
    parseText (coefficientsText a b) = some (.arr [.num a, .num b]) := by
  obtain ⟨depth, hdepth⟩ : ∃ depth, maxNestingDepth = depth + 1 := ⟨9999, rfl⟩
  have htext : coefficientsText a b = 91 :: (a ++ (44 :: 32 :: (b ++ [93]))) := by
    simp [coefficientsText, show str "[" = [91] from rfl, show str ", " = [44, 32] from rfl,
      show str "]" = [93] from rfl]
  have hfirst : parseValue depth (a ++ (44 :: 32 :: (b ++ [93]))) =
      some (.num a, 44 :: 32 :: (b ++ [93])) :=
    parseValue_numeral depth ha (notHead_cons (by decide) _)
  have hsecond : parseValue depth (b ++ [93]) = some (.num b, [93]) :=
    parseValue_numeral depth hb (notHead_cons (by decide) _)
  obtain ⟨c, t, hc, hhead⟩ := ha.head_ne
  have hopen : expect 93 (a ++ (44 :: 32 :: (b ++ [93]))) = none := by
    rw [hc, List.cons_append]
    exact expect_of_ne (hhead 93 (by decide)) _
  obtain ⟨n, hn⟩ : ∃ n, (a ++ (44 :: 32 :: (b ++ [93]))).length = n + 1 + 1 := by
    refine ⟨(a ++ b).length + 1, ?_⟩
    simp only [List.length_append, List.length_cons, List.length_nil]
    omega
  have hcomma : ∀ rest : GoString, skipSpace (44 :: rest) = 44 :: rest :=
    skipSpace_of_head (by decide)
  have hclose : skipSpace ([93] : GoString) = [93] := skipSpace_of_head (by decide) []
  have hgap : skipSpace (32 :: (b ++ [93])) = b ++ [93] := skipSpace_numeral hb [93]
  have hitems : readArray (parseValue depth) (a ++ (44 :: 32 :: (b ++ [93]))) =
      some ([.num a, .num b], []) := by
    rw [readArray, skipSpace_numeral ha, hopen, hn]
    simp only [readItems_value, skipSpace_numeral ha, hfirst, Option.bind_some, hcomma,
      expect_self, hgap, hsecond, hclose, expect_of_ne (show (93 : UInt8) ≠ 44 by decide),
      Option.map_some]
  have hwhole : skipSpace (91 :: (a ++ (44 :: 32 :: (b ++ [93])))) =
      91 :: (a ++ (44 :: 32 :: (b ++ [93]))) := skipSpace_of_head (by decide) _
  rw [parseText, parseFirst, htext, hwhole, hdepth, parseValue_bracket, hitems]
  rfl

end Texts

/-! ## Conversion by an item -/

section Conversion

variable {numbers : ExactNumbers} {item : GoString} {A B A' B' C D x : ℚ}

/-- An item by which the feeder converts all numbers, in its north to south direction. -/
def ConvertsBy (numbers : ExactNumbers) (item : GoString) (f : ℚ → ℚ) : Prop :=
  ∀ (order : MapOrder) (scalingDataList : List GoString) (convertIndex : UInt16) (t t' : Int8)
    (value : GoString) (x : ℚ), ItemAt scalingDataList convertIndex item →
      numbers.parseFloat value = some (.fin x) →
        convertValue numbers order scalingDataList value convertIndex t t' true =
          some (numbers.formatFloat (.fin (f x)))

/-- The feeder decodes two numbers from an item. -/
def DecodesTo (numbers : ExactNumbers) (item : GoString) (A B : ℚ) : Prop :=
  ∃ coeffArray, (parseText item).map canon = some (.arr coeffArray) ∧
    coeffArray[0]?.bind (asFloat numbers) = some (.fin A) ∧
      coeffArray[1]?.bind (asFloat numbers) = some (.fin B)

theorem DecodesTo.unique (h : DecodesTo numbers item A B) (h' : DecodesTo numbers item A' B') :
    A = A' ∧ B = B' := by
  obtain ⟨cs, hcs, hA, hB⟩ := h
  obtain ⟨cs', hcs', hA', hB'⟩ := h'
  rw [hcs] at hcs'
  obtain rfl := Json.arr.inj (Option.some.inj hcs')
  exact ⟨Float64.fin.inj (Option.some.inj (hA.symm.trans hA')),
    Float64.fin.inj (Option.some.inj (hB.symm.trans hB'))⟩

/-- Coefficients that are not finite do not tell positive numbers apart. -/
theorem fin_or_constant (F G : Float64) :
    (∃ p q, F = .fin p ∧ G = .fin q) ∨ F * .fin 1 + G = F * .fin 2 + G := by
  cases F with
  | nan => exact .inr rfl
  | inf m =>
    have hone : Float64.inf m * .fin 1 = .inf m := by cases m <;> decide
    have htwo : Float64.inf m * .fin 2 = .inf m := by cases m <;> decide
    exact .inr (by rw [hone, htwo])
  | fin p =>
    cases G with
    | nan => exact .inr rfl
    | inf m => exact .inr rfl
    | fin q => exact .inl ⟨p, q, rfl, rfl⟩

theorem convertValue_array {coeffArray : List Json} {scalingDataList : List GoString}
    {convertIndex : UInt16} (hitem : ItemAt scalingDataList convertIndex item)
    (hdecode : (parseText item).map canon = some (.arr coeffArray)) (order : MapOrder)
    (value : GoString) (t t' : Int8) (north2SouthConv : Bool) :
    convertValue numbers order scalingDataList value convertIndex t t' north2SouthConv =
      linearConversion numbers coeffArray north2SouthConv value := by
  rw [convertValue, if_neg hitem.nonzero, hitem.read, Option.bind_eq_bind, Option.bind_some,
    hdecode]

theorem DecodesTo.convertsBy (h : DecodesTo numbers item A B) :
    ConvertsBy numbers item fun x => A * x + B := by
  obtain ⟨coeffArray, hdecode, hA, hB⟩ := h
  obtain ⟨a, ha, hA⟩ := Option.bind_eq_some_iff.mp hA
  obtain ⟨b, hb, hB⟩ := Option.bind_eq_some_iff.mp hB
  intro order scalingDataList convertIndex t t' value x hitem hx
  rw [convertValue_array hitem hdecode, linearConversion, hx]
  simp [ha, hb, hA, hB]

theorem parseText_bracket (t : GoString) :
    parseText (91 :: t) = none ∨ ∃ items, parseText (91 :: t) = some (.arr items) := by
  obtain ⟨depth, hdepth⟩ : ∃ depth, maxNestingDepth = depth + 1 := ⟨9999, rfl⟩
  have hwhole : skipSpace (91 :: t) = 91 :: t := skipSpace_of_head (by decide) _
  rw [parseText, parseFirst, hwhole, hdepth, parseValue_bracket]
  cases readArray (parseValue depth) t with
  | none => exact .inl rfl
  | some found =>
    obtain ⟨items, rest⟩ := found
    by_cases hrest : skipSpace rest = []
    · exact .inr ⟨items, if_pos hrest⟩
    · exact .inl (if_neg hrest)

/-- The numbers of an array that converts as two coefficients do are these. -/
theorem ConvertsBy.decodesTo {t : GoString} (hA : IsDecimal A) (hB : IsDecimal B) (hne : A ≠ 0)
    (h : ConvertsBy numbers (91 :: t) fun x => A * x + B) : DecodesTo numbers (91 :: t) A B := by
  have hitem : ItemAt [91 :: t] 1 (91 :: t) := ⟨by decide, rfl⟩
  have hvalue : ∀ n : ℕ, convertValue numbers ⟨id, GoMap.perm_id⟩ [91 :: t]
      (numbers.formatFloat (.fin n)) 1 0 0 true = some (numbers.formatFloat (.fin (A * n + B))) :=
    fun n => h _ _ _ _ _ _ _ hitem (numbers.parse_format (isDecimal_ofNat n))
  have hdecimal : ∀ n : ℕ, IsDecimal (A * n + B) := fun n => (hA.mul (isDecimal_ofNat n)).add hB
  have hapart : numbers.formatFloat (.fin (A * (1 : ℕ) + B)) ≠
      numbers.formatFloat (.fin (A * (2 : ℕ) + B)) := by
    intro heq
    have hsame := formatFloat_inj (hdecimal 1) (hdecimal 2) heq
    push_cast at hsame
    exact hne (by linarith)
  rcases parseText_bracket t with hnone | ⟨items, harray⟩
  · have hempty : ∀ n : ℕ, convertValue numbers ⟨id, GoMap.perm_id⟩ [91 :: t]
        (numbers.formatFloat (.fin n)) 1 0 0 true = some [] := by
      intro n
      rw [convertValue, if_neg hitem.nonzero, hitem.read, Option.bind_eq_bind, Option.bind_some,
        hnone]
      rfl
    have hone := Option.some.inj ((hempty 1).symm.trans (hvalue 1))
    have htwo := Option.some.inj ((hempty 2).symm.trans (hvalue 2))
    exact absurd (hone.symm.trans htwo) hapart
  · have hdecode : (parseText (91 :: t)).map canon = some (.arr (canonItems items)) := by
      rw [harray]
      rfl
    generalize canonItems items = coeffArray at hdecode
    have hlinear : ∀ n : ℕ, linearConversion numbers coeffArray true
        (numbers.formatFloat (.fin n)) = some (numbers.formatFloat (.fin (A * n + B))) := by
      intro n
      rw [← hvalue n, convertValue_array hitem hdecode]
    simp only [linearConversion, numbers.parse_format (isDecimal_ofNat _), Option.bind_eq_bind,
      Option.bind_eq_some_iff, Option.some.injEq, if_true] at hlinear
    obtain ⟨a, ha, F, hF, b, hb, G, hG, -⟩ := hlinear 0
    have hprinted : ∀ n : ℕ, numbers.formatFloat (F * .fin n + G) =
        numbers.formatFloat (.fin (A * n + B)) := by
      intro n
      obtain ⟨a', ha', F', hF', b', hb', G', hG', heq⟩ := hlinear n
      obtain rfl := Option.some.inj (ha.symm.trans ha')
      obtain rfl := Option.some.inj (hb.symm.trans hb')
      obtain rfl := Option.some.inj (hF.symm.trans hF')
      obtain rfl := Option.some.inj (hG.symm.trans hG')
      exact heq
    have hparseF : ∀ p, F = .fin p → IsDecimal p := by
      rintro p rfl
      cases a with
      | num literal => exact numbers.decimal hF
      | _ => cases hF
    have hparseG : ∀ q, G = .fin q → IsDecimal q := by
      rintro q rfl
      cases b with
      | num literal => exact numbers.decimal hG
      | _ => cases hG
    rcases fin_or_constant F G with ⟨p, q, hp, hq⟩ | hconstant
    · have hsame : ∀ n : ℕ, p * n + q = A * n + B := by
        intro n
        have hdecimal' := ((hparseF p hp).mul (isDecimal_ofNat n)).add (hparseG q hq)
        have hformat : numbers.formatFloat (.fin (p * n + q)) =
            numbers.formatFloat (.fin (A * n + B)) := by
          rw [← hprinted n, hp, hq, Float64.fin_mul, Float64.fin_add]
        exact formatFloat_inj hdecimal' (hdecimal n) hformat
      have hzero := hsame 0
      have hone := hsame 1
      push_cast at hzero hone
      obtain rfl : q = B := by linarith
      obtain rfl : p = A := by linarith
      refine ⟨coeffArray, hdecode, ?_, ?_⟩
      · rw [ha, Option.bind_some, hF, hp]
      · rw [hb, Option.bind_some, hG, hq]
    · have hone := hprinted 1
      have htwo := hprinted 2
      push_cast at hone htwo
      exfalso
      apply hapart
      push_cast
      rw [← hone, ← htwo, hconstant]

end Conversion

end VissServer.Feeder

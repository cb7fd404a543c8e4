import VissServer.Utils.Codecs

/-!
Integers as coded values. compressIntValue keeps the magnitude modulo the fourth power of 256:
the conversion to uint32 in its last test makes the test hold for every integer.
-/
namespace VissServer.Utils

open VissServer.Go

variable {floats : Floats} {v : GoString} {i : ℤ}

/-- A quoted value comes back as a quoted text of the same integer, and takes the bytes that
were written for it. -/
def IntegerReturns (floats : Floats) (v : GoString) (i : ℤ) : Prop :=
  ∃ code, compressValue floats (quoted v) = some code ∧ ∃ w, atoi w = some i ∧
    ∀ rest, decompressOneValue floats (code ++ rest) = some (quoted w, code.length)

/-- An integer beyond the 32-bit codes stays uncoded. -/
def WideUncoded (floats : Floats) (v : GoString) (i : ℤ) : Prop :=
  4294967296 ≤ i.natAbs → compressValue floats (quoted v) = some (quoted v)

theorem compressValue_of_atoi (floats : Floats) (h : atoi v = some i) :
    compressValue floats (quoted v) = compressIntValue (quoted v) := by
  have htype : analyzeValueType floats v = 1 := by
    rw [analyzeValueType, if_pos (by rw [h]; rfl)]
  simp only [compressValue, slice_quoted, Option.bind_eq_bind, Option.bind_some, htype]

theorem eq_of_quoted {s t : GoString} (h : quoted s = quoted t) : s = t :=
  List.append_cancel_right (List.cons.inj h).2

/-- The digits of a number of 32 bits are read as the number with that sign. -/
theorem atoi_signedDigits (isPos : Bool) {n : ℕ} (hn : n < 4294967296) :
    atoi (signedDigits isPos n) = some (if isPos then (n : ℤ) else -n) := by
  have hdigits : ¬ (natDigits n = [] ∨ ¬ (natDigits n).all isDigit = true) := by
    rw [not_or, not_not]
    exact ⟨natDigits_ne_nil n, all_isDigit_natDigits n⟩
  have hsign : splitSign (signedDigits isPos n) = (!isPos, natDigits n) := by
    cases isPos with
    | true => exact splitSign_of_digits (all_isDigit_natDigits n)
    | false => rfl
  rw [atoi, hsign]
  dsimp only
  rw [if_neg hdigits, digitsVal_natDigits]
  cases isPos with
  | true => exact if_pos ⟨by simp, by simp; omega⟩
  | false => exact if_pos ⟨by simp; omega, by simp⟩

/-! ## Integers beyond 32 bits -/

/-- The smallest integer has no magnitude in an int, and is coded as the byte 0; the others are
coded by the last four bytes of theirs. -/
theorem compressIntValue_wide (h : atoi v = some i) (hwide : 4294967296 ≤ i.natAbs) :
    ∃ k n : ℕ, (k = 1 ∨ k = 2 ∨ k = 3 ∨ k = 4) ∧ n % 256 ^ k < 4294967296 ∧
      compressIntValue (quoted v) = some (intCode k (decide (0 ≤ i)) n) := by
  obtain ⟨hlow, hhigh⟩ := atoi_bounds h
  simp only [compressIntValue, slice_quoted, Option.bind_eq_bind, Option.bind_some,
    atoiIgnoringError_of_atoi h]
  by_cases hmin : i = -9223372036854775808
  · subst hmin
    exact ⟨1, 0, .inl rfl, by decide, rfl⟩
  · have habs : (if i < 0 then wrapInt64 (i * -1) else i) = i.natAbs := by
      unfold wrapInt64
      split_ifs
      all_goals omega
    refine ⟨4, i.natAbs, by simp, by omega, ?_⟩
    rw [habs, if_neg (by omega), if_neg (by omega), if_neg (by omega), if_pos (by omega)]

theorem not_integerReturns (h : atoi v = some i) (hwide : 4294967296 ≤ i.natAbs) :
    ¬ IntegerReturns floats v i := by
  rintro ⟨code, hcode, w, hw, hread⟩
  obtain ⟨k, n, hk, hn, hwritten⟩ := compressIntValue_wide h hwide
  rw [compressValue_of_atoi floats h, hwritten] at hcode
  obtain rfl := Option.some.inj hcode
  have hdigits := (Prod.mk.inj (Option.some.inj
    ((hread []).symm.trans (decompressOneValue_intCode floats hk (decide (0 ≤ i)) n [])))).1
  rw [eq_of_quoted hdigits, atoi_signedDigits _ hn] at hw
  have hvalue := Option.some.inj hw
  split at hvalue
  all_goals omega

theorem integerReturns_of_lt (h : atoi v = some i) (hi : i.natAbs < 4294967296) :
    IntegerReturns floats v i := by
  refine ⟨intBytes i, ?_, itoa i, atoi_itoa (by omega) (by omega), fun rest => ?_⟩
  · rw [compressValue_of_atoi floats h, compressIntValue_of_atoi h hi]
  · rw [decompressOneValue_int floats hi, length_intBytes]

/-- Integers come back, and those that do not fit are uncoded, exactly for those that fit. -/
theorem integer_codec_iff (floats : Floats) (v : GoString) (i : ℤ) (h : atoi v = some i) :
    IntegerReturns floats v i ∧ WideUncoded floats v i ↔ i.natAbs < 4294967296 := by
  constructor
  · rintro ⟨hreturns, -⟩
    by_contra hi
    exact not_integerReturns h (by omega) hreturns
  · intro hi
    refine ⟨integerReturns_of_lt h hi, fun hwide => ?_⟩
    omega

theorem integer_codec_zeros : IntegerReturns sampleFloats (str "-00300") (-300) ∧
    WideUncoded sampleFloats (str "-00300") (-300) :=
  (integer_codec_iff sampleFloats (str "-00300") (-300) (by decide)).mpr (by decide)

/-- The first integer beyond 32 bits. -/
theorem integer_codec_wide : ¬ ∀ (floats : Floats) (v : GoString) (i : ℤ), atoi v = some i →
    IntegerReturns floats v i ∧ WideUncoded floats v i := by
  intro hall
  have hwide : atoi (str "4294967296") = some 4294967296 := by decide
  exact not_integerReturns hwide (by decide) (hall sampleFloats _ _ hwide).1

end VissServer.Utils

import VissServer.Go.Decimals
import VissServer.Go.JsonNumbers

/-!
The digits of natural numbers, which begin with a zero for zero only, as parts of JSON number
literals.
-/
namespace VissServer.Go

theorem natDigits_head {n : ℕ} (hn : n ≠ 0) : ∃ c t, natDigits n = c :: t ∧ c ≠ 48 := by
  induction n using Nat.strongRecOn with
  | ind n ih =>
    by_cases hsmall : n < 10
    · refine ⟨UInt8.ofNat n.digitChar.toNat, [], ?_, ?_⟩
      · rw [natDigits, Nat.toDigits_of_lt_base hsmall]
        rfl
      · have hall : ∀ m < 10, m ≠ 0 → UInt8.ofNat m.digitChar.toNat ≠ 48 := by decide
        exact hall n hsmall hn
    · obtain ⟨c, t, hdigits, hc⟩ := ih (n / 10) (by omega) (by omega)
      rw [natDigits] at hdigits
      refine ⟨c, t ++ [UInt8.ofNat (n % 10).digitChar.toNat], ?_, hc⟩
      rw [natDigits, Nat.toDigits_of_base_le (by decide) (by omega), List.map_append, hdigits]
      rfl

theorem readDigits_all {digits rest : GoString} (hne : digits ≠ [])
    (hall : digits.all isDigit = true) (hrest : NotHead isDigit rest) :
    readDigits (digits ++ rest) = some rest := by
  obtain ⟨htake, hdrop⟩ := takeWhile_append_of_notHead (by simpa using hall) hrest
  rw [readDigits, htake, hdrop, if_neg (by simpa using hne)]

theorem readInteger_natDigits (n : ℕ) {rest : GoString} (hrest : NotHead isDigit rest) :
    readInteger (natDigits n ++ rest) = some rest := by
  rw [readInteger]
  by_cases hn : n = 0
  · subst hn
    rfl
  · obtain ⟨c, t, hdigits, hc⟩ := natDigits_head hn
    have hexpect : expect 48 (natDigits n ++ rest) = none := by
      rw [hdigits, List.cons_append]
      exact expect_of_ne hc _
    rw [hexpect]
    exact readDigits_all (natDigits_ne_nil n) (all_isDigit_natDigits n) hrest

/-- A sign, the digits of a number and a fraction, if any, are a number literal. -/
theorem numeral_signed (neg : Prop) [Decidable neg] (n : ℕ) {fraction : GoString}
    (hnotDigit : NotHead isDigit fraction) (hfraction : readFraction fraction = some []) :
    Numeral ((if neg then [45] else []) ++ (natDigits n ++ fraction)) := by
  have hsign : (expect 45 ((if neg then [45] else []) ++ (natDigits n ++ fraction))).getD
      ((if neg then [45] else []) ++ (natDigits n ++ fraction)) = natDigits n ++ fraction := by
    split
    · rfl
    · obtain ⟨c, t, hdigits⟩ := List.exists_cons_of_ne_nil (natDigits_ne_nil n)
      have hdigit : isDigit c = true :=
        isDigit_of_mem_natDigits (show c ∈ natDigits n by rw [hdigits]; simp)
      have hc : c ≠ 45 := by
        rintro rfl
        exact absurd hdigit (by decide)
      rw [List.nil_append, hdigits, List.cons_append, expect_of_ne hc]
      rfl
  have hafter : afterNumber ((if neg then [45] else []) ++ (natDigits n ++ fraction)) =
      some [] := by
    rw [afterNumber, hsign, readInteger_natDigits n hnotDigit]
    simp only [Option.bind_eq_bind, Option.bind_some, hfraction]
    rfl
  obtain ⟨lit, heq, hlit⟩ := afterNumber_numeral hafter
  rw [List.append_nil] at heq
  rwa [heq]

theorem numeral_itoa (i : ℤ) : Numeral (itoa i) := by
  have hnumeral := @numeral_signed (i < 0) _ i.natAbs [] notHead_nil rfl
  have hitoa : itoa i = (if i < 0 then [45] else []) ++ (natDigits i.natAbs ++ []) := by
    rw [itoa, List.append_nil]
    split
    · rfl
    · rfl
  rwa [hitoa]

theorem isPlain_itoa {z : ℤ} : ∀ c ∈ itoa z, isPlain c = true := by
  have hdigits : ∀ n, ∀ c ∈ natDigits n, isPlain c = true := by
    intro n c hc
    have hdigit := isDigit_of_mem_natDigits hc
    simp only [isDigit, Bool.and_eq_true, decide_eq_true_eq, UInt8.le_iff_toNat_le] at hdigit
    have h48 : (48 : UInt8).toNat = 48 := rfl
    have h57 : (57 : UInt8).toNat = 57 := rfl
    have hne : ∀ d : UInt8, d.toNat < 48 ∨ 57 < d.toNat → c ≠ d := by
      rintro d hd rfl
      omega
    simp only [isPlain, Bool.and_eq_true, decide_eq_true_eq, UInt8.le_iff_toNat_le,
      UInt8.lt_iff_toNat_lt]
    have h32 : (32 : UInt8).toNat = 32 := rfl
    have h128 : (128 : UInt8).toNat = 128 := rfl
    refine ⟨⟨⟨by omega, by omega⟩, hne 34 (by decide)⟩, hne 92 (by decide)⟩
  intro c hc
  unfold itoa at hc
  split at hc
  · rcases List.mem_cons.mp hc with rfl | hc
    · decide
    · exact hdigits _ c hc
  · exact hdigits _ c hc

end VissServer.Go

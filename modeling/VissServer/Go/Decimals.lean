import VissServer.Go.Strings

/-!
The decimal text of an integer is read back as this integer.
-/
namespace VissServer.Go

theorem toNat_digit {d : Char} (h : d.isDigit = true) : (UInt8.ofNat d.toNat).toNat = d.toNat := by
  simp only [Char.isDigit, ge_iff_le, Bool.and_eq_true, decide_eq_true_eq,
    UInt32.le_iff_toNat_le] at h
  have hhigh : d.toNat ≤ (57 : UInt32).toNat := h.2
  have h57 : (57 : UInt32).toNat = 57 := rfl
  simp only [UInt8.toNat_ofNat']
  omega

theorem digitsVal_natDigits (n : ℕ) : digitsVal (natDigits n) = n := by
  have hdigits : ∀ (l : List Char) (v : ℕ), (∀ d ∈ l, d.isDigit = true) →
      (l.map fun c => UInt8.ofNat c.toNat).foldl (fun n c => 10 * n + (c.toNat - 48)) v =
        Nat.ofDigitChars 10 l v := by
    intro l
    induction l with
    | nil => simp
    | cons d l ih =>
      intro v hl
      rw [List.map_cons, List.foldl_cons, toNat_digit (hl d List.mem_cons_self),
        ih _ fun d hd => hl d (List.mem_cons_of_mem _ hd), Nat.ofDigitChars_cons]
      rfl
  rw [digitsVal, natDigits, hdigits _ _ fun d hd =>
    Nat.isDigit_of_mem_toDigits (by decide) (by decide) hd]
  exact Nat.ofDigitChars_ten_toDigits

theorem natDigits_ne_nil (n : ℕ) : natDigits n ≠ [] := by
  rw [natDigits, ne_eq, List.map_eq_nil_iff]
  exact Nat.toDigits_ne_nil

theorem all_isDigit_natDigits (n : ℕ) : (natDigits n).all isDigit = true :=
  List.all_eq_true.mpr fun _ hc => isDigit_of_mem_natDigits hc

/-- A run of digits has no sign. -/
theorem splitSign_of_digits {s : GoString} (h : s.all isDigit = true) :
    splitSign s = (false, s) := by
  cases s with
  | nil => rfl
  | cons c s =>
    have hc : isDigit c = true := by
      simp only [List.all_cons, Bool.and_eq_true] at h
      exact h.1
    rw [splitSign, if_neg, if_neg]
    · rintro rfl
      exact absurd hc (by decide)
    · rintro rfl
      exact absurd hc (by decide)

/-- The sign and the digits of a decimal text. -/
theorem splitSign_itoa (i : ℤ) : splitSign (itoa i) = (decide (i < 0), natDigits i.natAbs) := by
  unfold itoa
  by_cases hi : i < 0
  · rw [if_pos hi]
    simp [splitSign, hi]
  · rw [if_neg hi, splitSign_of_digits (all_isDigit_natDigits _)]
    simp [hi]

theorem signed_natAbs (i : ℤ) :
    (if decide (i < 0) = true then -((digitsVal (natDigits i.natAbs) : ℕ) : ℤ)
      else (digitsVal (natDigits i.natAbs) : ℕ)) = i := by
  rw [digitsVal_natDigits]
  by_cases hi : i < 0
  · rw [if_pos (by simpa using hi)]
    omega
  · rw [if_neg (by simpa using hi)]
    omega

theorem atoi_itoa {i : ℤ} (hlow : -9223372036854775808 ≤ i) (hhigh : i ≤ 9223372036854775807) :
    atoi (itoa i) = some i := by
  have hdigits : ¬ (natDigits i.natAbs = [] ∨ ¬ (natDigits i.natAbs).all isDigit = true) := by
    rw [not_or, not_not]
    exact ⟨natDigits_ne_nil _, all_isDigit_natDigits _⟩
  simp only [atoi, splitSign_itoa, signed_natAbs]
  rw [if_neg hdigits, if_pos ⟨hlow, hhigh⟩]

theorem atoi_bounds {s : GoString} {i : ℤ} (h : atoi s = some i) :
    -9223372036854775808 ≤ i ∧ i ≤ 9223372036854775807 := by
  unfold atoi at h
  dsimp only at h
  split at h
  · cases h
  · rw [Option.ite_none_right_eq_some] at h
    rw [← Option.some.inj h.2]
    exact h.1

theorem atoiIgnoringError_of_atoi {s : GoString} {i : ℤ} (h : atoi s = some i) :
    atoiIgnoringError s = i := by
  unfold atoi at h
  unfold atoiIgnoringError
  generalize splitSign s = sign at h ⊢
  obtain ⟨neg, digits⟩ := sign
  dsimp only at h ⊢
  generalize (if neg = true then -(digitsVal digits : ℤ) else digitsVal digits) = v at h ⊢
  split at h
  · cases h
  · next hdigits =>
    rw [if_neg hdigits]
    split at h
    · next hbounds =>
      rw [← Option.some.inj h]
      omega
    · cases h

theorem atoiIgnoringError_itoa {i : ℤ} (hlow : -9223372036854775808 ≤ i)
    (hhigh : i ≤ 9223372036854775807) : atoiIgnoringError (itoa i) = i :=
  atoiIgnoringError_of_atoi (atoi_itoa hlow hhigh)

theorem itoa_bytes {z : ℤ} {b : UInt8} (hb : b ∈ itoa z) : b = 45 ∨ isDigit b = true := by
  unfold itoa at hb
  split at hb
  · rcases List.mem_cons.mp hb with rfl | hb
    · exact .inl rfl
    · exact .inr (isDigit_of_mem_natDigits hb)
  · exact .inr (isDigit_of_mem_natDigits hb)

theorem notMem_itoa {c : UInt8} (hsign : c ≠ 45) (hdigit : isDigit c = false) (i : ℤ) :
    c ∉ itoa i := by
  intro h
  obtain h | h := itoa_bytes h
  · exact hsign h
  · rw [hdigit] at h
    cases h

theorem quote_notMem_itoa (i : ℤ) : 34 ∉ itoa i := notMem_itoa (by decide) rfl i

end VissServer.Go

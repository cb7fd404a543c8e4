import Mathlib.Data.Nat.Factorization.Basic
import Mathlib.Data.Rat.Cast.Order
import Mathlib.Data.Rat.Floor
import Mathlib.Tactic.FieldSimp
import Mathlib.Tactic.Ring
import VissServer.Go.Float64
import VissServer.Go.Numerals

/-!
The functions of strconv that read and print floating point numbers, without rounding.
-/
namespace VissServer.Go

/-- A number with a finite decimal expansion, which texts can denote. -/
def IsDecimal (q : ℚ) : Prop := ∃ (n : ℤ) (k : ℕ), q = n / 10 ^ k

theorem IsDecimal.mul {p q : ℚ} (hp : IsDecimal p) (hq : IsDecimal q) : IsDecimal (p * q) := by
  obtain ⟨m, k, rfl⟩ := hp
  obtain ⟨n, l, rfl⟩ := hq
  refine ⟨m * n, k + l, ?_⟩
  rw [pow_add, Int.cast_mul, div_mul_div_comm]

theorem IsDecimal.add {p q : ℚ} (hp : IsDecimal p) (hq : IsDecimal q) : IsDecimal (p + q) := by
  obtain ⟨m, k, rfl⟩ := hp
  obtain ⟨n, l, rfl⟩ := hq
  refine ⟨m * 10 ^ l + n * 10 ^ k, k + l, ?_⟩
  have hk : (10 : ℚ) ^ k ≠ 0 := pow_ne_zero k (by norm_num)
  have hl : (10 : ℚ) ^ l ≠ 0 := pow_ne_zero l (by norm_num)
  push_cast
  rw [div_add_div _ _ hk hl, pow_add]
  ring

/-- strconv.ParseFloat and strconv.FormatFloat with the format 'f' and as many digits as the
number has. -/
structure ExactNumbers where
  /-- None is an error. -/
  parseFloat : GoString → Option Float64
  formatFloat : Float64 → GoString
  decimal : ∀ {s q}, parseFloat s = some (.fin q) → IsDecimal q
  parse_format : ∀ {q}, IsDecimal q → parseFloat (formatFloat (.fin q)) = some (.fin q)

/-! ## Decimal texts -/

section Decimals

variable {q : ℚ}

/-- The number of digits behind the point; where it is infinite, nine of them are printed. -/
def places (q : ℚ) : ℕ :=
  ((List.range (q.den + 1)).find? fun k => (q * 10 ^ k).den = 1).getD 9

/-- The last k digits of a number. -/
def lastDigits : ℕ → ℕ → GoString
  | 0, _ => []
  | k + 1, n => lastDigits k (n / 10) ++ [UInt8.ofNat (48 + n % 10)]

def formatDecimal (q : ℚ) : GoString :=
  let k := places q
  let n := ⌊q * 10 ^ k⌋
  (if n < 0 then [45] else []) ++ (natDigits (n.natAbs / 10 ^ k) ++
    if k = 0 then [] else 46 :: lastDigits k n.natAbs)

/-- An optional sign, and digits of which some may stand behind a point. -/
def parseDecimal (s : GoString) : Option ℚ :=
  let (neg, s) := splitSign s
  let whole := s.takeWhile isDigit
  let behind := s.dropWhile isDigit
  let fraction := behind.tail
  if (behind = [] ∨ behind.head? = some 46) ∧ fraction.all isDigit ∧ whole ++ fraction ≠ [] then
    let v : ℚ := (digitsVal whole : ℚ) + (digitsVal fraction : ℚ) / 10 ^ fraction.length
    some (if neg then -v else v)
  else none

theorem length_lastDigits (k n : ℕ) : (lastDigits k n).length = k := by
  induction k generalizing n with
  | zero => rfl
  | succ k ih => rw [lastDigits, List.length_append, ih, List.length_singleton]

theorem all_isDigit_lastDigits (k n : ℕ) : (lastDigits k n).all isDigit = true := by
  induction k generalizing n with
  | zero => rfl
  | succ k ih =>
    have hdigit : ∀ d < 10, isDigit (UInt8.ofNat (48 + d)) = true := by decide
    rw [lastDigits, List.all_append, ih, Bool.true_and, List.all_cons,
      hdigit _ (Nat.mod_lt n (by decide))]
    rfl

theorem digitsVal_lastDigits (k n : ℕ) : digitsVal (lastDigits k n) = n % 10 ^ k := by
  induction k generalizing n with
  | zero => rw [pow_zero, Nat.mod_one]; rfl
  | succ k ih =>
    have hdigit : ∀ d < 10, (UInt8.ofNat (48 + d)).toNat - 48 = d := by decide
    have hlast := hdigit _ (Nat.mod_lt n (by decide))
    have hconcat : digitsVal (lastDigits (k + 1) n) = 10 * digitsVal (lastDigits k (n / 10)) +
        ((UInt8.ofNat (48 + n % 10)).toNat - 48) := by
      rw [lastDigits, digitsVal, List.foldl_append]
      rfl
    rw [hconcat, ih, hlast, pow_succ', Nat.mod_mul]
    omega

/-- A number with a finite expansion has at most as many places as its denominator says. -/
theorem den_dvd_of_isDecimal (h : IsDecimal q) : q.den ∣ 10 ^ q.den := by
  obtain ⟨n, k, hq⟩ := h
  have hdvd : q.den ∣ 10 ^ k := by
    have hden := Rat.den_dvd n (10 ^ k)
    rw [Rat.divInt_eq_div] at hden
    push_cast at hden
    rw [← hq] at hden
    exact_mod_cast hden
  rw [← Nat.factorization_prime_le_iff_dvd q.den_nz (pow_ne_zero _ (by decide))]
  intro p hp
  by_cases hpd : p ∣ q.den
  · have hten : p ∣ 10 := hp.dvd_of_dvd_pow (hpd.trans hdvd)
    have hone : 1 ≤ (10 : ℕ).factorization p :=
      (hp.dvd_iff_one_le_factorization (by decide)).mp hten
    have hlt := Nat.factorization_lt p q.den_nz
    rw [Nat.factorization_pow, Finsupp.smul_apply, smul_eq_mul]
    exact hlt.le.trans (Nat.le_mul_of_pos_right _ hone)
  · rw [Nat.factorization_eq_zero_of_not_dvd hpd]
    exact Nat.zero_le _

/-- The digits that are printed are those of the number. -/
theorem floor_places (h : IsDecimal q) : (⌊q * 10 ^ places q⌋ : ℚ) = q * 10 ^ places q := by
  have hden : (q * 10 ^ q.den).den = 1 := by
    obtain ⟨c, hc⟩ := den_dvd_of_isDecimal h
    have hint : q * 10 ^ q.den = ((q.num * c : ℤ) : ℚ) := by
      have hcast : (10 : ℚ) ^ q.den = (q.den : ℚ) * c := by exact_mod_cast hc
      rw [hcast, ← mul_assoc, Rat.mul_den_eq_num]
      push_cast
      rfl
    rw [hint]
    exact Rat.den_intCast _
  have hfound : (q * 10 ^ places q).den = 1 := by
    unfold places
    cases hfind : (List.range (q.den + 1)).find? fun k => (q * 10 ^ k).den = 1 with
    | none =>
      have hnone := List.find?_eq_none.mp hfind q.den (by simp)
      exact absurd hden (by simpa using hnone)
    | some k => simpa using List.find?_some hfind
  rw [← Rat.coe_int_num_of_den_eq_one hfound, Int.floor_intCast]

theorem parseDecimal_digits {neg : Bool} {whole fraction : GoString}
    (hwhole : whole.all isDigit = true) (hne : whole ≠ [])
    (hfraction : fraction.all isDigit = true) {behind : GoString}
    (hbehind : behind = if fraction = [] then [] else 46 :: fraction) :
    parseDecimal ((if neg then [45] else []) ++ (whole ++ behind)) =
      some (if neg then -((digitsVal whole : ℚ) + (digitsVal fraction : ℚ) / 10 ^ fraction.length)
        else (digitsVal whole : ℚ) + (digitsVal fraction : ℚ) / 10 ^ fraction.length) := by
  have hsign : splitSign ((if neg then [45] else []) ++ (whole ++ behind)) =
      (neg, whole ++ behind) := by
    cases neg with
    | true => rfl
    | false =>
      obtain ⟨c, t, rfl⟩ := List.exists_cons_of_ne_nil hne
      have hc : isDigit c = true := List.all_eq_true.mp hwhole c (List.mem_cons_self ..)
      have hminus : c ≠ 45 := by
        rintro rfl
        exact absurd hc (by decide)
      have hplus : c ≠ 43 := by
        rintro rfl
        exact absurd hc (by decide)
      simp [splitSign, hminus, hplus]
  have hstop : NotHead isDigit behind := by
    rw [hbehind]
    split
    · exact notHead_nil
    · exact notHead_cons (by decide) _
  obtain ⟨htake, hdrop⟩ := takeWhile_append_of_notHead (List.all_eq_true.mp hwhole) hstop
  have htail : behind.tail = fraction := by
    rw [hbehind]
    split
    · next hnil => rw [hnil]; rfl
    · rfl
  have hpoint : behind = [] ∨ behind.head? = some 46 := by
    rw [hbehind]
    split
    · exact .inl rfl
    · exact .inr rfl
  simp only [parseDecimal, hsign, htake, hdrop, htail]
  rw [if_pos ⟨hpoint, hfraction, by simp [hne]⟩]

theorem isDecimal_of_parseDecimal {s : GoString} (h : parseDecimal s = some q) :
    IsDecimal q := by
  simp only [parseDecimal] at h
  split at h
  · rw [← Option.some.inj h]
    have hnat : ∀ n : ℕ, IsDecimal n := fun n => ⟨n, 0, by simp⟩
    have hsum : ∀ (m n k : ℕ), IsDecimal ((m : ℚ) + (n : ℚ) / 10 ^ k) := fun m n k =>
      (hnat m).add ⟨n, k, by simp⟩
    split
    · rw [neg_eq_neg_one_mul]
      exact IsDecimal.mul ⟨-1, 0, by simp⟩ (hsum _ _ _)
    · exact hsum _ _ _
  · simp at h

theorem parseDecimal_formatDecimal (h : IsDecimal q) : parseDecimal (formatDecimal q) = some q := by
  have hfloor := floor_places h
  unfold formatDecimal
  generalize places q = k at hfloor ⊢
  dsimp only
  generalize ⌊q * 10 ^ k⌋ = n at hfloor ⊢
  have hpow : (10 : ℚ) ^ k ≠ 0 := pow_ne_zero k (by norm_num)
  have hbehind : (if k = 0 then [] else 46 :: lastDigits k n.natAbs : GoString) =
      if lastDigits k n.natAbs = [] then [] else 46 :: lastDigits k n.natAbs := by
    have hiff : lastDigits k n.natAbs = [] ↔ k = 0 := by
      rw [← List.length_eq_zero_iff, length_lastDigits]
    simp only [hiff]
  have hparse := @parseDecimal_digits (decide (n < 0)) _ _
    (all_isDigit_natDigits (n.natAbs / 10 ^ k)) (natDigits_ne_nil _)
    (all_isDigit_lastDigits k n.natAbs) _ hbehind
  have hvalue : (((n.natAbs / 10 ^ k : ℕ) : ℚ) + ((n.natAbs % 10 ^ k : ℕ) : ℚ) / 10 ^ k) =
      (n.natAbs : ℚ) / 10 ^ k := by
    have hdiv : ((10 ^ k * (n.natAbs / 10 ^ k) + n.natAbs % 10 ^ k : ℕ) : ℚ) = n.natAbs := by
      rw [Nat.div_add_mod]
    rw [eq_div_iff hpow, add_mul, div_mul_cancel₀ _ hpow, ← hdiv]
    push_cast
    ring
  rw [digitsVal_natDigits, digitsVal_lastDigits, length_lastDigits, hvalue] at hparse
  have hq : q = (n : ℚ) / 10 ^ k := by rw [hfloor, mul_div_cancel_right₀ _ hpow]
  simp only [decide_eq_true_eq] at hparse
  rw [hparse]
  by_cases hn : n < 0
  · have habs : (n.natAbs : ℚ) = -(n : ℚ) := by
      rw [Nat.cast_natAbs, abs_of_neg hn, Int.cast_neg]
    rw [if_pos hn, habs, hq, neg_div, neg_neg]
  · have habs : (n.natAbs : ℚ) = (n : ℚ) := by
      rw [Nat.cast_natAbs, abs_of_nonneg (not_lt.mp hn)]
    rw [if_neg hn, habs, hq]

/-- Decimal texts without exponents. -/
def decimals : ExactNumbers where
  parseFloat s := (parseDecimal s).map .fin
  formatFloat
    | .nan => str "NaN"
    | .inf negative => if negative then str "-Inf" else str "+Inf"
    | .fin q => formatDecimal q
  decimal h := by
    obtain ⟨q, hparse, hq⟩ := Option.map_eq_some_iff.mp h
    obtain rfl := Float64.fin.inj hq
    exact isDecimal_of_parseDecimal hparse
  parse_format h := by rw [parseDecimal_formatDecimal h]; rfl

example : decimals.formatFloat (.fin (-5 / 4)) = str "-1.25" := by decide +kernel

end Decimals

/-! ## Printed numbers -/

theorem isDecimal_ofNat (n : ℕ) : IsDecimal n := ⟨n, 0, by simp⟩

theorem formatFloat_inj {numbers : ExactNumbers} {p q : ℚ} (hp : IsDecimal p) (hq : IsDecimal q)
    (h : numbers.formatFloat (.fin p) = numbers.formatFloat (.fin q)) : p = q := by
  have hparse := numbers.parse_format hp
  rw [h, numbers.parse_format hq] at hparse
  exact (Float64.fin.inj (Option.some.inj hparse)).symm

/-- The texts that are printed without exponents are number literals. -/
theorem numeral_formatDecimal (q : ℚ) : Numeral (formatDecimal q) := by
  rw [formatDecimal]
  generalize places q = k
  generalize ⌊q * 10 ^ k⌋ = n
  refine numeral_signed (n < 0) (n.natAbs / 10 ^ k) ?_ ?_
  · split
    · exact notHead_nil
    · exact notHead_cons (by decide) _
  · split
    · rfl
    · next hk =>
      have hdigits := @readDigits_all (lastDigits k n.natAbs) []
        (by rw [← List.length_pos_iff, length_lastDigits]; omega)
        (all_isDigit_lastDigits k n.natAbs) notHead_nil
      rwa [List.append_nil] at hdigits

/-- Numbers with finite expansions are printed as number literals. -/
def ExactNumbers.PrintsNumerals (numbers : ExactNumbers) : Prop :=
  ∀ q, IsDecimal q → Numeral (numbers.formatFloat (.fin q))

theorem decimals_printsNumerals : decimals.PrintsNumerals := fun q _ => numeral_formatDecimal q

end VissServer.Go

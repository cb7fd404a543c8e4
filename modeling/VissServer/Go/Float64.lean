import Mathlib.Algebra.Order.Field.Basic
import Mathlib.Algebra.Order.Field.Rat

/-!
The type float64 in exact arithmetic: its finite values are rational numbers, results are not
rounded and no finite result overflows. A zero has no sign.
-/
namespace VissServer.Go

inductive Float64
  | nan
  | inf (negative : Bool)
  | fin (q : ℚ)
  deriving DecidableEq

namespace Float64

protected def neg : Float64 → Float64
  | nan => nan
  | inf negative => inf !negative
  | fin q => fin (-q)

protected def add : Float64 → Float64 → Float64
  | fin p, fin q => fin (p + q)
  | inf m, inf n => if m = n then inf m else nan
  | inf m, fin _ => inf m
  | fin _, inf n => inf n
  | _, _ => nan

protected def mul : Float64 → Float64 → Float64
  | fin p, fin q => fin (p * q)
  | inf m, inf n => inf (m ^^ n)
  | inf m, fin q => if q = 0 then nan else inf (m ^^ decide (q < 0))
  | fin p, inf n => if p = 0 then nan else inf (n ^^ decide (p < 0))
  | _, _ => nan

protected def div : Float64 → Float64 → Float64
  | fin p, fin q => if q = 0 then if p = 0 then nan else inf (decide (p < 0)) else fin (p / q)
  | inf m, fin q => inf (m ^^ decide (q < 0))
  | fin _, inf _ => fin 0
  | _, _ => nan

/-- A comparison with NaN is false. -/
protected def less : Float64 → Float64 → Bool
  | fin p, fin q => p < q
  | inf m, inf n => m && !n
  | inf m, fin _ => m
  | fin _, inf n => !n
  | _, _ => false

instance : Zero Float64 := ⟨fin 0⟩
instance : Neg Float64 := ⟨Float64.neg⟩
instance : Add Float64 := ⟨Float64.add⟩
instance : Sub Float64 := ⟨fun x y => x + -y⟩
instance : Mul Float64 := ⟨Float64.mul⟩
instance : Div Float64 := ⟨Float64.div⟩
instance : LT Float64 := ⟨fun x y => Float64.less x y = true⟩

instance (x y : Float64) : Decidable (x < y) := inferInstanceAs (Decidable (_ = true))

/-- The value without its sign, as the code takes it. -/
def magnitude (x : Float64) : Float64 := if x < 0 then -x else x

variable {p q : ℚ}

@[simp] theorem zero_eq : (0 : Float64) = fin 0 := rfl

@[simp] theorem neg_fin : -(fin q) = fin (-q) := rfl

@[simp] theorem fin_add : fin p + fin q = fin (p + q) := rfl

@[simp] theorem fin_sub : fin p - fin q = fin (p - q) := by
  rw [sub_eq_add_neg]
  rfl

@[simp] theorem fin_mul : fin p * fin q = fin (p * q) := rfl

@[simp] theorem fin_div (h : q ≠ 0) : fin p / fin q = fin (p / q) := if_neg h

@[simp] theorem fin_lt : fin p < fin q ↔ p < q := decide_eq_true_iff

@[simp] theorem magnitude_fin : magnitude (fin q) = fin |q| := by
  unfold magnitude
  by_cases h : q < 0
  · simp [h, abs_of_neg]
  · simp [h, abs_of_nonneg (not_lt.mp h)]

theorem not_nan_lt (x : Float64) : ¬ nan < x := by
  cases x <;> exact Bool.false_ne_true

theorem not_lt_nan (x : Float64) : ¬ x < nan := by
  cases x <;> exact Bool.false_ne_true

@[simp] theorem mul_nan (x : Float64) : x * nan = nan := by
  cases x <;> rfl

@[simp] theorem add_nan (x : Float64) : x + nan = nan := by
  cases x <;> rfl

@[simp] theorem sub_nan (x : Float64) : x - nan = nan := add_nan x

@[simp] theorem magnitude_nan : magnitude nan = nan := rfl

/-! ## Zero and NaN -/

@[simp] theorem add_zero' (x : Float64) : x + fin 0 = x := by
  cases x with
  | fin p => rw [fin_add, add_zero]
  | _ => rfl

/-- The results of an exact computation that should give zero. -/
def Null (x : Float64) : Prop := x = fin 0 ∨ x = nan

theorem Null.not_pos {x : Float64} (h : Null x) : ¬ 0 < x := by
  rcases h with rfl | rfl
  · exact fun hlt => absurd (fin_lt.mp hlt) (lt_irrefl 0)
  · exact not_lt_nan 0

theorem Null.magnitude {x : Float64} (h : Null x) : Null x.magnitude := by
  rcases h with rfl | rfl
  · exact .inl (by rw [magnitude_fin, abs_zero])
  · exact .inr rfl

theorem Null.add {x y : Float64} (hx : Null x) (hy : Null y) : Null (x + y) := by
  rcases hx with rfl | rfl <;> rcases hy with rfl | rfl
  · exact .inl (by rw [fin_add, add_zero])
  · exact .inr rfl
  · exact .inr rfl
  · exact .inr rfl

theorem Null.square {x : Float64} (h : Null x) : Null (x * x) := by
  rcases h with rfl | rfl
  · exact .inl (by rw [fin_mul, mul_zero])
  · exact .inr rfl

theorem null_mul_zero (x : Float64) : Null (x * fin 0) := by
  cases x with
  | nan => exact .inr rfl
  | inf m => exact .inr rfl
  | fin p => exact .inl (by rw [fin_mul, mul_zero])

theorem null_sub_self (x : Float64) : Null (x - x) := by
  cases x with
  | nan => exact .inr rfl
  | inf m => cases m <;> exact .inr rfl
  | fin p => exact .inl (by rw [fin_sub, sub_self])

theorem Null.sub_add {y : Float64} (h : Null y) (x : Float64) : Null (x - (x + y)) := by
  rcases h with rfl | rfl
  · rw [add_zero']
    exact null_sub_self x
  · rw [add_nan, sub_nan]
    exact .inr rfl

theorem div_mul_cancel' (x : Float64) {d : ℚ} (hd : d ≠ 0) : x / fin d * fin d = x := by
  cases x with
  | nan => rfl
  | inf m =>
    have hmul : inf (m ^^ decide (d < 0)) * fin d =
        inf ((m ^^ decide (d < 0)) ^^ decide (d < 0)) := if_neg hd
    have hdiv : inf m / fin d = inf (m ^^ decide (d < 0)) := rfl
    rw [hdiv, hmul, Bool.xor_assoc, Bool.xor_self, Bool.xor_false]
  | fin p => rw [fin_div hd, fin_mul, div_mul_cancel₀ p hd]

theorem div_zero_mul_zero (x : Float64) : x / fin 0 * fin 0 = nan := by
  cases x with
  | nan => rfl
  | inf m => rfl
  | fin p =>
    have hdiv : fin p / fin 0 = if p = 0 then nan else inf (decide (p < 0)) := rfl
    rw [hdiv]
    split <;> rfl

theorem null_sub_add_sub (x y : Float64) : Null (x - (y + (x - y))) := by
  cases x with
  | nan => exact .inr (by cases y <;> rfl)
  | inf m =>
    cases y with
    | nan => exact .inr rfl
    | inf n => exact .inr (by cases m <;> cases n <;> rfl)
    | fin q => exact .inr (by cases m <;> rfl)
  | fin p =>
    cases y with
    | nan => exact .inr rfl
    | inf n => exact .inr (by cases n <;> rfl)
    | fin q => exact .inl (by rw [fin_sub, fin_add, fin_sub, add_sub_cancel, sub_self])

theorem square_not_neg (x : Float64) : ¬ x * x < 0 := by
  cases x with
  | nan => exact not_nan_lt 0
  | inf m => cases m <;> exact Bool.false_ne_true
  | fin p => exact fun hlt => absurd (fin_lt.mp hlt) (mul_self_nonneg p).not_gt

theorem magnitude_lt_iff_square (x y : Float64) :
    x.magnitude < y.magnitude ↔ x * x < y * y := by
  have hmagnitude : ∀ m, magnitude (inf m) = inf false := by
    intro m
    cases m <;> rfl
  have hsquare : ∀ m, inf m * inf m = inf false := by
    intro m
    cases m <;> rfl
  cases x with
  | nan => exact iff_of_false (not_nan_lt _) (not_nan_lt _)
  | inf m =>
    rw [hmagnitude, hsquare]
    cases y with
    | nan => exact iff_of_false (not_lt_nan _) (not_lt_nan _)
    | inf n => rw [hmagnitude, hsquare]
    | fin q =>
      rw [magnitude_fin, fin_mul]
      exact Iff.rfl
  | fin p =>
    cases y with
    | nan => exact iff_of_false (not_lt_nan _) (not_lt_nan _)
    | inf n =>
      rw [hmagnitude, hsquare, magnitude_fin, fin_mul]
      exact Iff.rfl
    | fin q =>
      rw [magnitude_fin, magnitude_fin, fin_mul, fin_mul, fin_lt, fin_lt]
      exact abs_lt_iff_mul_self_lt

instance : IsTrans Float64 (· < ·) where
  trans x y z hxy hyz := by
    change Float64.less x y = true at hxy
    change Float64.less y z = true at hyz
    change Float64.less x z = true
    cases x <;> cases y <;> cases z <;> simp_all [Float64.less]
    exact hxy.trans hyz

end Float64

end VissServer.Go

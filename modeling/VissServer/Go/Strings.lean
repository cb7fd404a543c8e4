import Mathlib.Data.List.Infix
import Mathlib.Data.Int.Order.Basic
import Mathlib.Algebra.GroupWithZero.Nat

/-!
Go strings as byte lists, with the functions of the packages strings and
strconv on them. An index or slice expression that leaves its bounds is a
run-time panic, which ends the process: such results have type MayPanic, and
none is the panic. A strconv error is an ordinary value, none in an Option.
-/
namespace VissServer.Go

abbrev GoString := List UInt8

/-- The value of an expression that may panic at run time; none is the panic. -/
abbrev MayPanic (α : Type*) := Option α

-- Small enumerations of the source are numbers below 4 and below 8.
instance neZero_four : NeZero 4 := ⟨by decide⟩

instance neZero_eight : NeZero 8 := ⟨by decide⟩

instance decidableListed (s : GoString) (list : List GoString) : Decidable (s ∈ list) :=
  List.instDecidableMemOfLawfulBEq s list

/-- The bytes of a string literal. -/
def str (s : String) : GoString := s.toUTF8.data.toList

/-- Position of the first occurrence of sub. -/
def index? (sub : GoString) : GoString → Option ℕ
  | [] => if sub = [] then some 0 else none
  | c :: s =>
      if sub.isPrefixOf (c :: s) then some 0 else (index? sub s).map (· + 1)

/-- strings.Index: -1 where sub does not occur. -/
def index (s sub : GoString) : ℤ :=
  match index? sub s with
  | some i => i
  | none => -1

/-- strings.Contains. -/
def contains (s sub : GoString) : Bool := (index? sub s).isSome

/-- strings.LastIndex for a one-byte separator: -1 where it does not occur. -/
def lastIndexByte (s : GoString) (c : UInt8) : ℤ :=
  match index? [c] s.reverse with
  | some i => s.length - 1 - i
  | none => -1

/-- The slice expression s[low:high]. -/
def slice (s : GoString) (low high : ℤ) : MayPanic GoString :=
  if 0 ≤ low ∧ low ≤ high ∧ high ≤ s.length then
    some ((s.take high.toNat).drop low.toNat)
  else none

/-- The slice expression s[low:]. -/
def sliceFrom (s : GoString) (low : ℤ) : MayPanic GoString := slice s low s.length

/-- The index expression s[i]. -/
def byteAt (s : GoString) (i : ℤ) : MayPanic UInt8 :=
  if 0 ≤ i then s[i.toNat]? else none

/-- strings.Replace(s, old, new, 1). -/
def replaceFirst (s old new : GoString) : GoString :=
  match index? old s with
  | some i => s.take i ++ new ++ s.drop (i + old.length)
  | none => s

/-- The scan behind ReplaceAll: skip counts the bytes of an occurrence that
are still to be passed over. -/
def replaceFrom (old new : GoString) : ℕ → GoString → GoString
  | _, [] => []
  | skip + 1, _ :: s => replaceFrom old new skip s
  | 0, c :: s =>
      if old.isPrefixOf (c :: s) then new ++ replaceFrom old new (old.length - 1) s
      else c :: replaceFrom old new 0 s

/-- strings.ReplaceAll for a nonempty old. -/
def replaceAll (s old new : GoString) : GoString := replaceFrom old new 0 s

/-- strings.TrimPrefix. -/
def trimPrefix (s p : GoString) : GoString :=
  if p.isPrefixOf s then s.drop p.length else s

/-- strings.Split for a one-byte separator. -/
def splitByte (sep : UInt8) : GoString → List GoString
  | [] => [[]]
  | c :: s =>
      if c = sep then [] :: splitByte sep s
      else match splitByte sep s with
        | [] => [[c]]
        | part :: parts => (c :: part) :: parts

def isDigit (c : UInt8) : Bool := 48 ≤ c && c ≤ 57

/-- The number that a run of decimal digits denotes. -/
def digitsVal (s : GoString) : ℕ := s.foldl (fun n c => 10 * n + (c.toNat - 48)) 0

/-- An optional sign and the bytes after it. -/
def splitSign : GoString → Bool × GoString
  | [] => (false, [])
  | c :: s => if c = 45 then (true, s) else if c = 43 then (false, s) else (false, c :: s)

/-- strconv.Atoi on a 64-bit platform; none is the error. -/
def atoi (s : GoString) : Option ℤ :=
  let (neg, digits) := splitSign s
  if digits = [] ∨ ¬ digits.all isDigit then none
  else
    let v : ℤ := if neg then -(digitsVal digits : ℤ) else digitsVal digits
    if -9223372036854775808 ≤ v ∧ v ≤ 9223372036854775807 then some v else none

/-- strconv.Atoi with its error ignored: 0 for a text that is no number, the nearest
value for a number that is out of range. -/
def atoiIgnoringError (s : GoString) : ℤ :=
  let (neg, digits) := splitSign s
  if digits = [] ∨ ¬ digits.all isDigit then 0
  else
    let v : ℤ := if neg then -(digitsVal digits : ℤ) else digitsVal digits
    max (-9223372036854775808) (min v 9223372036854775807)

/-- The value of an int64 computation, wrapped around. -/
def wrapInt64 (v : ℤ) : ℤ :=
  (v + 9223372036854775808) % 18446744073709551616 - 9223372036854775808

/-- Decimal digits of a natural number. -/
def natDigits (n : ℕ) : GoString := (Nat.toDigits 10 n).map fun c => UInt8.ofNat c.toNat

theorem isDigit_of_mem_natDigits {n : ℕ} {c : UInt8} (h : c ∈ natDigits n) :
    isDigit c = true := by
  obtain ⟨d, hd, rfl⟩ := List.mem_map.mp h
  have hdigit := Nat.isDigit_of_mem_toDigits (by decide) (by decide) hd
  simp only [Char.isDigit, ge_iff_le, Bool.and_eq_true, decide_eq_true_eq,
    UInt32.le_iff_toNat_le] at hdigit
  have hlow : (48 : UInt32).toNat ≤ d.toNat := hdigit.1
  have hhigh : d.toNat ≤ (57 : UInt32).toNat := hdigit.2
  have h48 : (48 : UInt32).toNat = 48 := rfl
  have h57 : (57 : UInt32).toNat = 57 := rfl
  have hbyte : (UInt8.ofNat d.toNat).toNat = d.toNat := by
    simp only [UInt8.toNat_ofNat']
    omega
  have h48' : (48 : UInt8).toNat = 48 := rfl
  have h57' : (57 : UInt8).toNat = 57 := rfl
  simp only [isDigit, Bool.and_eq_true, decide_eq_true_eq, UInt8.le_iff_toNat_le, hbyte]
  omega

/-- strconv.Itoa. -/
def itoa (z : ℤ) : GoString :=
  if z < 0 then 45 :: natDigits z.natAbs else natDigits z.natAbs

end VissServer.Go

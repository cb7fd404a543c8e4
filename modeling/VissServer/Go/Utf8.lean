import VissServer.Go.Strings

/-!
The byte patterns of UTF-8 as unicode/utf8 reads and writes them. A Go string
may hold any bytes; runeLen is 0 where they do not start a valid encoding.
-/
namespace VissServer.Go

def isTail (b : UInt8) : Bool := 0x80 ≤ b && b ≤ 0xBF

/-- The second bytes that may follow the first byte of a longer encoding. -/
def secondOk (a b : UInt8) : Bool :=
  if a = 0xE0 then 0xA0 ≤ b && b ≤ 0xBF
  else if a = 0xED then 0x80 ≤ b && b ≤ 0x9F
  else if a = 0xF0 then 0x90 ≤ b && b ≤ 0xBF
  else if a = 0xF4 then 0x80 ≤ b && b ≤ 0x8F
  else isTail b

/-- The number of bytes that the lead byte a announces. -/
def leadLen (a : UInt8) : ℕ :=
  if a < 0x80 then 1
  else if 0xC2 ≤ a ∧ a ≤ 0xDF then 2
  else if 0xE0 ≤ a ∧ a ≤ 0xEF then 3
  else if 0xF0 ≤ a ∧ a ≤ 0xF4 then 4
  else 0

/-- Length of the valid encoding at the head, 0 where there is none. -/
def runeLen : GoString → ℕ
  | [] => 0
  | a :: s =>
      match leadLen a, s with
      | 1, _ => 1
      | 2, b :: _ => if secondOk a b then 2 else 0
      | 3, b :: c :: _ => if secondOk a b ∧ isTail c then 3 else 0
      | 4, b :: c :: d :: _ => if secondOk a b ∧ isTail c ∧ isTail d then 4 else 0
      | _, _ => 0

/-- The encoding of U+FFFD, which stands in for bytes that are not valid. -/
def replacementChar : GoString := [0xEF, 0xBF, 0xBD]

/-- utf8.EncodeRune: surrogates and values past U+10FFFF become U+FFFD. -/
def encodeRune (n : ℕ) : GoString :=
  if n < 0x80 then [UInt8.ofNat n]
  else if n < 0x800 then [UInt8.ofNat (0xC0 + n / 64), UInt8.ofNat (0x80 + n % 64)]
  else if 0xD800 ≤ n ∧ n ≤ 0xDFFF ∨ 0x10FFFF < n then replacementChar
  else if n < 0x10000 then
    [UInt8.ofNat (0xE0 + n / 4096), UInt8.ofNat (0x80 + n / 64 % 64),
      UInt8.ofNat (0x80 + n % 64)]
  else
    [UInt8.ofNat (0xF0 + n / 262144), UInt8.ofNat (0x80 + n / 4096 % 64),
      UInt8.ofNat (0x80 + n / 64 % 64), UInt8.ofNat (0x80 + n % 64)]

/-- The runes of a string one by one, an invalid byte being a segment of its own.
The first argument bounds the number of segments. -/
def segmentsUpTo : ℕ → GoString → List GoString
  | _, [] => []
  | 0, _ => []
  | n + 1, a :: s =>
      (a :: s).take (max 1 (runeLen (a :: s))) ::
        segmentsUpTo n ((a :: s).drop (max 1 (runeLen (a :: s))))

def segments (s : GoString) : List GoString := segmentsUpTo s.length s

end VissServer.Go

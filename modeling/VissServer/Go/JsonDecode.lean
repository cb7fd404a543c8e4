import VissServer.Go.Json
import VissServer.Go.Utf8

/-!
Reading JSON texts as the package encoding/json does. Parsers return the value
and the bytes after it. The parsers of containers take the parser of their
values, so that the nesting depth is the only recursion between values.
-/
namespace VissServer.Go

def isSpace (c : UInt8) : Bool := c = 32 || c = 9 || c = 10 || c = 13

def skipSpace (s : GoString) : GoString := s.dropWhile isSpace

def expect (c : UInt8) : GoString → Option GoString
  | [] => none
  | x :: s => if x = c then some s else none

def hexVal (c : UInt8) : Option ℕ :=
  if 48 ≤ c ∧ c ≤ 57 then some (c.toNat - 48)
  else if 97 ≤ c ∧ c ≤ 102 then some (c.toNat - 87)
  else if 65 ≤ c ∧ c ≤ 70 then some (c.toNat - 55)
  else none

/-- The value of the four hexadecimal digits after \u. -/
def hex4 : GoString → Option (ℕ × GoString)
  | a :: b :: c :: d :: s => do
      let x ← hexVal a
      let y ← hexVal b
      let z ← hexVal c
      let w ← hexVal d
      some (4096 * x + 256 * y + 16 * z + w, s)
  | _ => none

/-- A low surrogate escape, which must follow a high one. -/
def lowSurrogate (s : GoString) : Option (ℕ × GoString) := do
  let s ← expect 92 s
  let s ← expect 117 s
  let (n, s) ← hex4 s
  if 0xDC00 ≤ n ∧ n ≤ 0xDFFF then some (n, s) else none

/-- The rune of a \u escape; a surrogate without its partner is U+FFFD. -/
def unicodeEscape (s : GoString) : Option (GoString × GoString) := do
  let (n, s) ← hex4 s
  if 0xD800 ≤ n ∧ n ≤ 0xDBFF then
    match lowSurrogate s with
    | some (low, s') => some (encodeRune (0x10000 + 1024 * (n - 0xD800) + (low - 0xDC00)), s')
    | none => some (replacementChar, s)
  else some (encodeRune n, s)

/-- The bytes an escape stands for, read after its backslash. -/
def escape : GoString → Option (GoString × GoString)
  | [] => none
  | c :: s =>
      if c = 34 ∨ c = 92 ∨ c = 47 then some ([c], s)
      else if c = 98 then some ([8], s)
      else if c = 102 then some ([12], s)
      else if c = 110 then some ([10], s)
      else if c = 114 then some ([13], s)
      else if c = 116 then some ([9], s)
      else if c = 117 then unicodeEscape s
      else none

/-- One character of a string body; bytes that are not valid UTF-8 become U+FFFD. -/
def readChar : GoString → Option (GoString × GoString)
  | [] => none
  | c :: s =>
      if c = 92 then escape s
      else if c < 32 then none
      else if runeLen (c :: s) = 0 then some (replacementChar, s)
      else some ((c :: s).take (runeLen (c :: s)), (c :: s).drop (runeLen (c :: s)))

/-- A string after its opening quote. -/
def readString : ℕ → GoString → Option (GoString × GoString)
  | 0, _ => none
  | n + 1, s =>
      match expect 34 s with
      | some rest => some ([], rest)
      | none => do
          let (c, rest) ← readChar s
          let (t, rest) ← readString n rest
          some (c ++ t, rest)

/-- A nonempty run of digits. -/
def readDigits (s : GoString) : Option GoString :=
  if (s.takeWhile isDigit).isEmpty then none else some (s.dropWhile isDigit)

def readInteger (s : GoString) : Option GoString :=
  match expect 48 s with
  | some rest => some rest
  | none => readDigits s

def readFraction (s : GoString) : Option GoString :=
  match expect 46 s with
  | some rest => readDigits rest
  | none => some s

def readExponent (s : GoString) : Option GoString :=
  match s with
  | [] => some []
  | c :: rest =>
      if c = 101 ∨ c = 69 then
        match rest with
        | [] => none
        | d :: rest' => if d = 43 ∨ d = 45 then readDigits rest' else readDigits (d :: rest')
      else some s

/-- The bytes after a number literal. -/
def afterNumber (s : GoString) : Option GoString := do
  let s ← readInteger ((expect 45 s).getD s)
  let s ← readFraction s
  readExponent s

/-- A literal name, a number or a string. -/
def parseScalar (s : GoString) : Option (Json × GoString) :=
  match expect 34 s with
  | some rest => (readString rest.length rest).map fun p => (.str p.1, p.2)
  | none =>
      if (Go.str "true").isPrefixOf s then some (.bool true, s.drop 4)
      else if (Go.str "false").isPrefixOf s then some (.bool false, s.drop 5)
      else if (Go.str "null").isPrefixOf s then some (.null, s.drop 4)
      else (afterNumber s).map fun rest => (.num (s.take (s.length - rest.length)), rest)

section Containers

variable {α : Type} (value : GoString → Option (α × GoString))

/-- The members of a nonempty object, read up to its closing brace. -/
def readMembers : ℕ → GoString → Option (List (GoString × α) × GoString)
  | 0, _ => none
  | n + 1, s => do
      let s ← expect 34 (skipSpace s)
      let (k, s) ← readString s.length s
      let s ← expect 58 (skipSpace s)
      let (v, s) ← value (skipSpace s)
      match expect 44 (skipSpace s) with
      | some rest => do
          let (members, rest) ← readMembers n rest
          some ((k, v) :: members, rest)
      | none => do
          let rest ← expect 125 (skipSpace s)
          some ([(k, v)], rest)

/-- The members of an object after its opening brace. -/
def readObject (s : GoString) : Option (List (GoString × α) × GoString) :=
  match expect 125 (skipSpace s) with
  | some rest => some ([], rest)
  | none => readMembers value s.length s

/-- The items of a nonempty array, read up to its closing bracket. -/
def readItems : ℕ → GoString → Option (List α × GoString)
  | 0, _ => none
  | n + 1, s => do
      let (v, s) ← value (skipSpace s)
      match expect 44 (skipSpace s) with
      | some rest => do
          let (items, rest) ← readItems n rest
          some (v :: items, rest)
      | none => do
          let rest ← expect 93 (skipSpace s)
          some ([v], rest)

/-- The items of an array after its opening bracket. -/
def readArray (s : GoString) : Option (List α × GoString) :=
  match expect 93 (skipSpace s) with
  | some rest => some ([], rest)
  | none => readItems value s.length s

end Containers

/-- A value whose containers nest at most depth deep. -/
def parseValue : ℕ → GoString → Option (Json × GoString)
  | 0, s => if s.head? = some 123 ∨ s.head? = some 91 then none else parseScalar s
  | depth + 1, s =>
      match expect 123 s, expect 91 s with
      | some rest, _ => (readObject (parseValue depth) rest).map fun p => (.obj p.1, p.2)
      | none, some rest => (readArray (parseValue depth) rest).map fun p => (.arr p.1, p.2)
      | none, none => parseScalar s

/-- The limit maxNestingDepth of encoding/json. -/
def maxNestingDepth : ℕ := 10000

/-- The first value of a text and the bytes after it. -/
def parseFirst (s : GoString) : Option (Json × GoString) :=
  parseValue maxNestingDepth (skipSpace s)

/-- A text that is one value; only white space may follow it. -/
def parseText (s : GoString) : Option Json := do
  let (v, rest) ← parseFirst s
  if skipSpace rest = [] then some v else none

/-- json.Decoder.Decode into a nil map: what follows the first value is not read,
and null leaves the map nil. -/
def decodeMap (s : GoString) : Option (GoMap Json) :=
  match parseFirst s with
  | some (.obj members, _) => some (GoMap.ofMembers (canonMembers members))
  | some (.null, _) => some []
  | _ => none

/-- json.Unmarshal into a nil map[string]interface{}. -/
def unmarshalMap (s : GoString) : Option (GoMap Json) :=
  match parseText s with
  | some (.obj members) => some (GoMap.ofMembers (canonMembers members))
  | some .null => some []
  | _ => none

/-- json.Unmarshal into a []string that held nothing. -/
def unmarshalStrings (s : GoString) : Option (List GoString) :=
  match parseText s with
  | some (.arr items) => items.mapM fun j =>
      match j with
      | .str t => some t
      | .null => some []
      | _ => none
  | some .null => some []
  | _ => none

/-- json.Unmarshal into a map[string]string that may hold entries already. -/
def decodeStringMap (m : GoMap GoString) : Json → Option (GoMap GoString)
  | .null => some []
  | .obj members => members.foldlM (fun m p =>
      match p.2 with
      | .str t => some (m.set p.1 t)
      | .null => some (m.set p.1 [])
      | _ => none) m
  | _ => none

/-- The raw text of a value, as json.RawMessage keeps it. -/
def rawValue (depth : ℕ) (s : GoString) : Option (GoString × GoString) :=
  (parseValue depth s).map fun p => (s.take (s.length - p.2.length), p.2)

/-- json.Unmarshal into a nil map[string]json.RawMessage. -/
def unmarshalRaw (s : GoString) : Option (GoMap GoString) := do
  let v ← parseText s
  match v with
  | .null => some []
  | .obj _ => do
      let s ← expect 123 (skipSpace s)
      let (members, _) ← readObject (rawValue (maxNestingDepth - 1)) s
      some (GoMap.ofMembers members)
  | _ => none

/-- An ASCII letter in upper case; the two other runes that fold to an ASCII
letter are the long s and the Kelvin sign. -/
def foldSegment (seg : GoString) : GoString :=
  if seg = [0xC5, 0xBF] then [83]
  else if seg = [0xE2, 0x84, 0xAA] then [75]
  else match seg with
    | [c] => if 97 ≤ c ∧ c ≤ 122 then [c - 32] else [c]
    | _ => seg

/-- Whether a member decodes into the struct field of that name. -/
def fieldNamed (name key : GoString) : Bool :=
  (segments key).map foldSegment = (segments name).map foldSegment

/-- Decoding into a string field; null leaves the field as it is. -/
def decodeString (field : GoString) : Json → Option GoString
  | .str t => some t
  | .null => some field
  | _ => none

/-- Decoding into a struct: each member in turn goes to the field it names. -/
def decodeStruct {σ : Type} (setField : σ → GoString → Json → Option σ) (v : σ) :
    Json → Option σ
  | .null => some v
  | .obj members => members.foldlM (fun v p => setField v p.1 p.2) v
  | _ => none

end VissServer.Go

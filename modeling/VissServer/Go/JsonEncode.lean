import VissServer.Go.Json
import VissServer.Go.Utf8

/-!
Printing JSON texts as json.Marshal does: no white space, members by increasing
key, HTML characters and line separators escaped.
-/
namespace VissServer.Go

def hexDigit (n : ℕ) : UInt8 := UInt8.ofNat (if n < 10 then 48 + n else 87 + n)

/-- One segment of a string as json.Marshal prints it, HTML characters escaped. -/
def quoteSegment (seg : GoString) : GoString :=
  match seg with
  | [c] =>
      if c = 34 ∨ c = 92 then [92, c]
      else if c = 10 then [92, 110]
      else if c = 13 then [92, 114]
      else if c = 9 then [92, 116]
      else if c < 32 ∨ c = 60 ∨ c = 62 ∨ c = 38 then
        [92, 117, 48, 48, hexDigit (c.toNat / 16), hexDigit (c.toNat % 16)]
      else if c < 128 then [c]
      else [92, 117, 102, 102, 102, 100]
  | _ =>
      if seg = [0xE2, 0x80, 0xA8] then Go.str "\\u2028"
      else if seg = [0xE2, 0x80, 0xA9] then Go.str "\\u2029"
      else seg

/-- A string as json.Marshal prints it. -/
def quote (s : GoString) : GoString := 34 :: ((segments s).flatMap quoteSegment ++ [34])

mutual

/-- json.Marshal. -/
def marshal : Json → GoString
  | .null => Go.str "null"
  | .bool b => if b then Go.str "true" else Go.str "false"
  | .num literal => literal
  | .str s => quote s
  | .arr items => 91 :: (marshalItems items ++ [93])
  | .obj members => 123 :: (marshalMembers members ++ [125])

def marshalItems : List Json → GoString
  | [] => []
  | [j] => marshal j
  | j :: items => marshal j ++ 44 :: marshalItems items

def marshalMembers : List (GoString × Json) → GoString
  | [] => []
  | [(k, j)] => quote k ++ 58 :: marshal j
  | (k, j) :: members => quote k ++ 58 :: (marshal j ++ 44 :: marshalMembers members)

end

end VissServer.Go

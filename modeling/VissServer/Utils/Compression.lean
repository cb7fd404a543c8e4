import Mathlib.Algebra.Group.Int.Defs
import VissServer.Go.Slices
import VissServer.Go.Utf8

/-!
The proprietary compression of messages (computils.go). The list of paths is a parameter,
and so are the conversions of strconv and fmt for 32-bit floating-point numbers. An index
or a slice that leaves the message, the code list or the path list is none; this includes
slices that the capacity of the message would let through.
-/
namespace VissServer.Utils

open VissServer.Go

/-- strconv.ParseFloat(value, 32), none where it returns an error, and
fmt.Sprintf("%f", f32Val). A number is given by its IEEE 754 bits. -/
structure Floats where
  parseFloat : GoString → Option UInt32
  sprintf : UInt32 → GoString

def codeList : List GoString :=
  ["action", "requestId", "value", "ts", "path", "subscriptionId", "data", "dp", "filter",
    "authorization", "get", "set", "subscribe", "unsubscribe", "subscription", "nuint8",
    "uint8", "nuint16", "uint16", "nuint24", "uint24", "nuint32", "uint32", "bool", "float",
    "unknown"].map str

def codeListIndexReqId : UInt8 := 1
def codeListIndexValue : UInt8 := 2
def codeListIndexTs : UInt8 := 3
def codeListIndexPath : UInt8 := 4
def codeListIndexSubId : UInt8 := 5
def codeListKeys : UInt8 := 10
def codeListKeyValues : UInt8 := 15

def getCodeListIndex (token : GoString) : UInt8 :=
  match codeList.findIdx? (· = token) with
  | some i => UInt8.ofNat i
  | none => 255

/-! ## Decompression -/

def decompressPath (pathList : List GoString) (index : GoString) : MayPanic GoString := do
  let high ← index[0]?
  let low ← index[1]?
  let path ← pathList[high.toNat * 256 + low.toNat]?
  some (34 :: path ++ [34])

def decompressTs (tsCompressed : GoString) : MayPanic GoString := do
  let ts0 ← tsCompressed[0]?
  let ts1 ← tsCompressed[1]?
  let ts2 ← tsCompressed[2]?
  let ts3 ← tsCompressed[3]?
  let month := (ts1 &&& 0xC0) / 64 + (ts0 &&& 0x3) * 4
  let day := (ts1 &&& 0x3E) / 2
  let hour := (ts2 &&& 0xF0) / 16 + (ts1 &&& 0x1) * 16
  let minute := (ts3 &&& 0xC0) / 64 + (ts2 &&& 0x0F) * 4
  let second := ts3 &&& 0x3F
  some [34, 50, 48, 50, ts0 / 4 + 48, 45, month / 10 + 48, month % 10 + 48, 45,
    day / 10 + 48, day % 10 + 48, 84, hour / 10 + 48, hour % 10 + 48, 58,
    minute / 10 + 48, minute % 10 + 48, 58, second / 10 + 48, second % 10 + 48, 90, 34]

/-- The n bytes behind the type code, as decompressOneValue adds them up. -/
def unsigned (valueCompressed : GoString) (n : ℕ) : MayPanic ℕ :=
  if n + 1 ≤ valueCompressed.length then
    some (((valueCompressed.drop 1).take n).foldl (fun value b => value * 256 + b.toNat) 0)
  else none

/-- The cases of decompressOneValue for a number of n bytes. -/
def decompressInt (valueLead : GoString) (n : ℕ) (valueCompressed : GoString) :
    MayPanic (GoString × ℕ) := do
  let value ← unsigned valueCompressed n
  some (valueLead ++ natDigits value ++ [34], n + 1)

def convert4BytesToF32 (byteBuf : GoString) : UInt32 :=
  UInt32.ofNat (byteBuf.foldr (fun b value => b.toNat + value * 256) 0)

/-- The value at the head, and the number of bytes it takes. -/
def decompressOneValue (floats : Floats) (valueCompressed : GoString) :
    MayPanic (GoString × ℕ) := do
  let code ← valueCompressed[0]?
  let name ← codeList[(code - 128).toNat]?
  if name = str "nuint8" then decompressInt (str "\"-") 1 valueCompressed
  else if name = str "uint8" then decompressInt (str "\"") 1 valueCompressed
  else if name = str "nuint16" then decompressInt (str "\"-") 2 valueCompressed
  else if name = str "uint16" then decompressInt (str "\"") 2 valueCompressed
  else if name = str "nuint24" then decompressInt (str "\"-") 3 valueCompressed
  else if name = str "uint24" then decompressInt (str "\"") 3 valueCompressed
  else if name = str "nuint32" then decompressInt (str "\"-") 4 valueCompressed
  else if name = str "uint32" then decompressInt (str "\"") 4 valueCompressed
  else if name = str "bool" then do
    let b ← valueCompressed[1]?
    some (if b = 0 then str "\"false\"" else str "\"true\"", 2)
  else if name = str "float" then do
    let byteBuf ← slice valueCompressed 1 5
    some (34 :: floats.sprintf (convert4BytesToF32 byteBuf) ++ [34], 5)
  else do
    -- Index is -1 where no quote follows, and three bytes are taken then.
    let rest ← sliceFrom valueCompressed 3
    let bytesRead := index rest (str "\"") + 4
    let value ← slice valueCompressed 1 bytesRead
    some (value, bytesRead.toNat)

/-- The loop of decompressValue from index on; fuel bounds its passes. -/
def decompressValueFrom (floats : Floats) (valueCompressed : GoString) :
    ℕ → ℕ → MayPanic (GoString × ℕ)
  | 0, _ => none
  | fuel + 1, index => do
    let c ← valueCompressed[index]?
    if c = 91 ∨ c = 93 ∨ c = 44 ∨ c = 123 then
      if c = 93 ∨ c = 123 then some ([c], index + 1)
      else do
        let (rest, bytesRead) ← decompressValueFrom floats valueCompressed fuel (index + 1)
        some (c :: rest, bytesRead)
    else do
      let (value, n) ← decompressOneValue floats (valueCompressed.drop index)
      let comma : GoString := if valueCompressed[index + n]? = some c then [44] else []
      if index = 0 then some (value ++ comma, n)
      else do
        let (rest, bytesRead) ← decompressValueFrom floats valueCompressed fuel (index + n)
        some (value ++ comma ++ rest, bytesRead)

def decompressValue (floats : Floats) (valueCompressed : GoString) : MayPanic (GoString × ℕ) :=
  decompressValueFrom floats valueCompressed (valueCompressed.length + 1) 0

/-- The keyword of a code, and a colon if it is a key. -/
def keyword (code : UInt8) : MayPanic GoString :=
  if code < codeListKeyValues then do
    let word ← codeList[code.toNat]?
    some (34 :: word ++ 34 :: (if code < codeListKeys then [58] else []))
  else some []

/-- What follows the key of a code, and the number of bytes read with the code. -/
def operand (floats : Floats) (pathList : List GoString) (code : UInt8) (behind : GoString) :
    MayPanic (GoString × ℕ) :=
  if code = codeListIndexPath then do
    let path ← decompressPath pathList behind
    some (path, 3)
  else if code = getCodeListIndex (str "ts") then do
    let ts ← decompressTs behind
    some (ts, 5)
  else if code = codeListIndexValue ∨ code = codeListIndexReqId ∨ code = codeListIndexSubId then do
    let (value, n) ← decompressValue floats behind
    some (value, 1 + n)
  else some ([], 1)

/-- The comma behind a code whose last byte read is in front of offset. -/
def codeComma (message : GoString) (code : UInt8) (offset : ℕ) : MayPanic GoString :=
  if code < codeListKeyValues ∧ code ≠ getCodeListIndex (str "action") ∧
      code ≠ getCodeListIndex (str "filter") ∧ code ≠ getCodeListIndex (str "authorization") ∧
      offset ≠ message.length then do
    let next ← message[offset]?
    let last ← message[offset - 1]?
    some (if next ≠ 125 ∧ next ≠ 93 ∧ last ≠ 123 ∧ last ≠ 91 then [44] else [])
  else some []

/-- The text of the compressed token at offset, and the number of bytes it takes. -/
def readCompressedMessage (floats : Floats) (pathList : List GoString) (message : GoString)
    (offset : ℕ) : MayPanic (GoString × ℕ) := do
  let b ← message[offset]?
  if 128 ≤ b then do
    let word ← keyword (b - 128)
    let (value, bytesRead) ← operand floats pathList (b - 128) (message.drop (offset + 1))
    let comma ← codeComma message (b - 128) (offset + bytesRead)
    some (word ++ value ++ comma, bytesRead)
  else
    some (b :: (if b = 125 ∧ message[offset + 1]? = some 123 then [44] else []), 1)

/-- The loop of DecompressMessage from offset on; fuel bounds its passes. -/
def decompressFrom (floats : Floats) (pathList : List GoString) (message : GoString) :
    ℕ → ℕ → MayPanic GoString
  | 0, offset => if offset < message.length then none else some []
  | fuel + 1, offset =>
    if offset < message.length then do
      let (uncompressedToken, compressedLen) ←
        readCompressedMessage floats pathList message offset
      let rest ← decompressFrom floats pathList message fuel (offset + compressedLen)
      some (uncompressedToken ++ rest)
    else some []

/-- DecompressMessage, with a bound on the passes of its loop. -/
def decompressWithin (floats : Floats) (pathList : List GoString) (fuel : ℕ)
    (message : GoString) : MayPanic GoString :=
  if message = [] then some message
  else do
    let text ← decompressFrom floats pathList message fuel 0
    let opening : GoString := if message.head? = some 123 then [] else [123]
    let closing : GoString := if message.getLast? = some 125 then [] else [125]
    some (opening ++ text ++ closing)

def decompressMessage (floats : Floats) (pathList : List GoString) (message : GoString) :
    MayPanic GoString :=
  decompressWithin floats pathList message.length message

/-! ## Compression -/

/-- NextQuoteMark: offset where there is none. -/
def nextQuoteMark (message : GoString) (offset : ℕ) : ℕ :=
  match index? [34] (message.drop offset) with
  | some i => offset + i
  | none => offset

def readUncompressedMessage (message : GoString) (offset : ℕ) : MayPanic GoString := do
  let b ← message[offset]?
  if b = 34 then slice message offset (nextQuoteMark message (offset + 1) + 1)
  else some (encodeRune b.toNat)

/-- The loop of sort.Search between i and j; the first argument bounds its passes. -/
def searchBetween (f : ℕ → Bool) : ℕ → ℕ → ℕ → ℕ
  | 0, i, _ => i
  | fuel + 1, i, j =>
    if i < j then
      if f ((i + j) / 2) then searchBetween f fuel i ((i + j) / 2)
      else searchBetween f fuel ((i + j) / 2 + 1) j
    else i

/-- sort.Search. -/
def search (n : ℕ) (f : ℕ → Bool) : ℕ := searchBetween f n 0 n

def compressPath (pathList : List GoString) (path : GoString) : MayPanic GoString := do
  let comparePath := replaceAll path (str "/") (str ".")
  let unquoted ← slice comparePath 1 (comparePath.length - 1)
  let index := search pathList.length fun i => (pathList[i]?).any fun p => unquoted ≤ p
  if pathList[index]? = some unquoted then
    some [UInt8.ofNat (index / 256 % 256), UInt8.ofNat (index % 256)]
  else some path

def twoToOneByte (twoByte : GoString) : MayPanic UInt8 := do
  let high ← twoByte[0]?
  let low ← twoByte[1]?
  some ((high - 48) * 10 + (low - 48))

/-- compressTS on the message from the token on: a slice of the token may reach behind it. -/
def compressTS (ts : GoString) : MayPanic GoString := do
  let second ← twoToOneByte (← slice ts 18 20)
  let minute ← twoToOneByte (← slice ts 15 17)
  let hour ← twoToOneByte (← slice ts 12 14)
  let day ← twoToOneByte (← slice ts 9 11)
  let month ← twoToOneByte (← slice ts 6 8)
  let year := (← ts[4]?) - 48
  some [year * 4 + month / 4, (month &&& 0x3) * 64 + day * 2 + hour / 16,
    (hour &&& 0xF) * 16 + minute / 4, (minute &&& 0x3) * 64 + second]

def getIntType (byteSize : ℕ) (isPos : Bool) : GoString :=
  if byteSize = 1 then if isPos then str "uint8" else str "nuint8"
  else if byteSize = 2 then if isPos then str "uint16" else str "nuint16"
  else if byteSize = 3 then if isPos then str "uint24" else str "nuint24"
  else if isPos then str "uint32" else str "nuint32"

/-- The byte of an integer that a mask and a division by the k-th power of 256 give. -/
def byteOf (intVal : ℤ) (k : ℕ) : UInt8 := UInt8.ofNat (intVal / 256 ^ k % 256).toNat

/-- The type code for an integer of byteSize bytes, and these bytes. -/
def intCode (byteSize : ℕ) (isPos : Bool) (intVal : ℤ) : GoString :=
  (getCodeListIndex (getIntType byteSize isPos) + 128) ::
    ((List.range byteSize).reverse.map (byteOf intVal))

def compressIntValue (value : GoString) : MayPanic GoString := do
  let text ← slice value 1 (value.length - 1)
  let parsed := atoiIgnoringError text
  let isPos := decide (0 ≤ parsed)
  let intVal := if parsed < 0 then wrapInt64 (parsed * -1) else parsed
  if intVal < 256 then some (intCode 1 isPos intVal)
  else if intVal < 65536 then some (intCode 2 isPos intVal)
  else if intVal < 16777216 then some (intCode 3 isPos intVal)
  -- The conversion to uint32 makes the bound hold for every intVal.
  else if intVal % 4294967296 ≤ 4294967296 - 1 then some (intCode 4 isPos intVal)
  else some value

def compressBoolValue (value : GoString) : GoString :=
  [getCodeListIndex (str "bool") + 128, if value = str "\"true\"" then 1 else 0]

def float32ToByte (f32Val : UInt32) : GoString :=
  [UInt8.ofNat f32Val.toNat, UInt8.ofNat (f32Val.toNat / 256),
    UInt8.ofNat (f32Val.toNat / 65536), UInt8.ofNat (f32Val.toNat / 16777216)]

def compressFloatValue (floats : Floats) (value : GoString) : MayPanic GoString := do
  let text ← slice value 1 (value.length - 1)
  some ((getCodeListIndex (str "float") + 128) ::
    float32ToByte ((floats.parseFloat text).getD 0))

def compressOtherValue (value : GoString) : GoString :=
  (getCodeListIndex (str "unknown") + 128) :: value

/-- isFloatType. The smallest normal number is below 1.175494351e-38, and the largest number
above 3.402823466e+38; a comparison with NaN is false. -/
def isFloatType (floats : Floats) (value : GoString) : Bool :=
  match floats.parseFloat value with
  | none => false
  | some f32Val =>
    let magnitude := f32Val &&& 0x7FFFFFFF
    0x00800000 < magnitude && magnitude ≠ 0x7F7FFFFF && magnitude ≠ 0x7F800000

/-- AnalyzeValueType: 1 for an integer, 2 for a boolean, 3 for a floating-point number. -/
def analyzeValueType (floats : Floats) (value : GoString) : ℕ :=
  if (atoi value).isSome then 1
  else if value = str "true" ∨ value = str "false" then 2
  else if isFloatType floats value then 3
  else 0

def compressValue (floats : Floats) (value : GoString) : MayPanic GoString := do
  let text ← slice value 1 (value.length - 1)
  match analyzeValueType floats text with
  | 1 => compressIntValue value
  | 2 => some (compressBoolValue value)
  | 3 => compressFloatValue floats value
  | _ => some (compressOtherValue value)

/-- The variables of CompressMessage. -/
structure Compressor where
  tokenState : UInt8
  isArray : Bool
  message2 : GoString

def Compressor.append (st : Compressor) (bytes : GoString) : Compressor :=
  { st with message2 := st.message2 ++ bytes }

/-- A token of one byte; offset is the position behind it. -/
def compressByte (message : GoString) (offset : ℕ) (b : UInt8) (st : Compressor) : Compressor :=
  if b = 32 ∨ b = 44 then st
  else if b = 123 ∧ offset = 1 ∨ b = 125 ∧ offset = message.length ∨ b = 58 then st
  else
    { st.append [b] with
      isArray := if b = 91 then true else if b = 93 then false else st.isArray }

/-- A token that is not in the code list, between start and offset. -/
def compressText (floats : Floats) (pathList : List GoString) (message : GoString)
    (start offset : ℕ) (token : GoString) (st : Compressor) : MayPanic Compressor :=
  if st.tokenState = codeListIndexTs then do
    let ts ← compressTS (message.drop start)
    some { st.append ts with tokenState := 255 }
  else if st.tokenState = codeListIndexValue ∨ st.tokenState = codeListIndexReqId ∨
      st.tokenState = codeListIndexSubId then do
    let value ← compressValue floats token
    some { st.append value with tokenState := if st.isArray then st.tokenState else 255 }
  else if st.tokenState = codeListIndexPath then do
    let path ← compressPath pathList token
    some { st.append path with tokenState := 255 }
  else do
    let next ← message[offset]?
    some ((st.append token).append (if next = 58 then [58] else []))

/-- One pass of the loop of CompressMessage, for the token between start and offset. -/
def compressToken (floats : Floats) (pathList : List GoString) (message : GoString)
    (start offset : ℕ) (token : GoString) (st : Compressor) : MayPanic Compressor :=
  match token with
  | [b] => some (compressByte message offset b st)
  | _ => do
    let listIndex := getCodeListIndex (← slice token 1 (token.length - 1))
    if listIndex < UInt8.ofNat codeList.length then
      let st := st.append [listIndex + 128]
      if listIndex = codeListIndexTs ∨ listIndex = codeListIndexValue ∨
          listIndex = codeListIndexPath ∨ listIndex = codeListIndexReqId ∨
          listIndex = codeListIndexSubId then
        some { st with tokenState := listIndex, isArray := false }
      else some st
    else compressText floats pathList message start offset token st

/-- The loop of CompressMessage from offset on; fuel bounds its passes. -/
def compressFrom (floats : Floats) (pathList : List GoString) (message : GoString) :
    ℕ → ℕ → Compressor → MayPanic GoString
  | 0, offset, st => if offset < message.length then none else some st.message2
  | fuel + 1, offset, st =>
    if offset < message.length then do
      let token ← readUncompressedMessage message offset
      let st ← compressToken floats pathList message offset (offset + token.length) token st
      compressFrom floats pathList message fuel (offset + token.length) st
    else some st.message2

def compressMessage (floats : Floats) (pathList : List GoString) (message : GoString) :
    MayPanic GoString :=
  compressFrom floats pathList message message.length 0
    { tokenState := 255, isArray := false, message2 := [] }

end VissServer.Utils

import VissServer.Go.Strings

/-!
The conversion map, which the domain conversion tool writes into a file and the feeder reads
(DomainConversionTool.go, feederv2.go). The file is written from its start on over what it
held before, and is not cut behind what is written; the feeder reads until it meets an element
without a name.
-/
namespace VissServer.Feeder

open Go

/-! ## Files -/

/-- An open file. -/
structure OsFile where
  content : GoString
  offset : ℕ := 0

def OsFile.write (f : OsFile) (buf : GoString) : OsFile where
  content := f.content.take f.offset ++ buf ++ f.content.drop (f.offset + buf.length)
  offset := f.offset + buf.length

/-- Read fills a buffer of zeros; at the end of the file the rest of the buffer stays zero. -/
def OsFile.read (f : OsFile) (numOfBytes : ℕ) : GoString × OsFile :=
  let bytes := (f.content.drop f.offset).take numOfBytes
  (bytes ++ List.replicate (numOfBytes - bytes.length) 0,
    { f with offset := f.offset + bytes.length })

/-! ## Elements -/

/-- FeederConversionData of the tool, and FeederMap of the feeder. -/
structure MapElement where
  mapIndex : UInt16
  name : GoString
  type : Int8
  datatype : Int8
  convertIndex : UInt16
  deriving DecidableEq

/-- An interface{} that holds an unsigned integer. -/
inductive UnsignedInt
  | uint8 (v : UInt8)
  | uint16 (v : UInt16)
  | uint32 (v : UInt32)

def serializeUInt : UnsignedInt → GoString
  | .uint8 v => [v]
  | .uint16 v => [(v &&& 0x00FF).toUInt8, ((v &&& 0xFF00) / 256).toUInt8]
  | .uint32 v => [(v &&& 0x00FF).toUInt8, ((v &&& 0xFF00) / 256).toUInt8,
      ((v &&& 0xFF0000) / 65536).toUInt8, ((v &&& 0xFF000000) / 16777216).toUInt8]

/-- nil for a buffer of another length. -/
def deSerializeUInt : GoString → Option UnsignedInt
  | [a] => some (.uint8 a)
  | [a, b] => some (.uint16 (b.toUInt16 * 256 + a.toUInt16))
  | [a, b, c, d] => some (.uint32
      (d.toUInt32 * 16777216 + c.toUInt32 * 65536 + b.toUInt32 * 256 + a.toUInt32))
  | _ => none

/-- The type assertions on what deSerializeUInt returns. -/
def asUInt8 : Option UnsignedInt → MayPanic UInt8
  | some (.uint8 v) => some v
  | _ => none

def asUInt16 : Option UnsignedInt → MayPanic UInt16
  | some (.uint16 v) => some v
  | _ => none

def writeElement (f : OsFile) (mapElement : MapElement) : OsFile :=
  let f := f.write (serializeUInt (.uint16 mapElement.mapIndex))
  let f := f.write (serializeUInt (.uint8 (UInt8.ofNat mapElement.name.length)))
  let f := f.write mapElement.name
  let f := f.write (serializeUInt (.uint8 mapElement.type.toUInt8))
  let f := f.write (serializeUInt (.uint8 mapElement.datatype.toUInt8))
  f.write (serializeUInt (.uint16 mapElement.convertIndex))

/-- The content of the file afterwards. -/
def writeArrayToFile (feederMap : List MapElement) (previous : GoString) : GoString :=
  (feederMap.foldl writeElement { content := previous }).content

def readBytes (numOfBytes : ℕ) (f : OsFile) : GoString × OsFile :=
  if 0 < numOfBytes then f.read numOfBytes else ([], f)

def readElement (f : OsFile) : MayPanic (MapElement × OsFile) := do
  let (buf, f) := readBytes 2 f
  let mapIndex ← asUInt16 (deSerializeUInt buf)
  let (buf, f) := readBytes 1 f
  let nameLen ← asUInt8 (deSerializeUInt buf)
  let (name, f) := readBytes nameLen.toNat f
  let (buf, f) := readBytes 1 f
  let type ← asUInt8 (deSerializeUInt buf)
  let (buf, f) := readBytes 1 f
  let datatype ← asUInt8 (deSerializeUInt buf)
  let (buf, f) := readBytes 2 f
  let convertIndex ← asUInt16 (deSerializeUInt buf)
  some ({ mapIndex, name, type := type.toInt8, datatype := datatype.toInt8, convertIndex }, f)

theorem byte_of_mask (n k : ℕ) : (n &&& 255 * 2 ^ k) / 2 ^ k = n / 2 ^ k % 256 := by
  rw [Nat.and_div_two_pow, Nat.mul_div_cancel _ (Nat.two_pow_pos k)]
  exact Nat.and_two_pow_sub_one_eq_mod (n / 2 ^ k) 8

theorem low_byte (n : ℕ) : n % 256 &&& 255 = n % 256 % 256 := Nat.and_two_pow_sub_one_eq_mod _ 8

theorem deSerializeUInt_serializeUInt (v : UnsignedInt) :
    deSerializeUInt (serializeUInt v) = some v := by
  cases v with
  | uint8 v => rfl
  | uint16 v =>
    have hlow := low_byte v.toNat
    have hhigh : (v.toNat &&& 65280) / 256 = v.toNat / 256 % 256 := byte_of_mask v.toNat 8
    have hlt := v.toNat_lt
    apply congrArg (some ∘ UnsignedInt.uint16)
    rw [← UInt16.toNat_inj]
    simp [hlow, hhigh]
    omega
  | uint32 v =>
    have h0 := low_byte v.toNat
    have h8 : (v.toNat &&& 65280) / 256 = v.toNat / 256 % 256 := byte_of_mask v.toNat 8
    have h16 : (v.toNat &&& 16711680) / 65536 = v.toNat / 65536 % 256 := byte_of_mask v.toNat 16
    have h24 : (v.toNat &&& 4278190080) / 16777216 = v.toNat / 16777216 % 256 :=
      byte_of_mask v.toNat 24
    have hlt := v.toNat_lt
    apply congrArg (some ∘ UnsignedInt.uint32)
    rw [← UInt32.toNat_inj]
    simp [h0, h8, h16, h24]
    omega

/-! ## What is left of a file -/

section Reading

variable {f : OsFile} {n : ℕ}

/-- The bytes that are still to be read. -/
def OsFile.rest (f : OsFile) : GoString := f.content.drop f.offset

/-- The first bytes of a text, or zeros behind its end. -/
def padded (n : ℕ) (s : GoString) : GoString := s.take n ++ List.replicate (n - s.length) 0

theorem length_padded (n : ℕ) (s : GoString) : (padded n s).length = n := by
  rw [padded, List.length_append, List.length_take, List.length_replicate]
  omega

theorem padded_append (s rest : GoString) : padded s.length (s ++ rest) = s := by
  rw [padded, List.take_left, List.length_append, Nat.sub_eq_zero_of_le (by omega)]
  exact List.append_nil s

theorem readBytes_eq (n : ℕ) (f : OsFile) :
    ∃ f', readBytes n f = (padded n f.rest, f') ∧ f'.rest = f.rest.drop n := by
  unfold readBytes
  split
  · have hlength : (f.rest.take n).length = min n f.rest.length := List.length_take
    have hzeros : n - min n f.rest.length = n - f.rest.length := by omega
    refine ⟨(f.read n).2, ?_, ?_⟩
    · rw [padded, ← hzeros, ← hlength]
      rfl
    · change f.content.drop (f.offset + (f.rest.take n).length) = _
      rw [hlength, ← List.drop_drop]
      change f.rest.drop _ = _
      by_cases hn : n ≤ f.rest.length
      · rw [Nat.min_eq_left hn]
      · rw [List.drop_of_length_le (by omega), List.drop_of_length_le (by omega)]
  · obtain rfl : n = 0 := by omega
    exact ⟨f, by simp [padded], rfl⟩

theorem padded_one (s : GoString) : padded 1 s = [s.getD 0 0] := by
  cases s <;> simp [padded]

theorem padded_two (s : GoString) : padded 2 s = [s.getD 0 0, s.getD 1 0] := by
  match s with
  | [] => rfl
  | [_] => simp [padded]
  | _ :: _ :: _ => simp [padded]

/-- The value of two bytes. -/
def uint16Of (s : GoString) : UInt16 := (s.getD 1 0).toUInt16 * 256 + (s.getD 0 0).toUInt16

/-- The element that a text begins with. -/
def elementOf (s : GoString) : MapElement :=
  let nameLen := (s.getD 2 0).toNat
  { mapIndex := uint16Of s
    name := padded nameLen (s.drop 3)
    type := (s.getD (3 + nameLen) 0).toInt8
    datatype := (s.getD (4 + nameLen) 0).toInt8
    convertIndex := uint16Of (s.drop (5 + nameLen)) }

theorem getD_drop (s : GoString) (i j : ℕ) : (s.drop i).getD j 0 = s.getD (i + j) 0 := by
  rw [List.getD_eq_getElem?_getD, List.getD_eq_getElem?_getD, List.getElem?_drop]

/-- Any text begins with an element. -/
theorem readElement_eq (f : OsFile) :
    ∃ f', readElement f = some (elementOf f.rest, f') ∧
      f'.rest = f.rest.drop (7 + (f.rest.getD 2 0).toNat) := by
  obtain ⟨f₁, hindex, hrest₁⟩ := readBytes_eq 2 f
  obtain ⟨f₂, hlen, hrest₂⟩ := readBytes_eq 1 f₁
  rw [hrest₁, padded_one, getD_drop] at hlen
  obtain ⟨f₃, hname, hrest₃⟩ := readBytes_eq (f.rest.getD 2 0).toNat f₂
  obtain ⟨f₄, htype, hrest₄⟩ := readBytes_eq 1 f₃
  obtain ⟨f₅, hdatatype, hrest₅⟩ := readBytes_eq 1 f₄
  obtain ⟨f₆, hconvert, hrest₆⟩ := readBytes_eq 2 f₅
  rw [hrest₁, List.drop_drop] at hrest₂
  rw [hrest₂, List.drop_drop] at hrest₃
  rw [hrest₃, List.drop_drop] at hrest₄
  rw [hrest₄, List.drop_drop] at hrest₅
  rw [hrest₅, List.drop_drop] at hrest₆
  generalize hn : (f.rest.getD 2 0).toNat = n at *
  have htypeAt : 2 + 1 + n + 0 = 3 + n := by omega
  have hdatatypeAt : 2 + 1 + n + 1 + 0 = 4 + n := by omega
  have hconvertAt : 2 + 1 + n + 1 + 1 = 5 + n := by omega
  rw [padded_two] at hindex
  rw [hrest₂] at hname
  rw [hrest₃, padded_one, getD_drop, htypeAt] at htype
  rw [hrest₄, padded_one, getD_drop, hdatatypeAt] at hdatatype
  rw [hrest₅, padded_two, hconvertAt] at hconvert
  refine ⟨f₆, ?_, ?_⟩
  · simp only [readElement, hindex, hlen, hn, hname, htype, hdatatype, hconvert, deSerializeUInt,
      asUInt16, asUInt8, Option.bind_eq_bind, Option.bind_some, elementOf, uint16Of]
  · rw [hrest₆]
    congr 1
    omega

/-- The name is empty where its length is zero, and where the text ends before it. -/
theorem elementOf_name (s : GoString) : (elementOf s).name = [] ↔ s.getD 2 0 = 0 := by
  rw [← List.length_eq_zero_iff, elementOf, length_padded, ← UInt8.toNat_inj]
  rfl

theorem readElement_advances {e : MapElement} {f' : OsFile} (h : readElement f = some (e, f'))
    (hname : e.name ≠ []) : f'.rest.length < f.rest.length := by
  obtain ⟨f₁, hread, hrest⟩ := readElement_eq f
  obtain ⟨rfl, rfl⟩ := Prod.mk.inj (Option.some.inj (hread.symm.trans h))
  have hne : f.rest ≠ [] := by
    intro hnil
    apply hname
    rw [elementOf_name, hnil]
    rfl
  have hlength := List.length_pos_iff.mpr hne
  rw [hrest, List.length_drop]
  omega

end Reading

/-- The loop of readFeederMap. -/
def readElements (f : OsFile) : MayPanic (List MapElement) :=
  match _hread : readElement f with
  | none => none
  | some (mapElement, f') =>
      if _hname : mapElement.name = [] then some []
      else (readElements f').map (mapElement :: ·)
termination_by f.rest.length
decreasing_by exact readElement_advances _hread _hname

/-- readFeederMap, on the content of the file. -/
def readFeederMap (content : GoString) : MayPanic (List MapElement) := readElements { content }

theorem readElements_eq (f : OsFile) :
    ∃ f', f'.rest = f.rest.drop (7 + (f.rest.getD 2 0).toNat) ∧
      readElements f = if f.rest.getD 2 0 = 0 then some []
        else (readElements f').map (elementOf f.rest :: ·) := by
  obtain ⟨f', hread, hrest⟩ := readElement_eq f
  refine ⟨f', hrest, ?_⟩
  rw [readElements]
  split
  · next h => simp [hread] at h
  · next e f₁ h =>
    obtain ⟨rfl, rfl⟩ := Prod.mk.inj (Option.some.inj (hread.symm.trans h))
    simp only [elementOf_name, dite_eq_ite]

/-- The loop ends, and finds no element if and only if the first one has no name. -/
theorem readElements_ends (f : OsFile) :
    ∃ feederMap, readElements f = some feederMap ∧ (feederMap = [] ↔ f.rest.getD 2 0 = 0) := by
  induction hlength : f.rest.length using Nat.strong_induction_on generalizing f with
  | _ n ih =>
    obtain ⟨f', hrest, heq⟩ := readElements_eq f
    rw [heq]
    split
    · next hzero => exact ⟨[], rfl, iff_of_true rfl hzero⟩
    · next hzero =>
      have hshorter : f'.rest.length < n := by
        have hne : f.rest ≠ [] := by
          intro hnil
          simp [hnil] at hzero
        have hpos := List.length_pos_iff.mpr hne
        rw [hrest, List.length_drop]
        omega
      obtain ⟨feederMap, hmap, -⟩ := ih _ hshorter f' rfl
      exact ⟨_, congrArg _ hmap, iff_of_false (List.cons_ne_nil _ _) hzero⟩

/-! ## The round trip -/

/-- The name fits into the byte for its length, and is not taken for the end of the map. -/
def MapElement.Named (e : MapElement) : Prop := e.name ≠ [] ∧ e.name.length ≤ 255

instance decidableMapElementNamed (e : MapElement) : Decidable e.Named :=
  inferInstanceAs (Decidable (_ ∧ _))

def elementBytes (e : MapElement) : GoString :=
  serializeUInt (.uint16 e.mapIndex) ++ [UInt8.ofNat e.name.length] ++ e.name ++
    [e.type.toUInt8] ++ [e.datatype.toUInt8] ++ serializeUInt (.uint16 e.convertIndex)

/-- A file whose first bytes have been written over what it held before. -/
def writtenOver (previous bytes : GoString) : OsFile where
  content := bytes ++ previous.drop bytes.length
  offset := bytes.length

theorem write_writtenOver (previous bytes buf : GoString) :
    (writtenOver previous bytes).write buf = writtenOver previous (bytes ++ buf) := by
  have hlength : (bytes ++ buf).length = bytes.length + buf.length := List.length_append
  have hbehind : (bytes ++ previous.drop bytes.length).drop (bytes.length + buf.length) =
      previous.drop (bytes.length + buf.length) := by
    rw [← List.drop_drop, List.drop_left, List.drop_drop]
  rw [OsFile.write, writtenOver, writtenOver, hlength, List.take_left, hbehind]

theorem writeElement_writtenOver (previous bytes : GoString) (e : MapElement) :
    writeElement (writtenOver previous bytes) e = writtenOver previous (bytes ++ elementBytes e) := by
  simp only [writeElement, write_writtenOver, serializeUInt, elementBytes, List.append_assoc]

/-- The bytes of a map, in front of what the file held behind them. -/
theorem writeArrayToFile_eq (feederMap : List MapElement) (previous : GoString) :
    writeArrayToFile feederMap previous =
      (writtenOver previous (feederMap.flatMap elementBytes)).content := by
  have hfold : ∀ bytes, feederMap.foldl writeElement (writtenOver previous bytes) =
      writtenOver previous (bytes ++ feederMap.flatMap elementBytes) := by
    induction feederMap with
    | nil =>
      intro bytes
      rw [List.flatMap_nil, List.append_nil]
      rfl
    | cons e feederMap ih =>
      intro bytes
      rw [List.foldl_cons, writeElement_writtenOver, ih, List.flatMap_cons, List.append_assoc]
  exact congrArg OsFile.content (hfold [])

theorem uint16Of_serializeUInt (v : UInt16) (rest : GoString) :
    uint16Of (serializeUInt (.uint16 v) ++ rest) = v := by
  have hread : deSerializeUInt (serializeUInt (.uint16 v)) = some (.uint16 v) :=
    deSerializeUInt_serializeUInt _
  exact UnsignedInt.uint16.inj (Option.some.inj hread)

/-- The bytes of an element are read as the element. -/
theorem elementOf_elementBytes {e : MapElement} (h : e.Named) (rest : GoString) :
    elementOf (elementBytes e ++ rest) = e ∧
      (elementBytes e ++ rest).drop (7 + ((elementBytes e ++ rest).getD 2 0).toNat) = rest ∧
      (elementBytes e ++ rest).getD 2 0 ≠ 0 := by
  obtain ⟨mapIndex, name, type, datatype, convertIndex⟩ := e
  obtain ⟨hname, hlength⟩ := h
  dsimp only at hname hlength
  have hpos := List.length_pos_iff.mpr hname
  have hnameLen : (UInt8.ofNat name.length).toNat = name.length :=
    UInt8.toNat_ofNat_of_lt' (by simpa using Nat.lt_succ_of_le hlength)
  generalize hindex : serializeUInt (.uint16 mapIndex) = index
  generalize hconvert : serializeUInt (.uint16 convertIndex) = convert
  have hindexLength : index.length = 2 := hindex ▸ rfl
  have hconvertLength : convert.length = 2 := hconvert ▸ rfl
  have hs : elementBytes ⟨mapIndex, name, type, datatype, convertIndex⟩ ++ rest =
      index ++ (UInt8.ofNat name.length :: (name ++ type.toUInt8 :: datatype.toUInt8 ::
        (convert ++ rest))) := by
    simp [elementBytes, hindex, hconvert]
  generalize elementBytes ⟨mapIndex, name, type, datatype, convertIndex⟩ ++ rest = s at hs
  have hdrop₂ : s.drop 2 = UInt8.ofNat name.length :: (name ++ type.toUInt8 ::
      datatype.toUInt8 :: (convert ++ rest)) := by
    rw [hs, ← hindexLength, List.drop_left]
  have hdrop₃ : s.drop 3 = name ++ type.toUInt8 :: datatype.toUInt8 :: (convert ++ rest) := by
    rw [← List.drop_drop (i := 1) (j := 2), hdrop₂]
    rfl
  have hdrop : s.drop (3 + name.length) = type.toUInt8 :: datatype.toUInt8 ::
      (convert ++ rest) := by
    rw [← List.drop_drop, hdrop₃, List.drop_left]
  have hlen : s.getD 2 0 = UInt8.ofNat name.length := by
    rw [← getD_drop s 2 0, hdrop₂]
    rfl
  have htype : s.getD (3 + name.length) 0 = type.toUInt8 := by
    rw [← Nat.add_zero (3 + name.length), ← getD_drop, hdrop]
    rfl
  have hdatatype : s.getD (4 + name.length) 0 = datatype.toUInt8 := by
    rw [show 4 + name.length = 3 + name.length + 1 by omega, ← getD_drop, hdrop]
    rfl
  have hdrop₅ : s.drop (5 + name.length) = convert ++ rest := by
    rw [show 5 + name.length = 3 + name.length + 2 by omega, ← List.drop_drop, hdrop]
    rfl
  have hdrop₇ : s.drop (7 + name.length) = rest := by
    rw [show 7 + name.length = 5 + name.length + 2 by omega, ← List.drop_drop, hdrop₅,
      ← hconvertLength, List.drop_left]
  refine ⟨?_, ?_, ?_⟩
  · rw [elementOf, hlen, hnameLen, hdrop₃, padded_append, htype, hdatatype, hdrop₅, hs, ← hindex,
      ← hconvert, uint16Of_serializeUInt, uint16Of_serializeUInt, Int8.toInt8_toUInt8,
      Int8.toInt8_toUInt8]
  · rw [hlen, hnameLen, hdrop₇]
  · rw [hlen]
    intro hzero
    rw [hzero] at hnameLen
    exact absurd hnameLen hpos.ne

theorem readElements_append {feederMap : List MapElement} (h : ∀ e ∈ feederMap, e.Named)
    {f : OsFile} {rest : GoString} (hrest : f.rest = feederMap.flatMap elementBytes ++ rest) :
    ∃ f', f'.rest = rest ∧
      readElements f = (readElements f').map (feederMap ++ ·) := by
  induction feederMap generalizing f with
  | nil => exact ⟨f, hrest, by simp⟩
  | cons e feederMap ih =>
    obtain ⟨hnamed, htail⟩ := List.forall_mem_cons.mp h
    rw [List.flatMap_cons, List.append_assoc] at hrest
    obtain ⟨helement, hdrop, hne⟩ :=
      elementOf_elementBytes hnamed (feederMap.flatMap elementBytes ++ rest)
    obtain ⟨f₁, hrest₁, heq⟩ := readElements_eq f
    rw [hrest] at hrest₁ heq
    rw [hdrop] at hrest₁
    obtain ⟨f', hrest', htailEq⟩ := ih htail hrest₁
    refine ⟨f', hrest', ?_⟩
    rw [heq, if_neg hne, helement, htailEq, Option.map_map]
    rfl

/-- The feeder reads the map that the tool wrote if and only if the name of the element that
would begin behind it has the length zero, or the file ends before this length. -/
theorem map_file_round_trip_iff (feederMap : List MapElement) (previous : GoString)
    (h : ∀ e ∈ feederMap, e.Named) :
    readFeederMap (writeArrayToFile feederMap previous) = some feederMap ↔
      previous.getD ((feederMap.flatMap elementBytes).length + 2) 0 = 0 := by
  obtain ⟨f', hrest, heq⟩ := readElements_append h
    (show OsFile.rest { content := writeArrayToFile feederMap previous } = _ from
      writeArrayToFile_eq feederMap previous)
  obtain ⟨behind, hbehind, hnil⟩ := readElements_ends f'
  rw [readFeederMap, heq, hbehind, ← getD_drop, ← hrest, ← hnil]
  simp

/-- A map of one signal. -/
def speedMap : List MapElement := [⟨1, str "Speed", 0, 8, 0⟩, ⟨0, str "Veh.Speed", 0, 8, 0⟩]

/-- Its file is written again, over a file of the same map. -/
theorem map_file_round_trip_speed :
    readFeederMap (writeArrayToFile speedMap (writeArrayToFile speedMap [])) = some speedMap :=
  (map_file_round_trip_iff speedMap _ (by decide)).mpr (by decide)

/-- The map without a signal is written over the file of a map with one. -/
theorem longer_map_stays :
    ¬ ∀ feederMap previous, feederMap.length ≤ 65535 → (∀ e ∈ feederMap, e.Named) →
      readFeederMap (writeArrayToFile feederMap previous) = some feederMap := by
  intro hall
  have hread := hall [] (writeArrayToFile speedMap []) (by decide) (by simp)
  rw [map_file_round_trip_iff [] _ (by simp)] at hread
  exact absurd hread (by decide)

end VissServer.Feeder

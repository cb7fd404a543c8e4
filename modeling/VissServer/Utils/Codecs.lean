import Mathlib.Tactic.Ring
import VissServer.Go.Decimals
import VissServer.Utils.Decompressing
import VissServer.Utils.VissMessages

/-!
The codes of timestamps, paths and values. Each is given by the bytes that it takes in a
compressed message, and read back as the quoted text it was made from.
-/
namespace VissServer.Utils

open VissServer.Go

/-! ## Timestamps -/

/-- Byte 1: 00yyyymm, byte 2: mmdddddh, byte 3: hhhhmmmm, byte 4: mmssssss. -/
def Timestamp.bytes (t : Timestamp) : GoString :=
  [UInt8.ofNat (t.year * 4 + t.month / 4),
    UInt8.ofNat (t.month % 4 * 64 + t.day * 2 + t.hour / 16),
    UInt8.ofNat (t.hour % 16 * 16 + t.minute / 4),
    UInt8.ofNat (t.minute % 4 * 64 + t.second)]

theorem and_three (n : ℕ) : n &&& 3 = n % 4 := Nat.and_two_pow_sub_one_eq_mod n 2

theorem and_fifteen (n : ℕ) : n &&& 15 = n % 16 := Nat.and_two_pow_sub_one_eq_mod n 4

theorem and_low_six (n : ℕ) : n &&& 63 = n % 64 := Nat.and_two_pow_sub_one_eq_mod n 6

theorem and_high_two {n : ℕ} (hn : n < 256) : n &&& 192 = n / 64 * 64 := by
  have hall : ∀ n < 256, n &&& 192 = n / 64 * 64 := by decide +kernel
  exact hall n hn

theorem and_high_four {n : ℕ} (hn : n < 256) : n &&& 240 = n / 16 * 16 := by
  have hall : ∀ n < 256, n &&& 240 = n / 16 * 16 := by decide +kernel
  exact hall n hn

theorem and_middle {n : ℕ} (hn : n < 256) : n &&& 62 = n / 2 % 32 * 2 := by
  have hall : ∀ n < 256, n &&& 62 = n / 2 % 32 * 2 := by decide +kernel
  exact hall n hn

theorem twoToOneByte_twoDigits (n : ℕ) : twoToOneByte (twoDigits n) = some (UInt8.ofNat n) := by
  simp only [twoToOneByte, twoDigits, List.getElem?_cons_zero, List.getElem?_cons_succ,
    Option.bind_eq_bind, Option.bind_some, Option.some.injEq]
  rw [← UInt8.toNat_inj]
  simp [UInt8.toNat_add, UInt8.toNat_mul, UInt8.toNat_sub]
  omega

/-- The quoted text of a time, byte by byte. -/
theorem quoted_timestamp (t : Timestamp) : quoted t.text =
    [34, 50, 48, 50, UInt8.ofNat (48 + t.year), 45, UInt8.ofNat (48 + t.month / 10),
      UInt8.ofNat (48 + t.month % 10), 45, UInt8.ofNat (48 + t.day / 10),
      UInt8.ofNat (48 + t.day % 10), 84, UInt8.ofNat (48 + t.hour / 10),
      UInt8.ofNat (48 + t.hour % 10), 58, UInt8.ofNat (48 + t.minute / 10),
      UInt8.ofNat (48 + t.minute % 10), 58, UInt8.ofNat (48 + t.second / 10),
      UInt8.ofNat (48 + t.second % 10), 90, 34] := by
  simp only [quoted, Timestamp.text, twoDigits, List.cons_append, List.nil_append]

/-- A slice inside a string is not changed by what stands behind the string. -/
theorem slice_front {s front : GoString} {low high : ℤ} (h : slice s low high = some front)
    (behind : GoString) : slice (s ++ behind) low high = some front := by
  have hbounds := slice_isSome_iff.mp (Option.isSome_of_eq_some h)
  have htake : high.toNat ≤ s.length := by omega
  rw [slice, if_pos hbounds] at h
  rw [slice, if_pos ⟨hbounds.1, hbounds.2.1, by rw [List.length_append]; omega⟩,
    List.take_append_of_le_length htake, h]

/-- The slices of the quoted text of a time that compressTS takes. -/
structure Timestamp.Slices (t : Timestamp) (ts : GoString) : Prop where
  second : slice ts 18 20 = some (twoDigits t.second)
  minute : slice ts 15 17 = some (twoDigits t.minute)
  hour : slice ts 12 14 = some (twoDigits t.hour)
  day : slice ts 9 11 = some (twoDigits t.day)
  month : slice ts 6 8 = some (twoDigits t.month)
  year : ts[4]? = some (UInt8.ofNat (48 + t.year))

theorem Timestamp.slices (t : Timestamp) (behind : GoString) :
    t.Slices (quoted t.text ++ behind) := by
  rw [quoted_timestamp]
  exact ⟨slice_front rfl behind, slice_front rfl behind, slice_front rfl behind,
    slice_front rfl behind, slice_front rfl behind, rfl⟩

theorem Timestamp.Slices.compressTS_eq {t : Timestamp} {ts : GoString} (h : t.Slices ts) :
    compressTS ts = some t.bytes := by
  obtain ⟨hsecond, hminute, hhour, hday, hmonth, hyear⟩ := h
  simp only [compressTS, hsecond, hminute, hhour, hday, hmonth, hyear, Option.bind_eq_bind,
    Option.bind_some, twoToOneByte_twoDigits, Timestamp.bytes, Option.some.injEq, List.cons.injEq,
    and_true, ← UInt8.toNat_inj]
  have hmonthLe := t.month_mem.2
  have hhourLt := t.hour_lt
  have hminuteLt := t.minute_lt
  refine ⟨?_, ?_, ?_, ?_⟩
  · simp only [UInt8.toNat_add, UInt8.toNat_mul, UInt8.toNat_sub, UInt8.toNat_div,
      UInt8.toNat_ofNat', UInt8.reduceToNat]
    omega
  · simp only [UInt8.toNat_add, UInt8.toNat_mul, UInt8.toNat_div, UInt8.toNat_and,
      UInt8.toNat_ofNat', UInt8.reduceToNat, and_three]
    omega
  · simp only [UInt8.toNat_add, UInt8.toNat_mul, UInt8.toNat_div, UInt8.toNat_and,
      UInt8.toNat_ofNat', UInt8.reduceToNat, and_fifteen]
    omega
  · simp only [UInt8.toNat_add, UInt8.toNat_mul, UInt8.toNat_and, UInt8.toNat_ofNat',
      UInt8.reduceToNat, and_three]
    omega

theorem compressTS_quoted (t : Timestamp) (behind : GoString) :
    compressTS (quoted t.text ++ behind) = some t.bytes :=
  (t.slices behind).compressTS_eq

theorem ofNat_tens {n : ℕ} (hn : n < 100) :
    UInt8.ofNat n / 10 + 48 = UInt8.ofNat (48 + n / 10) := by
  rw [← UInt8.toNat_inj]
  simp only [UInt8.toNat_add, UInt8.toNat_div, UInt8.toNat_ofNat', UInt8.reduceToNat]
  omega

theorem ofNat_units {n : ℕ} (hn : n < 100) :
    UInt8.ofNat n % 10 + 48 = UInt8.ofNat (48 + n % 10) := by
  rw [← UInt8.toNat_inj]
  simp only [UInt8.toNat_add, UInt8.toNat_mod, UInt8.toNat_ofNat', UInt8.reduceToNat]
  omega

/-- The fields of a timestamp are found in its four bytes. -/
theorem decompressTs_bytes (t : Timestamp) (behind : GoString) :
    decompressTs (t.bytes ++ behind) = some (quoted t.text) := by
  obtain ⟨y, m, d, h, mi, s, hy, hm, hd, hh, hmi, hs⟩ := t
  have hlt (n : ℕ) : n % 2 ^ 8 < 256 := Nat.mod_lt n (by decide)
  have hyear : UInt8.ofNat (y * 4 + m / 4) / 4 + 48 = UInt8.ofNat (48 + y) := by
    rw [← UInt8.toNat_inj]
    simp only [UInt8.toNat_add, UInt8.toNat_div, UInt8.toNat_ofNat', UInt8.reduceToNat]
    omega
  have hmonth : (UInt8.ofNat (m % 4 * 64 + d * 2 + h / 16) &&& 0xC0) / 64 +
      (UInt8.ofNat (y * 4 + m / 4) &&& 0x3) * 4 = UInt8.ofNat m := by
    rw [← UInt8.toNat_inj]
    simp only [UInt8.toNat_add, UInt8.toNat_mul, UInt8.toNat_div, UInt8.toNat_and,
      UInt8.toNat_ofNat', UInt8.reduceToNat, and_three, and_high_two (hlt _)]
    omega
  have hday : (UInt8.ofNat (m % 4 * 64 + d * 2 + h / 16) &&& 0x3E) / 2 = UInt8.ofNat d := by
    rw [← UInt8.toNat_inj]
    simp only [UInt8.toNat_div, UInt8.toNat_and, UInt8.toNat_ofNat', UInt8.reduceToNat,
      and_middle (hlt _)]
    omega
  have hhour : (UInt8.ofNat (h % 16 * 16 + mi / 4) &&& 0xF0) / 16 +
      (UInt8.ofNat (m % 4 * 64 + d * 2 + h / 16) &&& 0x1) * 16 = UInt8.ofNat h := by
    rw [← UInt8.toNat_inj]
    simp only [UInt8.toNat_add, UInt8.toNat_mul, UInt8.toNat_div, UInt8.toNat_and,
      UInt8.toNat_ofNat', UInt8.reduceToNat, Nat.and_one_is_mod, and_high_four (hlt _)]
    omega
  have hminute : (UInt8.ofNat (mi % 4 * 64 + s) &&& 0xC0) / 64 +
      (UInt8.ofNat (h % 16 * 16 + mi / 4) &&& 0x0F) * 4 = UInt8.ofNat mi := by
    rw [← UInt8.toNat_inj]
    simp only [UInt8.toNat_add, UInt8.toNat_mul, UInt8.toNat_div, UInt8.toNat_and,
      UInt8.toNat_ofNat', UInt8.reduceToNat, and_fifteen, and_high_two (hlt _)]
    omega
  have hsecond : UInt8.ofNat (mi % 4 * 64 + s) &&& 0x3F = UInt8.ofNat s := by
    rw [← UInt8.toNat_inj]
    simp only [UInt8.toNat_and, UInt8.toNat_ofNat', UInt8.reduceToNat, and_low_six]
    omega
  simp only [decompressTs, Timestamp.bytes, List.cons_append, List.nil_append,
    List.getElem?_cons_zero, List.getElem?_cons_succ, Option.bind_eq_bind, Option.bind_some,
    hyear, hmonth, hday, hhour, hminute, hsecond, ofNat_tens (show m < 100 by omega),
    ofNat_units (show m < 100 by omega), ofNat_tens (show d < 100 by omega),
    ofNat_units (show d < 100 by omega), ofNat_tens (show h < 100 by omega),
    ofNat_units (show h < 100 by omega), ofNat_tens (show mi < 100 by omega),
    ofNat_units (show mi < 100 by omega), ofNat_tens (show s < 100 by omega),
    ofNat_units (show s < 100 by omega), quoted_timestamp]

/-! ## Integers -/

/-- The number of bytes for an integer of this size. -/
def intSize (n : ℕ) : ℕ :=
  if n < 256 then 1 else if n < 65536 then 2 else if n < 16777216 then 3 else 4

/-- The code of an integer and its bytes. -/
def intBytes (i : ℤ) : GoString := intCode (intSize i.natAbs) (decide (0 ≤ i)) i.natAbs

theorem slice_quoted (s : GoString) :
    slice (quoted s) 1 ((quoted s).length - 1) = some s :=
  slice_append [34] [34] rfl rfl (by simp [quoted]; omega)

theorem compressIntValue_of_atoi {v : GoString} {i : ℤ} (h : atoi v = some i)
    (hi : i.natAbs < 4294967296) : compressIntValue (quoted v) = some (intBytes i) := by
  have habs : (if i < 0 then wrapInt64 (i * -1) else i) = i.natAbs := by
    unfold wrapInt64
    split_ifs
    all_goals omega
  simp only [compressIntValue, slice_quoted, Option.bind_eq_bind, Option.bind_some,
    atoiIgnoringError_of_atoi h, habs, intBytes, intSize]
  by_cases h1 : i.natAbs < 256
  · rw [if_pos (by omega), if_pos h1]
  by_cases h2 : i.natAbs < 65536
  · rw [if_neg (by omega), if_pos (by omega), if_neg h1, if_pos h2]
  by_cases h3 : i.natAbs < 16777216
  · rw [if_neg (by omega), if_neg (by omega), if_pos (by omega), if_neg h1, if_neg h2, if_pos h3]
  · rw [if_neg (by omega), if_neg (by omega), if_neg (by omega), if_pos (by omega), if_neg h1,
      if_neg h2, if_neg h3]

theorem compressIntValue_quoted {i : ℤ} (hi : i.natAbs < 4294967296) :
    compressIntValue (quoted (itoa i)) = some (intBytes i) :=
  compressIntValue_of_atoi (atoi_itoa (by omega) (by omega)) hi

theorem toNat_byteOf (n k : ℕ) : (byteOf n k).toNat = n / 256 ^ k % 256 := by
  have hcast : (n : ℤ) / 256 ^ k % 256 = ((n / 256 ^ k % 256 : ℕ) : ℤ) := by
    rw [Int.natCast_emod, Int.natCast_ediv, Int.natCast_pow]
    rfl
  rw [byteOf, hcast, Int.toNat_natCast, UInt8.toNat_ofNat']
  omega

/-- The bytes of a number, the most significant first, add up to it. -/
theorem foldl_byteOf (n k value : ℕ) :
    ((List.range k).reverse.map (byteOf n)).foldl (fun value b => value * 256 + b.toNat) value =
      value * 256 ^ k + n % 256 ^ k := by
  induction k generalizing value with
  | zero => simp [Nat.mod_one]
  | succ k ih =>
    rw [List.range_succ, List.reverse_append, List.reverse_singleton, List.singleton_append,
      List.map_cons, List.foldl_cons, ih, toNat_byteOf, Nat.mod_pow_succ, Nat.pow_succ]
    ring

theorem unsigned_eq (b : UInt8) (bytes rest : GoString) :
    unsigned (b :: (bytes ++ rest)) bytes.length =
      some (bytes.foldl (fun value b => value * 256 + b.toNat) 0) := by
  rw [unsigned, if_pos (by simp), List.drop_succ_cons, List.drop_zero, List.take_left]

/-- What is read back is the integer up to a multiple of the power of 256. -/
theorem decompressInt_intCode (valueLead : GoString) (n k : ℕ) (isPos : Bool) (rest : GoString) :
    decompressInt valueLead k (intCode k isPos n ++ rest) =
      some (valueLead ++ natDigits (n % 256 ^ k) ++ [34], k + 1) := by
  have hlength : ((List.range k).reverse.map (byteOf n)).length = k := by simp
  have hunsigned := unsigned_eq (getCodeListIndex (getIntType k isPos) + 128)
    ((List.range k).reverse.map (byteOf n)) rest
  rw [hlength, foldl_byteOf, Nat.zero_mul, Nat.zero_add] at hunsigned
  simp only [decompressInt, intCode, List.cons_append, hunsigned, Option.bind_eq_bind,
    Option.bind_some]

/-- The digits of a number behind its sign. -/
def signedDigits (isPos : Bool) (n : ℕ) : GoString := if isPos then natDigits n else 45 :: natDigits n

theorem signedDigits_natAbs (i : ℤ) : signedDigits (decide (0 ≤ i)) i.natAbs = itoa i := by
  unfold signedDigits itoa
  by_cases hpos : 0 ≤ i
  · rw [decide_eq_true hpos, if_pos rfl, if_neg (by omega)]
  · rw [decide_eq_false hpos, if_neg (by decide), if_pos (by omega)]

theorem decompressOneValue_intCode (floats : Floats) {k : ℕ}
    (hk : k = 1 ∨ k = 2 ∨ k = 3 ∨ k = 4) (isPos : Bool) (n : ℕ) (rest : GoString) :
    decompressOneValue floats (intCode k isPos n ++ rest) =
      some (quoted (signedDigits isPos (n % 256 ^ k)), k + 1) := by
  have hlead : decompressOneValue floats (intCode k isPos n ++ rest) =
      decompressInt (if isPos then str "\"" else str "\"-") k (intCode k isPos n ++ rest) := by
    obtain rfl | rfl | rfl | rfl := hk
    all_goals
      cases isPos
      all_goals rfl
  rw [hlead, decompressInt_intCode]
  cases isPos
  all_goals rfl

theorem lt_pow_intSize {n : ℕ} (hn : n < 4294967296) :
    n < 256 ^ intSize n ∧ (intSize n = 1 ∨ intSize n = 2 ∨ intSize n = 3 ∨ intSize n = 4) := by
  unfold intSize
  split_ifs
  all_goals
    refine ⟨by omega, ?_⟩
    omega

/-- An integer of at most 32 bits is read back from its code. -/
theorem decompressOneValue_int (floats : Floats) {i : ℤ} (hi : i.natAbs < 4294967296)
    (rest : GoString) : decompressOneValue floats (intBytes i ++ rest) =
      some (quoted (itoa i), intSize i.natAbs + 1) := by
  obtain ⟨hlt, hsize⟩ := lt_pow_intSize hi
  rw [intBytes, decompressOneValue_intCode floats hsize, Nat.mod_eq_of_lt hlt,
    signedDigits_natAbs]

/-! ## Paths -/

/-- Two bytes for an index of the list of paths. -/
def indexBytes (index : ℕ) : GoString := [UInt8.ofNat (index / 256), UInt8.ofNat (index % 256)]

/-- Between i and j sort.Search finds the place where f becomes true. -/
theorem searchBetween_spec {f : ℕ → Bool} {n fuel i j : ℕ}
    (hf : ∀ a b, a ≤ b → b < n → f a = true → f b = true) (hij : i ≤ j) (hj : j ≤ n)
    (hfuel : j ≤ i + fuel) (hbelow : ∀ k < i, f k = false)
    (habove : ∀ k, j ≤ k → k < n → f k = true) :
    searchBetween f fuel i j ≤ n ∧ (∀ k < searchBetween f fuel i j, f k = false) ∧
      ∀ k, searchBetween f fuel i j ≤ k → k < n → f k = true := by
  induction fuel generalizing i j with
  | zero =>
    have heq : i = j := by omega
    subst heq
    exact ⟨hj, hbelow, habove⟩
  | succ fuel ih =>
    rw [searchBetween]
    by_cases hlt : i < j
    · rw [if_pos hlt]
      cases hmiddle : f ((i + j) / 2) with
      | true =>
        rw [if_pos rfl]
        refine ih (by omega) (by omega) (by omega) hbelow ?_
        intro k hk hkn
        exact hf _ k hk hkn hmiddle
      | false =>
        rw [if_neg (by simp)]
        refine ih (by omega) hj (by omega) ?_ habove
        intro k hk
        cases hfk : f k with
        | false => rfl
        | true =>
          rw [hf k _ (by omega) (by omega) hfk] at hmiddle
          cases hmiddle
    · rw [if_neg hlt]
      have heq : i = j := by omega
      subst heq
      exact ⟨hj, hbelow, habove⟩

theorem search_spec {f : ℕ → Bool} {n : ℕ}
    (hf : ∀ a b, a ≤ b → b < n → f a = true → f b = true) :
    search n f ≤ n ∧ (∀ k < search n f, f k = false) ∧ ∀ k, search n f ≤ k → k < n → f k = true :=
  searchBetween_spec hf (Nat.zero_le n) le_rfl (by omega) (by omega) (by omega)

/-- A path of a sorted list is found at its first place. -/
theorem search_path {pathList : List GoString} (hsorted : pathList.Pairwise (· ≤ ·))
    {p : GoString} (hp : p ∈ pathList) :
    search pathList.length (fun i => (pathList[i]?).any fun q => p ≤ q) = pathList.idxOf p := by
  have hmono : ∀ a b, a ≤ b → b < pathList.length →
      ((pathList[a]?).any fun q => p ≤ q) = true → ((pathList[b]?).any fun q => p ≤ q) = true := by
    intro a b hab hb ha
    rw [List.getElem?_eq_getElem (by omega), Option.any_some, decide_eq_true_eq] at ha ⊢
    obtain rfl | hlt := Nat.eq_or_lt_of_le hab
    · exact ha
    · exact List.le_trans ha (List.pairwise_iff_getElem.mp hsorted a b (by omega) hb hlt)
  obtain ⟨hle, hbelow, habove⟩ := search_spec hmono
  have hidx : pathList.idxOf p < pathList.length := List.idxOf_lt_length_iff.mpr hp
  have hget : pathList[pathList.idxOf p] = p := List.getElem_idxOf hidx
  generalize hr : search pathList.length (fun i => (pathList[i]?).any fun q => p ≤ q) = r at *
  have hle' : r ≤ pathList.idxOf p := by
    by_contra hgt
    have hfalse := hbelow (pathList.idxOf p) (by omega)
    rw [List.getElem?_eq_getElem hidx, Option.any_some, hget, decide_eq_false_iff_not] at hfalse
    exact hfalse (List.le_refl p)
  refine Nat.le_antisymm hle' ?_
  by_contra hlt
  have htrue := habove r le_rfl (by omega)
  rw [List.getElem?_eq_getElem (by omega), Option.any_some, decide_eq_true_eq] at htrue
  have hsorted' := List.pairwise_iff_getElem.mp hsorted r (pathList.idxOf p) (by omega) hidx
    (by omega)
  rw [hget] at hsorted'
  have heq : pathList[r] = p := List.le_antisymm hsorted' htrue
  have hne : (pathList[r] == p) = false := List.not_of_lt_findIdx (not_le.mp hlt)
  rw [heq, beq_self_eq_true] at hne
  cases hne

theorem replaceFrom_of_notMem {c : UInt8} {new : GoString} {s : GoString} (h : c ∉ s) :
    replaceFrom [c] new 0 s = s := by
  induction s with
  | nil => rfl
  | cons d s ih =>
    simp only [List.mem_cons, not_or] at h
    have hprefix : ¬ [c].isPrefixOf (d :: s) = true := by simpa using h.1
    rw [replaceFrom, if_neg hprefix, ih h.2]

/-- The code of a path of the list is its first index. -/
theorem compressPath_quoted {pathList : List GoString} (hsorted : pathList.Pairwise (· ≤ ·))
    (hlength : pathList.length ≤ 65536) {p : GoString} (hp : p ∈ pathList) (hslash : 47 ∉ p) :
    compressPath pathList (quoted p) = some (indexBytes (pathList.idxOf p)) := by
  have hidx : pathList.idxOf p < pathList.length := List.idxOf_lt_length_iff.mpr hp
  have hget : pathList[pathList.idxOf p]? = some p := by
    rw [List.getElem?_eq_getElem hidx, List.getElem_idxOf hidx]
  have hreplace : replaceAll (quoted p) (str "/") (str ".") = quoted p := by
    have hquoted : 47 ∉ quoted p := by simp [quoted, hslash]
    exact replaceFrom_of_notMem hquoted
  simp only [compressPath, hreplace, slice_quoted, Option.bind_eq_bind, Option.bind_some,
    search_path hsorted hp, hget, indexBytes]
  rw [if_pos trivial, Nat.mod_eq_of_lt (by omega)]

theorem decompressPath_index {pathList : List GoString} (hlength : pathList.length ≤ 65536)
    {p : GoString} (hp : p ∈ pathList) (rest : GoString) :
    decompressPath pathList (indexBytes (pathList.idxOf p) ++ rest) = some (quoted p) := by
  have hidx : pathList.idxOf p < pathList.length := List.idxOf_lt_length_iff.mpr hp
  have hindex : (UInt8.ofNat (pathList.idxOf p / 256)).toNat * 256 +
      (UInt8.ofNat (pathList.idxOf p % 256)).toNat = pathList.idxOf p := by
    rw [UInt8.toNat_ofNat', UInt8.toNat_ofNat']
    omega
  simp only [decompressPath, indexBytes, List.cons_append, List.nil_append,
    List.getElem?_cons_zero, List.getElem?_cons_succ, Option.bind_eq_bind, Option.bind_some, hindex,
    List.getElem?_eq_getElem hidx, List.getElem_idxOf hidx]
  rfl

/-! ## Values -/

theorem convert4BytesToF32_bytes (f : UInt32) : convert4BytesToF32 (float32ToByte f) = f := by
  have hlt : f.toNat < 4294967296 := f.toNat_lt
  have hbytes : (float32ToByte f).foldr (fun b value => b.toNat + value * 256) 0 = f.toNat := by
    simp only [float32ToByte, List.foldr_cons, List.foldr_nil, UInt8.toNat_ofNat']
    omega
  rw [convert4BytesToF32, hbytes, UInt32.ofNat_toNat]

/-- The bytes of a value. -/
def valueCode (floats : Floats) (v : GoString) : GoString :=
  match analyzeValueType floats v with
  | 1 => intBytes (atoiIgnoringError v)
  | 2 => [151, if v = str "true" then 1 else 0]
  | 3 => 152 :: float32ToByte ((floats.parseFloat v).getD 0)
  | _ => 153 :: quoted v

/-- The value is no word of the code list, and its code stands for this very text, also with
these bytes behind it: an integer is in its shortest form and has at most 32 bits, a number
prints as itself, and an empty text is not followed by a quote. -/
def KeptValue (floats : Floats) (v behind : GoString) : Prop :=
  getCodeListIndex v = 255 ∧
    match analyzeValueType floats v with
    | 1 => ∃ i : ℤ, i.natAbs < 4294967296 ∧ v = itoa i
    | 2 => True
    | 3 => ∀ f, floats.parseFloat v = some f → floats.sprintf f = v
    | _ => v = [] → 34 ∉ behind

section Values

variable {floats : Floats} {v behind : GoString}

theorem compressValue_quoted (hkept : KeptValue floats v behind) :
    compressValue floats (quoted v) = some (valueCode floats v) := by
  obtain ⟨-, hkept⟩ := hkept
  simp only [compressValue, slice_quoted, Option.bind_eq_bind, Option.bind_some]
  unfold valueCode
  generalize analyzeValueType floats v = valueType at hkept ⊢
  match valueType with
  | 1 =>
    obtain ⟨i, hi, rfl⟩ := hkept
    have hatoi : atoiIgnoringError (itoa i) = i := atoiIgnoringError_itoa (by omega) (by omega)
    simp only [compressIntValue_quoted hi, hatoi]
  | 2 =>
    have hquoted : quoted v = str "\"true\"" ↔ v = str "true" := by
      constructor
      · intro h
        exact List.append_cancel_right (List.cons.inj h).2
      · rintro rfl
        rfl
    simp only [compressBoolValue, hquoted]
    rfl
  | 3 =>
    simp only [compressFloatValue, slice_quoted, Option.bind_eq_bind, Option.bind_some]
    rfl
  | 0 => rfl
  | _ + 4 => rfl

theorem length_intBytes (i : ℤ) : (intBytes i).length = intSize i.natAbs + 1 := by
  simp [intBytes, intCode]

theorem decompressOneValue_float (floats : Floats) (f : UInt32) (rest : GoString) :
    decompressOneValue floats (152 :: float32ToByte f ++ rest) =
      some (quoted (floats.sprintf f), 5) := by
  have hslice : slice (152 :: float32ToByte f ++ rest) 1 5 = some (float32ToByte f) :=
    slice_append [152] rest rfl rfl rfl
  change (slice (152 :: float32ToByte f ++ rest) 1 5).bind _ = _
  rw [hslice, Option.bind_some, convert4BytesToF32_bytes]
  rfl

theorem analyzeValueType_bool (h : analyzeValueType floats v = 2) :
    v = str "true" ∨ v = str "false" := by
  unfold analyzeValueType at h
  split_ifs at h with hint hbool
  · cases h
  · exact hbool
  · cases h

theorem analyzeValueType_float (h : analyzeValueType floats v = 3) :
    ∃ f, floats.parseFloat v = some f := by
  unfold analyzeValueType isFloatType at h
  cases hparse : floats.parseFloat v with
  | none =>
    rw [hparse] at h
    split_ifs at h with hint hbool hfloat
    · cases h
    · cases h
    · exact hfloat.elim
  | some f => exact ⟨f, rfl⟩

/-- A kept value is read back from its code, and its code is all that is read. -/
theorem decompressOneValue_kept (hv : 34 ∉ v) (hkept : KeptValue floats v behind) :
    decompressOneValue floats (valueCode floats v ++ behind) =
      some (quoted v, (valueCode floats v).length) := by
  obtain ⟨-, hkept⟩ := hkept
  unfold valueCode
  split at hkept
  · obtain ⟨i, hi, rfl⟩ := hkept
    simp only [atoiIgnoringError_itoa (i := i) (by omega) (by omega), length_intBytes]
    exact decompressOneValue_int floats hi behind
  · next htype =>
    obtain rfl | rfl := analyzeValueType_bool htype
    · rfl
    · rfl
  · next htype =>
    obtain ⟨f, hf⟩ := analyzeValueType_float htype
    simp only [hf, Option.getD_some]
    rw [decompressOneValue_float, hkept f hf]
    rfl
  · cases v with
    | nil => exact decompressOneValue_short floats (by decide) (by decide) (hkept rfl)
    | cons c w =>
      simp only [List.mem_cons, not_or] at hv
      have hread : decompressOneValue floats (153 :: 34 :: c :: (w ++ 34 :: behind)) = _ :=
        decompressOneValue_quoted floats (by decide) (by decide) hv.2 behind
      simpa [quoted] using hread

/-- The first byte of a code tells the kind of the value. -/
theorem valueCode_head (floats : Floats) (v : GoString) :
    ∃ b bytes, valueCode floats v = b :: bytes ∧ 143 ≤ b ∧ b ≤ 153 := by
  unfold valueCode
  split
  · next htype =>
    have hcode : ∀ k isPos, 143 ≤ getCodeListIndex (getIntType k isPos) + 128 ∧
        getCodeListIndex (getIntType k isPos) + 128 ≤ 153 := by
      intro k isPos
      unfold getIntType
      split_ifs
      all_goals decide
    exact ⟨_, _, rfl, hcode _ _⟩
  · exact ⟨151, _, rfl, by decide, by decide⟩
  · exact ⟨152, _, rfl, by decide, by decide⟩
  · exact ⟨153, _, rfl, by decide, by decide⟩

end Values

end VissServer.Utils

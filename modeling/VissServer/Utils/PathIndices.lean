import Mathlib.Order.RelClasses
import VissServer.Go.ExactNumbers
import VissServer.Utils.Codecs

/-!
Paths as indices of the path list: the server sorts the list (vissv2server.go), the two
compressions look paths up in it by binary search and give their indices (computils.go).
-/
namespace VissServer.Utils

open VissServer.Go

/-- The leaf paths in the order of sort.Strings. -/
def sortPathList (leafPaths : List GoString) : List GoString :=
  leafPaths.mergeSort fun p q => decide (p ≤ q)

/-- A path with its slashes replaced by dots. -/
def comparePath (path : GoString) : GoString := replaceAll path (str "/") (str ".")

/-- CompressPath: the index as an int32, or -1. -/
def compressPath32 (pathList : List GoString) (path : GoString) : Int32 :=
  let index := search pathList.length fun i => (pathList[i]?).any fun p => comparePath path ≤ p
  if pathList[index]? = some (comparePath path) then Int32.ofNat index else -1

/-- DecompressPath; the text is empty for a negative index. -/
def decompressPath32 (pathList : List GoString) (index : Int32) : MayPanic GoString :=
  if 0 ≤ index then pathList[index.toInt.toNat]? else some []

section

variable {pathList : List GoString} {path : GoString}

theorem sortPathList_pairwise (leafPaths : List GoString) :
    (sortPathList leafPaths).Pairwise (· ≤ ·) := by
  have htrans : ∀ p q r : GoString, decide (p ≤ q) = true → decide (q ≤ r) = true →
      decide (p ≤ r) = true := by
    intro p q r hpq hqr
    rw [decide_eq_true_eq] at hpq hqr ⊢
    exact List.le_trans hpq hqr
  have htotal : ∀ p q : GoString, (decide (p ≤ q) || decide (q ≤ p)) = true := by
    intro p q
    rw [Bool.or_eq_true, decide_eq_true_eq, decide_eq_true_eq]
    exact List.le_total p q
  exact (List.pairwise_mergeSort htrans htotal leafPaths).imp fun hle => of_decide_eq_true hle

/-- The sorted list has the same paths; without duplicates it is strictly sorted. -/
theorem sortPathList_sorted {leafPaths : List GoString} (h : leafPaths.Nodup) :
    (sortPathList leafPaths).Perm leafPaths ∧ (sortPathList leafPaths).Pairwise (· < ·) := by
  have hperm : (sortPathList leafPaths).Perm leafPaths := List.mergeSort_perm _ _
  have hnodup : (sortPathList leafPaths).Pairwise (· ≠ ·) := hperm.nodup_iff.mpr h
  refine ⟨hperm, ?_⟩
  have hboth := (sortPathList_pairwise leafPaths).and hnodup
  refine hboth.imp fun hpq => ?_
  by_contra hlt
  exact hpq.2 (List.le_antisymm hpq.1 (List.not_lt.mp hlt))

theorem replaceFrom_byte (c d : UInt8) (s : GoString) :
    replaceFrom [c] [d] 0 s = s.map fun b => if b = c then d else b := by
  induction s with
  | nil => rfl
  | cons b s ih =>
    rw [replaceFrom, List.map_cons]
    by_cases hb : b = c
    · subst hb
      rw [if_pos (by simp), if_pos rfl, ← ih]
      rfl
    · have hprefix : ¬ [c].isPrefixOf (b :: s) = true := by
        simpa using fun hcb => hb hcb.symm
      rw [if_neg hprefix, if_neg hb, ih]

theorem comparePath_quoted (path : GoString) :
    replaceAll (quoted path) (str "/") (str ".") = quoted (comparePath path) := by
  have hslash : str "/" = [47] := rfl
  have hdot : str "." = [46] := rfl
  rw [comparePath, replaceAll, replaceAll, hslash, hdot, replaceFrom_byte, replaceFrom_byte,
    quoted, quoted, List.map_cons, List.map_append]
  rfl

/-- The binary search ends at a path if and only if the list has it, and then at its index. -/
theorem getElem?_search (hsorted : pathList.Pairwise (· < ·)) (p : GoString) :
    pathList[search pathList.length fun i => (pathList[i]?).any fun q => p ≤ q]? = some p ↔
      p ∈ pathList := by
  constructor
  · exact List.mem_of_getElem?
  · intro hp
    have hidx : pathList.idxOf p < pathList.length := List.idxOf_lt_length_iff.mpr hp
    rw [search_path (hsorted.imp List.le_of_lt) hp, List.getElem?_eq_getElem hidx,
      List.getElem_idxOf hidx]

theorem compressPath32_of_notMem (h : comparePath path ∉ pathList) :
    compressPath32 pathList path = -1 := by
  rw [compressPath32, if_neg]
  intro hfound
  exact h (List.mem_of_getElem? hfound)

/-- An index is an int32 of its own in a list that has no more indices than there are int32s. -/
theorem decompressPath32_compressPath32 (hsorted : pathList.Pairwise (· < ·))
    (hlength : pathList.length ≤ 2147483648) (h : comparePath path ∈ pathList) :
    compressPath32 pathList path ≠ -1 ∧
      decompressPath32 pathList (compressPath32 pathList path) = some (comparePath path) := by
  have hfound := (getElem?_search hsorted (comparePath path)).mpr h
  generalize hindex : search pathList.length
    (fun i => (pathList[i]?).any fun q => comparePath path ≤ q) = index at hfound
  have hlt := (List.getElem?_eq_some_iff.mp hfound).1
  have hint : (Int32.ofNat index).toInt = index := Int32.toInt_ofNat_of_lt (by omega)
  have hcode : compressPath32 pathList path = Int32.ofNat index := by
    rw [compressPath32, hindex, if_pos hfound]
  have hnonneg : 0 ≤ Int32.ofNat index := by
    rw [Int32.le_iff_toInt_le, hint, Int32.toInt_zero]
    omega
  rw [hcode]
  constructor
  · intro hminus
    rw [hminus] at hnonneg
    exact absurd hnonneg (by decide)
  · rw [decompressPath32, if_pos hnonneg, hint, Int.toNat_natCast, hfound]

/-- The two bytes of an index give the path back where the list has no more indices than that. -/
theorem compressPath_of_mem (hsorted : pathList.Pairwise (· < ·))
    (h : comparePath path ∈ pathList) :
    ∃ high low, compressPath pathList (quoted path) = some [high, low] ∧
      (pathList.length ≤ 65536 →
        decompressPath pathList [high, low] = some (quoted (comparePath path))) := by
  have hfound := (getElem?_search hsorted (comparePath path)).mpr h
  generalize hindex : search pathList.length
    (fun i => (pathList[i]?).any fun q => comparePath path ≤ q) = index at hfound
  refine ⟨UInt8.ofNat (index / 256 % 256), UInt8.ofNat (index % 256), ?_, ?_⟩
  · simp only [compressPath, comparePath_quoted, slice_quoted, Option.bind_eq_bind,
      Option.bind_some, hindex, hfound, if_true]
  · intro hlength
    have hlt := (List.getElem?_eq_some_iff.mp hfound).1
    have hbytes : (UInt8.ofNat (index / 256 % 256)).toNat * 256 +
        (UInt8.ofNat (index % 256)).toNat = index := by
      rw [UInt8.toNat_ofNat', UInt8.toNat_ofNat']
      omega
    simp only [decompressPath, List.getElem?_cons_zero, List.getElem?_cons_succ,
      Option.bind_eq_bind, Option.bind_some, hbytes, hfound]
    rfl

theorem compressPath_of_notMem (h : comparePath path ∉ pathList) :
    compressPath pathList (quoted path) = some (quoted path) := by
  simp only [compressPath, comparePath_quoted, slice_quoted, Option.bind_eq_bind,
    Option.bind_some]
  rw [if_neg]
  intro hfound
  exact h (List.mem_of_getElem? hfound)

/-- What the compressions of a path give, and what their indices are decompressed to. -/
theorem path_codes (hsorted : pathList.Pairwise (· < ·)) (path : GoString) :
    (pathList.length ≤ 2147483648 →
      (compressPath32 pathList path ≠ -1 ↔ comparePath path ∈ pathList) ∧
      (comparePath path ∈ pathList →
        decompressPath32 pathList (compressPath32 pathList path) = some (comparePath path))) ∧
    (comparePath path ∈ pathList → ∃ high low,
      compressPath pathList (quoted path) = some [high, low] ∧
      (pathList.length ≤ 65536 →
        decompressPath pathList [high, low] = some (quoted (comparePath path)))) ∧
    (comparePath path ∉ pathList →
      compressPath pathList (quoted path) = some (quoted path)) ∧
    ∀ leafPaths : List GoString, leafPaths.Nodup →
      (sortPathList leafPaths).Perm leafPaths ∧ (sortPathList leafPaths).Pairwise (· < ·) := by
  refine ⟨?_, compressPath_of_mem hsorted, compressPath_of_notMem,
    fun leafPaths hnodup => sortPathList_sorted hnodup⟩
  intro hlength
  refine ⟨⟨?_, ?_⟩, ?_⟩
  · intro hindex
    by_contra hnot
    exact hindex (compressPath32_of_notMem hnot)
  · intro hmem
    exact (decompressPath32_compressPath32 hsorted hlength hmem).1
  · intro hmem
    exact (decompressPath32_compressPath32 hsorted hlength hmem).2

end

/-- A path with slashes in a list of three. -/
theorem path_codes_speed :
    let pathList := [str "Vehicle.Cabin", str "Vehicle.Speed", str "Vehicle.VIN"]
    (compressPath32 pathList (str "Vehicle/Speed") ≠ -1 ↔
        comparePath (str "Vehicle/Speed") ∈ pathList) ∧
      decompressPath32 pathList (compressPath32 pathList (str "Vehicle/Speed")) =
        some (comparePath (str "Vehicle/Speed")) ∧
      ∃ high low, compressPath pathList (quoted (str "Vehicle/Speed")) = some [high, low] ∧
        decompressPath pathList [high, low] = some (quoted (comparePath (str "Vehicle/Speed"))) := by
  intro pathList
  have hcodes := @path_codes pathList (by decide) (str "Vehicle/Speed")
  have hmem : comparePath (str "Vehicle/Speed") ∈ pathList := by decide
  obtain ⟨high, low, hcode, hback⟩ := hcodes.2.1 hmem
  exact ⟨(hcodes.1 (by decide)).1, (hcodes.1 (by decide)).2 hmem, high, low, hcode,
    hback (by decide)⟩

/-! ## Lists with more indices -/

section

variable {i j n : ℕ}

theorem append_lt_append {a b x y : GoString} (h : a < b) (hlength : a.length = b.length) :
    a ++ x < b ++ y := by
  induction a generalizing b with
  | nil =>
    rw [List.length_nil] at hlength
    rw [List.length_eq_zero_iff.mp hlength.symm] at h
    exact absurd h (List.lt_irrefl [])
  | cons c a ih =>
    cases b with
    | nil => exact absurd hlength (by simp)
    | cons d b =>
      rw [List.cons_append, List.cons_append, List.cons_lt_cons_iff]
      obtain hlt | ⟨rfl, hlt⟩ := List.cons_lt_cons_iff.mp h
      · exact .inl hlt
      · exact .inr ⟨rfl, ih hlt (Nat.succ.inj hlength)⟩

/-- Digits of one length stand in the order of their numbers. -/
theorem lastDigits_lt {k : ℕ} (hij : i < j) (hj : j < 10 ^ k) :
    lastDigits k i < lastDigits k j := by
  induction k generalizing i j with
  | zero => omega
  | succ k ih =>
    rw [lastDigits, lastDigits]
    obtain hlt | heq := Nat.lt_or_eq_of_le (Nat.div_le_div_right (c := 10) hij.le)
    · refine append_lt_append (ih hlt ?_) ?_
      · rw [Nat.pow_succ] at hj
        omega
      · rw [length_lastDigits, length_lastDigits]
    · rw [heq]
      apply List.append_left_lt
      rw [List.cons_lt_cons_iff, UInt8.lt_iff_toNat_lt, UInt8.toNat_ofNat', UInt8.toNat_ofNat']
      left
      omega

/-- A letter and ten digits. -/
def pathNumber (i : ℕ) : GoString := 112 :: lastDigits 10 i

def pathNumbers (n : ℕ) : List GoString := (List.range n).map pathNumber

theorem pathNumber_lt (hij : i < j) (hj : j < 10 ^ 10) : pathNumber i < pathNumber j :=
  List.cons_lt_cons_iff.mpr (.inr ⟨rfl, lastDigits_lt hij hj⟩)

theorem pathNumbers_pairwise (hn : n ≤ 10 ^ 10) : (pathNumbers n).Pairwise (· < ·) := by
  rw [pathNumbers, List.pairwise_map, List.pairwise_iff_getElem]
  intro a b ha hb hab
  rw [List.length_range] at hb
  rw [List.getElem_range, List.getElem_range]
  exact pathNumber_lt hab (by omega)

theorem comparePath_pathNumber (i : ℕ) : comparePath (pathNumber i) = pathNumber i := by
  have hdigits : 47 ∉ lastDigits 10 i := by
    intro hmem
    exact absurd (List.all_eq_true.mp (all_isDigit_lastDigits 10 i) 47 hmem) (by decide)
  apply replaceFrom_of_notMem
  rw [pathNumber, List.mem_cons, not_or]
  exact ⟨by decide, hdigits⟩

/-- An index of a long list that is negative as an int32 is decompressed to no path. -/
theorem decompressPath32_negative (hi : i < n) (hn : n ≤ 10 ^ 10)
    (hnegative : ¬ 0 ≤ Int32.ofNat i) :
    decompressPath32 (pathNumbers n) (compressPath32 (pathNumbers n) (pathNumber i)) =
      some [] := by
  have hmem : pathNumber i ∈ pathNumbers n := List.mem_map_of_mem (List.mem_range.mpr hi)
  have hfound := (getElem?_search (pathNumbers_pairwise hn) (pathNumber i)).mpr hmem
  generalize hindex : search (pathNumbers n).length
    (fun k => ((pathNumbers n)[k]?).any fun q => pathNumber i ≤ q) = index at hfound
  have heq : index = i := by
    have hnumber := hfound
    rw [pathNumbers, List.getElem?_map, Option.map_eq_some_iff] at hnumber
    obtain ⟨k, hk, hsame⟩ := hnumber
    obtain ⟨hlt, rfl⟩ := List.getElem?_eq_some_iff.mp hk
    rw [List.length_range] at hlt
    rw [List.getElem_range] at hsame
    obtain hless | heq | hmore := Nat.lt_trichotomy index i
    · exact absurd (hsame ▸ pathNumber_lt hless (by omega)) (List.lt_irrefl _)
    · exact heq
    · exact absurd (hsame ▸ pathNumber_lt hmore (by omega)) (List.lt_irrefl _)
  rw [compressPath32, comparePath_pathNumber, hindex, if_pos hfound, decompressPath32, heq,
    if_neg hnegative]

end

/-- In a list of 2^31 + 1 paths the last index is a negative int32. -/
theorem path_lost : ¬ ∀ pathList : List GoString, pathList.Pairwise (· < ·) → ∀ path,
    comparePath path ∈ pathList →
      decompressPath32 pathList (compressPath32 pathList path) = some (comparePath path) := by
  intro h
  have hlt : 2147483648 < 2147483649 := by omega
  have hbound : 2147483649 ≤ 10 ^ 10 := by omega
  have hback := h (pathNumbers 2147483649) (pathNumbers_pairwise hbound)
    (pathNumber 2147483648) (by
      rw [comparePath_pathNumber]
      exact List.mem_map_of_mem (List.mem_range.mpr hlt))
  rw [decompressPath32_negative hlt hbound (by decide), comparePath_pathNumber, pathNumber] at hback
  exact List.cons_ne_nil _ _ (Option.some.inj hback).symm

end VissServer.Utils

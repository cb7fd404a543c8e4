import Mathlib.Data.List.Range
import VissServer.Go.Strings

/-!
The grouping of the signals of a curve log by their dimensions (curvelog.go). An array over the
requested paths is a function of the index.
-/
namespace VissServer.ServiceMgr.SignalDimensions

open Go

structure Dim2Elem where
  path1 : GoString
  path2 : GoString
  deriving DecidableEq

structure Dim3Elem where
  path1 : GoString
  path2 : GoString
  path3 : GoString
  deriving DecidableEq

structure SignalDimensionLists where
  dim2List : List Dim2Elem
  dim3List : List Dim3Elem

structure PathDimElem where
  dim : ℕ := 1
  id : ℤ := -1
  populated : Bool := false

/-! ## The configuration -/

def is2dim (path : GoString) (index : ℕ) (dim2List : List Dim2Elem) : Bool :=
  match index with
  | 1 => dim2List.any fun e => e.path1 = path
  | 2 => dim2List.any fun e => e.path2 = path
  | _ => false

def is3dim (path : GoString) (index : ℕ) (dim3List : List Dim3Elem) : Bool :=
  match index with
  | 1 => dim3List.any fun e => e.path1 = path
  | 2 => dim3List.any fun e => e.path2 = path
  | 3 => dim3List.any fun e => e.path3 = path
  | _ => false

/-! ## The analysis -/

section Paths

variable (paths : List GoString) (lists : SignalDimensionLists)

def pathAt (i : ℕ) : GoString := paths.getD i []

/-- The indices that a loop runs through which starts behind an index. -/
def behind (i : ℕ) : List ℕ := List.range' (i + 1) (paths.length - (i + 1))

/-- The index at which the loop for a pair stops. -/
def next2 (i : ℕ) : Option ℕ :=
  (behind paths i).find? fun j => is2dim (pathAt paths j) 2 lists.dim2List

/-- The index at which the loops for a triple stop: the innermost one ends in its first pass,
if there is one. -/
def next3 (i : ℕ) : Option ℕ :=
  (behind paths i).find? fun j =>
    is3dim (pathAt paths j) 2 lists.dim3List && decide (j + 1 < paths.length)

structure Analysis where
  pathDimList : ℕ → PathDimElem := fun _ => {}
  dim2Id : ℤ := 0
  dim3Id : ℤ := 0

def setDim (pathDimList : ℕ → PathDimElem) (indices : List ℕ) (dim : ℕ) (id : ℤ) :
    ℕ → PathDimElem :=
  fun m => if m ∈ indices then { pathDimList m with dim, id } else pathDimList m

def Analysis.pair (s : Analysis) (i j : ℕ) : Analysis :=
  { s with pathDimList := setDim s.pathDimList [i, j] 2 s.dim2Id, dim2Id := s.dim2Id + 1 }

def Analysis.triple (s : Analysis) (i j k : ℕ) : Analysis :=
  { s with pathDimList := setDim s.pathDimList [i, j, k] 3 s.dim3Id, dim3Id := s.dim3Id + 1 }

def analyzePath (s : Analysis) (i : ℕ) : Analysis :=
  if is2dim (pathAt paths i) 1 lists.dim2List then
    match next2 paths lists i with
    | some j => s.pair i j
    | none => s
  else if is3dim (pathAt paths i) 1 lists.dim3List then
    match next3 paths lists i with
    | some j =>
        if is3dim (pathAt paths (j + 1)) 3 lists.dim3List then s.triple i j (j + 1)
        else s.pair i j
    | none => s
  else s

def analyzeSignalDimensions : ℕ → PathDimElem :=
  ((List.range paths.length).foldl (analyzePath paths lists) {}).pathDimList

/-! ## The lists -/

structure DimLists where
  dim1List : List GoString := []
  dim2List : List Dim2Elem := []
  dim3List : List Dim3Elem := []
  pathDimList : ℕ → PathDimElem

def setPopulated (pathDimList : ℕ → PathDimElem) (indices : List ℕ) : ℕ → PathDimElem :=
  fun m => if m ∈ indices then { pathDimList m with populated := true } else pathDimList m

/-- The later elements of a dimension with the same id. -/
def partners (pathDimList : ℕ → PathDimElem) (dim i j : ℕ) : List ℕ :=
  (behind paths j).filter fun k =>
    (pathDimList k).dim = dim && decide ((pathDimList k).id = (pathDimList i).id)

/-- For triples the id of the second element is compared with itself. -/
def populatePath (s : DimLists) (i : ℕ) : DimLists :=
  let e := s.pathDimList i
  if e.dim = 1 then { s with dim1List := s.dim1List ++ [pathAt paths i] }
  else if e.dim = 2 ∧ e.populated = false then
    let js := partners paths s.pathDimList 2 i i
    { s with
      dim2List := s.dim2List ++ js.map fun j => ⟨pathAt paths i, pathAt paths j⟩
      pathDimList := setPopulated s.pathDimList js }
  else if e.dim = 3 ∧ e.populated = false then
    let jks := ((behind paths i).filter fun j => (s.pathDimList j).dim = 3).flatMap fun j =>
      (partners paths s.pathDimList 3 i j).map fun k => (j, k)
    { s with
      dim3List := s.dim3List ++ jks.map fun jk =>
        ⟨pathAt paths i, pathAt paths jk.1, pathAt paths jk.2⟩
      pathDimList := setPopulated s.pathDimList (jks.flatMap fun jk => [jk.1, jk.2]) }
  else s

/-- The paths in groups; the triples are not returned. -/
def populateDimLists : List GoString × List Dim2Elem × List Dim3Elem :=
  let s := (List.range paths.length).foldl (populatePath paths)
    { pathDimList := analyzeSignalDimensions paths lists }
  (s.dim1List, s.dim2List, [])

end Paths

end VissServer.ServiceMgr.SignalDimensions

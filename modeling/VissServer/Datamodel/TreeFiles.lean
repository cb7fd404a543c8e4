import Mathlib.Data.List.Nodup
import VissServer.Go.JsonMaps
import VissServer.Go.Slices

/-!
The datamodel files that the domain conversion tool writes (DomainConversionTool.go): the nodes of
a domain, and in a complete tree the branches on the ways to them.
-/
namespace VissServer.Datamodel

open Go

/-! ## Nodes -/

structure DomainData where
  path : GoString := []
  type : GoString := []
  unit : GoString := []
  datatype : GoString := []
  enumValues : GoString := []
  min : GoString := []
  max : GoString := []
  deflt : GoString := []
  description : GoString := []
  uid : GoString := []
  comment : GoString := []
  deriving DecidableEq

/-- The keys of an object, an empty text for each one whose value is no string. -/
def extractJsonDataLevel2 (jsonObject : GoMap Json) : List GoString :=
  (jsonObject.map fun p => if (asString p.2).isSome then p.1 else []).mergeSort

/-- What cannot be decoded gives no values. -/
def extractJsonData (jsonLiteral : GoString) : List GoString :=
  if jsonLiteral.head? = some 91 then (unmarshalStrings jsonLiteral).getD []
  else
    match (parseText jsonLiteral).map canon with
    | some (.obj jsonObject) => extractJsonDataLevel2 jsonObject
    | _ => []

/-- A line that is left out where the value is empty. -/
def keyLine (key value : GoString) : GoString :=
  if value = [] then [] else str "  " ++ key ++ str ": " ++ value ++ str "\n"

def arrayLines (values : List GoString) : GoString :=
  values.flatMap fun value => str "  - '" ++ value ++ str "'\n"

def defaultLines (deflt : GoString) : GoString :=
  if deflt ≠ [] ∧ contains deflt (str "[") then
    str "  default:\n" ++ arrayLines (extractJsonData deflt)
  else keyLine (str "default") deflt

def allowedLines (node : DomainData) : GoString :=
  if node.enumValues ≠ [] ∧ node.datatype ≠ str "boolean" then
    str "  allowed:\n" ++ arrayLines (extractJsonData node.enumValues)
  else []

/-- A node without a description has its path for one. -/
def writeYamlNode (node : DomainData) : GoString :=
  node.path ++ str ":\n" ++ keyLine (str "type") node.type ++
    keyLine (str "datatype")
      (if node.datatype = str "state_encoded" then str "string" else node.datatype) ++
    keyLine (str "min") node.min ++ keyLine (str "max") node.max ++
    keyLine (str "unit") node.unit ++ defaultLines node.deflt ++
    keyLine (str "uuid") node.uid ++ allowedLines node ++
    (str "  description: " ++ (if node.description = [] then node.path else node.description) ++
      str "\n") ++
    keyLine (str "comment") node.comment ++ str "\n"

/-! ## Branches -/

def writeBranch (branchPath : GoString) : GoString :=
  branchPath ++ str ":\n" ++ str "  type: branch\n" ++
    (str "  description: " ++ branchPath ++ str "\n") ++ str "\n"

/-- The loop of decomposePath, with as many steps as it has left. -/
def decomposeFrom (path : GoString) : ℕ → ℤ → MayPanic (List GoString)
  | 0, _ => some []
  | steps + 1, lead => do
      let rest ← sliceFrom path lead
      let trail := index rest (str ".") + lead
      let branchPath ← slice path 0 trail
      let branchPaths ← decomposeFrom path steps (trail + 1)
      some (branchPath :: branchPaths)

def decomposePath (path : GoString) : MayPanic (List GoString) :=
  decomposeFrom path (path.count 46 + 1) 0

/-- The branches that are written, and the list of all branches afterwards. -/
def writeBranches (branchPathList : List GoString) : List GoString → List GoString × List GoString
  | [] => ([], branchPathList)
  | branchPath :: branchPaths =>
      if branchPath ∈ branchPathList then writeBranches branchPathList branchPaths
      else
        let (written, branchPathList) := writeBranches (branchPathList ++ [branchPath]) branchPaths
        (branchPath :: written, branchPathList)

/-- An entry of a datamodel file. -/
inductive Entry
  | branch (path : GoString)
  | node (node : DomainData)

def Entry.path : Entry → GoString
  | .branch path => path
  | .node data => data.path

def Entry.text : Entry → GoString
  | .branch path => writeBranch path
  | .node data => writeYamlNode data

/-- The loop of createYamlFile. -/
def yamlEntries (includeNodes : Bool) :
    List GoString → List DomainData → MayPanic (List Entry)
  | _, [] => some []
  | branchPathList, node :: nodeArray => do
      let branchPaths ← if includeNodes then decomposePath node.path else some []
      let (written, branchPathList) := writeBranches branchPathList branchPaths
      let entries ← yamlEntries includeNodes branchPathList nodeArray
      some (written.map .branch ++ .node node :: entries)

/-- The entries that are written into a file, each behind the other. -/
def createYamlFile (nodeArray : List DomainData) (treeContent : GoString) :
    MayPanic (List Entry) :=
  yamlEntries (treeContent = str "complete") [] nodeArray

/-! ## Ancestors -/

section Ancestors

variable {path b front rest : GoString}

/-- A branch on the way to a path. -/
def Ancestor (b path : GoString) : Prop := b ++ [46] <+: path

/-- The ancestors that are longer than the text in front. -/
def ancestorsFrom (front : GoString) : GoString → List GoString
  | [] => []
  | c :: rest =>
      if c = 46 then front :: ancestorsFrom (front ++ [c]) rest
      else ancestorsFrom (front ++ [c]) rest

theorem mem_ancestorsFrom :
    b ∈ ancestorsFrom front rest ↔ ∃ a r, rest = a ++ 46 :: r ∧ b = front ++ a := by
  induction rest generalizing front with
  | nil => simp [ancestorsFrom]
  | cons c rest ih =>
    have hlonger : (∃ a r, rest = a ++ 46 :: r ∧ b = front ++ [c] ++ a) ↔
        ∃ a r, a ≠ [] ∧ c :: rest = a ++ 46 :: r ∧ b = front ++ a := by
      constructor
      · rintro ⟨a, r, rfl, rfl⟩
        exact ⟨c :: a, r, by simp, rfl, by simp⟩
      · rintro ⟨a, r, hne, hsplit, rfl⟩
        obtain ⟨d, a, rfl⟩ := List.exists_cons_of_ne_nil hne
        obtain ⟨rfl, rfl⟩ := List.cons.inj hsplit
        exact ⟨a, r, rfl, by simp⟩
    rw [ancestorsFrom]
    split
    · next hdot =>
      rw [List.mem_cons, ih, hlonger]
      constructor
      · rintro (rfl | ⟨a, r, -, hsplit, hb⟩)
        · exact ⟨[], rest, by rw [hdot]; rfl, by simp⟩
        · exact ⟨a, r, hsplit, hb⟩
      · rintro ⟨a, r, hsplit, hb⟩
        by_cases hne : a = []
        · left
          rw [hb, hne, List.append_nil]
        · exact .inr ⟨a, r, hne, hsplit, hb⟩
    · next hdot =>
      rw [ih, hlonger]
      constructor
      · rintro ⟨a, r, -, hsplit, hb⟩
        exact ⟨a, r, hsplit, hb⟩
      · rintro ⟨a, r, hsplit, hb⟩
        refine ⟨a, r, ?_, hsplit, hb⟩
        rintro rfl
        exact hdot (List.cons.inj hsplit).1

theorem mem_ancestors : b ∈ ancestorsFrom [] path ↔ Ancestor b path := by
  rw [mem_ancestorsFrom]
  constructor
  · rintro ⟨a, r, rfl, rfl⟩
    exact ⟨r, by simp⟩
  · rintro ⟨r, rfl⟩
    exact ⟨b, r, by simp, rfl⟩

theorem ancestorsFrom_sorted (front rest : GoString) :
    (ancestorsFrom front rest).Pairwise (fun a b => a.length < b.length) ∧
      ∀ b ∈ ancestorsFrom front rest, front.length ≤ b.length := by
  induction rest generalizing front with
  | nil => simp [ancestorsFrom]
  | cons c rest ih =>
    obtain ⟨hsorted, hlong⟩ := ih (front ++ [c])
    have hlonger : ∀ b ∈ ancestorsFrom (front ++ [c]) rest, front.length < b.length := by
      intro b hb
      have hle := hlong b hb
      rw [List.length_append, List.length_singleton] at hle
      omega
    rw [ancestorsFrom]
    split
    · refine ⟨List.pairwise_cons.mpr ⟨hlonger, hsorted⟩, ?_⟩
      intro b hb
      rcases List.mem_cons.mp hb with rfl | hb
      · exact Nat.le_refl _
      · exact (hlonger b hb).le
    · exact ⟨hsorted, fun b hb => (hlonger b hb).le⟩

theorem ancestorsFrom_append (front : GoString) {a : GoString} (ha : 46 ∉ a) (r : GoString) :
    ancestorsFrom front (a ++ 46 :: r) =
      (front ++ a) :: ancestorsFrom (front ++ a ++ [46]) r := by
  induction a generalizing front with
  | nil => simp [ancestorsFrom]
  | cons c a ih =>
    have hc : c ≠ 46 := fun heq => ha (heq ▸ List.mem_cons_self)
    rw [List.cons_append, ancestorsFrom, if_neg hc, ih _ fun h => ha (List.mem_cons_of_mem c h)]
    simp

theorem ancestorsFrom_eq_nil (front : GoString) (h : 46 ∉ rest) :
    ancestorsFrom front rest = [] := by
  rw [List.eq_nil_iff_forall_not_mem]
  intro b hb
  obtain ⟨a, r, rfl, -⟩ := mem_ancestorsFrom.mp hb
  exact h (by simp)

/-- Behind a dot the loop finds all ancestors, the last one twice. -/
theorem decomposeFrom_behind (front rest : GoString) :
    decomposeFrom (front ++ 46 :: rest) (rest.count 46 + 1) (front.length + 1) =
      some (ancestorsFrom (front ++ [46]) rest ++
        [((ancestorsFrom (front ++ [46]) rest).getLast?).getD front]) := by
  generalize hn : rest.count 46 = n
  have hrest := sliceFrom_cut front rest 46
  induction n generalizing front rest with
  | zero =>
    have hdot : 46 ∉ rest := List.count_eq_zero.mp hn
    have hindex : index rest (str ".") = -1 := index_byte_of_notMem hdot
    have hslice : slice (front ++ 46 :: rest) 0 (-1 + (front.length + 1)) = some front :=
      slice_append [] (46 :: rest) rfl rfl (by omega)
    rw [decomposeFrom, hrest]
    simp only [Option.bind_eq_bind, Option.bind_some, hindex, hslice, decomposeFrom,
      ancestorsFrom_eq_nil _ hdot]
    rfl
  | succ n ih =>
    obtain ⟨a, r, rfl, ha, hr⟩ := exists_cut (by omega : 0 < rest.count 46)
    have hindex : index (a ++ 46 :: r) (str ".") = a.length := index_byte_append ha r
    have hpath : front ++ 46 :: (a ++ 46 :: r) = (front ++ 46 :: a) ++ 46 :: r := by simp
    have hlength : ((front ++ 46 :: a).length : ℤ) = a.length + (front.length + 1) := by
      rw [List.length_append, List.length_cons]
      omega
    have hslice : slice (front ++ 46 :: (a ++ 46 :: r)) 0 (a.length + (front.length + 1)) =
        some (front ++ 46 :: a) :=
      slice_append [] (46 :: r) (by simp) rfl (by omega)
    have hbehind := ih (front ++ 46 :: a) r (by omega) (sliceFrom_cut _ _ _)
    rw [← hpath, hlength] at hbehind
    rw [decomposeFrom, hrest]
    simp only [Option.bind_eq_bind, Option.bind_some, hindex, hslice, hbehind]
    rw [ancestorsFrom_append _ ha]
    simp only [List.append_assoc, List.cons_append, List.nil_append, Option.some.injEq,
      List.cons.injEq, true_and]
    rw [List.getLast?_cons]
    rfl

/-- A path without a dot panics. -/
theorem decomposePath_eq (path : GoString) :
    decomposePath path =
      if 46 ∈ path then some (ancestorsFrom [] path ++ [(ancestorsFrom [] path).getLast?.getD []])
      else none := by
  unfold decomposePath
  split
  · next hdot =>
    obtain ⟨a, r, rfl, ha, hr⟩ := exists_cut (List.count_pos_iff.mpr hdot)
    have hindex : index (a ++ 46 :: r) (str ".") = a.length := index_byte_append ha r
    have hwhole : sliceFrom (a ++ 46 :: r) 0 = some (a ++ 46 :: r) := sliceFrom_append [] _
    have hslice : slice (a ++ 46 :: r) 0 a.length = some a :=
      slice_append [] (46 :: r) rfl rfl (by omega)
    rw [← hr, decomposeFrom, hwhole]
    simp only [Option.bind_eq_bind, Option.bind_some, hindex, hslice, Int.add_zero,
      decomposeFrom_behind]
    rw [ancestorsFrom_append _ ha]
    simp [List.getLast?_cons]
  · next hdot =>
    have hindex : index path (str ".") = -1 := index_byte_of_notMem hdot
    have hwhole : sliceFrom path 0 = some path := sliceFrom_append [] path
    have hslice : slice path 0 (-1) = none := if_neg (by omega)
    rw [decomposeFrom, hwhole]
    simp only [Option.bind_eq_bind, Option.bind_some, hindex, Int.add_zero, hslice,
      Option.bind_none]

end Ancestors

/-! ## Complete trees -/

section Trees

variable {list list' written branchPaths : List GoString} {b : GoString}

def Entry.branch? : Entry → Option GoString
  | .branch path => some path
  | .node _ => none

def Entry.node? : Entry → Option DomainData
  | .branch _ => none
  | .node data => some data

/-- The branches of a file, in the order in which they are written. -/
def branches (entries : List Entry) : List GoString := entries.filterMap Entry.branch?

theorem branches_append (front behind : List Entry) :
    branches (front ++ behind) = branches front ++ branches behind := List.filterMap_append

theorem branches_map (written : List GoString) : branches (written.map .branch) = written := by
  rw [branches, List.filterMap_map]
  exact List.filterMap_some

theorem mem_branches {entries : List Entry} : b ∈ branches entries ↔ .branch b ∈ entries := by
  rw [branches, List.mem_filterMap]
  constructor
  · rintro ⟨e, he, heq⟩
    cases e with
    | branch path =>
      obtain rfl := Option.some.inj heq
      exact he
    | node data => cases heq
  · intro h
    exact ⟨_, h, rfl⟩

/-- Each branch that is not in the list yet is written, where it is met first. -/
structure NewBranches (list branchPaths written list' : List GoString) : Prop where
  append : list' = list ++ written
  nodup : list.Nodup → list'.Nodup
  mem : ∀ b, b ∈ list' ↔ b ∈ list ∨ b ∈ branchPaths
  first : ∀ front b behind, written = front ++ b :: behind →
    ∃ x y, branchPaths = x ++ b :: y ∧ ∀ a ∈ x, a ∈ list ∨ a ∈ front

theorem writeBranches_new (h : writeBranches list branchPaths = (written, list')) :
    NewBranches list branchPaths written list' := by
  induction branchPaths generalizing list written with
  | nil =>
    obtain ⟨rfl, rfl⟩ := Prod.mk.inj h
    exact ⟨by simp, fun hnodup => hnodup, by simp, by simp⟩
  | cons c branchPaths ih =>
    rw [writeBranches] at h
    split at h
    · next hc =>
      obtain ⟨hlist, hnodup, hmem, hfirst⟩ := ih h
      refine ⟨hlist, hnodup, ?_, ?_⟩
      · intro b
        rw [hmem, List.mem_cons]
        constructor
        · rintro (hb | hb)
          · exact .inl hb
          · exact .inr (.inr hb)
        · rintro (hb | rfl | hb)
          · exact .inl hb
          · exact .inl hc
          · exact .inr hb
      · intro front b behind heq
        obtain ⟨x, y, rfl, hx⟩ := hfirst front b behind heq
        exact ⟨c :: x, y, rfl, List.forall_mem_cons.mpr ⟨.inl hc, hx⟩⟩
    · next hc =>
      generalize hrest : writeBranches (list ++ [c]) branchPaths = found at h
      obtain ⟨more, final⟩ := found
      obtain ⟨rfl, rfl⟩ := Prod.mk.inj h
      obtain ⟨hlist, hnodup, hmem, hfirst⟩ := ih hrest
      refine ⟨by simpa using hlist, ?_, ?_, ?_⟩
      · intro hlistNodup
        refine hnodup (List.nodup_append.mpr ⟨hlistNodup, List.nodup_singleton c, ?_⟩)
        intro a ha d hd heq
        obtain rfl := List.mem_singleton.mp hd
        exact hc (heq ▸ ha)
      · intro b
        rw [hmem, List.mem_append, List.mem_singleton, List.mem_cons, or_assoc]
      · intro front b behind heq
        cases front with
        | nil =>
          obtain ⟨rfl, -⟩ := List.cons.inj heq
          exact ⟨[], branchPaths, rfl, by simp⟩
        | cons d front =>
          obtain ⟨rfl, hmore⟩ := List.cons.inj heq
          obtain ⟨x, y, rfl, hx⟩ := hfirst front b behind hmore
          refine ⟨c :: x, y, rfl, List.forall_mem_cons.mpr ⟨.inr List.mem_cons_self, ?_⟩⟩
          intro a ha
          rcases hx a ha with hlist | hfront
          · rcases List.mem_append.mp hlist with ha | ha
            · exact .inl ha
            · exact .inr (List.mem_cons.mpr (.inl (List.mem_singleton.mp ha)))
          · exact .inr (List.mem_cons_of_mem c hfront)

theorem Ancestor.trans {a path : GoString} (h : Ancestor a b) (h' : Ancestor b path) :
    Ancestor a path :=
  List.IsPrefix.trans h ((List.prefix_append b [46]).trans h')

theorem mem_decomposePath {path : GoString} (h : decomposePath path = some branchPaths) :
    b ∈ branchPaths ↔ Ancestor b path := by
  rw [decomposePath_eq] at h
  split at h
  · next hdot =>
    obtain rfl := Option.some.inj h
    rw [← mem_ancestors, List.mem_append, List.mem_singleton, or_iff_left_iff_imp]
    obtain ⟨a, r, rfl, ha, -⟩ := exists_cut (List.count_pos_iff.mpr hdot)
    have hne : ancestorsFrom [] (a ++ 46 :: r) ≠ [] := by
      rw [ancestorsFrom_append _ ha]
      simp
    rintro rfl
    rw [List.getLast?_eq_some_getLast hne, Option.getD_some]
    exact List.getLast_mem hne
  · cases h

/-- The ancestors of a path come first, the shorter ones before the longer ones. -/
theorem ancestor_before {x y : List GoString} {last path a : GoString}
    (hlast : ∀ l, (ancestorsFrom [] path).getLast? = some l → last = l)
    (hsplit : ancestorsFrom [] path ++ [last] = x ++ b :: y) (hb : Ancestor a b)
    (hpath : Ancestor a path) : a ∈ x := by
  obtain ⟨r, rfl⟩ := hb
  have hshort : a.length < (a ++ [46] ++ r).length := by
    simp only [List.length_append, List.length_singleton]
    omega
  have hsorted : (ancestorsFrom [] path ++ [last]).Pairwise fun c d => c.length ≤ d.length := by
    obtain ⟨hstrict, -⟩ := ancestorsFrom_sorted [] path
    refine List.pairwise_append.mpr ⟨hstrict.imp fun hlt => hlt.le, List.pairwise_singleton _ _, ?_⟩
    intro c hc d hd
    obtain rfl := List.mem_singleton.mp hd
    obtain ⟨init, l, hinit⟩ := (List.eq_nil_or_concat (ancestorsFrom [] path)).resolve_left
      (List.ne_nil_of_mem hc)
    rw [List.concat_eq_append] at hinit
    rw [hinit, List.getLast?_append] at hlast
    obtain rfl := hlast l (by simp)
    rw [hinit] at hc hstrict
    rcases List.mem_append.mp hc with hc | hc
    · exact ((List.pairwise_append.mp hstrict).2.2 c hc _ List.mem_cons_self).le
    · rw [List.mem_singleton.mp hc]
  have hmem : a ∈ x ++ (a ++ [46] ++ r) :: y := by
    rw [← hsplit]
    exact List.mem_append_left _ (mem_ancestors.mpr hpath)
  rw [hsplit] at hsorted
  obtain ⟨-, hbehind, -⟩ := List.pairwise_append.mp hsorted
  rcases List.mem_append.mp hmem with hx | hy
  · exact hx
  · rcases List.mem_cons.mp hy with heq | hy
    · exact absurd hshort (by rw [← heq]; exact lt_irrefl _)
    · exact absurd hshort (Nat.not_lt.mpr ((List.pairwise_cons.mp hbehind).1 a hy))

theorem decomposePath_before {x y : List GoString} {path a : GoString}
    (h : decomposePath path = some branchPaths) (hsplit : branchPaths = x ++ b :: y)
    (hb : Ancestor a b) (hpath : Ancestor a path) : a ∈ x := by
  rw [decomposePath_eq] at h
  split at h
  · obtain rfl := Option.some.inj h
    refine ancestor_before ?_ hsplit hb hpath
    intro l hl
    rw [hl, Option.getD_some]
  · cases h

/-- A position in what is written for one node and the nodes behind it. -/
theorem entries_cut {node : DomainData} {more front behind : List Entry} {e : Entry}
    (h : written.map .branch ++ .node node :: more = front ++ e :: behind) :
    (front = written.map .branch ∧ e = .node node) ∨
      (∃ front', front = written.map .branch ++ .node node :: front' ∧
        more = front' ++ e :: behind) ∨
      ∃ front' c c', written = front' ++ c :: c' ∧ front = front'.map .branch ∧ e = .branch c := by
  rcases List.append_eq_append_iff.mp h with ⟨l, rfl, hl⟩ | ⟨l, hwritten, hl⟩
  · cases l with
    | nil =>
      obtain ⟨rfl, -⟩ := List.cons.inj hl
      exact .inl ⟨by simp, rfl⟩
    | cons d l =>
      obtain ⟨rfl, rfl⟩ := List.cons.inj hl
      exact .inr (.inl ⟨l, rfl, rfl⟩)
  · cases l with
    | nil =>
      obtain ⟨rfl, -⟩ := List.cons.inj hl
      exact .inl ⟨by simpa using hwritten.symm, rfl⟩
    | cons d l =>
      obtain ⟨rfl, -⟩ := List.cons.inj hl
      obtain ⟨front', rest, rfl, rfl, hrest⟩ := List.map_eq_append_iff.mp hwritten
      obtain ⟨c, c', rfl, rfl, -⟩ := List.map_eq_cons_iff.mp hrest
      exact .inr (.inr ⟨front', c, c', rfl, rfl, rfl⟩)

/-- What is written for some nodes, when the branches of a list have been written before. -/
structure CompletedFrom (list : List GoString) (nodeArray : List DomainData)
    (entries : List Entry) : Prop where
  nodes : entries.filterMap Entry.node? = nodeArray
  nodup : (list ++ branches entries).Nodup
  mem : ∀ b, b ∈ list ++ branches entries ↔
    b ∈ list ∨ ∃ node ∈ nodeArray, Ancestor b node.path
  before : ∀ front e behind b, entries = front ++ e :: behind → Ancestor b e.path →
    b ∈ list ∨ .branch b ∈ front

/-- A complete tree: each ancestor of a node is written once, before all that is below it. -/
structure CompletedTree (nodeArray : List DomainData) (entries : List Entry) : Prop where
  nodes : entries.filterMap Entry.node? = nodeArray
  once : ∀ b, (∃ node ∈ nodeArray, Ancestor b node.path) → (branches entries).count b = 1
  before : ∀ front e behind b, entries = front ++ e :: behind → Ancestor b e.path →
    .branch b ∈ front
  ancestors : ∀ b ∈ branches entries, ∃ node ∈ nodeArray, Ancestor b node.path

theorem CompletedFrom.tree {nodeArray : List DomainData} {entries : List Entry}
    (h : CompletedFrom [] nodeArray entries) : CompletedTree nodeArray entries := by
  obtain ⟨hnodes, hnodup, hmem, hbefore⟩ := h
  simp only [List.nil_append, List.not_mem_nil, false_or] at hnodup hmem hbefore
  refine ⟨hnodes, ?_, hbefore, fun b hb => (hmem b).mp hb⟩
  intro b hb
  exact List.count_eq_one_of_mem hnodup ((hmem b).mpr hb)

theorem yamlEntries_completed {nodeArray : List DomainData} {entries : List Entry}
    (hlist : list.Nodup) (h : yamlEntries true list nodeArray = some entries) :
    CompletedFrom list nodeArray entries := by
  induction nodeArray generalizing list entries with
  | nil =>
    obtain rfl : [] = entries := Option.some.inj h
    exact ⟨rfl, by simpa [branches] using hlist, by simp [branches], by simp⟩
  | cons node nodeArray ih =>
    simp only [yamlEntries, if_true, Option.bind_eq_bind, Option.bind_eq_some_iff,
      Option.some.injEq] at h
    obtain ⟨branchPaths, hpaths, more, hmore, rfl⟩ := h
    generalize hwritten : writeBranches list branchPaths = found at hmore
    obtain ⟨written, list'⟩ := found
    obtain ⟨rfl, hnew, hmemNew, hfirst⟩ := writeBranches_new hwritten
    obtain ⟨hnodes, hnodup, hmem, hbefore⟩ := ih (hnew hlist) hmore
    have hmemPaths : ∀ b, b ∈ branchPaths ↔ Ancestor b node.path := fun _ =>
      mem_decomposePath hpaths
    have hancestor : ∀ b, Ancestor b node.path → b ∈ list ∨ b ∈ written := by
      intro b hb
      exact List.mem_append.mp ((hmemNew b).mpr (.inr ((hmemPaths b).mpr hb)))
    have hbranches : branches (written.map .branch ++ .node node :: more) =
        written ++ branches more := by
      rw [branches_append, branches_map]
      rfl
    refine ⟨?_, ?_, ?_, ?_⟩
    · rw [List.filterMap_append, List.filterMap_map, ← hnodes]
      simp [Function.comp_def, Entry.node?]
    · rwa [hbranches, ← List.append_assoc]
    · intro b
      rw [hbranches, ← List.append_assoc, hmem, hmemNew, hmemPaths, or_assoc]
      simp only [List.mem_cons, exists_eq_or_imp]
    · intro front e behind b heq hb
      rcases entries_cut heq with ⟨rfl, rfl⟩ | ⟨front', rfl, hrest⟩ | ⟨front', c, c', rfl, rfl, rfl⟩
      · rcases hancestor b hb with hlist | hwritten
        · exact .inl hlist
        · exact .inr (List.mem_map_of_mem hwritten)
      · rcases hbefore front' e behind b hrest hb with hlist | hfront
        · rcases List.mem_append.mp hlist with hlist | hwritten
          · exact .inl hlist
          · exact .inr (List.mem_append_left _ (List.mem_map_of_mem hwritten))
        · exact .inr (List.mem_append_right _ (List.mem_cons_of_mem _ hfront))
      · obtain ⟨x, y, hsplit, hx⟩ := hfirst front' c c' rfl
        have hc : Ancestor c node.path := (hmemPaths c).mp (by rw [hsplit]; simp)
        rcases hx b (decomposePath_before hpaths hsplit hb (hb.trans hc)) with hlist | hfront
        · exact .inl hlist
        · exact .inr (List.mem_map_of_mem hfront)

theorem yamlEntries_isSome_iff (list : List GoString) (nodeArray : List DomainData) :
    (yamlEntries true list nodeArray).isSome ↔ ∀ node ∈ nodeArray, 46 ∈ node.path := by
  induction nodeArray generalizing list with
  | nil => simp [yamlEntries]
  | cons node nodeArray ih =>
    rw [List.forall_mem_cons, yamlEntries, if_pos rfl, decomposePath_eq]
    split
    · next hdot =>
      rw [Option.bind_eq_bind, Option.bind_some, and_iff_right hdot]
      dsimp only
      generalize writeBranches list _ = found
      obtain ⟨written, list'⟩ := found
      rw [← ih list']
      dsimp only
      cases yamlEntries true list' nodeArray with
      | none => rfl
      | some entries => rfl
    · next hdot => simp [hdot]

/-- A complete tree is written where each path has a dot; a path without one panics. -/
theorem createYamlFile_complete_iff (nodeArray : List DomainData) :
    (∃ entries, createYamlFile nodeArray (str "complete") = some entries ∧
        CompletedTree nodeArray entries) ↔ ∀ node ∈ nodeArray, 46 ∈ node.path := by
  rw [← yamlEntries_isSome_iff []]
  constructor
  · rintro ⟨entries, hentries, -⟩
    exact Option.isSome_of_eq_some hentries
  · intro h
    obtain ⟨entries, hentries⟩ := Option.isSome_iff_exists.mp h
    exact ⟨entries, hentries, (yamlEntries_completed List.nodup_nil hentries).tree⟩

end Trees

/-- A signal of a flat datamodel. -/
theorem createYamlFile_flat :
    ¬ ∀ nodeArray : List DomainData, (∀ node ∈ nodeArray, node.path ≠ []) →
      ∃ entries, createYamlFile nodeArray (str "complete") = some entries ∧
        CompletedTree nodeArray entries := by
  intro h
  obtain ⟨entries, hentries, -⟩ := h [{ path := str "Speed" }] (by decide)
  have hpanic : createYamlFile [{ path := str "Speed" }] (str "complete") = none := by rfl
  rw [hpanic] at hentries
  cases hentries

end VissServer.Datamodel

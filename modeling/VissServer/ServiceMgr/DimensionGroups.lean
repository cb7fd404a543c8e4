import Mathlib.Data.List.Nodup
import VissServer.ServiceMgr.SignalDimensions

/-!
What the grouping of the signals comes to: each requested path leads a group of its own or none, a
path in several groups belongs to the last of them, and a pair is returned where its second path
does not belong to a later one.
-/
namespace VissServer.ServiceMgr.SignalDimensions

open Go

section Links

variable (paths : List GoString) (lists : SignalDimensionLists)

/-- The indices that a step of the analysis puts into one group. -/
def link (i : ℕ) : List ℕ :=
  if is2dim (pathAt paths i) 1 lists.dim2List then
    match next2 paths lists i with
    | some j => [i, j]
    | none => []
  else if is3dim (pathAt paths i) 1 lists.dim3List then
    match next3 paths lists i with
    | some j => if is3dim (pathAt paths (j + 1)) 3 lists.dim3List then [i, j, j + 1] else [i, j]
    | none => []
  else []

/-- The number of earlier groups of a size, which is the id of the next one. -/
def groupsBefore (size i : ℕ) : ℕ :=
  ((List.range i).filter fun s => (link paths lists s).length = size).length

/-- What the steps before an index say about a path. -/
def tag : ℕ → ℕ → PathDimElem
  | 0, _ => {}
  | i + 1, m =>
      if m ∈ link paths lists i then
        { dim := (link paths lists i).length
          id := groupsBefore paths lists (link paths lists i).length i }
      else tag i m

def analyzedBefore (i : ℕ) : Analysis where
  pathDimList := tag paths lists i
  dim2Id := groupsBefore paths lists 2 i
  dim3Id := groupsBefore paths lists 3 i

variable {paths lists} {i j m s s' : ℕ}

theorem mem_behind : j ∈ behind paths i ↔ i < j ∧ j < paths.length := by
  rw [behind, List.mem_range'_1]
  omega

theorem next2_spec (h : next2 paths lists i = some j) :
    i < j ∧ j < paths.length ∧ is2dim (pathAt paths j) 2 lists.dim2List = true := by
  have hmem := mem_behind.mp (List.mem_of_find?_eq_some h)
  have hfound := List.find?_some (p := fun j => is2dim (pathAt paths j) 2 lists.dim2List) h
  exact ⟨hmem.1, hmem.2, hfound⟩

theorem next3_spec (h : next3 paths lists i = some j) :
    i < j ∧ j + 1 < paths.length ∧ is3dim (pathAt paths j) 2 lists.dim3List = true := by
  have hmem := mem_behind.mp (List.mem_of_find?_eq_some h)
  have hfound := List.find?_some h
  rw [Bool.and_eq_true, decide_eq_true_eq] at hfound
  exact ⟨hmem.1, hfound.2, hfound.1⟩

/-- What a step does. -/
theorem analyzePath_cases (paths : List GoString) (lists : SignalDimensionLists) (a : Analysis)
    (i : ℕ) :
    (link paths lists i = [] ∧ analyzePath paths lists a i = a) ∨
    (∃ j, link paths lists i = [i, j] ∧ analyzePath paths lists a i = a.pair i j ∧
      i < j ∧ j < paths.length) ∨
    ∃ j, link paths lists i = [i, j, j + 1] ∧
      analyzePath paths lists a i = a.triple i j (j + 1) ∧ i < j ∧ j + 1 < paths.length := by
  unfold link analyzePath
  by_cases h2 : is2dim (pathAt paths i) 1 lists.dim2List = true
  · rw [if_pos h2, if_pos h2]
    cases hnext : next2 paths lists i with
    | none => exact .inl ⟨rfl, rfl⟩
    | some j =>
      obtain ⟨hij, hj, -⟩ := next2_spec hnext
      exact .inr (.inl ⟨j, rfl, rfl, hij, hj⟩)
  · rw [if_neg h2, if_neg h2]
    by_cases h3 : is3dim (pathAt paths i) 1 lists.dim3List = true
    · rw [if_pos h3, if_pos h3]
      cases hnext : next3 paths lists i with
      | none => exact .inl ⟨rfl, rfl⟩
      | some j =>
        obtain ⟨hij, hj, -⟩ := next3_spec hnext
        by_cases hthird : is3dim (pathAt paths (j + 1)) 3 lists.dim3List = true
        · simp only [if_pos hthird]
          exact .inr (.inr ⟨j, rfl, rfl, hij, hj⟩)
        · simp only [if_neg hthird]
          exact .inr (.inl ⟨j, rfl, rfl, hij, by omega⟩)
    · rw [if_neg h3, if_neg h3]
      exact .inl ⟨rfl, rfl⟩

theorem link_cases (paths : List GoString) (lists : SignalDimensionLists) (i : ℕ) :
    link paths lists i = [] ∨
    (∃ j, link paths lists i = [i, j] ∧ i < j ∧ j < paths.length) ∨
    ∃ j, link paths lists i = [i, j, j + 1] ∧ i < j ∧ j + 1 < paths.length := by
  rcases analyzePath_cases paths lists {} i with
    ⟨h, -⟩ | ⟨j, h, -, hij, hj⟩ | ⟨j, h, -, hij, hj⟩
  · exact .inl h
  · exact .inr (.inl ⟨j, h, hij, hj⟩)
  · exact .inr (.inr ⟨j, h, hij, hj⟩)

theorem mem_link (h : m ∈ link paths lists i) : i ≤ m ∧ m < paths.length := by
  rcases link_cases paths lists i with heq | ⟨j, heq, hij, hj⟩ | ⟨j, heq, hij, hj⟩
  · rw [heq] at h
    exact nomatch h
  · rw [heq, List.mem_cons, List.mem_singleton] at h
    omega
  · rw [heq, List.mem_cons, List.mem_cons, List.mem_singleton] at h
    omega

/-! ## Groups and their ids -/

theorem groupsBefore_succ (size i : ℕ) :
    groupsBefore paths lists size (i + 1) = groupsBefore paths lists size i +
      if (link paths lists i).length = size then 1 else 0 := by
  unfold groupsBefore
  rw [List.range_succ, List.filter_append, List.length_append]
  by_cases h : (link paths lists i).length = size <;> simp [h]

theorem tag_populated (i m : ℕ) : (tag paths lists i m).populated = false := by
  induction i with
  | zero => rfl
  | succ i ih =>
    rw [tag]
    split
    · rfl
    · exact ih

theorem setDim_tag {dim : ℕ} {id : ℤ} :
    setDim (tag paths lists i) (link paths lists i) dim id = fun m =>
      if m ∈ link paths lists i then { dim, id } else tag paths lists i m := by
  funext m
  unfold setDim
  by_cases h : m ∈ link paths lists i
  · simp only [if_pos h, tag_populated]
  · rw [if_neg h, if_neg h]

theorem analyze_range (i : ℕ) :
    (List.range i).foldl (analyzePath paths lists) {} = analyzedBefore paths lists i := by
  induction i with
  | zero => rfl
  | succ i ih =>
    rw [List.range_succ, List.foldl_append, ih, List.foldl_cons, List.foldl_nil]
    have htag : tag paths lists (i + 1) = fun m =>
        if m ∈ link paths lists i then
          { dim := (link paths lists i).length
            id := groupsBefore paths lists (link paths lists i).length i }
        else tag paths lists i m := rfl
    have hnext : analyzedBefore paths lists (i + 1) =
        { pathDimList := tag paths lists (i + 1)
          dim2Id := groupsBefore paths lists 2 (i + 1)
          dim3Id := groupsBefore paths lists 3 (i + 1) } := rfl
    rw [hnext, groupsBefore_succ, groupsBefore_succ, htag]
    rcases analyzePath_cases paths lists (analyzedBefore paths lists i) i with
      ⟨hlink, heq⟩ | ⟨j, hlink, heq, -⟩ | ⟨j, hlink, heq, -⟩
    · rw [heq, hlink]
      simp [analyzedBefore]
    · rw [heq, Analysis.pair, ← hlink, analyzedBefore, setDim_tag, hlink]
      simp
    · rw [heq, Analysis.triple, ← hlink, analyzedBefore, setDim_tag, hlink]
      simp

theorem analyzeSignalDimensions_eq :
    analyzeSignalDimensions paths lists = tag paths lists paths.length := by
  rw [analyzeSignalDimensions, analyze_range]
  rfl

/-- The last group with an index. -/
def Owns (paths : List GoString) (lists : SignalDimensionLists) (s m : ℕ) : Prop :=
  m ∈ link paths lists s ∧ s < paths.length ∧
    ∀ s', s < s' → s' < paths.length → m ∉ link paths lists s'

theorem tag_cases (paths : List GoString) (lists : SignalDimensionLists) (m : ℕ) :
    (tag paths lists paths.length m = {} ∧ ∀ s, s < paths.length → m ∉ link paths lists s) ∨
    ∃ s, Owns paths lists s m ∧ tag paths lists paths.length m =
      { dim := (link paths lists s).length
        id := groupsBefore paths lists (link paths lists s).length s } := by
  have hgeneral : ∀ i, (tag paths lists i m = {} ∧ ∀ s, s < i → m ∉ link paths lists s) ∨
      ∃ s, m ∈ link paths lists s ∧ s < i ∧
        (∀ s', s < s' → s' < i → m ∉ link paths lists s') ∧ tag paths lists i m =
          { dim := (link paths lists s).length
            id := groupsBefore paths lists (link paths lists s).length s } := by
    intro i
    induction i with
    | zero => exact .inl ⟨rfl, by omega⟩
    | succ i ih =>
      rw [tag]
      by_cases h : m ∈ link paths lists i
      · rw [if_pos h]
        exact .inr ⟨i, h, by omega, by omega, rfl⟩
      · rw [if_neg h]
        have hlast : ∀ s', s' < i + 1 → s' ≠ i → s' < i := by omega
        rcases ih with ⟨htag, hnone⟩ | ⟨s, hmem, hs, hlater, htag⟩
        · refine .inl ⟨htag, ?_⟩
          intro s' hs'
          by_cases heq : s' = i
          · rwa [heq]
          · exact hnone s' (hlast s' hs' heq)
        · refine .inr ⟨s, hmem, by omega, ?_, htag⟩
          intro s' hlt hs'
          by_cases heq : s' = i
          · rwa [heq]
          · exact hlater s' hlt (hlast s' hs' heq)
  rcases hgeneral paths.length with hnone | ⟨s, hmem, hs, hlater, htag⟩
  · exact .inl hnone
  · exact .inr ⟨s, ⟨hmem, hs, hlater⟩, htag⟩

theorem groupsBefore_lt (paths : List GoString) (lists : SignalDimensionLists) (hlt : s < s') :
    groupsBefore paths lists (link paths lists s).length s <
      groupsBefore paths lists (link paths lists s).length s' := by
  induction s' with
  | zero => omega
  | succ t ih =>
    rw [groupsBefore_succ]
    by_cases heq : s = t
    · rw [← heq, if_pos rfl]
      omega
    · have hlt' := ih (by omega)
      omega

/-- Different groups of a size have different ids. -/
theorem group_unique (hsize : (link paths lists s).length = (link paths lists s').length)
    (hid : groupsBefore paths lists (link paths lists s).length s =
      groupsBefore paths lists (link paths lists s').length s') : s = s' := by
  rcases lt_trichotomy s s' with hlt | heq | hgt
  · have hids := groupsBefore_lt paths lists hlt
    rw [hid, hsize] at hids
    exact absurd hids (lt_irrefl _)
  · exact heq
  · have hids := groupsBefore_lt paths lists hgt
    rw [← hid, ← hsize] at hids
    exact absurd hids (lt_irrefl _)

end Links

/-! ## The configuration -/

/-- The configured pairs and triples. -/
def groups (lists : SignalDimensionLists) : List (List GoString) :=
  (lists.dim2List.map fun e => [e.path1, e.path2]) ++
    lists.dim3List.map fun e => [e.path1, e.path2, e.path3]

/-- No path occurs twice. -/
def Config (lists : SignalDimensionLists) : Prop := (groups lists).flatten.Nodup

section Roles

variable {paths : List GoString} {lists : SignalDimensionLists} {p : GoString}
  {g g' : List GoString} {k k' i m s : ℕ}

/-- A path has one place in the configuration. -/
theorem Config.unique (h : Config lists) (hg : g ∈ groups lists) (hg' : g' ∈ groups lists)
    (hk : g[k]? = some p) (hk' : g'[k']? = some p) : g = g' ∧ k = k' := by
  obtain ⟨hnodup, hdisjoint⟩ := List.nodup_flatten.mp h
  have heq : g = g' := by
    by_contra hne
    have hsymm : Std.Symm (fun a b : List GoString => List.Disjoint a b) :=
      ⟨fun _ _ hd => List.disjoint_symm hd⟩
    have hdis := hdisjoint.forall hg hg' hne
    exact hdis (List.mem_of_getElem? hk) (List.mem_of_getElem? hk')
  subst heq
  have hlt := (List.getElem?_eq_some_iff.mp hk).1
  exact ⟨rfl, (List.getElem?_inj hlt (hnodup g hg)).mp (hk.trans hk'.symm)⟩

theorem is2dim_first : is2dim p 1 lists.dim2List = true ↔
    ∃ e ∈ lists.dim2List, e.path1 = p := by
  simp [is2dim]

theorem is2dim_second : is2dim p 2 lists.dim2List = true ↔
    ∃ e ∈ lists.dim2List, e.path2 = p := by
  simp [is2dim]

theorem is3dim_first : is3dim p 1 lists.dim3List = true ↔
    ∃ e ∈ lists.dim3List, e.path1 = p := by
  simp [is3dim]

theorem is3dim_second : is3dim p 2 lists.dim3List = true ↔
    ∃ e ∈ lists.dim3List, e.path2 = p := by
  simp [is3dim]

theorem is3dim_third : is3dim p 3 lists.dim3List = true ↔
    ∃ e ∈ lists.dim3List, e.path3 = p := by
  simp [is3dim]

theorem pair_mem {e : Dim2Elem} (he : e ∈ lists.dim2List) : [e.path1, e.path2] ∈ groups lists :=
  List.mem_append_left _ (List.mem_map_of_mem he)

theorem triple_mem {e : Dim3Elem} (he : e ∈ lists.dim3List) :
    [e.path1, e.path2, e.path3] ∈ groups lists :=
  List.mem_append_right _ (List.mem_map_of_mem he)

/-- The paths at the indices of a group are paths of configured ones. -/
theorem link_groups (paths : List GoString) (lists : SignalDimensionLists) (i : ℕ) :
    link paths lists i = [] ∨
    (∃ g ∈ groups lists, g[0]? = some (pathAt paths i)) ∧
      ∃ j, (∃ g ∈ groups lists, g[1]? = some (pathAt paths j)) ∧
        (link paths lists i = [i, j] ∨ link paths lists i = [i, j, j + 1] ∧
          ∃ g ∈ groups lists, g[2]? = some (pathAt paths (j + 1))) := by
  unfold link
  by_cases h2 : is2dim (pathAt paths i) 1 lists.dim2List = true
  · rw [if_pos h2]
    cases hnext : next2 paths lists i with
    | none => exact .inl rfl
    | some j =>
      obtain ⟨e, he, hfirst⟩ := is2dim_first.mp h2
      obtain ⟨e', he', hsecond⟩ := is2dim_second.mp (next2_spec hnext).2.2
      exact .inr ⟨⟨_, pair_mem he, congrArg some hfirst⟩, j,
        ⟨_, pair_mem he', congrArg some hsecond⟩, .inl rfl⟩
  · rw [if_neg h2]
    by_cases h3 : is3dim (pathAt paths i) 1 lists.dim3List = true
    · rw [if_pos h3]
      cases hnext : next3 paths lists i with
      | none => exact .inl rfl
      | some j =>
        obtain ⟨e, he, hfirst⟩ := is3dim_first.mp h3
        obtain ⟨e', he', hsecond⟩ := is3dim_second.mp (next3_spec hnext).2.2
        refine .inr ⟨⟨_, triple_mem he, congrArg some hfirst⟩, j,
          ⟨_, triple_mem he', congrArg some hsecond⟩, ?_⟩
        by_cases hthird : is3dim (pathAt paths (j + 1)) 3 lists.dim3List = true
        · obtain ⟨e'', he'', hpath⟩ := is3dim_third.mp hthird
          exact .inr ⟨if_pos hthird, _, triple_mem he'', congrArg some hpath⟩
        · exact .inl (if_neg hthird)
    · exact .inl (if_neg h3)

/-- The first index of a group has the first path of a configured one. -/
theorem link_head (h : link paths lists i ≠ []) :
    ∃ g ∈ groups lists, g[0]? = some (pathAt paths i) :=
  ((link_groups paths lists i).resolve_left h).1

/-- The other indices have other paths of configured groups. -/
theorem link_tail (h : m ∈ link paths lists i) (hne : m ≠ i) :
    ∃ g ∈ groups lists, ∃ k, g[k + 1]? = some (pathAt paths m) := by
  obtain ⟨-, j, ⟨g, hg, hsecond⟩, hlink⟩ :=
    (link_groups paths lists i).resolve_left (List.ne_nil_of_mem h)
  rcases hlink with hlink | ⟨hlink, g', hg', hthird⟩
  · rw [hlink] at h
    obtain rfl : m = j := by simpa [hne] using h
    exact ⟨g, hg, 0, hsecond⟩
  · rw [hlink] at h
    have hm : m = j ∨ m = j + 1 := by simpa [hne] using h
    rcases hm with rfl | rfl
    · exact ⟨g, hg, 0, hsecond⟩
    · exact ⟨g', hg', 1, hthird⟩

/-- The first index of a group is no other index of a group. -/
theorem link_tail_nil (h : Config lists) (hm : m ∈ link paths lists i) (hne : m ≠ i) :
    link paths lists m = [] := by
  by_contra hlink
  obtain ⟨g, hg, hfirst⟩ := link_head hlink
  obtain ⟨g', hg', k, hother⟩ := link_tail hm hne
  exact absurd (h.unique hg hg' hfirst hother).2 (Nat.succ_ne_zero k).symm

end Roles

/-! ## The lists -/

section Populating

variable {paths : List GoString} {lists : SignalDimensionLists} {i j m s : ℕ}

/-- What the analysis says about a path. -/
def final (paths : List GoString) (lists : SignalDimensionLists) : ℕ → PathDimElem :=
  tag paths lists paths.length

theorem owns_head (hs : s < paths.length) (h : s ∈ link paths lists s) : Owns paths lists s s :=
  ⟨h, hs, fun _ hlt _ hmem => absurd (mem_link hmem).1 (not_le.mpr hlt)⟩

theorem Owns.unique {s' : ℕ} (h : Owns paths lists s m) (h' : Owns paths lists s' m) :
    s = s' := by
  rcases lt_trichotomy s s' with hlt | heq | hgt
  · exact absurd h'.1 (h.2.2 s' hlt h'.2.1)
  · exact heq
  · exact absurd h.1 (h'.2.2 s hgt h.2.1)

theorem final_of_owns (h : Owns paths lists s m) :
    final paths lists m =
      { dim := (link paths lists s).length
        id := groupsBefore paths lists (link paths lists s).length s } := by
  rcases tag_cases paths lists m with ⟨-, hnone⟩ | ⟨s', hs', htag⟩
  · exact absurd h.1 (hnone s h.2.1)
  · rw [h.unique hs']
    exact htag

theorem final_dim_one : (final paths lists m).dim = 1 ↔
    ∀ s, s < paths.length → m ∉ link paths lists s := by
  rcases tag_cases paths lists m with ⟨htag, hnone⟩ | ⟨s, hs, htag⟩
  · rw [final, htag]
    exact iff_of_true rfl hnone
  · rw [final, htag]
    refine iff_of_false ?_ fun hnone => hnone s hs.2.1 hs.1
    dsimp only
    rcases link_cases paths lists s with heq | ⟨j, heq, -⟩ | ⟨j, heq, -⟩
    · rw [heq]
      exact fun h => nomatch h
    · rw [heq]
      exact fun h => nomatch h
    · rw [heq]
      exact fun h => nomatch h

/-- The later elements with the id of the first one of a pair: the second one, if it belongs to no
later group. -/
theorem mem_partners (hs : s < paths.length) (hlink : link paths lists s = [s, j]) :
    m ∈ partners paths (final paths lists) 2 s s ↔ m = j ∧ Owns paths lists s j := by
  have hhead : Owns paths lists s s := owns_head hs (by rw [hlink]; exact List.mem_cons_self)
  rw [partners, List.mem_filter, mem_behind, Bool.and_eq_true, decide_eq_true_eq,
    decide_eq_true_eq]
  constructor
  · rintro ⟨⟨hlt, -⟩, hdim, hid⟩
    rcases tag_cases paths lists m with ⟨htag, -⟩ | ⟨s', hs', htag⟩
    · rw [final, htag] at hdim
      exact nomatch hdim
    · rw [final_of_owns hs'] at hdim hid
      rw [final_of_owns hhead] at hid
      have hsize : (link paths lists s').length = (link paths lists s).length := by
        rw [hlink]
        exact hdim
      obtain rfl := group_unique hsize (Int.ofNat_inj.mp hid)
      have hmem := hs'.1
      rw [hlink, List.mem_cons, List.mem_singleton] at hmem
      obtain rfl : m = j := by omega
      exact ⟨rfl, hs'⟩
  · rintro ⟨rfl, howns⟩
    have hmem := mem_link howns.1
    have hne : s ≠ m := by
      rcases link_cases paths lists s with heq | ⟨j, heq, hlt, -⟩ | ⟨j, heq, -⟩
      · rw [heq] at hlink
        exact nomatch hlink
      · rw [heq] at hlink
        simp only [List.cons.injEq, and_true, true_and] at hlink
        omega
      · rw [heq] at hlink
        simp at hlink
    rw [final_of_owns howns, final_of_owns hhead]
    refine ⟨by omega, ?_, rfl⟩
    rw [hlink]
    rfl

/-- The pair that an index leads. -/
def pairsOf (paths : List GoString) (lists : SignalDimensionLists) (i : ℕ) : List Dim2Elem :=
  if (link paths lists i).length = 2 then
    (partners paths (final paths lists) 2 i i).map fun j => ⟨pathAt paths i, pathAt paths j⟩
  else []

/-- The lists after the steps before an index. -/
structure Listed (paths : List GoString) (lists : SignalDimensionLists) (i : ℕ) (s : DimLists) :
    Prop where
  dim1 : s.dim1List =
    ((List.range i).filter fun m => (final paths lists m).dim = 1).map (pathAt paths)
  dim2 : s.dim2List = (List.range i).flatMap (pairsOf paths lists)
  same : ∀ m, (s.pathDimList m).dim = (final paths lists m).dim ∧
    (s.pathDimList m).id = (final paths lists m).id
  populated : ∀ m, (final paths lists m).dim = 2 → ((s.pathDimList m).populated = true ↔
    ∃ t, t < i ∧ (link paths lists t).length = 2 ∧
      m ∈ partners paths (final paths lists) 2 t t)

theorem partners_congr {l l' : ℕ → PathDimElem}
    (h : ∀ m, (l m).dim = (l' m).dim ∧ (l m).id = (l' m).id) (dim i j : ℕ) :
    partners paths l dim i j = partners paths l' dim i j := by
  unfold partners
  simp only [fun m => (h m).1, fun m => (h m).2]

theorem setPopulated_same (l : ℕ → PathDimElem) (indices : List ℕ) (m : ℕ) :
    (setPopulated l indices m).dim = (l m).dim ∧ (setPopulated l indices m).id = (l m).id := by
  unfold setPopulated
  split <;> exact ⟨rfl, rfl⟩

theorem setPopulated_iff (l : ℕ → PathDimElem) (indices : List ℕ) (m : ℕ) :
    (setPopulated l indices m).populated = true ↔ m ∈ indices ∨ (l m).populated = true := by
  unfold setPopulated
  by_cases h : m ∈ indices <;> simp [h]

/-- An index of a pair leads it or is a later one of it. -/
theorem pair_of_dim_two (hconfig : Config lists) (hdim : (final paths lists m).dim = 2) :
    (link paths lists m).length = 2 ∨
      (link paths lists m = [] ∧ ∃ t, t < m ∧ (link paths lists t).length = 2 ∧
        m ∈ partners paths (final paths lists) 2 t t) := by
  rcases tag_cases paths lists m with ⟨htag, -⟩ | ⟨t, howns, -⟩
  · rw [final, htag] at hdim
    exact nomatch hdim
  · rw [final_of_owns howns] at hdim
    by_cases heq : m = t
    · rw [heq]
      exact .inl hdim
    · refine .inr ⟨link_tail_nil hconfig howns.1 heq, t, ?_, hdim, ?_⟩
      · have hle := (mem_link howns.1).1
        omega
      · rcases link_cases paths lists t with hlink | ⟨j, hlink, -⟩ | ⟨j, hlink, -⟩
        · rw [hlink] at hdim
          exact nomatch hdim
        · have hmem := howns.1
          rw [hlink, List.mem_cons, List.mem_singleton] at hmem
          obtain rfl : m = j := hmem.resolve_left heq
          exact (mem_partners howns.2.1 hlink).mpr ⟨rfl, howns⟩
        · rw [hlink] at hdim
          exact nomatch hdim

theorem link_pair (h : (link paths lists s).length = 2) :
    ∃ j, link paths lists s = [s, j] ∧ s < j ∧ j < paths.length := by
  rcases link_cases paths lists s with heq | ⟨j, heq, hlt, hj⟩ | ⟨j, heq, -⟩
  · rw [heq] at h
    exact nomatch h
  · exact ⟨j, heq, hlt, hj⟩
  · rw [heq] at h
    exact nomatch h

/-- The first index of a pair is no later one of a pair. -/
theorem not_mem_partners (hs : s < paths.length) (h : (link paths lists s).length = 2)
    (hm : (link paths lists m).length = 2) : m ∉ partners paths (final paths lists) 2 s s := by
  obtain ⟨j, hlink, hlt, -⟩ := link_pair h
  obtain ⟨k, hlink', -⟩ := link_pair hm
  rw [mem_partners hs hlink]
  rintro ⟨rfl, howns⟩
  have hhead : Owns paths lists m m := by
    apply owns_head (mem_link howns.1).2
    rw [hlink']
    exact List.mem_cons_self
  have heq := howns.unique hhead
  omega

theorem populatePath_listed (hconfig : Config lists) {i : ℕ} (hi : i < paths.length)
    {s : DimLists} (h : Listed paths lists i s) :
    Listed paths lists (i + 1) (populatePath paths s i) := by
  have hrange1 : ((List.range (i + 1)).filter fun m => (final paths lists m).dim = 1).map
      (pathAt paths) = s.dim1List ++ if (final paths lists i).dim = 1 then [pathAt paths i]
        else [] := by
    rw [List.range_succ, List.filter_append, List.map_append, ← h.dim1]
    by_cases hdim : (final paths lists i).dim = 1 <;> simp [hdim]
  have hrange2 : (List.range (i + 1)).flatMap (pairsOf paths lists) =
      s.dim2List ++ pairsOf paths lists i := by
    rw [List.range_succ, List.flatMap_append, ← h.dim2]
    simp
  have hlast : ∀ m, (∃ t, t < i + 1 ∧ (link paths lists t).length = 2 ∧
      m ∈ partners paths (final paths lists) 2 t t) ↔
      ((link paths lists i).length = 2 ∧ m ∈ partners paths (final paths lists) 2 i i) ∨
        ∃ t, t < i ∧ (link paths lists t).length = 2 ∧
          m ∈ partners paths (final paths lists) 2 t t := by
    intro m
    constructor
    · rintro ⟨t, ht, hmem⟩
      by_cases heq : t = i
      · subst heq
        exact .inl hmem
      · exact .inr ⟨t, by omega, hmem⟩
    · rintro (hmem | ⟨t, ht, hmem⟩)
      · exact ⟨i, by omega, hmem⟩
      · exact ⟨t, by omega, hmem⟩
  have hdims := h.same i
  unfold populatePath
  dsimp only
  by_cases hone : (s.pathDimList i).dim = 1
  · have hfinal : (final paths lists i).dim = 1 := by rw [← hdims.1, hone]
    have hnone : (link paths lists i).length ≠ 2 := by
      intro hlen
      obtain ⟨j, hlink, -⟩ := link_pair hlen
      exact final_dim_one.mp hfinal i hi (by rw [hlink]; exact List.mem_cons_self)
    rw [if_pos hone]
    refine ⟨?_, ?_, h.same, ?_⟩
    · rw [hrange1, if_pos hfinal]
    · rw [hrange2, pairsOf, if_neg hnone, List.append_nil]
    · intro m hm
      rw [hlast, h.populated m hm]
      exact ⟨.inr, fun hor => hor.resolve_left fun hpair => hnone hpair.1⟩
  · rw [if_neg hone]
    have hfinal : (final paths lists i).dim ≠ 1 := by rwa [← hdims.1]
    by_cases htwo : (s.pathDimList i).dim = 2 ∧ (s.pathDimList i).populated = false
    · rw [if_pos htwo, partners_congr h.same]
      have hdim : (final paths lists i).dim = 2 := by rw [← hdims.1, htwo.1]
      have hlen : (link paths lists i).length = 2 := by
        rcases pair_of_dim_two hconfig hdim with hlen | ⟨-, hearlier⟩
        · exact hlen
        · have hpop := (h.populated i hdim).mpr hearlier
          rw [htwo.2] at hpop
          exact nomatch hpop
      refine ⟨?_, ?_, ?_, ?_⟩
      · rw [hrange1, if_neg hfinal, List.append_nil]
      · rw [hrange2, pairsOf, if_pos hlen]
      · intro m
        have hset := setPopulated_same s.pathDimList
          (partners paths (final paths lists) 2 i i) m
        exact ⟨hset.1.trans (h.same m).1, hset.2.trans (h.same m).2⟩
      · intro m hm
        rw [setPopulated_iff, hlast, h.populated m hm]
        simp [hlen]
    · rw [if_neg htwo]
      have hnone : (link paths lists i).length ≠ 2 := by
        intro hlen
        obtain ⟨j, hlink, -⟩ := link_pair hlen
        have hhead : Owns paths lists i i := owns_head hi (by rw [hlink]; exact List.mem_cons_self)
        have hdim : (final paths lists i).dim = 2 := by
          rw [final_of_owns hhead]
          exact hlen
        apply htwo
        refine ⟨by rw [hdims.1, hdim], ?_⟩
        rw [Bool.eq_false_iff]
        intro hpop
        obtain ⟨t, ht, htlen, hmem⟩ := (h.populated i hdim).mp hpop
        exact not_mem_partners (by omega) htlen hlen hmem
      have hkeep : ∀ m, (∃ t, t < i + 1 ∧ (link paths lists t).length = 2 ∧
          m ∈ partners paths (final paths lists) 2 t t) ↔
          ∃ t, t < i ∧ (link paths lists t).length = 2 ∧
            m ∈ partners paths (final paths lists) 2 t t := by
        intro m
        rw [hlast]
        exact ⟨fun hor => hor.resolve_left fun hpair => hnone hpair.1, .inr⟩
      have hdim1 : s.dim1List =
          ((List.range (i + 1)).filter fun m => (final paths lists m).dim = 1).map
            (pathAt paths) := by
        rw [hrange1, if_neg hfinal, List.append_nil]
      have hdim2 : s.dim2List = (List.range (i + 1)).flatMap (pairsOf paths lists) := by
        rw [hrange2, pairsOf, if_neg hnone, List.append_nil]
      by_cases hthree : (s.pathDimList i).dim = 3 ∧ (s.pathDimList i).populated = false
      · rw [if_pos hthree]
        refine ⟨hdim1, hdim2, ?_, ?_⟩
        · intro m
          dsimp only
          have hset := setPopulated_same s.pathDimList (List.flatMap (fun jk => [jk.1, jk.2])
            (List.flatMap (fun j => (partners paths s.pathDimList 3 i j).map fun k => (j, k))
              ((behind paths i).filter fun j => (s.pathDimList j).dim = 3))) m
          exact ⟨hset.1.trans (h.same m).1, hset.2.trans (h.same m).2⟩
        · intro m hm
          dsimp only
          rw [setPopulated_iff, hkeep, h.populated m hm]
          refine or_iff_right ?_
          -- the elements of triples are no elements of pairs
          intro hmem
          simp only [List.mem_flatMap, List.mem_map, List.mem_cons, List.not_mem_nil, or_false,
            partners, List.mem_filter, Bool.and_eq_true, decide_eq_true_eq] at hmem
          obtain ⟨jk, ⟨j, ⟨-, hj⟩, k, ⟨-, hk, -⟩, rfl⟩, rfl | rfl⟩ := hmem
          · rw [(h.same _).1, hm] at hj
            exact nomatch hj
          · rw [(h.same _).1, hm] at hk
            exact nomatch hk
      · rw [if_neg hthree]
        refine ⟨hdim1, hdim2, h.same, ?_⟩
        intro m hm
        rw [hkeep]
        exact h.populated m hm

/-- The lists that are returned. -/
theorem populateDimLists_eq (hconfig : Config lists) :
    populateDimLists paths lists =
      (((List.range paths.length).filter fun m => (final paths lists m).dim = 1).map
        (pathAt paths), (List.range paths.length).flatMap (pairsOf paths lists), []) := by
  have hall : ∀ i, i ≤ paths.length → Listed paths lists i ((List.range i).foldl
      (populatePath paths) { pathDimList := analyzeSignalDimensions paths lists }) := by
    intro i hi
    induction i with
    | zero =>
      rw [analyzeSignalDimensions_eq]
      refine ⟨rfl, rfl, fun m => ⟨rfl, rfl⟩, ?_⟩
      intro m _
      refine iff_of_false ?_ fun ⟨t, ht, _⟩ => Nat.not_lt_zero t ht
      rw [List.range_zero, List.foldl_nil]
      dsimp only
      rw [tag_populated]
      exact Bool.false_ne_true
    | succ i ih =>
      rw [List.range_succ, List.foldl_append]
      exact populatePath_listed hconfig hi (ih (by omega))
  have hlisted := hall paths.length (le_refl _)
  rw [populateDimLists, ← hlisted.dim1, ← hlisted.dim2]

end Populating

end VissServer.ServiceMgr.SignalDimensions

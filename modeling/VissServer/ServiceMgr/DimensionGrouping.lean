import Mathlib.Data.List.Perm.Subperm
import VissServer.ServiceMgr.DimensionGroups

/-!
When the returned lists are a partition of the requested paths by the configuration: each first
path of a pair or triple has the requested second one as the next second path behind it, and no
third path of a triple is requested beside another one.
-/
namespace VissServer.ServiceMgr.SignalDimensions

open Go

/-- The paths of a configured group that are requested. -/
def requested (paths g : List GoString) : List GoString := g.filter fun p => decide (p ∈ paths)

/-- Each requested path is in one place; groups of which two or three paths are requested come as
one element, and other paths alone. -/
structure Grouped (paths : List GoString) (lists : SignalDimensionLists)
    (result : List GoString × List Dim2Elem × List Dim3Elem) : Prop where
  once : ∀ p ∈ paths, (result.1 ++ result.2.1.flatMap (fun d => [d.path1, d.path2]) ++
    result.2.2.flatMap fun d => [d.path1, d.path2, d.path3]).count p = 1
  two : ∀ g ∈ groups lists, (requested paths g).length = 2 →
    ∃ d ∈ result.2.1, [d.path1, d.path2].Perm (requested paths g)
  three : ∀ g ∈ groups lists, (requested paths g).length = 3 →
    ∃ d ∈ result.2.2, [d.path1, d.path2, d.path3].Perm (requested paths g)
  other : ∀ p ∈ paths, (∀ g ∈ groups lists, p ∈ g → (requested paths g).length ≤ 1) →
    p ∈ result.1

/-- Behind the first path of a pair the next second path of any pair is its own, if that is
requested, and there is none otherwise. The same holds of triples, of which only the first two
paths are requested; there the last path counts as no second one, and none that is third in a
triple follows the second. -/
structure Separate (paths : List GoString) (lists : SignalDimensionLists) : Prop where
  pair : ∀ e ∈ lists.dim2List, ∀ i, paths[i]? = some e.path1 →
    (paths.drop (i + 1)).find? (fun p => is2dim p 2 lists.dim2List) =
      if e.path2 ∈ paths then some e.path2 else none
  apart : ∀ e ∈ lists.dim3List, ¬ (e.path2 ∈ paths ∧ e.path3 ∈ paths)
  triple : ∀ e ∈ lists.dim3List, ∀ i, paths[i]? = some e.path1 → e.path3 ∉ paths ∧
    (paths.drop (i + 1)).dropLast.find? (fun p => is3dim p 2 lists.dim3List) =
      (if e.path2 ∈ paths then some e.path2 else none) ∧
    ∀ j p, paths[j]? = some e.path2 → paths[j + 1]? = some p → is3dim p 3 lists.dim3List = false

section Partition

variable {paths : List GoString} {lists : SignalDimensionLists} {p q : GoString}
  {g : List GoString} {i j m s : ℕ}

/-! ## Paths by index -/

theorem pathAt_eq (h : i < paths.length) : paths[i]? = some (pathAt paths i) := by
  rw [pathAt, List.getD_eq_getElem?_getD, List.getElem?_eq_getElem h, Option.getD_some]

theorem exists_pathAt (h : p ∈ paths) : ∃ i, i < paths.length ∧ pathAt paths i = p := by
  obtain ⟨i, hi, rfl⟩ := List.getElem_of_mem h
  refine ⟨i, hi, ?_⟩
  rw [pathAt, List.getD_eq_getElem?_getD, List.getElem?_eq_getElem hi, Option.getD_some]

theorem pathAt_mem (h : i < paths.length) : pathAt paths i ∈ paths :=
  List.mem_of_getElem? (pathAt_eq h)

theorem pathAt_inj (hnodup : paths.Nodup) (hi : i < paths.length) (hj : j < paths.length)
    (h : pathAt paths i = pathAt paths j) : i = j := by
  apply (List.getElem?_inj hi hnodup).mp
  rw [pathAt_eq hi, pathAt_eq hj, h]

theorem idxOf?_pathAt (hnodup : paths.Nodup) (h : i < paths.length) :
    paths.idxOf? (pathAt paths i) = some i := by
  cases hidx : paths.idxOf? (pathAt paths i) with
  | none => exact absurd (pathAt_mem h) (List.idxOf?_eq_none_iff.mp hidx)
  | some k =>
    obtain ⟨hk, heq, -⟩ := List.idxOf?_eq_some_iff.mp hidx
    have hsame : pathAt paths k = pathAt paths i := by
      rw [← heq, pathAt, List.getD_eq_getElem?_getD, List.getElem?_eq_getElem hk, Option.getD_some]
    rw [pathAt_inj hnodup hk h hsame]

theorem behind_map (paths : List GoString) (i : ℕ) :
    (behind paths i).map (pathAt paths) = paths.drop (i + 1) := by
  apply List.ext_getElem?
  intro k
  rw [List.getElem?_map, List.getElem?_drop, behind]
  by_cases hk : i + 1 + k < paths.length
  · rw [List.getElem?_range' (by omega), pathAt_eq hk, Option.map_some, one_mul]
  · rw [List.getElem?_eq_none (by rw [List.length_range']; omega),
      List.getElem?_eq_none (by omega), Option.map_none]

theorem next2_map (paths : List GoString) (lists : SignalDimensionLists) (i : ℕ) :
    (next2 paths lists i).map (pathAt paths) =
      (paths.drop (i + 1)).find? fun p => is2dim p 2 lists.dim2List := by
  rw [← behind_map, List.find?_map]
  rfl

theorem behind_but_last (paths : List GoString) (i : ℕ) :
    (behind paths i).filter (fun j => decide (j + 1 < paths.length)) =
      (behind paths i).dropLast := by
  unfold behind
  obtain hnil | ⟨n, hn⟩ : paths.length - (i + 1) = 0 ∨ ∃ n, paths.length - (i + 1) = n + 1 := by
    cases paths.length - (i + 1) with
    | zero => exact .inl rfl
    | succ n => exact .inr ⟨n, rfl⟩
  · rw [hnil]
    rfl
  · rw [hn, List.range'_concat, List.dropLast_concat, List.filter_append]
    have hlast : List.filter (fun j => decide (j + 1 < paths.length)) [i + 1 + 1 * n] = [] := by
      have hnot : ¬ i + 1 + 1 * n + 1 < paths.length := by omega
      rw [List.filter_singleton, decide_eq_false hnot]
      rfl
    rw [hlast, List.append_nil, List.filter_eq_self]
    intro j hj
    rw [List.mem_range'_1] at hj
    rw [decide_eq_true_eq]
    omega

theorem next3_map (paths : List GoString) (lists : SignalDimensionLists) (i : ℕ) :
    (next3 paths lists i).map (pathAt paths) =
      (paths.drop (i + 1)).dropLast.find? fun p => is3dim p 2 lists.dim3List := by
  rw [← behind_map, ← List.map_dropLast, ← behind_but_last, List.find?_map, List.find?_filter]
  unfold next3
  congr 2
  funext j
  rw [Bool.and_comm]
  simp

/-- A loop stops at a path, or at none, where the path is not requested. -/
theorem eq_idxOf?_iff (hnodup : paths.Nodup) {o : Option ℕ}
    (ho : ∀ j, o = some j → j < paths.length) :
    o = paths.idxOf? p ↔ o.map (pathAt paths) = if p ∈ paths then some p else none := by
  by_cases hp : p ∈ paths
  · obtain ⟨i, hi, rfl⟩ := exists_pathAt hp
    rw [idxOf?_pathAt hnodup hi, if_pos hp]
    constructor
    · rintro rfl
      rfl
    · intro hmap
      obtain ⟨j, hj, heq⟩ := Option.map_eq_some_iff.mp hmap
      rw [hj, pathAt_inj hnodup (ho j hj) hi heq]
  · rw [List.idxOf?_eq_none_iff.mpr hp, if_neg hp, Option.map_eq_none_iff]

theorem Separate.pair_next (hnodup : paths.Nodup) (h : Separate paths lists) {e : Dim2Elem}
    (he : e ∈ lists.dim2List) (hpath : paths[i]? = some e.path1) :
    next2 paths lists i = paths.idxOf? e.path2 := by
  rw [eq_idxOf?_iff hnodup fun j hj => (next2_spec hj).2.1, next2_map]
  exact h.pair e he i hpath

theorem Separate.triple_next (hnodup : paths.Nodup) (h : Separate paths lists) {e : Dim3Elem}
    (he : e ∈ lists.dim3List) (hpath : paths[i]? = some e.path1) :
    next3 paths lists i = paths.idxOf? e.path2 := by
  have hwithin : ∀ j, next3 paths lists i = some j → j < paths.length := by
    intro j hj
    have hlt := (next3_spec hj).2.1
    omega
  rw [eq_idxOf?_iff hnodup hwithin, next3_map]
  exact (h.triple e he i hpath).2.1

/-- No third path follows the second one. -/
theorem Separate.no_third (hnodup : paths.Nodup) (h : Separate paths lists) {e : Dim3Elem}
    (he : e ∈ lists.dim3List) (hpath : paths[i]? = some e.path1)
    (hnext : next3 paths lists i = some j) :
    is3dim (pathAt paths (j + 1)) 3 lists.dim3List = false := by
  have hidx := h.triple_next hnodup he hpath
  rw [hnext] at hidx
  obtain ⟨hlt, heq, -⟩ := List.idxOf?_eq_some_iff.mp hidx.symm
  have hj : paths[j]? = some e.path2 := by rw [List.getElem?_eq_getElem hlt, heq]
  exact (h.triple e he i hpath).2.2 j _ hj (pathAt_eq (next3_spec hnext).2.1)

/-! ## Groups of indices -/

/-- The second index of a pair has the second path of a configured group. -/
theorem link_second (h : link paths lists i = [i, j]) :
    ∃ g ∈ groups lists, g[1]? = some (pathAt paths j) := by
  have hne : link paths lists i ≠ [] := by
    rw [h]
    exact List.cons_ne_nil _ _
  obtain ⟨-, k, hsecond, hlink⟩ := (link_groups paths lists i).resolve_left hne
  rw [h] at hlink
  have hk : j = k := by simpa using hlink
  exact hk ▸ hsecond

/-- For a first path of a pair. -/
theorem link_of_pair {e : Dim2Elem} (he : e ∈ lists.dim2List) (hpath : pathAt paths i = e.path1) :
    link paths lists i = match next2 paths lists i with
      | some j => [i, j]
      | none => [] := by
  rw [link]
  exact if_pos (is2dim_first.mpr ⟨e, he, hpath.symm⟩)

/-- For a first path of a triple. -/
theorem link_of_triple (hconfig : Config lists) {e : Dim3Elem} (he : e ∈ lists.dim3List)
    (hpath : pathAt paths i = e.path1) :
    link paths lists i = match next3 paths lists i with
      | some j =>
          if is3dim (pathAt paths (j + 1)) 3 lists.dim3List then [i, j, j + 1] else [i, j]
      | none => [] := by
  have hnot : ¬ is2dim (pathAt paths i) 1 lists.dim2List = true := by
    intro h
    obtain ⟨e', he', hpath'⟩ := is2dim_first.mp h
    have hpair : [e'.path1, e'.path2][0]? = some (pathAt paths i) := congrArg some hpath'
    have htriple : [e.path1, e.path2, e.path3][0]? = some (pathAt paths i) :=
      congrArg some hpath.symm
    have heq := (hconfig.unique (pair_mem he') (triple_mem he) hpair htriple).1
    simp at heq
  rw [link, if_neg hnot]
  exact if_pos (is3dim_first.mpr ⟨e, he, hpath.symm⟩)

/-- The indices of a group, where they are the paths of a configured one. -/
def Matched (paths : List GoString) (lists : SignalDimensionLists) : Prop :=
  ∀ i, i < paths.length → link paths lists i = [] ∨
    ∃ j, link paths lists i = [i, j] ∧ i < j ∧ j < paths.length ∧
      ∃ g ∈ groups lists, g[0]? = some (pathAt paths i) ∧ g[1]? = some (pathAt paths j)

theorem Separate.matched (hconfig : Config lists) (hnodup : paths.Nodup)
    (h : Separate paths lists) : Matched paths lists := by
  intro i hi
  by_cases hnil : link paths lists i = []
  · exact .inl hnil
  · right
    have hidx : ∀ {j p}, paths.idxOf? p = some j → pathAt paths j = p := by
      intro j p hj
      obtain ⟨hlt, heq, -⟩ := List.idxOf?_eq_some_iff.mp hj
      rw [pathAt, List.getD_eq_getElem?_getD, List.getElem?_eq_getElem hlt, Option.getD_some, heq]
    obtain ⟨g, hg, hhead⟩ := link_head hnil
    rcases List.mem_append.mp hg with hmem | hmem
    · obtain ⟨e, he, rfl⟩ := List.mem_map.mp hmem
      have hpath : pathAt paths i = e.path1 := (Option.some.inj hhead).symm
      have hnext := h.pair_next hnodup he (by rw [pathAt_eq hi, hpath])
      rw [link_of_pair he hpath] at hnil ⊢
      cases hj : next2 paths lists i with
      | none =>
        rw [hj] at hnil
        exact absurd rfl hnil
      | some j =>
        obtain ⟨hij, hlt, -⟩ := next2_spec hj
        refine ⟨j, rfl, hij, hlt, _, pair_mem he, congrArg some hpath.symm, ?_⟩
        rw [hidx (hnext.symm.trans hj)]
        rfl
    · obtain ⟨e, he, rfl⟩ := List.mem_map.mp hmem
      have hpath : pathAt paths i = e.path1 := (Option.some.inj hhead).symm
      have hfirst : paths[i]? = some e.path1 := by rw [pathAt_eq hi, hpath]
      have hnext := h.triple_next hnodup he hfirst
      rw [link_of_triple hconfig he hpath] at hnil ⊢
      cases hj : next3 paths lists i with
      | none =>
        rw [hj] at hnil
        exact absurd rfl hnil
      | some j =>
        obtain ⟨hij, hlt, -⟩ := next3_spec hj
        refine ⟨j, ?_, hij, by omega, _, triple_mem he, congrArg some hpath.symm, ?_⟩
        · simp only [h.no_third hnodup he hfirst hj]
          rfl
        · rw [hidx (hnext.symm.trans hj)]
          rfl

/-- Then every index is in one group at most. -/
theorem Matched.unique (hconfig : Config lists) (hnodup : paths.Nodup)
    (h : Matched paths lists) {s' : ℕ} (hs : s < paths.length) (hs' : s' < paths.length)
    (hm : m ∈ link paths lists s) (hm' : m ∈ link paths lists s') : s = s' := by
  by_cases hhead : m = s
  · by_contra hne
    have hnil := link_tail_nil hconfig hm' (by omega)
    rw [hhead] at hnil
    rw [hnil] at hm
    exact nomatch hm
  · by_cases hhead' : m = s'
    · have hnil := link_tail_nil hconfig hm hhead
      rw [hhead'] at hnil
      rw [hnil] at hm'
      exact nomatch hm'
    · obtain hlink | ⟨j, hlink, -, -, g, hg, h0, h1⟩ := h s hs
      · rw [hlink] at hm
        exact nomatch hm
      obtain hlink' | ⟨j', hlink', -, -, g', hg', h0', h1'⟩ := h s' hs'
      · rw [hlink'] at hm'
        exact nomatch hm'
      rw [hlink, List.mem_cons, List.mem_singleton] at hm
      rw [hlink', List.mem_cons, List.mem_singleton] at hm'
      obtain rfl := hm.resolve_left hhead
      obtain rfl := hm'.resolve_left hhead'
      obtain ⟨rfl, -⟩ := hconfig.unique hg hg' h1 h1'
      exact pathAt_inj hnodup hs hs' (Option.some.inj (h0.symm.trans h0'))

/-- The pairs that are returned. -/
theorem Matched.pairsOf_eq (hconfig : Config lists) (hnodup : paths.Nodup)
    (h : Matched paths lists) (hs : s < paths.length) (hlink : link paths lists s = [s, j]) :
    pairsOf paths lists s = [⟨pathAt paths s, pathAt paths j⟩] := by
  have hmem : j ∈ link paths lists s := by
    rw [hlink]
    exact List.mem_cons_of_mem s List.mem_cons_self
  have howns : Owns paths lists s j := by
    refine ⟨hmem, hs, ?_⟩
    intro s' hlt hs' hmem'
    exact absurd (h.unique hconfig hnodup hs hs' hmem hmem') hlt.ne
  have hpartners : partners paths (final paths lists) 2 s s = [j] := by
    have hfilter : (partners paths (final paths lists) 2 s s).Nodup :=
      (List.nodup_range' 1).filter _
    apply List.perm_singleton.mp
    rw [List.perm_ext_iff_of_nodup hfilter (List.nodup_singleton j)]
    intro m
    rw [mem_partners hs hlink, List.mem_singleton]
    exact ⟨fun hand => hand.1, fun heq => ⟨heq, howns⟩⟩
  rw [pairsOf, hlink, if_pos (by rfl), hpartners]
  rfl

theorem mem_dim2List {d : Dim2Elem}
    (h : d ∈ (List.range paths.length).flatMap (pairsOf paths lists)) :
    ∃ s j, s < paths.length ∧ link paths lists s = [s, j] ∧ s < j ∧ j < paths.length ∧
      d = ⟨pathAt paths s, pathAt paths j⟩ := by
  obtain ⟨s, hs, hd⟩ := List.mem_flatMap.mp h
  rw [List.mem_range] at hs
  unfold pairsOf at hd
  by_cases hlen : (link paths lists s).length = 2
  · rw [if_pos hlen, List.mem_map] at hd
    obtain ⟨m, hm, rfl⟩ := hd
    obtain ⟨j, hlink, hlt, hj⟩ := link_pair hlen
    obtain ⟨rfl, -⟩ := (mem_partners hs hlink).mp hm
    exact ⟨s, m, hs, hlink, hlt, hj, rfl⟩
  · rw [if_neg hlen] at hd
    exact nomatch hd

theorem mem_dim1List (hnodup : paths.Nodup) (hi : i < paths.length) :
    pathAt paths i ∈ ((List.range paths.length).filter fun m =>
      (final paths lists m).dim = 1).map (pathAt paths) ↔
      ∀ s, s < paths.length → i ∉ link paths lists s := by
  rw [List.mem_map, ← final_dim_one]
  constructor
  · rintro ⟨m, hm, heq⟩
    rw [List.mem_filter, List.mem_range, decide_eq_true_eq] at hm
    rw [← pathAt_inj hnodup hm.1 hi heq]
    exact hm.2
  · intro hdim
    refine ⟨i, ?_, rfl⟩
    rw [List.mem_filter, List.mem_range, decide_eq_true_eq]
    exact ⟨hi, hdim⟩

/-! ## The partition -/

/-- All indices, those of pairs behind the others. -/
theorem Matched.indices_nodup (hconfig : Config lists) (hnodup : paths.Nodup)
    (h : Matched paths lists) :
    ((List.range paths.length).filter (fun m => (final paths lists m).dim = 1) ++
      (List.range paths.length).flatMap (link paths lists)).Nodup := by
  refine List.nodup_append.mpr ⟨List.nodup_range.filter _, ?_, ?_⟩
  · rw [List.nodup_flatMap]
    constructor
    · intro s hs
      obtain hlink | ⟨j, hlink, hlt, -⟩ := h s (List.mem_range.mp hs)
      · rw [hlink]
        exact List.nodup_nil
      · rw [hlink]
        simp [hlt.ne]
    · refine List.nodup_range.imp_of_mem ?_
      intro s s' hs hs' hne m hm hm'
      exact hne (h.unique hconfig hnodup (List.mem_range.mp hs) (List.mem_range.mp hs') hm hm')
  · intro a ha b hb heq
    rw [List.mem_filter, decide_eq_true_eq] at ha
    obtain ⟨s, hs, hmem⟩ := List.mem_flatMap.mp hb
    rw [← heq] at hmem
    exact final_dim_one.mp ha.2 s (List.mem_range.mp hs) hmem

theorem Matched.flatMap_pairsOf (hconfig : Config lists) (hnodup : paths.Nodup)
    (h : Matched paths lists) :
    ((List.range paths.length).flatMap (pairsOf paths lists)).flatMap
        (fun d => [d.path1, d.path2]) =
      ((List.range paths.length).flatMap (link paths lists)).map (pathAt paths) := by
  rw [List.flatMap_assoc, List.map_flatMap]
  apply List.flatMap_congr
  intro s hs
  obtain hlink | ⟨j, hlink, -⟩ := h s (List.mem_range.mp hs)
  · rw [pairsOf, hlink]
    rfl
  · rw [h.pairsOf_eq hconfig hnodup (List.mem_range.mp hs) hlink, hlink]
    rfl

theorem Matched.once (hconfig : Config lists) (hnodup : paths.Nodup) (h : Matched paths lists)
    (hp : p ∈ paths) :
    (((List.range paths.length).filter fun m => (final paths lists m).dim = 1).map
        (pathAt paths) ++ ((List.range paths.length).flatMap (pairsOf paths lists)).flatMap
          (fun d => [d.path1, d.path2])).count p = 1 := by
  rw [h.flatMap_pairsOf hconfig hnodup, ← List.map_append]
  obtain ⟨i, hi, rfl⟩ := exists_pathAt hp
  have hwithin : ∀ m ∈ (List.range paths.length).filter (fun m => (final paths lists m).dim = 1) ++
      (List.range paths.length).flatMap (link paths lists), m < paths.length := by
    intro m hm
    rcases List.mem_append.mp hm with hm | hm
    · exact List.mem_range.mp (List.mem_of_mem_filter hm)
    · obtain ⟨s, -, hm⟩ := List.mem_flatMap.mp hm
      exact (mem_link hm).2
  apply List.count_eq_one_of_mem
  · rw [List.nodup_map_iff_inj_on (h.indices_nodup hconfig hnodup)]
    intro a ha b hb heq
    exact pathAt_inj hnodup (hwithin a ha) (hwithin b hb) heq
  · apply List.mem_map_of_mem
    rw [List.mem_append, List.mem_filter, List.mem_range, decide_eq_true_eq]
    by_cases hdim : (final paths lists i).dim = 1
    · exact .inl ⟨hi, hdim⟩
    · right
      rw [final_dim_one] at hdim
      push Not at hdim
      obtain ⟨s, hs, hmem⟩ := hdim
      exact List.mem_flatMap.mpr ⟨s, List.mem_range.mpr hs, hmem⟩

/-- A requested pair within a group. -/
theorem requested_two {e1 e2 : GoString} (h1 : e1 ∈ paths) (h2 : e2 ∈ paths) :
    requested paths [e1, e2] = [e1, e2] := by
  simp [requested, h1, h2]

theorem separate_grouped (hconfig : Config lists) (hnodup : paths.Nodup)
    (h : Separate paths lists) : Grouped paths lists (populateDimLists paths lists) := by
  have hmatched := h.matched hconfig hnodup
  have hpair : ∀ {i j}, i < paths.length → link paths lists i = [i, j] →
      (⟨pathAt paths i, pathAt paths j⟩ : Dim2Elem) ∈
        (List.range paths.length).flatMap (pairsOf paths lists) := by
    intro i j hi hlink
    refine List.mem_flatMap.mpr ⟨i, List.mem_range.mpr hi, ?_⟩
    rw [hmatched.pairsOf_eq hconfig hnodup hi hlink]
    exact List.mem_singleton_self _
  rw [populateDimLists_eq hconfig]
  refine ⟨?_, ?_, ?_, ?_⟩
  · intro p hp
    rw [List.flatMap_nil, List.append_nil]
    exact hmatched.once hconfig hnodup hp
  · intro g hg hlen
    rcases List.mem_append.mp hg with hmem | hmem
    · obtain ⟨e, he, rfl⟩ := List.mem_map.mp hmem
      have hboth : e.path1 ∈ paths ∧ e.path2 ∈ paths := by
        by_contra hnot
        simp only [requested, List.filter_cons, List.filter_nil] at hlen
        split at hlen <;> split at hlen <;> simp_all
      obtain ⟨i, hi, hi1⟩ := exists_pathAt hboth.1
      obtain ⟨j, hj, hj2⟩ := exists_pathAt hboth.2
      have hnext := h.pair_next hnodup he (by rw [pathAt_eq hi, hi1])
      rw [← hj2, idxOf?_pathAt hnodup hj] at hnext
      have hlink := link_of_pair he hi1
      rw [hnext] at hlink
      refine ⟨_, hpair hi hlink, ?_⟩
      rw [requested_two hboth.1 hboth.2, hi1, hj2]
    · obtain ⟨e, he, rfl⟩ := List.mem_map.mp hmem
      have hapart := h.apart e he
      have hfirst : e.path1 ∈ paths := by
        by_contra hnot
        simp only [requested, List.filter_cons, List.filter_nil, hnot, decide_false] at hlen
        split at hlen <;> split at hlen <;> split at hlen <;> simp_all
      obtain ⟨i, hi, hi1⟩ := exists_pathAt hfirst
      have hpath : paths[i]? = some e.path1 := by rw [pathAt_eq hi, hi1]
      obtain ⟨hthird, -⟩ := h.triple e he i hpath
      have hnext := h.triple_next hnodup he hpath
      have hsecond : e.path2 ∈ paths := by
        by_contra hnot
        simp [requested, hnot, hthird, hfirst] at hlen
      obtain ⟨j, hj, hj2⟩ := exists_pathAt hsecond
      rw [← hj2, idxOf?_pathAt hnodup hj] at hnext
      have hlink := link_of_triple hconfig he hi1
      have hnone := h.no_third hnodup he hpath hnext
      simp only [hnext, hnone] at hlink
      refine ⟨_, hpair hi hlink, ?_⟩
      simp [requested, hfirst, hsecond, hthird, hi1, hj2]
  · intro g hg hlen
    exfalso
    rcases List.mem_append.mp hg with hmem | hmem
    · obtain ⟨e, he, rfl⟩ := List.mem_map.mp hmem
      have hle := List.length_filter_le (fun p => decide (p ∈ paths)) [e.path1, e.path2]
      rw [requested] at hlen
      simp only [List.length_cons, List.length_nil] at hle
      omega
    · obtain ⟨e, he, rfl⟩ := List.mem_map.mp hmem
      apply h.apart e he
      by_contra hnot
      simp only [requested, List.filter_cons, List.filter_nil] at hlen
      split at hlen <;> split at hlen <;> split at hlen <;> simp_all
  · intro p hp hsingle
    obtain ⟨i, hi, rfl⟩ := exists_pathAt hp
    rw [mem_dim1List hnodup hi]
    intro s hs hmem
    obtain hlink | ⟨j, hlink, hlt, hj, g, hg, h0, h1⟩ := hmatched s hs
    · rw [hlink] at hmem
      exact nomatch hmem
    · have hmemg : pathAt paths i ∈ g := by
        rw [hlink, List.mem_cons, List.mem_singleton] at hmem
        rcases hmem with rfl | rfl
        · exact List.mem_of_getElem? h0
        · exact List.mem_of_getElem? h1
      have hle := hsingle g hg hmemg
      have hsub : [pathAt paths s, pathAt paths j].Subperm (requested paths g) := by
        apply List.subperm_of_subset
        · simp only [List.nodup_cons, List.mem_singleton, List.not_mem_nil, not_false_iff,
            List.nodup_nil, and_true]
          exact fun heq => hlt.ne (pathAt_inj hnodup hs hj heq)
        · intro q hq
          rw [List.mem_cons, List.mem_singleton] at hq
          rw [requested, List.mem_filter, decide_eq_true_eq]
          rcases hq with rfl | rfl
          · exact ⟨List.mem_of_getElem? h0, pathAt_mem hs⟩
          · exact ⟨List.mem_of_getElem? h1, pathAt_mem hj⟩
      have hlen := hsub.length_le
      simp only [List.length_cons, List.length_nil] at hlen
      omega

/-! ## The condition -/

/-- What a returned pair of a configured group says. -/
theorem Grouped.pair_of_group (hconfig : Config lists)
    (h : Grouped paths lists (populateDimLists paths lists)) (hg : g ∈ groups lists)
    (hlen : (requested paths g).length = 2) :
    ∃ s j, s < paths.length ∧ j < paths.length ∧ link paths lists s = [s, j] ∧
      g[0]? = some (pathAt paths s) ∧ g[1]? = some (pathAt paths j) := by
  have hmem := h.two g hg hlen
  rw [populateDimLists_eq hconfig] at hmem
  obtain ⟨d, hd, hperm⟩ := hmem
  obtain ⟨s, j, hs, hlink, -, hj, rfl⟩ := mem_dim2List hd
  have hwithin : ∀ p ∈ [pathAt paths s, pathAt paths j], ∃ k : ℕ, g[k]? = some p := by
    intro p hp
    exact List.mem_iff_getElem?.mp (List.mem_of_mem_filter (hperm.subset hp))
  refine ⟨s, j, hs, hj, hlink, ?_, ?_⟩
  · obtain ⟨k, hk⟩ := hwithin _ List.mem_cons_self
    obtain ⟨g', hg', hhead⟩ := link_head (i := s) (by rw [hlink]; exact List.cons_ne_nil _ _)
    obtain ⟨rfl, -⟩ := hconfig.unique hg' hg hhead hk
    exact hhead
  · obtain ⟨k, hk⟩ := hwithin _ (List.mem_cons_of_mem _ List.mem_cons_self)
    obtain ⟨g', hg', hsecond⟩ := link_second hlink
    obtain ⟨rfl, -⟩ := hconfig.unique hg' hg hsecond hk
    exact hsecond

/-- A path that is requested alone leads no group. -/
theorem Grouped.link_nil (hconfig : Config lists) (hnodup : paths.Nodup)
    (h : Grouped paths lists (populateDimLists paths lists)) (hg : g ∈ groups lists)
    (hi : i < paths.length) (hmem : pathAt paths i ∈ g)
    (hlen : (requested paths g).length ≤ 1) : link paths lists i = [] := by
  have hsingle : pathAt paths i ∈ (populateDimLists paths lists).1 := by
    apply h.other _ (pathAt_mem hi)
    intro g' hg' hmem'
    obtain ⟨k, hk⟩ := List.mem_iff_getElem?.mp hmem
    obtain ⟨k', hk'⟩ := List.mem_iff_getElem?.mp hmem'
    obtain ⟨rfl, -⟩ := hconfig.unique hg hg' hk hk'
    exact hlen
  rw [populateDimLists_eq hconfig, mem_dim1List hnodup hi] at hsingle
  rcases link_cases paths lists i with hlink | ⟨j, hlink, -⟩ | ⟨j, hlink, -⟩
  · exact hlink
  · exact absurd (by rw [hlink]; exact List.mem_cons_self) (hsingle i hi)
  · exact absurd (by rw [hlink]; exact List.mem_cons_self) (hsingle i hi)

/-- A group without a third requested path is linked where its second path is requested. -/
theorem Grouped.link_eq (hconfig : Config lists) (hnodup : paths.Nodup)
    (h : Grouped paths lists (populateDimLists paths lists)) {rest : List GoString}
    {path1 path2 : GoString} (hg : path1 :: path2 :: rest ∈ groups lists)
    (hrest : ∀ p ∈ rest, p ∉ paths) (hi : i < paths.length) (hi1 : pathAt paths i = path1) :
    link paths lists i = match paths.idxOf? path2 with
      | some j => [i, j]
      | none => [] := by
  have hfirst : path1 ∈ paths := by
    rw [← hi1]
    exact pathAt_mem hi
  have hthird : rest.filter (fun p => decide (p ∈ paths)) = [] :=
    List.filter_eq_nil_iff.mpr fun p hp => by simpa using hrest p hp
  by_cases hsecond : path2 ∈ paths
  · obtain ⟨s, j, hs, hj, hsj, h0, h1⟩ := h.pair_of_group hconfig hg
      (by simp [requested, hfirst, hsecond, hthird])
    have hpath1 : path1 = pathAt paths s := Option.some.inj h0
    have hpath2 : path2 = pathAt paths j := Option.some.inj h1
    obtain rfl := pathAt_inj hnodup hi hs (hi1.trans hpath1)
    rw [hpath2, idxOf?_pathAt hnodup hj, hsj]
  · rw [List.idxOf?_eq_none_iff.mpr hsecond]
    exact h.link_nil hconfig hnodup hg hi (by rw [hi1]; exact List.mem_cons_self)
      (by simp [requested, hfirst, hsecond, hthird])

theorem Grouped.next2_eq (hconfig : Config lists) (hnodup : paths.Nodup)
    (h : Grouped paths lists (populateDimLists paths lists)) {e : Dim2Elem}
    (he : e ∈ lists.dim2List) (hi : i < paths.length) (hi1 : pathAt paths i = e.path1) :
    next2 paths lists i = paths.idxOf? e.path2 := by
  have hlink := link_of_pair he hi1
  rw [h.link_eq hconfig hnodup (pair_mem he) (List.forall_mem_nil _) hi hi1] at hlink
  cases hidx : paths.idxOf? e.path2 with
  | none =>
    cases hnext : next2 paths lists i with
    | none => rfl
    | some k => simp [hidx, hnext] at hlink
  | some j =>
    cases hnext : next2 paths lists i with
    | none => simp [hidx, hnext] at hlink
    | some k =>
      simp only [hidx, hnext, List.cons.injEq, and_true, true_and] at hlink
      rw [hlink]

theorem Grouped.apart (hconfig : Config lists)
    (h : Grouped paths lists (populateDimLists paths lists)) {e : Dim3Elem}
    (he : e ∈ lists.dim3List) : ¬ (e.path2 ∈ paths ∧ e.path3 ∈ paths) := by
  rintro ⟨h2, h3⟩
  by_cases h1 : e.path1 ∈ paths
  · have hmem := h.three _ (triple_mem he) (by simp [requested, h1, h2, h3])
    rw [populateDimLists_eq hconfig] at hmem
    obtain ⟨d, hd, -⟩ := hmem
    exact nomatch hd
  · obtain ⟨s, j, hs, -, -, h0, -⟩ := h.pair_of_group hconfig (triple_mem he)
      (by simp [requested, h1, h2, h3])
    apply h1
    rw [Option.some.inj h0]
    exact pathAt_mem hs

/-- Of a triple with its first path no third one is requested. -/
theorem Grouped.third_not_mem (hconfig : Config lists)
    (h : Grouped paths lists (populateDimLists paths lists)) {e : Dim3Elem}
    (he : e ∈ lists.dim3List) (h1 : e.path1 ∈ paths) : e.path3 ∉ paths := by
  intro h3
  have h2 : e.path2 ∉ paths := fun h2 => h.apart hconfig he ⟨h2, h3⟩
  obtain ⟨s, j, -, hj, -, -, hsecond⟩ := h.pair_of_group hconfig (triple_mem he)
    (by simp [requested, h1, h2, h3])
  apply h2
  rw [Option.some.inj hsecond]
  exact pathAt_mem hj

/-- The pair of the first two paths of a triple. -/
theorem Grouped.next3_eq (hconfig : Config lists) (hnodup : paths.Nodup)
    (h : Grouped paths lists (populateDimLists paths lists)) {e : Dim3Elem}
    (he : e ∈ lists.dim3List) (hi : i < paths.length) (hi1 : pathAt paths i = e.path1) :
    next3 paths lists i = paths.idxOf? e.path2 ∧ ∀ j, next3 paths lists i = some j →
      is3dim (pathAt paths (j + 1)) 3 lists.dim3List = false := by
  have hfirst : e.path1 ∈ paths := by
    rw [← hi1]
    exact pathAt_mem hi
  have hthird := h.third_not_mem hconfig he hfirst
  have hlink := link_of_triple hconfig he hi1
  rw [h.link_eq hconfig hnodup (triple_mem he) (List.forall_mem_singleton.mpr hthird) hi hi1]
    at hlink
  cases hnext : next3 paths lists i with
  | none =>
    cases hidx : paths.idxOf? e.path2 with
    | none => exact ⟨rfl, fun j hj => nomatch hj⟩
    | some j => simp [hidx, hnext] at hlink
  | some k =>
    have hsecond : is3dim (pathAt paths (k + 1)) 3 lists.dim3List = false := by
      by_contra his
      have htrue := (Bool.not_eq_false _).mp his
      cases hidx : paths.idxOf? e.path2 <;> simp [hidx, hnext, htrue] at hlink
    cases hidx : paths.idxOf? e.path2 with
    | none => simp [hidx, hnext, hsecond] at hlink
    | some j =>
      have hj : j = k := by simpa [hidx, hnext, hsecond] using hlink
      refine ⟨by rw [hj], ?_⟩
      rintro m ⟨rfl⟩
      exact hsecond

theorem Grouped.separate (hconfig : Config lists) (hnodup : paths.Nodup)
    (h : Grouped paths lists (populateDimLists paths lists)) : Separate paths lists := by
  have hindex : ∀ {i p}, paths[i]? = some p → i < paths.length ∧ pathAt paths i = p := by
    intro i p hp
    have hi := (List.getElem?_eq_some_iff.mp hp).1
    refine ⟨hi, ?_⟩
    rw [pathAt_eq hi] at hp
    exact Option.some.inj hp
  refine ⟨?_, fun e he => h.apart hconfig he, ?_⟩
  · intro e he i hpath
    obtain ⟨hi, hi1⟩ := hindex hpath
    rw [← next2_map, ← eq_idxOf?_iff hnodup fun j hj => (next2_spec hj).2.1]
    exact h.next2_eq hconfig hnodup he hi hi1
  · intro e he i hpath
    obtain ⟨hi, hi1⟩ := hindex hpath
    obtain ⟨hnext, hnone⟩ := h.next3_eq hconfig hnodup he hi hi1
    refine ⟨h.third_not_mem hconfig he (List.mem_of_getElem? hpath), ?_, ?_⟩
    · rw [← next3_map, ← eq_idxOf?_iff hnodup]
      · exact hnext
      · intro j hj
        have hlt := (next3_spec hj).2.1
        omega
    · intro j p hj hp
      obtain ⟨hjlt, rfl⟩ := hindex hp
      obtain ⟨hjlen, hjpath⟩ := hindex hj
      rw [← hjpath, idxOf?_pathAt hnodup hjlen] at hnext
      exact hnone j hnext

/-- The returned lists are the partition exactly where the configured groups do not meet. -/
theorem dimLists_partition_iff (hconfig : Config lists) (hnodup : paths.Nodup) :
    Grouped paths lists (populateDimLists paths lists) ↔ Separate paths lists :=
  ⟨fun h => h.separate hconfig hnodup, separate_grouped hconfig hnodup⟩

end Partition

/-! ## The delivered configuration -/

def latitude : GoString := str "Vehicle.Cabin.Infotainment.Navigation.CurrentLocation.Latitude"
def longitude : GoString := str "Vehicle.Cabin.Infotainment.Navigation.CurrentLocation.Longitude"
def lateral : GoString := str "Vehicle.Acceleration.Lateral"
def longitudinal : GoString := str "Vehicle.Acceleration.Longitudinal"
def vertical : GoString := str "Vehicle.Acceleration.Vertical"

def signalDimensions : SignalDimensionLists where
  dim2List := [⟨latitude, longitude⟩]
  dim3List := [⟨lateral, longitudinal, vertical⟩]

theorem dimLists_partition_position :
    Grouped [lateral, latitude, longitude] signalDimensions
      (populateDimLists [lateral, latitude, longitude] signalDimensions) := by
  have hconfig : Config signalDimensions := by
    unfold Config
    decide +kernel
  apply (dimLists_partition_iff hconfig (by decide +kernel)).mpr
  refine ⟨?_, by decide +kernel, ?_⟩
  · intro e he i hpath
    rcases i with _ | _ | _ | i
    · revert e
      decide +kernel
    · revert e
      decide +kernel
    · revert e
      decide +kernel
    · exact nomatch hpath
  · intro e he i hpath
    obtain rfl := List.mem_singleton.mp he
    refine ⟨by decide +kernel, ?_, ?_⟩
    · rcases i with _ | _ | _ | i
      · decide +kernel
      · decide +kernel
      · decide +kernel
      · exact nomatch hpath
    · intro j p hj
      exact absurd (List.mem_of_getElem? hj) (by decide +kernel)

/-- The three signals of the delivered triple are in no list. -/
theorem triple_not_listed :
    ¬ ∀ (paths : List GoString) (lists : SignalDimensionLists), Config lists → paths.Nodup →
      Grouped paths lists (populateDimLists paths lists) := by
  intro h
  have hconfig : Config signalDimensions := by
    unfold Config
    decide +kernel
  have honce := (h [lateral, longitudinal, vertical] signalDimensions hconfig
    (by decide +kernel)).once lateral (by decide +kernel)
  revert honce
  decide +kernel

end VissServer.ServiceMgr.SignalDimensions


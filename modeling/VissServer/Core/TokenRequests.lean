import VissServer.AtServer.Server
import VissServer.Core.Decision
import VissServer.Go.JsonMarks
import VissServer.Go.JsonMaps
import VissServer.Go.Slices
import VissServer.Managers.Origin

/-!
The request that the core sends to the access token server to validate a token, and what the
server decodes from it. Its text is put together from the token, the matched paths and the
action as they are.
-/
namespace VissServer.Core

open Go Utils
open AtServer (decodeValidate extractAtValidatePayloadLevel1 extractAtValidatePayloadLevel2
  AtValidatePayload)

namespace Found

variable {found : Found}

/-- The paths of the nodes that are found. -/
def nodePaths (found : Found) : List GoString :=
  found.flatMap fun r => r.1.map fun data => pathOf data.nodePath

theorem length_nodePaths (found : Found) : found.nodePaths.length = found.totalMatches := by
  unfold nodePaths totalMatches
  rw [List.length_flatMap]
  congr 1
  refine List.map_congr_left fun r _ => ?_
  rw [List.length_map]

/-- The quoted paths with separators between them. -/
def joined : List GoString → GoString
  | [] => []
  | [path] => 34 :: (path ++ [34])
  | path :: paths => 34 :: (path ++ 34 :: 44 :: 32 :: joined paths)

theorem joined_append (path : GoString) (paths : List GoString) :
    joined (path :: paths) ++ str ", " =
      (path :: paths).flatMap fun path => str "\"" ++ path ++ str "\", " := by
  have hquote : str "\"" = [34] := rfl
  have hseparator : str "\", " = [34, 44, 32] := rfl
  have hend : str ", " = [44, 32] := rfl
  induction paths generalizing path with
  | nil => simp [joined, hquote, hseparator, hend]
  | cons path' paths ih =>
    rw [List.flatMap_cons, ← ih path', joined]
    · simp [hquote, hseparator]
    · simp

theorem paths_eq (path : GoString) (paths : List GoString)
    (h : found.nodePaths = path :: paths) :
    found.paths = some (if paths = [] then path else 91 :: (joined (path :: paths) ++ [93])) := by
  have hflat : (found.flatMap fun r => r.1.flatMap fun data =>
      str "\"" ++ pathOf data.nodePath ++ str "\", ") = joined (path :: paths) ++ str ", " := by
    rw [joined_append, ← h, nodePaths, List.flatMap_assoc]
    refine List.flatMap_congr fun r _ => ?_
    rw [List.flatMap_map]
  have hmatches : found.totalMatches = paths.length + 1 := by
    rw [← length_nodePaths, h, List.length_cons]
  have hfront : slice (joined (path :: paths) ++ str ", ") 0
      ((joined (path :: paths) ++ str ", ").length - 2) = some (joined (path :: paths)) := by
    have hend : (str ", ").length = 2 := rfl
    refine slice_append [] (str ", ") rfl rfl ?_
    rw [List.length_append, hend]
    omega
  unfold Found.paths
  rw [hflat]
  simp only [Option.bind_eq_bind, hfront, Option.bind_some, hmatches]
  cases paths with
  | nil =>
    have hpath : slice (34 :: (path ++ [34])) 1 ((34 :: (path ++ [34])).length - 1) = some path := by
      refine slice_append [34] [34] rfl rfl ?_
      simp only [List.length_cons, List.length_append, List.length_nil]
      omega
    simpa [joined] using hpath
  | cons path' paths =>
    have hbracket : str "[" = [91] := rfl
    have hbracket' : str "]" = [93] := rfl
    simp [hbracket, hbracket']

end Found

/-- Where the fields of a decoded payload come from: the members of the map, or the payload
before it was visited. -/
structure Sources (members : GoMap Json) (payload payload' : AtValidatePayload) : Prop where
  token : payload'.token = payload.token ∨ (str "token", .str payload'.token) ∈ members
  action : payload'.action = payload.action ∨ (str "action", .str payload'.action) ∈ members
  validation : payload'.validation = payload.validation ∨
    (str "validation", .str payload'.validation) ∈ members
  paths : payload'.paths = payload.paths ∨
    (∃ path, payload'.paths = [path] ∧ (str "paths", .str path) ∈ members) ∨
    ∃ k items, payload'.paths = items.map (fun v => (asString v).getD []) ∧
      (k, .arr items) ∈ members

theorem sources (members : GoMap Json) (payload : AtValidatePayload) :
    Sources members payload (extractAtValidatePayloadLevel1 members payload) := by
  unfold extractAtValidatePayloadLevel1
  induction members using List.reverseRecOn with
  | nil => exact ⟨.inl rfl, .inl rfl, .inl rfl, .inl rfl⟩
  | append_singleton members p ih =>
    rw [List.foldl_append, List.foldl_cons, List.foldl_nil]
    generalize List.foldl _ payload members = payload' at ih ⊢
    obtain ⟨k, v⟩ := p
    have hold : Sources (members ++ [(k, v)]) payload payload' := by
      refine ⟨?_, ?_, ?_, ?_⟩
      · exact ih.token.imp_right (List.mem_append_left _)
      · exact ih.action.imp_right (List.mem_append_left _)
      · exact ih.validation.imp_right (List.mem_append_left _)
      · rcases ih.paths with h | ⟨path, h, hmem⟩ | ⟨k', items, h, hmem⟩
        · exact .inl h
        · exact .inr (.inl ⟨path, h, List.mem_append_left _ hmem⟩)
        · exact .inr (.inr ⟨k', items, h, List.mem_append_left _ hmem⟩)
    have hlast : (k, v) ∈ members ++ [(k, v)] := List.mem_append_right _ (List.mem_singleton_self _)
    dsimp only
    cases v with
    | arr items =>
      exact ⟨hold.token, hold.action, hold.validation, .inr (.inr ⟨k, items, rfl, hlast⟩)⟩
    | str v =>
      dsimp only
      split
      · next hk => exact ⟨.inr (hk ▸ hlast), hold.action, hold.validation, hold.paths⟩
      · split
        · next hk => exact ⟨hold.token, .inr (hk ▸ hlast), hold.validation, hold.paths⟩
        · split
          · next hk => exact ⟨hold.token, hold.action, .inr (hk ▸ hlast), hold.paths⟩
          · split
            · next hk =>
              exact ⟨hold.token, hold.action, hold.validation,
                .inr (.inl ⟨v, rfl, hk ▸ hlast⟩)⟩
            · exact hold
    | null => exact hold
    | bool b => exact hold
    | num lit => exact hold
    | obj members' => exact hold

/-- The members that the fields of the payload are kept in. -/
structure Kept (members : List (GoString × Json)) (token action validation : GoString)
    (paths : List GoString) : Prop where
  token : token = [] ∨ lastMember members (str "token") = some (.str token)
  action : lastMember members (str "action") = some (.str action)
  validation : lastMember members (str "validation") = some (.str validation)
  paths : (∃ path, paths = [path] ∧ lastMember members (str "paths") = some (.str path)) ∨
    ∃ k items, paths = items.map (fun v => (asString v).getD []) ∧
      lastMember members k = some (.arr items)

theorem lastMember_of_mem {members : List (GoString × Json)} {k : GoString} {v : Json}
    (h : (k, v) ∈ GoMap.ofMembers (canonMembers members)) :
    ∃ j, lastMember members k = some j ∧ canon j = v := by
  have hget := (GoMap.sorted_ofMembers (canonMembers members)).get_of_mem h
  rw [get_canonMembers] at hget
  exact Option.map_eq_some_iff.mp hget

theorem lastMember_str {members : List (GoString × Json)} {k v : GoString}
    (h : (k, .str v) ∈ GoMap.ofMembers (canonMembers members)) :
    lastMember members k = some (.str v) := by
  obtain ⟨j, hlast, hcanon⟩ := lastMember_of_mem h
  rw [hlast, canon_eq_str.mp hcanon]

/-- A map that decodes to a payload keeps the fields of the payload. -/
theorem kept_of_extract {members : List (GoString × Json)} {token action validation : GoString}
    {paths : List GoString}
    (h : extractAtValidatePayloadLevel1 (GoMap.ofMembers (canonMembers members)) {} =
      ⟨token, paths, action, validation⟩)
    (haction : action ≠ []) (hvalidation : validation ≠ []) (hpaths : paths ≠ []) :
    Kept members token action validation paths := by
  have hsources := sources (GoMap.ofMembers (canonMembers members)) {}
  rw [h] at hsources
  refine ⟨?_, ?_, ?_, ?_⟩
  · exact hsources.token.imp_right lastMember_str
  · exact lastMember_str (hsources.action.resolve_left haction)
  · exact lastMember_str (hsources.validation.resolve_left hvalidation)
  · rcases hsources.paths.resolve_left hpaths with ⟨path, hpath, hmem⟩ | ⟨k, items, hitems, hmem⟩
    · exact .inl ⟨path, hpath, lastMember_str hmem⟩
    · obtain ⟨j, hlast, hcanon⟩ := lastMember_of_mem hmem
      cases j with
      | arr items' =>
        refine .inr ⟨k, items', ?_, hlast⟩
        rw [canon, canonItems_eq_map] at hcanon
        dsimp only at hitems
        rw [hitems, ← Json.arr.inj hcanon, List.map_map]
        refine List.map_congr_left fun v _ => ?_
        cases v <;> rfl
      | _ => simp [canon] at hcanon

theorem tokenRequest_eq (token action paths : GoString) (validation : ℤ) :
    tokenRequest token action paths validation = 123 :: memberText (str "token") token
      (44 :: memberText (str "paths") paths (44 :: memberText (str "action") action
        (44 :: memberText (str "validation") (itoa validation) [125]))) := by
  have htoken : str "\x7b\"token\":\"" = 123 :: 34 :: (str "token" ++ [34, 58, 34]) := rfl
  have hpaths : str "\",\"paths\":\"" = 34 :: 44 :: 34 :: (str "paths" ++ [34, 58, 34]) := rfl
  have haction : str "\",\"action\":\"" = 34 :: 44 :: 34 :: (str "action" ++ [34, 58, 34]) := rfl
  have hvalidation : str "\",\"validation\":\"" =
      34 :: 44 :: 34 :: (str "validation" ++ [34, 58, 34]) := rfl
  have hend : str "\"\x7d" = [34, 125] := rfl
  rw [tokenRequest, htoken, hpaths, haction, hvalidation, hend]
  simp [memberText]

/-- The marks of the paths between quotes. -/
def pathsCost (paths : List GoString) : ℕ := (paths.map fun path => marks path + 2).sum

/-- The member that the paths are kept in. -/
theorem Kept.exists_paths {members : List (GoString × Json)} {token action validation : GoString}
    {paths : List GoString} (h : Kept members token action validation paths)
    (hpaths : ∀ path ∈ paths, path ≠ []) :
    ∃ k v, lastMember members k = some v ∧ pathsCost paths + 2 ≤ memberCost (k, v) ∧
      ∀ w, v = .str w → k = str "paths" ∧ paths = [w] := by
  rcases h.paths with ⟨path, rfl, hlast⟩ | ⟨k, items, hitems, hlast⟩
  · refine ⟨str "paths", .str path, hlast, ?_, fun w hw => ⟨rfl, by rw [Json.str.inj hw]⟩⟩
    simp only [pathsCost, List.map_singleton, List.sum_singleton, memberCost, cost]
    omega
  · refine ⟨k, .arr items, hlast, ?_, by simp⟩
    have hcost : pathsCost paths = itemsCost items := by
      rw [itemsCost_eq_sum, pathsCost, hitems, List.map_map]
      congr 1
      refine List.map_congr_left fun v hv => ?_
      have hne := hpaths ((asString v).getD []) (hitems ▸ List.mem_map_of_mem hv)
      cases v with
      | str w => rfl
      | _ => exact absurd rfl hne
    simp only [memberCost, cost]
    omega

section Decoding

variable {token action pathsText : GoString} {paths : List GoString} {validation : ℤ}

theorem isLiteral_itoa (validation : ℤ) : IsLiteral (itoa validation) :=
  isLiteral_of_isPlain isPlain_itoa

theorem itoa_ne_nil (validation : ℤ) : itoa validation ≠ [] := by
  have hdigits : ∀ n, natDigits n ≠ [] := by
    intro n
    rw [natDigits, ne_eq, List.map_eq_nil_iff]
    exact Nat.toDigits_ne_nil
  unfold itoa
  split
  · exact List.cons_ne_nil _ _
  · exact hdigits _

theorem isLiteral_token : IsLiteral (str "token") := isLiteral_of_all (by decide)

theorem isLiteral_paths : IsLiteral (str "paths") := isLiteral_of_all (by decide)

theorem isLiteral_action : IsLiteral (str "action") := isLiteral_of_all (by decide)

theorem isLiteral_validation : IsLiteral (str "validation") := isLiteral_of_all (by decide)

theorem marks_comma (s : GoString) : marks (44 :: s) = marks s :=
  marks_cons_of_ne (by decide) (by decide) s

/-- The text behind the paths. -/
def behindPaths (action : GoString) (validation : ℤ) : GoString :=
  memberText (str "action") action (44 :: memberText (str "validation") (itoa validation) [125])

theorem marks_behindPaths (action : GoString) (validation : ℤ) :
    marks (behindPaths action validation) = marks action + 8 := by
  have hend : marks [125] = 0 := by decide
  rw [behindPaths, marks_memberText, marks_comma, marks_memberText, hend,
    isLiteral_action.marks_eq_zero, isLiteral_validation.marks_eq_zero,
    (isLiteral_itoa validation).marks_eq_zero]
  omega

/-- The text from the paths on. -/
theorem marks_pathsMember (pathsText action : GoString) (validation : ℤ) :
    marks (memberText (str "paths") pathsText (44 :: behindPaths action validation)) =
      marks pathsText + marks action + 12 := by
  rw [marks_memberText, marks_comma, marks_behindPaths, isLiteral_paths.marks_eq_zero]
  omega

theorem memberCost_str {k : GoString} (h : IsLiteral k) (w : GoString) :
    memberCost (k, .str w) = marks w + 4 := by
  simp only [memberCost, cost, h.marks_eq_zero]
  omega

section Members

variable {depth n : ℕ} {members : List (GoString × Json)} {r k : GoString} {v : Json}

/-- The token is read as it was put into the text. -/
theorem token_read (hkept : Kept members token action (itoa validation) paths)
    (hlast : lastMember members k = some v) (hcost : pathsCost paths + 2 ≤ memberCost (k, v))
    (hstr : ∀ w, v = .str w → k = str "paths" ∧ paths = [w])
    (hmarks : marks pathsText ≤ pathsCost paths)
    (h : readMembers (parseValue depth) n (memberText (str "token") token
      (44 :: memberText (str "paths") pathsText (44 :: behindPaths action validation))) =
        some (members, r)) :
    ∃ n' members', members = (str "token", .str token) :: members' ∧ IsLiteral token ∧
      readMembers (parseValue depth) n'
        (memberText (str "paths") pathsText (44 :: behindPaths action validation)) =
          some (members', r) := by
  rcases hkept.token with rfl | htoken
  · cases n with
    | zero => simp [readMembers] at h
    | succ n =>
      rw [readMembers_literal isLiteral_token isLiteral_nil] at h
      obtain ⟨⟨members', r'⟩, hmembers, heq⟩ := Option.map_eq_some_iff.mp h
      obtain ⟨rfl, rfl⟩ := Prod.mk.inj heq
      exact ⟨n, members', rfl, isLiteral_nil, hmembers⟩
  · have hne : ∀ {k' w : GoString}, k' ≠ str "paths" → lastMember members k' = some (.str w) →
        k' ≠ k := by
      rintro k' w hk' hlast' rfl
      rw [hlast] at hlast'
      exact hk' (hstr w (Option.some.inj hlast')).1
    have htext : marks (memberText (str "token") token (44 :: memberText (str "paths") pathsText
        (44 :: behindPaths action validation))) =
        marks token + marks pathsText + marks action + 16 := by
      rw [marks_memberText, marks_comma, marks_pathsMember, isLiteral_token.marks_eq_zero]
      omega
    obtain ⟨rest, hrest⟩ : ∃ rest, memberText (str "paths") pathsText
        (44 :: behindPaths action validation) = 34 :: 112 :: rest := ⟨_, rfl⟩
    rw [hrest] at h htext ⊢
    refine readMembers_kept isLiteral_token (by decide) (by decide) (by decide) h htoken
      [(str "action", .str action), (str "validation", .str (itoa validation)), (k, v)] ?_ ?_ ?_
    · have htoken' := hne (by decide) htoken
      have haction' := hne (by decide) hkept.action
      have hvalidation' := hne (by decide) hkept.validation
      have hkeys : [str "token", str "action", str "validation"].Nodup := by decide
      simp only [List.map_cons, List.map_nil, List.nodup_cons, List.mem_cons, List.not_mem_nil,
        or_false, not_or] at hkeys ⊢
      exact ⟨⟨hkeys.1.1, hkeys.1.2, htoken'⟩, ⟨hkeys.2.1, haction'⟩, hvalidation', by simp⟩
    · simp only [List.forall_mem_cons]
      exact ⟨hkept.action, hkept.validation, hlast, by simp⟩
    · have hvalue := (isLiteral_itoa validation).marks_eq_zero
      rw [htext, membersCost_cons, membersCost_cons, membersCost_cons,
        memberCost_str isLiteral_token, memberCost_str isLiteral_action,
        memberCost_str isLiteral_validation, isLiteral_token.marks_eq_zero, hvalue]
      omega

/-- The paths are read as they were put into the text, and there is only one. -/
theorem paths_read
    (haction : lastMember members (str "action") = some (.str action))
    (hvalidation : lastMember members (str "validation") = some (.str (itoa validation)))
    (hlast : lastMember members k = some v) (hcost : pathsCost paths + 2 ≤ memberCost (k, v))
    (hstr : ∀ w, v = .str w → k = str "paths" ∧ paths = [w])
    (hmarks : marks pathsText ≤ pathsCost paths)
    (hone : ∀ path, paths = [path] → pathsText = path)
    (h : readMembers (parseValue depth) n
      (memberText (str "paths") pathsText (44 :: behindPaths action validation)) =
        some (members, r)) :
    ∃ path n' members', paths = [path] ∧ members = (str "paths", .str path) :: members' ∧
      IsLiteral path ∧
      readMembers (parseValue depth) n' (behindPaths action validation) = some (members', r) := by
  have hvalue := (isLiteral_itoa validation).marks_eq_zero
  have htext := marks_pathsMember pathsText action validation
  have hkeys : [str "paths", str "action", str "validation"].Nodup := by decide
  by_cases hv : ∃ w, v = .str w
  · obtain ⟨path, rfl⟩ := hv
    obtain ⟨rfl, rfl⟩ := hstr path rfl
    obtain rfl := hone path rfl
    obtain ⟨rest, hrest⟩ : ∃ rest, behindPaths action validation = 34 :: 97 :: rest := ⟨_, rfl⟩
    rw [hrest] at h htext ⊢
    obtain ⟨n', members', hmembers, hlit, hread⟩ := readMembers_kept isLiteral_paths (by decide)
      (by decide) (by decide) h hlast
      [(str "action", .str action), (str "validation", .str (itoa validation))] hkeys
      (by
        simp only [List.forall_mem_cons]
        exact ⟨haction, hvalidation, by simp⟩)
      (by
        rw [htext, membersCost_cons, membersCost_cons, memberCost_str isLiteral_paths,
          memberCost_str isLiteral_action, memberCost_str isLiteral_validation,
          isLiteral_paths.marks_eq_zero, hvalue]
        omega)
    exact ⟨_, n', members', rfl, hmembers, hlit, hread⟩
  · -- an array that the paths are kept in has no place in the text beside this member
    exfalso
    obtain ⟨w, members', rfl⟩ := readMembers_head isLiteral_paths h
    have hcharges := readMembers_charges (parseValue_charges depth) h
    have hneeded : membersCost [(str "action", .str action),
        (str "validation", .str (itoa validation)), (k, v)] ≤ membersCost members' := by
      refine membersCost_le ?_ ?_
      · have hother : ∀ {k' w' : GoString}, lastMember ((str "paths", .str w) :: members') k' =
            some (.str w') → k' ≠ k := by
          rintro k' w' hlast' rfl
          exact hv ⟨w', Option.some.inj (hlast.symm.trans hlast')⟩
        have haction' := hother haction
        have hvalidation' := hother hvalidation
        simp only [List.map_cons, List.map_nil, List.nodup_cons, List.mem_cons,
          List.not_mem_nil, or_false, not_or] at hkeys ⊢
        exact ⟨⟨hkeys.2.1, haction'⟩, hvalidation', by simp⟩
      · simp only [List.forall_mem_cons]
        exact ⟨lastMember_of_ne (by decide) haction, lastMember_of_ne (by decide) hvalidation,
          lastMember_tail hlast fun _ heq => hv ⟨w, heq.symm⟩, by simp⟩
    rw [membersCost_cons, memberCost_str isLiteral_paths, htext] at hcharges
    rw [membersCost_cons, membersCost_cons, membersCost_cons, memberCost_str isLiteral_action,
      memberCost_str isLiteral_validation, hvalue] at hneeded
    omega

theorem action_read
    (haction : lastMember members (str "action") = some (.str action))
    (hvalidation : lastMember members (str "validation") = some (.str (itoa validation)))
    (h : readMembers (parseValue depth) n (behindPaths action validation) = some (members, r)) :
    IsLiteral action := by
  have hvalue := (isLiteral_itoa validation).marks_eq_zero
  have htext := marks_behindPaths action validation
  have hkeys : [str "action", str "validation"].Nodup := by decide
  unfold behindPaths at h htext
  obtain ⟨rest, hrest⟩ : ∃ rest, memberText (str "validation") (itoa validation) [125] =
      34 :: 118 :: rest := ⟨_, rfl⟩
  rw [hrest] at h htext
  obtain ⟨-, -, -, hlit, -⟩ := readMembers_kept isLiteral_action (by decide) (by decide)
    (by decide) h haction [(str "validation", .str (itoa validation))] hkeys
    (by simpa using hvalidation)
    (by
      rw [htext, membersCost_cons, memberCost_str isLiteral_action,
        memberCost_str isLiteral_validation, isLiteral_action.marks_eq_zero, hvalue]
      omega)
  exact hlit

end Members

/-- A request whose text is decoded to its parts has one path, and only literals. -/
theorem literals_of_decoded (hpaths : paths ≠ []) (hne : ∀ path ∈ paths, path ≠ [])
    (haction : action ≠ []) (hmarks : marks pathsText ≤ pathsCost paths)
    (hone : ∀ path, paths = [path] → pathsText = path) {inputMap : GoMap Json}
    (hmap : unmarshalMap (tokenRequest token action pathsText validation) = some inputMap)
    (h : extractAtValidatePayloadLevel1 inputMap {} = ⟨token, paths, action, itoa validation⟩) :
    ∃ path, paths = [path] ∧ IsLiteral path ∧ IsLiteral token ∧ IsLiteral action := by
  rw [tokenRequest_eq, unmarshalMap_memberText] at hmap
  obtain ⟨⟨members, r⟩, hread, hmap⟩ := Option.bind_eq_some_iff.mp hmap
  split at hmap
  swap
  · simp at hmap
  obtain rfl := Option.some.inj hmap
  have hkept := kept_of_extract h haction (itoa_ne_nil validation) hpaths
  obtain ⟨k, v, hlast, hcost, hstr⟩ := hkept.exists_paths hne
  obtain ⟨n, members', rfl, htoken, hread⟩ := token_read hkept hlast hcost hstr hmarks hread
  have haction' := lastMember_of_ne (by decide) hkept.action
  have hvalidation' := lastMember_of_ne (by decide) hkept.validation
  have hlast' : lastMember members' k = some v := by
    refine lastMember_tail hlast fun heq hv => ?_
    have hkeys : str "paths" ≠ str "token" := by decide
    exact hkeys ((hstr token hv.symm).1.symm.trans heq)
  obtain ⟨path, n', members'', rfl, rfl, hpath, hread⟩ :=
    paths_read haction' hvalidation' hlast' hcost hstr hmarks hone hread
  exact ⟨path, rfl, hpath, htoken, action_read (lastMember_of_ne (by decide) haction')
    (lastMember_of_ne (by decide) hvalidation') hread⟩

/-- The members of a request of literals. -/
def requestMembers (token action path : GoString) (validation : ℤ) : GoMap Json :=
  [(str "action", .str action), (str "paths", .str path), (str "token", .str token),
    (str "validation", .str (itoa validation))]

theorem unmarshalMap_tokenRequest {path : GoString} (htoken : IsLiteral token)
    (haction : IsLiteral action) (hpath : IsLiteral path) (validation : ℤ) :
    unmarshalMap (tokenRequest token action path validation) =
      some (requestMembers token action path validation) := by
  rw [tokenRequest_eq, unmarshalMap_memberText]
  obtain ⟨n, hn⟩ : ∃ n, (memberText (str "token") token (44 :: memberText (str "paths") path
      (44 :: memberText (str "action") action
        (44 :: memberText (str "validation") (itoa validation) [125])))).length = n + 4 := by
    refine Nat.exists_eq_add_of_le' ?_
    simp only [memberText, List.length_cons, List.length_append]
    omega
  rw [hn, readMembers_literal isLiteral_token htoken, readMembers_literal isLiteral_paths hpath,
    readMembers_literal isLiteral_action haction,
    readMembers_last isLiteral_validation (isLiteral_itoa validation)]
  rfl

/-- The members are visited in any order. -/
theorem extract_requestMembers {members : GoMap Json} {path : GoString}
    (h : members.Perm (requestMembers token action path validation)) :
    extractAtValidatePayloadLevel1 members {} = ⟨token, [path], action, itoa validation⟩ := by
  unfold extractAtValidatePayloadLevel1
  rw [h.foldl_eq' ?_]
  · rfl
  · intro x hx y hy payload
    have hx' := h.subset hx
    have hy' := h.subset hy
    simp only [requestMembers, List.mem_cons, List.not_mem_nil, or_false] at hx' hy'
    rcases hx' with rfl | rfl | rfl | rfl <;> rcases hy' with rfl | rfl | rfl | rfl <;> rfl

theorem decoded_of_literals {path : GoString} (htoken : IsLiteral token)
    (haction : IsLiteral action) (hpath : IsLiteral path) (validation : ℤ)
    (m : AtServer.Moment) :
    decodeValidate m (tokenRequest token action path validation) =
      some ⟨token, [path], action, itoa validation⟩ := by
  rw [decodeValidate, unmarshalMap_tokenRequest htoken haction hpath, Option.map_some,
    extract_requestMembers (m.range_perm _)]

end Decoding

theorem marks_joined (path : GoString) (paths : List GoString) :
    marks (Found.joined (path :: paths)) = pathsCost (path :: paths) := by
  have hspace : ∀ s, marks (32 :: s) = marks s := marks_cons_of_ne (by decide) (by decide)
  induction paths generalizing path with
  | nil =>
    have hquote : marks [34] = 1 := by decide
    simp only [Found.joined, pathsCost, List.map_singleton, List.sum_singleton, marks_quote,
      marks_append, hquote]
  | cons path' paths ih =>
    have hcost : pathsCost (path :: path' :: paths) = marks path + 2 + pathsCost (path' :: paths) :=
      List.sum_cons
    rw [Found.joined, marks_quote, marks_append, marks_quote, marks_comma, hspace, ih, hcost]
    · omega
    · simp

/-- The text of the paths has no more marks than the paths between quotes. -/
theorem marks_pathsText (path : GoString) (paths : List GoString) :
    marks (if paths = [] then path else 91 :: (Found.joined (path :: paths) ++ [93])) ≤
      pathsCost (path :: paths) := by
  split
  · rw [pathsCost, List.map_cons, List.sum_cons]
    omega
  · have hend : marks [93] = 0 := by decide
    rw [marks_cons_of_ne (by decide) (by decide), marks_append, marks_joined, hend]
    exact Nat.le_refl _

/-- What the access token server decodes from the request is what the core put into it, in
every order of the decoded members. -/
def DecodesExactly (token action : GoString) (validation : ℤ) (found : Found) : Prop :=
  ∃ paths, found.paths = some paths ∧ ∀ m : AtServer.Moment,
    decodeValidate m (tokenRequest token action paths validation) =
      some ⟨token, found.nodePaths, action, itoa validation⟩

/-- A request is decoded to its parts exactly where there is one path, and this, the token and
the action are strings without quotes, backslashes, control characters and invalid bytes. -/
theorem token_request_decodes_iff (token action : GoString) (validation : ℤ) (found : Found)
    (hfound : found.nodePaths ≠ []) (hpaths : ∀ path ∈ found.nodePaths, path ≠ [])
    (haction : action ≠ []) :
    DecodesExactly token action validation found ↔
      ∃ path, found.nodePaths = [path] ∧ IsLiteral path ∧ IsLiteral token ∧
        IsLiteral action := by
  obtain ⟨path, paths, hnode⟩ := List.exists_cons_of_ne_nil hfound
  have htext := Found.paths_eq path paths hnode
  constructor
  · rintro ⟨text, heq, hdecode⟩
    obtain rfl := Option.some.inj (heq.symm.trans htext)
    have hkeys := hdecode ⟨0, none, id, GoMap.perm_id⟩
    obtain ⟨inputMap, hmap, hextract⟩ := Option.map_eq_some_iff.mp hkeys
    refine literals_of_decoded hfound hpaths haction ?_ ?_ hmap hextract
    · rw [hnode]
      exact marks_pathsText path paths
    · intro path' hone
      rw [hnode, List.cons.injEq] at hone
      rw [if_pos hone.2, hone.1]
  · rintro ⟨path', hone, hpath, htoken, haction'⟩
    rw [hnode, List.cons.injEq] at hone
    obtain ⟨rfl, rfl⟩ := hone
    refine ⟨path, htext, fun m => ?_⟩
    rw [hnode]
    exact decoded_of_literals htoken haction' hpath validation m

/-- The request to validate a plain token for one path. -/
theorem token_request_decodes_speed : DecodesExactly (str "a.b.c") (str "set") 1
    (searchAll writeOnlySensor [str "Vehicle.Speed"]) :=
  (token_request_decodes_iff _ _ _ _ (by decide) (by decide) (by decide)).mpr
    ⟨str "Vehicle.Speed", rfl, isLiteral_of_all (by decide), isLiteral_of_all (by decide),
      isLiteral_of_all (by decide)⟩

/-- A token that ends its own string and adds an array changes the paths. -/
theorem token_changes_paths : ¬ ∀ token action validation found,
    found.nodePaths ≠ [] → (∀ path ∈ found.nodePaths, path ≠ []) → action ≠ [] →
    DecodesExactly token action validation found := by
  intro hall
  have hkeys : (decodeValidate ⟨0, none, id, GoMap.perm_id⟩ (tokenRequest
      (str "x\",\"y\":[\"Vehicle.Private\"],\"z\":\"") (str "set") (str "Vehicle.Speed") 1)).map
        AtValidatePayload.paths = some [str "Vehicle.Private"] := by decide +kernel
  obtain ⟨paths, htext, hdecode⟩ := hall (str "x\",\"y\":[\"Vehicle.Private\"],\"z\":\"")
    (str "set") 1 (searchAll writeOnlySensor [str "Vehicle.Speed"]) (by decide) (by decide)
    (by decide)
  have hone : (searchAll writeOnlySensor [str "Vehicle.Speed"]).paths =
      some (str "Vehicle.Speed") := by decide
  obtain rfl := Option.some.inj (htext.symm.trans hone)
  rw [hdecode, Option.map_some] at hkeys
  exact absurd hkeys (by decide)

end VissServer.Core

import VissServer.Go.Searches
import VissServer.Go.JsonKept
import VissServer.Utils.TokenClaims

/-!
The two ways to read the claims of a token whose payload AddClaim has made: as an object, and
by the places of their names. The values are put into the text as they are, so that one of
them can change what is read for the others.
-/
namespace VissServer.Utils

open Go

/-! ## The text -/

/-- The text of claims that are put in one after the other. -/
def claimsText (claims : List (GoString × GoString)) : GoString :=
  claims.foldl (fun text p => jsonRecursiveMarshall p.1 p.2 text) []

/-- The claims with a value; the others are not put in. -/
def valued (claims : List (GoString × GoString)) : List (GoString × GoString) :=
  claims.filter fun p => p.2 ≠ []

/-- A value that begins with a brace is put in without quotes. -/
def claimBody (value : GoString) : GoString :=
  if value.head? = some 123 then value else 34 :: (value ++ [34])

def claimMember (p : GoString × GoString) : GoString := 34 :: (p.1 ++ 34 :: 58 :: claimBody p.2)

/-- The members of the claims, with a comma behind each. -/
def membersBefore (claims : List (GoString × GoString)) : GoString :=
  claims.flatMap fun p => claimMember p ++ [44]

section

variable {claims before after : List (GoString × GoString)} {p : GoString × GoString}
  {text c k v w : GoString}

theorem jsonRecursiveMarshall_empty (k text : GoString) :
    jsonRecursiveMarshall k [] text = text := by
  rw [jsonRecursiveMarshall, if_pos (.inr rfl)]

theorem jsonRecursiveMarshall_first (hk : k ≠ []) (hv : v ≠ []) :
    jsonRecursiveMarshall k v [] = 123 :: (claimMember (k, v) ++ [125]) := by
  have hopen : str "\x7b\"" = [123, 34] := rfl
  have hquote : str "\"" = [34] := rfl
  have hcolon : str "\":" = [34, 58] := rfl
  have hclose : str "\x7d" = [125] := rfl
  simp [jsonRecursiveMarshall, claimMember, claimBody, hk, hv, hopen, hquote, hcolon, hclose]

theorem jsonRecursiveMarshall_next (hk : k ≠ []) (hv : v ≠ []) (text : GoString) :
    jsonRecursiveMarshall k v (text ++ [125]) = text ++ 44 :: (claimMember (k, v) ++ [125]) := by
  have hopen : str ",\"" = [44, 34] := rfl
  have hquote : str "\"" = [34] := rfl
  have hcolon : str "\":" = [34, 58] := rfl
  have hclose : str "\x7d" = [125] := rfl
  simp [jsonRecursiveMarshall, claimMember, claimBody, hk, hv, hopen, hquote, hcolon, hclose]

theorem claimsText_concat (claims : List (GoString × GoString)) (p : GoString × GoString) :
    claimsText (claims ++ [p]) = jsonRecursiveMarshall p.1 p.2 (claimsText claims) := by
  simp [claimsText]

/-- The text, cut behind the members in front of its last one. -/
theorem claimsText_eq (hnames : ∀ p ∈ claims, p.1 ≠ []) :
    (valued claims = [] ∧ claimsText claims = []) ∨
      ∃ before p, valued claims = before ++ [p] ∧
        claimsText claims = 123 :: (membersBefore before ++ (claimMember p ++ [125])) := by
  induction claims using List.reverseRecOn with
  | nil => exact .inl ⟨rfl, rfl⟩
  | append_singleton claims p ih =>
    obtain ⟨k, v⟩ := p
    have hk : k ≠ [] := hnames (k, v) (by simp)
    have hrest := ih fun q hq => hnames q (List.mem_append_left _ hq)
    rw [claimsText_concat]
    by_cases hv : v = []
    · subst hv
      have hvalued : valued (claims ++ [(k, [])]) = valued claims := by simp [valued]
      rw [hvalued, jsonRecursiveMarshall_empty]
      exact hrest
    · have hvalued : valued (claims ++ [(k, v)]) = valued claims ++ [(k, v)] := by
        simp [valued, hv]
      right
      refine ⟨valued claims, (k, v), hvalued, ?_⟩
      rcases hrest with ⟨hnone, htext⟩ | ⟨before, p, hsome, htext⟩
      · rw [htext, hnone, jsonRecursiveMarshall_first hk hv]
        rfl
      · have hcut : claimsText claims =
            123 :: (membersBefore before ++ claimMember p) ++ [125] := by
          rw [htext]
          simp
        rw [hcut, jsonRecursiveMarshall_next hk hv, hsome]
        simp [membersBefore]

/-- What follows the value of a claim: the next one, or the end of the object. -/
def behind : List (GoString × GoString) → GoString
  | [] => [125]
  | p :: claims => 44 :: (claimMember p ++ behind claims)

theorem behind_concat (after : List (GoString × GoString)) (p : GoString × GoString) :
    behind (after ++ [p]) = 44 :: (membersBefore after ++ (claimMember p ++ [125])) := by
  induction after with
  | nil => rfl
  | cons q after ih =>
    rw [List.cons_append, behind, ih]
    simp [membersBefore]

/-- The text around a claim. -/
theorem claimsText_split (hnames : ∀ p ∈ claims, p.1 ≠ [])
    (hvalued : valued claims = before ++ p :: after) :
    claimsText claims = 123 :: (membersBefore before ++ (claimMember p ++ behind after)) := by
  rcases claimsText_eq hnames with ⟨hnone, -⟩ | ⟨before', q, hsome, htext⟩
  · simp [hnone] at hvalued
  · rw [htext]
    rw [hsome] at hvalued
    rcases List.eq_nil_or_concat after with rfl | ⟨after, r, rfl⟩
    · obtain ⟨rfl, heq⟩ := List.append_inj' hvalued rfl
      obtain rfl := (List.cons.inj heq).1
      rfl
    · have hcut : before ++ p :: (after ++ [r]) = (before ++ p :: after) ++ [r] := by simp
      rw [List.concat_eq_append, hcut] at hvalued
      obtain ⟨rfl, heq⟩ := List.append_inj' hvalued rfl
      obtain rfl := (List.cons.inj heq).1
      rw [List.concat_eq_append, behind_concat]
      simp [membersBefore]

end

/-! ## Decoding the object -/

/-- The members of an object that holds the claims as strings. -/
def stringMembers (claims : List (GoString × GoString)) : List (GoString × Json) :=
  claims.map fun p => (p.1, .str p.2)

section

variable {claims before : List (GoString × GoString)} {members : List (GoString × Json)}
  {m m' : GoMap GoString} {k v : GoString}

theorem lookup_of_nodup (hnodup : (claims.map Prod.fst).Nodup) {p : GoString × GoString}
    (hp : p ∈ claims) : claims.lookup p.1 = some p.2 := by
  obtain ⟨before, after, rfl⟩ := List.append_of_mem hp
  refine List.lookup_eq_some_iff.mpr ⟨before, after, rfl, fun q hq => bne_iff_ne.mpr ?_⟩
  rw [List.map_append, List.map_cons] at hnodup
  have hdisjoint := (List.nodup_append.mp hnodup).2.2
  exact (hdisjoint q.1 (List.mem_map_of_mem hq) p.1 List.mem_cons_self).symm

/-- The string of a member, which is empty for null. -/
def memberString : Json → GoString
  | .str t => t
  | _ => []

theorem get_decodeStringMap (h : decodeStringMap m (.obj members) = some m') (k : GoString) :
    m'.get k = ((lastMember members k).map memberString).or (m.get k) := by
  induction members generalizing m with
  | nil =>
    obtain rfl := Option.some.inj h
    rfl
  | cons p members ih =>
    obtain ⟨k₁, j⟩ := p
    have hstep : ∀ t, memberString j = t →
        decodeStringMap (m.set k₁ t) (.obj members) = some m' →
        m'.get k = ((lastMember ((k₁, j) :: members) k).map memberString).or (m.get k) := by
      intro t ht hrest
      rw [ih hrest, lastMember_cons, GoMap.get_set]
      cases lastMember members k with
      | some j' => rfl
      | none =>
        by_cases hk : k = k₁
        · simp [hk, ht]
        · simp [hk]
    cases j with
    | str t => exact hstep t rfl h
    | null => exact hstep [] rfl h
    | _ => simp [decodeStringMap] at h

theorem decodeStringMap_strings (claims : List (GoString × GoString)) (m : GoMap GoString) :
    ∃ m', decodeStringMap m (.obj (stringMembers claims)) = some m' := by
  induction claims generalizing m with
  | nil => exact ⟨m, rfl⟩
  | cons p claims ih => exact ih (m.set p.1 p.2)

theorem membersCost_strings (claims : List (GoString × GoString)) :
    membersCost (stringMembers claims) =
      (claims.map fun p => marks p.1 + marks p.2 + 4).sum := by
  rw [membersCost_eq_sum, stringMembers, List.map_map]
  refine congrArg List.sum (List.map_congr_left fun p _ => ?_)
  rw [Function.comp_apply, memberCost, cost]
  dsimp only
  omega

/-- A value without quotes has two marks less. -/
theorem marks_claimMember (p : GoString × GoString) :
    marks (claimMember p) = marks p.1 + marks p.2 + if p.2.head? = some 123 then 2 else 4 := by
  have hcolon : ∀ s, marks (58 :: s) = marks s := marks_cons_of_ne (by decide) (by decide)
  have hnil : marks [] = 0 := rfl
  rw [claimMember, marks_quote, marks_append, marks_quote, hcolon, claimBody]
  split
  · omega
  · rw [marks_quote, marks_append, marks_quote, hnil]
    omega

theorem marks_membersBefore (claims : List (GoString × GoString)) :
    marks (membersBefore claims) = (claims.map fun p => marks (claimMember p)).sum := by
  induction claims with
  | nil => rfl
  | cons p claims ih =>
    have hcomma : marks [44] = 0 := by decide
    rw [membersBefore, List.flatMap_cons, marks_append, marks_append, hcomma, List.map_cons,
      List.sum_cons, ← ih]
    rfl

theorem marks_claimsText (hnames : ∀ p ∈ claims, p.1 ≠ []) :
    marks (claimsText claims) = ((valued claims).map fun p => marks (claimMember p)).sum := by
  have hbrace : ∀ s, marks (123 :: s) = marks s := marks_cons_of_ne (by decide) (by decide)
  have hend : marks [125] = 0 := by decide
  rcases claimsText_eq hnames with ⟨hnone, htext⟩ | ⟨before, p, hsome, htext⟩
  · rw [htext, hnone]
    rfl
  · rw [htext, hsome, hbrace, marks_append, marks_append, hend, marks_membersBefore,
      List.map_append, List.sum_append]
    simp

theorem rawMembers_strings (before : List (GoString × GoString)) (p : GoString × GoString)
    (hquoted : ∀ q ∈ before ++ [p], q.2.head? ≠ some 123) :
    rawMembers [] (stringMembers (before ++ [p])) = membersBefore before ++ claimMember p := by
  induction before with
  | nil =>
    have hp := hquoted p (by simp)
    simp [stringMembers, rawMembers, rawText, membersBefore, claimMember, claimBody, hp]
  | cons q before ih =>
    have hq := hquoted q (by simp)
    have hrest := ih fun r hr => hquoted r (List.mem_cons_of_mem q hr)
    have hne : stringMembers (before ++ [p]) ≠ [] := by simp [stringMembers]
    have hcons : stringMembers (q :: before ++ [p]) =
        (q.1, .str q.2) :: stringMembers (before ++ [p]) := rfl
    rw [hcons, rawMembers_cons q.1 _ hne, hrest]
    simp [rawText, membersBefore, claimMember, claimBody, hq]

theorem claimsText_raw (hnames : ∀ p ∈ claims, p.1 ≠ []) (hvalued : valued claims ≠ [])
    (hquoted : ∀ p ∈ valued claims, p.2.head? ≠ some 123) :
    claimsText claims = rawText [] (.obj (stringMembers (valued claims))) := by
  rcases claimsText_eq hnames with ⟨hnone, -⟩ | ⟨before, p, hsome, htext⟩
  · exact absurd hnone hvalued
  · rw [hsome] at hquoted ⊢
    rw [htext, rawText, rawMembers_strings before p hquoted, List.append_assoc]

/-- The object is read as the claims and nothing else. -/
def ClaimsDecoded (text : GoString) (claims : List (GoString × GoString)) : Prop :=
  ∃ v m, parseText text = some v ∧ decodeStringMap [] v = some m ∧
    ∀ k, m.get k = (valued claims).lookup k

theorem textual_strings (hnodup : (claims.map Prod.fst).Nodup)
    (hliteral : ∀ p ∈ claims, IsLiteral p.1) :
    Textual maxNestingDepth (.obj (stringMembers claims)) ∧
      (Literal maxNestingDepth (.obj (stringMembers claims)) ↔ ∀ p ∈ claims, IsLiteral p.2) := by
  have hdepth : 1 ≤ maxNestingDepth := by
    unfold maxNestingDepth
    omega
  have hone : Textual 1 (.obj (stringMembers claims)) := by
    refine ⟨?_, fun p hp => ?_⟩
    · simpa [stringMembers, Function.comp_def] using hnodup
    · obtain ⟨q, hq, rfl⟩ := List.mem_map.mp hp
      exact ⟨hliteral q hq, .inr trivial⟩
  obtain ⟨hmono, hiff⟩ := hone.mono hdepth
  refine ⟨hmono, hiff.trans ⟨fun h p hp => ?_, fun h p hp => ?_⟩⟩
  · exact h (p.1, .str p.2) (List.mem_map_of_mem hp)
  · obtain ⟨q, hq, rfl⟩ := List.mem_map.mp hp
    exact h q hq

/-- The members of a decoded object that holds the claims are kept in it. -/
theorem keeps_of_decoded {j : Json} (hne : claims ≠ [])
    (hnodup : (claims.map Prod.fst).Nodup) (hvalued : ∀ p ∈ claims, p.2 ≠ [])
    (hdecode : decodeStringMap [] j = some m) (hget : ∀ k, m.get k = claims.lookup k) :
    Keeps maxNestingDepth (.obj (stringMembers claims)) j := by
  cases j with
  | obj members =>
    refine .inl ⟨members, rfl, fun p hp => ?_⟩
    obtain ⟨q, hq, rfl⟩ := List.mem_map.mp hp
    have hlast := get_decodeStringMap hdecode q.1
    rw [hget, lookup_of_nodup hnodup hq] at hlast
    cases hmember : lastMember members q.1 with
    | none => simp [hmember, GoMap.get] at hlast
    | some j =>
      rw [hmember, Option.map_some, Option.some_or] at hlast
      cases j with
      | str t =>
        obtain rfl : q.2 = t := Option.some.inj hlast
        exact ⟨_, rfl, .inr (keeps_str _ _)⟩
      | _ => exact absurd (Option.some.inj hlast) (hvalued q hq)
  | null =>
    obtain ⟨p, claims, rfl⟩ := List.exists_cons_of_ne_nil hne
    obtain rfl := Option.some.inj hdecode
    have hp := hget p.1
    rw [lookup_of_nodup hnodup List.mem_cons_self] at hp
    simp [GoMap.get] at hp
  | _ => simp [decodeStringMap] at hdecode

/-- The claims are decoded if and only if their values are literals and none begins with a
brace. -/
theorem claimsDecoded_iff (hnodup : (claims.map Prod.fst).Nodup)
    (hnames : ∀ p ∈ claims, p.1 ≠ [] ∧ IsLiteral p.1) (hvalued : valued claims ≠ []) :
    ClaimsDecoded (claimsText claims) claims ↔
      ∀ p ∈ valued claims, IsLiteral p.2 ∧ p.2.head? ≠ some 123 := by
  have hgap : ∀ c ∈ ([] : GoString), isSpace c = true := by simp
  have hnonempty : ∀ p ∈ claims, p.1 ≠ [] := fun p hp => (hnames p hp).1
  have hvalues : ∀ p ∈ valued claims, p.2 ≠ [] := by
    intro p hp
    simpa using (List.mem_filter.mp hp).2
  have hnodup' : ((valued claims).map Prod.fst).Nodup :=
    hnodup.sublist (List.filter_sublist.map Prod.fst)
  obtain ⟨htextual, hliteral⟩ := textual_strings hnodup' fun p hp =>
    (hnames p (List.mem_of_mem_filter hp)).2
  constructor
  · intro h
    obtain ⟨v, m, hparse, hdecode, hget⟩ := h
    have hkeeps := keeps_of_decoded hvalued hnodup' hvalues hdecode hget
    have hquoted : ∀ p ∈ valued claims, p.2.head? ≠ some 123 := by
      -- the text has too few marks for a string that it has no quotes for
      intro p hp hbrace
      have hcost := hkeeps.cost_le htextual
      have hmarks := parseText_cost hparse
      rw [cost, membersCost_strings] at hcost
      rw [marks_claimsText hnonempty] at hmarks
      have hlt : ((valued claims).map fun p => marks (claimMember p)).sum <
          ((valued claims).map fun p => marks p.1 + marks p.2 + 4).sum := by
        refine List.sum_lt_sum _ _ (fun q _ => ?_) ⟨p, hp, ?_⟩
        · rw [marks_claimMember]
          split <;> omega
        · rw [marks_claimMember, if_pos hbrace]
          omega
      omega
    rw [claimsText_raw hnonempty hvalued hquoted] at hparse
    have hliterals := hliteral.mp ((parseText_keeps_iff hgap htextual).mp ⟨v, hparse, hkeeps⟩)
    exact fun p hp => ⟨hliterals p hp, hquoted p hp⟩
  · intro h
    have hparse := parseText_literal hgap htextual (hliteral.mpr fun p hp => (h p hp).1)
    rw [← claimsText_raw hnonempty hvalued fun p hp => (h p hp).2] at hparse
    obtain ⟨m, hm⟩ := decodeStringMap_strings (valued claims) []
    refine ⟨_, m, hparse, hm, fun k => ?_⟩
    rw [get_decodeStringMap hm]
    by_cases hk : ∃ p ∈ valued claims, p.1 = k
    · obtain ⟨p, hp, rfl⟩ := hk
      have hmem : (p.1, Json.str p.2) ∈ stringMembers (valued claims) :=
        List.mem_map_of_mem hp
      have hlast := lastMember_of_nodup htextual.1 hmem
      rw [lookup_of_nodup hnodup' hp, hlast]
      rfl
    · push Not at hk
      have hlast : lastMember (stringMembers (valued claims)) k = none := by
        refine lastMember_eq_none fun p hp => ?_
        obtain ⟨q, hq, rfl⟩ := List.mem_map.mp hp
        exact hk q hq
      have hlookup : (valued claims).lookup k = none :=
        List.lookup_eq_none_iff.mpr fun p hp => bne_iff_ne.mpr (hk p hp).symm
      rw [hlast, hlookup]
      rfl

end

end VissServer.Utils

import VissServer.Utils.ClaimTexts

/-!
The value that is cut out at the place where the name of a claim is found first, which may be
inside the value of another claim.
-/
namespace VissServer.Utils

open Go

section Cutting

variable {decoded claim front body rest v w : GoString} {d first last : UInt8} {i : ℕ}

theorem claimBytes_eq (hbody : 44 ∉ body) (hend : d = 44 ∨ rest = []) :
    claimBytes (body ++ d :: rest) = body := by
  have hkeep : ∀ c ∈ body, decide (c ≠ 44) = true := by
    intro c hc
    have hne : c ≠ 44 := fun heq => hbody (heq ▸ hc)
    simpa using hne
  by_cases hd : d = 44
  · subst hd
    rw [claimBytes, if_pos (by simp), List.takeWhile_append_of_pos hkeep,
      List.takeWhile_cons_of_neg (by simp), List.append_nil]
  · obtain rfl := hend.resolve_left hd
    have hcomma : 44 ∉ body ++ [d] := by simp [hbody, Ne.symm hd]
    rw [claimBytes, if_neg hcomma, List.dropLast_concat]

/-- The cut, where a comma or the end of the text is known behind the value. -/
theorem claimValue_cut (hindex : index? claim decoded = some i)
    (hfront : front.length = i + claim.length + 2)
    (hdecoded : decoded = front ++ (body ++ d :: rest)) (hbody : 44 ∉ body) (hend : d = 44 ∨ rest = [])
    (hfirst : (body ++ d :: rest).head? = some first)
    (hlast : (front ++ body).getLast? = some last) :
    claimValue decoded claim =
      slice decoded (if first = 34 then (front.length : ℤ) + 1 else front.length)
        (if last = 34 then (front.length : ℤ) + body.length - 1
          else front.length + body.length) := by
  have hstart : index decoded claim + claim.length + 2 = front.length := by
    have hindex' : index decoded claim = i := by rw [index, hindex]
    omega
  have hafter : sliceFrom decoded front.length = some (body ++ d :: rest) :=
    slice_append front [] (by simp [hdecoded]) rfl (by simp [hdecoded])
  have hlength : (decoded.length : ℤ) = front.length + (body ++ d :: rest).length := by
    rw [hdecoded, List.length_append]
    omega
  have hstop := claimEnd_eq (List.append_ne_nil_of_right_ne_nil body (List.cons_ne_nil d rest))
    (front.length : ℤ)
  rw [claimBytes_eq hbody hend, ← hlength] at hstop
  have hfirstByte : byteAt decoded front.length = some first := by
    have hbyte := byteAt_append front (body ++ d :: rest) 0
    rw [← hdecoded, ← List.head?_eq_getElem?, hfirst] at hbyte
    exact hbyte
  have hlastByte : byteAt decoded ((front.length : ℤ) + body.length - 1) = some last := by
    obtain ⟨init, hinit⟩ := List.getLast?_eq_some_iff.mp hlast
    have hcut : decoded = init ++ last :: d :: rest := by
      rw [hdecoded, ← List.append_assoc, hinit, List.append_assoc, List.singleton_append]
    have hcount := congrArg List.length hinit
    rw [List.length_append, List.length_append, List.length_singleton] at hcount
    have hplace : (front.length : ℤ) + body.length - 1 = init.length + (0 : ℕ) := by omega
    rw [hplace, hcut, byteAt_append]
    rfl
  unfold claimValue
  simp only [Option.bind_eq_bind, hstart, hafter, Option.bind_some, hstop, hlastByte, hfirstByte]

/-- A value in quotes is cut out without them. -/
theorem claimValue_quoted (hindex : index? claim decoded = some i)
    (hfront : front.length = i + claim.length + 2)
    (hdecoded : decoded = front ++ 34 :: (v ++ 34 :: d :: rest)) (hv : 44 ∉ v)
    (hend : d = 44 ∨ rest = []) : claimValue decoded claim = some v := by
  have hlast : (front ++ 34 :: (v ++ [34])).getLast? = some 34 := by
    have hinit : front ++ 34 :: (v ++ [34]) = (front ++ 34 :: v) ++ [34] := by simp
    rw [hinit, List.getLast?_concat]
  have hcut := @claimValue_cut decoded claim front (34 :: (v ++ [34])) rest d 34 34 i hindex hfront
    (by simp [hdecoded]) (by simp [hv]) hend rfl hlast
  rw [hcut, if_pos rfl, if_pos rfl]
  apply slice_append (front ++ [34]) (34 :: d :: rest)
  · simp [hdecoded]
  · simp
  · simp only [List.length_cons, List.length_append, List.length_nil]
    omega

/-- A value without its first quote. -/
theorem claimValue_bare (hindex : index? claim decoded = some i)
    (hfront : front.length = i + claim.length + 2) (hfirst : first ≠ 34)
    (hdecoded : decoded = front ++ first :: (v ++ 34 :: d :: rest)) (hv : 44 ∉ first :: v)
    (hend : d = 44 ∨ rest = []) : claimValue decoded claim = some (first :: v) := by
  have hlast : (front ++ first :: (v ++ [34])).getLast? = some 34 := by
    have hinit : front ++ first :: (v ++ [34]) = (front ++ first :: v) ++ [34] := by simp
    rw [hinit, List.getLast?_concat]
  have hcut := @claimValue_cut decoded claim front (first :: (v ++ [34])) rest d first 34 i hindex
    hfront (by simp [hdecoded]) (by simpa using hv) hend rfl hlast
  rw [hcut, if_neg hfirst, if_pos rfl]
  apply slice_append front (34 :: d :: rest)
  · simp [hdecoded]
  · rfl
  · simp only [List.length_cons, List.length_append, List.length_nil]
    omega

/-- The quote behind a value is taken for the one in front of it. -/
theorem claimValue_quote (hindex : index? claim decoded = some i)
    (hfront : front.length = i + claim.length + 2) (hdecoded : decoded = front ++ 34 :: d :: rest)
    (hend : d = 44 ∨ rest = []) : claimValue decoded claim = none := by
  have hlast : (front ++ [34]).getLast? = some 34 := List.getLast?_concat
  have hcut := @claimValue_cut decoded claim front [34] rest d 34 34 i hindex
    hfront (by simp [hdecoded]) (by decide) hend rfl hlast
  rw [hcut, if_pos rfl, if_pos rfl]
  rw [slice, if_neg]
  simp only [List.length_singleton]
  omega

/-- There is no value between a quote and the comma behind it. -/
theorem claimValue_blank (hindex : index? claim decoded = some i)
    (hfront : front.length + 1 = i + claim.length + 2) (hd : d ≠ 34)
    (hdecoded : decoded = front ++ 34 :: d :: rest) (hend : d = 44 ∨ rest = []) :
    claimValue decoded claim = none := by
  have hlast : (front ++ [34] ++ []).getLast? = some 34 := by
    rw [List.append_nil, List.getLast?_concat]
  have hcut := @claimValue_cut decoded claim (front ++ [34]) [] rest d d 34 i hindex
    (by simpa using hfront) (by simp [hdecoded]) (by simp) hend rfl hlast
  rw [hcut, if_neg hd, if_pos rfl]
  rw [slice, if_neg]
  simp only [List.length_nil]
  omega

/-- A value with a comma is cut off there. -/
theorem claimValue_comma (hindex : index? claim decoded = some i)
    (hfront : front.length = i + claim.length + 2)
    (hdecoded : decoded = front ++ 34 :: (v ++ rest)) (hv : 44 ∈ v) :
    claimValue decoded claim ≠ some v := by
  obtain ⟨a, b, rfl, ha⟩ := List.eq_append_cons_of_mem hv
  obtain ⟨last, hlast⟩ : ∃ last, (front ++ 34 :: a).getLast? = some last :=
    Option.ne_none_iff_exists'.mp (by simp)
  have hcut := @claimValue_cut decoded claim front (34 :: a) (b ++ rest) 44 34 last i hindex hfront
    (by simp [hdecoded]) (by simp [ha]) (.inl rfl) rfl hlast
  rw [hcut, if_pos rfl]
  intro heq
  have hbounds := slice_isSome_iff.mp (Option.isSome_of_eq_some heq)
  rw [slice, if_pos hbounds, Option.some.injEq] at heq
  have hlength := congrArg List.length heq
  simp only [List.length_drop, List.length_take, List.length_append, List.length_cons] at hlength
  split at hlength <;> simp only [List.length_cons] at hlength hbounds <;> omega

/-- What follows the value that the name is found in: the end of the object, or another member. -/
def FollowsValue (d : UInt8) (rest : GoString) : Prop :=
  (d = 125 ∧ rest = []) ∨ d = 44 ∧ ∃ k v e rest',
    rest = 34 :: (k ++ 34 :: 58 :: 34 :: (v ++ 34 :: e :: rest')) ∧ 44 ∉ k ∧ 44 ∉ v ∧
      (e = 44 ∨ rest' = [])

/-- A name that is found inside the value of a claim: what is two bytes behind it there is
taken for the value, and no value without quotes is cut out where nothing is. -/
theorem claimValue_inside (hindex : index? claim decoded = some (front.length + i))
    (hi : index? claim w = some i) (hdecoded : decoded = front ++ (w ++ 34 :: d :: rest))
    (hquote : 34 ∉ w) (hcomma : 44 ∉ w) (hend : FollowsValue d rest) (hv : 34 ∉ v) :
    claimValue decoded claim = some v ↔ v ≠ [] ∧ w.drop (i + claim.length + 2) = v := by
  obtain ⟨a, b, rfl, rfl⟩ := index?_split hi
  have hstop : d = 44 ∨ rest = [] := hend.symm.imp And.left And.right
  have hnothing : b.length ≤ 2 → (a ++ (claim ++ b)).drop (a.length + claim.length + 2) = [] := by
    intro hlength
    apply List.drop_eq_nil_of_le
    simp only [List.length_append]
    omega
  have hno : ∀ {P : Prop}, b.length ≤ 2 → ¬ P →
      (P ↔ v ≠ [] ∧ (a ++ (claim ++ b)).drop (a.length + claim.length + 2) = v) := by
    intro P hlength hP
    rw [hnothing hlength]
    exact iff_of_false hP fun h => h.1 h.2.symm
  cases b with
  | nil =>
    apply hno (by simp)
    rcases hend with ⟨rfl, rfl⟩ | ⟨rfl, k, v', e, rest', rfl, hk, hv', he⟩
    · have hnone := claimValue_eq_none hindex (by simp [hdecoded]; omega)
      simp [hnone]
    · have hvalue := @claimValue_quoted decoded claim (front ++ (a ++ (claim ++ []) ++ [34, 44]))
        rest' (k ++ 34 :: 58 :: 34 :: v') e _ hindex (by simp; omega) (by simp [hdecoded])
        (by simp [hk, hv']) he
      rw [hvalue, Option.some.injEq]
      rintro rfl
      exact hv (by simp)
  | cons x b =>
    cases b with
    | nil =>
      apply hno (by simp)
      have hd : d ≠ 34 := by
        rcases hend with ⟨rfl, -⟩ | ⟨rfl, -⟩ <;> decide
      have hnone := @claimValue_blank decoded claim (front ++ (a ++ (claim ++ [x]))) rest d _ hindex
        (by simp; omega) hd (by simp [hdecoded]) hstop
      simp [hnone]
    | cons y b =>
      cases b with
      | nil =>
        apply hno (by simp)
        have hnone := @claimValue_quote decoded claim (front ++ (a ++ (claim ++ [x, y]))) rest d _
          hindex (by simp; omega) (by simp [hdecoded]) hstop
        simp [hnone]
      | cons z b =>
        have hz : z ≠ 34 := by
          rintro rfl
          exact hquote (by simp)
        have hrest : 44 ∉ z :: b := fun hmem => hcomma (List.mem_append_right a
          (List.mem_append_right claim (List.mem_cons_of_mem x (List.mem_cons_of_mem y hmem))))
        have hvalue := @claimValue_bare decoded claim (front ++ (a ++ (claim ++ [x, y]))) rest b d z
          _ hindex (by simp; omega) hz (by simp [hdecoded]) hrest hstop
        have hdrop : (a ++ (claim ++ x :: y :: z :: b)).drop (a.length + claim.length + 2) =
            z :: b := by
          have hcut : a ++ (claim ++ x :: y :: z :: b) = (a ++ (claim ++ [x, y])) ++ z :: b := by
            simp
          rw [hcut]
          apply List.drop_left'
          simp only [List.length_append, List.length_cons, List.length_nil]
          omega
        rw [hvalue, hdrop, Option.some.injEq]
        constructor
        · rintro rfl
          exact ⟨List.cons_ne_nil z b, rfl⟩
        · exact And.right

end Cutting

section Searching

variable {c x : GoString} {claims before after : List (GoString × GoString)}
  {p : GoString × GoString} {i : ℕ}

/-- A name that is searched for: no single byte, and no quote in it. -/
structure SearchName (c : GoString) : Prop where
  quoteless : 34 ∉ c
  two : 2 ≤ c.length

/-- A claim in which the name is not found. -/
def FreeOf (c : GoString) (p : GoString × GoString) : Prop :=
  index? c p.1 = none ∧ index? c p.2 = none

theorem SearchName.ne_nil (hc : SearchName c) : c ≠ [] := by
  rintro rfl
  exact absurd hc.two (by decide)

theorem SearchName.not_in_byte (hc : SearchName c) (b : UInt8) : index? c [b] = none := by
  refine Option.eq_none_iff_forall_ne_some.mpr fun i hi => ?_
  obtain ⟨front, rest, heq, -⟩ := index?_split hi
  have hlength := congrArg List.length heq
  have htwo := hc.two
  simp only [List.length_singleton, List.length_append] at hlength
  omega

/-- A part up to a quote in which the name is not found. -/
theorem SearchName.index?_past (hc : SearchName c) (hx : index? c x = none) (y : GoString) :
    index? c (x ++ 34 :: y) = (index? c y).map (· + (x.length + 1)) := by
  rw [index?_separated hc.quoteless hc.ne_nil, hx, Option.none_or]

theorem SearchName.index?_found (hc : SearchName c) (hx : index? c x = some i) (y : GoString) :
    index? c (x ++ 34 :: y) = some i := by
  rw [index?_separated hc.quoteless hc.ne_nil, hx, Option.some_or]

theorem claimMember_quoted (hquoted : p.2.head? ≠ some 123) (rest : GoString) :
    claimMember p ++ rest = 34 :: (p.1 ++ 34 :: ([58] ++ 34 :: (p.2 ++ 34 :: rest))) := by
  simp [claimMember, claimBody, hquoted]

/-- The search passes over a claim in which the name is not found. -/
theorem SearchName.index?_claim (hc : SearchName c) (hquoted : p.2.head? ≠ some 123)
    (hfree : FreeOf c p) (hx : index? c x = none) (rest : GoString) :
    index? c (x ++ (claimMember p ++ rest)) =
      (index? c rest).map (· + (x ++ claimMember p).length) := by
  have hlength : (x ++ claimMember p).length = x.length + p.1.length + p.2.length + 5 := by
    have hmember := claimMember_quoted hquoted []
    rw [List.append_nil] at hmember
    rw [hmember]
    simp only [List.length_append, List.length_cons, List.length_nil]
    omega
  rw [claimMember_quoted hquoted, hc.index?_past hx, hc.index?_past hfree.1,
    hc.index?_past (hc.not_in_byte 58), hc.index?_past hfree.2, hlength]
  simp only [Option.map_map, List.length_singleton]
  congr 1
  funext j
  simp only [Function.comp_apply]
  omega

theorem SearchName.index?_membersBefore (hc : SearchName c)
    (hquoted : ∀ q ∈ before, q.2.head? ≠ some 123) (hfree : ∀ q ∈ before, FreeOf c q)
    (hx : index? c x = none) (rest : GoString) :
    index? c (x ++ (membersBefore before ++ 34 :: rest)) =
      (index? c rest).map (· + (x.length + (membersBefore before).length + 1)) := by
  induction before generalizing x with
  | nil => exact hc.index?_past hx rest
  | cons q before ih =>
    obtain ⟨hq, hbefore⟩ := List.forall_mem_cons.mp hquoted
    obtain ⟨hqfree, hbeforefree⟩ := List.forall_mem_cons.mp hfree
    have htext : membersBefore (q :: before) ++ 34 :: rest =
        claimMember q ++ ([44] ++ (membersBefore before ++ 34 :: rest)) := by
      simp [membersBefore]
    have hlength : (membersBefore (q :: before)).length =
        (claimMember q).length + 1 + (membersBefore before).length := by
      rw [membersBefore, List.flatMap_cons, List.length_append, List.length_append,
        List.length_singleton]
      rfl
    rw [htext, hc.index?_claim hq hqfree hx, ih hbefore hbeforefree (hc.not_in_byte 44),
      Option.map_map, hlength, List.length_append, List.length_singleton]
    congr 1
    funext j
    simp only [Function.comp_apply]
    omega

/-- The text in front of a name. -/
def beforeName (before : List (GoString × GoString)) : GoString :=
  [123] ++ (membersBefore before ++ [34])

theorem claimsText_name (hnames : ∀ p ∈ claims, p.1 ≠ [])
    (hvalued : valued claims = before ++ p :: after) (hp : p.2.head? ≠ some 123) :
    claimsText claims =
      [123] ++ (membersBefore before ++ 34 :: (p.1 ++ 34 :: ([58] ++ 34 :: (p.2 ++
        34 :: behind after)))) := by
  rw [claimsText_split hnames hvalued, claimMember_quoted hp]
  rfl

theorem SearchName.index?_before (hc : SearchName c)
    (hquoted : ∀ q ∈ before, q.2.head? ≠ some 123) (hfree : ∀ q ∈ before, FreeOf c q)
    (rest : GoString) :
    index? c ([123] ++ (membersBefore before ++ 34 :: rest)) =
      (index? c rest).map (· + (beforeName before).length) := by
  rw [hc.index?_membersBefore hquoted hfree (hc.not_in_byte 123)]
  congr 1
  funext j
  simp only [beforeName, List.length_append, List.length_singleton]
  omega

theorem behind_end (after : List (GoString × GoString)) :
    ∃ d rest, behind after = d :: rest ∧ (d = 44 ∨ rest = []) := by
  cases after with
  | nil => exact ⟨125, [], rfl, .inr rfl⟩
  | cons q after => exact ⟨44, _, rfl, .inl rfl⟩

theorem behind_follows (hquoted : ∀ q ∈ after, q.2.head? ≠ some 123)
    (hcomma : ∀ q ∈ after, 44 ∉ q.1 ∧ 44 ∉ q.2) :
    ∃ d rest, behind after = d :: rest ∧ FollowsValue d rest := by
  cases after with
  | nil => exact ⟨125, [], rfl, .inl ⟨rfl, rfl⟩⟩
  | cons q after =>
    obtain ⟨hkey, hvalue⟩ := hcomma q List.mem_cons_self
    obtain ⟨e, rest', hrest, hend⟩ := behind_end after
    refine ⟨44, _, rfl, .inr ⟨rfl, q.1, q.2, e, rest', ?_, hkey, hvalue, hend⟩⟩
    rw [claimMember_quoted (hquoted q List.mem_cons_self), hrest]
    rfl

theorem index?_self (hc : c ≠ []) (rest : GoString) : index? c (c ++ rest) = some 0 := by
  obtain ⟨b, c, rfl⟩ := List.exists_cons_of_ne_nil hc
  exact index?_append List.not_mem_nil c rest

end Searching

/-! ## What is extracted -/

section Extracting

variable {c v : GoString} {claims before after : List (GoString × GoString)}
  {p : GoString × GoString} {i : ℕ}

/-- The value of a claim in a payload, empty where the name is not found. -/
def payloadValue (decoded claim : GoString) : MayPanic GoString :=
  if contains decoded claim then claimValue decoded claim else some []

theorem payloadValue_found {decoded claim : GoString} (h : index? claim decoded = some i) :
    payloadValue decoded claim = claimValue decoded claim := by
  rw [payloadValue, contains, h, Option.isSome_some, if_pos rfl]

/-- A claim whose name is found first at its own place. -/
theorem payloadValue_own (hc : SearchName p.1) (hnames : ∀ p ∈ claims, p.1 ≠ [])
    (hvalued : valued claims = before ++ p :: after)
    (hquoted : ∀ q ∈ valued claims, q.2.head? ≠ some 123) (hfree : ∀ q ∈ before, FreeOf p.1 q) :
    payloadValue (claimsText claims) p.1 = some p.2 ↔ 44 ∉ p.2 := by
  rw [hvalued] at hquoted
  obtain ⟨d, rest, hbehind, hend⟩ := behind_end after
  have htext := claimsText_name hnames hvalued (hquoted p (by simp))
  have hindex : index? p.1 (claimsText claims) = some (beforeName before).length := by
    rw [htext, hc.index?_before (fun q hq => hquoted q (List.mem_append_left _ hq)) hfree,
      index?_self hc.ne_nil, Option.map_some, Nat.zero_add]
  have hdecoded : claimsText claims =
      (beforeName before ++ (p.1 ++ [34, 58])) ++ 34 :: (p.2 ++ 34 :: d :: rest) := by
    rw [htext, hbehind]
    simp [beforeName]
  have hfront : (beforeName before ++ (p.1 ++ [34, 58])).length =
      (beforeName before).length + p.1.length + 2 := by
    simp only [List.length_append, List.length_cons, List.length_nil]
    omega
  rw [payloadValue_found hindex]
  constructor
  · intro hvalue hcomma
    exact claimValue_comma hindex hfront hdecoded hcomma hvalue
  · intro hcomma
    exact claimValue_quoted hindex hfront hdecoded hcomma hend

/-- A claim whose name is found first in the value of another one. -/
theorem payloadValue_other (hc : SearchName c) (hnames : ∀ p ∈ claims, p.1 ≠ [])
    (hvalued : valued claims = before ++ p :: after)
    (hquoted : ∀ q ∈ valued claims, q.2.head? ≠ some 123) (hfree : ∀ q ∈ before, FreeOf c q)
    (hname : index? c p.1 = none) (hi : index? c p.2 = some i) (hquote : 34 ∉ p.2)
    (hcomma : ∀ q ∈ p :: after, 44 ∉ q.1 ∧ 44 ∉ q.2) (hv : 34 ∉ v) :
    payloadValue (claimsText claims) c = some v ↔ v ≠ [] ∧ p.2.drop (i + c.length + 2) = v := by
  rw [hvalued] at hquoted
  obtain ⟨hp, hafter⟩ := List.forall_mem_cons.mp hcomma
  obtain ⟨d, rest, hbehind, hend⟩ := behind_follows (fun q hq => hquoted q (by simp [hq])) hafter
  have htext := claimsText_name hnames hvalued (hquoted p (by simp))
  have hindex : index? c (claimsText claims) =
      some ((beforeName before ++ (p.1 ++ [34, 58, 34])).length + i) := by
    rw [htext, hc.index?_before (fun q hq => hquoted q (List.mem_append_left _ hq)) hfree,
      hc.index?_past hname, hc.index?_past (hc.not_in_byte 58), hc.index?_found hi,
      Option.map_some, Option.map_some, Option.map_some]
    congr 1
    simp only [List.length_append, List.length_cons, List.length_nil]
    omega
  have hdecoded : claimsText claims =
      (beforeName before ++ (p.1 ++ [34, 58, 34])) ++ (p.2 ++ 34 :: d :: rest) := by
    rw [htext, hbehind]
    simp [beforeName]
  rw [payloadValue_found hindex]
  exact claimValue_inside hindex hi hdecoded hquote hp.2 hend hv

/-- A name that is in none of the claims. -/
theorem payloadValue_none (hc : SearchName c) (hnames : ∀ p ∈ claims, p.1 ≠ [])
    (hquoted : ∀ q ∈ valued claims, q.2.head? ≠ some 123)
    (hfree : ∀ q ∈ valued claims, FreeOf c q) :
    payloadValue (claimsText claims) c = some [] := by
  suffices hcontains : contains (claimsText claims) c = false by
    rw [payloadValue, hcontains]
    rfl
  rcases List.eq_nil_or_concat (valued claims) with hnone | ⟨before, p, hsome⟩
  · rcases claimsText_eq hnames with ⟨-, htext⟩ | ⟨before, p, hsome, -⟩
    · rw [contains, htext, index?, if_neg hc.ne_nil]
      rfl
    · simp [hsome] at hnone
  · rw [List.concat_eq_append] at hsome
    have htext := claimsText_name hnames hsome (hquoted p (by simp [hsome]))
    rw [hsome] at hquoted hfree
    obtain ⟨hname, hvalue⟩ := hfree p (by simp)
    rw [contains, htext, hc.index?_before (fun q hq => hquoted q (List.mem_append_left _ hq))
      (fun q hq => hfree q (List.mem_append_left _ hq)), hc.index?_past hname,
      hc.index?_past (hc.not_in_byte 58), hc.index?_past hvalue, behind, hc.not_in_byte 125]
    rfl

end Extracting

end VissServer.Utils

import Mathlib.Data.List.Infix
import Mathlib.Algebra.Order.BigOperators.Group.List
import Mathlib.Algebra.Order.Group.Nat
import VissServer.Go.JsonLiterals

/-!
How many quotes and backslashes a JSON text must have for what is read from it. Each string
takes two quotes, and each quote or backslash in a string takes one in the text.
-/
namespace VissServer.Go

/-- The number of quotes and backslashes. -/
def marks (s : GoString) : ℕ := s.countP fun c => c = 34 || c = 92

theorem marks_append (s t : GoString) : marks (s ++ t) = marks s + marks t :=
  List.countP_append

theorem marks_quote (s : GoString) : marks (34 :: s) = marks s + 1 :=
  List.countP_cons_of_pos (by decide)

theorem marks_cons_of_ne {c : UInt8} (hquote : c ≠ 34) (hslash : c ≠ 92) (s : GoString) :
    marks (c :: s) = marks s :=
  List.countP_cons_of_neg (by simp [hquote, hslash])

theorem marks_le_of_suffix {s t : GoString} (h : s <:+ t) : marks s ≤ marks t :=
  h.sublist.countP_le

theorem IsRune.marks_le {seg : GoString} (h : IsRune seg) : marks seg ≤ 1 := by
  rcases h.cases_head with ⟨a, -, rfl⟩ | hhigh
  · exact List.countP_le_length
  · have hnone : marks seg = 0 := by
      refine List.countP_eq_zero.mpr fun c hc hmark => ?_
      have hc' := hhigh c hc
      simp only [Bool.or_eq_true, decide_eq_true_eq] at hmark
      rcases hmark with rfl | rfl
      · exact absurd hc' (by decide)
      · exact absurd hc' (by decide)
    omega

theorem IsLiteral.marks_eq_zero {s : GoString} (h : IsLiteral s) : marks s = 0 := by
  refine List.countP_eq_zero.mpr fun c hc hmark => ?_
  simp only [Bool.or_eq_true, decide_eq_true_eq] at hmark
  exact hmark.elim (h.bytes c hc).2.1 (h.bytes c hc).2.2

theorem skipSpace_suffix (s : GoString) : skipSpace s <:+ s := List.dropWhile_suffix _

theorem expect_suffix {c : UInt8} {s rest : GoString} (h : expect c s = some rest) :
    rest <:+ s := by
  rw [expect_some h]
  exact List.suffix_cons c rest

theorem hex4_suffix {s r : GoString} {n : ℕ} (h : hex4 s = some (n, r)) : r <:+ s := by
  unfold hex4 at h
  split at h
  · next a b c d t =>
    simp only [Option.bind_eq_bind, Option.bind_eq_some_iff, Option.some.injEq,
      Prod.mk.injEq] at h
    obtain ⟨w, -, x, -, y, -, z, -, -, rfl⟩ := h
    exact ⟨[a, b, c, d], rfl⟩
  · simp at h

theorem lowSurrogate_suffix {s r : GoString} {n : ℕ} (h : lowSurrogate s = some (n, r)) :
    r <:+ s := by
  simp only [lowSurrogate, Option.bind_eq_bind, Option.bind_eq_some_iff] at h
  obtain ⟨t, hslash, t', hu, ⟨n', r'⟩, hhex, h⟩ := h
  split at h
  · obtain ⟨-, rfl⟩ := Prod.mk.inj (Option.some.inj h)
    exact ((hex4_suffix hhex).trans (expect_suffix hu)).trans (expect_suffix hslash)
  · simp at h

theorem unicodeEscape_suffix {s t r : GoString} (h : unicodeEscape s = some (t, r)) :
    r <:+ s := by
  simp only [unicodeEscape, Option.bind_eq_bind, Option.bind_eq_some_iff] at h
  obtain ⟨⟨n, r'⟩, hhex, h⟩ := h
  have hsuffix := hex4_suffix hhex
  split at h
  · split at h
    · next low r₂ hlow =>
      obtain ⟨-, rfl⟩ := Prod.mk.inj (Option.some.inj h)
      exact (lowSurrogate_suffix hlow).trans hsuffix
    · obtain ⟨-, rfl⟩ := Prod.mk.inj (Option.some.inj h)
      exact hsuffix
  · obtain ⟨-, rfl⟩ := Prod.mk.inj (Option.some.inj h)
    exact hsuffix

theorem escape_suffix {s t r : GoString} (h : escape s = some (t, r)) : r <:+ s := by
  cases s with
  | nil => simp [escape] at h
  | cons c s =>
    rw [escape] at h
    repeat' split at h
    all_goals first
      | exact (unicodeEscape_suffix h).trans (List.suffix_cons c s)
      | (obtain ⟨-, rfl⟩ := Prod.mk.inj (Option.some.inj h); exact List.suffix_cons c s)
      | simp at h

theorem readChar_marks {s t r : GoString} (h : readChar s = some (t, r)) :
    marks t + marks r ≤ marks s := by
  cases s with
  | nil => simp [readChar] at h
  | cons c s =>
    rw [readChar] at h
    split at h
    · next hslash =>
      have hrune := (escape_isRune h).marks_le
      have hrest := marks_le_of_suffix (escape_suffix h)
      have hone : marks (c :: s) = marks s + 1 := List.countP_cons_of_pos (by simp [hslash])
      omega
    · split at h
      · simp at h
      · split at h
        · obtain ⟨rfl, rfl⟩ := Prod.mk.inj (Option.some.inj h)
          have hnone : marks replacementChar = 0 := by decide
          have hle := marks_le_of_suffix (List.suffix_cons c s)
          omega
        · obtain ⟨rfl, rfl⟩ := Prod.mk.inj (Option.some.inj h)
          rw [← marks_append, List.take_append_drop]

/-- The closing quote, and what the string and the rest of the text have. -/
theorem readString_marks {n : ℕ} {s w r : GoString} (h : readString n s = some (w, r)) :
    marks w + marks r + 1 ≤ marks s := by
  induction n generalizing s w with
  | zero => simp [readString] at h
  | succ n ih =>
    unfold readString at h
    split at h
    · next hquote =>
      obtain ⟨rfl, rfl⟩ := Prod.mk.inj (Option.some.inj h)
      rw [expect_some hquote, marks_quote, marks, List.countP_nil]
      omega
    · simp only [Option.bind_eq_bind, Option.bind_eq_some_iff, Option.some.injEq,
        Prod.mk.injEq] at h
      obtain ⟨⟨t, s'⟩, hchar, ⟨w', s''⟩, hstring, rfl, rfl⟩ := h
      have hchar' := readChar_marks hchar
      have hstring' := ih hstring
      dsimp only at hstring' ⊢
      rw [marks_append]
      omega

mutual

/-- The marks that the strings of a value take in a text, member names among them. -/
def cost : Json → ℕ
  | .str w => marks w + 2
  | .arr items => itemsCost items
  | .obj members => membersCost members
  | _ => 0

def itemsCost : List Json → ℕ
  | [] => 0
  | j :: items => cost j + itemsCost items

def membersCost : List (GoString × Json) → ℕ
  | [] => 0
  | (k, j) :: members => marks k + 2 + cost j + membersCost members

end

def memberCost (p : GoString × Json) : ℕ := marks p.1 + 2 + cost p.2

theorem membersCost_cons (p : GoString × Json) (members : List (GoString × Json)) :
    membersCost (p :: members) = memberCost p + membersCost members := rfl

theorem membersCost_eq_sum (members : List (GoString × Json)) :
    membersCost members = (members.map memberCost).sum := by
  induction members with
  | nil => rfl
  | cons p members ih => rw [membersCost_cons, ih, List.map_cons, List.sum_cons]

theorem itemsCost_eq_sum (items : List Json) : itemsCost items = (items.map cost).sum := by
  induction items with
  | nil => rfl
  | cons j items ih => rw [itemsCost, ih, List.map_cons, List.sum_cons]

/-- A parser of values that finds their marks in the text. -/
def Charges (value : GoString → Option (Json × GoString)) : Prop :=
  ∀ s v r, value s = some (v, r) → cost v + marks r ≤ marks s

theorem parseScalar_charges : Charges parseScalar := by
  intro s v r h
  unfold parseScalar at h
  split at h
  · next rest hquote =>
    obtain ⟨⟨w, r'⟩, hstring, heq⟩ := Option.map_eq_some_iff.mp h
    obtain ⟨rfl, rfl⟩ := Prod.mk.inj heq
    have hmarks := readString_marks hstring
    rw [expect_some hquote, marks_quote]
    dsimp only [cost]
    omega
  · have hdrop : ∀ n, marks (s.drop n) ≤ marks s := fun n =>
      marks_le_of_suffix (List.drop_suffix n s)
    split at h
    · obtain ⟨rfl, rfl⟩ := Prod.mk.inj (Option.some.inj h)
      exact Nat.le_trans (by simp [cost]) (hdrop 4)
    · split at h
      · obtain ⟨rfl, rfl⟩ := Prod.mk.inj (Option.some.inj h)
        exact Nat.le_trans (by simp [cost]) (hdrop 5)
      · split at h
        · obtain ⟨rfl, rfl⟩ := Prod.mk.inj (Option.some.inj h)
          exact Nat.le_trans (by simp [cost]) (hdrop 4)
        · obtain ⟨rest, hnumber, heq⟩ := Option.map_eq_some_iff.mp h
          obtain ⟨rfl, rfl⟩ := Prod.mk.inj heq
          obtain ⟨lit, hlit, -⟩ := afterNumber_numeral hnumber
          have hle := marks_le_of_suffix (⟨lit, hlit.symm⟩ : rest <:+ s)
          simpa [cost] using hle

theorem marks_skipSpace (s : GoString) : marks (skipSpace s) ≤ marks s :=
  marks_le_of_suffix (skipSpace_suffix s)

theorem marks_expect {c : UInt8} {s rest : GoString} (h : expect c (skipSpace s) = some rest) :
    marks rest ≤ marks s :=
  Nat.le_trans (marks_le_of_suffix (expect_suffix h)) (marks_skipSpace s)

section Containers

variable {value : GoString → Option (Json × GoString)}

theorem readItems_charges (hvalue : Charges value) {n : ℕ} {s r : GoString} {items : List Json}
    (h : readItems value n s = some (items, r)) :
    itemsCost items + marks r ≤ marks s := by
  replace h := readItems_sound h
  induction h with
  | @last s _ _ _ hv hend =>
    have hfirst := hvalue _ _ _ hv
    have hspace := marks_skipSpace s
    have hbracket := marks_expect hend
    simp only [itemsCost]
    omega
  | @next s _ _ _ _ _ hv hnext _ ih =>
    have hfirst := hvalue _ _ _ hv
    have hspace := marks_skipSpace s
    have hcomma := marks_expect hnext
    rw [itemsCost]
    omega

theorem readArray_charges (hvalue : Charges value) {s r : GoString} {items : List Json}
    (h : readArray value s = some (items, r)) : cost (.arr items) + marks r ≤ marks s := by
  unfold readArray at h
  split at h
  · next hend =>
    obtain ⟨rfl, rfl⟩ := Prod.mk.inj (Option.some.inj h)
    have hbracket := marks_expect hend
    simpa [cost, itemsCost] using hbracket
  · exact readItems_charges hvalue h

/-- The marks of a member. -/
theorem readMember_charges (hvalue : Charges value) {s k r s₁ s₂ s₃ : GoString} {v : Json}
    (h : ReadMember value s k v r s₁ s₂ s₃) : memberCost (k, v) + marks r ≤ marks s := by
  have hopen : marks s₁ + 1 ≤ marks s := by
    have hspace := marks_skipSpace s
    rw [expect_some h.quote, marks_quote] at hspace
    exact hspace
  have hname := readString_marks h.key
  have hcolon := marks_expect h.colon
  have hfirst := hvalue _ _ _ h.value
  have hspace := marks_skipSpace s₃
  rw [memberCost]
  dsimp only at hcolon ⊢
  omega

theorem readMembers_charges (hvalue : Charges value) {n : ℕ} {s r : GoString}
    {members : List (GoString × Json)} (h : readMembers value n s = some (members, r)) :
    membersCost members + marks r ≤ marks s := by
  replace h := readMembers_sound h
  induction h with
  | last hmember hend =>
    have hfirst := readMember_charges hvalue hmember
    have hbrace := marks_expect hend
    rw [membersCost_cons]
    simp only [membersCost]
    omega
  | next hmember hnext _ ih =>
    have hfirst := readMember_charges hvalue hmember
    have hcomma := marks_expect hnext
    rw [membersCost_cons]
    omega

theorem readObject_charges (hvalue : Charges value) {s r : GoString}
    {members : List (GoString × Json)} (h : readObject value s = some (members, r)) :
    cost (.obj members) + marks r ≤ marks s := by
  unfold readObject at h
  split at h
  · next hend =>
    obtain ⟨rfl, rfl⟩ := Prod.mk.inj (Option.some.inj h)
    have hbrace := marks_expect hend
    simpa [cost, membersCost] using hbrace
  · exact readMembers_charges hvalue h

end Containers

/-- A value that is read from a text has its marks there. -/
theorem parseValue_charges (depth : ℕ) : Charges (parseValue depth) := by
  induction depth with
  | zero =>
    intro s v r h
    rw [parseValue] at h
    split at h
    · simp at h
    · exact parseScalar_charges s v r h
  | succ depth ih =>
    intro s v r h
    rw [parseValue] at h
    cases hbrace : expect 123 s with
    | some rest =>
      simp only [hbrace] at h
      obtain ⟨⟨members, r'⟩, hobject, heq⟩ := Option.map_eq_some_iff.mp h
      obtain ⟨rfl, rfl⟩ := Prod.mk.inj heq
      have hrest := readObject_charges ih hobject
      have hle := marks_le_of_suffix (expect_suffix hbrace)
      dsimp only
      omega
    | none =>
      simp only [hbrace] at h
      cases hbracket : expect 91 s with
      | some rest =>
        simp only [hbracket] at h
        obtain ⟨⟨items, r'⟩, harray, heq⟩ := Option.map_eq_some_iff.mp h
        obtain ⟨rfl, rfl⟩ := Prod.mk.inj heq
        have hrest := readArray_charges ih harray
        have hle := marks_le_of_suffix (expect_suffix hbracket)
        dsimp only
        omega
      | none =>
        simp only [hbracket] at h
        exact parseScalar_charges s v r h

section LastMember

variable {members : List (GoString × Json)} {k : GoString} {v : Json}

theorem lastMember_cons (p : GoString × Json) (members : List (GoString × Json)) (k : GoString) :
    lastMember (p :: members) k =
      (lastMember members k).or (if k = p.1 then some p.2 else none) := by
  have happend := lastMember_append [p] members k
  rw [List.singleton_append] at happend
  have hsingle : lastMember [p] k = if k = p.1 then some p.2 else none := by
    rw [lastMember, List.reverse_singleton, GoMap.lookup_cons_if]
    rfl
  rw [happend, hsingle]

theorem lastMember_filter {k' : GoString} (hk : k' ≠ k) (members : List (GoString × Json)) :
    lastMember (members.filter fun p => p.1 ≠ k) k' = lastMember members k' := by
  induction members with
  | nil => rfl
  | cons p members ih =>
    by_cases hp : p.1 = k
    · rw [List.filter_cons_of_neg (by simp [hp]), ih, lastMember_cons, if_neg (hp ▸ hk),
        Option.or_none]
    · rw [List.filter_cons_of_pos (by simp [hp]), lastMember_cons, lastMember_cons, ih]

theorem memberCost_le (h : lastMember members k = some v) :
    memberCost (k, v) + membersCost (members.filter fun p => p.1 ≠ k) ≤ membersCost members := by
  induction members with
  | nil => simp [lastMember] at h
  | cons p members ih =>
    have hle : membersCost (members.filter fun p => p.1 ≠ k) ≤ membersCost members := by
      rw [membersCost_eq_sum, membersCost_eq_sum]
      exact (List.filter_sublist.map memberCost).sum_le_sum fun _ _ => Nat.zero_le _
    rw [lastMember_cons] at h
    by_cases hp : p.1 = k
    · rw [List.filter_cons_of_neg (by simp [hp]), membersCost_cons]
      cases hlast : lastMember members k with
      | some v' =>
        rw [hlast, Option.some_or] at h
        obtain rfl := Option.some.inj h
        exact Nat.le_trans (ih hlast) (Nat.le_add_left _ _)
      | none =>
        rw [hlast, Option.none_or, if_pos hp.symm] at h
        obtain rfl := Option.some.inj h
        rw [← hp] at hle ⊢
        exact Nat.add_le_add_left hle _
    · rw [if_neg (Ne.symm hp), Option.or_none] at h
      have hrest := ih h
      rw [List.filter_cons_of_pos (by simp [hp]), membersCost_cons, membersCost_cons]
      omega

/-- Members under different names, for each of which one that costs as much is kept. -/
theorem membersCost_le_of_kept {needed : List (GoString × Json)}
    (hnodup : (needed.map Prod.fst).Nodup)
    (h : ∀ p ∈ needed, ∃ v, lastMember members p.1 = some v ∧ cost p.2 ≤ cost v) :
    membersCost needed ≤ membersCost members := by
  induction needed generalizing members with
  | nil => exact Nat.zero_le _
  | cons p needed ih =>
    obtain ⟨⟨v, hlast, hcost⟩, hneeded⟩ := List.forall_mem_cons.mp h
    rw [List.map_cons, List.nodup_cons] at hnodup
    have hfirst := memberCost_le hlast
    have hrest := @ih (members.filter fun q => q.1 ≠ p.1) hnodup.2 fun q hq => by
      have hne : q.1 ≠ p.1 := fun heq => hnodup.1 (heq ▸ List.mem_map_of_mem hq)
      rw [lastMember_filter hne]
      exact hneeded q hq
    rw [memberCost] at hfirst
    rw [membersCost_cons, memberCost]
    dsimp only at hfirst
    omega

/-- Members that are kept under different names, all taken from the text. -/
theorem membersCost_le {needed : List (GoString × Json)}
    (hnodup : (needed.map Prod.fst).Nodup)
    (h : ∀ p ∈ needed, lastMember members p.1 = some p.2) :
    membersCost needed ≤ membersCost members :=
  membersCost_le_of_kept hnodup fun p hp => ⟨p.2, h p hp, le_rfl⟩

theorem lastMember_tail {p : GoString × Json} (h : lastMember (p :: members) k = some v)
    (hp : k = p.1 → p.2 ≠ v) : lastMember members k = some v := by
  rw [lastMember_cons] at h
  cases hlast : lastMember members k with
  | some v' =>
    rw [hlast, Option.some_or] at h
    exact h
  | none =>
    rw [hlast, Option.none_or] at h
    split at h
    · next heq => exact absurd (Option.some.inj h) (hp heq)
    · simp at h

theorem lastMember_of_ne {k' : GoString} {v' : Json} (hk : k ≠ k')
    (h : lastMember ((k', v') :: members) k = some v) : lastMember members k = some v :=
  lastMember_tail h fun heq => absurd heq hk

theorem marks_memberText (k v rest : GoString) :
    marks (memberText k v rest) = marks k + marks v + 4 + marks rest := by
  have hcolon : ∀ s, marks (58 :: s) = marks s := marks_cons_of_ne (by decide) (by decide)
  rw [memberText, marks_quote, marks_append, marks_quote, hcolon, marks_quote, marks_append,
    marks_quote]
  omega

/-- The first member of a text is the one that is kept under its name, where the text has no
marks for another member beside those that are needed. Its value is then a literal. -/
theorem readMembers_kept {depth n : ℕ} {w rest r : GoString} {c : UInt8} (hk : IsLiteral k)
    (hspace : isSpace c = false) (hcomma : c ≠ 44) (hbrace : c ≠ 125)
    (h : readMembers (parseValue depth) n (memberText k w (44 :: 34 :: c :: rest)) =
      some (members, r))
    (hlast : lastMember members k = some (.str w)) (needed : List (GoString × Json))
    (hnodup : (k :: needed.map Prod.fst).Nodup)
    (hneeded : ∀ p ∈ needed, lastMember members p.1 = some p.2)
    (hmarks : marks (memberText k w (44 :: 34 :: c :: rest)) <
      marks k + 4 + (memberCost (k, .str w) + membersCost needed)) :
    ∃ n' members', members = (k, .str w) :: members' ∧ IsLiteral w ∧
      readMembers (parseValue depth) n' (34 :: c :: rest) = some (members', r) := by
  cases n with
  | zero => simp [readMembers] at h
  | succ n =>
    have hcharges := readMembers_charges (parseValue_charges depth) h
    obtain ⟨w', members', rfl, hexact⟩ := readMembers_exact hk hspace hcomma hbrace h
    by_cases hw : w' = w
    · subst hw
      obtain ⟨hlit, hrest⟩ := hexact rfl
      exact ⟨n, members', rfl, hlit, hrest⟩
    · -- the value is kept from a later member of the same name
      exfalso
      have hlater : membersCost ((k, .str w) :: needed) ≤ membersCost members' := by
        refine membersCost_le hnodup fun p hp => ?_
        rcases List.mem_cons.mp hp with rfl | hp
        · exact lastMember_tail hlast fun _ heq => hw (Json.str.inj heq)
        · refine lastMember_tail (hneeded p hp) fun heq => ?_
          have hmem : p.1 ∈ needed.map Prod.fst := List.mem_map_of_mem hp
          rw [show p.1 = k from heq] at hmem
          exact absurd hmem (List.nodup_cons.mp hnodup).1
      have hfirst : marks k + 4 ≤ memberCost (k, .str w') := by
        simp only [memberCost, cost]
        omega
      rw [membersCost_cons] at hcharges hlater
      omega

end LastMember

end VissServer.Go

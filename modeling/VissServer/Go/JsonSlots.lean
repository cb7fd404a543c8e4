import VissServer.Go.JsonTexts

/-!
JSON objects that are written by hand: the names of their members are fixed, and strings are put
between quotes as they are. Such a text means what was put into it if and only if each of these
strings is a literal.
-/
namespace VissServer.Go

/-- What is put into a text for a member: a string between quotes, or a value by a text from
which another value may be read. -/
inductive Slot
  | string (s : GoString)
  | value (text : GoString) (read v : Json)

def Slot.text : Slot → GoString
  | .string s => 34 :: (s ++ [34])
  | .value text _ _ => text

def Slot.json : Slot → Json
  | .string s => .str s
  | .value _ _ v => v

/-- What is read is what was put in. -/
def Slot.Exact : Slot → Prop
  | .string s => IsLiteral s
  | .value _ read v => read = v

/-- A member, with the white space behind its colon. -/
structure SlotMember where
  name : GoString
  space : GoString := []
  slot : Slot

namespace SlotMember

/-- The text of a member in front of another text. -/
def text (p : SlotMember) (rest : GoString) : GoString :=
  34 :: (p.name ++ 34 :: 58 :: (p.space ++ (p.slot.text ++ rest)))

def member (p : SlotMember) : GoString × Json := (p.name, p.slot.json)

end SlotMember

def slotsText : List SlotMember → GoString
  | [] => [125]
  | [p] => p.text [125]
  | p :: members => p.text (44 :: 32 :: slotsText members)

def objectText (members : List SlotMember) : GoString := 123 :: slotsText members

/-- The text of a value that is read back whatever follows it. -/
structure Solid (depth : ℕ) (text : GoString) (v : Json) : Prop where
  space : ∀ rest, skipSpace (text ++ rest) = text ++ rest
  value : ∀ rest, NotHead continuesNumber rest → parseValue depth (text ++ rest) = some (v, rest)

/-- The parts of a member that are fixed. -/
structure SlotMember.Fixed (depth : ℕ) (p : SlotMember) : Prop where
  name : IsLiteral p.name
  head : ∃ c t, p.name = c :: t ∧ isSpace c = false ∧ c ≠ 44 ∧ c ≠ 125
  space : ∀ c ∈ p.space, isSpace c = true
  solid : ∀ text read v, p.slot = .value text read v → Solid depth text read

/-- The text can stand as the name of a member. -/
def isName (name : GoString) : Bool :=
  name.all isPlain && name ≠ [] && name.head?.all fun c => !isSpace c && c ≠ 44 && c ≠ 125

theorem SlotMember.fixed_of_isName {depth : ℕ} {p : SlotMember} (hname : isName p.name = true)
    (hspace : p.space.all isSpace = true)
    (hsolid : ∀ text read v, p.slot = .value text read v → Solid depth text read) :
    p.Fixed depth := by
  simp only [isName, Bool.and_eq_true, decide_eq_true_eq] at hname
  obtain ⟨⟨hplain, hne⟩, hhead⟩ := hname
  refine ⟨isLiteral_of_all hplain, ?_, List.all_eq_true.mp hspace, hsolid⟩
  obtain ⟨c, t, htext⟩ := List.exists_cons_of_ne_nil hne
  rw [htext] at hhead
  exact ⟨c, t, htext, by simpa [and_assoc] using hhead⟩

/-- A printed value is read back whatever follows it. -/
theorem solid_marshal {depth : ℕ} {v : Json} (h : Printable depth v) :
    Solid depth (marshal v) (sanitize v) where
  space := skipSpace_marshal h
  value _ hrest := parseValue_marshal h hrest

section Slots

variable {depth n : ℕ} {p : SlotMember} {members : List SlotMember} {s w r rest : GoString}

/-- More fuel does not change what is read. -/
theorem readString_mono {m : ℕ} (h : readString n s = some (w, r)) (hnm : n ≤ m) :
    readString m s = some (w, r) := by
  induction n generalizing m s w with
  | zero => simp [readString] at h
  | succ n ih =>
    obtain ⟨m, rfl⟩ := Nat.exists_eq_succ_of_ne_zero (show m ≠ 0 by omega)
    rw [readString] at h ⊢
    cases hexpect : expect 34 s with
    | some rest =>
      rw [hexpect] at h
      exact h
    | none =>
      rw [hexpect] at h
      simp only [Option.bind_eq_bind, Option.bind_eq_some_iff] at h ⊢
      obtain ⟨⟨c, rest⟩, hchar, ⟨t, rest'⟩, hstring, heq⟩ := h
      obtain ⟨rfl, rfl⟩ := Prod.mk.inj (Option.some.inj heq)
      exact ⟨(c, rest), hchar, (t, rest'), ih hstring (by omega), rfl⟩

theorem readString_literal_eq (hs : IsLiteral s)
    (h : readString n (s ++ 34 :: rest) = some (w, r)) : w = s ∧ r = rest := by
  have hread := readString_literal hs (show s.length < n + (s.length + 1) by omega) rest
  rw [readString_mono h (by omega)] at hread
  exact Prod.mk.inj (Option.some.inj hread)

theorem readString_brace (n : ℕ) : readString n [125] = none := by
  match n with
  | 0 => rfl
  | 1 => rfl
  | n + 2 => rfl

/-- A string that is read as it was put between quotes is a literal, or the quote behind it is
read as a part of it. -/
theorem readString_same (h : readString n (s ++ 34 :: rest) = some (s, r)) :
    (IsLiteral s ∧ r = rest) ∨ ∃ n' w', readString n' rest = some (w', r) := by
  rcases readString_split (readString_valid h) h with ⟨hlit, -, hr⟩ | hshort | hswallow
  · exact .inl ⟨hlit, hr⟩
  · exact absurd hshort (Nat.lt_irrefl _)
  · exact .inr hswallow

/-! ## One member -/

/-- The step of readMembers behind the value of a member. -/
def readNext (value : GoString → Option (Json × GoString)) (n : ℕ) (k : GoString)
    (v : Json × GoString) : Option (List (GoString × Json) × GoString) :=
  match expect 44 (skipSpace v.2) with
  | some rest => (readMembers value n rest).map fun q => ((k, v.1) :: q.1, q.2)
  | none => (expect 125 (skipSpace v.2)).map fun rest => ([(k, v.1)], rest)

section Next

variable {value : GoString → Option (Json × GoString)} {k : GoString} {v : Json}
variable {found : List (GoString × Json)}

theorem readNext_comma (rest : GoString) :
    readNext value n k (v, 44 :: rest) =
      (readMembers value n rest).map fun q => ((k, v) :: q.1, q.2) := by
  rw [readNext, skipSpace_of_head (show isSpace 44 = false from rfl), expect_self]

theorem readNext_brace (rest : GoString) :
    readNext value n k (v, 125 :: rest) = some ([(k, v)], rest) := by
  rw [readNext, skipSpace_of_head (show isSpace 125 = false from rfl),
    expect_of_ne (show (125 : UInt8) ≠ 44 by decide), expect_self]
  rfl

theorem readNext_other {c : UInt8} (hspace : isSpace c = false) (hcomma : c ≠ 44)
    (hbrace : c ≠ 125) (rest : GoString) : readNext value n k (v, c :: rest) = none := by
  rw [readNext, skipSpace_of_head hspace, expect_of_ne hcomma, expect_of_ne hbrace]
  rfl

theorem readNext_head {v : Json × GoString} (h : readNext value n k v = some (found, r)) :
    ∃ more, found = (k, v.1) :: more := by
  unfold readNext at h
  split at h
  · obtain ⟨q, -, heq⟩ := Option.map_eq_some_iff.mp h
    exact ⟨q.1, (Prod.mk.inj heq).1.symm⟩
  · obtain ⟨r', -, heq⟩ := Option.map_eq_some_iff.mp h
    exact ⟨[], (Prod.mk.inj heq).1.symm⟩

end Next

/-- How the member in front is read. -/
theorem readMembers_slot (hp : p.Fixed depth) (rest : GoString) :
    readMembers (parseValue depth) (n + 1) (p.text rest) =
      (parseValue depth (p.slot.text ++ rest)).bind
        (readNext (parseValue depth) n p.name) := by
  have hspace : skipSpace (p.slot.text ++ rest) = p.slot.text ++ rest := by
    cases hslot : p.slot with
    | string s => exact skipSpace_of_head (show isSpace 34 = false from rfl) _
    | value text read v => exact (hp.solid text read v hslot).space rest
  rw [SlotMember.text, readMembers_named hp.name, skipSpace_append hp.space, hspace]
  rfl

/-- The value of a member is read as it was put in. -/
theorem SlotMember.Fixed.read (hp : p.Fixed depth) (hexact : p.slot.Exact)
    (hrest : NotHead continuesNumber rest) :
    parseValue depth (p.slot.text ++ rest) = some (p.slot.json, rest) := by
  cases hslot : p.slot with
  | string s =>
    rw [hslot] at hexact
    rw [Slot.text, List.cons_append, List.append_assoc, List.singleton_append, parseValue_quoted,
      readString_literal hexact (by rw [List.length_append, List.length_cons]; omega)]
    rfl
  | value text read v =>
    rw [hslot, Slot.Exact] at hexact
    rw [Slot.text, (hp.solid text read v hslot).value _ hrest, hexact, Slot.json]

/-- A text behind a string that shows where the string has ended: its first quote ends no member
of an object. -/
def EndsString (rest : GoString) : Prop :=
  ∀ (value : GoString → Option (Json × GoString)) (n n' : ℕ) (k w r : GoString) (v : Json),
    readString n' rest = some (w, r) → readNext value n k (v, r) = none

theorem endsString_brace : EndsString [125] := by
  intro value n n' k w r v h
  rw [readString_brace] at h
  cases h

theorem endsString_comma {c : UInt8} (hspace : isSpace c = false) (hcomma : c ≠ 44)
    (hbrace : c ≠ 125) (rest : GoString) : EndsString (44 :: 32 :: 34 :: c :: rest) := by
  intro value n n' k w r v h
  have hlit : IsLiteral [44, 32] := isLiteral_of_all (by decide)
  obtain ⟨-, rfl⟩ := readString_literal_eq hlit h
  exact readNext_other hspace hcomma hbrace rest

/-- A member is read as it was put into a text where its string is a literal. -/
theorem readMembers_slot_iff (hp : p.Fixed depth) (hrest : EndsString rest)
    (hnumber : NotHead continuesNumber rest) {found : List (GoString × Json)} :
    readMembers (parseValue depth) (n + 1) (p.text rest) = some (p.member :: found, r) ↔
      p.slot.Exact ∧ readNext (parseValue depth) n p.name (p.slot.json, rest) =
        some (p.member :: found, r) := by
  rw [readMembers_slot hp, SlotMember.member]
  cases hslot : p.slot with
  | string s =>
    have htext : (Slot.string s).text ++ rest = 34 :: (s ++ 34 :: rest) := by simp [Slot.text]
    rw [htext, parseValue_quoted, Slot.Exact, Slot.json]
    constructor
    · intro h
      obtain ⟨v, hv, hnext⟩ := Option.bind_eq_some_iff.mp h
      obtain ⟨⟨w, r'⟩, hread, rfl⟩ := Option.map_eq_some_iff.mp hv
      obtain ⟨more, hmore⟩ := readNext_head hnext
      obtain rfl : s = w := by simpa using (List.cons.inj hmore).1
      rcases readString_same hread with ⟨hs, rfl⟩ | ⟨n', w', hswallow⟩
      · exact ⟨hs, hnext⟩
      · rw [hrest _ _ _ _ _ _ _ hswallow] at hnext
        cases hnext
    · rintro ⟨hs, hnext⟩
      have hvalue := hp.read (show p.slot.Exact by rw [hslot]; exact hs) hnumber
      rw [hslot, htext, parseValue_quoted] at hvalue
      rw [hvalue]
      exact hnext
  | value text read v =>
    rw [Slot.text, (hp.solid text read v hslot).value _ hnumber, Option.bind_some, Slot.Exact,
      Slot.json]
    constructor
    · intro hnext
      obtain ⟨more, hmore⟩ := readNext_head hnext
      obtain rfl : v = read := by simpa using (List.cons.inj hmore).1
      exact ⟨rfl, hnext⟩
    · rintro ⟨rfl, hnext⟩
      exact hnext

/-! ## Objects -/

theorem slotsText_cons (p : SlotMember) (hne : members ≠ []) :
    slotsText (p :: members) = p.text (44 :: 32 :: slotsText members) := by
  obtain ⟨q, members, rfl⟩ := List.exists_cons_of_ne_nil hne
  rfl

theorem length_slotsText (members : List SlotMember) :
    members.length ≤ (slotsText members).length := by
  induction members with
  | nil => simp
  | cons p members ih =>
    by_cases hlast : members = []
    · subst hlast
      simp [slotsText, SlotMember.text]
    · rw [slotsText_cons p hlast, SlotMember.text]
      simp only [List.length_cons, List.length_append]
      omega

theorem exists_slotsText (hne : members ≠ []) (h : ∀ p ∈ members, p.Fixed depth) :
    ∃ c t, slotsText members = 34 :: c :: t ∧ isSpace c = false ∧ c ≠ 44 ∧ c ≠ 125 := by
  obtain ⟨p, members, rfl⟩ := List.exists_cons_of_ne_nil hne
  obtain ⟨c, t, hname, hc⟩ := (h p List.mem_cons_self).head
  by_cases hlast : members = []
  · subst hlast
    exact ⟨c, _, by rw [slotsText, SlotMember.text, hname]; rfl, hc⟩
  · exact ⟨c, _, by rw [slotsText_cons p hlast, SlotMember.text, hname]; rfl, hc⟩

theorem readMembers_slots_iff (hne : members ≠ []) (h : ∀ p ∈ members, p.Fixed depth)
    (hn : members.length ≤ n) :
    readMembers (parseValue depth) n (slotsText members) =
        some (members.map SlotMember.member, r) ↔
      r = [] ∧ ∀ p ∈ members, p.slot.Exact := by
  induction members generalizing n with
  | nil => exact absurd rfl hne
  | cons p members ih =>
    obtain ⟨hp, hmembers⟩ := List.forall_mem_cons.mp h
    rw [List.length_cons] at hn
    obtain ⟨n, rfl⟩ := Nat.exists_eq_succ_of_ne_zero (show n ≠ 0 by omega)
    rw [List.map_cons, List.forall_mem_cons]
    by_cases hlast : members = []
    · subst hlast
      rw [slotsText, readMembers_slot_iff hp endsString_brace (notHead_cons (by decide) _),
        readNext_brace]
      simp [SlotMember.member, and_comm, eq_comm]
    · obtain ⟨c, t, htext, hspace, hcomma, hbrace⟩ := exists_slotsText hlast hmembers
      have hends : EndsString (44 :: 32 :: slotsText members) := by
        rw [htext]
        exact endsString_comma hspace hcomma hbrace t
      rw [slotsText_cons p hlast, readMembers_slot_iff hp hends (notHead_cons (by decide) _),
        readNext_comma, readMembers_space, and_left_comm (a := r = []),
        ← ih (n := n) hlast hmembers (by omega)]
      refine and_congr_right fun _ => ?_
      constructor
      · intro hmap
        obtain ⟨⟨found, r'⟩, hread, heq⟩ := Option.map_eq_some_iff.mp hmap
        simp only [Prod.mk.injEq, List.cons.injEq] at heq
        obtain ⟨⟨-, rfl⟩, rfl⟩ := heq
        exact hread
      · intro hread
        rw [hread]
        rfl

/-- How a text that starts with a member is read. -/
theorem parseText_open (hdepth : maxNestingDepth = depth + 1) (t : GoString) :
    parseText (123 :: 34 :: t) =
      (readMembers (parseValue depth) (34 :: t).length (34 :: t)).bind
        fun q => if skipSpace q.2 = [] then some (.obj q.1) else none := by
  have hopen : readObject (parseValue depth) (34 :: t) =
      readMembers (parseValue depth) (34 :: t).length (34 :: t) := by
    rw [readObject, skipSpace_of_head (show isSpace 34 = false from rfl),
      expect_of_ne (show (34 : UInt8) ≠ 125 by decide)]
  rw [parseText, parseFirst, skipSpace_of_head (show isSpace 123 = false from rfl), hdepth,
    parseValue_brace, ← hopen]
  cases readObject (parseValue depth) (34 :: t) with
  | none => rfl
  | some q => rfl

/-- The text means what was put into it if and only if each member is read as it was put in. -/
theorem parseText_objectText_iff (hne : members ≠ [])
    (h : ∀ p ∈ members, p.Fixed (maxNestingDepth - 1)) :
    parseText (objectText members) = some (.obj (members.map SlotMember.member)) ↔
      ∀ p ∈ members, p.slot.Exact := by
  obtain ⟨depth, hdepth⟩ : ∃ depth, maxNestingDepth = depth + 1 := ⟨9999, rfl⟩
  have hpred : maxNestingDepth - 1 = depth := by omega
  rw [hpred] at h
  obtain ⟨c, t, htext, -⟩ := exists_slotsText hne h
  have hread : parseText (objectText members) =
      (readMembers (parseValue depth) (slotsText members).length (slotsText members)).bind
        fun q => if skipSpace q.2 = [] then some (.obj q.1) else none := by
    rw [objectText, htext, parseText_open hdepth]
  rw [hread]
  constructor
  · intro hsome
    obtain ⟨⟨found, r⟩, hq, hend⟩ := Option.bind_eq_some_iff.mp hsome
    dsimp only at hend
    split at hend
    · obtain rfl := Json.obj.inj (Option.some.inj hend)
      exact ((readMembers_slots_iff hne h (length_slotsText members)).mp hq).2
    · cases hend
  · intro hliteral
    rw [(readMembers_slots_iff hne h (length_slotsText members)).mpr ⟨rfl, hliteral⟩]
    rfl

end Slots

end VissServer.Go

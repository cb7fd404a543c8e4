import VissServer.Go.JsonNumbers

/-!
Values in JSON texts: a value that the parser yields is well formed, decoding keeps
it so, and parsing what json.Marshal prints for a value gives the value back, up to
the bytes in its strings that are no valid UTF-8.
-/
namespace VissServer.Go

/-- A value with valid strings and numbers whose containers nest at most depth deep. -/
def WellFormed : ℕ → Json → Prop
  | _, .null => True
  | _, .bool _ => True
  | _, .num literal => Numeral literal
  | _, .str s => ValidString s
  | 0, .arr _ => False
  | 0, .obj _ => False
  | depth + 1, .arr items => ∀ j ∈ items, WellFormed depth j
  | depth + 1, .obj members => ∀ p ∈ members, ValidString p.1 ∧ WellFormed depth p.2

/-- The same without the condition on strings. -/
def Printable : ℕ → Json → Prop
  | _, .null => True
  | _, .bool _ => True
  | _, .num literal => Numeral literal
  | _, .str _ => True
  | 0, .arr _ => False
  | 0, .obj _ => False
  | depth + 1, .arr items => ∀ j ∈ items, Printable depth j
  | depth + 1, .obj members => ∀ p ∈ members, Printable depth p.2

mutual

/-- The value with each string as reading gives it back. -/
def sanitize : Json → Json
  | .str s => .str (sanitizeString s)
  | .arr items => .arr (sanitizeItems items)
  | .obj members => .obj (sanitizeMembers members)
  | j => j

def sanitizeItems : List Json → List Json
  | [] => []
  | j :: items => sanitize j :: sanitizeItems items

def sanitizeMembers : List (GoString × Json) → List (GoString × Json)
  | [] => []
  | (k, j) :: members => (sanitizeString k, sanitize j) :: sanitizeMembers members

end

theorem WellFormed.succ {depth : ℕ} {v : Json} (h : WellFormed depth v) :
    WellFormed (depth + 1) v := by
  induction depth generalizing v with
  | zero => cases v <;> first | exact h | exact h.elim
  | succ depth ih =>
    cases v with
    | arr items => exact fun j hj => ih (h j hj)
    | obj members => exact fun p hp => ⟨(h p hp).1, ih (h p hp).2⟩
    | null => trivial
    | bool b => trivial
    | num literal => exact h
    | str s => exact h

theorem WellFormed.printable {depth : ℕ} {v : Json} (h : WellFormed depth v) :
    Printable depth v := by
  induction depth generalizing v with
  | zero => cases v <;> first | exact h | trivial
  | succ depth ih =>
    cases v with
    | arr items => exact fun j hj => ih (h j hj)
    | obj members => exact fun p hp => ih (h p hp).2
    | null => trivial
    | bool b => trivial
    | num literal => exact h
    | str s => trivial

theorem sanitizeItems_eq_self {items : List Json} (h : ∀ j ∈ items, sanitize j = j) :
    sanitizeItems items = items := by
  induction items with
  | nil => rfl
  | cons j items ih =>
    obtain ⟨hj, hitems⟩ := List.forall_mem_cons.mp h
    rw [sanitizeItems, hj, ih hitems]

theorem sanitizeMembers_eq_self {members : List (GoString × Json)}
    (h : ∀ p ∈ members, ValidString p.1 ∧ sanitize p.2 = p.2) :
    sanitizeMembers members = members := by
  induction members with
  | nil => rfl
  | cons p members ih =>
    obtain ⟨k, j⟩ := p
    obtain ⟨⟨hk, hj⟩, hmembers⟩ := List.forall_mem_cons.mp h
    rw [sanitizeMembers, hk.sanitize, hj, ih hmembers]

theorem WellFormed.sanitize {depth : ℕ} {v : Json} (h : WellFormed depth v) :
    sanitize v = v := by
  induction depth generalizing v with
  | zero =>
    cases v with
    | str s => exact congrArg Json.str (ValidString.sanitize h)
    | arr items => exact absurd h id
    | obj members => exact absurd h id
    | null => rfl
    | bool b => rfl
    | num literal => rfl
  | succ depth ih =>
    cases v with
    | str s => exact congrArg Json.str (ValidString.sanitize h)
    | arr items => rw [Go.sanitize, sanitizeItems_eq_self fun j hj => ih (h j hj)]
    | obj members =>
      rw [Go.sanitize, sanitizeMembers_eq_self fun p hp => ⟨(h p hp).1, ih (h p hp).2⟩]
    | null => rfl
    | bool b => rfl
    | num literal => rfl

theorem parseScalar_wellFormed {depth : ℕ} {s rest : GoString} {v : Json}
    (h : parseScalar s = some (v, rest)) : WellFormed depth v := by
  unfold parseScalar at h
  split at h
  · simp only [Option.map_eq_some_iff, Prod.mk.injEq] at h
    obtain ⟨⟨t, r⟩, ht, rfl, -⟩ := h
    cases depth <;> exact readString_valid ht
  · split at h
    · obtain ⟨rfl, -⟩ := Prod.mk.inj (Option.some.inj h)
      cases depth <;> trivial
    · split at h
      · obtain ⟨rfl, -⟩ := Prod.mk.inj (Option.some.inj h)
        cases depth <;> trivial
      · split at h
        · obtain ⟨rfl, -⟩ := Prod.mk.inj (Option.some.inj h)
          cases depth <;> trivial
        · simp only [Option.map_eq_some_iff, Prod.mk.injEq] at h
          obtain ⟨r, hr, rfl, rfl⟩ := h
          obtain ⟨lit, rfl, hlit⟩ := afterNumber_numeral hr
          have htake : (lit ++ r).take ((lit ++ r).length - r.length) = lit := by
            simp
          rw [htake]
          cases depth <;> exact hlit

section Containers

variable {α : Type} {value : GoString → Option (α × GoString)} {P : α → Prop}

/-- A text of items up to the bracket behind them, item by item. -/
inductive ReadItems (value : GoString → Option (α × GoString)) :
    GoString → List α → GoString → Prop
  | last {s s₁ r : GoString} {v : α} (hvalue : value (skipSpace s) = some (v, s₁))
      (hend : expect 93 (skipSpace s₁) = some r) : ReadItems value s [v] r
  | next {s s₁ s₂ r : GoString} {v : α} {items : List α}
      (hvalue : value (skipSpace s) = some (v, s₁)) (hcomma : expect 44 (skipSpace s₁) = some s₂)
      (hitems : ReadItems value s₂ items r) : ReadItems value s (v :: items) r

theorem readItems_sound {n : ℕ} {s r : GoString} {items : List α}
    (h : readItems value n s = some (items, r)) : ReadItems value s items r := by
  induction n generalizing s items with
  | zero => cases h
  | succ n ih =>
    simp only [readItems, Option.bind_eq_bind, Option.bind_eq_some_iff] at h
    obtain ⟨⟨v, s₁⟩, hv, h⟩ := h
    dsimp only at h
    split at h
    · next s₂ hcomma =>
      simp only [Option.bind_eq_some_iff, Option.some.injEq, Prod.mk.injEq] at h
      obtain ⟨⟨items', r'⟩, hitems, rfl, rfl⟩ := h
      exact .next hv hcomma (ih hitems)
    · simp only [Option.bind_eq_some_iff, Option.some.injEq, Prod.mk.injEq] at h
      obtain ⟨r', hend, rfl, rfl⟩ := h
      exact .last hv hend

/-- A name, a colon and a value. -/
structure ReadMember (value : GoString → Option (α × GoString)) (s k : GoString) (v : α)
    (r s₁ s₂ s₃ : GoString) : Prop where
  quote : expect 34 (skipSpace s) = some s₁
  key : readString s₁.length s₁ = some (k, s₂)
  colon : expect 58 (skipSpace s₂) = some s₃
  value : value (skipSpace s₃) = some (v, r)

/-- A text of members up to the brace behind them, member by member. -/
inductive ReadMembers (value : GoString → Option (α × GoString)) :
    GoString → List (GoString × α) → GoString → Prop
  | last {s s₁ s₂ s₃ s₄ r k : GoString} {v : α} (hmember : ReadMember value s k v s₄ s₁ s₂ s₃)
      (hend : expect 125 (skipSpace s₄) = some r) : ReadMembers value s [(k, v)] r
  | next {s s₁ s₂ s₃ s₄ s₅ r k : GoString} {v : α} {members : List (GoString × α)}
      (hmember : ReadMember value s k v s₄ s₁ s₂ s₃) (hcomma : expect 44 (skipSpace s₄) = some s₅)
      (hmembers : ReadMembers value s₅ members r) : ReadMembers value s ((k, v) :: members) r

theorem readMembers_sound {n : ℕ} {s r : GoString} {members : List (GoString × α)}
    (h : readMembers value n s = some (members, r)) : ReadMembers value s members r := by
  induction n generalizing s members with
  | zero => cases h
  | succ n ih =>
    simp only [readMembers, Option.bind_eq_bind, Option.bind_eq_some_iff] at h
    obtain ⟨s₁, hquote, ⟨k, s₂⟩, hkey, s₃, hcolon, ⟨v, s₄⟩, hv, h⟩ := h
    have hmember : ReadMember value s k v s₄ s₁ s₂ s₃ := ⟨hquote, hkey, hcolon, hv⟩
    dsimp only at h
    split at h
    · next s₅ hcomma =>
      simp only [Option.bind_eq_some_iff, Option.some.injEq, Prod.mk.injEq] at h
      obtain ⟨⟨members', r'⟩, hmembers, rfl, rfl⟩ := h
      exact .next hmember hcomma (ih hmembers)
    · simp only [Option.bind_eq_some_iff, Option.some.injEq, Prod.mk.injEq] at h
      obtain ⟨r', hend, rfl, rfl⟩ := h
      exact .last hmember hend

theorem readItems_ne_nil {n : ℕ} {s r : GoString} {items : List α}
    (h : readItems value n s = some (items, r)) : items ≠ [] := by
  cases readItems_sound h with
  | last => exact List.cons_ne_nil _ _
  | next => exact List.cons_ne_nil _ _

theorem readMembers_ne_nil {n : ℕ} {s r : GoString} {members : List (GoString × α)}
    (h : readMembers value n s = some (members, r)) : members ≠ [] := by
  cases readMembers_sound h with
  | last => exact List.cons_ne_nil _ _
  | next => exact List.cons_ne_nil _ _

theorem readMembers_all (hvalue : ∀ s v rest, value s = some (v, rest) → P v) {n : ℕ}
    {s rest : GoString} {members : List (GoString × α)}
    (h : readMembers value n s = some (members, rest)) :
    ∀ p ∈ members, ValidString p.1 ∧ P p.2 := by
  replace h := readMembers_sound h
  induction h with
  | last hmember _ =>
    exact List.forall_mem_singleton.mpr ⟨readString_valid hmember.key, hvalue _ _ _ hmember.value⟩
  | next hmember _ _ ih =>
    exact List.forall_mem_cons.mpr
      ⟨⟨readString_valid hmember.key, hvalue _ _ _ hmember.value⟩, ih⟩

theorem readObject_all (hvalue : ∀ s v rest, value s = some (v, rest) → P v)
    {s rest : GoString} {members : List (GoString × α)}
    (h : readObject value s = some (members, rest)) :
    ∀ p ∈ members, ValidString p.1 ∧ P p.2 := by
  unfold readObject at h
  split at h
  · obtain ⟨rfl, -⟩ := Prod.mk.inj (Option.some.inj h)
    simp
  · exact readMembers_all hvalue h

theorem readItems_all (hvalue : ∀ s v rest, value s = some (v, rest) → P v) {n : ℕ}
    {s rest : GoString} {items : List α} (h : readItems value n s = some (items, rest)) :
    ∀ j ∈ items, P j := by
  replace h := readItems_sound h
  induction h with
  | last hv _ => exact List.forall_mem_singleton.mpr (hvalue _ _ _ hv)
  | next hv _ _ ih => exact List.forall_mem_cons.mpr ⟨hvalue _ _ _ hv, ih⟩

theorem readArray_all (hvalue : ∀ s v rest, value s = some (v, rest) → P v)
    {s rest : GoString} {items : List α} (h : readArray value s = some (items, rest)) :
    ∀ j ∈ items, P j := by
  unfold readArray at h
  split at h
  · obtain ⟨rfl, -⟩ := Prod.mk.inj (Option.some.inj h)
    simp
  · exact readItems_all hvalue h

end Containers

/-- The parser yields well-formed values. -/
theorem parseValue_wellFormed {depth : ℕ} {s rest : GoString} {v : Json}
    (h : parseValue depth s = some (v, rest)) : WellFormed depth v := by
  induction depth generalizing s v rest with
  | zero =>
    rw [parseValue] at h
    split at h
    · simp at h
    · exact parseScalar_wellFormed h
  | succ depth ih =>
    rw [parseValue] at h
    have hvalue : ∀ s v rest, parseValue depth s = some (v, rest) → WellFormed depth v :=
      fun _ _ _ h => ih h
    split at h
    · simp only [Option.map_eq_some_iff, Prod.mk.injEq] at h
      obtain ⟨⟨members, r⟩, hmembers, rfl, -⟩ := h
      exact readObject_all hvalue hmembers
    · simp only [Option.map_eq_some_iff, Prod.mk.injEq] at h
      obtain ⟨⟨items, r⟩, hitems, rfl, -⟩ := h
      exact readArray_all hvalue hitems
    · exact parseScalar_wellFormed h

/-- Decoding keeps a value well formed. -/
theorem WellFormed.canon {depth : ℕ} {v : Json} (h : WellFormed depth v) :
    WellFormed depth (canon v) := by
  induction depth generalizing v with
  | zero => cases v <;> exact h
  | succ depth ih =>
    cases v with
    | arr items =>
      rw [Go.canon, canonItems_eq_map]
      intro j hj
      obtain ⟨j', hj', rfl⟩ := List.mem_map.mp hj
      exact ih (h j' hj')
    | obj members =>
      rw [Go.canon, canonMembers_eq_map]
      intro p hp
      obtain ⟨q, hq, rfl⟩ := List.mem_map.mp (GoMap.mem_ofMembers hp)
      exact ⟨(h q hq).1, ih (h q hq).2⟩
    | null => exact h
    | bool b => exact h
    | num literal => exact h
    | str s => exact h

theorem skipSpace_of_head {c : UInt8} (h : isSpace c = false) (s : GoString) :
    skipSpace (c :: s) = c :: s := by
  simp [skipSpace, h]

theorem quote_append (k rest : GoString) :
    quote k ++ rest = 34 :: ((segments k).flatMap quoteSegment ++ 34 :: rest) := by
  simp [quote]

/-- Reading back a printed string behind its opening quote. -/
theorem readString_quote (k rest : GoString) :
    readString ((segments k).flatMap quoteSegment ++ 34 :: rest).length
      ((segments k).flatMap quoteSegment ++ 34 :: rest) = some (sanitizeString k, rest) := by
  refine readString_quoted k ?_ rest
  have hlen := length_segments_le k
  simp only [List.length_append, List.length_cons]
  omega

/-- The first byte of a numeral is none that starts something else. -/
theorem Numeral.head_ne {lit : GoString} (h : Numeral lit) :
    ∃ c t, lit = c :: t ∧ ∀ d, (d = 45 ∨ isDigit d = true) = False → c ≠ d := by
  obtain ⟨c, t, rfl, hc⟩ := h.head
  exact ⟨c, t, rfl, fun d hd hcd => by rwa [← hd, ← hcd]⟩

/-- The first byte of a printed value: no white space, nor the end of an array, and an
opening one only for a container. -/
structure HeadByte (v : Json) (c : UInt8) : Prop where
  space : isSpace c = false
  close : c ≠ 93
  brace : c = 123 → ∃ members, v = .obj members
  bracket : c = 91 → ∃ items, v = .arr items

theorem marshal_head {depth : ℕ} {v : Json} (h : Printable depth v) :
    ∃ c t, marshal v = c :: t ∧ HeadByte v c := by
  cases v with
  | null => exact ⟨110, _, rfl, rfl, by decide, nofun, nofun⟩
  | bool b =>
    cases b
    · exact ⟨102, _, rfl, rfl, by decide, nofun, nofun⟩
    · exact ⟨116, _, rfl, rfl, by decide, nofun, nofun⟩
  | num literal =>
    have hnum : Numeral literal := by cases depth <;> exact h
    obtain ⟨c, t, rfl, hne⟩ := hnum.head_ne
    refine ⟨c, t, rfl, ?_, hne 93 (by decide), fun hc => ?_, fun hc => ?_⟩
    · simp [isSpace, hne 32 (by decide), hne 9 (by decide), hne 10 (by decide),
        hne 13 (by decide)]
    · exact absurd hc (hne 123 (by decide))
    · exact absurd hc (hne 91 (by decide))
  | str s => exact ⟨34, _, rfl, rfl, by decide, nofun, nofun⟩
  | arr items => exact ⟨91, _, rfl, rfl, by decide, nofun, fun _ => ⟨items, rfl⟩⟩
  | obj members => exact ⟨123, _, rfl, rfl, by decide, fun _ => ⟨members, rfl⟩, nofun⟩

theorem skipSpace_marshal {depth : ℕ} {v : Json} (h : Printable depth v) (rest : GoString) :
    skipSpace (marshal v ++ rest) = marshal v ++ rest := by
  obtain ⟨c, t, hv, hc⟩ := marshal_head h
  rw [hv, List.cons_append, skipSpace_of_head hc.space]

/-- The reader of values gives back what is printed for each of the given values. -/
def ReadsBack (depth : ℕ) (value : GoString → Option (Json × GoString)) (v : Json) : Prop :=
  Printable depth v ∧ ∀ rest, NotHead continuesNumber rest →
    value (marshal v ++ rest) = some (sanitize v, rest)

theorem marshalMembers_cons (k : GoString) (v : Json) {members : List (GoString × Json)}
    (h : members ≠ []) (rest : GoString) :
    marshalMembers ((k, v) :: members) ++ rest =
      quote k ++ 58 :: (marshal v ++ 44 :: (marshalMembers members ++ rest)) := by
  cases members with
  | nil => exact absurd rfl h
  | cons p members => simp [marshalMembers]

theorem marshalItems_cons (v : Json) {items : List Json} (h : items ≠ []) (rest : GoString) :
    marshalItems (v :: items) ++ rest = marshal v ++ 44 :: (marshalItems items ++ rest) := by
  cases items with
  | nil => exact absurd rfl h
  | cons j items => simp [marshalItems]

/-- The step of readMembers over one printed member. -/
theorem readMembers_step {depth : ℕ} {value : GoString → Option (Json × GoString)}
    (k : GoString) {v : Json} (hv : ReadsBack depth value v) (n : ℕ) {c : UInt8}
    (hspace : isSpace c = false) (hc : continuesNumber c = false) (rest : GoString) :
    readMembers value (n + 1) (quote k ++ 58 :: (marshal v ++ c :: rest)) =
      match expect 44 (c :: rest) with
      | some rest => (readMembers value n rest).map fun r =>
          ((sanitizeString k, sanitize v) :: r.1, r.2)
      | none => (expect 125 (c :: rest)).map fun rest =>
          ([(sanitizeString k, sanitize v)], rest) := by
  rw [quote_append]
  simp only [readMembers, skipSpace_of_head (show isSpace 34 = false from rfl), expect_self,
    readString_quote k, skipSpace_of_head (show isSpace 58 = false from rfl),
    skipSpace_marshal hv.1, hv.2 _ (notHead_cons hc rest), skipSpace_of_head hspace,
    Option.bind_eq_bind, Option.bind_some]
  cases expect 44 (c :: rest) with
  | none => exact Option.map_eq_bind.symm
  | some r => exact Option.map_eq_bind.symm

theorem readMembers_marshal {depth : ℕ} {value : GoString → Option (Json × GoString)}
    {members : List (GoString × Json)} (hne : members ≠ [])
    (h : ∀ p ∈ members, ReadsBack depth value p.2) {n : ℕ}
    (hn : members.length ≤ n) (rest : GoString) :
    readMembers value n (marshalMembers members ++ 125 :: rest) =
      some (sanitizeMembers members, rest) := by
  induction members generalizing n with
  | nil => exact absurd rfl hne
  | cons p members ih =>
    obtain ⟨k, v⟩ := p
    obtain ⟨hv, hmembers⟩ := List.forall_mem_cons.mp h
    rw [List.length_cons] at hn
    obtain ⟨n, rfl⟩ := Nat.exists_eq_succ_of_ne_zero (show n ≠ 0 by omega)
    by_cases hlast : members = []
    · subst hlast
      have htext : marshalMembers [(k, v)] ++ 125 :: rest =
          quote k ++ 58 :: (marshal v ++ 125 :: rest) := by simp [marshalMembers]
      rw [htext, readMembers_step k hv n rfl (by decide)]
      simp [expect_of_ne (show (125 : UInt8) ≠ 44 by decide), sanitizeMembers]
    · rw [marshalMembers_cons k v hlast, readMembers_step k hv n rfl (by decide)]
      simp [ih hlast hmembers (show members.length ≤ n by omega), sanitizeMembers]

/-- Printed members with further members behind them. -/
theorem readMembers_marshal_comma {depth : ℕ} {value : GoString → Option (Json × GoString)}
    {members : List (GoString × Json)} (hne : members ≠ [])
    (h : ∀ p ∈ members, ReadsBack depth value p.2) (n : ℕ) (rest : GoString) :
    readMembers value (members.length + n) (marshalMembers members ++ 44 :: rest) =
      (readMembers value n rest).map fun q => (sanitizeMembers members ++ q.1, q.2) := by
  induction members with
  | nil => exact absurd rfl hne
  | cons p members ih =>
    obtain ⟨k, v⟩ := p
    obtain ⟨hv, hmembers⟩ := List.forall_mem_cons.mp h
    by_cases hlast : members = []
    · subst hlast
      have htext : marshalMembers [(k, v)] ++ 44 :: rest =
          quote k ++ 58 :: (marshal v ++ 44 :: rest) := by simp [marshalMembers]
      rw [htext, List.length_singleton, Nat.add_comm, readMembers_step k hv n rfl (by decide),
        expect_self]
      rfl
    · rw [marshalMembers_cons k v hlast, List.length_cons, Nat.add_right_comm,
        readMembers_step k hv _ rfl (by decide), expect_self]
      simp only [ih hlast hmembers, Option.map_map]
      rfl

theorem readItems_step {depth : ℕ} {value : GoString → Option (Json × GoString)} {v : Json}
    (hv : ReadsBack depth value v) (n : ℕ) {c : UInt8} (hspace : isSpace c = false)
    (hc : continuesNumber c = false) (rest : GoString) :
    readItems value (n + 1) (marshal v ++ c :: rest) =
      match expect 44 (c :: rest) with
      | some rest => (readItems value n rest).map fun r => (sanitize v :: r.1, r.2)
      | none => (expect 93 (c :: rest)).map fun rest => ([sanitize v], rest) := by
  simp only [readItems, skipSpace_marshal hv.1, hv.2 _ (notHead_cons hc rest),
    skipSpace_of_head hspace, Option.bind_eq_bind, Option.bind_some]
  cases expect 44 (c :: rest) with
  | none => exact Option.map_eq_bind.symm
  | some r => exact Option.map_eq_bind.symm

theorem readItems_marshal {depth : ℕ} {value : GoString → Option (Json × GoString)}
    {items : List Json} (hne : items ≠ []) (h : ∀ j ∈ items, ReadsBack depth value j) {n : ℕ}
    (hn : items.length ≤ n) (rest : GoString) :
    readItems value n (marshalItems items ++ 93 :: rest) = some (sanitizeItems items, rest) := by
  induction items generalizing n with
  | nil => exact absurd rfl hne
  | cons v items ih =>
    obtain ⟨hv, hitems⟩ := List.forall_mem_cons.mp h
    rw [List.length_cons] at hn
    obtain ⟨n, rfl⟩ := Nat.exists_eq_succ_of_ne_zero (show n ≠ 0 by omega)
    by_cases hlast : items = []
    · subst hlast
      rw [show marshalItems [v] = marshal v from rfl, readItems_step hv n rfl (by decide)]
      simp [expect_of_ne (show (93 : UInt8) ≠ 44 by decide), sanitizeItems]
    · rw [marshalItems_cons v hlast, readItems_step hv n rfl (by decide)]
      simp [ih hlast hitems (show items.length ≤ n by omega), sanitizeItems]

theorem length_le_marshalMembers (members : List (GoString × Json)) :
    members.length ≤ (marshalMembers members).length := by
  induction members with
  | nil => simp
  | cons p members ih =>
    obtain ⟨k, v⟩ := p
    by_cases hlast : members = []
    · subst hlast
      simp [marshalMembers, quote]
    · have htext := congrArg List.length (marshalMembers_cons k v hlast [])
      simp only [List.append_nil, List.length_append, List.length_cons] at htext
      rw [htext, List.length_cons]
      omega

theorem length_le_marshalItems {depth : ℕ} {items : List Json}
    (h : ∀ j ∈ items, Printable depth j) : items.length ≤ (marshalItems items).length := by
  induction items with
  | nil => simp
  | cons v items ih =>
    obtain ⟨hv, hitems⟩ := List.forall_mem_cons.mp h
    obtain ⟨c, t, htext, -⟩ := marshal_head hv
    by_cases hlast : items = []
    · subst hlast
      simp [marshalItems, htext]
    · have hlen := congrArg List.length (marshalItems_cons v hlast [])
      have hrest := ih hitems
      simp only [List.append_nil, List.length_append, List.length_cons] at hlen
      rw [hlen, List.length_cons]
      omega

theorem readObject_marshal {depth : ℕ} {value : GoString → Option (Json × GoString)}
    {members : List (GoString × Json)}
    (h : ∀ p ∈ members, ReadsBack depth value p.2) (rest : GoString) :
    readObject value (marshalMembers members ++ 125 :: rest) =
      some (sanitizeMembers members, rest) := by
  cases members with
  | nil =>
    simp [readObject, marshalMembers, skipSpace_of_head (show isSpace 125 = false from rfl),
      sanitizeMembers]
  | cons p members =>
    have hhead : ∃ t, marshalMembers (p :: members) ++ 125 :: rest = 34 :: t := by
      obtain ⟨k, v⟩ := p
      cases members with
      | nil => exact ⟨_, rfl⟩
      | cons q members => exact ⟨_, rfl⟩
    obtain ⟨t, ht⟩ := hhead
    have hread := readMembers_marshal (List.cons_ne_nil p members) h
      (n := (marshalMembers (p :: members) ++ 125 :: rest).length)
      (by
        have hlen := length_le_marshalMembers (p :: members)
        rw [List.length_append]
        omega) rest
    rw [ht] at hread ⊢
    rw [readObject, skipSpace_of_head (show isSpace 34 = false from rfl),
      expect_of_ne (show (34 : UInt8) ≠ 125 by decide)]
    exact hread

theorem readArray_marshal {depth : ℕ} {value : GoString → Option (Json × GoString)}
    {items : List Json} (h : ∀ j ∈ items, ReadsBack depth value j) (rest : GoString) :
    readArray value (marshalItems items ++ 93 :: rest) = some (sanitizeItems items, rest) := by
  cases items with
  | nil =>
    simp [readArray, marshalItems, skipSpace_of_head (show isSpace 93 = false from rfl),
      sanitizeItems]
  | cons v items =>
    have hv := (h v (List.mem_cons_self ..)).1
    obtain ⟨c, t, hvText, hc⟩ := marshal_head hv
    have hhead : ∃ u, marshalItems (v :: items) ++ 93 :: rest = c :: u := by
      by_cases hlast : items = []
      · subst hlast
        exact ⟨t ++ 93 :: rest, by rw [show marshalItems [v] = marshal v from rfl, hvText]; rfl⟩
      · rw [marshalItems_cons v hlast, hvText]
        exact ⟨_, rfl⟩
    obtain ⟨u, hu⟩ := hhead
    have hlen := length_le_marshalItems fun j hj => (h j hj).1
    have hread := readItems_marshal (List.cons_ne_nil v items) h
      (n := (marshalItems (v :: items) ++ 93 :: rest).length)
      (by
        rw [List.length_append]
        omega) rest
    rw [hu] at hread ⊢
    rw [readArray, skipSpace_of_head hc.space, expect_of_ne hc.close]
    exact hread

theorem parseScalar_str (s rest : GoString) :
    parseScalar (quote s ++ rest) = some (.str (sanitizeString s), rest) := by
  rw [quote_append, parseScalar, expect_self]
  simp only [readString_quote s, Option.map_some]

theorem parseScalar_num {lit : GoString} (h : Numeral lit) {rest : GoString}
    (hrest : NotHead continuesNumber rest) :
    parseScalar (lit ++ rest) = some (.num lit, rest) := by
  obtain ⟨c, t, rfl, hne⟩ := h.head_ne
  have hword : ∀ (d : UInt8) (w : GoString), d ≠ c →
      (d :: w).isPrefixOf (c :: t ++ rest) = false := by
    intro d w hd
    simp [List.isPrefixOf, hd]
  rw [parseScalar, List.cons_append,
    expect_of_ne (hne 34 (by decide)), ← List.cons_append]
  simp only [show Go.str "true" = 116 :: Go.str "rue" from rfl,
    show Go.str "false" = 102 :: Go.str "alse" from rfl,
    show Go.str "null" = 110 :: Go.str "ull" from rfl,
    hword 116 _ (hne 116 (by decide)).symm, hword 102 _ (hne 102 (by decide)).symm,
    hword 110 _ (hne 110 (by decide)).symm, Bool.false_eq_true, if_false,
    h.read rest hrest, Option.map_some]
  rw [List.length_append, Nat.add_sub_cancel, List.take_left]

/-- Parsing gives back the scalars that json.Marshal prints. -/
theorem parseScalar_marshal {depth : ℕ} {v : Json} (h : Printable depth v)
    (hscalar : (∀ items, v ≠ .arr items) ∧ ∀ members, v ≠ .obj members) {rest : GoString}
    (hrest : NotHead continuesNumber rest) :
    parseScalar (marshal v ++ rest) = some (sanitize v, rest) := by
  cases v with
  | null => rfl
  | bool b => cases b <;> rfl
  | num literal => exact parseScalar_num (by cases depth <;> exact h) hrest
  | str s => exact parseScalar_str s rest
  | arr items => exact absurd rfl (hscalar.1 items)
  | obj members => exact absurd rfl (hscalar.2 members)

/-- A scalar starts with no opening brace or bracket, so the parser reads a scalar. -/
theorem parseValue_scalar {depth : ℕ} {v : Json} (h : Printable depth v)
    (harr : ∀ items, v ≠ .arr items) (hobj : ∀ members, v ≠ .obj members) {rest : GoString}
    (hrest : NotHead continuesNumber rest) :
    parseValue depth (marshal v ++ rest) = some (sanitize v, rest) := by
  have hread := parseScalar_marshal h ⟨harr, hobj⟩ hrest
  obtain ⟨c, t, hv, hc⟩ := marshal_head h
  have hbrace : c ≠ 123 := fun heq => (hc.brace heq).elim fun members => hobj members
  have hbracket : c ≠ 91 := fun heq => (hc.bracket heq).elim fun items => harr items
  rw [hv, List.cons_append] at hread ⊢
  cases depth with
  | zero => simpa [parseValue, hbrace, hbracket] using hread
  | succ depth => simpa [parseValue, expect_of_ne hbrace, expect_of_ne hbracket] using hread

/-- Parsing what json.Marshal prints for a value. -/
theorem parseValue_marshal {depth : ℕ} {v : Json} (h : Printable depth v) {rest : GoString}
    (hrest : NotHead continuesNumber rest) :
    parseValue depth (marshal v ++ rest) = some (sanitize v, rest) := by
  induction depth generalizing v rest with
  | zero =>
    refine parseValue_scalar h ?_ ?_ hrest
    · rintro items rfl
      exact h
    · rintro members rfl
      exact h
  | succ depth ih =>
    cases v with
    | arr items =>
      have hread := readArray_marshal (fun j hj => ⟨h j hj, fun _ => ih (h j hj)⟩) rest
      have htext : marshal (.arr items) ++ rest = 91 :: (marshalItems items ++ 93 :: rest) := by
        simp [marshal]
      rw [htext]
      simp [parseValue, expect_of_ne (show (91 : UInt8) ≠ 123 by decide), hread, sanitize]
    | obj members =>
      have hread := readObject_marshal (fun p hp => ⟨h p hp, fun _ => ih (h p hp)⟩) rest
      have htext : marshal (.obj members) ++ rest =
          123 :: (marshalMembers members ++ 125 :: rest) := by simp [marshal]
      rw [htext]
      simp [parseValue, hread, sanitize]
    | null => exact parseValue_scalar h (by simp) (by simp) hrest
    | bool b => exact parseValue_scalar h (by simp) (by simp) hrest
    | num literal => exact parseValue_scalar h (by simp) (by simp) hrest
    | str s => exact parseValue_scalar h (by simp) (by simp) hrest

/-- What json.Marshal prints for a value is a text of the sanitized value. -/
theorem parseText_marshal {v : Json} (h : Printable maxNestingDepth v) :
    parseText (marshal v) = some (sanitize v) := by
  have hspace := skipSpace_marshal h []
  have hread := parseValue_marshal h (notHead_nil (p := continuesNumber))
  rw [List.append_nil] at hspace hread
  rw [parseText, parseFirst, hspace, hread]
  rfl

end VissServer.Go

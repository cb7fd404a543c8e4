import VissServer.Go.JsonValues

/-!
Members that are put into the text of an object behind its opening brace. The object
then has them in front of its own members, of which it must have one.
-/
namespace VissServer.Go

/-- The text of string members, each with the comma after it. -/
def spliceText (added : List (GoString × GoString)) : GoString :=
  added.flatMap fun p => str "\"" ++ p.1 ++ str "\":\"" ++ p.2 ++ str "\", "

def stringMembers (added : List (GoString × GoString)) : List (GoString × Json) :=
  added.map fun p => (p.1, .str p.2)

/-- The value that is kept of the members with one name. -/
def lastMember (members : List (GoString × Json)) (k : GoString) : Option Json :=
  members.reverse.lookup k

theorem lastMember_eq_none {members : List (GoString × Json)} {k : GoString}
    (h : ∀ p ∈ members, p.1 ≠ k) : lastMember members k = none := by
  refine List.lookup_eq_none_iff.mpr fun p hp => ?_
  have hne := h p (List.mem_reverse.mp hp)
  exact bne_iff_ne.mpr hne.symm

theorem get_canonMembers (members : List (GoString × Json)) (k : GoString) :
    (GoMap.ofMembers (canonMembers members)).get k = (lastMember members k).map canon := by
  have hlookup : ∀ l : List (GoString × Json),
      (l.map fun p => (p.1, canon p.2)).lookup k = (l.lookup k).map canon := by
    intro l
    induction l with
    | nil => rfl
    | cons p l ih =>
      rw [List.map_cons, GoMap.lookup_cons_if, GoMap.lookup_cons_if, ih]
      split <;> rfl
  rw [GoMap.get_ofMembers, canonMembers_eq_map, ← List.map_reverse, hlookup, lastMember]

theorem valueAt_ofMembers (members : List (GoString × Json)) (k : GoString) :
    valueAt (GoMap.ofMembers (canonMembers members)) k =
      canon ((lastMember members k).getD .null) := by
  rw [valueAt, get_canonMembers]
  cases lastMember members k <;> rfl

theorem lastMember_append (added members : List (GoString × Json)) (k : GoString) :
    lastMember (added ++ members) k = (lastMember members k).or (lastMember added k) := by
  simp [lastMember, List.lookup_append]

section Fuel

variable {α : Type} {value : GoString → Option (α × GoString)}

/-- More fuel does not change what is read. -/
theorem readMembers_mono {n m : ℕ} {s : GoString} {r : List (GoString × α) × GoString}
    (h : readMembers value n s = some r) (hnm : n ≤ m) : readMembers value m s = some r := by
  induction n generalizing m s r with
  | zero => simp [readMembers] at h
  | succ n ih =>
    obtain ⟨m, rfl⟩ := Nat.exists_eq_succ_of_ne_zero (show m ≠ 0 by omega)
    simp only [readMembers, Option.bind_eq_bind, Option.bind_eq_some_iff] at h ⊢
    obtain ⟨s₁, h₁, ⟨k, s₂⟩, h₂, s₃, h₃, ⟨v, s₄⟩, h₄, h⟩ := h
    refine ⟨s₁, h₁, (k, s₂), h₂, s₃, h₃, (v, s₄), h₄, ?_⟩
    split at h
    · simp only [Option.bind_eq_some_iff] at h ⊢
      obtain ⟨p, hp, h⟩ := h
      exact ⟨p, ih hp (by omega), h⟩
    · exact h

theorem readMembers_space (n : ℕ) (s : GoString) :
    readMembers value n (32 :: s) = readMembers value n s := by
  cases n with
  | zero => rfl
  | succ n => simp [readMembers, skipSpace, isSpace]

end Fuel

theorem parseValue_plain (depth : ℕ) {v : GoString} (hv : ∀ c ∈ v, isPlain c = true)
    (rest : GoString) : parseValue depth (34 :: (v ++ 34 :: rest)) = some (.str v, rest) := by
  have hscalar : parseScalar (34 :: (v ++ 34 :: rest)) = some (.str v, rest) := by
    rw [parseScalar, expect_self]
    simp only [readString_plain hv (show v.length < (v ++ 34 :: rest).length by
      rw [List.length_append, List.length_cons]; omega), Option.map_some]
  cases depth with
  | zero => simpa [parseValue] using hscalar
  | succ depth =>
    simpa [parseValue, expect_of_ne (show (34 : UInt8) ≠ 123 by decide),
      expect_of_ne (show (34 : UInt8) ≠ 91 by decide)] using hscalar

/-- The step of readMembers over one added member. -/
theorem readMembers_plain (depth n : ℕ) {k v : GoString} (hk : ∀ c ∈ k, isPlain c = true)
    (hv : ∀ c ∈ v, isPlain c = true) (rest : GoString) :
    readMembers (parseValue depth) (n + 1)
        (str "\"" ++ k ++ str "\":\"" ++ v ++ str "\", " ++ rest) =
      (readMembers (parseValue depth) n rest).map fun r => ((k, .str v) :: r.1, r.2) := by
  have htext : str "\"" ++ k ++ str "\":\"" ++ v ++ str "\", " ++ rest =
      34 :: (k ++ 34 :: 58 :: 34 :: (v ++ 34 :: 44 :: 32 :: rest)) := by
    have h1 : str "\"" = [34] := rfl
    have h2 : str "\":\"" = [34, 58, 34] := rfl
    have h3 : str "\", " = [34, 44, 32] := rfl
    simp [h1, h2, h3]
  have hkey := readString_plain hk (show k.length <
    (k ++ 34 :: 58 :: 34 :: (v ++ 34 :: 44 :: 32 :: rest)).length by
      rw [List.length_append, List.length_cons]; omega) (58 :: 34 :: (v ++ 34 :: 44 :: 32 :: rest))
  rw [htext]
  simp only [readMembers, skipSpace_of_head (show isSpace 34 = false from rfl), expect_self, hkey,
    skipSpace_of_head (show isSpace 58 = false from rfl), parseValue_plain depth hv,
    skipSpace_of_head (show isSpace 44 = false from rfl), Option.bind_eq_bind, Option.bind_some,
    readMembers_space]
  exact Option.map_eq_bind.symm

theorem readMembers_splice (depth n : ℕ) {added : List (GoString × GoString)}
    (hadded : ∀ p ∈ added, (∀ c ∈ p.1, isPlain c = true) ∧ ∀ c ∈ p.2, isPlain c = true)
    (body : GoString) :
    readMembers (parseValue depth) (added.length + n) (spliceText added ++ body) =
      (readMembers (parseValue depth) n body).map fun r =>
        (stringMembers added ++ r.1, r.2) := by
  induction added with
  | nil => simp [spliceText, stringMembers]
  | cons p added ih =>
    obtain ⟨⟨hk, hv⟩, hrest⟩ := List.forall_mem_cons.mp hadded
    have htext : spliceText (p :: added) ++ body =
        str "\"" ++ p.1 ++ str "\":\"" ++ p.2 ++ str "\", " ++ (spliceText added ++ body) := by
      simp [spliceText]
    rw [htext, List.length_cons, show added.length + 1 + n = added.length + n + 1 by omega,
      readMembers_plain depth _ hk hv, ih hrest, Option.map_map]
    rfl

theorem length_spliceText_ge (added : List (GoString × GoString)) :
    added.length ≤ (spliceText added).length := by
  induction added with
  | nil => simp
  | cons p added ih =>
    have hquote : (str "\"").length = 1 := rfl
    simp only [spliceText, List.flatMap_cons, List.length_append, List.length_cons, hquote] at ih ⊢
    omega

/-- An object whose text is spliced: it fails to parse where it has no member. -/
theorem readObject_splice (depth : ℕ) {added : List (GoString × GoString)} (hne : added ≠ [])
    (hadded : ∀ p ∈ added, (∀ c ∈ p.1, isPlain c = true) ∧ ∀ c ∈ p.2, isPlain c = true)
    {gap : GoString} (hgap : gap = [] ∨ gap = [32])
    {body rest : GoString} {members : List (GoString × Json)}
    (h : readObject (parseValue depth) body = some (members, rest)) :
    readObject (parseValue depth) (gap ++ spliceText added ++ body) =
      if members = [] then none else some (stringMembers added ++ members, rest) := by
  have hopen : ∃ t, spliceText added ++ body = 34 :: t := by
    obtain ⟨p, added, rfl⟩ := List.exists_cons_of_ne_nil hne
    have hquote : str "\"" = [34] := rfl
    refine ⟨p.1 ++ (str "\":\"" ++ (p.2 ++ (str "\", " ++ (spliceText added ++ body)))), ?_⟩
    simp [spliceText, hquote]
  have hmembers : readObject (parseValue depth) (gap ++ spliceText added ++ body) =
      readMembers (parseValue depth) (gap ++ spliceText added ++ body).length
        (spliceText added ++ body) := by
    obtain ⟨t, ht⟩ := hopen
    rw [List.append_assoc, ht]
    rcases hgap with rfl | rfl
    · rw [List.nil_append, readObject, skipSpace_of_head (show isSpace 34 = false from rfl),
        expect_of_ne (show (34 : UInt8) ≠ 125 by decide)]
    · have hspace : skipSpace ([32] ++ 34 :: t) = 34 :: t := rfl
      rw [readObject, hspace, expect_of_ne (show (34 : UInt8) ≠ 125 by decide)]
      exact readMembers_space _ _
  obtain ⟨extra, hextra⟩ := Nat.exists_eq_add_of_le (length_spliceText_ge added)
  have hfuel : (gap ++ spliceText added ++ body).length =
      added.length + (body.length + (gap.length + extra)) := by
    rw [List.length_append, List.length_append]
    omega
  rw [hmembers, hfuel, readMembers_splice depth _ hadded]
  unfold readObject at h
  split at h
  · next r hr =>
    obtain ⟨rfl, -⟩ := Prod.mk.inj (Option.some.inj h)
    have hnone : readMembers (parseValue depth) (body.length + (gap.length + extra)) body =
        none := by
      cases body.length + (gap.length + extra) with
      | zero => rfl
      | succ n =>
        rw [readMembers, expect_some hr, expect_of_ne (show (125 : UInt8) ≠ 34 by decide)]
        rfl
    simp [hnone]
  · have hne := readMembers_ne_nil h
    rw [readMembers_mono h (Nat.le_add_right _ _), if_neg hne]
    rfl

theorem parseValue_brace (depth : ℕ) (body : GoString) :
    parseValue (depth + 1) (123 :: body) =
      (readObject (parseValue depth) body).map fun p => (.obj p.1, p.2) := by
  simp [parseValue]

theorem parseScalar_ne_obj {s rest : GoString} {members : List (GoString × Json)} :
    parseScalar s ≠ some (.obj members, rest) := by
  intro h
  unfold parseScalar at h
  split at h
  · simp at h
  · repeat' split at h
    all_goals simp at h

/-- Only a text that starts with an opening brace is an object. -/
theorem parseValue_object {depth : ℕ} {s rest : GoString} {members : List (GoString × Json)}
    (h : parseValue depth s = some (.obj members, rest)) : ∃ body, s = 123 :: body := by
  cases depth with
  | zero =>
    rw [parseValue] at h
    split at h
    · simp at h
    · exact absurd h parseScalar_ne_obj
  | succ depth =>
    cases hbrace : expect 123 s with
    | some body => exact ⟨body, expect_some hbrace⟩
    | none =>
      exfalso
      rw [parseValue, hbrace] at h
      cases hbracket : expect 91 s with
      | some body => simp [hbracket] at h
      | none =>
        simp only [hbracket] at h
        exact parseScalar_ne_obj h

/-- The text of an object starts with an opening brace, up to white space. -/
theorem parseText_object {text : GoString} {members : List (GoString × Json)}
    (h : parseText text = some (.obj members)) :
    ∃ space body rest, text = space ++ 123 :: body ∧ (∀ c ∈ space, isSpace c = true) ∧
      readObject (parseValue (maxNestingDepth - 1)) body = some (members, rest) := by
  simp only [parseText, parseFirst, Option.bind_eq_bind, Option.bind_eq_some_iff] at h
  obtain ⟨⟨v, rest⟩, hvalue, h⟩ := h
  split at h
  · obtain rfl := Option.some.inj h
    obtain ⟨body, hbody⟩ := parseValue_object hvalue
    rw [hbody, show maxNestingDepth = 9999 + 1 from rfl, parseValue_brace] at hvalue
    simp only [Option.map_eq_some_iff, Prod.mk.injEq, Json.obj.injEq] at hvalue
    obtain ⟨⟨members', rest'⟩, hobject, rfl, rfl⟩ := hvalue
    refine ⟨text.takeWhile isSpace, body, rest', ?_, fun c hc => List.mem_takeWhile_imp hc,
      hobject⟩
    rw [← hbody, skipSpace, List.takeWhile_append_dropWhile]
  · simp at h

theorem skipSpace_append {space : GoString} (h : ∀ c ∈ space, isSpace c = true) (s : GoString) :
    skipSpace (space ++ s) = skipSpace s :=
  List.dropWhile_append_of_pos h

/-- Decoding a text that starts with an opening brace. -/
theorem decodeMap_brace {space : GoString} (h : ∀ c ∈ space, isSpace c = true) (body : GoString) :
    decodeMap (space ++ 123 :: body) =
      (readObject (parseValue (maxNestingDepth - 1)) body).map fun p =>
        GoMap.ofMembers (canonMembers p.1) := by
  rw [decodeMap, parseFirst, skipSpace_append h,
    skipSpace_of_head (show isSpace 123 = false from rfl),
    show maxNestingDepth = 9999 + 1 from rfl, parseValue_brace,
    show (9999 + 1 - 1 : ℕ) = 9999 from rfl]
  cases readObject (parseValue 9999) body with
  | none => rfl
  | some p => rfl

/-- The first brace of an object's text is its opening brace. -/
theorem replaceFirst_brace {space : GoString} (h : ∀ c ∈ space, isSpace c = true)
    (body new : GoString) :
    replaceFirst (space ++ 123 :: body) [123] new = space ++ new ++ body := by
  have hindex : index? [123] (space ++ 123 :: body) = some space.length := by
    induction space with
    | nil => simp [index?]
    | cons c space ih =>
      obtain ⟨hc, hspace⟩ := List.forall_mem_cons.mp h
      have hne : ¬ 123 = c := by
        rintro rfl
        exact absurd hc (by decide)
      simp [index?, hne, ih hspace]
  rw [replaceFirst, hindex]
  simp

/-- What is decoded of an object whose first brace got members spliced in behind it. -/
theorem decodeMap_splice {text : GoString} {members : List (GoString × Json)}
    (h : parseText text = some (.obj members)) {added : List (GoString × GoString)}
    (hne : added ≠ [])
    (hadded : ∀ p ∈ added, (∀ c ∈ p.1, isPlain c = true) ∧ ∀ c ∈ p.2, isPlain c = true)
    {gap : GoString} (hgap : gap = [] ∨ gap = [32]) :
    decodeMap (replaceFirst text [123] (123 :: (gap ++ spliceText added))) =
      if members = [] then none
      else some (GoMap.ofMembers (canonMembers (stringMembers added ++ members))) := by
  obtain ⟨space, body, rest, rfl, hspace, hobject⟩ := parseText_object h
  have hobject' := readObject_splice (maxNestingDepth - 1) hne hadded hgap hobject
  rw [replaceFirst_brace hspace, List.append_assoc, List.cons_append, decodeMap_brace hspace,
    hobject']
  split <;> rfl

end VissServer.Go

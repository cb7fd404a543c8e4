import VissServer.Go.JsonKept
import VissServer.Utils.ProtoMessages

/-!
The state storages of the feeder and of the service manager, and the feeder's side of them:
what it writes into the storage, and what it reads from a message of the service manager
(feederv2.go).
-/
namespace VissServer.Feeder

open Go Utils

inductive StateDbType
  | sqlite
  | redis
  | apacheIotdb
  | none
  deriving DecidableEq

/-- The columns c_value, c_ts, d_value and d_ts of a row of VSS_MAP; none is NULL. -/
structure VssMapRow where
  cValue : Option GoString
  cTs : Option GoString
  dValue : Option GoString
  dTs : Option GoString

structure StateStorage where
  /-- Whether the database answers; where it does not, all calls fail. -/
  reachable : Bool
  /-- The row of a path in the table VSS_MAP of the sqlite database. -/
  vssMap : GoString → Option VssMapRow
  /-- The values of the redis database. -/
  redis : GoString → Option GoString
  /-- The text of the last value of a measurement of the time series, and of its time. -/
  iotdb : GoString → Option (GoString × GoString)

/-- A time as GetRfcTime prints it: digits, signs and the letters T and Z. -/
structure RfcTime where
  text : GoString
  plain : text.all isPlain = true
  ne_nil : text ≠ []

theorem RfcTime.isLiteral (ts : RfcTime) : IsLiteral ts.text := isLiteral_of_all ts.plain

/-- The statement UPDATE of VSS_MAP; a path without a row changes nothing. -/
def StateStorage.updateRow (st : StateStorage) (path : GoString)
    (update : VssMapRow → VssMapRow) : StateStorage :=
  { st with vssMap := Function.update st.vssMap path ((st.vssMap path).map update) }

/-- The storage and the status, which is 0 or -1. -/
def statestorageSet (stateDbType : StateDbType) (st : StateStorage) (path val ts : GoString) :
    StateStorage × ℤ :=
  match stateDbType with
  | .sqlite =>
      if st.reachable then
        (st.updateRow path fun row => { row with cValue := some val, cTs := some ts }, 0)
      else (st, -1)
  | .redis =>
      let dp := str "\x7b\"val\":\"" ++ val ++ str "\", \"ts\":\"" ++ ts ++ str "\"\x7d"
      if st.reachable then ({ st with redis := Function.update st.redis path (some dp) }, 0)
      else (st, -1)
  | _ => (st, -1)

structure DomainData where
  name : GoString := []
  value : GoString := []
  deriving DecidableEq

/-- A message without one of the members, or with another type of it, panics. -/
def splitToDomainDataAndTs (serverMessage : GoString) : MayPanic (DomainData × GoString) :=
  match unmarshalMap serverMessage with
  | none => some ({}, [])
  | some serverMessageMap => do
      let name ← asString (valueAt serverMessageMap (str "path"))
      let dpMap ← asMap (valueAt serverMessageMap (str "dp"))
      let value ← asString (valueAt dpMap (str "value"))
      let ts ← asString (valueAt dpMap (str "ts"))
      some (⟨name, value⟩, ts)

/-- The message of the service manager for a set request, as a value. -/
def setMessage (path value ts : GoString) : Json :=
  .obj [(str "path", .str path), (str "dp", .obj [(str "value", .str value), (str "ts", .str ts)])]

section Splitting

variable {path value ts : GoString}

theorem setMessage_textual (path value ts : GoString) :
    Textual 2 (setMessage path value ts) := by
  have hkey : ∀ k ∈ [str "path", str "dp", str "value", str "ts"], IsLiteral k := by
    have hall : ∀ k ∈ [str "path", str "dp", str "value", str "ts"], k.all isPlain = true := by
      decide
    exact fun k hk => isLiteral_of_all (hall k hk)
  have houter : [str "path", str "dp"].Nodup := by decide
  have hinner : [str "value", str "ts"].Nodup := by decide
  simp only [setMessage, Textual, List.forall_mem_cons, List.map_cons, List.map_nil]
  simp only [List.forall_mem_cons] at hkey
  exact ⟨houter, ⟨hkey.1, .inr trivial⟩, ⟨hkey.2.1, .inr ⟨hinner, ⟨hkey.2.2.1, .inr trivial⟩,
    ⟨hkey.2.2.2.1, .inr trivial⟩, by simp⟩⟩, by simp⟩

theorem setMessage_literal_iff :
    Literal 2 (setMessage path value ts) ↔ IsLiteral path ∧ IsLiteral value ∧ IsLiteral ts := by
  simp only [setMessage, Literal, List.forall_mem_cons]
  simp

/-- A member that is read as a string is kept as this string. -/
theorem asString_member {members : List (GoString × Json)} {k v : GoString}
    (h : asString (valueAt (GoMap.ofMembers (canonMembers members)) k) = some v) :
    lastMember members k = some (.str v) := by
  rw [asString_eq_some, valueAt_ofMembers, canon_eq_str] at h
  cases hlast : lastMember members k with
  | none => simp [hlast] at h
  | some j =>
    rw [hlast, Option.getD_some] at h
    rw [h]

/-- A member that is read as a map is kept as an object. -/
theorem asMap_member {members : List (GoString × Json)} {k : GoString} {m : GoMap Json}
    (h : asMap (valueAt (GoMap.ofMembers (canonMembers members)) k) = some m) :
    ∃ inner, lastMember members k = some (.obj inner) ∧
      m = GoMap.ofMembers (canonMembers inner) := by
  rw [valueAt_ofMembers] at h
  cases hlast : lastMember members k with
  | none =>
    rw [hlast, Option.getD_none] at h
    simp [canon, asMap] at h
  | some j =>
    rw [hlast, Option.getD_some] at h
    cases j with
    | obj inner => exact ⟨inner, rfl, (Option.some.inj h).symm⟩
    | _ => simp [canon, asMap] at h

theorem space_gap : ∀ c ∈ str " ", isSpace c = true := by
  intro c hc
  obtain rfl : c = 32 := by simpa using (show c ∈ [(32 : UInt8)] from hc)
  rfl

/-- The message is split into what it was made of if and only if its path and its value are
literals. -/
theorem splitToDomainDataAndTs_iff (hts : IsLiteral ts) (hne : ts ≠ []) :
    splitToDomainDataAndTs (rawText (str " ") (setMessage path value ts)) =
        some (⟨path, value⟩, ts) ↔
      IsLiteral path ∧ IsLiteral value := by
  obtain ⟨htextual, hliteral⟩ := (setMessage_textual path value ts).mono
    (show 2 ≤ maxNestingDepth by unfold maxNestingDepth; omega)
  rw [setMessage_literal_iff] at hliteral
  constructor
  · intro hsplit
    unfold splitToDomainDataAndTs unmarshalMap at hsplit
    have hparsed := (parseText_keeps_iff space_gap htextual).mp
    rw [hliteral] at hparsed
    cases hparse : parseText (rawText (str " ") (setMessage path value ts)) with
    | none =>
      rw [hparse] at hsplit
      exact absurd (Prod.mk.inj (Option.some.inj hsplit)).2.symm hne
    | some v =>
      rw [hparse] at hsplit
      cases v with
      | obj members =>
        simp only [Option.bind_eq_bind, Option.bind_eq_some_iff, Option.some.injEq,
          Prod.mk.injEq, DomainData.mk.injEq] at hsplit
        obtain ⟨name, hname, dpMap, hdp, value', hvalue, ts', hts', ⟨rfl, rfl⟩, rfl⟩ := hsplit
        obtain ⟨inner, hinner, rfl⟩ := asMap_member hdp
        have hkeeps : Keeps (9998 + 2) (setMessage name value' ts') (.obj members) := by
          have hdp : Keeps (9998 + 1) (.obj [(str "value", .str value'), (str "ts", .str ts')])
              (.obj inner) := by
            refine .inl ⟨inner, rfl, ?_⟩
            simp only [List.forall_mem_cons]
            exact ⟨⟨_, asString_member hvalue, .inr (keeps_str _ _)⟩,
              ⟨_, asString_member hts', .inr (keeps_str _ _)⟩, by simp⟩
          refine .inl ⟨members, rfl, ?_⟩
          simp only [List.forall_mem_cons]
          exact ⟨⟨_, asString_member hname, .inr (keeps_str _ _)⟩, ⟨_, hinner, .inr hdp⟩, by simp⟩
        obtain ⟨hpath, hvalue, -⟩ := hparsed ⟨_, hparse, hkeeps⟩
        exact ⟨hpath, hvalue⟩
      | null => simp [valueAt, GoMap.get, asString] at hsplit
      | _ => exact absurd (Prod.mk.inj (Option.some.inj hsplit)).2.symm hne
  · intro h
    have hparse := parseText_literal space_gap htextual (hliteral.mpr ⟨h.1, h.2, hts⟩)
    rw [splitToDomainDataAndTs, unmarshalMap, hparse]
    rfl

end Splitting

end VissServer.Feeder

import VissServer.Feeder.DomainConversion
import VissServer.Go.JsonMaps

/-!
Values that the feeder converts there and back, by an item of the list of scaling data: the
values of enumerations, and numbers with their coefficients.
-/
namespace VissServer.Feeder

open Go

variable {numbers : ExactNumbers} {order : MapOrder}
variable {scalingDataList : List GoString} {convertIndex : UInt16} {item : GoString}

/-- The item that the feeder decodes for a conversion index. -/
structure ItemAt (scalingDataList : List GoString) (convertIndex : UInt16) (item : GoString) :
    Prop where
  nonzero : convertIndex ≠ 0
  read : scalingData scalingDataList convertIndex.toNat = some item

/-! ## Enumerations -/

section Enumerations

variable {ns ss : List GoString} {members : List (GoString × Json)} {k v w : GoString}

/-- The members of the object that maps one enumeration to another one. -/
def enumMembers (ns ss : List GoString) : List (GoString × Json) :=
  (ns.zip ss).map fun p => (p.1, .str p.2)

theorem flatMap_enumMembers (hne : ns.zip ss ≠ []) :
    ((ns.zip ss).flatMap fun p => str "\"" ++ p.1 ++ str "\":\"" ++ p.2 ++ str "\", ") =
      rawMembers [32] (enumMembers ns ss) ++ [44, 32] := by
  rw [enumMembers]
  generalize ns.zip ss = pairs at hne ⊢
  have hquote : str "\"" = [34] := rfl
  have hcolon : str "\":\"" = [34, 58, 34] := rfl
  have hcomma : str "\", " = [34, 44, 32] := rfl
  induction pairs with
  | nil => exact absurd rfl hne
  | cons p pairs ih =>
    by_cases hlast : pairs = []
    · subst hlast
      simp [rawMembers, rawText, hquote, hcolon, hcomma]
    · have hmore : (pairs.map fun p => (p.1, Json.str p.2)) ≠ [] := by simpa using hlast
      rw [List.flatMap_cons, ih hlast, List.map_cons, rawMembers_cons _ _ hmore]
      simp [rawText, hquote, hcolon, hcomma]

/-- The tool writes the members as the text of an object. -/
theorem enumMap_eq (hne : ns.zip ss ≠ []) :
    enumMap ns ss = some (rawText [32] (.obj (enumMembers ns ss))) := by
  have hbrace : str "\x7b" = [123] := rfl
  have hclose : str "\x7d" = [125] := rfl
  rw [enumMap, flatMap_enumMembers hne, hbrace, hclose]
  generalize hbody : rawMembers [32] (enumMembers ns ss) = body
  have hslice : slice ([123] ++ (body ++ [44, 32])) 0
      (([123] ++ (body ++ [44, 32])).length - 2 : ℤ) = some (123 :: body) := by
    have hlength : (([123] ++ (body ++ [44, 32]) : GoString).length - 2 : ℤ) =
        ((123 :: body).length : ℕ) := by
      simp only [List.length_append, List.length_cons, List.length_nil]
      omega
    rw [hlength, slice, if_pos]
    · have hsplit : [123] ++ (body ++ [44, 32]) = (123 :: body) ++ [44, 32] := rfl
      rw [hsplit, Int.toNat_natCast, List.take_left]
      rfl
    · simp only [List.length_append, List.length_cons, List.length_nil]
      omega
  rw [hslice, rawText, hbody]
  rfl

theorem mem_ofMembers_of_mem (hnodup : (members.map Prod.fst).Nodup) {j : Json} (hj : j ≠ .null)
    (h : (k, j) ∈ members) : (k, j) ∈ GoMap.ofMembers members := by
  have hget : (GoMap.ofMembers members).get k = some j := by
    obtain ⟨front, rest, rfl⟩ := List.append_of_mem h
    rw [GoMap.get_ofMembers, List.lookup_eq_some_iff]
    refine ⟨rest.reverse, front.reverse, by simp, ?_⟩
    intro p hp
    rw [List.map_append, List.map_cons, List.nodup_append, List.nodup_cons] at hnodup
    have hfresh := hnodup.2.1.1
    rw [bne_iff_ne]
    rintro rfl
    exact hfresh (List.mem_map.mpr ⟨p, List.mem_reverse.mp hp, rfl⟩)
  have hvalue : valueAt (GoMap.ofMembers members) k = j := by rw [valueAt, hget, Option.getD_some]
  rw [← hvalue]
  exact valueAt_mem (by rwa [hvalue])

/-- A key of the map, of which range finds no other value. -/
theorem enumLoop_north (h : (k, Json.str v) ∈ members)
    (hunique : ∀ p ∈ members, p.1 = k → p.2 = .str v) : enumLoop true k members = some v := by
  induction members with
  | nil => exact absurd h (List.not_mem_nil)
  | cons p members ih =>
    obtain ⟨k', j⟩ := p
    obtain ⟨hhead, htail⟩ := List.forall_mem_cons.mp hunique
    rw [enumLoop, if_pos rfl]
    split
    · next heq =>
      rw [show j = .str v from hhead heq]
      rfl
    · next hne =>
      refine ih ((List.mem_cons.mp h).resolve_left ?_) htail
      intro heq
      exact hne (Prod.mk.inj heq).1.symm

/-- A value of the map, of which range finds no other key. -/
theorem enumLoop_south (h : (k, Json.str v) ∈ members)
    (hstr : ∀ p ∈ members, ∃ t, p.2 = .str t)
    (hunique : ∀ p ∈ members, p.2 = .str v → p.1 = k) :
    enumLoop false v members = some k := by
  induction members with
  | nil => exact absurd h (List.not_mem_nil)
  | cons p members ih =>
    obtain ⟨k', j⟩ := p
    obtain ⟨⟨t, rfl : j = .str t⟩, hrest⟩ := List.forall_mem_cons.mp hstr
    obtain ⟨hhead, htail⟩ := List.forall_mem_cons.mp hunique
    rw [enumLoop, if_neg Bool.false_ne_true]
    simp only [asString, Option.bind_eq_bind, Option.bind_some]
    split
    · next heq => rw [show k' = k from hhead (by rw [heq])]
    · next hne =>
      refine ih ((List.mem_cons.mp h).resolve_left ?_) hrest htail
      intro heq
      exact hne (Json.str.inj (Prod.mk.inj heq).2).symm

/-- Two enumerations that can be mapped to each other. -/
structure Enumerations (ns ss : List GoString) : Prop where
  length : ns.length = ss.length
  north : ns.Nodup
  south : ss.Nodup
  northLiteral : ∀ n ∈ ns, IsLiteral n
  southLiteral : ∀ s ∈ ss, IsLiteral s

theorem Enumerations.map_fst (h : Enumerations ns ss) :
    (enumMembers ns ss).map Prod.fst = ns := by
  rw [enumMembers, List.map_map]
  exact List.map_fst_zip (Nat.le_of_eq h.length)

theorem mem_enumMembers {p : GoString × Json} (hp : p ∈ enumMembers ns ss) :
    ∃ n s, (n, s) ∈ ns.zip ss ∧ p = (n, .str s) := by
  obtain ⟨q, hq, rfl⟩ := List.mem_map.mp hp
  exact ⟨q.1, q.2, hq, rfl⟩

/-- The item for two enumerations is decoded as the map of their values. -/
theorem Enumerations.parse (h : Enumerations ns ss) :
    (parseText (rawText [32] (.obj (enumMembers ns ss)))).map canon =
      some (.obj (GoMap.ofMembers (enumMembers ns ss))) := by
  obtain ⟨depth, hdepth⟩ : ∃ depth, maxNestingDepth = depth + 1 := ⟨9999, rfl⟩
  have hmember : ∀ p ∈ enumMembers ns ss, ∃ t, IsLiteral p.1 ∧ IsLiteral t ∧ p.2 = .str t := by
    intro p hp
    obtain ⟨n, s, hzip, rfl⟩ := mem_enumMembers hp
    obtain ⟨hn, hs⟩ := List.of_mem_zip hzip
    exact ⟨s, h.northLiteral n hn, h.southLiteral s hs, rfl⟩
  have htextual : Textual maxNestingDepth (.obj (enumMembers ns ss)) := by
    rw [hdepth]
    refine ⟨by rw [h.map_fst]; exact h.north, ?_⟩
    intro p hp
    obtain ⟨t, hkey, -, hvalue⟩ := hmember p hp
    rw [hvalue]
    exact ⟨hkey, .inr (by cases depth <;> trivial)⟩
  have hliteral : Literal maxNestingDepth (.obj (enumMembers ns ss)) := by
    rw [hdepth]
    intro p hp
    obtain ⟨t, -, ht, hvalue⟩ := hmember p hp
    rw [hvalue]
    cases depth <;> exact ht
  have hcanon : canonMembers (enumMembers ns ss) = enumMembers ns ss := by
    rw [canonMembers_eq_map, enumMembers, List.map_map]
    rfl
  rw [parseText_literal (by decide +kernel) htextual hliteral, Option.map_some, canon, hcanon]

/-- The value of one enumeration and the value of the other one that stands at its place. -/
theorem Enumerations.convert (h : Enumerations ns ss)
    (hitem : ItemAt scalingDataList convertIndex (rawText [32] (.obj (enumMembers ns ss))))
    (hvw : (v, w) ∈ ns.zip ss) (t t' : Int8) :
    convertValue numbers order scalingDataList v convertIndex t t' true = some w ∧
      convertValue numbers order scalingDataList w convertIndex t t' false = some v := by
  have hkeys : ((enumMembers ns ss).map Prod.fst).Nodup := by rw [h.map_fst]; exact h.north
  have hperm := order.range_perm (GoMap.ofMembers (enumMembers ns ss))
  have hmem : (v, Json.str w) ∈ order.range (GoMap.ofMembers (enumMembers ns ss)) :=
    hperm.mem_iff.mpr (mem_ofMembers_of_mem hkeys (by simp)
      (List.mem_map.mpr ⟨(v, w), hvw, rfl⟩))
  have hzip : ∀ p ∈ order.range (GoMap.ofMembers (enumMembers ns ss)),
      ∃ n s, (n, s) ∈ ns.zip ss ∧ p = (n, .str s) := fun p hp =>
    mem_enumMembers (GoMap.mem_ofMembers (hperm.mem_iff.mp hp))
  have hindex : ∀ {n s : GoString}, (n, s) ∈ ns.zip ss →
      ∃ i : ℕ, ns[i]? = some n ∧ ss[i]? = some s := by
    intro n s hns
    obtain ⟨i, hi⟩ := List.getElem?_of_mem hns
    exact ⟨i, by simpa using List.getElem?_zip_eq_some.mp hi⟩
  obtain ⟨i, hv, hw⟩ := hindex hvw
  obtain ⟨hiv, hiv'⟩ := List.getElem?_eq_some_iff.mp hv
  obtain ⟨hiw, hiw'⟩ := List.getElem?_eq_some_iff.mp hw
  constructor
  · rw [convertValue, if_neg hitem.nonzero, hitem.read, Option.bind_eq_bind, Option.bind_some,
      h.parse]
    refine enumLoop_north hmem ?_
    intro p hp hname
    obtain ⟨n, s, hns, rfl⟩ := hzip p hp
    obtain ⟨j, hn, hs⟩ := hindex hns
    obtain ⟨hjn, hjn'⟩ := List.getElem?_eq_some_iff.mp hn
    obtain rfl : i = j := (List.Nodup.getElem_inj_iff h.north).mp (by rw [hiv', hjn', ← hname])
    rw [hw] at hs
    rw [Option.some.inj hs]
  · rw [convertValue, if_neg hitem.nonzero, hitem.read, Option.bind_eq_bind, Option.bind_some,
      h.parse]
    refine enumLoop_south hmem ?_ ?_
    · intro p hp
      obtain ⟨n, s, -, rfl⟩ := hzip p hp
      exact ⟨s, rfl⟩
    · intro p hp hvalue
      obtain ⟨n, s, hns, rfl⟩ := hzip p hp
      obtain ⟨j, hn, hs⟩ := hindex hns
      obtain ⟨hjs, hjs'⟩ := List.getElem?_eq_some_iff.mp hs
      obtain rfl : i = j := (List.Nodup.getElem_inj_iff h.south).mp (by
        rw [hiw', hjs']
        exact (Json.str.inj hvalue).symm)
      rw [hv] at hn
      exact (Option.some.inj hn).symm

end Enumerations

/-! ## Numbers -/

section Numbers

variable {a b v : GoString} {A B x : ℚ}

/-- A number that is converted with coefficients comes back as the text it is printed as. -/
theorem linear_convert (hitem : ItemAt scalingDataList convertIndex item)
    (hparse : parseText item = some (.arr [.num a, .num b]))
    (ha : numbers.parseFloat a = some (.fin A)) (hA : A ≠ 0)
    (hb : numbers.parseFloat b = some (.fin B)) (hx : numbers.parseFloat v = some (.fin x))
    (t t' : Int8) :
    convertValue numbers order scalingDataList v convertIndex t t' true =
        some (numbers.formatFloat (.fin (A * x + B))) ∧
      convertValue numbers order scalingDataList (numbers.formatFloat (.fin (A * x + B)))
        convertIndex t t' false = some (numbers.formatFloat (.fin x)) := by
  have hy : IsDecimal (A * x + B) :=
    ((numbers.decimal ha).mul (numbers.decimal hx)).add (numbers.decimal hb)
  have hvalue : ∀ (value : GoString) (north2SouthConv : Bool),
      convertValue numbers order scalingDataList value convertIndex t t' north2SouthConv =
        linearConversion numbers [.num a, .num b] north2SouthConv value := by
    intro value north2SouthConv
    rw [convertValue, if_neg hitem.nonzero, hitem.read, Option.bind_eq_bind, Option.bind_some,
      hparse]
    rfl
  rw [hvalue, hvalue]
  constructor
  · simp [linearConversion, hx, asFloat, ha, hb]
  · simp [linearConversion, numbers.parse_format hy, asFloat, ha, hb, hA]

end Numbers

end VissServer.Feeder

import Mathlib.Data.List.Nodup
import VissServer.Utils.Messages

/-!
Unpacking a filter in any order of the members. unpackFilterLevel2 tests the name of a string and
of an array, but an object sets the parameter under any name, so that the last object visited
decides.
-/
namespace VissServer.Utils

open Go

/-! ## What the loop makes of the members -/

/-- What a member sets the type to. -/
def typeSet : GoString × Json → Option GoString
  | (k, .str v) => if k = str "type" then some v else none
  | _ => none

/-- What a member sets the parameter to. -/
def parameterSet : GoString × Json → Option GoString
  | (k, .str v) => if k = str "parameter" then some v else none
  | (k, .arr items) => if k = str "parameter" then some (marshal (.arr items)) else none
  | (_, .obj members) => some (marshal (.obj members))
  | _ => none

def unpackMember (f : FilterObject) (p : GoString × Json) : FilterObject :=
  { type := (typeSet p).getD f.type, parameter := (parameterSet p).getD f.parameter }

theorem unpackFilterLevel2_foldl (members : GoMap Json) :
    unpackFilterLevel2 members = members.foldl unpackMember {} := by
  have hne : str "parameter" ≠ str "type" := by decide
  unfold unpackFilterLevel2
  congr 1
  funext f p
  obtain ⟨k, j⟩ := p
  cases j with
  | str v =>
    by_cases htype : k = str "type"
    · simp [unpackMember, typeSet, parameterSet, htype, hne.symm]
    · by_cases hparameter : k = str "parameter"
      · simp [unpackMember, typeSet, parameterSet, hparameter, hne]
      · simp [unpackMember, typeSet, parameterSet, htype, hparameter]
  | arr items =>
    by_cases hparameter : k = str "parameter"
    · simp [unpackMember, typeSet, parameterSet, hparameter]
    · simp [unpackMember, typeSet, parameterSet, hparameter]
  | _ => rfl

theorem getLast?_filterMap_cons {α β : Type*} (g : α → Option β) (a : α) (l : List α) (b : β) :
    (((a :: l).filterMap g).getLast?).getD b = ((l.filterMap g).getLast?).getD ((g a).getD b) := by
  cases h : g a with
  | none => rw [List.filterMap_cons_none h, Option.getD_none]
  | some c => simp [List.filterMap_cons_some h, List.getLast?_cons]

theorem foldl_unpackMember (members : GoMap Json) (f : FilterObject) :
    members.foldl unpackMember f =
      { type := ((members.filterMap typeSet).getLast?).getD f.type
        parameter := ((members.filterMap parameterSet).getLast?).getD f.parameter } := by
  induction members generalizing f with
  | nil => rfl
  | cons p members ih =>
    rw [List.foldl_cons, ih, getLast?_filterMap_cons, getLast?_filterMap_cons]
    rfl

/-- The last member that sets a field decides about it. -/
theorem unpackFilterLevel2_eq (members : GoMap Json) :
    unpackFilterLevel2 members =
      { type := ((members.filterMap typeSet).getLast?).getD []
        parameter := ((members.filterMap parameterSet).getLast?).getD [] } := by
  rw [unpackFilterLevel2_foldl, foldl_unpackMember]

theorem getLast?_filterMap_eq {α β : Type*} {g : α → Option β} {l : List α} {b : β}
    (hall : ∀ a ∈ l, ∀ c, g a = some c → c = b) (hsome : ∃ a ∈ l, g a = some b) :
    (l.filterMap g).getLast? = some b := by
  obtain ⟨a, ha, hb⟩ := hsome
  cases hlast : (l.filterMap g).getLast? with
  | none =>
    have hnil := List.getLast?_eq_none_iff.mp hlast
    have hmem : b ∈ l.filterMap g := List.mem_filterMap.mpr ⟨a, ha, hb⟩
    rw [hnil] at hmem
    cases hmem
  | some c =>
    obtain ⟨a', ha', hc⟩ := List.mem_filterMap.mp (List.mem_of_getLast? hlast)
    rw [hall a' ha' c hc]

/-! ## Filter objects -/

/-- The text of a parameter that a filter object may have. -/
def parameterText : Json → Option GoString
  | .str v => some v
  | .arr items => some (marshal (.arr items))
  | .obj members => some (marshal (.obj members))
  | _ => none

/-- The members, in some order, of a filter object with this type and parameter. -/
structure Describes (members : GoMap Json) (f : FilterObject) : Prop where
  distinct : (members.map Prod.fst).Nodup
  type : (str "type", .str f.type) ∈ members
  parameter : ∃ j, (str "parameter", j) ∈ members ∧ parameterText j = some f.parameter

def DescribesElement (v : Json) (f : FilterObject) : Prop :=
  ∃ members, v = .obj members ∧ Describes members f

/-- A filter object, or an array of filter objects. -/
def DescribesFilter (filter : Json) (filterList : List FilterObject) : Prop :=
  match filter with
  | .arr items => List.Forall₂ DescribesElement items filterList
  | v => ∃ f, filterList = [f] ∧ DescribesElement v f

/-- Objects under other names have the text of the parameter. -/
def OthersAgree (members : GoMap Json) : Prop :=
  ∀ k inner j, (k, .obj inner) ∈ members → k ≠ str "parameter" → (str "parameter", j) ∈ members →
    parameterText j = some (marshal (.obj inner))

def filterObjects : Json → List (GoMap Json)
  | .arr items => items.filterMap fun v => match v with
      | .obj members => some members
      | _ => none
  | .obj members => [members]
  | _ => []

section Element

variable {members order : GoMap Json} {f : FilterObject} {k : GoString} {j j' : Json}

theorem eq_of_nodup (hdistinct : (members.map Prod.fst).Nodup) (h : (k, j) ∈ members)
    (h' : (k, j') ∈ members) : j = j' :=
  congrArg Prod.snd (List.inj_on_of_nodup_map hdistinct h h' rfl)

theorem typeSet_eq_some {p : GoString × Json} {t : GoString} :
    typeSet p = some t ↔ p = (str "type", .str t) := by
  obtain ⟨k, j⟩ := p
  cases j with
  | str v =>
    by_cases h : k = str "type"
    · simp [typeSet, h]
    · simp [typeSet, h]
  | _ => simp [typeSet]

theorem parameterSet_parameter (j : Json) :
    parameterSet (str "parameter", j) = parameterText j := by
  cases j <;> simp [parameterSet, parameterText]

theorem parameterSet_other (hk : k ≠ str "parameter") {t : GoString} :
    parameterSet (k, j) = some t ↔ ∃ inner, j = .obj inner ∧ t = marshal (.obj inner) := by
  cases j with
  | obj inner => simp [parameterSet, eq_comm]
  | _ => simp [parameterSet, hk]

/-- In any order, where the objects agree. -/
theorem unpackFilterLevel2_of_agree (h : Describes members f) (hagree : OthersAgree members)
    (horder : order.Perm members) : unpackFilterLevel2 order = f := by
  obtain ⟨j, hj, htext⟩ := h.parameter
  have htype : (order.filterMap typeSet).getLast? = some f.type := by
    refine getLast?_filterMap_eq (fun p hp t ht => ?_)
      ⟨_, horder.mem_iff.mpr h.type, typeSet_eq_some.mpr rfl⟩
    rw [typeSet_eq_some.mp ht] at hp
    exact Json.str.inj (eq_of_nodup h.distinct (horder.mem_iff.mp hp) h.type)
  have hparameter : (order.filterMap parameterSet).getLast? = some f.parameter := by
    refine getLast?_filterMap_eq (fun p hp t ht => ?_)
      ⟨_, horder.mem_iff.mpr hj, (parameterSet_parameter j).trans htext⟩
    obtain ⟨k, j'⟩ := p
    have hmem := horder.mem_iff.mp hp
    by_cases hk : k = str "parameter"
    · subst hk
      rw [parameterSet_parameter, eq_of_nodup h.distinct hmem hj, htext] at ht
      exact (Option.some.inj ht).symm
    · obtain ⟨inner, rfl, rfl⟩ := (parameterSet_other hk).mp ht
      have hinner := hagree k inner j hmem hk hj
      rw [htext] at hinner
      exact (Option.some.inj hinner).symm
  rw [unpackFilterLevel2_eq, htype, hparameter]
  rfl

/-- The order with the members of one name behind the others. -/
def visitLast (k : GoString) (m : GoMap Json) : GoMap Json :=
  m.filter (fun p => decide (p.1 ≠ k)) ++ m.filter (fun p => decide (p.1 = k))

theorem visitLast_perm (k : GoString) (m : GoMap Json) : (visitLast k m).Perm m := by
  have h := List.filter_append_perm (fun p : GoString × Json => decide (p.1 ≠ k)) m
  simpa [visitLast] using h

theorem unpackFilterLevel2_visitLast (hdistinct : (members.map Prod.fst).Nodup)
    {inner : List (GoString × Json)} (hmem : (k, .obj inner) ∈ members) :
    (unpackFilterLevel2 (visitLast k members)).parameter = marshal (.obj inner) := by
  have hlast : ((members.filter fun p => decide (p.1 = k)).filterMap parameterSet).getLast? =
      some (marshal (.obj inner)) := by
    refine getLast?_filterMap_eq (fun p hp t ht => ?_)
      ⟨(k, .obj inner), List.mem_filter.mpr ⟨hmem, by simp⟩, rfl⟩
    obtain ⟨k', j'⟩ := p
    obtain ⟨hmem', hk⟩ := List.mem_filter.mp hp
    obtain rfl : k' = k := by simpa using hk
    obtain rfl := eq_of_nodup hdistinct hmem' hmem
    exact (Option.some.inj ht).symm
  rw [unpackFilterLevel2_eq, visitLast]
  dsimp only
  rw [List.filterMap_append (f := parameterSet), List.getLast?_append, hlast]
  rfl

end Element

/-! ## The law -/

section Law

variable {filter : Json} {filterList : List FilterObject} {range : GoMap Json → GoMap Json}

/-- An object of the filter and the element that is unpacked from it. -/
theorem DescribesFilter.element (h : DescribesFilter filter filterList) {members : GoMap Json}
    (hmem : members ∈ filterObjects filter) :
    ∃ f, Describes members f ∧ ∀ range, unpackFilter range filter = filterList →
      unpackFilterLevel2 (range members) = f := by
  cases filter with
  | obj members' =>
    obtain rfl := List.mem_singleton.mp hmem
    obtain ⟨f, rfl, members', hobj, hf⟩ := h
    obtain rfl := Json.obj.inj hobj
    exact ⟨f, hf, fun range hrange => (List.cons.inj hrange).1⟩
  | arr items =>
    change List.Forall₂ DescribesElement items filterList at h
    induction h with
    | nil => cases hmem
    | cons hv _ ih =>
      obtain ⟨members', rfl, hf⟩ := hv
      rcases List.mem_cons.mp hmem with rfl | hmem
      · exact ⟨_, hf, fun range hrange => (List.cons.inj hrange).1⟩
      · obtain ⟨f, hf, hunpacked⟩ := ih hmem
        exact ⟨f, hf, fun range hrange => hunpacked range (List.cons.inj hrange).2⟩
  | _ => cases hmem

theorem unpackFilter_of_agree (h : DescribesFilter filter filterList)
    (hagree : ∀ members ∈ filterObjects filter, OthersAgree members)
    (hrange : ∀ m, (range m).Perm m) : unpackFilter range filter = filterList := by
  cases filter with
  | obj members =>
    obtain ⟨f, rfl, members', hobj, hf⟩ := h
    obtain rfl := Json.obj.inj hobj
    rw [unpackFilter, unpackFilterLevel2_of_agree hf (hagree _ (by simp [filterObjects]))
      (hrange _)]
  | arr items =>
    change List.Forall₂ DescribesElement items filterList at h
    rw [unpackFilter]
    induction h with
    | nil => rfl
    | cons hv _ ih =>
      obtain ⟨members, rfl, hf⟩ := hv
      obtain ⟨hhead, htail⟩ := List.forall_mem_cons.mp hagree
      rw [unpackFilterLevel1, List.map_cons, ← unpackFilterLevel1, ih htail]
      dsimp only
      rw [unpackFilterLevel2_of_agree hf hhead (hrange _)]
  | _ =>
    obtain ⟨f, -, members, hobj, -⟩ := h
    cases hobj

/-- Every order gives the filter objects exactly where no object under another name has another
text. -/
theorem unpackFilter_iff (filter : Json) (filterList : List FilterObject)
    (h : DescribesFilter filter filterList) :
    (∀ range : GoMap Json → GoMap Json, (∀ m, (range m).Perm m) →
      unpackFilter range filter = filterList) ↔
    ∀ members ∈ filterObjects filter, OthersAgree members := by
  constructor
  · intro hall members hmem k inner j hinner hk hj
    obtain ⟨f, hf, hunpacked⟩ := h.element hmem
    obtain ⟨j', hj', htext⟩ := hf.parameter
    rw [eq_of_nodup hf.distinct hj hj', htext,
      ← unpackFilterLevel2_visitLast hf.distinct hinner,
      hunpacked (visitLast k) (hall (visitLast k) (visitLast_perm k))]
  · intro hagree range hrange
    exact unpackFilter_of_agree h hagree hrange

/-- A change filter. -/
def changeFilter : Json :=
  .obj [(str "parameter", .obj [(str "diff", .str (str "0")), (str "logic-op", .str (str "ne"))]),
    (str "type", .str (str "change"))]

theorem unpackFilter_change : unpackFilter id changeFilter = [⟨str "change",
    str "\x7b\"diff\":\"0\",\"logic-op\":\"ne\"\x7d"⟩] := by
  have htext : parameterText (.obj [(str "diff", .str (str "0")),
      (str "logic-op", .str (str "ne"))]) =
        some (str "\x7b\"diff\":\"0\",\"logic-op\":\"ne\"\x7d") := by decide +kernel
  refine (unpackFilter_iff changeFilter _ ⟨_, rfl, _, rfl, by decide, by simp, _,
    List.mem_cons_self, htext⟩).mpr ?_ id GoMap.perm_id
  intro members hmem k inner j hinner hk
  obtain rfl := List.mem_singleton.mp hmem
  have hkey : (k, Json.obj inner) ∉ [(str "type", Json.str (str "change"))] := by simp
  rcases List.mem_cons.mp hinner with heq | hinner
  · exact absurd (congrArg Prod.fst heq) hk
  · exact absurd hinner hkey

/-- A path filter with a further member, which the reverse order visits last. -/
def annotatedFilter : Json :=
  .obj [(str "note", .obj []), (str "parameter", .str (str "Speed")),
    (str "type", .str (str "paths"))]

theorem unpackFilter_annotated : ¬ ∀ (filter : Json) (filterList : List FilterObject),
    DescribesFilter filter filterList → ∀ range : GoMap Json → GoMap Json,
      (∀ m, (range m).Perm m) → unpackFilter range filter = filterList := by
  intro hall
  have h := hall annotatedFilter [⟨str "paths", str "Speed"⟩] ⟨_, rfl, _, rfl, by decide, by simp,
    .str (str "Speed"), by simp, rfl⟩ List.reverse List.reverse_perm
  exact absurd (congrArg (List.map FilterObject.parameter) h) (by decide)

end Law

end VissServer.Utils

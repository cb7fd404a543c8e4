import VissServer.Go.JsonObjects
import VissServer.Go.Slices
import VissServer.Utils.ProtoMessages

/-!
The JSON values of filters, errors and data objects of protobuf messages. The printers write
a value from the beginning to the end, most strings between quotes and without an escape; the
text is the one of the value as it is printed, which differs in places from the value that is
meant.
-/
namespace VissServer.Utils

open Go

inductive Reading
  | printed
  | meant
  deriving DecidableEq

def nonEmpty (s : GoString) : Option Json := if s = [] then none else some (.str s)

/-- The names of metadata trees and domains are printed without quotes. -/
def Reading.metadata : Reading → GoString → Json
  | .printed, s => .num s
  | .meant, s => .str s

/-- An optional string that is there but empty is not printed. -/
def Reading.optional : Reading → Option GoString → Option Json
  | .printed, s => nonEmpty (s.getD [])
  | .meant, s => s.map Json.str

/-! ## Filters -/

def PathsValue.json (v : PathsValue) : Json := listValue (v.relativePath.map Json.str)

def TimebasedValue.json (v : TimebasedValue) : Json := .obj [(str "period", .str v.period)]

def RangeValue.json (v : RangeValue) : Json :=
  .obj [(str "logic-op", .str v.logicOperator), (str "boundary", .str v.boundary)]

def ChangeValue.json (v : ChangeValue) : Json :=
  .obj [(str "logic-op", .str v.logicOperator), (str "diff", .str v.diff)]

def CurvelogValue.json (v : CurvelogValue) : Json :=
  .obj [(str "maxerr", .str v.maxErr), (str "bufsize", .str v.bufSize)]

def FilterType.name : FilterType → GoString
  | .paths => str "paths"
  | .timebased => str "timebased"
  | .range => str "range"
  | .change => str "change"
  | .curvelog => str "curvelog"
  | .history => str "history"
  | .staticMetadata => str "static-metadata"
  | .dynamicMetadata => str "dynamic-metadata"
  | .unknown => []

/-- The parameter of a filter; there is none for an unknown type. -/
def FilterValue.parameter (reading : Reading) (v : FilterValue) : FilterType → Json
  | .paths => (v.valuePaths.getD {}).json
  | .timebased => (v.valueTimebased.getD {}).json
  | .range => listValue (v.valueRange.map RangeValue.json)
  | .change => (v.valueChange.getD {}).json
  | .curvelog => (v.valueCurvelog.getD {}).json
  | .history => .str (v.valueHistory.getD {}).timePeriod
  | .staticMetadata => reading.metadata (v.valueStaticMetadata.getD {}).tree
  | .dynamicMetadata => reading.metadata (v.valueDynamicMetadata.getD {}).metadataDomain
  | .unknown => .null

def filterObject (name : GoString) (parameter : Json) : Json :=
  .obj [(str "type", .str name), (str "parameter", parameter)]

def FilterExpression.json (reading : Reading) (f : FilterExpression) : Json :=
  filterObject f.fType.name ((f.value.getD {}).parameter reading f.fType)

/-- The lists that the printer of the filter goes through have items. -/
def FilterExpression.Listed (f : FilterExpression) : Prop :=
  match f.fType with
  | .paths => ((f.value.getD {}).valuePaths.getD {}).relativePath ≠ []
  | .range => (f.value.getD {}).valueRange ≠ []
  | _ => True

instance FilterExpression.decidableListed (f : FilterExpression) : Decidable f.Listed := by
  unfold FilterExpression.Listed
  cases f.fType <;> infer_instance

theorem flatMap_comma {items : List Json} (hne : items ≠ []) :
    (items.map (rawText [])).flatMap (· ++ str ",") = rawItems [] items ++ [44] := by
  rw [← rawItems_trailing [] hne, List.flatMap_map]
  rfl

/-- A list is printed as the value of its items, unless it is empty. -/
theorem listText_eq (items : List Json) :
    listText (items.map (rawText [])) =
      if items = [] then none else some (rawText [] (listValue items)) := by
  unfold listText
  match items with
  | [] => rfl
  | [j] =>
    have hcut := slice_init (rawText [] j) 44
    simp only [List.map_cons, List.map_nil, List.length_singleton, Nat.lt_irrefl, if_false,
      List.nil_append, List.flatMap_cons, List.flatMap_nil, List.append_nil,
      show str "," = [44] from rfl, hcut, Option.bind_eq_bind, Option.bind_some]
    rfl
  | j :: j' :: items =>
    have hflat := flatMap_comma (List.cons_ne_nil j (j' :: items))
    have hcut := slice_init (91 :: rawItems [] (j :: j' :: items)) 44
    have hlength : 1 < ((j :: j' :: items).map (rawText [])).length := by simp
    simp only [if_pos hlength, hflat, show str "[" = [91] from rfl, List.singleton_append]
    rw [← List.cons_append, hcut]
    rfl

theorem getJsonFilterValuePaths_eq (f : FilterExpression) (v : PathsValue)
    (hv : (f.value.getD {}).valuePaths.getD {} = v) :
    getJsonFilterValuePaths f =
      if v.relativePath = [] then none else some (rawText [] v.json) := by
  subst hv
  have hlist := listText_eq (((f.value.getD {}).valuePaths.getD {}).relativePath.map Json.str)
  simp only [List.map_map, List.map_eq_nil_iff] at hlist
  exact hlist

theorem getJsonFilterValueRange_eq (f : FilterExpression) :
    getJsonFilterValueRange f = if (f.value.getD {}).valueRange = [] then none
      else some (rawText [] (listValue ((f.value.getD {}).valueRange.map RangeValue.json))) := by
  have hlist := listText_eq ((f.value.getD {}).valueRange.map RangeValue.json)
  simp only [List.map_map, List.map_eq_nil_iff] at hlist
  rw [← hlist]
  refine congrArg listText (List.map_congr_left fun v _ => ?_)
  simp only [List.append_assoc]
  simp [RangeValue.json, rawText, rawMembers]
  rfl

theorem getJsonFilterValueTimebased_eq (f : FilterExpression) :
    getJsonFilterValueTimebased f = rawText [] ((f.value.getD {}).valueTimebased.getD {}).json := by
  simp only [getJsonFilterValueTimebased, List.append_assoc]
  simp [TimebasedValue.json, rawText, rawMembers]
  rfl

theorem getJsonFilterValueChange_eq (f : FilterExpression) :
    getJsonFilterValueChange f = rawText [] ((f.value.getD {}).valueChange.getD {}).json := by
  simp only [getJsonFilterValueChange, List.append_assoc]
  simp [ChangeValue.json, rawText, rawMembers]
  rfl

theorem getJsonFilterValueCurvelog_eq (f : FilterExpression) :
    getJsonFilterValueCurvelog f = rawText [] ((f.value.getD {}).valueCurvelog.getD {}).json := by
  simp only [getJsonFilterValueCurvelog, List.append_assoc]
  simp [CurvelogValue.json, rawText, rawMembers]
  rfl

/-- What is printed for a filter type: its name, and the text of the parameter. -/
theorem filterText_eq (f : FilterExpression) :
    filterText f = if f.Listed then
      some (f.fType.name, rawText [] ((f.value.getD {}).parameter .printed f.fType)) else none := by
  obtain ⟨fType, value⟩ := f
  have hsingle : ∀ {t name text}, FilterExpression.Listed ⟨t, value⟩ →
      filterText ⟨t, value⟩ = some (name, text) → name = t.name →
      text = rawText [] ((value.getD {}).parameter .printed t) →
      filterText ⟨t, value⟩ = if FilterExpression.Listed ⟨t, value⟩ then
        some (t.name, rawText [] ((value.getD {}).parameter .printed t)) else none := by
    intro t name text hlisted htext hname hvalue
    rw [if_pos hlisted, htext, hname, hvalue]
  cases fType with
  | paths =>
    change (getJsonFilterValuePaths ⟨.paths, value⟩).map _ = _
    rw [getJsonFilterValuePaths_eq _ _ rfl]
    by_cases h : ((value.getD {}).valuePaths.getD {}).relativePath = []
    · have hlisted : ¬ FilterExpression.Listed ⟨.paths, value⟩ := not_not_intro h
      rw [if_pos h, if_neg hlisted]
      rfl
    · have hlisted : FilterExpression.Listed ⟨.paths, value⟩ := h
      rw [if_neg h, if_pos hlisted]
      rfl
  | range =>
    change (getJsonFilterValueRange ⟨.range, value⟩).map _ = _
    rw [getJsonFilterValueRange_eq]
    by_cases h : (value.getD {}).valueRange = []
    · have hlisted : ¬ FilterExpression.Listed ⟨.range, value⟩ := not_not_intro h
      rw [if_pos h, if_neg hlisted]
      rfl
    · have hlisted : FilterExpression.Listed ⟨.range, value⟩ := h
      rw [if_neg h, if_pos hlisted]
      rfl
  | timebased => exact hsingle trivial rfl rfl (getJsonFilterValueTimebased_eq _)
  | change => exact hsingle trivial rfl rfl (getJsonFilterValueChange_eq _)
  | curvelog => exact hsingle trivial rfl rfl (getJsonFilterValueCurvelog_eq _)
  | history => exact hsingle trivial rfl rfl rfl
  | staticMetadata => exact hsingle trivial rfl rfl rfl
  | dynamicMetadata => exact hsingle trivial rfl rfl rfl
  | unknown => exact hsingle trivial rfl rfl rfl

/-- What synthesizeFilter prints: the text of the filter object as it is printed. -/
theorem synthesizeFilter_eq (f : FilterExpression) :
    synthesizeFilter f = if f.Listed then some (rawText [] (f.json .printed)) else none := by
  rw [synthesizeFilter, filterText_eq]
  split
  · simp only [Option.map_some, List.append_assoc, FilterExpression.json, filterObject]
    simp [rawText, rawMembers]
    rfl
  · rfl

/-- No name of a metadata tree or domain is printed for the filter. -/
def FilterExpression.Quoted (f : FilterExpression) : Prop :=
  f.fType ≠ .staticMetadata ∧ f.fType ≠ .dynamicMetadata

theorem FilterValue.textual (v : FilterValue) (t : FilterType) :
    v.parameter .meant t = .null ∨ Textual 2 (v.parameter .meant t) := by
  have hobject : ∀ k s, IsLiteral k → Textual 2 (.obj [(k, .str s)]) := by
    intro k s hk
    refine ⟨by simp, fun p hp => ?_⟩
    rw [List.mem_singleton.mp hp]
    exact ⟨hk, .inr trivial⟩
  have hpair : ∀ k s k' s', IsLiteral k → IsLiteral k' → k ≠ k' →
      Textual 1 (.obj [(k, .str s), (k', .str s')]) := by
    intro k s k' s' hk hk' hne
    refine ⟨by simp [hne], fun p hp => ?_⟩
    rcases List.mem_pair.mp hp with rfl | rfl
    · exact ⟨hk, .inr trivial⟩
    · exact ⟨hk', .inr trivial⟩
  have hrange : ∀ v : RangeValue, Textual 1 v.json := fun v =>
    hpair _ _ _ _ (isLiteral_of_all (by decide)) (isLiteral_of_all (by decide)) (by decide)
  cases t with
  | paths =>
    right
    refine textual_listValue fun j hj => ?_
    obtain ⟨s, -, rfl⟩ := List.mem_map.mp hj
    exact trivial
  | timebased => exact .inr (hobject _ _ (isLiteral_of_all (by decide)))
  | range =>
    right
    refine textual_listValue fun j hj => ?_
    obtain ⟨v, -, rfl⟩ := List.mem_map.mp hj
    exact hrange v
  | change =>
    exact .inr ((hpair _ _ _ _ (isLiteral_of_all (by decide)) (isLiteral_of_all (by decide))
      (by decide)).mono (by omega)).1
  | curvelog =>
    exact .inr ((hpair _ _ _ _ (isLiteral_of_all (by decide)) (isLiteral_of_all (by decide))
      (by decide)).mono (by omega)).1
  | history => exact .inr trivial
  | staticMetadata => exact .inr trivial
  | dynamicMetadata => exact .inr trivial
  | unknown => exact .inl rfl

theorem textual_filterObject {depth : ℕ} (name : GoString) {parameter : Json}
    (h : parameter = .null ∨ Textual depth parameter) :
    Textual (depth + 1) (filterObject name parameter) := by
  have hnodup : [str "type", str "parameter"].Nodup := by decide
  have htype : IsLiteral (str "type") := isLiteral_of_all (by decide)
  have hparameter : IsLiteral (str "parameter") := isLiteral_of_all (by decide)
  refine ⟨hnodup, fun p hp => ?_⟩
  rcases List.mem_pair.mp hp with rfl | rfl
  · exact ⟨htype, .inr (by cases depth <;> exact trivial)⟩
  · exact ⟨hparameter, h⟩

theorem FilterExpression.textual (f : FilterExpression) : Textual 3 (f.json .meant) :=
  textual_filterObject f.fType.name (FilterValue.textual _ _)

theorem marks_filterObject (name : GoString) (parameter : Json) :
    marks (rawText [] (filterObject name parameter)) = marks name + marks (rawText [] parameter) + 6 ∧
      cost (filterObject name parameter) = marks name + cost parameter + 6 := by
  have htype : marks (str "type") = 0 := by decide
  have hparameter : marks (str "parameter") = 0 := by decide
  constructor
  · rw [filterObject, marks_rawText_obj (by simp)]
    simp only [List.map_cons, List.map_nil, List.sum_cons, List.sum_nil, memberMarks,
      marks_rawText_str, cost, htype, hparameter]
    omega
  · simp only [filterObject, cost, membersCost, htype, hparameter]
    omega

/-- A filter is printed as it is meant, or with less marks. -/
theorem FilterExpression.printed_quoted {f : FilterExpression} (h : f.Quoted) :
    f.json .printed = f.json .meant := by
  obtain ⟨fType, value⟩ := f
  cases fType with
  | staticMetadata => exact absurd rfl h.1
  | dynamicMetadata => exact absurd rfl h.2
  | _ => rfl

theorem FilterExpression.marks_unquoted {f : FilterExpression} (h : ¬ f.Quoted) :
    marks (rawText [] (f.json .printed)) < cost (f.json .meant) := by
  obtain ⟨fType, value⟩ := f
  have hmarks := marks_filterObject fType.name ((value.getD {}).parameter .printed fType)
  have hcost := marks_filterObject fType.name ((value.getD {}).parameter .meant fType)
  rw [FilterExpression.json, FilterExpression.json, hmarks.1, hcost.2]
  cases fType with
  | staticMetadata => simp [FilterValue.parameter, Reading.metadata, rawText, cost]
  | dynamicMetadata => simp [FilterValue.parameter, Reading.metadata, rawText, cost]
  | _ => exact absurd ⟨by simp, by simp⟩ h

def FilterExpressions.Quoted (f : FilterExpressions) : Prop :=
  ∀ filterExp ∈ f.filterExp, filterExp.Quoted

def FilterExpressions.json (reading : Reading) (f : FilterExpressions) : Json :=
  listValue (f.filterExp.map fun filterExp => filterExp.json reading)

def FilterExpressions.Listed (f : FilterExpressions) : Prop :=
  f.filterExp ≠ [] ∧ ∀ filterExp ∈ f.filterExp, filterExp.Listed

theorem FilterExpressions.textual (f : FilterExpressions) : Textual 4 (f.json .meant) := by
  refine textual_listValue fun j hj => ?_
  obtain ⟨filterExp, -, rfl⟩ := List.mem_map.mp hj
  exact filterExp.textual

theorem FilterExpressions.printed_quoted {f : FilterExpressions} (h : f.Quoted) :
    f.json .printed = f.json .meant :=
  congrArg listValue (List.map_congr_left fun _ hf => FilterExpression.printed_quoted (h _ hf))

theorem FilterExpression.marks_le (f : FilterExpression) :
    marks (rawText [] (f.json .printed)) ≤ cost (f.json .meant) := by
  by_cases h : f.Quoted
  · rw [FilterExpression.printed_quoted h, marks_rawText (by simp) f.textual]
  · exact Nat.le_of_lt (FilterExpression.marks_unquoted h)

theorem FilterExpressions.marks_unquoted {f : FilterExpressions} (h : ¬ f.Quoted) :
    marks (rawText [] (f.json .printed)) < cost (f.json .meant) := by
  unfold FilterExpressions.Quoted at h
  push Not at h
  obtain ⟨filterExp, hmem, hfilter⟩ := h
  rw [FilterExpressions.json, FilterExpressions.json, marks_listValue (by simp), cost_listValue,
    List.map_map, List.map_map]
  exact List.sum_lt_sum _ _ (fun filterExp _ => filterExp.marks_le)
    ⟨filterExp, hmem, FilterExpression.marks_unquoted hfilter⟩

/-- A member is left out where its value is empty. -/
theorem createJSON_eq (value key : GoString) :
    createJSON value key = memberTail [] (key, nonEmpty value) := by
  unfold createJSON nonEmpty
  cases value with
  | nil => rfl
  | cons c value =>
    rw [if_pos (by simp), if_neg (by simp)]
    simp only [List.append_assoc]
    rfl

/-! ## Fields -/

/-- A JSON value of strings, arrays and objects that is printed as it is meant. -/
abbrev TextValue := {j : Json // Textual 4 j}

/-- What a message has for a name of its JSON object. -/
inductive Field
  | text (s : GoString)
  | nonEmpty (s : GoString)
  | optional (s : Option GoString)
  | filter (f : Option FilterExpressions)
  | firstFilter (f : Option FilterExpressions)
  | value (j : Option TextValue)
  | unclosed (s : GoString)
  | unprinted (s : Option GoString)

/-- The first filter expression is printed alone. -/
def FilterExpressions.first : Reading → FilterExpressions → Json
  | .printed, f => (f.filterExp.headD {}).json .printed
  | .meant, f => f.json .meant

/-- The value of a field. One is printed without its last quote, and one not at all. -/
def Field.json (reading : Reading) : Field → Option Json
  | .text s => some (.str s)
  | .nonEmpty s => Utils.nonEmpty s
  | .optional s => reading.optional s
  | .filter f => f.map (·.json reading)
  | .firstFilter f => f.map (FilterExpressions.first reading)
  | .value j => j.map Subtype.val
  | .unclosed s => match reading with
    | .printed => some (.num (34 :: s))
    | .meant => some (.str s)
  | .unprinted s => match reading with
    | .printed => none
    | .meant => s.map Json.str

/-- The lists of the field that the printer goes through have items. -/
def Field.Listed : Field → Prop
  | .filter fs => ∀ f ∈ fs, FilterExpressions.Listed f
  | .firstFilter fs => ∀ f ∈ fs, f.filterExp ≠ [] ∧ (f.filterExp.headD {}).Listed
  | _ => True

/-- No string of the field is left out or printed without its quotes. -/
def Field.Quoted : Field → Prop
  | .optional s => s ≠ some []
  | .filter fs => ∀ f ∈ fs, FilterExpressions.Quoted f
  | .firstFilter fs => ∀ f ∈ fs, f.filterExp.length ≤ 1 ∧ FilterExpressions.Quoted f
  | .unclosed _ => False
  | .unprinted s => s = none
  | _ => True

theorem Field.textual (field : Field) : ∀ j ∈ field.json .meant, Textual 4 j := by
  have hoptional : ∀ s : Option GoString, ∀ j ∈ s.map Json.str, Textual 4 j := by
    intro s j hj
    obtain ⟨t, -, rfl⟩ := Option.map_eq_some_iff.mp hj
    exact trivial
  have hfilter : ∀ f : Option FilterExpressions, ∀ j ∈ f.map (·.json .meant), Textual 4 j := by
    intro f j hj
    obtain ⟨f, -, rfl⟩ := Option.map_eq_some_iff.mp hj
    exact f.textual
  cases field with
  | text s => exact hoptional (some s)
  | nonEmpty s =>
    intro j hj
    rw [Field.json, Utils.nonEmpty] at hj
    split at hj
    · simp at hj
    · exact hoptional (some s) j hj
  | optional s => exact hoptional s
  | filter f => exact hfilter f
  | firstFilter f => exact hfilter f
  | value j =>
    intro v hv
    obtain ⟨v, -, rfl⟩ := Option.map_eq_some_iff.mp hv
    exact v.property
  | unclosed s => exact hoptional (some s)
  | unprinted s => exact hoptional s

theorem Field.printed_quoted {field : Field} (hlisted : field.Listed) (h : field.Quoted) :
    field.json .printed = field.json .meant := by
  cases field with
  | optional s =>
    match s with
    | none => rfl
    | some [] => exact absurd rfl h
    | some (c :: s) => rfl
  | filter f =>
    cases f with
    | none => rfl
    | some f => exact congrArg some (FilterExpressions.printed_quoted (h f rfl))
  | firstFilter f =>
    cases f with
    | none => rfl
    | some f =>
      obtain ⟨filterExp⟩ := f
      obtain ⟨hlength, hquoted⟩ := h _ rfl
      match filterExp with
      | [] => exact absurd rfl (hlisted _ rfl).1
      | [e] =>
        have hfirst := FilterExpression.printed_quoted (hquoted e (List.mem_singleton_self e))
        exact congrArg some hfirst
      | _ :: _ :: _ => simp at hlength
  | unclosed s => exact absurd h id
  | unprinted s =>
    obtain rfl : s = none := h
    rfl
  | _ => rfl

theorem FilterExpression.cost_pos (f : FilterExpression) : 0 < cost (f.json .meant) := by
  rw [FilterExpression.json, (marks_filterObject _ _).2]
  omega

/-- A field that is not quoted is printed with less marks than reading it would cost. -/
theorem Field.marks_unquoted (k : GoString) {field : Field} (h : ¬ field.Quoted) :
    entryMarks [] (k, field.json .printed) < entryCost (k, field.json .meant) := by
  have hfilter : ∀ {j j' : Json}, marks (rawText [] j) < cost j' →
      entryMarks [] (k, some j) < entryCost (k, some j') :=
    fun hless => Nat.add_lt_add_left hless _
  cases field with
  | optional s =>
    rcases s with _ | _ | ⟨c, s⟩
    · exact absurd (by simp [Field.Quoted]) h
    · simp [Field.json, Reading.optional, Utils.nonEmpty, entryMarks, entryCost]
    · exact absurd (by simp [Field.Quoted]) h
  | filter f =>
    cases f with
    | none => exact absurd (by simp [Field.Quoted]) h
    | some f =>
      refine hfilter (FilterExpressions.marks_unquoted fun hquoted => h fun f' hf' => ?_)
      obtain rfl := Option.mem_some_iff.mp hf'
      exact hquoted
  | firstFilter f =>
    cases f with
    | none => exact absurd (by simp [Field.Quoted]) h
    | some f =>
      refine hfilter ?_
      obtain ⟨filterExp⟩ := f
      simp only [FilterExpressions.first, FilterExpressions.json, cost_listValue, List.map_map]
      rcases filterExp with _ | ⟨e, _ | ⟨e', rest⟩⟩
      · exact absurd (by simp [Field.Quoted, FilterExpressions.Quoted]) h
      · have hunquoted : ¬ e.Quoted := fun hquoted => h (by
          simpa [Field.Quoted, FilterExpressions.Quoted] using hquoted)
        simpa using FilterExpression.marks_unquoted hunquoted
      · have hfirst := e.marks_le
        have hsecond := e'.cost_pos
        simp only [List.headD_cons, List.map_cons, List.sum_cons, Function.comp_apply]
        omega
  | unclosed s =>
    simp only [Field.json, entryMarks, entryCost, rawText, marks_quote, cost]
    omega
  | unprinted s =>
    cases s with
    | none => exact absurd rfl h
    | some s =>
      simp only [Field.json, Option.map_some, entryMarks, entryCost, cost]
      omega
  | _ => exact absurd trivial h

theorem Field.marks_le (k : GoString) {field : Field} (hlisted : field.Listed) :
    entryMarks [] (k, field.json .printed) ≤ entryCost (k, field.json .meant) := by
  by_cases h : field.Quoted
  · rw [Field.printed_quoted hlisted h]
    exact Nat.le_of_eq (entryMarks_eq (by simp) field.textual)
  · exact Nat.le_of_lt (Field.marks_unquoted k h)

/-- The object of the fields. -/
def fieldsTable (reading : Reading) (fields : List (GoString × Field)) :
    List (GoString × Option Json) :=
  fields.map fun p => (p.1, p.2.json reading)

def fieldsJson (reading : Reading) (fields : List (GoString × Field)) : Json :=
  .obj (present (fieldsTable reading fields))

/-- The names are different from each other and stand for themselves between quotes. -/
def Named (names : List GoString) : Prop := names.Nodup ∧ ∀ k ∈ names, k.all isPlain = true

instance decidableNamed (names : List GoString) : Decidable (Named names) := by
  unfold Named
  infer_instance

section Fields

variable {fields : List (GoString × Field)}

theorem names_fieldsTable (reading : Reading) :
    (fieldsTable reading fields).map Prod.fst = fields.map Prod.fst := by
  rw [fieldsTable, List.map_map]
  rfl

theorem fieldsJson_textual (hnamed : Named (fields.map Prod.fst)) :
    Textual 5 (fieldsJson .meant fields) := by
  rw [← names_fieldsTable .meant] at hnamed
  refine textual_present hnamed.1 (fun k hk => isLiteral_of_all (hnamed.2 k hk)) fun p hp j hj => ?_
  obtain ⟨p, -, rfl⟩ := List.mem_map.mp hp
  exact .inr (p.2.textual j hj)

theorem fieldsJson_quoted (hlisted : ∀ p ∈ fields, p.2.Listed)
    (h : ∀ p ∈ fields, p.2.Quoted) : fieldsJson .printed fields = fieldsJson .meant fields := by
  refine congrArg (fun table => Json.obj (present table)) (List.map_congr_left fun p hp => ?_)
  rw [Field.printed_quoted (hlisted p hp) (h p hp)]

theorem fieldsJson_unquoted (hlisted : ∀ p ∈ fields, p.2.Listed)
    (h : ¬ ∀ p ∈ fields, p.2.Quoted) :
    marks (rawText [] (fieldsJson .printed fields)) < cost (fieldsJson .meant fields) := by
  push Not at h
  obtain ⟨p, hp, hunquoted⟩ := h
  rw [fieldsJson, fieldsJson, marks_present (by simp), cost_present, fieldsTable, fieldsTable,
    List.map_map, List.map_map]
  exact List.sum_lt_sum _ _ (fun p hp => Field.marks_le p.1 (hlisted p hp))
    ⟨p, hp, Field.marks_unquoted p.1 hunquoted⟩

/-- Where a value keeps the object of the fields, the text that is printed for them means this
value if and only if no string is left out or printed without its quotes, all strings are
literals, and the value is the one that is meant. -/
theorem fieldsJson_keeps_iff (hnamed : Named (fields.map Prod.fst))
    (hlisted : ∀ p ∈ fields, p.2.Listed) {v : Json}
    (hkeeps : Keeps maxNestingDepth (fieldsJson .meant fields) v) :
    (parseText (rawText [] (fieldsJson .printed fields))).map canon = some (canon v) ↔
      (∀ p ∈ fields, p.2.Quoted) ∧ Literal maxNestingDepth (fieldsJson .meant fields) ∧
        canon v = canon (fieldsJson .meant fields) := by
  have htextual := ((fieldsJson_textual hnamed).mono (show 5 ≤ maxNestingDepth by unfold maxNestingDepth; omega)).1
  by_cases hquoted : ∀ p ∈ fields, p.2.Quoted
  · rw [fieldsJson_quoted hlisted hquoted]
    constructor
    · intro hread
      obtain ⟨v', hread, hcanon⟩ := Option.map_eq_some_iff.mp hread
      have hliteral := (parseText_keeps_iff (by simp) htextual).mp ⟨v', hread, hkeeps.congr hcanon⟩
      rw [parseText_literal (by simp) htextual hliteral] at hread
      rw [← hcanon, ← Option.some.inj hread]
      exact ⟨hquoted, hliteral, rfl⟩
    · intro h
      rw [parseText_literal (by simp) htextual h.2.1, Option.map_some, h.2.2]
  · have hless := fieldsJson_unquoted hlisted hquoted
    simp only [hquoted, false_and, iff_false]
    intro hread
    obtain ⟨v', hread, hcanon⟩ := Option.map_eq_some_iff.mp hread
    have hkept := (hkeeps.congr hcanon).cost_le htextual
    have hcost := parseText_cost hread
    omega

end Fields

end VissServer.Utils

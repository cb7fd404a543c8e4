import VissServer.Datamodel.TreeLines
import VissServer.Go.JsonLists

/-!
Which rows come back when the datamodel file that was written for them is imported.
-/
namespace VissServer.Datamodel

open Go

/-! ## Rows that are read back -/

/-- An array that is spelled like one that was read, of strings that are read back. -/
structure Listed (text : GoString) : Prop where
  spelled : text = arrayText (extractJsonData text)
  values : ∀ value ∈ extractJsonData text, 44 ∉ value ∧ 35 ∉ value

/-- Whether a line would be taken for an element of the array in front of it. -/
def LikeItem (line : GoString) : Prop := contains line (str " - ") = true

/-- The default value that is read back. -/
def defaultRead (deflt : GoString) : GoString :=
  if contains deflt (str "[") = true then arrayText ((extractJsonData deflt).map readItem) else deflt

/-- The values of an enumeration that are read back. -/
def allowedRead (node : DomainData) : GoString :=
  if node.enumValues ≠ [] ∧ node.datatype ≠ str "boolean" then
    arrayText ((extractJsonData node.enumValues).map readItem)
  else []

/-- A row whose lines are read one by one as they were meant. -/
structure DomainData.Legible (node : DomainData) : Prop where
  plain : ∀ key, key ≠ .allowed → key ≠ .default → Plain key (node.get key)
  scalar : contains node.deflt (str "[") = false →
    Plain .default node.deflt ∧ node.deflt.getLast? ≠ some 58
  array : contains node.deflt (str "[") = true → extractJsonData node.deflt ≠ []
  enumValues : node.enumValues ≠ [] →
    node.datatype ≠ str "boolean" ∧ extractJsonData node.enumValues ≠ []
  uid : contains node.deflt (str "[") = true → node.uid ≠ [] →
    ¬ LikeItem (fieldLine .uuid node.uid)
  description : contains node.deflt (str "[") = true ∧ node.uid = [] ∨ node.enumValues ≠ [] →
    ¬ LikeItem (fieldLine .description node.description)

/-- A row that comes back from its own lines. -/
structure DomainData.Kept (node : DomainData) : Prop extends node.Legible where
  listed : contains node.deflt (str "[") = true → Listed node.deflt
  listedValues : node.enumValues ≠ [] → Listed node.enumValues
  fits : ∀ line ∈ blockLines node, fits line = true

/-- A name whose line is read as one. -/
structure NameKept (path : GoString) : Prop where
  plain : contains (nameLine path) (str "Domain:") = false
  fits : fits (nameLine path) = true

/-- A branch whose lines are read as those of a branch. -/
structure BranchKept (branchPath : GoString) : Prop extends NameKept branchPath where
  description : ∀ key, keyOf (fieldLine .description branchPath) = some key →
    key ≠ .type ∧ key ≠ .allowed
  fitsDescription : Go.fits (fieldLine .description branchPath) = true
  ends : branchPath.getLast? ≠ some 13

section Arrays

variable {values : List GoString} {value : GoString}

theorem arrayText_eq (hne : values ≠ []) :
    arrayText values = rawText [32] (.arr (values.map .str)) := if_neg hne

/-- The strings of an array that was read are no more than its elements, and when they are as
many, each one is spelled by its element. -/
theorem extractJsonData_arrayText (hvalues : ∀ v ∈ values, 44 ∉ v) :
    (extractJsonData (arrayText values)).length ≤ values.length ∧
      (values ≠ [] → (extractJsonData (arrayText values)).length = values.length →
        List.Forall₂ Spelled values (extractJsonData (arrayText values))) := by
  by_cases hne : values = []
  · subst hne
    exact ⟨le_of_eq (by decide), fun h => absurd rfl h⟩
  · have hpos := List.length_pos_of_ne_nil hne
    have hhead : (rawText [32] (.arr (values.map .str))).head? = some 91 := rfl
    rw [arrayText_eq hne, extractJsonData, if_pos hhead]
    cases hstrings : unmarshalStrings (rawText [32] (.arr (values.map .str))) with
    | none =>
      refine ⟨Nat.zero_le _, fun _ hlength => ?_⟩
      rw [Option.getD_none, List.length_nil] at hlength
      omega
    | some strings =>
      obtain ⟨hle, hspelled⟩ := unmarshalStrings_spelled isSpace_gap hne hvalues hstrings
      exact ⟨hle, fun _ => hspelled⟩

/-- An array that comes back is spelled as it is read. -/
theorem listed_of_read (hne : extractJsonData value ≠ [])
    (h : arrayText ((extractJsonData value).map readItem) = value) : Listed value := by
  have hcomma : ∀ v ∈ (extractJsonData value).map readItem, 44 ∉ v := by
    rintro v hv
    obtain ⟨element, -, rfl⟩ := List.mem_map.mp hv
    exact notMem_readArrayValue _
  obtain ⟨-, hspelled⟩ := extractJsonData_arrayText hcomma
  rw [h] at hspelled
  have hforall := hspelled (by simpa using hne) (by rw [List.length_map])
  rw [List.forall₂_map_left_iff, List.forall₂_same] at hforall
  have hself : ∀ v ∈ extractJsonData value, readItem v = v := fun v hv =>
    readItem_of_asciiCount (hforall v hv).asciiCount_le
  refine ⟨?_, fun v hv => readItem_eq_self_iff.mp (hself v hv)⟩
  have hmap : (extractJsonData value).map readItem = extractJsonData value :=
    (List.map_congr_left hself).trans (List.map_id _)
  rw [hmap] at h
  exact h.symm

end Arrays

/-- The row that is read back. -/
def readBack (node : DomainData) : DomainData :=
  { node with deflt := defaultRead node.deflt, enumValues := allowedRead node }

/-- An array that is spelled as it is read comes back. -/
theorem Listed.read {value : GoString} (h : Listed value) :
    arrayText ((extractJsonData value).map readItem) = value := by
  have hvalues : (extractJsonData value).map readItem = extractJsonData value := by
    refine List.map_congr_left (fun v hv => ?_) |>.trans (List.map_id _)
    obtain ⟨hcomma, hnumber⟩ := h.values v hv
    exact readItem_eq_self hcomma hnumber
  rw [hvalues]
  exact h.spelled.symm

theorem readBack_kept {node : DomainData} (h : node.Kept) : readBack node = node := by
  have hdefault : defaultRead node.deflt = node.deflt := by
    unfold defaultRead
    split
    · next hbracket => exact (h.listed hbracket).read
    · rfl
  have hallowed : allowedRead node = node.enumValues := by
    unfold allowedRead
    by_cases hvalues : node.enumValues = []
    · rw [if_neg fun hwritten => hwritten.1 hvalues, hvalues]
    · rw [if_pos ⟨hvalues, (h.enumValues hvalues).1⟩]
      exact (h.listedValues hvalues).read
  rw [readBack, hdefault, hallowed]

namespace Draft

/-- A machine whose open array has an element, if there is one. -/
def Ready (x : Draft) : Prop := ∀ key values, x.array = some (key, values) → values ≠ []

/-- The machine has read a part of a row. -/
structure At (rows : List DomainData) (data : DomainData) (x : Draft) : Prop where
  rows : x.rows = rows
  first : x.first = false
  finish : x.finish = data
  ready : x.Ready

section Reading

variable {x : Draft} {key : Key} {rows : List DomainData} {data : DomainData}
  {value line : GoString}

theorem At.settle (h : At rows data x) : x.settle = { rows, data, first := false } := by
  rw [Draft.settle, h.rows, h.first, h.finish]

theorem At.eq_of_none (h : At rows data x) (hnone : x.array = none) :
    x = { rows, data, first := false } := by
  rw [← h.settle, settle_of_none hnone]

theorem at_closed (rows : List DomainData) (data : DomainData) :
    At rows data { rows, data, first := false } :=
  ⟨rfl, rfl, rfl, by rintro key values ⟨⟩⟩

/-- Behind its elements an array is closed by a line that is neither one nor blank. -/
theorem feed_ready (hready : x.Ready) (hitem : x.array ≠ none → ¬ LikeItem line)
    (hempty : isEmptyLine line = false) : x.feed line = x.settle.readKey line := by
  cases harray : x.array with
  | none => rw [feed_of_none harray, settle_of_none harray]
  | some array =>
    obtain ⟨key, values⟩ := array
    have hline : ¬ contains line (str " - ") = true := hitem (by simp [harray])
    rw [feed, harray]
    dsimp only
    rw [if_neg hline, if_neg (by simp [hempty]), if_neg (hready key values harray)]

theorem isEmptyLine_headerLine (key : Key) : isEmptyLine (headerLine key) = false := by
  cases key <;> decide

theorem isEmptyLine_fieldLine (key : Key) (value : GoString) :
    isEmptyLine (fieldLine key value) = false := by
  have hheader := isEmptyLine_headerLine key
  rw [isEmptyLine] at hheader ⊢
  rw [fieldLine, List.all_append, hheader, Bool.false_and]

/-- A line with a value is read, in an array that it does not belong to as well. -/
theorem At.read_fieldLine (h : At rows data x) (hplain : Plain key value)
    (htrim : trimSpace value = value) (hallowed : key ≠ .allowed)
    (hdefault : key = .default → value.getLast? ≠ some 58)
    (hitem : x.array ≠ none → ¬ LikeItem (fieldLine key value)) :
    At rows (data.set key value) (x.feed (fieldLine key value)) ∧
      (x.feed (fieldLine key value)).array = none := by
  rw [feed_ready h.ready hitem (isEmptyLine_fieldLine key value), h.settle,
    readKey_fieldLine hplain htrim hallowed hdefault]
  exact ⟨at_closed rows _, rfl⟩

/-- An optional line. Without one an open array stays open. -/
theorem At.read_fieldLines (h : At rows data x) (hplain : Plain key value)
    (htrim : trimSpace value = value) (hallowed : key ≠ .allowed)
    (hdefault : key = .default → value.getLast? ≠ some 58) (hempty : data.get key = [])
    (hitem : x.array ≠ none → value ≠ [] → ¬ LikeItem (fieldLine key value)) :
    At rows (data.set key value) ((fieldLines key value).foldl feed x) ∧
      ((fieldLines key value).foldl feed x).array = if value = [] then x.array else none := by
  unfold fieldLines
  split
  · next hvalue =>
    have hset : data.set key value = data := by rw [hvalue, ← hempty, DomainData.set_get]
    rw [hset, List.foldl_nil]
    exact ⟨h, rfl⟩
  · next hvalue =>
    exact h.read_fieldLine hplain htrim hallowed hdefault fun harray => hitem harray hvalue

/-- Elements are read into an open array. -/
theorem foldl_items (harray : x.array = some (key, [])) (values : List GoString) :
    (values.map itemLine).foldl feed x =
      { x with array := some (key, values.map readItem) } := by
  have hopen : ∀ front : List GoString, (values.map itemLine).foldl feed
      { x with array := some (key, front) } =
        { x with array := some (key, front ++ values.map readItem) } := by
    induction values with
    | nil => simp
    | cons value values ih =>
      intro front
      rw [List.map_cons, List.foldl_cons, feed]
      dsimp only
      rw [if_pos (contains_itemLine value), ih, List.map_cons, List.append_assoc]
      rfl
  have hx : x = { x with array := some (key, []) } := by rw [← harray]
  rw [hx]
  exact hopen []

/-- An array is read behind its header. -/
theorem At.read_items (h : At rows data x) (hkey : key = .allowed ∨ key = .default)
    (values : List GoString) (hitem : x.array ≠ none → ¬ LikeItem (headerLine key)) :
    (headerLine key :: values.map itemLine).foldl feed x =
      { rows, data, first := false, array := some (key, values.map readItem) } := by
  rw [List.foldl_cons, feed_ready h.ready hitem (isEmptyLine_headerLine key), h.settle,
    readKey_headerLine hkey, foldl_items rfl]

theorem not_likeItem_headerLine (key : Key) : ¬ LikeItem (headerLine key) := by
  unfold LikeItem
  cases key <;> decide

variable {node : DomainData}

/-- A row with the fields of some keys. -/
def copied (node : DomainData) (ks : List Key) (data : DomainData) : DomainData :=
  ks.foldl (fun data key => data.set key (node.get key)) data

theorem At.read_plain (h : At rows data x) (hnone : x.array = none)
    (hplain : Plain key (node.get key)) (hsignal : node.Signal) (hallowed : key ≠ .allowed)
    (hdefault : key ≠ .default) (hempty : data.get key = []) :
    At rows (data.set key (node.get key)) ((fieldLines key (node.get key)).foldl feed x) ∧
      ((fieldLines key (node.get key)).foldl feed x).array = none := by
  obtain ⟨hat, harray⟩ := h.read_fieldLines hplain (hsignal.trimmed.2 key) hallowed
    (fun heq => absurd heq hdefault) hempty fun hopen => absurd hnone hopen
  rw [hnone, ite_self] at harray
  exact ⟨hat, harray⟩

theorem At.read_upper (hsignal : node.Signal) (ks : List Key)
    (hplain : ∀ key ∈ ks, Plain key (node.get key)) (hnodup : ks.Nodup) (hallowed : .allowed ∉ ks)
    (hdefault : .default ∉ ks) (h : At rows data x) (hnone : x.array = none)
    (hempty : ∀ key ∈ ks, data.get key = []) :
    At rows (copied node ks data)
      ((ks.flatMap fun key => fieldLines key (node.get key)).foldl feed x) ∧
      ((ks.flatMap fun key => fieldLines key (node.get key)).foldl feed x).array = none := by
  induction ks generalizing data x with
  | nil => exact ⟨h, hnone⟩
  | cons key ks ih =>
    obtain ⟨hkey, hks⟩ := List.nodup_cons.mp hnodup
    obtain ⟨hplain, hplains⟩ := List.forall_mem_cons.mp hplain
    obtain ⟨hempty, hempties⟩ := List.forall_mem_cons.mp hempty
    obtain ⟨hne, hallowed⟩ := List.ne_and_not_mem_of_not_mem_cons hallowed
    obtain ⟨hne', hdefault⟩ := List.ne_and_not_mem_of_not_mem_cons hdefault
    obtain ⟨hat, hnone⟩ := h.read_plain hnone hplain hsignal (Ne.symm hne) (Ne.symm hne') hempty
    rw [List.flatMap_cons, List.foldl_append]
    refine ih hplains hks hallowed hdefault hat hnone fun k hk => ?_
    have hne : k ≠ key := fun heq => hkey (heq ▸ hk)
    rw [DomainData.get_set, if_neg hne, hempties k hk]

/-- The lines in front of those for the default value. -/
def upperLines (node : DomainData) : List GoString :=
  upperKeys.flatMap fun key => fieldLines key (node.get key)

theorem read_upperLines (hsignal : node.Signal)
    (hplain : ∀ key, key ≠ .allowed → key ≠ .default → Plain key (node.get key))
    (rows : List DomainData) :
    (upperLines node).foldl feed { rows, data := { path := node.path }, first := false } =
      { rows, data := copied node upperKeys { path := node.path }, first := false } := by
  obtain ⟨hat, hnone⟩ := At.read_upper hsignal upperKeys
    (fun key hkey => hplain key (fun heq => absurd (heq ▸ hkey) (by decide))
      fun heq => absurd (heq ▸ hkey) (by decide)) (by decide) (by decide)
    (by decide) (at_closed rows { path := node.path }) rfl fun key _ => by cases key <;> rfl
  exact hat.eq_of_none hnone

/-- Behind its header an array is open with what was read of its elements. -/
theorem at_open (hne : values ≠ []) (rows : List DomainData) (data : DomainData) (key : Key) :
    At rows (data.set key (arrayText values))
      { rows, data, first := false, array := some (key, values) } := by
  refine ⟨rfl, rfl, rfl, ?_⟩
  rintro k items ⟨⟩
  exact hne

/-- The array that is open behind the lines for the default value. -/
def defaultArray (deflt : GoString) : Option (Key × List GoString) :=
  if contains deflt (str "[") = true then some (.default, (extractJsonData deflt).map readItem)
  else none

/-- The array that is open behind the lines for the enumeration. -/
def lastArray (node : DomainData) : Option (Key × List GoString) :=
  if node.enumValues = [] then if node.uid = [] then defaultArray node.deflt else none
  else some (.allowed, (extractJsonData node.enumValues).map readItem)

theorem At.read_default (h : At rows data x) (harray : x.array = none)
    (hempty : data.get .default = []) (hsignal : node.Signal)
    (hscalar : contains node.deflt (str "[") = false →
      Plain .default node.deflt ∧ node.deflt.getLast? ≠ some 58)
    (hfilled : contains node.deflt (str "[") = true → extractJsonData node.deflt ≠ []) :
    At rows (data.set .default (defaultRead node.deflt))
        ((defaultBlock node.deflt).foldl feed x) ∧
      ((defaultBlock node.deflt).foldl feed x).array = defaultArray node.deflt := by
  unfold defaultBlock defaultRead defaultArray
  split
  · next hbracket =>
    rw [h.read_items (.inr rfl) _ fun _ => not_likeItem_headerLine .default]
    exact ⟨at_open (by simpa using hfilled hbracket) rows data .default, rfl⟩
  · next hbracket =>
    obtain ⟨hplain, hlast⟩ := hscalar (Bool.eq_false_iff.mpr hbracket)
    obtain ⟨hat, hopen⟩ := h.read_fieldLines hplain (hsignal.trimmed.2 .default) (by decide)
      (fun _ => hlast) hempty fun hopen => absurd harray hopen
    rw [harray, ite_self] at hopen
    exact ⟨hat, hopen⟩

theorem At.read_allowed (h : At rows data x) (hempty : data.get .allowed = [])
    (hfilled : node.enumValues ≠ [] →
      node.datatype ≠ str "boolean" ∧ extractJsonData node.enumValues ≠ []) :
    At rows (data.set .allowed (allowedRead node)) ((allowedBlock node).foldl feed x) ∧
      ((allowedBlock node).foldl feed x).array =
        if node.enumValues = [] then x.array
        else some (.allowed, (extractJsonData node.enumValues).map readItem) := by
  unfold allowedBlock allowedRead
  by_cases hvalues : node.enumValues = []
  · have hset : data.set .allowed [] = data := by rw [← hempty, DomainData.set_get]
    rw [if_neg fun hwritten => hwritten.1 hvalues, if_neg fun hwritten => hwritten.1 hvalues,
      if_pos hvalues, hset, List.foldl_nil]
    exact ⟨h, rfl⟩
  · obtain ⟨hboolean, hne⟩ := hfilled hvalues
    rw [if_pos ⟨hvalues, hboolean⟩, if_pos ⟨hvalues, hboolean⟩, if_neg hvalues,
      h.read_items (.inl rfl) _ fun _ => not_likeItem_headerLine .allowed]
    exact ⟨at_open (by simpa using hne) rows data .allowed, rfl⟩

/-- The lines between those for the default value and the description. -/
theorem At.read_middle (h : At rows data x) (harray : x.array = defaultArray node.deflt)
    (hsignal : node.Signal) (hplain : Plain .uuid node.uid)
    (hfilled : node.enumValues ≠ [] →
      node.datatype ≠ str "boolean" ∧ extractJsonData node.enumValues ≠ [])
    (huid : contains node.deflt (str "[") = true → node.uid ≠ [] →
      ¬ LikeItem (fieldLine .uuid node.uid))
    (huuid : data.get .uuid = []) (hallowed : data.get .allowed = []) :
    At rows ((data.set .uuid node.uid).set .allowed (allowedRead node))
        ((fieldLines .uuid node.uid ++ allowedBlock node).foldl feed x) ∧
      ((fieldLines .uuid node.uid ++ allowedBlock node).foldl feed x).array = lastArray node := by
  have hopen : x.array ≠ none → contains node.deflt (str "[") = true := by
    intro hne
    by_contra hbracket
    exact hne (harray.trans (if_neg hbracket))
  obtain ⟨h₁, hopen₁⟩ := h.read_fieldLines hplain (hsignal.trimmed.2 .uuid) (by decide)
    (fun h => absurd h (by decide)) huuid
    fun hne => huid (hopen hne)
  obtain ⟨h₂, hopen₂⟩ := h₁.read_allowed
    (by rw [DomainData.get_set, if_neg (by decide), hallowed]) hfilled
  rw [hopen₁, harray] at hopen₂
  rw [List.foldl_append]
  exact ⟨h₂, hopen₂⟩

theorem At.read_lower (h : At rows data x) (harray : x.array = defaultArray node.deflt)
    (hlegible : node.Legible) (hsignal : node.Signal)
    (hempty : ∀ key ∈ [Key.uuid, .allowed, .description, .comment], data.get key = []) :
    (lowerLines node).foldl feed x =
      { rows
        data := (((data.set .uuid node.uid).set .allowed (allowedRead node)).set .description
          node.description).set .comment node.comment
        first := false } := by
  have hcomment : fieldLines .comment node.comment = fieldLines .comment (node.get .comment) := rfl
  have hget : ∀ (d : DomainData) key key' v, key' ≠ key → d.get key' = [] →
      (d.set key v).get key' = [] := by
    intro d key key' v hne hd
    rw [DomainData.get_set, if_neg hne, hd]
  simp only [List.forall_mem_cons] at hempty
  obtain ⟨huuid, hallowed, -, hcommented, -⟩ := hempty
  obtain ⟨h₂, hopen₂⟩ := h.read_middle harray hsignal (hlegible.plain .uuid (by decide) (by decide))
    hlegible.enumValues hlegible.uid huuid hallowed
  have hitem : ((fieldLines .uuid node.uid ++ allowedBlock node).foldl feed x).array ≠ none →
      ¬ LikeItem (fieldLine .description node.description) := by
    intro hne
    rw [hopen₂, lastArray] at hne
    refine hlegible.description ?_
    by_cases hvalues : node.enumValues = []
    · rw [if_pos hvalues] at hne
      left
      by_cases huid : node.uid = []
      · rw [if_pos huid, defaultArray] at hne
        refine ⟨?_, huid⟩
        by_contra hbracket
        exact hne (if_neg hbracket)
      · exact absurd (if_neg huid) hne
    · exact .inr hvalues
  obtain ⟨h₃, hnone₃⟩ := h₂.read_fieldLine
    (show Plain .description node.description from hlegible.plain .description (by decide)
      (by decide)) (hsignal.trimmed.2 .description) (by decide)
      (fun h => absurd h (by decide)) hitem
  obtain ⟨h₄, hnone₄⟩ := h₃.read_plain hnone₃ (hlegible.plain .comment (by decide) (by decide))
    hsignal (by decide) (by decide) (hget _ _ _ _ (by decide) (hget _ _ _ _ (by decide)
      (hget _ _ _ _ (by decide) hcommented)))
  rw [lowerLines, hcomment, ← List.append_assoc, List.foldl_append, List.foldl_cons,
    List.foldl_append, List.foldl_cons, List.foldl_nil]
  exact (congrArg (fun y => feed y []) (h₄.eq_of_none hnone₄)).trans (readKey_nil _)

/-- The fields that have no value until the lines behind the default value are read. -/
theorem get_upper (node : DomainData) (deflt : GoString) :
    ∀ key ∈ [Key.uuid, .allowed, .description, .comment],
      ((copied node upperKeys { path := node.path }).set .default deflt).get key = [] := by
  simp [copied, upperKeys, DomainData.set, DomainData.get]

/-- The lines of a legible row are read as the row, but for its arrays. -/
theorem blockLines_legible (hlegible : node.Legible) (hsignal : node.Signal)
    (rows : List DomainData) :
    (blockLines node).foldl feed { rows, data := { path := node.path }, first := false } =
      { rows, data := readBack node, first := false } := by
  obtain ⟨hdefault, hopen⟩ := (at_closed rows (copied node upperKeys { path := node.path })).read_default
    rfl rfl hsignal hlegible.scalar hlegible.array
  have hlower := hdefault.read_lower hopen hlegible hsignal
    (get_upper node (defaultRead node.deflt))
  have hblock : blockLines node =
      upperLines node ++ (defaultBlock node.deflt ++ lowerLines node) := rfl
  rw [hblock, List.foldl_append, List.foldl_append, read_upperLines hsignal hlegible.plain, hlower]
  simp [readBack, copied, upperKeys, DomainData.set, DomainData.get]

/-- The lines of a row that is kept are read as the row. -/
theorem blockLines_kept (hkept : node.Kept) (hsignal : node.Signal) (rows : List DomainData) :
    (blockLines node).foldl feed { rows, data := { path := node.path }, first := false } =
      { rows, data := node, first := false } := by
  rw [blockLines_legible hkept.toLegible hsignal, readBack_kept hkept]

end Reading

/-! ## Entries -/

/-- The row that the name of another signal saves. -/
def pending (x : Draft) : List DomainData :=
  if x.first ∨ x.data.type = str "branch" then [] else [x.data]

/-- A machine between two entries. -/
structure Between (x : Draft) : Prop where
  array : x.array = none
  first : x.first = true → x.data = {}

section Entries

variable {x : Draft} {path : GoString} {node : DomainData}

theorem isName_nameLine (h : path.head? ≠ some 32) : isName (nameLine path) = true := by
  have hlast : (nameLine path).getLast? = some 58 := by
    rw [nameLine, List.getLast?_append]
    rfl
  have hhead : (nameLine path).head? ≠ some 32 := by
    cases path with
    | nil => decide
    | cons c path => exact h
  rw [isName, hlast, Bool.and_eq_true]
  exact ⟨decide_eq_true rfl, decide_eq_true hhead⟩

theorem name_rows (x : Draft) (text : GoString) : (x.name text).rows = x.rows ++ x.pending := by
  rw [name, pending]
  dsimp only
  split
  · rw [List.append_nil]
  · rfl

/-- The name of a signal begins a row. -/
theorem Between.nameLine (h : x.Between) (hdomain : contains (nameLine path) (str "Domain:") = false)
    (hstart : path.head? ≠ some 32) :
    x.feed (Datamodel.nameLine path) =
      { rows := x.rows ++ x.pending, data := { path }, first := false } := by
  have hread : x.feed (Datamodel.nameLine path) = x.name (Datamodel.nameLine path) := by
    rw [feed_of_none h.array, readKey, if_neg (by simp [hdomain]), if_pos (isName_nameLine hstart)]
  have hpath : (Datamodel.nameLine path).dropLast = path := by
    rw [Datamodel.nameLine]
    exact List.dropLast_concat
  rw [hread, ← name_rows x (Datamodel.nameLine path), name, hpath]
  cases hfirst : x.first with
  | true => rw [if_pos rfl, h.first hfirst]
  | false => rfl

theorem Between.read_node (h : x.Between) (hname : NameKept node.path) (hkept : node.Kept)
    (hsignal : node.Signal) :
    (nodeLines node).foldl feed x =
      { rows := x.rows ++ x.pending, data := node, first := false } := by
  rw [nodeLines, List.foldl_cons, h.nameLine hname.plain
    (head_of_trimSpace hsignal.trimmed.1)]
  exact blockLines_kept hkept hsignal _

theorem keyOf_description {key : Key} (hkey : keyOf (fieldLine .description path) = some key) :
    key = .unit ∨ key = .datatype ∨ key = .type ∨ key = .allowed ∨ key = .min ∨ key = .max ∨
      key = .description := by
  obtain ⟨-, hearlier⟩ := keyOf_eq_some_iff.mp hkey
  have hself := contains_fieldLine_self .description path
  cases key with
  | comment | uuid | default =>
    rw [hearlier .description (by decide)] at hself
    cases hself
  | unit | datatype | type | allowed | min | max | description => simp

/-- The description of a branch may be taken for something else, as long as the branch is still
known as one. -/
theorem read_branchDescription (hkept : BranchKept path) (hclosed : x.array = none)
    (hbranch : x.data.type = str "branch") :
    (x.readKey (fieldLine .description path)).rows = x.rows ∧
      (x.readKey (fieldLine .description path)).first = x.first ∧
      (x.readKey (fieldLine .description path)).array = none ∧
      (x.readKey (fieldLine .description path)).data.type = str "branch" := by
  by_cases hdomain : contains (fieldLine .description path) (str "Domain:") = true
  · rw [readKey, if_pos hdomain]
    exact ⟨rfl, rfl, hclosed, hbranch⟩
  · have hname := isName_fieldLine .description path
    have hsome : (keyOf (fieldLine .description path)).isSome = true := by
      rw [keyOf, List.find?_isSome]
      exact ⟨.description, by decide, contains_fieldLine_self .description path⟩
    obtain ⟨key, hkey⟩ := Option.isSome_iff_exists.mp hsome
    obtain ⟨htype, hallowed⟩ := hkept.description key hkey
    have hdefault : key ≠ .default := by
      rintro rfl
      simpa using keyOf_description hkey
    have hopens : ¬ Opens key (fieldLine .description path) := by
      rintro (h | ⟨h, -⟩)
      · exact hallowed h
      · exact hdefault h
    rw [readKey_put (Bool.eq_false_iff.mpr hdomain) hname hkey hopens]
    refine ⟨rfl, rfl, hclosed, ?_⟩
    have hget : (x.data.set key (readValue (fieldLine .description path))).get .type =
        x.data.get .type := by
      rw [DomainData.get_set, if_neg (Ne.symm htype)]
    exact hget.trans hbranch

theorem Between.read_branch (h : x.Between) (hkept : BranchKept path)
    (hstart : path.head? ≠ some 32) :
    ((branchLines path).foldl feed x).Between ∧
      ((branchLines path).foldl feed x).rows = x.rows ++ x.pending ∧
      ((branchLines path).foldl feed x).pending = [] := by
  have htype : ∀ y : Draft, y.array = none →
      y.feed (fieldLine .type (str "branch")) = y.put .type (str "branch") := by
    intro y hy
    have hplain : Plain .type (str "branch") := ⟨by decide, by decide⟩
    rw [feed_of_none hy, readKey_fieldLine hplain (by decide) (by decide) fun h => absurd h (by decide)]
  rw [branchLines, List.foldl_cons, h.nameLine hkept.plain hstart, List.foldl_cons, htype _ rfl,
    List.foldl_cons, feed_of_none rfl, List.foldl_cons, List.foldl_nil]
  obtain ⟨hrows, hfirst, hnone, hbranch⟩ := read_branchDescription hkept
    (show (put { rows := x.rows ++ x.pending, data := { path }, first := false } .type
      (str "branch")).array = none from rfl) rfl
  rw [feed_of_none hnone, readKey_nil]
  refine ⟨⟨hnone, fun hstart => ?_⟩, hrows, if_pos (.inr hbranch)⟩
  rw [hfirst] at hstart
  cases hstart

theorem between_node (rows : List DomainData) (node : DomainData) :
    Between { rows, data := node, first := false } :=
  ⟨rfl, fun hfirst => absurd hfirst Bool.false_ne_true⟩

/-- The entries of a file are read, and the rows among them are saved. -/
theorem Between.read_entries (h : x.Between) {entries : List Entry}
    (hnodes : ∀ node, .node node ∈ entries →
      NameKept node.path ∧ node.Kept ∧ node.Signal ∧ node.type ≠ str "branch")
    (hbranches : ∀ path, .branch path ∈ entries → BranchKept path ∧ path.head? ≠ some 32) :
    ((entries.flatMap Entry.lines).foldl feed x).Between ∧
      ((entries.flatMap Entry.lines).foldl feed x).rows ++
          ((entries.flatMap Entry.lines).foldl feed x).pending =
        x.rows ++ x.pending ++ entries.filterMap Entry.node? := by
  induction entries generalizing x with
  | nil => exact ⟨h, by simp⟩
  | cons entry entries ih =>
    have hrest := fun node hmem => hnodes node (List.mem_cons_of_mem entry hmem)
    have hrest' := fun path hmem => hbranches path (List.mem_cons_of_mem entry hmem)
    rw [List.flatMap_cons, List.foldl_append]
    cases entry with
    | node node =>
      obtain ⟨hname, hkept, hsignal, htype⟩ := hnodes node List.mem_cons_self
      have hpending : pending { rows := x.rows ++ x.pending, data := node, first := false } =
          [node] := if_neg (by simpa using htype)
      obtain ⟨hbetween, hrows⟩ := ih (between_node (x.rows ++ x.pending) node) hrest hrest'
      rw [Entry.lines, h.read_node hname hkept hsignal]
      refine ⟨hbetween, ?_⟩
      rw [hrows, hpending, List.filterMap_cons, List.append_assoc _ [node]]
      rfl
    | branch path =>
      obtain ⟨hkept, hstart⟩ := hbranches path List.mem_cons_self
      obtain ⟨hbetween, hrows, hpending⟩ := h.read_branch hkept hstart
      obtain ⟨hbetween', hrows'⟩ := ih hbetween hrest hrest'
      rw [Entry.lines]
      refine ⟨hbetween', ?_⟩
      rw [hrows', hrows, hpending, List.append_nil, List.filterMap_cons]
      rfl

end Entries

end Draft

end VissServer.Datamodel

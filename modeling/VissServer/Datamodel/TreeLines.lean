import VissServer.Datamodel.Drafts

/-!
The lines of a datamodel file, and how one of them is read: which key is found in it, and which
value behind the key.
-/
namespace VissServer.Datamodel

open Go

/-! ## The lines of a file -/

def headerLine (key : Key) : GoString := str "  " ++ key.text

def fieldLine (key : Key) (value : GoString) : GoString := headerLine key ++ 32 :: value

/-- A line that is left out where the value is empty. -/
def fieldLines (key : Key) (value : GoString) : List GoString :=
  if value = [] then [] else [fieldLine key value]

def itemLine (value : GoString) : GoString := str "  - '" ++ value ++ str "'"

def defaultBlock (deflt : GoString) : List GoString :=
  if contains deflt (str "[") = true then
    headerLine .default :: (extractJsonData deflt).map itemLine
  else fieldLines .default deflt

def allowedBlock (node : DomainData) : List GoString :=
  if node.enumValues ≠ [] ∧ node.datatype ≠ str "boolean" then
    headerLine .allowed :: (extractJsonData node.enumValues).map itemLine
  else []

/-- The lines behind those for the default value. -/
def lowerLines (node : DomainData) : List GoString :=
  fieldLines .uuid node.uid ++ (allowedBlock node ++
    (fieldLine .description node.description :: (fieldLines .comment node.comment ++ [[]])))

/-- The keys of the lines in front of those for the default value. -/
def upperKeys : List Key := [.type, .datatype, .min, .max, .unit]

/-- The lines behind the name of a signal. -/
def blockLines (node : DomainData) : List GoString :=
  (upperKeys.flatMap fun key => fieldLines key (node.get key)) ++
    (defaultBlock node.deflt ++ lowerLines node)

def nameLine (path : GoString) : GoString := path ++ str ":"

def nodeLines (node : DomainData) : List GoString := nameLine node.path :: blockLines node

def branchLines (branchPath : GoString) : List GoString :=
  [nameLine branchPath, fieldLine .type (str "branch"), fieldLine .description branchPath, []]

def Entry.lines : Entry → List GoString
  | .branch path => branchLines path
  | .node data => nodeLines data

/-- A signal with a name, a type and a description, whose fields are single lines without white
space at their ends. -/
structure DomainData.Signal (node : DomainData) : Prop where
  named : node.path ≠ []
  typed : node.type ≠ []
  described : node.description ≠ []
  oneLine : 10 ∉ node.path ∧ ∀ key, 10 ∉ node.get key
  trimmed : trimSpace node.path = node.path ∧ ∀ key, trimSpace (node.get key) = node.get key
  encoded : node.datatype ≠ str "state_encoded"

section Texts

variable {node : DomainData}

theorem linesText_cons (line : GoString) (lines : List GoString) :
    linesText (line :: lines) = line ++ 10 :: linesText lines := by
  rw [linesText, List.flatMap_cons, List.append_assoc]
  rfl

theorem linesText_fieldLines (key : Key) (value : GoString) :
    linesText (fieldLines key value) = keyLine key.name value := by
  unfold fieldLines keyLine
  split
  · rfl
  · have hcolon : str ": " = str ":" ++ [32] := rfl
    have hend : str "\n" = [10] := rfl
    rw [linesText_cons, fieldLine, headerLine, Key.text, hcolon, hend]
    simp [linesText]

theorem linesText_items (values : List GoString) :
    linesText (values.map itemLine) = arrayLines values := by
  have hitem : ∀ value : GoString, itemLine value ++ [10] = str "  - '" ++ value ++ str "'\n" := by
    intro value
    rw [itemLine, List.append_assoc]
    rfl
  rw [linesText, List.flatMap_map, arrayLines]
  simp only [hitem]

theorem linesText_defaultBlock (deflt : GoString) :
    linesText (defaultBlock deflt) = defaultLines deflt := by
  unfold defaultBlock defaultLines
  by_cases hbracket : contains deflt (str "[") = true
  · have hne : deflt ≠ [] := by
      rintro rfl
      exact absurd hbracket (by decide)
    rw [if_pos hbracket, if_pos ⟨hne, hbracket⟩, linesText_cons, linesText_items]
    rfl
  · rw [if_neg hbracket, if_neg fun h => hbracket h.2, linesText_fieldLines]
    rfl

theorem linesText_allowedBlock (node : DomainData) :
    linesText (allowedBlock node) = allowedLines node := by
  unfold allowedBlock allowedLines
  split
  · rw [linesText_cons, linesText_items]
    rfl
  · rfl

theorem writeYamlNode_lines (h : node.Signal) : writeYamlNode node = linesText (nodeLines node) := by
  have hname : ∀ path : GoString, path ++ str ":\n" = nameLine path ++ [10] := by
    intro path
    rw [nameLine, List.append_assoc]
    rfl
  have hdescription : fieldLine .description node.description ++ [10] =
      str "  description: " ++ node.description ++ [10] := rfl
  have hend : str "\n" = [10] := rfl
  have hnil : linesText [] = [] := rfl
  have hcons : ∀ (line : GoString) lines, linesText (line :: lines) =
      line ++ [10] ++ linesText lines := fun line lines => List.flatMap_cons
  rw [writeYamlNode, if_neg h.encoded, if_neg h.described, nodeLines, blockLines, lowerLines,
    upperKeys]
  simp only [List.flatMap_cons, List.flatMap_nil, DomainData.get, hcons, linesText_append, linesText_fieldLines, linesText_defaultBlock,
    linesText_allowedBlock, hname, hdescription, hend, hnil, List.append_assoc, List.nil_append,
    List.append_nil, Key.name]

/-- The arrays that are written for a row hold no string of more than one line. -/
def DomainData.OneLine (node : DomainData) : Prop :=
  (contains node.deflt (str "[") = true → ∀ value ∈ extractJsonData node.deflt, 10 ∉ value) ∧
    ∀ value ∈ extractJsonData node.enumValues, 10 ∉ value

theorem mem_blockLines {line : GoString} (h : line ∈ blockLines node) :
    (∃ key, (key = .default → contains node.deflt (str "[") = false) ∧
      line = fieldLine key (node.get key)) ∨
    (∃ key, (key = .allowed ∨ key = .default) ∧ line = headerLine key) ∨
    (∃ value, (contains node.deflt (str "[") = true ∧ value ∈ extractJsonData node.deflt ∨
      value ∈ extractJsonData node.enumValues) ∧ line = itemLine value) ∨ line = [] := by
  have hfields : ∀ key, line ∈ fieldLines key (node.get key) →
      line = fieldLine key (node.get key) := by
    intro key hmem
    unfold fieldLines at hmem
    split at hmem
    · cases hmem
    · exact List.mem_singleton.mp hmem
  have hdefault : line ∈ defaultBlock node.deflt →
      contains node.deflt (str "[") = false ∧ line = fieldLine .default (node.get .default) ∨
        line = headerLine .default ∨
        ∃ value, (contains node.deflt (str "[") = true ∧ value ∈ extractJsonData node.deflt) ∧
          line = itemLine value := by
    intro hmem
    unfold defaultBlock at hmem
    split at hmem
    · next hbracket =>
      rcases List.mem_cons.mp hmem with rfl | hmem
      · exact .inr (.inl rfl)
      · obtain ⟨value, hvalue, rfl⟩ := List.mem_map.mp hmem
        exact .inr (.inr ⟨value, ⟨hbracket, hvalue⟩, rfl⟩)
    · next hbracket => exact .inl ⟨Bool.eq_false_iff.mpr hbracket, hfields .default hmem⟩
  have hallowed : line ∈ allowedBlock node → line = headerLine .allowed ∨
      ∃ value, value ∈ extractJsonData node.enumValues ∧ line = itemLine value := by
    intro hmem
    unfold allowedBlock at hmem
    split at hmem
    · rcases List.mem_cons.mp hmem with rfl | hmem
      · exact .inl rfl
      · obtain ⟨value, hvalue, rfl⟩ := List.mem_map.mp hmem
        exact .inr ⟨value, hvalue, rfl⟩
    · cases hmem
  simp only [blockLines, lowerLines, List.mem_append, List.mem_cons, List.mem_flatMap,
    List.not_mem_nil, or_false] at h
  rcases h with ⟨key, hkey, h⟩ | h | h | h | h | h | h
  · exact .inl ⟨key, fun heq => absurd (heq ▸ hkey) (by decide), hfields key h⟩
  · rcases hdefault h with ⟨hbracket, h⟩ | h | ⟨value, hvalue, h⟩
    · exact .inl ⟨.default, fun _ => hbracket, h⟩
    · exact .inr (.inl ⟨.default, .inr rfl, h⟩)
    · exact .inr (.inr (.inl ⟨value, .inl hvalue, h⟩))
  · exact .inl ⟨.uuid, fun h => absurd h (by decide), hfields .uuid h⟩
  · rcases hallowed h with h | ⟨value, hvalue, h⟩
    · exact .inr (.inl ⟨.allowed, .inl rfl, h⟩)
    · exact .inr (.inr (.inl ⟨value, .inr hvalue, h⟩))
  · exact .inl ⟨.description, fun h => absurd h (by decide), h⟩
  · exact .inl ⟨.comment, fun h => absurd h (by decide), hfields .comment h⟩
  · exact .inr (.inr (.inr h))

theorem headerLine_bytes (key : Key) : 10 ∉ headerLine key ∧ (headerLine key).getLast? ≠ some 13 := by
  cases key <;> decide

theorem fieldLine_bytes {value : GoString} (key : Key) (hline : 10 ∉ value)
    (hend : value.getLast? ≠ some 13) :
    10 ∉ fieldLine key value ∧ (fieldLine key value).getLast? ≠ some 13 := by
  constructor
  · rw [fieldLine, List.mem_append, List.mem_cons]
    rintro (h | h | h)
    · exact (headerLine_bytes key).1 h
    · cases h
    · exact hline h
  · rw [fieldLine, List.getLast?_append, List.getLast?_cons]
    cases hlast : value.getLast? with
    | none => simp
    | some c => simpa [hlast] using hend

theorem itemLine_bytes {value : GoString} (hline : 10 ∉ value) :
    10 ∉ itemLine value ∧ (itemLine value).getLast? ≠ some 13 := by
  constructor
  · rw [itemLine, List.mem_append, List.mem_append]
    rintro ((h | h) | h)
    · exact absurd h (by decide)
    · exact hline h
    · exact absurd h (by decide)
  · have hquote : (str "'").getLast? = some 39 := rfl
    rw [itemLine, List.getLast?_append, hquote, Option.some_or]
    decide

theorem nameLine_bytes {path : GoString} (hline : 10 ∉ path) :
    10 ∉ nameLine path ∧ (nameLine path).getLast? ≠ some 13 := by
  constructor
  · rw [nameLine, List.mem_append]
    rintro (h | h)
    · exact hline h
    · exact absurd h (by decide)
  · have hcolon : (str ":").getLast? = some 58 := rfl
    rw [nameLine, List.getLast?_append, hcolon, Option.some_or]
    decide

/-- The lines of a row are single lines and do not end with a carriage return. -/
theorem nodeLines_bytes (h : node.Signal) (hone : node.OneLine) {line : GoString}
    (hmem : line ∈ nodeLines node) : 10 ∉ line ∧ line.getLast? ≠ some 13 := by
  rcases List.mem_cons.mp hmem with rfl | hmem
  · exact nameLine_bytes h.oneLine.1
  · rcases mem_blockLines hmem with ⟨key, -, rfl⟩ | ⟨key, -, rfl⟩ | ⟨value, hvalue, rfl⟩ | rfl
    · exact fieldLine_bytes key (h.oneLine.2 key) (getLast_of_trimSpace (h.trimmed.2 key))
    · exact headerLine_bytes key
    · rcases hvalue with ⟨hbracket, hvalue⟩ | hvalue
      · exact itemLine_bytes (hone.1 hbracket value hvalue)
      · exact itemLine_bytes (hone.2 value hvalue)
    · decide

theorem branchLines_bytes {path line : GoString} (hline : 10 ∉ path)
    (hend : path.getLast? ≠ some 13) (hmem : line ∈ branchLines path) :
    10 ∉ line ∧ line.getLast? ≠ some 13 := by
  simp only [branchLines, List.mem_cons, List.not_mem_nil, or_false] at hmem
  rcases hmem with rfl | rfl | rfl | rfl
  · exact nameLine_bytes hline
  · decide
  · exact fieldLine_bytes .description hline hend
  · decide

theorem writeBranch_lines (branchPath : GoString) :
    writeBranch branchPath = linesText (branchLines branchPath) := by
  have hname : branchPath ++ str ":\n" = nameLine branchPath ++ [10] := by
    rw [nameLine, List.append_assoc]
    rfl
  have hdescription : fieldLine .description branchPath ++ [10] =
      str "  description: " ++ branchPath ++ str "\n" := rfl
  have hcons : ∀ (line : GoString) lines, linesText (line :: lines) =
      line ++ [10] ++ linesText lines := fun line lines => List.flatMap_cons
  simp only [writeBranch, branchLines, hcons, hname, hdescription, List.append_assoc]
  rfl

end Texts

/-! ## The key of a line -/

/-- The keys that a line is searched for before a key. -/
def earlier (key : Key) : List Key := keys.takeWhile fun k => k ≠ key

/-- A text in which nothing is found that a line is searched for before the key. -/
def Plain (key : Key) (value : GoString) : Prop :=
  contains value (str "Domain:") = false ∧ ∀ k ∈ earlier key, contains value k.text = false

theorem find?_eq_some_iff_before {α : Type*} [DecidableEq α] {p : α → Bool} {list : List α} {a : α}
    (ha : a ∈ list) :
    list.find? p = some a ↔ p a = true ∧ ∀ b ∈ list.takeWhile (fun b => b ≠ a), p b = false := by
  induction list with
  | nil => cases ha
  | cons c list ih =>
    rw [List.find?_cons]
    by_cases hc : c = a
    · subst hc
      rw [List.takeWhile_cons_of_neg (by simp)]
      cases hp : p c with
      | true => simp
      | false =>
        have hnot : list.find? p ≠ some c := by
          intro hfound
          rw [List.find?_some hfound] at hp
          cases hp
        simpa using hnot
    · rw [List.takeWhile_cons_of_pos (by simpa using hc), List.forall_mem_cons,
        ← and_assoc, and_right_comm, ← ih (List.mem_of_ne_of_mem (Ne.symm hc) ha)]
      cases hp : p c with
      | true => simp [hc]
      | false => simp

section Keys

variable {key : Key} {text value word : GoString}

theorem keyOf_eq_some_iff : keyOf text = some key ↔
    contains text key.text = true ∧ ∀ k ∈ earlier key, contains text k.text = false :=
  find?_eq_some_iff_before (by cases key <;> decide)

theorem contains_headerLine_self (key : Key) : contains (headerLine key) key.text = true := by
  cases key <;> decide

theorem contains_headerLine_earlier (key : Key) :
    contains (headerLine key) (str "Domain:") = false ∧
      ∀ k ∈ earlier key, contains (headerLine key) k.text = false := by
  cases key <;> decide

theorem contains_fieldLine (hblank : 32 ∉ word) (hne : word ≠ []) (key : Key) (value : GoString) :
    contains (fieldLine key value) word = (contains (headerLine key) word || contains value word) :=
  contains_separated hblank hne _ _

theorem Key.text_word (key : Key) : 32 ∉ key.text ∧ key.text ≠ [] := by
  cases key <;> decide

theorem contains_fieldLine_self (key : Key) (value : GoString) :
    contains (fieldLine key value) key.text = true := by
  rw [contains_fieldLine key.text_word.1 key.text_word.2, contains_headerLine_self, Bool.true_or]

/-- A line is read under its own key where no other key is found first. -/
theorem plain_iff : Plain key value ↔
    contains (fieldLine key value) (str "Domain:") = false ∧
      keyOf (fieldLine key value) = some key := by
  obtain ⟨hdomain, hearlier⟩ := contains_headerLine_earlier key
  rw [keyOf_eq_some_iff, and_iff_right (contains_fieldLine_self key value),
    contains_fieldLine (by decide) (by decide), hdomain, Bool.false_or, Plain]
  refine and_congr_right' (forall₂_congr fun k hk => ?_)
  rw [contains_fieldLine k.text_word.1 k.text_word.2, hearlier k hk, Bool.false_or]

theorem headerLine_plain (key : Key) : contains (headerLine key) (str "Domain:") = false ∧
    keyOf (headerLine key) = some key := by
  obtain ⟨hdomain, hearlier⟩ := contains_headerLine_earlier key
  exact ⟨hdomain, keyOf_eq_some_iff.mpr ⟨contains_headerLine_self key, hearlier⟩⟩

theorem isName_fieldLine (key : Key) (value : GoString) : isName (fieldLine key value) = false := by
  have hhead : (fieldLine key value).head? = some 32 := rfl
  rw [isName, hhead]
  simp

theorem isName_headerLine (key : Key) : isName (headerLine key) = false := by
  have hhead : (headerLine key).head? = some 32 := rfl
  rw [isName, hhead]
  simp

theorem readValue_fieldLine (key : Key) (value : GoString) :
    readValue (fieldLine key value) = trimSpace value := by
  have hcolon : (58 : UInt8) ∉ str "  " ++ key.name := by cases key <;> decide
  have hline : fieldLine key value = (str "  " ++ key.name) ++ 58 :: 32 :: value := by
    rw [fieldLine, headerLine, Key.text, ← List.append_assoc, List.append_assoc _ (str ":")]
    rfl
  generalize str "  " ++ key.name = front at hcolon hline
  have hindex : index (front ++ 58 :: 32 :: value) (str ":") = front.length :=
    index_byte_append hcolon _
  have hdrop : ((front.length : ℤ) + 1).toNat = (front ++ [58]).length := by
    rw [List.length_append, List.length_singleton]
    omega
  have hsplit : front ++ 58 :: 32 :: value = (front ++ [58]) ++ 32 :: value := by simp
  rw [readValue, hline, hindex, hdrop, hsplit, List.drop_left, trimSpace_blank]

theorem getLast_fieldLine (key : Key) (value : GoString) :
    (fieldLine key value).getLast? = some 58 ↔ value.getLast? = some 58 := by
  rw [fieldLine, List.getLast?_append, List.getLast?_cons]
  cases value.getLast? with
  | none => simp
  | some c => simp

/-- A line with a value is read as that value. -/
theorem Draft.readKey_fieldLine {x : Draft} (hplain : Plain key value)
    (htrim : trimSpace value = value) (hallowed : key ≠ .allowed)
    (hdefault : key = .default → value.getLast? ≠ some 58) :
    x.readKey (fieldLine key value) = x.put key value := by
  obtain ⟨hdomain, hkey⟩ := plain_iff.mp hplain
  have hopens : ¬ Draft.Opens key (fieldLine key value) := by
    rintro (h | ⟨h, hlast⟩)
    · exact hallowed h
    · exact hdefault h ((getLast_fieldLine key value).mp hlast)
  rw [Draft.readKey_put hdomain (isName_fieldLine key value) hkey hopens, readValue_fieldLine, htrim]

theorem Draft.readKey_headerLine {x : Draft} (hkey : key = .allowed ∨ key = .default) :
    x.readKey (headerLine key) = { x with array := some (key, []) } := by
  obtain ⟨hdomain, hfound⟩ := headerLine_plain key
  refine Draft.readKey_open hdomain (isName_headerLine key) hfound ?_
  rcases hkey with rfl | rfl
  · exact .inl rfl
  · exact .inr ⟨rfl, rfl⟩

end Keys

/-! ## The elements of an array -/

/-- What is read from the line of an element. -/
def readItem (value : GoString) : GoString := readArrayValue (itemLine value)

/-- An element up to a byte that ends it, without the quotes around it. -/
def unquoted (element : GoString) : GoString :=
  trimPrefix (trimSuffix (trimSpace element) (str "'")) (str "'")

section Items

variable {value : GoString}

theorem itemLine_eq (value : GoString) : itemLine value = str "  - " ++ 39 :: (value ++ [39]) := by
  rw [itemLine, List.append_assoc]
  rfl

theorem contains_itemLine (value : GoString) : contains (itemLine value) (str " - ") = true := by
  rw [contains_iff_part, itemLine_eq]
  exact ⟨str " ", 39 :: (value ++ [39]), rfl⟩

theorem drop_itemLine (value : GoString) :
    (itemLine value).drop (index (itemLine value) (str " - ") + 3).toNat =
      39 :: (value ++ [39]) := by
  have hindex : index (itemLine value) (str " - ") = 1 := by
    rw [itemLine_eq]
    rfl
  rw [hindex, itemLine_eq]
  rfl

theorem cut_byte (c : UInt8) (element : GoString) :
    (index element [c] ≠ -1 ↔ c ∈ element) ∧
      (c ∈ element → element.take (index element [c]).toNat = element.takeWhile fun d => d ≠ c) := by
  by_cases hc : c ∈ element
  · have hindex : index element [c] = (element.takeWhile fun d => d ≠ c).length := by
      rw [index, index?_byte, if_pos hc]
    have htake := List.prefix_iff_eq_take.mp (List.takeWhile_prefix (l := element) fun d => d ≠ c)
    rw [hindex]
    refine ⟨iff_of_true (by omega) hc, fun _ => ?_⟩
    rw [Int.toNat_natCast, ← htake]
  · exact ⟨iff_of_false (not_not.mpr (index_byte_of_notMem hc)) hc, fun h => absurd h hc⟩

theorem takeWhile_cut {c : UInt8} {front : GoString} (hfront : c ∉ front) (rest : GoString) :
    (front ++ c :: rest).takeWhile (fun d => d ≠ c) = front := by
  have hne : ∀ d ∈ front, decide (d ≠ c) = true := by
    intro d hd
    have hdc : d ≠ c := fun heq => hfront (heq ▸ hd)
    simpa using hdc
  rw [List.takeWhile_append_of_pos hne, List.takeWhile_cons_of_neg (by simp), List.append_nil]

theorem takeWhile_quoted {c : UInt8} (hc : c ≠ 39) (h : c ∈ value) :
    (39 :: (value ++ [39])).takeWhile (fun d => d ≠ c) =
      39 :: value.takeWhile fun d => d ≠ c := by
  rw [List.takeWhile_cons_of_pos (by simpa using Ne.symm hc)]
  obtain ⟨front, rest, rfl, hfront⟩ := List.eq_append_cons_of_mem h
  rw [List.append_assoc, List.cons_append, takeWhile_cut hfront, takeWhile_cut hfront]

/-- The element is cut at a comma, or else at a number sign. -/
theorem readItem_eq (value : GoString) : readItem value =
    unquoted (39 :: (if 44 ∈ value then value.takeWhile fun d => d ≠ 44
      else if 35 ∈ value then value.takeWhile fun d => d ≠ 35 else value ++ [39])) := by
  have hmem : ∀ c : UInt8, c ≠ 39 → (c ∈ 39 :: (value ++ [39]) ↔ c ∈ value) := by
    intro c hc
    simp [hc]
  have hcut : ∀ c : UInt8, c ≠ 39 → (index (39 :: (value ++ [39])) [c] ≠ -1 ↔ c ∈ value) ∧
      (c ∈ value → (39 :: (value ++ [39])).take (index (39 :: (value ++ [39])) [c]).toNat =
        39 :: value.takeWhile fun d => d ≠ c) := by
    intro c hc
    obtain ⟨hindex, htake⟩ := cut_byte c (39 :: (value ++ [39]))
    rw [hmem c hc] at hindex htake
    exact ⟨hindex, fun h => (htake h).trans (takeWhile_quoted hc h)⟩
  obtain ⟨hcomma, htakeComma⟩ := hcut 44 (by decide)
  obtain ⟨hnumber, htakeNumber⟩ := hcut 35 (by decide)
  have hcommaText : str "," = [44] := rfl
  have hnumberText : str "#" = [35] := rfl
  rw [readItem, readArrayValue, drop_itemLine, hcommaText, hnumberText, unquoted]
  by_cases h44 : 44 ∈ value
  · rw [if_pos (hcomma.mpr h44), if_pos h44, htakeComma h44]
  · rw [if_neg (mt hcomma.mp h44), if_neg h44]
    by_cases h35 : 35 ∈ value
    · rw [if_pos (hnumber.mpr h35), if_pos h35, htakeNumber h35]
    · rw [if_neg (mt hnumber.mp h35), if_neg h35]

theorem unquoted_inside (element : GoString) : unquoted element <:+: element := by
  have hsuffix : trimSuffix (trimSpace element) (str "'") <+: trimSpace element := by
    unfold trimSuffix
    split
    · exact List.take_prefix _ _
    · exact List.prefix_rfl
  have hprefix : unquoted element <:+ trimSuffix (trimSpace element) (str "'") := by
    unfold unquoted trimPrefix
    split
    · exact List.drop_suffix _ _
    · exact List.suffix_rfl
  exact hprefix.isInfix.trans (hsuffix.isInfix.trans (trimSpace_inside element))

/-- No element that is read has a comma. -/
theorem notMem_readArrayValue (line : GoString) : 44 ∉ readArrayValue line := by
  have hcommaText : str "," = [44] := rfl
  rw [readArrayValue, hcommaText]
  generalize line.drop (index line (str " - ") + 3).toNat = element
  obtain ⟨hindex, htake⟩ := cut_byte 44 element
  intro hmem
  have hmem := (unquoted_inside _).subset hmem
  by_cases hcomma : 44 ∈ element
  · rw [if_pos (hindex.mpr hcomma), htake hcomma] at hmem
    have hne := List.mem_takeWhile_imp hmem
    simp at hne
  · rw [if_neg (mt hindex.mp hcomma)] at hmem
    split at hmem
    · exact hcomma (List.mem_of_mem_take hmem)
    · exact hcomma hmem

theorem readItem_eq_self (hcomma : 44 ∉ value) (hnumber : 35 ∉ value) : readItem value = value := by
  have htrim : trimSpace (39 :: (value ++ [39])) = 39 :: (value ++ [39]) :=
    trimSpace_eq_self (a := 39) (b := 39) (by decide) (by decide) rfl
      (by rw [← List.cons_append, List.getLast?_append]; rfl)
  have hsuffix : trimSuffix (39 :: (value ++ [39])) (str "'") = 39 :: value := by
    have hends : (str "'").isSuffixOf (39 :: (value ++ [39])) = true := by
      rw [List.isSuffixOf_iff_suffix]
      exact ⟨39 :: value, rfl⟩
    have hlength : (39 :: (value ++ [39])).length - (str "'").length = (39 :: value).length := by
      have hquote : (str "'").length = 1 := rfl
      rw [hquote, List.length_cons, List.length_append, List.length_cons]
      rfl
    rw [trimSuffix, if_pos hends, hlength, ← List.cons_append, List.take_left]
  rw [readItem_eq, if_neg hcomma, if_neg hnumber, unquoted, htrim, hsuffix, trimPrefix]
  rfl

/-- An element that is read back has neither a comma nor a number sign. -/
theorem readItem_eq_self_iff : readItem value = value ↔ 44 ∉ value ∧ 35 ∉ value := by
  constructor
  · intro h
    have hcomma : 44 ∉ value := by
      rw [← h]
      exact notMem_readArrayValue _
    refine ⟨hcomma, fun hnumber => ?_⟩
    have hmem : 35 ∈ readItem value := by rwa [h]
    rw [readItem_eq, if_neg hcomma, if_pos hnumber] at hmem
    rcases List.mem_cons.mp ((unquoted_inside _).subset hmem) with heq | hmem
    · cases heq
    · have hne := List.mem_takeWhile_imp hmem
      simp at hne
  · rintro ⟨hcomma, hnumber⟩
    exact readItem_eq_self hcomma hnumber

/-- Without its opening quote an element is a prefix of what is behind the quote. -/
theorem unquoted_quote (front : GoString) : unquoted (39 :: front) <+: front := by
  have hwords : ∀ word ∈ whiteSpace, ¬ word <+: 39 :: front := by
    intro word hword hprefix
    obtain ⟨rest, hrest⟩ := hprefix
    have hhead : word.head? ≠ some 39 ∧ word ≠ [] :=
      (show ∀ word ∈ whiteSpace, word.head? ≠ some 39 ∧ word ≠ [] by decide) word hword
    cases word with
    | nil => exact hhead.2 rfl
    | cons c word =>
      obtain ⟨rfl, -⟩ := List.cons.inj hrest
      exact hhead.1 rfl
  have htrim : trimSpace (39 :: front) <+: 39 :: front := by
    rw [trimSpace, trimFront_eq_self hwords, ← List.reverse_suffix, List.reverse_reverse]
    exact trimFront_suffix _ _
  have hcut : trimSuffix (trimSpace (39 :: front)) (str "'") <+: 39 :: front := by
    unfold trimSuffix
    split
    · exact (List.take_prefix _ _).trans htrim
    · exact htrim
  unfold unquoted
  generalize trimSuffix (trimSpace (39 :: front)) (str "'") = element at hcut ⊢
  cases element with
  | nil => exact List.nil_prefix
  | cons c element =>
    obtain ⟨rfl, hprefix⟩ := List.cons_prefix_cons.mp hcut
    exact hprefix

/-- An element that is read with all its characters is read back. -/
theorem readItem_of_asciiCount (h : asciiCount value ≤ asciiCount (readItem value)) :
    readItem value = value := by
  have hcut : ∀ c : UInt8, c < 128 → c ∈ value →
      ¬ readItem value <+: value.takeWhile fun d => d ≠ c := by
    intro c hlow hmem hprefix
    obtain ⟨front, rest, rfl, hfront⟩ := List.eq_append_cons_of_mem hmem
    rw [takeWhile_cut hfront] at hprefix
    have hle : asciiCount (readItem (front ++ c :: rest)) ≤ asciiCount front :=
      hprefix.sublist.countP_le
    have hmore : asciiCount (front ++ c :: rest) = asciiCount front + (asciiCount rest + 1) := by
      rw [asciiCount_append]
      exact congrArg (asciiCount front + ·) (List.countP_cons_of_pos (by simpa using hlow))
    omega
  refine readItem_eq_self (fun hcomma => ?_) fun hnumber => ?_
  · refine hcut 44 (by decide) hcomma ?_
    rw [readItem_eq, if_pos hcomma]
    exact unquoted_quote _
  · by_cases hcomma : 44 ∈ value
    · refine hcut 44 (by decide) hcomma ?_
      rw [readItem_eq, if_pos hcomma]
      exact unquoted_quote _
    · refine hcut 35 (by decide) hnumber ?_
      rw [readItem_eq, if_neg hcomma, if_pos hnumber]
      exact unquoted_quote _

end Items

end VissServer.Datamodel

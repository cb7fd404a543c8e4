import VissServer.Datamodel.TreeWeights

/-!
Which rows come back from their own lines. All lines with a value are needed where the whole row is
read, so that each of them is read as it was meant.
-/
namespace VissServer.Datamodel

open Go

/-! ## The lines of a row -/

section Lines

variable {key : Key} {value : GoString}

/-- What is behind a colon of a line that ends with a quote is nothing, or ends with the quote. -/
theorem readValue_itemLine (value : GoString) :
    readValue (itemLine value) = [] ∨ (readValue (itemLine value)).getLast? = some 39 := by
  have hlast : ∀ {s t : GoString}, s <:+ t → t.getLast? = some 39 → s = [] ∨ s.getLast? = some 39 := by
    rintro s t ⟨front, rfl⟩ ht
    by_cases hs : s = []
    · exact .inl hs
    · rw [List.getLast?_append_of_ne_nil _ hs] at ht
      exact .inr ht
  have hline : (itemLine value).getLast? = some 39 := by
    rw [itemLine, List.getLast?_append]
    rfl
  unfold readValue
  generalize (index (itemLine value) (str ":") + 1).toNat = n
  rcases hlast ((trimFront_suffix whiteSpace _).trans (List.drop_suffix n _)) hline with hnil | hend
  · left
    rw [trimSpace, hnil]
    rfl
  · right
    have hwords : ∀ word ∈ whiteSpace.map List.reverse,
        ¬ word <+: (trimFront whiteSpace ((itemLine value).drop n)).reverse := by
      intro word hword hprefix
      have hhead : word.head? ≠ some 39 ∧ word ≠ [] :=
        (show ∀ word ∈ whiteSpace.map List.reverse, word.head? ≠ some 39 ∧ word ≠ [] by decide)
          word hword
      rw [← List.head?_reverse] at hend
      obtain ⟨rest, hrest⟩ := hprefix
      rw [← hrest, List.head?_append_of_ne_nil _ hhead.2] at hend
      exact hhead.1 hend
    rw [trimSpace, trimFront_eq_self hwords, List.reverse_reverse]
    exact hend

theorem getLast_lexed {s : GoString} {tokens : List GoString} (h : Lexed s tokens) :
    s.getLast? ≠ some 39 := by
  induction h with
  | nil => simp
  | @bare c s tokens hc _ ih =>
    rw [List.getLast?_cons]
    cases hlast : s.getLast? with
    | none =>
      rw [Option.getD_none]
      rintro heq
      rw [Option.some.inj heq] at hc
      exact absurd hc (by decide)
    | some d =>
      rw [hlast] at ih
      exact ih
  | @string raw s tokens _ _ ih =>
    rw [← List.cons_append, List.getLast?_append, List.getLast?_cons]
    cases hlast : s.getLast? with
    | none => simp
    | some d =>
      rw [hlast] at ih
      exact ih

/-- A text that ends with a quote of an element is no JSON. -/
theorem extractJsonData_quoted (h : value = [] ∨ value.getLast? = some 39) :
    extractJsonData value = [] := by
  have hparse : parseText value = none := by
    rw [← Option.not_isSome_iff_eq_none, Option.isSome_iff_exists]
    rintro ⟨v, hv⟩
    rcases h with rfl | hlast
    · have hnone : parseText [] = none := by decide
      rw [hnone] at hv
      cases hv
    · exact getLast_lexed (lexed_of_parseText hv) hlast
  have hstrings : unmarshalStrings value = none := by
    rw [unmarshalStrings, hparse]
  rw [extractJsonData, hstrings, hparse]
  exact ite_self _

theorem light_itemLine (value : GoString) : Light (itemLine value) := by
  have hread := readValue_itemLine value
  refine ⟨?_, fun _ _ => ⟨?_, ?_⟩⟩
  · have hhead : (itemLine value).head? = some 32 := rfl
    rw [isName, hhead]
    simp
  · rcases hread with hnil | hlast
    · rw [hnil]
      simp
    · rw [hlast]
      decide
  · unfold valueWeight
    rw [extractJsonData_quoted hread]
    split
    · exact Nat.zero_le 1
    · split
      · exact le_rfl
      · exact le_rfl

theorem light_fieldLine (htrim : trimSpace value = value)
    (hdefault : key = .default → contains value (str "[") = false) : Light (fieldLine key value) := by
  refine ⟨isName_fieldLine key value, fun hkey hopens => ?_⟩
  obtain rfl : key = .default := by
    by_contra hne
    have hself := contains_fieldLine_self key value
    rw [(keyOf_eq_some_iff.mp hkey).2 key (by cases key <;> first | decide | exact absurd rfl hne)]
      at hself
    cases hself
  rw [readValue_fieldLine, htrim]
  constructor
  · intro hlast
    exact hopens (.inr ⟨rfl, (getLast_fieldLine .default value).mpr hlast⟩)
  · rw [Draft.valueWeight_scalar (by decide) hdefault]
    split
    · exact Nat.zero_le 1
    · exact le_rfl

theorem light_headerLine (hkey : key = .allowed ∨ key = .default) : Light (headerLine key) := by
  refine ⟨isName_headerLine key, fun hfound hopens => ?_⟩
  rw [(headerLine_plain key).2] at hfound
  obtain rfl := Option.some.inj hfound
  exact absurd (.inr ⟨rfl, rfl⟩) hopens

theorem light_nil : Light [] :=
  ⟨by decide, fun hkey => absurd hkey (by decide)⟩

variable {node : DomainData}

theorem light_blockLines (hsignal : node.Signal) {line : GoString} (hmem : line ∈ blockLines node) :
    Light line := by
  rcases mem_blockLines hmem with ⟨key, hdefault, rfl⟩ | ⟨key, hkey, rfl⟩ | ⟨value, -, rfl⟩ | rfl
  · refine light_fieldLine (hsignal.trimmed.2 key) ?_
    rintro rfl
    exact hdefault rfl
  · exact light_headerLine hkey
  · exact light_itemLine value
  · exact light_nil

/-- How many lines with a value are written for a field. -/
def lineCount (node : DomainData) : Key → ℕ
  | .default =>
      if contains node.deflt (str "[") = true then (extractJsonData node.deflt).length
      else (fieldLines .default node.deflt).length
  | .allowed =>
      if node.enumValues ≠ [] ∧ node.datatype ≠ str "boolean" then
        (extractJsonData node.enumValues).length
      else 0
  | key => (fieldLines key (node.get key)).length

theorem length_fieldLines (key : Key) (value : GoString) :
    (fieldLines key value).length = if value = [] then 0 else 1 := by
  unfold fieldLines
  split <;> rfl

theorem contains_ne_nil {word : GoString} (hword : word ≠ []) (h : contains value word = true) :
    value ≠ [] := by
  rintro rfl
  exact hword (List.eq_nil_of_infix_nil (contains_iff_part.mp h))

theorem lineCount_le (node : DomainData) (key : Key) :
    lineCount node key ≤ valueWeight key (node.get key) := by
  cases key with
  | default =>
    rw [lineCount, DomainData.get]
    split
    · next hbracket =>
      rw [valueWeight, if_neg (contains_ne_nil (by decide) hbracket), if_pos (.inr ⟨rfl, hbracket⟩)]
      exact le_max_right _ _
    · next hbracket =>
      rw [length_fieldLines,
        Draft.valueWeight_scalar (by decide) fun _ => Bool.eq_false_iff.mpr hbracket]
  | allowed =>
    rw [lineCount, DomainData.get]
    split
    · next hwritten =>
      rw [valueWeight, if_neg hwritten.1, if_pos (.inl rfl)]
      exact le_max_right _ _
    · exact Nat.zero_le _
  | unit | datatype | type | min | max | description | comment | uuid =>
    rw [lineCount, length_fieldLines, Draft.valueWeight_scalar (by decide) fun h => absurd h (by decide)]
    all_goals exact fun h => absurd h (by decide)

theorem sum_keys (f : Key → ℕ) : ∑ key, f key = (keys.map f).sum := rfl

/-- The lines with a value are those of the fields. -/
theorem countP_blockLines (hdescribed : node.description ≠ []) :
    (blockLines node).countP busy ≤ ∑ key, lineCount node key := by
  have hfields : ∀ key, (fieldLines key (node.get key)).countP busy ≤
      (fieldLines key (node.get key)).length := fun key => List.countP_le_length
  have hheader : ∀ key, key = .allowed ∨ key = .default → ∀ values : List GoString,
      (headerLine key :: values.map itemLine).countP busy ≤ values.length := by
    intro key hkey values
    have hidle : ¬ busy (headerLine key) = true := by
      rcases hkey with rfl | rfl
      · decide
      · decide
    rw [List.countP_cons_of_neg hidle]
    exact List.countP_le_length.trans (List.length_map _).le
  have hdefault : (defaultBlock node.deflt).countP busy ≤ lineCount node .default := by
    rw [lineCount, defaultBlock]
    split
    · exact hheader .default (.inr rfl) _
    · exact List.countP_le_length
  have hallowed : (allowedBlock node).countP busy ≤ lineCount node .allowed := by
    rw [lineCount, allowedBlock]
    split
    · exact hheader .allowed (.inl rfl) _
    · exact le_rfl
  have hdescription : [fieldLine .description node.description].countP busy ≤
      lineCount node .description := by
    have hone : lineCount node .description = 1 := by
      have hlength := length_fieldLines .description node.description
      rwa [if_neg hdescribed] at hlength
    rw [hone]
    exact List.countP_le_length
  have hnil : [([] : GoString)].countP busy = 0 := by decide
  have hblock : blockLines node = fieldLines .type node.type ++ (fieldLines .datatype node.datatype ++
      (fieldLines .min node.min ++ (fieldLines .max node.max ++ (fieldLines .unit node.unit ++
        (defaultBlock node.deflt ++ (fieldLines .uuid node.uid ++ (allowedBlock node ++
          ([fieldLine .description node.description] ++ (fieldLines .comment node.comment ++
            [[]]))))))))) := by
    simp [blockLines, upperKeys, lowerLines, DomainData.get]
  have htype := hfields .type
  have hdatatype := hfields .datatype
  have hmin := hfields .min
  have hmax := hfields .max
  have hunit := hfields .unit
  have huuid := hfields .uuid
  have hcomment := hfields .comment
  rw [hblock, sum_keys, keys]
  simp only [List.countP_append, hnil, List.map_cons, List.map_nil, List.sum_cons, List.sum_nil]
  simp only [DomainData.get] at htype hdatatype hmin hmax hunit huuid hcomment
  simp only [show lineCount node .type = (fieldLines .type node.type).length from rfl,
    show lineCount node .datatype = (fieldLines .datatype node.datatype).length from rfl,
    show lineCount node .min = (fieldLines .min node.min).length from rfl,
    show lineCount node .max = (fieldLines .max node.max).length from rfl,
    show lineCount node .unit = (fieldLines .unit node.unit).length from rfl,
    show lineCount node .uuid = (fieldLines .uuid node.uid).length from rfl,
    show lineCount node .comment = (fieldLines .comment node.comment).length from rfl]
  omega

end Lines

/-! ## Rows that come back -/

/-- The machine behind the name of a row. -/
def start (rows : List DomainData) (node : DomainData) : Draft :=
  { rows, data := { path := node.path }, first := false }

/-- All lines of a row are read, and each one with a value adds it. -/
structure Exact (rows : List DomainData) (node : DomainData) : Prop where
  counts : ∀ key, lineCount node key = valueWeight key (node.get key)
  fits : ∀ line ∈ blockLines node, fits line = true
  total : ((blockLines node).foldl Draft.feed (start rows node)).total =
    (blockLines node).countP busy
  weights : ∀ key, ((blockLines node).foldl Draft.feed (start rows node)).weight key =
    valueWeight key (node.get key)

section Rows

variable {rows : List DomainData} {node : DomainData}

theorem total_start (rows : List DomainData) (node : DomainData) : (start rows node).total = 0 := by
  refine Finset.sum_eq_zero fun key _ => ?_
  cases key <;> rfl

theorem start_clean (rows : List DomainData) (node : DomainData) : (start rows node).Clean :=
  fun _ _ hsome => by cases hsome

theorem start_sound (rows : List DomainData) (node : DomainData) : (start rows node).Sound := by
  have hnil : ∀ key, (start rows node).data.get key = [] := by
    intro key
    cases key <;> rfl
  constructor
  · intro key _ _
    rw [hnil]
    exact Draft.plain_nil key
  · rw [hnil]
    exact fun _ => ⟨Draft.plain_nil .default, by decide⟩

/-- Without a line with a value that does not fit all lines fit. -/
theorem fits_of_countP {lines : List GoString}
    (h : lines.countP busy ≤ (lines.takeWhile fits).countP busy) : ∀ line ∈ lines, fits line = true := by
  have hsplit := congrArg (List.countP busy) (List.takeWhile_append_dropWhile (p := fits) (l := lines))
  rw [List.countP_append] at hsplit
  have hidle : ∀ line ∈ lines.dropWhile fits, ¬ busy line = true :=
    List.countP_eq_zero.mp (by omega)
  have hnil : lines.dropWhile fits = [] := by
    rw [← List.head?_eq_none_iff, Option.eq_none_iff_forall_ne_some]
    intro line hline
    have hnot := List.head?_dropWhile_not fits lines
    rw [hline] at hnot
    have hmem : line ∈ lines.dropWhile fits := List.mem_of_mem_head? hline
    rcases Draft.busy_eq_false (Bool.eq_false_iff.mpr (hidle line hmem)) with rfl | rfl | rfl
    · exact absurd hnot (by decide)
    · exact absurd hnot (by decide)
    · exact absurd hnot (by decide)
  exact List.dropWhile_eq_nil_iff.mp hnil

theorem exact_of_finish (hsignal : node.Signal)
    (h : (((blockLines node).takeWhile fits).foldl Draft.feed (start rows node)).finish = node) :
    Exact rows node := by
  have hlight : ∀ line ∈ (blockLines node).takeWhile fits, Light line := fun line hline =>
    light_blockLines hsignal ((List.takeWhile_prefix _).subset hline)
  obtain ⟨hadds, hclean⟩ := Draft.foldl_adds (start_clean rows node) hlight
  have htotal := hadds.total_le
  rw [total_start, Nat.zero_add] at htotal
  have hweight : ∀ key, valueWeight key (node.get key) ≤
      (((blockLines node).takeWhile fits).foldl Draft.feed (start rows node)).weight key := by
    intro key
    have hle := Draft.settle_weight hclean key
    rw [Draft.weight_of_none (Draft.settle_array _)] at hle
    have hdata : (((blockLines node).takeWhile fits).foldl Draft.feed
        (start rows node)).settle.data = node := h
    rwa [hdata] at hle
  have hcount := (List.takeWhile_prefix (l := blockLines node) fits).sublist.countP_le (p := busy)
  have hblock := countP_blockLines hsignal.described
  have hlines : ∑ key, lineCount node key ≤ ∑ key, valueWeight key (node.get key) :=
    Finset.sum_le_sum fun key _ => lineCount_le node key
  have hsum : ∑ key, valueWeight key (node.get key) ≤
      (((blockLines node).takeWhile fits).foldl Draft.feed (start rows node)).total :=
    Finset.sum_le_sum fun key _ => hweight key
  have hfits := fits_of_countP (show (blockLines node).countP busy ≤
    ((blockLines node).takeWhile fits).countP busy by omega)
  rw [List.takeWhile_eq_self_iff.mpr hfits] at htotal hsum hweight
  refine ⟨fun key => ?_, hfits, by omega, fun key => ?_⟩
  · exact (Finset.sum_eq_sum_iff_of_le fun key _ => lineCount_le node key).mp (by omega) key
      (Finset.mem_univ key)
  · exact ((Finset.sum_eq_sum_iff_of_le fun key _ => hweight key).mp
      (by unfold Draft.total at hsum htotal; omega) key (Finset.mem_univ key)).symm

/-- No more values are held of a field at any line. -/
theorem Exact.weight_le (h : Exact rows node) (hsignal : node.Signal) {front back : List GoString}
    (hblock : blockLines node = front ++ back) (key : Key) :
    (front.foldl Draft.feed (start rows node)).weight key ≤ valueWeight key (node.get key) := by
  have hlight : ∀ line ∈ front ++ back, Light line := fun line hline =>
    light_blockLines hsignal (hblock ▸ hline)
  obtain ⟨hfront, hclean⟩ := Draft.foldl_adds (start_clean rows node) fun line hline =>
    hlight line (List.mem_append_left back hline)
  obtain ⟨hback, -⟩ := Draft.foldl_adds hclean fun line hline =>
    hlight line (List.mem_append_right front hline)
  have htotal := h.total
  have hweights := h.weights key
  have hle := hfront.total_le
  rw [hblock, List.foldl_append, List.countP_append] at htotal
  rw [hblock, List.foldl_append] at hweights
  rw [total_start] at hle
  rw [← hweights]
  exact hback.weight_le (by omega) key

theorem Exact.default_filled (h : Exact rows node)
    (hbracket : contains node.deflt (str "[") = true) :
    extractJsonData node.deflt ≠ [] ∧
      valueWeight .default node.deflt = (extractJsonData node.deflt).length := by
  have hcount : lineCount node .default = (extractJsonData node.deflt).length := if_pos hbracket
  have hweight : valueWeight .default node.deflt = max 1 (extractJsonData node.deflt).length := by
    rw [valueWeight, if_neg (contains_ne_nil (by decide) hbracket), if_pos (.inr ⟨rfl, hbracket⟩)]
  have hcounts : lineCount node .default = valueWeight .default node.deflt := h.counts .default
  have hone := le_max_left 1 (extractJsonData node.deflt).length
  exact ⟨List.ne_nil_of_length_pos (by omega), by omega⟩

theorem Exact.allowed_filled (h : Exact rows node) (hvalues : node.enumValues ≠ []) :
    node.datatype ≠ str "boolean" ∧ extractJsonData node.enumValues ≠ [] ∧
      valueWeight .allowed node.enumValues = (extractJsonData node.enumValues).length := by
  have hweight : valueWeight .allowed node.enumValues =
      max 1 (extractJsonData node.enumValues).length := by
    rw [valueWeight, if_neg hvalues, if_pos (.inl rfl)]
  have hcounts : lineCount node .allowed = valueWeight .allowed node.enumValues := h.counts .allowed
  have hone := le_max_left 1 (extractJsonData node.enumValues).length
  have hboolean : node.datatype ≠ str "boolean" := by
    intro hboolean
    have hcount : lineCount node .allowed = 0 := if_neg fun hwritten => hwritten.2 hboolean
    omega
  have hcount : lineCount node .allowed = (extractJsonData node.enumValues).length :=
    if_pos ⟨hvalues, hboolean⟩
  exact ⟨hboolean, List.ne_nil_of_length_pos (by omega), by omega⟩

/-- A line that is taken for an element makes an array longer. -/
theorem weight_feed_item {x : Draft} {key : Key} {values : List GoString} {line : GoString}
    (harray : x.array = some (key, values)) (hitem : LikeItem line) :
    (x.feed line).weight key = values.length + 1 := by
  have hline : contains line (str " - ") = true := hitem
  have hfeed : x.feed line = { x with array := some (key, values ++ [readArrayValue line]) } := by
    rw [Draft.feed, harray]
    exact if_pos hline
  rw [hfeed, Draft.weight]
  simp

/-- The line behind a whole array is no element of it. -/
theorem Exact.not_likeItem (h : Exact rows node) (hsignal : node.Signal) {front back : List GoString}
    {line : GoString} (hblock : blockLines node = front ++ line :: back) {key : Key}
    {values : List GoString}
    (harray : (front.foldl Draft.feed (start rows node)).array = some (key, values))
    (hweight : valueWeight key (node.get key) = values.length) : ¬ LikeItem line := by
  intro hitem
  have hcut : blockLines node = front ++ [line] ++ back := by
    rw [hblock, List.append_assoc]
    rfl
  have hle := h.weight_le hsignal hcut key
  rw [List.foldl_append, List.foldl_cons, List.foldl_nil, weight_feed_item harray hitem,
    hweight] at hle
  omega

theorem Exact.sound (h : Exact rows node) (hsignal : node.Signal)
    (hfinish : ((blockLines node).foldl Draft.feed (start rows node)).finish = node) :
    (∀ key, key ≠ .allowed → key ≠ .default → Plain key (node.get key)) ∧
      (contains node.deflt (str "[") = false →
        Plain .default node.deflt ∧ node.deflt.getLast? ≠ some 58) := by
  have hlight : ∀ line ∈ blockLines node, Light line := fun line => light_blockLines hsignal
  have htotal := h.total
  have hstart := total_start rows node
  obtain ⟨-, hclean⟩ := Draft.foldl_adds (start_clean rows node) hlight
  have hsound := (Draft.foldl_sound (start_sound rows node) (start_clean rows node) hlight
    (by omega)).settle hclean
  have hdata : ((blockLines node).foldl Draft.feed (start rows node)).settle.data = node := hfinish
  obtain ⟨hplain, hdeflt⟩ := hsound
  rw [hdata] at hplain hdeflt
  exact ⟨hplain, hdeflt⟩

/-- A row that is read back is legible. -/
theorem Exact.legible (h : Exact rows node) (hsignal : node.Signal)
    (hfinish : ((blockLines node).foldl Draft.feed (start rows node)).finish = node) :
    node.Legible := by
  obtain ⟨hplain, hscalar⟩ := h.sound hsignal hfinish
  have hplainUuid : Plain .uuid node.uid := hplain .uuid (by decide) (by decide)
  have harray : contains node.deflt (str "[") = true → extractJsonData node.deflt ≠ [] :=
    fun hbracket => (h.default_filled hbracket).1
  have hvalues : node.enumValues ≠ [] →
      node.datatype ≠ str "boolean" ∧ extractJsonData node.enumValues ≠ [] := fun hvalues =>
    ⟨(h.allowed_filled hvalues).1, (h.allowed_filled hvalues).2.1⟩
  have hblock : blockLines node =
      Draft.upperLines node ++ (defaultBlock node.deflt ++ lowerLines node) := rfl
  obtain ⟨hat, hopen⟩ := (Draft.at_closed rows
    (Draft.copied node upperKeys { path := node.path })).read_default rfl rfl hsignal hscalar harray
  have hupper := Draft.read_upperLines hsignal hplain rows
  have hfold : (Draft.upperLines node ++ defaultBlock node.deflt).foldl Draft.feed
      (start rows node) = (defaultBlock node.deflt).foldl Draft.feed
        { rows, data := Draft.copied node upperKeys { path := node.path }, first := false } := by
    rw [List.foldl_append, start, hupper]
  have huid : contains node.deflt (str "[") = true → node.uid ≠ [] →
      ¬ LikeItem (fieldLine .uuid node.uid) := by
    intro hbracket huid
    have hfields : fieldLines .uuid node.uid = [fieldLine .uuid node.uid] := if_neg huid
    have hcut : blockLines node = Draft.upperLines node ++ defaultBlock node.deflt ++
        fieldLine .uuid node.uid :: (allowedBlock node ++
          (fieldLine .description node.description :: (fieldLines .comment node.comment ++ [[]]))) := by
      rw [hblock, lowerLines, hfields, List.append_assoc]
      rfl
    refine h.not_likeItem hsignal hcut (by rw [hfold, hopen]; exact if_pos hbracket) ?_
    rw [List.length_map]
    exact (h.default_filled hbracket).2
  refine ⟨hplain, hscalar, harray, hvalues, huid, fun hopened => ?_⟩
  obtain ⟨-, hmiddle⟩ := hat.read_middle hopen hsignal hplainUuid hvalues huid
    (Draft.get_upper node _ .uuid (by simp)) (Draft.get_upper node _ .allowed (by simp))
  have hlast : ((Draft.upperLines node ++ defaultBlock node.deflt ++
      (fieldLines .uuid node.uid ++ allowedBlock node)).foldl Draft.feed
        (start rows node)).array = Draft.lastArray node := by
    rw [List.foldl_append, hfold, hmiddle]
  have hcut : blockLines node = Draft.upperLines node ++ defaultBlock node.deflt ++
      (fieldLines .uuid node.uid ++ allowedBlock node) ++
        fieldLine .description node.description :: (fieldLines .comment node.comment ++ [[]]) := by
    rw [hblock, lowerLines]
    simp only [List.append_assoc]
  by_cases henum : node.enumValues = []
  · obtain ⟨hbracket, huid⟩ := hopened.resolve_right (not_not.mpr henum)
    have harray : Draft.lastArray node =
        some (.default, (extractJsonData node.deflt).map readItem) := by
      rw [Draft.lastArray, if_pos henum, if_pos huid]
      exact if_pos hbracket
    refine h.not_likeItem hsignal hcut (hlast.trans harray) ?_
    rw [List.length_map]
    exact (h.default_filled hbracket).2
  · refine h.not_likeItem hsignal hcut (hlast.trans (if_neg henum)) ?_
    rw [List.length_map]
    exact (h.allowed_filled henum).2.2

/-- A row comes back from its lines, as far as they fit, if and only if it is kept. -/
theorem finish_iff_kept (hsignal : node.Signal) (rows : List DomainData) :
    (((blockLines node).takeWhile fits).foldl Draft.feed (start rows node)).finish = node ↔
      node.Kept := by
  constructor
  · intro h
    have hexact := exact_of_finish hsignal h
    rw [List.takeWhile_eq_self_iff.mpr hexact.fits] at h
    have hlegible := hexact.legible hsignal h
    rw [start, Draft.blockLines_legible hlegible hsignal] at h
    have hback : readBack node = node := h
    refine ⟨hlegible, fun hbracket => ?_, fun hvalues => ?_, hexact.fits⟩
    · have hdefault : defaultRead node.deflt = node.deflt := congrArg DomainData.deflt hback
      rw [defaultRead, if_pos hbracket] at hdefault
      exact listed_of_read (hlegible.array hbracket) hdefault
    · obtain ⟨hboolean, hne⟩ := hlegible.enumValues hvalues
      have hallowed : allowedRead node = node.enumValues := congrArg DomainData.enumValues hback
      rw [allowedRead, if_pos ⟨hvalues, hboolean⟩] at hallowed
      exact listed_of_read hne hallowed
  · intro h
    rw [List.takeWhile_eq_self_iff.mpr h.fits, start, Draft.blockLines_kept h hsignal]
    rfl

end Rows

end VissServer.Datamodel

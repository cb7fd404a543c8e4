import VissServer.Datamodel.TreeRows

/-!
The import of a file that was written for rows: when it inserts exactly these rows.
-/
namespace VissServer.Datamodel

open Go

/-! ## Tables -/

section Tables

variable {table rows added : List DomainData}

/-- The rows that are added are some of those that are inserted. -/
theorem foldl_addRow_append (table rows : List DomainData) :
    ∃ added, rows.foldl addRow table = table ++ added ∧ added.Sublist rows := by
  induction rows generalizing table with
  | nil => exact ⟨[], by simp, List.Sublist.slnil⟩
  | cons row rows ih =>
    rw [List.foldl_cons, addRow]
    split
    · obtain ⟨added, hadded, hsublist⟩ := ih table
      exact ⟨added, hadded, hsublist.cons row⟩
    · obtain ⟨added, hadded, hsublist⟩ := ih (table ++ [row])
      refine ⟨row :: added, ?_, hsublist.cons_cons row⟩
      rw [hadded, List.append_assoc]
      rfl

/-- All rows are added where their names are new and unique. -/
theorem foldl_addRow_iff (table rows : List DomainData) :
    rows.foldl addRow table = table ++ rows ↔
      (rows.map DomainData.path).Nodup ∧
        ∀ row ∈ rows, row.path ∉ table.map DomainData.path := by
  induction rows generalizing table with
  | nil => simp
  | cons row rows ih =>
    rw [List.foldl_cons, addRow]
    split
    · next hmem =>
      constructor
      · intro h
        obtain ⟨added, hadded, hsublist⟩ := foldl_addRow_append table rows
        have hlength := hsublist.length_le
        rw [hadded, List.append_cancel_left_eq] at h
        rw [h, List.length_cons] at hlength
        omega
      · rintro ⟨-, hnew⟩
        exact absurd hmem (hnew row List.mem_cons_self)
    · next hmem =>
      rw [List.append_cons table row rows, ih, List.map_cons, List.nodup_cons, List.forall_mem_cons,
        and_iff_right hmem]
      have hnames : ∀ other : DomainData, other.path ∉ (table ++ [row]).map DomainData.path ↔
          other.path ∉ table.map DomainData.path ∧ other.path ≠ row.path := by
        intro other
        simp
      have hnot : row.path ∉ rows.map DomainData.path ↔ ∀ other ∈ rows, other.path ≠ row.path := by
        simp
      simp only [hnames, hnot]
      constructor
      · rintro ⟨hnodup, hnew⟩
        exact ⟨⟨fun other hother => (hnew other hother).2, hnodup⟩,
          fun other hother => (hnew other hother).1⟩
      · rintro ⟨⟨hne, hnodup⟩, hnew⟩
        exact ⟨hnodup, fun other hother => ⟨hnew other hother, hne other hother⟩⟩

end Tables

/-! ## Files -/

section Files

variable {includeNodes : Bool} {list : List GoString} {rows : List DomainData}
  {entries : List Entry} {last : DomainData}

theorem yamlEntries_cons {node : DomainData}
    (h : yamlEntries includeNodes list (node :: rows) = some entries) :
    ∃ (written : List GoString) (list' : List GoString) (more : List Entry),
      yamlEntries includeNodes list' rows = some more ∧
        entries = written.map .branch ++ .node node :: more := by
  cases includeNodes with
  | false =>
    simp only [yamlEntries, Bool.false_eq_true, if_false, Option.bind_eq_bind, Option.bind_some,
      Option.bind_eq_some_iff, Option.some.injEq] at h
    obtain ⟨more, hmore, rfl⟩ := h
    exact ⟨_, _, more, hmore, rfl⟩
  | true =>
    simp only [yamlEntries, if_true, Option.bind_eq_bind, Option.bind_eq_some_iff,
      Option.some.injEq] at h
    obtain ⟨branchPaths, -, more, hmore, rfl⟩ := h
    exact ⟨_, _, more, hmore, rfl⟩

theorem yamlEntries_nodes (h : yamlEntries includeNodes list rows = some entries) :
    entries.filterMap Entry.node? = rows := by
  induction rows generalizing list entries with
  | nil =>
    obtain rfl : [] = entries := Option.some.inj h
    rfl
  | cons node rows ih =>
    obtain ⟨written, list', more, hmore, rfl⟩ := yamlEntries_cons h
    rw [List.filterMap_append, List.filterMap_map, List.filterMap_cons, ih hmore]
    simp [Function.comp_def, Entry.node?]

/-- A file ends with its last row. -/
theorem yamlEntries_last (h : yamlEntries includeNodes list (rows ++ [last]) = some entries) :
    ∃ front, entries = front ++ [.node last] := by
  induction rows generalizing list entries with
  | nil =>
    obtain ⟨written, list', more, hmore, rfl⟩ := yamlEntries_cons h
    obtain rfl : [] = more := Option.some.inj hmore
    exact ⟨written.map .branch, rfl⟩
  | cons node rows ih =>
    obtain ⟨written, list', more, hmore, rfl⟩ := yamlEntries_cons h
    obtain ⟨front, rfl⟩ := ih hmore
    exact ⟨written.map .branch ++ .node node :: front, by simp⟩

theorem yamlEntries_flat (list : List GoString) (rows : List DomainData) :
    yamlEntries false list rows = some (rows.map .node) := by
  induction rows generalizing list with
  | nil => rfl
  | cons node rows ih =>
    rw [yamlEntries]
    simp [writeBranches, ih]

end Files

/-! ## Round trips -/

/-- The file that is written for the rows, behind a domain line, inserts exactly these rows behind
those of the table. -/
def RoundTrip (db : Tables) (line name treeContent : GoString) (rows : List DomainData) : Prop :=
  ∃ entries db', createYamlFile rows treeContent = some entries ∧
    populateTable db (line ++ str "\n" ++ entries.flatMap Entry.text) = some db' ∧
    db'.get name = some (tableRows db name ++ rows)

/-- A branch on the way to a signal that is written into a complete tree. -/
structure WayKept (path : GoString) : Prop where
  dot : 46 ∈ path
  branches : ∀ b, Ancestor b path → BranchKept b

/-- Rows that come back. -/
structure RowsKept (table : List DomainData) (treeContent : GoString) (rows : List DomainData) :
    Prop where
  filled : rows = [] → [] ∈ table.map DomainData.path
  kept : ∀ node ∈ rows, NameKept node.path ∧ node.Kept
  types : ∀ node ∈ rows.dropLast, node.type ≠ str "branch"
  names : (rows.map DomainData.path).Nodup
  fresh : ∀ node ∈ rows, node.path ∉ table.map DomainData.path
  ways : treeContent = str "complete" → ∀ node ∈ rows, WayKept node.path

section Files

variable {rows : List DomainData} {entries : List Entry} {node : DomainData} {line : GoString}

theorem entries_text {entries : List Entry}
    (hsignal : ∀ node, .node node ∈ entries → node.Signal) :
    entries.flatMap Entry.text = linesText (entries.flatMap Entry.lines) := by
  induction entries with
  | nil => rfl
  | cons entry entries ih =>
    have hrest := ih fun node hmem => hsignal node (List.mem_cons_of_mem entry hmem)
    rw [List.flatMap_cons, List.flatMap_cons, linesText_append, hrest]
    cases entry with
    | node node => exact congrArg (· ++ _) (writeYamlNode_lines (hsignal node List.mem_cons_self))
    | branch path => exact congrArg (· ++ _) (writeBranch_lines path)

theorem mem_nodes : node ∈ entries.filterMap Entry.node? ↔ .node node ∈ entries := by
  rw [List.mem_filterMap]
  constructor
  · rintro ⟨entry, hentry, heq⟩
    cases entry with
    | branch path => cases heq
    | node data =>
      obtain rfl := Option.some.inj heq
      exact hentry
  · intro hmem
    exact ⟨.node node, hmem, rfl⟩

theorem subset_arrayText {values : List GoString} {value : GoString} (hmem : value ∈ values) :
    value ⊆ arrayText values := by
  have hitems : value ⊆ rawItems [32] (values.map .str) := by
    induction values with
    | nil => cases hmem
    | cons other values ih =>
      by_cases hvalues : values = []
      · obtain rfl : value = other := by simpa [hvalues] using hmem
        subst hvalues
        intro c hc
        exact List.mem_cons_of_mem 34 (List.mem_append_left [34] hc)
      · rw [List.map_cons, rawItems_cons _ (by simpa using hvalues)]
        intro c hc
        rcases List.mem_cons.mp hmem with rfl | hmem
        · exact List.mem_append_left _ (List.mem_cons_of_mem 34 (List.mem_append_left [34] hc))
        · exact List.mem_append_right _ (List.mem_cons_of_mem 44
            (List.mem_append_right [32] (ih hmem hc)))
  rw [arrayText_eq (List.ne_nil_of_mem hmem), rawText]
  exact fun c hc => List.mem_cons_of_mem 91 (List.mem_append_left [93] (hitems hc))

/-- The strings of a row that is kept are single lines. -/
theorem DomainData.Kept.oneLine (h : node.Kept) (hsignal : node.Signal) : node.OneLine := by
  have hlisted : ∀ {text : GoString}, Listed text → 10 ∉ text →
      ∀ value ∈ extractJsonData text, 10 ∉ value := by
    intro text hlisted htext value hvalue hmem
    have hsubset := subset_arrayText hvalue hmem
    rw [← hlisted.spelled] at hsubset
    exact htext hsubset
  refine ⟨fun hbracket => hlisted (h.listed hbracket) (hsignal.oneLine.2 .default), ?_⟩
  by_cases hvalues : node.enumValues = []
  · have hnil : extractJsonData [] = [] := by decide
    rw [hvalues, hnil]
    simp
  · exact hlisted (h.listedValues hvalues) (hsignal.oneLine.2 .allowed)

variable {db : Tables} {name treeContent : GoString}

/-- The rows that are read from a file are added to the table. -/
theorem populateTable_entries (hline : DomainLine line name) (db : Tables)
    (hsignal : ∀ node, .node node ∈ entries → node.Signal)
    (hbytes : ∀ l ∈ entries.flatMap Entry.lines, 10 ∉ l ∧ l.getLast? ≠ some 13) :
    ∃ db', populateTable db (line ++ str "\n" ++ entries.flatMap Entry.text) = some db' ∧
      db'.get name = some ((((entries.flatMap Entry.lines).takeWhile fits).foldl Draft.feed
        {}).result.foldl addRow (tableRows db name)) := by
  have htext : line ++ str "\n" ++ entries.flatMap Entry.text =
      linesText (line :: entries.flatMap Entry.lines) := by
    rw [entries_text hsignal, linesText_cons, List.append_assoc]
    rfl
  rw [htext]
  exact populateTable_lines hline db (fun l hl => (hbytes l hl).1) fun l hl => (hbytes l hl).2

theorem roundTrip_iff (hline : DomainLine line name)
    (hcreate : createYamlFile rows treeContent = some entries)
    (hsignal : ∀ node ∈ rows, node.Signal)
    (hbytes : ∀ l ∈ entries.flatMap Entry.lines, 10 ∉ l ∧ l.getLast? ≠ some 13) :
    RoundTrip db line name treeContent rows ↔
      (((entries.flatMap Entry.lines).takeWhile fits).foldl Draft.feed {}).result.foldl addRow
        (tableRows db name) = tableRows db name ++ rows := by
  have hnodes := yamlEntries_nodes hcreate
  obtain ⟨db', hpopulate, hget⟩ := populateTable_entries hline db
    (fun node hmem => hsignal node (hnodes ▸ mem_nodes.mpr hmem)) hbytes
  constructor
  · rintro ⟨entries', db'', hcreate', hpopulate', hget'⟩
    obtain rfl := Option.some.inj (hcreate.symm.trans hcreate')
    obtain rfl := Option.some.inj (hpopulate.symm.trans hpopulate')
    exact Option.some.inj (hget.symm.trans hget')
  · intro h
    exact ⟨entries, db', hcreate, hpopulate, hget.trans (congrArg some h)⟩

/-! ## Rows that come back -/

/-- What is written for rows that are kept. -/
theorem createYamlFile_kept {table : List DomainData} (h : RowsKept table treeContent rows) :
    ∃ entries, createYamlFile rows treeContent = some entries ∧
      ∀ b, .branch b ∈ entries → BranchKept b ∧ ∃ node ∈ rows, Ancestor b node.path := by
  by_cases hcomplete : treeContent = str "complete"
  · obtain ⟨entries, hcreate, htree⟩ :=
      (createYamlFile_complete_iff rows).mpr fun node hnode => (h.ways hcomplete node hnode).dot
    refine ⟨entries, hcomplete ▸ hcreate, fun b hb => ?_⟩
    obtain ⟨node, hnode, hb⟩ := htree.ancestors b (mem_branches.mpr hb)
    exact ⟨(h.ways hcomplete node hnode).branches b hb, node, hnode, hb⟩
  · refine ⟨rows.map .node, ?_, fun b hb => ?_⟩
    · rw [createYamlFile, decide_eq_false hcomplete]
      exact yamlEntries_flat [] rows
    · obtain ⟨node, -, heq⟩ := List.mem_map.mp hb
      cases heq

theorem Ancestor.head {b path : GoString} (h : Ancestor b path) (hpath : path.head? ≠ some 32) :
    b.head? ≠ some 32 := by
  obtain ⟨rest, rfl⟩ := h
  cases b with
  | nil => simp
  | cons c b => exact hpath

theorem between_empty : Draft.Between {} :=
  ⟨rfl, fun _ => rfl⟩

/-- All lines of rows that are kept are read. -/
theorem result_kept (hsignal : ∀ node ∈ rows, node.Signal)
    (hkept : ∀ node ∈ rows, NameKept node.path ∧ node.Kept)
    (htypes : ∀ node ∈ rows.dropLast, node.type ≠ str "branch") (hne : rows ≠ [])
    (hcreate : createYamlFile rows treeContent = some entries)
    (hbranches : ∀ b, .branch b ∈ entries → BranchKept b ∧ b.head? ≠ some 32) :
    ((entries.flatMap Entry.lines).foldl Draft.feed {}).result = rows := by
  obtain ⟨init, last, rfl⟩ := (List.eq_nil_or_concat' rows).resolve_left hne
  obtain ⟨front, rfl⟩ := yamlEntries_last hcreate
  have hnodes := yamlEntries_nodes hcreate
  rw [List.filterMap_append] at hnodes
  have hinit : front.filterMap Entry.node? = init := List.append_inj_left' hnodes rfl
  rw [List.dropLast_concat] at htypes
  have hrow : ∀ node, .node node ∈ front → node ∈ init := fun node hmem =>
    hinit ▸ mem_nodes.mpr hmem
  have hfront : ∀ node, .node node ∈ front →
      NameKept node.path ∧ node.Kept ∧ node.Signal ∧ node.type ≠ str "branch" := by
    intro node hmem
    have hnode := List.mem_append_left [last] (hrow node hmem)
    exact ⟨(hkept node hnode).1, (hkept node hnode).2, hsignal node hnode,
      htypes node (hrow node hmem)⟩
  obtain ⟨hbetween, hrows⟩ := between_empty.read_entries hfront fun b hb =>
    hbranches b (List.mem_append_left _ hb)
  have hlast : last ∈ init ++ [last] := List.mem_append_right init List.mem_cons_self
  have hsaved : Draft.pending {} = [] := if_pos (.inl rfl)
  rw [hinit, hsaved, List.append_nil, List.nil_append] at hrows
  rw [List.flatMap_append, List.foldl_append, List.flatMap_singleton, Entry.lines,
    hbetween.read_node (hkept last hlast).1 (hkept last hlast).2 (hsignal last hlast), hrows]
  rfl

/-- The lines of rows that are kept fit. -/
theorem fits_kept (hkept : ∀ node ∈ rows, NameKept node.path ∧ node.Kept)
    (hcreate : createYamlFile rows treeContent = some entries)
    (hbranches : ∀ b, .branch b ∈ entries → BranchKept b) {l : GoString}
    (hl : l ∈ entries.flatMap Entry.lines) : fits l = true := by
  obtain ⟨entry, hentry, hl⟩ := List.mem_flatMap.mp hl
  cases entry with
  | node node =>
    obtain ⟨hname, hnode⟩ := hkept node (yamlEntries_nodes hcreate ▸ mem_nodes.mpr hentry)
    rcases List.mem_cons.mp hl with rfl | hl
    · exact hname.fits
    · exact hnode.fits l hl
  | branch path =>
    have hbranch := hbranches path hentry
    simp only [Entry.lines, branchLines, List.mem_cons, List.not_mem_nil, or_false] at hl
    rcases hl with rfl | rfl | rfl | rfl
    · exact hbranch.fits
    · decide
    · exact hbranch.fitsDescription
    · decide

/-- The lines of rows and of branches on the ways to them are single lines. -/
theorem entries_bytes (hsignal : ∀ node ∈ rows, node.Signal) (hone : ∀ node ∈ rows, node.OneLine)
    (hcreate : createYamlFile rows treeContent = some entries)
    (hbranches : ∀ b, .branch b ∈ entries → b.getLast? ≠ some 13 ∧
      ∃ node ∈ rows, Ancestor b node.path) :
    ∀ l ∈ entries.flatMap Entry.lines, 10 ∉ l ∧ l.getLast? ≠ some 13 := by
  intro l hl
  obtain ⟨entry, hentry, hl⟩ := List.mem_flatMap.mp hl
  cases entry with
  | node node =>
    have hnode : node ∈ rows := yamlEntries_nodes hcreate ▸ mem_nodes.mpr hentry
    exact nodeLines_bytes (hsignal node hnode) (hone node hnode) hl
  | branch path =>
    obtain ⟨hend, node, hnode, hancestor⟩ := hbranches path hentry
    refine branchLines_bytes (fun hmem => (hsignal node hnode).oneLine.1 ?_) hend hl
    exact hancestor.subset (List.mem_append_left [46] hmem)

/-- Rows that are kept come back. -/
theorem RowsKept.roundTrip (h : RowsKept (tableRows db name) treeContent rows)
    (hline : DomainLine line name) (hsignal : ∀ node ∈ rows, node.Signal) :
    RoundTrip db line name treeContent rows := by
  obtain ⟨entries, hcreate, hbranches⟩ := createYamlFile_kept h
  have hbytes := entries_bytes hsignal
    (fun node hnode => (h.kept node hnode).2.oneLine (hsignal node hnode)) hcreate
    fun b hb => ⟨(hbranches b hb).1.ends, (hbranches b hb).2⟩
  rw [roundTrip_iff hline hcreate hsignal hbytes, List.takeWhile_eq_self_iff.mpr fun l hl =>
    fits_kept h.kept hcreate (fun b hb => (hbranches b hb).1) hl]
  by_cases hne : rows = []
  · subst hne
    have hentries : entries = [] := by
      have hempty : createYamlFile [] treeContent = some [] := rfl
      exact Option.some.inj (hcreate.symm.trans hempty)
    have hresult : Draft.result {} = [{}] := rfl
    rw [hentries, List.flatMap_nil, List.foldl_nil, hresult, List.append_nil, List.foldl_cons,
      List.foldl_nil, addRow, if_pos (h.filled rfl)]
  · rw [result_kept hsignal h.kept h.types hne hcreate fun b hb => ?_]
    · exact (foldl_addRow_iff _ _).mpr ⟨h.names, h.fresh⟩
    · obtain ⟨hbranch, node, hnode, hancestor⟩ := hbranches b hb
      exact ⟨hbranch, hancestor.head (head_of_trimSpace (hsignal node hnode).trimmed.1)⟩

end Files

/-! ## Rows that came back -/

namespace Draft

/-- A machine that has read no name. -/
structure Unnamed (x : Draft) : Prop where
  first : x.first = true
  rows : x.rows = []
  path : x.data.path = []

/-- At most so many rows are saved, behind the others, and no name is forgotten. -/
structure Saves (n : ℕ) (x y : Draft) : Prop where
  rows : ∃ more, y.rows = x.rows ++ more ∧ more.length ≤ n
  first : x.first = false → y.first = false

section Names

variable {n m : ℕ} {x y z : Draft} {line : GoString} {lines : List GoString} {node : DomainData}

theorem Saves.of_eq (hrows : y.rows = x.rows) (hfirst : y.first = x.first) : Saves n x y :=
  ⟨⟨[], by rw [hrows, List.append_nil], Nat.zero_le n⟩, fun h => hfirst.trans h⟩

theorem Saves.trans (h : Saves n x y) (h' : Saves m y z) : Saves (n + m) x z := by
  obtain ⟨saved, hsaved, hlength⟩ := h.rows
  obtain ⟨more, hmore, hlength'⟩ := h'.rows
  refine ⟨⟨saved ++ more, ?_, ?_⟩, fun hfirst => h'.first (h.first hfirst)⟩
  · rw [hmore, hsaved, List.append_assoc]
  · rw [List.length_append]
    omega

theorem Saves.length_le (h : Saves n x y) : y.rows.length ≤ x.rows.length + n := by
  obtain ⟨more, hmore, hlength⟩ := h.rows
  rw [hmore, List.length_append]
  omega

theorem readKey_saves (x : Draft) (line : GoString) :
    Saves (isName line).toNat x (x.readKey line) := by
  unfold readKey
  split
  · exact .of_eq rfl rfl
  · split
    · next hname =>
      refine ⟨⟨x.pending, name_rows x line, ?_⟩, fun _ => rfl⟩
      rw [hname, Bool.toNat_true, pending]
      split
      · exact Nat.zero_le 1
      · exact le_rfl
    · split
      · exact .of_eq rfl rfl
      · split
        · exact .of_eq rfl rfl
        · exact .of_eq rfl rfl
      · exact .of_eq rfl rfl
      · split
        · exact .of_eq rfl rfl
        · exact .of_eq rfl rfl

/-- A name saves one row at most, and no other line does. -/
theorem feed_saves (x : Draft) (line : GoString) :
    Saves (isName line).toNat x (x.feed line) := by
  unfold feed
  split
  · exact readKey_saves x line
  · split
    · exact .of_eq rfl rfl
    · split
      · exact .of_eq rfl rfl
      · split
        · exact .of_eq rfl rfl
        · have hread := readKey_saves x.settle line
          exact ⟨hread.rows, hread.first⟩

theorem foldl_saves (x : Draft) (lines : List GoString) :
    Saves (lines.countP isName) x (lines.foldl feed x) := by
  induction lines generalizing x with
  | nil => exact .of_eq rfl rfl
  | cons line lines ih =>
    have hcount : (line :: lines).countP isName =
        (isName line).toNat + lines.countP isName := by
      rw [List.countP_cons]
      cases isName line with
      | false => exact (Nat.zero_add _).symm
      | true => exact Nat.add_comm _ 1
    rw [hcount, List.foldl_cons]
    exact (feed_saves x line).trans (ih (x.feed line))

theorem Unnamed.readKey (h : x.Unnamed) (line : GoString) :
    (x.readKey line).Unnamed ∨ isName line = true ∧ (x.readKey line).rows = [] := by
  have hput : ∀ key value, (x.put key value).Unnamed := fun key value =>
    ⟨h.first, h.rows, by rw [Draft.put, DomainData.set_path, h.path]⟩
  have hopen : ∀ array, Unnamed { x with array } := fun _ => ⟨h.first, h.rows, h.path⟩
  unfold Draft.readKey
  split
  · exact .inl h
  · split
    · next hname =>
      refine .inr ⟨hname, ?_⟩
      rw [name_rows, h.rows, pending, if_pos (.inl h.first), List.append_nil]
    · left
      split
      · exact hopen _
      · split
        · exact hput _ _
        · exact hopen _
      · exact hput _ _
      · split
        · exact hput _ _
        · exact h

theorem Unnamed.settle (h : x.Unnamed) : x.settle.Unnamed := by
  refine ⟨h.first, h.rows, ?_⟩
  rw [Draft.settle, finish]
  cases x.array with
  | none => exact h.path
  | some array => exact (DomainData.set_path _ _ _).trans h.path

theorem Unnamed.feed (h : x.Unnamed) (line : GoString) :
    (x.feed line).Unnamed ∨ isName line = true ∧ (x.feed line).rows = [] := by
  unfold Draft.feed
  split
  · exact h.readKey line
  · split
    · exact .inl ⟨h.first, h.rows, h.path⟩
    · split
      · exact .inl h
      · split
        · exact .inl h.settle
        · exact h.settle.readKey line

/-- Behind its first name a machine saves one row less than there are names. -/
theorem Unnamed.foldl (h : x.Unnamed) (lines : List GoString) :
    (lines.foldl Draft.feed x).Unnamed ∨
      (lines.foldl Draft.feed x).rows.length + 1 ≤ lines.countP isName := by
  induction lines generalizing x with
  | nil => exact .inl h
  | cons line lines ih =>
    rw [List.foldl_cons]
    rcases h.feed line with hnext | ⟨hname, hrows⟩
    · rcases ih hnext with hlast | hlast
      · exact .inl hlast
      · refine .inr (hlast.trans ?_)
        exact (List.sublist_cons_self line lines).countP_le
    · right
      have hlength := (foldl_saves (x.feed line) lines).length_le
      rw [hrows, List.length_nil, Nat.zero_add] at hlength
      rw [List.countP_cons_of_pos hname]
      exact Nat.succ_le_succ hlength

/-- The line with the name of the next signal saves the row in front of it, or no row. -/
theorem feed_nameLine (hfirst : x.first = false) (hstart : node.path.head? ≠ some 32) :
    (x.feed (nameLine node.path)).rows = x.rows ∨
      contains (nameLine node.path) (str "Domain:") = false ∧ x.finish.type ≠ str "branch" ∧
        x.feed (nameLine node.path) = start (x.rows ++ [x.finish]) node := by
  have hread : ∀ y : Draft, y.first = false → (y.readKey (nameLine node.path)).rows = y.rows ∨
      contains (nameLine node.path) (str "Domain:") = false ∧ y.data.type ≠ str "branch" ∧
        y.readKey (nameLine node.path) = start (y.rows ++ [y.data]) node := by
    intro y hy
    by_cases hdomain : contains (nameLine node.path) (str "Domain:") = true
    · rw [readKey, if_pos hdomain]
      exact .inl rfl
    · have hpath : (nameLine node.path).dropLast = node.path := List.dropLast_concat
      rw [readKey, if_neg hdomain, if_pos (isName_nameLine hstart), name, hy, hpath]
      by_cases hbranch : y.data.type = str "branch"
      · exact .inl (if_pos (.inr hbranch))
      · refine .inr ⟨Bool.eq_false_iff.mpr hdomain, hbranch, ?_⟩
        rw [if_neg (by simpa using hbranch)]
        rfl
  cases harray : x.array with
  | none =>
    rw [feed_of_none harray]
    have hfinish : x.finish = x.data := by rw [finish, harray]
    rw [hfinish]
    exact hread x hfirst
  | some array =>
    obtain ⟨key, values⟩ := array
    rw [feed, harray]
    dsimp only
    split
    · exact .inl rfl
    · split
      · exact .inl rfl
      · split
        · exact .inl rfl
        · exact hread x.settle hfirst

theorem feed_firstName (hstart : node.path.head? ≠ some 32) :
    feed {} (nameLine node.path) = {} ∨
      contains (nameLine node.path) (str "Domain:") = false ∧
        feed {} (nameLine node.path) = start [] node := by
  rw [feed_of_none rfl]
  by_cases hdomain : contains (nameLine node.path) (str "Domain:") = true
  · rw [readKey, if_pos hdomain]
    exact .inl rfl
  · have hpath : (nameLine node.path).dropLast = node.path := List.dropLast_concat
    rw [readKey, if_neg hdomain, if_pos (isName_nameLine hstart), name, hpath]
    exact .inr ⟨Bool.eq_false_iff.mpr hdomain, rfl⟩

end Names

end Draft

section Necessity

variable {rows rest front : List DomainData} {node : DomainData}

theorem countP_isName_block (hsignal : node.Signal) : (blockLines node).countP isName = 0 :=
  List.countP_eq_zero.mpr fun line hline => by simp [(light_blockLines hsignal hline).name]

theorem countP_isName_rows (hsignal : ∀ node ∈ rows, node.Signal) :
    (rows.flatMap nodeLines).countP isName ≤ rows.length := by
  induction rows with
  | nil => exact le_rfl
  | cons node rows ih =>
    obtain ⟨hnode, hrows⟩ := List.forall_mem_cons.mp hsignal
    have hrest := ih hrows
    have hblock := countP_isName_block hnode
    rw [List.flatMap_cons, List.countP_append, nodeLines, List.countP_cons, List.length_cons, hblock]
    split <;> omega

/-- No more rows are read than there are names, and one. -/
theorem Draft.length_result (x : Draft) (lines : List GoString) :
    ((lines.takeWhile fits).foldl Draft.feed x).result.length ≤
      x.rows.length + lines.countP isName + 1 := by
  have hlength := (foldl_saves x (lines.takeWhile fits)).length_le
  have hprefix := (List.takeWhile_prefix (l := lines) fits).sublist.countP_le (p := isName)
  rw [Draft.result, List.length_append, List.length_singleton]
  omega

/-- The lines of a row in front of others are read as far as they fit. -/
theorem takeWhile_rows (node : DomainData) (rest : List DomainData) :
    (blockLines node ++ rest.flatMap nodeLines).takeWhile fits =
        (blockLines node).takeWhile fits ++ (rest.flatMap nodeLines).takeWhile fits ∨
      (blockLines node ++ rest.flatMap nodeLines).takeWhile fits =
        (blockLines node).takeWhile fits := by
  rw [List.takeWhile_append]
  split
  · next hall =>
    have heq := (List.takeWhile_prefix (l := blockLines node) fits).eq_of_length hall
    exact .inl (by rw [heq])
  · exact .inr rfl

/-- Behind its lines a row is the one that is read. -/
theorem block_rows (hsignal : node.Signal) (pre : List DomainData) :
    (((blockLines node).takeWhile fits).foldl Draft.feed (start pre node)).rows = pre ∧
      (((blockLines node).takeWhile fits).foldl Draft.feed (start pre node)).first = false := by
  have hsaves := Draft.foldl_saves (start pre node) ((blockLines node).takeWhile fits)
  obtain ⟨more, hmore, hlength⟩ := hsaves.rows
  have hprefix := (List.takeWhile_prefix (l := blockLines node) fits).sublist.countP_le
    (p := isName)
  rw [countP_isName_block hsignal] at hprefix
  obtain rfl : more = [] := List.length_eq_zero_iff.mp (by omega)
  exact ⟨hmore.trans (List.append_nil pre), hsaves.first rfl⟩

/-- Where all rows come back behind the lines of one, the name of the next is read. -/
theorem name_of_result {pre : List DomainData} {next : DomainData} {z : Draft}
    (hrest : ∀ n ∈ next :: rest, n.Signal) (hrows : z.rows = pre) (hfirst : z.first = false)
    (h : ((((next :: rest).flatMap nodeLines).takeWhile fits).foldl Draft.feed z).result =
      pre ++ node :: next :: rest) :
    NameKept next.path ∧ z.finish = node ∧ node.type ≠ str "branch" ∧
      (((blockLines next ++ rest.flatMap nodeLines).takeWhile fits).foldl Draft.feed
        (start (pre ++ [node]) next)).result = pre ++ [node] ++ next :: rest := by
  obtain ⟨hnext, hothers⟩ := List.forall_mem_cons.mp hrest
  have hcons : (next :: rest).flatMap nodeLines =
      nameLine next.path :: (blockLines next ++ rest.flatMap nodeLines) := rfl
  rw [hcons] at h
  by_cases hname : fits (nameLine next.path) = true
  · rw [List.takeWhile_cons_of_pos hname, List.foldl_cons] at h
    rcases Draft.feed_nameLine hfirst (head_of_trimSpace hnext.trimmed.1) with
      hsame | ⟨hdomain, htype, hstart⟩
    · have hlength := Draft.length_result (z.feed (nameLine next.path))
        (blockLines next ++ rest.flatMap nodeLines)
      have hnames := countP_isName_rows hothers
      rw [h, hsame, hrows, List.countP_append, countP_isName_block hnext] at hlength
      simp only [List.length_append, List.length_cons] at hlength
      omega
    · rw [hstart, hrows] at h
      obtain ⟨more, hmore, -⟩ := (Draft.foldl_saves (start (pre ++ [z.finish]) next)
        ((blockLines next ++ rest.flatMap nodeLines).takeWhile fits)).rows
      have hnode : z.finish = node := by
        have heq := h
        rw [Draft.result, hmore, start] at heq
        simp only [List.append_assoc, List.append_cancel_left_eq] at heq
        exact (List.cons.inj heq).1
      rw [hnode] at h htype
      exact ⟨⟨hdomain, hname⟩, hnode, htype, h.trans (List.append_cons pre node (next :: rest))⟩
  · -- One row alone is too few.
    have hlength := congrArg List.length h
    rw [List.takeWhile_cons_of_neg hname, List.foldl_nil, Draft.result, hrows] at hlength
    simp at hlength

/-- Where all rows come back behind a name, they are kept. -/
theorem kept_behind_name {pre : List DomainData} (hsignal : ∀ n ∈ node :: rest, n.Signal)
    (h : (((blockLines node ++ rest.flatMap nodeLines).takeWhile fits).foldl Draft.feed
      (start pre node)).result = pre ++ node :: rest) :
    node.Kept ∧ (∀ n ∈ rest, NameKept n.path ∧ n.Kept) ∧
      ∀ n ∈ (node :: rest).dropLast, n.type ≠ str "branch" := by
  induction rest generalizing pre node with
  | nil =>
    have hnode := hsignal node List.mem_cons_self
    rw [List.flatMap_nil, List.append_nil, Draft.result, (block_rows hnode pre).1,
      List.append_cancel_left_eq] at h
    exact ⟨(finish_iff_kept hnode pre).mp (List.cons.inj h).1, List.forall_mem_nil _,
      List.forall_mem_nil _⟩
  | cons next rest ih =>
    obtain ⟨hnode, hrest⟩ := List.forall_mem_cons.mp hsignal
    obtain ⟨hrows, hfirst⟩ := block_rows hnode pre
    rcases takeWhile_rows node (next :: rest) with hlines | hlines
    · rw [hlines, List.foldl_append] at h
      obtain ⟨hname, hfinish, htype, hresult⟩ := name_of_result hrest hrows hfirst h
      obtain ⟨hkeptNext, hkeptRest, htypes⟩ := ih hrest hresult
      refine ⟨(finish_iff_kept hnode pre).mp hfinish,
        List.forall_mem_cons.mpr ⟨⟨hname, hkeptNext⟩, hkeptRest⟩, ?_⟩
      rw [List.dropLast_cons_cons]
      exact List.forall_mem_cons.mpr ⟨htype, htypes⟩
    · have hlength := congrArg List.length h
      rw [hlines, Draft.result, hrows] at hlength
      simp at hlength

/-- Where all rows of a file come back, they are kept. -/
theorem kept_of_result (hsignal : ∀ n ∈ node :: rest, n.Signal)
    (h : ((((node :: rest).flatMap nodeLines).takeWhile fits).foldl Draft.feed {}).result =
      node :: rest) :
    (∀ n ∈ node :: rest, NameKept n.path ∧ n.Kept) ∧
      ∀ n ∈ (node :: rest).dropLast, n.type ≠ str "branch" := by
  obtain ⟨hnode, hothers⟩ := List.forall_mem_cons.mp hsignal
  have hcons : (node :: rest).flatMap nodeLines =
      nameLine node.path :: (blockLines node ++ rest.flatMap nodeLines) := rfl
  have hunnamed : ∀ x : Draft, x.Unnamed → x.result ≠ node :: rest := by
    intro x hx heq
    rw [Draft.result, hx.rows, List.nil_append] at heq
    have hpath : x.finish.path = [] := hx.settle.path
    rw [(List.cons.inj heq).1] at hpath
    exact hnode.named hpath
  rw [hcons] at h
  by_cases hname : fits (nameLine node.path) = true
  · rw [List.takeWhile_cons_of_pos hname, List.foldl_cons] at h
    rcases Draft.feed_firstName (head_of_trimSpace hnode.trimmed.1) with hsame | ⟨hdomain, hstart⟩
    · rw [hsame] at h
      have hempty : Draft.Unnamed {} := ⟨rfl, rfl, rfl⟩
      rcases hempty.foldl ((blockLines node ++ rest.flatMap nodeLines).takeWhile fits) with
        hlast | hlast
      · exact absurd h (hunnamed _ hlast)
      · have hlength := congrArg List.length h
        have hprefix := (List.takeWhile_prefix (l := blockLines node ++ rest.flatMap nodeLines)
          fits).sublist.countP_le (p := isName)
        have hnames := countP_isName_rows hothers
        rw [List.countP_append, countP_isName_block hnode] at hprefix
        rw [Draft.result, List.length_append, List.length_singleton, List.length_cons] at hlength
        omega
    · rw [hstart] at h
      obtain ⟨hkept, hrest, htypes⟩ := kept_behind_name hsignal h
      exact ⟨List.forall_mem_cons.mpr ⟨⟨⟨hdomain, hname⟩, hkept⟩, hrest⟩, htypes⟩
  · rw [List.takeWhile_cons_of_neg hname, List.foldl_nil] at h
    exact absurd h (hunnamed {} ⟨rfl, rfl, rfl⟩)

/-- A file has no more rows than were written. -/
theorem length_result_le (hsignal : ∀ n ∈ rows, n.Signal) (hne : rows ≠ []) :
    (((rows.flatMap nodeLines).takeWhile fits).foldl Draft.feed {}).result.length ≤
      rows.length := by
  have hempty : Draft.Unnamed {} := ⟨rfl, rfl, rfl⟩
  have hpos := List.length_pos_of_ne_nil hne
  have hprefix := (List.takeWhile_prefix (l := rows.flatMap nodeLines) fits).sublist.countP_le
    (p := isName)
  have hnames := countP_isName_rows hsignal
  rw [Draft.result, List.length_append, List.length_singleton]
  rcases hempty.foldl ((rows.flatMap nodeLines).takeWhile fits) with hlast | hlast
  · rw [hlast.rows]
    exact hpos
  · omega

/-- Rows of a flat file that come back are kept. -/
theorem rowsKept_of_roundTrip {db : Tables} {line name treeContent : GoString}
    (hline : DomainLine line name) (hsignal : ∀ n ∈ rows, n.Signal)
    (hflat : treeContent ≠ str "complete") (hone : ∀ n ∈ rows, n.OneLine)
    (h : RoundTrip db line name treeContent rows) :
    RowsKept (tableRows db name) treeContent rows := by
  have hcreate : createYamlFile rows treeContent = some (rows.map .node) := by
    rw [createYamlFile, decide_eq_false hflat]
    exact yamlEntries_flat [] rows
  have hbytes := entries_bytes hsignal hone hcreate fun b hb => by
    obtain ⟨n, -, heq⟩ := List.mem_map.mp hb
    cases heq
  have hlines : (rows.map Entry.node).flatMap Entry.lines = rows.flatMap nodeLines := by
    rw [List.flatMap_map]
    rfl
  rw [roundTrip_iff hline hcreate hsignal hbytes, hlines] at h
  cases rows with
  | nil =>
    have hresult : Draft.result {} = [{}] := rfl
    rw [List.flatMap_nil, List.takeWhile_nil, List.foldl_nil, hresult, List.foldl_cons,
      List.foldl_nil, List.append_nil] at h
    refine ⟨fun _ => ?_, List.forall_mem_nil _, List.forall_mem_nil _, List.nodup_nil,
      List.forall_mem_nil _, fun _ => List.forall_mem_nil _⟩
    by_contra hnew
    rw [addRow, if_neg hnew] at h
    have hlength := congrArg List.length h
    rw [List.length_append, List.length_singleton] at hlength
    omega
  | cons node rest =>
    obtain ⟨added, hadded, hsublist⟩ := foldl_addRow_append (tableRows db name)
      ((((node :: rest).flatMap nodeLines).takeWhile fits).foldl Draft.feed {}).result
    rw [h, List.append_cancel_left_eq] at hadded
    have hle := length_result_le hsignal (List.cons_ne_nil node rest)
    subst hadded
    have hresult := hsublist.eq_of_length_le hle
    rw [← hresult] at h
    obtain ⟨hnames, hfresh⟩ := (foldl_addRow_iff _ _).mp h
    obtain ⟨hkept, htypes⟩ := kept_of_result hsignal hresult.symm
    exact ⟨fun hnil => absurd hnil (List.cons_ne_nil node rest), hkept, htypes, hnames, hfresh,
      fun hcomplete => absurd hcomplete hflat⟩

/-- Rows that are kept come back, and from a flat file of rows whose arrays hold single lines no
other rows do. -/
theorem createYamlFile_roundTrip {db : Tables} {line name treeContent : GoString}
    (hline : DomainLine line name) (hsignal : ∀ node ∈ rows, node.Signal) :
    (RowsKept (tableRows db name) treeContent rows → RoundTrip db line name treeContent rows) ∧
      (treeContent ≠ str "complete" → (∀ node ∈ rows, node.OneLine) →
        RoundTrip db line name treeContent rows →
          RowsKept (tableRows db name) treeContent rows) :=
  ⟨fun h => h.roundTrip hline hsignal, fun hflat hone h =>
    rowsKept_of_roundTrip hline hsignal hflat hone h⟩

end Necessity

/-- A signal with an enumeration. -/
def gearRow : DomainData where
  path := str "Vehicle.Gear"
  type := str "sensor"
  datatype := str "string"
  enumValues := str "[\"park\", \"drive\"]"
  description := str "Selected gear."

theorem gearRow_kept : NameKept gearRow.path ∧ gearRow.Kept := by
  have hlegible : gearRow.Legible := by
    refine ⟨?_, fun _ => ?_, ?_, fun _ => ?_, ?_, fun _ => ?_⟩
    · unfold Plain
      decide
    · unfold Plain
      decide
    · decide
    · decide
    · intro h
      exact absurd h (by decide)
    · unfold LikeItem
      decide
  refine ⟨⟨by decide, by decide⟩, ⟨hlegible, fun h => ?_, fun _ => ⟨?_, ?_⟩, ?_⟩⟩
  · exact absurd h (by decide)
  · decide
  · decide
  · decide

theorem gearRow_signal : gearRow.Signal := by
  refine ⟨?_, ?_, ?_, ?_, ?_, ?_⟩
  all_goals decide

theorem domainLine_vehicle : DomainLine (str "Domain: Vehicle") (str "Vehicle") := by
  refine ⟨?_, ?_, ?_, ?_, ?_, ?_⟩
  all_goals decide

theorem createYamlFile_roundTrip_gear :
    RoundTrip [] (str "Domain: Vehicle") (str "Vehicle") (str "leaf") [gearRow] := by
  refine (createYamlFile_roundTrip domainLine_vehicle
    (List.forall_mem_singleton.mpr gearRow_signal)).1 ?_
  refine ⟨fun hnil => absurd hnil (List.cons_ne_nil gearRow []),
    List.forall_mem_singleton.mpr gearRow_kept, List.forall_mem_nil _, List.nodup_singleton _,
    List.forall_mem_singleton.mpr ?_, fun h => ?_⟩
  · decide
  · exact absurd h (by decide)

/-- A description in which a key is found. -/
def speedRow : DomainData where
  path := str "Vehicle.Speed"
  type := str "sensor"
  description := str "Vehicle speed, unit: km/h."

/-- The description is read as the unit. -/
theorem createYamlFile_description :
    ¬ ∀ (db : Tables) (line name treeContent : GoString) (rows : List DomainData),
      DomainLine line name → (∀ node ∈ rows, node.Signal) →
        RoundTrip db line name treeContent rows := by
  intro h
  have hsignal : speedRow.Signal := by
    refine ⟨?_, ?_, ?_, ?_, ?_, ?_⟩
    all_goals decide
  obtain ⟨entries, db', hcreate, hpopulate, hget⟩ := h [] (str "Domain: Vehicle") (str "Vehicle")
    (str "leaf") [speedRow] domainLine_vehicle (List.forall_mem_singleton.mpr hsignal)
  obtain rfl : [.node speedRow] = entries := Option.some.inj hcreate
  have hread : populateTable [] (str "Domain: Vehicle" ++ str "\n" ++
      ([Entry.node speedRow].flatMap Entry.text)) =
      some [(str "Vehicle", [{ speedRow with unit := speedRow.description, description := [] }])] := by
    decide
  obtain rfl := Option.some.inj (hread.symm.trans hpopulate)
  have hother : (GoMap.get [(str "Vehicle",
      [{ speedRow with unit := speedRow.description, description := [] }])] (str "Vehicle")) ≠
      some (tableRows [] (str "Vehicle") ++ [speedRow]) := by
    decide
  exact hother hget

end VissServer.Datamodel

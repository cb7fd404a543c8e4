import VissServer.Datamodel.TreeReading

/-!
The import of a datamodel file as a machine that takes one line at a time. It holds the rows that
were handed over to the table, the row it is reading, and the array that is open.
-/
namespace VissServer.Datamodel

open Go

/-- The text of an array that was read, empty where it has no element. -/
def arrayText (values : List GoString) : GoString :=
  if values = [] then [] else rawText [32] (.arr (values.map .str))

/-- Nothing is found in an empty line. -/
theorem emptyLine : contains [] (str "Domain:") = false ∧ isName [] = false ∧ keyOf [] = none ∧
    readValue [] = [] := by
  decide

structure Draft where
  rows : List DomainData := []
  data : DomainData := {}
  first : Bool := true
  array : Option (Key × List GoString) := none

namespace Draft

/-- The row that is being read, with its open array. -/
def finish (x : Draft) : DomainData :=
  match x.array with
  | none => x.data
  | some (key, values) => x.data.set key (arrayText values)

/-- The array is closed. -/
def settle (x : Draft) : Draft := { x with data := x.finish, array := none }

/-- The rows of the whole import. -/
def result (x : Draft) : List DomainData := x.rows ++ [x.finish]

/-- A line with the name of a signal. -/
def name (x : Draft) (text : GoString) : Draft where
  rows := if x.first ∨ x.data.type = str "branch" then x.rows else x.rows ++ [x.data]
  data := { (if x.first then x.data else {}) with path := text.dropLast }
  first := false
  array := none

def put (x : Draft) (key : Key) (value : GoString) : Draft :=
  { x with data := x.data.set key value }

/-- Whether an array begins behind a line with this key. -/
def Opens (key : Key) (text : GoString) : Prop :=
  key = .allowed ∨ key = .default ∧ text.getLast? = some 58

/-- A line outside of arrays. -/
def readKey (x : Draft) (text : GoString) : Draft :=
  if contains text (str "Domain:") then x
  else if isName text then x.name text
  else
    match keyOf text with
    | some .allowed => { x with array := some (.allowed, []) }
    | some .default =>
        if text.getLast? ≠ some 58 then x.put .default (readValue text)
        else { x with array := some (.default, []) }
    | some key => x.put key (readValue text)
    | none =>
        if x.data.comment ≠ [] then x.put .comment (x.data.comment ++ readValue text) else x

def feed (x : Draft) (text : GoString) : Draft :=
  match x.array with
  | none => x.readKey text
  | some (key, values) =>
      if contains text (str " - ") then
        { x with array := some (key, values ++ [readArrayValue text]) }
      else if isEmptyLine text then x
      else if values = [] then x.settle
      else x.settle.readKey text

section Machine

variable {x : Draft} {key : Key} {values : List GoString} {text : GoString}

theorem readKey_nil (x : Draft) : x.readKey [] = x := by
  obtain ⟨hdomain, hname, hkey, hvalue⟩ := emptyLine
  rw [readKey, if_neg (by simp [hdomain]), if_neg (by simp [hname]), hkey]
  dsimp only
  split
  · rw [hvalue, List.append_nil, put]
    exact congrArg (fun data => { x with data }) (DomainData.set_get x.data .comment)
  · rfl

theorem feed_of_none (h : x.array = none) : x.feed text = x.readKey text := by
  rw [feed, h]

theorem readKey_open (hdomain : contains text (str "Domain:") = false)
    (hname : isName text = false) (hkey : keyOf text = some key) (hopens : Opens key text) :
    x.readKey text = { x with array := some (key, []) } := by
  rw [readKey, if_neg (by simp [hdomain]), if_neg (by simp [hname]), hkey]
  rcases hopens with rfl | ⟨rfl, hlast⟩
  · rfl
  · exact if_neg (not_not.mpr hlast)

theorem readKey_put (hdomain : contains text (str "Domain:") = false)
    (hname : isName text = false) (hkey : keyOf text = some key) (hopens : ¬ Opens key text) :
    x.readKey text = x.put key (readValue text) := by
  rw [readKey, if_neg (by simp [hdomain]), if_neg (by simp [hname]), hkey]
  cases key with
  | allowed => exact absurd (.inl rfl) hopens
  | default => exact if_pos fun hlast => hopens (.inr ⟨rfl, hlast⟩)
  | unit | datatype | type | min | max | description | comment | uuid => rfl

theorem settle_of_none (h : x.array = none) : x.settle = x := by
  rw [settle, finish, h]
  exact congrArg (fun array => { x with array }) h.symm

@[simp] theorem settle_array (x : Draft) : x.settle.array = none := rfl

theorem settle_rows (x : Draft) : x.settle.rows = x.rows := rfl

end Machine

end Draft

/-! ## Arrays -/

/-- An array that is still open. -/
def openText (values : List GoString) : GoString :=
  str "[" ++ values.flatMap fun value => 34 :: (value ++ str "\", ")

theorem openText_concat (values : List GoString) (value : GoString) :
    openText values ++ (34 :: (value ++ str "\", ")) = openText (values ++ [value]) := by
  rw [openText, openText, List.flatMap_append, List.flatMap_singleton, List.append_assoc]

theorem openText_eq {values : List GoString} (hne : values ≠ []) :
    openText values = 91 :: rawItems [32] (values.map .str) ++ [44, 32] := by
  have hmap : values.map Json.str ≠ [] := by simpa using hne
  have hitems := rawItems_trailing [32] hmap
  rw [List.flatMap_map] at hitems
  have hvalue : ∀ value : GoString,
      rawText [32] (.str value) ++ [44, 32] = 34 :: (value ++ str "\", ") := by
    intro value
    have hends : str "\", " = [34] ++ [44, 32] := by decide
    rw [rawText, hends, List.cons_append, List.append_assoc]
  simp only [hvalue] at hitems
  rw [openText, hitems]
  rfl

theorem close_openText {values : List GoString} (hne : values ≠ []) :
    (openText values).length > 1 ∧
      (openText values).take ((openText values).length - 2) ++ str "]" = arrayText values := by
  have hlength : ((44 : UInt8) :: [32]).length = 2 := rfl
  rw [openText_eq hne]
  refine ⟨by rw [List.length_append, List.length_cons]; omega, ?_⟩
  rw [List.length_append, hlength, Nat.add_sub_cancel, List.take_left, arrayText, if_neg hne, rawText]
  rfl

namespace Draft

/-- The loop of readArray leaves what the machine leaves, with the line behind the array read on
its own. -/
theorem readArrayFrom_reads (x : Draft) (key : Key) (values scanner : List GoString) :
    ∃ more line rest,
      readArrayFrom (openText values) scanner = (openText (values ++ more), line, rest) ∧
        rest.length ≤ scanner.length - 1 ∧ (scanner = [] → line = []) ∧
        (scanner.foldl feed { x with array := some (key, values) }).settle =
          (rest.foldl feed
            ({ x with array := some (key, values ++ more) }.settle.readKey
              (if values ++ more = [] then [] else line))).settle := by
  induction scanner generalizing values with
  | nil =>
    refine ⟨[], [], [], by rw [List.append_nil]; rfl, le_rfl, fun _ => rfl, ?_⟩
    rw [ite_self, readKey_nil, List.append_nil]
    rfl
  | cons text scanner ih =>
    rw [readArrayFrom, List.foldl_cons, feed]
    dsimp only
    split
    · rw [openText_concat]
      obtain ⟨more, line, rest, hread, hlength, -, hfold⟩ := ih (values ++ [readArrayValue text])
      rw [List.append_assoc] at hread hfold
      refine ⟨readArrayValue text :: more, line, rest, hread, ?_, by simp, hfold⟩
      rw [List.length_cons]
      omega
    · split
      · obtain ⟨more, line, rest, hread, hlength, -, hfold⟩ := ih values
        refine ⟨more, line, rest, hread, ?_, by simp, hfold⟩
        rw [List.length_cons]
        omega
      · refine ⟨[], text, scanner, by rw [List.append_nil], by simp, by simp, ?_⟩
        rw [List.append_nil]
        split
        · rw [readKey_nil]
        · rfl

theorem readArray_reads (x : Draft) (key : Key) (scanner : List GoString) :
    ∃ array line rest, readArray scanner = (array, line, rest) ∧
      rest.length ≤ scanner.length - 1 ∧ (scanner = [] → line = []) ∧
      (scanner.foldl feed { x with array := some (key, []) }).settle =
        (rest.foldl feed
          ({ x with data := x.data.set key array, array := none }.readKey line)).settle := by
  obtain ⟨values, line, rest, hread, hlength, hline, hfold⟩ := readArrayFrom_reads x key [] scanner
  rw [List.nil_append] at hread hfold
  have hopen : readArrayFrom (str "[") scanner = (openText values, line, rest) := hread
  by_cases hne : values = []
  · subst hne
    rw [if_pos rfl] at hfold
    refine ⟨[], [], rest, ?_, hlength, fun _ => rfl, hfold⟩
    rw [readArray, hopen]
    exact if_neg (by decide)
  · obtain ⟨hlong, hclose⟩ := close_openText hne
    rw [if_neg hne] at hfold
    refine ⟨arrayText values, line, rest, ?_, hlength, hline, hfold⟩
    rw [readArray, hopen]
    dsimp only
    rw [if_pos hlong, hclose]

end Draft

/-! ## The import -/

namespace Reading

/-- A reading of a file whose domain is known has come as far as the machine. -/
structure Reads (tableName : GoString) (table : List DomainData) (r : Reading) (x : Draft) : Prop where
  named : tableName ≠ []
  domain : r.domainName = tableName
  data : r.domainData = x.data
  first : r.firstIteration = x.first
  rows : r.db.get tableName = some (x.rows.foldl addRow table)
  closed : x.array = none

/-- The scanner of a reading is where the scanner of another one is. -/
structure SameScan (r r' : Reading) : Prop where
  scanner : r'.scanner = r.scanner
  deferScan : r'.deferScan = r.deferScan
  continueScan : r'.continueScan = r.continueScan

section Refinement

variable {tableName : GoString} {table : List DomainData} {r r' : Reading} {x : Draft}

theorem Reads.put (h : Reads tableName table r x) (key : Key) (value : GoString) :
    Reads tableName table { r with domainData := r.domainData.set key value } (x.put key value) where
  named := h.named
  domain := h.domain
  data := by rw [h.data]; rfl
  first := h.first
  rows := h.rows
  closed := h.closed

theorem get_insertTableRow {db : Tables} {rows : List DomainData} (h : db.get tableName = some rows)
    (data : DomainData) : (insertTableRow db data tableName).get tableName = some (addRow rows data) := by
  rw [insertTableRow, h]
  dsimp only
  rw [GoMap.get_set, if_pos rfl]

theorem Reads.saveSignal (h : Reads tableName table r x) :
    r.saveSignal.domainName = tableName ∧
      r.saveSignal.db.get tableName =
        some ((if x.data.type = str "branch" then x.rows else x.rows ++ [x.data]).foldl
          addRow table) := by
  have hdomain : r.domainName ≠ [] := by
    rw [h.domain]
    exact h.named
  have hsave : r.saveSignal =
      { r with
        db := if r.domainData.type ≠ str "branch" then
          insertTableRow r.db r.domainData r.domainName else r.db
        domainData := {} } := by
    rw [Reading.saveSignal, if_neg hdomain]
  rw [hsave]
  refine ⟨h.domain, ?_⟩
  dsimp only
  rw [h.data, h.domain]
  by_cases hbranch : x.data.type = str "branch"
  · rw [if_neg (not_not.mpr hbranch), if_pos hbranch]
    exact h.rows
  · rw [if_pos hbranch, if_neg hbranch, get_insertTableRow h.rows, List.foldl_append]
    rfl

theorem Reads.name (h : Reads tableName table r x) (text : GoString) :
    Reads tableName table
      (let r := if r.firstIteration then r else r.saveSignal
       { r with
         domainData := { r.domainData with path := text.dropLast }
         firstIteration := false }) (x.name text) := by
  obtain ⟨hdomain, hrows⟩ := h.saveSignal
  rw [h.first]
  cases hfirst : x.first with
  | true =>
    refine ⟨h.named, h.domain, ?_, rfl, ?_, rfl⟩
    · simp [Draft.name, hfirst, h.data]
    · simpa [Draft.name, hfirst] using h.rows
  | false =>
    refine ⟨h.named, hdomain, ?_, rfl, ?_, rfl⟩
    · simp [Draft.name, hfirst, Reading.saveSignal]
    · simpa [Draft.name, hfirst] using hrows

theorem saveSignal_scan (r : Reading) : SameScan r r.saveSignal := by
  unfold saveSignal
  split
  · exact ⟨rfl, rfl, rfl⟩
  · exact ⟨rfl, rfl, rfl⟩

theorem readLine_open (r : Reading) {text : GoString} {key : Key}
    (hdomain : contains text (str "Domain:") = false) (hname : isName text = false)
    (hkey : keyOf text = some key) (hopens : Draft.Opens key text) :
    r.readLine text = r.readArrayOf key := by
  rw [readLine, if_neg (by simp [hdomain]), if_neg (by simp [hname]), hkey]
  rcases hopens with rfl | ⟨rfl, hlast⟩
  · rfl
  · exact if_neg (not_not.mpr hlast)

theorem readLine_put (r : Reading) {text : GoString} {key : Key}
    (hdomain : contains text (str "Domain:") = false) (hname : isName text = false)
    (hkey : keyOf text = some key) (hopens : ¬ Draft.Opens key text) :
    r.readLine text = { r with domainData := r.domainData.set key (readValue text) } := by
  rw [readLine, if_neg (by simp [hdomain]), if_neg (by simp [hname]), hkey]
  cases key with
  | allowed => exact absurd (.inl rfl) hopens
  | default => exact if_pos fun hlast => hopens (.inr ⟨rfl, hlast⟩)
  | unit | datatype | type | min | max | description | comment | uuid => rfl

/-- A line that opens no array. -/
structure Reads.Line (tableName : GoString) (table : List DomainData) (r : Reading) (x : Draft)
    (text : GoString) : Prop where
  reads : Reads tableName table (r.readLine text) (x.readKey text)
  scan : SameScan r (r.readLine text)

/-- A line is read by both, or it opens an array for both. -/
theorem Reads.readLine (h : Reads tableName table r x) (text : GoString) :
    Reads.Line tableName table r x text ∨
      ∃ key, x.readKey text = { x with array := some (key, []) } ∧
        r.readLine text = r.readArrayOf key := by
  have hsame : SameScan r r := ⟨rfl, rfl, rfl⟩
  have hdomain : r.domainName ≠ [] := by
    rw [h.domain]
    exact h.named
  by_cases hcontains : contains text (str "Domain:") = true
  · have hline : r.readLine text = r := by rw [Reading.readLine, if_pos hcontains, if_neg hdomain]
    have hkey : x.readKey text = x := by rw [Draft.readKey, if_pos hcontains]
    left
    exact ⟨by rwa [hline, hkey], by rwa [hline]⟩
  by_cases hname : isName text = true
  · have hkey : x.readKey text = x.name text := by
      rw [Draft.readKey, if_neg hcontains, if_pos hname]
    have hline := h.name text
    left
    rw [← hkey] at hline
    refine ⟨by rwa [Reading.readLine, if_neg hcontains, if_pos hname], ?_⟩
    rw [Reading.readLine, if_neg hcontains, if_pos hname]
    cases r.firstIteration with
    | true => exact ⟨rfl, rfl, rfl⟩
    | false => exact ⟨r.saveSignal_scan.scanner, r.saveSignal_scan.deferScan,
        r.saveSignal_scan.continueScan⟩
  have hother : ∀ key value, x.readKey text = x.put key value →
      r.readLine text = { r with domainData := r.domainData.set key value } →
        Reads.Line tableName table r x text := by
    intro key value hkey hline
    refine ⟨?_, by rw [hline]; exact ⟨rfl, rfl, rfl⟩⟩
    rw [hkey, hline]
    exact h.put key value
  have hdomain' : contains text (str "Domain:") = false := Bool.eq_false_iff.mpr hcontains
  have hname' : isName text = false := Bool.eq_false_iff.mpr hname
  cases hkey : keyOf text with
  | none =>
    left
    by_cases hcomment : x.data.comment = []
    · have hline : r.readLine text = r := by
        rw [Reading.readLine, if_neg hcontains, if_neg hname, hkey]
        exact if_neg (by rw [h.data]; exact not_not.mpr hcomment)
      have hread : x.readKey text = x := by
        rw [Draft.readKey, if_neg hcontains, if_neg hname, hkey]
        exact if_neg (not_not.mpr hcomment)
      exact ⟨by rwa [hline, hread], by rwa [hline]⟩
    · refine hother .comment (x.data.comment ++ readValue text) ?_ ?_
      · rw [Draft.readKey, if_neg hcontains, if_neg hname, hkey]
        exact if_pos hcomment
      · rw [Reading.readLine, if_neg hcontains, if_neg hname, hkey, h.data]
        exact if_pos hcomment
  | some key =>
    by_cases hopens : Draft.Opens key text
    · right
      exact ⟨key, Draft.readKey_open hdomain' hname' hkey hopens,
        r.readLine_open hdomain' hname' hkey hopens⟩
    · left
      exact hother key (readValue text) (Draft.readKey_put hdomain' hname' hkey hopens)
        (r.readLine_put hdomain' hname' hkey hopens)

theorem readLine_nil (r : Reading) : r.readLine [] = r := by
  obtain ⟨hdomain, hname, hkey, hvalue⟩ := emptyLine
  rw [readLine, if_neg (by simp [hdomain]), if_neg (by simp [hname]), hkey]
  dsimp only
  split
  · rw [hvalue, List.append_nil]
    exact congrArg (fun domainData => { r with domainData })
      (DomainData.set_get r.domainData .comment)
  · rfl

/-- A reading whose scanner has another line. -/
structure Scans (tableName : GoString) (table : List DomainData) (r : Reading) (x : Draft) :
    Prop where
  reads : Reads tableName table r x
  deferScan : r.deferScan = false
  continueScan : r.continueScan = true

theorem Scans.loop_end (h : Scans tableName table r x) (hscanner : r.scanner = []) {steps : ℕ}
    (hsteps : steps ≠ 0) : ∃ r', loop steps r = some r' ∧ Reads tableName table r' x := by
  obtain ⟨steps, rfl⟩ := Nat.exists_eq_succ_of_ne_zero hsteps
  obtain ⟨hreads, hdefer, hcontinue⟩ := h
  have hiteration : r.iteration = { r with continueScan := false } := by
    rw [iteration, if_neg (by simp [hdefer]), hscanner]
    exact readLine_nil _
  refine ⟨r.iteration, ?_, ?_⟩
  · rw [loop, if_pos hcontinue, hiteration]
    cases steps <;> rfl
  · rw [hiteration]
    exact ⟨hreads.named, hreads.domain, hreads.data, hreads.first, hreads.rows, hreads.closed⟩

theorem Scans.iteration_cons (h : Scans tableName table r x) {text : GoString}
    {scanner : List GoString} (hscanner : r.scanner = text :: scanner) :
    r.iteration = { r with scanner }.readLine text ∧
      Scans tableName table { r with scanner } x := by
  obtain ⟨hreads, hdefer, hcontinue⟩ := h
  refine ⟨?_, ⟨hreads.named, hreads.domain, hreads.data, hreads.first, hreads.rows,
    hreads.closed⟩, hdefer, hcontinue⟩
  rw [iteration, if_neg (by simp [hdefer]), hscanner]

/-- Behind a line the loop does with the other lines what the machine does with them. -/
theorem Scans.loop_line {steps : ℕ} (h : Scans tableName table r x) (text : GoString)
    (hsteps : 2 * r.scanner.length + 2 ≤ steps) :
    ∃ r', loop steps (r.readLine text) = some r' ∧
      Reads tableName table r' (r.scanner.foldl Draft.feed (x.readKey text)).settle := by
  induction hn : r.scanner.length using Nat.strong_induction_on generalizing r x text steps with
  | _ n ih =>
  subst hn
  rcases h.reads.readLine text with hline | ⟨key, hread, hline⟩
  · have hscans : Scans tableName table (r.readLine text) (x.readKey text) :=
      ⟨hline.reads, by rw [hline.scan.deferScan, h.deferScan],
        by rw [hline.scan.continueScan, h.continueScan]⟩
    cases hscanner : r.scanner with
    | nil =>
      rw [List.foldl_nil, Draft.settle_of_none hline.reads.closed]
      exact hscans.loop_end (by rw [hline.scan.scanner, hscanner]) (by omega)
    | cons more scanner =>
      rw [hscanner, List.length_cons] at hsteps ih
      obtain ⟨steps, rfl⟩ := Nat.exists_eq_succ_of_ne_zero (show steps ≠ 0 by omega)
      obtain ⟨hiteration, hnext⟩ :=
        hscans.iteration_cons (by rw [hline.scan.scanner, hscanner])
      rw [loop, if_pos hscans.continueScan, hiteration, List.foldl_cons,
        Draft.feed_of_none hline.reads.closed]
      exact ih scanner.length (Nat.lt_succ_self _) hnext more
        (by show 2 * scanner.length + 2 ≤ steps; omega) rfl
  · obtain ⟨array, line, rest, harray, hlength, hnil, hfold⟩ :=
      Draft.readArray_reads x key r.scanner
    obtain ⟨steps, rfl⟩ := Nat.exists_eq_succ_of_ne_zero (show steps ≠ 0 by omega)
    have hreads := h.reads
    have hnext : Scans tableName table
        { r with
          domainData := r.domainData.set key array
          lineAfterArrayRead := line
          scanner := rest }
        { x with data := x.data.set key array, array := none } :=
      ⟨⟨hreads.named, hreads.domain, by rw [hreads.data], hreads.first, hreads.rows, rfl⟩,
        h.deferScan, h.continueScan⟩
    have hloop : loop (steps + 1) (r.readArrayOf key) =
        loop steps
          ({ r with
            domainData := r.domainData.set key array
            lineAfterArrayRead := line
            scanner := rest }.readLine line) := by
      rw [readArrayOf, harray, loop]
      dsimp only
      rw [if_pos h.continueScan, iteration, if_pos rfl]
      dsimp only
      rw [h.deferScan]
    rw [hline, hread, hfold, hloop]
    by_cases hscanner : r.scanner = []
    · obtain rfl := hnil hscanner
      obtain rfl : rest = [] := List.length_eq_zero_iff.mp (by rw [hscanner] at hlength; simpa using hlength)
      rw [readLine_nil, Draft.readKey_nil, List.foldl_nil, Draft.settle_of_none rfl]
      exact hnext.loop_end rfl (by omega)
    · have hpos := List.length_pos_of_ne_nil hscanner
      exact ih rest.length (by omega) hnext line (by show 2 * rest.length + 2 ≤ steps; omega) rfl

theorem Scans.loop_reads {steps : ℕ} (h : Scans tableName table r x)
    (hsteps : 2 * r.scanner.length + 1 ≤ steps) :
    ∃ r', loop steps r = some r' ∧
      Reads tableName table r' (r.scanner.foldl Draft.feed x).settle := by
  cases hscanner : r.scanner with
  | nil =>
    rw [List.foldl_nil, Draft.settle_of_none h.reads.closed]
    exact h.loop_end hscanner (by omega)
  | cons text scanner =>
    rw [hscanner, List.length_cons] at hsteps
    obtain ⟨steps, rfl⟩ := Nat.exists_eq_succ_of_ne_zero (show steps ≠ 0 by omega)
    obtain ⟨hiteration, hnext⟩ := h.iteration_cons hscanner
    rw [loop, if_pos h.continueScan, hiteration, List.foldl_cons,
      Draft.feed_of_none h.reads.closed]
    exact hnext.loop_line text (by show 2 * scanner.length + 2 ≤ steps; omega)

end Refinement

end Reading

/-- A line that names the domain of a file. -/
structure DomainLine (line name : GoString) : Prop where
  key : contains line (str "Domain:") = true
  value : readValue line = name
  named : name ≠ []
  oneLine : 10 ∉ line
  fits : fits line = true
  ends : line.getLast? ≠ some 13

/-- The rows of a domain table, none where there is no table yet. -/
def tableRows (db : Tables) (tableName : GoString) : List DomainData := (db.get tableName).getD []

theorem get_createDomainTable (db : Tables) (tableName : GoString) :
    (createDomainTableIfNotExist db tableName).get tableName = some (tableRows db tableName) := by
  unfold createDomainTableIfNotExist tableRows
  cases htable : db.get tableName with
  | none =>
    rw [if_neg (by simp), GoMap.get_set, if_pos rfl]
    rfl
  | some table =>
    rw [if_pos Option.isSome_some, htable]
    rfl

/-- What the machine makes of the lines behind the domain line is added to the table, row by
row. -/
theorem populateTable_lines {line name : GoString} (hline : DomainLine line name) (db : Tables)
    {lines : List GoString} (hlines : ∀ l ∈ lines, 10 ∉ l)
    (hends : ∀ l ∈ lines, l.getLast? ≠ some 13) :
    ∃ db', populateTable db (linesText (line :: lines)) = some db' ∧
      db'.get name =
        some (((lines.takeWhile fits).foldl Draft.feed {}).result.foldl addRow
          (tableRows db name)) := by
  have hscan : scanLines (linesText (line :: lines)) = line :: lines.takeWhile fits := by
    rw [scanLines_linesText (List.forall_mem_cons.mpr ⟨hline.oneLine, hlines⟩)
      (List.forall_mem_cons.mpr ⟨hline.ends, hends⟩), List.takeWhile_cons_of_pos hline.fits]
  generalize hscanner : lines.takeWhile fits = scanner at hscan ⊢
  let r : Reading :=
    { scanner, db := createDomainTableIfNotExist db name, domainName := name }
  have hscans : r.Scans name (tableRows db name) {} :=
    ⟨⟨hline.named, rfl, rfl, rfl, get_createDomainTable db name, rfl⟩, rfl, rfl⟩
  have hfirst : ({ scanner := line :: scanner, db } : Reading).iteration = r := by
    have hread : ({ scanner, db } : Reading).readLine line = r := by
      rw [Reading.readLine, if_pos hline.key, hline.value]
      rfl
    exact hread
  obtain ⟨r', hloop, hreads⟩ := hscans.loop_reads
    (show 2 * scanner.length + 1 ≤ 2 * (scanner.length + 1) + 1 by omega)
  refine ⟨insertTableRow r'.db r'.domainData r'.domainName, ?_, ?_⟩
  · rw [populateTable, hscan, List.length_cons, Reading.loop, if_pos rfl, hfirst, hloop]
    rfl
  · rw [hreads.domain, Reading.get_insertTableRow hreads.rows, hreads.data, Draft.settle_rows,
      Draft.result, List.foldl_append]
    rfl

end VissServer.Datamodel

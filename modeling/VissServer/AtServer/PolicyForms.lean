import VissServer.AtServer.PolicyDocuments

/-!
The loaded purposes and scopes: what a document says, where its outermost value is an array. A
single purpose or scope is stored into a list that has not been made.
-/
namespace VissServer.AtServer

open Go Utils

/-! ## The purpose list in all forms -/

section

variable {a : AccessDoc} {d : PurposeDoc}

def AccessDoc.store (a : AccessDoc) (name : GoString) (e : AccessElement) : AccessElement :=
  if name = str "path" then { e with path := a.element.path }
  else { e with permission := a.element.permission }

theorem AccessDoc.store_comm (a : AccessDoc) (x y : GoString) (e : AccessElement) :
    a.store x (a.store y e) = a.store y (a.store x e) := by
  simp only [AccessDoc.store]
  split_ifs <;> rfl

theorem AccessDoc.foldl_store (a : AccessDoc) :
    (fieldName (str "path") a.path ++ fieldName (str "access_mode") a.accessMode).foldl
      (fun e name => a.store name e) .zero = a.element := by
  obtain ⟨path, accessMode⟩ := a
  cases path <;> cases accessMode <;> rfl

theorem extractPurposeElementsL4SignalAccessL2_decoded {members : List (GoString × Json)}
    (h : a.Decoded (.obj members)) {k : ℕ} {access : List AccessElement}
    (hk : access[k]? = some .zero) :
    extractPurposeElementsL4SignalAccessL2 k members access = some (access.set k a.element) := by
  obtain ⟨path, accessMode, members', hpath, hmode, hperm, hmembers⟩ := h
  obtain rfl := Json.obj.inj hmembers
  have hnames := hperm.map Prod.fst
  rw [List.map_append, hpath.names, hmode.names] at hnames
  rw [extractPurposeElementsL4SignalAccessL2, foldlM_store a.store (fun _ => True)
    ?_ (fun _ _ _ => trivial) a.store_comm hnames hk trivial,
    a.foldl_store]
  intro p hp l e hl _
  obtain hp | hp := List.mem_append.mp (hperm.subset hp)
  · obtain ⟨s, hs, hname, hv⟩ := hpath.mem hp
    rw [assignAt_eq hl, hname, hv, AccessDoc.store, if_pos rfl, AccessDoc.element, hs]
    rfl
  · obtain ⟨s, hs, hname, hv⟩ := hmode.mem hp
    have hother : str "access_mode" ≠ str "path" := by decide
    rw [assignAt_eq hl, hname, hv, AccessDoc.store, if_neg hother, AccessDoc.element, hs]
    rfl

theorem extractPurposeElementsL4SignalAccessL2_single {members : List (GoString × Json)}
    (h : a.Decoded (.obj members)) :
    extractPurposeElementsL4SignalAccessL2 0 members [.zero] = some [a.element] :=
  extractPurposeElementsL4SignalAccessL2_decoded h rfl

theorem AccessDoc.Decoded.eq_obj {v : Json} (h : a.Decoded v) :
    ∃ members, v = .obj members ∧ a.Decoded (.obj members) := by
  obtain ⟨path, accessMode, members, hpath, hmode, hperm, rfl⟩ := h
  exact ⟨members, rfl, path, accessMode, members, hpath, hmode, hperm, rfl⟩

theorem extractPurposeElementsL4SignalAccessL1_decoded {l : List AccessDoc} {items : List Json}
    (h : List.Forall₂ AccessDoc.Decoded l items) :
    extractPurposeElementsL4SignalAccessL1 items (List.replicate items.length .zero) =
      some (l.map AccessDoc.element) := by
  apply foldlM_slots (z := AccessElement.zero)
  rw [List.forall₂_map_left_iff]
  refine h.imp fun a v hv i access hi => ?_
  obtain ⟨members, rfl, hmembers⟩ := hv.eq_obj
  exact extractPurposeElementsL4SignalAccessL2_decoded hmembers hi

/-- A member of a purpose is stored by its name. -/
def PurposeDoc.store (d : PurposeDoc) (name : GoString) (e : PurposeEntry) : PurposeEntry :=
  if name = str "short" then { e with short := d.entry.short }
  else if name = str "long" then { e with long := d.entry.long }
  else if name = str "contexts" then { e with context := d.entry.context }
  else { e with access := d.entry.access }

theorem PurposeDoc.store_comm (d : PurposeDoc) (x y : GoString) (e : PurposeEntry) :
    d.store x (d.store y e) = d.store y (d.store x e) := by
  simp only [PurposeDoc.store]
  split_ifs <;> rfl

/-- The names of the fields of a purpose that are there. -/
def PurposeDoc.names (d : PurposeDoc) : List GoString :=
  fieldName (str "short") d.short ++ fieldName (str "long") d.long ++
    fieldName (str "contexts") d.contexts ++ fieldName (str "signal_access") d.signalAccess

theorem PurposeDoc.foldl_store (d : PurposeDoc) :
    d.names.foldl (fun e name => d.store name e) .zero = d.entry := by
  obtain ⟨short, long, contexts, signalAccess⟩ := d
  cases short <;> cases long <;> cases contexts <;> cases signalAccess <;> rfl

/-- Each member of a purpose is stored into one element, whatever its form. -/
theorem extractPurposeMember_decoded {short long contexts signalAccess : List (GoString × Json)}
    (hshort : Field (str "short") IsText d.short short)
    (hlong : Field (str "long") IsText d.long long)
    (hcontexts : Field (str "contexts") (OneOrMany.Decoded ContextDoc.Decoded) d.contexts contexts)
    (haccess : Field (str "signal_access") (OneOrMany.Decoded AccessDoc.Decoded) d.signalAccess
      signalAccess) {p : GoString × Json}
    (hp : p ∈ short ++ long ++ contexts ++ signalAccess) :
    ∃ assign : PurposeEntry → MayPanic PurposeEntry,
      (∀ e, assign e = some (d.store p.1 e)) ∧
      ∀ index pList, extractPurposeMember index p pList = assignAt pList index assign := by
  obtain ⟨name, v⟩ := p
  rw [List.mem_append, List.mem_append, List.mem_append] at hp
  obtain ((hp | hp) | hp) | hp := hp
  · obtain ⟨s, hs, rfl, hv⟩ := hshort.mem hp
    obtain rfl : v = .str s := hv
    refine ⟨_, fun e => ?_, fun index pList => rfl⟩
    simp [PurposeDoc.store, PurposeDoc.entry, hs]
  · obtain ⟨s, hs, rfl, hv⟩ := hlong.mem hp
    obtain rfl : v = .str s := hv
    have hname : str "long" ≠ str "short" := by decide
    refine ⟨_, fun e => ?_, fun index pList => rfl⟩
    simp [PurposeDoc.store, PurposeDoc.entry, hs, hname]
  · obtain ⟨x, hx, rfl, hv⟩ := hcontexts.mem hp
    have hname : str "contexts" ≠ str "short" ∧ str "contexts" ≠ str "long" := by decide
    cases x with
    | one c =>
      obtain ⟨members, rfl, hmembers⟩ := ContextDoc.Decoded.eq_obj hv
      refine ⟨_, fun e => ?_, fun index pList => rfl⟩
      simp [PurposeDoc.store, PurposeDoc.entry, hx, hname, elements, OneOrMany.list,
        extractPurposeElementsL4ContextL2, extractContextL2_single hmembers]
    | many l =>
      obtain ⟨items, rfl, hitems⟩ := hv
      refine ⟨_, fun e => ?_, fun index pList => rfl⟩
      simp [PurposeDoc.store, PurposeDoc.entry, hx, hname, elements, OneOrMany.list,
        extractPurposeElementsL4ContextL1, extractContextL1_decoded hitems]
  · obtain ⟨x, hx, rfl, hv⟩ := haccess.mem hp
    have hname : str "signal_access" ≠ str "short" ∧ str "signal_access" ≠ str "long" ∧
        str "signal_access" ≠ str "contexts" := by decide
    cases x with
    | one c =>
      obtain ⟨members, rfl, hmembers⟩ := AccessDoc.Decoded.eq_obj hv
      refine ⟨_, fun e => ?_, fun index pList => rfl⟩
      simp [PurposeDoc.store, PurposeDoc.entry, hx, hname, OneOrMany.list,
        extractPurposeElementsL4SignalAccessL2_single hmembers]
    | many l =>
      obtain ⟨items, rfl, hitems⟩ := hv
      refine ⟨_, fun e => ?_, fun index pList => rfl⟩
      simp [PurposeDoc.store, PurposeDoc.entry, hx, hname, OneOrMany.list,
        extractPurposeElementsL4SignalAccessL1_decoded hitems]

/-- A purpose is stored into an element of the list. Where there is none, there is nothing to
store, or the loader panics. -/
theorem extractPurposeElementsLevel3_decoded {v : Json} (h : d.Decoded v) :
    ∃ members, v = .obj members ∧
      (∀ (index : ℕ) pList, pList[index]? = some PurposeEntry.zero →
        extractPurposeElementsLevel3 index members pList = some (pList.set index d.entry)) ∧
      extractPurposeElementsLevel3 0 members [] ≠ some [d.entry] := by
  obtain ⟨short, long, contexts, signalAccess, members, hshort, hlong, hcontexts, haccess, hperm,
    rfl⟩ := h
  have hnames := hperm.map Prod.fst
  rw [List.map_append, List.map_append, List.map_append, hshort.names, hlong.names,
    hcontexts.names, haccess.names] at hnames
  exact ⟨members, rfl, foldlM_element (fun p hp => extractPurposeMember_decoded hshort hlong
    hcontexts haccess (hperm.subset hp)) d.store_comm hnames d.foldl_store⟩

/-- The array of purposes gives one element each; a single purpose is stored into a list that
has no element. -/
theorem extractPurposeElementsLevel1_decoded {doc : PurposesDoc}
    {purposeList : List (GoString × Json)} (h : doc.Decoded purposeList) :
    extractPurposeElementsLevel1 purposeList [] = some doc.entries ↔ doc.purposes.IsMany := by
  obtain ⟨name, purposes⟩ := doc
  obtain ⟨v, hv, rfl⟩ := h
  cases purposes with
  | one d =>
    obtain ⟨members, rfl, -, hpanic⟩ := extractPurposeElementsLevel3_decoded hv
    refine iff_of_false (fun hload => hpanic ?_) id
    simpa [extractPurposeElementsLevel1, PurposesDoc.entries, OneOrMany.list] using hload
  | many l =>
    obtain ⟨items, rfl, hitems⟩ := hv
    refine iff_of_true ?_ trivial
    have hslots : extractPurposeElementsLevel2 items = some (l.map PurposeDoc.entry) := by
      apply foldlM_slots (z := PurposeEntry.zero)
      rw [List.forall₂_map_left_iff]
      refine hitems.imp fun d v hd i pList hi => ?_
      obtain ⟨members, rfl, hstore, -⟩ := extractPurposeElementsLevel3_decoded hd
      exact hstore i pList hi
    simpa [extractPurposeElementsLevel1, PurposesDoc.entries, OneOrMany.list] using hslots

end

/-! ## The scope list in all forms -/

section

variable {d : ScopeDoc}

def ScopeDoc.store (d : ScopeDoc) (name : GoString) (e : ScopeElement) : ScopeElement :=
  if name = str "contexts" then { e with context := d.element.context }
  else { e with noAccess := d.element.noAccess }

theorem ScopeDoc.store_comm (d : ScopeDoc) (x y : GoString) (e : ScopeElement) :
    d.store x (d.store y e) = d.store y (d.store x e) := by
  simp only [ScopeDoc.store]
  split_ifs <;> rfl

theorem ScopeDoc.foldl_store (d : ScopeDoc) :
    (fieldName (str "contexts") d.contexts ++ fieldName (str "no_access") d.noAccess).foldl
      (fun e name => d.store name e) .zero = d.element := by
  obtain ⟨contexts, noAccess⟩ := d
  cases contexts <;> cases noAccess <;> rfl

theorem extractScopeElementsL4NoAccessL1_texts (l : List GoString) :
    extractScopeElementsL4NoAccessL1 (l.map Json.str)
      (List.replicate (l.map Json.str).length []) = some l := by
  apply foldlM_slots (z := ([] : GoString))
  rw [List.forall₂_map_right_iff, List.forall₂_same]
  intro s _ i noAccess hi
  exact assignAt_eq hi _

/-- Each member of a scope is stored into one element, whatever its form. -/
theorem extractScopeMember_decoded {contexts noAccess : List (GoString × Json)}
    (hcontexts : Field (str "contexts") (OneOrMany.Decoded ContextDoc.Decoded) d.contexts contexts)
    (hnoAccess : Field (str "no_access") (OneOrMany.Decoded IsText) d.noAccess noAccess)
    {p : GoString × Json} (hp : p ∈ contexts ++ noAccess) :
    ∃ assign : ScopeElement → MayPanic ScopeElement,
      (∀ e, assign e = some (d.store p.1 e)) ∧
      ∀ index sList, extractScopeMember index p sList = assignAt sList index assign := by
  obtain ⟨name, v⟩ := p
  obtain hp | hp := List.mem_append.mp hp
  · obtain ⟨x, hx, rfl, hv⟩ := hcontexts.mem hp
    cases x with
    | one c =>
      obtain ⟨members, rfl, hmembers⟩ := ContextDoc.Decoded.eq_obj hv
      refine ⟨_, fun e => ?_, fun index sList => rfl⟩
      simp [ScopeDoc.store, ScopeDoc.element, hx, elements, OneOrMany.list,
        extractScopeElementsL4ContextL2, extractContextL2_single hmembers]
    | many l =>
      obtain ⟨items, rfl, hitems⟩ := hv
      refine ⟨_, fun e => ?_, fun index sList => rfl⟩
      simp [ScopeDoc.store, ScopeDoc.element, hx, elements, OneOrMany.list,
        extractScopeElementsL4ContextL1, extractContextL1_decoded hitems]
  · obtain ⟨x, hx, rfl, hv⟩ := hnoAccess.mem hp
    have hname : str "no_access" ≠ str "contexts" := by decide
    cases x with
    | one s =>
      obtain rfl : v = .str s := hv
      refine ⟨_, fun e => ?_, fun index sList => rfl⟩
      simp [ScopeDoc.store, ScopeDoc.element, hx, elements, OneOrMany.list, hname]
    | many l =>
      obtain ⟨items, rfl, hitems⟩ := hv
      obtain rfl := decoded_texts hitems
      refine ⟨_, fun e => ?_, fun index sList => rfl⟩
      simp only [if_neg hname, extractScopeElementsL4NoAccessL1_texts, Option.bind_eq_bind,
        Option.bind_some, ScopeDoc.store, ScopeDoc.element, hx, elements, Option.map_some,
        Option.getD_some, OneOrMany.list]

theorem extractScopeElementsLevel3_decoded {v : Json} (h : d.Decoded v) :
    ∃ members, v = .obj members ∧
      (∀ (index : ℕ) sList, sList[index]? = some ScopeElement.zero →
        extractScopeElementsLevel3 index members sList = some (sList.set index d.element)) ∧
      extractScopeElementsLevel3 0 members [] ≠ some [d.element] := by
  obtain ⟨contexts, noAccess, members, hcontexts, hnoAccess, hperm, rfl⟩ := h
  have hnames := hperm.map Prod.fst
  rw [List.map_append, hcontexts.names, hnoAccess.names] at hnames
  exact ⟨members, rfl, foldlM_element (fun p hp => extractScopeMember_decoded hcontexts hnoAccess
    (hperm.subset hp)) d.store_comm hnames d.foldl_store⟩

/-- The array of scopes gives one element each; a single scope is stored into a list that has
no element. -/
theorem extractScopeElementsLevel1_decoded {doc : ScopesDoc}
    {scopeList : List (GoString × Json)} (h : doc.Decoded scopeList) :
    extractScopeElementsLevel1 scopeList [] = some doc.elements ↔ doc.scopes.IsMany := by
  obtain ⟨name, scopes⟩ := doc
  obtain ⟨v, hv, rfl⟩ := h
  cases scopes with
  | one d =>
    obtain ⟨members, rfl, -, hpanic⟩ := extractScopeElementsLevel3_decoded hv
    refine iff_of_false (fun hload => hpanic ?_) id
    simpa [extractScopeElementsLevel1, ScopesDoc.elements, OneOrMany.list] using hload
  | many l =>
    obtain ⟨items, rfl, hitems⟩ := hv
    refine iff_of_true ?_ trivial
    have hslots : extractScopeElementsLevel2 items = some (l.map ScopeDoc.element) := by
      apply foldlM_slots (z := ScopeElement.zero)
      rw [List.forall₂_map_left_iff]
      refine hitems.imp fun d v hd i sList hi => ?_
      obtain ⟨members, rfl, hstore, -⟩ := extractScopeElementsLevel3_decoded hd
      exact hstore i sList hi
    simpa [extractScopeElementsLevel1, ScopesDoc.elements, OneOrMany.list] using hslots

end

/-! ## Documents that differ in their forms -/

/-- The document with arrays in all places. -/
def ContextDoc.listed (c : ContextDoc) : ContextDoc where
  user := c.user.map (OneOrMany.listed id)
  app := c.app.map (OneOrMany.listed id)
  device := c.device.map (OneOrMany.listed id)

def PurposeDoc.listed (d : PurposeDoc) : PurposeDoc :=
  { d with
    contexts := d.contexts.map (OneOrMany.listed ContextDoc.listed)
    signalAccess := d.signalAccess.map (OneOrMany.listed id) }

def PurposesDoc.listed (doc : PurposesDoc) : PurposesDoc where
  name := doc.name
  purposes := doc.purposes.listed PurposeDoc.listed

def ScopeDoc.listed (d : ScopeDoc) : ScopeDoc where
  contexts := d.contexts.map (OneOrMany.listed ContextDoc.listed)
  noAccess := d.noAccess.map (OneOrMany.listed id)

def ScopesDoc.listed (doc : ScopesDoc) : ScopesDoc where
  name := doc.name
  scopes := doc.scopes.listed ScopeDoc.listed

section

variable {α β : Type}

theorem elements_listed (f : α → β) (x : Option (OneOrMany α)) :
    elements (x.map (OneOrMany.listed f)) = (elements x).map f := by
  cases x <;> rfl

theorem ContextDoc.element_listed (c : ContextDoc) : c.listed.element = c.element := by
  simp only [ContextDoc.element, ContextDoc.listed, elements_listed, List.map_id]

theorem map_element_listed (l : List ContextDoc) :
    (l.map ContextDoc.listed).map ContextDoc.element = l.map ContextDoc.element := by
  rw [List.map_map]
  exact List.map_congr_left fun c _ => c.element_listed

theorem PurposeDoc.entry_listed (d : PurposeDoc) : d.listed.entry = d.entry := by
  obtain ⟨short, long, contexts, signalAccess⟩ := d
  simp only [PurposeDoc.entry, PurposeDoc.listed, elements_listed, map_element_listed]
  cases signalAccess with
  | none => rfl
  | some x => simp [OneOrMany.listed, OneOrMany.list]

theorem PurposesDoc.entries_listed (doc : PurposesDoc) : doc.listed.entries = doc.entries := by
  simp only [PurposesDoc.entries, PurposesDoc.listed, OneOrMany.listed, OneOrMany.list,
    List.map_map]
  exact List.map_congr_left fun d _ => d.entry_listed

theorem ScopeDoc.element_listed (d : ScopeDoc) : d.listed.element = d.element := by
  simp only [ScopeDoc.element, ScopeDoc.listed, elements_listed, map_element_listed, List.map_id]

theorem ScopesDoc.elements_listed (doc : ScopesDoc) : doc.listed.elements = doc.elements := by
  simp only [ScopesDoc.elements, ScopesDoc.listed, OneOrMany.listed, OneOrMany.list,
    List.map_map]
  exact List.map_congr_left fun d _ => d.element_listed

end

/-- Documents that differ only in their forms are loaded alike, in whatever orders their maps
are visited, if and only if neither gives its purposes, or its scopes, in the form of one. -/
theorem policies_loaded {purposes purposes' : PurposesDoc} {scopes scopes' : ScopesDoc}
    {purposeList purposeList' scopeList scopeList' : List (GoString × Json)}
    (hpurposes : purposes.listed = purposes'.listed) (hscopes : scopes.listed = scopes'.listed)
    (hp : purposes.Decoded purposeList) (hp' : purposes'.Decoded purposeList')
    (hs : scopes.Decoded scopeList) (hs' : scopes'.Decoded scopeList') :
    (extractPurposeElementsLevel1 purposeList [] = some purposes.entries ∧
        extractPurposeElementsLevel1 purposeList' [] = some purposes.entries ↔
      purposes.purposes.IsMany ∧ purposes'.purposes.IsMany) ∧
    (extractScopeElementsLevel1 scopeList [] = some scopes.elements ∧
        extractScopeElementsLevel1 scopeList' [] = some scopes.elements ↔
      scopes.scopes.IsMany ∧ scopes'.scopes.IsMany) := by
  have hentries : purposes.entries = purposes'.entries := by
    rw [← purposes.entries_listed, hpurposes, purposes'.entries_listed]
  have helements : scopes.elements = scopes'.elements := by
    rw [← scopes.elements_listed, hscopes, scopes'.elements_listed]
  constructor
  · rw [extractPurposeElementsLevel1_decoded hp, hentries,
      extractPurposeElementsLevel1_decoded hp']
  · rw [extractScopeElementsLevel1_decoded hs, helements,
      extractScopeElementsLevel1_decoded hs']

/-! ## A document in two forms -/

def ownerContext : ContextDoc := ⟨some (.one (str "Owner")), none, none⟩

/-- A purpose for owners; its contexts are given in either form. -/
def ownerPurpose (contexts : OneOrMany ContextDoc) : PurposeDoc where
  short := some (str "fuel-status")
  long := none
  contexts := some contexts
  signalAccess := none

def ownerMember : Json := .obj [(str "user", .str (str "Owner"))]

/-- The decoded purpose, with its contexts before its name. -/
def purposeMembers (contexts : Json) : Json :=
  .obj [(str "contexts", contexts), (str "short", .str (str "fuel-status"))]

theorem ownerContext_decoded : ownerContext.Decoded ownerMember :=
  ⟨_, _, _, _, ⟨_, rfl, rfl⟩, rfl, rfl, .refl _, rfl⟩

theorem ownerPurpose_decoded {contexts : OneOrMany ContextDoc} {v : Json}
    (h : contexts.Decoded ContextDoc.Decoded v) :
    (ownerPurpose contexts).Decoded (purposeMembers v) :=
  ⟨_, _, _, _, _, ⟨_, rfl, rfl⟩, rfl, ⟨_, h, rfl⟩, rfl, .swap _ _ _, rfl⟩

theorem ownerPurpose_one : (ownerPurpose (.one ownerContext)).Decoded
    (purposeMembers ownerMember) :=
  @ownerPurpose_decoded (.one ownerContext) _ ownerContext_decoded

theorem ownerPurpose_many : (ownerPurpose (.many [ownerContext])).Decoded
    (purposeMembers (.arr [ownerMember])) :=
  @ownerPurpose_decoded (.many [ownerContext]) _
    ⟨_, rfl, .cons ownerContext_decoded .nil⟩

/-- An array of that purpose, its contexts in the first or in the second form, and no scopes. -/
theorem policies_loaded_owner :
    (extractPurposeElementsLevel1
          [(str "purposes", .arr [purposeMembers ownerMember])] [] =
        some (PurposesDoc.entries ⟨str "purposes", .many [ownerPurpose (.one ownerContext)]⟩) ∧
      extractPurposeElementsLevel1
          [(str "purposes", .arr [purposeMembers (.arr [ownerMember])])] [] =
        some (PurposesDoc.entries ⟨str "purposes", .many [ownerPurpose (.one ownerContext)]⟩) ↔
      True ∧ True) ∧
    (extractScopeElementsLevel1 [(str "scope", .arr [])] [] =
        some (ScopesDoc.elements ⟨str "scope", .many []⟩) ∧
      extractScopeElementsLevel1 [(str "scope", .arr [])] [] =
        some (ScopesDoc.elements ⟨str "scope", .many []⟩) ↔ True ∧ True) :=
  @policies_loaded ⟨str "purposes", .many [ownerPurpose (.one ownerContext)]⟩
    ⟨str "purposes", .many [ownerPurpose (.many [ownerContext])]⟩
    ⟨str "scope", .many []⟩ ⟨str "scope", .many []⟩ _ _ _ _ rfl rfl
    ⟨_, ⟨_, rfl, .cons ownerPurpose_one .nil⟩, rfl⟩
    ⟨_, ⟨_, rfl, .cons ownerPurpose_many .nil⟩, rfl⟩
    ⟨_, ⟨_, rfl, .nil⟩, rfl⟩ ⟨_, ⟨_, rfl, .nil⟩, rfl⟩

/-- The purpose as the whole of the purposes. -/
theorem policies_single : ¬ ∀ (doc doc' : PurposesDoc) purposeList purposeList',
    doc.listed = doc'.listed → doc.Decoded purposeList → doc'.Decoded purposeList' →
      ∃ pList, extractPurposeElementsLevel1 purposeList [] = some pList ∧
        extractPurposeElementsLevel1 purposeList' [] = some pList := by
  intro h
  obtain ⟨pList, hload, -⟩ := h ⟨str "purposes", .one (ownerPurpose (.one ownerContext))⟩
    ⟨str "purposes", .many [ownerPurpose (.one ownerContext)]⟩ _ _ rfl
    ⟨_, ownerPurpose_one, rfl⟩ ⟨_, ⟨_, rfl, .cons ownerPurpose_one .nil⟩, rfl⟩
  have hpanic : extractPurposeElementsLevel1 [(str "purposes", purposeMembers ownerMember)] [] =
      none := rfl
  rw [hpanic] at hload
  cases hload

end VissServer.AtServer

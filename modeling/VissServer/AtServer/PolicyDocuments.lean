import Mathlib.Data.List.Forall2
import VissServer.AtServer.Policy

/-!
Policy documents: purposes and scopes with their values in the form of one or of an array, what
they are decoded to, and what they say whatever their forms are; the loops of the loaders over
slices and members, and the contexts that they load.
-/
namespace VissServer.AtServer

open Go Utils

/-! ## Documents -/

/-- A value, or an array of such values. -/
inductive OneOrMany (α : Type)
  | one (a : α)
  | many (l : List α)

namespace OneOrMany

variable {α β : Type}

def list : OneOrMany α → List α
  | one a => [a]
  | many l => l

def IsMany : OneOrMany α → Prop
  | one _ => False
  | many _ => True

/-- The array form. -/
def listed (f : α → β) (x : OneOrMany α) : OneOrMany β := many (x.list.map f)

/-- What json.Unmarshal decodes it to, given the values that the elements are decoded to. -/
def Decoded (decoded : α → Json → Prop) : OneOrMany α → Json → Prop
  | one a, v => decoded a v
  | many l, v => ∃ items, v = .arr items ∧ List.Forall₂ decoded l items

end OneOrMany

/-- The members that an optional field gives. -/
def Field {α : Type} (name : GoString) (decoded : α → Json → Prop) :
    Option α → List (GoString × Json) → Prop
  | none, members => members = []
  | some a, members => ∃ v, decoded a v ∧ members = [(name, v)]

def IsText (s : GoString) (v : Json) : Prop := v = .str s

structure ContextDoc where
  user : Option (OneOrMany GoString)
  app : Option (OneOrMany GoString)
  device : Option (OneOrMany GoString)

structure AccessDoc where
  path : Option GoString
  accessMode : Option GoString

structure PurposeDoc where
  short : Option GoString
  long : Option GoString
  contexts : Option (OneOrMany ContextDoc)
  signalAccess : Option (OneOrMany AccessDoc)

/-- A purpose list; its only member may have any name. -/
structure PurposesDoc where
  name : GoString
  purposes : OneOrMany PurposeDoc

structure ScopeDoc where
  contexts : Option (OneOrMany ContextDoc)
  noAccess : Option (OneOrMany GoString)

structure ScopesDoc where
  name : GoString
  scopes : OneOrMany ScopeDoc

/-- The roles, in any order of the members. -/
def ContextDoc.Decoded (c : ContextDoc) (v : Json) : Prop :=
  ∃ user app device members, Field (str "user") (OneOrMany.Decoded IsText) c.user user ∧
    Field (str "app") (OneOrMany.Decoded IsText) c.app app ∧
    Field (str "device") (OneOrMany.Decoded IsText) c.device device ∧
    members.Perm (user ++ app ++ device) ∧ v = .obj members

def AccessDoc.Decoded (a : AccessDoc) (v : Json) : Prop :=
  ∃ path accessMode members, Field (str "path") IsText a.path path ∧
    Field (str "access_mode") IsText a.accessMode accessMode ∧
    members.Perm (path ++ accessMode) ∧ v = .obj members

def PurposeDoc.Decoded (p : PurposeDoc) (v : Json) : Prop :=
  ∃ short long contexts signalAccess members, Field (str "short") IsText p.short short ∧
    Field (str "long") IsText p.long long ∧
    Field (str "contexts") (OneOrMany.Decoded ContextDoc.Decoded) p.contexts contexts ∧
    Field (str "signal_access") (OneOrMany.Decoded AccessDoc.Decoded) p.signalAccess
      signalAccess ∧
    members.Perm (short ++ long ++ contexts ++ signalAccess) ∧ v = .obj members

def PurposesDoc.Decoded (doc : PurposesDoc) (purposeList : List (GoString × Json)) : Prop :=
  ∃ v, OneOrMany.Decoded PurposeDoc.Decoded doc.purposes v ∧ purposeList = [(doc.name, v)]

def ScopeDoc.Decoded (s : ScopeDoc) (v : Json) : Prop :=
  ∃ contexts noAccess members,
    Field (str "contexts") (OneOrMany.Decoded ContextDoc.Decoded) s.contexts contexts ∧
    Field (str "no_access") (OneOrMany.Decoded IsText) s.noAccess noAccess ∧
    members.Perm (contexts ++ noAccess) ∧ v = .obj members

def ScopesDoc.Decoded (doc : ScopesDoc) (scopeList : List (GoString × Json)) : Prop :=
  ∃ v, OneOrMany.Decoded ScopeDoc.Decoded doc.scopes v ∧ scopeList = [(doc.name, v)]

/-! ## What a document says -/

/-- The elements of an optional field. -/
def elements {α : Type} (x : Option (OneOrMany α)) : List α := (x.map OneOrMany.list).getD []

def ContextDoc.element (c : ContextDoc) : ContextElement :=
  ⟨elements c.user, elements c.app, elements c.device⟩

def AccessDoc.element (a : AccessDoc) : AccessElement := ⟨a.path.getD [], a.accessMode.getD []⟩

def PurposeDoc.entry (p : PurposeDoc) : PurposeEntry where
  short := p.short.getD []
  long := p.long.getD []
  context := (elements p.contexts).map ContextDoc.element
  access := p.signalAccess.map fun x => x.list.map AccessDoc.element

def PurposesDoc.entries (doc : PurposesDoc) : List PurposeEntry :=
  doc.purposes.list.map PurposeDoc.entry

def ScopeDoc.element (s : ScopeDoc) : ScopeElement :=
  ⟨(elements s.contexts).map ContextDoc.element, elements s.noAccess⟩

def ScopesDoc.elements (doc : ScopesDoc) : List ScopeElement :=
  doc.scopes.list.map ScopeDoc.element

/-! ## Loops over slices and members -/

section

variable {α β : Type}

theorem assignAt_eq {l : List α} {i : ℕ} {a : α} (h : l[i]? = some a) (f : α → MayPanic α) :
    assignAt l i f = (f a).map (l.set i) := by
  rw [assignAt, h, Option.bind_eq_bind, Option.bind_some]
  cases f a with
  | none => rfl
  | some b => rfl

/-- A loop that fills the slots of a new slice one after the other. -/
theorem foldlM_slots {step : List α → Json × ℕ → MayPanic (List α)} {z : α} {vs : List Json}
    {outs : List α}
    (h : List.Forall₂ (fun out v => ∀ i l, l[i]? = some z →
      step l (v, i) = some (l.set i out)) outs vs) :
    vs.zipIdx.foldlM step (List.replicate vs.length z) = some outs := by
  have hfill : ∀ done : List α, (vs.zipIdx done.length).foldlM step
      (done ++ List.replicate vs.length z) = some (done ++ outs) := by
    induction h with
    | nil =>
      intro done
      rfl
    | @cons out v outs vs hv _ ih =>
      intro done
      have hslot : (done ++ List.replicate (v :: vs).length z)[done.length]? = some z := by
        rw [List.getElem?_append_right (Nat.le_refl _), Nat.sub_self]
        rfl
      have hset : (done ++ List.replicate (v :: vs).length z).set done.length out =
          done ++ [out] ++ List.replicate vs.length z := by
        rw [List.set_append_right _ _ (Nat.le_refl _), Nat.sub_self, List.length_cons,
          List.replicate_succ, List.set_cons_zero, List.append_assoc, List.singleton_append]
      have hrest := ih (done ++ [out])
      rw [List.length_append, List.length_singleton] at hrest
      rw [List.zipIdx_cons, List.foldlM_cons, hv _ _ hslot, hset, Option.bind_eq_bind,
        Option.bind_some, hrest, List.append_assoc, List.singleton_append]
  exact hfill []

/-- A loop over members in any order, each of which is stored by its name into one element. -/
theorem foldlM_store {step : List α → GoString × Json → MayPanic (List α)}
    (store : GoString → α → α) (holds : α → Prop) {members : List (GoString × Json)}
    {names : List GoString} {i : ℕ}
    (hstep : ∀ p ∈ members, ∀ l a, l[i]? = some a → holds a →
      step l p = some (l.set i (store p.1 a)))
    (hholds : ∀ name a, holds a → holds (store name a))
    (hcomm : ∀ x y a, store x (store y a) = store y (store x a))
    (hperm : (members.map Prod.fst).Perm names) {l : List α} {a : α} (hi : l[i]? = some a)
    (ha : holds a) :
    members.foldlM step l = some (l.set i (names.foldl (fun a name => store name a) a)) := by
  rw [← hperm.foldl_eq' (fun x _ y _ z => hcomm y x z)]
  clear hperm
  induction members generalizing l a with
  | nil =>
    obtain ⟨hlt, rfl⟩ := List.getElem?_eq_some_iff.mp hi
    rw [List.foldlM_nil, List.map_nil, List.foldl_nil, List.set_getElem_self]
    rfl
  | cons p members ih =>
    obtain ⟨hp, hmembers⟩ := List.forall_mem_cons.mp hstep
    have hslot : (l.set i (store p.1 a))[i]? = some (store p.1 a) :=
      List.getElem?_set_self (List.getElem?_eq_some_iff.mp hi).1
    rw [List.foldlM_cons, hp l a hi ha, Option.bind_eq_bind, Option.bind_some,
      ih hmembers hslot (hholds p.1 a ha), List.set_set, List.map_cons, List.foldl_cons]

/-- A loop over members that each store into one element gives that element; where the slice
has none, there is nothing to store, or the loop panics. -/
theorem foldlM_element {member : ℕ → GoString × Json → List α → MayPanic (List α)}
    {store : GoString → α → α} {members : List (GoString × Json)} {names : List GoString}
    {z element : α}
    (hmember : ∀ p ∈ members, ∃ assign : α → MayPanic α, (∀ e, assign e = some (store p.1 e)) ∧
      ∀ index l, member index p l = assignAt l index assign)
    (hcomm : ∀ x y a, store x (store y a) = store y (store x a))
    (hperm : (members.map Prod.fst).Perm names)
    (helement : names.foldl (fun e name => store name e) z = element) :
    (∀ (index : ℕ) l, l[index]? = some z →
      members.foldlM (fun l p => member index p l) l = some (l.set index element)) ∧
    members.foldlM (fun l p => member 0 p l) [] ≠ some [element] := by
  constructor
  · intro index l hindex
    rw [foldlM_store store (fun _ => True) ?_ (fun _ _ _ => trivial) hcomm hperm hindex trivial,
      helement]
    intro p hp l e hl _
    obtain ⟨assign, hassign, hstep⟩ := hmember p hp
    rw [hstep, assignAt_eq hl, hassign, Option.map_some]
  · cases members with
    | nil => simp
    | cons p members =>
      obtain ⟨assign, -, hstep⟩ := hmember p List.mem_cons_self
      rw [List.foldlM_cons, hstep]
      simp [assignAt]

/-- The name of a field that is there. -/
def fieldName (name : GoString) (x : Option α) : List GoString := (x.map fun _ => name).toList

theorem Field.names {name : GoString} {decoded : α → Json → Prop} {x : Option α}
    {members : List (GoString × Json)} (h : Field name decoded x members) :
    members.map Prod.fst = fieldName name x := by
  cases x with
  | none =>
    obtain rfl := h
    rfl
  | some a =>
    obtain ⟨v, -, rfl⟩ := h
    rfl

theorem Field.mem {name : GoString} {decoded : α → Json → Prop} {x : Option α}
    {members : List (GoString × Json)} (h : Field name decoded x members)
    {p : GoString × Json} (hp : p ∈ members) : ∃ a, x = some a ∧ p.1 = name ∧ decoded a p.2 := by
  cases x with
  | none =>
    obtain rfl := h
    cases hp
  | some a =>
    obtain ⟨v, hv, rfl⟩ := h
    obtain rfl := List.mem_singleton.mp hp
    exact ⟨a, rfl, rfl, hv⟩

end

/-! ## Contexts in all forms -/

section

variable {c : ContextDoc} {e : ContextElement} {actor : Actor}

@[simp] theorem ContextElement.role_setRole (e : ContextElement) (roles : List GoString)
    (actor : Actor) : (e.setRole roles actor).role actor = roles := by
  cases actor <;> rfl

@[simp] theorem ContextElement.setRole_setRole (e : ContextElement) (roles roles' : List GoString)
    (actor : Actor) : (e.setRole roles actor).setRole roles' actor = e.setRole roles' actor := by
  cases actor <;> rfl

@[simp] theorem ContextElement.setRole_role (e : ContextElement) (actor : Actor) :
    e.setRole (e.role actor) actor = e := by
  cases actor <;> rfl

theorem ContextElement.setRole_comm (e : ContextElement) (roles : Actor → List GoString)
    (i j : Actor) : (e.setRole (roles i) i).setRole (roles j) j =
      (e.setRole (roles j) j).setRole (roles i) i := by
  cases i <;> cases j <;> rfl

theorem ContextElement.role_setRole_of_ne (e : ContextElement) (roles : List GoString)
    {i j : Actor} (h : j ≠ i) : (e.setRole roles i).role j = e.role j := by
  cases i <;> cases j <;> first | rfl | exact absurd rfl h

theorem decoded_texts {l : List GoString} {items : List Json} (h : List.Forall₂ IsText l items) :
    items = l.map Json.str := by
  induction h with
  | nil => rfl
  | cons hv _ ih => rw [hv, ih, List.map_cons]

/-- The loop over roles behind the first one, which has made the slice. -/
theorem extractRoles_behind (vvv : List Json) {before : List GoString} (hbefore : before ≠ [])
    (rest : List GoString) (h : e.role actor = before ++ List.replicate rest.length []) :
    extractRoles vvv actor before.length (rest.map Json.str) e =
      some (e.setRole (before ++ rest) actor) := by
  induction rest generalizing before e with
  | nil =>
    rw [List.length_nil, List.replicate_zero, List.append_nil] at h
    rw [List.append_nil, ← h, ContextElement.setRole_role]
    rfl
  | cons t rest ih =>
    have hzero : before.length ≠ 0 := fun hlength => hbefore (List.length_eq_zero_iff.mp hlength)
    have hslot : (before ++ List.replicate (t :: rest).length [])[before.length]? = some [] := by
      rw [List.getElem?_append_right (Nat.le_refl _), Nat.sub_self]
      rfl
    have hset : (before ++ List.replicate (t :: rest).length []).set before.length t =
        before ++ [t] ++ List.replicate rest.length [] := by
      rw [List.set_append_right _ _ (Nat.le_refl _), Nat.sub_self, List.length_cons,
        List.replicate_succ, List.set_cons_zero, List.append_assoc, List.singleton_append]
    have hrest := @ih (e.setRole (before ++ [t] ++ List.replicate rest.length []) actor)
      (before ++ [t]) (by simp) (ContextElement.role_setRole _ _ _)
    rw [List.length_append, List.length_singleton, ContextElement.setRole_setRole,
      List.append_assoc before [t] rest, List.singleton_append] at hrest
    rw [List.map_cons, extractRoles]
    simp only [if_neg hzero, h, assignAt_eq hslot, Option.map_some, hset, Option.bind_eq_bind,
      Option.bind_some]
    exact hrest

/-- An array of roles is stored; an empty one leaves the actor without roles, as it was. -/
theorem extractRoles_texts (l : List GoString) (h : e.role actor = [] ∨ e.role actor = l) :
    extractRoles (l.map Json.str) actor 0 (l.map Json.str) e = some (e.setRole l actor) := by
  cases l with
  | nil =>
    have hsame : e.setRole [] actor = e := by
      rw [← h.elim id id, ContextElement.setRole_role]
    rw [hsame]
    rfl
  | cons t rest =>
    have hlength : ((t :: rest).map Json.str).length = rest.length + 1 := by simp
    have hset : (List.replicate (rest.length + 1) ([] : GoString)).set 0 t =
        [t] ++ List.replicate rest.length [] := by
      rw [List.replicate_succ, List.set_cons_zero, List.singleton_append]
    have hslot : (List.replicate (rest.length + 1) ([] : GoString))[0]? = some [] := rfl
    have hrest := extractRoles_behind ((t :: rest).map Json.str) (List.cons_ne_nil t []) rest
      (ContextElement.role_setRole e ([t] ++ List.replicate rest.length []) actor)
    rw [ContextElement.setRole_setRole] at hrest
    rw [List.map_cons] at hrest hlength ⊢
    rw [extractRoles]
    simp only [if_true, hlength, assignAt_eq hslot, Option.map_some, hset, Option.bind_eq_bind,
      Option.bind_some]
    exact hrest

theorem extractContextMember_decoded {x : OneOrMany GoString} {v : Json} (i : GoString)
    (hv : x.Decoded IsText v)
    (h : e.role (actorOf i) = [] ∨ e.role (actorOf i) = x.list) :
    extractContextMember i v e = some (e.setRole x.list (actorOf i)) := by
  cases x with
  | one s =>
    obtain rfl := hv
    rfl
  | many l =>
    obtain ⟨items, rfl, hitems⟩ := hv
    obtain rfl := decoded_texts hitems
    exact extractRoles_texts l h

/-- A member of a context is stored for its actor. -/
def ContextDoc.store (c : ContextDoc) (name : GoString) (e : ContextElement) : ContextElement :=
  e.setRole (c.element.role (actorOf name)) (actorOf name)

/-- Each actor has the roles of the document, or none yet. -/
def ContextDoc.Filling (c : ContextDoc) (e : ContextElement) : Prop :=
  ∀ actor, e.role actor = [] ∨ e.role actor = c.element.role actor

theorem ContextDoc.Filling.store (h : c.Filling e) (name : GoString) :
    c.Filling (c.store name e) := by
  intro actor
  by_cases hactor : actor = actorOf name
  · subst hactor
    exact .inr (ContextElement.role_setRole _ _ _)
  · rw [ContextDoc.store, ContextElement.role_setRole_of_ne _ _ hactor]
    exact h actor

theorem ContextDoc.foldl_store (c : ContextDoc) :
    (fieldName (str "user") c.user ++ fieldName (str "app") c.app ++
      fieldName (str "device") c.device).foldl (fun e name => c.store name e) .zero =
        c.element := by
  obtain ⟨user, app, device⟩ := c
  cases user <;> cases app <;> cases device <;> rfl

/-- The members of a context in any order give its element. -/
theorem extractContextL2_decoded {members : List (GoString × Json)}
    (h : c.Decoded (.obj members)) {k : ℕ} {context : List ContextElement}
    (hk : context[k]? = some .zero) :
    extractContextL2 k members context = some (context.set k c.element) := by
  obtain ⟨user, app, device, members', huser, happ, hdevice, hperm, hmembers⟩ := h
  obtain rfl := Json.obj.inj hmembers
  have hnames := hperm.map Prod.fst
  rw [List.map_append, List.map_append, huser.names, happ.names, hdevice.names] at hnames
  have hmember : ∀ p ∈ members, ∃ x : OneOrMany GoString, x.Decoded IsText p.2 ∧
      x.list = c.element.role (actorOf p.1) := by
    intro p hp
    have hp' := hperm.subset hp
    rw [List.mem_append, List.mem_append] at hp'
    obtain (hp' | hp') | hp' := hp'
    · obtain ⟨x, hx, hname, hv⟩ := huser.mem hp'
      refine ⟨x, hv, ?_⟩
      rw [hname]
      simp [ContextDoc.element, ContextElement.role, elements, hx, actorOf]
    · obtain ⟨x, hx, hname, hv⟩ := happ.mem hp'
      refine ⟨x, hv, ?_⟩
      rw [hname, show actorOf (str "app") = .app from rfl]
      simp [ContextDoc.element, ContextElement.role, elements, hx]
    · obtain ⟨x, hx, hname, hv⟩ := hdevice.mem hp'
      refine ⟨x, hv, ?_⟩
      rw [hname, show actorOf (str "device") = .device from rfl]
      simp [ContextDoc.element, ContextElement.role, elements, hx]
  rw [extractContextL2, foldlM_store c.store c.Filling ?_ (fun name a ha => ha.store name)
    (fun x y a => ContextElement.setRole_comm a _ _ _) hnames hk (fun actor => ?_),
    c.foldl_store]
  · intro p hp l a hl ha
    obtain ⟨x, hv, hlist⟩ := hmember p hp
    rw [assignAt_eq hl, extractContextMember_decoded p.1 hv (hlist ▸ ha _), Option.map_some,
      hlist]
    rfl
  · cases actor <;> exact .inl rfl

end

section

variable {c : ContextDoc}

theorem ContextDoc.Decoded.eq_obj {v : Json} (h : c.Decoded v) :
    ∃ members, v = .obj members ∧ c.Decoded (.obj members) := by
  obtain ⟨user, app, device, members, huser, happ, hdevice, hperm, rfl⟩ := h
  exact ⟨members, rfl, user, app, device, members, huser, happ, hdevice, hperm, rfl⟩

/-- An array of contexts. -/
theorem extractContextL1_decoded {l : List ContextDoc} {items : List Json}
    (h : List.Forall₂ ContextDoc.Decoded l items) :
    extractContextL1 items (List.replicate items.length .zero) =
      some (l.map ContextDoc.element) := by
  apply foldlM_slots (z := ContextElement.zero)
  rw [List.forall₂_map_left_iff]
  refine h.imp fun c v hv i context hi => ?_
  obtain ⟨members, rfl, hmembers⟩ := hv.eq_obj
  exact extractContextL2_decoded hmembers hi

/-- A context of its own. -/
theorem extractContextL2_single {members : List (GoString × Json)}
    (h : c.Decoded (.obj members)) : extractContextL2 0 members [.zero] = some [c.element] :=
  extractContextL2_decoded h rfl

end

end VissServer.AtServer

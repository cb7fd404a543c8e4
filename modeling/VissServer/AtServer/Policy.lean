import VissServer.AtServer.Lists
import VissServer.Go.JsonEncode

/-!
The policy data of the access token server and the checks against it: purposes with their
contexts and signal accesses, scopes, and the paths of the VSS tree, whose search library is
outside the repository. The decoded purpose list and scope list are walked level by level
(atServer.go): at most levels a single value may stand for an array of one, and what range
visits in a map comes in any order, here in that of the members.
-/
namespace VissServer.AtServer

open Go Utils

structure ContextElement where
  user : List GoString
  app : List GoString
  device : List GoString

structure AccessElement where
  path : GoString
  permission : GoString

structure PurposeElement where
  short : GoString
  context : List ContextElement
  /-- none is the nil slice of a purpose that lists no access. -/
  access : Option (List AccessElement)

def PurposeElement.accessList (p : PurposeElement) : List AccessElement := p.access.getD []

structure ScopeElement where
  context : List ContextElement
  noAccess : List GoString

/-- What the server reads at its start and the libraries it calls. -/
structure Config where
  crypto : Crypto
  agtKey : RsaPublicKey
  pList : List PurposeElement
  sList : List ScopeElement
  /-- The validation that golib.VSSsearchNodes leaves behind a pointer to -1. -/
  searchValidation : GoString → ℤ
  /-- The node paths that golib.VSSsearchNodes finds for a path. -/
  searchNodes : GoString → List GoString

/-- The role of an actor: 0 is the user, 1 the app, 2 the device. -/
def getActorRole (actorIndex : ℕ) (context : GoString) : MayPanic GoString := do
  let delimiter1 := index context (str "+")
  if actorIndex = 0 then slice context 0 delimiter1
  else
    let rest ← sliceFrom context (delimiter1 + 1)
    let delimiter2 := index rest (str "+")
    if actorIndex = 1 then slice context (delimiter1 + 1) (delimiter1 + 1 + delimiter2)
    else sliceFrom context (delimiter1 + 1 + delimiter2 + 1)

/-- Whether the context's role of an actor is one of the roles listed for it. -/
def actorValid (actorIndex : ℕ) (context : GoString) (roles : List GoString) :
    MayPanic Bool :=
  roles.anyM fun role => (getActorRole actorIndex context).map fun r => r = role

/-- The roles of all three actors are looked up before the outcome is formed. -/
def contextValid (context : GoString) (c : ContextElement) : MayPanic Bool := do
  let user ← actorValid 0 context c.user
  let app ← actorValid 1 context c.app
  let device ← actorValid 2 context c.device
  some (user && app && device)

/-- checkAuthorization and matchingContext: some context entry admits the roles. -/
def checkAuthorization (contexts : List ContextElement) (context : GoString) : MayPanic Bool :=
  contexts.anyM (contextValid context)

def validatePurpose (cfg : Config) (purpose context : GoString) : MayPanic Bool :=
  cfg.pList.anyM fun p =>
    if p.short = purpose then checkAuthorization p.context context else some false

/-- The first purpose of that name decides. -/
def getSignalAccess (cfg : Config) (purpose : GoString) : GoString :=
  match cfg.pList.find? fun p => p.short = purpose with
  | none => []
  | some p =>
      match p.access with
      | none => str "null"
      | some access => marshal (.arr (access.map fun a =>
          .obj [(str "Path", .str a.path), (str "Permission", .str a.permission)]))

/-- Whether a listed signal of the purpose needs consent. Go's division truncates. -/
def checkifConsent (cfg : Config) (purpose : GoString) : Bool :=
  cfg.pList.any fun p =>
    p.short = purpose && p.accessList.any fun a => (cfg.searchValidation a.path).tdiv 10 = 1

/-- The access that a purpose grants to one path: 0, 60 or 61. -/
def validatePurposeAndAccessPermission (cfg : Config) (purpose action path : GoString) : ℤ :=
  match (cfg.pList.filter fun p => p.short = purpose).findSome? fun p =>
      p.accessList.find? fun a => a.path = path with
  | some a => if action = str "set" ∧ a.permission = str "read-only" then 61 else 0
  | none => 60

/-- The first nonzero code over all paths, wildcard paths being expanded. -/
def validateRequestAccess (cfg : Config) (purpose action : GoString) (paths : List GoString) :
    ℤ :=
  let subPaths := paths.flatMap fun path =>
    if contains path (str "*") then cfg.searchNodes path else [path]
  ((subPaths.map (validatePurposeAndAccessPermission cfg purpose action)).find?
    fun status => status ≠ 0).getD 0

/-- The no_access value of a scope; an empty list panics at the slice. -/
def synthesizeNoScope (e : ScopeElement) : MayPanic GoString :=
  match e.noAccess with
  | [one] => some (str "\"" ++ one ++ str "\"")
  | list => do
      let noScope := str "[" ++ list.flatMap fun path => str "\"" ++ path ++ str "\", "
      let trimmed ← slice noScope 0 (noScope.length - 2)
      some (trimmed ++ str "]")

/-- The scan of the scope list for the first scope with a matching context. -/
def noAccessScope (context : GoString) : List ScopeElement → MayPanic GoString
  | [] => some (str "\"\"")
  | e :: rest => do
      if ← checkAuthorization e.context context then synthesizeNoScope e
      else noAccessScope context rest

def getNoAccessScope (cfg : Config) (context : GoString) : MayPanic GoString :=
  noAccessScope context cfg.sList

/-! ## Loading -/

/-- The assignment to an element of a slice; an index that it does not have panics. -/
def assignAt {α : Type} (l : List α) (i : ℕ) (assign : α → MayPanic α) : MayPanic (List α) := do
  let a ← l[i]?
  let a ← assign a
  some (l.set i a)

/-! ## Contexts -/

def ContextElement.zero : ContextElement := ⟨[], [], []⟩

/-- The indices 0, 1 and 2 of the actors of a context. -/
inductive Actor
  | user
  | app
  | device
  deriving DecidableEq

/-- The actor that a member of a context is for. -/
def actorOf (i : GoString) : Actor :=
  if i = str "user" then .user else if i = str "app" then .app else .device

namespace ContextElement

def role (c : ContextElement) : Actor → List GoString
  | .user => c.user
  | .app => c.app
  | .device => c.device

def setRole (c : ContextElement) (roles : List GoString) : Actor → ContextElement
  | .user => { c with user := roles }
  | .app => { c with app := roles }
  | .device => { c with device := roles }

end ContextElement

/-- The loop over the array vvv of roles, m of whose elements have been visited. -/
def extractRoles (vvv : List Json) (actor : Actor) :
    ℕ → List Json → ContextElement → MayPanic ContextElement
  | _, [], c => some c
  | m, .str t :: rest, c => do
      let roles := if m = 0 then List.replicate vvv.length [] else c.role actor
      let roles ← assignAt roles m fun _ => some t
      extractRoles vvv actor (m + 1) rest (c.setRole roles actor)
  | m, _ :: rest, c => extractRoles vvv actor (m + 1) rest c

def extractContextMember (i : GoString) (u : Json) (c : ContextElement) :
    MayPanic ContextElement :=
  match u with
  | .str u => some (c.setRole [u] (actorOf i))
  | .arr vvv => extractRoles vvv (actorOf i) 0 vvv c
  | _ => some c

/-- The members of a context are stored into the element k of a slice of contexts. -/
def extractContextL2 (k : ℕ) (contextElem : List (GoString × Json))
    (context : List ContextElement) : MayPanic (List ContextElement) :=
  contextElem.foldlM (fun context p => assignAt context k (extractContextMember p.1 p.2)) context

def extractContextL1 (contextElem : List Json) (context : List ContextElement) :
    MayPanic (List ContextElement) :=
  contextElem.zipIdx.foldlM (fun context v =>
    match v.1 with
    | .obj vv => extractContextL2 v.2 vv context
    | _ => some context) context

/-! ## The purpose list -/

/-- An element of pList with the field Long, which no check reads. -/
structure PurposeEntry extends PurposeElement where
  long : GoString

def PurposeEntry.zero : PurposeEntry where
  short := []
  context := []
  access := none
  long := []

def AccessElement.zero : AccessElement := ⟨[], []⟩

/-- On the slice pList[index].Context. -/
def extractPurposeElementsL4ContextL1 : List Json → List ContextElement →
    MayPanic (List ContextElement) :=
  extractContextL1

def extractPurposeElementsL4ContextL2 : ℕ → List (GoString × Json) → List ContextElement →
    MayPanic (List ContextElement) :=
  extractContextL2

/-- On the slice pList[index].Access. -/
def extractPurposeElementsL4SignalAccessL2 (k : ℕ) (accessElem : List (GoString × Json))
    (access : List AccessElement) : MayPanic (List AccessElement) :=
  accessElem.foldlM (fun access p => assignAt access k fun a => do
    let u ← asString p.2
    some (if p.1 = str "path" then { a with path := u } else { a with permission := u })) access

def extractPurposeElementsL4SignalAccessL1 (accessElem : List Json)
    (access : List AccessElement) : MayPanic (List AccessElement) :=
  accessElem.zipIdx.foldlM (fun access v =>
    match v.1 with
    | .obj vv => extractPurposeElementsL4SignalAccessL2 v.2 vv access
    | _ => some access) access

/-- A member of a purpose. -/
def extractPurposeMember (index : ℕ) (p : GoString × Json) (pList : List PurposeEntry) :
    MayPanic (List PurposeEntry) :=
  match p.2 with
  | .str vv => assignAt pList index fun e =>
      some (if p.1 = str "short" then { e with short := vv } else { e with long := vv })
  | .arr vv => assignAt pList index fun e => do
      if p.1 = str "contexts" then
        let context ← extractPurposeElementsL4ContextL1 vv (List.replicate vv.length .zero)
        some { e with context }
      else
        let access ← extractPurposeElementsL4SignalAccessL1 vv (List.replicate vv.length .zero)
        some { e with access }
  | .obj vv => assignAt pList index fun e => do
      if p.1 = str "contexts" then
        let context ← extractPurposeElementsL4ContextL2 0 vv [.zero]
        some { e with context }
      else
        let access ← extractPurposeElementsL4SignalAccessL2 0 vv [.zero]
        some { e with access }
  | _ => some pList

def extractPurposeElementsLevel3 (index : ℕ) (purposeElem : List (GoString × Json))
    (pList : List PurposeEntry) : MayPanic (List PurposeEntry) :=
  purposeElem.foldlM (fun pList p => extractPurposeMember index p pList) pList

def extractPurposeElementsLevel2 (purposeList : List Json) : MayPanic (List PurposeEntry) :=
  purposeList.zipIdx.foldlM (fun pList v =>
    match v.1 with
    | .obj vv => extractPurposeElementsLevel3 v.2 vv pList
    | _ => some pList) (List.replicate purposeList.length .zero)

def extractPurposeElementsLevel1 (purposeList : List (GoString × Json))
    (pList : List PurposeEntry) : MayPanic (List PurposeEntry) :=
  purposeList.foldlM (fun pList p =>
    match p.2 with
    | .arr vv => extractPurposeElementsLevel2 vv
    | .obj vv => extractPurposeElementsLevel3 0 vv pList
    | _ => some pList) pList

/-! ## The scope list -/

def ScopeElement.zero : ScopeElement := ⟨[], []⟩

/-- On the slice sList[index].Context. -/
def extractScopeElementsL4ContextL1 : List Json → List ContextElement →
    MayPanic (List ContextElement) :=
  extractContextL1

def extractScopeElementsL4ContextL2 : ℕ → List (GoString × Json) → List ContextElement →
    MayPanic (List ContextElement) :=
  extractContextL2

/-- On the slice sList[index].NoAccess. -/
def extractScopeElementsL4NoAccessL1 (noAccessElem : List Json) (noAccess : List GoString) :
    MayPanic (List GoString) :=
  noAccessElem.zipIdx.foldlM (fun noAccess v =>
    match v.1 with
    | .str vv => assignAt noAccess v.2 fun _ => some vv
    | _ => some noAccess) noAccess

/-- A member of a scope. -/
def extractScopeMember (index : ℕ) (p : GoString × Json) (sList : List ScopeElement) :
    MayPanic (List ScopeElement) :=
  match p.2 with
  | .str vv => assignAt sList index fun e => some { e with noAccess := [vv] }
  | .arr vv => assignAt sList index fun e => do
      if p.1 = str "contexts" then
        let context ← extractScopeElementsL4ContextL1 vv (List.replicate vv.length .zero)
        some { e with context }
      else
        let noAccess ← extractScopeElementsL4NoAccessL1 vv (List.replicate vv.length [])
        some { e with noAccess }
  | .obj vv => assignAt sList index fun e => do
      let context ← extractScopeElementsL4ContextL2 0 vv [.zero]
      some { e with context }
  | _ => some sList

def extractScopeElementsLevel3 (index : ℕ) (scopeElem : List (GoString × Json))
    (sList : List ScopeElement) : MayPanic (List ScopeElement) :=
  scopeElem.foldlM (fun sList p => extractScopeMember index p sList) sList

def extractScopeElementsLevel2 (scopeList : List Json) : MayPanic (List ScopeElement) :=
  scopeList.zipIdx.foldlM (fun sList v =>
    match v.1 with
    | .obj vv => extractScopeElementsLevel3 v.2 vv sList
    | _ => some sList) (List.replicate scopeList.length .zero)

def extractScopeElementsLevel1 (scopeList : List (GoString × Json))
    (sList : List ScopeElement) : MayPanic (List ScopeElement) :=
  scopeList.foldlM (fun sList p =>
    match p.2 with
    | .arr vv => extractScopeElementsLevel2 vv
    | .obj vv => extractScopeElementsLevel3 0 vv sList
    | _ => some sList) sList

end VissServer.AtServer

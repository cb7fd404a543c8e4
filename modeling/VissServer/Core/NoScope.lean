import VissServer.Core.Metadata
import VissServer.AtServer.Policy

/-!
The nodes that a metadata text shows, and the paths that the scope list of the access token
server keeps from a client. The core asks for the list under a URL path that the access token
server does not serve, so the search for the metadata never gets one
(vissv2server.go, atServer.go).
-/
namespace VissServer.Core

open Go Utils
open AtServer (ScopeElement ContextElement checkAuthorization)

/-! ## The request for the list -/

/-- What answers on port 8600 of the host: the access token server, the access token server
with TLS where AtsSecPort is that port, or nothing. -/
inductive Listener
  | plain
  | tls
  | closed

/-- The body of the reply to a POST whose body can be read; answer is what the main loop of
the access token server sends back. -/
def makeAtServerHandler (answer : GoString → GoString) (urlPath body : GoString) : GoString :=
  if urlPath ≠ str "/ats" then str "404 url path not found.\n"
  else
    let response := answer body
    if response = [] then str "400 bad input.\n" else response

/-- The ServeMux of initClientComm, with net/http's answer where no pattern matches. -/
def atServerMux (answer : GoString → GoString) (urlPath body : GoString) : GoString :=
  if urlPath = str "/ats" then makeAtServerHandler answer urlPath body
  else str "404 page not found\n"

/-- What a POST to port 8600 without TLS gives; none is an error. -/
def postTo (listener : Listener) (answer : GoString → GoString) (urlPath body : GoString) :
    Option GoString :=
  match listener with
  | .plain => some (atServerMux answer urlPath body)
  | .tls => some (str "Client sent an HTTP request to an HTTPS server.\n")
  | .closed => none

/-- A moment at which getNoScopeList posts to the URL path it is written with. -/
def Moment.posting (m : Moment) (listener : Listener) (answer : GoString → GoString) : Moment :=
  { m with postReply := postTo listener answer (str "/atserver") }

theorem getNoScopeList_posting (m : Moment) (listener : Listener)
    (answer : GoString → GoString) (tokenContext : GoString) :
    getNoScopeList (m.posting listener answer) tokenContext = [] := by
  have hplain : unmarshalMap (str "404 page not found\n") = none := by decide +kernel
  have htls : unmarshalMap (str "Client sent an HTTP request to an HTTPS server.\n") = none := by
    decide +kernel
  have hpath : str "/atserver" ≠ str "/ats" := by decide
  cases listener <;>
    simp [getNoScopeList, Moment.posting, postTo, atServerMux, hpath, hplain, htls]

/-! ## What a metadata text shows -/

/-- The part of a tree that is printed; parent is a node with a member children. -/
inductive Printed
  | leaf (node : Node)
  | parent (node : Node) (children : List Printed)

def Printed.node : Printed → Node
  | .leaf node => node
  | .parent node _ => node

def Node.IsKnown (node : Node) : Prop := 1 ≤ node.type ∧ node.type ≤ 4

instance (node : Node) : Decidable node.IsKnown := by
  unfold Node.IsKnown
  infer_instance

def printed (node : Node) : ℕ → Option Printed
  | 0 => none
  | levels + 1 =>
      if ¬ node.IsKnown then none
      else if levels = 0 ∨ node.children = [] then some (.leaf node)
      else some (.parent node (node.children.filterMap fun child => printed child levels))

def Node.members (node : Node) : GoString :=
  str "\"" ++ node.name ++ str "\":\x7b" ++
    str "\"type\":\"" ++ nodeTypesToString node.type ++ str "\"," ++
    str "\"description\":\"" ++ node.descr ++ str "\"," ++
    if node.type = 4 then [] else str "\"datatype\":\"" ++ node.datatype ++ str "\","

mutual

def Printed.text : Printed → GoString
  | .leaf node => dropComma node.members ++ str "\x7d,"
  | .parent node children =>
      dropComma (node.members ++
        ((str "\"children\":\x7b" ++ texts children).dropLast ++ str "\x7d")) ++ str "\x7d,"

def texts : List Printed → GoString
  | [] => []
  | p :: rest => p.text ++ texts rest

end

theorem texts_eq (children : List Printed) :
    texts children = (children.map Printed.text).flatten := by
  induction children with
  | nil => rfl
  | cons p children ih => rw [texts, ih, List.map_cons, List.flatten_cons]

/-- The text of a node is the text of its printed part. -/
theorem jsonifyTreeNode_eq (node : Node) (levels : ℕ) :
    jsonifyTreeNode node [] levels = ((printed node levels).map Printed.text).getD [] := by
  induction levels generalizing node with
  | zero => rfl
  | succ levels ih =>
    rw [jsonifyTreeNode, printed]
    by_cases hknown : node.IsKnown
    · have htype : ¬ (node.type < 1 ∨ 4 < node.type) := by
        unfold Node.IsKnown at hknown
        omega
      simp only [htype, if_false, not_true_eq_false, hknown, List.nil_append]
      by_cases hleaf : levels = 0 ∨ node.children = []
      · simp [hleaf, Printed.text, Node.members]
      · have htexts : (node.children.map fun child => jsonifyTreeNode child [] levels).flatten =
            texts (node.children.filterMap fun child => printed child levels) := by
          rw [texts_eq]
          induction node.children with
          | nil => rfl
          | cons child children ihc =>
            rw [List.map_cons, List.flatten_cons, ihc, ih, List.filterMap_cons]
            cases printed child levels <;> simp
        simp only [hleaf, if_false, htexts, Option.map_some, Option.getD_some, Printed.text,
          Node.members, List.append_assoc]
    · have htype : node.type < 1 ∨ 4 < node.type := by
        unfold Node.IsKnown at hknown
        omega
      simp [hknown, htype]

/-- The node at the end of the names, from the node printed on top. -/
inductive Printed.Shows : Printed → List GoString → Prop
  | top (p : Printed) : Shows p []
  | under {node : Node} {children : List Printed} {child : Printed} {names : List GoString}
      (hchild : child ∈ children) (hshows : Shows child names) :
      Shows (.parent node children) (child.node.name :: names)

/-- The node at the end of the names, where it and those on the way have types that the core
knows. -/
inductive Node.Has : Node → List GoString → Prop
  | top {node : Node} (hknown : node.IsKnown) : Has node []
  | under {node child : Node} {names : List GoString} (hknown : node.IsKnown)
      (hchild : child ∈ node.children) (hhas : Has child names) :
      Has node (child.name :: names)

theorem printed_isSome_iff {node : Node} {levels : ℕ} :
    (printed node (levels + 1)).isSome ↔ node.IsKnown := by
  rw [printed]
  by_cases hknown : node.IsKnown
  · by_cases hleaf : levels = 0 ∨ node.children = [] <;> simp [hknown, hleaf]
  · simp [hknown]

theorem printed_node {node : Node} {levels : ℕ} {p : Printed}
    (h : printed node levels = some p) : p.node = node := by
  cases levels with
  | zero => exact nomatch h
  | succ levels =>
    rw [printed] at h
    split at h
    · exact nomatch h
    · split at h <;> cases h <;> rfl

/-- What is printed reaches as far down as the number of levels says. -/
theorem shows_iff (levels : ℕ) (node : Node) (names : List GoString) :
    (∃ p, printed node levels = some p ∧ p.Shows names) ↔
      node.Has names ∧ names.length < levels := by
  induction levels generalizing node names with
  | zero => simp [printed]
  | succ levels ih =>
    constructor
    · intro h
      obtain ⟨p, hp, hshows⟩ := h
      have hknown := printed_isSome_iff.mp (Option.isSome_of_eq_some hp)
      rw [printed, if_neg (not_not.mpr hknown)] at hp
      cases hshows with
      | top => exact ⟨.top hknown, Nat.succ_pos levels⟩
      | @under _ children child names hchild hshows =>
        split at hp
        · exact nomatch hp
        · cases hp
          obtain ⟨below, hbelow, hprinted⟩ := List.mem_filterMap.mp hchild
          obtain ⟨hhas, hlength⟩ := (ih below names).mp ⟨child, hprinted, hshows⟩
          rw [printed_node hprinted, List.length_cons]
          exact ⟨.under hknown hbelow hhas, by omega⟩
    · intro h
      obtain ⟨hhas, hlength⟩ := h
      cases hhas with
      | top hknown =>
        obtain ⟨p, hp⟩ := Option.isSome_iff_exists.mp (printed_isSome_iff.mpr hknown)
        exact ⟨p, hp, .top p⟩
      | @under _ child names hknown hchild hhas =>
        rw [List.length_cons] at hlength
        obtain ⟨p, hp, hshows⟩ := (ih child names).mpr ⟨hhas, by omega⟩
        have hleaf : ¬ (levels = 0 ∨ node.children = []) := by
          rintro (hzero | hnil)
          · omega
          · rw [hnil] at hchild
            exact nomatch hchild
        refine ⟨.parent node (node.children.filterMap fun child => printed child levels),
          ?_, ?_⟩
        · rw [printed, if_neg (not_not.mpr hknown), if_neg hleaf]
        · rw [← printed_node hp]
          exact .under (List.mem_filterMap.mpr ⟨child, hchild, hp⟩) hshows

/-! ## The scope list -/

/-- The first scope whose contexts admit the context of the client. -/
def matchingScope (sList : List ScopeElement) (context : GoString) : Option ScopeElement :=
  sList.find? fun e => checkAuthorization e.context context = some true

/-- The paths listed as no_access for the context of a client. -/
def noAccessListed (sList : List ScopeElement) (context : GoString) : List GoString :=
  ((matchingScope sList context).map ScopeElement.noAccess).getD []

def pathSegments (path : GoString) : List GoString := splitByte 46 path

/-- The node below which metadata is printed, for a search that is given a list. -/
def foundNode (cfg : Config) (path : GoString) (noScopeList : List GoString) :
    Option SearchData :=
  let (searchData, _) := searchTree cfg path false false noScopeList
  if (searchData.length : ℤ) < countPathSegments path then none else searchData.getLast?

def levelsOf (depth : ℕ) : ℕ := if depth = 0 then 100 else depth

/-- The path of the node on top, and the nodes that the metadata text shows. -/
def discovered (cfg : Config) (m : Moment) (path : GoString) (depth : ℕ)
    (tokenContext : GoString) : Option (List GoString × Printed) := do
  let data ← foundNode cfg path (getNoScopeList m tokenContext)
  let shown ← printed data.nodeHandle (levelsOf depth)
  some (pathSegments (pathOf data.nodePath), shown)

def metadataText : Option (List GoString × Printed) → GoString
  | none => []
  | some (_, shown) => str "\x7b" ++ shown.text.dropLast ++ str "\x7d"

theorem Printed.text_ne_nil (p : Printed) : p.text ≠ [] := by
  have hend : str "\x7d," ≠ [] := by decide
  cases p <;> simp [Printed.text, hend]

theorem getLast?_ne_none {path : GoString} {searchData : List SearchData}
    (h : ¬ (searchData.length : ℤ) < countPathSegments path) : searchData.getLast? ≠ none := by
  rw [ne_eq, List.getLast?_eq_none_iff]
  intro hnil
  rw [hnil, countPathSegments, List.length_nil] at h
  omega

/-- The metadata text is the text of the nodes that are discovered. -/
theorem synthesizeJsonTree_discovered (cfg : Config) (m : Moment) (path : GoString) (depth : ℕ)
    (tokenContext : GoString) :
    synthesizeJsonTree cfg m path depth tokenContext =
      some (metadataText (discovered cfg m path depth tokenContext)) := by
  unfold synthesizeJsonTree discovered foundNode
  dsimp only
  split
  · rfl
  · next hcount =>
    obtain ⟨data, hlast⟩ := Option.ne_none_iff_exists'.mp (getLast?_ne_none hcount)
    have hlevels : (if depth = 0 then 100 else depth) = levelsOf depth := rfl
    simp only [hlast, Option.map_some, Option.bind_eq_bind, Option.bind_some, jsonifyTreeNode_eq,
      hlevels]
    cases printed data.nodeHandle (levelsOf depth) with
    | none => rfl
    | some shown => simp [metadataText, shown.text_ne_nil]

/-- No node that the metadata text shows is at or below a path that is listed as no_access for
the context of the client. -/
def RespectsNoAccess (sList : List ScopeElement) (cfg : Config) (m : Moment) (path : GoString)
    (depth : ℕ) (tokenContext : GoString) : Prop :=
  ∀ top shown, discovered cfg m path depth tokenContext = some (top, shown) →
    ∀ names, shown.Shows names → ∀ listed ∈ noAccessListed sList tokenContext,
      ¬ pathSegments listed <+: top ++ names

/-- No listed path leads to the node that is found without a list, or to a node on the way to
it, and none to a node that is printed below it. -/
def OutOfReach (sList : List ScopeElement) (cfg : Config) (path : GoString) (depth : ℕ)
    (tokenContext : GoString) : Prop :=
  ∀ data, foundNode cfg path [] = some data → data.nodeHandle.IsKnown →
    ∀ listed ∈ noAccessListed sList tokenContext,
      ¬ pathSegments listed <+: pathSegments (pathOf data.nodePath) ∧
      ∀ names, data.nodeHandle.Has names → names.length < levelsOf depth →
        pathSegments listed ≠ pathSegments (pathOf data.nodePath) ++ names

theorem Node.Has.isKnown {node : Node} {names : List GoString} (h : node.Has names) :
    node.IsKnown := by
  cases h <;> assumption

/-- The nodes of known types are closed under going up. -/
theorem Node.Has.of_append {front back : List GoString} {node : Node}
    (h : node.Has (front ++ back)) : node.Has front := by
  induction front generalizing node with
  | nil => exact .top h.isKnown
  | cons name front ih =>
    cases h with
    | under hknown hchild hhas => exact .under hknown hchild (ih hhas)

theorem levelsOf_pos (depth : ℕ) : 0 < levelsOf depth := by
  unfold levelsOf
  split <;> omega

/-- A listed path has a node of the tree at or below it exactly when it leads to the top or to
a node below it. -/
theorem below_listed_iff {node : Node} {listed top : List GoString} {levels : ℕ}
    (hpos : 0 < levels) (hknown : node.IsKnown) :
    (∃ names, node.Has names ∧ names.length < levels ∧ listed <+: top ++ names) ↔
      listed <+: top ∨ ∃ names, node.Has names ∧ names.length < levels ∧ listed = top ++ names := by
  constructor
  · intro h
    obtain ⟨names, hhas, hlength, hprefix⟩ := h
    rcases List.prefix_or_prefix_of_prefix hprefix (List.prefix_append top names) with
      htop | hdown
    · exact .inl htop
    · obtain ⟨front, rfl⟩ := hdown
      obtain ⟨back, rfl⟩ := (List.prefix_append_right_inj top).mp hprefix
      rw [List.length_append] at hlength
      exact .inr ⟨front, hhas.of_append, by omega, rfl⟩
  · rintro (htop | ⟨names, hhas, hlength, rfl⟩)
    · exact ⟨[], .top hknown, hpos, by simpa using htop⟩
    · exact ⟨names, hhas, hlength, List.prefix_rfl⟩

/-- The metadata text of a request is that of the nodes it shows, and it keeps to the scope
list exactly when no listed path leads to the node found without a list, to a node above it or
to a printed node below it. -/
theorem respectsNoAccess_iff (sList : List ScopeElement) (cfg : Config) (m : Moment)
    (listener : Listener) (answer : GoString → GoString) (path : GoString) (depth : ℕ)
    (tokenContext : GoString) :
    synthesizeJsonTree cfg (m.posting listener answer) path depth tokenContext =
      some (metadataText (discovered cfg (m.posting listener answer) path depth tokenContext)) ∧
    (RespectsNoAccess sList cfg (m.posting listener answer) path depth tokenContext ↔
      OutOfReach sList cfg path depth tokenContext) := by
  refine ⟨synthesizeJsonTree_discovered cfg _ path depth tokenContext, ?_⟩
  have hshown : ∀ top shown,
      discovered cfg (m.posting listener answer) path depth tokenContext = some (top, shown) ↔
      ∃ data, foundNode cfg path [] = some data ∧
        printed data.nodeHandle (levelsOf depth) = some shown ∧
        pathSegments (pathOf data.nodePath) = top := by
    intro top shown
    unfold discovered
    rw [getNoScopeList_posting]
    simp [Option.bind_eq_some_iff]
  constructor
  · intro h data hdata hknown listed hlisted
    have hnone : ¬ ∃ names, data.nodeHandle.Has names ∧ names.length < levelsOf depth ∧
        pathSegments listed <+: pathSegments (pathOf data.nodePath) ++ names := by
      rintro ⟨names, hhas, hlength, hprefix⟩
      obtain ⟨shown, hprinted, hshows⟩ := (shows_iff (levelsOf depth) data.nodeHandle names).mpr
        ⟨hhas, hlength⟩
      exact h _ shown ((hshown _ shown).mpr ⟨data, hdata, hprinted, rfl⟩) names hshows listed
        hlisted hprefix
    rw [below_listed_iff (levelsOf_pos depth) hknown, not_or] at hnone
    refine ⟨hnone.1, ?_⟩
    intro names hhas hlength heq
    exact hnone.2 ⟨names, hhas, hlength, heq⟩
  · intro h top shown hdiscovered names hshows listed hlisted hprefix
    obtain ⟨data, hdata, hprinted, rfl⟩ := (hshown top shown).mp hdiscovered
    obtain ⟨hhas, hlength⟩ := (shows_iff (levelsOf depth) data.nodeHandle names).mp
      ⟨shown, hprinted, hshows⟩
    obtain ⟨htop, hdown⟩ := h data hdata hhas.isKnown listed hlisted
    rcases (below_listed_iff (levelsOf_pos depth) hhas.isKnown).mp
      ⟨names, hhas, hlength, hprefix⟩ with hup | ⟨front, hfront, hshort, heq⟩
    · exact htop hup
    · exact hdown front hfront hshort heq

/-- A search that honours the list it is given. -/
def HonoursNoScope (cfg : Config) : Prop :=
  ∀ path anyDepth leafNodesOnly noScopeList,
    ∀ data ∈ (cfg.searchNodes path anyDepth leafNodesOnly noScopeList).1,
      ∀ listed ∈ noScopeList, ¬ pathSegments listed <+: pathSegments (pathOf data.nodePath)

def speedNode : Node := .mk (str "Speed") 1 (str "Vehicle speed.") (str "float") []

def vehicleNode : Node := .mk (str "Vehicle") 4 (str "The vehicle.") [] [speedNode]

/-- The tree of one signal, searched along the way to a path, but not in a listed part. -/
def speedTree : Config where
  searchNodes path _ _ noScopeList :=
    ([⟨str "Vehicle", vehicleNode⟩, ⟨str "Vehicle.Speed", speedNode⟩].filter fun data =>
      (pathSegments (pathOf data.nodePath)).isPrefixOf (pathSegments path) ∧
      ∀ listed ∈ noScopeList,
        ¬ pathSegments listed <+: pathSegments (pathOf data.nodePath), 0)

def speedMoment : Moment where
  rfcTime := []
  range members := members
  postReply _ := none
  atsReply _ := []

/-- The scope of the clients that give no token. -/
def speedScope : ScopeElement where
  context := [⟨[str "Undefined"], [str "Undefined"], [str "Undefined"]⟩]
  noAccess := [str "Vehicle.Speed"]

/-- A client without a token is given the metadata of a signal that its scope excludes, though
the search honours its list. -/
theorem excluded_signal_shown :
    HonoursNoScope speedTree ∧
    ¬ RespectsNoAccess [speedScope] speedTree
        (speedMoment.posting .plain fun _ =>
          str "\x7b\"action\":\"unknown\",\"status\":\"401-Bad request\"\x7d")
        (str "Vehicle.Speed") 2 (str "Undefined+Undefined+Undefined") := by
  constructor
  · intro path anyDepth leafNodesOnly noScopeList data hdata listed hlisted
    have hkept := (List.mem_filter.mp hdata).2
    rw [decide_eq_true_iff] at hkept
    exact hkept.2 listed hlisted
  · intro h
    refine h (pathSegments (str "Vehicle.Speed")) (.leaf speedNode) ?_ [] (.top _)
      (str "Vehicle.Speed") (by decide) (by decide)
    rw [discovered, getNoScopeList_posting]
    rfl

end VissServer.Core

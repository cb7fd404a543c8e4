import VissServer.Core.NoScope
import VissServer.Go.JsonTexts

/-!
The JSON value whose text is the metadata of a node, and the tree that is read from it. The text
ends a node with a comma, which is taken off again behind the last one of an object.
-/
namespace VissServer.Core

open Go Utils

/-! ## Trees -/

/-- A tree of the types that are printed, whose texts need no escapes. -/
inductive Node.Plain : Node → Prop
  | mk {node : Node} (hknown : node.IsKnown) (hname : IsLiteral node.name)
      (hdescr : IsLiteral node.descr) (hdatatype : IsLiteral node.datatype)
      (hdistinct : (node.children.map Node.name).Nodup)
      (hchildren : ∀ child ∈ node.children, Plain child) : Plain node

theorem Node.Plain.known {node : Node} (h : node.Plain) : node.IsKnown := by
  cases h with
  | mk hknown => exact hknown

theorem Node.Plain.literal {node : Node} (h : node.Plain) : IsLiteral node.name := by
  cases h with
  | mk _ hname => exact hname

/-- A branch has no datatype to be shown. -/
def Node.shownDatatype (node : Node) : GoString := if node.type = 4 then [] else node.datatype

/-- The tree with so many levels below its root. -/
def Node.cut (node : Node) : ℕ → Node
  | 0 => .mk node.name node.type node.descr node.shownDatatype []
  | below + 1 => .mk node.name node.type node.descr node.shownDatatype
      (node.children.map fun child => child.cut below)

def typeNamed (s : GoString) : Option ℤ :=
  if s = str "sensor" then some 1
  else if s = str "actuator" then some 2
  else if s = str "attribute" then some 3
  else if s = str "branch" then some 4
  else none

def stringMember (members : List (GoString × Json)) (k : GoString) : Option GoString :=
  (members.lookup k).bind asString

mutual

/-- The tree that a member of an object denotes. -/
def readNode (name : GoString) : Json → Option Node
  | .obj members => do
      let type ← (stringMember members (str "type")).bind typeNamed
      let descr ← stringMember members (str "description")
      let datatype := (stringMember members (str "datatype")).getD []
      some (.mk name type descr datatype (← readChildren members))
  | _ => none

def readChildren : List (GoString × Json) → Option (List Node)
  | [] => some []
  | (k, .obj below) :: members =>
      if k = str "children" then readNodes below else readChildren members
  | _ :: members => readChildren members

def readNodes : List (GoString × Json) → Option (List Node)
  | [] => some []
  | (name, j) :: members => do
      let node ← readNode name j
      some (node :: (← readNodes members))

end

/-- The tree of an object with one member. -/
def readTree : Json → Option Node
  | .obj [(name, j)] => readNode name j
  | _ => none

/-! ## The value -/

def Node.ownMembers (node : Node) : List (GoString × Json) :=
  [(str "type", .str (nodeTypesToString node.type)), (str "description", .str node.descr)] ++
    if node.type = 4 then [] else [(str "datatype", .str node.datatype)]

/-- The value of a node with so many levels below it. -/
def Node.json (node : Node) : ℕ → Json
  | 0 => .obj node.ownMembers
  | below + 1 => .obj (node.ownMembers ++
      if node.children = [] then []
      else [(str "children", .obj (node.children.map fun child => (child.name, child.json below)))])

section Texts

variable {node : Node} {members : List (GoString × Json)}

/-- The text of a member with a comma behind it. -/
def commaMember (p : GoString × Json) : GoString :=
  34 :: (p.1 ++ 34 :: 58 :: rawText [] p.2) ++ [44]

theorem flatten_commaMember (hne : members ≠ []) :
    (members.map commaMember).flatten = rawMembers [] members ++ [44] := by
  induction members with
  | nil => exact absurd rfl hne
  | cons p members ih =>
    by_cases hlast : members = []
    · subst hlast
      simp [commaMember, rawMembers]
    · rw [List.map_cons, List.flatten_cons, ih hlast, rawMembers_cons p.1 p.2 hlast]
      simp [commaMember]

theorem dropComma_quote (front : GoString) : dropComma (front ++ [34] ++ [44]) = front ++ [34] := by
  simp [dropComma]

theorem dropComma_brace (front : GoString) : dropComma (front ++ [125]) = front ++ [125] := by
  unfold dropComma
  rw [List.reverse_concat]
  cases hfront : front.reverse with
  | nil => rfl
  | cons d rest => simp

/-- The members of a node that are strings, the last of which ends with a quote. -/
theorem rawMembers_ownMembers (node : Node) : ∃ front, rawMembers [] node.ownMembers =
    front ++ [34] ∧ node.members = 34 :: (node.name ++ 34 :: 58 :: 123 :: (front ++ [34] ++ [44])) := by
  have hquote : str "\"" = [34] := rfl
  have hcomma : str "\"," = [34, 44] := rfl
  have hname : str "\":\x7b" = [34, 58, 123] := rfl
  have htype : str "\"type\":\"" = 34 :: (str "type" ++ [34, 58, 34]) := rfl
  have hdescr : str "\"description\":\"" = 34 :: (str "description" ++ [34, 58, 34]) := rfl
  have hdatatype : str "\"datatype\":\"" = 34 :: (str "datatype" ++ [34, 58, 34]) := rfl
  by_cases hbranch : node.type = 4
  · refine ⟨str "\"type\":\"" ++ nodeTypesToString node.type ++ str "\"," ++
      str "\"description\":\"" ++ node.descr, ?_, ?_⟩
    · simp [Node.ownMembers, hbranch, rawMembers, rawText, hcomma, htype, hdescr]
    · simp [Node.members, hbranch, hquote, hcomma, hname, htype, hdescr]
  · refine ⟨str "\"type\":\"" ++ nodeTypesToString node.type ++ str "\"," ++
      str "\"description\":\"" ++ node.descr ++ str "\"," ++
        str "\"datatype\":\"" ++ node.datatype, ?_, ?_⟩
    · simp [Node.ownMembers, hbranch, rawMembers, rawText, hcomma, htype, hdescr, hdatatype]
    · simp [Node.members, hbranch, hquote, hcomma, hname, htype, hdescr, hdatatype]

theorem jsonifyTreeNode_succ (hknown : node.IsKnown) (below : ℕ) :
    jsonifyTreeNode node [] (below + 1) = dropComma (node.members ++
      if below = 0 ∨ node.children = [] then []
      else (str "\"children\":\x7b" ++
        (node.children.map fun child => jsonifyTreeNode child [] below).flatten).dropLast ++
          str "\x7d") ++ str "\x7d," := by
  have htype : ¬ (node.type < 1 ∨ 4 < node.type) := by
    unfold Node.IsKnown at hknown
    omega
  rw [jsonifyTreeNode]
  simp only [htype, if_false, List.nil_append, Node.members, List.append_assoc]

theorem jsonifyTreeNode_leaf (hknown : node.IsKnown) {below : ℕ}
    (hleaf : below = 0 ∨ node.children = []) :
    jsonifyTreeNode node [] (below + 1) = commaMember (node.name, .obj node.ownMembers) := by
  obtain ⟨front, hown, hmembers⟩ := rawMembers_ownMembers node
  have hbrace : str "\x7d," = [125, 44] := rfl
  have hsplit : node.members =
      (34 :: (node.name ++ 34 :: 58 :: 123 :: front)) ++ [34] ++ [44] := by
    rw [hmembers]
    simp
  rw [jsonifyTreeNode_succ hknown, if_pos hleaf, List.append_nil, hsplit, dropComma_quote,
    commaMember, rawText, hown, hbrace]
  simp

/-- The members of an object behind those of another one. -/
theorem rawMembers_append (hne : members ≠ []) (p : GoString × Json) :
    rawMembers [] (members ++ [p]) = rawMembers [] members ++ 44 :: rawMembers [] [p] := by
  induction members with
  | nil => exact absurd rfl hne
  | cons q members ih =>
    by_cases hlast : members = []
    · subst hlast
      simp [rawMembers]
    · rw [List.cons_append, rawMembers_cons q.1 q.2 (by simp), ih hlast,
        rawMembers_cons q.1 q.2 hlast]
      simp

/-- The text of a node is that of its value, with a comma behind it. -/
theorem jsonifyTreeNode_json (hplain : node.Plain) (below : ℕ) :
    jsonifyTreeNode node [] (below + 1) = commaMember (node.name, node.json below) := by
  induction below generalizing node with
  | zero =>
    exact jsonifyTreeNode_leaf hplain.known (.inl rfl)
  | succ below ih =>
    obtain ⟨hknown, -, -, -, -, hchildren⟩ := hplain
    by_cases hnil : node.children = []
    · rw [jsonifyTreeNode_leaf hknown (.inr hnil), Node.json, if_pos hnil, List.append_nil]
    · obtain ⟨front, hown, hmembers⟩ := rawMembers_ownMembers node
      have htexts : (node.children.map fun child => jsonifyTreeNode child [] (below + 1)).flatten =
          rawMembers [] (node.children.map fun child => (child.name, child.json below)) ++ [44] := by
        rw [← flatten_commaMember (by simpa using hnil), List.map_map]
        exact congrArg List.flatten (List.map_congr_left fun child hchild =>
          ih (hchildren child hchild))
      have hbrace : str "\x7d," = [125, 44] := rfl
      have hend : str "\x7d" = [125] := rfl
      have hkey : str "\"children\":\x7b" = 34 :: (str "children" ++ [34, 58, 123]) := rfl
      have hdrop : ∀ s t : GoString, (s ++ (t ++ [44])).dropLast = s ++ t := fun s t => by
        rw [← List.append_assoc, List.dropLast_concat]
      rw [jsonifyTreeNode_succ hknown, if_neg (by simp [hnil]), htexts, hdrop, hend,
        ← List.append_assoc, dropComma_brace, Node.json, if_neg hnil, commaMember, rawText, rawMembers_append (by simp [Node.ownMembers]), hmembers, hown,
        hbrace, hkey]
      simp [rawMembers, rawText]

/-! ## Reading the value -/

theorem typeNamed_nodeTypesToString (hknown : node.IsKnown) :
    typeNamed (nodeTypesToString node.type) = some node.type ∧
      IsLiteral (nodeTypesToString node.type) := by
  obtain ⟨hlow, hhigh⟩ := hknown
  have htype : node.type = 1 ∨ node.type = 2 ∨ node.type = 3 ∨ node.type = 4 := by omega
  rcases htype with h | h | h | h
  · rw [h]
    exact ⟨rfl, isLiteral_of_all (by decide)⟩
  · rw [h]
    exact ⟨rfl, isLiteral_of_all (by decide)⟩
  · rw [h]
    exact ⟨rfl, isLiteral_of_all (by decide)⟩
  · rw [h]
    exact ⟨rfl, isLiteral_of_all (by decide)⟩

theorem textual_str (depth : ℕ) (s : GoString) : Textual depth (.str s) := by
  cases depth <;> trivial

theorem literal_str (depth : ℕ) (s : GoString) : Literal depth (.str s) ↔ IsLiteral s := by
  cases depth <;> rfl

theorem names_ownMembers (node : Node) : node.ownMembers.map Prod.fst =
    [str "type", str "description"] ++ if node.type = 4 then [] else [str "datatype"] := by
  unfold Node.ownMembers
  split <;> rfl

theorem mem_ownMembers (hplain : node.Plain) {p : GoString × Json} (hp : p ∈ node.ownMembers) :
    IsLiteral p.1 ∧ ∃ s, p.2 = .str s ∧ IsLiteral s := by
  obtain ⟨hknown, -, hdescr, hdatatype⟩ := hplain
  rw [Node.ownMembers, List.mem_append, List.mem_cons, List.mem_singleton] at hp
  rcases hp with (rfl | rfl) | hp
  · exact ⟨isLiteral_of_all rfl, _, rfl, (typeNamed_nodeTypesToString hknown).2⟩
  · exact ⟨isLiteral_of_all rfl, _, rfl, hdescr⟩
  · split at hp
    · exact absurd hp List.not_mem_nil
    · obtain rfl := List.mem_singleton.mp hp
      exact ⟨isLiteral_of_all rfl, _, rfl, hdatatype⟩

/-- The strings of a node, and one more member, in an object. -/
theorem textual_ownMembers (hplain : node.Plain) {depth : ℕ} {more : List (GoString × Json)}
    (hmore : more = [] ∨ ∃ v, more = [(str "children", v)] ∧ Textual depth v ∧ Literal depth v) :
    Textual (depth + 1) (.obj (node.ownMembers ++ more)) ∧
      Literal (depth + 1) (.obj (node.ownMembers ++ more)) := by
  have hown := fun p hp => @mem_ownMembers node hplain p hp
  refine ⟨⟨?_, ?_⟩, ?_⟩
  · rw [List.map_append, names_ownMembers]
    rcases hmore with rfl | ⟨v, rfl, -, -⟩
    · split <;> decide
    · rw [List.map_singleton]
      dsimp only
      split <;> decide
  · intro p hp
    rcases List.mem_append.mp hp with hp | hp
    · obtain ⟨hname, s, hs, -⟩ := hown p hp
      exact ⟨hname, .inr (hs ▸ textual_str depth s)⟩
    · rcases hmore with rfl | ⟨v, rfl, htextual, -⟩
      · exact absurd hp List.not_mem_nil
      · obtain rfl := List.mem_singleton.mp hp
        exact ⟨isLiteral_of_all rfl, .inr htextual⟩
  · intro p hp
    rcases List.mem_append.mp hp with hp | hp
    · obtain ⟨-, s, hs, hliteral⟩ := hown p hp
      exact hs ▸ (literal_str depth s).mpr hliteral
    · rcases hmore with rfl | ⟨v, rfl, -, hliteral⟩
      · exact absurd hp List.not_mem_nil
      · obtain rfl := List.mem_singleton.mp hp
        exact hliteral

theorem textual_json (hplain : node.Plain) (below : ℕ) :
    Textual (2 * below + 1) (node.json below) ∧ Literal (2 * below + 1) (node.json below) := by
  induction below generalizing node with
  | zero =>
    rw [Node.json, ← List.append_nil node.ownMembers]
    exact textual_ownMembers hplain (.inl rfl)
  | succ below ih =>
    rw [Node.json]
    refine textual_ownMembers hplain ?_
    obtain ⟨-, -, -, -, hdistinct, hchildren⟩ := hplain
    by_cases hnil : node.children = []
    · exact .inl (if_pos hnil)
    · refine .inr ⟨_, if_neg hnil, ⟨?_, ?_⟩, ?_⟩
      · rw [List.map_map]
        exact hdistinct
      · intro p hp
        obtain ⟨child, hchild, rfl⟩ := List.mem_map.mp hp
        exact ⟨(hchildren child hchild).literal, .inr (ih (hchildren child hchild)).1⟩
      · intro p hp
        obtain ⟨child, hchild, rfl⟩ := List.mem_map.mp hp
        exact (ih (hchildren child hchild)).2

/-- What is read of the strings of a node. -/
theorem readNode_ownMembers (hknown : node.IsKnown) {more : List (GoString × Json)}
    {children : List Node} (hmore : more.lookup (str "datatype") = none)
    (hchildren : readChildren more = some children) :
    readNode node.name (.obj (node.ownMembers ++ more)) =
      some (.mk node.name node.type node.descr node.shownDatatype children) := by
  have htype : stringMember (node.ownMembers ++ more) (str "type") =
      some (nodeTypesToString node.type) := rfl
  have hdescr : stringMember (node.ownMembers ++ more) (str "description") =
      some node.descr := rfl
  have hdatatype : (stringMember (node.ownMembers ++ more) (str "datatype")).getD [] =
      node.shownDatatype := by
    rw [Node.shownDatatype, stringMember, List.lookup_append, hmore, Node.ownMembers]
    split <;> rfl
  have hbelow : readChildren (node.ownMembers ++ more) = some children := by
    rw [← hchildren, Node.ownMembers]
    split <;> rfl
  rw [readNode, htype, hdescr, hbelow, hdatatype, Option.bind_some,
    (typeNamed_nodeTypesToString hknown).1]
  rfl

/-- The tree that is read is the one that was printed, without what is cut off. -/
theorem readNode_json (hplain : node.Plain) (below : ℕ) :
    readNode node.name (node.json below) = some (node.cut below) := by
  induction below generalizing node with
  | zero =>
    rw [Node.json, ← List.append_nil node.ownMembers]
    exact readNode_ownMembers hplain.known rfl rfl
  | succ below ih =>
    obtain ⟨hknown, -, -, -, -, hchildren⟩ := hplain
    have hread : ∀ children : List Node, (∀ child ∈ children, child.Plain) →
        readNodes (children.map fun child => (child.name, child.json below)) =
          some (children.map fun child => child.cut below) := by
      intro children hplain
      induction children with
      | nil => rfl
      | cons child children ihc =>
        obtain ⟨hchild, hrest⟩ := List.forall_mem_cons.mp hplain
        rw [List.map_cons, readNodes, ih hchild, ihc hrest]
        rfl
    rw [Node.json, Node.cut]
    by_cases hnil : node.children = []
    · rw [if_pos hnil, hnil]
      exact readNode_ownMembers hknown rfl rfl
    · rw [if_neg hnil]
      refine readNode_ownMembers hknown rfl ?_
      rw [readChildren, if_pos rfl]
      exact hread node.children hchildren

end Texts

/-- A metadata text is the JSON text, with different names in each object, of the tree of the
node that is found, without what is below the given depth. -/
theorem metadata_tree (cfg : Config) (m : Moment) (path : GoString) (depth : ℕ)
    (tokenContext : GoString) (data : SearchData)
    (hfound : foundNode cfg path (getNoScopeList m tokenContext) = some data)
    (hplain : data.nodeHandle.Plain) :
    ∃ text value, synthesizeJsonTree cfg m path depth tokenContext = some text ∧
      Textual (2 * levelsOf depth) value ∧
      (∀ nesting ≥ 2 * levelsOf depth, parseValue nesting text = some (value, [])) ∧
      readTree value = some (data.nodeHandle.cut (levelsOf depth - 1)) := by
  obtain ⟨below, hbelow⟩ : ∃ below, levelsOf depth = below + 1 := by
    refine ⟨levelsOf depth - 1, ?_⟩
    unfold levelsOf
    split <;> omega
  obtain ⟨htextual, hliteral⟩ := textual_json hplain below
  generalize hvalue : Json.obj [(data.nodeHandle.name, data.nodeHandle.json below)] = value
  have hroot : Textual (2 * (below + 1)) value ∧ Literal (2 * (below + 1)) value := by
    subst hvalue
    refine ⟨⟨by simp, ?_⟩, ?_⟩
    · intro p hp
      obtain rfl := List.mem_singleton.mp hp
      exact ⟨hplain.literal, .inr htextual⟩
    · intro p hp
      obtain rfl := List.mem_singleton.mp hp
      exact hliteral
  rw [hbelow]
  refine ⟨rawText [] value, value, ?_, hroot.1, ?_, ?_⟩
  · have hnode : jsonifyTreeNode data.nodeHandle [] (below + 1) =
        34 :: (data.nodeHandle.name ++ 34 :: 58 ::
          rawText [] (data.nodeHandle.json below)) ++ [44] := jsonifyTreeNode_json hplain below
    have hlevels : (if depth = 0 then 100 else depth) = below + 1 := hbelow
    unfold foundNode at hfound
    dsimp only at hfound
    split at hfound
    · cases hfound
    · next hcount =>
      unfold synthesizeJsonTree
      dsimp only
      rw [if_neg hcount, hfound, Option.map_some, hlevels, hnode, List.dropLast_concat,
        if_neg (by simp), ← hvalue]
      rfl
  · intro nesting hnesting
    obtain ⟨hdeep, hiff⟩ := hroot.1.mono hnesting
    have hparse := @parseValue_raw [] _ _ (by simp) hdeep (hiff.mpr hroot.2) []
    rwa [List.append_nil] at hparse
  · subst hvalue
    exact readNode_json hplain below

theorem vehicleNode_plain : vehicleNode.Plain := by
  have hspeed : speedNode.Plain :=
    .mk (by decide) (isLiteral_of_all rfl) (isLiteral_of_all rfl) (isLiteral_of_all rfl)
      .nil (by simp [speedNode, Node.children])
  refine .mk (by decide) (isLiteral_of_all rfl) (isLiteral_of_all rfl) (isLiteral_of_all rfl)
    (by decide) ?_
  intro child hchild
  obtain rfl := List.mem_singleton.mp hchild
  exact hspeed

/-- The branch and its signal, which is the last level of two. -/
theorem metadata_tree_vehicle : ∃ text value,
    synthesizeJsonTree speedTree speedMoment (str "Vehicle") 2 [] = some text ∧
      Textual (2 * levelsOf 2) value ∧
      (∀ nesting ≥ 2 * levelsOf 2, parseValue nesting text = some (value, [])) ∧
      readTree value = some (vehicleNode.cut (levelsOf 2 - 1)) :=
  metadata_tree speedTree speedMoment (str "Vehicle") 2 []
    ⟨str "Vehicle", vehicleNode⟩ rfl vehicleNode_plain

end VissServer.Core

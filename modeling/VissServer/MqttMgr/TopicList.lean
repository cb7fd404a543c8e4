import VissServer.Go.Strings
import VissServer.Library.LinkedCells

/-!
The topics that the MQTT manager remembers for its requests, a linked list with its length
(mqttMgr.go), and the map from ids to topics that it stands for.
-/
namespace VissServer.MqttMgr

open Go LinkedCells

structure NodeValue where
  topicId : ℤ
  topic : GoString
  deriving DecidableEq

/-- The list with the nodes that were allocated, those that were left out as well. -/
structure TopicList where
  heap : Memory NodeValue := []
  head : Option ℕ := none
  nodes : ℕ := 0

/-- The node behind a pointer; a nil pointer panics. -/
def deref (heap : Memory NodeValue) (pointer : Option ℕ) : MayPanic (Cell NodeValue) := do
  let address ← pointer
  heap[address]?

/-- The assignment pointer.next = next. -/
def setNext (heap : Memory NodeValue) (pointer next : Option ℕ) : MayPanic (Memory NodeValue) := do
  let address ← pointer
  let node ← heap[address]?
  some (heap.set address { node with next })

/-! ## The operations -/

/-- The loop of getTopic, with as many steps as it has left. -/
def getTopicFrom (heap : Memory NodeValue) (topicId : ℤ) : ℕ → Option ℕ → MayPanic GoString
  | 0, _ => some []
  | steps + 1, iterator => do
      let node ← deref heap iterator
      if node.value.topicId = topicId then some node.value.topic
      else getTopicFrom heap topicId steps node.next

def getTopic (list : TopicList) (topicId : ℤ) : MayPanic GoString :=
  getTopicFrom list.heap topicId list.nodes list.head

/-- The loop of pushTopic. -/
def linkFrom (heap : Memory NodeValue) (newNode : ℕ) :
    ℕ → Option ℕ → MayPanic (Memory NodeValue)
  | 0, _ => some heap
  | steps + 1, iterator => do
      let node ← deref heap iterator
      if node.next = none then setNext heap iterator (some newNode)
      else linkFrom heap newNode steps node.next

def pushTopic (list : TopicList) (topic : GoString) (topicId : ℤ) : MayPanic TopicList :=
  let newNode := list.heap.length
  let heap := list.heap ++ [{ value := { topicId, topic }, next := none }]
  if list.nodes = 0 then some { heap, head := some newNode, nodes := list.nodes + 1 }
  else do
    let heap ← linkFrom heap newNode list.nodes list.head
    some { heap, head := list.head, nodes := list.nodes + 1 }

/-- The part of popTopic that looks at the head. -/
def popHead (list : TopicList) (topicId : ℤ) : MayPanic TopicList :=
  if list.nodes > 0 then do
    let node ← deref list.heap list.head
    if node.value.topicId = topicId then
      some { list with
        head := if list.nodes > 1 then node.next else none
        nodes := list.nodes - 1 }
    else some list
  else some list

/-- The loop of popTopic: how far it comes, the node before and the node where it stops. -/
def findFrom (heap : Memory NodeValue) (topicId : ℤ) :
    ℕ → ℕ → Option ℕ → Option ℕ → MayPanic (ℕ × Option ℕ × Option ℕ)
  | 0, i, previousNode, iterator => some (i, previousNode, iterator)
  | steps + 1, i, previousNode, iterator => do
      let node ← deref heap iterator
      if node.value.topicId = topicId then some (i, previousNode, iterator)
      else findFrom heap topicId steps (i + 1) iterator node.next

def popTopic (list : TopicList) (topicId : ℤ) : MayPanic TopicList := do
  let list ← popHead list topicId
  let (i, previousNode, iterator) ← findFrom list.heap topicId list.nodes 0 none list.head
  if i = list.nodes then some list
  else
    let node ← deref list.heap iterator
    let heap ← setNext list.heap previousNode node.next
    some { list with heap, nodes := list.nodes - 1 }

inductive Op
  | push (topic : GoString) (topicId : ℤ)
  | pop (topicId : ℤ)
  | get (topicId : ℤ)
  deriving DecidableEq

/-- An operation, with the topic that it returns if it is a getTopic. -/
def step (list : TopicList) : Op → MayPanic (TopicList × List GoString)
  | .push topic topicId => (pushTopic list topic topicId).map fun list => (list, [])
  | .pop topicId => (popTopic list topicId).map fun list => (list, [])
  | .get topicId => (getTopic list topicId).map fun topic => (list, [topic])

def run (list : TopicList) : List Op → MayPanic (TopicList × List GoString)
  | [] => some (list, [])
  | op :: ops => do
      let (list, topics) ← step list op
      let (list, more) ← run list ops
      some (list, topics ++ more)

/-! ## The map -/

/-- The topic that was pushed with an id and not popped since; the latest operation comes first. -/
def held (topicId : ℤ) : List Op → Option GoString
  | [] => none
  | .push topic id :: past => if id = topicId then some topic else held topicId past
  | .pop id :: past => if id = topicId then none else held topicId past
  | .get _ :: past => held topicId past

/-- What the calls of getTopic return, behind the operations of the past. -/
def answers : List Op → List Op → List GoString
  | _, [] => []
  | past, .get topicId :: ops => (held topicId past).getD [] :: answers (.get topicId :: past) ops
  | past, op :: ops => answers (op :: past) ops

/-- The entries of the map, the oldest one first. -/
def after (entries : List NodeValue) : Op → List NodeValue
  | .push topic topicId => entries ++ [{ topicId, topic }]
  | .pop topicId => entries.filter fun entry => entry.topicId ≠ topicId
  | .get _ => entries

def entriesOf (ops : List Op) : List NodeValue := ops.foldl after []

/-- The next push of an id comes behind a pop of it. -/
def popsFirst (topicId : ℤ) : List Op → Bool
  | [] => true
  | .push _ id :: ops => id ≠ topicId && popsFirst topicId ops
  | .pop id :: ops => id = topicId || popsFirst topicId ops
  | .get _ :: ops => popsFirst topicId ops

/-- An id is pushed again only when it was popped. -/
def distinctIds : List Op → Bool
  | [] => true
  | .push _ topicId :: ops => popsFirst topicId ops && distinctIds ops
  | _ :: ops => distinctIds ops

/-- The linked nodes are the entries, in their order, and they are counted. -/
structure TopicList.Represents (list : TopicList) (entries : List NodeValue) : Prop where
  linked : ∃ cells, Chain list.heap list.head cells none ∧ (cells.map Prod.fst).Nodup ∧
    cells.map Prod.snd = entries
  counted : list.nodes = entries.length

/-! ## The loops -/

section Loops

variable {heap : Memory NodeValue} {start : Option ℕ} {cells front back : List (ℕ × NodeValue)}
  {topicId : ℤ}

theorem deref_cell {a : ℕ} {v : NodeValue} {next : Option ℕ} (h : heap[a]? = some ⟨v, next⟩) :
    deref heap (some a) = some ⟨v, next⟩ := h

/-- The topic of the first entry with an id. -/
def lookup (entries : List NodeValue) (topicId : ℤ) : Option GoString :=
  (entries.find? fun entry => entry.topicId = topicId).map NodeValue.topic

theorem getTopicFrom_chain (h : Chain heap start cells none) (topicId : ℤ) :
    getTopicFrom heap topicId cells.length start =
      some ((lookup (cells.map Prod.snd) topicId).getD []) := by
  induction cells generalizing start with
  | nil => rfl
  | cons cell cells ih =>
    obtain ⟨a, v⟩ := cell
    obtain ⟨rfl, next, hcell, hrest⟩ := h
    rw [List.length_cons, getTopicFrom, deref_cell hcell]
    simp only [Option.bind_eq_bind, Option.bind_some, lookup, List.map_cons, List.find?_cons]
    by_cases hid : v.topicId = topicId
    · simp [hid]
    · rw [if_neg hid, ih hrest, lookup]
      simp [hid]

/-- The last node is made to point to the new one. -/
theorem linkFrom_chain {a : ℕ} {v : NodeValue} (h : Chain heap start (front ++ [(a, v)]) none)
    (newNode : ℕ) :
    linkFrom heap newNode (front ++ [(a, v)]).length start =
      some (heap.set a ⟨v, some newNode⟩) := by
  induction front generalizing start with
  | nil =>
    obtain ⟨rfl, next, hcell, rfl⟩ := h
    rw [List.nil_append, List.length_singleton, linkFrom, deref_cell hcell]
    simp [setNext, hcell]
  | cons cell front ih =>
    obtain ⟨b, w⟩ := cell
    obtain ⟨rfl, next, hcell, hrest⟩ := h
    have hnext : next ≠ none := by
      rintro rfl
      cases front with
      | nil => cases hrest.1
      | cons _ _ => cases hrest.1
    rw [List.cons_append, List.length_cons, linkFrom, deref_cell hcell]
    simp only [Option.bind_eq_bind, Option.bind_some]
    rw [if_neg hnext, ih hrest]

theorem findFrom_absent (h : Chain heap start cells none)
    (hid : ∀ v ∈ cells.map Prod.snd, v.topicId ≠ topicId) (i : ℕ) (previousNode : Option ℕ) :
    ∃ last, findFrom heap topicId cells.length i previousNode start =
      some (i + cells.length, last, none) := by
  induction cells generalizing start i previousNode with
  | nil => exact ⟨previousNode, by rw [show start = none from h]; rfl⟩
  | cons cell cells ih =>
    obtain ⟨a, v⟩ := cell
    obtain ⟨rfl, next, hcell, hrest⟩ := h
    obtain ⟨hne, hid⟩ := List.forall_mem_cons.mp hid
    obtain ⟨last, hlast⟩ := ih hrest hid (i + 1) (some a)
    refine ⟨last, ?_⟩
    rw [List.length_cons, findFrom, deref_cell hcell]
    simp only [Option.bind_eq_bind, Option.bind_some]
    rw [if_neg hne, hlast, Nat.add_right_comm, Nat.add_assoc]

/-- The loop stops at the first node with the id, behind the node before it. -/
theorem findFrom_found {a b : ℕ} {v w : NodeValue}
    (h : Chain heap start (front ++ (a, v) :: (b, w) :: back) none)
    (hfront : ∀ u ∈ front.map Prod.snd, u.topicId ≠ topicId) (hv : v.topicId ≠ topicId)
    (hw : w.topicId = topicId) (i : ℕ) (previousNode : Option ℕ) :
    findFrom heap topicId (front ++ (a, v) :: (b, w) :: back).length i previousNode start =
      some (i + (front.length + 1), some a, some b) := by
  induction front generalizing start i previousNode with
  | nil =>
    obtain ⟨rfl, next, hcell, rfl, next', hcell', -⟩ := h
    rw [List.nil_append, List.length_cons, findFrom, deref_cell hcell]
    simp only [Option.bind_eq_bind, Option.bind_some]
    rw [if_neg hv, List.length_cons, findFrom, deref_cell hcell']
    simp only [Option.bind_eq_bind, Option.bind_some]
    rw [if_pos hw]
    rfl
  | cons cell front ih =>
    obtain ⟨c, u⟩ := cell
    obtain ⟨rfl, next, hcell, hrest⟩ := h
    obtain ⟨hne, hfront⟩ := List.forall_mem_cons.mp hfront
    rw [List.cons_append, List.length_cons, findFrom, deref_cell hcell]
    simp only [Option.bind_eq_bind, Option.bind_some]
    rw [if_neg hne, ih hrest hfront, List.length_cons, Nat.add_right_comm, Nat.add_assoc]

end Loops

/-! ## Refinement -/

section Refinement

variable {list : TopicList} {entries : List NodeValue}

theorem represents_empty : TopicList.Represents {} [] := ⟨⟨[], rfl, .nil, rfl⟩, rfl⟩

theorem TopicList.Represents.getTopic (h : list.Represents entries) (topicId : ℤ) :
    getTopic list topicId = some ((lookup entries topicId).getD []) := by
  obtain ⟨⟨cells, hchain, -, rfl⟩, hcounted⟩ := h
  rw [List.length_map] at hcounted
  rw [MqttMgr.getTopic, hcounted]
  exact getTopicFrom_chain hchain topicId

theorem TopicList.Represents.pushTopic (h : list.Represents entries) (topic : GoString)
    (topicId : ℤ) :
    ∃ list', pushTopic list topic topicId = some list' ∧
      list'.Represents (entries ++ [⟨topicId, topic⟩]) := by
  obtain ⟨⟨cells, hchain, hnodup, rfl⟩, hcounted⟩ := h
  let entry : NodeValue := { topicId, topic }
  let heap := list.heap ++ [{ value := entry, next := none }]
  have hnew : heap[list.heap.length]? = some ⟨entry, none⟩ := List.getElem?_concat_length
  rw [List.length_map] at hcounted
  have hcounted' : list.nodes + 1 = (cells.map Prod.snd ++ [entry]).length := by
    rw [List.length_append, List.length_map, hcounted]
    rfl
  rcases List.eq_nil_or_concat' cells with rfl | ⟨front, ⟨a, v⟩, rfl⟩
  · refine ⟨{ heap, head := some list.heap.length, nodes := list.nodes + 1 }, if_pos hcounted, ?_,
      hcounted'⟩
    exact ⟨[(list.heap.length, entry)], ⟨rfl, none, hnew, rfl⟩, List.nodup_singleton _, rfl⟩
  · have hfresh : ∀ b ∈ (front ++ [(a, v)]).map Prod.fst, b ≠ list.heap.length :=
      fun b hb => (hchain.lt_length b hb).ne
    have hlast : a ∉ front.map Prod.fst := by
      rw [List.map_append, List.nodup_append] at hnodup
      exact fun hmem => hnodup.2.2 a hmem a (by simp) rfl
    have hlink := linkFrom_chain (hchain.allocate [{ value := entry, next := none }])
      list.heap.length
    have hne : a ≠ list.heap.length := hfresh a (by simp)
    refine ⟨{ heap := heap.set a ⟨v, some list.heap.length⟩, head := list.head,
              nodes := list.nodes + 1 }, ?_, ?_, hcounted'⟩
    · rw [← hcounted] at hlink
      rw [MqttMgr.pushTopic, if_neg (by rw [hcounted, List.length_append]; exact Nat.succ_ne_zero _),
        hlink]
      rfl
    · refine ⟨front ++ [(a, v)] ++ [(list.heap.length, entry)], ?_, ?_, by simp [entry]⟩
      · refine chain_concat.mpr ⟨(hchain.allocate _).relink hlast _, ?_⟩
        rw [List.getElem?_set_ne hne, hnew]
      · rw [List.map_append, List.nodup_append]
        refine ⟨hnodup, List.nodup_singleton _, ?_⟩
        intro b hb c hc
        rw [List.mem_singleton.mp hc]
        exact hfresh b hb

/-- The head is left alone where it does not have the id. -/
theorem popHead_other {cells : List (ℕ × NodeValue)} {topicId : ℤ}
    (hchain : Chain list.heap list.head cells none) (hcounted : list.nodes = cells.length)
    (hother : ∀ cell ∈ cells.head?, cell.2.topicId ≠ topicId) : popHead list topicId = some list := by
  cases cells with
  | nil => exact if_neg (by rw [hcounted]; exact Nat.lt_irrefl 0)
  | cons cell cells =>
    obtain ⟨a, v⟩ := cell
    obtain ⟨hhead, next, hcell, -⟩ := hchain
    have hne : v.topicId ≠ topicId := hother (a, v) rfl
    rw [popHead, if_pos (by rw [hcounted]; exact Nat.succ_pos _), hhead, deref_cell hcell]
    exact if_neg hne

/-- Behind the head an id that is in no node is searched for in vain. -/
theorem popTopic_of_popHead {list' : TopicList} {cells : List (ℕ × NodeValue)} {topicId : ℤ}
    (hpop : popHead list topicId = some list') (hchain : Chain list'.heap list'.head cells none)
    (hcounted : list'.nodes = cells.length)
    (habsent : ∀ v ∈ cells.map Prod.snd, v.topicId ≠ topicId) :
    popTopic list topicId = some list' := by
  obtain ⟨last, hlast⟩ := findFrom_absent hchain habsent 0 none
  rw [popTopic, hpop]
  simp only [Option.bind_eq_bind, Option.bind_some]
  rw [hcounted, hlast]
  simp

/-- A head with the id is left out. -/
theorem popHead_found {a : ℕ} {v : NodeValue} {cells : List (ℕ × NodeValue)} {topicId : ℤ}
    (hchain : Chain list.heap list.head ((a, v) :: cells) none)
    (hcounted : list.nodes = ((a, v) :: cells).length) (hv : v.topicId = topicId) :
    ∃ list', popHead list topicId = some list' ∧ Chain list'.heap list'.head cells none ∧
      list'.nodes = cells.length := by
  obtain ⟨hhead, next, hcell, hrest⟩ := hchain
  rw [List.length_cons] at hcounted
  have hnext : (if list.nodes > 1 then next else none) = next := by
    split
    · rfl
    · next hone =>
      have hnil : cells = [] := List.length_eq_zero_iff.mp (by omega)
      subst hnil
      exact hrest.symm
  refine ⟨{ list with head := next, nodes := list.nodes - 1 }, ?_, hrest, by
    dsimp only; omega⟩
  rw [popHead, if_pos (by omega), hhead, deref_cell hcell]
  simp only [Option.bind_eq_bind, Option.bind_some]
  rw [if_pos hv, hnext]

theorem popTopic_found {a b : ℕ} {v w : NodeValue} {front back : List (ℕ × NodeValue)}
    {topicId : ℤ} (hchain : Chain list.heap list.head (front ++ (a, v) :: (b, w) :: back) none)
    (hnodup : ((front ++ (a, v) :: (b, w) :: back).map Prod.fst).Nodup)
    (hcounted : list.nodes = (front ++ (a, v) :: (b, w) :: back).length)
    (hfront : ∀ u ∈ front.map Prod.snd, u.topicId ≠ topicId) (hv : v.topicId ≠ topicId)
    (hw : w.topicId = topicId) :
    ∃ list', popTopic list topicId = some list' ∧
      Chain list'.heap list'.head (front ++ (a, v) :: back) none ∧
        list'.nodes = (front ++ (a, v) :: back).length := by
  have hhead : popHead list topicId = some list := by
    refine popHead_other hchain hcounted fun cell hcell => ?_
    cases front with
    | nil =>
      obtain rfl := Option.some.inj hcell
      exact hv
    | cons first front =>
      obtain rfl := Option.some.inj hcell
      exact hfront _ List.mem_cons_self
  obtain ⟨hprevious, next, hnext, hunlinked⟩ := hchain.unlink hnodup
  have hfound := findFrom_found hchain hfront hv hw 0 none
  rw [← hcounted, Nat.zero_add] at hfound
  have hlength : list.nodes = front.length + 1 + (back.length + 1) := by
    rw [hcounted, List.length_append, List.length_cons, List.length_cons]
    omega
  refine ⟨{ list with heap := list.heap.set a ⟨v, next⟩, nodes := list.nodes - 1 }, ?_, hunlinked,
    ?_⟩
  · rw [popTopic, hhead]
    simp only [Option.bind_eq_bind, Option.bind_some]
    rw [hfound]
    simp only [Option.bind_some]
    rw [if_neg (by omega), deref_cell hnext]
    simp [setNext, hprevious]
  · dsimp only
    rw [List.length_append, List.length_cons]
    omega

/-- Where the ids differ, one entry is left out. -/
theorem filter_found {front back : List NodeValue} {w : NodeValue} {topicId : ℤ}
    (hids : ((front ++ w :: back).map NodeValue.topicId).Nodup) (hw : w.topicId = topicId) :
    (∀ v ∈ front, v.topicId ≠ topicId) ∧ (∀ v ∈ back, v.topicId ≠ topicId) ∧
      (front ++ w :: back).filter (fun entry => entry.topicId ≠ topicId) = front ++ back := by
  rw [List.map_append, List.map_cons, List.nodup_append, List.nodup_cons] at hids
  obtain ⟨-, ⟨hback, -⟩, hdisjoint⟩ := hids
  subst hw
  have hfront : ∀ v ∈ front, v.topicId ≠ w.topicId := fun v hv =>
    hdisjoint _ (List.mem_map_of_mem hv) _ List.mem_cons_self
  have hback : ∀ v ∈ back, v.topicId ≠ w.topicId := by
    intro v hv heq
    exact hback (heq ▸ List.mem_map_of_mem hv)
  refine ⟨hfront, hback, ?_⟩
  rw [List.filter_append, List.filter_cons_of_neg (by simp),
    List.filter_eq_self.mpr fun v hv => by simpa using hfront v hv,
    List.filter_eq_self.mpr fun v hv => by simpa using hback v hv]

theorem TopicList.Represents.popTopic (h : list.Represents entries)
    (hids : (entries.map NodeValue.topicId).Nodup) (topicId : ℤ) :
    ∃ list', popTopic list topicId = some list' ∧
      list'.Represents (entries.filter fun entry => entry.topicId ≠ topicId) := by
  obtain ⟨⟨cells, hchain, hnodup, rfl⟩, hcounted⟩ := h
  rw [List.length_map] at hcounted
  by_cases hmem : ∃ v ∈ cells.map Prod.snd, v.topicId = topicId
  · obtain ⟨v, hv, hid⟩ := hmem
    obtain ⟨⟨b, w⟩, hcell, rfl⟩ := List.mem_map.mp hv
    obtain ⟨front, back, rfl⟩ := List.append_of_mem hcell
    rw [List.map_append, List.map_cons] at hids
    obtain ⟨hfront, hback, hfilter⟩ := filter_found hids hid
    rw [List.map_append, List.map_cons, hfilter, ← List.map_append]
    rcases List.eq_nil_or_concat' front with rfl | ⟨front, ⟨a, u⟩, rfl⟩
    · obtain ⟨list', hpop, hchain', hcounted'⟩ := popHead_found hchain hcounted hid
      refine ⟨list', popTopic_of_popHead hpop hchain' hcounted' hback, ⟨back, hchain', ?_, rfl⟩, ?_⟩
      · exact (List.nodup_cons.mp hnodup).2
      · rw [hcounted', List.nil_append, List.length_map]
    · have hsplit : front ++ [(a, u)] ++ (b, w) :: back = front ++ (a, u) :: (b, w) :: back := by
        simp
      have hjoin : front ++ [(a, u)] ++ back = front ++ (a, u) :: back := by simp
      rw [List.map_append, List.forall_mem_append] at hfront
      rw [hsplit] at hchain hnodup hcounted
      obtain ⟨list', hpop, hchain', hcounted'⟩ := popTopic_found hchain hnodup hcounted hfront.1
        (hfront.2 u List.mem_cons_self) hid
      rw [hjoin]
      refine ⟨list', hpop, ⟨_, hchain', ?_, rfl⟩, by rw [hcounted', List.length_map]⟩
      refine hnodup.sublist (List.Sublist.map _ ?_)
      exact (List.Sublist.refl front).append ((List.sublist_cons_self (b, w) back).cons_cons (a, u))
  · have habsent : ∀ v ∈ cells.map Prod.snd, v.topicId ≠ topicId := fun v hv heq =>
      hmem ⟨v, hv, heq⟩
    have hhead : popHead list topicId = some list := by
      refine popHead_other hchain hcounted fun cell hcell => ?_
      exact habsent _ (List.mem_map_of_mem (List.mem_of_mem_head? hcell))
    have hfilter : (cells.map Prod.snd).filter (fun entry => entry.topicId ≠ topicId) =
        cells.map Prod.snd := List.filter_eq_self.mpr fun v hv => by simpa using habsent v hv
    rw [hfilter]
    exact ⟨list, popTopic_of_popHead hhead hchain hcounted habsent, ⟨cells, hchain, hnodup, rfl⟩,
      by rw [hcounted, List.length_map]⟩

/-- The entries are the topics that are held, each with an id of its own. -/
structure Tracks (past : List Op) (entries : List NodeValue) : Prop where
  ids : (entries.map NodeValue.topicId).Nodup
  mem : ∀ topicId topic, ⟨topicId, topic⟩ ∈ entries ↔ held topicId past = some topic

variable {past ops : List Op} {op : Op}

theorem lookup_eq_some_iff (hids : (entries.map NodeValue.topicId).Nodup) {topicId : ℤ}
    {topic : GoString} : lookup entries topicId = some topic ↔ ⟨topicId, topic⟩ ∈ entries := by
  induction entries with
  | nil => simp [lookup]
  | cons entry entries ih =>
    obtain ⟨hnew, hids⟩ := List.nodup_cons.mp hids
    have ih := ih hids
    unfold lookup at ih ⊢
    rw [List.find?_cons, List.mem_cons]
    by_cases hid : entry.topicId = topicId
    · have habsent : ⟨topicId, topic⟩ ∉ entries := by
        intro hmem
        exact hnew (hid ▸ List.mem_map_of_mem hmem)
      simp only [hid, decide_true, Option.map_some, Option.some.injEq, habsent, or_false]
      constructor
      · rintro rfl
        rw [← hid]
      · rintro rfl
        rfl
    · have hne : (⟨topicId, topic⟩ : NodeValue) ≠ entry := by
        rintro rfl
        exact hid rfl
      simp only [hid, decide_false, hne, false_or]
      exact ih

theorem Tracks.lookup (h : Tracks past entries) (topicId : ℤ) :
    lookup entries topicId = held topicId past := by
  refine Option.ext fun topic => ?_
  rw [lookup_eq_some_iff h.ids, h.mem]

/-- An operation changes the map as it changes what is held. -/
theorem Tracks.after (h : Tracks past entries)
    (hnew : ∀ topic topicId, op = .push topic topicId →
      topicId ∉ entries.map NodeValue.topicId) : Tracks (op :: past) (after entries op) := by
  cases op with
  | push topic topicId =>
    have hid := hnew topic topicId rfl
    constructor
    · rw [MqttMgr.after, List.map_append, List.nodup_append]
      refine ⟨h.ids, List.nodup_singleton _, ?_⟩
      rintro a ha b hb rfl
      have heq : a = topicId := List.mem_singleton.mp hb
      rw [heq] at ha
      exact hid ha
    · intro id topic'
      rw [MqttMgr.after, List.mem_append, List.mem_singleton, h.mem, held]
      by_cases heq : topicId = id
      · subst heq
        have hnone : held topicId past ≠ some topic' := by
          intro hsome
          exact hid (List.mem_map_of_mem ((h.mem topicId topic').mpr hsome))
        simp [hnone, eq_comm]
      · simp [heq, Ne.symm heq]
  | pop topicId =>
    constructor
    · exact h.ids.sublist (List.filter_sublist.map _)
    · intro id topic
      rw [MqttMgr.after, List.mem_filter, h.mem, held]
      by_cases heq : topicId = id
      · simp [heq]
      · simp [heq, Ne.symm heq]
  | get topicId => exact ⟨h.ids, h.mem⟩

/-- No id that is held is pushed before it is popped. -/
def Fresh (entries : List NodeValue) (ops : List Op) : Prop :=
  ∀ entry ∈ entries, popsFirst entry.topicId ops = true

theorem Fresh.after (h : Fresh entries (op :: ops)) (hops : distinctIds (op :: ops) = true) :
    Fresh (after entries op) ops ∧ distinctIds ops = true ∧
      ∀ topic topicId, op = .push topic topicId → topicId ∉ entries.map NodeValue.topicId := by
  cases op with
  | push topic topicId =>
    rw [distinctIds, Bool.and_eq_true] at hops
    refine ⟨?_, hops.2, ?_⟩
    · intro entry hmem
      rcases List.mem_append.mp hmem with hmem | hmem
      · have hentry := h entry hmem
        rw [popsFirst, Bool.and_eq_true] at hentry
        exact hentry.2
      · rw [List.mem_singleton.mp hmem]
        exact hops.1
    · rintro _ _ ⟨⟩ hid
      obtain ⟨entry, hmem, rfl⟩ := List.mem_map.mp hid
      have hentry := h entry hmem
      rw [popsFirst, Bool.and_eq_true] at hentry
      simp at hentry
  | pop topicId =>
    refine ⟨?_, hops, nofun⟩
    intro entry hmem
    obtain ⟨hmem, hne⟩ := List.mem_filter.mp hmem
    have hentry := h entry hmem
    rw [popsFirst, Bool.or_eq_true] at hentry
    refine hentry.resolve_left fun heq => ?_
    rw [decide_eq_true_eq] at heq hne
    exact hne heq.symm
  | get topicId => exact ⟨h, hops, nofun⟩

/-- What an operation returns. -/
def answerOf (past : List Op) : Op → List GoString
  | .get topicId => [(held topicId past).getD []]
  | _ => []

theorem answers_cons (past : List Op) (op : Op) (ops : List Op) :
    answers past (op :: ops) = answerOf past op ++ answers (op :: past) ops := by
  cases op <;> rfl

theorem TopicList.Represents.step (h : list.Represents entries) (htracks : Tracks past entries)
    (op : Op) :
    ∃ list', step list op = some (list', answerOf past op) ∧
      list'.Represents (after entries op) := by
  cases op with
  | push topic topicId =>
    obtain ⟨list', hpush, hlist'⟩ := h.pushTopic topic topicId
    exact ⟨list', by rw [MqttMgr.step, hpush]; rfl, hlist'⟩
  | pop topicId =>
    obtain ⟨list', hpop, hlist'⟩ := h.popTopic htracks.ids topicId
    exact ⟨list', by rw [MqttMgr.step, hpop]; rfl, hlist'⟩
  | get topicId =>
    refine ⟨list, ?_, h⟩
    rw [MqttMgr.step, h.getTopic, htracks.lookup]
    rfl

theorem TopicList.Represents.run (h : list.Represents entries) (htracks : Tracks past entries)
    (hfresh : Fresh entries ops) (hops : distinctIds ops = true) :
    ∃ list', run list ops = some (list', answers past ops) ∧
      list'.Represents (ops.foldl after entries) ∧
        Tracks (ops.reverse ++ past) (ops.foldl after entries) := by
  induction ops generalizing list past entries with
  | nil => exact ⟨list, rfl, h, htracks⟩
  | cons op ops ih =>
    obtain ⟨hfresh', hops', hnew⟩ := hfresh.after hops
    obtain ⟨next, hstep, hnext⟩ := h.step htracks op
    obtain ⟨list', hrun, hlist', htracks'⟩ := ih hnext (htracks.after hnew) hfresh' hops'
    refine ⟨list', ?_, hlist', ?_⟩
    · rw [MqttMgr.run, hstep, answers_cons]
      simp only [Option.bind_eq_bind, Option.bind_some, hrun]
    · rw [List.reverse_cons, List.append_assoc]
      exact htracks'

end Refinement

/-- Whatever the operations are, no nil pointer is followed, each call of getTopic returns the topic
that is held under its id, and the linked nodes are the entries that were pushed and not popped,
in the order of their pushes. -/
theorem topicList_refines {ops : List Op} (hops : distinctIds ops = true) :
    ∃ list, run {} ops = some (list, answers [] ops) ∧ list.Represents (entriesOf ops) ∧
      ((entriesOf ops).map NodeValue.topicId).Nodup ∧
        ∀ topicId topic, ⟨topicId, topic⟩ ∈ entriesOf ops ↔
          held topicId ops.reverse = some topic := by
  have htracks : Tracks [] [] := ⟨.nil, by simp [held]⟩
  obtain ⟨list, hrun, hlist, hids, hmem⟩ := represents_empty.run htracks nofun hops
  rw [List.append_nil] at hmem
  exact ⟨list, hrun, hlist, hids, hmem⟩

/-- The head, a node in the middle and an id that is in no node are popped. -/
theorem topicList_refines_pops :
    ∃ list, run {} [.push (str "a") 0, .push (str "b") 1, .push (str "c") 2, .pop 1, .pop 0,
        .pop 5, .get 2, .get 0] = some (list, [str "c", []]) ∧
      list.Represents [⟨2, str "c"⟩] := by
  obtain ⟨list, hrun, hlist, -⟩ := topicList_refines
    (show distinctIds [.push (str "a") 0, .push (str "b") 1, .push (str "c") 2, .pop 1, .pop 0,
      .pop 5, .get 2, .get 0] = true by decide)
  exact ⟨list, hrun, hlist⟩

end VissServer.MqttMgr

import VissServer.Utils.Tokens
import VissServer.Utils.Messages

/-!
The VSS tree as the server core uses it, and the JSON text of a part of it
(vissv2server.go). The search in the tree is the one of golib, which is outside the
repository.
-/
namespace VissServer.Core

open Go Utils

/-- A node with what the getters of golib return for it. -/
inductive Node
  | mk (name : GoString) (type : ℤ) (descr datatype : GoString) (children : List Node)

namespace Node

def name : Node → GoString
  | mk name _ _ _ _ => name

def type : Node → ℤ
  | mk _ type _ _ _ => type

def descr : Node → GoString
  | mk _ _ descr _ _ => descr

def datatype : Node → GoString
  | mk _ _ _ datatype _ => datatype

def children : Node → List Node
  | mk _ _ _ _ children => children

end Node

structure SearchData where
  nodePath : GoString
  nodeHandle : Node

structure Config where
  /-- golib.VSSsearchNodes from the root of the tree, by path, anyDepth, leafNodesOnly and
  noScopeList: the nodes that are found, and the value left behind the validation pointer. -/
  searchNodes : GoString → Bool → Bool → List GoString → List SearchData × ℤ

/-- What the core reads from outside while it serves a request. -/
structure Moment where
  rfcTime : GoString
  /-- The order in which a range loop visits the members of a map. -/
  range : GoMap Json → GoMap Json
  /-- The body of the reply of the access token server to a POST; none is an error. -/
  postReply : GoString → Option GoString
  /-- The reply of the access token server on its channel. -/
  atsReply : GoString → GoString

def ACTUATOR : ℤ := 2

/-- The nodes that are found, and the validation, which an empty path leaves at -1. -/
def searchTree (cfg : Config) (path : GoString) (anyDepth leafNodesOnly : Bool)
    (noScopeList : List GoString) : List SearchData × ℤ :=
  if path = [] then ([], -1) else cfg.searchNodes path anyDepth leafNodesOnly noScopeList

/-- The part of a path buffer in front of its first zero byte. -/
def pathOf (buffer : GoString) : GoString := buffer.takeWhile fun c => c ≠ 0

def nodeTypesToString (nodeType : ℤ) : GoString :=
  if nodeType = 1 then str "sensor"
  else if nodeType = 2 then str "actuator"
  else if nodeType = 3 then str "attribute"
  else if nodeType = 4 then str "branch"
  else []

/-- The text of a node is left without the comma after its last member, unless that is an
object. -/
def dropComma (newJsonBuffer : GoString) : GoString :=
  match newJsonBuffer.reverse with
  | c :: d :: rest => if c = 44 ∧ d ≠ 125 then (d :: rest).reverse else newJsonBuffer
  | _ => newJsonBuffer

/-- levels is the number of levels, maxDepth - depth, that are still printed. -/
def jsonifyTreeNode (node : Node) (jsonBuffer : GoString) : ℕ → GoString
  | 0 => jsonBuffer
  | levels + 1 =>
      let head := str "\"" ++ node.name ++ str "\":\x7b" ++
        str "\"type\":\"" ++ nodeTypesToString node.type ++ str "\"," ++
        str "\"description\":\"" ++ node.descr ++ str "\","
      if node.type < 1 ∨ 4 < node.type then []
      else
        let data :=
          if node.type = 4 then [] else str "\"datatype\":\"" ++ node.datatype ++ str "\","
        let children :=
          if levels = 0 ∨ node.children = [] then []
          else
            let texts := node.children.map fun child => jsonifyTreeNode child jsonBuffer levels
            (str "\"children\":\x7b" ++ texts.flatten).dropLast ++ str "\x7d"
        jsonBuffer ++ (dropComma (head ++ data ++ children) ++ str "\x7d,")

def countPathSegments (path : GoString) : ℤ := (path.filter fun c => c = 46).length + 1

/-- The elements of an array that are no strings are left empty. -/
def extractNoScopeElementsLevel2 (noScopeMap : List Json) : List GoString :=
  noScopeMap.map fun v => (asString v).getD []

/-- The first member that is a string or an array decides. -/
def extractNoScopeElementsLevel1 : GoMap Json → List GoString
  | [] => []
  | (_, .str v) :: _ => [v]
  | (_, .arr items) :: _ => extractNoScopeElementsLevel2 items
  | _ :: rest => extractNoScopeElementsLevel1 rest

def getNoScopeList (m : Moment) (tokenContext : GoString) : List GoString :=
  let data := str "\x7b\"context\":\"" ++ tokenContext ++ str "\"\x7d"
  match (m.postReply data).bind unmarshalMap with
  | none => []
  | some noScopeMap => extractNoScopeElementsLevel1 (m.range noScopeMap)

/-- Fewer nodes than the path has segments leave the text empty. -/
def synthesizeJsonTree (cfg : Config) (m : Moment) (path : GoString) (depth : ℕ)
    (tokenContext : GoString) : MayPanic GoString :=
  let (searchData, _) := searchTree cfg path false false (getNoScopeList m tokenContext)
  if (searchData.length : ℤ) < countPathSegments path then some []
  else
    (searchData.getLast?).map fun data =>
      let jsonBuffer := jsonifyTreeNode data.nodeHandle [] (if depth = 0 then 100 else depth)
      if jsonBuffer = [] then [] else str "\x7b" ++ jsonBuffer.dropLast ++ str "\x7d"

def getTokenContext (reqMap : GoMap Json) : MayPanic GoString :=
  if isNull (valueAt reqMap (str "authorization")) then some []
  else do
    let token ← asString (valueAt reqMap (str "authorization"))
    extractFromToken token (str "clx")

end VissServer.Core

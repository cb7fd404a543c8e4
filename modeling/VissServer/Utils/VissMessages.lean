import VissServer.Utils.Compression

/-!
The messages that a client and the server exchange, without white space: flat requests and
responses, and get responses and notifications with one or many data objects, each with one
or many data points. The members of an object may stand in any order.
-/
namespace VissServer.Utils

open VissServer.Go

/-- A string that can stand between quotes as it is. -/
abbrev Quoteless := {s : GoString // 34 ∉ s}

/-- One item, or an array of items. -/
inductive Many (α : Type)
  | one (a : α)
  | many (as : List α)

inductive Verb
  | get
  | set
  | subscribe
  | unsubscribe
  | subscription
  deriving DecidableEq

/-- A whole second of the years 2020 to 2029. -/
structure Timestamp where
  year : ℕ
  month : ℕ
  day : ℕ
  hour : ℕ
  minute : ℕ
  second : ℕ
  year_lt : year < 10
  month_mem : 1 ≤ month ∧ month ≤ 12
  day_mem : 1 ≤ day ∧ day ≤ 31
  hour_lt : hour < 24
  minute_lt : minute < 60
  second_lt : second < 60

inductive DpMember
  | value (v : Many Quoteless)
  | ts (t : Timestamp)

inductive DataMember
  | path (p : Quoteless)
  | dp (points : Many (List DpMember))

inductive Member
  | action (verb : Verb)
  | requestId (v : Quoteless)
  | subscriptionId (v : Quoteless)
  | path (p : Quoteless)
  | value (v : Many Quoteless)
  | ts (t : Timestamp)
  | authorization (token : Quoteless)
  | data (packs : Many (List DataMember))

/-! ## Texts -/

def quoted (s : GoString) : GoString := 34 :: (s ++ [34])

def commaSeparated : List GoString → GoString
  | [] => []
  | [a] => a
  | a :: b :: rest => a ++ 44 :: commaSeparated (b :: rest)

def keyText (key : String) (value : GoString) : GoString := quoted (str key) ++ 58 :: value

def objectText (members : List GoString) : GoString := 123 :: (commaSeparated members ++ [125])

def Many.text {α : Type} (text : α → GoString) : Many α → GoString
  | .one a => text a
  | .many as => 91 :: (commaSeparated (as.map text) ++ [93])

def Verb.word : Verb → GoString
  | .get => str "get"
  | .set => str "set"
  | .subscribe => str "subscribe"
  | .unsubscribe => str "unsubscribe"
  | .subscription => str "subscription"

/-- The digits of a number below 100. -/
def twoDigits (n : ℕ) : GoString := [UInt8.ofNat (48 + n / 10), UInt8.ofNat (48 + n % 10)]

/-- The text of a time in the form 202Y-MM-DDTHH:MM:SSZ. -/
def Timestamp.text (t : Timestamp) : GoString :=
  [50, 48, 50, UInt8.ofNat (48 + t.year), 45] ++ twoDigits t.month ++ [45] ++ twoDigits t.day ++
    [84] ++ twoDigits t.hour ++ [58] ++ twoDigits t.minute ++ [58] ++ twoDigits t.second ++ [90]

def valueText (v : Many Quoteless) : GoString :=
  keyText "value" (v.text fun s => quoted s.val)

def DpMember.text : DpMember → GoString
  | .value v => valueText v
  | .ts t => keyText "ts" (quoted t.text)

def DataMember.text : DataMember → GoString
  | .path p => keyText "path" (quoted p.val)
  | .dp points => keyText "dp" (points.text fun members => objectText (members.map DpMember.text))

def Member.text : Member → GoString
  | .action verb => keyText "action" (quoted verb.word)
  | .requestId v => keyText "requestId" (quoted v.val)
  | .subscriptionId v => keyText "subscriptionId" (quoted v.val)
  | .path p => keyText "path" (quoted p.val)
  | .value v => valueText v
  | .ts t => keyText "ts" (quoted t.text)
  | .authorization token => keyText "authorization" (quoted token.val)
  | .data packs =>
    keyText "data" (packs.text fun members => objectText (members.map DataMember.text))

/-- The JSON text of a message. -/
def messageText (message : List Member) : GoString := objectText (message.map Member.text)

/-! ## Paths -/

def Many.toList {α : Type} : Many α → List α
  | .one a => [a]
  | .many as => as

def DataMember.paths : DataMember → List GoString
  | .path p => [p.val]
  | .dp _ => []

def Member.paths : Member → List GoString
  | .path p => [p.val]
  | .data packs => packs.toList.flatMap fun members => members.flatMap DataMember.paths
  | _ => []

/-- All paths of the message are in the list. -/
def Listed (pathList : List GoString) (message : List Member) : Prop :=
  ∀ m ∈ message, ∀ p ∈ m.paths, p ∈ pathList

instance (pathList : List GoString) (message : List Member) :
    Decidable (Listed pathList message) :=
  inferInstanceAs (Decidable (∀ m ∈ message, ∀ p ∈ m.paths, p ∈ pathList))

end VissServer.Utils

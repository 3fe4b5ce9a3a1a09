import Questline.Fault
import Questline.Text.Digit

/-!
# Reading scripts

A script is read from a JSON object with lists of `nodes` and `connections`.  What
is left out takes a default, what is wrong is refused, and the first fault counts:
the lists themselves, then the nodes in order, then the connections in order.

* `Script.ofValue`: the script of a value.
* `Node.ofValue`: a node.  Its `data` holds what its kind needs.
* `Connection.ofValue`: a connection.  Editors spell its parts in several ways; the
  first spelling that is present counts.
-/

namespace Questline

open Json (Value Fields)

/-! ## Requirements -/

/-- The fault of a part that is not what it has to be. -/
def unmet {α : Type} (subject : Subject) (need : Requirement) : Except Fault α :=
  .error (.data (.unmet subject need))

/-- The fields of an object. -/
def requireObject (subject : Subject) : Value → Except Fault Fields
  | .object fields => .ok fields
  | _ => unmet subject .object

/-- The items of a list. -/
def requireList (subject : Subject) : Value → Except Fault (List Value)
  | .array items => .ok items
  | _ => unmet subject .list

/-- An id: a text, or an integer in decimal notation. -/
def requireId (subject : Subject) : Value → Except Fault String
  | .string s => .ok s
  | .int i => if isShort i.natAbs then .ok (intText i) else .error (.badNumeral .unwritable)
  | _ => unmet subject .identifier

/-- A text that is not empty. -/
def requireText (subject : Subject) : Value → Except Fault String
  | .string s => if s.isEmpty then unmet subject .nonEmptyString else .ok s
  | _ => unmet subject .nonEmptyString

/-- A text, or none. -/
def optionalText (subject : Subject) : Value → Except Fault (Option String)
  | .null => .ok none
  | .string s => .ok (some s)
  | _ => unmet subject .stringIfProvided

/-- A text, or the one that stands in for it. -/
def textOr (stand : String) (subject : Subject) (v : Value) : Except Fault String :=
  (optionalText subject v).map (·.getD stand)

/-- An integer of at least one. -/
def requirePositive (subject : Subject) : Value → Except Fault Int
  | .int i => if 0 < i then .ok i else unmet subject .positiveInteger
  | _ => unmet subject .positiveInteger

/-- A field, or a default where it is absent.  A field that is null is present. -/
def fieldOr (fields : Fields) (name : String) (stand : Value) : Value :=
  (fields.get? name).getD stand

/-- The fields of an object that may be absent or null. -/
def optionalObject (subject : Subject) (fields : Fields) (name : String) : Except Fault Fields :=
  match Value.field fields name with
  | .null => .ok []
  | v => requireObject subject v

/-- The strings of a list, if it holds nothing else. -/
def strings? : List Value → Option (List String)
  | [] => some []
  | .string s :: vs => (strings? vs).map (s :: ·)
  | _ :: _ => none

/-- What is computed in floating point, unless an integer is too large for it. -/
def inRange {α : Type} : Option α → Except Fault α
  | some a => .ok a
  | none => .error .tooLarge

/-- The floating-point value of a number. -/
def floatOf (n : Number) : Except Fault Binary64 := inRange n.toFloat?

/-! ## Nodes -/

/-- A dialogue from its data. -/
def Dialogue.ofFields (node : Subject) (data : Fields) : Except Fault Dialogue := do
  let text ← textOr "Hello!" (.part node "text") (Value.field data "text")
  let speaker ← textOr "companion" (.part node "speaker") (Value.field data "speaker")
  let character ← optionalText (.part node "character") (Value.field data "character")
  let emoji ← optionalText (.part node "emoji") (Value.field data "emoji")
  let portrait ← optionalText (.part node "portrait") (Value.field data "portrait")
  return { text, speaker, character, emoji, portrait }

/-- The options of a choice. -/
def readOptions (subject : Subject) : Value → Except Fault (List String)
  | .array items =>
    match strings? items with
    | some options => .ok options
    | none => unmet subject .listOfStrings
  | _ => unmet subject .listOfStrings

/-- A choice from its data. -/
def Choice.ofFields (node : Subject) (data : Fields) : Except Fault Choice := do
  let options ← readOptions (.part node "options")
    (fieldOr data "options" (.array [.string "Yes", .string "No"]))
  let question ← textOr "Choose:" (.part node "question") (Value.field data "question")
  return { question, options }

/-- A number that is not below zero. -/
def requireDuration (subject : Subject) : Value → Except Fault Number
  | .int i => if i < 0 then unmet subject .nonNegativeNumber else .ok (.int i)
  | .float x => if x.isNegative then unmet subject .nonNegativeNumber else .ok (.float x)
  | _ => unmet subject .nonNegativeNumber

/-- An image from its data; its duration is made a floating-point value. -/
def Image.ofFields (node : Subject) (data : Fields) : Except Fault Image := do
  let given ← requireDuration (.part node "duration") (fieldOr data "duration" (.int 3))
  let path ← textOr "" (.part node "path") (Value.field data "path")
  let seconds ← floatOf given
  return { path, duration := .float seconds }

/-- The action of an item node. -/
def readAction (subject : Subject) : Value → Except Fault ItemAction
  | .string "give" => .ok .give
  | .string "take" => .ok .take
  | _ => unmet subject .itemAction

/-- A change of the inventory from its data. -/
def ItemChange.ofFields (node : Subject) (data : Fields) : Except Fault ItemChange := do
  let action ← readAction (.part node "action") (fieldOr data "action" (.string "give"))
  let item ← requireText (.part node "itemId") (Value.field data "itemId")
  let amount ← requirePositive (.part node "amount") (fieldOr data "amount" (.int 1))
  return { item, action, amount := .int amount }

/-- A trigger from its data. -/
def Trigger.ofFields (node : Subject) (data : Fields) : Except Fault Trigger := do
  let params ← optionalObject (.part node "params") data "params"
  let event ← requireText (.part node "event") (Value.field data "event")
  return { event, params }

/-- The kind of a check. -/
def readCheck (subject : Subject) : Value → Except Fault CheckKind
  | .string "hasFlag" => .ok .hasFlag
  | .string "hasItem" => .ok .hasItem
  | _ => unmet subject .checkKind

/-- The target of a condition and the value expected of it.  Without a `target`, as
editors write it, `value` names the target. -/
def readTarget (node : Subject) (data : Fields) : Except Fault (String × Value) :=
  match data.get? "target" with
  | some v => do
    let target ← requireText (.part node "target") v
    return (target, fieldOr data "value" (fieldOr data "expected" (.bool true)))
  | none => do
    let target ← requireText (.part node "value") (Value.field data "value")
    return (target, fieldOr data "expected" (.bool true))

/-- A boolean, a number or a text. -/
def requireScalar (subject : Subject) (v : Value) : Except Fault Scalar :=
  match Scalar.ofValue? v with
  | some s => .ok s
  | none => unmet subject .scalar

/-- A condition from its data. -/
def Condition.ofFields (node : Subject) (data : Fields) : Except Fault Condition := do
  let check ← readCheck (.part node "checkType") (fieldOr data "checkType" (.string "hasItem"))
  let (target, value) ← readTarget node data
  let expected ← requireScalar (.part node "expected value") value
  let amount ← requirePositive (.part node "amount") (fieldOr data "amount" (.int 1))
  return { check, target, expected := expected.toValue, amount := .int amount }

/-- The opponent of a battle: an object of its own, or else the data itself.  Its
level is one unless it says otherwise. -/
def readOpponent (node : Subject) (data : Fields) : Except Fault Fields := do
  let opponent ← requireObject (.part node "opponent") (fieldOr data "opponent" (.object data))
  return if opponent.has "level" then opponent else opponent ++ [("level", .int 1)]

/-- The spellings of a link's target, the first that says something counts. -/
def linkTargetNames : List String := ["scriptPath", "target", "nextScript"]

/-- The first of the named fields that says something; null if none does. -/
def firstTruthy (fields : Fields) (names : List String) : Value :=
  ((names.map (Value.field fields)).find? Value.truthy).getD .null

/-- A boolean. -/
def requireBool (subject : Subject) : Value → Except Fault Bool
  | .bool b => .ok b
  | _ => unmet subject .boolean

/-- A link from its data. -/
def Link.ofFields (node : Subject) (data : Fields) : Except Fault Link := do
  let useTemplates ← requireBool (.part node "useTemplates")
    (fieldOr data "useTemplates" (.bool false))
  let target ← requireText (.part node "scriptPath") (firstTruthy data linkTargetNames)
  return { target, useTemplates }

/-- What a node of the given kind does. -/
def NodeBody.ofFields (id : String) (kind : Value) (data : Fields) : Except Fault NodeBody :=
  let node : Subject := .node id
  match kind with
  | .string "dialogue" => .dialogue <$> Dialogue.ofFields node data
  | .string "choice" => .choice <$> Choice.ofFields node data
  | .string "image" => .image <$> Image.ofFields node data
  | .string "item" => .item <$> ItemChange.ofFields node data
  | .string "trigger" => .trigger <$> Trigger.ofFields node data
  | .string "condition" => .condition <$> Condition.ofFields node data
  | .string "combat" => .combat <$> readOpponent node data
  | .string "link_script" => .link <$> Link.ofFields node data
  | .string "end" => .ok .ending
  | _ => .error (.data (.unknownKind id kind))

/-- A node. -/
def Node.ofValue (subject : Subject) (v : Value) : Except Fault Node := do
  let fields ← requireObject subject v
  let id ← requireId (.part subject "id") (Value.field fields "id")
  let data ← optionalObject (.part subject "data") fields "data"
  let body ← NodeBody.ofFields id (Value.field fields "type") data
  return { id, body }

/-! ## Connections -/

/-- The spellings of the id a connection starts at. -/
def sourceNames : List String := ["fromNodeId", "fromId", "sourceId", "from"]

/-- The spellings of the id a connection leads to. -/
def targetNames : List String := ["toNodeId", "toId", "targetId", "to"]

/-- The first of the named fields that is not null; null if all are. -/
def firstPresent (fields : Fields) (names : List String) : Value :=
  ((names.map (Value.field fields)).find? (· ≠ .null)).getD .null

/-- What the name of an output starts with. -/
def outputPrefix : String := "output_"

/-- The output that a handle names: the number after `output_`, nothing else being
a handle. -/
def readHandle (subject : Subject) : Value → Except Fault Int
  | .null => .ok 0
  | .string s =>
    let suffix := String.ofList (s.toList.drop outputPrefix.length)
    if outputPrefix.toList.isPrefixOf s.toList && Text.isDigits suffix then
      match Text.natural? suffix with
      | some n => .ok n
      | none => .error (.badNumeral (.unreadable suffix))
    else unmet subject .outputHandle
  | _ => unmet subject .outputHandle

/-- The output a connection leaves through: its `outputIndex`, else its
`sourceHandle`, else the first one. -/
def readOutput (subject : Subject) (fields : Fields) : Except Fault Int :=
  match fields.get? "outputIndex" with
  | some (.int i) =>
    if i < 0 then unmet (.part subject "outputIndex") .nonNegativeInteger else .ok i
  | some _ => unmet (.part subject "outputIndex") .nonNegativeInteger
  | none => readHandle (.part subject "sourceHandle") (Value.field fields "sourceHandle")

/-- A connection. -/
def Connection.ofValue (subject : Subject) (v : Value) : Except Fault Connection := do
  let fields ← requireObject subject v
  let source ← requireId (.part subject "fromId") (firstPresent fields sourceNames)
  let target ← requireId (.part subject "toId") (firstPresent fields targetNames)
  let output ← readOutput subject fields
  return { source, output, target }

/-! ## Scripts -/

/-- Read the items of a list in order, each with the subject that its number gives. -/
def readEach {α : Type} (read : Subject → Value → Except Fault α) (list : Subject) :
    (index : Nat) → List Value → Except Fault (List α)
  | _, [] => .ok []
  | index, v :: vs => do
    let a ← read (.item list index) v
    let as ← readEach read list (index + 1) vs
    return a :: as

/-- The script of a value. -/
def Script.ofValue (id : String) (v : Value) : Except Fault Script := do
  let fields ← requireObject (.script id) v
  let rawNodes ← requireList (.part (.script id) "nodes") (fieldOr fields "nodes" (.array []))
  let rawConnections ← requireList (.part (.script id) "connections")
    (fieldOr fields "connections" (.array []))
  let nodes ← readEach Node.ofValue (.part (.script id) "nodes") 0 rawNodes
  let connections ← readEach Connection.ofValue (.part (.script id) "connections") 0 rawConnections
  return { id, nodes, connections }

end Questline

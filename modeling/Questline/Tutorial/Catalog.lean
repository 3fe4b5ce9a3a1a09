import Questline.Script.Reading

/-!
# Tutorials

A tutorial is a row of messages that the companion says at some occasion.  A catalog
holds tutorials under keys.

* `Tutorial.catalogOf`: the tutorials of a catalog, in order, or its first fault.
* `Tutorial.toValue`: a tutorial in writing.
-/

namespace Questline

open Json (Value Fields)

/-- A message and how long it waits. -/
structure Message where
  text : String
  delay : Number := .int 0
  deriving DecidableEq

/-- A tutorial. -/
structure Tutorial where
  id : String
  title : String
  trigger : String
  once : Bool := true
  messages : List Message := []
  deriving DecidableEq

namespace Tutorial

/-- The occasion of a tutorial that names none. -/
def defaultTrigger : String := "onGameStart"

/-- The delay of a message. -/
def readDelay (subject : Subject) : Value → Except Fault Int
  | .int i => if i < 0 then unmet subject .nonNegativeInteger else .ok i
  | _ => unmet subject .nonNegativeInteger

/-- A message. -/
def readMessage (subject : Subject) : Value → Except Fault Message
  | .object fields =>
    match Value.field fields "text" with
    | .string text => do
      let delay ← readDelay (.part subject "delay") (fieldOr fields "delay" (.int 0))
      return { text, delay := .int delay }
    | _ => unmet subject .messageText
  | _ => unmet subject .messageText

/-- A value as a text, or what stands in for one that says nothing. -/
def textOfTruthy (v : Value) (stand : String) : String :=
  if v.truthy then Text.display v else stand

/-- The tutorial under a key.  Without an id of its own it is known by its key. -/
def ofValue (key : String) (v : Value) : Except Fault Tutorial := do
  let fields ← requireObject (.tutorial key) v
  let list : Subject := .part (.tutorial key) "messages"
  let raw ← requireList list (fieldOr fields "messages" (.array []))
  let messages ← readEach readMessage list 0 raw
  let id := Text.display (fieldOr fields "id" (.string key))
  return {
    id
    title := textOfTruthy (Value.field fields "title") id
    trigger := textOfTruthy (Value.field fields "trigger") defaultTrigger
    once := Value.field fields "once" != .bool false
    messages }

/-- Read the tutorials under keys, in order. -/
def readAll : Fields → Except Fault (List Tutorial)
  | [] => .ok []
  | (key, v) :: fields => do
    let t ← ofValue key v
    let ts ← readAll fields
    return t :: ts

/-- The tutorials of a catalog. -/
def catalogOf (catalog : Fields) : Except Fault (List Tutorial) := do
  readAll (← requireObject .tutorials (fieldOr catalog "tutorials" (.object [])))

end Tutorial

/-! ## Writing -/

/-- A message in writing. -/
def Message.toValue (m : Message) : Value :=
  .object [("text", .string m.text), ("delay", m.delay.toValue)]

/-- A tutorial in writing. -/
def Tutorial.toValue (t : Tutorial) : Value :=
  .object [("id", .string t.id), ("title", .string t.title), ("trigger", .string t.trigger),
    ("once", .bool t.once), ("messages", .array (t.messages.map Message.toValue))]

end Questline

import Questline.Tutorial.Catalog

/-!
# Tutorials as scripts

Each message of a tutorial is a dialogue, connected to the dialogue of the next message.
A script of several tutorials has a chain for each, which is good for editing; only a
single chain can be run.

* `Tutorial.toScript`: the chains of several tutorials, with notes on each dialogue.
* `Tutorial.single?`: the chain of one tutorial of a catalog.
-/

namespace Questline

/-- What is noted beside the dialogue of a message. -/
structure MessageNote where
  tutorial : String
  name : String
  delay : Number
  trigger : String
  once : Bool
  deriving DecidableEq

/-- A script made of tutorials, with the notes on its nodes. -/
structure TutorialScript where
  script : Script
  notes : Entries MessageNote := []
  deriving DecidableEq

namespace Tutorial

/-- The length up to which titles are shown whole. -/
def titleLimit : Nat := 20

/-- A title, cut off if it is long. -/
def shortTitle (title : List Char) : List Char :=
  if titleLimit < title.length then title.take titleLimit ++ ['.', '.', '.'] else title

/-- The name of a dialogue: the tutorial's title and the number of the message. -/
def nodeName (title : String) (index : Int) : String :=
  String.ofList (shortTitle title.toList) ++ " [" ++ intText (index + 1) ++ "]"

/-- The dialogue of a message. -/
def messageNode (number : Nat) (m : Message) : Node :=
  ⟨natText number, .dialogue { text := m.text }⟩

/-- The note on a message of a tutorial. -/
def messageNote (t : Tutorial) (index : Nat) (m : Message) : MessageNote where
  tutorial := t.id
  name := nodeName t.title index
  delay := m.delay
  trigger := t.trigger
  once := t.once

/-- The dialogues of messages that are numbered from `number` on. -/
def messageNodes : (number : Nat) → List Message → List Node
  | _, [] => []
  | number, m :: ms => messageNode number m :: messageNodes (number + 1) ms

/-- The connections between dialogues that are numbered from `number` on. -/
def messageLinks : (number : Nat) → List Message → List Connection
  | number, _ :: m :: ms =>
    ⟨natText number, 0, natText (number + 1)⟩ :: messageLinks (number + 1) (m :: ms)
  | _, _ => []

/-- The notes on the messages of a tutorial from the one of the given index on, whose
dialogue has the given number. -/
def messageNotes (t : Tutorial) : (number index : Nat) → List Message → Entries MessageNote
  | _, _, [] => []
  | number, index, m :: ms =>
    (natText number, messageNote t index m) :: messageNotes t (number + 1) (index + 1) ms

/-- The nodes, connections and notes of tutorials whose dialogues are numbered from
`number` on. -/
def chains : (number : Nat) → List Tutorial →
    List Node × List Connection × Entries MessageNote
  | _, [] => ([], [], [])
  | number, t :: ts =>
    let (nodes, links, notes) := chains (number + t.messages.length) ts
    (messageNodes number t.messages ++ nodes, messageLinks number t.messages ++ links,
      messageNotes t number 0 t.messages ++ notes)

/-- The chains of several tutorials as one script. -/
def toScript (id : String) (tutorials : List Tutorial) : TutorialScript :=
  let (nodes, connections, notes) := chains 0 tutorials
  { script := { id, nodes, connections }, notes }

/-- The script of the first tutorial of an id. -/
def single? (tutorials : List Tutorial) (id : String) : Option Script :=
  (tutorials.find? (·.id == id)).map fun t => (toScript t.id [t]).script

/-- The script of one tutorial of a catalog. -/
def singleOf (catalog : Json.Fields) (id : String) : Except Fault Script := do
  match single? (← catalogOf catalog) id with
  | some script => return script
  | none => throw (.noSuchTutorial id)

end Tutorial

end Questline

import Questline.Text.Blank
import Questline.Tutorial.Chain

/-!
# Scripts as tutorials

The dialogues of a script are gathered by the tutorial that their notes name.  Each
group is read along its connections, from the first dialogue to which none of them
leads, until a connection is missing or comes back to a dialogue that was read before.

* `TutorialScript.tutorials`: the tutorials of a script, `TutorialScript.catalog`: the catalog that is
  written of them.
* `TutorialScript.chainOf`: the dialogues of a group in the order of their connections.
-/

namespace Questline.TutorialScript

/-- The tutorial of dialogues without notes. -/
def unknownTutorial : String := "unknown"

/-! ## Chains -/

/-- The connections between nodes of a group: for each id the one that comes last. -/
def linksWithin (group : List Node) (connections : List Connection) : Entries String :=
  .ofPairs ((connections.filter fun c =>
    group.any (·.id == c.source) && group.any (·.id == c.target)).map fun c =>
      (c.source, c.target))

/-- The last node of an id. -/
def lastOfId? (group : List Node) (id : String) : Option Node :=
  group.reverse.find? (·.id == id)

/-- Go along connections from a node, for so many nodes at most; `read` holds the nodes
before. -/
def goAlong (group : List Node) (links : Entries String) :
    (bound : Nat) → (read : List Node) → Node → List Node
  | 0, read, _ => read
  | bound + 1, read, n =>
    if read.contains n then read
    else
      match (links.get? n.id).bind (lastOfId? group) with
      | some next => goAlong group links bound (read ++ [n]) next
      | none => read ++ [n]

/-- The node that a group is read from: the first one to which no connection leads, or
else the first one. -/
def startOf? (group : List Node) (links : Entries String) : Option Node :=
  (group.find? fun n => !links.any (·.2 == n.id)).or group.head?

/-- The nodes of a group along its connections. -/
def chainOf (group : List Node) (connections : List Connection) : List Node :=
  let links := linksWithin group connections
  match startOf? group links with
  | some n => goAlong group links group.length [] n
  | none => []

/-! ## Tutorials -/

/-- Whether a node is a dialogue. -/
def isDialogue (n : Node) : Bool := n.kind == .dialogue

/-- The tutorial that a node belongs to. -/
def tutorialOf (s : TutorialScript) (n : Node) : String :=
  ((s.notes.get? n.id).map (·.tutorial)).getD unknownTutorial

/-- The dialogues by tutorial, in the order of their first dialogues. -/
def groups (s : TutorialScript) : Entries (List Node) :=
  (s.script.nodes.filter isDialogue).foldl
    (fun gs n => gs.put (s.tutorialOf n) ((gs.get? (s.tutorialOf n)).getD [] ++ [n])) []

/-- The title within the name of a dialogue: what stands before the first bracket. -/
def titleOf (name : String) : String :=
  String.ofList (Text.trimList (name.toList.takeWhile (· != '[')))

/-- The text of a dialogue. -/
def textOf (n : Node) : String :=
  match n.body with
  | .dialogue d => d.text
  | _ => ""

/-- The message of a dialogue. -/
def messageOf (s : TutorialScript) (n : Node) : Message where
  text := textOf n
  delay := ((s.notes.get? n.id).map (·.delay)).getD (.int 0)

/-- The tutorial of a group of dialogues.  Title, trigger and whether it is shown once
are noted on its first dialogue. -/
def tutorialOfGroup (s : TutorialScript) (id : String) (group : List Node) : Tutorial :=
  let chain := chainOf group s.script.connections
  let note := chain.head?.bind fun n => s.notes.get? n.id
  { id
    title := (note.map fun m => titleOf m.name).getD id
    trigger := (note.map (·.trigger)).getD Tutorial.defaultTrigger
    once := (note.map (·.once)).getD true
    messages := chain.map s.messageOf }

/-- The tutorials of a script. -/
def tutorials (s : TutorialScript) : List Tutorial :=
  s.groups.map fun g => s.tutorialOfGroup g.1 g.2

/-! ## Catalogs -/

/-- The version of the catalogs that are written. -/
def catalogVersion : String := "1.0.0"

/-- The description of the catalogs that are written. -/
def catalogDescription : String := "Companion tutorial scripts - exported from quest scripts"

/-- The catalog of a script's tutorials. -/
def catalog (s : TutorialScript) : Json.Fields :=
  [("version", .string catalogVersion), ("description", .string catalogDescription),
   ("tutorials", .object (s.tutorials.map fun t => (t.id, t.toValue)))]

end Questline.TutorialScript

import Questline.Json.Scalar

/-!
# Scripts

A script is a list of nodes and of connections between them.  Every node has an id
and does one thing: it speaks, asks, shows an image, hands over an item, fires an
event, checks a condition, starts a battle, passes on to another script, or ends the
quest.  A connection leaves a node through one of its numbered outputs.
-/

namespace Questline

/-! ## Nodes -/

/-- A line of speech, shown until the player goes on. -/
structure Dialogue where
  text : String
  speaker : String := "companion"
  character : Option String := none
  emoji : Option String := none
  portrait : Option String := none
  deriving DecidableEq

/-- A question; output `i` belongs to option `i`. -/
structure Choice where
  question : String
  options : List String := ["Yes", "No"]
  deriving DecidableEq

/-- An image, shown for some seconds or until the player goes on. -/
structure Image where
  path : String
  duration : Number
  deriving DecidableEq

/-- Whether an item is handed out or taken away. -/
inductive ItemAction where
  | give
  | take
  /-- Any other word.  No file can hold it; in a script that is put together by hand it
  takes away. -/
  | other (word : String)
  deriving DecidableEq

namespace ItemAction

/-- The name of an action in a script. -/
def word : ItemAction → String
  | .give => "give"
  | .take => "take"
  | .other word => word

/-- The action of a name. -/
def ofWord (word : String) : ItemAction :=
  if word = "give" then .give else if word = "take" then .take else .other word

@[simp] theorem word_ofWord (word : String) : (ofWord word).word = word := by
  unfold ofWord
  split
  · simp [ItemAction.word, *]
  · split <;> simp [ItemAction.word, *]

end ItemAction

/-- A change of the player's inventory. -/
structure ItemChange where
  item : String
  action : ItemAction := .give
  amount : Number := .int 1
  deriving DecidableEq

/-- An event for the host, which the run does not wait for. -/
structure Trigger where
  event : String
  params : Json.Fields := []
  deriving DecidableEq

/-- What a condition looks at. -/
inductive CheckKind where
  | hasFlag
  | hasItem
  /-- Any other word.  No file can hold it; in a script that is put together by hand it
  looks at the inventory. -/
  | other (word : String)
  deriving DecidableEq

namespace CheckKind

/-- The name of a check in a script. -/
def word : CheckKind → String
  | .hasFlag => "hasFlag"
  | .hasItem => "hasItem"
  | .other word => word

/-- The check of a name. -/
def ofWord (word : String) : CheckKind :=
  if word = "hasFlag" then .hasFlag else if word = "hasItem" then .hasItem else .other word

@[simp] theorem word_ofWord (word : String) : (ofWord word).word = word := by
  unfold ofWord
  split
  · simp [CheckKind.word, *]
  · split <;> simp [CheckKind.word, *]

end CheckKind

/-- A check of a flag or of the inventory: output 0 when it holds, else output 1.  What
is expected is a scalar in every script that is read from a file. -/
structure Condition where
  check : CheckKind
  target : String
  expected : Json.Value := .bool true
  amount : Number := .int 1
  deriving DecidableEq

/-- The way to another script, whose texts may be filled in first. -/
structure Link where
  target : String
  useTemplates : Bool := false
  deriving DecidableEq

/-- What a node does. -/
inductive NodeBody where
  | dialogue (d : Dialogue)
  | choice (c : Choice)
  | image (i : Image)
  | item (i : ItemChange)
  | trigger (t : Trigger)
  | condition (c : Condition)
  | combat (opponent : Json.Fields)
  | link (l : Link)
  | ending
  deriving DecidableEq

/-- A node of a script. -/
structure Node where
  id : String
  body : NodeBody
  deriving DecidableEq

instance : Inhabited Node := ⟨⟨"", .ending⟩⟩

/-- The kinds of nodes. -/
inductive NodeKind where
  | dialogue
  | choice
  | image
  | item
  | trigger
  | condition
  | combat
  | link
  | ending
  deriving DecidableEq

/-- The name of a kind in a script. -/
def NodeKind.word : NodeKind → String
  | .dialogue => "dialogue"
  | .choice => "choice"
  | .image => "image"
  | .item => "item"
  | .trigger => "trigger"
  | .condition => "condition"
  | .combat => "combat"
  | .link => "link_script"
  | .ending => "end"

namespace Node

/-- The kind of a node. -/
def kind (n : Node) : NodeKind :=
  match n.body with
  | .dialogue _ => .dialogue
  | .choice _ => .choice
  | .image _ => .image
  | .item _ => .item
  | .trigger _ => .trigger
  | .condition _ => .condition
  | .combat _ => .combat
  | .link _ => .link
  | .ending => .ending

/-- The number of outputs: one for each option of a choice, two for a condition and
for a battle, none at an end, and otherwise one. -/
def outputs (n : Node) : Nat :=
  match n.body with
  | .choice c => c.options.length
  | .condition _ => 2
  | .combat _ => 2
  | .ending => 0
  | _ => 1

/-- Whether the node ends the quest. -/
def isEnding (n : Node) : Bool := n.kind == .ending

end Node

/-! ## Connections and scripts -/

/-- The way from a node, through one of its outputs, to another node. -/
structure Connection where
  source : String
  output : Int
  target : String
  deriving DecidableEq

/-- A script. -/
structure Script where
  id : String
  nodes : List Node := []
  connections : List Connection := []
  deriving DecidableEq

end Questline

import Questline.Script.Effect
import Questline.Script.Template

/-!
# The host

A run reaches the world only through its host: it shows cards, moves items, starts
timers and battles, spawns figures, and reports warnings.  Each of these is a call,
and the type of its answer depends on it.  Where the host is to come back later, the
call carries a handle that says which wait of which run it was made for.

* `Call`, `Call.Reply`: what is asked of the host, and what it answers.
* `Warning`: what is reported.  A warning never changes the way a run takes.
-/

namespace Questline

open Json (Value Fields)

/-! ## Cards -/

/-- A line of speech as it is shown. -/
structure DialogueCard where
  node : String
  speaker : String
  text : String
  character : Option String := none
  emoji : Option String := none
  portrait : Option String := none
  deriving DecidableEq

/-- A question as it is shown. -/
structure ChoiceCard where
  node : String
  question : String
  options : List String := []
  deriving DecidableEq

/-- An image as it is shown. -/
structure ImageCard where
  node : String
  path : String
  duration : Number
  deriving DecidableEq

/-- What is shown to the player. -/
inductive Card where
  | dialogue (card : DialogueCard)
  | choice (card : ChoiceCard)
  | image (card : ImageCard)
  deriving DecidableEq

/-- What the player's answer to a card ends. -/
def Card.kind : Card → WaitKind
  | .dialogue _ => .dialogue
  | .choice _ => .choice
  | .image _ => .image

/-- The speaker who has an emoji of its own. -/
def companionSpeaker : String := "companion"

/-- The emoji of the companion. -/
def companionEmoji : String := "🐈‍⬛"

/-- The emoji of a speaker who is given none. -/
def speakerEmoji : String := "🙂"

/-- A text that is present and not empty. -/
def nonEmpty? (s : Option String) : Option String := s.filter fun s => !s.isEmpty

/-- The emoji that a dialogue is shown with. -/
def Dialogue.shownEmoji (d : Dialogue) : String :=
  if d.speaker = companionSpeaker then companionEmoji else (nonEmpty? d.emoji).getD speakerEmoji

/-- The card of a dialogue. -/
def Dialogue.card (d : Dialogue) (node : String) : DialogueCard where
  node := node
  speaker := d.speaker
  text := d.text
  character := nonEmpty? d.character
  emoji := some d.shownEmoji
  portrait := d.portrait

/-! ## Warnings -/

/-- What goes wrong without stopping a run. -/
inductive Warning where
  /-- A trigger names an event that is not known. -/
  | unknownEvent (node event : String)
  /-- The player does not hold as many items as are to be taken. -/
  | shortfall (node item : String) (amount : Number)
  /-- A text is shown in which a token is left. -/
  | unresolvedToken (node field token : String)
  deriving DecidableEq

namespace Warning

/-- The code of a warning. -/
def code : Warning → String
  | .unknownEvent _ _ => "UNKNOWN_TRIGGER_EVENT"
  | .shortfall _ _ _ => "ITEM_SHORTFALL"
  | .unresolvedToken _ _ _ => "UNRESOLVED_TEMPLATE_TOKEN"

/-- The warning in words. -/
def message : Warning → String
  | .unknownEvent _ event => (Fault.unknownEvent event).message
  | .shortfall _ item amount =>
    "Could not take " ++ amount.text ++ "x " ++ item ++ ": not enough in inventory."
  | .unresolvedToken _ _ token =>
    "Template token '" ++ String.ofList (Template.token token.toList) ++ "' was not substituted."

/-- What the warning is about. -/
def context : Warning → Entries String
  | .unknownEvent node event => [("node_id", node), ("event", event)]
  | .shortfall node item amount =>
    [("node_id", node), ("item_id", item), ("amount", amount.text)]
  | .unresolvedToken node field token =>
    [("node_id", node), ("field", field), ("token", token)]

/-- One warning for each token that is left in a text. -/
def ofText (node field text : String) : List Warning :=
  (Template.tokens text).map (.unresolvedToken node field)

/-- The warnings of a dialogue: of the speaker, the text and the character. -/
def ofDialogue (node : String) (d : Dialogue) : List Warning :=
  ofText node "speaker" d.speaker ++ ofText node "text" d.text ++
    ofText node "character" ((nonEmpty? d.character).getD "")

end Warning

/-! ## Handles -/

/-- The number of a run: its place among all runs of a session. -/
abbrev RunId := Nat

/-- The number of a wait; no two waits of a session have the same. -/
abbrev WaitId := Nat

/-- The host's number for a completion callback. -/
abbrev Callback := Nat

/-- The host's number for a write that is under way. -/
abbrev Ticket := Nat

/-- What the end of a battle is reported with. -/
structure BattleHandle where
  run : RunId
  wait : WaitId
  node : Node
  deriving DecidableEq

/-- What the end of an image's time is reported with. -/
structure TimerHandle where
  run : RunId
  wait : WaitId
  deriving DecidableEq

/-- How a write ends. -/
inductive WriteOutcome where
  | written
  | failed (reason : String)
  | cancelled
  deriving DecidableEq

/-- A link that waits for a write. -/
structure WriteHandle where
  run : RunId
  wait : WaitId
  link : Link
  deriving DecidableEq

/-- The end of a write, for the link that waits for it. -/
structure Delivery where
  handle : WriteHandle
  outcome : WriteOutcome
  deriving DecidableEq

/-- What a completion callback gives back: nothing to wait for, a write that is over,
or one that is under way. -/
inductive Receipt where
  | plain
  | finished (outcome : WriteOutcome)
  | pending (ticket : Ticket)
  deriving DecidableEq

/-- An answer to a choice that lies among its options. -/
inductive Pick where
  /-- The option at a position. -/
  | option (position : Nat)
  /-- A number that is no integer, behind which there is no option. -/
  | fraction (x : Binary64)
  deriving DecidableEq

/-- The answer as a number. -/
def Pick.value : Pick → Value
  | .option i => .int i
  | .fraction x => .float x

/-- The answers of a run: for each choice the one that was given last. -/
abbrev Ledger := Entries Pick

/-- The answers as numbers. -/
def Ledger.values (l : Ledger) : Fields := l.map fun e => (e.1, e.2.value)

/-! ## Calls -/

/-- A call of the host. -/
inductive Call where
  | present (card : Card)
  | startTimer (seconds : Number) (timer : TimerHandle)
  | cancelTimer (timer : TimerHandle)
  /-- Deliver the end of a write, now or later. -/
  | callSoon (delivery : Delivery)
  | giveItem (item : String) (amount : Number)
  | takeItem (item : String) (amount : Number)
  | countItem (item : String)
  | startBattle (opponent : Fields) (battle : BattleHandle)
  | spawn (request : SpawnRequest)
  | remove (npc : String)
  | world (event : WorldEvent)
  | templateTable
  | reportWarning (warning : Warning)
  | complete (callback : Callback) (ledger : Ledger)
  deriving DecidableEq

/-- The answer to a call.  Starting a timer answers whether it can be cancelled, taking
items whether they were there, and spawning the id under which the figure is known. -/
abbrev Call.Reply : Call → Type
  | .startTimer _ _ => Bool
  | .takeItem _ _ => Bool
  | .countItem _ => Number
  | .spawn _ => String
  | .templateTable => TemplateTable
  | .complete _ _ => Receipt
  | .present _ | .cancelTimer _ | .callSoon _ | .giveItem _ _ | .startBattle _ _ | .remove _
  | .world _ | .reportWarning _ => Unit

/-- The answer to a call that a host pays no attention to: there is no timer and nothing
to fill in.  What a script needs of its host cannot be passed over like that. -/
def Call.ignored : (call : Call) → Except Fault call.Reply
  | .startTimer _ _ => .ok false
  | .templateTable => .ok []
  | .complete _ _ => .ok .plain
  | .cancelTimer _ | .callSoon _ | .world _ | .reportWarning _ => .ok ()
  | .present _ | .giveItem _ _ | .takeItem _ _ | .countItem _ | .startBattle _ _ | .spawn _
  | .remove _ => .error .unsupported

end Questline

import Questline.Run.Host
import Questline.Text.Wrap

/-!
# What the console shows

Every card, change and warning has its lines.  Texts are wrapped; headings are set off
by an empty line.  With debugging on, a dialogue is preceded by its node.
-/

namespace Questline.Console

/-- The width that texts are wrapped to. -/
def textWidth : Int := 72

/-- A line. -/
def line (s : String) : String := s ++ "\n"

/-- A heading. -/
def heading (title : String) : String := "\n" ++ line ("=== " ++ title ++ " ===")

/-- The speaker of a dialogue with the emoji, if there is one. -/
def speakerLabel (card : DialogueCard) : String :=
  match nonEmpty? card.emoji with
  | some emoji => emoji ++ " " ++ card.speaker
  | none => card.speaker

/-- The wrapped text of a dialogue after its speaker. -/
def spoken (label : String) : List String → String
  | [] => ""
  | first :: rest =>
    line (label ++ ": " ++ first) ++ String.join (rest.map fun s => line ("  " ++ s))

/-- A dialogue. -/
def dialogueText (debug : Bool) (card : DialogueCard) : String :=
  (if debug then line ("[" ++ card.node ++ "]") else "") ++
    spoken (speakerLabel card) (Text.wrap textWidth true card.text)

/-- Options, numbered from `number` on. -/
def optionsText : (number : Nat) → List String → String
  | _, [] => ""
  | number, o :: os => line (natText number ++ ". " ++ o) ++ optionsText (number + 1) os

/-- A question with its options. -/
def choiceText (question : String) (options : List String) : String :=
  heading question ++ optionsText 1 options

/-- An image.  Its duration is shown as a floating-point value. -/
def imageText (card : ImageCard) : Except Fault String :=
  (floatOf card.duration).map fun seconds =>
    line ("[image: " ++ card.path ++ " (" ++ FloatStyle.brief.text seconds ++ "s)]")

/-- A card. -/
def cardText (debug : Bool) : Card → Except Fault String
  | .dialogue card => .ok (dialogueText debug card)
  | .choice card => .ok (choiceText card.question card.options)
  | .image card => imageText card

/-- A warning as it is shown: its code and its words. -/
structure Notice where
  code : String
  message : String
  deriving DecidableEq

/-- Warnings. -/
def noticesText (notices : List Notice) : String :=
  String.join (notices.map fun n => line ("- " ++ n.code ++ ": " ++ n.message))

/-- The heading of a battle. -/
def battleText (opponent : Json.Fields) : String :=
  heading ("Battle: " ++ Text.display (fieldOr opponent "enemy" (.string "unknown foe")) ++
    " (level " ++ Text.display (fieldOr opponent "level" (.int 1)) ++ ")")

/-- Items that are handed out or taken away. -/
def itemText (sign : String) (amount : Number) (item : String) : String :=
  line (sign ++ " " ++ amount.text ++ "x " ++ item)

/-- A figure that appears. -/
def spawnText (request : SpawnRequest) : String :=
  let label := match nonEmpty? request.emoji with
    | some emoji => emoji ++ " "
    | none => ""
  line ("* " ++ label ++ (nonEmpty? request.name).getD request.npc ++ " appears")

/-- A figure that leaves. -/
def leaveText (npc : String) : String := line ("* " ++ npc ++ " leaves")

/-- A change of the world. -/
def worldText : WorldEvent → String
  | .playMusic track => line ("~ music: " ++ track)
  | .stopMusic => line "~ music stops"
  | .showStatus message kind => line ("[" ++ kind ++ "] " ++ message)
  | .teleport x y z =>
    line ("* teleported to (" ++ FloatStyle.brief.text x ++ ", " ++ FloatStyle.brief.text y ++
      ", " ++ FloatStyle.brief.text z ++ ")")
  | .setTime hour => line ("* time is now " ++ FloatStyle.brief.text hour ++ ":00")
  | .setWeather weather => line ("* weather: " ++ weather)

/-- The answers of a run. -/
def ledgerText (ledger : Ledger) : String :=
  line ("Choices: " ++ Text.literal (.object ledger.values))

end Questline.Console

import Questline.Console.Host
import Questline.Run.Turn
import Questline.Text.Digit
import Questline.Text.Letter

/-!
# Playing at the console

A game is a session whose host is a console.  It goes on by itself until the player is
asked for a line; a line that makes no sense is asked for again.  When the lines end, the
run is stopped.

* `Game.next?`: the game's next step and what it shows.
* `Game.line`: the game after a line, or after the end of all lines.
* `Prompt.read`: what a line means.
-/

namespace Questline

open Json (Value)

/-! ## Prompts -/

/-- What the player is asked for. -/
inductive Prompt where
  /-- To go on, with any line. -/
  | proceed
  /-- For the number of one of so many options. -/
  | option (count : Nat)
  /-- Whether a battle was won. -/
  | outcome
  deriving DecidableEq

/-- What a line means to a prompt. -/
inductive Reading where
  | answer (value : Value)
  /-- The line makes no sense; the player is told so. -/
  | again (reproof : String)
  | failed (fault : Fault)
  deriving DecidableEq

namespace Prompt

/-- What the player sees. -/
def text : Prompt → String
  | .proceed => "(Enter to continue) "
  | .option _ => "Select an option: "
  | .outcome => "Did you win? [y/n]: "

/-- The number of an option. -/
def readOption (count : Nat) (line : String) : Reading :=
  let reproof := Console.line
    ("Invalid selection. Please enter a number from 1 to " ++ natText count ++ ".")
  if Text.isDigits line then
    match Text.natural? line with
    | none => .failed (.badNumeral (.unreadable line))
    | some n => if 1 ≤ n ∧ n ≤ count then .answer (.int (n - 1 : Nat)) else .again reproof
  else .again reproof

/-- The outcome of a battle. -/
def readOutcome (line : String) : Reading :=
  if line = "y" ∨ line = "yes" then .answer (.string "victory")
  else if line = "n" ∨ line = "no" then .answer (.string "defeat")
  else .again (Console.line "Please answer y or n.")

/-- What a line means. -/
def read (p : Prompt) (line : String) : Reading :=
  match p with
  | .proceed => .answer .null
  | .option count => readOption count (Text.trim line)
  | .outcome => readOutcome (Text.lower (Text.trim line))

end Prompt

/-! ## Games -/

/-- Where a game stands. -/
inductive Stage where
  | turn (turn : Turn)
  | prompt (session : Session) (prompt : Prompt)
  /-- The run is stopped because no line is left. -/
  | stopping (turn : Turn)
  | over (files : FileTree) (code : Nat)
  /-- A fault that is not reported ends the program. -/
  | crashed (files : FileTree) (fault : Fault)

/-- A game. -/
structure Game where
  console : Console
  stage : Stage

/-- Whether the console reports a fault and ends; all others end the program. -/
def Fault.isReported : Fault → Bool
  | .data _ | .link _ | .runner _ | .flags _ | .unknownEvent _ | .undecodable _
  | .parameter _ _ | .emptyFlagName | .flagNotScalar _ | .noAnswer _ | .badOutcome _
  | .badNumeral _ | .hostValue _ => true
  | .file f => f.cause == .nullCharacter
  | .tooLarge | .noSuchNode _ | .noSuchTutorial _ | .graphGone | .unsupported
  | .unpresentable _ | .nothingToShow | .uncomparable _ | .noPosition _ | .host _ => false

namespace Game

/-! ### Files -/

/-- The files as a game has them. -/
def files (g : Game) : FileTree :=
  match g.stage with
  | .turn t | .stopping t => t.session.files
  | .prompt s _ => s.files
  | .over files _ | .crashed files _ => files

/-- A game with other files. -/
def withFiles (g : Game) (files : FileTree) : Game :=
  { g with stage := match g.stage with
    | .turn t => .turn { t with session := { t.session with files } }
    | .stopping t => .stopping { t with session := { t.session with files } }
    | .prompt s p => .prompt { s with files } p
    | .over _ code => .over files code
    | .crashed _ f => .crashed files f }

/-- The files of the scripts that the links of the current graph lead to. -/
def linkedFiles (s : Session) : List Path :=
  match s.graph with
  | none => []
  | some graph => graph.script.nodes.filterMap fun n =>
    match n.body with
    | .link l => some (Library.file s.library l.target)
    | _ => none

/-- The files that the next step may read. -/
def wanted (g : Game) : List Path :=
  match g.stage with
  | .turn t =>
    match t.control with
    | .work (.entry (.start script _)) => [Library.file t.session.library script]
    | _ => linkedFiles t.session
  | _ => []

/-! ### Steps -/

/-- The line that reports a fault. -/
def faultText (f : Fault) : String := Console.line ("Script failed: " ++ f.message)

/-- The end of a game by a fault. -/
def failed (console : Console) (files : FileTree) (f : Fault) : Game × String :=
  if f.isReported then (⟨console, .over files 1⟩, faultText f)
  else (⟨console, .crashed files f⟩, "")

/-- What is shown after the last node: the warnings, and how the run ended. -/
def closing (console : Console) (phase : Phase) : String :=
  (if console.warnings.isEmpty then ""
    else Console.heading "Warnings" ++ Console.noticesText console.warnings) ++
  Console.line ("Script " ++ phase.word ++ ".")

/-- Ask for a line. -/
def ask (console : Console) (s : Session) (p : Prompt) : Game × String :=
  (⟨console, .prompt s p⟩, p.text)

/-- Go on with an entry of the session. -/
def begin (console : Console) (s : Session) (e : Entry) : Game :=
  ⟨console, .turn (s.begin (.entry e))⟩

/-- Go on after a turn. -/
def rest (console : Console) (s : Session) : Game × String :=
  if s.phase = .suspended then
    match s.waitingFor? with
    | some .choice =>
      ask console s (.option ((console.lastChoice.map (·.options.length)).getD 0))
    | some .combat => ask console s .outcome
    | some .dialogue | some .image => ask console s .proceed
    | some .link | none => (begin console s .stop, "")
  else (⟨console, .over s.files 0⟩, closing console s.phase)

/-- The game's next step, if it is not the player's. -/
def next? (g : Game) : Option (Game × String) :=
  match g.stage with
  | .prompt _ _ | .over _ _ | .crashed _ _ => none
  | .turn t =>
    match t.next?, t.control with
    | some t, _ => some (⟨g.console, .turn t⟩, "")
    | none, .ask a =>
      let (console, shown, answer) := g.console.answer a.call
      some (⟨console, .turn (t.conclude a answer)⟩, shown)
    | none, .failed f => some (failed g.console t.session.files f)
    | none, _ => some (rest g.console t.session)
  | .stopping t =>
    match t.next?, t.control with
    | some t, _ => some (⟨g.console, .stopping t⟩, "")
    | none, .ask a =>
      let (console, shown, answer) := g.console.answer a.call
      some (⟨console, .stopping (t.conclude a answer)⟩, shown)
    | none, .failed f => some (⟨g.console, .crashed t.session.files f⟩, "")
    | none, _ => some (⟨g.console, .over t.session.files 130⟩, Console.line "\nStopped.")

/-- Take an answer. -/
def take (console : Console) (s : Session) (p : Prompt) (answer : Value) : Game × String :=
  match p with
  | .proceed | .option _ => (begin console s (.advance answer), "")
  | .outcome =>
    match console.endBattle with
    | (console, some battle) => (begin console s (.battleOver battle answer), "")
    | (console, none) => rest console s

/-- The game after a line, or after the end of all lines. -/
def line (g : Game) (l : Option String) : Game × String :=
  match g.stage, l with
  | .prompt s _, none => (⟨g.console, .stopping (s.begin (.entry .stop))⟩, "")
  | .prompt s p, some l =>
    match p.read l with
    | .answer v => take g.console s p v
    | .again reproof =>
      let (g, shown) := ask g.console s p
      (g, reproof ++ shown)
    | .failed f => failed g.console s.files f
  | _, _ => (g, "")

end Game

end Questline

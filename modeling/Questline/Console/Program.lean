import Questline.Console.Command
import Questline.Console.Game
import Questline.Console.Settings
import Questline.Tutorial.Chain

/-!
# The program

The program reads its arguments and its settings and carries out a command.  Looking
scripts through ends at once; playing begins a game.

* `Program.begin`: the program up to its first line of input.
-/

namespace Questline

open Json (Value)

/-- Where the program stands after its beginning. -/
inductive Program where
  /-- Help was shown, or the arguments make no sense. -/
  | usage (code : Nat)
  | ended (code : Nat)
  | crashed (fault : Fault)
  | playing (game : Game)

namespace Program

/-! ## Looking scripts through -/

/-- The lines on one script. -/
def issuesText (path : String) (issues : List Issue) : String :=
  if issues.isEmpty then Console.line (path ++ ": OK")
  else
    Console.line (path ++ ":") ++ String.join (issues.map fun i => Console.line (" - " ++ i.line))

/-- Look scripts through; `failed` says whether one of those before has errors. -/
def validate (files : FileTree) : (failed : Bool) → List String → Program × String
  | failed, [] => (.ended (if failed then 1 else 0), "")
  | failed, path :: paths =>
    match Library.fileIssues files (.ofString path) with
    | .error f => (.crashed f, "")
    | .ok issues =>
      let (p, shown) := validate files (failed || hasErrors issues) paths
      (p, issuesText path issues ++ shown)

/-! ## Playing -/

/-- The number of the only completion callback: it shows the answers. -/
def ledgerCallback : Callback := 0

/-- A text that was given and is not empty, or what stands in for it. -/
def given (s : Option String) (stand : String) : String := (nonEmpty? s).getD stand

/-- The console of a player. -/
def consoleOf (w : Surroundings) (settings : Settings) (o : SessionOptions) : Console where
  player := { companion := given o.companion settings.companion
              race := given o.race settings.race }
  debug := w.debug

/-- Begin a game in a library; `first` says how, once the flags are there. -/
def play (w : Surroundings) (files : FileTree) (settings : Settings) (o : SessionOptions)
    (library : Path) (first : Except Fault Entry) : Game × String :=
  let console := consoleOf w settings o
  match FlagStore.open files (some (.ofString (given o.flags settings.flags))) with
  | .error f => Game.failed console files f
  | .ok flags =>
    match first with
    | .error f => Game.failed console files f
    | .ok entry => (Game.begin console { files, library, flags } entry, "")

/-- The library that is named, or else that of the settings. -/
def libraryOf (settings : Settings) (o : SessionOptions) : Path :=
  .ofString (given o.scripts settings.scripts)

/-- Play a script, named by its file or by its id.  A file brings its directory as the
library. -/
def playScript (w : Surroundings) (files : FileTree) (settings : Settings) (o : SessionOptions)
    (script : String) : Game × String :=
  let path := Path.ofString script
  match files.isFile path with
  | .error f => Game.failed (consoleOf w settings o) files (.file f)
  | .ok true =>
    play w files settings o (((nonEmpty? o.scripts).map Path.ofString).getD path.parent)
      (.ok (.start path.name (some ledgerCallback)))
  | .ok false =>
    play w files settings o (libraryOf settings o) (.ok (.start script (some ledgerCallback)))

/-- The graph of a tutorial in the file of a catalog.  Where no id is left, no tutorial
has it. -/
def tutorialGraph (files : FileTree) (catalog : Path) (id : Option String) :
    Except Fault Graph := do
  match ← loadJson files catalog with
  | .object fields =>
    let tutorials ← Tutorial.catalogOf fields
    match id.bind (Tutorial.single? tutorials) with
    | some script => Graph.ofScript script
    | none => throw (.data (.tutorialMissing (id.getD Command.nothing) catalog))
  | _ => throw (.data (.notObject catalog))

/-- Play a tutorial. -/
def playTutorial (w : Surroundings) (files : FileTree) (settings : Settings) (o : SessionOptions)
    (catalog : Path) (id : Option String) : Game × String :=
  play w files settings o (libraryOf settings o)
    ((tutorialGraph files catalog id).map (.startGraph · (some ledgerCallback)))

/-! ## The beginning -/

/-- Carry out a command. -/
def perform (w : Surroundings) (files : FileTree) (settings : Settings) :
    Command → Program × String
  | .validate scripts => validate files false scripts
  | .play o script =>
    let (g, shown) := playScript w files settings o script
    (.playing g, shown)
  | .tutorial o catalog id =>
    let (g, shown) := playTutorial w files settings o catalog id
    (.playing g, shown)

/-- The file of the settings. -/
def settingsFile (w : Surroundings) (invocation : Invocation) : Path :=
  invocation.settings.getD w.settingsFile

/-- The program up to its first step in a game or to its end, and what it shows. -/
def begin (w : Surroundings) (files : FileTree) (args : List String) : Program × String :=
  match Command.ofArguments args with
  | .error .help => (.usage 0, "")
  | .error .misfit => (.usage 2, "")
  | .ok invocation =>
    match Settings.load w files (settingsFile w invocation) with
    | .error f => (.crashed f, "")
    | .ok settings => perform w files settings invocation.command

/-! ## What the program reads -/

/-- The file that a command names for its flags, or the one of the settings. -/
def flagsFile (settings : Settings) : Command → Option Path
  | .play o _ | .tutorial o _ _ => some (.ofString (given o.flags settings.flags))
  | .validate _ => none

/-- The files that a command reads before a game begins. -/
def commandFiles (settings : Settings) (c : Command) : List Path :=
  (flagsFile settings c).toList ++
    match c with
    | .play _ script => [.ofString script]
    | .tutorial _ catalog _ => [catalog]
    | .validate scripts => scripts.map Path.ofString

end Program

end Questline

import Questline.Console.Arguments
import Questline.Files.Path

/-!
# Commands

The program plays a script, plays one tutorial of a catalog, or looks scripts through.

* `Command.ofArguments`: the command that arguments give, with the file of the settings.
-/

namespace Questline

open Arguments (Form Filling Refusal)

/-- What is said about a session: where things are kept and who plays. -/
structure SessionOptions where
  scripts : Option String := none
  flags : Option String := none
  companion : Option String := none
  race : Option String := none
  deriving DecidableEq

/-- A command. -/
inductive Command where
  | play (options : SessionOptions) (script : String)
  /-- Of the tutorial's id nothing is left if it is two dashes and none are before it. -/
  | tutorial (options : SessionOptions) (catalog : Path) (id : Option String)
  | validate (scripts : List String)
  deriving DecidableEq

/-- A command with the file of the settings, if one is named. -/
structure Invocation where
  settings : Option Path := none
  command : Command
  deriving DecidableEq

namespace Command

/-- What is shown in place of a word of which nothing is left. -/
def nothing : String := "[]"

/-- The options that ask for help. -/
def helpOptions : Entries Arguments.OptionUse := [("-h", .help), ("--help", .help)]

/-- The options of a session. -/
def sessionOptions : Entries Arguments.OptionUse :=
  [("--scripts-dir", .value), ("--flags", .value), ("--companion", .value), ("--race", .value)]

/-- The form of the program's own arguments. -/
def programForm : Form := ⟨helpOptions ++ [("--config", .value)], [.remainder]⟩

/-- The form of playing a script. -/
def playForm : Form := ⟨helpOptions ++ sessionOptions, [.one]⟩

/-- The form of playing a tutorial. -/
def tutorialForm : Form := ⟨helpOptions ++ sessionOptions, [.one, .one]⟩

/-- The form of looking scripts through. -/
def validateForm : Form := ⟨helpOptions, [.several]⟩

/-- What a filling says about a session. -/
def readOptions (filling : Filling) : SessionOptions where
  scripts := filling.values.get? "--scripts-dir"
  flags := filling.values.get? "--flags"
  companion := filling.values.get? "--companion"
  race := filling.values.get? "--race"

/-- The command of a name, given its arguments, and whether any are left over. -/
def ofName (name : String) (args : List String) : Except Refusal (Command × Bool) :=
  match name with
  | "play" => do
    let filling ← playForm.fill args
    match filling.words with
    | [[script]] => return (.play (readOptions filling) script, filling.leftOver)
    | _ => throw .misfit
  | "tutorial" => do
    let filling ← tutorialForm.fill args
    match filling.words with
    | [[catalog], id] =>
      return (.tutorial (readOptions filling) (.ofString catalog) id.head?, filling.leftOver)
    | _ => throw .misfit
  | "validate" => do
    let filling ← validateForm.fill args
    match filling.words with
    | [scripts] => return (.validate scripts, filling.leftOver)
    | _ => throw .misfit
  | _ => throw .misfit

/-- The command that arguments give.  Nothing may be left over. -/
def ofArguments (args : List String) : Except Refusal Invocation := do
  let filling ← programForm.fill args
  match filling.words with
  | [name :: rest] =>
    let (command, leftOver) ← ofName name rest
    if filling.leftOver || leftOver then throw .misfit
    else return { settings := (filling.values.get? "--config").map Path.ofString, command }
  | _ => throw .misfit

end Command

end Questline

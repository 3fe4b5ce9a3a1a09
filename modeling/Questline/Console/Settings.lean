import Questline.Files.Tree
import Questline.Json.Reader
import Questline.Json.Writer
import Questline.Fault
import Questline.Text.Blank

/-!
# Settings

The settings say where scripts and flags are kept and who the player is.  They are read
from a file; whatever it does not say, or says in a way that makes no sense, is as it is
by default.

* `Settings.normal`: settings out of any JSON value.
* `Settings.load`, `Settings.save`: reading and writing the file.
-/

namespace Questline

open Json (Value Fields)

/-- Where the program runs: the home directory, the directory that it is installed in,
and whether it is being debugged. -/
structure Surroundings where
  home : Path
  installed : Path
  debug : Bool := false

namespace Surroundings

/-- The directory for what belongs to the user. -/
def userDirectory (w : Surroundings) : Path := w.home.join ⟨0, [".config", "questscript"]⟩

/-- The file of the settings. -/
def settingsFile (w : Surroundings) : Path := w.userDirectory.join ⟨0, ["config.json"]⟩

/-- The file of the flags. -/
def flagsFile (w : Surroundings) : Path := w.userDirectory.join ⟨0, ["flags.json"]⟩

/-- The directory of the scripts that come with the program. -/
def scriptsDirectory (w : Surroundings) : Path := w.installed.join ⟨0, ["data", "scripts"]⟩

end Surroundings

/-- The settings. -/
structure Settings where
  scripts : String
  flags : String
  companion : String
  race : String
  deriving DecidableEq

namespace Settings

/-- The settings by default. -/
def standard (w : Surroundings) : Settings where
  scripts := w.scriptsDirectory.text
  flags := w.flagsFile.text
  companion := "rat"
  race := "unknown"

/-- A value as a setting: a text that is not blank, trimmed. -/
def readSetting (stand : String) : Value → String
  | .string s => if (Text.trim s).isEmpty then stand else Text.trim s
  | _ => stand

/-- The settings that fields give. -/
def ofFields (w : Surroundings) (fields : Fields) : Settings where
  scripts := readSetting (standard w).scripts (Value.field fields "scripts_dir")
  flags := readSetting (standard w).flags (Value.field fields "flags_path")
  companion := readSetting (standard w).companion (Value.field fields "companion_id")
  race := readSetting (standard w).race (Value.field fields "player_race")

/-- The settings that a value gives. -/
def normal (w : Surroundings) : Value → Settings
  | .object fields => ofFields w fields
  | _ => standard w

/-- The settings under their names. -/
def toEntries (s : Settings) : Entries String :=
  [("scripts_dir", s.scripts), ("flags_path", s.flags), ("companion_id", s.companion),
   ("player_race", s.race)]

/-- The text of the file of settings. -/
def document (s : Settings) : String :=
  Json.document (s.toEntries.map fun e => (e.1, .string e.2))

/-- Read the settings.  A file that cannot be read, or holds no JSON, says nothing. -/
def load (w : Surroundings) (files : FileTree) (path : Path) : Except Fault Settings :=
  match files.readText path with
  | .error (.decode e) => .error (.undecodable e)
  | .error (.file e) => if e.cause = .nullCharacter then .error (.file e) else .ok (standard w)
  | .ok text =>
    match Json.read text with
    | .ok v => .ok (normal w v)
    | .error _ => .ok (standard w)

/-- Write the settings that a value gives. -/
def save (w : Surroundings) (files : FileTree) (path : Path) (v : Value) :
    FileTree × Except Fault Unit :=
  match files.writeBelow path (normal w v).document with
  | (files, none) => (files, .ok ())
  | (files, some e) => (files, .error (.file e))

end Settings

end Questline

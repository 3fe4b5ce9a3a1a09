import Questline.Files.Tree
import Questline.Json.Writer

/-!
# Scripts that come with the program

A short quest in two scripts: waking up in the woods, and the gate of a village.  They
are kept as files in the directory that scripts are looked for by default.

* `Bundle.install`: the files put in place.
-/

namespace Questline.Bundle

open Json (Value Fields)

/-- A node as it stands in a file. -/
def node (id kind : String) (data : Fields) : Value :=
  .object ([("id", .string id), ("type", .string kind)] ++
    if data.isEmpty then [] else [("data", .object data)])

/-- A dialogue as it stands in a file. -/
def speech (id : String) (speaker : Option String) (text : String) : Value :=
  node id "dialogue" ((speaker.map fun s => ("speaker", .string s)).toList ++
    [("text", .string text)])

/-- A trigger as it stands in a file. -/
def fires (id event : String) (params : Fields) : Value :=
  node id "trigger" [("event", .string event), ("params", .object params)]

/-- A connection as it stands in a file; the first output need not be named. -/
def link (source target : String) (output : Option Int := none) : Value :=
  .object ([("fromId", .string source), ("toId", .string target)] ++
    (output.map fun i => ("outputIndex", .int i)).toList)

/-- A script as it stands in a file. -/
def script (nodes connections : List Value) : Value :=
  .object [("nodes", .array nodes), ("connections", .array connections)]

/-- Waking up in the woods. -/
def intro : Value := script
  [fires "1" "playMusic" [("trackPath", .string "music/forest.ogg")],
   speech "2" (some "companion") "Finally awake? Sleeping in the woods is asking for trouble.",
   node "3" "choice" [("question", .string "What do you do?"),
     ("options", .array [.string "Follow the path", .string "Search the bushes"])],
   node "4" "item" [("itemId", .string "rusty_key"), ("action", .string "give"),
     ("amount", .int 1)],
   fires "5" "spawnNPC" [("npcId", .string "goblin_scout"), ("name", .string "Goblin Scout"),
     ("x", .int 4), ("y", .int 0), ("z", .int 2)],
   node "6" "combat" [("opponent", .object [("enemy", .string "goblin_scout"),
     ("level", .int 1)])],
   fires "7" "setFlag" [("flag", .string "beatScout")],
   node "8" "link_script" [("scriptPath", .string "village"), ("useTemplates", .bool true)],
   speech "9" none "Ouch. Let's not do that again.",
   node "10" "end" []]
  [link "1" "2", link "2" "3", link "3" "5" (some 0), link "3" "4" (some 1), link "4" "5",
   link "5" "6", link "6" "7" (some 0), link "6" "9" (some 1), link "7" "8", link "9" "10"]

/-- The gate of the village. -/
def village : Value := script
  [node "1" "condition" [("checkType", .string "hasItem"), ("value", .string "rusty_key")],
   speech "2" (some "Gatekeeper")
     "That key... \x7b\x7bcompanion_name\x7d\x7d must trust you. Come in.",
   speech "3" (some "Gatekeeper") "No key, no entry.",
   fires "4" "setWeather" [("weather", .string "clear")],
   node "5" "end" []]
  [link "1" "2" (some 0), link "1" "3" (some 1), link "2" "4", link "3" "5"]

/-- The scripts by the names of their files. -/
def files : Entries Value := [("intro.json", intro), ("village.json", village)]

/-- Put a script into a directory, unless there is a file of its name. -/
def installOne (directory : Path) (t : FileTree) (e : String × Value) : FileTree :=
  let path := directory.join ⟨0, [e.1]⟩
  if (t.readBytes path).isOk then t else (t.writeBelow path (Json.compact e.2)).1

/-- Put the scripts into a directory. -/
def install (t : FileTree) (directory : Path) : FileTree :=
  files.foldl (installOne directory) t

end Questline.Bundle

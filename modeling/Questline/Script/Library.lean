import Questline.Json.Reader
import Questline.Script.Issue

/-!
# Libraries of scripts

A library is a directory in which each script has a file.  A script's id names its
file, with or without the suffix.  Nothing is remembered: each loading reads the file
as it is then.

* `Library.load`: the graph of a script.
* `Library.ids`: the scripts of the directory.
* `Library.loadFile`, `Library.fileIssues`: the graph and the issues of a file that is
  named by its path.
-/

namespace Questline

open Json (Value)

/-- The JSON value of a file. -/
def loadJson (files : FileTree) (path : Path) : Except Fault Value :=
  match files.readText path with
  | .error (.decode e) => .error (.undecodable e)
  | .error (.file e) =>
    match e.cause with
    | .missing => .error (.data (.fileMissing path))
    | .nullCharacter => .error (.file e)
    | _ => .error (.data (.fileUnreadable path))
  | .ok text =>
    match Json.read text with
    | .ok v => .ok v
    | .error e => .error (.data (.notJson path e))

namespace Library

/-- What the name of a script's file ends in. -/
def suffix : String := ".json"

/-- Whether a name has the suffix. -/
def hasSuffix (name : String) : Bool := suffix.toList.isSuffixOf name.toList

/-- The file of a script. -/
def file (directory : Path) (id : String) : Path :=
  directory.join (.ofString (if hasSuffix id then id else id ++ suffix))

/-- The nodes and connections of a script, as its file gives them. -/
def loadScript (files : FileTree) (directory : Path) (id : String) : Except Fault Script := do
  let v ← loadJson files (file directory id)
  match v with
  | .object _ => Script.ofValue id v
  | _ => throw (.data (.notObject (file directory id)))

/-- The graph of a script. -/
def load (files : FileTree) (directory : Path) (id : String) : Except Fault Graph := do
  Graph.ofScript (← loadScript files directory id)

/-- Whether a script has a file. -/
def contains (files : FileTree) (directory : Path) (id : String) : Except Fault Bool :=
  (files.isFile (file directory id)).mapError .file

/-- A name put in front of the first greater one. -/
def insertName (name : String) : List String → List String
  | [] => [name]
  | other :: names => if name < other then name :: other :: names else other :: insertName name names

/-- The ids of what has a script's suffix in the directory, by code points. -/
def ids (files : FileTree) (directory : Path) : Except Fault (List String) :=
  ((files.isDir directory).mapError .file).map fun there =>
    if there then
      (((files.namesIn directory).filter hasSuffix).map Path.withoutSuffix).foldr insertName []
    else []

/-- The graph of the file that a path names. -/
def loadFile (files : FileTree) (path : Path) : Except Fault Graph :=
  load files path.parent path.name

/-- The issues of the file that a path names.  What keeps it from being read as a
script is an issue, too. -/
def fileIssues (files : FileTree) (path : Path) : Except Fault (List Issue) :=
  match loadJson files path >>= Script.ofValue path.stem with
  | .ok s => .ok s.issues
  | .error (.data e) => .ok [⟨path.stem, .notLoaded e⟩]
  | .error e => .error e

end Library

end Questline

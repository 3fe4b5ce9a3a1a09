import Questline.Files.Path
import Questline.Text.Quoted
import Questline.Text.Utf8

/-!
# Files

A tree of files is a value: it says which places hold a file and which a
directory.  A path is followed name by name, each step needing a directory; two
dots lead back up.  Reading, writing and creating directories fail as a file system
makes them fail.

* `FileTree.find`: the place that a path leads to.
* `FileTree.readText`: the text of a file, with every line end made a newline.
* `FileTree.writeBytes`, `FileTree.makeDirs`, `FileTree.writeBelow`: changes.
-/

namespace Questline

/-! ## Failures -/

/-- Why a file operation fails. -/
inductive FileFault.Cause where
  | missing
  | alreadyThere
  | notDirectory
  | isDirectory
  | nameTooLong
  | nullCharacter
  deriving DecidableEq

/-- A failed file operation on a path. -/
structure FileFault where
  cause : FileFault.Cause
  path : Path
  deriving DecidableEq

/-- The failure in words, with its number. -/
def FileFault.message (f : FileFault) : String :=
  let numbered (n : Nat) (words : String) :=
    "[Errno " ++ natText n ++ "] " ++ words ++ ": " ++ Text.quoted f.path.text
  match f.cause with
  | .missing => numbered 2 "No such file or directory"
  | .alreadyThere => numbered 17 "File exists"
  | .notDirectory => numbered 20 "Not a directory"
  | .isDirectory => numbered 21 "Is a directory"
  | .nameTooLong => numbered 36 "File name too long"
  | .nullCharacter => "embedded null byte"

/-- Why the text of a file cannot be had. -/
inductive TextFault where
  | file (f : FileFault)
  | decode (f : Utf8.DecodeFault)
  deriving DecidableEq

/-! ## Places -/

/-- The names that lead from the root of all files to a place. -/
abbrev Place := List String

/-- What a place holds. -/
inductive FileEntry where
  | file (bytes : List UInt8)
  | directory
  deriving DecidableEq

/-- The files within reach: the working directory, and what each place holds. -/
structure FileTree where
  workplace : Place
  entries : List (Place × FileEntry)

namespace FileTree

/-- A tree that holds nothing but the working directory and the directories above
it. -/
def empty (workplace : Place) : FileTree :=
  { workplace
    entries := (List.range workplace.length).map fun n => (workplace.take (n + 1), .directory) }

instance : Inhabited FileTree := ⟨.empty []⟩

/-- What a place holds.  The root is a directory. -/
def entry? (t : FileTree) (place : Place) : Option FileEntry :=
  if place = [] then some .directory else t.entries.lookup place

/-- Put something at a place. -/
def store (t : FileTree) (place : Place) (e : FileEntry) : FileTree :=
  { t with entries := (place, e) :: t.entries.filter fun x => x.1 != place }

/-- Remove what a place holds. -/
def remove (t : FileTree) (place : Place) : FileTree :=
  { t with entries := t.entries.filter fun x => x.1 != place }

/-- The place one name below or, for two dots, above a place, which must be a
directory. -/
def descend (t : FileTree) (place : Place) (name : String) : Except FileFault.Cause Place :=
  match t.entry? place with
  | none => .error .missing
  | some (.file _) => .error .notDirectory
  | some .directory =>
    if name = ".." then .ok place.dropLast
    else if 255 < (Utf8.encode name.toList).length then .error .nameTooLong
    else .ok (place ++ [name])

/-- Follow names from a place. -/
def follow (t : FileTree) : (place : Place) → (names : List String) → Except FileFault.Cause Place
  | place, [] => .ok place
  | place, name :: names =>
    match t.descend place name with
    | .error e => .error e
    | .ok place' => t.follow place' names

/-- The place that a path leads to, whether or not it holds anything. -/
def find (t : FileTree) (p : Path) : Except FileFault Place :=
  let fail (cause : FileFault.Cause) : Except FileFault Place := .error ⟨cause, p⟩
  if p.parts.any (·.toList.contains '\x00') then fail .nullCharacter
  else if 4096 ≤ (Utf8.encode p.text.toList).length then fail .nameTooLong
  else
    match t.follow (if p.isAbsolute then [] else t.workplace) p.parts with
    | .ok place => .ok place
    | .error e => fail e

/-- What a path leads to; none where it leads nowhere. -/
def at? (t : FileTree) (p : Path) : Option FileEntry :=
  match t.find p with
  | .ok place => t.entry? place
  | .error _ => none

/-- Look at what a path leads to.  A path that leads nowhere is no failure, but one with
a name that is too long cannot be looked at. -/
def look (t : FileTree) (p : Path) : Except FileFault (Option FileEntry) :=
  match t.find p with
  | .ok place => .ok (t.entry? place)
  | .error e => if e.cause = .nameTooLong then .error e else .ok none

/-- Whether what a path leads to is a file. -/
def isFile (t : FileTree) (p : Path) : Except FileFault Bool :=
  (t.look p).map fun e =>
    match e with
    | some (.file _) => true
    | _ => false

/-- Whether what a path leads to is a directory. -/
def isDir (t : FileTree) (p : Path) : Except FileFault Bool :=
  (t.look p).map fun e => e == some .directory

/-- The names of what a directory holds. -/
def namesIn (t : FileTree) (p : Path) : List String :=
  match t.find p with
  | .error _ => []
  | .ok place => t.entries.filterMap fun x => if x.1.dropLast = place then x.1.getLast? else none

/-! ## Reading -/

/-- The bytes of the file that a path leads to. -/
def readBytes (t : FileTree) (p : Path) : Except FileFault (List UInt8) :=
  match t.find p with
  | .error e => .error e
  | .ok place =>
    match t.entry? place with
    | none => .error ⟨.missing, p⟩
    | some .directory => .error ⟨.isDirectory, p⟩
    | some (.file bytes) => .ok bytes

/-- Line ends of every kind as newlines. -/
def newlines : List Char → List Char
  | [] => []
  | '\r' :: '\n' :: cs => '\n' :: newlines cs
  | '\r' :: cs => '\n' :: newlines cs
  | c :: cs => c :: newlines cs

/-- The text of the file that a path leads to. -/
def readText (t : FileTree) (p : Path) : Except TextFault String :=
  match t.readBytes p with
  | .error e => .error (.file e)
  | .ok bytes =>
    match Utf8.decode bytes with
    | .error e => .error (.decode e)
    | .ok cs => .ok (String.ofList (newlines cs))

/-! ## Writing -/

/-- Write the file that a path leads to, in place of what it held. -/
def writeBytes (t : FileTree) (p : Path) (bytes : List UInt8) : Except FileFault FileTree :=
  match t.find p with
  | .error e => .error e
  | .ok place =>
    match t.entry? place with
    | some .directory => .error ⟨.isDirectory, p⟩
    | _ => .ok (t.store place (.file bytes))

/-- Delete the file that a path leads to. -/
def delete (t : FileTree) (p : Path) : Except FileFault FileTree :=
  match t.find p with
  | .error e => .error e
  | .ok place =>
    match t.entry? place with
    | none => .error ⟨.missing, p⟩
    | some .directory => .error ⟨.isDirectory, p⟩
    | some (.file _) => .ok (t.remove place)

/-- Create one directory. -/
def makeDir (t : FileTree) (p : Path) : Except FileFault FileTree :=
  match t.find p with
  | .error e => .error e
  | .ok place =>
    match t.entry? place with
    | some _ => .error ⟨.alreadyThere, p⟩
    | none => .ok (t.store place .directory)

/-- A directory that could not be created is no failure if it is there. -/
def settleDir (t : FileTree) (p : Path) : Except FileFault FileTree → FileTree × Option FileFault
  | .ok t' => (t', none)
  | .error e => if t.at? p = some .directory then (t, none) else (t, some e)

/-- Create the directory with the given root and names, the last name first, and
before it the directories above it that are missing. -/
def makeDirsAbove (slashes : Nat) : (names : List String) → FileTree → FileTree × Option FileFault
  | [], t => t.settleDir ⟨slashes, []⟩ (t.makeDir ⟨slashes, []⟩)
  | name :: above, t =>
    let p : Path := ⟨slashes, (name :: above).reverse⟩
    match t.makeDir p with
    | .error ⟨.missing, _⟩ =>
      match makeDirsAbove slashes above t with
      | (t', some e) => (t', some e)
      | (t', none) => t'.settleDir p (t'.makeDir p)
    | r => t.settleDir p r

/-- Create a directory and those above it that are missing.  What was created stays,
also if the rest fails. -/
def makeDirs (t : FileTree) (p : Path) : FileTree × Option FileFault :=
  makeDirsAbove p.slashes p.parts.reverse t

/-- Write a file after the directories above it have been created. -/
def writeBytesBelow (t : FileTree) (p : Path) (bytes : List UInt8) : FileTree × Option FileFault :=
  match t.makeDirs p.parent with
  | (t', some e) => (t', some e)
  | (t', none) =>
    match t'.writeBytes p bytes with
    | .ok t'' => (t'', none)
    | .error e => (t', some e)

/-- Write a text after the directories above its file have been created. -/
def writeBelow (t : FileTree) (p : Path) (s : String) : FileTree × Option FileFault :=
  t.writeBytesBelow p (Utf8.encode s.toList)

end FileTree

end Questline

import Questline.Console.Bundle
import Questline.Console.Program

/-!
# The command

The outer layer of the program: it brings the files that are needed into a tree, lets
the program go on step by step, prints what is shown, reads lines, and writes the flags
back.  It decides nothing.
-/

namespace Questline.Main

/-- The names of a path that a system call gives. -/
def placeOf (text : String) : Place := (Path.ofString text).parts

/-- Bring the file or directory of a path into the tree. -/
def fetch (files : FileTree) (path : Path) : IO FileTree := do
  try
    let real ← IO.FS.realPath path.text
    if ← real.isDir then return (files.makeDirs path).1
    let bytes ← IO.FS.readBinFile real
    match (files.makeDirs path.parent).1.writeBytes path bytes.toList with
    | .ok files => return files
    | .error _ => return files
  catch _ => return files

/-- Bring the files of several paths into the tree. -/
def fetchAll (files : FileTree) (paths : List Path) : IO FileTree := paths.foldlM fetch files

/-- Write a file of the tree back if it has changed. -/
def writeBack (before after : FileTree) (path : Path) : IO Unit := do
  match before.readBytes path, after.readBytes path with
  | old, .ok bytes =>
    unless old.toOption = some bytes do
      IO.FS.createDirAll path.parent.text
      IO.FS.writeBinFile path.text ⟨bytes.toArray⟩
  | _, .error _ => return

/-- A line of input, or none at its end. -/
def readLine : IO (Option String) := do
  let l ← (← IO.getStdin).getLine
  if l.isEmpty then return none
  else return some (String.ofList (if l.endsWith "\n" then l.toList.dropLast else l.toList))

/-- Print at once. -/
def emit (s : String) : IO Unit := do
  let out ← IO.getStdout
  out.putStr s
  out.flush

/-- Let a game go on to its end. -/
partial def play (flags : Path) (g : Game) : IO UInt32 := do
  let files ← fetchAll g.files g.wanted
  let g := g.withFiles files
  match g.next? with
  | some (g', shown) =>
    emit shown
    writeBack files g'.files flags
    play flags g'
  | none =>
    match g.stage with
    | .over _ code => return code.toUInt32
    | .crashed _ f =>
      IO.eprintln f.message
      return 1
    | _ =>
      let (g', shown) := g.line (← readLine)
      emit shown
      play flags g'

/-- How the program is used. -/
def usage : String :=
  "usage: questline [--config FILE] (play SCRIPT | tutorial CATALOG ID | validate FILE...)"

/-- The files that the arguments ask for, and among them the one for the flags. -/
def gather (w : Surroundings) (files : FileTree) (args : List String) :
    IO (FileTree × Path) := do
  match Command.ofArguments args with
  | .error _ => return (files, w.flagsFile)
  | .ok invocation =>
    let files ← fetch files (Program.settingsFile w invocation)
    match Settings.load w files (Program.settingsFile w invocation) with
    | .error _ => return (files, w.flagsFile)
    | .ok settings =>
      let files ← fetchAll files (Program.commandFiles settings invocation.command)
      return (files, (Program.flagsFile settings invocation.command).getD w.flagsFile)

/-- Carry out the command that the arguments give. -/
def run (args : List String) : IO UInt32 := do
  let here ← IO.currentDir
  let home := (← IO.getEnv "HOME").getD "."
  let installed ← IO.appDir
  let debug := (← IO.getEnv "QUESTSCRIPT_DEBUG") == some "1"
  let w : Surroundings :=
    { home := .ofString home, installed := .ofString installed.toString, debug }
  let files := Bundle.install (.empty (placeOf here.toString)) w.scriptsDirectory
  let (files, flags) ← gather w files args
  let (program, shown) := Program.begin w files args
  emit shown
  match program with
  | .usage code =>
    IO.eprintln usage
    return code.toUInt32
  | .ended code => return code.toUInt32
  | .crashed f =>
    IO.eprintln f.message
    return 1
  | .playing g => play flags g

end Questline.Main

/-- Carry out the command that the arguments give. -/
def main (args : List String) : IO UInt32 := Questline.Main.run args

import Questline.Flag.Store
import Questline.Run.Host
import Questline.Script.Library

/-!
# Runs and sessions

A run is everything remembered between the start of a script and its end.  A session
holds all runs there ever were, the one that is current with its graph, the flags and
files, and the jobs that are queued.  Runs and waits are numbered, so that whatever
comes back late can be told from what is still waited for.

* `Session.run`, `Session.setRun`: look at a run and change it.
* `Session.owns`: whether a run is the current one and goes on.
* `Session.isWaiting`: whether a run is suspended on a given wait.
-/

namespace Questline

open Json (Value)

/-! ## Runs -/

/-- A wait that a run is suspended on.  `timer` says that a timer runs for it that can
be cancelled. -/
structure Wait where
  id : WaitId
  kind : WaitKind
  node : String
  timer : Bool := false
  deriving DecidableEq

/-- A run of a script.  The figures it spawned are kept in order, each once. -/
structure Run where
  script : String := ""
  node : Option String := none
  phase : Phase := .running
  activity : Activity := .running
  ledger : Ledger := []
  npcs : List String := []
  completion : Option Callback := none
  wait : Option Wait := none
  counters : Entries Nat := []
  warnings : List Warning := []
  deriving DecidableEq

instance : Inhabited Run := ⟨{}⟩

/-- A name among names in order. -/
def insertOnce (name : String) : List String → List String
  | [] => [name]
  | other :: names =>
    if name < other then name :: other :: names
    else if name = other then other :: names
    else other :: insertOnce name names

namespace Run

/-- Whether the run goes on. -/
def isActive (run : Run) : Bool := run.phase.isActive

/-- Whether the run is suspended on the given wait. -/
def isWaitingOn (run : Run) (wait : WaitId) : Bool :=
  run.phase == .suspended && run.wait.any (·.id == wait)

/-- Count a visit of a node of the given kind. -/
def count (run : Run) (kind : String) : Run :=
  { run with counters := run.counters.put kind ((run.counters.get? kind).getD 0 + 1) }

/-- The name of a kind in words. -/
def kindWords (kind : String) : String :=
  Text.capitalize (String.ofList (kind.toList.map fun c => if c = '_' then ' ' else c))

/-- What the latest visit of a node of the kind is called: the kind and how many there
were. -/
def label (run : Run) (kind : String) : String :=
  kindWords kind ++ " " ++ natText ((run.counters.get? kind).getD 0)

/-- Remember a figure. -/
def addNpc (run : Run) (npc : String) : Run := { run with npcs := insertOnce npc run.npcs }

/-- Forget a figure. -/
def dropNpc (run : Run) (npc : String) : Run := { run with npcs := run.npcs.filter (· != npc) }

/-- Add a warning. -/
def warn (run : Run) (warning : Warning) : Run :=
  { run with warnings := run.warnings ++ [warning] }

/-- Mark whether a timer runs for the wait of the given number. -/
def setTimer (run : Run) (wait : WaitId) (timer : Bool) : Run :=
  { run with wait := run.wait.map fun w => if w.id = wait then { w with timer } else w }

end Run

/-! ## Sessions -/

/-- What a run does first when its turn comes.  The graph is the one that was current
when the job was queued. -/
inductive Job where
  | enter (graph : Graph)
  | respond (node : Node) (graph : Graph) (answer : Value)
  | resolve (node : Node) (graph : Graph) (outcome : Value)
  deriving DecidableEq

/-- The state of a runner and of what it works with. -/
structure Session where
  files : FileTree
  library : Path
  flags : FlagStore := {}
  runs : List Run := []
  current : Option RunId := none
  graph : Option Graph := none
  lastError : Option Fault := none
  pending : List (RunId × Job) := []
  draining : Bool := false
  nextWait : WaitId := 0
  writes : List (Ticket × WriteHandle) := []

namespace Session

/-- The run of a number. -/
def run (s : Session) (r : RunId) : Run := s.runs[r]?.getD {}

/-- Change a run. -/
def setRun (s : Session) (r : RunId) (f : Run → Run) : Session :=
  { s with runs := s.runs.modify r f }

/-- Add a run and make it the current one. -/
def addRun (s : Session) (run : Run) : Session :=
  { s with runs := s.runs ++ [run], current := some s.runs.length }

/-- The current run. -/
def currentRun? (s : Session) : Option Run := s.current.map s.run

/-- Whether a run is the current one and goes on. -/
def owns (s : Session) (r : RunId) : Bool := s.current == some r && (s.run r).isActive

/-- Whether a run is the current one and suspended on the given wait. -/
def isWaiting (s : Session) (r : RunId) (wait : WaitId) : Bool :=
  s.current == some r && (s.run r).isWaitingOn wait

/-- Suspend a run on a new wait. -/
def suspend (s : Session) (r : RunId) (kind : WaitKind) (node : String) : Session :=
  { s.setRun r fun run => { run with
      wait := some { id := s.nextWait, kind, node }
      phase := .suspended
      activity := kind.activity } with
    nextWait := s.nextWait + 1 }

/-- The phase of the current run; stopped if there is none. -/
def phase (s : Session) : Phase := (s.currentRun?.map (·.phase)).getD .stopped

/-- What the current run is busy with. -/
def activity (s : Session) : Activity := (s.currentRun?.map (·.activity)).getD .idle

/-- The kind of the wait of the current run. -/
def waitingFor? (s : Session) : Option WaitKind :=
  (s.currentRun?.bind (·.wait)).map (·.kind)

end Session

end Questline

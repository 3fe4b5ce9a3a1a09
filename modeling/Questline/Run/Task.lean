import Questline.Run.State

/-!
# Tasks, asks and frames

The work of a session is cut into moves.  A move changes the session and says what
comes next: a task to begin, a call of the host to ask for, or an outcome for whoever
waits for it.  Who waits is written down in frames, so that at every moment the rest of
the work is a value, and the host can come back with new work while its answer is
awaited.

* `Entry`: what the host may begin.
* `Task`, `Ask`, `Frame`: what can be begun, asked for and waited for.
* `Move`: one step of the work.
-/

namespace Questline

open Json (Value Fields)

/-! ## Steps -/

/-- What a run is suspended on, with what the host has to be given. -/
inductive Scene where
  | card (card : Card)
  | battle (opponent : Fields)
  deriving DecidableEq

/-- The kind of the wait for a scene. -/
def Scene.kind : Scene → WaitKind
  | .card c => c.kind
  | .battle _ => .combat

/-- What follows the visit of a node. -/
inductive Action where
  | next (node : Node)
  | suspend (scene : Scene)
  | link (link : Link)
  /-- The node ends the quest. -/
  | finish
  /-- Nothing is connected to the output that is taken. -/
  | terminal
  deriving DecidableEq

/-- A visited node and what follows. -/
structure Step where
  node : Node
  action : Action
  deriving DecidableEq

/-- The card that a step hands to the player. -/
def Step.card (s : Step) : Except Fault Card :=
  match s.action with
  | .suspend (.card c) => .ok c
  | _ => .error .nothingToShow

/-- What a task gives back. -/
inductive Result where
  | done
  | stepped (step : Step)
  deriving DecidableEq

/-! ## Tasks -/

/-- What the host may begin. -/
inductive Entry where
  | start (script : String) (completion : Option Callback)
  | startGraph (graph : Graph) (completion : Option Callback)
  /-- The player goes on; null is no answer. -/
  | advance (answer : Value)
  | stop
  | battleOver (battle : BattleHandle) (outcome : Value)
  | timeUp (timer : TimerHandle)
  /-- The end of a write is delivered. -/
  | written (delivery : Delivery)
  /-- A write ends. -/
  | settle (ticket : Ticket) (outcome : WriteOutcome)
  deriving DecidableEq

/-- What can be begun. -/
inductive Task where
  | entry (entry : Entry)
  | drive (run : RunId) (job : Job)
  | visit (run : RunId) (node : Node) (graph : Graph)
  | respond (run : RunId) (node : Node) (graph : Graph) (answer : Value)
  | resolve (run : RunId) (node : Node) (graph : Graph) (outcome : Value)
  | follow (run : RunId) (node : Node) (output : Int) (graph : Graph)
  | dispatch (run : RunId) (trigger : Trigger)
  | report (run : RunId) (warnings : List Warning)
  | engage (card : Card)
  | terminate (run : RunId) (phase : Phase)
  deriving DecidableEq

/-! ## Asks -/

/-- A call of the host, with what its answer is needed for. -/
inductive Ask where
  | engage (card : Card)
  | startTimer (seconds : Number) (timer : TimerHandle)
  | cancelTimer (timer : TimerHandle)
  | deliver (delivery : Delivery)
  | give (item : String) (amount : Number)
  | take (run : RunId) (node : String) (item : String) (amount : Number)
  | count (run : RunId) (node : Node) (condition : Condition) (graph : Graph)
  | battle (opponent : Fields) (handle : BattleHandle)
  | spawn (run : RunId) (request : SpawnRequest)
  | remove (run : RunId) (npc : String)
  | world (event : WorldEvent)
  /-- A table for the graph that is linked to. -/
  | fillIn (run : RunId) (graph : Graph)
  /-- A warning, and those to be reported after it. -/
  | report (run : RunId) (warning : Warning) (rest : List Warning)
  /-- A figure that leaves with its run, and those to leave after it. -/
  | dismiss (run : RunId) (npc : String) (rest : List String)
  /-- The answers so far, before a link is taken. -/
  | handOver (run : RunId) (node : String) (link : Link) (callback : Callback) (ledger : Ledger)
  /-- The answers, at the end of a run. -/
  | announce (callback : Callback) (ledger : Ledger)
  deriving DecidableEq

/-- The call that is asked for. -/
abbrev Ask.call : Ask → Call
  | .engage card => .present card
  | .startTimer seconds timer => .startTimer seconds timer
  | .cancelTimer timer => .cancelTimer timer
  | .deliver delivery => .callSoon delivery
  | .give item amount => .giveItem item amount
  | .take _ _ item amount => .takeItem item amount
  | .count _ _ condition _ => .countItem condition.target
  | .battle opponent handle => .startBattle opponent handle
  | .spawn _ request => .spawn request
  | .remove _ npc => .remove npc
  | .world event => .world event
  | .fillIn _ _ => .templateTable
  | .report _ warning _ => .reportWarning warning
  | .dismiss _ npc _ => .remove npc
  | .handOver _ _ _ callback ledger => .complete callback ledger
  | .announce callback ledger => .complete callback ledger

/-! ## Frames and moves -/

/-- What waits for an outcome. -/
inductive Frame where
  /-- The queue, while it is worked off. -/
  | draining
  /-- A run, while it goes from node to node. -/
  | driving (run : RunId)
  /-- A fault to go on with after the run has been cleaned up. -/
  | failing (fault : Fault)
  /-- A trigger, whose event may turn out to be unknown. -/
  | triggering (run : RunId) (node : Node) (graph : Graph)
  /-- An output to be taken. -/
  | following (run : RunId) (node : Node) (output : Int) (graph : Graph)
  /-- A step to be given back. -/
  | stepping (step : Step)
  /-- A timer to be started, unless the wait is over. -/
  | timing (run : RunId) (wait : WaitId) (seconds : Number)
  /-- A run to be resumed once its timer is cancelled. -/
  | resuming (run : RunId) (job : Job)
  /-- A run to be ended once its timer is cancelled. -/
  | ending (run : RunId) (phase : Phase)
  /-- Answers to be announced once the figures have left. -/
  | announcing (completion : Option Callback) (ledger : Ledger)
  /-- A link that goes on after its write. -/
  | linking (run : RunId)
  /-- Deliveries to be made after the one under way. -/
  | posting (rest : List Delivery)
  /-- A call of the host, from inside which new work was begun. -/
  | asked (ask : Ask)
  deriving DecidableEq

/-- What comes next. -/
inductive Control where
  | work (task : Task)
  | ask (ask : Ask)
  | done (result : Result)
  | failed (fault : Fault)
  deriving DecidableEq

/-- A step of the work: the session after it, the frames that are put on top, and what
comes next. -/
structure Move where
  session : Session
  frames : List Frame := []
  control : Control

namespace Move

/-- A move that is done. -/
def finished (s : Session) : Move := ⟨s, [], .done .done⟩

/-- A move that gives back a step. -/
def stepped (s : Session) (node : Node) (action : Action) : Move :=
  ⟨s, [], .done (.stepped ⟨node, action⟩)⟩

/-- A move that fails. -/
def failure (s : Session) (fault : Fault) : Move := ⟨s, [], .failed fault⟩

/-- A move that begins a task. -/
def work (s : Session) (task : Task) : Move := ⟨s, [], .work task⟩

/-- A move that asks the host. -/
def ask (s : Session) (a : Ask) : Move := ⟨s, [], .ask a⟩

/-- A move whose outcome a frame waits for. -/
def under (m : Move) (f : Frame) : Move := { m with frames := m.frames ++ [f] }

end Move

end Questline

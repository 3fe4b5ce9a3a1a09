import Questline.Run.Visit

/-!
# The course of a run

A session drives one run at a time.  A run is driven from node to node until it is
suspended, ends, or fails; whatever resumes it meanwhile is queued and taken up when the
run in hand has come to rest.  A link takes a run on to another script: first the answers
are handed over, then a write is waited for if the host has one under way, and only then
is the target read and entered.  A run that fails is stopped, and the fault goes on to
the caller.

* `Session.enter`: begin what the host asks for.
* `Session.drive`, `Session.settle`: a run on its way, and where it comes to rest.
* `Session.terminate`: the end of a run: its timer is cancelled, its figures leave if it
  is stopped, and its answers are announced.
* `Session.transfer`: a link.
-/

namespace Questline.Session

open Json (Value)

/-! ## The queue -/

/-- Queue a job, and work the queue off unless that is going on already. -/
def enqueue (s : Session) (r : RunId) (job : Job) : Move :=
  let s := { s with pending := s.pending ++ [(r, job)] }
  if s.draining then .finished s
  else (Move.finished { s with draining := true }).under .draining

/-- Take up the first job of the queue. -/
def drain (s : Session) : Move :=
  match s.pending with
  | [] => .finished { s with draining := false }
  | (r, job) :: rest => (Move.work { s with pending := rest } (.drive r job)).under .draining

/-- The task that a job of a run is. -/
def taskOf (r : RunId) : Job → Task
  | .enter graph => .visit r graph.entry graph
  | .respond node graph answer => .respond r node graph answer
  | .resolve node graph outcome => .resolve r node graph outcome

/-- Drive a run, beginning with a job; nothing is done for a run that is over or
replaced. -/
def drive (s : Session) (r : RunId) (job : Job) : Move :=
  if s.owns r then (Move.work s (taskOf r job)).under (.driving r) else .finished s

/-! ## Resuming -/

/-- Let a run go on with a job. -/
def resume (s : Session) (r : RunId) (job : Job) : Move :=
  (s.setRun r fun run =>
    { run with wait := none, phase := .running, activity := .running }).enqueue r job

/-- Cancel the timer of a run, if it has one, and then do something else. -/
def withoutTimer (s : Session) (r : RunId) (frame : Frame) (go : Session → Move) : Move :=
  match (s.run r).wait with
  | some w =>
    if w.timer then
      (Move.ask (s.setRun r (·.setTimer w.id false)) (.cancelTimer ⟨r, w.id⟩)).under frame
    else go s
  | none => go s

/-- End the wait of a run and let it go on with a job. -/
def clear (s : Session) (r : RunId) (job : Job) : Move :=
  s.withoutTimer r (.resuming r job) fun s => s.resume r job

/-- Let a run go on from the node it waits at, with an answer. -/
def resumeInput (s : Session) (r : RunId) (wait : Wait) (answer : Value) : Move :=
  match s.graph with
  | none => .failure s .graphGone
  | some graph =>
    match graph.node? wait.node with
    | none => .failure s (.noSuchNode wait.node)
    | some node => s.clear r (.respond node graph answer)

/-! ## The end of a run -/

/-- Announce the answers of a run. -/
def announce (s : Session) (completion : Option Callback) (ledger : Ledger) : Move :=
  match completion with
  | none => .finished s
  | some callback => .ask s (.announce callback ledger)

/-- Let figures leave, and after the last one forget them all. -/
def dismiss (s : Session) (r : RunId) : List String → Move
  | [] => .finished (s.setRun r fun run => { run with npcs := [] })
  | npc :: rest => .ask s (.dismiss r npc rest)

/-- End a run whose timer is cancelled. -/
def close (s : Session) (r : RunId) (phase : Phase) : Move :=
  let run := s.run r
  let s := s.setRun r fun run => { run with
    wait := none
    completion := none
    phase
    activity := .idle
    node := none
    ledger := [] }
  let s := if s.current == some r then { s with graph := none } else s
  if phase = .stopped then (s.dismiss r run.npcs).under (.announcing run.completion run.ledger)
  else s.announce run.completion run.ledger

/-- End a run. -/
def terminate (s : Session) (r : RunId) (phase : Phase) : Move :=
  s.withoutTimer r (.ending r phase) fun s => s.close r phase

/-- Stop a run that goes on. -/
def stopIfActive (s : Session) (r : RunId) : Move :=
  if (s.run r).isActive then .work s (.terminate r .stopped) else .finished s

/-- Stop the current run unless it is stopped already. -/
def stop (s : Session) : Move :=
  match s.current with
  | none => .finished s
  | some r => if (s.run r).phase = .stopped then .finished s else s.terminate r .stopped

/-! ## Links -/

/-- Go on in another graph. -/
def install (s : Session) (r : RunId) (graph : Graph) : Move :=
  ({ s.setRun r fun run => { run with
      script := graph.id
      node := none
      phase := .running
      activity := .running } with graph := some graph }).enqueue r (.enter graph)

/-- Read the target of a link and go on there. -/
def loadTarget (s : Session) (r : RunId) (link : Link) : Move :=
  match Library.load s.files s.library link.target with
  | .ok graph => if link.useTemplates then .ask s (.fillIn r graph) else s.install r graph
  | .error (.data f) => .failure s (.link (.notLoaded link.target f))
  | .error f => .failure s f

/-- Take a link after a write. -/
def afterWrite (s : Session) (r : RunId) (link : Link) : WriteOutcome → Move
  | .written => s.loadTarget r link
  | .failed reason => .failure s (.link (.writeFailed link.target reason))
  | .cancelled => .failure s (.link (.writeCancelled link.target))

/-- Take a link, or wait for the write that comes before it. -/
def afterHandOver (s : Session) (r : RunId) (node : String) (link : Link) : Receipt → Move
  | .plain => s.loadTarget r link
  | .finished outcome => s.afterWrite r link outcome
  | .pending ticket =>
    .finished { s.suspend r .link node with
      writes := s.writes ++ [(ticket, { run := r, wait := s.nextWait, link })] }

/-- Take a link: hand over the answers first, if nobody has had them yet. -/
def transfer (s : Session) (r : RunId) (node : String) (link : Link) : Move :=
  match (s.run r).completion with
  | none => s.loadTarget r link
  | some callback =>
    .ask (s.setRun r fun run => { run with completion := none })
      (.handOver r node link callback (s.run r).ledger)

/-! ## Coming to rest -/

/-- The phase in which a path ends at a node: a trigger leaves its effects in the
world. -/
def phaseAfter (node : Node) : Phase :=
  match node.body with
  | .trigger _ => .paused
  | _ => .stopped

/-- Suspend a run at a node and give the host what it needs.  The run is suspended
before, so that the host may answer at once. -/
def pause (s : Session) (r : RunId) (node : Node) (scene : Scene) : Move :=
  let wait := s.nextWait
  let s := s.suspend r scene.kind node.id
  match scene with
  | .battle opponent => .ask s (.battle opponent { run := r, wait, node })
  | .card (.image card) => (Move.ask s (.engage (.image card))).under (.timing r wait card.duration)
  | .card card => .ask s (.engage card)

/-- Do what follows the last node of a way. -/
def settle (s : Session) (r : RunId) (step : Step) : Move :=
  match step.action with
  | .next _ => .finished s
  | .suspend scene => s.pause r step.node scene
  | .link link => s.transfer r step.node.id link
  | .finish => s.terminate r .stopped
  | .terminal => s.terminate r (phaseAfter step.node)

/-- Go on after a step, as long as the run goes on.  The next node is visited in the
graph that is current by then. -/
def proceed (s : Session) (r : RunId) (step : Step) : Move :=
  if s.owns r then
    match step.action with
    | .next node =>
      match s.graph with
      | none => (Move.failure s .graphGone).under (.driving r)
      | some graph => (Move.work s (.visit r node graph)).under (.driving r)
    | _ => (s.settle r step).under (.driving r)
  else .finished s

/-! ## Entries -/

/-- A fault unless no run goes on. -/
def ensureIdle (s : Session) (go : Session → Move) : Move :=
  match s.currentRun? with
  | some run =>
    if run.isActive then .failure s (.runner (.alreadyRunning run.script)) else go s
  | none => go s

/-- The figures that a new run takes over: those of a run that is paused. -/
def carriedNpcs (s : Session) : List String :=
  match s.currentRun? with
  | some run => if run.phase = .paused then run.npcs else []
  | none => []

/-- Start a run in a graph. -/
def startGraph (s : Session) (graph : Graph) (completion : Option Callback) : Move :=
  s.ensureIdle fun s =>
    let s := s.addRun { script := graph.id, npcs := s.carriedNpcs, completion }
    { s with graph := some graph, lastError := none }.enqueue (s.runs.length - 1) (.enter graph)

/-- Start a run of a script.  If it cannot be loaded, what is left of the run before is
stopped. -/
def start (s : Session) (script : String) (completion : Option Callback) : Move :=
  s.ensureIdle fun s =>
    match Library.load s.files s.library script with
    | .ok graph => s.startGraph graph completion
    | .error (.data f) => ({ s with lastError := some (.data f) }.stop).under (.failing (.data f))
    | .error f => .failure s f

/-- Let the player go on. -/
def advance (s : Session) (answer : Value) : Move :=
  match s.current with
  | none => .failure s (.runner .notWaiting)
  | some r =>
    match (s.run r).phase, (s.run r).wait with
    | .suspended, some wait =>
      if !wait.kind.isForPlayer then .failure s (.runner (.waitingOn wait.kind))
      else if wait.kind = .choice ∧ answer = .null then .failure s (.runner .choiceOpen)
      else s.resumeInput r wait answer
    | _, _ => .failure s (.runner .notWaiting)

/-- Go on after a battle, unless it is no longer waited for. -/
def battleOver (s : Session) (battle : BattleHandle) (outcome : Value) : Move :=
  if s.isWaiting battle.run battle.wait then
    match s.graph with
    | none => .failure s .graphGone
    | some graph => s.clear battle.run (.resolve battle.node graph outcome)
  else .finished s

/-- Go on after the time of an image, unless it is no longer waited for. -/
def timeUp (s : Session) (timer : TimerHandle) : Move :=
  if s.isWaiting timer.run timer.wait then
    let s := s.setRun timer.run (·.setTimer timer.wait false)
    match (s.run timer.run).wait with
    | some wait => s.resumeInput timer.run wait .null
    | none => .finished s
  else .finished s

/-- Take a link whose write is over, unless it is no longer waited for. -/
def deliver (s : Session) (d : Delivery) : Move :=
  let r := d.handle.run
  if (s.run r).isWaitingOn d.handle.wait then
    ((s.setRun r fun run => { run with wait := none }).afterWrite r d.handle.link d.outcome).under
      (.linking r)
  else .finished s

/-- Hand deliveries to the host, one after the other. -/
def post (s : Session) : List Delivery → Move
  | [] => .finished s
  | d :: ds => (Move.ask s (.deliver d)).under (.posting ds)

/-- Deliver the end of a write to the links that wait for it. -/
def settleWrite (s : Session) (ticket : Ticket) (outcome : WriteOutcome) : Move :=
  let waiting := (s.writes.filter fun w => w.1 == ticket).map (·.2)
  { s with writes := s.writes.filter fun w => w.1 != ticket }.post
    (waiting.map fun handle => { handle, outcome })

/-- Begin what the host asks for. -/
def enter (s : Session) : Entry → Move
  | .start script completion => s.start script completion
  | .startGraph graph completion => s.startGraph graph completion
  | .advance answer => s.advance answer
  | .stop => s.stop
  | .battleOver battle outcome => s.battleOver battle outcome
  | .timeUp timer => s.timeUp timer
  | .written delivery => s.deliver delivery
  | .settle ticket outcome => s.settleWrite ticket outcome

end Questline.Session

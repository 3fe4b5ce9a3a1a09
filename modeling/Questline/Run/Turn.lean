import Questline.Run.Course

/-!
# Turns

A turn is the work on one entry of the host, from its beginning to its outcome.  It is a
session, a stack of frames and what comes next.  As long as it is the session's move, the
next move is determined; at a call it is the host's move, and the host may answer, fail,
or begin new work, which has its own outcome before the call is answered.

* `Turn.next?`: the next move, if it is the session's.
* `Turn.reply`, `Turn.fail`, `Turn.enter`, `Turn.leave`: the moves of the host.
-/

namespace Questline

/-! ## The session's moves -/

/-- Begin a task. -/
def Task.begin (s : Session) : Task → Move
  | .entry e => s.enter e
  | .drive r job => s.drive r job
  | .visit r node graph => s.visit r node graph
  | .respond r node graph answer => s.respond r node graph answer
  | .resolve r node graph outcome => s.resolve r node graph outcome
  | .follow r node output graph => s.follow r node output graph
  | .dispatch r trigger => s.dispatch r trigger
  | .report r warnings => s.report r warnings
  | .engage card => .ask s (.engage card)
  | .terminate r phase => s.terminate r phase

/-- Go on with the answer of the host. -/
def Ask.resume (s : Session) : (a : Ask) → a.call.Reply → Move
  | .engage _, () => .finished s
  | .startTimer _ timer, cancellable =>
    .finished (if cancellable then s.setRun timer.run (·.setTimer timer.wait true) else s)
  | .cancelTimer _, () => .finished s
  | .deliver _, () => .finished s
  | .give _ _, () => .finished s
  | .take r node item amount, taken =>
    if taken then .finished s else s.report r [.shortfall node item amount]
  | .count r node condition graph, held =>
    s.follow r node (Session.outputOf (Session.countMeets condition held)) graph
  | .battle _ _, () => .finished s
  | .spawn r _, npc => .finished (s.setRun r (·.addNpc npc))
  | .remove r npc, () => .finished (s.setRun r (·.dropNpc npc))
  | .world _, () => .finished s
  | .fillIn r graph, table => s.install r (graph.fill table)
  | .report r _ rest, () => s.report r rest
  | .dismiss r _ rest, () => s.dismiss r rest
  | .handOver r node link _ _, receipt => s.afterHandOver r node link receipt
  | .announce _ _, _ => .finished s

/-- Go on with what was waited for. -/
def Frame.receive (s : Session) : Frame → Result → Move
  | .draining, _ => s.drain
  | .driving r, .stepped step => s.proceed r step
  | .driving _, .done => .finished s
  | .failing f, _ => .failure s f
  | .triggering r node graph, _ => s.follow r node Session.firstOutput graph
  | .following r node output graph, _ => s.follow r node output graph
  | .stepping step, _ => .stepped s step.node step.action
  | .timing r wait seconds, _ =>
    if (s.run r).isWaitingOn wait then .ask s (.startTimer seconds ⟨r, wait⟩) else .finished s
  | .resuming r job, _ => s.resume r job
  | .ending r phase, _ => s.close r phase
  | .announcing completion ledger, _ => s.announce completion ledger
  | .linking _, _ => .finished s
  | .posting rest, _ => s.post rest
  | .asked a, _ => .ask s a

/-- Go on after a fault in what was waited for.  The queue is dropped, a driven run is
stopped, a trigger of an unknown event becomes a warning, a link that fails after its
write stops its run, and a failed delivery is nobody's concern; all else lets the fault
pass. -/
def Frame.recover (s : Session) (f : Fault) : Frame → Move
  | .draining => .failure { s with pending := [], draining := false } f
  | .driving r => ({ s with lastError := some f }.stopIfActive r).under (.failing f)
  | .triggering r node graph =>
    match f with
    | .unknownEvent event =>
      (s.report r [.unknownEvent node.id event]).under
        (.following r node Session.firstOutput graph)
    | f => .failure s f
  | .linking r =>
    match f with
    | .link f => { s with lastError := some (.link f) }.stopIfActive r
    | f => .failure s f
  | .posting rest => s.post rest
  | .failing _ | .following _ _ _ _ | .stepping _ | .timing _ _ _ | .resuming _ _
  | .ending _ _ | .announcing _ _ | .asked _ => .failure s f

/-! ## Turns -/

/-- A turn. -/
structure Turn where
  session : Session
  stack : List Frame := []
  control : Control

/-- Make a move on top of a stack. -/
def Move.on (m : Move) (stack : List Frame) : Turn := ⟨m.session, m.frames ++ stack, m.control⟩

namespace Turn

/-- The next move, if it is the session's. -/
def next? (t : Turn) : Option Turn :=
  match t.control, t.stack with
  | .work task, stack => some ((task.begin t.session).on stack)
  | .ask _, _ => none
  | .done _, [] | .failed _, [] => none
  | .done _, .asked _ :: _ | .failed _, .asked _ :: _ => none
  | .done result, frame :: stack => some ((frame.receive t.session result).on stack)
  | .failed fault, frame :: stack => some ((frame.recover t.session fault).on stack)

/-! ## The host's moves -/

/-- Answer a call. -/
def reply (t : Turn) (a : Ask) (answer : a.call.Reply) : Turn :=
  (a.resume t.session answer).on t.stack

/-- Fail in a call. -/
def fail (t : Turn) (f : Fault) : Turn := { t with control := .failed f }

/-- Answer a call or fail in it. -/
def conclude (t : Turn) (a : Ask) : Except Fault a.call.Reply → Turn
  | .ok answer => t.reply a answer
  | .error f => t.fail f

/-- Begin new work from inside a call. -/
def enter (t : Turn) (a : Ask) (task : Task) : Turn :=
  { t with stack := .asked a :: t.stack, control := .work task }

/-- Come back to the call from inside which work was begun that is over. -/
def leave (t : Turn) : Turn :=
  match t.stack with
  | .asked a :: stack => { t with stack, control := .ask a }
  | _ => t

end Turn

/-- The turn that begins with a task. -/
def Session.begin (s : Session) (task : Task) : Turn := { session := s, control := .work task }

end Questline

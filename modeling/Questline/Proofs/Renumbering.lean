import Questline.Proofs.Shape

/-!
# The numbers of waits

Runs and waits are numbered so that what comes back late can be told from what is waited for.  A
number means nothing else.  If every wait has the number that follows its own, and so has every
handle that was made for it, then nothing else changes in what a session does: it makes the same
moves, asks for the same calls, and takes the same answers.

The writes that are under way are not looked at but where one of them ends.  So they may be others.

* `Session.later`, `Turn.later`, `Deed.later`: everything with the numbers that follow.
* `Task.begin_later`, `Frame.receive_later`, `Frame.recover_later`: the session's moves.
* `Turn.next?_later`, `Turn.Does.later`, `Turn.Does.of_later`: each deed in the one numbering is one
  in the other.
-/

namespace Questline

open Json (Value)

/-! ## Numbers that follow -/

/-- The wait with the next number. -/
def Wait.later (w : Wait) : Wait := { w with id := w.id + 1 }

/-- The run with the next number for its wait. -/
def Run.later (run : Run) : Run := { run with wait := run.wait.map Wait.later }

/-- The handle of the wait with the next number. -/
def TimerHandle.later (h : TimerHandle) : TimerHandle := { h with wait := h.wait + 1 }

/-- The handle of the wait with the next number. -/
def BattleHandle.later (h : BattleHandle) : BattleHandle := { h with wait := h.wait + 1 }

/-- The handle of the wait with the next number. -/
def WriteHandle.later (h : WriteHandle) : WriteHandle := { h with wait := h.wait + 1 }

/-- The delivery for the wait with the next number. -/
def Delivery.later (d : Delivery) : Delivery := { d with handle := d.handle.later }

/-- The entry with the handle that follows. -/
def Entry.later : Entry → Entry
  | .battleOver battle outcome => .battleOver battle.later outcome
  | .timeUp timer => .timeUp timer.later
  | .written delivery => .written delivery.later
  | e => e

/-- The call with the handle that follows. -/
def Ask.later : Ask → Ask
  | .startTimer seconds timer => .startTimer seconds timer.later
  | .cancelTimer timer => .cancelTimer timer.later
  | .deliver delivery => .deliver delivery.later
  | .battle opponent handle => .battle opponent handle.later
  | a => a

/-- The task with the handle that follows. -/
def Task.later : Task → Task
  | .entry e => .entry e.later
  | task => task

/-- The frame with the handle that follows. -/
def Frame.later : Frame → Frame
  | .timing r wait seconds => .timing r (wait + 1) seconds
  | .posting rest => .posting (rest.map Delivery.later)
  | .asked a => .asked a.later
  | frame => frame

/-- What comes next, with the handle that follows. -/
def Control.later : Control → Control
  | .work task => .work task.later
  | .ask a => .ask a.later
  | c => c

/-- The session with the numbers that follow, and with other writes under way. -/
def Session.later (writes : List (Ticket × WriteHandle)) (s : Session) : Session :=
  { s with runs := s.runs.map Run.later, nextWait := s.nextWait + 1, writes }

/-- The move with the numbers that follow. -/
def Move.later (writes : List (Ticket × WriteHandle)) (m : Move) : Move :=
  ⟨m.session.later writes, m.frames.map Frame.later, m.control.later⟩

/-- The turn with the numbers that follow. -/
def Turn.later (writes : List (Ticket × WriteHandle)) (t : Turn) : Turn :=
  ⟨t.session.later writes, t.stack.map Frame.later, t.control.later⟩

section

variable {writes : List (Ticket × WriteHandle)} {s : Session} {q r : RunId} {run : Run} {m : Move}

/-! ## Runs and sessions -/

@[simp] theorem Run.phase_later : run.later.phase = run.phase := rfl
@[simp] theorem Run.ledger_later : run.later.ledger = run.ledger := rfl
@[simp] theorem Run.completion_later : run.later.completion = run.completion := rfl
@[simp] theorem Run.isActive_later : run.later.isActive = run.isActive := rfl
@[simp] theorem Run.wait_later : run.later.wait = run.wait.map Wait.later := rfl

@[simp] theorem Run.isWaitingOn_later (w : WaitId) : run.later.isWaitingOn (w + 1) = run.isWaitingOn w := by
  cases h : run.wait <;> simp [Run.isWaitingOn, Run.later, Wait.later, h]

namespace Session

@[simp] theorem files_later : (s.later writes).files = s.files := rfl
@[simp] theorem library_later : (s.later writes).library = s.library := rfl
@[simp] theorem flags_later : (s.later writes).flags = s.flags := rfl
@[simp] theorem current_later : (s.later writes).current = s.current := rfl
@[simp] theorem graph_later : (s.later writes).graph = s.graph := rfl
@[simp] theorem pending_later : (s.later writes).pending = s.pending := rfl
@[simp] theorem draining_later : (s.later writes).draining = s.draining := rfl

@[simp] theorem run_later : (s.later writes).run r = (s.run r).later := by
  simp only [run, later, List.getElem?_map]
  cases s.runs[r]? <;> rfl

/-- A change of a run that goes with the numbers. -/
theorem setRun_follows {f g : Run → Run} (h : ∀ run, g run.later = (f run).later) :
    (s.later writes).setRun r g = (s.setRun r f).later writes := by
  have runs : (s.runs.map Run.later).modify r g = (s.runs.modify r f).map Run.later := by
    apply List.ext_getElem?
    intro i
    simp only [List.getElem?_modify, List.getElem?_map]
    cases s.runs[i]? with
    | none => rfl
    | some run =>
      simp only [Option.map_some, Option.map_eq_map]
      split <;> simp [h]
  simp only [setRun, later, runs]

/-- A change of a run that looks at no number. -/
theorem setRun_later {f : Run → Run} (h : ∀ run, f run.later = (f run).later) :
    (s.later writes).setRun r f = (s.setRun r f).later writes :=
  setRun_follows h

@[simp] theorem owns_later : (s.later writes).owns r = s.owns r := by simp [owns]

@[simp] theorem isWaiting_later (w : WaitId) : (s.later writes).isWaiting r (w + 1) = s.isWaiting r w := by
  simp [isWaiting]

/-- The wait on which a run is suspended next follows, too. -/
theorem suspend_later (kind : WaitKind) (node : String) :
    (s.later writes).suspend r kind node = (s.suspend r kind node).later writes := by
  unfold suspend
  let waits (w : WaitId) (run : Run) : Run := { run with
    wait := some { id := w, kind, node }, phase := .suspended, activity := kind.activity }
  have runs : (s.later writes).setRun r (waits (s.nextWait + 1)) =
      (s.setRun r (waits s.nextWait)).later writes := setRun_follows fun _ => rfl
  exact congrArg (fun s' : Session => { s' with nextWait := s.nextWait + 1 + 1 }) runs

end Session

/-! ## Moves -/

namespace Move

@[simp] theorem later_work (task : Task) :
    (Move.work s task).later writes = .work (s.later writes) task.later := rfl

@[simp] theorem later_ask (a : Ask) : (Move.ask s a).later writes = .ask (s.later writes) a.later := rfl

@[simp] theorem later_under (f : Frame) :
    (m.under f).later writes = (m.later writes).under f.later := by
  simp [Move.later, under]

theorem later_on (stack : List Frame) :
    (m.on stack).later writes = (m.later writes).on (stack.map Frame.later) := by
  simp [Move.on, Turn.later, Move.later]

end Move

/-! ## What a session does -/

namespace Session

/-! ### At the nodes -/

theorem follow_later (node : Node) (output : Int) (graph : Graph) :
    (s.later writes).follow r node output graph = (s.follow r node output graph).later writes := by
  unfold follow
  rw [setRun_later]
  · dsimp only
    cases graph.follow? node.id output <;> rfl
  · exact fun _ => rfl

theorem report_later (ws : List Warning) :
    (s.later writes).report r ws = (s.report r ws).later writes := by
  cases ws with
  | nil => rfl
  | cons w ws =>
    unfold report
    dsimp only
    rw [setRun_later]
    · rfl
    · exact fun _ => rfl

theorem perform_later (effect : Effect) :
    (s.later writes).perform r effect = (s.perform r effect).later writes := by
  cases effect with
  | setFlag name value =>
    simp only [perform, flags_later, files_later]
    split <;> rfl
  | world | spawn | remove => rfl

theorem dispatch_later (t : Trigger) :
    (s.later writes).dispatch r t = (s.dispatch r t).later writes := by
  unfold dispatch
  cases Effect.ofTrigger t with
  | ok effect => exact perform_later effect
  | error f => rfl

theorem applyItem_later (node : String) (i : ItemChange) :
    (s.later writes).applyItem r node i = (s.applyItem r node i).later writes := by
  unfold applyItem
  cases i.action <;> rfl

theorem check_later (node : Node) (c : Condition) (graph : Graph) :
    (s.later writes).check r node c graph = (s.check r node c graph).later writes := by
  unfold check
  cases c.check with
  | hasFlag => exact follow_later node _ graph
  | hasItem | other => rfl

theorem visit_later (node : Node) (graph : Graph) :
    (s.later writes).visit r node graph = (s.visit r node graph).later writes := by
  unfold visit
  rw [setRun_later]
  · cases node.body with
    | dialogue | choice => simp only [report_later, Move.later_under]; rfl
    | item => simp only [applyItem_later, Move.later_under]; rfl
    | trigger => simp only [dispatch_later, Move.later_under]; rfl
    | condition c => exact check_later node c graph
    | image | combat | link | ending => rfl
  · exact fun _ => rfl

theorem respond_later (node : Node) (graph : Graph) (answer : Value) :
    (s.later writes).respond r node graph answer = (s.respond r node graph answer).later writes := by
  unfold respond
  cases node.body with
  | choice c =>
    dsimp only
    cases pick? c.options.length answer with
    | none => rfl
    | some pick =>
      dsimp only
      rw [setRun_later]
      · cases pick with
        | option i => exact follow_later node i graph
        | fraction => rfl
      · exact fun _ => rfl
  | dialogue | image | item | trigger | condition | combat | link | ending => exact follow_later node _ graph

theorem resolve_later (node : Node) (graph : Graph) (outcome : Value) :
    (s.later writes).resolve r node graph outcome = (s.resolve r node graph outcome).later writes := by
  unfold resolve
  split
  · exact follow_later node _ graph
  · exact follow_later node _ graph
  · rfl

/-! ### The queue -/

theorem enqueue_later (job : Job) :
    (s.later writes).enqueue r job = (s.enqueue r job).later writes := by
  unfold enqueue
  dsimp only
  rw [draining_later]
  cases s.draining <;> rfl

theorem drain_later : (s.later writes).drain = s.drain.later writes := by
  simp only [drain, pending_later]
  cases s.pending with
  | nil => rfl
  | cons head rest => rfl

theorem taskOf_later (job : Job) : (taskOf r job).later = taskOf r job := by cases job <;> rfl

theorem drive_later (job : Job) : (s.later writes).drive r job = (s.drive r job).later writes := by
  simp only [drive, owns_later]
  split
  · simp only [Move.later_under, Move.later_work, taskOf_later]
    rfl
  · rfl

/-! ### Resuming -/

theorem resume_later (job : Job) : (s.later writes).resume r job = (s.resume r job).later writes := by
  unfold resume
  rw [setRun_later]
  · exact enqueue_later job
  · exact fun _ => rfl

theorem setTimer_later (w : WaitId) (timer : Bool) :
    (s.later writes).setRun r (·.setTimer (w + 1) timer) = (s.setRun r (·.setTimer w timer)).later writes := by
  apply setRun_follows
  intro run
  cases h : run.wait with
  | none => simp [Run.setTimer, Run.later, h]
  | some wait =>
    by_cases hw : wait.id = w <;> simp [Run.setTimer, Run.later, Wait.later, h, hw]

theorem withoutTimer_later {frame : Frame} {go : Session → Move}
    (h : ∀ s : Session, go (s.later writes) = (go s).later writes) :
    (s.later writes).withoutTimer r frame.later go = (s.withoutTimer r frame go).later writes := by
  unfold withoutTimer
  rw [run_later, Run.wait_later]
  cases (s.run r).wait with
  | none => exact h s
  | some w =>
    dsimp only [Option.map_some, Wait.later]
    split
    · rw [setTimer_later, Move.later_under, Move.later_ask]
      rfl
    · exact h s

theorem clear_later (job : Job) : (s.later writes).clear r job = (s.clear r job).later writes := by
  change (s.later writes).withoutTimer r (Frame.later (.resuming r job)) _ = _
  exact withoutTimer_later fun _ => resume_later job

theorem resumeInput_later (w : Wait) (answer : Value) :
    (s.later writes).resumeInput r w.later answer = (s.resumeInput r w answer).later writes := by
  simp only [resumeInput, graph_later, Wait.later]
  cases s.graph with
  | none => rfl
  | some graph =>
    dsimp only
    cases graph.node? w.node with
    | none => rfl
    | some node => exact clear_later _

/-! ### The end of a run -/

theorem announce_later (completion : Option Callback) (ledger : Ledger) :
    (s.later writes).announce completion ledger = (s.announce completion ledger).later writes := by
  cases completion <;> rfl

theorem dismiss_later (npcs : List String) :
    (s.later writes).dismiss r npcs = (s.dismiss r npcs).later writes := by
  cases npcs with
  | nil =>
    unfold dismiss
    rw [setRun_later]
    · rfl
    · exact fun _ => rfl
  | cons npc rest => rfl

theorem ended_later (phase : Phase) :
    (s.later writes).ended r phase = (s.ended r phase).later writes := by
  have runs : (s.later writes).setRun r (Run.ended phase) = (s.setRun r (Run.ended phase)).later writes :=
    setRun_later fun _ => rfl
  rw [ended, runs, current_later]
  rfl

theorem close_later (phase : Phase) : (s.later writes).close r phase = (s.close r phase).later writes := by
  rw [close_eq, close_eq, run_later, ended_later]
  split
  · rw [Move.later_under, ← dismiss_later]
    rfl
  · exact announce_later _ _

theorem terminate_later (phase : Phase) :
    (s.later writes).terminate r phase = (s.terminate r phase).later writes := by
  change (s.later writes).withoutTimer r (Frame.later (.ending r phase)) _ = _
  exact withoutTimer_later fun _ => close_later phase

theorem stopIfActive_later : (s.later writes).stopIfActive r = (s.stopIfActive r).later writes := by
  simp only [stopIfActive, run_later, Run.isActive_later]
  split <;> rfl

/-! ### Links -/

theorem install_later (graph : Graph) :
    (s.later writes).install r graph = (s.install r graph).later writes := by
  have runs : (s.later writes).setRun r (Run.moved graph) = (s.setRun r (Run.moved graph)).later writes :=
    setRun_later fun _ => rfl
  have installed : (s.later writes).install r graph =
      (Session.later writes { s.setRun r (Run.moved graph) with graph := some graph }).enqueue r
        (.enter graph) :=
    congrArg (fun s : Session => enqueue { s with graph := some graph } r (.enter graph)) runs
  rw [installed, enqueue_later]
  rfl

theorem loadTarget_later (link : Link) :
    (s.later writes).loadTarget r link = (s.loadTarget r link).later writes := by
  unfold loadTarget
  rw [files_later, library_later]
  generalize Library.load s.files s.library link.target = loaded
  cases loaded with
  | ok graph =>
    dsimp only
    split
    · rfl
    · exact install_later graph
  | error f => cases f <;> rfl

theorem afterWrite_later (link : Link) (outcome : WriteOutcome) :
    (s.later writes).afterWrite r link outcome = (s.afterWrite r link outcome).later writes := by
  cases outcome with
  | written =>
    rw [afterWrite, afterWrite]
    exact loadTarget_later link
  | failed | cancelled => rfl

/-- Where a write is waited for, one more is under way. -/
theorem afterHandOver_later (node : String) (link : Link) (receipt : Receipt) :
    ∃ writes', (s.later writes).afterHandOver r node link receipt =
      (s.afterHandOver r node link receipt).later writes' := by
  cases receipt with
  | plain =>
    refine ⟨writes, ?_⟩
    rw [afterHandOver, afterHandOver]
    exact loadTarget_later link
  | finished outcome =>
    refine ⟨writes, ?_⟩
    rw [afterHandOver, afterHandOver]
    exact afterWrite_later link outcome
  | pending ticket =>
    refine ⟨writes ++ [(ticket, { run := r, wait := s.nextWait + 1, link })], ?_⟩
    rw [afterHandOver, afterHandOver, suspend_later]
    rfl

theorem transfer_later (node : String) (link : Link) :
    (s.later writes).transfer r node link = (s.transfer r node link).later writes := by
  unfold transfer
  rw [run_later, Run.completion_later, Run.ledger_later]
  cases (s.run r).completion with
  | none => exact loadTarget_later link
  | some callback =>
    dsimp only
    rw [setRun_later]
    · rfl
    · exact fun _ => rfl

/-! ### Coming to rest -/

theorem pause_later (node : Node) (scene : Scene) :
    (s.later writes).pause r node scene = (s.pause r node scene).later writes := by
  unfold pause
  rw [suspend_later]
  cases scene with
  | battle => rfl
  | card c => cases c <;> rfl

theorem settle_later (step : Step) : (s.later writes).settle r step = (s.settle r step).later writes := by
  unfold settle
  cases step.action with
  | next => rfl
  | suspend scene => exact pause_later step.node scene
  | link link => exact transfer_later step.node.id link
  | finish => exact terminate_later _
  | terminal => exact terminate_later _

theorem proceed_later (step : Step) : (s.later writes).proceed r step = (s.proceed r step).later writes := by
  simp only [proceed, owns_later, graph_later]
  split
  · cases step.action with
    | next node => cases s.graph <;> rfl
    | suspend | link | finish | terminal => simp only [settle_later, Move.later_under]; rfl
  · rfl

/-! ### Answers -/

theorem advance_later (answer : Value) :
    (s.later writes).advance answer = (s.advance answer).later writes := by
  simp only [advance, current_later]
  cases s.current with
  | none => rfl
  | some r =>
    dsimp only
    rw [run_later, Run.phase_later, Run.wait_later]
    cases (s.run r).phase <;> cases (s.run r).wait <;> try rfl
    rename_i w
    dsimp only [Option.map_some]
    rw [resumeInput_later]
    change (if !w.kind.isForPlayer then _ else if w.kind = .choice ∧ answer = .null then _ else _) = _
    split
    · rfl
    · split <;> rfl

theorem battleOver_later (battle : BattleHandle) (outcome : Value) :
    (s.later writes).battleOver battle.later outcome = (s.battleOver battle outcome).later writes := by
  simp only [battleOver, BattleHandle.later, isWaiting_later, graph_later]
  split
  · cases s.graph with
    | none => rfl
    | some graph => exact clear_later _
  · rfl

theorem timeUp_later (timer : TimerHandle) :
    (s.later writes).timeUp timer.later = (s.timeUp timer).later writes := by
  simp only [timeUp, TimerHandle.later, isWaiting_later]
  split
  · rw [setTimer_later, run_later, Run.wait_later]
    cases (Session.run (s.setRun timer.run (·.setTimer timer.wait false)) timer.run).wait with
    | none => rfl
    | some w => exact resumeInput_later w .null
  · rfl

theorem post_later (ds : List Delivery) :
    (s.later writes).post (ds.map Delivery.later) = (s.post ds).later writes := by
  cases ds <;> rfl

end Session

/-! ### Tasks, frames and calls -/

theorem Task.begin_later {task : Task} (answer : ∀ e, task = .entry e → e.isAnswer) :
    task.later.begin (s.later writes) = (task.begin s).later writes := by
  cases task with
  | entry e =>
    cases e with
    | advance v => exact Session.advance_later v
    | battleOver battle outcome => exact Session.battleOver_later battle outcome
    | timeUp timer => exact Session.timeUp_later timer
    | start | startGraph | stop | written | settle => cases answer _ rfl
  | drive r job => exact Session.drive_later job
  | visit r node graph => exact Session.visit_later node graph
  | respond r node graph v => exact Session.respond_later node graph v
  | resolve r node graph outcome => exact Session.resolve_later node graph outcome
  | follow r node output graph => exact Session.follow_later node output graph
  | dispatch r t => exact Session.dispatch_later t
  | report r ws => exact Session.report_later ws
  | engage => rfl
  | terminate r phase => exact Session.terminate_later phase

theorem Frame.receive_later (frame : Frame) (result : Result) :
    frame.later.receive (s.later writes) result = (frame.receive s result).later writes := by
  cases frame with
  | draining => exact Session.drain_later
  | driving r =>
    cases result with
    | done => rfl
    | stepped step => exact Session.proceed_later step
  | triggering r node graph => exact Session.follow_later node _ graph
  | following r node output graph => exact Session.follow_later node output graph
  | timing r w seconds =>
    simp only [Frame.later, receive, Session.run_later, Run.isWaitingOn_later]
    split <;> rfl
  | resuming r job => exact Session.resume_later job
  | ending r phase => exact Session.close_later phase
  | announcing completion ledger => exact Session.announce_later completion ledger
  | posting rest => exact Session.post_later rest
  | failing | stepping | linking | asked => rfl

theorem Frame.recover_later (frame : Frame) (f : Fault) :
    frame.later.recover (s.later writes) f = (frame.recover s f).later writes := by
  have stops (q : RunId) (f : Fault) : Session.stopIfActive { s.later writes with lastError := some f } q =
      (Session.stopIfActive { s with lastError := some f } q).later writes := by
    have stops : (Session.later writes { s with lastError := some f }).stopIfActive q = _ :=
      Session.stopIfActive_later
    exact stops
  cases frame with
  | driving q =>
    simp only [Frame.later, recover, stops, Move.later_under]
  | linking q =>
    cases f with
    | link f => exact stops q (.link f)
    | _ => rfl
  | triggering r node graph =>
    cases f with
    | unknownEvent event =>
      simp only [Frame.later, recover, Session.report_later, Move.later_under]
    | _ => rfl
  | posting rest => exact Session.post_later rest
  | draining | failing | following | stepping | timing | resuming | ending | announcing | asked => rfl

/-- The answer to a call is none about its number. -/
theorem Ask.reply_later (a : Ask) : a.later.call.Reply = a.call.Reply := by cases a <;> rfl

/-- Where a write is waited for, one more is under way. -/
theorem Ask.resume_later (a : Ask) (answer : a.call.Reply) :
    ∃ writes', a.later.resume (s.later writes) (cast a.reply_later.symm answer) =
      (a.resume s answer).later writes' := by
  have same {m m' : Move} (h : m = m'.later writes) : ∃ writes', m = m'.later writes' := ⟨writes, h⟩
  cases a with
  | handOver r node link callback ledger => exact Session.afterHandOver_later node link answer
  | startTimer seconds timer =>
    refine same ?_
    cases answer with
    | false => rfl
    | true => exact congrArg Move.finished (Session.setTimer_later timer.wait true)
  | take r node item amount =>
    cases answer with
    | false =>
      have reports : (s.later writes).report r [.shortfall node item amount] = _ := Session.report_later _
      exact same reports
    | true => exact same rfl
  | count r node c graph => exact same (Session.follow_later node _ graph)
  | spawn r request => exact same (congrArg Move.finished (Session.setRun_later fun _ => rfl))
  | remove r npc => exact same (congrArg Move.finished (Session.setRun_later fun _ => rfl))
  | fillIn r graph => exact same (Session.install_later _)
  | report r w rest => exact same (Session.report_later rest)
  | dismiss r npc rest => exact same (Session.dismiss_later rest)
  | engage | cancelTimer | deliver | give | battle | world | announce => exact same rfl

end

/-! ## Deeds -/

/-- The deed with the handle that follows. -/
def Deed.later : Deed → Deed
  | .begin e => .begin e.later
  | .reply a answer => .reply a.later (cast a.reply_later.symm answer)
  | d => d

@[simp] theorem Control.isOver_later (c : Control) : c.later.isOver = c.isOver := by cases c <;> rfl

@[simp] theorem Control.isForHost_later (c : Control) (stack : List Frame) :
    c.later.isForHost (stack.map Frame.later) = c.isForHost stack := by
  cases c <;> simp [Control.later, isForHost, isOver]

theorem Control.later_eq_ask {c : Control} {a' : Ask} (h : c.later = .ask a') :
    ∃ a, c = .ask a ∧ a' = a.later := by
  cases c with
  | ask a => exact ⟨a, rfl, (Control.ask.inj h).symm⟩
  | work | done | failed => cases h

theorem Frame.later_eq_asked {frame : Frame} {a' : Ask} (h : frame.later = .asked a') :
    ∃ a, frame = .asked a ∧ a' = a.later := by
  cases frame with
  | asked a => exact ⟨a, rfl, (Frame.asked.inj h).symm⟩
  | _ => cases h

namespace Turn

variable {writes : List (Ticket × WriteHandle)} {t u u' : Turn} {d d' : Deed}

/-- **A move of the session** does not depend on the numbers. -/
theorem next?_later (answer : ∀ e, t.control = .work (.entry e) → e.isAnswer) :
    (t.later writes).next? = t.next?.map (Turn.later writes) := by
  obtain ⟨s, stack, c⟩ := t
  cases c with
  | work task =>
    have begins : task.later.begin (s.later writes) = (task.begin s).later writes :=
      Task.begin_later fun e he => answer e (by rw [he])
    exact congrArg some ((congrArg (Move.on · _) begins).trans (Move.later_on _).symm)
  | ask a => rfl
  | done result =>
    cases stack with
    | nil => rfl
    | cons frame stack =>
      have receives : frame.later.receive (s.later writes) result = _ := Frame.receive_later frame result
      cases frame with
      | asked => rfl
      | _ => exact congrArg some ((congrArg (Move.on · _) receives).trans (Move.later_on _).symm)
  | failed f =>
    cases stack with
    | nil => rfl
    | cons frame stack =>
      have recovers : frame.later.recover (s.later writes) f = _ := Frame.recover_later frame f
      cases frame with
      | asked => rfl
      | _ => exact congrArg some ((congrArg (Move.on · _) recovers).trans (Move.later_on _).symm)

/-- **A deed of the host** in the one numbering is one in the other. -/
theorem Does.later (h : t.Does d u) (host : d ≠ .move) :
    ∃ writes', (t.later writes).Does d.later (u.later writes') := by
  cases h with
  | work | receive | recover => exact absurd rfl host
  | beginAtRest past entry => exact ⟨writes, .beginAtRest (by simpa using past) entry.later⟩
  | beginInside entry => exact ⟨writes, .beginInside entry.later⟩
  | leave past => exact ⟨writes, .leave (by simpa using past)⟩
  | @reply s stack a answer =>
    obtain ⟨writes', resumes⟩ : ∃ writes', a.later.resume (s.later writes) (cast a.reply_later.symm answer) =
        (a.resume s answer).later writes' := Ask.resume_later a answer
    refine ⟨writes', ?_⟩
    rw [Move.later_on, ← resumes]
    exact .reply _
  | fail f => exact ⟨writes, .fail f⟩
  | change control files flags =>
    exact ⟨writes, .change (by rw [Control.isForHost_later]; exact control) files flags⟩

/-- And the other way round, if what the host begins is for a number that there was before. -/
theorem Does.of_later (h : (t.later writes).Does d' u') (host : d' ≠ .move)
    (begins : ∀ e', d' = .begin e' → ∃ e : Entry, e' = e.later) :
    ∃ d u writes', d' = d.later ∧ u' = u.later writes' ∧ d ≠ .move ∧ t.Does d u := by
  obtain ⟨s, stack, c⟩ := t
  generalize ht : Turn.later writes ⟨s, stack, c⟩ = t' at h
  cases h with
  | work | receive | recover => exact absurd rfl host
  | beginAtRest past entry =>
    obtain ⟨hs, hstack, hc⟩ := Turn.mk.inj ht
    obtain ⟨e, rfl⟩ := begins entry rfl
    obtain rfl := List.map_eq_nil_iff.1 hstack
    subst hs hc
    exact ⟨.begin e, _, writes, rfl, rfl, Deed.noConfusion, .beginAtRest (by simpa using past) e⟩
  | beginInside entry =>
    obtain ⟨hs, hstack, hc⟩ := Turn.mk.inj ht
    obtain ⟨e, rfl⟩ := begins entry rfl
    obtain ⟨a, rfl, rfl⟩ := Control.later_eq_ask hc
    subst hs hstack
    exact ⟨.begin e, _, writes, rfl, rfl, Deed.noConfusion, .beginInside e⟩
  | leave past =>
    obtain ⟨hs, hstack, hc⟩ := Turn.mk.inj ht
    obtain ⟨frame, below, rfl, hframe, rfl⟩ := List.map_eq_cons_iff.1 hstack
    obtain ⟨a, rfl, rfl⟩ := Frame.later_eq_asked hframe
    subst hs hc
    exact ⟨.leave, _, writes, rfl, rfl, Deed.noConfusion, .leave (by simpa using past)⟩
  | reply answer =>
    obtain ⟨hs, hstack, hc⟩ := Turn.mk.inj ht
    obtain ⟨a, rfl, rfl⟩ := Control.later_eq_ask hc
    subst hs hstack
    have same : answer = cast a.reply_later.symm (cast a.reply_later answer) := by simp
    obtain ⟨writes', resumes⟩ : ∃ writes', a.later.resume (s.later writes)
        (cast a.reply_later.symm (cast a.reply_later answer)) = _ :=
      Ask.resume_later a (cast a.reply_later answer)
    refine ⟨.reply a (cast a.reply_later answer), _, writes', ?_, ?_, Deed.noConfusion, .reply _⟩
    · exact congrArg (Deed.reply a.later) same
    · rw [Move.later_on, ← resumes, ← same]
  | fail f =>
    obtain ⟨hs, hstack, hc⟩ := Turn.mk.inj ht
    obtain ⟨a, rfl, rfl⟩ := Control.later_eq_ask hc
    subst hs hstack
    exact ⟨.fail f, _, writes, rfl, rfl, Deed.noConfusion, .fail f⟩
  | change control files flags =>
    obtain ⟨hs, hstack, hc⟩ := Turn.mk.inj ht
    subst hs hstack hc
    rw [Control.isForHost_later] at control
    exact ⟨.change files flags, _, writes, rfl, rfl, Deed.noConfusion, .change control files flags⟩

end Turn

end Questline

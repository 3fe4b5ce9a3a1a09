import Questline.Run.Turn

/-!
# The branches of a course

Before a function of a session does anything it looks at where the session stands: whether
a run goes on, what it waits for, whether a timer has to be cancelled first.  Here each of
these functions is followed once, to what it comes down to and what is known there.  What
is said of moves elsewhere is said of these branches, so that a function that looks at one
thing more is a matter of one lemma.

* `Session.ensureIdle_cases`, `Session.startGraph_cases`, `Session.start_cases`,
  `Session.stop_cases`: a run begins, or the run before ends.
* `Session.advance_cases`, `Session.battleOver_cases`, `Session.timeUp_cases`,
  `Session.deliver_cases`: what a run waits for comes.
* `Session.withoutTimer_cases`, `Session.resumeInput_cases`: how a run goes on from there, or ends.
* `Session.proceed_cases`, `Session.loadTarget_cases`: how a run goes on from its step.
* `Session.follow_eq`, `Graph.onward`: where an output leads.
* `Session.ended`: the session a run leaves behind, before its figures leave it.
-/

namespace Questline

open Json (Value)

/-! ## Runs of a session -/

namespace Session

variable {s : Session} {q r : RunId} {f : Run → Run}

theorem run_setRun (s : Session) (q r : RunId) (f : Run → Run) :
    (s.setRun q f).run r = if q = r ∧ r < s.runs.length then f (s.run r) else s.run r := by
  simp only [run, setRun, List.getElem?_modify]
  by_cases hr : r < s.runs.length
  · by_cases hq : q = r <;> simp [hq, hr]
  · simp [hr]

theorem run_setRun_self (h : r < s.runs.length) : (s.setRun r f).run r = f (s.run r) := by
  rw [run_setRun, if_pos ⟨rfl, h⟩]

theorem run_setRun_of_ne (h : r ≠ q) : (s.setRun q f).run r = s.run r := by
  rw [run_setRun, if_neg fun hq => h hq.1.symm]

@[simp] theorem length_runs_setRun : (s.setRun q f).runs.length = s.runs.length := by
  simp [setRun]

@[simp] theorem length_runs_addRun (run : Run) : (s.addRun run).runs.length = s.runs.length + 1 := by
  simp [addRun]

/-- A run that was never added is a new one. -/
theorem run_of_length_le (h : s.runs.length ≤ r) : s.run r = {} := by
  simp [run, List.getElem?_eq_none h]

theorem run_addRun_of_ne (run : Run) (h : r ≠ s.runs.length) : (s.addRun run).run r = s.run r := by
  rcases Nat.lt_or_gt_of_ne h with h | h
  · simp [Session.run, addRun, List.getElem?_append_left h]
  · rw [run_of_length_le (Nat.le_of_lt h), run_of_length_le (by rw [length_runs_addRun]; exact h)]

theorem run_addRun_length (run : Run) : (s.addRun run).run s.runs.length = run := by
  simp [Session.run, addRun]

theorem free_setRun (s : Session) (free : ∀ run, (f run).wait = none) : ((s.setRun q f).run q).wait = none := by
  rw [run_setRun]
  split
  · exact free _
  case isFalse out => rw [run_of_length_le (Nat.le_of_not_lt fun lt => out ⟨rfl, lt⟩)]

theorem lt_length_of_isWaitingOn {w : WaitId} (h : (s.run r).isWaitingOn w) : r < s.runs.length := by
  refine Nat.lt_of_not_le fun hle => ?_
  rw [run_of_length_le hle] at h
  cases h

theorem lt_length_of_isWaiting {w : WaitId} (h : s.isWaiting r w) : r < s.runs.length :=
  lt_length_of_isWaitingOn (Bool.and_eq_true_iff.1 h).2

end Session

theorem Run.wait_of_isWaitingOn {run : Run} {w : WaitId} (h : run.isWaitingOn w) :
    ∃ wait ∈ run.wait, wait.id = w := by
  have waits : run.wait.any (·.id == w) := (Bool.and_eq_true_iff.1 h).2
  simpa [Option.any_eq_true] using waits

/-! ## What a run leaves behind, and where it goes on -/

/-- What comes next behind an output of a node. -/
def Graph.onward (g : Graph) (id : String) (output : Int) : Action :=
  match g.follow? id output with
  | some next => .next next
  | none => .terminal

/-- The run after its end. -/
def Run.ended (phase : Phase) (run : Run) : Run :=
  { run with wait := none, completion := none, phase, activity := .idle, node := none, ledger := [] }

/-- The run where it begins in another graph. -/
def Run.moved (graph : Graph) (run : Run) : Run :=
  { run with script := graph.id, node := none, phase := .running, activity := .running }

namespace Session

variable (s : Session) (q : RunId)

/-- The session in which a run has ended, and the graph with it if it was the current one; its
figures have not left yet. -/
def ended (phase : Phase) : Session :=
  { s.setRun q (Run.ended phase) with graph := if s.current == some q then none else s.graph }

/-- The session in which a run of the graph has begun, after all others. -/
def opened (graph : Graph) (completion : Option Callback) : Session :=
  { s.addRun { script := graph.id, npcs := s.carriedNpcs, completion } with
    graph := some graph, lastError := none }

theorem run_ended_self {phase : Phase} (h : q < s.runs.length) :
    (s.ended q phase).run q = (s.run q).ended phase := run_setRun_self h

theorem run_ended_of_ne {r : RunId} {phase : Phase} (h : r ≠ q) : (s.ended q phase).run r = s.run r :=
  run_setRun_of_ne h

theorem phase_ended {phase : Phase} (h : q < s.runs.length) : ((s.ended q phase).run q).phase = phase :=
  congrArg Run.phase (s.run_ended_self q h)

@[simp] theorem length_runs_ended (phase : Phase) : (s.ended q phase).runs.length = s.runs.length :=
  length_runs_setRun

theorem free_ended (phase : Phase) : ((s.ended q phase).run q).wait = none :=
  s.free_setRun fun _ => rfl

theorem ended_of_current {phase : Phase} (current : s.current = some q) :
    s.ended q phase = { s.setRun q (Run.ended phase) with graph := none } := by
  rw [ended, if_pos (beq_iff_eq.2 current)]

theorem close_eq (phase : Phase) : s.close q phase =
    if phase = .stopped then
      ((s.ended q phase).dismiss q (s.run q).npcs).under
        (.announcing (s.run q).completion (s.run q).ledger)
    else (s.ended q phase).announce (s.run q).completion (s.run q).ledger := by
  have gone (s' : Session) : (if s'.current == some q then { s' with graph := none } else s') =
      { s' with graph := if s'.current == some q then none else s'.graph } := by split <;> rfl
  simp only [close, gone]
  rfl

theorem close_stopped : s.close q .stopped =
    ((s.ended q .stopped).dismiss q (s.run q).npcs).under
      (.announcing (s.run q).completion (s.run q).ledger) :=
  (s.close_eq q .stopped).trans (if_pos rfl)

theorem install_eq (graph : Graph) : s.install q graph =
    Session.enqueue { s.setRun q (Run.moved graph) with graph := some graph } q (.enter graph) := rfl

/-! ## Outputs -/

theorem follow_eq (n : Node) (output : Int) (g : Graph) : s.follow q n output g =
    .stepped (s.setRun q fun run => { run with activity := .advancing }) n (g.onward n.id output) := by
  simp only [follow, Graph.onward]
  cases g.follow? n.id output <;> rfl

/-! ## Timers and answers -/

theorem withoutTimer_cases (frame : Frame) (go : Session → Move) :
    (∃ w, (s.run q).wait = some w ∧ w.timer ∧ s.withoutTimer q frame go =
      (Move.ask (s.setRun q (·.setTimer w.id false)) (.cancelTimer ⟨q, w.id⟩)).under frame) ∨
    (∀ w, (s.run q).wait = some w → w.timer = false) ∧ s.withoutTimer q frame go = go s := by
  unfold withoutTimer
  cases hw : (s.run q).wait with
  | none => exact .inr ⟨nofun, rfl⟩
  | some w =>
    by_cases timed : w.timer
    · exact .inl ⟨w, rfl, timed, if_pos timed⟩
    · refine .inr ⟨fun w' h => ?_, if_neg timed⟩
      obtain rfl := Option.some.inj h
      simpa using timed

/-- Without a timer nothing is cancelled before. -/
theorem withoutTimer_of_untimed (h : ∀ w, (s.run q).wait = some w → w.timer = false) (frame : Frame)
    (go : Session → Move) : s.withoutTimer q frame go = go s := by
  rcases s.withoutTimer_cases q frame go with ⟨w, hw, timed, -⟩ | ⟨-, hm⟩
  · rw [h w hw] at timed
    cases timed
  · exact hm

theorem clear_cases (job : Job) :
    (∃ w, (s.run q).wait = some w ∧ w.timer ∧ s.clear q job =
      (Move.ask (s.setRun q (·.setTimer w.id false)) (.cancelTimer ⟨q, w.id⟩)).under
        (.resuming q job)) ∨
    (∀ w, (s.run q).wait = some w → w.timer = false) ∧ s.clear q job = s.resume q job :=
  s.withoutTimer_cases q _ _

theorem terminate_cases (phase : Phase) :
    (∃ w, (s.run q).wait = some w ∧ w.timer ∧ s.terminate q phase =
      (Move.ask (s.setRun q (·.setTimer w.id false)) (.cancelTimer ⟨q, w.id⟩)).under
        (.ending q phase)) ∨
    (∀ w, (s.run q).wait = some w → w.timer = false) ∧ s.terminate q phase = s.close q phase :=
  s.withoutTimer_cases q _ _

theorem resumeInput_cases (wait : Wait) (answer : Value) :
    (∃ f, s.resumeInput q wait answer = .failure s f) ∨
    ∃ graph node, s.graph = some graph ∧ graph.node? wait.node = some node ∧
      s.resumeInput q wait answer = s.clear q (.respond node graph answer) := by
  unfold resumeInput
  cases hg : s.graph with
  | none => exact .inl ⟨_, rfl⟩
  | some graph =>
    dsimp only
    cases hn : graph.node? wait.node with
    | none => exact .inl ⟨_, rfl⟩
    | some node => exact .inr ⟨graph, node, rfl, hn, rfl⟩

/-! ## Steps and links -/

theorem loadTarget_cases (link : Link) :
    (∃ f, s.loadTarget q link = .failure s f) ∨
    ∃ graph, Library.load s.files s.library link.target = .ok graph ∧
      (s.loadTarget q link = .ask s (.fillIn q graph) ∨ s.loadTarget q link = s.install q graph) := by
  unfold loadTarget
  cases hl : Library.load s.files s.library link.target with
  | ok graph =>
    refine .inr ⟨graph, rfl, ?_⟩
    by_cases h : link.useTemplates
    · exact .inl (if_pos h)
    · exact .inr (if_neg h)
  | error f => cases f <;> exact .inl ⟨_, rfl⟩

theorem proceed_cases (step : Step) :
    (s.owns q = false ∧ s.proceed q step = .finished s) ∨
    s.owns q ∧ ((∃ f, s.proceed q step = (Move.failure s f).under (.driving q)) ∨
      (∃ node graph, step.action = .next node ∧ s.graph = some graph ∧
        s.proceed q step = (Move.work s (.visit q node graph)).under (.driving q)) ∨
      (∀ node, step.action ≠ .next node) ∧
        s.proceed q step = (s.settle q step).under (.driving q)) := by
  by_cases owns : s.owns q
  · refine .inr ⟨owns, ?_⟩
    simp only [proceed, if_pos owns]
    cases step.action with
    | next node =>
      cases hg : s.graph with
      | none => exact .inl ⟨_, rfl⟩
      | some graph => exact .inr (.inl ⟨node, graph, rfl, rfl, rfl⟩)
    | suspend | link | finish | terminal => exact .inr (.inr ⟨nofun, rfl⟩)
  · exact .inl ⟨by simpa using owns, if_neg owns⟩

/-! ## Entries -/

/-- No run goes on. -/
def IsIdle : Prop := ∀ p, s.current = some p → (s.run p).isActive = false

variable {s} in
theorem IsIdle.ensureIdle_eq (idle : s.IsIdle) (go : Session → Move) : s.ensureIdle go = go s := by
  unfold ensureIdle currentRun?
  cases hc : s.current with
  | none => rfl
  | some p => simp [idle p hc]

theorem ensureIdle_cases (go : Session → Move) :
    (∃ f, s.ensureIdle go = .failure s f) ∨ s.IsIdle ∧ s.ensureIdle go = go s := by
  by_cases idle : s.IsIdle
  · exact .inr ⟨idle, idle.ensureIdle_eq go⟩
  · left
    simp only [IsIdle] at idle
    unfold ensureIdle currentRun?
    cases hc : s.current with
    | none => simp [hc] at idle
    | some p =>
      have active : (s.run p).isActive = true := by simpa [hc] using idle
      exact ⟨_, if_pos active⟩

variable {s} in
theorem IsIdle.startGraph_eq (idle : s.IsIdle) (graph : Graph) (completion : Option Callback) :
    s.startGraph graph completion =
      (s.opened graph completion).enqueue s.runs.length (.enter graph) := by
  rw [startGraph, idle.ensureIdle_eq]
  dsimp only
  rw [length_runs_addRun, Nat.add_sub_cancel]
  rfl

theorem startGraph_cases (graph : Graph) (completion : Option Callback) :
    (∃ f, s.startGraph graph completion = .failure s f) ∨
    s.IsIdle ∧ s.startGraph graph completion =
      (s.opened graph completion).enqueue s.runs.length (.enter graph) := by
  rcases s.ensureIdle_cases _ with ⟨f, h⟩ | ⟨idle, -⟩
  · exact .inl ⟨f, h⟩
  · exact .inr ⟨idle, idle.startGraph_eq graph completion⟩

theorem start_cases (script : String) (completion : Option Callback) :
    (∃ f, s.start script completion = .failure s f) ∨
    s.IsIdle ∧ ((∃ graph, Library.load s.files s.library script = .ok graph ∧
        s.start script completion = s.startGraph graph completion) ∨
      ∃ f, Library.load s.files s.library script = .error (.data f) ∧ s.start script completion =
        ({ s with lastError := some (.data f) } : Session).stop.under (.failing (.data f))) := by
  unfold start
  rcases s.ensureIdle_cases _ with ⟨f, h⟩ | ⟨idle, h⟩
  · exact .inl ⟨f, h⟩
  · rw [h]
    cases Library.load s.files s.library script with
    | ok graph => exact .inr ⟨idle, .inl ⟨graph, rfl, rfl⟩⟩
    | error f =>
      cases f with
      | data f => exact .inr ⟨idle, .inr ⟨f, rfl, rfl⟩⟩
      | _ => exact .inl ⟨_, rfl⟩

theorem stop_cases :
    s.stop = .finished s ∨ ∃ q, s.current = some q ∧ (s.run q).phase ≠ .stopped ∧
      s.stop = s.terminate q .stopped := by
  unfold stop
  cases hc : s.current with
  | none => exact .inl rfl
  | some q =>
    by_cases h : (s.run q).phase = .stopped
    · exact .inl (if_pos h)
    · exact .inr ⟨q, rfl, h, if_neg h⟩

theorem advance_cases (answer : Value) :
    (∃ f, s.advance answer = .failure s f) ∨
    ∃ q wait, s.current = some q ∧ (s.run q).phase = .suspended ∧ (s.run q).wait = some wait ∧
      wait.kind.isForPlayer ∧ ¬(wait.kind = .choice ∧ answer = .null) ∧
      s.advance answer = s.resumeInput q wait answer := by
  unfold advance
  cases hc : s.current with
  | none => exact .inl ⟨_, rfl⟩
  | some q =>
    dsimp only
    split
    case h_1 wait hp hw =>
      by_cases player : wait.kind.isForPlayer
      · rw [if_neg (by simp [player])]
        by_cases unanswered : wait.kind = .choice ∧ answer = .null
        · exact .inl ⟨_, if_pos unanswered⟩
        · exact .inr ⟨q, wait, rfl, hp, hw, player, unanswered, if_neg unanswered⟩
      · exact .inl ⟨_, if_pos (by simp [player])⟩
    · exact .inl ⟨_, rfl⟩

theorem battleOver_cases (battle : BattleHandle) (outcome : Value) :
    (s.isWaiting battle.run battle.wait = false ∧ s.battleOver battle outcome = .finished s) ∨
    s.isWaiting battle.run battle.wait ∧ ((∃ f, s.battleOver battle outcome = .failure s f) ∨
      ∃ graph, s.graph = some graph ∧
        s.battleOver battle outcome = s.clear battle.run (.resolve battle.node graph outcome)) := by
  by_cases waits : s.isWaiting battle.run battle.wait
  · refine .inr ⟨waits, ?_⟩
    rw [battleOver, if_pos waits]
    cases s.graph with
    | none => exact .inl ⟨_, rfl⟩
    | some graph => exact .inr ⟨graph, rfl, rfl⟩
  · exact .inl ⟨by simpa using waits, if_neg waits⟩

/-- The timer that has run off is the timer of the wait the run goes on from. -/
theorem timeUp_cases (timer : TimerHandle) :
    (s.isWaiting timer.run timer.wait = false ∧ s.timeUp timer = .finished s) ∨
    s.isWaiting timer.run timer.wait ∧ ∃ wait, (s.run timer.run).wait = some wait ∧
      wait.id = timer.wait ∧ s.timeUp timer =
        (s.setRun timer.run (·.setTimer timer.wait false)).resumeInput timer.run
          { wait with timer := false } .null := by
  by_cases waits : s.isWaiting timer.run timer.wait
  · refine .inr ⟨waits, ?_⟩
    obtain ⟨wait, hw, id⟩ := Run.wait_of_isWaitingOn (Bool.and_eq_true_iff.1 waits).2
    have hw : (s.run timer.run).wait = some wait := hw
    have off : ((s.setRun timer.run (·.setTimer timer.wait false)).run timer.run).wait =
        some { wait with timer := false } := by
      rw [run_setRun_self (lt_length_of_isWaiting waits), Run.setTimer, hw, Option.map_some, if_pos id]
    refine ⟨wait, hw, id, ?_⟩
    rw [timeUp, if_pos waits]
    simp only [off]
  · exact .inl ⟨by simpa using waits, if_neg waits⟩

theorem deliver_cases (d : Delivery) :
    ((s.run d.handle.run).isWaitingOn d.handle.wait = false ∧ s.deliver d = .finished s) ∨
    (s.run d.handle.run).isWaitingOn d.handle.wait ∧ s.deliver d =
      ((s.setRun d.handle.run fun run => { run with wait := none }).afterWrite d.handle.run
        d.handle.link d.outcome).under (.linking d.handle.run) := by
  by_cases waits : (s.run d.handle.run).isWaitingOn d.handle.wait
  · exact .inr ⟨waits, if_pos waits⟩
  · exact .inl ⟨by simpa using waits, if_neg waits⟩

end Session

end Questline

import Questline.Proofs.Exits

/-!
# Where warnings and timers come from

A run is warned of an unknown event only by the trigger that names the event: when what the
trigger does fails with that fault.  All other warnings are mild, and a run that is new has none.
And a timer is started only for the image that was shown before.  All that a session does
otherwise is mild.

* `Session.Warned`: no run was warned of an unknown event.
* `Move.Mild`: a move that warns of none, leaves none to be warned of, and starts no timer; every
  function of a session is mild.
* `Turn.Does.heeds`: after a deed a run has the warnings that it had, and one more only if a
  trigger of the run has just failed; and a timer is started only where it was to be.
-/

namespace Questline

open Json (Value)

/-! ## Mild warnings -/

/-- Whether a warning is not about an unknown event. -/
def Warning.isMild : Warning → Bool
  | .unknownEvent _ _ => false
  | .shortfall _ _ _ | .unresolvedToken _ _ _ => true

/-- Whether several warnings are mild. -/
def Mild (ws : List Warning) : Prop := ∀ w ∈ ws, w.isMild

/-- Whether the warnings are mild that are left to be reported after a call. -/
def Ask.Mild : Ask → Prop
  | .report _ _ rest => Questline.Mild rest
  | _ => True

/-- Whether the warnings are mild that are left to be reported. -/
def Control.Mild : Control → Prop
  | .work (.report _ ws) => Questline.Mild ws
  | .ask a => a.Mild
  | _ => True

/-- Whether the warnings are mild that are left to be reported after the call of a frame. -/
def Frame.Mild : Frame → Prop
  | .asked a => a.Mild
  | _ => True

/-- In the session `s'` no run is warned of an unknown event that it was not warned of in `s`. -/
def Session.Warned (s s' : Session) : Prop :=
  ∀ q, ∀ w ∈ (s'.run q).warnings, w.isMild = false → w ∈ (s.run q).warnings

/-- The timer that a call starts. -/
def Control.timer? : Control → Option (TimerHandle × Number)
  | .ask (.startTimer seconds timer) => some (timer, seconds)
  | _ => none

/-- A move that warns of no unknown event, leaves none to be warned of, and starts no timer. -/
structure Move.Mild (s : Session) (m : Move) : Prop where
  warned : s.Warned m.session
  control : m.control.Mild
  timer : m.control.timer? = none
  frames : ∀ f ∈ m.frames, f.Mild

section

variable {s s' s'' : Session} {q : RunId} {m : Move} {f : Frame}

theorem Warning.mild_ofText (node field text : String) : Mild (ofText node field text) := by
  intro w hw
  obtain ⟨token, -, rfl⟩ := List.mem_map.1 hw
  rfl

theorem Warning.mild_ofDialogue (node : String) (d : Dialogue) : Mild (ofDialogue node d) := by
  intro w hw
  rcases List.mem_append.1 hw with hw | hw
  · exact (List.mem_append.1 hw).elim (mild_ofText _ _ _ w) (mild_ofText _ _ _ w)
  · exact mild_ofText _ _ _ w hw

namespace Session.Warned

theorem refl (s : Session) : s.Warned s := fun _ _ h _ => h

theorem trans (h : s.Warned s') (g : s'.Warned s'') : s.Warned s'' :=
  fun q w hw he => h q w (g q w hw he) he

theorem of_runs (h : s'.runs = s.runs) : s.Warned s' :=
  fun q w hw _ => by rwa [Session.run, h] at hw

theorem setRun {f : Run → Run} (h : ∀ run, (f run).warnings = run.warnings) :
    s.Warned (s.setRun q f) := by
  intro r w hw _
  rw [run_setRun] at hw
  split at hw
  · rwa [h] at hw
  · exact hw

end Session.Warned

namespace Move.Mild

theorem of_nil (h : s.Warned m.session) (frames : m.frames = []) (control : m.control.Mild)
    (timer : m.control.timer? = none) : m.Mild s := ⟨h, control, timer, by simp [frames]⟩

theorem finished (h : s.Warned s') : (Move.finished s').Mild s := .of_nil h rfl trivial rfl

theorem failure (h : s.Warned s') (fault : Fault) : (Move.failure s' fault).Mild s :=
  .of_nil h rfl trivial rfl

theorem stepped (h : s.Warned s') (node : Node) (action : Action) :
    (Move.stepped s' node action).Mild s := .of_nil h rfl trivial rfl

theorem ask (h : s.Warned s') {a : Ask} (ha : a.Mild) (timer : (Control.ask a).timer? = none) :
    (Move.ask s' a).Mild s := .of_nil h rfl ha timer

theorem under (h : m.Mild s) (hf : f.Mild) : (m.under f).Mild s := by
  refine ⟨h.warned, h.control, h.timer, fun g hg => ?_⟩
  rcases List.mem_append.1 hg with hg | hg
  · exact h.frames g hg
  · exact List.mem_singleton.1 hg ▸ hf

theorem after (h : m.Mild s') (hs : s.Warned s') : m.Mild s :=
  ⟨hs.trans h.warned, h.control, h.timer, h.frames⟩

end Move.Mild

end

/-! ## Every function is mild -/

namespace Session

variable (s : Session) {q : RunId}

theorem follow_mild (node : Node) (output : Int) (graph : Graph) :
    (s.follow q node output graph).Mild s := by
  rw [follow_eq]
  exact .stepped (.setRun (by exact fun _ => rfl)) _ _

theorem report_mild {ws : List Warning} (h : Questline.Mild ws) : (s.report q ws).Mild s := by
  cases ws with
  | nil => exact .finished (.refl s)
  | cons w ws =>
    obtain ⟨hw, hws⟩ := List.forall_mem_cons.1 h
    refine .ask (fun r v hv stern => ?_) hws rfl
    rw [run_setRun] at hv
    split at hv
    · refine (List.mem_append.1 hv).resolve_right fun hv => ?_
      rw [List.mem_singleton.1 hv, hw] at stern
      cases stern
    · exact hv

theorem dispatch_mild (t : Trigger) : (s.dispatch q t).Mild s := by
  unfold dispatch perform
  split
  · split
    · exact .ask (.refl s) (by exact trivial) rfl
    · split
      · exact .finished (.of_runs (by exact rfl))
      · exact .failure (.of_runs (by exact rfl)) _
    · exact .ask (.refl s) (by exact trivial) rfl
    · exact .ask (.refl s) (by exact trivial) rfl
  · exact .failure (.refl s) _

theorem applyItem_mild (node : String) (i : ItemChange) : (s.applyItem q node i).Mild s := by
  unfold applyItem
  split <;> exact .ask (.refl s) (by exact trivial) rfl

theorem check_mild (node : Node) (c : Condition) (graph : Graph) :
    (s.check q node c graph).Mild s := by
  unfold check
  split
  · exact follow_mild s _ _ _
  · exact .ask (.refl s) (by exact trivial) rfl
  · exact .ask (.refl s) (by exact trivial) rfl

theorem visit_mild (node : Node) (graph : Graph) : (s.visit q node graph).Mild s := by
  have entered : s.Warned (s.setRun q fun run =>
      { run.count node.kind.word with node := some node.id, activity := .running }) :=
    .setRun fun _ => rfl
  unfold visit
  cases node.body with
  | dialogue d => exact ((report_mild _ (Warning.mild_ofDialogue _ d)).under (by exact trivial)).after entered
  | choice c => exact ((report_mild _ (Warning.mild_ofText _ _ _)).under (by exact trivial)).after entered
  | image i => exact .stepped entered _ _
  | item i => exact ((applyItem_mild _ _ i).under (by exact trivial)).after entered
  | trigger t => exact ((dispatch_mild _ t).under (by exact trivial)).after entered
  | condition c => exact (check_mild _ node c graph).after entered
  | combat opponent => exact .stepped entered _ _
  | link l => exact .stepped entered _ _
  | ending => exact .stepped entered _ _

theorem respond_mild (node : Node) (graph : Graph) (answer : Value) :
    (s.respond q node graph answer).Mild s := by
  unfold respond
  split
  · split
    · dsimp only
      split
      · exact (follow_mild _ _ _ _).after (.setRun (by exact fun _ => rfl))
      · exact .failure (.setRun (by exact fun _ => rfl)) _
    · exact .failure (.refl s) _
  · exact follow_mild s _ _ _

theorem resolve_mild (node : Node) (graph : Graph) (outcome : Value) :
    (s.resolve q node graph outcome).Mild s := by
  unfold resolve
  split
  · exact follow_mild s _ _ _
  · exact follow_mild s _ _ _
  · exact .failure (.refl s) _

theorem enqueue_mild (job : Job) : (s.enqueue q job).Mild s := by
  unfold enqueue
  dsimp only
  split
  · exact .finished (.of_runs (by exact rfl))
  · exact (Move.Mild.finished (.of_runs (by exact rfl))).under (by exact trivial)

theorem drain_mild : s.drain.Mild s := by
  unfold drain
  split
  · exact .finished (.of_runs (by exact rfl))
  · exact Move.Mild.under (f := .draining) (.of_nil (.of_runs (by exact rfl)) rfl trivial rfl) trivial

theorem drive_mild (job : Job) : (s.drive q job).Mild s := by
  unfold drive
  split
  · refine Move.Mild.under (f := .driving q) (.of_nil (.refl s) rfl ?_ ?_) trivial
    · cases job <;> trivial
    · cases job <;> rfl
  · exact .finished (.refl s)

theorem withoutTimer_mild {f : Frame} {go : Session → Move} (hf : f.Mild) (h : (go s).Mild s) :
    (s.withoutTimer q f go).Mild s := by
  rcases s.withoutTimer_cases q f go with ⟨w, -, -, hm⟩ | ⟨-, hm⟩
  · rw [hm]
    exact (Move.Mild.ask (.setRun (by exact fun _ => rfl)) (by exact trivial) rfl).under hf
  · rw [hm]
    exact h

theorem resume_mild (job : Job) : (s.resume q job).Mild s :=
  (enqueue_mild _ job).after (.setRun (by exact fun _ => rfl))

theorem clear_mild (job : Job) : (s.clear q job).Mild s :=
  withoutTimer_mild s (f := .resuming q job) trivial (resume_mild s job)

theorem resumeInput_mild (wait : Wait) (answer : Value) : (s.resumeInput q wait answer).Mild s := by
  rcases s.resumeInput_cases q wait answer with ⟨f, h⟩ | ⟨graph, node, -, -, h⟩
  · rw [h]
    exact .failure (.refl s) f
  · rw [h]
    exact clear_mild s _

theorem announce_mild (completion : Option Callback) (ledger : Ledger) :
    (s.announce completion ledger).Mild s := by
  cases completion with
  | none => exact .finished (.refl s)
  | some callback => exact .ask (.refl s) (by exact trivial) rfl

theorem dismiss_mild (npcs : List String) : (s.dismiss q npcs).Mild s := by
  cases npcs with
  | nil => exact .finished (.setRun (by exact fun _ => rfl))
  | cons npc rest => exact .ask (.refl s) (by exact trivial) rfl

theorem close_mild (phase : Phase) : (s.close q phase).Mild s := by
  have ended : s.Warned (s.ended q phase) :=
    .trans (.setRun (f := Run.ended phase) fun _ => rfl) (.of_runs (by exact rfl))
  rw [close_eq]
  split
  · exact ((dismiss_mild _ _).under (by exact trivial)).after ended
  · exact (announce_mild _ _ _).after ended

theorem terminate_mild (phase : Phase) : (s.terminate q phase).Mild s :=
  withoutTimer_mild s (f := .ending q phase) trivial (close_mild s phase)

theorem stopIfActive_mild : (s.stopIfActive q).Mild s := by
  unfold stopIfActive
  split
  · exact .of_nil (.refl s) rfl trivial rfl
  · exact .finished (.refl s)

theorem stop_mild : s.stop.Mild s := by
  rcases s.stop_cases with h | ⟨r, -, -, h⟩
  · rw [h]
    exact .finished (.refl s)
  · rw [h]
    exact terminate_mild s _

theorem install_mild (graph : Graph) : (s.install q graph).Mild s :=
  (enqueue_mild _ _).after
    (.trans (.setRun (f := Run.moved graph) fun _ => rfl) (.of_runs (by exact rfl)))

theorem loadTarget_mild (link : Link) : (s.loadTarget q link).Mild s := by
  rcases s.loadTarget_cases q link with ⟨f, h⟩ | ⟨graph, -, h | h⟩
  · rw [h]
    exact .failure (.refl s) f
  · rw [h]
    exact .ask (.refl s) (by exact trivial) rfl
  · rw [h]
    exact install_mild s graph

theorem afterWrite_mild (link : Link) (outcome : WriteOutcome) :
    (s.afterWrite q link outcome).Mild s := by
  unfold afterWrite
  split
  · exact loadTarget_mild s link
  · exact .failure (.refl s) _
  · exact .failure (.refl s) _

theorem warned_suspend (kind : WaitKind) (node : String) : s.Warned (s.suspend q kind node) := by
  have suspended : s.Warned (s.setRun q fun run => { run with
      wait := some { id := s.nextWait, kind, node }, phase := .suspended,
      activity := kind.activity }) := .setRun fun _ => rfl
  exact suspended.trans (.of_runs rfl)

theorem afterHandOver_mild (node : String) (link : Link) (receipt : Receipt) :
    (s.afterHandOver q node link receipt).Mild s := by
  unfold afterHandOver
  split
  · exact loadTarget_mild s link
  · exact afterWrite_mild s link _
  · exact .finished ((warned_suspend s .link node).trans (.of_runs (by exact rfl)))

theorem transfer_mild (node : String) (link : Link) : (s.transfer q node link).Mild s := by
  unfold transfer
  split
  · exact loadTarget_mild s link
  · exact .ask (.setRun (by exact fun _ => rfl)) (by exact trivial) rfl

theorem pause_mild (node : Node) (scene : Scene) : (s.pause q node scene).Mild s := by
  unfold pause
  dsimp only
  split
  · exact .ask (warned_suspend s _ _) (by exact trivial) rfl
  · exact (Move.Mild.ask (warned_suspend s _ _) (by exact trivial) rfl).under (by exact trivial)
  · exact .ask (warned_suspend s _ _) (by exact trivial) rfl

theorem settle_mild (step : Step) : (s.settle q step).Mild s := by
  unfold settle
  split
  · exact .finished (.refl s)
  · exact pause_mild s _ _
  · exact transfer_mild s _ _
  · exact terminate_mild s _
  · exact terminate_mild s _

theorem proceed_mild (step : Step) : (s.proceed q step).Mild s := by
  rcases s.proceed_cases q step with ⟨-, h⟩ | ⟨-, ⟨f, h⟩ | ⟨node, graph, -, -, h⟩ | ⟨-, h⟩⟩
  · rw [h]
    exact .finished (.refl s)
  · rw [h]
    exact (Move.Mild.failure (.refl s) f).under (by exact trivial)
  · rw [h]
    exact Move.Mild.under (f := .driving q) (.of_nil (.refl s) rfl trivial rfl) trivial
  · rw [h]
    exact (settle_mild s step).under (by exact trivial)

theorem warned_addRun {run : Run} (h : run.warnings = []) : s.Warned (s.addRun run) := by
  intro r w hw _
  by_cases hr : r = s.runs.length
  · rw [hr, run_addRun_length, h] at hw
    cases hw
  · rwa [run_addRun_of_ne _ hr] at hw

theorem startGraph_mild (graph : Graph) (completion : Option Callback) :
    (s.startGraph graph completion).Mild s := by
  rcases s.startGraph_cases graph completion with ⟨f, h⟩ | ⟨-, h⟩
  · rw [h]
    exact .failure (.refl s) f
  · rw [h]
    exact (enqueue_mild _ _).after ((warned_addRun s rfl).trans (.of_runs (by exact rfl)))

theorem start_mild (script : String) (completion : Option Callback) :
    (s.start script completion).Mild s := by
  rcases s.start_cases script completion with ⟨f, h⟩ | ⟨-, ⟨graph, -, h⟩ | ⟨f, -, h⟩⟩
  · rw [h]
    exact .failure (.refl s) f
  · rw [h]
    exact startGraph_mild s graph completion
  · rw [h]
    exact ((stop_mild _).under (by exact trivial)).after (.of_runs (by exact rfl))

theorem advance_mild (answer : Value) : (s.advance answer).Mild s := by
  rcases s.advance_cases answer with ⟨f, h⟩ | ⟨r, wait, -, -, -, -, -, h⟩
  · rw [h]
    exact .failure (.refl s) f
  · rw [h]
    exact resumeInput_mild s wait answer

theorem battleOver_mild (battle : BattleHandle) (outcome : Value) :
    (s.battleOver battle outcome).Mild s := by
  rcases s.battleOver_cases battle outcome with ⟨-, h⟩ | ⟨-, ⟨f, h⟩ | ⟨graph, -, h⟩⟩
  · rw [h]
    exact .finished (.refl s)
  · rw [h]
    exact .failure (.refl s) f
  · rw [h]
    exact clear_mild s _

theorem timeUp_mild (timer : TimerHandle) : (s.timeUp timer).Mild s := by
  rcases s.timeUp_cases timer with ⟨-, h⟩ | ⟨-, wait, -, -, h⟩
  · rw [h]
    exact .finished (.refl s)
  · rw [h]
    exact (resumeInput_mild _ _ _).after (.setRun (by exact fun _ => rfl))

theorem deliver_mild (d : Delivery) : (s.deliver d).Mild s := by
  rcases s.deliver_cases d with ⟨-, h⟩ | ⟨-, h⟩
  · rw [h]
    exact .finished (.refl s)
  · rw [h]
    exact ((afterWrite_mild _ _ _).under (by exact trivial)).after (.setRun (by exact fun _ => rfl))

theorem post_mild (ds : List Delivery) : (s.post ds).Mild s := by
  cases ds with
  | nil => exact .finished (.refl s)
  | cons d ds => exact (Move.Mild.ask (.refl s) (by exact trivial) rfl).under (by exact trivial)

theorem enter_mild (e : Entry) : (s.enter e).Mild s := by
  cases e with
  | start script completion => exact start_mild s script completion
  | startGraph graph completion => exact startGraph_mild s graph completion
  | stop => exact stop_mild s
  | advance answer => exact advance_mild s answer
  | battleOver battle outcome => exact battleOver_mild s battle outcome
  | timeUp timer => exact timeUp_mild s timer
  | written d => exact deliver_mild s d
  | settle ticket outcome => exact (post_mild _ _).after (.of_runs (by exact rfl))

end Session

/-! ## Deeds -/

section

variable (s : Session)

theorem Task.begin_mild {task : Task} (h : (Control.work task).Mild) : (task.begin s).Mild s := by
  cases task with
  | entry e => exact s.enter_mild e
  | drive q job => exact s.drive_mild job
  | visit q node graph => exact s.visit_mild node graph
  | respond q node graph answer => exact s.respond_mild node graph answer
  | resolve q node graph outcome => exact s.resolve_mild node graph outcome
  | follow q node output graph => exact s.follow_mild node output graph
  | dispatch q t => exact s.dispatch_mild t
  | report q ws => exact s.report_mild h
  | engage card => exact .ask (.refl s) (by exact trivial) rfl
  | terminate q phase => exact s.terminate_mild phase

theorem Ask.resume_mild {a : Ask} (answer : a.call.Reply) (h : a.Mild) : (a.resume s answer).Mild s := by
  cases a with
  | startTimer seconds timer =>
    refine .finished ?_
    split
    · exact .setRun fun _ => rfl
    · exact .refl s
  | take q node item amount =>
    simp only [resume]
    split
    · exact .finished (.refl s)
    · exact s.report_mild fun w hw => List.mem_singleton.1 hw ▸ rfl
  | count q node c graph => exact s.follow_mild _ _ _
  | spawn q request => exact .finished (.setRun (by exact fun _ => rfl))
  | remove q npc => exact .finished (.setRun (by exact fun _ => rfl))
  | fillIn q graph => exact s.install_mild _
  | report q w rest => exact s.report_mild h
  | dismiss q npc rest => exact s.dismiss_mild rest
  | handOver q node link callback ledger => exact s.afterHandOver_mild _ _ _
  | engage | cancelTimer | deliver | give | battle | world | announce => exact .finished (.refl s)

/-- Only after an image is shown, its timer is started. -/
theorem Frame.receive_mild {frame : Frame} (hn : ∀ a, frame ≠ .asked a) (result : Result) :
    (frame.receive s result).Mild s ∨ ∃ q w seconds, frame = .timing q w seconds ∧
      frame.receive s result = .ask s (.startTimer seconds ⟨q, w⟩) := by
  cases frame with
  | draining => exact .inl (s.drain_mild)
  | driving q =>
    cases result with
    | done => exact .inl (.finished (.refl s))
    | stepped step => exact .inl (s.proceed_mild step)
  | failing f => exact .inl (.failure (.refl s) f)
  | triggering q node graph => exact .inl (s.follow_mild _ _ _)
  | following q node output graph => exact .inl (s.follow_mild _ _ _)
  | stepping step => exact .inl (.stepped (.refl s) _ _)
  | timing q w seconds =>
    by_cases waits : (s.run q).isWaitingOn w
    · exact .inr ⟨q, w, seconds, rfl, if_pos waits⟩
    · left
      rw [receive, if_neg waits]
      exact .finished (.refl s)
  | resuming q job => exact .inl (s.resume_mild job)
  | ending q phase => exact .inl (s.close_mild phase)
  | announcing completion ledger => exact .inl (s.announce_mild _ _)
  | linking q => exact .inl (.finished (.refl s))
  | posting ds => exact .inl (s.post_mild ds)
  | asked a => exact absurd rfl (hn a)

/-- Only a trigger warns of an unknown event. -/
theorem Frame.recover_mild {frame : Frame} (hn : ∀ a, frame ≠ .asked a) (fault : Fault) :
    (frame.recover s fault).Mild s ∨ ∃ q node graph event, frame = .triggering q node graph ∧
      fault = .unknownEvent event ∧ frame.recover s fault =
        (s.report q [.unknownEvent node.id event]).under
          (.following q node Session.firstOutput graph) := by
  cases frame with
  | triggering q node graph =>
    cases fault with
    | unknownEvent event => exact .inr ⟨q, node, graph, event, rfl, rfl, rfl⟩
    | _ => exact .inl (.failure (.refl s) _)
  | driving q =>
    exact .inl (((Session.stopIfActive_mild _).under (f := .failing fault) trivial).after (.of_runs (by exact rfl)))
  | linking q =>
    cases fault with
    | link f => exact .inl ((Session.stopIfActive_mild _).after (.of_runs (by exact rfl)))
    | _ => exact .inl (.failure (.refl s) _)
  | posting ds => exact .inl (s.post_mild ds)
  | draining => exact .inl (.of_nil (by exact Session.Warned.of_runs rfl) rfl trivial rfl)
  | asked a => exact absurd rfl (hn a)
  | _ => exact .inl (.failure (.refl s) fault)

end

namespace Turn

variable {t u : Turn} {d : Deed}

/-- The warnings are mild that are left to be reported. -/
structure Mild (t : Turn) : Prop where
  control : t.control.Mild
  stack : ∀ f ∈ t.stack, f.Mild

/-- In the turn `t` a trigger of the run `q` has failed, at the node and with the event of a
warning. -/
def Fails (t : Turn) (q : RunId) (w : Warning) : Prop :=
  ∃ node graph stack event, t.stack = .triggering q node graph :: stack ∧
    t.control = .failed (.unknownEvent event) ∧ w = .unknownEvent node.id event

/-- After a deed no more is warned of than is due to a trigger that failed, and a timer is started
only where it was to be. -/
structure Heeds (t u : Turn) : Prop where
  mild : u.Mild
  warned : ∀ q, ∀ w ∈ (u.session.run q).warnings, w.isMild = false →
    w ∈ (t.session.run q).warnings ∨ t.Fails q w
  timer : ∀ q w seconds, u.control.timer? = some (⟨q, w⟩, seconds) →
    .timing q w seconds ∈ t.stack ∨ t.control.timer? = some (⟨q, w⟩, seconds) ∨
      .asked (.startTimer seconds ⟨q, w⟩) ∈ t.stack

/-- **Only a trigger that fails warns of an unknown event**, and only an image is timed. -/
theorem Does.heeds (h : t.Does d u) (ht : t.Mild) : t.Heeds u := by
  have on {m : Move} {stack : List Frame} (hm : m.Mild t.session) (below : ∀ f ∈ stack, f.Mild) :
      t.Heeds (m.on stack) :=
    ⟨⟨hm.control, fun f hf => (List.mem_append.1 hf).elim (hm.frames f) (below f)⟩,
      fun q w hw stern => .inl (hm.warned q w hw stern), fun q w seconds hc => (by
        rw [show (m.on stack).control.timer? = none from hm.timer] at hc
        cases hc)⟩
  cases h with
  | @work s stack task => exact on (task.begin_mild s ht.control) ht.stack
  | @receive s frame stack result hn =>
    have below := (List.forall_mem_cons.1 ht.stack).2
    rcases Frame.receive_mild s hn result with hm | ⟨q, w, seconds, rfl, hm⟩
    · exact on hm below
    · rw [hm]
      refine ⟨⟨trivial, below⟩, fun q w hw _ => .inl hw, fun q' w' seconds' hc => ?_⟩
      cases hc
      exact .inl List.mem_cons_self
  | @recover s frame stack fault hn =>
    have below := (List.forall_mem_cons.1 ht.stack).2
    rcases Frame.recover_mild s hn fault with hm | ⟨q, node, graph, event, rfl, rfl, hm⟩
    · exact on hm below
    · rw [hm]
      refine ⟨⟨fun w hw => (by cases hw), fun f hf => ?_⟩, fun r w hw stern => ?_,
        fun _ _ _ hc => by cases hc⟩
      · rcases List.mem_cons.1 hf with rfl | hf
        · trivial
        · exact below f hf
      · have hw : w ∈ ((s.setRun q (·.warn (.unknownEvent node.id event))).run r).warnings := hw
        rw [Session.run_setRun] at hw
        split at hw
        case isTrue hr =>
          obtain rfl := hr.1
          have hw : w ∈ (s.run q).warnings ++ [.unknownEvent node.id event] := hw
          refine (List.mem_append.1 hw).imp_right fun hw => ?_
          exact ⟨node, graph, stack, event, rfl, rfl, List.mem_singleton.1 hw⟩
        case isFalse => exact .inl hw
  | @reply s stack a answer => exact on (a.resume_mild s answer ht.control) ht.stack
  | beginAtRest past e =>
    exact ⟨⟨trivial, ht.stack⟩, fun q w hw _ => .inl hw, fun _ _ _ hc => by cases hc⟩
  | @beginInside s stack a e =>
    refine ⟨⟨trivial, fun f hf => ?_⟩, fun q w hw _ => .inl hw, fun _ _ _ hc => by cases hc⟩
    rcases List.mem_cons.1 hf with rfl | hf
    · exact ht.control
    · exact ht.stack f hf
  | @leave s stack a c past =>
    obtain ⟨own, below⟩ := List.forall_mem_cons.1 ht.stack
    refine ⟨⟨own, below⟩, fun q w hw _ => .inl hw, fun q w seconds hc => .inr (.inr ?_)⟩
    cases a <;> cases hc
    exact List.mem_cons_self
  | fail => exact ⟨⟨trivial, ht.stack⟩, fun q w hw _ => .inl hw, fun _ _ _ hc => by cases hc⟩
  | change =>
    exact ⟨⟨ht.control, ht.stack⟩, fun q w hw _ => .inl hw, fun q w seconds hc => .inr (.inl hc)⟩

end Turn

end Questline

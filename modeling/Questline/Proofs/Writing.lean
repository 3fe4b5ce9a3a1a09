import Questline.Proofs.Branches
import Questline.Proofs.Walk

/-!
# What is written

A session writes into its flags and files at one place: in a visit of a trigger that sets a
flag.  Everything else leaves them as they are, unless the host changes them itself.

* `Session.store`: the flags and the files.
* `Session.visit_store`: what a visit writes.
* `Turn.Does.store`: what a deed writes.
-/

namespace Questline

open Json (Value)

/-- The flags and the files. -/
def Session.store (s : Session) : FlagStore × FileTree := (s.flags, s.files)

namespace Session

variable (s : Session) (r : RunId)

/-! ## Visits -/

theorem report_store (warnings : List Warning) : (s.report r warnings).session.store = s.store := by
  cases warnings <;> rfl

theorem follow_store (node : Node) (output : Int) (graph : Graph) :
    (s.follow r node output graph).session.store = s.store := by
  rw [follow_eq]
  rfl

theorem applyItem_store (node : String) (i : ItemChange) :
    (s.applyItem r node i).session.store = s.store := by
  unfold applyItem
  split <;> rfl

theorem check_store (node : Node) (c : Condition) (graph : Graph) :
    (s.check r node c graph).session.store = s.store := by
  unfold check
  split
  · rw [follow_store]
  · rfl
  · rfl

theorem dispatch_store (n : Node) {t : Trigger} (body : n.body = .trigger t) :
    (s.dispatch r t).session.store = n.write s.flags s.files := by
  simp only [dispatch, Node.write, body]
  cases Effect.ofTrigger t with
  | error f => rfl
  | ok effect =>
    cases effect with
    | setFlag name value =>
      simp only [perform]
      split
      case h_1 h => rw [h]; rfl
      case h_2 h => rw [h]; rfl
    | world | spawn | remove => rfl

/-- **A visit** writes what its node says. -/
theorem visit_store (node : Node) (graph : Graph) :
    (s.visit r node graph).session.store = node.write s.flags s.files := by
  have plain (h : ∀ t, node.body ≠ .trigger t) : node.write s.flags s.files = s.store := by
    unfold Node.write
    split
    case h_1 t body => exact absurd body (h t)
    case h_2 => rfl
  simp only [visit]
  cases body : node.body with
  | dialogue d =>
    rw [plain (by simp [body])]
    exact report_store _ r _
  | choice c =>
    rw [plain (by simp [body])]
    exact report_store _ r _
  | item i =>
    rw [plain (by simp [body])]
    exact applyItem_store _ r _ i
  | trigger t => exact dispatch_store _ r node body
  | condition c =>
    rw [plain (by simp [body])]
    exact check_store _ r node c graph
  | image | combat | link | ending =>
    rw [plain (by simp [body])]
    rfl

theorem respond_store (node : Node) (graph : Graph) (answer : Value) :
    (s.respond r node graph answer).session.store = s.store := by
  unfold respond
  split
  · split
    · split
      · rw [follow_store]
        rfl
      · rfl
    · rfl
  · rw [follow_store]

theorem resolve_store (node : Node) (graph : Graph) (outcome : Value) :
    (s.resolve r node graph outcome).session.store = s.store := by
  unfold resolve
  split
  · rw [follow_store]
  · rw [follow_store]
  · rfl

/-! ## The course of a run -/

theorem enqueue_store (job : Job) : (s.enqueue r job).session.store = s.store := by
  simp only [enqueue]
  split <;> rfl

theorem drain_store : s.drain.session.store = s.store := by
  unfold drain
  split <;> rfl

theorem drive_store (job : Job) : (s.drive r job).session.store = s.store := by
  unfold drive
  split <;> rfl

theorem resume_store (job : Job) : (s.resume r job).session.store = s.store :=
  enqueue_store (s.setRun r _) r job

theorem withoutTimer_store {frame : Frame} {go : Session → Move}
    (h : (go s).session.store = s.store) : (s.withoutTimer r frame go).session.store = s.store := by
  rcases s.withoutTimer_cases r frame go with ⟨w, -, -, hm⟩ | ⟨-, hm⟩
  · rw [hm]
    rfl
  · rw [hm]
    exact h

theorem clear_store (job : Job) : (s.clear r job).session.store = s.store :=
  withoutTimer_store s r (resume_store s r job)

theorem resumeInput_store (wait : Wait) (answer : Value) :
    (s.resumeInput r wait answer).session.store = s.store := by
  rcases s.resumeInput_cases r wait answer with ⟨f, h⟩ | ⟨graph, node, -, -, h⟩
  · rw [h]
    rfl
  · rw [h]
    exact clear_store s r _

theorem announce_store (completion : Option Callback) (ledger : Ledger) :
    (s.announce completion ledger).session.store = s.store := by
  cases completion <;> rfl

theorem dismiss_store (npcs : List String) : (s.dismiss r npcs).session.store = s.store := by
  cases npcs <;> rfl

theorem close_store (phase : Phase) : (s.close r phase).session.store = s.store := by
  rw [close_eq]
  split
  · exact dismiss_store (s.ended r phase) r _
  · exact announce_store (s.ended r phase) _ _

theorem terminate_store (phase : Phase) : (s.terminate r phase).session.store = s.store :=
  withoutTimer_store s r (close_store s r phase)

theorem stopIfActive_store : (s.stopIfActive r).session.store = s.store := by
  unfold stopIfActive
  split <;> rfl

theorem stop_store : s.stop.session.store = s.store := by
  rcases s.stop_cases with h | ⟨q, -, -, h⟩
  · rw [h]
    rfl
  · rw [h]
    exact terminate_store s q _

theorem install_store (graph : Graph) : (s.install r graph).session.store = s.store :=
  enqueue_store { s.setRun r (Run.moved graph) with graph := some graph } r _

theorem loadTarget_store (link : Link) : (s.loadTarget r link).session.store = s.store := by
  rcases s.loadTarget_cases r link with ⟨f, h⟩ | ⟨graph, -, h | h⟩
  · rw [h]
    rfl
  · rw [h]
    rfl
  · rw [h]
    exact install_store s r graph

theorem afterWrite_store (link : Link) (outcome : WriteOutcome) :
    (s.afterWrite r link outcome).session.store = s.store := by
  cases outcome with
  | written => exact loadTarget_store s r link
  | failed | cancelled => rfl

theorem afterHandOver_store (node : String) (link : Link) (receipt : Receipt) :
    (s.afterHandOver r node link receipt).session.store = s.store := by
  cases receipt with
  | plain => exact loadTarget_store s r link
  | finished outcome => exact afterWrite_store s r link outcome
  | pending ticket => rfl

theorem pause_store (node : Node) (scene : Scene) : (s.pause r node scene).session.store = s.store := by
  unfold pause
  split <;> rfl

theorem settle_store (step : Step) : (s.settle r step).session.store = s.store := by
  unfold settle
  split
  · rfl
  · exact pause_store s r _ _
  · unfold transfer
    split
    · exact loadTarget_store s r _
    · rfl
  · exact terminate_store s r _
  · exact terminate_store s r _

theorem proceed_store (step : Step) : (s.proceed r step).session.store = s.store := by
  rcases s.proceed_cases r step with ⟨-, h⟩ | ⟨-, ⟨f, h⟩ | ⟨node, graph, -, -, h⟩ | ⟨-, h⟩⟩
  · rw [h]
    rfl
  · rw [h]
    rfl
  · rw [h]
    rfl
  · rw [h]
    exact settle_store s r step

/-! ## Entries -/

theorem startGraph_store (graph : Graph) (completion : Option Callback) :
    (s.startGraph graph completion).session.store = s.store := by
  rcases s.startGraph_cases graph completion with ⟨f, h⟩ | ⟨-, h⟩
  · rw [h]
    rfl
  · rw [h]
    exact enqueue_store (s.opened graph completion) _ _

theorem start_store (script : String) (completion : Option Callback) :
    (s.start script completion).session.store = s.store := by
  rcases s.start_cases script completion with ⟨f, h⟩ | ⟨-, ⟨graph, -, h⟩ | ⟨f, -, h⟩⟩
  · rw [h]
    rfl
  · rw [h]
    exact startGraph_store s graph completion
  · rw [h]
    exact stop_store { s with lastError := some (.data f) }

theorem advance_store (answer : Value) : (s.advance answer).session.store = s.store := by
  rcases s.advance_cases answer with ⟨f, h⟩ | ⟨q, wait, -, -, -, -, -, h⟩
  · rw [h]
    rfl
  · rw [h]
    exact resumeInput_store s q wait answer

theorem battleOver_store (battle : BattleHandle) (outcome : Value) :
    (s.battleOver battle outcome).session.store = s.store := by
  rcases s.battleOver_cases battle outcome with ⟨-, h⟩ | ⟨-, ⟨f, h⟩ | ⟨graph, -, h⟩⟩
  · rw [h]
    rfl
  · rw [h]
    rfl
  · rw [h]
    exact clear_store s _ _

theorem timeUp_store (timer : TimerHandle) : (s.timeUp timer).session.store = s.store := by
  rcases s.timeUp_cases timer with ⟨-, h⟩ | ⟨-, wait, -, -, h⟩
  · rw [h]
    rfl
  · rw [h]
    exact resumeInput_store (s.setRun _ _) _ _ _

theorem deliver_store (d : Delivery) : (s.deliver d).session.store = s.store := by
  rcases s.deliver_cases d with ⟨-, h⟩ | ⟨-, h⟩
  · rw [h]
    rfl
  · rw [h]
    exact afterWrite_store (s.setRun _ _) _ _ _

theorem enter_store (entry : Entry) : (s.enter entry).session.store = s.store := by
  cases entry with
  | start script completion => exact start_store s script completion
  | startGraph graph completion => exact startGraph_store s graph completion
  | advance answer => exact advance_store s answer
  | stop => exact stop_store s
  | battleOver battle outcome => exact battleOver_store s battle outcome
  | timeUp timer => exact timeUp_store s timer
  | written delivery => exact deliver_store s delivery
  | settle ticket outcome =>
    simp only [enter, settleWrite]
    generalize List.map _ _ = ds
    cases ds <;> rfl

end Session

/-! ## Deeds -/

theorem Ask.resume_store (s : Session) (a : Ask) (answer : a.call.Reply) :
    (a.resume s answer).session.store = s.store := by
  cases a with
  | startTimer seconds timer =>
    simp only [resume]
    split <;> rfl
  | take r node item amount =>
    simp only [resume]
    split
    · rfl
    · exact s.report_store r _
  | count r node condition graph => exact s.follow_store r node _ graph
  | fillIn r graph => exact s.install_store r _
  | report r warning rest => exact s.report_store r rest
  | dismiss r npc rest => exact s.dismiss_store r rest
  | handOver r node link callback ledger => exact s.afterHandOver_store r node link answer
  | engage | cancelTimer | deliver | give | battle | spawn | remove | world | announce => rfl

theorem Frame.receive_store (s : Session) (frame : Frame) (result : Result) :
    (frame.receive s result).session.store = s.store := by
  cases frame with
  | draining => exact s.drain_store
  | driving r =>
    cases result with
    | stepped step => exact s.proceed_store r step
    | done => rfl
  | triggering r node graph => exact s.follow_store r node _ graph
  | following r node output graph => exact s.follow_store r node output graph
  | timing r wait seconds =>
    simp only [receive]
    split <;> rfl
  | resuming r job => exact s.resume_store r job
  | ending r phase => exact s.close_store r phase
  | announcing completion ledger => exact s.announce_store completion ledger
  | posting rest => cases rest <;> rfl
  | failing | stepping | linking | asked => rfl

theorem Frame.recover_store (s : Session) (frame : Frame) (f : Fault) :
    (frame.recover s f).session.store = s.store := by
  cases frame with
  | driving r => exact Session.stopIfActive_store { s with lastError := some f } r
  | triggering r node graph =>
    simp only [recover]
    split
    · exact s.report_store r _
    · rfl
  | linking r =>
    simp only [recover]
    split
    · exact Session.stopIfActive_store _ r
    · rfl
  | posting rest => cases rest <;> rfl
  | draining | failing | following | stepping | timing | resuming | ending | announcing | asked => rfl

/-- What the flags and the files are after an event: a visit writes, the host changes them,
and nothing else does. -/
def Event.store (e : Event) : FlagStore × FileTree :=
  match e.deed, e.before.control with
  | .change files flags, _ => (flags, files)
  | .move, .work (.visit _ node _) => node.write e.before.session.flags e.before.session.files
  | _, _ => e.before.session.store

/-- **What a deed writes.**  That a trigger is never begun on its own is seen in the shapes of
a turn. -/
theorem Turn.Does.store {t u : Turn} {d : Deed} (h : t.Does d u)
    (hd : ∀ r trigger, t.control ≠ .work (.dispatch r trigger)) :
    u.session.store = Event.store ⟨t, d, u⟩ := by
  cases h with
  | work task =>
    cases task with
    | entry e => exact Session.enter_store _ e
    | drive r job => exact Session.drive_store _ r job
    | visit r node graph => exact Session.visit_store _ r node graph
    | respond r node graph answer => exact Session.respond_store _ r node graph answer
    | resolve r node graph outcome => exact Session.resolve_store _ r node graph outcome
    | follow r node output graph => exact Session.follow_store _ r node output graph
    | dispatch r trigger => exact absurd rfl (hd r trigger)
    | report r warnings => exact Session.report_store _ r warnings
    | engage card => rfl
    | terminate r phase => exact Session.terminate_store _ r phase
  | @receive s frame stack result hf => exact frame.receive_store s result
  | @recover s frame stack fault hf => exact frame.recover_store s fault
  | @reply s stack a answer => exact a.resume_store s answer
  | beginAtRest | beginInside | leave | fail | change => rfl

end Questline

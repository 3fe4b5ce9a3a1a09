import Questline.Proofs.Resting

/-!
# Where a turn stands

A host that comes back from inside a call only where it is given a scene, and then only with an
answer, or where the end of a write is handed back to it, leaves little open.  At most one run is
driven at a time, right above the queue, and nothing is queued but that run itself.

This holds whatever graphs are started, whatever files hold, and in whatever calls the host fails.  Here is
what the moves of the session come to; the whole turn is put together from them afterwards.

* `Habits`: what a host may do inside its calls.
* `Move.Strides`, `Move.Closes`: moves on the way of a run, and at its end.
* `Task.begin_strides`, `Frame.receive_closes` and the like: each function of the session moves so.
-/

namespace Questline

open Json (Value)

/-! ## Habits -/

/-- What a host may do inside its calls: fail, come back with an answer where it is given a scene,
and deliver the ends of writes. -/
structure Habits where
  fails : Ask → Prop
  answers : Ask → Prop
  delivers : Prop

/-- Whether an entry delivers the end of a write. -/
def Entry.isDelivery : Entry → Bool
  | .written _ | .settle _ _ => true
  | _ => false

/-- What a host of these habits may do. -/
def Habits.allow (h : Habits) (t : Turn) : Deed → Prop
  | .begin e =>
    match t.control with
    | .ask (.deliver _) => e.isProper
    | .ask a => a.isShowing ∧ h.answers a ∧ e.isAnswer
    | _ => e.isProper ∧ (e.isDelivery → h.delivers)
  | .fail _ => ∀ a, t.control = .ask a → h.fails a
  | _ => True

theorem Entry.isProper_of_isAnswer {e : Entry} (h : e.isAnswer) : e.isProper := by
  cases e <;> first | rfl | cases h

theorem Entry.not_isDelivery_of_isAnswer {e : Entry} (h : e.isAnswer) : e.isDelivery = false := by
  cases e <;> first | rfl | cases h

/-- Whether a deed begins nothing from inside a call, fails in no call and delivers no write. -/
def Deed.isModest (t : Turn) : Deed → Bool
  | .begin e => t.control.isOver && e.isProper && !e.isDelivery
  | .fail _ => false
  | .move | .leave | .reply _ _ | .change _ _ => true

/-- Every host may be modest. -/
theorem Habits.allow_of_isModest (h : Habits) {t : Turn} {d : Deed} (modest : d.isModest t) :
    h.allow t d := by
  obtain ⟨s, stack, c⟩ := t
  cases d with
  | begin e =>
    simp only [Deed.isModest, Bool.and_eq_true, Bool.not_eq_true'] at modest
    cases c with
    | work | ask => cases modest.1.1
    | done | failed => exact ⟨modest.1.2, fun delivery => by rw [modest.2] at delivery; cases delivery⟩
  | fail => cases modest
  | move | leave | reply | change => trivial

/-! ## How the current run stands -/

/-- The node of a step lies in a graph, as far as the run can come back to it. -/
def Step.Lies (g : Graph) (step : Step) : Prop :=
  match step.action with
  | .next n => g.node? n.id = some n
  | .suspend _ => g.node? step.node.id = some step.node
  | .link _ | .finish | .terminal => True

/-- A job belongs to a graph. -/
def Job.Lies (g : Graph) : Job → Prop
  | .enter graph => graph = g ∧ g.IsWhole
  | .respond _ graph _ | .resolve _ graph _ => graph = g

namespace Session

/-- The node at which the run `r` waits for an answer lies in the current graph. -/
def Moored (s : Session) (r : RunId) : Prop :=
  ∀ w, (s.run r).wait = some w → w.kind ≠ .link →
    ∃ g n, s.graph = some g ∧ g.node? w.node = some n

/-- The run `r` is on its way through the graph `g`, and nothing is queued. -/
structure OnWay (s : Session) (r : RunId) (g : Graph) : Prop where
  has : s.Has r true [] (s.run r) (some g)
  phase : (s.run r).phase = .running
  wait : (s.run r).wait = none

/-- The run `r` is to go on, and nothing else is queued. -/
structure Awaits (s : Session) (r : RunId) (job : Job) (g : Graph) : Prop where
  has : s.Has r true [(r, job)] (s.run r) (some g)
  phase : (s.run r).phase = .running
  wait : (s.run r).wait = none
  lies : job.Lies g

/-- The run `r` is current, and nothing is queued. -/
structure Stays (s : Session) (r : RunId) (draining : Bool) : Prop where
  has : ∃ graph, s.Has r draining [] (s.run r) graph
  moored : s.Moored r

/-- The run `r` has come to rest while the queue is worked off, or it is to go on. -/
inductive Settles (s : Session) (r : RunId) : Prop
  | stays (h : s.Stays r true)
  | awaits {job : Job} {g : Graph} (h : s.Awaits r job g)

/-- Nothing is under way. -/
inductive IsQuiet (s : Session) : Prop
  | unbegun (runs : s.runs = []) (current : s.current = none) (draining : s.draining = false)
      (pending : s.pending = [])
  | begun (r : RunId) (h : s.Stays r false)

/-- The run `r` waits on `w`, or was answered from inside a call of the host. -/
inductive Opens (h : Habits) (s : Session) (r : RunId) (w : Wait) : Prop
  | held (stays : s.Stays r true) (phase : (s.run r).phase = .suspended)
      (wait : (s.run r).wait = some w) (untimed : w.timer = false)
  | answered {job : Job} {g : Graph} (answers : ∃ a, h.answers a) (awaits : s.Awaits r job g)

end Session

section

variable {h : Habits} {s s' s'' : Session} {q r : RunId} {draining : Bool}
  {pending : List (RunId × Job)} {run : Run} {graph : Option Graph} {g : Graph} {w : Wait} {job : Job}

namespace Session

theorem Has.self (has : s.Has r draining pending run graph) :
    s.Has r draining pending (s.run r) graph := by
  rw [has.run_eq]
  exact has

theorem Moored.of_wait (h : (s.run r).wait = none) : s.Moored r := by
  intro w hw
  rw [h] at hw
  cases hw

theorem Moored.of_link (h : ∀ w, (s.run r).wait = some w → w.kind = .link) : s.Moored r :=
  fun w hw hk => absurd (h w hw) hk

/-- A run stays moored as long as its wait and the graph stay. -/
theorem Moored.of_eq (h : s.Moored r) (graph : s'.graph = s.graph)
    (wait : ∀ w', (s'.run r).wait = some w' →
      ∃ w, (s.run r).wait = some w ∧ w.kind = w'.kind ∧ w.node = w'.node) : s'.Moored r := by
  intro w' hw' hk
  obtain ⟨w, hw, kind, node⟩ := wait w' hw'
  rw [graph, ← node]
  exact h w hw (kind ▸ hk)

theorem OnWay.moored (h : s.OnWay r g) : s.Moored r := .of_wait h.wait

theorem OnWay.isActive (h : s.OnWay r g) : (s.run r).isActive := by
  simp [Run.isActive, h.phase, Phase.isActive]

theorem OnWay.owns (h : s.OnWay r g) : s.owns r := h.has.owns h.isActive

theorem OnWay.stays (h : s.OnWay r g) : s.Stays r true := ⟨⟨_, h.has⟩, h.moored⟩

theorem Awaits.moored (h : s.Awaits r job g) : s.Moored r := .of_wait h.wait

theorem Awaits.isActive (h : s.Awaits r job g) : (s.run r).isActive := by
  simp [Run.isActive, h.phase, Phase.isActive]

/-- Whether the run waits or was answered, it is current and goes on. -/
theorem Opens.has (o : s.Opens h r w) :
    ∃ pending graph, s.Has r true pending (s.run r) graph ∧ (s.run r).isActive ∧ s.Moored r := by
  cases o with
  | held stays phase =>
    obtain ⟨graph, has⟩ := stays.has
    exact ⟨[], graph, has, by simp [Run.isActive, phase, Phase.isActive], stays.moored⟩
  | answered _ awaits => exact ⟨_, _, awaits.has, awaits.isActive, awaits.moored⟩

theorem Opens.settles (o : s.Opens h r w) : s.Settles r := by
  cases o with
  | held stays => exact .stays stays
  | answered _ awaits => exact .awaits awaits

end Session

end

/-! ## Moves on the way of a run -/

/-- Both sessions have the same queue and the same current run. -/
structure Session.SameQueue (s s' : Session) : Prop where
  pending : s'.pending = s.pending
  draining : s'.draining = s.draining
  current : s'.current = s.current
  length : s'.runs.length = s.runs.length

/-- The runs are in the same phases and wait for the same as well, and the graph is the same. -/
structure Session.Strides (s s' : Session) : Prop extends Session.SameQueue s s' where
  phase : ∀ r, (s'.run r).phase = (s.run r).phase
  wait : ∀ r, (s'.run r).wait = (s.run r).wait
  graph : s'.graph = s.graph

/-- A frame waits on the way of a run through the graph `g`. -/
def Frame.IsOnWay (g : Graph) : Frame → Prop
  | .stepping step => step.Lies g
  | .following _ _ _ graph | .triggering _ _ graph => graph = g
  | _ => False

/-- A call is made on the way of a run through the graph `g`. -/
def Ask.IsOnWay (g : Graph) : Ask → Prop
  | .give _ _ | .take _ _ _ _ | .spawn _ _ | .remove _ _ | .world _ | .report _ _ _ => True
  | .count _ _ _ graph => graph = g
  | _ => False

/-- A task is begun on the way of a run through the graph `g`. -/
def Task.IsOnWay (g : Graph) : Task → Prop
  | .visit _ node graph => graph = g ∧ g.node? node.id = some node
  | .respond _ _ graph _ | .resolve _ _ graph _ | .follow _ _ _ graph => graph = g
  | .dispatch _ _ | .report _ _ => True
  | _ => False

/-- A run is on its way through the graph `g`. -/
def Control.IsOnWay (g : Graph) : Control → Prop
  | .work task => task.IsOnWay g
  | .ask a => a.IsOnWay g
  | .done (.stepped step) => step.Lies g
  | .done .done | .failed _ => True

/-- A move on the way of a run through the graph `g`. -/
structure Move.Strides (g : Graph) (s : Session) (m : Move) : Prop where
  session : s.Strides m.session
  frames : ∀ f ∈ m.frames, f.IsOnWay g
  control : m.control.IsOnWay g

section

variable {s s' s'' : Session} {q r : RunId} {m : Move} {f : Frame} {g : Graph}

namespace Session.SameQueue

theorem refl (s : Session) : s.SameQueue s := ⟨rfl, rfl, rfl, rfl⟩

theorem trans (h : s.SameQueue s') (g : s'.SameQueue s'') : s.SameQueue s'' :=
  ⟨g.pending.trans h.pending, g.draining.trans h.draining, g.current.trans h.current,
    g.length.trans h.length⟩

theorem setRun (f : Run → Run) : s.SameQueue (s.setRun q f) := ⟨rfl, rfl, rfl, by simp⟩

end Session.SameQueue

namespace Session.Strides

theorem refl (s : Session) : s.Strides s := ⟨.refl s, fun _ => rfl, fun _ => rfl, rfl⟩

theorem trans (h : s.Strides s') (g : s'.Strides s'') : s.Strides s'' :=
  ⟨h.toSameQueue.trans g.toSameQueue, fun r => (g.phase r).trans (h.phase r),
    fun r => (g.wait r).trans (h.wait r), g.graph.trans h.graph⟩

theorem setRun {f : Run → Run} (phase : ∀ run, (f run).phase = run.phase)
    (wait : ∀ run, (f run).wait = run.wait) : s.Strides (s.setRun q f) := by
  refine ⟨.setRun f, fun r => ?_, fun r => ?_, rfl⟩
  all_goals
    rw [run_setRun]
    split
    · first | exact phase _ | exact wait _
    · rfl

theorem has {draining : Bool} {pending : List (RunId × Job)} {graph : Option Graph}
    (h : s.Strides s') (has : s.Has r draining pending (s.run r) graph) :
    s'.Has r draining pending (s'.run r) graph where
  current := h.current.trans has.current
  lt := h.length ▸ has.lt
  others q hq hr := by
    rw [Run.isActive, h.phase]
    exact has.others q (h.length ▸ hq) hr
  draining_eq := h.draining.trans has.draining_eq
  pending_eq := h.pending.trans has.pending_eq
  run_eq := rfl
  graph_eq := h.graph.trans has.graph_eq

theorem onWay (h : s.Strides s') (way : s.OnWay r g) : s'.OnWay r g :=
  ⟨h.has way.has, (h.phase r).trans way.phase, (h.wait r).trans way.wait⟩

end Session.Strides

namespace Move.Strides

theorem of_nil (h : s.Strides m.session) (frames : m.frames = []) (control : m.control.IsOnWay g) :
    m.Strides g s := ⟨h, by simp [frames], control⟩

theorem finished (h : s.Strides s') : (Move.finished s').Strides g s := .of_nil h rfl trivial

theorem failure (h : s.Strides s') (fault : Fault) : (Move.failure s' fault).Strides g s :=
  .of_nil h rfl trivial

theorem stepped (h : s.Strides s') {node : Node} {action : Action} (lies : Step.Lies g ⟨node, action⟩) :
    (Move.stepped s' node action).Strides g s := .of_nil h rfl lies

theorem ask (h : s.Strides s') {a : Ask} (ha : a.IsOnWay g) : (Move.ask s' a).Strides g s :=
  .of_nil h rfl ha

theorem under (h : m.Strides g s) (hf : f.IsOnWay g) : (m.under f).Strides g s where
  session := h.session
  frames f' hf' := by
    rcases List.mem_append.1 hf' with hf' | hf'
    · exact h.frames f' hf'
    · exact List.mem_singleton.1 hf' ▸ hf
  control := h.control

theorem after (h : m.Strides g s') (hs : s.Strides s') : m.Strides g s :=
  ⟨hs.trans h.session, h.frames, h.control⟩

end Move.Strides

end

namespace Session

variable (s : Session) {r : RunId} {g : Graph}

theorem follow_strides (node : Node) (output : Int) : (s.follow r node output g).Strides g s := by
  have advancing : s.Strides (s.setRun r fun run => { run with activity := .advancing }) :=
    .setRun (fun _ => rfl) fun _ => rfl
  unfold follow
  dsimp only
  split
  case h_1 next hn => exact .stepped advancing (Graph.node?_of_follow? hn)
  case h_2 => exact .stepped advancing trivial

theorem report_strides (ws : List Warning) : (s.report r ws).Strides g s := by
  cases ws with
  | nil => exact .finished (.refl s)
  | cons w ws => exact .of_nil (.setRun (fun _ => rfl) fun _ => rfl) rfl trivial

theorem dispatch_strides (t : Trigger) : (s.dispatch r t).Strides g s := by
  have flagged (files : FileTree) (flags : FlagStore) : s.Strides { s with files, flags } :=
    ⟨⟨rfl, rfl, rfl, rfl⟩, fun _ => rfl, fun _ => rfl, rfl⟩
  unfold dispatch perform
  split
  · split
    · exact .ask (.refl s) trivial
    · split
      · exact .finished (flagged _ _)
      · exact .failure (flagged _ _) _
    · exact .ask (.refl s) trivial
    · exact .ask (.refl s) trivial
  · exact .failure (.refl s) _

theorem applyItem_strides (node : String) (i : ItemChange) : (s.applyItem r node i).Strides g s := by
  unfold applyItem
  split <;> exact .ask (.refl s) trivial

theorem check_strides (node : Node) (c : Condition) : (s.check r node c g).Strides g s := by
  unfold check
  split
  · exact follow_strides s _ _
  · exact .ask (.refl s) rfl
  · exact .ask (.refl s) rfl

theorem visit_strides {node : Node} (inGraph : g.node? node.id = some node) :
    (s.visit r node g).Strides g s := by
  have entered : s.Strides (s.setRun r fun run =>
      { run.count node.kind.word with node := some node.id, activity := .running }) :=
    .setRun (fun _ => rfl) fun _ => rfl
  unfold visit
  cases node.body with
  | dialogue d => exact ((report_strides _ _).under (by exact inGraph)).after entered
  | choice c => exact ((report_strides _ _).under (by exact inGraph)).after entered
  | item i => exact ((applyItem_strides _ _ i).under (by exact rfl)).after entered
  | trigger t => exact ((dispatch_strides _ t).under (by exact rfl)).after entered
  | condition c => exact (check_strides _ node c).after entered
  | image | combat => exact .stepped entered inGraph
  | link | ending => exact .stepped entered trivial

theorem respond_strides (node : Node) (answer : Value) : (s.respond r node g answer).Strides g s := by
  unfold respond
  split
  · split
    · have put (pick : Pick) : s.Strides (s.setRun r fun run =>
          { run with ledger := run.ledger.put node.id pick }) := .setRun (fun _ => rfl) fun _ => rfl
      dsimp only
      split
      · exact (follow_strides _ _ _).after (put _)
      · exact .failure (put _) _
    · exact .failure (.refl s) _
  · exact follow_strides s _ _

theorem resolve_strides (node : Node) (outcome : Value) : (s.resolve r node g outcome).Strides g s := by
  unfold resolve
  split
  · exact follow_strides s _ _
  · exact follow_strides s _ _
  · exact .failure (.refl s) _

end Session

section

variable {g : Graph}

theorem Frame.IsOnWay.not_asked {frame : Frame} (h : frame.IsOnWay g) (a : Ask) : frame ≠ .asked a := by
  rintro rfl
  cases h

theorem Task.begin_strides (s : Session) {task : Task} (h : task.IsOnWay g) :
    (task.begin s).Strides g s := by
  cases task with
  | visit r node graph =>
    obtain ⟨rfl, inGraph⟩ := h
    exact s.visit_strides inGraph
  | respond r node graph answer => cases h; exact s.respond_strides node answer
  | resolve r node graph outcome => cases h; exact s.resolve_strides node outcome
  | follow r node output graph => cases h; exact s.follow_strides node output
  | dispatch r t => exact s.dispatch_strides t
  | report r ws => exact s.report_strides ws
  | entry | drive | engage | terminate => cases h

theorem Ask.resume_strides (s : Session) {a : Ask} (h : a.IsOnWay g) (answer : a.call.Reply) :
    (a.resume s answer).Strides g s := by
  cases a with
  | take r node item amount =>
    simp only [resume]
    split
    · exact .finished (.refl s)
    · exact s.report_strides _
  | count r node c graph => cases h; exact s.follow_strides _ _
  | spawn r request => exact .finished (.setRun (fun _ => rfl) fun _ => rfl)
  | remove r npc => exact .finished (.setRun (fun _ => rfl) fun _ => rfl)
  | report r w rest => exact s.report_strides rest
  | give | world => exact .finished (.refl s)
  | engage | startTimer | cancelTimer | deliver | battle | fillIn | dismiss | handOver | announce =>
    cases h

theorem Frame.receive_strides (s : Session) {frame : Frame} (h : frame.IsOnWay g) (result : Result) :
    (frame.receive s result).Strides g s := by
  cases frame with
  | stepping step => exact .stepped (.refl s) h
  | following r node output graph => cases h; exact s.follow_strides _ _
  | triggering r node graph => cases h; exact s.follow_strides _ _
  | draining | driving | failing | timing | resuming | ending | announcing | linking | posting | asked =>
    cases h

theorem Frame.recover_strides (s : Session) {frame : Frame} (h : frame.IsOnWay g) (fault : Fault) :
    (frame.recover s fault).Strides g s := by
  cases frame with
  | triggering r node graph =>
    simp only [recover]
    split
    · exact (s.report_strides _).under h
    · exact .failure (.refl s) _
  | stepping | following => exact .failure (.refl s) fault
  | draining | driving | failing | timing | resuming | ending | announcing | linking | posting | asked =>
    cases h

end

/-! ## Moves at the end of a run -/

/-- A frame waits at the end of the run `r`. -/
def Frame.IsClosing (r : RunId) : Frame → Prop
  | .announcing _ _ => True
  | .ending q _ => q = r
  | _ => False

/-- A call is made at the end of the run `r`. -/
def Ask.IsClosing (r : RunId) : Ask → Prop
  | .dismiss q _ _ => q = r
  | .announce _ _ | .cancelTimer _ => True
  | _ => False

/-- The run `r` comes to its end. -/
def Control.IsClosing (r : RunId) : Control → Prop
  | .work (.terminate q _) => q = r
  | .ask a => a.IsClosing r
  | .done .done => True
  | _ => False

/-- The run `r` comes to its end, and nothing else changes. -/
structure Session.Closes (r : RunId) (s s' : Session) : Prop extends Session.SameQueue s s' where
  others : ∀ q, q ≠ r → s'.run q = s.run q
  moored : s.Moored r → s'.Moored r

/-- A move at the end of the run `r`. -/
structure Move.Closes (r : RunId) (s : Session) (m : Move) : Prop where
  session : s.Closes r m.session
  frames : ∀ f ∈ m.frames, f.IsClosing r
  control : m.control.IsClosing r

section

variable {s s' s'' : Session} {q r : RunId} {m : Move} {f : Frame}

namespace Session.Closes

theorem refl (s : Session) : s.Closes r s := ⟨.refl s, fun _ _ => rfl, id⟩

theorem trans (h : s.Closes r s') (g : s'.Closes r s'') : s.Closes r s'' :=
  ⟨h.toSameQueue.trans g.toSameQueue, fun q hq => (g.others q hq).trans (h.others q hq),
    fun moored => g.moored (h.moored moored)⟩

theorem setRun {f : Run → Run} (wait : ∀ run w', (f run).wait = some w' →
    ∃ w, run.wait = some w ∧ w.kind = w'.kind ∧ w.node = w'.node) : s.Closes r (s.setRun r f) where
  toSameQueue := .setRun f
  others q hq := run_setRun_of_ne hq
  moored h := by
    refine h.of_eq rfl fun w' hw' => ?_
    by_cases hr : r < s.runs.length
    · rw [run_setRun_self hr] at hw'
      exact wait _ w' hw'
    · rw [run_of_length_le (by simpa using hr)] at hw'
      cases hw'

theorem has {draining : Bool} {pending : List (RunId × Job)} {graph : Option Graph}
    (h : s.Closes r s') (has : s.Has r draining pending (s.run r) graph) :
    s'.Has r draining pending (s'.run r) s'.graph where
  current := h.current.trans has.current
  lt := h.length ▸ has.lt
  others q hq hr := by
    rw [h.others q hr]
    exact has.others q (h.length ▸ hq) hr
  draining_eq := h.draining.trans has.draining_eq
  pending_eq := h.pending.trans has.pending_eq
  run_eq := rfl
  graph_eq := rfl

end Session.Closes

namespace Move.Closes

theorem of_nil (h : s.Closes r m.session) (frames : m.frames = []) (control : m.control.IsClosing r) :
    m.Closes r s := ⟨h, by simp [frames], control⟩

theorem finished (h : s.Closes r s') : (Move.finished s').Closes r s := .of_nil h rfl trivial

theorem ask (h : s.Closes r s') {a : Ask} (ha : a.IsClosing r) : (Move.ask s' a).Closes r s :=
  .of_nil h rfl ha

theorem under (h : m.Closes r s) (hf : f.IsClosing r) : (m.under f).Closes r s where
  session := h.session
  frames g hg := by
    rcases List.mem_append.1 hg with hg | hg
    · exact h.frames g hg
    · exact List.mem_singleton.1 hg ▸ hf
  control := h.control

theorem after (h : m.Closes r s') (hs : s.Closes r s') : m.Closes r s :=
  ⟨hs.trans h.session, h.frames, h.control⟩

end Move.Closes

end

namespace Session

variable (s : Session) {r : RunId}

theorem announce_closes (completion : Option Callback) (ledger : Ledger) :
    (s.announce completion ledger).Closes r s := by
  cases completion with
  | none => exact .finished (.refl s)
  | some callback => exact .ask (.refl s) trivial

theorem dismiss_closes (npcs : List String) : (s.dismiss r npcs).Closes r s := by
  cases npcs with
  | nil => exact .finished (.setRun fun _ w' hw' => ⟨w', hw', rfl, rfl⟩)
  | cons npc rest => exact .ask (.refl s) rfl

theorem ended_closes (phase : Phase) : s.Closes r (s.ended r phase) := by
  have past : s.Closes r (s.setRun r (Run.ended phase)) := .setRun fun _ w' hw' => by cases hw'
  exact past.trans ⟨⟨rfl, rfl, rfl, rfl⟩, fun _ _ => rfl, fun _ => .of_wait (s.free_ended r phase)⟩

theorem close_closes (phase : Phase) : (s.close r phase).Closes r s := by
  rw [close_eq]
  split
  · exact ((dismiss_closes _ _).under (by trivial)).after (ended_closes s phase)
  · exact (announce_closes _ _ _).after (ended_closes s phase)

theorem terminate_closes (phase : Phase) : (s.terminate r phase).Closes r s := by
  have untimed (w : WaitId) : s.Closes r (s.setRun r (·.setTimer w false)) := by
    refine .setRun fun run w' hw' => ?_
    obtain ⟨w, hw, rfl⟩ := Option.map_eq_some_iff.1 hw'
    refine ⟨w, hw, ?_⟩
    split <;> exact ⟨rfl, rfl⟩
  rcases s.terminate_cases r phase with ⟨w, -, -, h⟩ | ⟨-, h⟩
  · rw [h]
    exact Move.Closes.under (.ask (untimed w.id) (by trivial)) (by exact rfl)
  · rw [h]
    exact close_closes s phase

theorem stopIfActive_closes : (s.stopIfActive r).Closes r s := by
  unfold stopIfActive
  split
  · exact .of_nil (.refl s) rfl rfl
  · exact .finished (.refl s)

end Session

section

variable {r : RunId}

theorem Frame.IsClosing.not_asked {frame : Frame} (h : frame.IsClosing r) (a : Ask) :
    frame ≠ .asked a := by
  rintro rfl
  cases h

theorem Ask.resume_closes (s : Session) {a : Ask} (h : a.IsClosing r) (answer : a.call.Reply) :
    (a.resume s answer).Closes r s := by
  cases a with
  | dismiss q npc rest => cases h; exact s.dismiss_closes rest
  | announce | cancelTimer => exact .finished (.refl s)
  | engage | startTimer | deliver | give | take | count | battle | spawn | remove | world | fillIn
    | report | handOver => cases h

theorem Frame.receive_closes (s : Session) {frame : Frame} (h : frame.IsClosing r) (result : Result) :
    (frame.receive s result).Closes r s := by
  cases frame with
  | announcing completion ledger => exact s.announce_closes completion ledger
  | ending q phase => cases h; exact s.close_closes phase
  | draining | driving | failing | triggering | following | stepping | timing | resuming | linking
    | posting | asked => cases h

theorem Frame.recover_of_isClosing (s : Session) {frame : Frame} (h : frame.IsClosing r) (fault : Fault) :
    frame.recover s fault = .failure s fault := by
  cases frame with
  | announcing | ending => rfl
  | draining | driving | failing | triggering | following | stepping | timing | resuming | linking
    | posting | asked => cases h

end

end Questline

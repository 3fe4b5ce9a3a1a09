import Questline.Proofs.Concern

/-!
# The outline of a session

Most of what a move changes decides nothing about the course of the runs: where a run
stands, its counters and warnings, its figures, and whether a timer runs.  The outline of a
session leaves all that out.  What remains is altered in few ways: a run is opened, takes an
answer, hands its answers over, is suspended, released, resumed, taken into another graph
or closed, and its jobs are queued and taken from the queue.

Every move serves one run, alters the outline in one of these ways, and leaves all other
runs as they are.  This is proved here once for every function of a session; what holds of
every history is then derived from the alterations alone.

* `Session.outline`: what the course of the runs depends on.
* `Alteration.apply`: the ways in which an outline is altered.
* `Move.Serves`: what a move on behalf of a run does to the session, and what it puts on the
  stack.
* `Turn.Does.serves`: every deed is one of the host, which alters nothing, or a move that
  serves a run.
-/

namespace Questline

open Json (Value)

/-! ## Outlines -/

/-- What the course of a run depends on.  Whether a timer runs for its wait is left out. -/
@[ext]
structure RunOutline where
  script : String
  phase : Phase
  ledger : Ledger
  completion : Option Callback
  waiting : Option Wait

/-- The outline of a run.  It waits only while it is suspended. -/
def Run.outline (run : Run) : RunOutline where
  script := run.script
  phase := run.phase
  ledger := run.ledger
  completion := run.completion
  waiting := if run.phase = .suspended then run.wait.map fun w => { w with timer := false } else none

/-- What the course of the runs of a session depends on. -/
@[ext]
structure Outline where
  run : RunId → RunOutline
  length : Nat
  current : Option RunId
  graph : Option Graph
  pending : List (RunId × Job)
  draining : Bool
  nextWait : WaitId

/-- The outline of a session. -/
def Session.outline (s : Session) : Outline where
  run r := (s.run r).outline
  length := s.runs.length
  current := s.current
  graph := s.graph
  pending := s.pending
  draining := s.draining
  nextWait := s.nextWait

namespace Run

@[simp] theorem outline_setTimer (run : Run) (w : WaitId) (timer : Bool) :
    (run.setTimer w timer).outline = run.outline := by
  have masked : (fun v : Wait => ({ v with timer := false } : Wait)) ∘
      (fun v => if v.id = w then { v with timer } else v) = fun v => { v with timer := false } := by
    funext v
    by_cases h : v.id = w <;> simp [h]
  simp only [outline, setTimer, Option.map_map, masked]

/-- What a run waits on can be read off its outline. -/
theorem isWaitingOn_eq (run : Run) (w : WaitId) :
    run.isWaitingOn w = run.outline.waiting.any (·.id == w) := by
  by_cases h : run.phase = .suspended
  · cases hw : run.wait <;> simp [isWaitingOn, outline, h, hw]
  · simp [isWaitingOn, outline, h]

theorem waits_iff {s : Session} {r : RunId} : s.Waits r ↔ (s.outline.run r).waiting.isSome := by
  simp only [Session.Waits, isWaitingOn_eq, Session.outline]
  cases (s.run r).outline.waiting <;> simp

end Run

namespace Outline

/-- Change the outline of a run, if there is such a run. -/
def change (o : Outline) (q : RunId) (f : RunOutline → RunOutline) : Outline :=
  { o with run := fun r => if q = r ∧ r < o.length then f (o.run r) else o.run r }

/-- Queue a job.  The queue is worked off from then on, if it is not already. -/
def queue (o : Outline) (q : RunId) (job : Job) : Outline :=
  { o with pending := o.pending ++ [(q, job)], draining := true }

variable {o : Outline} {q r : RunId} {f g : RunOutline → RunOutline}

theorem run_change_self (h : q < o.length) : (o.change q f).run q = f (o.run q) := by
  simp [change, h]

theorem change_id (o : Outline) (q : RunId) : o.change q id = o := by
  simp [change]

theorem change_change (o : Outline) (q : RunId) :
    (o.change q f).change q g = o.change q fun run => g (f run) := by
  simp only [change]
  congr 1
  funext r
  by_cases h : q = r ∧ r < o.length <;> simp [h]

end Outline

theorem Session.outline_setRun (s : Session) (q : RunId) {f : Run → Run}
    {g : RunOutline → RunOutline} (h : ∀ run, (f run).outline = g run.outline) :
    (s.setRun q f).outline = s.outline.change q g := by
  have hrun : ∀ r, ((s.setRun q f).run r).outline = (s.outline.change q g).run r := by
    intro r
    show _ = if q = r ∧ r < s.runs.length then g (s.run r).outline else (s.run r).outline
    rw [run_setRun]
    split <;> simp [h]
  exact Outline.ext (funext hrun) length_runs_setRun rfl rfl rfl rfl rfl

/-- The session `s'` differs from `s` in nothing that the course of the runs depends on, and
in no run but `q`. -/
structure Session.Retouches (q : RunId) (s s' : Session) : Prop where
  outline : s'.outline = s.outline
  others : ∀ r, r ≠ q → s'.run r = s.run r

namespace Session.Retouches

variable {q : RunId} {s s' : Session}

theorem refl (s : Session) : s.Retouches q s := ⟨rfl, fun _ _ => rfl⟩

theorem setRun {f : Run → Run} (h : ∀ run, (f run).outline = run.outline) :
    s.Retouches q (s.setRun q f) where
  outline := by rw [outline_setRun s q (g := id) h, Outline.change_id]
  others _ hr := run_setRun_of_ne hr

/-- Changes that concern no run. -/
theorem of_eq (runs : s'.runs = s.runs) (current : s'.current = s.current)
    (graph : s'.graph = s.graph) (pending : s'.pending = s.pending)
    (draining : s'.draining = s.draining) (waits : s'.nextWait = s.nextWait) :
    s.Retouches q s' where
  outline := by simp only [Session.outline, run, runs, current, graph, pending, draining, waits]
  others _ _ := by simp only [run, runs]

end Session.Retouches

/-! ## Alterations -/

/-- What a move does to the course of the run it serves, and to the queue. -/
inductive Alteration where
  | nothing
  | opened (graph : Graph) (completion : Option Callback)
  /-- The run takes an answer of the player into its ledger. -/
  | answered (node : String) (pick : Pick)
  /-- The run hands its answers over before it takes a link. -/
  | handed
  | suspended (kind : WaitKind) (node : String)
  /-- The run no longer waits for a write, but does not go on yet. -/
  | released
  | resumed (job : Job)
  | installed (graph : Graph)
  | closed (phase : Phase)
  /-- The answers of a run that was closed before are announced. -/
  | announced (completion : Option Callback) (ledger : Ledger)
  /-- The first job is taken from the queue. -/
  | taken
  /-- All jobs are dropped from the queue. -/
  | dropped
  /-- The queue is empty and no longer worked off. -/
  | rested

/-- The outline after an alteration on behalf of the run `q`. -/
def Alteration.apply (q : RunId) (o : Outline) : Alteration → Outline
  | .nothing | .announced _ _ => o
  | .opened graph completion =>
    { o with
        run := fun r =>
          if r = o.length then
            { script := graph.id, phase := .running, ledger := [], completion, waiting := none }
          else o.run r
        length := o.length + 1
        current := some o.length
        graph := some graph : Outline }.queue q (.enter graph)
  | .answered node pick => o.change q fun run => { run with ledger := run.ledger.put node pick }
  | .handed => o.change q fun run => { run with completion := none }
  | .suspended kind node =>
    { o.change q fun run =>
        { run with phase := .suspended, waiting := some { id := o.nextWait, kind, node } } with
      nextWait := o.nextWait + 1 }
  | .released => o.change q fun run => { run with waiting := none }
  | .resumed job =>
    (o.change q fun run => { run with phase := .running, waiting := none }).queue q job
  | .installed graph =>
    ({ o.change q fun run =>
        { run with script := graph.id, phase := .running, waiting := none } with
      graph := some graph } : Outline).queue q (.enter graph)
  | .closed phase =>
    { o.change q fun run =>
        { run with phase, ledger := [], completion := none, waiting := none } with
      graph := if o.current = some q then none else o.graph }
  | .taken => { o with pending := o.pending.tail }
  | .dropped => { o with pending := [], draining := false }
  | .rested => { o with draining := false }

namespace Alteration

variable {α : Alteration} {q : RunId} {o : Outline}

theorem length_apply : o.length ≤ (α.apply q o).length := by
  cases α <;> simp [apply, Outline.change, Outline.queue]

/-- Only a run that is opened is new. -/
theorem length_apply_of_not_opened (h : ∀ graph completion, α ≠ .opened graph completion) :
    (α.apply q o).length = o.length := by
  cases α with
  | opened graph completion => exact absurd rfl (h graph completion)
  | _ => rfl

end Alteration

/-- The answers of a run with the callback that is still to have them. -/
def RunOutline.dues (run : RunOutline) : List (Callback × Ledger) :=
  run.completion.toList.map (·, run.ledger)

/-- The answers that leave the run, or the stack, in an alteration. -/
def Alteration.dues (run : RunOutline) : Alteration → List (Callback × Ledger)
  | .handed | .closed _ => run.dues
  | .announced completion ledger => completion.toList.map (·, ledger)
  | _ => []

/-- Whether an alteration is made where the queue is worked off. -/
def Alteration.isDraining : Alteration → Bool
  | .taken | .dropped | .rested => true
  | _ => false

/-- The alterations with which a run comes to rest after a step, or goes on through a link. -/
def Alteration.Settles (s : Session) : Alteration → Prop
  | .nothing | .handed | .suspended _ _ => True
  | .closed phase => phase.isActive = false
  | .installed graph => ∃ id, Library.load s.files s.library id = .ok graph
  | _ => False

/-! ## What is mentioned -/

/-- The run that the answer to a call is for. -/
def Ask.run? : Ask → Option RunId
  | .startTimer _ timer => some timer.run
  | .take r _ _ _ | .count r _ _ _ | .spawn r _ | .remove r _ | .fillIn r _ | .report r _ _
  | .dismiss r _ _ | .handOver r _ _ _ _ => some r
  | .engage _ | .cancelTimer _ | .deliver _ | .give _ _ | .battle _ _ | .world _
  | .announce _ _ => none

/-- The run that a frame waits for. -/
def Frame.run? : Frame → Option RunId
  | .driving r | .triggering r _ _ | .following r _ _ _ | .timing r _ _ | .resuming r _
  | .ending r _ | .linking r => some r
  | .asked a => a.run?
  | .draining | .failing _ | .stepping _ | .announcing _ _ | .posting _ => none

/-- The run that an entry is for, if there is one: the current run, or one that waits for what
the entry brings. -/
def Entry.run? (s : Session) : Entry → Option RunId
  | .start _ _ | .startGraph _ _ | .advance _ | .stop => s.current
  | .battleOver battle _ => if s.isWaiting battle.run battle.wait then some battle.run else none
  | .timeUp timer => if s.isWaiting timer.run timer.wait then some timer.run else none
  | .written d =>
    if (s.run d.handle.run).isWaitingOn d.handle.wait then some d.handle.run else none
  | .settle _ _ => none

/-- The run that a task is work of. -/
def Task.run? (s : Session) : Task → Option RunId
  | .entry e => e.run? s
  | .drive r _ | .visit r _ _ | .respond r _ _ _ | .resolve r _ _ _ | .follow r _ _ _
  | .dispatch r _ | .report r _ | .terminate r _ => some r
  | .engage _ => none

/-- The run that what comes next is work of. -/
def Control.run? (s : Session) : Control → Option RunId
  | .work task => task.run? s
  | .ask a => a.run?
  | .done _ | .failed _ => none

/-- The run whose turn it is. -/
def Turn.worker? (t : Turn) : Option RunId :=
  match t.control, t.stack with
  | .work task, _ => task.run? t.session
  | .ask a, _ => a.run?
  | .done _, f :: _ | .failed _, f :: _ => f.run?
  | .done _, [] | .failed _, [] => none

/-- The answers that a frame still has to announce. -/
def Frame.dues : Frame → List (Callback × Ledger)
  | .announcing completion ledger => completion.toList.map (·, ledger)
  | _ => []

/-- The answers that the host is called with. -/
def Control.dues : Control → List (Callback × Ledger)
  | .ask (.handOver _ _ _ callback ledger) | .ask (.announce callback ledger) =>
    [(callback, ledger)]
  | _ => []

/-- The answers that a move calls the host with, and those that it leaves to be announced. -/
def Move.dues (m : Move) : List (Callback × Ledger) :=
  m.control.dues ++ m.frames.flatMap Frame.dues

/-- Whether a frame waits until figures have left. -/
def Frame.isAnnouncing : Frame → Bool
  | .announcing _ _ => true
  | _ => false

/-- Whether a frame announces no answers, starts no timer and is no call. -/
def Frame.isPlain : Frame → Bool
  | .announcing _ _ | .timing _ _ _ | .asked _ => false
  | _ => true

/-- Whether figures leave, or have left. -/
def Control.isDismissing : Control → Bool
  | .ask (.dismiss _ _ _) | .done _ => true
  | _ => false

/-- Whether a frame that ends a run ends it for good, and one that resumes a run has an answer
for it. -/
def Frame.endsWell : Frame → Bool
  | .ending _ phase => !phase.isActive
  | .resuming _ job => job.isAnswer
  | _ => true

/-- Whether what comes next ends a run for good, if it ends one. -/
def Control.endsWell : Control → Bool
  | .work (.terminate _ phase) => !phase.isActive
  | _ => true

/-! ## Riders -/

/-- What goes on with a run on its way to the next node. -/
inductive Rider where
  | nobody
  | job (run : RunId) (job : Job)
  | atNode (run : RunId) (node : Node) (graph : Graph)
  | stepped (step : Step)
  | linking (run : RunId)
  deriving DecidableEq

/-- What goes on with the answer to a call: from a node whose items are counted, or through a
link. -/
def Ask.rider : Ask → Rider
  | .count r node _ graph => .atNode r node graph
  | .handOver r _ _ _ _ | .fillIn r _ => .linking r
  | _ => .nobody

/-- What goes on from a frame. -/
def Frame.rider : Frame → Rider
  | .stepping step => .stepped step
  | .following r node _ graph | .triggering r node graph => .atNode r node graph
  | .asked a => a.rider
  | _ => .nobody

/-- What goes on with what comes next. -/
def Control.rider : Control → Rider
  | .work (.drive r job) => .job r job
  | .work (.visit r node graph) | .work (.respond r node graph _) | .work (.resolve r node graph _)
  | .work (.follow r node _ graph) => .atNode r node graph
  | .ask a => a.rider
  | .done (.stepped step) => .stepped step
  | _ => .nobody

/-- Nothing that a move puts on the stack goes on with a run, nor does what comes next. -/
structure Move.IsStill (m : Move) : Prop where
  control : m.control.rider = .nobody
  frames : ∀ f ∈ m.frames, f.rider = .nobody

theorem Move.IsStill.under {m : Move} (h : m.IsStill) {f : Frame} (hf : f.rider = .nobody) :
    (m.under f).IsStill where
  control := h.control
  frames g hg := by
    rcases List.mem_append.1 hg with hg | hg
    · exact h.frames g hg
    · obtain rfl := List.mem_singleton.1 hg
      exact hf

/-- Whether a call neither announces answers nor begins a battle. -/
def Ask.isPlain : Ask → Bool
  | .handOver _ _ _ _ _ | .announce _ _ | .battle _ _ => false
  | _ => true

/-! ## Moves that serve a run -/

/-- A move on behalf of the run `q`, from the session `s`, that alters its outline by `α`.  It
goes on with a run, or puts something on the stack that does, only if `L` holds. -/
structure Move.Serves (L : Prop) (q : RunId) (α : Alteration) (s : Session) (m : Move) : Prop where
  outline : m.session.outline = α.apply q s.outline
  others : ∀ r, r ≠ q → m.session.run r = s.run r
  frames : ∀ f ∈ m.frames, ∀ r, f.run? = some r → r = q
  control : ∀ r, m.control.run? m.session = some r → r = q
  dues : m.dues = α.dues (s.outline.run q)
  /-- Answers are announced by the frame on top, after the figures have left. -/
  top : ∀ f fs, m.frames = f :: fs → f.isAnnouncing → m.control.isDismissing
  rest : ∀ f ∈ m.frames.tail, f.isAnnouncing = false
  announces : ∀ f ∈ m.frames, f.isAnnouncing → α = .closed .stopped
  ends : (∀ f ∈ m.frames, f.endsWell) ∧ m.control.endsWell
  drains : m.session.draining → .draining ∈ m.frames ∨ s.draining ∧ α.isDraining = false
  /-- A battle is begun where the run waits for it. -/
  battles : ∀ opponent b, m.control = .ask (.battle opponent b) → ∃ node, α = .suspended .combat node
  /-- A timer is to be started where the run waits for an image. -/
  timing : ∀ r w seconds, .timing r w seconds ∈ m.frames →
    r = q ∧ w = s.nextWait ∧ ∃ node, α = .suspended .image node
  calls : ∀ a, .asked a ∉ m.frames
  still : m.IsStill ∨ L

theorem only_self {q : RunId} : ∀ r, some q = some r → r = q := by simp [eq_comm]

namespace Move.Serves

variable {L : Prop} {q : RunId} {α : Alteration} {s s' : Session} {m : Move}

/-- Without frames it is enough to look at the session and at what comes next. -/
theorem of_frames_nil (outline : m.session.outline = α.apply q s.outline)
    (others : ∀ r, r ≠ q → m.session.run r = s.run r) (frames : m.frames = [])
    (control : ∀ r, m.control.run? m.session = some r → r = q)
    (dues : m.control.dues = α.dues (s.outline.run q))
    (drains : m.session.draining → s.draining ∧ α.isDraining = false)
    (battles : ∀ opponent b, m.control = .ask (.battle opponent b) →
      ∃ node, α = .suspended .combat node)
    (ends : m.control.endsWell) (still : m.control.rider = .nobody ∨ L) : m.Serves L q α s where
  outline := outline
  others := others
  frames := by simp [frames]
  control := control
  dues := by simp [Move.dues, frames, dues]
  top := by simp [frames]
  rest := by simp [frames]
  announces := by simp [frames]
  ends := ⟨by simp [frames], ends⟩
  drains h := .inr (drains h)
  battles := battles
  timing := by simp [frames]
  calls := by simp [frames]
  still := still.imp_left fun h => ⟨h, by simp [frames]⟩

theorem of_retouches (h : s.Retouches q m.session) (frames : m.frames = [])
    (control : ∀ r, m.control.run? m.session = some r → r = q) (dues : m.control.dues = [])
    (battles : ∀ opponent b, m.control ≠ .ask (.battle opponent b))
    (ends : m.control.endsWell) (still : m.control.rider = .nobody ∨ L) :
    m.Serves L q .nothing s :=
  .of_frames_nil h.outline h.others frames control dues
    (fun hd => ⟨by rw [← hd]; exact (congrArg Outline.draining h.outline).symm, rfl⟩)
    (fun opponent b hc => absurd hc (battles opponent b)) ends still

theorem finished (h : s.Retouches q s') : (Move.finished s').Serves L q .nothing s :=
  .of_retouches h rfl (fun _ h => by cases h) rfl nofun rfl (.inl rfl)

theorem failure (h : s.Retouches q s') (f : Fault) : (Move.failure s' f).Serves L q .nothing s :=
  .of_retouches h rfl (fun _ h => by cases h) rfl nofun rfl (.inl rfl)

theorem stepped (h : s.Retouches q s') (node : Node) (action : Action) :
    (Move.stepped s' node action).Serves True q .nothing s :=
  .of_retouches h rfl (fun _ h => by cases h) rfl nofun rfl (.inr trivial)

theorem work (h : s.Retouches q s') {task : Task}
    (ht : ∀ r, task.run? s' = some r → r = q) (ends : (Control.work task).endsWell)
    (still : (Control.work task).rider = .nobody ∨ L) :
    (Move.work s' task).Serves L q .nothing s :=
  .of_retouches h rfl ht (by cases task <;> rfl) nofun ends still

theorem ask (h : s.Retouches q s') {a : Ask} (ha : ∀ r, a.run? = some r → r = q)
    (plain : a.isPlain) (still : a.rider = .nobody ∨ L) : (Move.ask s' a).Serves L q .nothing s := by
  refine .of_retouches h rfl ha ?_ ?_ rfl still
  · cases a <;> first | rfl | cases plain
  · rintro opponent b hc
    cases hc
    cases plain

/-- A frame that announces nothing can be put below. -/
theorem below (h : m.Serves L q α s) {f : Frame} (hf : ∀ r, f.run? = some r → r = q)
    (announces : f.isAnnouncing = false) (call : ∀ a, f ≠ .asked a)
    (timing : ∀ r w seconds, f = .timing r w seconds →
      r = q ∧ w = s.nextWait ∧ ∃ node, α = .suspended .image node)
    (ends : f.endsWell) {L' : Prop}
    (still : f.rider = .nobody ∨ L') (wider : L → L') : (m.under f).Serves L' q α s where
  outline := h.outline
  others := h.others
  frames g hg := by
    rcases List.mem_append.1 hg with hg | hg
    · exact h.frames g hg
    · obtain rfl := List.mem_singleton.1 hg
      exact hf
  control := h.control
  dues := by
    have hd : f.dues = [] := by cases f <;> first | rfl | cases announces
    simpa [Move.dues, Move.under, hd] using h.dues
  top g gs hg ha := by
    cases hm : m.frames with
    | nil =>
      simp only [Move.under, hm, List.nil_append, List.cons.injEq] at hg
      rw [← hg.1, announces] at ha
      cases ha
    | cons g' gs' =>
      simp only [Move.under, hm, List.cons_append, List.cons.injEq] at hg
      exact h.top g gs' (by rw [hm, hg.1]) ha
  rest g hg := by
    cases hm : m.frames with
    | nil => simp [Move.under, hm] at hg
    | cons g' gs' =>
      simp only [Move.under, hm, List.cons_append, List.tail_cons] at hg
      rcases List.mem_append.1 hg with hg | hg
      · exact h.rest g (by simpa [hm] using hg)
      · obtain rfl := List.mem_singleton.1 hg
        exact announces
  announces g hg ha := by
    rcases List.mem_append.1 hg with hg | hg
    · exact h.announces g hg ha
    · obtain rfl := List.mem_singleton.1 hg
      rw [announces] at ha
      cases ha
  ends := by
    refine ⟨fun g hg => ?_, h.ends.2⟩
    rcases List.mem_append.1 hg with hg | hg
    · exact h.ends.1 g hg
    · obtain rfl := List.mem_singleton.1 hg
      exact ends
  drains hd := (h.drains hd).imp (List.mem_append_left _) id
  battles := h.battles
  timing r w seconds hg := by
    rcases List.mem_append.1 hg with hg | hg
    · exact h.timing r w seconds hg
    · exact timing r w seconds (List.mem_singleton.1 hg).symm
  calls a hg := by
    rcases List.mem_append.1 hg with hg | hg
    · exact h.calls a hg
    · exact call a (List.mem_singleton.1 hg).symm
  still := by
    rcases h.still, still with ⟨hm | hl, hf | hl'⟩
    · exact .inl (hm.under hf)
    · exact .inr hl'
    · exact .inr (wider hl)
    · exact .inr hl'

/-- A plain frame can be put below. -/
theorem under (h : m.Serves L q α s) {f : Frame} (hf : ∀ r, f.run? = some r → r = q)
    (plain : f.isPlain) (ends : f.endsWell) {L' : Prop} (still : f.rider = .nobody ∨ L')
    (wider : L → L') : (m.under f).Serves L' q α s := by
  refine h.below hf ?_ (fun a ha => ?_) (fun r w seconds ht => ?_) ends still wider
  · cases f <;> first | rfl | cases plain
  · subst ha
    cases plain
  · subst ht
    cases plain

/-- A plain frame that goes on with no run can be put below. -/
theorem above (h : m.Serves L q α s) {f : Frame} (hf : ∀ r, f.run? = some r → r = q)
    (plain : f.isPlain) (ends : f.endsWell) (still : f.rider = .nobody) :
    (m.under f).Serves L q α s :=
  h.under hf plain ends (.inl still) id

/-- Moves that come after changes that are left out. -/
theorem after (h : m.Serves L q α s') (hs : s.Retouches q s') : m.Serves L q α s where
  outline := by rw [h.outline, hs.outline]
  others r hr := (h.others r hr).trans (hs.others r hr)
  frames := h.frames
  control := h.control
  dues := by rw [h.dues, hs.outline]
  top := h.top
  rest := h.rest
  announces := h.announces
  ends := h.ends
  drains hd := (h.drains hd).imp id fun hd => by
    rwa [show s'.draining = s.draining from congrArg Outline.draining hs.outline] at hd
  battles := h.battles
  timing := by
    rw [← show s'.nextWait = s.nextWait from congrArg Outline.nextWait hs.outline]
    exact h.timing
  calls := h.calls
  still := h.still

/-- Moves that come after a first part of the alteration. -/
theorem of_first {β : Alteration} (h : m.Serves L q α s')
    (outline : α.apply q s'.outline = β.apply q s.outline)
    (others : ∀ r, r ≠ q → s'.run r = s.run r)
    (dues : α.dues (s'.outline.run q) = [] ∧ β.dues (s.outline.run q) = [])
    (plain : α ≠ .closed .stopped ∧ ∀ kind node, α ≠ .suspended kind node)
    (draining : s'.draining = s.draining)
    (queues : β.isDraining = false) : m.Serves L q β s where
  outline := h.outline.trans outline
  others r hr := (h.others r hr).trans (others r hr)
  frames := h.frames
  control := h.control
  dues := by rw [h.dues, dues.1, dues.2]
  top := h.top
  rest := h.rest
  announces f hf ha := absurd (h.announces f hf ha) plain.1
  ends := h.ends
  drains hd := (h.drains hd).imp id fun hd => ⟨draining ▸ hd.1, queues⟩
  battles opponent b hc := by
    obtain ⟨node, hα⟩ := h.battles opponent b hc
    exact absurd hα (plain.2 _ node)
  timing r w seconds hf := by
    obtain ⟨-, -, node, hα⟩ := h.timing r w seconds hf
    exact absurd hα (plain.2 _ node)
  calls := h.calls
  still := h.still

theorem mono {L' : Prop} (h : m.Serves L q α s) (wider : L → L') : m.Serves L' q α s :=
  { h with still := h.still.imp_right wider }

end Move.Serves

/-- A job was queued, and nothing else is left to do but to work the queue off. -/
structure Move.IsQueued (m : Move) : Prop where
  control : m.control = .done .done
  frames : ∀ f ∈ m.frames, f = .draining

/-- Whether a run is suspended at a node, on a wait of the kind, after a step. -/
def Step.Stages (step : Step) (kind : WaitKind) (node : String) : Prop :=
  ∃ scene, step.action = .suspend scene ∧ kind = scene.kind ∧ node = step.node.id

/-! ## Every function serves its run -/

namespace Session

variable (s : Session) (q : RunId)

/-! ### Visits -/

theorem follow_serves (node : Node) (output : Int) (graph : Graph) :
    (s.follow q node output graph).Serves True q .nothing s := by
  have h : s.Retouches q (s.setRun q fun run => { run with activity := .advancing }) :=
    .setRun fun _ => rfl
  rw [follow_eq]
  exact .stepped h _ _

theorem report_serves (warnings : List Warning) :
    (s.report q warnings).Serves False q .nothing s := by
  cases warnings with
  | nil => exact .finished (.refl s)
  | cons w ws =>
    exact .ask (.setRun (by exact fun _ => rfl)) (by exact only_self) rfl (.inl rfl)

theorem perform_serves (effect : Effect) : (s.perform q effect).Serves False q .nothing s := by
  cases effect with
  | world event => exact .ask (.refl s) (by simp [Ask.run?]) rfl (.inl rfl)
  | setFlag name value =>
    have h (flags : FlagStore) (files : FileTree) : s.Retouches q { s with flags, files } :=
      .of_eq rfl rfl rfl rfl rfl rfl
    simp only [perform]
    split
    · exact .finished (h _ _)
    · exact .failure (h _ _) _
  | spawn request =>
    exact .ask (.refl s) (by exact only_self) rfl (.inl rfl)
  | remove npc =>
    exact .ask (.refl s) (by exact only_self) rfl (.inl rfl)

theorem dispatch_serves (t : Trigger) : (s.dispatch q t).Serves False q .nothing s := by
  unfold dispatch
  split
  · exact perform_serves s q _
  · exact .failure (.refl s) _

theorem applyItem_serves (node : String) (i : ItemChange) :
    (s.applyItem q node i).Serves False q .nothing s := by
  unfold applyItem
  split
  · exact .ask (.refl s) (by simp [Ask.run?]) rfl (.inl rfl)
  · exact .ask (.refl s) (by exact only_self) rfl (.inl rfl)
  · exact .ask (.refl s) (by exact only_self) rfl (.inl rfl)

theorem check_serves (node : Node) (c : Condition) (graph : Graph) :
    (s.check q node c graph).Serves True q .nothing s := by
  unfold check
  split
  · exact follow_serves s q _ _ _
  · exact .ask (.refl s) (by exact only_self) rfl (.inr trivial)
  · exact .ask (.refl s) (by exact only_self) rfl (.inr trivial)

theorem visit_serves (node : Node) (graph : Graph) :
    (s.visit q node graph).Serves True q .nothing s := by
  have h : s.Retouches q (s.setRun q fun run =>
      { run.count node.kind.word with node := some node.id, activity := .running }) :=
    .setRun fun _ => rfl
  have live {α : Alteration} {s' : Session} {m : Move} (hm : m.Serves False q α s') {f : Frame}
      (hf : ∀ r, f.run? = some r → r = q) (plain : f.isPlain) (ends : f.endsWell) :
      (m.under f).Serves True q α s' :=
    hm.under hf plain ends (.inr trivial) False.elim
  unfold visit
  cases node.body with
  | dialogue d => exact (live (report_serves _ q _) (fun _ h => by cases h) rfl rfl).after h
  | choice c => exact (live (report_serves _ q _) (fun _ h => by cases h) rfl rfl).after h
  | image i => exact .stepped h _ _
  | item i =>
    exact (live (applyItem_serves _ q _ _) (by exact only_self) rfl rfl).after h
  | trigger t =>
    exact (live (dispatch_serves _ q _) (by exact only_self) rfl rfl).after h
  | condition c => exact (check_serves _ q _ _ _).after h
  | combat opponent => exact .stepped h _ _
  | link l => exact .stepped h _ _
  | ending => exact .stepped h _ _

theorem respond_serves (node : Node) (graph : Graph) (answer : Value) :
    (∃ c pick, node.body = .choice c ∧ pick? c.options.length answer = some pick ∧
      (s.respond q node graph answer).Serves True q (.answered node.id pick) s) ∨
    (∀ c, node.body = .choice c → pick? c.options.length answer = none) ∧
      (s.respond q node graph answer).Serves True q .nothing s := by
  cases hb : node.body with
  | choice c =>
    cases hp : pick? c.options.length answer with
    | some pick =>
      refine .inl ⟨c, pick, rfl, hp, ?_⟩
      have outline : (s.setRun q fun run => { run with ledger := run.ledger.put node.id pick }).outline =
          (Alteration.answered node.id pick).apply q s.outline :=
        outline_setRun s q (g := fun run => { run with ledger := run.ledger.put node.id pick })
          fun _ => rfl
      -- The answer is taken first; what follows alters nothing more.
      have taken {m : Move} (hm : m.Serves True q .nothing
          (s.setRun q fun run => { run with ledger := run.ledger.put node.id pick })) :
          m.Serves True q (.answered node.id pick) s :=
        hm.of_first outline (fun _ hr => run_setRun_of_ne hr) ⟨rfl, rfl⟩ (by simp) rfl rfl
      simp only [respond, hb, hp]
      cases pick with
      | option i => exact taken (follow_serves _ q _ _ _)
      | fraction x => exact taken (.failure (.refl _) _)
    | none =>
      refine .inr ⟨fun c' h => by cases h; exact hp, ?_⟩
      simp only [respond, hb, hp]
      exact .failure (.refl s) _
  | _ =>
    refine .inr ⟨fun _ h => (by cases h), ?_⟩
    simp only [respond, hb]
    exact follow_serves s q _ _ _

theorem resolve_serves (node : Node) (graph : Graph) (outcome : Value) :
    (s.resolve q node graph outcome).Serves True q .nothing s := by
  unfold resolve
  split
  · exact follow_serves s q _ _ _
  · exact follow_serves s q _ _ _
  · exact .failure (.refl s) _

/-! ### The queue -/

theorem enqueue_isQueued (job : Job) : (s.enqueue q job).IsQueued := by
  unfold enqueue
  dsimp only
  split
  · exact ⟨rfl, fun _ h => by cases h⟩
  · exact ⟨rfl, fun _ h => List.mem_singleton.1 h⟩

/-- Queueing a job completes an alteration. -/
theorem enqueue_serves {L : Prop} {α : Alteration} {s s' : Session} {job : Job}
    (outline : s'.outline.queue q job = α.apply q s.outline)
    (others : ∀ r, r ≠ q → s'.run r = s.run r) (dues : α.dues (s.outline.run q) = [])
    (draining : s'.draining = s.draining) (queues : α.isDraining = false) :
    (s'.enqueue q job).Serves L q α s := by
  unfold enqueue
  dsimp only
  split
  case isTrue hd =>
    refine .of_frames_nil ?_ others rfl (fun _ h => by cases h) dues.symm ?_ nofun rfl (.inl rfl)
    · rw [← outline]
      exact Outline.ext rfl rfl rfl rfl rfl hd rfl
    · exact fun _ => ⟨draining ▸ hd, queues⟩
  case isFalse hd =>
    exact
      { outline := by rw [← outline]; rfl
        others := others
        frames := fun f hf r hr => by
          obtain rfl := List.mem_singleton.1 hf
          cases hr
        control := fun _ h => by cases h
        dues := dues.symm
        top := fun f fs hf ha => by
          obtain ⟨rfl, -⟩ := List.cons.inj hf
          cases ha
        rest := fun f hf => by cases hf
        announces := fun f hf ha => by
          obtain rfl := List.mem_singleton.1 hf
          cases ha
        ends := ⟨fun f hf => by obtain rfl := List.mem_singleton.1 hf; rfl, rfl⟩
        drains := fun _ => .inl List.mem_cons_self
        battles := nofun
        timing := fun r w seconds hf => (by cases List.mem_singleton.1 hf)
        calls := fun a hf => (by cases List.mem_singleton.1 hf)
        still := .inl ⟨rfl, fun f hf => by obtain rfl := List.mem_singleton.1 hf; rfl⟩ }

theorem drain_serves :
    (s.pending = [] ∧ s.drain = .finished { s with draining := false } ∧
      ∀ q, s.drain.Serves False q .rested s) ∨
    ∃ r job rest, s.pending = (r, job) :: rest ∧
      s.drain = (Move.work { s with pending := rest } (.drive r job)).under .draining ∧
      s.drain.Serves True r .taken s := by
  cases hp : s.pending with
  | nil =>
    have hdrain : s.drain = .finished { s with draining := false } := by simp only [drain, hp]
    refine .inl ⟨rfl, hdrain.trans (by rw [hp]), fun q => ?_⟩
    rw [hdrain]
    exact .of_frames_nil rfl (fun _ _ => rfl) rfl (fun _ h => by cases h) rfl
      (fun h => by cases h) nofun rfl (.inl rfl)
  | cons x rest =>
    obtain ⟨r, job⟩ := x
    have hdrain : s.drain =
        (Move.work { s with pending := rest } (.drive r job)).under .draining := by
      simp only [drain, hp]
    refine .inr ⟨r, job, rest, rfl, hdrain, ?_⟩
    rw [hdrain]
    exact
      { outline := Outline.ext rfl rfl rfl rfl (congrArg List.tail hp).symm rfl rfl
        others := fun _ _ => rfl
        frames := fun f hf r hr => by
          obtain rfl := List.mem_singleton.1 hf
          cases hr
        control := only_self
        dues := rfl
        top := fun f fs hf ha => by
          obtain ⟨rfl, -⟩ := List.cons.inj hf
          cases ha
        rest := fun f hf => by cases hf
        announces := fun f hf ha => by
          obtain rfl := List.mem_singleton.1 hf
          cases ha
        ends := ⟨fun f hf => by obtain rfl := List.mem_singleton.1 hf; rfl, rfl⟩
        drains := fun _ => .inl List.mem_cons_self
        battles := nofun
        timing := fun r w seconds hf => (by cases List.mem_singleton.1 hf)
        calls := fun a hf => (by cases List.mem_singleton.1 hf)
        still := .inr trivial }

theorem drive_serves (job : Job) : (s.drive q job).Serves True q .nothing s := by
  unfold drive
  split
  · refine (Move.Serves.work (L := True) (.refl s) ?_ ?_ (.inr trivial)).above
      (by exact only_self) rfl rfl rfl
    · cases job <;> exact only_self
    · cases job <;> rfl
  · exact .finished (.refl s)

/-! ### Resuming -/

theorem resume_serves {L : Prop} (job : Job) :
    (s.resume q job).Serves L q (.resumed job) s := by
  refine enqueue_serves q ?_ (fun _ hr => run_setRun_of_ne hr) rfl rfl rfl
  exact congrArg (Outline.queue · q job) (outline_setRun s q fun _ => rfl)

/-- If a timer runs, it is cancelled first, and nothing else happens before. -/
theorem withoutTimer_serves {L : Prop} {α : Alteration} {frame : Frame} {go : Session → Move}
    (hf : ∀ r, frame.run? = some r → r = q) (plain : frame.isPlain)
    (ends : frame.endsWell) (still : frame.rider = .nobody)
    (hgo : (go s).Serves L q α s) :
    (s.withoutTimer q frame go).Serves L q .nothing s ∨
      (s.withoutTimer q frame go).Serves L q α s := by
  rcases s.withoutTimer_cases q frame go with ⟨w, -, -, h⟩ | ⟨-, h⟩
  · rw [h]
    refine .inl (Move.Serves.above ?_ hf plain ends still)
    exact .ask (.setRun fun run => Run.outline_setTimer run _ _) (fun _ h => by cases h) rfl
      (.inl rfl)
  · exact .inr (h ▸ hgo)

theorem clear_serves {L : Prop} {job : Job} (answers : job.isAnswer) :
    (s.clear q job).Serves L q .nothing s ∨ (s.clear q job).Serves L q (.resumed job) s :=
  withoutTimer_serves s q only_self rfl answers rfl (resume_serves s q job)

theorem resumeInput_serves {L : Prop} (wait : Wait) (answer : Value) :
    (s.resumeInput q wait answer).Serves L q .nothing s ∨ ∃ job : Job, job.isAnswer ∧
      (s.resumeInput q wait answer).Serves L q (.resumed job) s := by
  rcases s.resumeInput_cases q wait answer with ⟨f, h⟩ | ⟨graph, node, -, -, h⟩
  · exact .inl (h ▸ .failure (.refl s) f)
  · rw [h]
    exact (clear_serves s q rfl).imp_right fun h => ⟨_, rfl, h⟩

/-! ### The end of a run -/

theorem announce_serves (completion : Option Callback) (ledger : Ledger) :
    (s.announce completion ledger).Serves False q (.announced completion ledger) s := by
  cases completion with
  | none =>
    exact .of_frames_nil rfl (fun _ _ => rfl) rfl (fun _ h => by cases h) rfl (fun h => ⟨h, rfl⟩)
      nofun rfl (.inl rfl)
  | some callback =>
    exact .of_frames_nil rfl (fun _ _ => rfl) rfl (fun _ h => by cases h) rfl (fun h => ⟨h, rfl⟩)
      nofun rfl (.inl rfl)

theorem dismiss_serves (npcs : List String) : (s.dismiss q npcs).Serves False q .nothing s := by
  cases npcs with
  | nil => exact .finished (.setRun (by exact fun _ => rfl))
  | cons npc rest => exact .ask (.refl s) (by exact only_self) rfl (.inl rfl)

theorem dismiss_frames (npcs : List String) :
    (s.dismiss q npcs).frames = [] ∧ (s.dismiss q npcs).control.isDismissing := by
  cases npcs <;> exact ⟨rfl, rfl⟩

theorem outline_ended (phase : Phase) :
    (s.ended q phase).outline = (Alteration.closed phase).apply q s.outline := by
  have hrun := outline_setRun s q (f := Run.ended phase)
    (g := fun run => { run with phase, ledger := [], completion := none, waiting := none })
    fun _ => by rw [Run.ended]; simp [Run.outline]
  refine (congrArg (fun o : Outline =>
    { o with graph := if s.current == some q then none else s.graph }) hrun).trans ?_
  by_cases hc : s.current = some q
  · simp [Alteration.apply, outline, Outline.change, hc]
  · simp [Alteration.apply, outline, Outline.change, hc]

theorem close_serves (phase : Phase) : (s.close q phase).Serves False q (.closed phase) s := by
  have outline := outline_ended s q phase
  have others (r : RunId) (hr : r ≠ q) : (s.ended q phase).run r = s.run r := s.run_ended_of_ne q hr
  rw [close_eq]
  generalize hs' : s.ended q phase = s' at outline others
  have draining : s'.draining = s.draining := by rw [← hs']; rfl
  split
  case isTrue hphase =>
    subst hphase
    have hd := dismiss_serves s' q (s.run q).npcs
    obtain ⟨frames, dismissing⟩ := dismiss_frames s' q (s.run q).npcs
    have hdues : (s'.dismiss q (s.run q).npcs).control.dues = [] := by
      cases (s.run q).npcs <;> rfl
    refine
      { outline := hd.outline.trans outline
        others := fun r hr => (hd.others r hr).trans (others r hr)
        frames := ?_
        control := hd.control
        dues := ?_
        top := fun _ _ _ _ => dismissing
        rest := ?_
        announces := ?_
        ends := ⟨?_, hd.ends.2⟩
        drains := fun h => .inr ⟨?_, rfl⟩
        battles := fun opponent b hc => ?_
        timing := by simp [Move.under, frames]
        calls := by simp [Move.under, frames]
        still := .inl ((hd.still.resolve_right id).under rfl) }
    · simp [Move.under, frames, Frame.run?]
    · simp [Move.dues, Move.under, frames, hdues, Frame.dues, Alteration.dues, RunOutline.dues,
        Session.outline, Run.outline]
    · simp [Move.under, frames]
    · exact fun _ _ _ => rfl
    · simp [Move.under, frames, Frame.endsWell]
    · rw [← draining, ← h]
      exact (congrArg Outline.draining hd.outline).symm
    · obtain ⟨node, hα⟩ := hd.battles opponent b hc
      cases hα
  case isFalse =>
    have ha := announce_serves s' q (s.run q).completion (s.run q).ledger
    have bare : (s'.announce (s.run q).completion (s.run q).ledger).frames = [] := by
      cases (s.run q).completion <;> rfl
    exact
      { ha with
        announces := by simp [bare]
        battles := fun opponent b hc => by
          obtain ⟨node, hα⟩ := ha.battles opponent b hc
          cases hα
        timing := by simp [bare]
        outline := ha.outline.trans outline
        others := fun r hr => (ha.others r hr).trans (others r hr)
        drains := fun h => (ha.drains h).imp id fun h => ⟨draining ▸ h.1, rfl⟩ }

theorem terminate_serves {phase : Phase} (past : phase.isActive = false) :
    (s.terminate q phase).Serves False q .nothing s ∨
      (s.terminate q phase).Serves False q (.closed phase) s :=
  withoutTimer_serves s q only_self rfl (by simp [Frame.endsWell, past]) rfl (close_serves s q phase)

theorem stopIfActive_serves : (s.stopIfActive q).Serves False q .nothing s := by
  unfold stopIfActive
  split
  · exact .work (.refl s) only_self rfl (.inl rfl)
  · exact .finished (.refl s)

theorem stop_serves :
    (∀ q, s.stop.Serves False q .nothing s) ∨ ∃ q, s.current = some q ∧
      (s.stop.Serves False q .nothing s ∨ s.stop.Serves False q (.closed .stopped) s) := by
  rcases s.stop_cases with h | ⟨r, hr, -, h⟩
  · exact .inl fun _ => h ▸ .finished (.refl s)
  · exact .inr ⟨r, hr, h ▸ terminate_serves s r rfl⟩

/-! ### Links and coming to rest -/

theorem install_serves {L : Prop} (graph : Graph) :
    (s.install q graph).Serves L q (.installed graph) s := by
  have hrun := outline_setRun s q (f := Run.moved graph)
    (g := fun run => { run with script := graph.id, phase := .running, waiting := none })
    fun _ => rfl
  refine enqueue_serves q ?_ (fun _ hr => run_setRun_of_ne hr) rfl rfl rfl
  exact congrArg (fun o : Outline => { o with graph := some graph }.queue q (.enter graph)) hrun

theorem loadTarget_serves (link : Link) :
    ∃ α, (s.loadTarget q link).Serves True q α s ∧ α.Settles s ∧
      (α = .nothing ∨ ∃ graph, α = .installed graph) := by
  rcases s.loadTarget_cases q link with ⟨f, h⟩ | ⟨graph, hl, h | h⟩
  · exact ⟨.nothing, h ▸ .failure (.refl s) f, trivial, .inl rfl⟩
  · rw [h]
    exact ⟨.nothing, .ask (.refl s) (by exact only_self) rfl (.inr trivial), trivial, .inl rfl⟩
  · exact ⟨.installed graph, h ▸ install_serves s q graph, ⟨_, hl⟩, .inr ⟨_, rfl⟩⟩

theorem afterWrite_serves (link : Link) (outcome : WriteOutcome) :
    ∃ α, (s.afterWrite q link outcome).Serves True q α s ∧ α.Settles s ∧
      (α = .nothing ∨ ∃ graph, α = .installed graph) := by
  cases outcome with
  | written => exact loadTarget_serves s q link
  | failed reason => exact ⟨.nothing, .failure (.refl s) _, trivial, .inl rfl⟩
  | cancelled => exact ⟨.nothing, .failure (.refl s) _, trivial, .inl rfl⟩

theorem outline_suspend (kind : WaitKind) (node : String) :
    (s.suspend q kind node).outline = (Alteration.suspended kind node).apply q s.outline := by
  have hrun := outline_setRun s q
    (f := fun run => { run with
      wait := some { id := s.nextWait, kind, node }, phase := .suspended, activity := kind.activity })
    (g := fun run => { run with
      phase := .suspended, waiting := some { id := s.nextWait, kind, node } })
    fun _ => rfl
  exact congrArg (fun o : Outline => { o with nextWait := s.nextWait + 1 }) hrun

theorem suspend_serves {L : Prop} {kind : WaitKind} {node : String} {m : Move}
    (h : m.Serves L q .nothing (s.suspend q kind node)) :
    m.Serves L q (.suspended kind node) s :=
  h.of_first (outline_suspend s q kind node) (fun _ hr => run_setRun_of_ne hr) ⟨rfl, rfl⟩ (by simp)
    rfl rfl

theorem afterHandOver_serves (node : String) (link : Link) (receipt : Receipt) :
    ∃ α, (s.afterHandOver q node link receipt).Serves True q α s ∧ α.Settles s ∧
      ∀ kind node, α = .suspended kind node → kind = .link := by
  have moved {α : Alteration} (h : α = .nothing ∨ ∃ graph, α = .installed graph) (kind : WaitKind)
      (node : String) (hα : α = .suspended kind node) : kind = .link := by
    subst hα
    rcases h with h | ⟨graph, h⟩ <;> cases h
  cases receipt with
  | plain =>
    obtain ⟨α, h, settles, hα⟩ := loadTarget_serves s q link
    exact ⟨α, h, settles, moved hα⟩
  | finished outcome =>
    obtain ⟨α, h, settles, hα⟩ := afterWrite_serves s q link outcome
    exact ⟨α, h, settles, moved hα⟩
  | pending ticket =>
    refine ⟨_, suspend_serves s q (.finished (.of_eq rfl rfl rfl rfl rfl rfl)), trivial, ?_⟩
    intro kind node h
    cases h
    rfl

theorem transfer_serves (node : String) (link : Link) :
    ∃ α, (s.transfer q node link).Serves True q α s ∧ α.Settles s ∧
      ∀ kind node, α ≠ .suspended kind node := by
  unfold transfer
  cases hc : (s.run q).completion with
  | none =>
    obtain ⟨α, h, settles, hα⟩ := loadTarget_serves s q link
    refine ⟨α, h, settles, fun kind node suspended => ?_⟩
    subst suspended
    rcases hα with hα | ⟨graph, hα⟩ <;> cases hα
  | some callback =>
    refine ⟨.handed, ?_, trivial, fun _ _ h => by cases h⟩
    have hrun := outline_setRun s q (f := fun run => { run with completion := none })
      (g := fun run => { run with completion := none }) fun _ => rfl
    refine .of_frames_nil hrun (fun _ hr => run_setRun_of_ne hr) rfl (by exact only_self) ?_
      (fun h => ⟨h, rfl⟩) nofun rfl (.inr trivial)
    simp [Move.ask, Control.dues, Alteration.dues, RunOutline.dues, Session.outline, Run.outline, hc]

theorem pause_serves (node : Node) (scene : Scene) :
    (s.pause q node scene).Serves False q (.suspended scene.kind node.id) s := by
  unfold pause
  dsimp only
  split
  · exact .of_frames_nil (outline_suspend s q _ _) (fun _ hr => run_setRun_of_ne hr) rfl
      (fun _ h => by cases h) rfl (fun h => ⟨h, rfl⟩) (fun _ _ _ => ⟨_, rfl⟩) rfl (.inl rfl)
  · refine (suspend_serves s q (.ask (.refl _) (by simp [Ask.run?]) rfl (.inl rfl))).below
      (by exact only_self) rfl (fun _ h => by cases h) (fun r w seconds h => ?_) rfl (.inl rfl) id
    cases h
    exact ⟨rfl, rfl, _, rfl⟩
  · exact suspend_serves s q (.ask (.refl _) (by simp [Ask.run?]) rfl (.inl rfl))

theorem phaseAfter_isActive (node : Node) : (phaseAfter node).isActive = false := by
  unfold phaseAfter
  split <;> rfl

theorem settle_serves (step : Step) :
    ∃ α, (s.settle q step).Serves True q α s ∧ α.Settles s ∧
      ∀ kind node, α = .suspended kind node → step.Stages kind node := by
  have ended {phase : Phase} (past : phase.isActive = false) :
      ∃ α, (s.terminate q phase).Serves True q α s ∧ α.Settles s ∧
        ∀ kind node, α = .suspended kind node → step.Stages kind node := by
    rcases terminate_serves s q past with h | h
    · exact ⟨_, h.mono False.elim, trivial, fun _ _ h => by cases h⟩
    · exact ⟨_, h.mono False.elim, past, fun _ _ h => by cases h⟩
  unfold settle
  split
  · exact ⟨.nothing, .finished (.refl s), trivial, fun _ _ h => by cases h⟩
  case h_2 scene action =>
    refine ⟨_, (pause_serves s q _ _).mono False.elim, trivial, fun kind node h => ?_⟩
    cases h
    exact ⟨scene, action, rfl, rfl⟩
  · obtain ⟨α, h, settles, plain⟩ := transfer_serves s q step.node.id _
    exact ⟨α, h, settles, fun kind node hα => absurd hα (plain kind node)⟩
  · exact ended rfl
  · exact ended (phaseAfter_isActive step.node)

theorem proceed_serves (step : Step) :
    ∃ α, (s.proceed q step).Serves True q α s ∧ α.Settles s ∧
      ∀ kind node, α = .suspended kind node → step.Stages kind node := by
  have driving {α : Alteration} {m : Move} (h : m.Serves True q α s) :
      (m.under (.driving q)).Serves True q α s :=
    h.above (by exact only_self) rfl rfl rfl
  rcases s.proceed_cases q step with ⟨-, h⟩ | ⟨-, ⟨f, h⟩ | ⟨node, graph, -, -, h⟩ | ⟨-, h⟩⟩
  · exact ⟨.nothing, h ▸ .finished (.refl s), trivial, nofun⟩
  · exact ⟨.nothing, h ▸ driving (.failure (.refl s) f), trivial, nofun⟩
  · rw [h]
    exact ⟨.nothing, driving (.work (.refl s) (by exact only_self) rfl (.inr trivial)), trivial, nofun⟩
  · obtain ⟨α, served, settles, staged⟩ := settle_serves s q step
    exact ⟨α, h ▸ driving served, settles, staged⟩

/-! ### Entries -/

variable {s} in
theorem IsIdle.startGraph_serves (idle : s.IsIdle) (graph : Graph) (completion : Option Callback) :
    (s.startGraph graph completion).IsQueued ∧
      (s.startGraph graph completion).Serves False s.runs.length (.opened graph completion) s := by
  rw [idle.startGraph_eq]
  refine ⟨enqueue_isQueued _ _ _, ?_⟩
  refine enqueue_serves _ ?_ (fun _ hr => run_addRun_of_ne _ hr) rfl rfl rfl
  refine Outline.ext (funext fun r => ?_) (length_runs_addRun _) rfl rfl rfl rfl rfl
  by_cases hr : r = s.runs.length
  · subst hr
    refine (congrArg Run.outline (run_addRun_length _)).trans ?_
    simp [Alteration.apply, Outline.queue, Session.outline, Run.outline]
  · refine (congrArg Run.outline (run_addRun_of_ne _ hr)).trans ?_
    simp [Alteration.apply, Outline.queue, Session.outline, hr]

theorem startGraph_serves (graph : Graph) (completion : Option Callback) :
    (∀ q, (s.startGraph graph completion).Serves False q .nothing s) ∨
    s.IsIdle ∧ (s.startGraph graph completion).IsQueued ∧
      (s.startGraph graph completion).Serves False s.runs.length (.opened graph completion) s := by
  rcases s.startGraph_cases graph completion with ⟨f, h⟩ | ⟨idle, -⟩
  · exact .inl fun _ => h ▸ .failure (.refl s) f
  · exact .inr ⟨idle, idle.startGraph_serves graph completion⟩

theorem start_serves (script : String) (completion : Option Callback) :
    (∀ q, (s.start script completion).Serves False q .nothing s) ∨
    (∃ q, s.current = some q ∧ ((s.start script completion).Serves False q .nothing s ∨
      (s.start script completion).Serves False q (.closed .stopped) s)) ∨
    ∃ graph, Library.load s.files s.library script = .ok graph ∧ s.IsIdle ∧
      (s.start script completion).IsQueued ∧
      (s.start script completion).Serves False s.runs.length (.opened graph completion) s := by
  rcases s.start_cases script completion with ⟨f, h⟩ | ⟨idle, ⟨graph, hl, h⟩ | ⟨f, -, h⟩⟩
  · exact .inl fun _ => h ▸ .failure (.refl s) f
  · rw [h]
    rcases startGraph_serves s graph completion with h | ⟨-, queued, h⟩
    · exact .inl h
    · exact .inr (.inr ⟨graph, hl, idle, queued, h⟩)
  · rw [h]
    have failing {q : RunId} {α : Alteration} {m : Move}
        (hm : m.Serves False q α { s with lastError := some (.data f) }) :
        (m.under (.failing (.data f))).Serves False q α s :=
      (hm.above (fun _ h => by cases h) rfl rfl rfl).after (.of_eq rfl rfl rfl rfl rfl rfl)
    rcases stop_serves { s with lastError := some (.data f) } with h | ⟨q, hq, h | h⟩
    · exact .inl fun q => failing (h q)
    · exact .inr (.inl ⟨q, hq, .inl (failing h)⟩)
    · exact .inr (.inl ⟨q, hq, .inr (failing h)⟩)

theorem advance_serves (answer : Value) :
    (∀ q, (s.advance answer).Serves False q .nothing s) ∨ ∃ q, s.current = some q ∧
      ((s.advance answer).Serves False q .nothing s ∨
        ∃ job : Job, job.isAnswer ∧ (s.advance answer).Serves False q (.resumed job) s) := by
  rcases s.advance_cases answer with ⟨f, h⟩ | ⟨r, wait, hr, -, -, -, -, h⟩
  · exact .inl fun _ => h ▸ .failure (.refl s) f
  · exact .inr ⟨r, hr, h ▸ resumeInput_serves s r wait answer⟩

theorem battleOver_serves (battle : BattleHandle) (outcome : Value) :
    (s.isWaiting battle.run battle.wait = false ∧ s.battleOver battle outcome = .finished s) ∨
    s.isWaiting battle.run battle.wait ∧
      ((s.battleOver battle outcome).Serves False battle.run .nothing s ∨
        ∃ job : Job, job.isAnswer ∧
          (s.battleOver battle outcome).Serves False battle.run (.resumed job) s) := by
  rcases s.battleOver_cases battle outcome with stale | ⟨waits, ⟨f, h⟩ | ⟨graph, -, h⟩⟩
  · exact .inl stale
  · exact .inr ⟨waits, .inl (h ▸ .failure (.refl s) f)⟩
  · rw [h]
    exact .inr ⟨waits, (clear_serves s _ rfl).imp_right fun h => ⟨_, rfl, h⟩⟩

theorem timeUp_serves (timer : TimerHandle) :
    (s.isWaiting timer.run timer.wait = false ∧ s.timeUp timer = .finished s) ∨
    s.isWaiting timer.run timer.wait ∧
      ((s.timeUp timer).Serves False timer.run .nothing s ∨
        ∃ job : Job, job.isAnswer ∧ (s.timeUp timer).Serves False timer.run (.resumed job) s) := by
  have h : s.Retouches timer.run (s.setRun timer.run (·.setTimer timer.wait false)) :=
    .setRun fun run => Run.outline_setTimer run _ _
  rcases s.timeUp_cases timer with stale | ⟨waits, wait, -, -, time⟩
  · exact .inl stale
  · refine .inr ⟨waits, ?_⟩
    rw [time]
    rcases resumeInput_serves _ timer.run _ .null with hm | ⟨job, answers, hm⟩
    · exact .inl (hm.after h)
    · exact .inr ⟨job, answers, hm.after h⟩

theorem deliver_serves (d : Delivery) :
    ((s.run d.handle.run).isWaitingOn d.handle.wait = false ∧ s.deliver d = .finished s) ∨
    (s.run d.handle.run).isWaitingOn d.handle.wait ∧
      ((s.deliver d).Serves True d.handle.run .released s ∨
        ∃ graph id, Library.load s.files s.library id = .ok graph ∧
          (s.deliver d).Serves True d.handle.run (.installed graph) s) := by
  have hrun := outline_setRun s d.handle.run (f := fun run => { run with wait := none })
    (g := fun run => { run with waiting := none }) fun run => by simp [Run.outline]
  have released {α : Alteration} {m : Move}
      (hm : m.Serves True d.handle.run α (s.setRun d.handle.run fun run => { run with wait := none }))
      {β : Alteration} (outline : α.apply d.handle.run (Alteration.released.apply d.handle.run s.outline) =
        β.apply d.handle.run s.outline)
      (plain : α ≠ .closed .stopped ∧ ∀ kind node, α ≠ .suspended kind node)
      (dues : ∀ run, α.dues run = [] ∧ β.dues run = []) (queues : β.isDraining = false) :
      (m.under (.linking d.handle.run)).Serves True d.handle.run β s := by
    refine Move.Serves.above ?_ (by exact only_self) rfl rfl rfl
    refine hm.of_first ?_ (fun _ hr => run_setRun_of_ne hr) ⟨(dues _).1, (dues _).2⟩ plain rfl queues
    rw [hrun]
    exact outline
  rcases s.deliver_cases d with stale | ⟨waits, h⟩
  · exact .inl stale
  · refine .inr ⟨waits, ?_⟩
    rw [h]
    obtain ⟨α, hm, settles, rfl | ⟨graph, rfl⟩⟩ := afterWrite_serves
      (s.setRun d.handle.run fun run => { run with wait := none }) d.handle.run d.handle.link d.outcome
    · exact .inl (released hm rfl (by simp) (fun _ => ⟨rfl, rfl⟩) rfl)
    · obtain ⟨id, load⟩ := settles
      refine .inr ⟨graph, id, load, released hm ?_ (by simp) (fun _ => ⟨rfl, rfl⟩) rfl⟩
      simp only [Alteration.apply, Outline.change_change]

theorem post_serves (ds : List Delivery) : (s.post ds).Serves False q .nothing s := by
  cases ds with
  | nil => exact .finished (.refl s)
  | cons d ds =>
    exact (Move.Serves.ask (.refl s) (by simp [Ask.run?]) rfl (.inl rfl)).above
      (by simp [Frame.run?]) rfl rfl rfl

theorem settleWrite_serves (ticket : Ticket) (outcome : WriteOutcome) :
    (s.settleWrite ticket outcome).Serves False q .nothing s :=
  (post_serves _ q _).after (.of_eq rfl rfl rfl rfl rfl rfl)

end Session

/-! ## Every move serves a run -/

/-- The completion callback that comes with the opening of a run. -/
def Entry.completion? : Entry → Option (Option Callback)
  | .start _ completion | .startGraph _ completion => some completion
  | _ => none

/-- The answer of the player that a run is about to take into its ledger. -/
def Turn.answer? (t : Turn) : Option (RunId × String × Pick) :=
  match t.control with
  | .work (.respond r node _ answer) =>
    match node.body with
    | .choice c => (Session.pick? c.options.length answer).map fun pick => (r, node.id, pick)
    | _ => none
  | _ => none

namespace Alteration

/-- The answer that the run `q` takes into its ledger. -/
def answer? (q : RunId) : Alteration → Option (RunId × String × Pick)
  | .answered node pick => some (q, node, pick)
  | _ => none

/-- The answers that leave the stack. -/
def paid : Alteration → List (Callback × Ledger)
  | .announced completion ledger => completion.toList.map (·, ledger)
  | _ => []

/-- Whether a run is opened, or the next job begun. -/
def isOpening : Alteration → Bool
  | .opened _ _ | .taken => true
  | _ => false

/-- Whether a run is closed for good, if it is closed, and has an answer, if it is resumed. -/
def endsWell : Alteration → Bool
  | .closed phase => !phase.isActive
  | .resumed job => job.isAnswer
  | _ => true

/-- Whether an alteration is made only where a run is gone on with. -/
def goesOn : Alteration → Bool
  | .suspended _ _ | .installed _ | .taken => true
  | _ => false

/-- An alteration of a run that goes on or comes to rest: it takes no answer, announces nothing,
and leaves the queue as it is. -/
structure IsPlain (q : RunId) (α : Alteration) : Prop where
  answer : α.answer? q = none
  paid : α.paid = []
  draining : α.isDraining = false
  opening : α.isOpening = false
  ends : α.endsWell

theorem IsPlain.nothing (q : RunId) : IsPlain q .nothing := ⟨rfl, rfl, rfl, rfl, rfl⟩

theorem IsPlain.closed (q : RunId) {phase : Phase} (past : phase.isActive = false) :
    IsPlain q (.closed phase) := ⟨rfl, rfl, rfl, rfl, by simp [endsWell, past]⟩

end Alteration

/-- Frames that announce nothing and are not the queue. -/
def Bare (frames : List Frame) : Prop := ∀ f ∈ frames, f.dues = [] ∧ f ≠ .draining

theorem bare_nil : Bare [] := by simp [Bare]

theorem bare_singleton {f : Frame} (hd : f.dues = []) (hn : f ≠ .draining) : Bare [f] := by
  intro g hg
  obtain rfl := List.mem_singleton.1 hg
  exact ⟨hd, hn⟩

/-- What an alteration of the queue says of it: its first job is begun, a fault comes to it, or
it is empty. -/
def Alteration.FitsQueue (t : Turn) (q : RunId) (m : Move) : Alteration → Prop
  | .taken => ∃ job rest, t.session.pending = (q, job) :: rest ∧
    m = (Move.work { t.session with pending := rest } (.drive q job)).under .draining
  | .dropped => ∃ f, t.control = .failed f
  | .rested => t.session.pending = []
  | _ => True

theorem Alteration.fitsQueue_of_not_draining {t : Turn} {q : RunId} {m : Move} {α : Alteration}
    (h : α.isDraining = false) : α.FitsQueue t q m := by
  cases α <;> trivial

/-- In the turn `t` some run is gone on with, by a move that pops the frames `popped`. -/
inductive Turn.Goes (t : Turn) (popped : List Frame) : Prop
  | rider (h : t.control.rider ≠ .nobody)
  | frame {f : Frame} (hf : f ∈ popped) (h : f.rider ≠ .nobody)
  | queue (h : .draining ∈ popped)
  | written (d : Delivery) (h : t.control = .work (.entry (.written d)))

/-- In the turn `t` the move `m` is made, which pops the frames `popped` and serves the run `q`
by the alteration `α`. -/
structure Turn.Makes (t : Turn) (popped : List Frame) (q : RunId) (α : Alteration) (m : Move) :
    Prop where
  serves : m.Serves (t.Goes popped) q α t.session
  goes : α.goesOn → t.Goes popped
  /-- Unless it takes a link, a run is suspended after a step. -/
  staged : ∀ kind node, α = .suspended kind node → kind = .link ∨
    popped = [.driving q] ∧ ∃ step, t.control = .done (.stepped step) ∧ step.Stages kind node
  answer : t.answer? = α.answer? q
  paid : α.paid = popped.flatMap Frame.dues ∨ α.paid = [] ∧ ∃ f, t.control = .failed f
  draining : .draining ∈ popped ↔ α.isDraining
  queue : α.FitsQueue t q m
  opened : ∀ graph completion, α = .opened graph completion →
    q = t.session.runs.length ∧ t.session.IsIdle ∧ m.IsQueued ∧
      ∃ e : Entry, t.control = .work (.entry e) ∧ e.completion? = some completion
  worker : t.worker? = some q ∨ α.isOpening ∨ ∀ q', m.Serves True q' α t.session
  ends : α.endsWell

namespace Turn.Makes

variable {t : Turn} {q : RunId} {α : Alteration} {m : Move} {s : Session} {stack : List Frame}

/-- A move that alters nothing but for the run it is made for. -/
theorem of_plain {popped : List Frame} (h : m.Serves (t.Goes popped) q α t.session)
    (goes : α.goesOn → t.Goes popped)
    (staged : ∀ kind node, α = .suspended kind node → kind = .link ∨
      popped = [.driving q] ∧ ∃ step, t.control = .done (.stepped step) ∧ step.Stages kind node)
    (answer : t.answer? = none) (hp : Bare popped) (plain : α.IsPlain q)
    (worker : t.worker? = some q) : t.Makes popped q α m where
  serves := h
  goes := goes
  staged := staged
  answer := answer.trans plain.answer.symm
  paid := .inl (plain.paid.trans (List.flatMap_eq_nil_iff.2 fun f hf => (hp f hf).1).symm)
  draining := by
    rw [plain.draining]
    exact ⟨fun hd => absurd rfl (hp _ hd).2, fun h => by cases h⟩
  queue := Alteration.fitsQueue_of_not_draining plain.draining
  opened _ _ ho := by
    have h := plain.opening
    rw [ho] at h
    cases h
  worker := .inl worker
  ends := plain.ends

/-- A move that goes on with its run. -/
theorem going {popped : List Frame} (h : m.Serves True q α t.session) (goes : t.Goes popped)
    (links : ∀ kind node, α = .suspended kind node → kind = .link) (answer : t.answer? = none)
    (hp : Bare popped) (plain : α.IsPlain q) (worker : t.worker? = some q) : t.Makes popped q α m :=
  of_plain (h.mono fun _ => goes) (fun _ => goes) (fun kind node hα => .inl (links kind node hα))
    answer hp plain worker

/-- A move for a run that goes on with none. -/
theorem own {popped : List Frame} (h : m.Serves False q α t.session) (still : α.goesOn = false)
    (answer : t.answer? = none) (hp : Bare popped) (plain : α.IsPlain q)
    (worker : t.worker? = some q) : t.Makes popped q α m :=
  of_plain (h.mono False.elim) (fun hg => absurd hg (by simp [still]))
    (fun _ _ hα => by subst hα; cases still) answer hp plain worker

/-- A move that alters nothing and is made for no run. -/
theorem nobody {popped : List Frame} (h : ∀ q, m.Serves (t.Goes popped) q .nothing t.session)
    (answer : t.answer? = none) (hp : Bare popped) : t.Makes popped 0 .nothing m where
  serves := h 0
  goes h := by cases h
  staged := nofun
  answer := answer
  paid := .inl (List.flatMap_eq_nil_iff.2 fun f hf => (hp f hf).1).symm
  draining := ⟨fun hd => absurd rfl (hp _ hd).2, fun h => by cases h⟩
  queue := trivial
  opened _ _ ho := by cases ho
  worker := .inr (.inr fun q => (h q).mono fun _ => trivial)
  ends := rfl

end Turn.Makes

/-- The alterations of a run that goes on or comes to rest are plain. -/
theorem Alteration.Settles.plain {s : Session} {α : Alteration} (h : α.Settles s) (q : RunId) :
    α.IsPlain q := by
  cases α with
  | closed phase => exact .closed q h
  | nothing | handed | suspended | installed => exact ⟨rfl, rfl, rfl, rfl, rfl⟩
  | _ => cases h

section Sources

variable (s : Session) (stack : List Frame)

theorem Entry.makes (e : Entry) :
    ∃ q α, Turn.Makes ⟨s, stack, .work (.entry e)⟩ [] q α (s.enter e) := by
  have plain {q : RunId} {α : Alteration} (h : α = .nothing ∨ α = .closed .stopped ∨ α = .released ∨
      ∃ graph, α = .installed graph) : α.IsPlain q := by
    rcases h with rfl | rfl | rfl | ⟨_, rfl⟩ <;> exact ⟨rfl, rfl, rfl, rfl, rfl⟩
  have resumed {q : RunId} {job : Job} (answers : job.isAnswer) :
      Alteration.IsPlain q (.resumed job) := ⟨rfl, rfl, rfl, rfl, answers⟩
  have opened {graph : Graph} {completion : Option Callback} {m : Move}
      (h : m.Serves False s.runs.length (.opened graph completion) s) (idle : s.IsIdle)
      (queued : m.IsQueued)
      (he : e.completion? = some completion) :
      ∃ q α, Turn.Makes ⟨s, stack, .work (.entry e)⟩ [] q α m :=
    ⟨_, _, { serves := h.mono False.elim, goes := fun hg => (by cases hg), staged := nofun, answer := rfl, paid := .inl rfl
             draining := by simp [Alteration.isDraining], queue := trivial
             opened := fun _ _ ho => by cases ho; exact ⟨rfl, idle, queued, e, rfl, he⟩
             worker := .inr (.inl rfl), ends := rfl }⟩
  cases e with
  | start script completion =>
    rcases s.start_serves script completion with h | ⟨q, hq, h | h⟩ | ⟨graph, -, idle, queued, h⟩
    · exact ⟨_, _, .nobody (fun q => (h q).mono False.elim) rfl bare_nil⟩
    · exact ⟨q, _, .own h rfl rfl bare_nil (plain (by simp)) hq⟩
    · exact ⟨q, _, .own h rfl rfl bare_nil (plain (by simp)) hq⟩
    · exact opened h idle queued rfl
  | startGraph graph completion =>
    rcases s.startGraph_serves graph completion with h | ⟨idle, queued, h⟩
    · exact ⟨_, _, .nobody (fun q => (h q).mono False.elim) rfl bare_nil⟩
    · exact opened h idle queued rfl
  | advance answer =>
    rcases s.advance_serves answer with h | ⟨q, hq, h | ⟨job, answers, h⟩⟩
    · exact ⟨_, _, .nobody (fun q => (h q).mono False.elim) rfl bare_nil⟩
    · exact ⟨q, _, .own h rfl rfl bare_nil (plain (by simp)) hq⟩
    · exact ⟨q, _, .own h rfl rfl bare_nil (resumed answers) hq⟩
  | stop =>
    rcases s.stop_serves with h | ⟨q, hq, h | h⟩
    · exact ⟨_, _, .nobody (fun q => (h q).mono False.elim) rfl bare_nil⟩
    · exact ⟨q, _, .own h rfl rfl bare_nil (plain (by simp)) hq⟩
    · exact ⟨q, _, .own h rfl rfl bare_nil (plain (by simp)) hq⟩
  | battleOver battle outcome =>
    rcases s.battleOver_serves battle outcome with ⟨-, h⟩ | ⟨hw, h | ⟨job, answers, h⟩⟩
    · exact ⟨_, _, .nobody (fun q => by rw [Session.enter, h]; exact .finished (.refl s)) rfl bare_nil⟩
    · exact ⟨_, _, .own h rfl rfl bare_nil (plain (by simp)) (if_pos hw)⟩
    · exact ⟨_, _, .own h rfl rfl bare_nil (resumed answers) (if_pos hw)⟩
  | timeUp timer =>
    rcases s.timeUp_serves timer with ⟨-, h⟩ | ⟨hw, h | ⟨job, answers, h⟩⟩
    · exact ⟨_, _, .nobody (fun q => by rw [Session.enter, h]; exact .finished (.refl s)) rfl bare_nil⟩
    · exact ⟨_, _, .own h rfl rfl bare_nil (plain (by simp)) (if_pos hw)⟩
    · exact ⟨_, _, .own h rfl rfl bare_nil (resumed answers) (if_pos hw)⟩
  | written d =>
    rcases s.deliver_serves d with ⟨-, h⟩ | ⟨hw, h | ⟨graph, id, -, h⟩⟩
    · exact ⟨_, _, .nobody (fun q => by rw [Session.enter, h]; exact .finished (.refl s)) rfl bare_nil⟩
    · exact ⟨_, _, .going h (.written d rfl) nofun rfl bare_nil (plain (by simp)) (if_pos hw)⟩
    · exact ⟨_, _, .going h (.written d rfl) nofun rfl bare_nil (plain (by simp)) (if_pos hw)⟩
  | settle ticket outcome =>
    exact ⟨_, _, .nobody (fun q => (s.settleWrite_serves q ticket outcome).mono False.elim) rfl bare_nil⟩

theorem Task.makes (task : Task) (ends : (Control.work task).endsWell) :
    ∃ q α, Turn.Makes ⟨s, stack, .work task⟩ [] q α (task.begin s) := by
  cases task with
  | entry e => exact e.makes s stack
  | drive r job => exact ⟨r, _, .going (s.drive_serves r job) (.rider nofun) nofun rfl bare_nil (.nothing r) rfl⟩
  | visit r node graph => exact ⟨r, _, .going (s.visit_serves r node graph) (.rider nofun) nofun rfl bare_nil (.nothing r) rfl⟩
  | respond r node graph answer =>
    rcases s.respond_serves r node graph answer with ⟨c, pick, hc, hp, h⟩ | ⟨hc, h⟩
    · refine ⟨r, _, { serves := h.mono fun _ => .rider nofun, goes := fun _ => .rider nofun
                      staged := nofun, answer := ?_, paid := .inl rfl, draining := by simp [Alteration.isDraining], queue := trivial
                      opened := fun _ _ ho => (by cases ho), worker := .inl rfl, ends := rfl }⟩
      simp [Turn.answer?, hc, hp, Alteration.answer?]
    · refine ⟨r, _, .going h (.rider nofun) nofun ?_ bare_nil (.nothing r) rfl⟩
      simp only [Turn.answer?]
      split
      case h_1 c hb => simp [hc c hb]
      case h_2 => rfl
  | resolve r node graph outcome =>
    exact ⟨r, _, .going (s.resolve_serves r node graph outcome) (.rider nofun) nofun rfl bare_nil (.nothing r) rfl⟩
  | follow r node output graph =>
    exact ⟨r, _, .going (s.follow_serves r node output graph) (.rider nofun) nofun rfl bare_nil (.nothing r) rfl⟩
  | dispatch r trigger =>
    exact ⟨r, _, .own (s.dispatch_serves r trigger) rfl rfl bare_nil (.nothing r) rfl⟩
  | report r warnings =>
    exact ⟨r, _, .own (s.report_serves r warnings) rfl rfl bare_nil (.nothing r) rfl⟩
  | engage card =>
    refine ⟨_, _, .nobody (fun q => .ask (.refl s) (by simp [Ask.run?]) rfl (.inl rfl)) rfl bare_nil⟩
  | terminate r phase =>
    have past : phase.isActive = false := by simpa [Control.endsWell] using ends
    rcases s.terminate_serves r past with h | h
    · exact ⟨r, _, .own h rfl rfl bare_nil (.nothing r) rfl⟩
    · exact ⟨r, _, .own h rfl rfl bare_nil (.closed r past) rfl⟩

theorem Ask.makes (a : Ask) (answer : a.call.Reply) :
    ∃ q α, Turn.Makes ⟨s, stack, .ask a⟩ [] q α (a.resume s answer) := by
  cases a with
  | startTimer seconds timer =>
    refine ⟨timer.run, _, .own (.finished ?_) rfl rfl bare_nil (.nothing _) rfl⟩
    split
    · exact .setRun fun run => Run.outline_setTimer run _ _
    · exact .refl s
  | take r node item amount =>
    refine ⟨r, _, .own (α := .nothing) ?_ rfl rfl bare_nil (.nothing r) rfl⟩
    simp only [resume]
    split
    · exact .finished (.refl s)
    · exact s.report_serves r _
  | count r node condition graph =>
    exact ⟨r, _, .going (s.follow_serves r node _ graph) (.rider fun h => by cases h) (fun _ _ h => by cases h) rfl bare_nil (.nothing r) rfl⟩
  | spawn r request =>
    exact ⟨r, _, .own (.finished (.setRun (by exact fun _ => rfl))) rfl rfl bare_nil (.nothing r) rfl⟩
  | remove r npc =>
    exact ⟨r, _, .own (.finished (.setRun (by exact fun _ => rfl))) rfl rfl bare_nil (.nothing r) rfl⟩
  | fillIn r graph =>
    exact ⟨r, _, .going (s.install_serves r _) (.rider fun h => by cases h) (fun _ _ h => by cases h) rfl bare_nil ⟨rfl, rfl, rfl, rfl, rfl⟩ rfl⟩
  | report r warning rest =>
    exact ⟨r, _, .own (s.report_serves r rest) rfl rfl bare_nil (.nothing r) rfl⟩
  | dismiss r npc rest =>
    exact ⟨r, _, .own (s.dismiss_serves r rest) rfl rfl bare_nil (.nothing r) rfl⟩
  | handOver r node link callback ledger =>
    obtain ⟨α, h, settles, links⟩ := s.afterHandOver_serves r node link answer
    exact ⟨r, α, .going h (.rider fun h => by cases h) links rfl bare_nil (settles.plain r) rfl⟩
  | engage | cancelTimer | deliver | give | battle | world | announce =>
    exact ⟨_, _, .nobody (fun q => .finished (.refl s)) rfl bare_nil⟩

theorem Frame.receive_makes (frame : Frame) (result : Result) (h : ∀ a, frame ≠ .asked a)
    (ends : frame.endsWell) :
    ∃ q α, Turn.Makes ⟨s, frame :: stack, .done result⟩ [frame] q α (frame.receive s result) := by
  cases frame with
  | draining =>
    rcases s.drain_serves with ⟨hp, -, h⟩ | ⟨r, job, rest, hp, hm, h⟩
    · exact ⟨0, _, { serves := (h 0).mono False.elim, goes := fun hg => (by cases hg), staged := fun _ _ h => (by cases h)
                     answer := rfl, paid := .inl rfl, draining := by simp [Alteration.isDraining], queue := hp
                     opened := fun _ _ ho => (by cases ho)
                     worker := .inr (.inr fun q => (h q).mono False.elim)
                     ends := rfl }⟩
    · have taking : Turn.Goes ⟨s, .draining :: stack, .done result⟩ [.draining] := .queue List.mem_cons_self
      exact ⟨r, _, { serves := h.mono fun _ => taking, goes := fun _ => taking, staged := fun _ _ h => (by cases h)
                     answer := rfl, paid := .inl rfl, draining := by simp [Alteration.isDraining], queue := ⟨job, rest, hp, hm⟩
                     opened := fun _ _ ho => (by cases ho)
                     worker := .inr (.inl rfl), ends := rfl }⟩
  | driving r =>
    cases result with
    | stepped step =>
      obtain ⟨α, h, settles, staged⟩ := s.proceed_serves r step
      have goes : Turn.Goes ⟨s, .driving r :: stack, .done (.stepped step)⟩ [.driving r] := .rider fun h => by cases h
      exact ⟨r, α, .of_plain (h.mono fun _ => goes) (fun _ => goes)
        (fun kind node hα => .inr ⟨rfl, step, rfl, staged kind node hα⟩) rfl
        (bare_singleton rfl (by simp)) (settles.plain r) rfl⟩
    | done =>
      exact ⟨r, _, .own (.finished (.refl s)) rfl rfl (bare_singleton rfl (by simp)) (.nothing r) rfl⟩
  | failing f => exact ⟨_, _, .nobody (fun q => .failure (.refl s) f) rfl (bare_singleton rfl (by simp))⟩
  | triggering r node graph =>
    exact ⟨r, _, .going (s.follow_serves r node _ graph) (.frame List.mem_cons_self fun h => by cases h) (fun _ _ h => by cases h) rfl
      (bare_singleton rfl (by simp)) (.nothing r) rfl⟩
  | following r node output graph =>
    exact ⟨r, _, .going (s.follow_serves r node output graph) (.frame List.mem_cons_self fun h => by cases h) (fun _ _ h => by cases h) rfl
      (bare_singleton rfl (by simp)) (.nothing r) rfl⟩
  | stepping step =>
    exact ⟨_, _, .nobody (fun q => (Move.Serves.stepped (.refl s) _ _).mono fun _ =>
      .frame List.mem_cons_self fun h => by cases h) rfl (bare_singleton rfl (by simp))⟩
  | timing r wait seconds =>
    refine ⟨r, _, .own (α := .nothing) ?_ rfl rfl (bare_singleton rfl (by simp)) (.nothing r) rfl⟩
    simp only [receive]
    split
    · exact .ask (.refl s) (by exact only_self) rfl (.inl rfl)
    · exact .finished (.refl s)
  | resuming r job =>
    exact ⟨r, _, .own (s.resume_serves r job) rfl rfl (bare_singleton rfl (by simp))
      ⟨rfl, rfl, rfl, rfl, ends⟩ rfl⟩
  | ending r phase =>
    have past : phase.isActive = false := by simpa [Frame.endsWell] using ends
    exact ⟨r, _, .own (s.close_serves r phase) rfl rfl (bare_singleton rfl (by simp))
      (.closed r past) rfl⟩
  | announcing completion ledger =>
    have h (q : RunId) := s.announce_serves q completion ledger
    exact ⟨0, _, { serves := (h 0).mono False.elim, goes := fun hg => (by cases hg), staged := fun _ _ h => (by cases h), answer := rfl
                   paid := .inl (by simp [Alteration.paid, Frame.dues])
                   draining := by simp [Alteration.isDraining], queue := trivial
                   opened := fun _ _ ho => (by cases ho)
                   worker := .inr (.inr fun q => (h q).mono False.elim), ends := rfl }⟩
  | linking r =>
    exact ⟨r, _, .own (.finished (.refl s)) rfl rfl (bare_singleton rfl (by simp)) (.nothing r) rfl⟩
  | posting rest =>
    exact ⟨_, _, .nobody (fun q => (s.post_serves q rest).mono False.elim) rfl (bare_singleton rfl (by simp))⟩
  | asked a => exact absurd rfl (h a)

theorem Frame.recover_makes (frame : Frame) (f : Fault) (h : ∀ a, frame ≠ .asked a) :
    ∃ q α, Turn.Makes ⟨s, frame :: stack, .failed f⟩ [frame] q α (frame.recover s f) := by
  have noted (r : RunId) : s.Retouches r { s with lastError := some f } :=
    .of_eq rfl rfl rfl rfl rfl rfl
  cases frame with
  | draining =>
    have h {L : Prop} (q : RunId) : (Frame.draining.recover s f).Serves L q .dropped s :=
      .of_frames_nil rfl (fun _ _ => rfl) rfl (fun _ h => by cases h) rfl (fun h => by cases h)
        nofun rfl (.inl rfl)
    exact ⟨0, _, { serves := h 0, goes := fun hg => (by cases hg), staged := nofun, answer := rfl, paid := .inl rfl
                   draining := by simp [Alteration.isDraining], queue := ⟨f, rfl⟩
                   opened := fun _ _ ho => (by cases ho), worker := .inr (.inr h), ends := rfl }⟩
  | driving r =>
    refine ⟨r, _, .own (α := .nothing) ?_ rfl rfl (bare_singleton rfl (by simp)) (.nothing r) rfl⟩
    exact ((Session.stopIfActive_serves _ r).above (by simp [Frame.run?]) rfl rfl rfl).after (noted r)
  | triggering r node graph =>
    refine ⟨r, _, .going (α := .nothing) ?_ (.frame List.mem_cons_self nofun) nofun rfl
      (bare_singleton rfl (by simp)) (.nothing r) rfl⟩
    simp only [recover]
    split
    · exact (s.report_serves r _).under (by exact only_self) rfl rfl (.inr trivial) False.elim
    · exact .failure (.refl s) _
  | linking r =>
    refine ⟨r, _, .own (α := .nothing) ?_ rfl rfl (bare_singleton rfl (by simp)) (.nothing r) rfl⟩
    cases f with
    | link f => exact (Session.stopIfActive_serves _ r).after (noted r)
    | _ => exact .failure (.refl s) _
  | posting rest =>
    exact ⟨_, _, .nobody (fun q => (s.post_serves q rest).mono False.elim) rfl (bare_singleton rfl (by simp))⟩
  | announcing completion ledger =>
    exact ⟨0, .nothing, { serves := .failure (.refl s) f, goes := fun hg => (by cases hg), staged := nofun, answer := rfl, paid := .inr ⟨rfl, f, rfl⟩
                          draining := by simp [Alteration.isDraining], queue := trivial
                          opened := fun _ _ ho => (by cases ho)
                          worker := .inr (.inr fun _ => .failure (.refl s) f)
                          ends := rfl }⟩
  | failing | following | stepping | timing | resuming | ending =>
    exact ⟨_, _, .nobody (fun q => .failure (.refl s) f) rfl (bare_singleton rfl (by simp))⟩
  | asked a => exact absurd rfl (h a)

end Sources

namespace Turn

variable {t u : Turn} {d : Deed}

theorem answer?_of_isOver {s : Session} {stack : List Frame} {c : Control} (h : c.isOver) :
    answer? ⟨s, stack, c⟩ = none := by
  cases c with
  | work | ask => cases h
  | done | failed => rfl

/-- What a deed of the host does to the stack and to what comes next. -/
inductive Shifts : List Frame → Control → List Frame → Control → Prop
  | change {stack : List Frame} {c : Control} (h : c.isForHost stack) : Shifts stack c stack c
  | beginAtRest {c : Control} (h : c.isOver) (e : Entry) : Shifts [] c [] (.work (.entry e))
  | beginInside {stack : List Frame} {a : Ask} (e : Entry) :
      Shifts stack (.ask a) (.asked a :: stack) (.work (.entry e))
  | leave {stack : List Frame} {a : Ask} {c : Control} (h : c.isOver) :
      Shifts (.asked a :: stack) c stack (.ask a)
  | fail {stack : List Frame} {a : Ask} (f : Fault) : Shifts stack (.ask a) stack (.failed f)

/-- A deed of the host.  It changes no run, and at most puts a call on the stack or comes back
to one. -/
structure Yields (t : Turn) (d : Deed) (u : Turn) : Prop where
  outline : u.session.outline = t.session.outline
  runs : u.session.runs = t.session.runs
  answer : t.answer? = none
  deed : d ≠ .move ∧ ∀ a answer, d ≠ .reply a answer
  shifts : Shifts t.stack t.control u.stack u.control

theorem Yields.stack (h : t.Yields d u) : u.stack = t.stack ∨
    (∃ a, u.stack = .asked a :: t.stack) ∨ ∃ a, t.stack = .asked a :: u.stack := by
  obtain ⟨s, stack, c⟩ := t
  obtain ⟨s', stack', c'⟩ := u
  cases h.shifts with
  | change | fail | beginAtRest => exact .inl rfl
  | beginInside => exact .inr (.inl ⟨_, rfl⟩)
  | leave => exact .inr (.inr ⟨_, rfl⟩)

theorem Yields.top (h : t.Yields d u) (past : t.control.isOver) :
    ∀ f stack, t.stack = f :: stack → ∃ a, f = .asked a := by
  intro f stack' hs
  obtain ⟨s, stack, c⟩ := t
  obtain rfl : stack = f :: stack' := hs
  obtain ⟨s', stack'', c'⟩ := u
  have hshifts : Shifts (f :: stack') c stack'' c' := h.shifts
  have hover : c.isOver := past
  cases hshifts with
  | change hc =>
    cases c with
    | work | ask => cases hover
    | done | failed => cases hc
  | beginInside | fail => cases hover
  | leave => exact ⟨_, rfl⟩

/-- Whatever ends a run in a turn, or is to end one, ends it for good. -/
def EndsWell (t : Turn) : Prop := (∀ f ∈ t.stack, f.endsWell) ∧ t.control.endsWell

/-- **Every deed is one of the host or a move that serves a run.** -/
theorem Does.serves (h : t.Does d u) (ends : t.EndsWell) :
    t.Yields d u ∨ ∃ popped rest q α m, t.stack = popped ++ rest ∧
      (popped = [] ∧ t.control.isOver = false ∨
        ∃ f, popped = [f] ∧ t.control.isOver ∧ ∀ a, f ≠ .asked a) ∧
      u = m.on rest ∧ t.Makes popped q α m ∧ (d = .move ∨ ∃ a answer, d = .reply a answer) := by
  cases h with
  | @work s stack task =>
    obtain ⟨q, α, h⟩ := task.makes s stack ends.2
    exact .inr ⟨[], stack, q, α, _, rfl, .inl ⟨rfl, rfl⟩, rfl, h, .inl rfl⟩
  | @receive s frame stack result hn =>
    obtain ⟨q, α, h⟩ := frame.receive_makes s stack result hn (ends.1 frame List.mem_cons_self)
    exact .inr ⟨[frame], stack, q, α, _, rfl, .inr ⟨frame, rfl, rfl, hn⟩, rfl, h, .inl rfl⟩
  | @recover s frame stack fault hn =>
    obtain ⟨q, α, h⟩ := frame.recover_makes s stack fault hn
    exact .inr ⟨[frame], stack, q, α, _, rfl, .inr ⟨frame, rfl, rfl, hn⟩, rfl, h, .inl rfl⟩
  | @reply s stack a answer =>
    obtain ⟨q, α, h⟩ := a.makes s stack answer
    exact .inr ⟨[], stack, q, α, _, rfl, .inl ⟨rfl, rfl⟩, rfl, h, .inr ⟨a, answer, rfl⟩⟩
  | beginAtRest ho => exact .inl ⟨rfl, rfl, answer?_of_isOver ho, by simp, .beginAtRest ho _⟩
  | beginInside => exact .inl ⟨rfl, rfl, rfl, by simp, .beginInside _⟩
  | leave ho => exact .inl ⟨rfl, rfl, answer?_of_isOver ho, by simp, .leave ho⟩
  | fail => exact .inl ⟨rfl, rfl, rfl, by simp, .fail _⟩
  | @change s stack c ho =>
    refine .inl ⟨rfl, rfl, ?_, by simp, .change ho⟩
    cases c with
    | work => cases ho
    | ask | done | failed => rfl

theorem Does.endsWell (h : t.Does d u) (ends : t.EndsWell) : u.EndsWell := by
  rcases h.serves ends with hy | ⟨popped, rest, q, α, m, hs, -, rfl, hm, -⟩
  · obtain ⟨s, stack, c⟩ := t
    obtain ⟨s', stack', c'⟩ := u
    obtain ⟨hstack, hc⟩ : (∀ f ∈ stack, f.endsWell) ∧ c.endsWell := ends
    have hshifts : Shifts stack c stack' c' := hy.shifts
    cases hshifts with
    | change => exact ⟨hstack, hc⟩
    | beginAtRest | fail => exact ⟨hstack, rfl⟩
    | beginInside => exact ⟨List.forall_mem_cons.2 ⟨rfl, hstack⟩, rfl⟩
    | leave => exact ⟨fun f hf => hstack f (List.mem_cons_of_mem _ hf), rfl⟩
  · refine ⟨fun f hf => ?_, hm.serves.ends.2⟩
    rcases List.mem_append.1 hf with hf | hf
    · exact hm.serves.ends.1 f hf
    · exact ends.1 f (hs ▸ List.mem_append_right _ hf)

theorem endsWell_atRest (s : Session) : s.atRest.EndsWell := ⟨fun _ h => (by cases h), rfl⟩

end Turn

theorem History.endsWell {may : Turn → Deed → Prop} {start t : Turn} {events : List Event}
    (h : History may start events t) (begins : start.EndsWell) : t.EndsWell :=
  h.induct begins fun ends _ does => does.endsWell ends

end Questline

import Questline.Proofs.Branches
import Questline.Proofs.History

/-!
# What a move concerns

Nearly every function of a session works for one run, whose number it is given.  Such a
function leaves all other runs as they are, queues jobs for no other run, hands out the
numbers of waits in order, and never makes a run wait again on a wait that was over.

* `Session.Works`: what work for a run may do to a session.
* `Move.WorksFor`: the same of a move, whose frames and control may `revive` only that run.
* `Task.begin_worksFor`, `Ask.resume_worksFor`, `Frame.receive_worksFor`,
  `Frame.recover_worksFor`: every move of a turn works for some run.
* `Turn.Does.ages`: so waits that are over stay over, whatever the host does.
-/

namespace Questline

open Json (Value)

/-! ## Waits grow old -/

/-- What every deed keeps: runs and waits are numbered on, a wait that is over stays over,
and a run that is no longer the current one waits for nothing that was waited for before. -/
structure Session.Ages (s s' : Session) : Prop where
  length_le : s.runs.length ≤ s'.runs.length
  waits_le : s.nextWait ≤ s'.nextWait
  waiting : ∀ r w, (s'.run r).isWaitingOn w →
    (s.run r).isWaitingOn w ∨ s.nextWait ≤ w ∧ w < s'.nextWait
  current : s'.current = s.current ∨
    ∃ r, s'.current = some r ∧ s.runs.length ≤ r ∧ r < s'.runs.length ∧
      ∀ p w, s.current = some p → w < s.nextWait → (s'.run p).isWaitingOn w = false

namespace Session.Ages

variable {s s' s'' : Session}

theorem refl (s : Session) : s.Ages s :=
  ⟨Nat.le_refl _, Nat.le_refl _, fun _ _ h => .inl h, .inl rfl⟩

/-- A wait that is over stays over. -/
theorem not_waiting (h : s.Ages s') {r : RunId} {w : WaitId} (hw : w < s.nextWait)
    (past : (s.run r).isWaitingOn w = false) : (s'.run r).isWaitingOn w = false := by
  cases hv : (s'.run r).isWaitingOn w with
  | false => rfl
  | true =>
    rcases h.waiting r w hv with hv | ⟨hv, -⟩
    · rw [past] at hv
      cases hv
    · exact absurd hw (Nat.not_lt_of_le hv)

theorem trans (h : s.Ages s') (g : s'.Ages s'') : s.Ages s'' where
  length_le := Nat.le_trans h.length_le g.length_le
  waits_le := Nat.le_trans h.waits_le g.waits_le
  waiting r w hw := by
    rcases g.waiting r w hw with hw | ⟨hl, hw⟩
    · rcases h.waiting r w hw with hw | ⟨hl, hw⟩
      · exact .inl hw
      · exact .inr ⟨hl, Nat.lt_of_lt_of_le hw g.waits_le⟩
    · exact .inr ⟨Nat.le_trans h.waits_le hl, hw⟩
  current := by
    rcases h.current with hh | ⟨r, hh, hr, hl, past⟩
    · rcases g.current with hg | ⟨r, hg, hr, hl, past⟩
      · exact .inl (hg.trans hh)
      · refine .inr ⟨r, hg, Nat.le_trans h.length_le hr, hl, fun p w hp hw => ?_⟩
        exact past p w (hh.trans hp) (Nat.lt_of_lt_of_le hw h.waits_le)
    · have still : ∀ p w, s.current = some p → w < s.nextWait →
          (s''.run p).isWaitingOn w = false := by
        intro p w hp hw
        exact g.not_waiting (Nat.lt_of_lt_of_le hw h.waits_le) (past p w hp hw)
      rcases g.current with hg | ⟨r', hg, hr', hl', -⟩
      · exact .inr ⟨r, hg.trans hh, hr, Nat.lt_of_lt_of_le hl g.length_le, still⟩
      · exact .inr ⟨r', hg, Nat.le_trans h.length_le hr', hl', still⟩

end Session.Ages

/-! ## Work for a run -/

/-- What work for the run `q` may do to the runs of a session. -/
structure Session.Changes (q : RunId) (s s' : Session) : Prop extends Session.Ages s s' where
  others : ∀ r, r ≠ q → s'.run r = s.run r

/-- What it may do as long as it leaves the queue alone. -/
structure Session.Works (q : RunId) (s s' : Session) : Prop extends Session.Changes q s s' where
  pending : s'.pending = s.pending

namespace Session

variable {q : RunId} {s s' s'' : Session}

theorem Changes.of_eq (runs : s'.runs = s.runs) (current : s'.current = s.current)
    (waits : s'.nextWait = s.nextWait) : s.Changes q s' where
  length_le := Nat.le_of_eq (by rw [runs])
  others r _ := by simp only [run, runs]
  waits_le := Nat.le_of_eq waits.symm
  waiting r w hw := .inl (by simpa only [run, runs] using hw)
  current := .inl current

theorem Changes.trans (h : s.Changes q s') (g : s'.Changes q s'') : s.Changes q s'' :=
  ⟨h.toAges.trans g.toAges, fun r hr => (g.others r hr).trans (h.others r hr)⟩

namespace Works

theorem refl (s : Session) : s.Works q s := ⟨⟨.refl s, fun _ _ => rfl⟩, rfl⟩

theorem trans (h : s.Works q s') (g : s'.Works q s'') : s.Works q s'' :=
  ⟨h.toChanges.trans g.toChanges, g.pending.trans h.pending⟩

/-- Changes that concern no run. -/
theorem of_eq (runs : s'.runs = s.runs) (current : s'.current = s.current)
    (waits : s'.nextWait = s.nextWait) (pending : s'.pending = s.pending) : s.Works q s' :=
  ⟨.of_eq runs current waits, pending⟩

/-- A change of the run itself, if it does not begin a wait. -/
theorem setRun {f : Run → Run} (hf : ∀ run w, (f run).isWaitingOn w → run.isWaitingOn w) :
    s.Works q (s.setRun q f) where
  length_le := by simp
  others r hr := run_setRun_of_ne hr
  waits_le := Nat.le_refl _
  waiting r w hw := by
    rw [run_setRun] at hw
    split at hw
    · exact .inl (hf _ _ hw)
    · exact .inl hw
  current := .inl rfl
  pending := rfl

end Works

end Session

/-! ## The queue -/

/-- Whether a job goes on after an answer. -/
def Job.isAnswer : Job → Bool
  | .enter _ => false
  | .respond _ _ _ | .resolve _ _ _ => true

/-- What work for the run `q` may do to the queue of a session: jobs are taken from it, a
graph is entered, or, where `P` allows it, the run goes on after an answer and waits no
longer. -/
inductive Session.Queues (P : Prop) (q : RunId) (s s' : Session) : Prop
  | kept (length_le : s'.pending.length ≤ s.pending.length) (mem : ∀ x ∈ s'.pending, x ∈ s.pending)
  | entered (graph : Graph) (h : s'.pending = s.pending ++ [(q, .enter graph)])
  | answered (job : Job) (h : s'.pending = s.pending ++ [(q, job)])
      (closed : ∀ w, (s'.run q).isWaitingOn w = false) (allowed : P)

namespace Session.Queues

variable {P Q : Prop} {q : RunId} {s s' s'' : Session}

theorem of_eq (h : s'.pending = s.pending) : s.Queues P q s' :=
  .kept (Nat.le_of_eq (by rw [h])) fun _ hx => h ▸ hx

theorem mono (h : s.Queues P q s') (hP : P → Q) : s.Queues Q q s' := by
  cases h with
  | kept length_le mem => exact .kept length_le mem
  | entered graph h => exact .entered graph h
  | answered job h closed allowed => exact .answered job h closed (hP allowed)

theorem after (h : s'.Queues P q s'') (hs : s'.pending = s.pending) : s.Queues P q s'' := by
  cases h with
  | kept length_le mem => rw [hs] at length_le mem; exact .kept length_le mem
  | entered graph h => rw [hs] at h; exact .entered graph h
  | answered job h closed allowed => rw [hs] at h; exact .answered job h closed allowed

/-- Jobs are queued for the run alone. -/
theorem mem (h : s.Queues P q s') {r : RunId} {job : Job} (hr : r ≠ q)
    (hj : (r, job) ∈ s'.pending) : (r, job) ∈ s.pending := by
  have last {job' : Job} (hj : (r, job) ∈ s.pending ++ [(q, job')]) : (r, job) ∈ s.pending := by
    rcases List.mem_append.1 hj with hj | hj
    · exact hj
    · exact absurd (Prod.mk.inj (List.mem_singleton.1 hj)).1 hr
  cases h with
  | kept _ mem => exact mem _ hj
  | entered graph h => rw [h] at hj; exact last hj
  | answered job h => rw [h] at hj; exact last hj

end Session.Queues

/-! ## Reviving -/

/-- Whether the answer to a call can bring the run `r` back to life: a link goes on, or a
figure joins it. -/
def Ask.revives (r : RunId) : Ask → Bool
  | .spawn q _ | .fillIn q _ | .handOver q _ _ _ _ => q == r
  | _ => false

/-- Whether a task is work of the run `r` itself. -/
def Task.revives (r : RunId) : Task → Bool
  | .visit q _ _ | .respond q _ _ _ | .resolve q _ _ _ | .dispatch q _ => q == r
  | .terminate q phase => q == r && phase != .stopped
  | _ => false

/-- Whether a frame goes on with the run `r` without asking whether it still goes on. -/
def Frame.revives (r : RunId) : Frame → Bool
  | .resuming q _ => q == r
  | .ending q phase => q == r && phase != .stopped
  | .asked a => a.revives r
  | _ => false

/-- Whether what comes next is work of the run `r` itself. -/
def Control.revives (r : RunId) : Control → Bool
  | .work task => task.revives r
  | .ask a => a.revives r
  | .done _ | .failed _ => false

/-- Whether a frame waits for a timer to be cancelled. -/
def Frame.isForTimer : Frame → Bool
  | .resuming _ _ | .ending _ _ => true
  | _ => false

/-- Whether a frame waits for the rest of some deliveries. -/
def Frame.isPosting : Frame → Bool
  | .posting _ => true
  | _ => false

/-- The run `q` waits for something. -/
def Session.Waits (s : Session) (q : RunId) : Prop := ∃ w, (s.run q).isWaitingOn w

/-- A move on behalf of the run `q`, from the session `s`, in which an answer is taken up
only if `P` allows it. -/
structure Move.WorksFor (P : Prop) (q : RunId) (s : Session) (m : Move) : Prop where
  session : s.Changes q m.session
  queue : s.Queues P q m.session
  frames : ∀ f ∈ m.frames, ∀ r, f.revives r → r = q
  control : ∀ r, m.control.revives r → r = q
  /-- A frame that waits for a timer is on top, and the timer is being cancelled. -/
  timer : ∀ f fs, m.frames = f :: fs → f.isForTimer → ∃ timer, m.control = .ask (.cancelTimer timer)
  noTimer : ∀ f ∈ m.frames.tail, f.isForTimer = false
  /-- A run that is to be resumed still waits. -/
  resumes : ∀ r job, .resuming r job ∈ m.frames → P ∧ m.session.Waits r
  noPosting : ∀ f ∈ m.frames, f.isPosting = false
  noEntry : ∀ e, m.control ≠ .work (.entry e)

namespace Move.WorksFor

variable {P Q : Prop} {q : RunId} {s s' : Session} {m : Move}

theorem of_frames_nil (h : s.Changes q m.session) (queue : s.Queues P q m.session)
    (frames : m.frames = []) (control : ∀ r, m.control.revives r → r = q) (noEntry : ∀ e, m.control ≠ .work (.entry e)) :
    m.WorksFor P q s where
  session := h
  queue := queue
  frames := by simp [frames]
  control := control
  noEntry := noEntry
  timer := by simp [frames]
  noTimer := by simp [frames]
  resumes := by simp [frames]
  noPosting := by simp [frames]

theorem finished (h : s.Works q s') : (Move.finished s').WorksFor P q s :=
  of_frames_nil h.toChanges (.of_eq h.pending) rfl (by simp [Move.finished, Control.revives])
    fun _ h => by cases h

theorem stepped (h : s.Works q s') (node : Node) (action : Action) :
    (Move.stepped s' node action).WorksFor P q s :=
  of_frames_nil h.toChanges (.of_eq h.pending) rfl (by simp [Move.stepped, Control.revives])
    fun _ h => by cases h

theorem failure (h : s.Works q s') (f : Fault) : (Move.failure s' f).WorksFor P q s :=
  of_frames_nil h.toChanges (.of_eq h.pending) rfl (by simp [Move.failure, Control.revives])
    fun _ h => by cases h

theorem work (h : s.Works q s') {task : Task} (ht : ∀ r, task.revives r → r = q)
    (he : ∀ e, task ≠ .entry e) : (Move.work s' task).WorksFor P q s :=
  of_frames_nil h.toChanges (.of_eq h.pending) rfl ht fun e h => he e (Control.work.inj h)

theorem ask (h : s.Works q s') {a : Ask} (ha : ∀ r, a.revives r → r = q) :
    (Move.ask s' a).WorksFor P q s :=
  of_frames_nil h.toChanges (.of_eq h.pending) rfl ha fun _ h => by cases h

/-- A frame that waits for no timer and no deliveries can be put below. -/
theorem under (h : m.WorksFor P q s) {f : Frame} (hf : ∀ r, f.revives r → r = q)
    (ht : f.isForTimer = false) (hp : f.isPosting = false) : (m.under f).WorksFor P q s where
  session := h.session
  queue := h.queue
  frames g hg := by
    rcases List.mem_append.1 hg with hg | hg
    · exact h.frames g hg
    · obtain rfl := List.mem_singleton.1 hg
      exact hf
  control := h.control
  timer g gs hg htimer := by
    simp only [Move.under] at hg
    cases hm : m.frames with
    | nil =>
      rw [hm] at hg
      obtain ⟨rfl, -⟩ := List.cons.inj hg
      rw [ht] at htimer
      cases htimer
    | cons g' gs' =>
      rw [hm] at hg
      obtain ⟨rfl, -⟩ := List.cons.inj hg
      exact h.timer _ _ hm htimer
  noTimer g hg := by
    simp only [Move.under] at hg
    cases hm : m.frames with
    | nil => simp [hm] at hg
    | cons g' gs' =>
      rw [hm, List.cons_append, List.tail_cons] at hg
      rcases List.mem_append.1 hg with hg | hg
      · exact h.noTimer g (by simpa [hm] using hg)
      · obtain rfl := List.mem_singleton.1 hg
        exact ht
  resumes r job hr := by
    rcases List.mem_append.1 hr with hr | hr
    · exact h.resumes r job hr
    · obtain rfl := List.mem_singleton.1 hr
      cases ht
  noPosting g hg := by
    rcases List.mem_append.1 hg with hg | hg
    · exact h.noPosting g hg
    · obtain rfl := List.mem_singleton.1 hg
      exact hp
  noEntry := h.noEntry

theorem mono (h : m.WorksFor P q s) (hP : P → Q) : m.WorksFor Q q s :=
  ⟨h.session, h.queue.mono hP, h.frames, h.control, h.timer, h.noTimer,
    fun r job hr => (h.resumes r job hr).imp_left hP, h.noPosting, h.noEntry⟩

/-- Work that comes after other work for the same run. -/
theorem after (h : m.WorksFor P q s') (hs : s.Works q s') : m.WorksFor P q s :=
  ⟨hs.toChanges.trans h.session, h.queue.after hs.pending, h.frames, h.control, h.timer, h.noTimer, h.resumes,
    h.noPosting, h.noEntry⟩

end Move.WorksFor

/-- A move that hands out deliveries. -/
def Move.Posts (s : Session) (m : Move) : Prop :=
  ∃ s', (∀ q, s.Works q s') ∧ ∃ ds, m = s'.post ds

/-! ## Waits under changes of a run -/

namespace Run

@[simp] theorem isWaitingOn_setTimer (run : Run) (v w : WaitId) (timer : Bool) :
    (run.setTimer v timer).isWaitingOn w = run.isWaitingOn w := by
  simp only [isWaitingOn, setTimer, Option.any_map]
  congr 1
  cases run.wait with
  | none => rfl
  | some wait =>
    by_cases h : wait.id = v
    · simp [h]
    · simp [h]

theorem not_isWaitingOn_of_wait {run : Run} (h : run.wait = none) (w : WaitId) :
    run.isWaitingOn w = false := by
  simp [isWaitingOn, h]

theorem not_isWaitingOn_of_not_isActive {run : Run} (h : run.isActive = false) (w : WaitId) :
    run.isWaitingOn w = false := by
  cases hp : run.phase <;> simp_all [isWaitingOn, isActive, Phase.isActive]

end Run

/-! ## Every function works for its run -/

namespace Session

variable (s : Session) (q : RunId)

/-! ### Visits -/

theorem follow_worksFor (node : Node) (output : Int) (graph : Graph) :
    (s.follow q node output graph).WorksFor False q s := by
  rw [follow_eq]
  exact .stepped (.setRun (by exact fun _ _ h => h)) _ _

theorem report_worksFor (warnings : List Warning) : (s.report q warnings).WorksFor False q s := by
  cases warnings with
  | nil => exact .finished (.refl s)
  | cons w ws => exact .ask (.setRun (by exact fun _ _ h => h)) (by simp [Ask.revives])

theorem perform_worksFor (effect : Effect) : (s.perform q effect).WorksFor False q s := by
  cases effect with
  | world event => exact .ask (.refl s) (by simp [Ask.revives])
  | setFlag name value =>
    have h (flags : FlagStore) (files : FileTree) : s.Works q { s with flags, files } :=
      .of_eq rfl rfl rfl rfl
    simp only [perform]
    split
    · exact .finished (h _ _)
    · exact .failure (h _ _) _
  | spawn request => exact .ask (.refl s) fun _ h => (beq_iff_eq.1 h).symm
  | remove npc => exact .ask (.refl s) (by simp [Ask.revives])

theorem dispatch_worksFor (t : Trigger) : (s.dispatch q t).WorksFor False q s := by
  unfold dispatch
  split
  · exact perform_worksFor s q _
  · exact .failure (.refl s) _

theorem applyItem_worksFor (node : String) (i : ItemChange) :
    (s.applyItem q node i).WorksFor False q s := by
  unfold applyItem
  split
  · exact .ask (.refl s) (by simp [Ask.revives])
  · exact .ask (.refl s) (by simp [Ask.revives])
  · exact .ask (.refl s) (by simp [Ask.revives])

theorem check_worksFor (node : Node) (c : Condition) (graph : Graph) :
    (s.check q node c graph).WorksFor False q s := by
  unfold check
  split
  · exact follow_worksFor s q _ _ _
  · exact .ask (.refl s) (by simp [Ask.revives])
  · exact .ask (.refl s) (by simp [Ask.revives])

theorem visit_worksFor (node : Node) (graph : Graph) : (s.visit q node graph).WorksFor False q s := by
  have h : s.Works q (s.setRun q fun run =>
      { run.count node.kind.word with node := some node.id, activity := .running }) :=
    .setRun fun _ _ h => h
  unfold visit
  cases node.body with
  | dialogue d => exact ((report_worksFor _ q _).under (by simp [Frame.revives]) rfl rfl).after h
  | choice c => exact ((report_worksFor _ q _).under (by simp [Frame.revives]) rfl rfl).after h
  | image i => exact .stepped h _ _
  | item i => exact ((applyItem_worksFor _ q _ _).under (by simp [Frame.revives]) rfl rfl).after h
  | trigger t => exact ((dispatch_worksFor _ q _).under (by simp [Frame.revives]) rfl rfl).after h
  | condition c => exact (check_worksFor _ q _ _ _).after h
  | combat opponent => exact .stepped h _ _
  | link l => exact .stepped h _ _
  | ending => exact .stepped h _ _

theorem respond_worksFor (node : Node) (graph : Graph) (answer : Value) :
    (s.respond q node graph answer).WorksFor False q s := by
  unfold respond
  split
  · split
    case h_1 pick _ =>
      have h : s.Works q (s.setRun q fun run =>
          { run with ledger := run.ledger.put node.id pick }) := .setRun fun _ _ h => h
      cases pick with
      | option i => exact (follow_worksFor _ q _ _ _).after h
      | fraction x => exact .failure h _
    · exact .failure (.refl s) _
  · exact follow_worksFor s q _ _ _

theorem resolve_worksFor (node : Node) (graph : Graph) (outcome : Value) :
    (s.resolve q node graph outcome).WorksFor False q s := by
  unfold resolve
  split
  · exact follow_worksFor s q _ _ _
  · exact follow_worksFor s q _ _ _
  · exact .failure (.refl s) _

/-! ### The queue -/

theorem enqueue_worksFor {P : Prop} {job : Job}
    (queue : ∀ draining, s.Queues P q { s with pending := s.pending ++ [(q, job)], draining }) :
    (s.enqueue q job).WorksFor P q s := by
  have finished (draining : Bool) :
      (Move.finished { s with pending := s.pending ++ [(q, job)], draining }).WorksFor P q s :=
    .of_frames_nil (.of_eq rfl rfl rfl) (queue draining) rfl
      (by simp [Move.finished, Control.revives]) (by simp [Move.finished])
  simp only [enqueue]
  split
  · exact finished s.draining
  · exact (finished true).under (by simp [Frame.revives]) rfl rfl

theorem drain_worksFor : s.drain.WorksFor False q s := by
  unfold drain
  split
  · exact .finished (.of_eq rfl rfl rfl rfl)
  case h_2 r job rest h =>
    have queue : s.Queues False q { s with pending := rest } := by
      refine .kept ?_ fun _ hj => ?_
      · rw [h]
        exact Nat.le_succ _
      · rw [h]
        exact List.mem_cons_of_mem _ hj
    have work : (Move.work { s with pending := rest } (.drive r job)).WorksFor False q s :=
      .of_frames_nil (.of_eq rfl rfl rfl) queue rfl
        (by simp [Move.work, Control.revives, Task.revives]) (by simp [Move.work])
    exact work.under (by simp [Frame.revives]) rfl rfl

theorem taskOf_revives {q r : RunId} {job : Job} (h : (taskOf q job).revives r) : r = q := by
  cases job <;> simp_all [taskOf, Task.revives]

theorem drive_worksFor (job : Job) : (s.drive q job).WorksFor False q s := by
  unfold drive
  split
  · exact (Move.WorksFor.work (.refl s) (fun _ h => taskOf_revives h) (by cases job <;> simp [taskOf])).under
      (by simp [Frame.revives]) rfl rfl
  · exact .finished (.refl s)

/-! ### Resuming -/

theorem isWaitingOn_setRun_of_wait {f : Run → Run} (hf : ∀ run, (f run).wait = none) (w : WaitId) :
    ((s.setRun q f).run q).isWaitingOn w = false := by
  by_cases hq : q < s.runs.length
  · rw [run_setRun_self hq]
    exact Run.not_isWaitingOn_of_wait (hf _) w
  · rw [run_of_length_le (by simpa using Nat.le_of_not_lt hq)]
    rfl

theorem resume_worksFor {P : Prop} (job : Job) (allowed : P) : (s.resume q job).WorksFor P q s := by
  refine Move.WorksFor.after (enqueue_worksFor _ q fun _ => ?_) (.setRun fun run w h => ?_)
  · exact .answered job rfl (isWaitingOn_setRun_of_wait s q fun _ => rfl) allowed
  · rw [Run.not_isWaitingOn_of_wait rfl] at h
    cases h

theorem waits_setTimer {s : Session} {q r : RunId} {w : WaitId} {timer : Bool} (h : s.Waits r) :
    (s.setRun q (·.setTimer w timer)).Waits r := by
  obtain ⟨v, h⟩ := h
  refine ⟨v, ?_⟩
  rw [run_setRun]
  split
  · rw [Run.isWaitingOn_setTimer, h]
  · exact h

theorem withoutTimer_worksFor {P : Prop} {frame : Frame} {go : Session → Move}
    (hf : ∀ r, frame.revives r → r = q) (hp : frame.isPosting = false)
    (hr : ∀ r job, frame = .resuming r job → P ∧ s.Waits r) (hgo : (go s).WorksFor P q s) :
    (s.withoutTimer q frame go).WorksFor P q s := by
  rcases s.withoutTimer_cases q frame go with ⟨wait, -, -, hm⟩ | ⟨-, hm⟩
  · rw [hm]
    have works : s.Works q (s.setRun q (·.setTimer wait.id false)) :=
      .setRun fun run w h => by simpa using h
    refine ⟨works.toChanges, .of_eq works.pending, ?_, ?_, ?_, ?_, ?_, ?_, fun _ h => by cases h⟩
    · intro f hm
      obtain rfl := List.mem_singleton.1 hm
      exact hf
    · intro r h
      cases h
    · intro _ _ _ _
      exact ⟨_, rfl⟩
    · intro f hm
      cases hm
    · intro r job hm
      exact (hr r job (List.mem_singleton.1 hm).symm).imp_right waits_setTimer
    · intro f hm
      obtain rfl := List.mem_singleton.1 hm
      exact hp
  · rw [hm]
    exact hgo

theorem clear_worksFor (job : Job) (waits : s.Waits q) :
    (s.clear q job).WorksFor (s.Waits q) q s := by
  refine withoutTimer_worksFor s q (fun _ h => (beq_iff_eq.1 h).symm) rfl ?_
    (resume_worksFor s q job waits)
  intro r job h
  cases h
  exact ⟨waits, waits⟩

theorem resumeInput_worksFor (wait : Wait) (answer : Value) (waits : s.Waits q) :
    (s.resumeInput q wait answer).WorksFor (s.Waits q) q s := by
  rcases s.resumeInput_cases q wait answer with ⟨f, h⟩ | ⟨graph, node, -, -, h⟩
  · rw [h]
    exact .failure (.refl s) f
  · rw [h]
    exact clear_worksFor s q _ waits

/-! ### The end of a run -/

theorem announce_worksFor (completion : Option Callback) (ledger : Ledger) :
    (s.announce completion ledger).WorksFor False q s := by
  cases completion with
  | none => exact .finished (.refl s)
  | some callback => exact .ask (.refl s) (by simp [Ask.revives])

theorem dismiss_worksFor (npcs : List String) : (s.dismiss q npcs).WorksFor False q s := by
  cases npcs with
  | nil => exact .finished (.setRun (by exact fun _ _ h => h))
  | cons npc rest => exact .ask (.refl s) (by simp [Ask.revives])

theorem works_ended (phase : Phase) : s.Works q (s.ended q phase) := by
  have past : s.Works q (s.setRun q (Run.ended phase)) := by
    refine .setRun fun run w h => ?_
    rw [Run.not_isWaitingOn_of_wait rfl] at h
    cases h
  exact past.trans (.of_eq rfl rfl rfl rfl)

theorem close_worksFor (phase : Phase) : (s.close q phase).WorksFor False q s := by
  rw [close_eq]
  split
  · exact ((dismiss_worksFor _ q _).under (by simp [Frame.revives]) rfl rfl).after (works_ended s q phase)
  · exact (announce_worksFor _ q _ _).after (works_ended s q phase)

theorem terminate_worksFor (phase : Phase) : (s.terminate q phase).WorksFor False q s :=
  withoutTimer_worksFor s q (fun _ h => (beq_iff_eq.1 (Bool.and_eq_true_iff.1 h).1).symm) rfl
    (fun _ _ h => by cases h) (close_worksFor s q phase)

theorem stopIfActive_worksFor : (s.stopIfActive q).WorksFor False q s := by
  unfold stopIfActive
  split
  · exact .work (.refl s) (by simp [Task.revives]) (by simp)
  · exact .finished (.refl s)

theorem stop_worksFor : ∃ q, s.stop.WorksFor False q s := by
  rcases s.stop_cases with h | ⟨r, -, -, h⟩
  · exact ⟨0, h ▸ .finished (.refl s)⟩
  · exact ⟨r, h ▸ terminate_worksFor s r _⟩

/-! ### Links -/

theorem install_worksFor (graph : Graph) : (s.install q graph).WorksFor False q s := by
  have h : s.Works q (s.setRun q (Run.moved graph)) := by
    refine .setRun fun run w h => ?_
    simp [Run.moved, Run.isWaitingOn] at h
  rw [install_eq]
  exact (enqueue_worksFor _ q fun _ => .entered graph rfl).after (h.trans (.of_eq rfl rfl rfl rfl))

theorem loadTarget_worksFor (link : Link) : (s.loadTarget q link).WorksFor False q s := by
  rcases s.loadTarget_cases q link with ⟨f, h⟩ | ⟨graph, -, h | h⟩
  · rw [h]
    exact .failure (.refl s) f
  · rw [h]
    exact .ask (.refl s) fun _ h => (beq_iff_eq.1 h).symm
  · rw [h]
    exact install_worksFor s q graph

theorem afterWrite_worksFor (link : Link) (outcome : WriteOutcome) :
    (s.afterWrite q link outcome).WorksFor False q s := by
  cases outcome with
  | written => exact loadTarget_worksFor s q link
  | failed reason => exact .failure (.refl s) _
  | cancelled => exact .failure (.refl s) _

/-- Suspending a run gives it a wait that no run had before. -/
theorem works_suspend (kind : WaitKind) (node : String) :
    s.Works q (s.suspend q kind node) where
  length_le := Nat.le_of_eq (by simp [suspend])
  others r hr := run_setRun_of_ne hr
  waits_le := Nat.le_succ _
  waiting r w h := by
    have hrun : (s.suspend q kind node).run r = (s.setRun q fun run => { run with
        wait := some { id := s.nextWait, kind, node }
        phase := .suspended
        activity := kind.activity }).run r := rfl
    rw [hrun, run_setRun] at h
    split at h
    · right
      simp only [Run.isWaitingOn, Option.any_some, beq_iff_eq, Bool.and_eq_true] at h
      rw [← h.2]
      exact ⟨Nat.le_refl _, Nat.lt_succ_self _⟩
    · exact .inl h
  current := .inl rfl
  pending := rfl

theorem afterHandOver_worksFor (node : String) (link : Link) (receipt : Receipt) :
    (s.afterHandOver q node link receipt).WorksFor False q s := by
  cases receipt with
  | plain => exact loadTarget_worksFor s q link
  | finished outcome => exact afterWrite_worksFor s q link outcome
  | pending ticket =>
    exact .finished ((works_suspend s q .link node).trans (.of_eq rfl rfl rfl rfl))

theorem transfer_worksFor (node : String) (link : Link) :
    (s.transfer q node link).WorksFor False q s := by
  unfold transfer
  split
  · exact loadTarget_worksFor s q link
  · exact .ask (.setRun (by exact fun _ _ h => h)) fun _ h => (beq_iff_eq.1 h).symm

/-! ### Coming to rest -/

theorem pause_worksFor (node : Node) (scene : Scene) : (s.pause q node scene).WorksFor False q s := by
  refine Move.WorksFor.after ?_ (works_suspend s q scene.kind node.id)
  unfold pause
  split
  · exact .ask (.refl _) (by simp [Ask.revives])
  · exact (Move.WorksFor.ask (.refl _) (by simp [Ask.revives])).under (by simp [Frame.revives]) rfl rfl
  · exact .ask (.refl _) (by simp [Ask.revives])

theorem settle_worksFor (step : Step) : (s.settle q step).WorksFor False q s := by
  unfold settle
  split
  · exact .finished (.refl s)
  · exact pause_worksFor s q _ _
  · exact transfer_worksFor s q _ _
  · exact terminate_worksFor s q _
  · exact terminate_worksFor s q _

theorem proceed_worksFor (step : Step) : (s.proceed q step).WorksFor False q s := by
  have driving {m : Move} (h : m.WorksFor False q s) : (m.under (.driving q)).WorksFor False q s :=
    h.under (by simp [Frame.revives]) rfl rfl
  rcases s.proceed_cases q step with ⟨-, h⟩ | ⟨-, ⟨f, h⟩ | ⟨node, graph, -, -, h⟩ | ⟨-, h⟩⟩
  · rw [h]
    exact .finished (.refl s)
  · rw [h]
    exact driving (.failure (.refl s) f)
  · rw [h]
    exact driving (.work (.refl s) (fun _ h => (beq_iff_eq.1 h).symm) (by simp))
  · rw [h]
    exact driving (settle_worksFor s q step)

/-! ### Entries -/

/-- A new run concerns itself alone, if the run before it is over. -/
theorem works_addRun (run : Run) (h : run.wait = none) (idle : s.IsIdle) :
    s.Works s.runs.length (s.addRun run) where
  length_le := by simp
  others _ hr := run_addRun_of_ne run hr
  waits_le := Nat.le_refl _
  waiting r w hw := by
    by_cases hr : r = s.runs.length
    · subst hr
      rw [run_addRun_length, Run.not_isWaitingOn_of_wait h] at hw
      cases hw
    · rw [run_addRun_of_ne run hr] at hw
      exact .inl hw
  current := by
    refine .inr ⟨_, rfl, Nat.le_refl _, by simp, fun p w hp _ => ?_⟩
    by_cases hlast : p = s.runs.length
    · subst hlast
      rw [run_addRun_length]
      exact Run.not_isWaitingOn_of_wait h w
    · rw [run_addRun_of_ne run hlast]
      exact Run.not_isWaitingOn_of_not_isActive (idle p hp) w
  pending := rfl

theorem startGraph_worksFor (graph : Graph) (completion : Option Callback) :
    (s.startGraph graph completion).WorksFor False s.runs.length s := by
  rcases s.startGraph_cases graph completion with ⟨f, h⟩ | ⟨idle, h⟩
  · rw [h]
    exact .failure (.refl s) f
  · rw [h]
    have opened : s.Works s.runs.length (s.opened graph completion) :=
      (works_addRun s _ rfl idle).trans (.of_eq rfl rfl rfl rfl)
    exact (enqueue_worksFor _ _ fun _ => .entered graph rfl).after opened

theorem start_worksFor (script : String) (completion : Option Callback) :
    ∃ q, (s.start script completion).WorksFor False q s := by
  rcases s.start_cases script completion with ⟨f, h⟩ | ⟨-, ⟨graph, -, h⟩ | ⟨f, -, h⟩⟩
  · exact ⟨0, h ▸ .failure (.refl s) f⟩
  · exact ⟨_, h ▸ startGraph_worksFor s graph completion⟩
  · obtain ⟨q, hq⟩ := stop_worksFor { s with lastError := some (.data f) }
    exact ⟨q, h ▸ (hq.under (by simp [Frame.revives]) rfl rfl).after (.of_eq rfl rfl rfl rfl)⟩

theorem advance_worksFor (answer : Value) :
    ∃ q, (s.advance answer).WorksFor (s.Waits q) q s := by
  rcases s.advance_cases answer with ⟨f, h⟩ | ⟨q, wait, -, hp, hw, -, -, h⟩
  · exact ⟨0, h ▸ .failure (.refl s) f⟩
  · exact ⟨q, h ▸ resumeInput_worksFor s q wait answer ⟨wait.id, by simp [Run.isWaitingOn, hp, hw]⟩⟩

theorem battleOver_worksFor (battle : BattleHandle) (outcome : Value) :
    (s.battleOver battle outcome).WorksFor (s.Waits battle.run) battle.run s := by
  rcases s.battleOver_cases battle outcome with ⟨-, h⟩ | ⟨waits, ⟨f, h⟩ | ⟨graph, -, h⟩⟩
  · rw [h]
    exact .finished (.refl s)
  · rw [h]
    exact .failure (.refl s) f
  · rw [h]
    exact clear_worksFor s _ _ ⟨battle.wait, (Bool.and_eq_true_iff.1 waits).2⟩

theorem timeUp_worksFor (timer : TimerHandle) :
    (s.timeUp timer).WorksFor (s.Waits timer.run) timer.run s := by
  have works : s.Works timer.run (s.setRun timer.run (·.setTimer timer.wait false)) :=
    .setRun fun run w h => by simpa using h
  rcases s.timeUp_cases timer with ⟨-, h⟩ | ⟨waits, wait, -, -, h⟩
  · rw [h]
    exact .finished (.refl s)
  · rw [h]
    have waits : s.Waits timer.run := ⟨timer.wait, (Bool.and_eq_true_iff.1 waits).2⟩
    exact ((resumeInput_worksFor _ _ _ _ (waits_setTimer waits)).mono fun _ => waits).after works

theorem deliver_worksFor (d : Delivery) : (s.deliver d).WorksFor False d.handle.run s := by
  have h : s.Works d.handle.run (s.setRun d.handle.run fun run => { run with wait := none }) :=
    .setRun fun run w h => by
      rw [Run.not_isWaitingOn_of_wait rfl] at h
      cases h
  rcases s.deliver_cases d with ⟨-, hm⟩ | ⟨-, hm⟩
  · rw [hm]
    exact .finished (.refl s)
  · rw [hm]
    exact ((afterWrite_worksFor _ _ _ _).under (by simp [Frame.revives]) rfl rfl).after h

theorem settleWrite_posts (ticket : Ticket) (outcome : WriteOutcome) :
    (s.settleWrite ticket outcome).Posts s :=
  ⟨{ s with writes := s.writes.filter fun w => w.1 != ticket },
    fun _ => .of_eq rfl rfl rfl rfl, _, rfl⟩

theorem enter_worksFor (entry : Entry) :
    (∃ q, (s.enter entry).WorksFor (s.Waits q) q s) ∨ (s.enter entry).Posts s := by
  cases entry with
  | start script completion =>
    obtain ⟨q, h⟩ := start_worksFor s script completion
    exact .inl ⟨q, h.mono False.elim⟩
  | startGraph graph completion =>
    exact .inl ⟨_, (startGraph_worksFor s graph completion).mono False.elim⟩
  | advance answer => exact .inl (advance_worksFor s answer)
  | stop =>
    obtain ⟨q, h⟩ := stop_worksFor s
    exact .inl ⟨q, h.mono False.elim⟩
  | battleOver battle outcome => exact .inl ⟨_, battleOver_worksFor s battle outcome⟩
  | timeUp timer => exact .inl ⟨_, timeUp_worksFor s timer⟩
  | written delivery => exact .inl ⟨_, (deliver_worksFor s delivery).mono False.elim⟩
  | settle ticket outcome => exact .inr (settleWrite_posts s ticket outcome)

end Session

/-! ## Every move works for a run -/

section Moves

variable (s : Session)

theorem Task.begin_worksFor (task : Task) (h : ∀ e, task ≠ .entry e) :
    ∃ q, (task.begin s).WorksFor False q s := by
  cases task with
  | entry e => exact absurd rfl (h e)
  | drive r job => exact ⟨r, s.drive_worksFor r job⟩
  | visit r node graph => exact ⟨r, s.visit_worksFor r node graph⟩
  | respond r node graph answer => exact ⟨r, s.respond_worksFor r node graph answer⟩
  | resolve r node graph outcome => exact ⟨r, s.resolve_worksFor r node graph outcome⟩
  | follow r node output graph => exact ⟨r, s.follow_worksFor r node output graph⟩
  | dispatch r trigger => exact ⟨r, s.dispatch_worksFor r trigger⟩
  | report r warnings => exact ⟨r, s.report_worksFor r warnings⟩
  | engage card => exact ⟨0, .ask (.refl s) (by simp [Ask.revives])⟩
  | terminate r phase => exact ⟨r, s.terminate_worksFor r phase⟩

theorem Ask.resume_worksFor (a : Ask) (answer : a.call.Reply) :
    ∃ q, (a.resume s answer).WorksFor False q s := by
  cases a with
  | startTimer seconds timer =>
    refine ⟨timer.run, .finished ?_⟩
    split
    · exact .setRun fun run w h => by simpa using h
    · exact .refl s
  | take r node item amount =>
    refine ⟨r, ?_⟩
    simp only [resume]
    split
    · exact .finished (.refl s)
    · exact s.report_worksFor r _
  | count r node condition graph => exact ⟨r, s.follow_worksFor r node _ graph⟩
  | spawn r request => exact ⟨r, .finished (.setRun (by exact fun _ _ h => h))⟩
  | remove r npc => exact ⟨r, .finished (.setRun (by exact fun _ _ h => h))⟩
  | fillIn r graph => exact ⟨r, s.install_worksFor r _⟩
  | report r warning rest => exact ⟨r, s.report_worksFor r rest⟩
  | dismiss r npc rest => exact ⟨r, s.dismiss_worksFor r rest⟩
  | handOver r node link callback ledger => exact ⟨r, s.afterHandOver_worksFor r node link answer⟩
  | engage | cancelTimer | deliver | give | battle | world | announce =>
    exact ⟨0, .finished (.refl s)⟩

/-- An answer is taken up by the frame that waits for the timer alone. -/
theorem Frame.receive_worksFor (frame : Frame) (result : Result) (h : ∀ a, frame ≠ .asked a)
    (hp : frame.isPosting = false) :
    ∃ q, (frame.receive s result).WorksFor (∃ job, frame = .resuming q job) q s := by
  by_cases hr : ∃ r job, frame = .resuming r job
  · obtain ⟨r, job, rfl⟩ := hr
    exact ⟨r, s.resume_worksFor r job ⟨job, rfl⟩⟩
  suffices hs : ∃ q, (frame.receive s result).WorksFor False q s by
    obtain ⟨q, hs⟩ := hs
    exact ⟨q, hs.mono False.elim⟩
  cases frame with
  | draining => exact ⟨0, s.drain_worksFor 0⟩
  | driving r =>
    cases result with
    | stepped step => exact ⟨r, s.proceed_worksFor r step⟩
    | done => exact ⟨r, .finished (.refl s)⟩
  | failing f => exact ⟨0, .failure (.refl s) f⟩
  | triggering r node graph => exact ⟨r, s.follow_worksFor r node _ graph⟩
  | following r node output graph => exact ⟨r, s.follow_worksFor r node output graph⟩
  | stepping step => exact ⟨0, .stepped (.refl s) _ _⟩
  | timing r wait seconds =>
    refine ⟨r, ?_⟩
    simp only [receive]
    split
    · exact .ask (.refl s) (by simp [Ask.revives])
    · exact .finished (.refl s)
  | resuming r job => exact absurd ⟨r, job, rfl⟩ hr
  | ending r phase => exact ⟨r, s.close_worksFor r phase⟩
  | announcing completion ledger => exact ⟨0, s.announce_worksFor 0 completion ledger⟩
  | linking r => exact ⟨r, .finished (.refl s)⟩
  | posting rest => cases hp
  | asked a => exact absurd rfl (h a)

theorem Frame.recover_worksFor (frame : Frame) (f : Fault) (hp : frame.isPosting = false) :
    ∃ q, (frame.recover s f).WorksFor False q s := by
  have noted (r : RunId) : s.Works r { s with lastError := some f } :=
    .of_eq rfl rfl rfl rfl
  cases frame with
  | draining =>
    exact ⟨0, .of_frames_nil (.of_eq rfl rfl rfl)
      (.kept (Nat.zero_le _) fun _ h => absurd h List.not_mem_nil) rfl
      (by simp [recover, Move.failure, Control.revives]) (by simp [recover, Move.failure])⟩
  | driving r =>
    exact ⟨r, ((Session.stopIfActive_worksFor _ r).under (by simp [Frame.revives]) rfl rfl).after
      (noted r)⟩
  | triggering r node graph =>
    refine ⟨r, ?_⟩
    simp only [recover]
    split
    · exact (s.report_worksFor r _).under (by simp [Frame.revives]) rfl rfl
    · exact .failure (.refl s) _
  | linking r =>
    refine ⟨r, ?_⟩
    cases f with
    | link f => exact (Session.stopIfActive_worksFor _ r).after (noted r)
    | _ => exact .failure (.refl s) _
  | posting rest => cases hp
  | failing | following | stepping | timing | resuming | ending | announcing | asked =>
    exact ⟨0, .failure (.refl s) f⟩

end Moves

/-! ## Every deed ages the session -/

theorem Session.works_post (s : Session) (q : RunId) (ds : List Delivery) :
    s.Works q (s.post ds).session := by
  cases ds <;> exact .refl s

theorem Move.Posts.works {s : Session} {m : Move} (h : m.Posts s) (q : RunId) :
    s.Works q m.session := by
  obtain ⟨s', h, ds, rfl⟩ := h
  exact (h q).trans (s'.works_post q ds)

/-- **Every deed ages the session.** -/
theorem Turn.Does.ages {t u : Turn} {d : Deed} (h : t.Does d u) : t.session.Ages u.session := by
  have post (s : Session) (ds : List Delivery) : s.Ages (s.post ds).session :=
    (s.works_post 0 ds).toAges
  cases h with
  | work task =>
    by_cases he : ∃ e, task = .entry e
    · obtain ⟨e, rfl⟩ := he
      rcases Session.enter_worksFor _ e with ⟨q, h⟩ | h
      · exact h.session.toAges
      · exact (h.works 0).toAges
    · obtain ⟨q, h⟩ := Task.begin_worksFor _ task fun e h => he ⟨e, h⟩
      exact h.session.toAges
  | @receive s frame stack result h =>
    cases hp : frame.isPosting with
    | true =>
      cases frame <;> cases hp
      exact post s _
    | false =>
      obtain ⟨q, h⟩ := Frame.receive_worksFor s frame result h hp
      exact h.session.toAges
  | @recover s frame stack fault h =>
    cases hp : frame.isPosting with
    | true =>
      cases frame <;> cases hp
      exact post s _
    | false =>
      obtain ⟨q, h⟩ := Frame.recover_worksFor s frame fault hp
      exact h.session.toAges
  | @reply s stack a answer =>
    obtain ⟨q, h⟩ := Ask.resume_worksFor s a answer
    exact h.session.toAges
  | beginAtRest | beginInside | leave | fail => exact .refl _
  | change => exact ⟨Nat.le_refl _, Nat.le_refl _, fun _ _ h => .inl h, .inl rfl⟩

theorem Turn.Leads.ages {may : Turn → Deed → Prop} {t u : Turn} (h : t.Leads may u) :
    t.session.Ages u.session := by
  obtain ⟨events, h⟩ := h
  exact h.induct (P := fun v => t.session.Ages v.session) (.refl _)
    fun ih _ does => ih.trans does.ages

end Questline

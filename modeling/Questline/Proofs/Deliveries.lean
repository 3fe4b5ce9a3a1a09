import Questline.Proofs.Accounts
import Questline.Proofs.Prediction

/-!
# Deliveries

At a link the host may have the answers of the run written down first.  Then the run waits, and the
write is filed with the link.  When the write is over its end is handed back to the host, for every
link that waits for it, and the host delivers it, now or later, once or more often.

So what is delivered is the end that the write came to first after the run began to wait; and before
that nothing is delivered at all.

* `Session.Tidy`: only a run that is suspended has a wait.
* `Move.Steady`: a move that files no write and hands back none; every function but three is steady.
* `Event.files`, `Event.settles?`, `settled?`: a write is filed with a link, and is over.
* `History.filing`: what is handed back to the host is the end of a write.
-/

namespace Questline

open Json (Value)

/-! ## Steady moves -/

/-- A run that is not suspended has no wait. -/
def Run.IsTidy (run : Run) : Prop := run.phase ≠ .suspended → run.wait = none

/-- Only runs that are suspended have a wait. -/
def Session.Tidy (s : Session) : Prop := ∀ r, (s.run r).IsTidy

/-- The ends of writes that a call hands back, or a frame. -/
def Frame.posts : Frame → List Delivery
  | .posting ds => ds
  | .asked (.deliver d) => [d]
  | _ => []

/-- The ends of writes that are handed back next. -/
def Control.posts : Control → List Delivery
  | .ask (.deliver d) => [d]
  | _ => []

theorem Frame.posts_asked (a : Ask) : (Frame.asked a).posts = (Control.ask a).posts := by
  cases a <;> rfl

/-- The run that visits a node next, or hands its answers over at a link. -/
def Control.comesTo? : Control → Option RunId
  | .work (.visit r _ _) | .ask (.handOver r _ _ _ _) => some r
  | _ => none

/-- The session `s'` has the writes that are filed in `s`, and is tidy if `s` is. -/
structure Session.Steady (s s' : Session) : Prop where
  writes : s'.writes = s.writes
  tidy : s.Tidy → s'.Tidy

/-- A move that files no write and hands back none.  A node is visited next, or answers are handed
over, only if a run that is driven goes on. -/
structure Move.Steady (s : Session) (m : Move) : Prop where
  session : s.Steady m.session
  posts : m.control.posts = []
  frames : ∀ f ∈ m.frames, f.posts = []
  visits : ∀ r, m.control.comesTo? = some r →
    m.frames.head? = some (.driving r) ∧ m.session.owns r

section

variable {s s' s'' : Session} {q : RunId} {m : Move} {f : Frame}

namespace Session.Steady

theorem refl (s : Session) : s.Steady s := ⟨rfl, id⟩

theorem trans (h : s.Steady s') (g : s'.Steady s'') : s.Steady s'' :=
  ⟨g.writes.trans h.writes, fun tidy => g.tidy (h.tidy tidy)⟩

theorem of_runs (writes : s'.writes = s.writes) (runs : s'.runs = s.runs) : s.Steady s' :=
  ⟨writes, fun tidy r => by simpa only [run, runs] using tidy r⟩

theorem setRun_self {f : Run → Run} (h : (s.run q).IsTidy → (f (s.run q)).IsTidy) :
    s.Steady (s.setRun q f) := by
  refine ⟨rfl, fun tidy r => ?_⟩
  rw [run_setRun]
  split
  case isTrue hr => exact hr.1 ▸ h (tidy q)
  case isFalse => exact tidy r

theorem setRun {f : Run → Run} (h : ∀ run, run.IsTidy → (f run).IsTidy) :
    s.Steady (s.setRun q f) := setRun_self (h _)

theorem setTimer (w : WaitId) (timer : Bool) : s.Steady (s.setRun q (·.setTimer w timer)) :=
  setRun fun run tidy phase => by
    have none : run.wait = none := tidy phase
    simp [Run.setTimer, none]

theorem addRun {run : Run} (h : run.wait = none) : s.Steady (s.addRun run) := by
  refine ⟨rfl, fun tidy r => ?_⟩
  by_cases hr : r = s.runs.length
  · rw [hr, run_addRun_length]
    exact fun _ => h
  · rw [run_addRun_of_ne _ hr]
    exact tidy r

theorem suspend (kind : WaitKind) (node : String) : s.Steady (s.suspend q kind node) := by
  have suspended : s.Steady (s.setRun q fun run => { run with
      wait := some { id := s.nextWait, kind, node }, phase := .suspended,
      activity := kind.activity }) := setRun fun _ _ phase => absurd rfl phase
  exact suspended.trans (.of_runs rfl rfl)

end Session.Steady

namespace Move.Steady

theorem of_nil (h : s.Steady m.session) (frames : m.frames = []) (posts : m.control.posts = [])
    (visit : m.control.comesTo? = none) : m.Steady s := by
  refine ⟨h, posts, by simp [frames], fun r hc => ?_⟩
  rw [hc] at visit
  cases visit

theorem finished (h : s.Steady s') : (Move.finished s').Steady s := .of_nil h rfl rfl rfl

theorem failure (h : s.Steady s') (fault : Fault) : (Move.failure s' fault).Steady s :=
  .of_nil h rfl rfl rfl

theorem stepped (h : s.Steady s') (node : Node) (action : Action) :
    (Move.stepped s' node action).Steady s := .of_nil h rfl rfl rfl

theorem ask (h : s.Steady s') {a : Ask} (posts : (Control.ask a).posts = [])
    (visit : (Control.ask a).comesTo? = none) : (Move.ask s' a).Steady s := .of_nil h rfl posts visit

theorem under (h : m.Steady s) (hf : f.posts = []) : (m.under f).Steady s where
  session := h.session
  posts := h.posts
  frames g hg := by
    rcases List.mem_append.1 hg with hg | hg
    · exact h.frames g hg
    · exact List.mem_singleton.1 hg ▸ hf
  visits r hc := by
    obtain ⟨driven, owns⟩ := h.visits r hc
    exact ⟨by simp [Move.under, driven], owns⟩

theorem after (h : m.Steady s') (hs : s.Steady s') : m.Steady s :=
  ⟨hs.trans h.session, h.posts, h.frames, h.visits⟩

/-- A run that is driven, and goes on, comes to a node or to the link there. -/
theorem driven (h : s.Steady m.session) (frames : m.frames = []) (posts : m.control.posts = [])
    (visit : m.control.comesTo? = some q) (owns : m.session.owns q) :
    (m.under (.driving q)).Steady s where
  session := h
  posts := posts
  frames g hg := by
    rw [Move.under, frames] at hg
    exact List.mem_singleton.1 hg ▸ rfl
  visits r hc := by
    obtain rfl : q = r := Option.some.inj (visit.symm.trans hc)
    exact ⟨by simp [Move.under, frames], owns⟩

end Move.Steady

end

/-! ### Every function but three is steady -/

namespace Session

variable (s : Session) {q : RunId}

theorem follow_steady (node : Node) (output : Int) (graph : Graph) :
    (s.follow q node output graph).Steady s := by
  rw [follow_eq]
  exact .stepped (.setRun (by exact fun _ h => h)) _ _

theorem report_steady (ws : List Warning) : (s.report q ws).Steady s := by
  cases ws with
  | nil => exact .finished (.refl s)
  | cons w ws => exact .ask (.setRun (by exact fun _ h => h)) rfl rfl

theorem dispatch_steady (t : Trigger) : (s.dispatch q t).Steady s := by
  unfold dispatch perform
  split
  · split
    · exact .ask (.refl s) rfl rfl
    · split
      · exact .finished (.of_runs (by exact rfl) (by exact rfl))
      · exact .failure (.of_runs (by exact rfl) (by exact rfl)) _
    · exact .ask (.refl s) rfl rfl
    · exact .ask (.refl s) rfl rfl
  · exact .failure (.refl s) _

theorem applyItem_steady (node : String) (i : ItemChange) : (s.applyItem q node i).Steady s := by
  unfold applyItem
  split <;> exact .ask (.refl s) rfl rfl

theorem check_steady (node : Node) (c : Condition) (graph : Graph) :
    (s.check q node c graph).Steady s := by
  unfold check
  split
  · exact follow_steady s _ _ _
  · exact .ask (.refl s) rfl rfl
  · exact .ask (.refl s) rfl rfl

theorem visit_steady (node : Node) (graph : Graph) : (s.visit q node graph).Steady s := by
  have entered : s.Steady (s.setRun q fun run =>
      { run.count node.kind.word with node := some node.id, activity := .running }) :=
    .setRun fun _ h => h
  unfold visit
  cases node.body with
  | dialogue d => exact ((report_steady _ _).under rfl).after entered
  | choice c => exact ((report_steady _ _).under rfl).after entered
  | image i => exact .stepped entered _ _
  | item i => exact ((applyItem_steady _ _ i).under rfl).after entered
  | trigger t => exact ((dispatch_steady _ t).under rfl).after entered
  | condition c => exact (check_steady _ node c graph).after entered
  | combat opponent => exact .stepped entered _ _
  | link l => exact .stepped entered _ _
  | ending => exact .stepped entered _ _

theorem respond_steady (node : Node) (graph : Graph) (answer : Value) :
    (s.respond q node graph answer).Steady s := by
  unfold respond
  split
  · split
    · dsimp only
      split
      · exact (follow_steady _ _ _ _).after (.setRun (by exact fun _ h => h))
      · exact .failure (.setRun (by exact fun _ h => h)) _
    · exact .failure (.refl s) _
  · exact follow_steady s _ _ _

theorem resolve_steady (node : Node) (graph : Graph) (outcome : Value) :
    (s.resolve q node graph outcome).Steady s := by
  unfold resolve
  split
  · exact follow_steady s _ _ _
  · exact follow_steady s _ _ _
  · exact .failure (.refl s) _

theorem enqueue_steady (job : Job) : (s.enqueue q job).Steady s := by
  unfold enqueue
  dsimp only
  split
  · exact .finished (.of_runs rfl rfl)
  · exact (Move.Steady.finished (.of_runs (by exact rfl) (by exact rfl))).under (f := .draining) rfl

theorem drain_steady : s.drain.Steady s := by
  unfold drain
  split
  · exact .finished (.of_runs rfl rfl)
  · exact Move.Steady.under (.of_nil (.of_runs rfl rfl) rfl rfl rfl) rfl

theorem drive_steady (job : Job) : (s.drive q job).Steady s := by
  unfold drive
  split
  case isTrue owns =>
    cases job with
    | enter graph => exact .driven (.refl s) rfl rfl rfl owns
    | respond | resolve => exact Move.Steady.under (.of_nil (.refl s) rfl rfl rfl) rfl
  case isFalse => exact .finished (.refl s)

theorem withoutTimer_steady {f : Frame} {go : Session → Move} (hf : f.posts = [])
    (h : (go s).Steady s) : (s.withoutTimer q f go).Steady s := by
  rcases s.withoutTimer_cases q f go with ⟨w, -, -, hm⟩ | ⟨-, hm⟩
  · rw [hm]
    exact (Move.Steady.ask (.setTimer _ _) rfl rfl).under hf
  · rw [hm]
    exact h

theorem resume_steady (job : Job) : (s.resume q job).Steady s :=
  (enqueue_steady _ job).after (.setRun fun _ _ _ => rfl)

theorem clear_steady (job : Job) : (s.clear q job).Steady s :=
  withoutTimer_steady s rfl (resume_steady s job)

theorem resumeInput_steady (wait : Wait) (answer : Value) :
    (s.resumeInput q wait answer).Steady s := by
  rcases s.resumeInput_cases q wait answer with ⟨f, h⟩ | ⟨graph, node, -, -, h⟩
  · rw [h]
    exact .failure (.refl s) f
  · rw [h]
    exact clear_steady s _

theorem announce_steady (completion : Option Callback) (ledger : Ledger) :
    (s.announce completion ledger).Steady s := by
  cases completion with
  | none => exact .finished (.refl s)
  | some callback => exact .ask (.refl s) rfl rfl

theorem dismiss_steady (npcs : List String) : (s.dismiss q npcs).Steady s := by
  cases npcs with
  | nil => exact .finished (.setRun (by exact fun _ h => h))
  | cons npc rest => exact .ask (.refl s) rfl rfl

theorem close_steady (phase : Phase) : (s.close q phase).Steady s := by
  have ended : s.Steady (s.ended q phase) :=
    .trans (.setRun (f := Run.ended phase) fun _ _ _ => rfl) (.of_runs rfl rfl)
  rw [close_eq]
  split
  · exact ((dismiss_steady _ _).under rfl).after ended
  · exact (announce_steady _ _ _).after ended

theorem terminate_steady (phase : Phase) : (s.terminate q phase).Steady s :=
  withoutTimer_steady s rfl (close_steady s phase)

theorem stopIfActive_steady : (s.stopIfActive q).Steady s := by
  unfold stopIfActive
  split
  · exact .of_nil (.refl s) rfl rfl rfl
  · exact .finished (.refl s)

theorem stop_steady : s.stop.Steady s := by
  rcases s.stop_cases with h | ⟨r, -, -, h⟩
  · rw [h]
    exact .finished (.refl s)
  · rw [h]
    exact terminate_steady s _

/-- A run that does not wait goes on in another graph. -/
theorem install_steady (free : (s.run q).wait = none) (graph : Graph) :
    (s.install q graph).Steady s :=
  (enqueue_steady _ _).after
    (.trans (.setRun_self (f := Run.moved graph) fun _ _ => free) (.of_runs rfl rfl))

theorem loadTarget_steady (free : (s.run q).wait = none) (link : Link) :
    (s.loadTarget q link).Steady s := by
  rcases s.loadTarget_cases q link with ⟨f, h⟩ | ⟨graph, -, h | h⟩
  · rw [h]
    exact .failure (.refl s) f
  · rw [h]
    exact .ask (.refl s) rfl rfl
  · rw [h]
    exact install_steady s free graph

theorem afterWrite_steady (free : (s.run q).wait = none) (link : Link) (outcome : WriteOutcome) :
    (s.afterWrite q link outcome).Steady s := by
  unfold afterWrite
  split
  · exact loadTarget_steady s free link
  · exact .failure (.refl s) _
  · exact .failure (.refl s) _

theorem owns_setRun {f : Run → Run} (hf : ∀ run, (f run).phase = run.phase) (r : RunId) :
    (s.setRun q f).owns r = s.owns r := by
  have phase : ((s.setRun q f).run r).phase = (s.run r).phase := by
    rw [run_setRun]
    split
    · exact hf _
    · rfl
  simp only [owns, Run.isActive, phase]
  rfl

/-- A run that is driven, and goes on, takes a link. -/
theorem transfer_steady (free : (s.run q).wait = none) (owns : s.owns q) (node : String)
    (link : Link) : ((s.transfer q node link).under (.driving q)).Steady s := by
  unfold transfer
  split
  · exact (loadTarget_steady s free link).under rfl
  · exact .driven (.setRun (by exact fun _ h => h)) rfl rfl rfl
      ((owns_setRun s (by exact fun _ => rfl) q).trans owns)

theorem pause_steady (node : Node) (scene : Scene) : (s.pause q node scene).Steady s := by
  unfold pause
  dsimp only
  split
  · exact .ask (.suspend _ _) rfl rfl
  · exact (Move.Steady.ask (.suspend _ _) rfl rfl).under rfl
  · exact .ask (.suspend _ _) rfl rfl

theorem proceed_steady (free : (s.run q).wait = none) (step : Step) :
    (s.proceed q step).Steady s := by
  rcases s.proceed_cases q step with ⟨-, h⟩ | ⟨owns, ⟨f, h⟩ | ⟨node, graph, -, -, h⟩ | ⟨-, h⟩⟩
  · rw [h]
    exact .finished (.refl s)
  · rw [h]
    exact (Move.Steady.failure (.refl s) f).under rfl
  · rw [h]
    exact .driven (.refl s) rfl rfl rfl owns
  · rw [h]
    unfold settle
    split
    · exact (Move.Steady.finished (.refl s)).under rfl
    · exact (pause_steady s _ _).under rfl
    · exact transfer_steady s free owns _ _
    · exact (terminate_steady s _).under rfl
    · exact (terminate_steady s _).under rfl

theorem startGraph_steady (graph : Graph) (completion : Option Callback) :
    (s.startGraph graph completion).Steady s := by
  rcases s.startGraph_cases graph completion with ⟨f, h⟩ | ⟨-, h⟩
  · rw [h]
    exact .failure (.refl s) f
  · rw [h]
    exact (enqueue_steady _ _).after ((Steady.addRun rfl).trans (.of_runs rfl rfl))

theorem start_steady (script : String) (completion : Option Callback) :
    (s.start script completion).Steady s := by
  rcases s.start_cases script completion with ⟨f, h⟩ | ⟨-, ⟨graph, -, h⟩ | ⟨f, -, h⟩⟩
  · rw [h]
    exact .failure (.refl s) f
  · rw [h]
    exact startGraph_steady s graph completion
  · rw [h]
    exact ((stop_steady _).under rfl).after (.of_runs rfl rfl)

theorem advance_steady (answer : Value) : (s.advance answer).Steady s := by
  rcases s.advance_cases answer with ⟨f, h⟩ | ⟨r, wait, -, -, -, -, -, h⟩
  · rw [h]
    exact .failure (.refl s) f
  · rw [h]
    exact resumeInput_steady s wait answer

theorem battleOver_steady (battle : BattleHandle) (outcome : Value) :
    (s.battleOver battle outcome).Steady s := by
  rcases s.battleOver_cases battle outcome with ⟨-, h⟩ | ⟨-, ⟨f, h⟩ | ⟨graph, -, h⟩⟩
  · rw [h]
    exact .finished (.refl s)
  · rw [h]
    exact .failure (.refl s) f
  · rw [h]
    exact clear_steady s _

theorem timeUp_steady (timer : TimerHandle) : (s.timeUp timer).Steady s := by
  rcases s.timeUp_cases timer with ⟨-, h⟩ | ⟨-, wait, -, -, h⟩
  · rw [h]
    exact .finished (.refl s)
  · rw [h]
    exact (resumeInput_steady _ _ _).after (.setTimer _ _)

theorem deliver_steady (d : Delivery) : (s.deliver d).Steady s := by
  rcases s.deliver_cases d with ⟨-, h⟩ | ⟨-, h⟩
  · rw [h]
    exact .finished (.refl s)
  · rw [h]
    exact ((afterWrite_steady _ (s.free_setRun fun _ => rfl) _ _).under rfl).after
      (.setRun fun _ _ _ => rfl)

/-- What the host begins is steady, unless a write is over. -/
theorem enter_steady (e : Entry) (h : ∀ ticket outcome, e ≠ .settle ticket outcome) :
    (s.enter e).Steady s := by
  cases e with
  | start script completion => exact start_steady s script completion
  | startGraph graph completion => exact startGraph_steady s graph completion
  | stop => exact stop_steady s
  | advance answer => exact advance_steady s answer
  | battleOver battle outcome => exact battleOver_steady s battle outcome
  | timeUp timer => exact timeUp_steady s timer
  | written d => exact deliver_steady s d
  | settle ticket outcome => exact absurd rfl (h ticket outcome)

end Session

/-! ### Deeds are steady but for writes -/

section

variable (s : Session)

theorem Task.begin_steady (task : Task)
    (h : ∀ ticket outcome, task ≠ .entry (.settle ticket outcome)) : (task.begin s).Steady s := by
  cases task with
  | entry e => exact s.enter_steady e fun ticket outcome he => h ticket outcome (congrArg _ he)
  | drive q job => exact s.drive_steady job
  | visit q node graph => exact s.visit_steady node graph
  | respond q node graph answer => exact s.respond_steady node graph answer
  | resolve q node graph outcome => exact s.resolve_steady node graph outcome
  | follow q node output graph => exact s.follow_steady node output graph
  | dispatch q t => exact s.dispatch_steady t
  | report q ws => exact s.report_steady ws
  | engage card => exact .ask (.refl s) rfl rfl
  | terminate q phase => exact s.terminate_steady phase

/-- The answer to a call is steady, unless a write is under way. -/
theorem Ask.resume_steady (a : Ask) (answer : a.call.Reply)
    (free : ∀ r, a.rider = .linking r → (s.run r).wait = none) :
    (a.resume s answer).Steady s ∨ ∃ r node link callback ledger ticket,
      a = .handOver r node link callback ledger ∧ HEq answer (Receipt.pending ticket) := by
  cases a with
  | startTimer seconds timer =>
    refine .inl (.finished ?_)
    split
    · exact .setTimer _ _
    · exact .refl s
  | take q node item amount =>
    left
    simp only [resume]
    split
    · exact .finished (.refl s)
    · exact s.report_steady _
  | count q node c graph => exact .inl (s.follow_steady _ _ _)
  | spawn q request => exact .inl (.finished (.setRun (by exact fun _ h => h)))
  | remove q npc => exact .inl (.finished (.setRun (by exact fun _ h => h)))
  | fillIn q graph => exact .inl (s.install_steady (free q rfl) _)
  | report q w rest => exact .inl (s.report_steady rest)
  | dismiss q npc rest => exact .inl (s.dismiss_steady rest)
  | handOver q node link callback ledger =>
    cases answer with
    | plain => exact .inl (s.loadTarget_steady (free q rfl) link)
    | finished outcome => exact .inl (s.afterWrite_steady (free q rfl) link outcome)
    | pending ticket => exact .inr ⟨q, node, link, callback, ledger, ticket, rfl, .rfl⟩
  | engage | cancelTimer | deliver | give | battle | world | announce =>
    exact .inl (.finished (.refl s))

theorem Frame.receive_steady (frame : Frame) (result : Result) (hn : ∀ a, frame ≠ .asked a)
    (hp : frame.isPosting = false)
    (free : ∀ r step, frame = .driving r → result = .stepped step → (s.run r).wait = none) :
    (frame.receive s result).Steady s := by
  cases frame with
  | draining => exact s.drain_steady
  | driving q =>
    cases result with
    | done => exact .finished (.refl s)
    | stepped step => exact s.proceed_steady (free q step rfl rfl) step
  | failing f => exact .failure (.refl s) f
  | triggering q node graph => exact s.follow_steady _ _ _
  | following q node output graph => exact s.follow_steady _ _ _
  | stepping step => exact .stepped (.refl s) _ _
  | timing q w seconds =>
    simp only [receive]
    split
    · exact .ask (.refl s) rfl rfl
    · exact .finished (.refl s)
  | resuming q job => exact s.resume_steady job
  | ending q phase => exact s.close_steady phase
  | announcing completion ledger => exact s.announce_steady _ _
  | linking q => exact .finished (.refl s)
  | posting ds => cases hp
  | asked a => exact absurd rfl (hn a)

theorem Frame.recover_steady (frame : Frame) (fault : Fault) (hp : frame.isPosting = false) :
    (frame.recover s fault).Steady s := by
  cases frame with
  | triggering q node graph =>
    simp only [recover]
    split
    · exact (s.report_steady _).under rfl
    · exact .failure (.refl s) _
  | driving q =>
    exact ((Session.stopIfActive_steady _).under (f := .failing fault) rfl).after (.of_runs rfl rfl)
  | linking q =>
    cases fault with
    | link f => exact (Session.stopIfActive_steady _).after (.of_runs rfl rfl)
    | _ => exact .failure (.refl s) _
  | posting ds => cases hp
  | draining => exact .of_nil (.of_runs rfl rfl) rfl rfl rfl
  | _ => exact .failure (.refl s) fault

end

/-! ## A run on its way has no wait -/

/-- The run that a rider goes on with, if it says which. -/
def Rider.run? : Rider → Option RunId
  | .job r _ | .atNode r _ _ | .linking r => some r
  | .nobody | .stepped _ => none

/-- A rider is one more than there are below it. -/
theorem riders_eq_succ {home : RunId → Option Terrain} {x : Rider} {stack : List Frame} {r : RunId}
    (rides : Rides (Fitting home) x stack) (hx : x.run? = some r) :
    riders r x stack = riders r .nobody stack + 1 := by
  obtain ⟨q, f, below, rfl, seats, ⟨T, -, fits⟩, -⟩ := rides.seat fun h => by rw [h] at hx; cases hx
  have same : r = q := by
    cases x with
    | job | atNode => exact (Option.some.inj hx).symm.trans fits.1
    | linking => exact (Option.some.inj hx).symm.trans fits
    | nobody | stepped => cases hx
  rw [riders_of_seats (same ▸ seats), riders_nobody_cons]

theorem riders_pos {home : RunId → Option Terrain} {x : Rider} {stack : List Frame} {r : RunId}
    (rides : Rides (Fitting home) x stack) (hx : x.run? = some r) : 0 < riders r x stack := by
  rw [riders_eq_succ rides hx]
  exact Nat.succ_pos _

/-- Who holds nothing for a run does not let it wait. -/
theorem Session.wait_of_load {s : Session} {r : RunId} (tidy : s.Tidy) (h : s.outline.load r = 0) :
    (s.run r).wait = none := by
  by_cases hp : (s.run r).phase = .suspended
  · have waiting : (s.outline.run r).waiting = none := by
      have none := List.eq_nil_of_length_eq_zero (Nat.add_eq_zero_iff.1 h).2
      exact Option.toList_eq_nil_iff.1 none
    simpa [outline, Run.outline, hp] using waiting
  · exact tidy r hp

namespace Turn

variable {t u : Turn} {d : Deed} {r : RunId}

/-- A run on its way is not waited for, and has no job queued. -/
theorem Busy.load_eq_zero (h : t.Busy) (way : 0 < riders r t.control.rider t.stack) :
    t.session.outline.load r = 0 := by
  have single : t.session.outline.load r + riders r t.control.rider t.stack ≤ 1 := h.single r
  omega

theorem Busy.free (h : t.Busy) (tidy : t.session.Tidy)
    (way : 0 < riders r t.control.rider t.stack) : (t.session.run r).wait = none :=
  Session.wait_of_load tidy (h.load_eq_zero way)

/-! ## Writes and their ends -/

/-- All ends of writes that are handed back to the host. -/
def posts (t : Turn) : List Delivery := t.control.posts ++ t.stack.flatMap Frame.posts

/-- What becomes of writes with the deed `d`: one that is filed is still filed unless it is over,
and is new only if the host says that it is under way; and the end of a write is handed back only
when it is over. -/
structure Registers (t : Turn) (d : Deed) (u : Turn) : Prop where
  tidy : u.session.Tidy
  writes : ∀ x ∈ u.session.writes,
    x ∈ t.session.writes ∧ (∀ outcome, t.control ≠ .work (.entry (.settle x.1 outcome))) ∨
    ∃ node callback ledger, d = .reply (.handOver x.2.run node x.2.link callback ledger) (.pending x.1) ∧
      x.2.wait = t.session.nextWait
  posts : ∀ p ∈ u.posts, p ∈ t.posts ∨ ∃ ticket,
    t.control = .work (.entry (.settle ticket p.outcome)) ∧ (ticket, p.handle) ∈ t.session.writes
  visits : ∀ r, u.control.comesTo? = some r →
    u.stack.head? = some (.driving r) ∧ u.session.owns r ∨
      ∃ a, u.control = .ask a ∧ (t.control = .ask a ∧ u.stack = t.stack ∨ .asked a ∈ t.stack) ∧
        u.session.runs = t.session.runs ∧ u.session.current = t.session.current

theorem Registers.of_steady {m : Move} (popped : List Frame) {stack : List Frame}
    (hm : m.Steady t.session) (tidy : t.session.Tidy) (hs : t.stack = popped ++ stack)
    (settles : ∀ ticket outcome, t.control ≠ .work (.entry (.settle ticket outcome))) :
    t.Registers d (m.on stack) where
  tidy := hm.session.tidy tidy
  writes x hx := by
    have hx : x ∈ m.session.writes := hx
    rw [hm.session.writes] at hx
    exact .inl ⟨hx, settles x.1⟩
  posts p hp := by
    have hp : p ∈ m.control.posts ++ (m.frames ++ stack).flatMap Frame.posts := hp
    have none : m.frames.flatMap Frame.posts = [] := List.flatMap_eq_nil_iff.2 hm.frames
    rw [hm.posts, List.nil_append, List.flatMap_append, none, List.nil_append] at hp
    refine .inl (List.mem_append_right _ ?_)
    rw [hs, List.flatMap_append]
    exact List.mem_append_right _ hp
  visits r hc := by
    obtain ⟨driven, owns⟩ := hm.visits r hc
    refine .inl ⟨?_, owns⟩
    show (m.frames ++ stack).head? = _
    simp [driven]

theorem Yields.registers (h : t.Yields d u) (tidy : t.session.Tidy)
    (writes : u.session.writes = t.session.writes) : t.Registers d u := by
  have runs := h.runs
  obtain ⟨s, stack, c⟩ := t
  obtain ⟨s', stack', c'⟩ := u
  have shifts : Shifts stack c stack' c' := h.shifts
  have settles : ∀ ticket outcome, c ≠ .work (.entry (.settle ticket outcome)) := by
    rintro ticket outcome rfl
    cases shifts with
    | change hc => cases hc
    | beginAtRest hc => cases hc
    | leave hc => cases hc
  refine ⟨fun r => ?_, fun x hx => ?_, fun p hp => .inl ?_, fun r hc => .inr ?_⟩
  · have tidy := tidy r
    simp only [Session.run] at runs tidy ⊢
    rwa [runs]
  · have hx : x ∈ s'.writes := hx
    exact .inl ⟨writes ▸ hx, settles x.1⟩
  · have hp : p ∈ c'.posts ++ stack'.flatMap Frame.posts := hp
    show p ∈ c.posts ++ stack.flatMap Frame.posts
    cases shifts with
    | change => exact hp
    | beginAtRest => cases hp
    | beginInside =>
      rw [List.flatMap_cons, Frame.posts_asked] at hp
      exact hp
    | leave =>
      rw [List.flatMap_cons, Frame.posts_asked]
      exact List.mem_append_right _ hp
    | fail => exact List.mem_append_right _ hp
  · have current : s'.current = s.current := congrArg Outline.current h.outline
    cases shifts with
    | @change _ c ho =>
      cases c with
      | ask a => exact ⟨a, rfl, .inl ⟨rfl, rfl⟩, runs, current⟩
      | work => cases ho
      | done | failed => cases hc
    | @leave _ a => exact ⟨a, rfl, .inr List.mem_cons_self, runs, current⟩
    | beginAtRest | beginInside | fail => cases hc

/-- The host is handed the ends of writes that are left to be posted. -/
theorem Registers.post {s : Session} {ds : List Delivery} (popped : List Frame)
    {stack : List Frame} (tidy : s.Tidy) (hs : t.stack = popped ++ stack)
    (writes : ∀ x ∈ s.writes,
      x ∈ t.session.writes ∧ ∀ outcome, t.control ≠ .work (.entry (.settle x.1 outcome)))
    (handed : ∀ p ∈ ds, p ∈ popped.flatMap Frame.posts ∨ ∃ ticket,
      t.control = .work (.entry (.settle ticket p.outcome)) ∧
        (ticket, p.handle) ∈ t.session.writes) :
    t.Registers d ((s.post ds).on stack) := by
  have below {p : Delivery} (hp : p ∈ stack.flatMap Frame.posts) : p ∈ t.posts := by
    refine List.mem_append_right _ ?_
    rw [hs, List.flatMap_append]
    exact List.mem_append_right _ hp
  have above {p : Delivery} (hp : p ∈ popped.flatMap Frame.posts) : p ∈ t.posts := by
    refine List.mem_append_right _ ?_
    rw [hs, List.flatMap_append]
    exact List.mem_append_left _ hp
  cases ds with
  | nil =>
    exact ⟨tidy, fun x hx => .inl (writes x hx), fun p hp => .inl (below hp), fun _ hc => by cases hc⟩
  | cons p₀ ds =>
    refine ⟨tidy, fun x hx => .inl (writes x hx), fun p hp => ?_, fun _ hc => by cases hc⟩
    have hp : p ∈ (p₀ :: ds) ++ stack.flatMap Frame.posts := hp
    rcases List.mem_append.1 hp with hp | hp
    · exact (handed p hp).imp_left above
    · exact .inl (below hp)

theorem Registers.settle {s : Session} {stack : List Frame} {ticket : Ticket}
    {outcome : WriteOutcome} (tidy : s.Tidy) :
    Registers ⟨s, stack, .work (.entry (.settle ticket outcome))⟩ d
      ((s.settleWrite ticket outcome).on stack) := by
  refine .post [] (fun r => tidy r) rfl (fun x hx => ?_) fun p hp => .inr ⟨ticket, ?_⟩
  · obtain ⟨hx, other⟩ := List.mem_filter.1 hx
    refine ⟨hx, fun outcome' hc => ?_⟩
    cases hc
    simp at other
  · obtain ⟨handle, hh, rfl⟩ := List.mem_map.1 hp
    obtain ⟨x, hx, rfl⟩ := List.mem_map.1 hh
    obtain ⟨hx, own⟩ := List.mem_filter.1 hx
    exact ⟨rfl, by rw [← beq_iff_eq.1 own]; exact hx⟩

/-- The write that the host says is under way is filed with the link. -/
theorem Registers.pending {s : Session} {stack : List Frame} {node : String} {link : Link}
    {callback : Callback} {ledger : Ledger} {ticket : Ticket} (tidy : s.Tidy) :
    Registers ⟨s, stack, .ask (.handOver r node link callback ledger)⟩
      (.reply (.handOver r node link callback ledger) (.pending ticket))
      ((s.afterHandOver r node link (.pending ticket)).on stack) := by
  refine ⟨?_, fun x hx => ?_, fun p hp => .inl hp, fun _ hc => by cases hc⟩
  · exact (Session.Steady.suspend (s := s) (q := r) .link node).tidy tidy
  · have hx : x ∈ s.writes ++ [(ticket, { run := r, wait := s.nextWait, link })] := hx
    rcases List.mem_append.1 hx with hx | hx
    · exact .inl ⟨hx, fun _ hc => by cases hc⟩
    · obtain rfl := List.mem_singleton.1 hx
      exact .inr ⟨node, callback, ledger, rfl, rfl⟩

/-- **What becomes of writes** with a deed. -/
theorem Does.registers (h : t.Does d u) (busy : t.Busy) (tidy : t.session.Tidy) :
    t.Registers d u := by
  have way {r : RunId} (hr : t.control.rider.run? = some r) : (t.session.run r).wait = none :=
    busy.free tidy (riders_pos busy.rides hr)
  rcases h.serves busy.orderly.ends with hy | ⟨-, -, -, -, -, -, -, -, -, moved⟩
  · refine hy.registers tidy ?_
    cases h with
    | beginAtRest | beginInside | leave | fail | change => rfl
    | work | receive | recover => exact absurd rfl hy.deed.1
    | reply => exact absurd rfl (hy.deed.2 _ _)
  cases h with
  | @work s stack task =>
    by_cases he : ∃ ticket outcome, task = .entry (.settle ticket outcome)
    · obtain ⟨ticket, outcome, rfl⟩ := he
      exact .settle tidy
    · have plain : ∀ ticket outcome, task ≠ .entry (.settle ticket outcome) :=
        fun ticket outcome h => he ⟨ticket, outcome, h⟩
      exact .of_steady [] (task.begin_steady s plain) tidy rfl
        fun ticket outcome h => plain ticket outcome (Control.work.inj h)
  | @receive s frame stack result hn =>
    cases hp : frame.isPosting with
    | true =>
      cases frame <;> cases hp
      exact .post [_] tidy rfl (fun x hx => ⟨hx, fun _ hc => by cases hc⟩)
        fun p hp => .inl (by simpa [Frame.posts] using hp)
    | false =>
      refine .of_steady [frame] (frame.receive_steady s result hn hp ?_) tidy rfl
        fun _ _ hc => by cases hc
      rintro r step rfl rfl
      refine busy.free tidy ?_
      show 0 < riders r (.stepped step) (.driving r :: stack)
      simp [riders, Frame.seats]
  | @recover s frame stack fault hn =>
    cases hp : frame.isPosting with
    | true =>
      cases frame <;> cases hp
      exact .post [_] tidy rfl (fun x hx => ⟨hx, fun _ hc => by cases hc⟩)
        fun p hp => .inl (by simpa [Frame.posts] using hp)
    | false =>
      exact .of_steady [frame] (frame.recover_steady s fault hp) tidy rfl
        fun _ _ hc => by cases hc
  | @reply s stack a answer =>
    have free : ∀ r, a.rider = .linking r → (s.run r).wait = none := fun r hr =>
      way (by rw [show (Control.ask a).rider = .linking r from hr]; rfl)
    rcases a.resume_steady s answer free with hm | ⟨r, node, link, callback, ledger, ticket, rfl, pending⟩
    · exact .of_steady [] hm tidy rfl fun _ _ hc => by cases hc
    · obtain rfl := eq_of_heq pending
      exact .pending tidy
  | beginAtRest | beginInside | leave | fail | change =>
    rcases moved with hd | ⟨a, answer, hd⟩ <;> cases hd

end Turn

/-! ## Writes that are filed -/

/-- With the event a write is filed with a link: the host says that it is under way, and the run
begins to wait for it. -/
def Event.files (e : Event) (ticket : Ticket) (handle : WriteHandle) : Prop :=
  (∃ node callback ledger,
    e.deed = .reply (.handOver handle.run node handle.link callback ledger) (.pending ticket)) ∧
  handle.wait = e.before.session.nextWait

/-- The end that a write comes to with an event. -/
def Event.settles? (e : Event) (ticket : Ticket) : Option WriteOutcome :=
  match e.before.control with
  | .work (.entry (.settle ended outcome)) => if ended = ticket then some outcome else none
  | _ => none

/-- The end that a write comes to first. -/
def settled? (events : List Event) (ticket : Ticket) : Option WriteOutcome :=
  events.findSome? (·.settles? ticket)

theorem settled?_append (events later : List Event) (ticket : Ticket) :
    settled? (events ++ later) ticket = (settled? events ticket).or (settled? later ticket) := by
  simp [settled?, List.findSome?_append]

theorem settled?_concat (events : List Event) (e : Event) (ticket : Ticket) :
    settled? (events ++ [e]) ticket = (settled? events ticket).or (e.settles? ticket) := by
  rw [settled?_append]
  simp [settled?]

theorem Event.settles?_of {e : Event} {ticket : Ticket} {outcome : WriteOutcome}
    (h : e.before.control = .work (.entry (.settle ticket outcome))) :
    e.settles? ticket = some outcome := by
  simp [settles?, h]

theorem Event.settles?_eq_none {e : Event} {ticket : Ticket}
    (h : ∀ outcome, e.before.control ≠ .work (.entry (.settle ticket outcome))) :
    e.settles? ticket = none := by
  unfold settles?
  split
  case h_1 ended outcome hc =>
    refine if_neg fun same => ?_
    subst same
    exact h outcome hc
  case h_2 => rfl

/-- A write was filed with a link, and has come to its end since, or not. -/
def Filed (events : List Event) (ticket : Ticket) (handle : WriteHandle)
    (outcome : Option WriteOutcome) : Prop :=
  ∃ earlier e later, events = earlier ++ e :: later ∧ e.files ticket handle ∧
    settled? later ticket = outcome

section Filing

variable {events : List Event} {ticket : Ticket} {handle : WriteHandle}
  {outcome : Option WriteOutcome} {t : Turn} {files : FileTree} {library : Path} {flags : FlagStore}

theorem Filed.concat (h : Filed events ticket handle outcome) (e : Event) :
    Filed (events ++ [e]) ticket handle (outcome.or (e.settles? ticket)) := by
  obtain ⟨earlier, e₀, later, rfl, filed, rfl⟩ := h
  refine ⟨earlier, e₀, later ++ [e], ?_, filed, settled?_concat later e ticket⟩
  rw [List.append_assoc, List.cons_append]

/-- The end to which a write came first stays what it is. -/
theorem Filed.append {first : WriteOutcome} (h : Filed events ticket handle (some first))
    (later : List Event) : Filed (events ++ later) ticket handle (some first) := by
  obtain ⟨earlier, e₀, between, rfl, filed, settled⟩ := h
  refine ⟨earlier, e₀, between ++ later, ?_, filed, ?_⟩
  · rw [List.append_assoc, List.cons_append]
  · rw [settled?_append, settled, Option.some_or]

/-- What is kept of writes: those that are filed are not over, and what is handed back is the end
that a write came to. -/
structure Filing (events : List Event) (t : Turn) : Prop where
  busy : t.Busy
  tidy : t.session.Tidy
  writes : ∀ x ∈ t.session.writes, Filed events x.1 x.2 none
  posts : ∀ p ∈ t.posts, ∃ ticket, Filed events ticket p.handle (some p.outcome)
  visits : ∀ r node graph, t.control = .work (.visit r node graph) →
    t.stack.head? = some (.driving r) ∧ t.session.owns r

theorem Filing.concat {u : Turn} {d : Deed} (h : Filing events t) (does : t.Does d u)
    (calm : calmCancel t d) : Filing (events ++ [⟨t, d, u⟩]) u := by
  have becomes := does.registers h.busy h.tidy
  refine ⟨(does.busy calm h.busy).1, becomes.tidy, fun x hx => ?_, fun p hp => ?_,
    fun r node graph hc => ?_⟩
  · rcases becomes.writes x hx with ⟨old, open_⟩ | ⟨node, callback, ledger, hd, hw⟩
    · have still := (h.writes x old).concat ⟨t, d, u⟩
      rwa [Event.settles?_eq_none open_] at still
    · exact ⟨events, ⟨t, d, u⟩, [], rfl, ⟨⟨node, callback, ledger, hd⟩, hw⟩, rfl⟩
  · rcases becomes.posts p hp with old | ⟨ticket, hc, filed⟩
    · obtain ⟨ticket, settled⟩ := h.posts p old
      exact ⟨ticket, settled.append [_]⟩
    · have settled := (h.writes _ filed).concat ⟨t, d, u⟩
      rw [Event.settles?_of hc] at settled
      exact ⟨ticket, settled⟩
  · rcases becomes.visits r (by rw [hc]; rfl) with driven | ⟨a, ha, -⟩
    · exact driven
    · rw [hc] at ha
      cases ha

theorem Filing.fresh (files : FileTree) (library : Path) (flags : FlagStore) :
    Filing [] (Session.fresh files library flags).atRest := by
  have tidy : (Session.fresh files library flags).Tidy := fun r _ => by
    simp [Session.run, Session.fresh]
  exact ⟨.fresh files library flags, tidy, fun x hx => (by cases hx), fun p hp => (by cases hp),
    fun _ _ _ hc => by cases hc⟩

/-- **What is handed back to the host is the end of a write**, the first one after it was filed. -/
theorem History.filing (h : History calmCancel (Session.fresh files library flags).atRest events t) :
    Filing events t := by
  induction h with
  | nil => exact .fresh files library flags
  | snoc _ calm does ih => exact ih.concat does calm

theorem Event.files.waits {e : Event} (h : e.files ticket handle)
    (does : e.before.Does e.deed e.after) : handle.wait < e.after.session.nextWait := by
  obtain ⟨t, d, u⟩ := e
  obtain ⟨⟨node, callback, ledger, hd⟩, hw⟩ := h
  obtain rfl : d = _ := hd
  rw [hw]
  cases does with
  | reply => exact Nat.lt_succ_self _

/-- A write is filed with each wait at most once. -/
theorem History.files_unique {may : Turn → Deed → Prop} {start : Turn}
    (h : History may start events t) {earlier later earlier' later' : List Event} {e e' : Event}
    {ticket' : Ticket} {handle' : WriteHandle} (hs : events = earlier ++ e :: later)
    (hs' : events = earlier' ++ e' :: later') (files : e.files ticket handle)
    (files' : e'.files ticket' handle') (same : handle.wait = handle'.wait) :
    earlier = earlier' ∧ e = e' ∧ later = later' := by
  -- A wait that is begun later has a greater number.
  have apart {before between after : List Event} {x y : Event} {ticket ticket' : Ticket}
      {handle handle' : WriteHandle} (hs : events = before ++ x :: (between ++ y :: after))
      (hx : x.files ticket handle) (hy : y.files ticket' handle') : handle.wait < handle'.wait := by
    subst hs
    obtain ⟨-, -, does, hlater⟩ := h.of_append_cons
    obtain ⟨hbetween, -, -, -⟩ := hlater.of_append_cons
    rw [hy.2]
    exact Nat.lt_of_lt_of_le (hx.waits does) hbetween.leads.ages.waits_le
  rcases List.append_eq_append_iff.1 (hs.symm.trans hs') with ⟨between, rfl, hl⟩ | ⟨between, rfl, hl⟩
  · cases between with
    | nil =>
      obtain ⟨rfl, rfl⟩ := List.cons.inj hl
      exact ⟨(List.append_nil _).symm, rfl, rfl⟩
    | cons x between =>
      obtain ⟨rfl, rfl⟩ := List.cons.inj hl
      exact absurd same (Nat.ne_of_lt (apart hs files files'))
  · cases between with
    | nil =>
      obtain ⟨rfl, rfl⟩ := List.cons.inj hl
      exact ⟨List.append_nil _, rfl, rfl⟩
    | cons x between =>
      obtain ⟨rfl, rfl⟩ := List.cons.inj hl
      exact absurd same.symm (Nat.ne_of_lt (apart hs' files' files))

end Filing

end Questline

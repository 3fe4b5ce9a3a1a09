import Questline.Proofs.Completion
import Questline.Proofs.Standing

/-!
# After a fault

While a run is driven, much can go wrong: the parameters of a trigger, the writing of a flag, an
answer, the outcome of a battle, a link, and every call of the host.  The fault may come before the
run is suspended, after it was, or after it was answered already.  There is one place where it is
caught, right below everything that is done for the run.  From there on nothing is left open, if
only figures, timers and completion callbacks do not fail in turn.

* `Frame.letsPass`: what a fault of a driven run goes through.
* `Turn.Stands.owns_of_failed`: it reaches a run that is current and goes on, right above the queue.
* `Session.Restartable`: a new run can be begun.
* `fault_leaves_restartable`: what is left after a fault.
-/

namespace Questline

/-! ## Where a fault is caught -/

/-- Whether a fault in what a run does goes through a frame.  Only an unknown event stops at its
trigger, which warns of it and goes on. -/
def Frame.letsPass (f : Fault) : Frame → Bool
  | .stepping _ | .following _ _ _ _ | .timing _ _ _ => true
  | .triggering _ _ _ =>
    match f with
    | .unknownEvent _ => false
    | _ => true
  | _ => false

/-- A host whose figures leave, whose timers are cancelled and whose completion callbacks are called
without a fault, whatever else fails. -/
def tidy : Habits where
  fails a :=
    match a.call with
    | .remove _ | .cancelTimer _ | .complete _ _ => False
    | _ => True
  answers _ := True
  delivers := True

variable {h : Habits} {s : Session} {stack frames below : List Frame} {q r : RunId} {f : Fault}

theorem Frame.recover_of_letsPass {frame : Frame} (pass : frame.letsPass f) :
    frame.recover s f = .failure s f := by
  cases frame with
  | stepping | following | timing => rfl
  | triggering =>
    cases f with
    | unknownEvent => cases pass
    | _ => rfl
  | draining | driving | failing | resuming | ending | announcing | linking | posting | asked =>
    cases pass

/-- The run that is driven on top of a stack is told from what is above. -/
theorem driving_unique {frames' rest rest' : List Frame} (free : ∀ f ∈ frames, ∀ q, f ≠ .driving q)
    (free' : ∀ f ∈ frames', ∀ q, f ≠ .driving q)
    (eq : frames ++ .driving q :: rest = frames' ++ .driving r :: rest') :
    frames = frames' ∧ q = r ∧ rest = rest' := by
  induction frames generalizing frames' with
  | nil =>
    cases frames' with
    | nil => cases eq; exact ⟨rfl, rfl, rfl⟩
    | cons f frames' =>
      obtain ⟨hf, -⟩ := List.cons.inj eq
      exact absurd hf.symm (free' f List.mem_cons_self q)
  | cons f frames ih =>
    cases frames' with
    | nil =>
      obtain ⟨hf, -⟩ := List.cons.inj eq
      exact absurd hf (free f List.mem_cons_self r)
    | cons f' frames' =>
      obtain ⟨rfl, tail⟩ := List.cons.inj eq
      obtain ⟨rfl, rfl, rfl⟩ := ih (fun g hg => free g (List.mem_cons_of_mem _ hg))
        (fun g hg => free' g (List.mem_cons_of_mem _ hg)) tail
      exact ⟨rfl, rfl, rfl⟩

theorem driving_top {rest rest' : List Frame} (free : ∀ f ∈ frames, ∀ q, f ≠ .driving q)
    (eq : frames ++ .driving q :: rest = .driving r :: rest') : q = r ∧ rest = rest' := by
  have eq' : frames ++ .driving q :: rest = [] ++ .driving r :: rest' := eq
  exact (driving_unique free (fun _ hf => absurd hf List.not_mem_nil) eq').2

theorem Frame.ne_driving_of_letsPass {frame : Frame} (pass : frame.letsPass f) (q : RunId) :
    frame ≠ .driving q := by
  rintro rfl
  cases pass

/-- On top of a stack is what the fault goes through, or the run that it is about. -/
theorem top_of_letsPass {frame : Frame} {rest : List Frame}
    (pass : ∀ frame ∈ frames, frame.letsPass f)
    (eq : frames ++ .driving r :: below = frame :: rest) :
    frame.letsPass f ∨ frame = .driving r := by
  cases frames with
  | nil => exact .inr (List.cons.inj eq).1.symm
  | cons g frames =>
    obtain ⟨rfl, -⟩ := List.cons.inj eq
    exact .inl (pass _ List.mem_cons_self)

theorem Frame.IsOnWay.ne_driving {g : Graph} {frame : Frame} (way : frame.IsOnWay g) (q : RunId) :
    frame ≠ .driving q := by
  rintro rfl
  cases way

theorem Displays.ne_driving {w : Wait} {c : Control} (displays : Displays r w frames c) :
    ∀ frame ∈ frames, ∀ q, frame ≠ .driving q := by
  intro frame hf q
  cases displays with
  | card | timer | battle => exact absurd hf List.not_mem_nil
  | image | shown =>
    rw [List.mem_singleton.1 hf]
    exact Frame.noConfusion

/-- **A fault of a driven run** reaches it while it is current and goes on, right above the queue. -/
theorem Turn.Stands.owns_of_failed (ht : Turn.Stands h ⟨s, frames ++ .driving r :: below, .failed f⟩)
    (pass : ∀ frame ∈ frames, frame.letsPass f) (sure : ∀ q a, Ask.IsClosing q a → ¬h.fails a) :
    s.owns r ∧ r < s.runs.length ∧ ∃ floor, below = .draining :: floor ∧ Quay h r floor := by
  generalize hs : frames ++ .driving r :: below = stack at ht
  have free : ∀ frame ∈ frames, ∀ q, frame ≠ .driving q := fun frame hf q =>
    Frame.ne_driving_of_letsPass (pass frame hf) q
  generalize hu : (⟨s, stack, .failed f⟩ : Turn) = u at ht
  cases ht with
  | rest base =>
    cases hu
    cases base with
    | bottom => simp at hs
    | inside => rcases top_of_letsPass pass hs with hf | hf <;> cases hf
  | delivered | resuming | broken | linked | inside =>
    cases hu
    rcases top_of_letsPass pass hs with hf | hf <;> cases hf
  | onWay quay way above =>
    cases hu
    obtain ⟨-, rfl, rfl⟩ := driving_unique free (fun frame hf => (above frame hf).ne_driving) hs
    exact ⟨way.owns, way.has.lt, _, rfl, quay⟩
  | showing quay opens displays =>
    obtain ⟨pending, graph, has, active, -⟩ := opens.has
    cases hu
    obtain ⟨-, rfl, rfl⟩ := driving_unique free displays.ne_driving hs
    exact ⟨has.owns active, has.lt, _, rfl, quay⟩
  | lost quay opens =>
    obtain ⟨pending, graph, has, active, -⟩ := opens.has
    cases hu
    obtain ⟨rfl, rfl⟩ := driving_top free hs
    exact ⟨has.owns active, has.lt, _, rfl, quay⟩
  | unlinked pier has active =>
    cases hu
    cases pier with
    | driving quay =>
      obtain ⟨rfl, rfl⟩ := driving_top free hs
      exact ⟨has.owns active, has.lt, _, rfl, quay⟩
    | linking => rcases top_of_letsPass pass hs with hf | hf <;> cases hf
  | closing _ _ _ _ control =>
    cases hu
    rcases control with control | ⟨_, a, -, closing, fails⟩
    · cases control
    · exact absurd fails (sure _ a closing)
  | entering | delivering | drained | taken | settled | handing | filling | refused => cases hu

/-! ## What is left -/

/-- A new run can be begun: it becomes the current one, and its turn comes at once. -/
def Session.Restartable (s : Session) : Prop :=
  ∀ graph completion, ∃ s', s.enter (.startGraph graph completion) =
      (Move.finished s').under .draining ∧ s'.current = some s.runs.length ∧
    s'.pending = [(s.runs.length, .enter graph)]

theorem Session.restartable (idle : s.IsIdle) (pending : s.pending = []) (draining : s.draining = false) :
    s.Restartable := by
  intro graph completion
  refine ⟨{ s.addRun { script := graph.id, npcs := s.carriedNpcs, completion } with
    graph := some graph
    lastError := none
    pending := [(s.runs.length, .enter graph)]
    draining := true }, ?_, rfl, rfl⟩
  simp only [enter, idle.startGraph_eq, enqueue, opened, addRun, draining, pending, Bool.false_eq_true,
    if_false, List.nil_append]

/-- The run `r` is cleaned up after the fault `f`, nothing is left of its answers and in the queue, and a
new run can be begun. -/
structure Session.Recovered (r : RunId) (f : Fault) (s : Session) : Prop
    extends Session.CleanlyStopped r f s where
  ledger : (s.run r).ledger = []
  pending : s.pending = []
  draining : s.draining = false
  restartable : s.Restartable

theorem Session.Cleared.recovered {s' : Session}
    (clean : Session.Cleared r f { s with pending := [], draining := false } s') : s'.Recovered r f where
  toCleanlyStopped := clean.toCleanlyStopped
  ledger := clean.ledger
  pending := clean.pending
  draining := clean.draining
  restartable := by
    refine Session.restartable (fun q hq => ?_) clean.pending clean.draining
    obtain rfl := Option.some.inj (clean.current.symm.trans hq)
    simp [Run.isActive, clean.phase, Phase.isActive]

namespace Turn.Ends

variable {base : List Frame} {P : List String → Turn → Prop} {gone : List String}

/-- A fault goes through what lets it pass. -/
theorem passing (pass : ∀ frame ∈ frames, frame.letsPass f) (long : base.length ≤ stack.length)
    (h : Ends base P gone ⟨s, stack, .failed f⟩) : Ends base P gone ⟨s, frames ++ stack, .failed f⟩ := by
  induction frames with
  | nil => exact h
  | cons frame frames ih =>
    have top := pass frame List.mem_cons_self
    have rest := ih fun g hg => pass g (List.mem_cons_of_mem _ hg)
    refine .recover (fun a => ?_) (by simp; omega) ?_
    · rintro rfl
      cases top
    · rw [Frame.recover_of_letsPass top]
      exact rest

end Turn.Ends

/-- What becomes of a fault at the outermost call: a link that goes on after its write takes up a
fault of a link, and else the fault is the caller's. -/
def outcomeOf (f : Fault) (linking : Bool) : Control :=
  if linking && f.isLink then .done .done else .failed f

/-- **A fault in a driven run** cleans it up, whatever is on the stack. -/
theorem ends_fault (ht : Turn.Stands tidy ⟨s, frames ++ .driving r :: below, .failed f⟩)
    (pass : ∀ frame ∈ frames, frame.letsPass f) :
    ∃ base linking, below = .draining :: (if linking then .linking r :: base else base) ∧ Base tidy base ∧
      Turn.Ends base (fun gone u => u.control = outcomeOf f linking ∧ gone = (s.run r).npcs ∧
        u.session.Recovered r f) [] ⟨s, frames ++ .driving r :: below, .failed f⟩ := by
  have sure : ∀ q a, Ask.IsClosing q a → ¬tidy.fails a := by
    intro q a closing
    cases a <;> first | exact closing.elim | exact id
  obtain ⟨owns, hr, floor, rfl, quay⟩ := ht.owns_of_failed pass sure
  cases quay with
  | base base =>
    refine ⟨floor, false, rfl, base, .passing pass (by simp; omega) ?_⟩
    exact Turn.ends_driven hr owns (Nat.le_refl _) fun s' clean => .here ⟨rfl, rfl⟩ ⟨rfl, rfl, clean.recovered⟩
  | @linking floor _ base =>
    refine ⟨floor, true, rfl, base, .passing pass (by simp; omega) ?_⟩
    refine Turn.ends_driven hr owns (Nat.le_succ _) fun s' clean => .recover (by simp) (Nat.le_refl _) ?_
    have past : (s'.run r).isActive = false := by simp [Run.isActive, clean.phase, Phase.isActive]
    cases f with
    | link f =>
      -- The link takes the fault up: the run is stopped already.
      have noted : { s' with lastError := some (.link f) } = s' := by rw [← clean.lastError]
      have idle : s'.stopIfActive r = .finished s' := by simp [Session.stopIfActive, past]
      rw [Frame.recover, noted, idle]
      exact .here ⟨rfl, rfl⟩ ⟨rfl, rfl, clean.recovered⟩
    | _ => exact .here ⟨rfl, rfl⟩ ⟨rfl, rfl, clean.recovered⟩

/-! ## The completion callback -/

theorem Base.ground {base : List Frame} (hb : Base h base) : Ground base := by
  induction hb with
  | bottom => exact .bottom
  | inside _ d ds _ ih => exact .inside d ds ih

/-- When nothing is under way, no answers are owed. -/
theorem Ground.owing {base : List Frame} {P : RunId → Callback → Ledger → List Frame → Prop}
    {owers : List RunId} (ground : Ground base) (owing : Owing P base owers) : owers = [] := by
  induction ground with
  | bottom => cases owing; rfl
  | inside d ds _ ih =>
    cases owing with
    | other owing =>
      cases owing with
      | other owing => exact ih owing

/-- The completion callback of a run that is over was called once by then. -/
theorem History.called {files : FileTree} {library : Path} {flags : FlagStore} {events : List Event}
    {u : Turn} (history : History anyDeed (Session.fresh files library flags).atRest events u)
    (steady : ∀ e ∈ events, e.isSteady) (ground : Ground u.stack)
    (past : (u.session.run r).isActive = false) {c : Callback} (given : Given events r c) :
    ∃ callers : List RunId, callers.Nodup ∧ r ∈ callers ∧
      List.Forall₂ CompletionCall.IsOf (callsAfter [] events) callers := by
  obtain ⟨⟨callers, owers, b⟩, -⟩ := history.books
  refine ⟨callers, b.distinct.of_append_left, ?_, b.called⟩
  obtain rfl := ground.owing b.owing
  rcases b.complete steady r c given with hr | ⟨hc, hr⟩
  · simpa using hr
  · rw [(b.kept r c hr hc).2.2] at past
    cases past

/-- No figure fails to leave a tidy host. -/
theorem isSteady_of_tidy {t : Turn} {d : Deed} (u : Turn) (allowed : tidy.allow t d) :
    Event.isSteady ⟨t, d, u⟩ := by
  obtain ⟨s, stack, c⟩ := t
  cases d with
  | fail f =>
    cases c with
    | ask a =>
      have fails := allowed a rfl
      cases a <;> first | rfl | exact fails.elim
    | work | done | failed => rfl
  | move | begin | leave | reply | change => rfl

theorem isSteady_of_answers {t : Turn} {d : Deed} (u : Turn) (answering : answers t d) :
    Event.isSteady ⟨t, d, u⟩ := by
  cases d <;> first | rfl | cases answering

theorem History.forall_mem {may : Turn → Deed → Prop} {start t : Turn} {events : List Event}
    {P : Event → Prop} (history : History may start events t)
    (each : ∀ {t d} u, may t d → P ⟨t, d, u⟩) : ∀ e ∈ events, P e := by
  induction history with
  | nil => exact fun _ he => absurd he List.not_mem_nil
  | snoc _ allowed _ ih =>
    intro e he
    rcases List.mem_append.1 he with he | he
    · exact ih e he
    · rw [List.mem_singleton.1 he]
      exact each _ allowed

/-- **A fault in a driven run leaves everything clean.**  The host may fail in every call but those
that make figures leave, cancel timers and take the answers, and come back with answers from inside
the calls that give it a scene.  Whatever then fails while a run is driven, and is no unknown event of a
trigger: the work ends if the host only answers, and the fault goes on to the outermost call, or to the
link that goes on after its write if the fault is one of a link.  Then the run is stopped and waits for
nothing, its graph and answers are gone, all its figures have left, the fault is remembered, nothing is
queued, and a new run can be begun.  If the run was begun with a completion callback, it was called
once. -/
theorem fault_leaves_restartable {files : FileTree} {library : Path} {flags : FlagStore}
    {events : List Event} {s : Session} {frames below : List Frame} {r : RunId} {f : Fault}
    (history : History tidy.allow (Session.fresh files library flags).atRest events
      ⟨s, frames ++ .driving r :: below, .failed f⟩)
    (pass : ∀ frame ∈ frames, frame.letsPass f) :
    ∃ base linking, below = .draining :: (if linking then .linking r :: base else base) ∧ Ground base ∧
      Turn.Ends base (fun gone u => u.control = outcomeOf f linking ∧ gone = (s.run r).npcs ∧
        u.session.Recovered r f) [] ⟨s, frames ++ .driving r :: below, .failed f⟩ ∧
      ∀ later u c, History (answersUntilBack base) ⟨s, frames ++ .driving r :: below, .failed f⟩ later u →
        u.IsBack base → Given events r c →
        ∃ callers : List RunId, callers.Nodup ∧ r ∈ callers ∧
          List.Forall₂ CompletionCall.IsOf (callsAfter [] (events ++ later)) callers := by
  obtain ⟨base, linking, hbelow, hbase, ends⟩ := ends_fault history.stands pass
  refine ⟨base, linking, hbelow, hbase.ground, ends, fun later u c goesOn back given => ?_⟩
  have recovered := (ends.of_history goesOn back).2.2
  have whole : History anyDeed (Session.fresh files library flags).atRest (events ++ later) u :=
    (history.mono fun _ _ _ => trivial).append (goesOn.mono fun _ _ _ => trivial)
  have steady : ∀ e ∈ events ++ later, e.isSteady := by
    intro e he
    rcases List.mem_append.1 he with he | he
    · exact history.forall_mem (P := fun e => e.isSteady) isSteady_of_tidy e he
    · exact goesOn.forall_mem (P := fun e => e.isSteady)
        (fun u allowed => isSteady_of_answers u allowed.2) e he
  refine whole.called steady (back.1 ▸ hbase.ground) ?_ (given.mono (List.subset_append_left _ _))
  simp [Run.isActive, recovered.phase, Phase.isActive]

/-- The quest of a single choice is begun with a callback, and the player takes a way that there is
not. -/
def wrongWay : List Deed :=
  [.begin (.startGraph crossroads (some 7)), .move, .move, .move, .move, .move, .move,
    .reply (.engage (.choice ⟨"fork", "Which way?", ["left", "right"]⟩)) (), .move, .move,
    .begin (.advance (.int 2)), .move, .move, .move, .move]

/-- The player is told, and the quest is over. -/
theorem wrong_way_leaves_restartable :
    let t := (Session.fresh (.empty []) (.ofString "scripts") {}).atRest.play wrongWay
    t.control = .failed (.data (.noSuchOption (.int 2) "fork" 2)) ∧
      t.Ends [] (fun gone u => u.control = .failed (.data (.noSuchOption (.int 2) "fork" 2)) ∧
        gone = [] ∧ u.session.Recovered 0 (.data (.noSuchOption (.int 2) "fork" 2))) [] := by
  intro t
  have modest : ∀ e ∈ (Session.fresh (.empty []) (.ofString "scripts") {}).atRest.record wrongWay,
      e.deed.isModest e.before := by decide +kernel
  have history : History tidy.allow (Session.fresh (.empty []) (.ofString "scripts") {}).atRest _ t :=
    Turn.history_of_play? (Turn.play?_eq (by decide +kernel)) fun e he =>
      tidy.allow_of_isModest (modest e he)
  have control : t.control = .failed (.data (.noSuchOption (.int 2) "fork" 2)) := by decide +kernel
  have stack : t.stack = [] ++ [.driving 0, .draining] := by decide +kernel
  have failed : t = ⟨t.session, [] ++ [.driving 0, .draining],
      .failed (.data (.noSuchOption (.int 2) "fork" 2))⟩ := by rw [← stack, ← control]
  have figures : (t.session.run 0).npcs = [] := by decide +kernel
  rw [failed] at history
  obtain ⟨base, linking, below, -, ends, -⟩ :=
    fault_leaves_restartable history fun frame hf => absurd hf List.not_mem_nil
  cases linking with
  | true => cases below
  | false =>
    cases below
    rw [← failed, figures] at ends
    exact ⟨control, ends⟩

end Questline

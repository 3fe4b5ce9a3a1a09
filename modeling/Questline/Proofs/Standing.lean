import Questline.Proofs.Footing
import Questline.Proofs.Loading

/-!
# What a turn stands on

With a host of given habits a turn has one of a few shapes.  They say less of a run than those of
a gentle host, but they bear the host's faults: a run may be lost in the middle of a visit, when a
scene is shown, or after it was answered.

* `Base`, `Quay`, `Pier`, `Berth`: the stacks below a queue, a link and the end of a run.
* `Turn.Stands`: the shapes, and `Turn.Asks`: those in which the host is called.
* `Turn.Does.stands`: a deed that the habits of the host allow leads from a shape to a shape.
* `History.stands`: so does a history.
-/

namespace Questline

open Json (Value)

/-! ## Stacks -/

/-- Nothing is under way, but perhaps for deliveries from inside which more is begun. -/
inductive Base (h : Habits) : List Frame → Prop
  | bottom : Base h []
  | inside {stack : List Frame} (delivers : h.delivers) (d : Delivery) (ds : List Delivery)
      (base : Base h stack) : Base h (.asked (.deliver d) :: .posting ds :: stack)

/-- Where the queue is worked off. -/
inductive Quay (h : Habits) (r : RunId) : List Frame → Prop
  | base {stack : List Frame} (base : Base h stack) : Quay h r stack
  | linking {stack : List Frame} (delivers : h.delivers) (base : Base h stack) :
      Quay h r (.linking r :: stack)

/-- Where the target of a link is read. -/
inductive Pier (h : Habits) (r : RunId) : (draining : Bool) → List Frame → Prop
  | driving {stack : List Frame} (quay : Quay h r stack) :
      Pier h r true (.driving r :: .draining :: stack)
  | linking {stack : List Frame} (delivers : h.delivers) (base : Base h stack) :
      Pier h r false (.linking r :: stack)

/-- Where a run comes to its end, with the queue as it is then. -/
inductive Berth (h : Habits) (r : RunId) : Bool → List (RunId × Job) → List Frame → Prop
  | base {stack : List Frame} (base : Base h stack) : Berth h r false [] stack
  | failing {stack : List Frame} {f : Fault} (base : Base h stack) :
      Berth h r false [] (.failing f :: stack)
  | driving {stack : List Frame} (quay : Quay h r stack) :
      Berth h r true [] (.driving r :: .draining :: stack)
  | failed {stack : List Frame} {pending : List (RunId × Job)} {f : Fault} (quay : Quay h r stack) :
      Berth h r true pending (.failing f :: .draining :: stack)

/-- The host is given a scene of the run `r`, which waits on `w`: the frames above the one that
drives the run, and what comes next. -/
inductive Displays (r : RunId) (w : Wait) : List Frame → Control → Prop
  | card {c : Card} (kind : w.kind = c.kind) (still : c.kind ≠ .image) :
      Displays r w [] (.ask (.engage c))
  | image {c : Card} {seconds : Number} (kind : c.kind = .image) :
      Displays r w [.timing r w.id seconds] (.ask (.engage c))
  | shown {c : Control} {seconds : Number} (past : c.isOver) : Displays r w [.timing r w.id seconds] c
  | timer {seconds : Number} : Displays r w [] (.ask (.startTimer seconds ⟨r, w.id⟩))
  | battle {opponent : Json.Fields} {node : Node} (kind : w.kind = .combat) :
      Displays r w [] (.ask (.battle opponent ⟨r, w.id, node⟩))

/-! ## Shapes -/

/-- The shapes of a turn with a host of given habits. -/
inductive Turn.Stands (h : Habits) : Turn → Prop
  -- Nothing is under way, or it is about to begin.
  | rest {s : Session} {stack : List Frame} {c : Control} (base : Base h stack) (quiet : s.IsQuiet)
      (past : c.isOver) : Stands h ⟨s, stack, c⟩
  | entering {s : Session} {stack : List Frame} {e : Entry} (base : Base h stack) (quiet : s.IsQuiet)
      (proper : e.isProper) (delivers : e.isDelivery → h.delivers) :
      Stands h ⟨s, stack, .work (.entry e)⟩
  | delivering {s : Session} {stack : List Frame} {d : Delivery} {ds : List Delivery}
      (delivers : h.delivers) (base : Base h stack) (quiet : s.IsQuiet) :
      Stands h ⟨s, .posting ds :: stack, .ask (.deliver d)⟩
  | delivered {s : Session} {stack : List Frame} {c : Control} {ds : List Delivery}
      (delivers : h.delivers) (base : Base h stack) (quiet : s.IsQuiet) (past : c.isOver) :
      Stands h ⟨s, .posting ds :: stack, c⟩
  | resuming {s : Session} {stack : List Frame} {c : Control} {r : RunId} {g : Graph} {job : Job}
      (base : Base h stack) (has : s.Has r false [] (s.run r) (some g)) (moored : s.Moored r)
      (lies : job.Lies g) (cancelling : c.isOver ∨ Cancelling c) :
      Stands h ⟨s, .resuming r job :: stack, c⟩
  -- The queue is worked off.
  | drained {s : Session} {stack : List Frame} {r : RunId} {result : Result} (quay : Quay h r stack)
      (settles : s.Settles r) : Stands h ⟨s, .draining :: stack, .done result⟩
  | broken {s : Session} {stack : List Frame} {r : RunId} {pending : List (RunId × Job)}
      {graph : Option Graph} {f : Fault} (quay : Quay h r stack)
      (has : s.Has r true pending (s.run r) graph) (moored : s.Moored r) :
      Stands h ⟨s, .draining :: stack, .failed f⟩
  | taken {s : Session} {stack : List Frame} {r : RunId} {g : Graph} {job : Job}
      (quay : Quay h r stack) (way : s.OnWay r g) (lies : job.Lies g) :
      Stands h ⟨s, .draining :: stack, .work (.drive r job)⟩
  | onWay {s : Session} {stack frames : List Frame} {c : Control} {r : RunId} {g : Graph}
      (quay : Quay h r stack) (way : s.OnWay r g) (above : ∀ f ∈ frames, f.IsOnWay g)
      (control : c.IsOnWay g) : Stands h ⟨s, frames ++ .driving r :: .draining :: stack, c⟩
  | showing {s : Session} {stack frames : List Frame} {c : Control} {r : RunId} {w : Wait}
      (quay : Quay h r stack) (opens : s.Opens h r w) (displays : Displays r w frames c) :
      Stands h ⟨s, frames ++ .driving r :: .draining :: stack, c⟩
  | lost {s : Session} {stack : List Frame} {r : RunId} {w : Wait} {f : Fault}
      (quay : Quay h r stack) (opens : s.Opens h r w) :
      Stands h ⟨s, .driving r :: .draining :: stack, .failed f⟩
  | settled {s : Session} {stack : List Frame} {r : RunId} (quay : Quay h r stack)
      (settles : s.Settles r) : Stands h ⟨s, .driving r :: .draining :: stack, .done .done⟩
  -- A link is taken.
  | handing {s : Session} {stack : List Frame} {r : RunId} {g : Graph} {node : String} {link : Link}
      {callback : Callback} {ledger : Ledger} (quay : Quay h r stack) (way : s.OnWay r g) :
      Stands h ⟨s, .driving r :: .draining :: stack, .ask (.handOver r node link callback ledger)⟩
  | filling {s : Session} {stack : List Frame} {r : RunId} {draining : Bool} {graph : Option Graph}
      {g : Graph} (pier : Pier h r draining stack) (has : s.Has r draining [] (s.run r) graph)
      (active : (s.run r).isActive) (free : (s.run r).wait = none) (whole : g.IsWhole) :
      Stands h ⟨s, stack, .ask (.fillIn r g)⟩
  | unlinked {s : Session} {stack : List Frame} {r : RunId} {draining : Bool} {graph : Option Graph}
      {f : Fault} (pier : Pier h r draining stack) (has : s.Has r draining [] (s.run r) graph)
      (active : (s.run r).isActive) (free : (s.run r).wait = none) : Stands h ⟨s, stack, .failed f⟩
  | linked {s : Session} {stack : List Frame} {c : Control} {r : RunId} (delivers : h.delivers)
      (base : Base h stack) (stays : s.Stays r false) (past : c.isOver) :
      Stands h ⟨s, .linking r :: stack, c⟩
  -- A run comes to its end.
  | refused {s : Session} {stack : List Frame} {f : Fault} {result : Result} (base : Base h stack)
      (quiet : s.IsQuiet) : Stands h ⟨s, .failing f :: stack, .done result⟩
  | closing {s : Session} {stack frames : List Frame} {c : Control} {r : RunId} {draining : Bool}
      {pending : List (RunId × Job)} {graph : Option Graph} (berth : Berth h r draining pending stack)
      (has : s.Has r draining pending (s.run r) graph) (moored : s.Moored r)
      (above : ∀ f ∈ frames, f.IsClosing r)
      (control : c.IsClosing r ∨ ∃ f a, c = .failed f ∧ Ask.IsClosing r a ∧ h.fails a) :
      Stands h ⟨s, frames ++ stack, c⟩
  -- The host comes back from inside a call.
  | inside {s : Session} {stack : List Frame} {a : Ask} {c : Control} (call : Stands h ⟨s, stack, .ask a⟩)
      (scene : a.isShowing) (answers : h.answers a)
      (control : c.isOver ∨ ∃ e : Entry, c = .work (.entry e) ∧ e.isAnswer) :
      Stands h ⟨s, .asked a :: stack, c⟩

/-- The shapes of a turn that is in a call. -/
inductive Turn.Asks (h : Habits) : Session → List Frame → Ask → Prop
  | delivering {s : Session} {stack : List Frame} {d : Delivery} {ds : List Delivery}
      (delivers : h.delivers) (base : Base h stack) (quiet : s.IsQuiet) :
      Asks h s (.posting ds :: stack) (.deliver d)
  | cancelling {s : Session} {stack : List Frame} {r : RunId} {g : Graph} {job : Job} {timer : TimerHandle}
      (base : Base h stack) (has : s.Has r false [] (s.run r) (some g)) (moored : s.Moored r)
      (lies : job.Lies g) : Asks h s (.resuming r job :: stack) (.cancelTimer timer)
  | onWay {s : Session} {stack frames : List Frame} {a : Ask} {r : RunId} {g : Graph}
      (quay : Quay h r stack) (way : s.OnWay r g) (above : ∀ f ∈ frames, f.IsOnWay g)
      (control : a.IsOnWay g) : Asks h s (frames ++ .driving r :: .draining :: stack) a
  | showing {s : Session} {stack frames : List Frame} {a : Ask} {r : RunId} {w : Wait}
      (quay : Quay h r stack) (opens : s.Opens h r w) (displays : Displays r w frames (.ask a)) :
      Asks h s (frames ++ .driving r :: .draining :: stack) a
  | handing {s : Session} {stack : List Frame} {r : RunId} {g : Graph} {node : String} {link : Link}
      {callback : Callback} {ledger : Ledger} (quay : Quay h r stack) (way : s.OnWay r g) :
      Asks h s (.driving r :: .draining :: stack) (.handOver r node link callback ledger)
  | filling {s : Session} {stack : List Frame} {r : RunId} {draining : Bool} {graph : Option Graph}
      {g : Graph} (pier : Pier h r draining stack) (has : s.Has r draining [] (s.run r) graph)
      (active : (s.run r).isActive) (free : (s.run r).wait = none) (whole : g.IsWhole) :
      Asks h s stack (.fillIn r g)
  | closing {s : Session} {stack frames : List Frame} {a : Ask} {r : RunId} {draining : Bool}
      {pending : List (RunId × Job)} {graph : Option Graph} (berth : Berth h r draining pending stack)
      (has : s.Has r draining pending (s.run r) graph) (moored : s.Moored r)
      (above : ∀ f ∈ frames, f.IsClosing r) (control : a.IsClosing r) : Asks h s (frames ++ stack) a

variable {h : Habits} {s s' : Session} {stack frames : List Frame} {c : Control} {q r : RunId} {g : Graph}
  {graph : Option Graph} {draining : Bool} {pending : List (RunId × Job)} {w : Wait} {job : Job}
  {f : Fault}

namespace Session

/-! ## The files change -/

/-- Files and flags are of no account for how the runs stand. -/
theorem Stays.change (stays : s.Stays r draining) (files : FileTree) (flags : FlagStore) :
    { s with files, flags }.Stays r draining :=
  ⟨stays.has.imp fun _ has => has.change, stays.moored⟩

theorem OnWay.change (way : s.OnWay r g) (files : FileTree) (flags : FlagStore) :
    { s with files, flags }.OnWay r g :=
  ⟨way.has.change, way.phase, way.wait⟩

theorem Awaits.change (awaits : s.Awaits r job g) (files : FileTree) (flags : FlagStore) :
    { s with files, flags }.Awaits r job g :=
  ⟨awaits.has.change, awaits.phase, awaits.wait, awaits.lies⟩

theorem Settles.change (settles : s.Settles r) (files : FileTree) (flags : FlagStore) :
    { s with files, flags }.Settles r := by
  cases settles with
  | stays stays => exact .stays (stays.change files flags)
  | awaits awaits => exact .awaits (awaits.change files flags)

theorem IsQuiet.change (quiet : s.IsQuiet) (files : FileTree) (flags : FlagStore) :
    { s with files, flags }.IsQuiet := by
  cases quiet with
  | unbegun runs current draining pending => exact .unbegun runs current draining pending
  | begun r stays => exact .begun r (stays.change files flags)

theorem Opens.change (opens : s.Opens h r w) (files : FileTree) (flags : FlagStore) :
    { s with files, flags }.Opens h r w := by
  cases opens with
  | held stays phase wait untimed => exact .held (stays.change files flags) phase wait untimed
  | answered answers awaits => exact .answered answers (awaits.change files flags)

end Session

theorem Turn.Stands.change (ht : Turn.Stands h ⟨s, stack, c⟩) (files : FileTree) (flags : FlagStore) :
    Turn.Stands h ⟨{ s with files, flags }, stack, c⟩ := by
  generalize hu : (⟨s, stack, c⟩ : Turn) = u at ht
  induction ht generalizing s stack c with
  | rest base quiet past => cases hu; exact .rest base (quiet.change files flags) past
  | entering base quiet proper delivers =>
    cases hu
    exact .entering base (quiet.change files flags) proper delivers
  | delivering delivers base quiet => cases hu; exact .delivering delivers base (quiet.change files flags)
  | delivered delivers base quiet past =>
    cases hu
    exact .delivered delivers base (quiet.change files flags) past
  | resuming base has moored lies cancelling =>
    cases hu
    exact .resuming base (has.change) moored lies cancelling
  | drained quay settles => cases hu; exact .drained quay (settles.change files flags)
  | broken quay has moored => cases hu; exact .broken quay (has.change) moored
  | taken quay way lies => cases hu; exact .taken quay (way.change files flags) lies
  | onWay quay way above control => cases hu; exact .onWay quay (way.change files flags) above control
  | showing quay opens displays => cases hu; exact .showing quay (opens.change files flags) displays
  | lost quay opens => cases hu; exact .lost quay (opens.change files flags)
  | settled quay settles => cases hu; exact .settled quay (settles.change files flags)
  | handing quay way => cases hu; exact .handing quay (way.change files flags)
  | filling pier has active free whole =>
    cases hu
    exact .filling pier (has.change) active free whole
  | unlinked pier has active free =>
    cases hu
    exact .unlinked pier (has.change) active free
  | linked delivers base stays past => cases hu; exact .linked delivers base (stays.change files flags) past
  | refused base quiet => cases hu; exact .refused base (quiet.change files flags)
  | closing berth has moored above control =>
    cases hu
    exact .closing berth (has.change) moored above control
  | inside call scene answers control ih => cases hu; exact .inside (ih rfl) scene answers control

namespace Turn.Stands

/-- A run on its way that does nothing else. -/
theorem driven (quay : Quay h r stack) (way : s.OnWay r g) (control : c.IsOnWay g) :
    Stands h ⟨s, .driving r :: .draining :: stack, c⟩ := by
  have above : ∀ f ∈ ([] : List Frame), f.IsOnWay g := fun _ hf => absurd hf List.not_mem_nil
  exact .onWay quay way above control

/-- A scene is given to the host, and nothing comes after it. -/
theorem shown (quay : Quay h r stack) (opens : s.Opens h r w) (displays : Displays r w [] c) :
    Stands h ⟨s, .driving r :: .draining :: stack, c⟩ := by
  have stands := showing quay opens displays
  exact stands

/-- An image was shown, and its timer comes next. -/
theorem timing {seconds : Number} (quay : Quay h r stack) (opens : s.Opens h r w) (past : c.isOver) :
    Stands h ⟨s, .timing r w.id seconds :: .driving r :: .draining :: stack, c⟩ := by
  have displays : Displays r w [.timing r w.id seconds] c := .shown past
  have stands := showing quay opens displays
  exact stands

end Turn.Stands

namespace Session

/-! ## The queue -/

/-- A run that is queued when nothing is under way has its turn at once. -/
theorem enqueue_stands (quay : Quay h r stack) (has : s.Has r false [] (s.run r) (some g))
    (phase : (s.run r).phase = .running) (wait : (s.run r).wait = none) (lies : job.Lies g) :
    Turn.Stands h ((s.enqueue r job).on stack) := by
  simp only [enqueue, has.draining_eq, has.pending_eq, List.nil_append, Bool.false_eq_true, if_false,
    Move.on_under]
  exact .drained quay (.awaits ⟨has.of_eq rfl rfl rfl rfl has.graph_eq, phase, wait, lies⟩)

/-- A run that goes on while it is driven has its turn once it has come to rest. -/
theorem enqueue_draining_stands (quay : Quay h r stack) (way : s.OnWay r g) (lies : job.Lies g) :
    Turn.Stands h ((s.enqueue r job).on (.driving r :: .draining :: stack)) := by
  simp only [enqueue, way.has.draining_eq, way.has.pending_eq, List.nil_append, if_true]
  exact .settled quay (.awaits ⟨way.has.of_eq rfl rfl rfl rfl way.has.graph_eq, way.phase, way.wait,
    lies⟩)

theorem drain_stands (quay : Quay h r stack) (settles : s.Settles r) :
    Turn.Stands h (s.drain.on stack) := by
  cases settles with
  | stays stays =>
    obtain ⟨graph, has⟩ := stays.has
    have empty : s.drain = .finished { s with draining := false } := by
      unfold drain
      rw [has.pending_eq]
    rw [empty]
    have stays' : { s with draining := false }.Stays r false :=
      ⟨⟨graph, has.of_eq rfl rfl rfl has.pending_eq has.graph_eq⟩, stays.moored⟩
    have rests : { s with draining := false }.IsQuiet := .begun r stays'
    cases quay with
    | base base => exact .rest base rests rfl
    | linking delivers base => exact .linked delivers base stays' rfl
  | awaits awaits =>
    unfold drain
    rw [awaits.has.pending_eq]
    dsimp only
    rw [Move.on_under]
    exact .taken quay ⟨awaits.has.of_eq rfl rfl awaits.has.draining_eq rfl awaits.has.graph_eq,
      awaits.phase, awaits.wait⟩ awaits.lies

theorem drive_stands (quay : Quay h r stack) (way : s.OnWay r g) (lies : job.Lies g) :
    Turn.Stands h ((s.drive r job).on (.draining :: stack)) := by
  rw [drive, if_pos way.owns, Move.on_under]
  refine .driven quay way ?_
  cases job with
  | enter graph => obtain ⟨rfl, whole⟩ := lies; exact ⟨rfl, whole⟩
  | respond | resolve => exact lies

/-! ## Links -/

theorem install_stands (pier : Pier h r draining stack) (has : s.Has r draining [] (s.run r) graph)
    (free : (s.run r).wait = none) (whole : g.IsWhole) :
    Turn.Stands h ((s.install r g).on stack) := by
  have has' : Has { s.setRun r (Run.moved g) with graph := some g } r draining [] ((s.run r).moved g)
      (some g) :=
    (has.setRun (Run.moved g)).of_eq rfl rfl has.draining_eq has.pending_eq rfl
  have phase := congrArg Run.phase has'.run_eq
  have wait := (congrArg Run.wait has'.run_eq).trans free
  rw [install_eq]
  cases pier with
  | driving quay => exact enqueue_draining_stands quay ⟨has'.self, phase, wait⟩ ⟨rfl, whole⟩
  | linking delivers base => exact enqueue_stands (.linking delivers base) has'.self phase wait ⟨rfl, whole⟩

theorem loadTarget_stands (pier : Pier h r draining stack)
    (has : s.Has r draining [] (s.run r) graph) (active : (s.run r).isActive)
    (free : (s.run r).wait = none) (link : Link) :
    Turn.Stands h ((s.loadTarget r link).on stack) := by
  rcases s.loadTarget_cases r link with ⟨f, h⟩ | ⟨g, hl, h | h⟩
  · rw [h]
    exact .unlinked pier has active free
  · rw [h]
    exact .filling pier has active free (Graph.isWhole_of_load hl)
  · rw [h]
    exact install_stands pier has free (Graph.isWhole_of_load hl)

theorem afterWrite_stands (pier : Pier h r draining stack)
    (has : s.Has r draining [] (s.run r) graph) (active : (s.run r).isActive)
    (free : (s.run r).wait = none) (link : Link) (outcome : WriteOutcome) :
    Turn.Stands h ((s.afterWrite r link outcome).on stack) := by
  cases outcome with
  | written => exact loadTarget_stands pier has active free link
  | failed | cancelled => exact .unlinked pier has active free

/-- A run that is suspended waits on a new wait. -/
theorem Has.suspend (has : s.Has r draining pending (s.run r) graph) (kind : WaitKind) (node : String) :
    (s.suspend r kind node).Has r draining pending { s.run r with
      wait := some { id := s.nextWait, kind, node }
      phase := .suspended
      activity := kind.activity } graph :=
  (has.setRun fun run => { run with
    wait := some { id := s.nextWait, kind, node }
    phase := .suspended
    activity := kind.activity }).of_eq rfl rfl has.draining_eq has.pending_eq has.graph_eq

theorem afterHandOver_stands (quay : Quay h r stack) (way : s.OnWay r g) (node : String) (link : Link)
    (receipt : Receipt) :
    Turn.Stands h ((s.afterHandOver r node link receipt).on (.driving r :: .draining :: stack)) := by
  cases receipt with
  | plain => exact loadTarget_stands (.driving quay) way.has way.isActive way.wait link
  | finished outcome =>
    exact afterWrite_stands (.driving quay) way.has way.isActive way.wait link outcome
  | pending ticket =>
    have has := way.has.suspend .link node
    have has' : Has { s.suspend r .link node with
        writes := s.writes ++ [(ticket, { run := r, wait := s.nextWait, link })] } r true [] _ (some g) :=
      has.of_eq rfl rfl has.draining_eq has.pending_eq has.graph_eq
    refine .settled quay (.stays ⟨⟨some g, has'.self⟩, .of_link fun w hw => ?_⟩)
    cases (congrArg Run.wait has.run_eq).symm.trans hw
    rfl

theorem transfer_stands (quay : Quay h r stack) (way : s.OnWay r g) (node : String) (link : Link) :
    Turn.Stands h ((s.transfer r node link).on (.driving r :: .draining :: stack)) := by
  unfold transfer
  split
  · exact loadTarget_stands (.driving quay) way.has way.isActive way.wait link
  · exact .handing quay (Strides.onWay (.setRun (fun _ => rfl) fun _ => rfl) way)

/-! ## The end of a run -/

theorem closing_stands {m : Move} (berth : Berth h r draining pending stack)
    (has : s.Has r draining pending (s.run r) graph) (moored : s.Moored r) (closes : m.Closes r s) :
    Turn.Stands h (m.on stack) :=
  .closing berth (closes.session.has has) (closes.session.moored moored) closes.frames (.inl closes.control)

/-! ## Coming to rest -/

/-- A run is suspended before the host is given the scene. -/
theorem pause_stands (quay : Quay h r stack) (way : s.OnWay r g) {node : Node}
    (inGraph : g.node? node.id = some node) (scene : Scene) :
    Turn.Stands h ((s.pause r node scene).on (.driving r :: .draining :: stack)) := by
  have has := way.has.suspend scene.kind node.id
  have run := has.run_eq
  have opens : (s.suspend r scene.kind node.id).Opens h r
      { id := s.nextWait, kind := scene.kind, node := node.id } := by
    refine .held ⟨⟨some g, has.self⟩, fun w hw _ => ⟨g, node, has.graph_eq, ?_⟩⟩ (congrArg Run.phase run)
      (congrArg Run.wait run) rfl
    cases (congrArg Run.wait run).symm.trans hw
    exact inGraph
  cases scene with
  | battle opponent => exact .shown quay opens (.battle rfl)
  | card card =>
    cases card with
    | dialogue | choice =>
      exact .shown quay opens (.card rfl fun hk => by cases hk)
    | image card =>
      have stands := Turn.Stands.showing quay opens
        (.image rfl : Displays r _ [.timing r s.nextWait card.duration] (.ask (.engage (.image card))))
      exact stands

theorem settle_stands (quay : Quay h r stack) (way : s.OnWay r g) {step : Step} (lies : step.Lies g) :
    Turn.Stands h ((s.settle r step).on (.driving r :: .draining :: stack)) := by
  have closing (phase : Phase) :
      Turn.Stands h ((s.terminate r phase).on (.driving r :: .draining :: stack)) :=
    closing_stands (.driving quay) way.has way.moored (terminate_closes s phase)
  unfold settle
  unfold Step.Lies at lies
  cases ha : step.action with
  | next n => exact .settled quay (.stays way.stays)
  | suspend scene =>
    rw [ha] at lies
    exact pause_stands quay way lies scene
  | link link => exact transfer_stands quay way _ link
  | finish => exact closing _
  | terminal => exact closing _

theorem proceed_stands (quay : Quay h r stack) (way : s.OnWay r g) {step : Step} (lies : step.Lies g) :
    Turn.Stands h ((s.proceed r step).on (.draining :: stack)) := by
  rw [proceed, if_pos way.owns]
  cases ha : step.action with
  | next n =>
    have inGraph : g.node? n.id = some n := by
      unfold Step.Lies at lies
      rwa [ha] at lies
    simp only [way.has.graph_eq, Move.on_under]
    exact .driven quay way ⟨rfl, inGraph⟩
  | suspend | link | finish | terminal =>
    simp only [Move.on_under]
    exact settle_stands quay way lies

/-! ## Entries -/

/-- Nothing is under way: no run goes on, or the current one does. -/
theorem IsQuiet.idle_or_active (quiet : s.IsQuiet) :
    s.Idle none ∨ ∃ r graph, s.Has r false [] (s.run r) graph ∧ (s.run r).isActive ∧ s.Moored r := by
  cases quiet with
  | unbegun runs current draining pending =>
    refine .inl ⟨fun q hq => ?_, fun r hr => ?_, draining, pending, fun _ hv => (Option.not_mem_none _ hv).elim⟩
    · rw [runs] at hq
      cases hq
    · rw [current] at hr
      cases hr
  | begun r stays =>
    obtain ⟨graph, has⟩ := stays.has
    cases active : (s.run r).isActive with
    | true => exact .inr ⟨r, graph, has, active, stays.moored⟩
    | false =>
      refine .inl ⟨has.idle active, fun q hq => ?_, has.draining_eq, has.pending_eq,
        fun _ hv => (Option.not_mem_none _ hv).elim⟩
      obtain rfl := Option.some.inj (has.current.symm.trans hq)
      exact has.lt

theorem startGraph_stands (base : Base h stack) (idle : s.Idle none) (whole : g.IsWhole)
    (completion : Option Callback) : Turn.Stands h ((s.startGraph g completion).on stack) := by
  have has := idle.has_addRun { script := g.id, npcs := s.carriedNpcs, completion } g
  rw [idle.isIdle.startGraph_eq]
  exact enqueue_stands (.base base) has.self (congrArg Run.phase has.run_eq)
    (congrArg Run.wait has.run_eq) ⟨rfl, whole⟩

/-- Stopping does nothing, or ends the current run. -/
theorem IsQuiet.stop_cases (quiet : s.IsQuiet) : s.stop = .finished s ∨
    ∃ r graph, s.Has r false [] (s.run r) graph ∧ s.Moored r ∧ s.stop = s.terminate r .stopped := by
  rcases s.stop_cases with h | ⟨q, current, -, h⟩
  · exact .inl h
  · cases quiet with
    | unbegun _ none => cases none.symm.trans current
    | begun r stays =>
      obtain ⟨graph, has⟩ := stays.has
      obtain rfl := Option.some.inj (has.current.symm.trans current)
      exact .inr ⟨_, graph, has, stays.moored, h⟩

/-- What is left of a paused run is stopped before a fault goes on. -/
theorem stop_failing_stands (base : Base h stack) (quiet : s.IsQuiet) (f : Fault) :
    Turn.Stands h (s.stop.on (.failing f :: stack)) := by
  rcases quiet.stop_cases with h | ⟨r, graph, has, moored, h⟩
  · rw [h]
    exact .refused base quiet
  · rw [h]
    exact closing_stands (.failing base) has moored (terminate_closes s _)

theorem start_stands (base : Base h stack) (quiet : s.IsQuiet) (script : String)
    (completion : Option Callback) : Turn.Stands h ((s.start script completion).on stack) := by
  rcases s.start_cases script completion with ⟨f, h⟩ | ⟨still, ⟨g, hl, h⟩ | ⟨f, -, h⟩⟩
  · rw [h]
    exact .rest base quiet rfl
  · rcases quiet.idle_or_active with idle | ⟨r, graph, has, active, -⟩
    · rw [h]
      exact startGraph_stands base idle (Graph.isWhole_of_load hl) completion
    · rw [still r has.current] at active
      cases active
  · have quiet' : IsQuiet { s with lastError := some (.data f) } := by
      cases quiet with
      | unbegun runs current draining pending => exact .unbegun runs current draining pending
      | begun r stays =>
        exact .begun r ⟨stays.has.imp fun _ has => has.of_eq rfl rfl has.draining_eq has.pending_eq
          has.graph_eq, stays.moored⟩
    rw [h, Move.on_under]
    exact stop_failing_stands base quiet' _

theorem stop_stands (base : Base h stack) (quiet : s.IsQuiet) : Turn.Stands h (s.stop.on stack) := by
  rcases quiet.stop_cases with h | ⟨r, graph, has, moored, h⟩
  · rw [h]
    exact .rest base quiet rfl
  · rw [h]
    exact closing_stands (.base base) has moored (terminate_closes s _)

/-! ### Answers -/

/-- The session itself, or the one in which the wait of the run `r` has no timer any more. -/
inductive Untimes (r : RunId) (s : Session) : Session → Prop
  | same : Untimes r s s
  | untimed (w : WaitId) : Untimes r s (s.setRun r (·.setTimer w false))

theorem Untimes.closes (u : Untimes r s s') : s.Closes r s' := by
  cases u with
  | same => exact .refl s
  | untimed w =>
    refine .setRun fun run w' hw' => ?_
    obtain ⟨w, hw, rfl⟩ := Option.map_eq_some_iff.1 hw'
    refine ⟨w, hw, ?_⟩
    split <;> exact ⟨rfl, rfl⟩

theorem Untimes.graph_eq (u : Untimes r s s') : s'.graph = s.graph := by
  cases u <;> rfl

theorem Untimes.phase (u : Untimes r s s') : (s'.run r).phase = (s.run r).phase := by
  cases u with
  | same => rfl
  | untimed w =>
    rw [run_setRun]
    split <;> rfl

/-- A wait without a timer stays as it is. -/
theorem Untimes.wait (u : Untimes r s s') (hw : (s.run r).wait = some w) (untimed : w.timer = false) :
    (s'.run r).wait = some w := by
  cases u with
  | same => exact hw
  | untimed v =>
    rw [run_setRun]
    split
    · obtain ⟨id, kind, node, timer⟩ := w
      obtain rfl : timer = false := untimed
      simp only [Run.setTimer, hw, Option.map_some]
      split <;> rfl
    · exact hw

/-- What becomes of an answer while the run `r` is current: it is refused or comes too late, or it
is taken up. -/
inductive Hears (s : Session) (r : RunId) : Move → Prop
  | refused {s' : Session} {c : Control} (u : Untimes r s s') (past : c.isOver) : Hears s r ⟨s', [], c⟩
  | taken {s' : Session} {w : Wait} {job : Job} {g : Graph} (u : Untimes r s s')
      (phase : (s.run r).phase = .suspended) (wait : (s'.run r).wait = some w)
      (graph : s.graph = some g) (lies : job.Lies g) : Hears s r (s'.clear r job)

theorem resumeInput_hears (u : Untimes r s s') (phase : (s.run r).phase = .suspended)
    (wait : (s'.run r).wait = some w) (answer : Value) : s.Hears r (s'.resumeInput r w answer) := by
  rcases s'.resumeInput_cases r w answer with ⟨f, h⟩ | ⟨g, node, hg, -, h⟩
  · rw [h]
    exact .refused u rfl
  · rw [h]
    exact .taken u phase wait (u.graph_eq ▸ hg) rfl

/-- **An answer** that comes while the run `r` is current. -/
theorem enter_hears (has : s.Has r draining pending (s.run r) graph) {e : Entry} (answer : e.isAnswer) :
    s.Hears r (s.enter e) := by
  have suspended {q : RunId} {v : WaitId} (waits : s.isWaiting q v) :
      q = r ∧ (s.run r).phase = .suspended ∧ ∃ w, (s.run r).wait = some w ∧ w.id = v := by
    obtain ⟨hc, hw⟩ := Bool.and_eq_true_iff.1 waits
    obtain rfl := has.eq_of_waiting hw
    simp only [Run.isWaitingOn, Bool.and_eq_true, beq_iff_eq, Option.any_eq_true] at hw
    exact ⟨rfl, hw.1, hw.2⟩
  cases e with
  | advance value =>
    show s.Hears r (s.advance value)
    rcases s.advance_cases value with ⟨f, h⟩ | ⟨q, w, current, phase, wait, -, -, h⟩
    · rw [h]
      exact .refused .same rfl
    · obtain rfl := Option.some.inj (has.current.symm.trans current)
      rw [h]
      exact resumeInput_hears .same phase wait value
  | battleOver battle outcome =>
    show s.Hears r (s.battleOver battle outcome)
    rcases s.battleOver_cases battle outcome with ⟨-, h⟩ | ⟨waits, ⟨f, h⟩ | ⟨g, hg, h⟩⟩
    · rw [h]
      exact .refused .same rfl
    · rw [h]
      exact .refused .same rfl
    · obtain ⟨hr, phase, w, wait, -⟩ := suspended waits
      rw [h, hr]
      exact .taken .same phase wait hg rfl
  | timeUp timer =>
    show s.Hears r (s.timeUp timer)
    rcases s.timeUp_cases timer with ⟨-, h⟩ | ⟨waits, w, hw, id, h⟩
    · rw [h]
      exact .refused .same rfl
    · obtain ⟨hr, phase, -⟩ := suspended waits
      rw [hr] at hw h
      have wait : ((s.setRun r (·.setTimer timer.wait false)).run r).wait =
          some { w with timer := false } := by
        rw [run_setRun_self has.lt, Run.setTimer, hw, Option.map_some, if_pos id]
      rw [h]
      exact resumeInput_hears (.untimed _) phase wait .null
  | start | startGraph | stop | written | settle => cases answer

/-- Without a current run there is nothing to answer. -/
theorem enter_stands_of_unbegun (base : Base h stack) (quiet : s.IsQuiet) (runs : s.runs = [])
    {e : Entry} (answer : e.isAnswer) : Turn.Stands h ((s.enter e).on stack) := by
  have free (q : RunId) (w : WaitId) : (s.run q).isWaitingOn w = false := by
    rw [run_of_length_le (by simp [runs])]
    rfl
  rcases enter_of_not_waiting free answer with ⟨f, he⟩ | ⟨he, -⟩
  all_goals
    rw [he]
    exact .rest base quiet rfl

theorem Untimes.stays (u : Untimes r s s') (stays : s.Stays r draining) : s'.Stays r draining := by
  obtain ⟨graph, has⟩ := stays.has
  exact ⟨⟨_, u.closes.has has⟩, u.closes.moored stays.moored⟩

theorem resume_stands (base : Base h stack) (has : s.Has r false [] (s.run r) (some g))
    (lies : job.Lies g) : Turn.Stands h ((s.resume r job).on stack) := by
  have has' := has.setRun fun run =>
    { run with wait := none, phase := .running, activity := .running }
  exact enqueue_stands (.base base) has'.self (congrArg Run.phase has'.run_eq)
    (congrArg Run.wait has'.run_eq) lies

/-- An answer that comes when nothing is under way. -/
theorem Hears.atRest {m : Move} (hears : s.Hears r m) (base : Base h stack) (stays : s.Stays r false) :
    Turn.Stands h (m.on stack) := by
  cases hears with
  | refused u past => exact .rest base (.begun r (u.stays stays)) past
  | @taken s' w job g u phase wait graph lies =>
    obtain ⟨_, has⟩ := (u.stays stays).has
    have has' : s'.Has r false [] (s'.run r) (some g) :=
      has.of_eq rfl rfl has.draining_eq has.pending_eq (u.graph_eq.trans graph)
    have moored := (u.stays stays).moored
    rcases s'.clear_cases r job with ⟨v, -, -, h⟩ | ⟨-, h⟩
    · have calm : Untimes r s' _ := .untimed v.id
      rw [h, Move.on_under]
      exact .resuming base (has'.setRun _).self (calm.closes.moored moored) lies (.inr .ask)
    · rw [h]
      exact resume_stands base has' lies

/-- An answer that comes from inside the call that gives the scene to the host. -/
theorem Hears.fromInside {m : Move} {a : Ask} (hears : s.Hears r m) (quay : Quay h r stack)
    (opens : s.Opens h r w) (displays : Displays r w frames (.ask a)) (scene : a.isShowing)
    (answers : h.answers a) :
    Turn.Stands h (m.on (.asked a :: (frames ++ .driving r :: .draining :: stack))) := by
  cases hears with
  | refused u past =>
    refine .inside (.showing quay ?_ displays) scene answers (.inl past)
    cases opens with
    | held stays phase wait untimed =>
      exact .held (u.stays stays) (u.phase.trans phase) (u.wait wait untimed) untimed
    | answered other awaits =>
      cases u with
      | same => exact .answered other awaits
      | untimed v =>
        have has := awaits.has.setRun (·.setTimer v false)
        refine .answered other ⟨has.self, (congrArg Run.phase has.run_eq).trans awaits.phase, ?_, awaits.lies⟩
        rw [has.run_eq, Run.setTimer, awaits.wait, Option.map_none]
  | @taken s' v job g u phase wait graph lies =>
    cases opens with
    | answered _ awaits => cases awaits.phase.symm.trans phase
    | held stays _ waits untimed =>
      obtain rfl := Option.some.inj (wait.symm.trans (u.wait waits untimed))
      obtain ⟨_, has⟩ := (u.stays stays).has
      have has' := (has.of_eq rfl rfl has.draining_eq has.pending_eq (u.graph_eq.trans graph)).setRun
        fun run => { run with wait := none, phase := .running, activity := .running }
      have cleared : s'.clear r job = s'.resume r job := by
        refine s'.withoutTimer_of_untimed r (fun w hw => ?_) _ _
        obtain rfl := Option.some.inj (wait.symm.trans hw)
        exact untimed
      simp only [cleared, resume, enqueue, has'.draining_eq, has'.pending_eq, if_true, List.nil_append]
      refine .inside (.showing quay (.answered ⟨_, answers⟩ ⟨?_, ?_, ?_, lies⟩) displays) scene answers
        (.inl rfl)
      · have queued : Has { s'.setRun r fun run => { run with
            wait := none, phase := .running, activity := .running } with
            pending := [(r, job)], draining := true } r true [(r, job)] _ (some g) :=
          has'.of_eq rfl rfl rfl rfl has'.graph_eq
        exact queued.self
      · exact congrArg Run.phase has'.run_eq
      · exact congrArg Run.wait has'.run_eq

/-! ### Writes -/

theorem deliver_stands (delivers : h.delivers) (base : Base h stack) (quiet : s.IsQuiet) (d : Delivery) :
    Turn.Stands h ((s.deliver d).on stack) := by
  rcases s.deliver_cases d with ⟨-, h⟩ | ⟨waits, h⟩
  · rw [h]
    exact .rest base quiet rfl
  · rw [h]
    cases quiet with
    | unbegun runs =>
      rw [run_of_length_le (by simp [runs])] at waits
      cases waits
    | begun r stays =>
      obtain ⟨graph, has⟩ := stays.has
      obtain hr := has.eq_of_waiting waits
      rw [hr] at waits ⊢
      have active : (s.run r).isActive := by
        cases past : (s.run r).isActive with
        | true => rfl
        | false => rw [Run.not_isWaitingOn_of_not_isActive past] at waits; cases waits
      have has' := has.setRun fun run => { run with wait := none }
      rw [Move.on_under]
      exact afterWrite_stands (.linking delivers base) has'.self (has'.run_eq ▸ active)
        (congrArg Run.wait has'.run_eq) _ _

theorem post_stands (delivers : h.delivers) (base : Base h stack) (quiet : s.IsQuiet)
    (ds : List Delivery) : Turn.Stands h ((s.post ds).on stack) := by
  cases ds with
  | nil => exact .rest base quiet rfl
  | cons d ds => exact .delivering delivers base quiet

/-- **Every entry** that the host begins when nothing is under way. -/
theorem enter_stands (base : Base h stack) (quiet : s.IsQuiet) {e : Entry} (proper : e.isProper)
    (delivers : e.isDelivery → h.delivers) : Turn.Stands h ((s.enter e).on stack) := by
  by_cases answer : e.isAnswer
  · cases quiet with
    | unbegun runs current draining pending =>
      exact enter_stands_of_unbegun base (.unbegun runs current draining pending) runs answer
    | begun r stays =>
      obtain ⟨graph, has⟩ := stays.has
      exact (enter_hears has answer).atRest base stays
  · cases e with
    | start script completion => exact start_stands base quiet script completion
    | startGraph g completion =>
      rcases quiet.idle_or_active with idle | ⟨r, graph, has, active, -⟩
      · exact startGraph_stands base idle (of_decide_eq_true proper) completion
      · rw [enter, startGraph, ensureIdle_of_active has active]
        exact .rest base quiet rfl
    | stop => exact stop_stands base quiet
    | written d => exact deliver_stands (delivers rfl) base quiet d
    | settle ticket outcome =>
      refine post_stands (delivers rfl) base ?_ _
      cases quiet with
      | unbegun runs current draining pending => exact .unbegun runs current draining pending
      | begun r stays =>
        exact .begun r ⟨stays.has.imp fun _ has => has.of_eq rfl rfl has.draining_eq has.pending_eq
          has.graph_eq, stays.moored⟩
    | advance | battleOver | timeUp => exact absurd rfl answer

end Session

/-! ## Deeds -/

namespace Turn.Stands

variable {t u : Turn} {a : Ask} {e : Entry} {m : Move}

/-- A move on the way of a run. -/
theorem strides (quay : Quay h r stack) (way : s.OnWay r g) (above : ∀ f ∈ frames, f.IsOnWay g)
    (strides : m.Strides g s) : Stands h (m.on (frames ++ .driving r :: .draining :: stack)) := by
  have on : m.on (frames ++ .driving r :: .draining :: stack) =
      ⟨m.session, (m.frames ++ frames) ++ .driving r :: .draining :: stack, m.control⟩ := by
    simp [Move.on]
  rw [on]
  refine .onWay quay (strides.session.onWay way) (fun f hf => ?_) strides.control
  rcases List.mem_append.1 hf with hf | hf
  · exact strides.frames f hf
  · exact above f hf

/-- A move at the end of a run. -/
theorem closes (berth : Berth h r draining pending stack)
    (has : s.Has r draining pending (s.run r) graph) (moored : s.Moored r)
    (above : ∀ f ∈ frames, f.IsClosing r) (closes : m.Closes r s) :
    Stands h (m.on (frames ++ stack)) := by
  have on : m.on (frames ++ stack) = ⟨m.session, (m.frames ++ frames) ++ stack, m.control⟩ := by
    simp [Move.on]
  rw [on]
  refine .closing berth (closes.session.has has) (closes.session.moored moored) (fun f hf => ?_)
    (.inl closes.control)
  rcases List.mem_append.1 hf with hf | hf
  · exact closes.frames f hf
  · exact above f hf

/-- **A fault in a driven run** stops it, whatever is queued. -/
theorem recover (quay : Quay h r stack) (has : s.Has r true pending (s.run r) graph) (moored : s.Moored r)
    (f : Fault) : Stands h (((Frame.driving r).recover s f).on (.draining :: stack)) := by
  have has' : { s with lastError := some f }.Has r true pending (s.run r) graph :=
    has.of_eq rfl rfl has.draining_eq has.pending_eq has.graph_eq
  rw [Frame.recover, Move.on_under]
  exact Session.closing_stands (.failed quay) has' moored (Session.stopIfActive_closes _)

/-- A fault reaches the queue. -/
theorem spill (quay : Quay h r stack) (has : s.Has r true pending (s.run r) graph) (moored : s.Moored r)
    (f : Fault) : Stands h ((Frame.draining.recover s f).on stack) := by
  have stays : { s with pending := [], draining := false }.Stays r false :=
    ⟨⟨graph, has.of_eq rfl rfl rfl rfl has.graph_eq⟩, moored⟩
  cases quay with
  | base base => exact .rest base (.begun r stays) rfl
  | linking delivers base => exact .linked delivers base stays rfl

/-- A fault reaches the link that went on after its write. -/
theorem unlink (base : Base h stack) (stays : s.Stays r false) (f : Fault) :
    Stands h (((Frame.linking r).recover s f).on stack) := by
  obtain ⟨graph, has⟩ := stays.has
  cases f with
  | link f =>
    have has' : { s with lastError := some (.link f) }.Has r false [] (s.run r) graph :=
      has.of_eq rfl rfl has.draining_eq has.pending_eq has.graph_eq
    exact Session.closing_stands (.base base) has' stays.moored (Session.stopIfActive_closes _)
  | _ => exact .rest base (.begun r stays) rfl

/-- Nothing moves at rest. -/
theorem not_next (base : Base h stack) (past : c.isOver) : (⟨s, stack, c⟩ : Turn).next? ≠ some u := by
  intro hn
  cases base <;> cases c <;> first | (cases past; done) | cases hn

/-- In a call a turn has one of these shapes. -/
theorem asks (ht : Stands h ⟨s, stack, .ask a⟩) : Asks h s stack a := by
  generalize hu : (⟨s, stack, .ask a⟩ : Turn) = u at ht
  cases ht with
  | rest _ _ past | delivered _ _ _ past | linked _ _ _ past => cases hu; cases past
  | delivering delivers base quiet => cases hu; exact .delivering delivers base quiet
  | resuming base has moored lies cancelling =>
    cases hu
    rcases cancelling with past | cancelling
    · cases past
    · cases cancelling
      exact .cancelling base has moored lies
  | onWay quay way above control => cases hu; exact .onWay quay way above control
  | showing quay opens displays => cases hu; exact .showing quay opens displays
  | handing quay way => cases hu; exact .handing quay way
  | filling pier has active free whole => cases hu; exact .filling pier has active free whole
  | closing berth has moored above control =>
    cases hu
    rcases control with control | ⟨_, _, hc, -⟩
    · exact .closing berth has moored above control
    · cases hc
  | inside _ _ _ control =>
    cases hu
    rcases control with past | ⟨_, hc, -⟩
    · cases past
    · cases hc
  | entering | drained | broken | taken | lost | settled | unlinked | refused => cases hu

/-- A turn with a task to do begins something, drives a run, goes on with one, or ends one. -/
theorem works (ht : Stands h ⟨s, stack, .work task⟩) :
    (∃ e, task = .entry e ∧ (Base h stack ∨ e.isAnswer)) ∨
      (∃ r job g, task = .drive r job ∧ s.OnWay r g ∧ job.Lies g) ∨
      (∃ g, task.IsOnWay g) ∨ ∃ r phase, task = .terminate r phase := by
  generalize hu : (⟨s, stack, .work task⟩ : Turn) = u at ht
  cases ht with
  | rest _ _ past | delivered _ _ _ past | linked _ _ _ past => cases hu; cases past
  | entering base => cases hu; exact .inl ⟨_, rfl, .inl base⟩
  | resuming _ _ _ _ cancelling => cases hu; rcases cancelling with hc | hc <;> cases hc
  | taken _ way lies => cases hu; exact .inr (.inl ⟨_, _, _, rfl, way, lies⟩)
  | onWay _ _ _ control => cases hu; exact .inr (.inr (.inl ⟨_, control⟩))
  | showing _ _ displays => cases hu; cases displays with | shown past => cases past
  | closing _ _ _ _ control =>
    cases hu
    rcases control with control | ⟨_, _, hc, -⟩
    · cases task with
      | terminate q phase => exact .inr (.inr (.inr ⟨q, phase, rfl⟩))
      | _ => cases control
    · cases hc
  | inside _ _ _ control =>
    cases hu
    rcases control with past | ⟨e, hc, answer⟩
    · cases past
    · cases hc
      exact .inl ⟨e, rfl, .inr answer⟩
  | delivering | drained | broken | lost | settled | handing | filling | unlinked | refused => cases hu

/-- Where a scene is shown, a run waits for an answer, or was given one already. -/
theorem shows (ht : Stands h ⟨s, stack, .ask a⟩) (scene : a.isShowing) :
    ∃ frames r w below, stack = frames ++ .driving r :: .draining :: below ∧ Quay h r below ∧
      s.Opens h r w ∧ Displays r w frames (.ask a) := by
  cases ht.asks with
  | showing quay opens displays => exact ⟨_, _, _, _, rfl, quay, opens, displays⟩
  | delivering | cancelling | handing | filling => cases scene
  | onWay _ _ _ control | closing _ _ _ _ control =>
    cases a <;> first | (cases scene; done) | cases control

/-- **The session's own move.** -/
theorem next (ht : Stands h t) (hn : t.next? = some u) : Stands h u := by
  cases ht with
  | rest base quiet past => exact absurd hn (not_next base past)
  | entering base quiet proper delivers => cases hn; exact Session.enter_stands base quiet proper delivers
  | delivering => cases hn
  | @delivered _ _ c ds delivers base quiet past =>
    cases c with
    | work | ask => cases past
    | done | failed => cases hn; exact Session.post_stands delivers base quiet ds
  | @resuming _ _ c r _ _ base has moored lies cancelling =>
    cases c with
    | work => rcases cancelling with hc | hc <;> cases hc
    | ask => cases hn
    | done => cases hn; exact Session.resume_stands base has lies
    | failed => cases hn; exact .rest base (.begun r ⟨⟨_, has⟩, moored⟩) rfl
  | drained quay settles => cases hn; exact Session.drain_stands quay settles
  | broken quay has moored => cases hn; exact spill quay has moored _
  | taken quay way lies => cases hn; exact Session.drive_stands quay way lies
  | @onWay s stack frames c r _ quay way above control =>
    cases c with
    | work task => cases hn; exact strides quay way above (task.begin_strides _ control)
    | ask => cases hn
    | done result =>
      cases frames with
      | nil =>
        cases result with
        | done => cases hn; exact .drained quay (.stays way.stays)
        | stepped step => cases hn; exact Session.proceed_stands quay way control
      | cons f frames =>
        have head := above f List.mem_cons_self
        obtain rfl := Option.some.inj (hn.symm.trans (next?_of_does (.receive head.not_asked)))
        exact strides quay way (fun g hg => above g (List.mem_cons_of_mem _ hg))
          (f.receive_strides s head result)
    | failed fault =>
      cases frames with
      | nil => cases hn; exact recover quay way.has way.moored fault
      | cons f frames =>
        have head := above f List.mem_cons_self
        obtain rfl := Option.some.inj (hn.symm.trans (next?_of_does (.recover head.not_asked)))
        exact strides quay way (fun g hg => above g (List.mem_cons_of_mem _ hg))
          (f.recover_strides s head fault)
  | @showing s _ _ c r w quay opens displays =>
    cases displays with
    | card | image | timer | battle => cases hn
    | shown past =>
      cases c with
      | work | ask => cases past
      | done =>
        cases hn
        simp only [Frame.receive]
        split
        · exact .shown quay opens .timer
        · exact .settled quay opens.settles
      | failed => cases hn; exact .lost quay opens
  | lost quay opens =>
    obtain ⟨_, _, has, -, moored⟩ := opens.has
    cases hn
    exact recover quay has moored _
  | settled quay settles => cases hn; exact .drained quay settles
  | handing => cases hn
  | filling => cases hn
  | unlinked pier has active free =>
    cases pier with
    | driving quay => cases hn; exact recover quay has (.of_wait free) _
    | linking delivers base => cases hn; exact unlink base ⟨⟨_, has⟩, .of_wait free⟩ _
  | @linked _ _ c r delivers base stays past =>
    cases c with
    | work | ask => cases past
    | done => cases hn; exact .rest base (.begun r stays) rfl
    | failed => cases hn; exact unlink base stays _
  | refused base quiet => cases hn; exact .rest base quiet rfl
  | @closing s stack frames c r draining pending graph berth has moored above control =>
    cases c with
    | work task =>
      rcases control with control | ⟨_, _, hc, -⟩
      · cases task with
        | terminate q phase =>
          cases hn
          cases (control : q = r)
          exact closes berth has moored above (s.terminate_closes phase)
        | _ => cases control
      · cases hc
    | ask => cases hn
    | done result =>
      cases frames with
      | nil =>
        cases berth with
        | base base => exact absurd hn (not_next base rfl)
        | failing base => cases hn; exact .rest base (.begun r ⟨⟨_, has⟩, moored⟩) rfl
        | driving quay =>
          have plain : result = .done := by
            rcases control with control | ⟨_, _, hc, -⟩
            · cases result with
              | done => rfl
              | stepped => cases control
            · cases hc
          subst plain
          cases hn
          exact .drained quay (.stays ⟨⟨_, has⟩, moored⟩)
        | failed quay => cases hn; exact .broken quay has moored
      | cons f frames =>
        have head := above f List.mem_cons_self
        obtain rfl := Option.some.inj (hn.symm.trans (next?_of_does (.receive head.not_asked)))
        exact closes berth has moored (fun g hg => above g (List.mem_cons_of_mem _ hg))
          (f.receive_closes s head result)
    | failed fault =>
      cases frames with
      | nil =>
        cases berth with
        | base base => exact absurd hn (not_next base rfl)
        | failing base => cases hn; exact .rest base (.begun r ⟨⟨_, has⟩, moored⟩) rfl
        | driving quay => cases hn; exact recover quay has moored fault
        | failed quay => cases hn; exact .broken quay has moored
      | cons f frames =>
        have head := above f List.mem_cons_self
        obtain rfl := Option.some.inj (hn.symm.trans (next?_of_does (.recover head.not_asked)))
        rw [f.recover_of_isClosing s head]
        have stands := closing berth has moored (fun g hg => above g (List.mem_cons_of_mem _ hg)) control
        exact stands
  | @inside _ _ _ c call scene answers control =>
    rcases control with past | ⟨e, rfl, answer⟩
    · cases c with
      | work | ask => cases past
      | done | failed => cases hn
    · obtain ⟨frames, r, w, below, rfl, quay, opens, displays⟩ := call.shows scene
      obtain ⟨pending, graph, has, -, -⟩ := opens.has
      cases hn
      exact (Session.enter_hears has answer).fromInside quay opens displays scene answers

/-- Starting a timer for the wait of a run does not change how the run goes on. -/
theorem settles_setTimer (settles : s.Settles r) (v : WaitId) :
    (s.setRun r (·.setTimer v true)).Settles r := by
  cases settles with
  | stays stays =>
    obtain ⟨graph, has⟩ := stays.has
    refine .stays ⟨⟨graph, (has.setRun _).self⟩, stays.moored.of_eq rfl fun w' hw' => ?_⟩
    rw [Session.run_setRun_self has.lt] at hw'
    obtain ⟨w, hw, rfl⟩ := Option.map_eq_some_iff.1 hw'
    refine ⟨w, hw, ?_⟩
    split <;> exact ⟨rfl, rfl⟩
  | awaits awaits =>
    have has := awaits.has.setRun (·.setTimer v true)
    refine .awaits ⟨has.self, (congrArg Run.phase has.run_eq).trans awaits.phase, ?_, awaits.lies⟩
    rw [has.run_eq, Run.setTimer, awaits.wait, Option.map_none]

/-- **An answer to a call.** -/
theorem reply (ht : Stands h ⟨s, stack, .ask a⟩) (answer : a.call.Reply) :
    Stands h ((a.resume s answer).on stack) := by
  cases ht.asks with
  | delivering delivers base quiet => exact .delivered delivers base quiet rfl
  | cancelling base has moored lies => exact .resuming base has moored lies (.inl rfl)
  | onWay quay way above control => exact strides quay way above (a.resume_strides s control answer)
  | showing quay opens displays =>
    cases displays with
    | card | battle => exact .settled quay opens.settles
    | image => exact .timing quay opens rfl
    | shown past => cases past
    | timer =>
      simp only [Ask.resume]
      split
      · exact .settled quay (settles_setTimer opens.settles _)
      · exact .settled quay opens.settles
  | handing quay way => exact Session.afterHandOver_stands quay way _ _ answer
  | filling pier has active free whole => exact Session.install_stands pier has free (whole.fill answer)
  | closing berth has moored above control =>
    exact closes berth has moored above (a.resume_closes s control answer)

/-- **A fault of the host** in a call. -/
theorem fail (ht : Stands h ⟨s, stack, .ask a⟩) (fails : h.fails a) (f : Fault) :
    Stands h ⟨s, stack, .failed f⟩ := by
  cases ht.asks with
  | delivering delivers base quiet => exact .delivered delivers base quiet rfl
  | cancelling base has moored lies => exact .resuming base has moored lies (.inl rfl)
  | onWay quay way above => exact .onWay quay way above trivial
  | showing quay opens displays =>
    cases displays with
    | card | battle | timer => exact .lost quay opens
    | image => exact .timing quay opens rfl
    | shown past => cases past
  | handing quay way => exact .driven quay way trivial
  | filling pier has active free => exact .unlinked pier has active free
  | closing berth has moored above control =>
    exact .closing berth has moored above (.inr ⟨f, a, rfl, control, fails⟩)

/-- New work from inside a call. -/
theorem enter (ht : Stands h ⟨s, stack, .ask a⟩) (allowed : h.allow ⟨s, stack, .ask a⟩ (.begin e)) :
    Stands h ⟨s, .asked a :: stack, .work (.entry e)⟩ := by
  have answered (he : a.isShowing ∧ h.answers a ∧ e.isAnswer) :
      Stands h ⟨s, .asked a :: stack, .work (.entry e)⟩ :=
    .inside ht he.1 he.2.1 (.inr ⟨e, rfl, he.2.2⟩)
  cases a with
  | deliver d =>
    cases ht.asks with
    | delivering delivers base quiet =>
      exact .entering (.inside delivers _ _ base) quiet allowed fun _ => delivers
    | onWay _ _ _ control | closing _ _ _ _ control => cases control
    | showing _ _ displays => cases displays with | shown past => cases past
  | _ => exact answered allowed

/-- Back to the call from inside which more was begun. -/
theorem leave (ht : Stands h ⟨s, .asked a :: stack, c⟩) (past : c.isOver) : Stands h ⟨s, stack, .ask a⟩ := by
  generalize hu : (⟨s, .asked a :: stack, c⟩ : Turn) = u at ht
  cases ht with
  | rest base quiet =>
    cases hu
    cases base with
    | inside delivers d ds base => exact .delivering delivers base quiet
  | inside call => cases hu; exact call
  | entering | filling => cases hu; cases past
  | taken | handing => cases hu
  | delivering | delivered | resuming | drained | broken | lost | settled | linked | refused => cases hu
  | @onWay _ _ frames _ _ _ _ _ above =>
    cases frames with
    | nil => cases hu
    | cons f frames =>
      obtain ⟨-, hs, -⟩ := Turn.mk.inj hu
      exact absurd (List.cons.inj hs).1.symm ((above f List.mem_cons_self).not_asked a)
  | showing _ _ displays => cases displays <;> cases hu
  | unlinked pier => cases pier <;> cases hu
  | @closing _ _ frames _ _ _ _ _ berth has moored above =>
    cases frames with
    | nil =>
      cases berth with
      | base base =>
        cases hu
        cases base with
        | inside delivers d ds base => exact .delivering delivers base (.begun _ ⟨⟨_, has⟩, moored⟩)
      | failing | driving | failed => cases hu
    | cons f frames =>
      obtain ⟨-, hs, -⟩ := Turn.mk.inj hu
      exact absurd (List.cons.inj hs).1.symm ((above f List.mem_cons_self).not_asked a)

/-- At rest nothing is under way. -/
theorem quiet (ht : Stands h ⟨s, [], c⟩) (past : c.isOver) : s.IsQuiet := by
  generalize hu : (⟨s, [], c⟩ : Turn) = u at ht
  cases ht with
  | rest _ quiet => cases hu; exact quiet
  | entering => cases hu; cases past
  | delivering | delivered | resuming | drained | broken | taken | lost | settled | handing | linked
    | refused | inside => cases hu
  | @onWay _ _ frames => cases frames <;> cases hu
  | showing _ _ displays => cases displays <;> cases hu
  | filling pier | unlinked pier => cases pier <;> cases hu
  | @closing _ _ frames _ _ _ _ _ berth has moored =>
    cases frames with
    | nil =>
      cases berth with
      | base => cases hu; exact .begun _ ⟨⟨_, has⟩, moored⟩
      | failing | driving | failed => cases hu
    | cons => cases hu

end Turn.Stands

/-- **What the habits of the host allow** leads from a shape to a shape. -/
theorem Turn.Does.stands {t u : Turn} {d : Deed} (does : t.Does d u) (ht : Turn.Stands h t)
    (allowed : h.allow t d) : Turn.Stands h u := by
  cases does with
  | work task => exact ht.next rfl
  | receive hf => exact ht.next (next?_of_does (.receive hf))
  | recover hf => exact ht.next (next?_of_does (.recover hf))
  | @beginAtRest _ c past entry =>
    cases c with
    | work | ask => cases past
    | done | failed => exact .entering .bottom (ht.quiet past) allowed.1 allowed.2
  | beginInside entry => exact ht.enter allowed
  | leave past => exact ht.leave past
  | reply answer => exact ht.reply answer
  | fail fault => exact ht.fail (allowed _ rfl) fault
  | change _ files flags => exact ht.change files flags

theorem Session.stands_atRest (quiet : s.IsQuiet) : Turn.Stands h s.atRest := .rest .bottom quiet rfl

theorem Session.isQuiet_fresh (files : FileTree) (library : Path) (flags : FlagStore) :
    (Session.fresh files library flags).IsQuiet := .unbegun rfl rfl rfl rfl

/-- **Every turn** to which a host of given habits comes has one of the shapes. -/
theorem History.stands {files : FileTree} {library : Path} {flags : FlagStore} {events : List Event}
    {t : Turn} (history : History h.allow (Session.fresh files library flags).atRest events t) :
    Turn.Stands h t :=
  history.induct (Session.stands_atRest (Session.isQuiet_fresh files library flags))
    fun ht allowed does => does.stands ht allowed

end Questline

import Questline.Proofs.Concern
import Questline.Proofs.Walk

/-!
# The shapes of a turn

With a host that answers every call, and that comes back from inside a call only with an
answer for what is waited for, a turn has one of a few shapes: which frames are on the
stack, what comes next, and how the current run stands then.  They are listed here, from
the turns in which nothing is under way to those in the middle of a visit, a link or the
end of a run.  Each shape also says where the walk stands, as far as that is known.

* `Session.Has`: the current run, the graph and the queue.
* `Run.Going`, `Run.Held`, `Run.Over`: how the current run stands.
* `Session.Quiet`: how the session stands when nothing is under way.
* `Turn.Sound`: the shapes.
-/

namespace Questline

open Json (Value Fields)

/-! ## The current run -/

/-- The run `r` is the current one and stands as `run`, no other run goes on, and the queue
and the graph are as given. -/
structure Session.Has (s : Session) (r : RunId) (draining : Bool) (pending : List (RunId × Job))
    (run : Run) (graph : Option Graph) : Prop where
  current : s.current = some r
  lt : r < s.runs.length
  others : ∀ q, q < s.runs.length → q ≠ r → (s.run q).isActive = false
  draining_eq : s.draining = draining
  pending_eq : s.pending = pending
  run_eq : s.run r = run
  graph_eq : s.graph = graph

namespace Session.Has

variable {s s' : Session} {r : RunId} {draining : Bool} {pending : List (RunId × Job)} {run : Run}
  {graph : Option Graph}

/-- Changes that concern no run. -/
theorem of_eq (h : s.Has r draining pending run graph) {draining' : Bool}
    {pending' : List (RunId × Job)} {graph' : Option Graph} (runs : s'.runs = s.runs)
    (current : s'.current = s.current) (hd : s'.draining = draining') (hp : s'.pending = pending')
    (hg : s'.graph = graph') : s'.Has r draining' pending' run graph' where
  current := current.trans h.current
  lt := runs ▸ h.lt
  others q hq hr := by
    rw [runs] at hq
    simpa only [Session.run, runs] using h.others q hq hr
  draining_eq := hd
  pending_eq := hp
  run_eq := by simpa only [Session.run, runs] using h.run_eq
  graph_eq := hg

theorem setRun (h : s.Has r draining pending run graph) (f : Run → Run) :
    (s.setRun r f).Has r draining pending (f run) graph where
  current := h.current
  lt := by simpa using h.lt
  others q hq hr := by
    rw [run_setRun_of_ne hr]
    exact h.others q (by simpa using hq) hr
  draining_eq := h.draining_eq
  pending_eq := h.pending_eq
  run_eq := by rw [run_setRun_self h.lt, h.run_eq]
  graph_eq := h.graph_eq

theorem owns (h : s.Has r draining pending run graph) (active : run.isActive) : s.owns r := by
  simp [Session.owns, h.current, h.run_eq, active]

/-- Only the current run can wait for something. -/
theorem not_waiting (h : s.Has r draining pending run graph) (wait : run.wait = none ∨ run.isActive = false)
    (q : RunId) (w : WaitId) : (s.run q).isWaitingOn w = false := by
  by_cases hq : q = r
  · subst hq
    rw [h.run_eq]
    rcases wait with wait | wait
    · exact Run.not_isWaitingOn_of_wait wait w
    · exact Run.not_isWaitingOn_of_not_isActive wait w
  · by_cases hlt : q < s.runs.length
    · exact Run.not_isWaitingOn_of_not_isActive (h.others q hlt hq) w
    · rw [run_of_length_le (Nat.le_of_not_lt hlt)]
      rfl

theorem eq_of_waiting (h : s.Has r draining pending run graph) {q : RunId} {w : WaitId}
    (waiting : (s.run q).isWaitingOn w) : q = r := by
  by_cases hq : q = r
  · exact hq
  · by_cases hlt : q < s.runs.length
    · rw [Run.not_isWaitingOn_of_not_isActive (h.others q hlt hq)] at waiting
      cases waiting
    · rw [run_of_length_le (Nat.le_of_not_lt hlt)] at waiting
      cases waiting

/-- No run goes on once the current one is over. -/
theorem idle (h : s.Has r draining pending run graph) (past : run.isActive = false) (q : RunId)
    (hq : q < s.runs.length) : (s.run q).isActive = false := by
  by_cases hr : q = r
  · rw [hr, h.run_eq, past]
  · exact h.others q hq hr

end Session.Has

/-! ## How a run stands -/

/-- What is waited for at a node. -/
def Node.waitKind? (n : Node) : Option WaitKind :=
  match n.body with
  | .dialogue _ => some .dialogue
  | .choice _ => some .choice
  | .image _ => some .image
  | .combat _ => some .combat
  | .link _ => some .link
  | .item _ | .trigger _ | .condition _ | .ending => none

/-- What the host has to be given at a node. -/
def Node.scene? (n : Node) : Option Scene :=
  match n.body with
  | .dialogue d => some (.card (.dialogue (d.card n.id)))
  | .choice c => some (.card (.choice ⟨n.id, c.question, c.options⟩))
  | .image i => some (.card (.image ⟨n.id, i.path, i.duration⟩))
  | .combat opponent => some (.battle opponent)
  | .item _ | .trigger _ | .condition _ | .link _ | .ending => none

/-- What is done with a scene. -/
def Scene.act : Scene → Act
  | .card c => .present c
  | .battle opponent => .battle opponent

/-- A run on its way through a graph. -/
structure Run.Going (run : Run) (g : Graph) : Prop where
  phase : run.phase = .running
  wait : run.wait = none
  script : run.script = g.id

/-- A run that waits at a node of a graph.  It awaits the input of the player after speech, a choice or an
image, and something external during a fight or while a link loads. -/
structure Run.Held (run : Run) (g : Graph) (n : Node) (wait : Wait) : Prop where
  phase : run.phase = .suspended
  waits : run.wait = some wait
  atNode : wait.node = n.id
  kind : n.waitKind? = some wait.kind
  node : run.node = some n.id
  inGraph : g.node? n.id = some n
  activity : match wait.kind with
    | .dialogue | .choice | .image => run.activity = .awaitingInput
    | .combat | .link => run.activity = .awaitingExternal
  script : run.script = g.id

/-- A run that has ended, perhaps with figures that still have to leave. -/
structure Run.Closed (run : Run) : Prop where
  phase : run.phase = .paused ∨ run.phase = .stopped
  wait : run.wait = none
  activity : run.activity = .idle
  node : run.node = none
  ledger : run.ledger = []
  completion : run.completion = none

/-- A run that has ended. -/
structure Run.Over (run : Run) : Prop extends Run.Closed run where
  npcs : run.phase = .stopped → run.npcs = []

theorem Run.Going.isActive {run : Run} {g : Graph} (h : run.Going g) : run.isActive := by
  simp [Run.isActive, h.phase, Phase.isActive]

theorem Run.Held.isActive {run : Run} {g : Graph} {n : Node} {wait : Wait}
    (h : run.Held g n wait) : run.isActive := by
  simp [Run.isActive, h.phase, Phase.isActive]

theorem Run.Closed.not_isActive {run : Run} (h : run.Closed) : run.isActive = false := by
  rcases h.phase with hp | hp <;> simp [Run.isActive, hp, Phase.isActive]

theorem Run.Held.isWaitingOn {run : Run} {g : Graph} {n : Node} {wait : Wait}
    (h : run.Held g n wait) (w : WaitId) : run.isWaitingOn w = (wait.id == w) := by
  simp [Run.isWaitingOn, h.phase, h.waits]

/-! ## How a session stands -/

/-- A job for a run on its way through a graph, and what the walk knows of it; `todo` is
still to be done before. -/
inductive Job.Fits (X : Option Walker) : (todo : Option Act) → Graph → Job → Prop
  | enter {g : Graph} (whole : g.IsWhole) (walk : ∀ v ∈ X, v = .heading g.spot) :
      Fits X none g (.enter g)
  | respond {todo : Option Act} {g : Graph} {n : Node} {answer : Value}
      (walk : ∀ v ∈ X, v = .standing ⟨g, n⟩ todo (some (.player answer))) :
      Fits X todo g (.respond n g answer)
  | resolve {todo : Option Act} {g : Graph} {n : Node} {outcome : Value}
      (walk : ∀ v ∈ X, v = .standing ⟨g, n⟩ todo (some (.battle outcome))) :
      Fits X todo g (.resolve n g outcome)

namespace Session

/-- The current run waits or is over, and nothing is queued. -/
inductive Rests (X : Option Walker) (r : RunId) (draining : Bool) (s : Session) : Prop
  | held {run : Run} {g : Graph} {n : Node} {wait : Wait}
      (has : s.Has r draining [] run (some g)) (held : run.Held g n wait)
      (walk : ∀ v ∈ X, v = .standing ⟨g, n⟩ none none)
  | ended {run : Run} (has : s.Has r draining [] run none) (past : run.Over)
      (walk : ∀ v ∈ X, v.end? = some run.phase)

/-- Nothing is under way: there is no run yet, or the current one waits or is over. -/
inductive Quiet (X : Option Walker) (s : Session) : Prop
  | unbegun (runs : s.runs = []) (current : s.current = none) (draining : s.draining = false)
      (pending : s.pending = []) (walk : ∀ v ∈ X, v = .outside)
  | begun (r : RunId) (rests : s.Rests X r false)

/-- The current run has come to rest while the queue is worked off, or it is queued. -/
inductive Settled (X : Option Walker) (r : RunId) (s : Session) : Prop
  | rests (rests : s.Rests X r true)
  | queued {job : Job} {run : Run} {g : Graph} (has : s.Has r true [(r, job)] run (some g))
      (going : run.Going g) (fits : job.Fits X none g)

/-- The current run waits at a node, or has been answered there and is queued. -/
inductive Open (X : Option Walker) (r : RunId) (n : Node) (w : WaitId) (todo : Option Act)
    (s : Session) : Prop
  | held {run : Run} {g : Graph} {wait : Wait} (has : s.Has r true [] run (some g))
      (held : run.Held g n wait) (id : wait.id = w) (untimed : wait.timer = false)
      (walk : ∀ v ∈ X, v = .standing ⟨g, n⟩ todo none)
  | queued {job : Job} {run : Run} {g : Graph} (has : s.Has r true [(r, job)] run (some g))
      (going : run.Going g) (fits : job.Fits X todo g)

end Session

/-! ## Stacks -/

/-- Nothing is under way, but perhaps for deliveries from inside which more is begun. -/
inductive Ground : List Frame → Prop
  | bottom : Ground []
  | inside {stack : List Frame} (d : Delivery) (ds : List Delivery) (h : Ground stack) :
      Ground (.asked (.deliver d) :: .posting ds :: stack)

/-- Where the queue is worked off. -/
inductive Floor (r : RunId) : List Frame → Prop
  | ground {stack : List Frame} (h : Ground stack) : Floor r stack
  | linking {stack : List Frame} (h : Ground stack) : Floor r (.linking r :: stack)

/-- Where a run comes to its end; `draining` says whether the queue is worked off. -/
inductive Landing (X : Option Walker) (r : RunId) : (draining : Bool) → List Frame → Prop
  | ground {stack : List Frame} (h : Ground stack) : Landing X r false stack
  | failing {stack : List Frame} {f : Fault} (h : Ground stack) (lost : ∀ v ∈ X, False) :
      Landing X r false (.failing f :: stack)
  | driving {stack : List Frame} (h : Floor r stack) :
      Landing X r true (.driving r :: .draining :: stack)
  | failed {stack : List Frame} {f : Fault} (h : Floor r stack) (lost : ∀ v ∈ X, False) :
      Landing X r true (.failing f :: .draining :: stack)

/-- Where the target of a link is read. -/
inductive LinkSite (r : RunId) : (draining : Bool) → List Frame → Prop
  | driving {stack : List Frame} (h : Floor r stack) :
      LinkSite r true (.driving r :: .draining :: stack)
  | linking {stack : List Frame} (h : Ground stack) : LinkSite r false (.linking r :: stack)

/-! ## On the way -/

/-- The run has arrived at a node of its graph. -/
structure Run.Arrived (run : Run) (g : Graph) (n : Node) : Prop where
  node : run.node = some n.id
  inGraph : g.node? n.id = some n

/-- What follows a visit, and what the walk knows of it. -/
inductive Action.Fits (X : Option Walker) (run : Run) (g : Graph) (n : Node) : Action → Prop
  | next {m : Node} (inGraph : g.node? m.id = some m) (walk : ∀ v ∈ X, v.next? = some ⟨g, m⟩) :
      Fits X run g n (.next m)
  | suspend {scene : Scene} (arrived : run.Arrived g n) (given : n.scene? = some scene)
      (walk : ∀ v ∈ X, v = .standing ⟨g, n⟩ (some scene.act) none) : Fits X run g n (.suspend scene)
  | link {l : Link} (arrived : run.Arrived g n) (body : n.body = .link l)
      (walk : ∀ v ∈ X, v = .standing ⟨g, n⟩ none none) : Fits X run g n (.link l)
  | finish (walk : ∀ v ∈ X, v.end? = some .stopped) : Fits X run g n .finish
  | terminal (walk : ∀ v ∈ X, v.end? = some (Session.phaseAfter n)) : Fits X run g n .terminal

/-- A call that hands out or takes away items for the run `r`. -/
inductive Ask.Handles (r : RunId) : Ask → Prop
  | give {item : String} {amount : Number} : Handles r (.give item amount)
  | take {node item : String} {amount : Number} : Handles r (.take r node item amount)

/-- A call that does what a trigger of the run `r` does. -/
inductive Ask.Triggers (r : RunId) : Ask → Prop
  | world {event : WorldEvent} : Triggers r (.world event)
  | spawn {request : SpawnRequest} : Triggers r (.spawn r request)
  | remove {npc : String} : Triggers r (.remove r npc)

/-- What is left of a report. -/
inductive Reporting (r : RunId) : Control → Prop
  | ask {w : Warning} {ws : List Warning} : Reporting r (.ask (.report r w ws))
  | done {result : Result} : Reporting r (.done result)

/-- The run `r` is on its way: the frames above the one that drives it, and what comes
next. -/
inductive Underway (X : Option Walker) (r : RunId) (run : Run) (g : Graph) :
    List Frame → Control → Prop
  | visiting {n : Node} (inGraph : g.node? n.id = some n) (walk : ∀ v ∈ X, v.next? = some ⟨g, n⟩) :
      Underway X r run g [] (.work (.visit r n g))
  | responding {n : Node} {answer : Value}
      (walk : ∀ v ∈ X, v = .standing ⟨g, n⟩ none (some (.player answer))) :
      Underway X r run g [] (.work (.respond r n g answer))
  | resolving {n : Node} {outcome : Value}
      (walk : ∀ v ∈ X, v = .standing ⟨g, n⟩ none (some (.battle outcome))) :
      Underway X r run g [] (.work (.resolve r n g outcome))
  | reporting {n : Node} {scene : Scene} {c : Control} (arrived : run.Arrived g n)
      (given : n.scene? = some scene) (report : Reporting r c)
      (walk : ∀ v ∈ X, v = .standing ⟨g, n⟩ (some scene.act) none) :
      Underway X r run g [.stepping ⟨n, .suspend scene⟩] c
  | handling {n : Node} {a : Ask} (handles : a.Handles r) (plain : n.output? .plain = some 0)
      (walk : ∀ v ∈ X, v = .standing ⟨g, n⟩ a.act? (some .plain)) :
      Underway X r run g [.following r n Session.firstOutput g] (.ask a)
  | noting {n : Node} {c : Control} (report : Reporting r c) (plain : n.output? .plain = some 0)
      (walk : ∀ v ∈ X, v = .standing ⟨g, n⟩ none (some .plain)) :
      Underway X r run g [.following r n Session.firstOutput g] c
  | triggering {n : Node} {a : Ask} (triggers : a.Triggers r) (plain : n.output? .plain = some 0)
      (walk : ∀ v ∈ X, v = .standing ⟨g, n⟩ a.act? (some .plain)) :
      Underway X r run g [.triggering r n g] (.ask a)
  | triggered {n : Node} {result : Result} (plain : n.output? .plain = some 0)
      (walk : ∀ v ∈ X, v = .standing ⟨g, n⟩ none (some .plain)) :
      Underway X r run g [.triggering r n g] (.done result)
  | refused {n : Node} {f : Fault} (plain : n.output? .plain = some 0)
      (walk : ∀ v ∈ X, (∃ event, f = .unknownEvent event) ∧
        v = .standing ⟨g, n⟩ none (some .plain)) :
      Underway X r run g [.triggering r n g] (.failed f)
  | counting {n : Node} {c : Condition} (body : n.body = .condition c)
      (walk : ∀ v ∈ X, v = .standing ⟨g, n⟩ none none) :
      Underway X r run g [] (.ask (.count r n c g))
  | handing {n : Node} {l : Link} {callback : Callback} {ledger : Ledger}
      (arrived : run.Arrived g n) (body : n.body = .link l)
      (walk : ∀ v ∈ X, v = .standing ⟨g, n⟩ none none) :
      Underway X r run g [] (.ask (.handOver r n.id l callback ledger))
  | stepped {n : Node} {action : Action} (fits : action.Fits X run g n) :
      Underway X r run g [] (.done (.stepped ⟨n, action⟩))
  | failed {f : Fault} (lost : ∀ v ∈ X, False) : Underway X r run g [] (.failed f)

/-- The host is given a scene of the run `r`: the node, the wait and what is still to be
done, the frames above the one that drives the run, and what comes next. -/
inductive Showing (r : RunId) (n : Node) (w : WaitId) : Option Act → List Frame → Control → Prop
  | card {c : Card} : Showing r n w (some (.present c)) [] (.ask (.engage c))
  | image {c : Card} {i : Image} {seconds : Number} (body : n.body = .image i) :
      Showing r n w (some (.present c)) [.timing r w seconds] (.ask (.engage c))
  | shown {i : Image} {seconds : Number} {result : Result} (body : n.body = .image i) :
      Showing r n w none [.timing r w seconds] (.done result)
  | timer {i : Image} {seconds : Number} (body : n.body = .image i) :
      Showing r n w none [] (.ask (.startTimer seconds ⟨r, w⟩))
  | battle {opponent : Fields} (body : n.body = .combat opponent) :
      Showing r n w (some (.battle opponent)) [] (.ask (.battle opponent ⟨r, w, n⟩))

/-- Whether a call gives the host what a run waits at. -/
def Ask.isShowing : Ask → Bool
  | .engage _ | .startTimer _ _ | .battle _ _ => true
  | _ => false

/-! ## Shapes -/

/-- Whether an entry is an answer of the player or of the world for a run that waits. -/
def Entry.isAnswer : Entry → Bool
  | .advance _ | .battleOver _ _ | .timeUp _ => true
  | _ => false

/-- Whether an entry is an answer of the world for which nothing waits. -/
def Entry.isLate (s : Session) : Entry → Bool
  | .battleOver battle _ => !s.isWaiting battle.run battle.wait
  | .timeUp timer => !s.isWaiting timer.run timer.wait
  | _ => false

/-- Whether the host may come back from inside a call. -/
def Ask.allows (e : Entry) : Ask → Bool
  | .deliver _ => true
  | _ => e.isAnswer

/-- Whether a graph that the host starts is whole. -/
def Entry.isProper : Entry → Bool
  | .startGraph graph _ => graph.IsWhole
  | _ => true

/-- A timer is being cancelled. -/
inductive Cancelling : Control → Prop
  | ask {timer : TimerHandle} : Cancelling (.ask (.cancelTimer timer))
  | done {result : Result} : Cancelling (.done result)

/-- The shapes of a turn; `X` is the walk as far as it is known. -/
inductive Turn.Sound (X : Option Walker) : Turn → Prop
  -- Nothing is under way, or it is about to begin.
  | rest {s : Session} {stack : List Frame} {c : Control} (ground : Ground stack)
      (quiet : s.Quiet X) (past : c.isOver) : Sound X ⟨s, stack, c⟩
  | entering {s : Session} {stack : List Frame} {e : Entry} (ground : Ground stack)
      (quiet : s.Quiet X) (proper : e.isProper) : Sound X ⟨s, stack, .work (.entry e)⟩
  | delivering {s : Session} {stack : List Frame} {d : Delivery} {ds : List Delivery}
      (ground : Ground stack) (quiet : s.Quiet X) : Sound X ⟨s, .posting ds :: stack, .ask (.deliver d)⟩
  | delivered {s : Session} {stack : List Frame} {c : Control} {ds : List Delivery}
      (ground : Ground stack) (quiet : s.Quiet X) (past : c.isOver) : Sound X ⟨s, .posting ds :: stack, c⟩
  | resuming {s : Session} {stack : List Frame} {c : Control} {r : RunId} {run : Run} {g : Graph}
      {n : Node} {wait : Wait} {job : Job} (ground : Ground stack)
      (has : s.Has r false [] run (some g)) (held : run.Held g n wait) (fits : job.Fits X none g)
      (cancelling : Cancelling c) : Sound X ⟨s, .resuming r job :: stack, c⟩
  | ending {s : Session} {stack : List Frame} {c : Control} {r : RunId} {run : Run}
      {graph : Option Graph} (ground : Ground stack) (has : s.Has r false [] run graph)
      (lost : ∀ v ∈ X, False) (cancelling : Cancelling c) : Sound X ⟨s, .ending r .stopped :: stack, c⟩
  -- The queue is worked off.
  | drained {s : Session} {stack : List Frame} {r : RunId} {result : Result} (floor : Floor r stack)
      (settled : s.Settled X r) : Sound X ⟨s, .draining :: stack, .done result⟩
  | broken {s : Session} {stack : List Frame} {r : RunId} {run : Run} {f : Fault}
      (floor : Floor r stack) (has : s.Has r true [] run none) (past : run.Over)
      (lost : ∀ v ∈ X, False) : Sound X ⟨s, .draining :: stack, .failed f⟩
  | taken {s : Session} {stack : List Frame} {r : RunId} {run : Run} {g : Graph} {job : Job}
      (floor : Floor r stack) (has : s.Has r true [] run (some g)) (going : run.Going g)
      (fits : job.Fits X none g) : Sound X ⟨s, .draining :: stack, .work (.drive r job)⟩
  | underway {s : Session} {stack frames : List Frame} {c : Control} {r : RunId} {run : Run}
      {g : Graph} (floor : Floor r stack) (has : s.Has r true [] run (some g)) (going : run.Going g)
      (underway : Underway X r run g frames c) :
      Sound X ⟨s, frames ++ .driving r :: .draining :: stack, c⟩
  | showing {s : Session} {stack frames : List Frame} {c : Control} {r : RunId} {n : Node}
      {w : WaitId} {todo : Option Act} (floor : Floor r stack) (begun : w < s.nextWait)
      (opened : s.Open X r n w todo) (showing : Showing r n w todo frames c) :
      Sound X ⟨s, frames ++ .driving r :: .draining :: stack, c⟩
  | settled {s : Session} {stack : List Frame} {r : RunId} (floor : Floor r stack)
      (settled : s.Settled X r) : Sound X ⟨s, .driving r :: .draining :: stack, .done .done⟩
  -- A link is taken.
  | filling {s : Session} {stack : List Frame} {r : RunId} {draining : Bool} {run : Run}
      {graph : Option Graph} {g : Graph} (site : LinkSite r draining stack)
      (has : s.Has r draining [] run graph) (active : run.isActive) (free : run.wait = none)
      (whole : g.IsWhole) (walk : ∀ v ∈ X, v = .filling g) : Sound X ⟨s, stack, .ask (.fillIn r g)⟩
  | landed {s : Session} {stack : List Frame} {r : RunId} {result : Result} (ground : Ground stack)
      (rests : s.Rests X r false) : Sound X ⟨s, .linking r :: stack, .done result⟩
  | linkFailed {s : Session} {stack : List Frame} {r : RunId} {run : Run} {graph : Option Graph}
      {f : LinkFault} (ground : Ground stack) (has : s.Has r false [] run graph) (active : run.isActive)
      (free : run.wait = none) (lost : ∀ v ∈ X, False) :
      Sound X ⟨s, .linking r :: stack, .failed (.link f)⟩
  | linkBroken {s : Session} {stack : List Frame} {r : RunId} {run : Run} {f : Fault}
      (ground : Ground stack) (has : s.Has r false [] run none) (past : run.Over)
      (lost : ∀ v ∈ X, False) : Sound X ⟨s, .linking r :: stack, .failed f⟩
  -- A run comes to its end.
  | terminating {s : Session} {stack : List Frame} {r : RunId} {draining : Bool} {run : Run}
      {graph : Option Graph} (landing : Landing X r draining stack)
      (has : s.Has r draining [] run graph) (free : run.wait = none) (lost : ∀ v ∈ X, False) :
      Sound X ⟨s, stack, .work (.terminate r .stopped)⟩
  | dismissing {s : Session} {stack : List Frame} {r : RunId} {draining : Bool} {run : Run}
      {completion : Option Callback} {ledger : Ledger} {npc : String} {rest : List String}
      (landing : Landing X r draining stack) (has : s.Has r draining [] run none)
      (closed : run.Closed) (walk : ∀ v ∈ X, v.end? = some run.phase) :
      Sound X ⟨s, .announcing completion ledger :: stack, .ask (.dismiss r npc rest)⟩
  | dismissed {s : Session} {stack : List Frame} {r : RunId} {draining : Bool} {run : Run}
      {completion : Option Callback} {ledger : Ledger} {result : Result}
      (landing : Landing X r draining stack) (has : s.Has r draining [] run none)
      (past : run.Over) (walk : ∀ v ∈ X, v.end? = some run.phase) :
      Sound X ⟨s, .announcing completion ledger :: stack, .done result⟩
  | announcing {s : Session} {stack : List Frame} {r : RunId} {draining : Bool} {run : Run}
      {callback : Callback} {ledger : Ledger} (landing : Landing X r draining stack)
      (has : s.Has r draining [] run none) (past : run.Over)
      (walk : ∀ v ∈ X, v.end? = some run.phase) :
      Sound X ⟨s, stack, .ask (.announce callback ledger)⟩
  | failingAtRest {s : Session} {stack : List Frame} {f : Fault} {result : Result}
      (ground : Ground stack) (quiet : s.Quiet X) (lost : ∀ v ∈ X, False) :
      Sound X ⟨s, .failing f :: stack, .done result⟩
  | failing {s : Session} {stack : List Frame} {r : RunId} {run : Run} {f : Fault} {result : Result}
      (floor : Floor r stack) (has : s.Has r true [] run none) (past : run.Over)
      (lost : ∀ v ∈ X, False) : Sound X ⟨s, .failing f :: .draining :: stack, .done result⟩
  -- The host comes back from inside a call.
  | inside {s : Session} {stack : List Frame} {a : Ask} {c : Control} (call : Sound X ⟨s, stack, .ask a⟩)
      (answers : ∀ e, a.allows e = e.isAnswer)
      (control : c.isOver ∨ ∃ e : Entry, c = .work (.entry e) ∧ e.isAnswer) :
      Sound X ⟨s, .asked a :: stack, c⟩

end Questline

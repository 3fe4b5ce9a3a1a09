import Questline.Proofs.Stranding
import Questline.Proofs.Waiting
import Questline.Proofs.Walk

/-!
# Errands

A run does one thing at a time: it waits, or a job is queued for it, or it is on its way from
node to node.  On its way it is found on the stack: a rider that goes on with the run sits
directly above the frame that drives it.  Each of these is an errand of the run.

Moves hand errands on.  A rider gives way to another, or to a wait or to a job; a wait ends in a
job or with a link; and a job is taken up by a rider.  So a run never has two of them, and its
rider stays in the graph in which the run is, as long as the run enters no other.

* `Rider.Fits`, `Job.IsFor`: riders and jobs that stay in a graph.
* `Rides`, `riders`: all riders are seated, and the riders of a run.
* `Turn.errands`: how many errands a run has.
* `Move.GoesOn`: what a rider may come to; every function of a run on its way goes on so.
* `Turn.Does.handsOn`: no deed gives a run a second errand, or a rider a node of another graph.
-/

namespace Questline

open Json (Value)

/-! ## Staying in a graph -/

/-- Whether a node belongs to a graph. -/
def Graph.Holds (g : Graph) (n : Node) : Prop := n = g.entry ∨ g.node? n.id = some n

theorem Graph.holds_of_node? {g : Graph} {n : Node} {i : String} (h : g.node? i = some n) :
    g.Holds n := .inr (node?_self h)

theorem Graph.holds_of_follow? {g : Graph} {n : Node} {i : String} {output : Int}
    (h : g.follow? i output = some n) : g.Holds n := .inr (node?_of_follow? h)

/-- Graphs and nodes among which a run stays: no connection of the graphs leads away from the
nodes. -/
structure Terrain where
  graphs : Graph → Prop
  nodes : Node → Prop
  closed : ∀ {g : Graph} {n m : Node} {output : Int}, graphs g → nodes n →
    g.follow? n.id output = some m → nodes m

/-- The terrain of a graph: all its nodes. -/
def Graph.terrain (g : Graph) : Terrain where
  graphs := (· = g)
  nodes := g.Holds
  closed := by
    rintro g n m output rfl - h
    exact holds_of_follow? h

/-- All graphs and nodes there are. -/
def Terrain.everywhere : Terrain where
  graphs _ := True
  nodes _ := True
  closed _ _ _ := trivial

/-- Whether a job stays in a terrain. -/
def Job.IsFor (T : Terrain) : Job → Prop
  | .enter graph => T.graphs graph ∧ T.nodes graph.entry
  | .respond node graph _ | .resolve node graph _ => T.graphs graph ∧ T.nodes node

/-- Whether a rider goes on with the run `q` in a terrain. -/
def Rider.Fits (q : RunId) (T : Terrain) : Rider → Prop
  | .nobody => True
  | .job r j => r = q ∧ j.IsFor T
  | .atNode r node graph => r = q ∧ T.graphs graph ∧ T.nodes node
  | .stepped step => T.nodes step.node ∧ ∀ node, step.action = .next node → T.nodes node
  | .linking r => r = q

/-! ## Seats -/

/-- Whether a frame is the seat of a rider that goes on with the run `r`: a job is taken up above
the queue, and all else is above the frame that drives the run. -/
def Frame.seats (r : RunId) (x : Rider) : Frame → Bool
  | .draining => match x with
    | .job q _ => q == r
    | _ => false
  | .driving q | .linking q => x != .nobody && q == r
  | _ => false

/-- All riders of a stack and the one above it are seated, and go on with their runs as `fits`
says. -/
def Rides (fits : RunId → Rider → Prop) : Rider → List Frame → Prop
  | x, [] => x = .nobody
  | x, f :: stack => (x = .nobody ∨ ∃ q, f.seats q x ∧ fits q x) ∧ Rides fits f.rider stack

/-- The number of riders that go on with the run `r`. -/
def riders (r : RunId) : Rider → List Frame → Nat
  | _, [] => 0
  | x, f :: stack => (if f.seats r x then 1 else 0) + riders r f.rider stack

theorem Frame.rider_ne_job (f : Frame) (r : RunId) (job : Job) : f.rider ≠ .job r job := by
  cases f with
  | asked a => cases a <;> simp [rider, Ask.rider]
  | _ => simp [rider]

section Seats

variable {fits fits' : RunId → Rider → Prop} {q r : RunId} {x : Rider} {f : Frame}
  {frames stack : List Frame}

@[simp] theorem Frame.seats_nobody (f : Frame) : f.seats r .nobody = false := by
  cases f <;> rfl

@[simp] theorem rides_nobody_cons : Rides fits .nobody (f :: stack) ↔ Rides fits f.rider stack := by
  simp [Rides]

@[simp] theorem riders_nobody_cons : riders r .nobody (f :: stack) = riders r f.rider stack := by
  simp [riders]

theorem riders_of_seats (h : f.seats r x) : riders r x (f :: stack) = riders r f.rider stack + 1 := by
  rw [riders, if_pos h, Nat.add_comm]

theorem riders_cons_le : riders r f.rider stack ≤ riders r x (f :: stack) := Nat.le_add_left _ _

/-- Frames from which nothing goes on make no difference. -/
theorem rides_append (h : ∀ f ∈ frames, f.rider = .nobody) :
    Rides fits .nobody (frames ++ stack) ↔ Rides fits .nobody stack := by
  induction frames with
  | nil => rfl
  | cons f frames ih =>
    obtain ⟨hf, h⟩ := List.forall_mem_cons.1 h
    rw [List.cons_append, rides_nobody_cons, hf]
    exact ih h

theorem riders_append (h : ∀ f ∈ frames, f.rider = .nobody) :
    riders r .nobody (frames ++ stack) = riders r .nobody stack := by
  induction frames with
  | nil => rfl
  | cons f frames ih =>
    obtain ⟨hf, h⟩ := List.forall_mem_cons.1 h
    rw [List.cons_append, riders_nobody_cons, hf]
    exact ih h

theorem Rides.below (h : Rides fits x (f :: stack)) : Rides fits f.rider stack := h.2

theorem Rides.without (h : Rides fits x stack) : Rides fits .nobody stack := by
  cases stack with
  | nil => rfl
  | cons f stack => exact rides_nobody_cons.2 h.below

theorem riders_nobody_le (r : RunId) (x : Rider) (stack : List Frame) :
    riders r .nobody stack ≤ riders r x stack := by
  cases stack with
  | nil => exact Nat.le_refl _
  | cons f stack =>
    rw [riders_nobody_cons]
    exact Nat.le_add_left _ _

/-- A rider has a seat. -/
theorem Rides.seat (h : Rides fits x stack) (hx : x ≠ .nobody) :
    ∃ q f below, stack = f :: below ∧ f.seats q x ∧ fits q x ∧ Rides fits f.rider below := by
  cases stack with
  | nil => exact absurd h hx
  | cons f below =>
    obtain ⟨hseat, hbelow⟩ := h
    obtain ⟨q, seats, fit⟩ := hseat.resolve_left hx
    exact ⟨q, f, below, rfl, seats, fit, hbelow⟩

theorem Rides.drop (h : Rides fits x (frames ++ stack)) : Rides fits .nobody stack := by
  induction frames generalizing x with
  | nil => exact h.without
  | cons f frames ih => exact ih h.below

theorem riders_drop_le : riders r .nobody stack ≤ riders r x (frames ++ stack) := by
  induction frames generalizing x with
  | nil => exact riders_nobody_le r x stack
  | cons f frames ih => exact Nat.le_trans ih (Nat.le_add_left _ _)

/-- A run that no frame mentions has no rider. -/
theorem riders_eq_zero (hx : ∀ job, x ≠ .job r job) (h : ∀ f ∈ stack, f.run? ≠ some r) :
    riders r x stack = 0 := by
  induction stack generalizing x with
  | nil => rfl
  | cons f stack ih =>
    obtain ⟨hf, h⟩ := List.forall_mem_cons.1 h
    have empty : f.seats r x = false := by
      cases f with
      | draining =>
        cases x with
        | job q job =>
          have hq : q ≠ r := fun hq => hx job (by rw [hq])
          simp [Frame.seats, hq]
        | _ => rfl
      | driving q | linking q =>
        have hq : q ≠ r := fun hq => hf (by rw [hq]; rfl)
        simp [Frame.seats, hq]
      | _ => rfl
    rw [riders, empty, ih (fun job => f.rider_ne_job r job) h]
    rfl

/-- If the riders of one run leave, only the others have to fit. -/
theorem Rides.mono (h : Rides fits x stack) (hq : riders q x stack = 0)
    (wider : ∀ r x, r ≠ q → fits r x → fits' r x) : Rides fits' x stack := by
  induction stack generalizing x with
  | nil => exact h
  | cons f stack ih =>
    obtain ⟨hseat, hbelow⟩ := h
    obtain ⟨hx, hstack⟩ := Nat.add_eq_zero_iff.1 hq
    refine ⟨hseat.imp_right ?_, ih hbelow hstack⟩
    rintro ⟨r, seats, fit⟩
    refine ⟨r, seats, wider r x (fun hr => ?_) fit⟩
    rw [if_pos (hr ▸ seats)] at hx
    cases hx

end Seats

/-! ## What a session holds for a run -/

/-- How much a session holds for a run: jobs that are queued, and a wait. -/
def Outline.load (o : Outline) (r : RunId) : Nat :=
  (o.pending.filter (·.1 == r)).length + (o.run r).waiting.toList.length

namespace Alteration

variable {α : Alteration} {q r : RunId} {o : Outline}

/-- What is done on behalf of another run adds nothing. -/
theorem load_apply_of_ne (hr : r ≠ q) (opened : ∀ g c, α = .opened g c → q = o.length) :
    (α.apply q o).load r ≤ o.load r := by
  have hq : q ≠ r := Ne.symm hr
  cases α with
  | opened g c =>
    obtain rfl := opened g c rfl
    simp [Outline.load, apply, Outline.queue, hr, hq]
  | taken =>
    refine Nat.add_le_add_right ?_ _
    exact ((List.tail_sublist o.pending).filter _).length_le
  | dropped => simp [Outline.load, apply]
  | _ => simp [Outline.load, apply, Outline.queue, Outline.change, hq]

/-- Whether an alteration adds an errand: the run has a job queued, or waits. -/
def adds : Alteration → Bool
  | .opened _ _ | .resumed _ | .installed _ | .suspended _ _ => true
  | _ => false

theorem load_apply (h : α.adds = false) : (α.apply q o).load q ≤ o.load q := by
  cases α with
  | opened | resumed | suspended | installed => cases h
  | nothing | announced | rested => exact Nat.le_refl _
  | dropped => simp [Outline.load, apply]
  | taken =>
    refine Nat.add_le_add_right ?_ _
    exact ((List.tail_sublist o.pending).filter _).length_le
  | answered | handed | released | closed =>
    simp only [Outline.load, apply, Outline.change, true_and]
    split <;> simp

/-- Whatever a run does, it adds no more than one errand. -/
theorem load_apply_le (opened : ∀ g c, α ≠ .opened g c) :
    (α.apply q o).load q ≤ o.load q + 1 := by
  cases ha : α.adds with
  | false => exact Nat.le_trans (load_apply ha) (Nat.le_succ _)
  | true =>
    cases α with
    | opened g c => exact absurd rfl (opened g c)
    | suspended | resumed | installed =>
      simp only [Outline.load, apply, Outline.queue, Outline.change, true_and]
      split <;> simp <;> omega
    | _ => cases ha

/-- A run that is resumed waited before, and does so no longer. -/
theorem load_resumed {job : Job} (hq : q < o.length) (waits : (o.run q).waiting.isSome) :
    ((resumed job).apply q o).load q ≤ o.load q := by
  obtain ⟨w, hw⟩ := Option.isSome_iff_exists.1 waits
  simp [Outline.load, apply, Outline.queue, Outline.change, hq, hw]

theorem load_released (hq : q < o.length) (waits : (o.run q).waiting.isSome) :
    (released.apply q o).load q + 1 ≤ o.load q := by
  obtain ⟨w, hw⟩ := Option.isSome_iff_exists.1 waits
  simp [Outline.load, apply, Outline.change, hq, hw]

end Alteration

/-- The session `s'` holds at most `n` errands more than `s`, and those for the run `q`. -/
def Session.Adds (n : Nat) (q : RunId) (s s' : Session) : Prop :=
  ∀ r, s'.outline.load r ≤ s.outline.load r + if r = q then n else 0

section Adds

variable {n : Nat} {L : Prop} {q : RunId} {s s' s'' : Session} {m : Move} {α : Alteration}

theorem Session.Adds.of_le (h : ∀ r, s'.outline.load r ≤ s.outline.load r) : s.Adds n q s' :=
  fun r => Nat.le_trans (h r) (Nat.le_add_right _ _)

theorem Session.Adds.of_outline (h : s'.outline = s.outline) : s.Adds n q s' :=
  .of_le fun r => Nat.le_of_eq (congrArg (·.load r) h)

theorem Session.Adds.after (h : s'.Adds n q s'') (hs : s.Adds 0 q s') : s.Adds n q s'' := by
  intro r
  have first := hs r
  rw [ite_self, Nat.add_zero] at first
  exact Nat.le_trans (h r) (Nat.add_le_add_right first _)

theorem Session.Adds.of_apply (h : s'.outline = α.apply q s.outline) (adds : α.adds = false) :
    s.Adds 0 q s' := by
  refine .of_le fun r => ?_
  rw [h]
  by_cases hr : r = q
  · subst hr
    exact Alteration.load_apply adds
  · refine Alteration.load_apply_of_ne hr fun g c ho => ?_
    subst ho
    cases adds

theorem Move.Serves.adds (h : m.Serves L q α s) (opened : ∀ g c, α ≠ .opened g c) :
    s.Adds 1 q m.session := by
  intro r
  rw [h.outline]
  by_cases hr : r = q
  · subst hr
    rw [if_pos rfl]
    exact Alteration.load_apply_le opened
  · rw [if_neg hr]
    exact Alteration.load_apply_of_ne hr fun g c ho => absurd ho (opened g c)

end Adds

/-! ## Going on -/

/-- What a move for the run `q` may come to, from the session `s`, where a rider goes on with the
run in the terrain `T`: a rider goes on with it again, or the session holds one errand more. -/
inductive Move.GoesOn (q : RunId) (T : Terrain) (s : Session) (m : Move) : Prop
  | here (frames : m.frames = []) (fits : m.control.rider.Fits q T) (adds : s.Adds 0 q m.session)
  | above {m' : Move} {f : Frame} (h : m = m'.under f) (still : m'.IsStill)
      (fits : f.rider.Fits q T) (adds : s.Adds 0 q m'.session)
  | ended (still : m.IsStill) (adds : s.Adds 1 q m.session)

namespace Move.GoesOn

variable {q : RunId} {T : Terrain} {s s' : Session} {m : Move} {α : Alteration}

theorem of_serves (h : m.Serves False q α s) (opened : ∀ g c, α ≠ .opened g c) :
    m.GoesOn q T s := .ended (h.still.resolve_right id) (h.adds opened)

theorem stepped (h : s.Retouches q s') {node : Node} {action : Action} (hn : T.nodes node)
    (ha : ∀ n, action = .next n → T.nodes n) : (Move.stepped s' node action).GoesOn q T s :=
  .here rfl ⟨hn, ha⟩ (.of_outline h.outline)

/-- A frame goes on with the run after a move that goes on with none. -/
theorem under (h : m.Serves False q .nothing s) {f : Frame} (fits : f.rider.Fits q T) :
    (m.under f).GoesOn q T s :=
  .above rfl (h.still.resolve_right id) fits (.of_outline h.outline)

theorem after (h : m.GoesOn q T s') (adds : s.Adds 0 q s') : m.GoesOn q T s := by
  cases h with
  | here frames fits hm => exact .here frames fits (hm.after adds)
  | above hm still fits hs => exact .above hm still fits (hs.after adds)
  | ended still hm => exact .ended still (hm.after adds)

end Move.GoesOn

namespace Session

variable (s : Session) {q : RunId} {T : Terrain} {g : Graph} {node : Node}

theorem follow_goesOn (hg : T.graphs g) (hn : T.nodes node) (output : Int) :
    (s.follow q node output g).GoesOn q T s := by
  have h : s.Retouches q (s.setRun q fun run => { run with activity := .advancing }) :=
    .setRun fun _ => rfl
  unfold follow
  dsimp only
  split
  case h_1 next hnext =>
    exact .stepped h hn fun n ha => Action.next.inj ha ▸ T.closed hg hn hnext
  case h_2 => exact .stepped h hn nofun

theorem check_goesOn (hg : T.graphs g) (hn : T.nodes node) (c : Condition) :
    (s.check q node c g).GoesOn q T s := by
  have ask : (Move.ask s (.count q node c g)).GoesOn q T s :=
    .here rfl ⟨rfl, hg, hn⟩ (.of_outline rfl)
  unfold check
  split
  · exact follow_goesOn s hg hn _
  · exact ask
  · exact ask

theorem visit_goesOn (hg : T.graphs g) (hn : T.nodes node) : (s.visit q node g).GoesOn q T s := by
  have h : s.Retouches q (s.setRun q fun run =>
      { run.count node.kind.word with node := some node.id, activity := .running }) :=
    .setRun fun _ => rfl
  unfold visit
  cases node.body with
  | dialogue d => exact .under ((report_serves _ q _).after h) ⟨hn, nofun⟩
  | choice c => exact .under ((report_serves _ q _).after h) ⟨hn, nofun⟩
  | image i => exact .stepped h hn nofun
  | item i => exact .under ((applyItem_serves _ q _ _).after h) ⟨rfl, hg, hn⟩
  | trigger t => exact .under ((dispatch_serves _ q _).after h) ⟨rfl, hg, hn⟩
  | condition c => exact (check_goesOn _ hg hn c).after (.of_outline h.outline)
  | combat opponent => exact .stepped h hn nofun
  | link l => exact .stepped h hn nofun
  | ending => exact .stepped h hn nofun

theorem failure_goesOn (f : Fault) : (Move.failure s f).GoesOn q T s :=
  .of_serves (.failure (.refl s) f) nofun

theorem respond_goesOn (hg : T.graphs g) (hn : T.nodes node) (answer : Value) :
    (s.respond q node g answer).GoesOn q T s := by
  unfold respond
  split
  · split
    case h_1 pick _ =>
      have answered := outline_setRun s q
        (f := fun run => { run with ledger := run.ledger.put node.id pick })
        (g := fun run => { run with ledger := run.ledger.put node.id pick }) fun _ => rfl
      have adds := Adds.of_apply (α := .answered node.id pick) answered rfl
      dsimp only
      split
      · exact (follow_goesOn _ hg hn _).after adds
      · exact (failure_goesOn _ _).after adds
    · exact failure_goesOn s _
  · exact follow_goesOn s hg hn _

theorem resolve_goesOn (hg : T.graphs g) (hn : T.nodes node) (outcome : Value) :
    (s.resolve q node g outcome).GoesOn q T s := by
  unfold resolve
  split
  · exact follow_goesOn s hg hn _
  · exact follow_goesOn s hg hn _
  · exact failure_goesOn s _

theorem install_goesOn (graph : Graph) : (s.install q graph).GoesOn q T s :=
  .of_serves (install_serves s q graph) nofun

theorem loadTarget_goesOn (link : Link) : (s.loadTarget q link).GoesOn q T s := by
  rcases s.loadTarget_cases q link with ⟨f, h⟩ | ⟨graph, -, h | h⟩
  · rw [h]
    exact failure_goesOn s f
  · rw [h]
    exact .here rfl rfl (.of_outline rfl)
  · rw [h]
    exact install_goesOn s graph

theorem afterWrite_goesOn (link : Link) (outcome : WriteOutcome) :
    (s.afterWrite q link outcome).GoesOn q T s := by
  cases outcome with
  | written => exact loadTarget_goesOn s link
  | failed reason => exact failure_goesOn s _
  | cancelled => exact failure_goesOn s _

theorem afterHandOver_goesOn (node : String) (link : Link) (receipt : Receipt) :
    (s.afterHandOver q node link receipt).GoesOn q T s := by
  cases receipt with
  | plain => exact loadTarget_goesOn s link
  | finished outcome => exact afterWrite_goesOn s link outcome
  | pending ticket =>
    exact .of_serves (suspend_serves s q (.finished (.of_eq rfl rfl rfl rfl rfl rfl))) nofun

theorem transfer_goesOn (node : String) (link : Link) : (s.transfer q node link).GoesOn q T s := by
  unfold transfer
  split
  · exact loadTarget_goesOn s link
  · have handed := outline_setRun s q (f := fun run => { run with completion := none })
      (g := fun run => { run with completion := none }) fun _ => rfl
    exact .here rfl rfl (.of_apply (α := .handed) handed rfl)

theorem terminate_goesOn {phase : Phase} (past : phase.isActive = false) :
    (s.terminate q phase).GoesOn q T s := by
  rcases terminate_serves s q past with h | h
  · exact .of_serves h nofun
  · exact .of_serves h nofun

theorem settle_goesOn (step : Step) : (s.settle q step).GoesOn q T s := by
  unfold settle
  split
  · exact .of_serves (.finished (.refl s)) nofun
  · exact .of_serves (pause_serves s q _ _) nofun
  · exact transfer_goesOn s _ _
  · exact terminate_goesOn s rfl
  · exact terminate_goesOn s (phaseAfter_isActive _)

end Session

section Riding

variable (s : Session) {q : RunId} {T : Terrain}

theorem Task.begin_goesOn {task : Task} (h : (Control.work task).rider.Fits q T)
    (hx : (Control.work task).rider ≠ .nobody) (hj : ∀ r job, task ≠ .drive r job) :
    (task.begin s).GoesOn q T s := by
  cases task with
  | drive r job => exact absurd rfl (hj r job)
  | visit r node graph =>
    obtain ⟨rfl, hg, hn⟩ := h
    exact s.visit_goesOn hg hn
  | respond r node graph answer =>
    obtain ⟨rfl, hg, hn⟩ := h
    exact s.respond_goesOn hg hn answer
  | resolve r node graph outcome =>
    obtain ⟨rfl, hg, hn⟩ := h
    exact s.resolve_goesOn hg hn outcome
  | follow r node output graph =>
    obtain ⟨rfl, hg, hn⟩ := h
    exact s.follow_goesOn hg hn output
  | _ => exact absurd rfl hx

theorem Ask.resume_goesOn {a : Ask} (h : a.rider.Fits q T) (hx : a.rider ≠ .nobody)
    (answer : a.call.Reply) : (a.resume s answer).GoesOn q T s := by
  cases a with
  | count r node condition graph =>
    obtain ⟨rfl, hg, hn⟩ := h
    exact s.follow_goesOn hg hn _
  | handOver r node link callback ledger =>
    obtain rfl : r = q := h
    exact s.afterHandOver_goesOn node link answer
  | fillIn r graph =>
    obtain rfl : r = q := h
    exact s.install_goesOn _
  | _ => exact absurd rfl hx

theorem Frame.receive_goesOn {f : Frame} (h : f.rider.Fits q T) (hx : f.rider ≠ .nobody)
    (hn : ∀ a, f ≠ .asked a) (result : Result) : (f.receive s result).GoesOn q T s := by
  cases f with
  | stepping step => exact .stepped (.refl s) h.1 h.2
  | following r node output graph =>
    obtain ⟨rfl, hg, hn⟩ := h
    exact s.follow_goesOn hg hn output
  | triggering r node graph =>
    obtain ⟨rfl, hg, hn⟩ := h
    exact s.follow_goesOn hg hn _
  | asked a => exact absurd rfl (hn a)
  | _ => exact absurd rfl hx

theorem Frame.recover_goesOn {f : Frame} (h : f.rider.Fits q T) (hx : f.rider ≠ .nobody)
    (hn : ∀ a, f ≠ .asked a) (fault : Fault) : (f.recover s fault).GoesOn q T s := by
  cases f with
  | stepping | following => exact s.failure_goesOn fault
  | triggering r node graph =>
    obtain ⟨rfl, hg, hn⟩ := h
    simp only [recover]
    split
    · exact .under (s.report_serves r _) ⟨rfl, hg, hn⟩
    · exact s.failure_goesOn _
  | asked a => exact absurd rfl (hn a)
  | _ => exact absurd rfl hx

end Riding

/-! ## Errands are handed on -/

/-- Whether a rider fits the terrain in which its run is. -/
def Fitting (home : RunId → Option Terrain) (q : RunId) (x : Rider) : Prop :=
  ∃ T ∈ home q, x.Fits q T

/-- The number of errands that a run has. -/
def Turn.errands (t : Turn) (r : RunId) : Nat :=
  t.session.outline.load r + riders r t.control.rider t.stack

/-- All riders of the turn `u` are seated and fit.  No run has more errands than in the turn `t`, if
no run was to be resumed that did not wait; one that is opened has a single one. -/
structure Turn.HandsOn (home : RunId → Option Terrain) (t u : Turn) : Prop where
  rides : Rides (Fitting home) u.control.rider u.stack
  errands : t.Poised → ∀ r, u.errands r ≤ t.errands r ∨
    t.session.runs.length ≤ r ∧ u.errands r ≤ 1

theorem Frame.seats_of_drives {f : Frame} {q r : RunId} {x : Rider}
    (hf : f = .driving q ∨ f = .linking q) : f.seats r x = (x != .nobody && q == r) := by
  rcases hf with rfl | rfl <;> rfl

theorem Frame.rider_of_drives {f : Frame} {q : RunId} (hf : f = .driving q ∨ f = .linking q) :
    f.rider = .nobody := by
  rcases hf with rfl | rfl <;> rfl

section Handing

variable {home : RunId → Option Terrain} {q r : RunId} {T : Terrain} {x : Rider} {s : Session}
  {f : Frame} {below : List Frame} {m : Move}

/-- A rider that is on its way sits above the frame that drives its run. -/
theorem Frame.drives_of_seats (h : f.seats q x) (hx : x ≠ .nobody) (hj : ∀ r job, x ≠ .job r job) :
    f = .driving q ∨ f = .linking q := by
  cases f with
  | draining =>
    cases x with
    | job r job => exact absurd rfl (hj r job)
    | _ => cases h
  | driving p =>
    obtain rfl : p = q := by simpa [seats, hx] using h
    exact .inl rfl
  | linking p =>
    obtain rfl : p = q := by simpa [seats, hx] using h
    exact .inr rfl
  | _ => cases h

/-- A rider takes its seat. -/
theorem Rides.sit (hf : f = .driving q ∨ f = .linking q) (hT : home q = some T)
    (hx : x.Fits q T) (h : Rides (Fitting home) .nobody below) :
    Rides (Fitting home) x (f :: below) ∧
      ∀ r, riders r x (f :: below) ≤ riders r .nobody below + if r = q then 1 else 0 := by
  have seats (r : RunId) : f.seats r x = (x != .nobody && q == r) := Frame.seats_of_drives hf
  refine ⟨⟨?_, by rw [Frame.rider_of_drives hf]; exact h⟩, fun r => ?_⟩
  · by_cases hn : x = .nobody
    · exact .inl hn
    · exact .inr ⟨q, by simp [seats, hn], T, hT, hx⟩
  · simp only [riders, seats, Frame.rider_of_drives hf]
    by_cases hr : r = q
    · subst hr
      rw [if_pos rfl]
      split <;> omega
    · simp [hr, Ne.symm hr]

/-- Above the frame that drives a run, going on with it leaves one errand of the run: a rider, or
what is added to the session. -/
theorem Move.GoesOn.on (h : m.GoesOn q T s) (hf : f = .driving q ∨ f = .linking q)
    (hT : home q = some T) (rides : Rides (Fitting home) .nobody below) :
    Rides (Fitting home) (m.on (f :: below)).control.rider (m.on (f :: below)).stack ∧
      ∀ r, (m.on (f :: below)).errands r ≤
        s.outline.load r + riders r .nobody below + if r = q then 1 else 0 := by
  have empty : Rides (Fitting home) .nobody (f :: below) ∧
      ∀ r, riders r .nobody (f :: below) = riders r .nobody below := by
    refine ⟨?_, fun r => ?_⟩
    · rw [rides_nobody_cons, Frame.rider_of_drives hf]
      exact rides
    · rw [riders_nobody_cons, Frame.rider_of_drives hf]
  cases h with
  | here frames fits adds =>
    obtain ⟨sits, fewer⟩ := Rides.sit hf hT fits rides
    have stack : (m.on (f :: below)).stack = f :: below := by simp [Move.on, frames]
    refine ⟨by rw [stack]; exact sits, fun r => ?_⟩
    have hs := adds r
    have hr := fewer r
    rw [ite_self] at hs
    simp only [Turn.errands, stack]
    simp only [Move.on]
    omega
  | @above m' f' hm still fits adds =>
    obtain ⟨sits, fewer⟩ := Rides.sit hf hT fits rides
    have stack : (m.on (f :: below)).stack = m'.frames ++ f' :: f :: below := by
      simp [Move.on, hm, Move.under]
    have control : (m.on (f :: below)).control.rider = .nobody := by
      rw [← still.control, hm]
      rfl
    refine ⟨?_, fun r => ?_⟩
    · rw [stack, control, rides_append still.frames, rides_nobody_cons]
      exact sits
    · have hs := adds r
      have hr := fewer r
      rw [ite_self] at hs
      have session : (m.on (f :: below)).session = m'.session := by rw [hm]; rfl
      simp only [Turn.errands, stack, control, riders_append still.frames, riders_nobody_cons, session]
      omega
  | ended still adds =>
    refine ⟨?_, fun r => ?_⟩
    · show Rides _ m.control.rider (m.frames ++ f :: below)
      rw [still.control, rides_append still.frames]
      exact empty.1
    · have hs := adds r
      show m.session.outline.load r + riders r m.control.rider (m.frames ++ f :: below) ≤ _
      rw [still.control, riders_append still.frames, empty.2]
      omega

/-- A move that goes on with no run and adds nothing. -/
theorem Turn.HandsOn.of_still {t : Turn} (popped : List Frame) {stack : List Frame} (hs : t.stack = popped ++ stack)
    (rides : Rides (Fitting home) t.control.rider t.stack) (still : m.IsStill)
    (adds : ∀ r, m.session.outline.load r ≤ t.session.outline.load r) :
    t.HandsOn home (m.on stack) := by
  rw [hs] at rides
  refine ⟨?_, fun _ r => .inl ?_⟩
  · show Rides _ m.control.rider (m.frames ++ stack)
    rw [still.control, rides_append still.frames]
    exact rides.drop
  · show m.session.outline.load r + riders r m.control.rider (m.frames ++ stack) ≤ _
    rw [still.control, riders_append still.frames, Turn.errands, hs]
    exact Nat.add_le_add (adds r) riders_drop_le

/-- A rider is gone on with by a move that takes it from the stack. -/
theorem Turn.HandsOn.of_goesOn {t : Turn} {stack : List Frame} (rides : Rides (Fitting home) x stack)
    (fewer : ∀ r, t.session.outline.load r + riders r x stack ≤ t.errands r) (hx : x ≠ .nobody)
    (hj : ∀ r job, x ≠ .job r job) (goes : ∀ q T, x.Fits q T → m.GoesOn q T t.session) :
    t.HandsOn home (m.on stack) := by
  obtain ⟨q, f, below, rfl, seats, ⟨T, hT, fits⟩, hbelow⟩ := rides.seat hx
  have hf := Frame.drives_of_seats seats hx hj
  rw [Frame.rider_of_drives hf] at hbelow
  obtain ⟨rides', errands⟩ := (goes q T fits).on hf hT hbelow
  refine ⟨rides', fun _ r => .inl (Nat.le_trans (errands r) (Nat.le_trans ?_ (fewer r)))⟩
  simp only [riders, Frame.seats_of_drives hf, Frame.rider_of_drives hf]
  by_cases hr : r = q
  · subst hr
    have seat : (x != .nobody && r == r) = true := by simp [hx]
    rw [if_pos rfl, if_pos seat]
    omega
  · simp [hr, Ne.symm hr]

end Handing

namespace Turn

variable {home : RunId → Option Terrain} {t u : Turn} {d : Deed} {q r : RunId} {g : Graph}
  {s : Session} {stack popped rest : List Frame} {m : Move} {α : Alteration}

theorem Yields.handsOn (h : t.Yields d u)
    (rides : Rides (Fitting home) t.control.rider t.stack) : t.HandsOn home u := by
  obtain ⟨s, stack, c⟩ := t
  obtain ⟨s', stack', c'⟩ := u
  have keeps (hr : Rides (Fitting home) c'.rider stack')
      (fewer : ∀ r, riders r c'.rider stack' ≤ riders r c.rider stack) :
      HandsOn home ⟨s, stack, c⟩ ⟨s', stack', c'⟩ := by
    refine ⟨hr, fun _ r => .inl ?_⟩
    simp only [errands, h.outline]
    exact Nat.add_le_add_left (fewer r) _
  have hshifts : Shifts stack c stack' c' := h.shifts
  have hrides : Rides (Fitting home) c.rider stack := rides
  cases hshifts with
  | change => exact keeps hrides fun _ => Nat.le_refl _
  | beginAtRest => exact keeps rfl fun _ => Nat.le_refl _
  | beginInside =>
    refine keeps (rides_nobody_cons.2 hrides) fun r => ?_
    exact Nat.le_of_eq riders_nobody_cons
  | leave => exact keeps hrides.below fun r => Nat.le_add_left _ _
  | fail => exact keeps hrides.without fun r => riders_nobody_le r _ _

/-- A run that is opened has its first job, and nothing else. -/
theorem Makes.errands_of_opened {c : Option Callback} (h : t.Makes popped q (.opened g c) m)
    (hs : t.stack = popped ++ rest) (still : m.IsStill) (orderly : t.Orderly) :
    (m.on rest).errands q ≤ 1 := by
  obtain rfl := (h.opened _ _ rfl).1
  have unridden : riders t.session.runs.length .nobody rest = 0 := by
    refine riders_eq_zero (by simp) fun f hf hr => ?_
    exact Nat.lt_irrefl _ (orderly.stack f (hs ▸ List.mem_append_right _ hf) _ hr)
  have unqueued : t.session.pending.filter (·.1 == t.session.runs.length) = [] :=
    List.filter_eq_nil_iff.2 fun x hx hq => Nat.ne_of_lt (orderly.pending x hx) (beq_iff_eq.1 hq)
  show m.session.outline.load _ + riders _ m.control.rider (m.frames ++ rest) ≤ 1
  rw [still.control, riders_append still.frames, unridden, h.serves.outline]
  simp [Outline.load, Alteration.apply, Outline.queue, Session.outline, unqueued]

/-- A move that goes on with no run hands errands on; a run that is resumed waited before. -/
theorem Makes.handsOn (h : t.Makes popped q α m) (hs : t.stack = popped ++ rest)
    (goes : ¬t.Goes popped) (orderly : t.Orderly)
    (rides : Rides (Fitting home) t.control.rider t.stack)
    (waits : t.Poised → ∀ job, α = .resumed job → t.session.Waits q) :
    t.HandsOn home (m.on rest) := by
  have still : m.IsStill := h.serves.still.resolve_right goes
  have dropped := rides
  rw [hs] at dropped
  have hrides : Rides (Fitting home) m.control.rider (m.frames ++ rest) := by
    rw [still.control, rides_append still.frames]
    exact dropped.drop
  -- Only for the run that is served something can be added.
  have others (r : RunId) (hr : r ≠ q) : (m.on rest).errands r ≤ t.errands r := by
    show m.session.outline.load r + riders r m.control.rider (m.frames ++ rest) ≤ _
    rw [still.control, riders_append still.frames, errands, hs, h.serves.outline]
    exact Nat.add_le_add (Alteration.load_apply_of_ne hr fun g c ho => (h.opened g c ho).1)
      riders_drop_le
  have own (light : (α.apply q t.session.outline).load q ≤ t.session.outline.load q) :
      t.HandsOn home (m.on rest) := by
    refine .of_still popped hs rides still fun r => ?_
    rw [h.serves.outline]
    by_cases hr : r = q
    · exact hr ▸ light
    · exact Alteration.load_apply_of_ne hr fun g c ho => (h.opened g c ho).1
  cases hα : α.adds with
  | false => exact own (Alteration.load_apply hα)
  | true =>
    cases α with
    | opened g c =>
      refine ⟨hrides, fun _ r => ?_⟩
      by_cases hr : r = q
      · subst hr
        exact .inr ⟨Nat.le_of_eq (h.opened g c rfl).1.symm, h.errands_of_opened hs still orderly⟩
      · exact .inl (others r hr)
    | resumed job =>
      refine ⟨hrides, fun poised => ?_⟩
      have waiting := waits poised job rfl
      obtain ⟨w, hw⟩ := waiting
      exact (own (Alteration.load_resumed (Session.lt_length_of_isWaitingOn hw)
        (Run.waits_iff.1 (waits poised job rfl)))).errands poised
    | suspended | installed => exact absurd (h.goes rfl) goes
    | _ => cases hα

/-! ### The moves that go on with a run -/

/-- A job is taken up. -/
theorem handsOn_drive {job : Job}
    (rides : Rides (Fitting home) (.job r job) stack) :
    HandsOn home ⟨s, stack, .work (.drive r job)⟩ ((s.drive r job).on stack) := by
  obtain ⟨q, f, below, rfl, seats, ⟨T, hT, rfl, hj⟩, hbelow⟩ := rides.seat (by simp)
  unfold Session.drive
  split
  case isTrue =>
    have goes : (Move.work s (Session.taskOf r job)).GoesOn r T s := by
      refine .here rfl ?_ (.of_outline rfl)
      cases job <;> exact ⟨rfl, hj.1, hj.2⟩
    rw [Move.on_under]
    obtain ⟨rides', errands⟩ := goes.on (.inl rfl) hT (rides_nobody_cons.2 hbelow)
    refine ⟨rides', fun _ p => .inl (Nat.le_trans (errands p) ?_)⟩
    show _ ≤ s.outline.load p + riders p (.job r job) (f :: below)
    rw [riders_nobody_cons]
    by_cases hp : p = r
    · subst hp
      rw [if_pos rfl, riders_of_seats seats]
      exact Nat.le_refl _
    · rw [if_neg hp]
      exact Nat.add_le_add_left riders_cons_le _
  case isFalse =>
    exact .of_still [] rfl rides ⟨rfl, fun _ h => by cases h⟩ fun _ => Nat.le_refl _

/-- The queue is worked off. -/
theorem handsOn_drain {c : Control} (rides : Rides (Fitting home) c.rider (.draining :: stack))
    (jobs : ∀ x ∈ s.pending, ∃ T ∈ home x.1, x.2.IsFor T) :
    HandsOn home ⟨s, .draining :: stack, c⟩ (s.drain.on stack) := by
  unfold Session.drain
  split
  · exact .of_still [.draining] rfl rides ⟨rfl, fun _ h => by cases h⟩
      fun _ => Nat.le_refl _
  case h_2 r job rest hp =>
    obtain ⟨T, hT, hj⟩ := jobs (r, job) (hp ▸ List.mem_cons_self)
    rw [Move.on_under]
    have seats : Frame.draining.seats r (.job r job) := beq_self_eq_true r
    refine ⟨⟨.inr ⟨r, seats, T, hT, rfl, hj⟩, rides.below⟩, fun _ q => .inl ?_⟩
    have load : s.outline.load q = Outline.load { s.outline with pending := rest } q +
        if r = q then 1 else 0 := by
      simp only [Outline.load, show s.outline.pending = (r, job) :: rest from hp, List.filter_cons]
      by_cases hq : r = q
      · simp [hq]
        omega
      · simp [hq]
    show Outline.load { s.outline with pending := rest } q +
      riders q (.job r job) (.draining :: stack) ≤ s.outline.load q + riders q c.rider (.draining :: stack)
    rw [load]
    by_cases hq : r = q
    · subst hq
      rw [if_pos rfl, riders_of_seats seats]
      have below : riders r Frame.draining.rider stack ≤ riders r c.rider (.draining :: stack) :=
        riders_cons_le
      omega
    · have empty : Frame.draining.seats q (.job r job) = false := by simp [Frame.seats, hq]
      rw [if_neg hq, riders, empty]
      have below : riders q Frame.draining.rider stack ≤ riders q c.rider (.draining :: stack) :=
        riders_cons_le
      simpa using below

/-- A driven run goes on after a step. -/
theorem handsOn_proceed {step : Step}
    (rides : Rides (Fitting home) (.stepped step) (.driving r :: stack))
    (graph : s.current = some r → ∀ g ∈ s.graph, ∀ T ∈ home r, T.graphs g) :
    HandsOn home ⟨s, .driving r :: stack, .done (.stepped step)⟩ ((s.proceed r step).on stack) := by
  obtain ⟨hseat, hbelow⟩ := id rides
  obtain ⟨q, seats, T, hT, holds, next⟩ := hseat.resolve_left (by simp)
  obtain rfl : r = q := by simpa [Frame.seats] using seats
  have driven {m : Move} (goes : m.GoesOn r T s) :
      HandsOn home ⟨s, .driving r :: stack, .done (.stepped step)⟩ ((m.under (.driving r)).on stack) := by
    rw [Move.on_under]
    obtain ⟨rides', errands⟩ := goes.on (.inl rfl) hT hbelow
    refine ⟨rides', fun _ p => .inl (Nat.le_trans (errands p) ?_)⟩
    show s.outline.load p + riders p (Frame.driving r).rider stack + _ ≤
      s.outline.load p + riders p (.stepped step) (.driving r :: stack)
    by_cases hp : p = r
    · subst hp
      rw [if_pos rfl, riders_of_seats seats]
      exact Nat.le_refl _
    · rw [if_neg hp]
      exact Nat.add_le_add_left riders_cons_le _
  rcases s.proceed_cases r step with ⟨-, h⟩ | ⟨owns, ⟨f, h⟩ | ⟨node, g, ha, hg, h⟩ | ⟨-, h⟩⟩
  · rw [h]
    exact .of_still [.driving r] rfl rides ⟨rfl, fun _ h => by cases h⟩
      fun _ => Nat.le_refl _
  · rw [h]
    exact driven (s.failure_goesOn f)
  · rw [h]
    have current : s.current = some r := beq_iff_eq.1 (Bool.and_eq_true_iff.1 owns).1
    exact driven (.here rfl ⟨rfl, graph current g hg T hT, next node ha⟩ (.of_outline rfl))
  · rw [h]
    exact driven (s.settle_goesOn step)

/-- A link goes on after its write. -/
theorem handsOn_deliver {d : Delivery} (rides : Rides (Fitting home) .nobody stack)
    (begun : ∀ r < s.runs.length, ∃ T, T ∈ home r) :
    HandsOn home ⟨s, stack, .work (.entry (.written d))⟩ ((s.deliver d).on stack) := by
  rcases s.deliver_cases d with ⟨-, h⟩ | ⟨waits, h⟩
  · rw [h]
    exact .of_still [] rfl rides ⟨rfl, fun _ h => by cases h⟩ fun _ => Nat.le_refl _
  · rw [h]
    have hr := Session.lt_length_of_isWaitingOn waits
    obtain ⟨T, hT⟩ := begun _ hr
    rw [Move.on_under]
    obtain ⟨rides', errands⟩ := (Session.afterWrite_goesOn
      (s.setRun d.handle.run fun run => { run with wait := none }) (q := d.handle.run) (T := T)
      d.handle.link d.outcome).on (.inr rfl) hT rides
    refine ⟨rides', fun _ p => .inl (Nat.le_trans (errands p) ?_)⟩
    have released := Session.outline_setRun s d.handle.run (f := fun run => { run with wait := none })
      (g := fun run => { run with waiting := none }) fun run => by simp [Run.outline]
    rw [released]
    show Outline.load (Alteration.released.apply d.handle.run s.outline) p + _ + _ ≤
      s.outline.load p + riders p .nobody stack
    by_cases hp : p = d.handle.run
    · subst hp
      have light := Alteration.load_released (o := s.outline) hr (Run.waits_iff.1 ⟨_, waits⟩)
      rw [if_pos rfl]
      omega
    · have light := Alteration.load_apply_of_ne (α := .released) (o := s.outline) hp fun _ _ h => by cases h
      rw [if_neg hp]
      omega

/-! ### Every deed -/

/-- **Errands are handed on.**  If each rider fits the terrain in which its run is, with the jobs
that are queued and the current graph, the riders after the deed do so too; and no deed gives a run
a second errand. -/
theorem Does.handsOn (h : t.Does d u) (orderly : t.Orderly)
    (rides : Rides (Fitting home) t.control.rider t.stack)
    (graph : ∀ r, t.session.current = some r → ∀ g ∈ t.session.graph, ∀ T ∈ home r, T.graphs g)
    (begun : ∀ r < t.session.runs.length, ∃ T, T ∈ home r)
    (jobs : ∀ x ∈ t.session.pending, ∃ T ∈ home x.1, x.2.IsFor T) : t.HandsOn home u := by
  have resumed (poised : t.Poised) {q : RunId} {job : Job} (answers : job.isAnswer)
      (hu : u.session.pending = t.session.pending ++ [(q, job)]) : t.session.Waits q := by
    obtain ⟨p, hqueues⟩ := h.queues poised
    obtain ⟨waits, rfl, -⟩ := hqueues.answer answers hu
    exact waits
  have still {popped rest : List Frame} {q : RunId} {α : Alteration} {m : Move}
      (hu : u = m.on rest) (hm : t.Makes popped q α m) (hs : t.stack = popped ++ rest)
      (goes : ¬t.Goes popped) : t.HandsOn home u := by
    subst hu
    refine hm.handsOn hs goes orderly rides fun poised job hα => ?_
    subst hα
    exact resumed poised hm.ends (congrArg Outline.pending hm.serves.outline)
  rcases h.serves orderly.ends with hy | ⟨-, -, -, -, -, -, -, -, -, moved⟩
  · exact hy.handsOn rides
  cases h with
  | @work s stack task =>
    have idle (e : (Control.work task).rider = .nobody) (hn : ∀ d, task ≠ .entry (.written d)) :
        HandsOn home ⟨s, stack, .work task⟩ ((task.begin s).on stack) := by
      obtain ⟨q, α, hm⟩ := task.makes s stack orderly.ends.2
      refine still rfl hm rfl fun goes => ?_
      cases goes with
      | rider h => exact h e
      | frame hf => cases hf
      | queue hf => cases hf
      | written d h => exact hn d (Control.work.inj h)
    have riding (hx : (Control.work task).rider ≠ .nobody) (hj : ∀ r job, task ≠ .drive r job)
        (hr : ∀ r job, (Control.work task).rider ≠ .job r job) :
        HandsOn home ⟨s, stack, .work task⟩ ((task.begin s).on stack) :=
      .of_goesOn rides (fun _ => Nat.le_refl _) hx hr fun _ _ fits =>
        Task.begin_goesOn s fits hx hj
    cases task with
    | entry e =>
      cases e with
      | written d => exact handsOn_deliver rides begun
      | _ => exact idle rfl (by simp)
    | drive r job => exact handsOn_drive rides
    | visit | respond | resolve | follow => exact riding (by simp [Control.rider]) (by simp) (by simp [Control.rider])
    | _ => exact idle rfl (by simp)
  | @receive s frame stack result hn =>
    have idle (e : frame.rider = .nobody) (hd : frame ≠ .draining)
        (hc : (Control.done result).rider = .nobody) :
        HandsOn home ⟨s, frame :: stack, .done result⟩ ((frame.receive s result).on stack) := by
      obtain ⟨q, α, hm⟩ := frame.receive_makes s stack result hn (orderly.ends.1 frame List.mem_cons_self)
      refine still rfl hm rfl fun goes => ?_
      cases goes with
      | rider h => exact h hc
      | frame hf h => exact h (List.mem_singleton.1 hf ▸ e)
      | queue hf => exact hd (List.mem_singleton.1 hf).symm
      | written d h => cases h
    have riding (hx : frame.rider ≠ .nobody) :
        HandsOn home ⟨s, frame :: stack, .done result⟩ ((frame.receive s result).on stack) :=
      .of_goesOn rides.below (fun _ => Nat.add_le_add_left riders_cons_le _) hx frame.rider_ne_job
        fun _ _ fits => Frame.receive_goesOn s fits hx hn result
    have unseated (hf : ∀ q, frame.seats q (Control.done result).rider = false) :
        (Control.done result).rider = .nobody := by
      refine Classical.byContradiction fun hx => ?_
      obtain ⟨q, f, below, hs, seats, -⟩ := rides.seat hx
      obtain ⟨rfl, -⟩ := List.cons.inj hs
      rw [hf q] at seats
      cases seats
    cases frame with
    | draining => exact handsOn_drain rides jobs
    | driving r =>
      cases result with
      | done => exact idle rfl (by simp) rfl
      | stepped step => exact handsOn_proceed rides (graph r)
    | linking r =>
      exact .of_still [.linking r] rfl rides ⟨rfl, fun _ h => by cases h⟩
        fun _ => Nat.le_refl _
    | stepping | following | triggering => exact riding (by simp [Frame.rider])
    | asked a => exact absurd rfl (hn a)
    | _ => exact idle rfl (by simp) (unseated fun _ => rfl)
  | @recover s frame stack fault hn =>
    by_cases hx : frame.rider = .nobody
    · by_cases hd : frame = .draining
      · subst hd
        refine .of_still [.draining] rfl rides ⟨rfl, fun _ h => by cases h⟩ fun r => ?_
        exact Nat.le_trans (Nat.add_le_add_right (Nat.zero_le _) _) (Nat.le_refl _)
      · obtain ⟨q, α, hm⟩ := frame.recover_makes s stack fault hn
        refine still rfl hm rfl fun goes => ?_
        cases goes with
        | rider h => exact h rfl
        | frame hf h => exact h (List.mem_singleton.1 hf ▸ hx)
        | queue hf => exact hd (List.mem_singleton.1 hf).symm
        | written d h => cases h
    · exact .of_goesOn rides.below (fun _ => Nat.add_le_add_left riders_cons_le _) hx
        frame.rider_ne_job fun _ _ fits => Frame.recover_goesOn s fits hx hn fault
  | @reply s stack a answer =>
    by_cases hx : a.rider = .nobody
    · obtain ⟨q, α, hm⟩ := a.makes s stack answer
      refine still rfl hm rfl fun goes => ?_
      cases goes with
      | rider h => exact h hx
      | frame hf => cases hf
      | queue hf => cases hf
      | written d h => cases h
    · exact .of_goesOn rides (fun _ => Nat.le_refl _) hx ((Frame.asked a).rider_ne_job)
        fun _ _ fits => Ask.resume_goesOn s fits hx answer
  | beginAtRest | beginInside | leave | fail | change =>
    rcases moved with hd | ⟨a, answer, hd⟩ <;> cases hd

end Turn

/-! ## Answers that are taken up -/

/-- What is taken up with an entry, in the session `s`: an answer of the current run, at the node
that it waits at, in the current graph, or at the node of the battle that is over. -/
def Session.Takes (s : Session) (e : Entry) (r : RunId) (job : Job) : Prop :=
  s.current = some r ∧ ∃ g ∈ s.graph,
    match job with
    | .enter _ => False
    | .respond node graph _ =>
      graph = g ∧ (s.run r).phase = .suspended ∧ ∃ w ∈ (s.run r).wait,
        g.node? w.node = some node ∧ (w.kind.isForPlayer ∨ e = .timeUp ⟨r, w.id⟩)
    | .resolve node graph _ =>
      graph = g ∧ ∃ b outcome, e = .battleOver b outcome ∧ b.run = r ∧ b.node = node ∧
        s.isWaiting r b.wait

/-- After an answer a move queues only jobs that are allowed, and puts off no others until a timer
is cancelled. -/
structure Move.Chooses (allowed : RunId → Job → Prop) (s : Session) (m : Move) : Prop where
  queued : ∀ x ∈ m.session.pending, x ∈ s.pending ∨ x.2.isAnswer = false ∨ allowed x.1 x.2
  resuming : ∀ r job, .resuming r job ∈ m.frames → allowed r job

section Choosing

variable {allowed : RunId → Job → Prop} {q : RunId} {s s' : Session} {m : Move}

theorem Move.Chooses.of_eq (pending : m.session.pending = s.pending) (frames : m.frames = []) :
    m.Chooses allowed s :=
  ⟨fun x hx => .inl (pending ▸ hx), by simp [frames]⟩

theorem Move.Chooses.post (pending : s'.pending = s.pending) (ds : List Delivery) :
    (s'.post ds).Chooses allowed s := by
  cases ds with
  | nil => exact .of_eq pending rfl
  | cons d ds =>
    refine ⟨fun x hx => .inl (pending ▸ hx), fun r job hr => ?_⟩
    cases List.mem_singleton.1 hr

/-- Work that takes up no answer chooses no jobs. -/
theorem Move.WorksFor.chooses (h : m.WorksFor False q s) : m.Chooses allowed s := by
  refine ⟨fun x hx => ?_, fun r job hr => (h.resumes r job hr).1.elim⟩
  cases h.queue with
  | kept _ mem => exact .inl (mem x hx)
  | entered graph hp =>
    rw [hp] at hx
    rcases List.mem_append.1 hx with hx | hx
    · exact .inl hx
    · obtain rfl := List.mem_singleton.1 hx
      exact .inr (.inl rfl)
  | answered _ _ _ no => exact no.elim

theorem Session.resume_chooses {job : Job} (h : allowed q job) : (s.resume q job).Chooses allowed s := by
  have queued (x : RunId × Job) (hx : x ∈ s.pending ++ [(q, job)]) :
      x ∈ s.pending ∨ x.2.isAnswer = false ∨ allowed x.1 x.2 := by
    rcases List.mem_append.1 hx with hx | hx
    · exact .inl hx
    · obtain rfl := List.mem_singleton.1 hx
      exact .inr (.inr h)
  unfold resume enqueue
  dsimp only
  split
  · exact ⟨queued, fun _ _ hr => by cases hr⟩
  · exact ⟨queued, fun _ _ hr => by cases List.mem_singleton.1 hr⟩

theorem Session.clear_chooses {job : Job} (h : allowed q job) : (s.clear q job).Chooses allowed s := by
  rcases s.clear_cases q job with ⟨w, -, -, hm⟩ | ⟨-, hm⟩
  · rw [hm]
    refine ⟨fun x hx => .inl hx, fun r j hr => ?_⟩
    cases List.mem_singleton.1 hr
    exact h
  · rw [hm]
    exact resume_chooses h

theorem Session.resumeInput_chooses {wait : Wait} {answer : Value}
    (h : ∀ g ∈ s.graph, ∀ node, g.node? wait.node = some node → allowed q (.respond node g answer)) :
    (s.resumeInput q wait answer).Chooses allowed s := by
  rcases s.resumeInput_cases q wait answer with ⟨f, hm⟩ | ⟨graph, node, hg, hn, hm⟩
  · rw [hm]
    exact .of_eq rfl rfl
  · rw [hm]
    exact clear_chooses (h graph hg node hn)

theorem Session.advance_chooses (s : Session) (answer : Value) :
    (s.advance answer).Chooses (s.Takes (.advance answer)) s := by
  rcases s.advance_cases answer with ⟨f, h⟩ | ⟨r, wait, hr, phase, hw, player, -, h⟩
  · rw [h]
    exact .of_eq rfl rfl
  · rw [h]
    exact resumeInput_chooses fun g hg node hn =>
      ⟨hr, g, hg, rfl, phase, wait, hw, hn, .inl player⟩

theorem Session.battleOver_chooses (s : Session) (battle : BattleHandle) (outcome : Value) :
    (s.battleOver battle outcome).Chooses (s.Takes (.battleOver battle outcome)) s := by
  rcases s.battleOver_cases battle outcome with ⟨-, h⟩ | ⟨waits, ⟨f, h⟩ | ⟨g, hg, h⟩⟩
  · rw [h]
    exact .of_eq rfl rfl
  · rw [h]
    exact .of_eq rfl rfl
  · rw [h]
    have current := beq_iff_eq.1 (Bool.and_eq_true_iff.1 waits).1
    exact clear_chooses ⟨current, g, hg, rfl, battle, outcome, rfl, rfl, rfl, waits⟩

theorem Session.timeUp_chooses (s : Session) (timer : TimerHandle) :
    (s.timeUp timer).Chooses (s.Takes (.timeUp timer)) s := by
  rcases s.timeUp_cases timer with ⟨-, h⟩ | ⟨waits, wait, hw, id, h⟩
  · rw [h]
    exact .of_eq rfl rfl
  · rw [h]
    have current := beq_iff_eq.1 (Bool.and_eq_true_iff.1 waits).1
    have suspended := (Bool.and_eq_true_iff.1 (Bool.and_eq_true_iff.1 waits).2).1
    have chosen : ((s.setRun timer.run (·.setTimer timer.wait false)).resumeInput timer.run
        { wait with timer := false } .null).Chooses (s.Takes (.timeUp timer))
        (s.setRun timer.run (·.setTimer timer.wait false)) :=
      resumeInput_chooses fun g hg node hn =>
        ⟨current, g, hg, rfl, beq_iff_eq.1 suspended, wait, hw, hn, .inr (by rw [id])⟩
    exact ⟨chosen.queued, chosen.resuming⟩

theorem Session.enter_chooses (s : Session) (e : Entry) : (s.enter e).Chooses (s.Takes e) s := by
  cases e with
  | start script completion =>
    obtain ⟨q, h⟩ := s.start_worksFor script completion
    exact h.chooses
  | startGraph graph completion => exact (s.startGraph_worksFor graph completion).chooses
  | advance answer => exact s.advance_chooses answer
  | stop =>
    obtain ⟨q, h⟩ := s.stop_worksFor
    exact h.chooses
  | battleOver battle outcome => exact s.battleOver_chooses battle outcome
  | timeUp timer => exact s.timeUp_chooses timer
  | written d => exact (s.deliver_worksFor d).chooses
  | settle ticket outcome =>
    have pending : Session.pending { s with writes := s.writes.filter fun w => w.1 != ticket } =
        s.pending := rfl
    exact .post pending _

end Choosing

namespace Turn

variable {t u : Turn} {d : Deed} {r : RunId} {job : Job}

/-- In the turn `t` the run `r` may be resumed with a job: a frame waits to do so, or an entry that
is begun takes up an answer. -/
def Offers (t : Turn) (r : RunId) (job : Job) : Prop :=
  .resuming r job ∈ t.stack ∨ ∃ e, t.control = .work (.entry e) ∧ t.session.Takes e r job

/-- Jobs after an answer are queued, and put off, only as they are offered. -/
theorem Does.chooses (h : t.Does d u) :
    (∀ x ∈ u.session.pending,
      x ∈ t.session.pending ∨ x.2.isAnswer = false ∨ t.Offers x.1 x.2) ∧
    ∀ r job, .resuming r job ∈ u.stack → t.Offers r job := by
  have on {m : Move} (popped : List Frame) {rest : List Frame} (hm : m.Chooses t.Offers t.session)
      (hs : t.stack = popped ++ rest) :
      (∀ x ∈ (m.on rest).session.pending,
        x ∈ t.session.pending ∨ x.2.isAnswer = false ∨ t.Offers x.1 x.2) ∧
      ∀ r job, .resuming r job ∈ (m.on rest).stack → t.Offers r job := by
    refine ⟨hm.queued, fun r job hr => ?_⟩
    rcases List.mem_append.1 hr with hr | hr
    · exact hm.resuming r job hr
    · exact .inl (hs ▸ List.mem_append_right _ hr)
  cases h with
  | @work s stack task =>
    by_cases he : ∃ e, task = .entry e
    · obtain ⟨e, rfl⟩ := he
      have hm := s.enter_chooses e
      exact on [] ⟨fun x hx => (hm.queued x hx).imp_right (.imp_right fun h => .inr ⟨e, rfl, h⟩),
        fun r job hr => .inr ⟨e, rfl, hm.resuming r job hr⟩⟩ rfl
    · obtain ⟨q, hm⟩ := Task.begin_worksFor s task fun e h => he ⟨e, h⟩
      exact on [] hm.chooses rfl
  | @receive s frame stack result hn =>
    cases hp : frame.isPosting with
    | true =>
      cases frame <;> cases hp
      exact on [_] (.post rfl _) rfl
    | false =>
      by_cases hr : ∃ r job, frame = .resuming r job
      · obtain ⟨r, job, rfl⟩ := hr
        exact on [_] (Session.resume_chooses (.inl List.mem_cons_self)) rfl
      · obtain ⟨q, hm⟩ := Frame.receive_worksFor s frame result hn hp
        have plain : (frame.receive s result).WorksFor False q s :=
          hm.mono fun ⟨job, hf⟩ => hr ⟨q, job, hf⟩
        exact on [_] plain.chooses rfl
  | @recover s frame stack fault hn =>
    cases hp : frame.isPosting with
    | true =>
      cases frame <;> cases hp
      exact on [_] (.post rfl _) rfl
    | false =>
      obtain ⟨q, hm⟩ := Frame.recover_worksFor s frame fault hp
      exact on [_] hm.chooses rfl
  | @reply s stack a answer =>
    obtain ⟨q, hm⟩ := a.resume_worksFor s answer
    exact on [] hm.chooses rfl
  | beginAtRest | change | fail => exact ⟨fun x hx => .inl hx, fun r job hr => .inl hr⟩
  | beginInside =>
    refine ⟨fun x hx => .inl hx, fun r job hr => ?_⟩
    exact .inl ((List.mem_cons.1 hr).resolve_left nofun)
  | leave => exact ⟨fun x hx => .inl hx, fun r job hr => .inl (List.mem_cons_of_mem _ hr)⟩

end Turn

/-! ## Battles that are begun -/

section Battles

variable {s : Session} {r : RunId} {opponent : Json.Fields} {b : BattleHandle}

theorem Session.pause_battle {node : Node} {scene : Scene}
    (h : (s.pause r node scene).control = .ask (.battle opponent b)) : b = ⟨r, s.nextWait, node⟩ := by
  cases scene with
  | battle o =>
    simp only [pause, Move.ask, Control.ask.injEq, Ask.battle.injEq] at h
    exact h.2.symm
  | card c => cases c <;> cases h

theorem Session.transfer_ne_battle {node : String} {link : Link} :
    (s.transfer r node link).control ≠ .ask (.battle opponent b) := by
  intro h
  unfold transfer at h
  split at h
  · obtain ⟨α, serves, -, rfl | ⟨graph, rfl⟩⟩ := s.loadTarget_serves r link <;>
      cases (serves.battles _ _ h).choose_spec
  · cases h

theorem Session.terminate_ne_battle {phase : Phase} (past : phase.isActive = false) :
    (s.terminate r phase).control ≠ .ask (.battle opponent b) := by
  intro h
  rcases s.terminate_serves r past with serves | serves <;>
    cases (serves.battles _ _ h).choose_spec

/-- A battle is begun at the node of the step that was taken last. -/
theorem Session.proceed_battle {step : Step}
    (h : (s.proceed r step).control = .ask (.battle opponent b)) : b = ⟨r, s.nextWait, step.node⟩ := by
  rcases s.proceed_cases r step with ⟨-, hm⟩ | ⟨-, ⟨f, hm⟩ | ⟨node, graph, -, -, hm⟩ | ⟨-, hm⟩⟩
  · rw [hm] at h
    cases h
  · rw [hm] at h
    cases h
  · rw [hm] at h
    cases h
  · rw [hm] at h
    unfold settle at h
    split at h
    · cases h
    · exact pause_battle h
    · exact absurd h transfer_ne_battle
    · exact absurd h (terminate_ne_battle rfl)
    · exact absurd h (terminate_ne_battle (phaseAfter_isActive _))

end Battles

end Questline

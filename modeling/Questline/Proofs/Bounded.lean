import Mathlib.Data.List.Chain
import Mathlib.Data.List.Perm.Subperm
import Mathlib.Logic.Relation
import Questline.Proofs.Standing
import Questline.Proofs.Conditions

/-!
# Bounded work

Items, triggers and conditions are passed: a run does not wait there.  Where no way through such nodes
leads back to where it began, a run that is driven visits no node twice.  So it waits, is over, fails or
goes on in another graph after no more nodes than the script has.

* `Graph.Passes`, `Graph.IsAcyclic`: the edges that leave nodes that are passed.
* `Graph.IsTrail`: nodes along such edges; in an acyclic graph there are not more of them than nodes.
* `Turn.Brings`: whatever the host answers, what is under way comes to an end within some number of visits.
* `Turn.Brings.drive`: a run that is driven does.
* `drive_bounded`: what this says of the histories of the work.
-/

namespace Questline

open Json (Value)

/-! ## Nodes that are passed -/

/-- Whether a run passes a node without waiting. -/
def Node.isPassed (n : Node) : Bool :=
  match n.body with
  | .item _ | .trigger _ | .condition _ => true
  | _ => false

namespace Graph

variable {g : Graph} {n m : Node} {ns : List Node} {action : Action}

/-- An edge from an item, a trigger or a condition to another node. -/
structure Passes (g : Graph) (n m : Node) : Prop where
  own : g.node? n.id = some n
  passed : n.isPassed
  output : ∃ output, g.follow? n.id output = some m

/-- No way along these edges leads back. -/
def IsAcyclic (g : Graph) : Prop := ∀ n, ¬Relation.TransGen g.Passes n n

/-- An edge is a connection between two nodes. -/
theorem Passes.connection (edge : g.Passes n m) :
    n ∈ g.script.nodes ∧ m ∈ g.script.nodes ∧
      ∃ c ∈ g.script.connections, c.source = n.id ∧ c.target = m.id := by
  obtain ⟨output, follows⟩ := edge.output
  refine ⟨List.mem_of_find?_eq_some edge.own, List.mem_of_find?_eq_some (node?_of_follow? follows), ?_⟩
  unfold follow? at follows
  split at follows
  case h_1 c found =>
    have source := List.find?_some found
    rw [Bool.and_eq_true, beq_iff_eq] at source
    have target : m.id = c.target := by simpa using List.find?_some follows
    exact ⟨c, List.mem_of_find?_eq_some found, source.1, target.symm⟩
  case h_2 => cases follows

/-- Where the nodes are ranked so that every connection from a node that is passed leads to a lower rank, no
way leads back. -/
theorem IsAcyclic.of_rank (rank : Node → Nat)
    (down : ∀ n ∈ g.script.nodes, n.isPassed → ∀ m ∈ g.script.nodes,
      ∀ c ∈ g.script.connections, c.source = n.id → c.target = m.id → rank m < rank n) : g.IsAcyclic := by
  have lower {n m : Node} (edge : g.Passes n m) : rank m < rank n := by
    obtain ⟨hn, hm, c, hc, source, target⟩ := edge.connection
    exact down n hn edge.passed m hm c hc source target
  have below {n m : Node} (way : Relation.TransGen g.Passes n m) : rank m < rank n := by
    induction way with
    | single edge => exact lower edge
    | tail _ edge ih => exact (lower edge).trans ih
  exact fun n way => Nat.lt_irrefl _ (below way)

/-- Nodes of a graph, each behind the one before, which is passed. -/
structure IsTrail (g : Graph) (ns : List Node) : Prop where
  own : ∀ n ∈ ns, g.node? n.id = some n
  chain : ns.IsChain g.Passes

namespace IsTrail

theorem nil : g.IsTrail [] := ⟨nofun, .nil⟩

theorem concat (trail : g.IsTrail ns) (own : g.node? m.id = some m)
    (behind : ∀ n ∈ ns.getLast?, g.Passes n m) : g.IsTrail (ns ++ [m]) := by
  refine ⟨fun n hn => ?_, List.isChain_append.2 ⟨trail.chain, .singleton m, fun n hn x hx => ?_⟩⟩
  · rcases List.mem_append.1 hn with hn | hn
    · exact trail.own n hn
    · rwa [List.mem_singleton.1 hn]
  · obtain rfl : m = x := by simpa using hx
    exact behind n hn

/-- **Without a way back** no node comes twice, so that there are not more than the graph has. -/
theorem length_le (trail : g.IsTrail ns) (acyclic : g.IsAcyclic) : ns.length ≤ g.script.nodes.length := by
  have ways : ns.Pairwise (Relation.TransGen g.Passes) := (trail.chain.imp fun _ _ => .single).pairwise
  have distinct : ns.Nodup := ways.imp fun {n m} way => by
    rintro rfl
    exact acyclic n way
  exact (distinct.subperm fun n hn => List.mem_of_find?_eq_some (trail.own n hn)).length_le

end IsTrail

/-- What follows a node is behind one of its outputs, if it is a node. -/
def Leads (g : Graph) (n : Node) (action : Action) : Prop :=
  ∀ m, action = .next m → ∃ output, g.follow? n.id output = some m

theorem leads_onward (output : Int) : g.Leads n (g.onward n.id output) := by
  intro m next
  refine ⟨output, ?_⟩
  unfold onward at next
  split at next
  · cases next
    assumption
  · cases next

end Graph

/-- A run stays on its way as long as its phase and its wait stay. -/
theorem Session.OnWay.setRun {s : Session} {q r : RunId} {g : Graph} {f : Run → Run} (way : s.OnWay r g)
    (phase : ∀ run, (f run).phase = run.phase) (wait : ∀ run, (f run).wait = run.wait) :
    (s.setRun q f).OnWay r g :=
  (Session.Strides.setRun phase wait).onWay way

/-- The run `r` is over. -/
structure Session.IsPast (s : Session) (r : RunId) : Prop where
  lt : r < s.runs.length
  ended : (s.run r).isActive = false

theorem Session.IsPast.change {s : Session} {r : RunId} (past : s.IsPast r) (files : FileTree)
    (flags : FlagStore) : { s with files, flags }.IsPast r := ⟨past.lt, past.ended⟩

theorem Session.IsPast.setRun {s : Session} {q r : RunId} {f : Run → Run} (past : s.IsPast r)
    (phase : ∀ run, (f run).phase = run.phase) : (s.setRun q f).IsPast r := by
  refine ⟨by simpa using past.lt, ?_⟩
  rw [run_setRun]
  split
  · simpa [Run.isActive, phase] using past.ended
  · exact past.ended

/-- How a run that was driven has come to rest: it has failed, it waits, it is over, or it is to enter the
graph that a link has led to. -/
def Session.Rested (r : RunId) (s : Session) : Control → Prop
  | .failed _ => True
  | .done _ =>
    (s.run r).phase = .suspended ∨ s.IsPast r ∨ ∃ g, s.graph = some g ∧ s.pending = [(r, .enter g)]
  | .work _ | .ask _ => False

/-! ## Work that comes to an end -/

/-- The nodes that are visited with an event: one, or none. -/
def Event.visited (e : Event) : List Node :=
  match e.before.control with
  | .work (.visit _ n _) => [n]
  | _ => []

/-- Everything is allowed until what was begun on top of the stack `base` is over, but to begin more from
inside a call. -/
def uncalling (base : List Frame) : Turn → Deed → Prop := fun t d => untilBack base t d ∧ ∀ e, d ≠ .begin e

namespace Turn

/-- Whatever the host answers, and whatever becomes of the files and flags meanwhile: within `k` visits what
is under way on top of the stack `base` is over, and `Q` holds of its outcome. -/
inductive Brings (base : List Frame) (Q : Session → Control → Prop) : Nat → Turn → Prop
  | back {k : Nat} {s : Session} {c : Control} (past : c.isOver) (post : Q s c) :
      Brings base Q k ⟨s, base, c⟩
  | visit {k : Nat} {s : Session} {stack : List Frame} {r : RunId} {n : Node} {g : Graph}
      (on : base <:+ stack) (next : Brings base Q k ((s.visit r n g).on stack)) :
      Brings base Q (k + 1) ⟨s, stack, .work (.visit r n g)⟩
  | work {k : Nat} {s : Session} {stack : List Frame} {task : Task} (on : base <:+ stack)
      (other : ∀ r n g, task ≠ .visit r n g) (next : Brings base Q k ((task.begin s).on stack)) :
      Brings base Q k ⟨s, stack, .work task⟩
  | receive {k : Nat} {s : Session} {stack : List Frame} {f : Frame} {result : Result} (on : base <:+ stack)
      (hf : ∀ a, f ≠ .asked a) (next : Brings base Q k ((f.receive s result).on stack)) :
      Brings base Q k ⟨s, f :: stack, .done result⟩
  | recover {k : Nat} {s : Session} {stack : List Frame} {f : Frame} {fault : Fault} (on : base <:+ stack)
      (hf : ∀ a, f ≠ .asked a) (next : Brings base Q k ((f.recover s fault).on stack)) :
      Brings base Q k ⟨s, f :: stack, .failed fault⟩
  | ask {k : Nat} {s : Session} {stack : List Frame} {a : Ask} (on : base <:+ stack)
      (reply : ∀ files flags (answer : a.call.Reply),
        Brings base Q k ((a.resume { s with files, flags } answer).on stack))
      (fail : ∀ files flags fault, Brings base Q k ⟨{ s with files, flags }, stack, .failed fault⟩) :
      Brings base Q k ⟨s, stack, .ask a⟩

/-- The work gets on with a deed, perhaps after files and flags were changed. -/
def GetsOn (base : List Frame) (t u : Turn) : Prop :=
  ∃ v d, (v = t ∨ ∃ files flags, t.Does (.change files flags) v) ∧ uncalling base v d ∧
    (∀ files flags, d ≠ .change files flags) ∧ v.Does d u

namespace Brings

variable {base stack : List Frame} {Q : Session → Control → Prop} {k : Nat} {t u : Turn} {d : Deed}
  {s : Session} {r : RunId} {g : Graph} {n : Node} {f : Frame}

theorem away_of_suffix (on : base <:+ stack) : f :: stack ≠ base := by
  rintro rfl
  have long := on.length_le
  simp at long

/-- The outcome is as it should be. -/
theorem post (h : Brings base Q k t) (back : t.IsBack base) : Q t.session t.control := by
  cases h with
  | back _ post => exact post
  | visit | work | ask => cases back.2
  | receive on | recover on => exact absurd back.1 (away_of_suffix on)

/-- The work is over, or the host is called, or it can go on. -/
theorem progress (h : Brings base Q k t) :
    t.IsBack base ∨ (∃ a, t.control = .ask a) ∨ ∃ u, t.Does .move u := by
  cases h with
  | back past => exact .inl ⟨rfl, past⟩
  | ask => exact .inr (.inl ⟨_, rfl⟩)
  | visit | work => exact .inr (.inr ⟨_, .work _⟩)
  | receive _ hf => exact .inr (.inr ⟨_, .receive hf⟩)
  | recover _ hf => exact .inr (.inr ⟨_, .recover hf⟩)

/-- **Each deed** keeps this, and a visit is one less that is left. -/
theorem step (h : Brings base Q k t) (allowed : uncalling base t d) (does : t.Does d u) :
    ∃ l, Brings base Q l u ∧ (Event.visited ⟨t, d, u⟩).length + l ≤ k := by
  obtain ⟨away, calm⟩ := allowed
  cases h with
  | back past => exact absurd ⟨rfl, past⟩ away
  | @visit k _ _ _ _ _ _ next =>
    cases does with
    | work => exact ⟨k, next, (Nat.add_comm 1 k).le⟩
    | beginAtRest past | leave past | change past => cases past
  | @work _ _ _ task _ other next =>
    cases does with
    | work =>
      refine ⟨k, next, ?_⟩
      cases task with
      | visit r n g => exact absurd rfl (other r n g)
      | _ => exact (Nat.zero_add k).le
    | beginAtRest past | leave past | change past => cases past
  | receive _ hf next =>
    cases does with
    | receive => exact ⟨k, next, (Nat.zero_add k).le⟩
    | leave => exact absurd rfl (hf _)
    | change host => cases host
  | recover _ hf next =>
    cases does with
    | recover => exact ⟨k, next, (Nat.zero_add k).le⟩
    | leave => exact absurd rfl (hf _)
    | change host => cases host
  | @ask _ s _ a on reply fail =>
    cases does with
    | reply answer => exact ⟨k, reply s.files s.flags answer, (Nat.zero_add k).le⟩
    | fail fault => exact ⟨k, fail s.files s.flags fault, (Nat.zero_add k).le⟩
    | change _ files flags => exact ⟨k, .ask on reply fail, (Nat.zero_add k).le⟩
    | beginInside e => exact absurd rfl (calm e)
    | beginAtRest past | leave past => cases past

/-- **Every history** keeps this: not more is visited than was left. -/
theorem history {events : List Event} (h : Brings base Q k t)
    (history : History (uncalling base) t events u) :
    ∃ l, Brings base Q l u ∧ (events.flatMap Event.visited).length + l ≤ k := by
  induction history with
  | nil => exact ⟨k, h, (Nat.zero_add k).le⟩
  | snoc _ allowed does ih =>
    obtain ⟨l, brings, le⟩ := ih
    obtain ⟨l', brings', le'⟩ := brings.step allowed does
    refine ⟨l', brings', ?_⟩
    rw [List.flatMap_append, List.length_append, List.flatMap_singleton]
    omega

end Brings

/-- Where the next move is the session's, nothing else gets the work on. -/
theorem GetsOn.eq_of_move {base : List Frame} {t u v : Turn} (next : t.Does .move v) (h : t.GetsOn base u) :
    u = v := by
  obtain ⟨w, d, same, -, steady, does⟩ := h
  obtain rfl : w = t := by
    rcases same with same | ⟨files, flags, change⟩
    · exact same
    · cases change with
      | @change _ _ c host =>
        cases next with
        | work | receive | recover => cases host
  cases next with
  | work task =>
    cases does with
    | work => rfl
    | beginAtRest past | leave past => cases past
    | change host => cases host
  | receive hf =>
    cases does with
    | receive => rfl
    | leave => exact absurd rfl (hf _)
    | change host => cases host
  | recover hf =>
    cases does with
    | recover => rfl
    | leave => exact absurd rfl (hf _)
    | change host => cases host

/-- **It comes to an end**, whatever the host answers. -/
theorem Brings.acc {base : List Frame} {Q : Session → Control → Prop} {k : Nat} {t : Turn}
    (h : Brings base Q k t) : Acc (fun v u => GetsOn base u v) t := by
  induction h with
  | @back _ s c past =>
    refine ⟨_, fun v ⟨w, d, same, allowed, _, _⟩ => absurd ?_ allowed.1⟩
    rcases same with rfl | ⟨files, flags, change⟩
    · exact ⟨rfl, past⟩
    · cases change
      exact ⟨rfl, past⟩
  | visit on _ ih => exact ⟨_, fun v gets => gets.eq_of_move (.work _) ▸ ih⟩
  | work on _ _ ih => exact ⟨_, fun v gets => gets.eq_of_move (.work _) ▸ ih⟩
  | receive on hf _ ih => exact ⟨_, fun v gets => gets.eq_of_move (.receive hf) ▸ ih⟩
  | recover on hf _ ih => exact ⟨_, fun v gets => gets.eq_of_move (.recover hf) ▸ ih⟩
  | @ask _ s stack a on _ _ reply fail =>
    refine ⟨_, fun v ⟨w, d, same, allowed, steady, does⟩ => ?_⟩
    obtain ⟨files, flags, rfl⟩ : ∃ files flags, w = ⟨{ s with files, flags }, stack, .ask a⟩ := by
      rcases same with rfl | ⟨files, flags, change⟩
      · exact ⟨s.files, s.flags, rfl⟩
      · cases change
        exact ⟨files, flags, rfl⟩
    cases does with
    | reply answer => exact reply files flags answer
    | fail fault => exact fail files flags fault
    | change => exact absurd rfl (steady _ _)
    | beginInside e => exact absurd rfl (allowed.2 e)
    | beginAtRest past | leave past => cases past

/-! ### Visits -/

namespace Brings

variable {base stack : List Frame} {Q : Session → Control → Prop} {k : Nat} {s : Session} {r : RunId}
  {g : Graph} {n : Node}

theorem follow (output : Int)
    (stepped : ∀ s action, s.OnWay r g → g.Leads n action →
      Brings base Q k ⟨s, stack, .done (.stepped ⟨n, action⟩)⟩)
    (way : s.OnWay r g) : Brings base Q k ((s.follow r n output g).on stack) := by
  have advancing : (s.setRun r fun run => { run with activity := .advancing }).OnWay r g :=
    way.setRun (fun _ => rfl) fun _ => rfl
  rw [Session.follow_eq]
  exact stepped _ _ advancing (g.leads_onward output)

/-- Warnings are reported, one after the other. -/
theorem report (on : base <:+ stack) (done : ∀ s, s.OnWay r g → Brings base Q k ⟨s, stack, .done .done⟩)
    (failed : ∀ s f, s.OnWay r g → Brings base Q k ⟨s, stack, .failed f⟩) (ws : List Warning)
    (way : s.OnWay r g) : Brings base Q k ((s.report r ws).on stack) := by
  induction ws generalizing s with
  | nil => exact done s way
  | cons w ws ih =>
    have warned : (s.setRun r (·.warn w)).OnWay r g := way.setRun (fun _ => rfl) fun _ => rfl
    exact .ask on (fun files flags _ => ih (warned.change files flags))
      fun files flags f => failed _ f (warned.change files flags)

section Node

variable (on : base <:+ stack)
  (stepped : ∀ s action, s.OnWay r g → g.Leads n action →
    Brings base Q k ⟨s, stack, .done (.stepped ⟨n, action⟩)⟩)
  (failed : ∀ s f, s.OnWay r g → Brings base Q k ⟨s, stack, .failed f⟩)

include on stepped failed

/-- Under the frame that takes an output of the node, any outcome leads on. -/
theorem following (output : Int) (way : s.OnWay r g) (c : Control) (past : c.isOver) :
    Brings base Q k ⟨s, .following r n output g :: stack, c⟩ := by
  cases c with
  | work | ask => cases past
  | done => exact .receive on (by simp) (follow output stepped way)
  | failed f => exact .recover on (by simp) (failed s f way)

theorem applyItem (i : ItemChange) (way : s.OnWay r g) :
    Brings base Q k (((s.applyItem r n.id i).under (.following r n Session.firstOutput g)).on stack) := by
  have on' : base <:+ .following r n Session.firstOutput g :: stack := on.trans (List.suffix_cons _ _)
  have after (s : Session) (c : Control) (past : c.isOver) (way : s.OnWay r g) :=
    following on stepped failed Session.firstOutput way c past
  have taking : Brings base Q k ⟨s, .following r n Session.firstOutput g :: stack,
      .ask (.take r n.id i.item i.amount)⟩ := by
    refine .ask on' (fun files flags taken => ?_)
      fun files flags f => after _ _ rfl (way.change files flags)
    cases taken with
    | true => exact after _ _ rfl (way.change files flags)
    | false =>
      exact report on' (fun s => after s _ rfl) (fun s f => after s _ rfl)
        [.shortfall n.id i.item i.amount] (way.change files flags)
  rw [Move.on_under]
  unfold Session.applyItem
  split
  · exact .ask on' (fun files flags _ => after _ _ rfl (way.change files flags))
      fun files flags f => after _ _ rfl (way.change files flags)
  · exact taking
  · exact taking

theorem dispatch (t : Trigger) (way : s.OnWay r g) :
    Brings base Q k (((s.dispatch r t).under (.triggering r n g)).on stack) := by
  have on' : base <:+ .triggering r n g :: stack := on.trans (List.suffix_cons _ _)
  have on'' : base <:+ .following r n Session.firstOutput g :: stack := on.trans (List.suffix_cons _ _)
  have done (s : Session) (way : s.OnWay r g) :
      Brings base Q k ⟨s, .triggering r n g :: stack, .done .done⟩ :=
    .receive on (by simp) (follow Session.firstOutput stepped way)
  have fails (s : Session) (f : Fault) (way : s.OnWay r g) :
      Brings base Q k ⟨s, .triggering r n g :: stack, .failed f⟩ := by
    refine .recover on (by simp) ?_
    have after (s : Session) (c : Control) (past : c.isOver) (way : s.OnWay r g) :=
      following on stepped failed Session.firstOutput way c past
    simp only [Frame.recover]
    split
    · rw [Move.on_under]
      exact report on'' (fun s => after s _ rfl) (fun s f => after s _ rfl) _ way
    · exact failed s f way
  rw [Move.on_under]
  unfold Session.dispatch
  split
  case h_2 fault _ => exact fails s _ way
  case h_1 effect _ =>
    cases effect with
    | world event =>
      exact .ask on' (fun files flags _ => done _ (way.change files flags))
        fun files flags f => fails _ f (way.change files flags)
    | spawn request =>
      exact .ask on'
        (fun files flags npc => done _ ((way.change files flags).setRun (fun _ => rfl) fun _ => rfl))
        fun files flags f => fails _ f (way.change files flags)
    | remove npc =>
      exact .ask on'
        (fun files flags _ => done _ ((way.change files flags).setRun (fun _ => rfl) fun _ => rfl))
        fun files flags f => fails _ f (way.change files flags)
    | setFlag name value =>
      simp only [Session.perform]
      split
      · exact done _ (way.change _ _)
      · exact fails _ _ (way.change _ _)

theorem check (c : Condition) (way : s.OnWay r g) : Brings base Q k ((s.check r n c g).on stack) := by
  have counted : Brings base Q k ⟨s, stack, .ask (.count r n c g)⟩ :=
    .ask on (fun files flags held => follow _ stepped (way.change files flags))
      fun files flags f => failed _ f (way.change files flags)
  unfold Session.check
  split
  · exact follow _ stepped way
  · exact counted
  · exact counted

end Node

/-- **A visit** gives back a step, or fails.  To another node it only leads from a node that is passed. -/
theorem visited (on : base <:+ stack)
    (stepped : ∀ s action, s.OnWay r g → (∀ m, action = .next m → g.Passes n m) →
      Brings base Q k ⟨s, stack, .done (.stepped ⟨n, action⟩)⟩)
    (failed : ∀ s f, s.OnWay r g → Brings base Q k ⟨s, stack, .failed f⟩)
    (own : g.node? n.id = some n) (way : s.OnWay r g) : Brings base Q k ((s.visit r n g).on stack) := by
  have entered : (s.setRun r fun run =>
      { run.count n.kind.word with node := some n.id, activity := .running }).OnWay r g :=
    way.setRun (fun _ => rfl) fun _ => rfl
  have passing (passed : n.isPassed) (s : Session) (action : Action) (way : s.OnWay r g)
      (leads : g.Leads n action) :=
    stepped s action way fun m next => ⟨own, passed, leads m next⟩
  have stays {s : Session} (way : s.OnWay r g) (action : Action) (stays : ∀ m, action ≠ .next m) :=
    stepped s action way fun m next => absurd next (stays m)
  have shows (scene : Scene) (ws : List Warning) (s : Session) (way : s.OnWay r g) :
      Brings base Q k (((s.report r ws).under (.stepping ⟨n, .suspend scene⟩)).on stack) := by
    rw [Move.on_under]
    exact report (on.trans (List.suffix_cons _ _))
      (fun s way => .receive on (by simp) (stays way _ (by simp)))
      (fun s f way => .recover on (by simp) (failed s f way)) ws way
  unfold Session.visit
  cases body : n.body with
  | dialogue | choice => exact shows _ _ _ entered
  | item i => exact applyItem on (passing (by simp [Node.isPassed, body])) failed i entered
  | trigger t => exact dispatch on (passing (by simp [Node.isPassed, body])) failed t entered
  | condition c => exact check on (passing (by simp [Node.isPassed, body])) failed c entered
  | image | combat | link | ending => exact stays entered _ (by simp)

end Brings

/-! ### The end of a run -/

namespace Brings

variable {base stack : List Frame} {Q : Session → Control → Prop} {k : Nat} {s : Session} {r : RunId}

section

variable (on : base <:+ stack)
  (done : ∀ s, s.IsPast r → Brings base Q k ⟨s, stack, .done .done⟩)
  (failed : ∀ s f, r < s.runs.length → Brings base Q k ⟨s, stack, .failed f⟩)

include on done failed

/-- Figures leave, one after the other. -/
theorem dismiss (npcs : List String) (past : s.IsPast r) :
    Brings base Q k ((s.dismiss r npcs).on stack) := by
  induction npcs generalizing s with
  | nil => exact done _ (past.setRun fun _ => rfl)
  | cons npc npcs ih =>
    exact .ask on (fun files flags _ => ih (past.change files flags))
      fun files flags f => failed _ f past.lt

theorem announce (completion : Option Callback) (ledger : Ledger) (past : s.IsPast r) :
    Brings base Q k ((s.announce completion ledger).on stack) := by
  cases completion with
  | none => exact done s past
  | some callback =>
    exact .ask on (fun files flags _ => done _ (past.change files flags))
      fun files flags f => failed _ f past.lt

theorem close {phase : Phase} (inactive : phase.isActive = false) (lt : r < s.runs.length) :
    Brings base Q k ((s.close r phase).on stack) := by
  have past : (s.ended r phase).IsPast r :=
    ⟨by simpa using lt, (congrArg Run.isActive (s.run_ended_self r lt)).trans inactive⟩
  have waits (completion : Option Callback) (ledger : Ledger) {s' : Session} (past : s'.IsPast r)
      (npcs : List String) :
      Brings base Q k (((s'.dismiss r npcs).under (.announcing completion ledger)).on stack) := by
    rw [Move.on_under]
    exact dismiss (on.trans (List.suffix_cons _ _))
      (fun s past => .receive on (by simp) (announce on done failed completion ledger past))
      (fun s f lt => .recover on (by simp) (failed s f lt)) npcs past
  rw [Session.close_eq]
  split
  · exact waits _ _ past _
  · exact announce on done failed _ _ past

/-- **The end of a run**: its timer is cancelled, its figures leave, and its answers are announced. -/
theorem terminate {phase : Phase} (inactive : phase.isActive = false) (lt : r < s.runs.length) :
    Brings base Q k ((s.terminate r phase).on stack) := by
  rcases s.terminate_cases r phase with ⟨w, -, -, h⟩ | ⟨-, h⟩
  · rw [h, Move.on_under]
    have lt' : r < (s.setRun r (·.setTimer w.id false)).runs.length := by simpa using lt
    exact .ask (on.trans (List.suffix_cons _ _))
      (fun files flags _ => .receive on (by simp) (close on done failed inactive lt'))
      fun files flags f => .recover on (by simp) (failed _ f lt')
  · rw [h]
    exact close on done failed inactive lt

end

/-! ### Coming to rest -/

section

variable {f : Fault}

/-- **A fault in a driven run** goes on to the caller, after the run is stopped. -/
theorem fails (lt : r < s.runs.length) :
    Brings base (Session.Rested r) k ⟨s, .driving r :: base, .failed f⟩ := by
  have on : base <:+ .failing f :: base := List.suffix_cons _ _
  have done (s : Session) : Brings base (Session.Rested r) k ⟨s, .failing f :: base, .done .done⟩ :=
    .receive (List.suffix_refl base) (by simp) (.back rfl trivial)
  refine .recover (List.suffix_refl base) (by simp) ?_
  simp only [Frame.recover]
  rw [Move.on_under]
  unfold Session.stopIfActive
  split
  · exact .work on (by simp) (terminate on (fun s _ => done s)
      (fun s f _ => .recover (List.suffix_refl base) (by simp) (.back rfl trivial)) rfl lt)
  · exact done _

/-- The run that was driven has come to rest. -/
theorem rests (rested : s.Rested r (.done .done)) :
    Brings base (Session.Rested r) k ⟨s, .driving r :: base, .done .done⟩ :=
  .receive (List.suffix_refl base) (by simp) (.back rfl rested)

theorem ends {phase : Phase} (inactive : phase.isActive = false) (lt : r < s.runs.length) :
    Brings base (Session.Rested r) k ((s.terminate r phase).on (.driving r :: base)) :=
  terminate (List.suffix_cons _ _) (fun _ past => rests (.inr (.inl past))) (fun _ _ lt => fails lt) inactive lt

end

/-- A run is suspended, and the host is given a scene. -/
theorem pause (node : Node) (scene : Scene) (lt : r < s.runs.length) :
    Brings base (Session.Rested r) k ((s.pause r node scene).on (.driving r :: base)) := by
  have on : base <:+ .driving r :: base := List.suffix_cons _ _
  have held : ((s.suspend r scene.kind node.id).run r).phase = .suspended :=
    congrArg Run.phase (Session.run_setRun_self lt)
  have lt' : r < (s.suspend r scene.kind node.id).runs.length := by simpa [Session.suspend] using lt
  have shown (a : Ask) (still : ∀ s answer, a.resume s answer = .finished s) :
      Brings base (Session.Rested r) k ⟨s.suspend r scene.kind node.id, .driving r :: base, .ask a⟩ := by
    refine .ask on (fun files flags answer => ?_) fun files flags f => fails lt'
    rw [still]
    exact rests (.inl held)
  unfold Session.pause
  dsimp only
  split
  · exact shown _ fun _ _ => rfl
  · rename_i card
    rw [Move.on_under]
    refine .ask (on.trans (List.suffix_cons _ _)) (fun files flags _ => .receive on (by simp) ?_)
      fun files flags f => .recover on (by simp) (fails lt')
    simp only [Frame.receive]
    split
    · refine .ask on (fun files flags cancellable => ?_) fun files flags f => fails lt'
      simp only [Ask.resume]
      split
      · exact rests (.inl ((congrArg Run.phase (Session.run_setRun_self lt')).trans held))
      · exact rests (.inl held)
    · exact rests (.inl held)
  · exact shown _ fun _ _ => rfl

variable {g : Graph}

/-- The target of a link is to be entered. -/
theorem install (target : Graph) (way : s.OnWay r g) :
    Brings base (Session.Rested r) k ((s.install r target).on (.driving r :: base)) := by
  unfold Session.install Session.enqueue
  dsimp only
  rw [if_pos (by exact way.has.draining_eq)]
  have queued : s.pending ++ [(r, .enter target)] = [(r, .enter target)] := by rw [way.has.pending_eq]; rfl
  exact rests (.inr (.inr ⟨target, rfl, queued⟩))

theorem loadTarget (link : Link) (way : s.OnWay r g) :
    Brings base (Session.Rested r) k ((s.loadTarget r link).on (.driving r :: base)) := by
  rcases s.loadTarget_cases r link with ⟨f, h⟩ | ⟨graph, -, h | h⟩
  · rw [h]
    exact fails way.has.lt
  · rw [h]
    exact .ask (List.suffix_cons _ _) (fun files flags table => install _ (way.change files flags))
      fun files flags f => fails way.has.lt
  · rw [h]
    exact install graph way

theorem afterHandOver (node : String) (link : Link) (receipt : Receipt) (way : s.OnWay r g) :
    Brings base (Session.Rested r) k ((s.afterHandOver r node link receipt).on (.driving r :: base)) := by
  unfold Session.afterHandOver Session.afterWrite
  split
  · exact loadTarget link way
  · split
    · exact loadTarget link way
    · exact fails way.has.lt
    · exact fails way.has.lt
  · have held : ((s.suspend r .link node).run r).phase = .suspended :=
      congrArg Run.phase (Session.run_setRun_self way.has.lt)
    exact rests (.inl held)

/-- **A link** is taken: the answers are handed over, and the target is read, or the write waited for. -/
theorem transfer (node : String) (link : Link) (way : s.OnWay r g) :
    Brings base (Session.Rested r) k ((s.transfer r node link).on (.driving r :: base)) := by
  unfold Session.transfer
  split
  · exact loadTarget link way
  · have released : (s.setRun r fun run => { run with completion := none }).OnWay r g :=
      way.setRun (fun _ => rfl) fun _ => rfl
    exact .ask (List.suffix_cons _ _)
      (fun files flags receipt => afterHandOver node link receipt (released.change files flags))
      fun files flags f => fails released.has.lt

/-- What does not lead to another node brings the run to rest. -/
theorem settle {step : Step} (rest : ∀ m, step.action ≠ .next m) (way : s.OnWay r g) :
    Brings base (Session.Rested r) k ((s.settle r step).on (.driving r :: base)) := by
  unfold Session.settle
  split
  · exact absurd ‹_› (rest _)
  · exact pause _ _ way.has.lt
  · exact transfer _ _ way
  · exact ends rfl way.has.lt
  · refine ends ?_ way.has.lt
    unfold Session.phaseAfter
    split <;> rfl

/-! ### The drive -/

/-- Behind a step a node is visited, or the run comes to rest. -/
theorem proceed (step : Step)
    (next : ∀ m s, step.action = .next m → s.OnWay r g →
      Brings base (Session.Rested r) k ⟨s, .driving r :: base, .work (.visit r m g)⟩)
    (way : s.OnWay r g) :
    Brings base (Session.Rested r) k ⟨s, .driving r :: base, .done (.stepped step)⟩ := by
  refine .receive (List.suffix_refl base) (by simp) ?_
  simp only [Frame.receive, Session.proceed, way.owns, if_true]
  split
  case h_1 m leads =>
    simp only [way.has.graph_eq]
    rw [Move.on_under]
    exact next m s leads way
  case h_2 other =>
    rw [Move.on_under]
    exact settle other way

/-- **Along a trail** no more nodes are visited than are left. -/
theorem visits {ns : List Node} {n : Node} (acyclic : g.IsAcyclic) (trail : g.IsTrail (ns ++ [n]))
    (left : ns.length + k = g.script.nodes.length) (way : s.OnWay r g) :
    Brings base (Session.Rested r) k ⟨s, .driving r :: base, .work (.visit r n g)⟩ := by
  induction k generalizing s ns n with
  | zero =>
    have long := trail.length_le acyclic
    rw [List.length_append, List.length_singleton] at long
    omega
  | succ k ih =>
    have on : base <:+ .driving r :: base := List.suffix_cons _ _
    have own : g.node? n.id = some n := trail.own n (by simp)
    refine .visit on (visited on (fun s action way leads => ?_) (fun s f way => fails way.has.lt) own way)
    refine proceed _ (fun m s next way => ?_) way
    have edge := leads m next
    obtain ⟨output, follows⟩ := edge.output
    refine ih (trail.concat (Graph.node?_of_follow? follows) (by simpa using edge)) ?_ way
    rw [List.length_append, List.length_singleton]
    omega

/-- **A run that is driven** through an acyclic graph comes to rest after no more visits than the graph has
nodes. -/
theorem drive {job : Job} (acyclic : g.IsAcyclic) (lies : job.Lies g) (way : s.OnWay r g) :
    Brings base (Session.Rested r) g.script.nodes.length ⟨s, base, .work (.drive r job)⟩ := by
  have on : base <:+ .driving r :: base := List.suffix_cons _ _
  refine .work (List.suffix_refl base) (by simp) ?_
  show Brings base _ _ ((s.drive r job).on base)
  simp only [Session.drive, way.owns, if_true]
  rw [Move.on_under]
  have first (n : Node) (own : g.node? n.id = some n) {s : Session} (way : s.OnWay r g) :
      Brings base (Session.Rested r) g.script.nodes.length
        ⟨s, .driving r :: base, .work (.visit r n g)⟩ := by
    have trail : g.IsTrail ([] ++ [n]) := Graph.IsTrail.nil.concat own (by simp)
    exact visits acyclic trail (Nat.zero_add _) way
  have goesOn (n : Node) (s : Session) (action : Action) (way : s.OnWay r g) (leads : g.Leads n action) :
      Brings base (Session.Rested r) g.script.nodes.length
        ⟨s, .driving r :: base, .done (.stepped ⟨n, action⟩)⟩ := by
    refine proceed _ (fun m s next way => ?_) way
    obtain ⟨output, follows⟩ := leads m next
    exact first m (Graph.node?_of_follow? follows) way
  cases job with
  | enter graph =>
    obtain ⟨rfl, whole⟩ := lies
    exact first graph.entry whole way
  | respond n graph answer =>
    cases lies
    have responds : Brings base (Session.Rested r) g.script.nodes.length
        ((s.respond r n g answer).on (.driving r :: base)) := by
      have put (pick : Pick) :
          (s.setRun r fun run => { run with ledger := run.ledger.put n.id pick }).OnWay r g :=
        way.setRun (fun _ => rfl) fun _ => rfl
      unfold Session.respond
      split
      · split
        · dsimp only
          split
          · exact follow _ (goesOn n) (put _)
          · exact fails (put _).has.lt
        · exact fails way.has.lt
      · exact follow _ (goesOn n) way
    exact .work on (fun _ _ _ goes => by cases goes) responds
  | resolve n graph outcome =>
    cases lies
    have resolves : Brings base (Session.Rested r) g.script.nodes.length
        ((s.resolve r n g outcome).on (.driving r :: base)) := by
      unfold Session.resolve
      split
      · exact follow _ (goesOn n) way
      · exact follow _ (goesOn n) way
      · exact fails way.has.lt
    exact .work on (fun _ _ _ goes => by cases goes) resolves

end Brings

/-- A run that is to be driven is on its way, and its job belongs to the current graph. -/
theorem Stands.drives {h : Habits} {s : Session} {stack : List Frame} {r : RunId} {job : Job}
    (ht : Stands h ⟨s, stack, .work (.drive r job)⟩) : ∃ g, s.OnWay r g ∧ job.Lies g := by
  rcases ht.works with ⟨_, he, -⟩ | ⟨_, _, g, he, way, lies⟩ | ⟨_, control⟩ | ⟨_, _, he⟩
  · cases he
  · cases he
    exact ⟨g, way, lies⟩
  · cases control
  · cases he

end Turn

/-- The graph in which a job begins. -/
def Job.graph : Job → Graph
  | .enter g | .respond _ g _ | .resolve _ g _ => g

theorem Job.Lies.graph_eq {job : Job} {g : Graph} (lies : job.Lies g) : job.graph = g := by
  cases job with
  | enter => exact lies.1
  | respond | resolve => exact lies

/-- **Bounded work.**  Let a run be driven, beginning with a job, where the edges that leave items, triggers
and conditions of its graph lead nowhere back.  The graph is the current one, and the run goes on.  From
there on let the host begin nothing from inside its calls, but answer and fail as it likes, and change files
and flags.  Then no more nodes are visited than the graph has.  Until it is over, the host is called or there
is a next move, and this comes to an end.  Then it has failed, or the run waits, is over, or is to enter the
graph that a link has led to. -/
theorem drive_bounded {h : Habits} {files : FileTree} {library : Path} {flags : FlagStore}
    {earlier : List Event} {s : Session} {base : List Frame} {r : RunId} {job : Job}
    (reached : History h.allow (Session.fresh files library flags).atRest earlier
      ⟨s, base, .work (.drive r job)⟩)
    (acyclic : job.graph.IsAcyclic) :
    (s.graph = some job.graph ∧ s.owns r) ∧
      (∀ events u, History (uncalling base) ⟨s, base, .work (.drive r job)⟩ events u →
        (events.flatMap Event.visited).length ≤ job.graph.script.nodes.length ∧
        (u.IsBack base ∨ (∃ a, u.control = .ask a) ∨ ∃ v, u.Does .move v) ∧
        (u.IsBack base → u.session.Rested r u.control)) ∧
      Acc (fun v u => Turn.GetsOn base u v) ⟨s, base, .work (.drive r job)⟩ := by
  obtain ⟨g, way, lies⟩ := reached.stands.drives
  rw [lies.graph_eq] at acyclic ⊢
  have brings : Turn.Brings base (Session.Rested r) _ ⟨s, base, _⟩ := .drive acyclic lies way
  refine ⟨⟨way.has.graph_eq, way.owns⟩, fun events u history => ?_, brings.acc⟩
  obtain ⟨l, goesOn, bound⟩ := brings.history history
  exact ⟨(Nat.le_add_right _ _).trans bound, goesOn.progress, goesOn.post⟩

/-- From the light to the end it is all downhill. -/
theorem lighthouse_isAcyclic : lighthouse.IsAcyclic :=
  .of_rank (fun n => if n.id = "light" then 2 else if n.id = "look" then 1 else 0) (by decide)

/-- The run of the lighthouse, with a host that may fail and deliver writes, visits three nodes at most. -/
theorem lighthouse_bounded :
    let start := (Session.fresh (.empty []) (.ofString "scripts") {}).atRest
    ∃ s, start.play? [.begin (.startGraph lighthouse none), .move, .move] =
        some ⟨s, [.draining], .work (.drive 0 (.enter lighthouse))⟩ ∧
      ∀ events u,
        History (uncalling [.draining]) ⟨s, [.draining], .work (.drive 0 (.enter lighthouse))⟩ events u →
        (events.flatMap Event.visited).length ≤ 3 := by
  intro start
  let habits : Habits := ⟨fun _ => True, fun _ => False, True⟩
  let deeds : List Deed := [.begin (.startGraph lighthouse none), .move, .move]
  have modest : ∀ e ∈ start.record deeds, e.deed.isModest e.before := by decide +kernel
  have driven : start.play? deeds =
      some ⟨(start.play deeds).session, [.draining], .work (.drive 0 (.enter lighthouse))⟩ :=
    (Turn.play?_eq (by decide +kernel)).trans (by rfl)
  have history := Turn.history_of_play? driven fun e he => habits.allow_of_isModest (modest e he)
  exact ⟨_, driven, fun events u goesOn =>
    ((drive_bounded history lighthouse_isAcyclic).2.1 events u goesOn).1⟩

end Questline

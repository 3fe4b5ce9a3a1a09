import Questline.Proofs.History

/-!
# The walk through the graphs

What a player sees of a run is a walk: from the entry of a graph along its connections, at
each node one effect, and through a link into another graph.  Nothing of the session's
queue, frames and waits is in it.  A walker is where the walk stands; what happens in a
history is told to it as signs, and it takes a sign only if the walk can go on so.

* `Node.act?`, `Node.output?`: the effect of a node, and the output that is taken.
* `Walker.next?`, `Walker.end?`: the node that comes next, and the phase in which the walk
  ends if there is none.
* `Walker.step`: what a sign does; `Event.signs`: the signs of an event.
-/

namespace Questline

open Json (Value Fields)

/-! ## Graphs -/

namespace Graph

variable {g : Graph} {n : Node} {i : String}

/-- Whether the entry of a graph is one of its nodes, under its own id. -/
def IsWhole (g : Graph) : Prop := g.node? g.entry.id = some g.entry

instance (g : Graph) : Decidable g.IsWhole := inferInstanceAs (Decidable (_ = _))

theorem node?_self (h : g.node? i = some n) : g.node? n.id = some n := by
  have hid : n.id = i := by simpa using List.find?_some h
  rw [hid, h]

theorem node?_of_follow? {output : Int} (h : g.follow? i output = some n) :
    g.node? n.id = some n := by
  unfold follow? at h
  split at h
  · exact node?_self h
  · cases h

/-- Ids that pass the check are distinct. -/
theorem pairwise_of_checkNodes {script : String} {earlier nodes : List Node}
    (h : checkNodes script earlier nodes = .ok ()) :
    nodes.Pairwise (fun n m => n.id ≠ m.id) ∧ ∀ n ∈ earlier, ∀ m ∈ nodes, n.id ≠ m.id := by
  induction nodes generalizing earlier with
  | nil => exact ⟨.nil, fun _ _ _ hm => absurd hm List.not_mem_nil⟩
  | cons n nodes ih =>
    simp only [checkNodes] at h
    split at h
    case isTrue => cases h
    case isFalse hn =>
      obtain ⟨distinct, apart⟩ := ih h
      have before : ∀ e ∈ earlier, e.id ≠ n.id := by
        intro e he hid
        exact hn (List.any_eq_true.2 ⟨e, he, beq_iff_eq.2 hid⟩)
      refine ⟨.cons (fun m hm => ?_) distinct, fun e he m hm => ?_⟩
      · exact apart n (by simp) m hm
      · rcases List.mem_cons.1 hm with rfl | hm
        · exact before e he
        · exact apart e (List.mem_append_left _ he) m hm

theorem find?_of_pairwise {nodes : List Node} (h : nodes.Pairwise fun n m => n.id ≠ m.id)
    (hn : n ∈ nodes) : nodes.find? (·.id == n.id) = some n := by
  induction h with
  | nil => cases hn
  | @cons m nodes apart _ ih =>
    rcases List.mem_cons.1 hn with rfl | hn
    · simp
    · rw [List.find?_cons_of_neg (by simpa using apart n hn)]
      exact ih hn

/-- **The graph of a script is whole.** -/
theorem isWhole_of_ofScript {s : Script} (h : ofScript s = .ok g) : g.IsWhole := by
  simp only [ofScript, bind, Except.bind] at h
  split at h
  case h_1 => cases h
  case h_2 hnodes =>
    split at h
    case h_1 => cases h
    case h_2 =>
      split at h
      case h_1 n hn =>
        cases h
        have mem : n ∈ s.nodes := (List.mem_filter.1 (hn ▸ List.mem_singleton_self n : n ∈ entries s)).1
        exact find?_of_pairwise (pairwise_of_checkNodes hnodes).1 mem
      case h_2 => cases h

theorem isWhole_of_load {files : FileTree} {library : Path} {id : String}
    (h : Library.load files library id = .ok g) : g.IsWhole := by
  simp only [Library.load, bind, Except.bind] at h
  split at h
  · cases h
  · exact isWhole_of_ofScript h

theorem node?_fill (table : TemplateTable) :
    (g.fill table).node? i = (g.node? i).map (Node.fill table) := by
  simp only [node?, Script.node?, fill, Script.fill, List.find?_map]
  rfl

/-- Filling in texts leaves a graph whole. -/
theorem IsWhole.fill (h : g.IsWhole) (table : TemplateTable) : (g.fill table).IsWhole := by
  have hg : (g.fill table).node? g.entry.id = some (g.entry.fill table) := by
    rw [node?_fill, h, Option.map_some]
  exact hg

end Graph

/-! ## Nodes -/

/-- What is done in the world at a node. -/
inductive Act where
  | present (card : Card)
  | give (item : String) (amount : Number)
  | take (item : String) (amount : Number)
  | world (event : WorldEvent)
  | spawn (request : SpawnRequest)
  | remove (npc : String)
  | battle (opponent : Fields)
  deriving DecidableEq

/-- What the output of a node depends on. -/
inductive Decision where
  /-- Nothing: the node has one output, or none. -/
  | plain
  | player (answer : Value)
  | battle (outcome : Value)
  | condition (holds : Bool)
  deriving DecidableEq

namespace Node

/-- What is done in the world at a node. -/
def act? (n : Node) : Option Act :=
  match n.body with
  | .dialogue d => some (.present (.dialogue (d.card n.id)))
  | .choice c => some (.present (.choice ⟨n.id, c.question, c.options⟩))
  | .image i => some (.present (.image ⟨n.id, i.path, i.duration⟩))
  | .item i =>
    match i.action with
    | .give => some (.give i.item i.amount)
    | .take | .other _ => some (.take i.item i.amount)
  | .trigger t =>
    match Effect.ofTrigger t with
    | .ok (.world event) => some (.world event)
    | .ok (.spawn request) => some (.spawn request)
    | .ok (.remove npc) => some (.remove npc)
    | .ok (.setFlag _ _) | .error _ => none
  | .combat opponent => some (.battle opponent)
  | .condition _ | .link _ | .ending => none

/-- What a node writes into the flags and the files. -/
def write (n : Node) (flags : FlagStore) (files : FileTree) : FlagStore × FileTree :=
  match n.body with
  | .trigger t =>
    match Effect.ofTrigger t with
    | .ok (.setFlag name value) => ((flags.set files name value).1, (flags.set files name value).2.1)
    | _ => (flags, files)
  | _ => (flags, files)

/-- What is decided at a node as soon as it is visited. -/
def decision? (n : Node) (flags : FlagStore) : Option Decision :=
  match n.body with
  | .item _ | .trigger _ | .ending => some .plain
  | .condition c =>
    match c.check with
    | .hasFlag => some (.condition (Scalar.meets (flags.get? c.target) c.expected))
    | .hasItem | .other _ => none
  | .dialogue _ | .choice _ | .image _ | .combat _ | .link _ => none

/-- The output that is taken: of a choice the one that is answered, of a condition and a
battle the first if it holds and is won and the second if not, and else the only one. -/
def output? (n : Node) : Decision → Option Int
  | .plain =>
    match n.body with
    | .item _ | .trigger _ => some 0
    | _ => none
  | .player answer =>
    match n.body with
    | .choice c =>
      match Session.pick? c.options.length answer with
      | some (.option i) => some i
      | _ => none
    | _ => some 0
  | .battle outcome =>
    if outcome = .string "victory" then some 0
    else if outcome = .string "defeat" then some 1
    else none
  | .condition holds => some (if holds then 0 else 1)

theorem body_of_isEnding {n : Node} (h : n.isEnding) : n.body = .ending := by
  unfold isEnding kind at h
  cases body : n.body <;> simp_all

/-- Whether the player goes on from a node. -/
def isForPlayer (n : Node) : Bool :=
  match n.body with
  | .dialogue _ | .choice _ | .image _ => true
  | _ => false

end Node

/-! ## Walkers -/

/-- A node of a graph. -/
structure Spot where
  graph : Graph
  node : Node
  deriving DecidableEq

/-- The entry of a graph. -/
def Graph.spot (g : Graph) : Spot := ⟨g, g.entry⟩

/-- Where a walk stands. -/
inductive Walker where
  /-- No walk has begun. -/
  | outside
  /-- On the way to a node. -/
  | heading (spot : Spot)
  /-- At a node, with what is still to be done and what is decided. -/
  | standing (spot : Spot) (todo : Option Act) (decision : Option Decision)
  /-- Before a graph whose texts are to be filled in. -/
  | filling (graph : Graph)
  deriving DecidableEq

/-- What a walker is told. -/
inductive Sign where
  | started (graph : Graph)
  | visited (spot : Spot) (flags : FlagStore)
  | did (act : Act)
  | answered (answer : Value)
  | elapsed
  | fought (outcome : Value)
  | counted (count : Number)
  | loaded (files : FileTree) (library : Path)
  | filled (table : TemplateTable)

namespace Walker

/-- The node that comes next. -/
def next? : Walker → Option Spot
  | .heading spot => some spot
  | .standing spot none (some decision) => do
    let output ← spot.node.output? decision
    let node ← spot.graph.follow? spot.node.id output
    return ⟨spot.graph, node⟩
  | _ => none

/-- Whether a walk ends at a node: it ends the quest, or nothing is connected to the
output that is taken. -/
def endsAt (spot : Spot) (decision : Decision) : Bool :=
  spot.node.isEnding ||
    (spot.node.output? decision).any fun output =>
      (spot.graph.follow? spot.node.id output).isNone

/-- The phase in which a walk ends that has no next node: paused after a trigger, and else
stopped. -/
def end? : Walker → Option Phase
  | .standing spot none (some decision) =>
    if endsAt spot decision then some (Session.phaseAfter spot.node) else none
  | _ => none

/-- The node at which a walk stands. -/
def node? : Walker → Option Node
  | .standing spot _ _ => some spot.node
  | _ => none

/-- What a sign does to a walk, if it can go on so. -/
def step : Walker → Sign → Option Walker
  | w, .started graph =>
    if w = .outside ∨ w.end?.isSome then some (.heading graph.spot) else none
  | w, .visited spot flags =>
    if w.next? = some spot then
      some (.standing spot spot.node.act? (spot.node.decision? flags))
    else none
  | .standing spot (some todo) decision, .did act =>
    if act = todo then some (.standing spot none decision) else none
  | .standing spot todo none, .answered answer =>
    if spot.node.isForPlayer then some (.standing spot todo (some (.player answer))) else none
  | .standing spot todo none, .elapsed =>
    match spot.node.body with
    | .image _ => some (.standing spot todo (some (.player .null)))
    | _ => none
  | .standing spot todo none, .fought outcome =>
    match spot.node.body with
    | .combat _ => some (.standing spot todo (some (.battle outcome)))
    | _ => none
  | .standing spot none none, .counted count =>
    match spot.node.body with
    | .condition c =>
      some (.standing spot none (some (.condition (Session.countMeets c count))))
    | _ => none
  | .standing spot none none, .loaded files library =>
    match spot.node.body with
    | .link l =>
      match Library.load files library l.target with
      | .ok graph => some (if l.useTemplates then .filling graph else .heading graph.spot)
      | .error _ => none
    | _ => none
  | .filling graph, .filled table => some (.heading (graph.fill table).spot)
  | _, _ => none

/-- What several signs do to a walk. -/
def walk (w : Walker) : List Sign → Option Walker
  | [] => some w
  | sign :: signs => (w.step sign).bind fun w => w.walk signs

theorem walk_append (w : Walker) (signs later : List Sign) :
    w.walk (signs ++ later) = (w.walk signs).bind fun w => w.walk later := by
  induction signs generalizing w with
  | nil => rfl
  | cons sign signs ih =>
    simp only [List.cons_append, walk]
    cases w.step sign with
    | none => rfl
    | some w => exact ih w

/-- Where the quest ends, nothing else is decided. -/
def IsFinal : Walker → Prop
  | .standing spot _ (some decision) => spot.node.body = .ending → decision = .plain
  | _ => True

theorem isFinal_of_body {spot : Spot} {todo : Option Act} {decision : Decision}
    (h : spot.node.body ≠ .ending) : IsFinal (.standing spot todo (some decision)) :=
  fun ending => absurd ending h

theorem isFinal_of_step {v w : Walker} {sign : Sign} (h : v.step sign = some w)
    (final : v.IsFinal) : w.IsFinal := by
  unfold step at h
  split at h
  case h_1 =>
    split at h <;> cases h
    trivial
  case h_2 spot flags =>
    split at h <;> cases h
    cases hd : spot.node.decision? flags with
    | none => trivial
    | some decision =>
      intro ending
      simp only [Node.decision?, ending] at hd
      exact (Option.some.inj hd).symm
  case h_3 decision _ =>
    split at h <;> cases h
    cases decision with
    | none => trivial
    | some decision => exact final
  case h_4 spot _ _ =>
    split at h
    case isTrue player =>
      cases h
      refine isFinal_of_body fun ending => ?_
      simp [Node.isForPlayer, ending] at player
    case isFalse => cases h
  case h_5 =>
    split at h
    case h_1 body =>
      cases h
      exact isFinal_of_body (by simp [body])
    case h_2 => cases h
  case h_6 =>
    split at h
    case h_1 body =>
      cases h
      exact isFinal_of_body (by simp [body])
    case h_2 => cases h
  case h_7 =>
    split at h
    case h_1 body =>
      cases h
      exact isFinal_of_body (by simp [body])
    case h_2 => cases h
  case h_8 =>
    split at h
    case h_1 =>
      split at h
      case h_1 =>
        cases h
        split <;> trivial
      case h_2 => cases h
    case h_2 => cases h
  case h_9 =>
    cases h
    trivial
  case h_10 => cases h

theorem isFinal_of_walk {v w : Walker} {signs : List Sign} (h : v.walk signs = some w)
    (final : v.IsFinal) : w.IsFinal := by
  induction signs generalizing v with
  | nil =>
    cases h
    exact final
  | cons sign signs ih =>
    rw [walk, Option.bind_eq_some_iff] at h
    obtain ⟨u, step, h⟩ := h
    exact ih h (isFinal_of_step step final)

/-- **A walk ends where no node comes next.** -/
theorem next?_of_end? {signs : List Sign} {w : Walker} {phase : Phase}
    (h : outside.walk signs = some w) (ended : w.end? = some phase) : w.next? = none := by
  have final : w.IsFinal := isFinal_of_walk h trivial
  unfold end? at ended
  split at ended
  case h_1 spot decision =>
    split at ended
    case isTrue ends =>
      rcases Bool.or_eq_true_iff.1 ends with ending | unconnected
      · have body : spot.node.body = .ending := Node.body_of_isEnding ending
        obtain rfl := final body
        simp [next?, Node.output?, body]
      · obtain ⟨output, out, unconnected⟩ := (Option.any_eq_true _ _).1 unconnected
        simp [next?, out, Option.isNone_iff_eq_none.1 unconnected]
    case isFalse => cases ended
  case h_2 => cases ended

end Walker

/-! ## Signs -/

/-- What a call does in the world, when it is answered. -/
def Ask.act? : Ask → Option Act
  | .engage card => some (.present card)
  | .give item amount => some (.give item amount)
  | .take _ _ item amount => some (.take item amount)
  | .world event => some (.world event)
  | .spawn _ request => some (.spawn request)
  | .remove _ npc => some (.remove npc)
  | .battle opponent _ => some (.battle opponent)
  | _ => none

/-- The signs of an answer to a call. -/
def Ask.signs (s : Session) : (a : Ask) → a.call.Reply → List Sign
  | .count .., held => [.counted held]
  | .fillIn .., table => [.filled table]
  | .handOver .., receipt =>
    match receipt with
    | .plain | .finished .written => [.loaded s.files s.library]
    | _ => []
  | a, _ => a.act?.toList.map .did

/-- The sign of a graph that is started, if it is there. -/
def startSigns : Except Fault Graph → List Sign
  | .ok graph => [.started graph]
  | .error _ => []

/-- The signs of the beginning of an entry. -/
def Entry.signs (s : Session) : Entry → List Sign
  | .start script _ => startSigns (Library.load s.files s.library script)
  | .startGraph graph _ => [.started graph]
  | .advance answer => [.answered answer]
  | .battleOver battle outcome => if s.isWaiting battle.run battle.wait then [.fought outcome] else []
  | .timeUp timer => if s.isWaiting timer.run timer.wait then [.elapsed] else []
  | .written delivery =>
    if (s.run delivery.handle.run).isWaitingOn delivery.handle.wait ∧ delivery.outcome = .written then
      [.loaded s.files s.library]
    else []
  | .stop | .settle _ _ => []

/-- The signs of the beginning of a task. -/
def Task.signs (s : Session) : Task → List Sign
  | .entry e => e.signs s
  | .visit _ node graph => [.visited ⟨graph, node⟩ s.flags]
  | _ => []

/-- The signs of going on after a step.  If nobody is to be told of the answers, the target
of a link is read at once. -/
def Action.signs (s : Session) (r : RunId) : Action → List Sign
  | .link _ => if (s.run r).completion = none then [.loaded s.files s.library] else []
  | _ => []

/-- The signs of going on with what was waited for. -/
def Frame.signs (s : Session) : Frame → Result → List Sign
  | .driving r, .stepped step => step.action.signs s r
  | _, _ => []

/-- The signs of an event: nodes are visited, calls are answered, and answers are given. -/
def Event.signs (e : Event) : List Sign :=
  match e.deed with
  | .reply a answer => a.signs e.before.session answer
  | .move =>
    match e.before.control, e.before.stack with
    | .work task, _ => task.signs e.before.session
    | .done result, frame :: _ => frame.signs e.before.session result
    | _, _ => []
  | _ => []

end Questline

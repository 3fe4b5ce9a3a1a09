import Questline.Proofs.Errands

/-!
# How nodes are left

A run leaves each node through an output of its kind: the player has answered, a battle is over,
items were counted, or nothing had to be decided.  So whatever is under way at a node suits the
node, and whenever a path ends, the event with which it ends says how its last node was left.

Above a trigger stands only what the trigger does in the world.  So its event is unknown just if
it is no event at all, or if the host says so.

* `Turn.leaves?`: the node that is left with a deed, and what its output depends on.
* `Event.RunsOff`: a path ends, since no node comes next.
* `Turn.Suits`: what is under way suits its node, and triggers are guarded.
* `Turn.Does.suits`: every deed keeps that; and a path ends only with a deed that leaves its last node,
  through an output to which nothing is connected.
-/

namespace Questline

open Json (Value)

/-! ## Leaving a node -/

/-- Whether a decision is made at nodes like this one. -/
def Node.Decides (n : Node) : Decision → Prop
  | .plain => n.kind = .item ∨ n.kind = .trigger
  | .player _ => n.isForPlayer
  | .battle _ => n.kind = .combat
  | .condition _ => n.kind = .condition

theorem Node.decides_of_condition {n : Node} {flags : FlagStore} {d : Decision}
    (kind : n.kind = .condition) (decided : n.decision? flags = some d) : n.Decides d := by
  unfold decision? at decided
  split at decided
  case h_4 c body =>
    split at decided <;> cases decided
    exact kind
  case h_1 body | h_2 body | h_3 body => simp [Node.kind, body] at kind
  all_goals cases decided

/-- Behind an item and a trigger there is one output. -/
theorem Node.output?_plain {n : Node} (h : n.Decides .plain) : n.output? .plain = some 0 := by
  unfold output?
  dsimp only
  rcases h with kind | kind
  · cases body : n.body <;> simp_all [Node.kind]
  · cases body : n.body <;> simp_all [Node.kind]

/-- The node that is left with a task, and what its output depends on. -/
def Task.leaves? (s : Session) : Task → Option (Node × Decision)
  | .visit _ node _ =>
    if node.kind = .condition then (node.decision? s.flags).map (node, ·) else none
  | .respond _ node _ answer => some (node, .player answer)
  | .resolve _ node _ outcome => some (node, .battle outcome)
  | _ => none

/-- The node that is left when what a frame waits for is done. -/
def Frame.leaves? : Frame → Option (Node × Decision)
  | .following _ node _ _ | .triggering _ node _ => some (node, .plain)
  | _ => none

/-- The node that is left with the answer to a call. -/
def Ask.leaves? : (a : Ask) → a.call.Reply → Option (Node × Decision)
  | .count _ node c _, held => some (node, .condition (Session.countMeets c held))
  | _, _ => none

/-- The node that is left with a deed, and what its output depends on. -/
def Turn.leaves? (t : Turn) : Deed → Option (Node × Decision)
  | .reply a answer => a.leaves? answer
  | .move =>
    match t.control, t.stack with
    | .work task, _ => task.leaves? t.session
    | .done _, frame :: _ => frame.leaves?
    | _, _ => none
  | _ => none

/-- With an event the run `r`, as it is driven, comes to the end of its path: no node comes next
after `n`. -/
def Event.RunsOff (e : Event) (r : RunId) (n : Node) : Prop :=
  e.after.control = .done (.stepped ⟨n, .terminal⟩) ∧ e.after.stack.head? = some (.driving r)

instance (e : Event) (r : RunId) (n : Node) : Decidable (e.RunsOff r n) :=
  inferInstanceAs (Decidable (_ ∧ _))

/-! ## What suits a node -/

/-- A scene suits a node that the player answers, or where a battle is fought. -/
def Scene.Suits : Scene → Node → Prop
  | .card _, n => n.isForPlayer
  | .battle _, n => n.kind = .combat

/-- A step suspends a run only on a scene of its node. -/
def Step.Suits (step : Step) : Prop :=
  ∀ scene, step.action = .suspend scene → scene.Suits step.node

/-- An answer is one to the player's node, or to that of a battle. -/
def Job.Suits : Job → Prop
  | .enter _ => True
  | .respond n _ _ => n.isForPlayer
  | .resolve n _ _ => n.kind = .combat

/-- A task suits the node that it is done at, as far as the run `r` is concerned. -/
def Task.Suits (r : RunId) : Task → Prop
  | .drive q job => q = r → job.Suits
  | .respond q n _ _ => q = r → n.isForPlayer
  | .resolve q n _ _ => q = r → n.kind = .combat
  | .follow _ _ _ _ => False
  | _ => True

/-- Items are counted for a condition. -/
def Ask.Suits : Ask → Prop
  | .count _ n _ _ => n.kind = .condition
  | _ => True

/-- What comes next suits its node. -/
def Control.Suits (r : RunId) : Control → Prop
  | .work task => task.Suits r
  | .ask a => a.Suits
  | .done (.stepped step) => step.Suits
  | _ => True

/-- What goes on from a frame suits its node. -/
def Frame.Suits : Frame → Prop
  | .triggering _ n _ => n.kind = .trigger
  | .following _ n output _ => output = 0 ∧ (n.kind = .item ∨ n.kind = .trigger)
  | .stepping step => ∃ scene, step.action = .suspend scene ∧ scene.Suits step.node
  | .asked a => a.Suits
  | _ => True

/-! ## Triggers are guarded -/

/-- Whether a node is a trigger of an event that is not known. -/
def Node.Misses (n : Node) (event : String) : Prop :=
  ∃ t, n.body = .trigger t ∧ t.event = event ∧ Effect.isKnown event = false

/-- Whether a call is made by a trigger. -/
def Ask.isEffect : Ask → Bool
  | .world _ | .spawn _ _ | .remove _ _ => true
  | _ => false

/-- Whether what comes next may stand above a trigger: a call that it makes, or the outcome. -/
def Control.isBare : Control → Bool
  | .ask a => a.isEffect
  | .done _ | .failed _ => true
  | .work _ => false

/-- Whether a frame may stand above a trigger: something was begun from inside a call that it
makes. -/
def Frame.isBare : Frame → Bool
  | .asked a => a.isEffect
  | _ => false

/-- Whether a trigger waits in a frame. -/
def Frame.isTriggering : Frame → Bool
  | .triggering _ _ _ => true
  | _ => false

/-- Above each trigger on a stack stands what may stand there; `bare` says whether what comes next
may. -/
def Guarded : Bool → List Frame → Prop
  | _, [] => True
  | bare, f :: stack => (f.isTriggering → bare) ∧ Guarded f.isBare stack

/-- What comes next is what the trigger `n` does: its event is unknown only if it is no event. -/
def Control.Performs (n : Node) : Control → Prop
  | .ask a => a.isEffect
  | .done _ => True
  | .failed f => ∀ event, f = .unknownEvent event → n.Misses event
  | .work _ => False

theorem Guarded.mono {bare : Bool} {stack : List Frame} (h : Guarded false stack) :
    Guarded bare stack := by
  cases stack with
  | nil => trivial
  | cons f stack => exact ⟨fun hf => absurd (h.1 hf) nofun, h.2⟩

theorem Guarded.weaken {bare : Bool} {stack : List Frame} (h : Guarded bare stack) :
    Guarded true stack := by
  cases stack with
  | nil => trivial
  | cons f stack => exact ⟨fun _ => rfl, h.2⟩

theorem Guarded.append {bare : Bool} {frames stack : List Frame}
    (hf : ∀ f ∈ frames, f.isTriggering = false) (h : Guarded false stack) :
    Guarded bare (frames ++ stack) := by
  induction frames generalizing bare with
  | nil => exact h.mono
  | cons f frames ih =>
    obtain ⟨plain, hf⟩ := List.forall_mem_cons.1 hf
    exact ⟨fun trigger => (by rw [plain] at trigger; cases trigger), ih hf⟩

theorem Control.Performs.isBare {n : Node} {c : Control} (h : c.Performs n) : c.isBare := by
  cases c with
  | work => exact h.elim
  | ask => exact h
  | done | failed => rfl

/-! ## Moves -/

/-- Whatever a move leads to suits its node, and no trigger waits for it.  A path ends with it only
at a node where `ends` holds, and with nothing put on the stack. -/
structure Move.Suits (r : RunId) (ends : Node → Prop) (m : Move) : Prop where
  control : m.control.Suits r
  frames : ∀ f ∈ m.frames, f.Suits ∧ f.isTriggering = false
  terminal : ∀ n, m.control = .done (.stepped ⟨n, .terminal⟩) → m.frames = [] ∧ ends n

/-- A move does what a trigger does, and the trigger waits for it. -/
structure Move.Triggers (m : Move) : Prop where
  still : m.control.rider = .nobody
  performs : ∃ q n g, m.frames = [.triggering q n g] ∧ n.kind = .trigger ∧ m.control.Performs n

/-- Whatever is under way suits its node, and triggers are guarded.  The event of a trigger is
unknown only if it is no event, or if it is `blamed`. -/
structure Turn.Suits (blamed : String → Prop) (r : RunId) (t : Turn) : Prop where
  control : t.control.Suits r
  stack : ∀ f ∈ t.stack, f.Suits
  guarded : Guarded t.control.isBare t.stack
  blame : ∀ q n g stack event, t.stack = .triggering q n g :: stack →
    t.control = .failed (.unknownEvent event) → n.Misses event ∨ blamed event

section Suiting

variable {r : RunId} {ends : Node → Prop} {blamed : String → Prop} {m : Move} {f : Frame}
  {stack : List Frame}

theorem Control.suits_of_nobody {c : Control} (h : c.rider = .nobody) : c.Suits r := by
  cases c with
  | work task => cases task <;> trivial
  | ask a => cases a <;> trivial
  | done result => cases result <;> trivial
  | failed => trivial

theorem Frame.suits_of_nobody (h : f.rider = .nobody) : f.Suits ∧ f.isTriggering = false := by
  cases f with
  | asked a => cases a <;> first | exact ⟨trivial, rfl⟩ | cases h
  | stepping | following | triggering => cases h
  | _ => exact ⟨trivial, rfl⟩

namespace Move.Suits

/-- What goes on with no run is done at no node. -/
theorem of_still (h : m.IsStill) : m.Suits r ends where
  control := Control.suits_of_nobody h.control
  frames f hf := Frame.suits_of_nobody (h.frames f hf)
  terminal n hn := by
    have nobody := h.control
    rw [hn] at nobody
    cases nobody

theorem of_frames_nil (frames : m.frames = []) (control : m.control.Suits r)
    (terminal : ∀ n, m.control = .done (.stepped ⟨n, .terminal⟩) → ends n) : m.Suits r ends :=
  ⟨control, by simp [frames], fun n hn => ⟨frames, terminal n hn⟩⟩

theorem failure (s : Session) (fault : Fault) : (Move.failure s fault).Suits r ends :=
  .of_frames_nil rfl trivial nofun

theorem finished (s : Session) : (Move.finished s).Suits r ends :=
  .of_frames_nil rfl trivial nofun

theorem ask (s : Session) {a : Ask} (h : a.Suits) : (Move.ask s a).Suits r ends :=
  .of_frames_nil rfl h nofun

theorem work (s : Session) {task : Task} (h : task.Suits r) : (Move.work s task).Suits r ends :=
  .of_frames_nil rfl h nofun

theorem stepped (s : Session) {node : Node} {action : Action} (h : Step.Suits ⟨node, action⟩)
    (terminal : action = .terminal → ends node) : (Move.stepped s node action).Suits r ends := by
  refine .of_frames_nil rfl h fun n hn => ?_
  cases hn
  exact terminal rfl

theorem under (h : m.Suits r fun _ => False) (hf : f.Suits) (plain : f.isTriggering = false) :
    (m.under f).Suits r ends where
  control := h.control
  frames g hg := by
    rcases List.mem_append.1 hg with hg | hg
    · exact h.frames g hg
    · exact List.mem_singleton.1 hg ▸ ⟨hf, plain⟩
  terminal n hn := (h.terminal n hn).2.elim

/-- A move on top of a stack on which no trigger waits for it. -/
theorem on (h : m.Suits r ends) (below : ∀ f ∈ stack, f.Suits) (guarded : Guarded false stack) :
    (m.on stack).Suits blamed r where
  control := h.control
  stack f hf := (List.mem_append.1 hf).elim (fun hf => (h.frames f hf).1) (below f)
  guarded := .append (fun f hf => (h.frames f hf).2) guarded
  blame := by
    intro q n g rest event hs
    have bare : Guarded false (m.frames ++ stack) := .append (fun f hf => (h.frames f hf).2) guarded
    have hs : m.frames ++ stack = .triggering q n g :: rest := hs
    rw [hs] at bare
    exact absurd (bare.1 rfl) nofun

end Move.Suits

/-- A trigger that waits for what it does. -/
theorem Move.Triggers.on (h : m.Triggers) (below : ∀ f ∈ stack, f.Suits)
    (guarded : Guarded false stack) : (m.on stack).Suits blamed r := by
  obtain ⟨still, q, n, g, frames, kind, performs⟩ := h
  have hs : (m.on stack).stack = .triggering q n g :: stack := by simp [Move.on, frames]
  refine ⟨Control.suits_of_nobody still, fun f hf => ?_, ?_, fun q' n' g' rest event hs' hc => ?_⟩
  · rw [hs] at hf
    rcases List.mem_cons.1 hf with rfl | hf
    · exact kind
    · exact below f hf
  · rw [hs]
    exact ⟨fun _ => performs.isBare, guarded⟩
  · obtain ⟨same, -⟩ := List.cons.inj (hs.symm.trans hs')
    cases same
    have hc : m.control = .failed (.unknownEvent event) := hc
    rw [hc] at performs
    exact .inl (performs event rfl)

end Suiting

/-! ## What a trigger does -/

/-- Whether a reader of parameters blames no event. -/
def BlamesNoEvent {α : Type} (x : Except Fault α) : Prop :=
  ∀ event, x ≠ .error (.unknownEvent event)

namespace BlamesNoEvent

variable {α β : Type} {x : Except Fault α}

theorem ok (a : α) : BlamesNoEvent (.ok a) := fun _ => nofun

theorem bind {next : α → Except Fault β} (h : BlamesNoEvent x) (hn : ∀ a, BlamesNoEvent (next a)) :
    BlamesNoEvent (x >>= next) := by
  cases x with
  | ok a => exact hn a
  | error f => exact fun event he => h event (congrArg Except.error (Except.error.inj he))

theorem map (g : α → β) (h : BlamesNoEvent x) : BlamesNoEvent (g <$> x) := by
  cases x with
  | ok a => exact .ok _
  | error f => exact fun event he => h event (congrArg Except.error (Except.error.inj he))

end BlamesNoEvent

namespace Effect

variable (name : String) (v : Value)

theorem badParameter_blames {α : Type} (need : Requirement) :
    BlamesNoEvent (badParameter (α := α) name need) := fun _ => nofun

theorem textParameter_blames : BlamesNoEvent (textParameter name v) := by
  unfold textParameter
  split
  · split
    · exact badParameter_blames name _
    · exact .ok _
  · exact badParameter_blames name _

theorem optionalParameter_blames : BlamesNoEvent (optionalParameter name v) := by
  unfold optionalParameter
  split
  · exact .ok _
  · exact .ok _
  · exact badParameter_blames name _

theorem numberParameter_blames : BlamesNoEvent (numberParameter name v) := by
  unfold numberParameter
  split
  case h_1 i =>
    unfold floatOf inRange
    split
    · exact .ok _
    · exact fun _ => nofun
  · exact .ok _
  · exact badParameter_blames name _

theorem scalarParameter_blames : BlamesNoEvent (scalarParameter name v) := by
  unfold scalarParameter
  split
  · exact .ok _
  · exact badParameter_blames name _

theorem hourParameter_blames : BlamesNoEvent (hourParameter name v) := by
  refine (numberParameter_blames name v).bind fun hour => ?_
  split
  · exact .ok _
  · exact badParameter_blames name _

/-- The parameters of a known event are at fault on their own. -/
theorem reader_blames {read : Json.Fields → Except Fault Effect} {event : String}
    (h : (event, read) ∈ readers) (params : Json.Fields) : BlamesNoEvent (read params) := by
  simp only [readers, List.mem_cons, Prod.mk.injEq, List.not_mem_nil, or_false] at h
  rcases h with ⟨-, rfl⟩ | ⟨-, rfl⟩ | ⟨-, rfl⟩ | ⟨-, rfl⟩ | ⟨-, rfl⟩ | ⟨-, rfl⟩ | ⟨-, rfl⟩ | ⟨-, rfl⟩ |
    ⟨-, rfl⟩
  · exact (textParameter_blames _ _).map _
  · exact .ok _
  · exact (textParameter_blames _ _).bind fun _ => (scalarParameter_blames _ _).bind fun _ => .ok _
  · exact (textParameter_blames _ _).bind fun _ => (optionalParameter_blames _ _).bind fun _ =>
      (optionalParameter_blames _ _).bind fun _ => (numberParameter_blames _ _).bind fun _ =>
      (numberParameter_blames _ _).bind fun _ => (numberParameter_blames _ _).bind fun _ =>
      (numberParameter_blames _ _).bind fun _ => .ok _
  · exact (textParameter_blames _ _).map _
  · exact (textParameter_blames _ _).bind fun _ => (optionalParameter_blames _ _).bind fun _ => .ok _
  · exact (numberParameter_blames _ _).bind fun _ => (numberParameter_blames _ _).bind fun _ =>
      (numberParameter_blames _ _).bind fun _ => .ok _
  · exact (hourParameter_blames _ _).map _
  · exact (textParameter_blames _ _).map _

/-- **An event is unknown only if it is no event.** -/
theorem isKnown_of_unknownEvent {t : Trigger} {event : String}
    (h : ofTrigger t = .error (.unknownEvent event)) : t.event = event ∧ isKnown event = false := by
  unfold ofTrigger at h
  split at h
  case h_1 read found =>
    obtain ⟨before, after, split, -⟩ := List.lookup_eq_some_iff.1 found
    exact absurd h (reader_blames (split ▸ List.mem_append_right _ List.mem_cons_self) t.params event)
  case h_2 absent =>
    obtain rfl := Fault.unknownEvent.inj (Except.error.inj h)
    refine ⟨rfl, ?_⟩
    rw [isKnown, ← Bool.not_eq_true, List.contains_iff_mem, events_eq, List.mem_map]
    rintro ⟨⟨event, read⟩, hm, same⟩
    have apart := List.lookup_eq_none_iff.1 absent (event, read) hm
    have same : event = t.event := same
    simp [same] at apart

end Effect

/-! ## Every function suits its node -/

namespace Session

variable (s : Session) {q r : RunId} {ends : Node → Prop} {node : Node} {graph : Graph}

theorem follow_suits {output : Int}
    (lost : graph.follow? node.id output = none → ends node) :
    (s.follow q node output graph).Suits r ends := by
  unfold follow
  dsimp only
  split
  · exact .stepped _ (fun _ h => by cases h) nofun
  case h_2 none => exact .stepped _ (fun _ h => by cases h) fun _ => lost none

theorem check_suits {c : Condition} (body : node.body = .condition c)
    (lost : ∀ d output, node.decision? s.flags = some d → node.output? d = some output →
      graph.follow? node.id output = none → ends node) :
    (s.check q node c graph).Suits r ends := by
  have counts : Ask.Suits (.count q node c graph) := by simp [Ask.Suits, Node.kind, body]
  unfold check
  split
  case h_1 hasFlag =>
    refine follow_suits s fun none => lost (.condition _) _ ?_ rfl none
    simp only [Node.decision?, body, hasFlag]
  · exact .ask s counts
  · exact .ask s counts

/-- What a trigger does in the world. -/
theorem dispatch_performs {t : Trigger} (body : node.body = .trigger t) :
    (s.dispatch q t).frames = [] ∧ (s.dispatch q t).control.Performs node := by
  unfold dispatch
  split
  case h_1 effect _ =>
    cases effect with
    | world | spawn | remove => exact ⟨rfl, rfl⟩
    | setFlag name value =>
      unfold perform
      dsimp only
      split
      · exact ⟨rfl, trivial⟩
      case h_2 f hset =>
        refine ⟨rfl, fun event he => ?_⟩
        subst he
        have saved := congrArg (fun x => x.2.2) hset
        unfold FlagStore.set FlagStore.save at saved
        dsimp only at saved
        split at saved
        · cases saved
        · split at saved
          · cases saved
          · split at saved <;> cases saved
  case h_2 f failed =>
    refine ⟨rfl, fun event he => ?_⟩
    subst he
    obtain ⟨rfl, unknown⟩ := Effect.isKnown_of_unknownEvent failed
    exact ⟨t, body, rfl, unknown⟩

theorem visit_suits
    (lost : ∀ d output, node.kind = .condition → node.decision? s.flags = some d →
      node.output? d = some output → graph.follow? node.id output = none → ends node) :
    (s.visit q node graph).Suits r ends ∨ (s.visit q node graph).Triggers := by
  have under {m : Move} {s' : Session} {f : Frame} (h : m.Serves False q .nothing s') (hf : f.Suits)
      (plain : f.isTriggering = false) : (m.under f).Suits r ends :=
    (Move.Suits.of_still (h.still.resolve_right id)).under hf plain
  unfold visit
  cases body : node.body with
  | dialogue d =>
    exact .inl (under (report_serves _ q _) ⟨_, rfl, by simp [Scene.Suits, Node.isForPlayer, body]⟩ rfl)
  | choice c =>
    exact .inl (under (report_serves _ q _) ⟨_, rfl, by simp [Scene.Suits, Node.isForPlayer, body]⟩ rfl)
  | image i =>
    refine .inl (.stepped _ (fun scene h => ?_) fun h => by cases h)
    cases h
    simp [Scene.Suits, Node.isForPlayer, body]
  | item i =>
    exact .inl (under (applyItem_serves _ q _ _) ⟨rfl, .inl (by simp [Node.kind, body])⟩ rfl)
  | trigger t =>
    refine .inr ?_
    dsimp only
    generalize s.setRun q _ = s'
    obtain ⟨frames, performs⟩ := dispatch_performs s' (q := q) body
    refine ⟨((dispatch_serves s' q t).still.resolve_right id).control, q, node, graph, ?_, ?_, performs⟩
    · simp only [Move.under, frames, List.nil_append]
    · simp [Node.kind, body]
  | condition c =>
    have kind : node.kind = .condition := by simp [Node.kind, body]
    exact .inl (check_suits _ body fun d output => lost d output kind)
  | combat opponent =>
    refine .inl (.stepped _ (fun scene h => ?_) fun h => by cases h)
    cases h
    simp [Scene.Suits, Node.kind, body]
  | link l => exact .inl (.stepped _ (fun _ h => by cases h) fun h => by cases h)
  | ending => exact .inl (.stepped _ (fun _ h => by cases h) fun h => by cases h)

theorem respond_suits {answer : Value}
    (lost : ∀ output, node.output? (.player answer) = some output →
      graph.follow? node.id output = none → ends node) :
    (s.respond q node graph answer).Suits r ends := by
  unfold respond
  split
  case h_1 c body =>
    split
    case h_1 pick picked =>
      dsimp only
      split
      case h_1 i => exact follow_suits _ (lost i (by simp [Node.output?, body, picked]))
      case h_2 => exact .failure _ _
    case h_2 => exact .failure s _
  case h_2 plain =>
    refine follow_suits s (lost 0 ?_)
    simp only [Node.output?]

theorem resolve_suits {outcome : Value}
    (lost : ∀ output, node.output? (.battle outcome) = some output →
      graph.follow? node.id output = none → ends node) :
    (s.resolve q node graph outcome).Suits r ends := by
  unfold resolve
  split
  · exact follow_suits s (lost 0 rfl)
  · exact follow_suits s (lost 1 rfl)
  · exact .failure s _

theorem install_suits (g : Graph) : (s.install q g).Suits r ends :=
  .of_still ((install_serves (L := False) s q g).still.resolve_right id)

theorem loadTarget_suits (link : Link) : (s.loadTarget q link).Suits r ends := by
  rcases s.loadTarget_cases q link with ⟨f, h⟩ | ⟨graph, -, h | h⟩
  · rw [h]
    exact .failure s f
  · rw [h]
    exact .ask s trivial
  · rw [h]
    exact install_suits s graph

theorem afterWrite_suits (link : Link) (outcome : WriteOutcome) :
    (s.afterWrite q link outcome).Suits r ends := by
  unfold afterWrite
  split
  · exact loadTarget_suits s link
  · exact .failure s _
  · exact .failure s _

theorem afterHandOver_suits (id : String) (link : Link) (receipt : Receipt) :
    (s.afterHandOver q id link receipt).Suits r ends := by
  unfold afterHandOver
  split
  · exact loadTarget_suits s link
  · exact afterWrite_suits s link _
  · exact .finished _

theorem transfer_suits (id : String) (link : Link) : (s.transfer q id link).Suits r ends := by
  unfold transfer
  split
  · exact loadTarget_suits s link
  · exact .ask _ trivial

theorem settle_suits (step : Step) : (s.settle q step).Suits r ends := by
  have ended {phase : Phase} (past : phase.isActive = false) : (s.terminate q phase).Suits r ends := by
    rcases terminate_serves s q past with h | h
    · exact .of_still (h.still.resolve_right id)
    · exact .of_still (h.still.resolve_right id)
  unfold settle
  split
  · exact .finished s
  · exact .of_still ((pause_serves s q _ _).still.resolve_right id)
  · exact transfer_suits s _ _
  · exact ended rfl
  · exact ended (phaseAfter_isActive _)

theorem proceed_suits (step : Step) : (s.proceed q step).Suits r ends := by
  rcases s.proceed_cases q step with ⟨-, h⟩ | ⟨-, ⟨f, h⟩ | ⟨node, graph, -, -, h⟩ | ⟨-, h⟩⟩
  · rw [h]
    exact .finished s
  · rw [h]
    exact (Move.Suits.failure s f).under trivial rfl
  · rw [h]
    exact (Move.Suits.work s (by exact trivial)).under trivial rfl
  · rw [h]
    exact (settle_suits s step).under trivial rfl

theorem drive_suits {job : Job} (h : q = r → job.Suits) : (s.drive q job).Suits r ends := by
  unfold drive
  split
  · refine (Move.Suits.work s ?_).under trivial rfl
    cases job with
    | enter => trivial
    | respond | resolve => exact h
  · exact .finished s

theorem drain_suits (h : ∀ x ∈ s.pending, x.1 = r → x.2.Suits) : s.drain.Suits r ends := by
  unfold drain
  split
  · exact .finished _
  case h_2 p job rest hp =>
    have suits : p = r → job.Suits := h (p, job) (hp ▸ List.mem_cons_self)
    have next : (Task.drive p job).Suits r := suits
    exact (Move.Suits.work _ next).under trivial rfl

end Session

/-! ## Every deed -/

namespace Turn

variable {t u : Turn} {d : Deed} {q r : RunId} {node : Node} {graph : Graph}

/-- In a turn a run goes on from a node of a graph, on top of the stack `below`: with what comes
next, or with the frame that takes what is done. -/
def IsAt (t : Turn) (q : RunId) (node : Node) (graph : Graph) (below : List Frame) : Prop :=
  t.control.rider = .atNode q node graph ∧ t.stack = below ∨
    ∃ f result, t.stack = f :: below ∧ t.control = .done result ∧ f.rider = .atNode q node graph

/-- With the deed `d` a node is left through an output to which nothing is connected.  If it is left
by the run `r`, the output is one of its kind. -/
def Loses (r : RunId) (t : Turn) (d : Deed) (below : List Frame) (node : Node) : Prop :=
  ∃ decision output q graph, t.leaves? d = some (node, decision) ∧
    node.output? decision = some output ∧ t.IsAt q node graph below ∧
    graph.follow? node.id output = none ∧ (q = r → node.Decides decision)

/-- Answers queued for the run `r` suit their nodes. -/
def QueuesSuit (t : Turn) (r : RunId) : Prop := ∀ x ∈ t.session.pending, x.1 = r → x.2.Suits

section Sources

variable (s : Session) (stack : List Frame)

theorem Makes.suits {popped : List Frame} {α : Alteration} {m : Move} {ends : Node → Prop}
    (hm : t.Makes popped q α m) (goes : ¬t.Goes popped) : m.Suits r ends :=
  .of_still (hm.serves.still.resolve_right goes)

theorem suits_begin {task : Task} (h : task.Suits r) (ends : (Control.work task).endsWell) :
    (task.begin s).Suits r (Loses r ⟨s, stack, .work task⟩ .move stack) ∨ (task.begin s).Triggers := by
  have idle (e : (Control.work task).rider = .nobody) (hn : ∀ d, task ≠ .entry (.written d)) :
      (task.begin s).Suits r (Loses r ⟨s, stack, .work task⟩ .move stack) := by
    obtain ⟨q, α, hm⟩ := task.makes s stack ends
    refine hm.suits fun goes => ?_
    cases goes with
    | rider h => exact h e
    | frame hf => cases hf
    | queue hf => cases hf
    | written d h => exact hn d (Control.work.inj h)
  cases task with
  | entry e =>
    left
    cases e with
    | written d =>
      show (s.deliver d).Suits r _
      rcases s.deliver_cases d with ⟨-, h⟩ | ⟨-, h⟩
      · rw [h]
        exact .finished s
      · rw [h]
        exact (Session.afterWrite_suits _ _ _).under trivial rfl
    | _ => exact idle rfl (by simp)
  | drive q job => exact .inl (s.drive_suits h)
  | visit q node graph =>
    refine s.visit_suits fun decision output kind decided out none => ?_
    refine ⟨decision, output, q, graph, ?_, out, .inl ⟨rfl, rfl⟩, none, fun _ => ?_⟩
    · simp [leaves?, Task.leaves?, kind, decided]
    · exact Node.decides_of_condition kind decided
  | respond q node graph answer =>
    exact .inl (s.respond_suits fun output out none =>
      ⟨.player answer, output, q, graph, rfl, out, .inl ⟨rfl, rfl⟩, none, h⟩)
  | resolve q node graph outcome =>
    exact .inl (s.resolve_suits fun output out none =>
      ⟨.battle outcome, output, q, graph, rfl, out, .inl ⟨rfl, rfl⟩, none, h⟩)
  | follow => exact h.elim
  | _ => exact .inl (idle rfl (by simp))

theorem suits_receive {frame : Frame} (result : Result) (hn : ∀ a, frame ≠ .asked a)
    (h : frame.Suits)
    (jobs : ∀ x ∈ s.pending, x.1 = r → x.2.Suits) : (frame.receive s result).Suits r (Loses r ⟨s, frame :: stack, .done result⟩ .move stack) := by
  have leaving {q : RunId} {node : Node} {graph : Graph} {output : Int}
      (hf : frame.leaves? = some (node, .plain)) (rider : frame.rider = .atNode q node graph)
      (plain : node.kind = .item ∨ node.kind = .trigger) (out : node.output? .plain = some output) :
      (s.follow q node output graph).Suits r (Loses r ⟨s, frame :: stack, .done result⟩ .move stack) :=
    s.follow_suits fun none =>
      ⟨.plain, output, q, graph, hf, out, .inr ⟨frame, result, rfl, rfl, rider⟩, none, fun _ => plain⟩
  cases frame with
  | draining => exact s.drain_suits jobs
  | driving q =>
    cases result with
    | done => exact .finished s
    | stepped step => exact s.proceed_suits step
  | stepping step =>
    obtain ⟨scene, action, suits⟩ := h
    refine .stepped s (fun scene' h => ?_) fun h => ?_
    · obtain rfl := Action.suspend.inj (action.symm.trans h)
      exact suits
    · rw [action] at h
      cases h
  | following q node output graph =>
    obtain ⟨rfl, kind⟩ := h
    exact leaving rfl rfl kind (Node.output?_plain kind)
  | triggering q node graph =>
    have kind : node.kind = .item ∨ node.kind = .trigger := .inr h
    exact leaving rfl rfl kind (Node.output?_plain kind)
  | linking q => exact .finished s
  | failing f => exact .failure s f
  | asked a => exact absurd rfl (hn a)
  | timing q w seconds =>
    simp only [Frame.receive]
    split
    · exact .ask s trivial
    · exact .finished s
  | resuming q job =>
    exact .of_still ((Session.resume_serves (L := False) s q job).still.resolve_right id)
  | ending q phase => exact .of_still ((s.close_serves q phase).still.resolve_right id)
  | announcing completion ledger =>
    exact .of_still ((s.announce_serves 0 completion ledger).still.resolve_right id)
  | posting ds => exact .of_still ((s.post_serves 0 ds).still.resolve_right id)

theorem suits_recover {frame : Frame} {ends : Node → Prop} (fault : Fault) (hn : ∀ a, frame ≠ .asked a)
    (h : frame.Suits) : (frame.recover s fault).Suits r ends := by
  cases frame with
  | triggering q node graph =>
    simp only [Frame.recover]
    split
    · exact (Move.Suits.of_still ((s.report_serves q _).still.resolve_right id)).under
        ⟨rfl, .inr h⟩ rfl
    · exact .failure s _
  | driving q =>
    exact (Move.Suits.of_still ((Session.stopIfActive_serves _ q).still.resolve_right id)).under
      trivial rfl
  | linking q =>
    simp only [Frame.recover]
    split
    · exact .of_still ((Session.stopIfActive_serves _ q).still.resolve_right id)
    · exact .failure s _
  | posting ds => exact .of_still ((s.post_serves 0 ds).still.resolve_right id)
  | asked a => exact absurd rfl (hn a)
  | _ => exact .failure _ fault

theorem suits_resume {a : Ask} (answer : a.call.Reply) (h : a.Suits) :
    (a.resume s answer).Suits r (Loses r ⟨s, stack, .ask a⟩ (.reply a answer) stack) := by
  by_cases hx : a.rider = .nobody
  · obtain ⟨q, α, hm⟩ := a.makes s stack answer
    refine hm.suits fun goes => ?_
    cases goes with
    | rider h => exact h hx
    | frame hf => cases hf
    | queue hf => cases hf
    | written d h => cases h
  · cases a with
    | count q node c graph =>
      have out : node.output? (.condition (Session.countMeets c answer)) =
          some (Session.outputOf (Session.countMeets c answer)) := rfl
      exact s.follow_suits fun none => ⟨_, _, q, graph, rfl, out, .inl ⟨rfl, rfl⟩, none, fun _ => h⟩
    | handOver q node link callback ledger => exact s.afterHandOver_suits _ _ _
    | fillIn q graph => exact s.install_suits _
    | _ => exact absurd rfl hx

/-- After the answer to a call that a trigger makes, the trigger is done. -/
theorem resume_of_isEffect {a : Ask} (effect : a.isEffect) (answer : a.call.Reply) :
    ∃ s', a.resume s answer = .finished s' := by
  cases a <;> first | exact ⟨_, rfl⟩ | cases effect

end Sources

/-- **Every deed suits its node**, and a path ends only with a deed that leaves its last node. -/
theorem Does.suits {blamed : String → Prop} (h : t.Does d u) (ends : t.EndsWell)
    (ht : t.Suits blamed r) (jobs : t.QueuesSuit r) :
    u.Suits (fun event => blamed event ∨ d = .fail (.unknownEvent event)) r ∧
      ∀ node, u.control = .done (.stepped ⟨node, .terminal⟩) → u.stack ≠ [] → t.Loses r d u.stack node := by
  have terminal {m : Move} {stack : List Frame} {blamed : String → Prop} (below : ∀ f ∈ stack, f.Suits)
      (guarded : Guarded false stack) (suits : m.Suits r (t.Loses r d stack)) :
      (m.on stack).Suits blamed r ∧ ∀ node, (m.on stack).control = .done (.stepped ⟨node, .terminal⟩) →
        (m.on stack).stack ≠ [] → t.Loses r d (m.on stack).stack node := by
    refine ⟨suits.on below guarded, fun node hu _ => ?_⟩
    obtain ⟨frames, lost⟩ := suits.terminal node hu
    rwa [show (m.on stack).stack = stack from congrArg (· ++ stack) frames]
  cases h with
  | @work s stack task =>
    rcases suits_begin s stack ht.control ends.2 with suits | triggers
    · exact terminal ht.stack ht.guarded suits
    · refine ⟨triggers.on ht.stack ht.guarded, fun node hu _ => ?_⟩
      have still := triggers.still
      rw [show (task.begin s).control = _ from hu] at still
      cases still
  | @receive s frame stack result hn =>
    obtain ⟨own, below⟩ := List.forall_mem_cons.1 ht.stack
    have suits := suits_receive s stack result hn own jobs
    have guarded : Guarded false stack := by
      have guarded := ht.guarded.2
      cases frame <;> first | exact guarded | exact absurd rfl (hn _)
    exact terminal below guarded suits
  | @recover s frame stack fault hn =>
    obtain ⟨own, below⟩ := List.forall_mem_cons.1 ht.stack
    have guarded : Guarded false stack := by
      have guarded := ht.guarded.2
      cases frame <;> first | exact guarded | exact absurd rfl (hn _)
    exact terminal below guarded (suits_recover s fault hn own)
  | @reply s stack a answer =>
    cases effect : a.isEffect with
    | true =>
      obtain ⟨s', hm⟩ := resume_of_isEffect s effect answer
      rw [hm]
      exact ⟨⟨trivial, ht.stack, ht.guarded.weaken, fun _ _ _ _ _ _ h => by cases h⟩,
        fun node hu _ => by cases hu⟩
    | false =>
      have suits := suits_resume s stack (r := r) answer ht.control
      have guarded : Guarded false stack := by
        have guarded := ht.guarded
        rwa [show (Control.ask a).isBare = false from effect] at guarded
      exact terminal ht.stack guarded suits
  | beginAtRest past e =>
    exact ⟨⟨trivial, fun _ h => (by cases h), trivial, fun _ _ _ _ _ h => by cases h⟩,
      fun _ h => by cases h⟩
  | @beginInside s stack a e =>
    refine ⟨⟨trivial, fun f hf => ?_, ⟨fun h => (by cases h), ht.guarded⟩,
      fun _ _ _ _ _ h => by cases h⟩, fun _ h => by cases h⟩
    rcases List.mem_cons.1 hf with rfl | hf
    · exact ht.control
    · exact ht.stack f hf
  | @leave s stack a c past =>
    obtain ⟨own, below⟩ := List.forall_mem_cons.1 ht.stack
    exact ⟨⟨own, below, ht.guarded.2, fun _ _ _ _ _ _ h => by cases h⟩, fun _ h => by cases h⟩
  | @fail s stack a fault =>
    refine ⟨⟨trivial, ht.stack, ht.guarded.weaken, fun q n g rest event hs hc => ?_⟩,
      fun _ h => by cases h⟩
    cases hc
    exact .inr (.inr rfl)
  | @change s stack c past files flags =>
    refine ⟨⟨ht.control, ht.stack, ht.guarded, fun q n g rest event hs hc =>
      (ht.blame q n g rest event hs hc).imp_right .inl⟩, fun node hu full => ?_⟩
    obtain rfl : c = _ := hu
    cases stack with
    | nil => exact absurd rfl full
    | cons => cases past

end Turn

end Questline

import Questline.Proofs.Conditions
import Questline.Proofs.Layout

/-!
# Warnings are reported

A run remembers a warning just before the host is told of it.  So the two agree at every moment.  And
between nodes nothing is left to be told of: the warnings of a run are those that its visits have raised,
and the items that the host has refused, in the order in which that came about.  A visit that warns goes on
as it would have gone on without.

* `Event.told`: the warning that the host is told of with an event.
* `Event.warns`: the warnings that come to be due with an event.
* `Turn.unreported`: the warnings that are due and still to be told of.
* `Reported`: what is kept by every deed.
* `Heading`: a visit that warns heads for one step, whatever it warns of.
* `warnings_reported`: all of it together.
-/

namespace Questline

open Json (Value)

/-! ## What the host is told of -/

/-- The warning of a run that the host is told of with an event. -/
def Event.told (r : RunId) (e : Event) : List Warning :=
  match e.deed with
  | .move | .reply _ _ => e.after.control.reported r
  | _ => []

/-- The warnings that come to be due to a run with an event. -/
def Event.warns (r : RunId) (e : Event) : List Warning := e.before.raises e.deed r

/-- The warnings of a run that are to be told of after the call of a frame. -/
def Frame.unreported (r : RunId) : Frame → List Warning
  | .asked (.report q _ rest) => dueTo q rest r
  | _ => []

namespace Turn

/-- The warnings of a run that are due and still to be told of. -/
def unreported (r : RunId) (t : Turn) : List Warning :=
  t.control.unreported r t.stack ++ t.stack.flatMap (Frame.unreported r)

/-- No node is being visited. -/
def IsBetween (t : Turn) : Prop := ∀ f ∈ t.stack, f.isOfVisit = false

variable {t u : Turn} {d : Deed} {r : RunId} {stack : List Frame} {c : Control}

theorem unreported_of_off {frames : List Frame} (off : ∀ f ∈ frames, f.isOnNode = false) :
    frames.flatMap (Frame.unreported r) = [] := by
  refine List.flatMap_eq_nil_iff.2 fun f hf => ?_
  have own := off f hf
  cases f with
  | asked a =>
    cases a with
    | report => cases own
    | _ => rfl
  | _ => rfl

theorem control_unreported_of_off (top : inVisit stack = false) (sits : c.Sits stack) :
    c.unreported r stack = [] := by
  unfold Control.unreported
  split
  · cases top.symm.trans sits
  · split
    · cases top
    · rfl
  · rfl

theorem inVisit_of_off {f : Frame} (h : f.isAside ∨ f.isDriving) : f.isOfVisit = false := by
  cases f with
  | triggering | following | stepping => rcases h with h | h <;> cases h
  | _ => rfl

theorem isOnNode_of_off {f : Frame} (h : f.isAside ∨ f.isDriving) : f.isOnNode = false := by
  cases f with
  | asked => rcases h with h | h <;> cases h
  | _ => rfl

/-- Frames aside from visits leave nothing to be told of. -/
theorem unreported_eq {frames rest : List Frame} (ht : t.IsLaid) (hs : t.stack = frames ++ rest)
    (own : ∀ f ∈ frames, f.isAside ∨ f.isDriving) (top : inVisit rest = false) :
    t.unreported r = rest.flatMap (Frame.unreported r) := by
  have head : inVisit t.stack = false := by
    rw [hs]
    cases frames with
    | nil => exact top
    | cons f frames => exact inVisit_of_off (own f List.mem_cons_self)
  rw [unreported, control_unreported_of_off head ht.control, hs, List.flatMap_append,
    unreported_of_off fun f hf => isOnNode_of_off (own f hf)]
  rfl

/-- In a visit nothing is to be told of but by the visit itself. -/
theorem unreported_visit {frames base : List Frame} {p : RunId} (ht : t.IsLaid)
    (hs : t.stack = frames ++ .driving p :: base) (own : ∀ f ∈ frames, f.isOfVisit) :
    t.unreported r = t.control.unreported r t.stack := by
  have laid : Laid (.driving p :: base) := Laid.drop (hs ▸ ht.stack)
  have off : ∀ f ∈ t.stack, f.isOnNode = false := by
    rw [hs]
    intro f hf
    rcases List.mem_append.1 hf with hf | hf
    · cases f with
      | asked => cases own _ hf
      | _ => rfl
    · rcases List.mem_cons.1 hf with rfl | hf
      · rfl
      · exact (laid.below_driving f hf).2
  rw [unreported, unreported_of_off off, List.append_nil]

/-- **Between nodes nothing is left to be told of.** -/
theorem IsBetween.unreported (h : t.IsBetween) (ht : t.IsLaid) : t.unreported r = [] := by
  have top {stack : List Frame} (between : ∀ f ∈ stack, f.isOfVisit = false) : inVisit stack = false := by
    cases stack with
    | nil => rfl
    | cons f stack => exact between f List.mem_cons_self
  have off {stack : List Frame} (laid : Laid stack) (between : ∀ f ∈ stack, f.isOfVisit = false) :
      ∀ f ∈ stack, f.isOnNode = false := by
    induction stack with
    | nil => simp
    | cons f stack ih =>
      obtain ⟨-, rest⟩ := List.forall_mem_cons.1 between
      exact List.forall_mem_cons.2 ⟨laid.1.onNode.symm.trans (top rest), ih laid.2 rest⟩
  rw [Turn.unreported, control_unreported_of_off (top h) ht.control, unreported_of_off (off ht.stack h)]
  rfl

theorem unreported_of_isOver {a : Ask} (past : c.isOver) : c.unreported r (.asked a :: stack) = [] := by
  cases c with
  | work | ask => cases past
  | done => rfl
  | failed f => cases f <;> rfl

/-- A deed of the host changes nothing about the warnings, unless it fails. -/
theorem Yields.reports (h : t.Yields d u) (well : ∀ f, d ≠ .fail f) (does : t.Does d u) :
    u.unreported r = t.unreported r ∧ t.raises d r = [] := by
  have asked (a : Ask) (stack : List Frame) : (Control.ask a).unreported r stack = (Frame.asked a).unreported r := by
    cases a <;> rfl
  cases does with
  | work | receive | recover => exact absurd rfl h.deed.1
  | reply => exact absurd rfl (h.deed.2 _ _)
  | @beginAtRest s c past e =>
    have none : c.unreported r [] = [] := by
      cases c with
      | work | ask => cases past
      | done => rfl
      | failed f => cases f <;> rfl
    refine ⟨(congrArg (· ++ []) none).symm, ?_⟩
    cases c with
    | work | ask => cases past
    | done | failed => rfl
  | @beginInside s stack a e =>
    refine ⟨?_, rfl⟩
    show [] ++ ((Frame.asked a).unreported r ++ stack.flatMap (Frame.unreported r)) = _
    rw [← asked a stack]
    rfl
  | @leave s stack a c past =>
    refine ⟨?_, ?_⟩
    · show (Control.ask a).unreported r stack ++ stack.flatMap (Frame.unreported r) =
        c.unreported r (.asked a :: stack) ++ ((Frame.asked a).unreported r ++ stack.flatMap (Frame.unreported r))
      rw [unreported_of_isOver past, asked]
      rfl
    · cases c with
      | work | ask => cases past
      | done | failed => rfl
  | fail f => exact absurd rfl (well f)
  | @change s stack c host =>
    refine ⟨rfl, ?_⟩
    cases c with
    | work => cases host
    | ask | done | failed => rfl

theorem reported_of_isAside (aside : c.isAside) : c.reported r = [] := by
  unfold Control.reported
  split
  · cases aside
  · rfl

/-- **What a deed of a host that does not fail does to the warnings**: the run remembers those that the host
is told of, and those that are due are remembered or still to be told of. -/
theorem Does.reports (h : t.Does d u) (well : ∀ f, d ≠ .fail f) (ht : t.IsLaid) (orderly : t.Orderly) :
    (u.session.run r).warnings = (t.session.run r).warnings ++ Event.told r ⟨t, d, u⟩ ∧
      (u.session.run r).warnings ++ u.unreported r =
        (t.session.run r).warnings ++ t.unreported r ++ Event.warns r ⟨t, d, u⟩ := by
  have laid := h.laid ht orderly
  have unchanged (warnings : (u.session.run r).warnings = (t.session.run r).warnings)
      (told : Event.told r ⟨t, d, u⟩ = []) (same : u.unreported r = t.unreported r) (calm : t.raises d r = []) :
      (u.session.run r).warnings = (t.session.run r).warnings ++ Event.told r ⟨t, d, u⟩ ∧
        (u.session.run r).warnings ++ u.unreported r =
          (t.session.run r).warnings ++ t.unreported r ++ Event.warns r ⟨t, d, u⟩ := by
    rw [warnings, told, same, show Event.warns r ⟨t, d, u⟩ = [] from calm, List.append_nil, List.append_nil]
    exact ⟨rfl, rfl⟩
  rcases h.serves orderly.ends with yields | ⟨_, _, _, _, _, _, _, _, _, moved⟩
  · obtain ⟨same, calm⟩ := yields.reports well h
    have told : Event.told r ⟨t, d, u⟩ = [] := by
      unfold Event.told
      split
      case h_1 moved => exact absurd moved yields.deed.1
      case h_2 replied => exact absurd replied (yields.deed.2 _ _)
      case h_3 => rfl
    exact unchanged (by simp only [Session.run, yields.runs]) told same calm
  have told : Event.told r ⟨t, d, u⟩ = u.control.reported r := by
    rcases moved with rfl | ⟨a, answer, rfl⟩ <;> rfl
  cases h.passes ht orderly with
  | host yields =>
    rcases moved with rfl | ⟨a, answer, rfl⟩
    · exact absurd rfl yields.deed.1
    · exact absurd rfl (yields.deed.2 a answer)
  | visit popped p base m due before own after visit reports owed =>
    have left : u.unreported r = m.control.unreported r (m.frames ++ .driving p :: base) := by
      subst after
      refine unreported_visit laid rfl fun f hf => ?_
      cases visit with
      | plain => cases hf
      | waited visits => exact List.mem_singleton.1 hf ▸ visits
    rw [told, left, unreported_visit ht before own, after]
    refine ⟨reports.warnings r, ?_⟩
    show (m.session.run r).warnings ++ _ = _
    rw [reports.warnings r, List.append_assoc, reports.due, owed, ← List.append_assoc]
    rfl
  | aside popped rest m before own after aside top calm =>
    have same : u.unreported r = t.unreported r := by
      rw [unreported_eq ht before own top]
      subst after
      exact unreported_eq laid rfl (fun f hf => .inl (aside.frames f hf)) top
    refine unchanged (after ▸ aside.warnings r) (told.trans ?_) same (congrFun calm r)
    exact after ▸ reported_of_isAside aside.control
  | onward popped pushed rest before after own warnings _ control _ top calm =>
    have off {frames : List Frame} (own : ∀ f ∈ frames, f.isDriving ∨ f = .draining) :
        ∀ f ∈ frames, f.isAside ∨ f.isDriving := fun f hf =>
      (own f hf).symm.imp_left fun (queue : f = .draining) => queue ▸ rfl
    have same : u.unreported r = t.unreported r := by
      rw [unreported_eq ht before (off fun f hf => own f (List.mem_append_left _ hf)) top,
        unreported_eq laid after (off fun f hf => own f (List.mem_append_right _ hf)) top]
    refine unchanged (warnings r) (told.trans ?_) same (congrFun calm r)
    unfold Control.reported
    split
    case h_1 asks => exact absurd asks (control _)
    case h_2 => rfl

end Turn

/-- What is kept: a run remembers what the host was told of, and what is due is remembered or still to be
told of. -/
structure Reported (events : List Event) (t : Turn) : Prop where
  laid : t.IsLaid
  orderly : t.Orderly
  told : ∀ r, (t.session.run r).warnings = events.flatMap (Event.told r)
  warned : ∀ r, (t.session.run r).warnings ++ t.unreported r = events.flatMap (Event.warns r)

/-- Nothing fails that the host is called for. -/
def unfailing : Turn → Deed → Prop := fun _ d => ∀ f, d ≠ .fail f

instance (t : Turn) (d : Deed) : Decidable (unfailing t d) :=
  match d with
  | .fail f => isFalse fun h => h f rfl
  | .move | .begin _ | .leave | .reply _ _ | .change _ _ => isTrue nofun

theorem History.reported {files : FileTree} {library : Path} {flags : FlagStore} {events : List Event} {t : Turn}
    (h : History unfailing (Session.fresh files library flags).atRest events t) : Reported events t := by
  induction h with
  | nil => exact ⟨Turn.isLaid_atRest _, Turn.orderly_fresh files library flags, fun _ => rfl, fun _ => rfl⟩
  | snoc _ well does ih =>
    refine ⟨does.laid ih.laid ih.orderly, does.orderly ih.orderly, fun r => ?_, fun r => ?_⟩
    · rw [(does.reports well ih.laid ih.orderly).1, ih.told r]
      simp
    · rw [(does.reports well ih.laid ih.orderly).2, ih.warned r]
      simp

/-! ## The way of a run that is warned -/

/-- What follows the visit of a node that may warn. -/
def Node.heading? (n : Node) (g : Graph) : Option Action :=
  match n.body with
  | .dialogue d => some (.suspend (.card (.dialogue (d.card n.id))))
  | .choice c => some (.suspend (.card (.choice ⟨n.id, c.question, c.options⟩)))
  | .item _ | .trigger _ => some (g.onward n.id Session.firstOutput)
  | _ => none

/-- The step that a frame of a visit gives back. -/
def Frame.heads? : Frame → Option Step
  | .stepping step => some step
  | .following _ n output g => some ⟨n, g.onward n.id output⟩
  | .triggering _ n g => some ⟨n, g.onward n.id Session.firstOutput⟩
  | _ => none

/-- On top of the stack `base` a visit heads for a step, whatever is begun meanwhile.  Only where it
`mayFail` does it fail. -/
inductive Heading (base : List Frame) (step : Step) (mayFail : Prop) : Turn → Prop
  | calling {f : Frame} {a : Ask} {t : Turn} (heads : f.heads? = some step) (onNode : a.isOnNode)
      (during : t.During a (f :: base)) : Heading base step mayFail t
  | waiting {s : Session} {f : Frame} {c : Control} (heads : f.heads? = some step) (past : c.isOver)
      (fault : ∀ fault, c = .failed fault → (∃ event, fault = .unknownEvent event ∧ f.isTriggering) ∨ mayFail) :
      Heading base step mayFail ⟨s, f :: base, c⟩
  | there {s : Session} : Heading base step mayFail ⟨s, base, .done (.stepped step)⟩
  | failed {s : Session} {fault : Fault} (may : mayFail) : Heading base step mayFail ⟨s, base, .failed fault⟩

theorem Session.report_ne_failed (s : Session) (r : RunId) (ws : List Warning) (fault : Fault) :
    (s.report r ws).control ≠ .failed fault := by
  intro failed
  cases ws <;> cases failed

/-- With the answer to a call that is made in a visit nothing fails. -/
theorem Ask.resume_ne_failed (s : Session) {a : Ask} (onNode : a.isOnNode) (answer : a.call.Reply) (fault : Fault) :
    (a.resume s answer).control ≠ .failed fault := by
  intro failed
  cases a with
  | give | spawn | remove | world => cases failed
  | take r node item amount =>
    simp only [resume] at failed
    split at failed
    · cases failed
    · exact s.report_ne_failed r _ fault failed
  | report r warning rest => exact s.report_ne_failed r rest fault failed
  | engage | startTimer | cancelTimer | deliver | count | battle | fillIn | dismiss | handOver | announce =>
    cases onNode

namespace Heading

variable {base : List Frame} {step : Step} {mayFail : Prop} {t u : Turn} {d : Deed} {s : Session} {f : Frame}
  {r : RunId} {n : Node} {g : Graph} {events : List Event}

/-- A move of a visit that does not fail. -/
theorem of_control {m : Move} (heads : f.heads? = some step) (frames : m.frames = []) (onNode : m.control.isOnNode)
    (fault : ∀ fault, m.control = .failed fault → (∃ event, fault = .unknownEvent event ∧ f.isTriggering) ∨ mayFail) :
    Heading base step mayFail (m.on (f :: base)) := by
  obtain ⟨s, frames', c⟩ := m
  obtain rfl : frames' = [] := frames
  cases c with
  | work => cases onNode
  | ask a => exact .calling heads onNode (.atCall s)
  | done | failed => exact .waiting heads rfl fault

theorem report (heads : f.heads? = some step) (ws : List Warning) :
    Heading base step mayFail ((s.report r ws).on (f :: base)) := by
  obtain ⟨frames, control⟩ := s.report_isOnNode r ws
  exact of_control heads frames control fun fault failed => absurd failed (s.report_ne_failed r ws fault)

theorem receive (heads : f.heads? = some step) (result : Result) :
    Heading base step mayFail ((f.receive s result).on base) := by
  cases f with
  | stepping => cases heads; exact .there
  | following r n output g =>
    cases heads
    rw [Frame.receive, Session.follow_eq]
    exact .there
  | triggering r n g =>
    cases heads
    rw [Frame.receive, Session.follow_eq]
    exact .there
  | _ => cases heads

/-- A trigger of an unknown event goes on as it would have gone on otherwise. -/
theorem recover {fault : Fault} (heads : f.heads? = some step)
    (why : (∃ event, fault = .unknownEvent event ∧ f.isTriggering) ∨ mayFail) :
    Heading base step mayFail ((f.recover s fault).on base) := by
  cases f with
  | stepping | following =>
    rcases why with ⟨_, -, triggers⟩ | may
    · cases triggers
    · exact .failed may
  | triggering r n g =>
    simp only [Frame.recover]
    split
    · rw [Move.on_under]
      exact report (f := .following r n Session.firstOutput g) heads _
    case h_2 other =>
      rcases why with ⟨event, rfl, -⟩ | may
      · exact absurd rfl (other event)
      · exact .failed may
  | _ => cases heads

/-- **Every deed keeps the heading**, of a host that does not fail. -/
theorem step_of_does (h : Heading base step mayFail t) (away : ¬t.IsBack base) (well : ∀ f, d ≠ .fail f)
    (does : t.Does d u) : Heading base step mayFail u := by
  cases h with
  | calling heads onNode during =>
    rcases does.during during with inside | ⟨s, rfl, ⟨answer, rfl, rfl⟩ | ⟨fault, rfl, -⟩⟩
    · exact .calling heads onNode inside
    · obtain ⟨frames, control⟩ := Ask.resume_isOnNode s onNode answer
      exact of_control heads frames control fun fault failed => absurd failed (Ask.resume_ne_failed s onNode answer fault)
    · exact absurd rfl (well fault)
  | @waiting s f c heads past fault =>
    cases does with
    | work => cases past
    | receive => exact receive heads _
    | recover => exact recover heads (fault _ rfl)
    | beginInside | reply | fail => cases past
    | leave => cases heads
    | change host =>
      cases c with
      | work | ask => cases past
      | done | failed => cases host
  | there => exact absurd ⟨rfl, rfl⟩ away
  | failed => exact absurd ⟨rfl, rfl⟩ away

/-- **The first move** of a visit. -/
theorem of_visit {action : Action} (heads : n.heading? g = some action) :
    Heading base ⟨n, action⟩ (∃ t, n.body = .trigger t ∧ Effect.isKnown t.event) ((s.visit r n g).on base) := by
  unfold Session.visit
  unfold Node.heading? at heads
  cases body : n.body with
  | dialogue d =>
    rw [body] at heads
    dsimp only at heads ⊢
    cases heads
    rw [Move.on_under]
    exact report rfl _
  | choice c =>
    rw [body] at heads
    dsimp only at heads ⊢
    cases heads
    rw [Move.on_under]
    exact report rfl _
  | item i =>
    rw [body] at heads
    dsimp only at heads ⊢
    cases heads
    rw [Move.on_under]
    obtain ⟨frames, control⟩ := Session.applyItem_isOnNode _ r n.id i
    refine of_control rfl frames control fun fault failed => ?_
    unfold Session.applyItem at failed
    split at failed <;> cases failed
  | trigger t =>
    rw [body] at heads
    dsimp only at heads ⊢
    cases heads
    rw [Move.on_under]
    obtain ⟨frames, control⟩ := Session.dispatch_isOnNode _ r t
    refine of_control rfl frames control fun fault failed => ?_
    by_cases known : Effect.isKnown t.event
    · exact .inr ⟨t, rfl, known⟩
    · left
      rw [Session.dispatch, Effect.ofTrigger_of_unknown (by simpa using known)] at failed
      cases failed
      exact ⟨t.event, rfl, rfl⟩
  | image | condition | combat | link | ending =>
    rw [body] at heads
    cases heads

/-- **The whole visit**, by induction over its deeds. -/
theorem of_history {action : Action} (heads : n.heading? g = some action)
    (h : History (fun t d => untilBack base t d ∧ unfailing t d) ⟨s, base, .work (.visit r n g)⟩ events u) :
    u = ⟨s, base, .work (.visit r n g)⟩ ∨
      Heading base ⟨n, action⟩ (∃ t, n.body = .trigger t ∧ Effect.isKnown t.event) u := by
  induction h with
  | nil => exact .inl rfl
  | snoc _ allowed does ih =>
    right
    rcases ih with rfl | heading
    · cases does with
      | work => exact of_visit heads
      | beginAtRest past | leave past => cases past
      | change host => cases host
    · exact heading.step_of_does allowed.1 allowed.2 does

end Heading

end Questline

import Questline.Proofs.Asides
import Questline.Proofs.Dispatch

/-!
# How the stack is laid

At any moment one node is visited at most, whatever a host begins from inside its calls.  For the visit
lies on the frame of a run that is driven, this lies on the queue, and the queue is worked off only once
at a time.

* `Laid`, `Turn.IsLaid`: how frames lie on each other.
* `Laid.no_visit`, `Laid.below_driving`: below a visit there is no other.
* `Move.Reports`: a move in a visit, and what it warns of.
* `Turn.Does.passes`: what a deed is; `Turn.Does.laid`: every deed leaves the stack laid.
-/

namespace Questline

open Json (Value)

/-! ## Frames on each other -/

/-- Whether a frame is a call that was made in a visit. -/
def Frame.isOnNode : Frame → Bool
  | .asked a => a.isOnNode
  | _ => false

/-- Whether a visit waits on top of a stack. -/
def inVisit : List Frame → Bool
  | [] => false
  | f :: _ => f.isOfVisit

/-- A frame lies on a stack as it should: the calls of a visit on its frame, and nothing else there; a
visit on a run that is driven; such a run on the queue; and there is one queue. -/
structure Frame.Sits (f : Frame) (stack : List Frame) : Prop where
  onNode : inVisit stack = f.isOnNode
  visit : f.isOfVisit → ∃ r, stack.head? = some (.driving r)
  driven : f.isDriving → stack.head? = some .draining
  single : f = .draining → .draining ∉ stack

/-- Every frame of a stack lies as it should. -/
def Laid : List Frame → Prop
  | [] => True
  | f :: stack => f.Sits stack ∧ Laid stack

/-- What comes next has the stack below it that it should have. -/
def Control.Sits (stack : List Frame) : Control → Prop
  | .ask a => inVisit stack = a.isOnNode
  | .done _ | .failed _ => True
  | .work (.visit _ _ _) | .work (.respond _ _ _ _) | .work (.resolve _ _ _ _) =>
    ∃ q, stack.head? = some (.driving q)
  | .work (.drive _ _) => stack.head? = some .draining
  | .work (.entry _) | .work (.terminate _ _) => inVisit stack = false
  | .work (.follow _ _ _ _) | .work (.dispatch _ _) | .work (.report _ _) | .work (.engage _) => False

/-- The stack of a turn is laid as it should be, and there is a queue on it only while the queue is
worked off. -/
structure Turn.IsLaid (t : Turn) : Prop where
  stack : Laid t.stack
  control : t.control.Sits t.stack
  draining : .draining ∈ t.stack → t.session.draining

section

variable {f : Frame} {frames stack : List Frame}

/-- **Without a queue there is no visit.** -/
theorem Laid.no_visit (h : Laid stack) (idle : .draining ∉ stack) :
    ∀ f ∈ stack, f.isOfVisit = false ∧ f.isOnNode = false ∧ f.isDriving = false := by
  induction stack with
  | nil => simp
  | cons f stack ih =>
    obtain ⟨sits, laid⟩ := h
    have rest := ih laid fun hf => idle (List.mem_cons_of_mem _ hf)
    have driven : f.isDriving = false := by
      cases hf : f.isDriving with
      | false => rfl
      | true => exact absurd (List.mem_cons_of_mem _ (List.mem_of_head? (sits.driven hf))) idle
    have visit : f.isOfVisit = false := by
      cases hf : f.isOfVisit with
      | false => rfl
      | true =>
        obtain ⟨r, top⟩ := sits.visit hf
        exact absurd (rest _ (List.mem_of_head? top)).2.2 (by simp [Frame.isDriving])
    refine List.forall_mem_cons.2 ⟨⟨visit, ?_, driven⟩, rest⟩
    rw [← sits.onNode]
    cases stack with
    | nil => rfl
    | cons g stack => exact (rest g List.mem_cons_self).1

/-- **Below a visit there is no other**: no frame of a visit, and no call that was made in one. -/
theorem Laid.below_driving {r : RunId} (h : Laid (.driving r :: stack)) :
    ∀ f ∈ stack, f.isOfVisit = false ∧ f.isOnNode = false := by
  obtain ⟨sits, laid⟩ := h
  cases stack with
  | nil => simp
  | cons g below =>
    obtain rfl : g = .draining := Option.some.inj (sits.driven rfl)
    obtain ⟨queue, laid⟩ := laid
    exact List.forall_mem_cons.2 ⟨⟨rfl, rfl⟩,
      fun f hf => ⟨(laid.no_visit (queue.single rfl) f hf).1, (laid.no_visit (queue.single rfl) f hf).2.1⟩⟩

theorem Laid.drop {above : List Frame} (h : Laid (above ++ stack)) : Laid stack := by
  induction above with
  | nil => exact h
  | cons f above ih => exact ih h.2

theorem Frame.sits_of_isAside (aside : f.isAside) (top : inVisit stack = false)
    (single : f = .draining → .draining ∉ stack) : f.Sits stack := by
  cases f with
  | driving | triggering | following | stepping | asked => cases aside
  | _ => exact ⟨top, nofun, nofun, single⟩

theorem inVisit_append (aside : ∀ f ∈ frames, f.isAside) (top : inVisit stack = false) :
    inVisit (frames ++ stack) = false := by
  cases frames with
  | nil => exact top
  | cons f frames =>
    have own := aside f List.mem_cons_self
    cases f with
    | triggering | following | stepping => cases own
    | _ => rfl

/-- Frames aside from a visit can be put on a stack. -/
theorem Laid.append (h : Laid stack) (top : inVisit stack = false) (aside : ∀ f ∈ frames, f.isAside)
    (single : ∀ fs, .draining :: fs <:+ frames → .draining ∉ fs ++ stack) : Laid (frames ++ stack) := by
  induction frames with
  | nil => exact h
  | cons f frames ih =>
    obtain ⟨own, rest⟩ := List.forall_mem_cons.1 aside
    refine ⟨f.sits_of_isAside own (inVisit_append rest top) ?_,
      ih rest fun fs hs => single fs (hs.trans (List.suffix_cons _ _))⟩
    rintro rfl
    exact single frames (List.suffix_refl _)

theorem Control.sits_of_isAside {c : Control} (aside : c.isAside) (top : inVisit stack = false) :
    c.Sits stack := by
  cases c with
  | work task =>
    cases task with
    | terminate => exact top
    | _ => cases aside
  | ask a =>
    have off : a.isOnNode = false := by simpa [isAside] using aside
    exact top.trans off.symm
  | done | failed => trivial

end

/-! ## Moves in a visit -/

/-- What a visit of a node warns of, as far as the host has no say in it: the tokens that are left in what is
said or asked, and an event that is not known. -/
def Node.warnings (n : Node) : List Warning :=
  match n.body with
  | .dialogue d =>
    Warning.ofText n.id "speaker" d.speaker ++ Warning.ofText n.id "text" d.text ++
      Warning.ofText n.id "character" (d.character.getD "")
  | .choice c => Warning.ofText n.id "question" c.question
  | .trigger t => if Effect.isKnown t.event then [] else [.unknownEvent n.id t.event]
  | _ => []

/-- A character without a name is none. -/
theorem Warning.ofDialogue_eq (node : String) (d : Dialogue) :
    ofDialogue node d = ofText node "speaker" d.speaker ++ ofText node "text" d.text ++
      ofText node "character" (d.character.getD "") := by
  have same : (nonEmpty? d.character).getD "" = d.character.getD "" := by
    cases d.character with
    | none => rfl
    | some name =>
      by_cases empty : name.isEmpty
      · rw [String.isEmpty_iff.1 empty]
        rfl
      · rw [nonEmpty?, Option.filter_some_pos (by simpa using empty)]
  rw [ofDialogue, same]

/-- The warning of the run `r` that the host is told of next. -/
def Control.reported (r : RunId) : Control → List Warning
  | .ask (.report q w _) => if q = r then [w] else []
  | _ => []

/-- The warnings of the run `r` that are still to be told with what comes next: those after the one that
the host is told of, and the one of a trigger whose event has turned out to be unknown. -/
def Control.unreported (r : RunId) (stack : List Frame) : Control → List Warning
  | .ask (.report q _ rest) => if q = r then rest else []
  | .failed (.unknownEvent event) =>
    match stack with
    | .triggering q node _ :: _ => if q = r then [.unknownEvent node.id event] else []
    | _ => []
  | _ => []

/-- Warnings that are due to one run. -/
def dueTo (r : RunId) (ws : List Warning) (q : RunId) : List Warning := if r = q then ws else []

theorem dueTo_nil (r : RunId) : dueTo r [] = fun _ => [] := by
  funext q
  unfold dueTo
  split <;> rfl

/-- A move in a visit.  Of the warnings that are `due` to a run, the first is told of now, and the others
are still to be told of. -/
structure Move.Reports (due : RunId → List Warning) (s : Session) (m : Move) : Prop where
  waits : ∀ q, (m.session.run q).wait = (s.run q).wait
  draining : m.session.draining = s.draining
  warnings : ∀ q, (m.session.run q).warnings = (s.run q).warnings ++ m.control.reported q
  due : ∀ q p stack, m.control.reported q ++ m.control.unreported q (m.frames ++ .driving p :: stack) = due q

/-- What is still to be warned of when the host has answered a call. -/
def Ask.due : (a : Ask) → a.call.Reply → RunId → List Warning
  | .take r node item amount, taken => dueTo r (if taken then [] else [.shortfall node item amount])
  | .report r _ rest, () => dueTo r rest
  | _, _ => fun _ => []

section

variable {s s' : Session} {r : RunId} {due : RunId → List Warning} {m : Move}

/-- Whether nothing is told to the host next, nor an event unknown. -/
def Control.isTacit : Control → Bool
  | .ask (.report _ _ _) | .failed (.unknownEvent _) => false
  | _ => true

theorem Control.reported_of_isTacit {c : Control} (h : c.isTacit) (q : RunId) : c.reported q = [] := by
  unfold reported
  split
  · cases h
  · rfl

theorem Control.unreported_of_isTacit {c : Control} (h : c.isTacit) (q : RunId) (stack : List Frame) :
    c.unreported q stack = [] := by
  unfold unreported
  split
  · cases h
  · cases h
  · rfl

namespace Move.Reports

theorem tacit (h : s.Keeps m.session) (tacit : m.control.isTacit) : m.Reports (fun _ => []) s where
  waits := h.waits
  draining := h.draining
  warnings q := by rw [Control.reported_of_isTacit tacit, h.warnings, List.append_nil]
  due q p stack := by
    rw [Control.reported_of_isTacit tacit, Control.unreported_of_isTacit tacit]
    rfl

theorem after (h : m.Reports due s') (hs : s.Keeps s') : m.Reports due s where
  waits q := (h.waits q).trans (hs.waits q)
  draining := h.draining.trans hs.draining
  warnings q := (h.warnings q).trans (by rw [hs.warnings])
  due := h.due

/-- A fault in a visit that goes on to the run that is driven. -/
theorem failure (h : s.Keeps s') (f : Fault) : (Move.failure s' f).Reports (fun _ => []) s where
  waits := h.waits
  draining := h.draining
  warnings q := by rw [show (Move.failure s' f).session = s' from rfl, h.warnings]; exact (List.append_nil _).symm
  due q p stack := by
    have none : (Control.failed f).unreported q (.driving p :: stack) = [] := by cases f <;> rfl
    exact none

end Move.Reports

namespace Session

variable (s : Session) {r : RunId}

theorem follow_reports (node : Node) (output : Int) (graph : Graph) :
    (s.follow r node output graph).Reports (fun _ => []) s := by
  rw [follow_eq]
  exact .tacit (.setRun (fun _ => rfl) fun _ => rfl) rfl

/-- The warnings that are reported are told of, one after the other. -/
theorem report_reports (lt : r < s.runs.length) (ws : List Warning) {frames : List Frame} :
    (⟨(s.report r ws).session, frames, (s.report r ws).control⟩ : Move).Reports (dueTo r ws) s := by
  cases ws with
  | nil =>
    rw [dueTo_nil]
    exact .tacit (.refl s) rfl
  | cons w ws =>
    refine ⟨fun q => ?_, rfl, fun q => ?_, fun q p stack => ?_⟩
    · show ((s.setRun r (·.warn w)).run q).wait = _
      rw [run_setRun]
      split <;> rfl
    · show ((s.setRun r (·.warn w)).run q).warnings = (s.run q).warnings ++ if r = q then [w] else []
      rw [run_setRun]
      by_cases hq : r = q
      · subst hq
        rw [if_pos ⟨rfl, lt⟩, if_pos rfl]
        rfl
      · rw [if_neg fun h => hq h.1, if_neg hq, List.append_nil]
    · show (if r = q then [w] else []) ++ (if r = q then ws else []) = if r = q then w :: ws else []
      split <;> rfl

theorem applyItem_reports (node : String) (i : ItemChange) {f : Frame} :
    ((s.applyItem r node i).under f).Reports (fun _ => []) s := by
  unfold applyItem
  split <;> exact .tacit (.refl s) rfl

/-- What a trigger does, or that its event is not known. -/
theorem dispatch_reports {node : Node} {t : Trigger} (body : node.body = .trigger t) (graph : Graph) :
    ((s.dispatch r t).under (.triggering r node graph)).Reports (dueTo r node.warnings) s := by
  have kept : s.Keeps (s.dispatch r t).session := by
    unfold dispatch perform
    split
    · split
      case h_2 => split <;> exact .of_runs rfl rfl rfl
      all_goals exact .refl s
    · exact .refl s
  obtain ⟨frames, performs⟩ := dispatch_performs s (q := r) body
  have due : node.warnings = if Effect.isKnown t.event then [] else [.unknownEvent node.id t.event] := by
    simp only [Node.warnings, body]
  rw [due]
  split
  case isTrue known =>
    rw [dueTo_nil]
    refine .tacit kept ?_
    show (s.dispatch r t).control.isTacit
    cases hc : (s.dispatch r t).control with
    | work | done => rfl
    | ask a =>
      rw [hc] at performs
      cases a <;> first | rfl | cases performs
    | failed f =>
      rw [hc] at performs
      cases f with
      | unknownEvent event =>
        obtain ⟨t', body', rfl, unknown⟩ := performs event rfl
        obtain rfl := NodeBody.trigger.inj (body.symm.trans body')
        rw [known] at unknown
        cases unknown
      | _ => rfl
  case isFalse unknown =>
    have fails : s.dispatch r t = .failure s (.unknownEvent t.event) := by
      rw [dispatch, Effect.ofTrigger_of_unknown (by simpa using unknown)]
    rw [fails]
    exact ⟨fun _ => rfl, rfl, fun _ => (List.append_nil _).symm, fun _ _ _ => rfl⟩

theorem check_reports (node : Node) (c : Condition) (graph : Graph) :
    (s.check r node c graph).Reports (fun _ => []) s := by
  unfold check
  split
  · exact s.follow_reports node _ graph
  · exact .tacit (.refl s) rfl
  · exact .tacit (.refl s) rfl

/-- **A visit** warns of what the node is to be warned of. -/
theorem visit_reports (lt : r < s.runs.length) (node : Node) (graph : Graph) :
    (s.visit r node graph).Reports (dueTo r node.warnings) s := by
  have entered : s.Keeps (s.setRun r fun run =>
      { run.count node.kind.word with node := some node.id, activity := .running }) :=
    .setRun (fun _ => rfl) fun _ => rfl
  have lt' : r < (s.setRun r fun run =>
      { run.count node.kind.word with node := some node.id, activity := .running }).runs.length := by simpa using lt
  have plain (tacit : node.warnings = []) {m : Move} (h : m.Reports (fun _ => []) (s.setRun r fun run =>
      { run.count node.kind.word with node := some node.id, activity := .running })) :
      m.Reports (dueTo r node.warnings) s := by
    rw [tacit, dueTo_nil]
    exact h.after entered
  unfold visit
  cases body : node.body with
  | dialogue d =>
    rw [Node.warnings, body]
    dsimp only
    rw [← Warning.ofDialogue_eq]
    exact (report_reports _ lt' _).after entered
  | choice c =>
    rw [Node.warnings, body]
    exact (report_reports _ lt' _).after entered
  | trigger t => exact (dispatch_reports _ body graph).after entered
  | item i => exact plain (by rw [Node.warnings, body]) (applyItem_reports _ _ i)
  | condition c => exact plain (by rw [Node.warnings, body]) (check_reports _ node c graph)
  | image | combat | link | ending => exact plain (by rw [Node.warnings, body]) (.tacit (.refl _) rfl)

theorem respond_reports (node : Node) (graph : Graph) (answer : Value) :
    (s.respond r node graph answer).Reports (fun _ => []) s := by
  unfold respond
  split
  · split
    · dsimp only
      split
      · exact (follow_reports _ _ _ _).after (.setRun (by exact fun _ => rfl) (by exact fun _ => rfl))
      · exact .failure (.setRun (by exact fun _ => rfl) (by exact fun _ => rfl)) _
    · exact .failure (.refl s) _
  · exact follow_reports s _ _ _

theorem resolve_reports (node : Node) (graph : Graph) (outcome : Value) :
    (s.resolve r node graph outcome).Reports (fun _ => []) s := by
  unfold resolve
  split
  · exact follow_reports s _ _ _
  · exact follow_reports s _ _ _
  · exact .failure (.refl s) _

end Session

/-- **The answer to a call** that was made in a visit. -/
theorem Ask.resume_reports (s : Session) {a : Ask} (onNode : a.isOnNode)
    (begun : ∀ r, a.run? = some r → r < s.runs.length) (answer : a.call.Reply) (f : Frame) :
    ((a.resume s answer).under f).Reports (a.due answer) s := by
  cases a with
  | give | world => exact .tacit (.refl s) rfl
  | spawn | remove => exact .tacit (.setRun (fun _ => rfl) fun _ => rfl) rfl
  | take r node item amount =>
    cases answer with
    | true =>
      rw [show Ask.due (.take r node item amount) true = dueTo r [] from rfl, dueTo_nil]
      exact .tacit (.refl s) rfl
    | false => exact s.report_reports (begun r rfl) _
  | report r warning rest => exact s.report_reports (begun r rfl) rest
  | engage | startTimer | cancelTimer | deliver | count | battle | fillIn | dismiss | handOver | announce =>
    cases onNode

/-- **What a visit waited for**, and what is to be warned of if a trigger has failed. -/
theorem Frame.receive_reports (s : Session) {f : Frame} (visit : f.isOfVisit) (result : Result) :
    (f.receive s result).Reports (fun _ => []) s := by
  cases f with
  | triggering r node graph => exact s.follow_reports node _ graph
  | following r node output graph => exact s.follow_reports node output graph
  | stepping step => exact .tacit (.refl s) rfl
  | _ => cases visit

theorem Frame.recover_reports (s : Session) {f : Frame} (visit : f.isOfVisit)
    (begun : ∀ r, f.run? = some r → r < s.runs.length) (fault : Fault) (stack : List Frame) :
    (f.recover s fault).Reports (fun q => (Control.failed fault).unreported q (f :: stack)) s := by
  cases f with
  | triggering r node graph =>
    cases fault with
    | unknownEvent event => exact s.report_reports (begun r rfl) [.unknownEvent node.id event]
    | _ => exact .failure (.refl s) _
  | following | stepping =>
    cases fault <;> exact .failure (.refl s) _
  | _ => cases visit

end

/-! ## Deeds -/

namespace Turn

/-- The run whose wait may be over with the next deed while its timer runs. -/
def losing? (t : Turn) : Option RunId :=
  match t.control, t.stack with
  | .work (.entry e), _ => e.silences?
  | .ask a, _ => a.silences?
  | .done (.stepped _), .driving r :: _ => some r
  | .done _, f :: _ => f.frees?
  | _, _ => none

/-- The warnings that come to be due to a run with a deed: a node is visited, or the host refuses items. -/
def raises (t : Turn) (d : Deed) : RunId → List Warning :=
  match t.control, d with
  | .work (.visit r node _), _ => dueTo r node.warnings
  | _, .reply (.take r node item amount) false => dueTo r [.shortfall node item amount]
  | _, _ => fun _ => []

/-- What a deed is: one of the host, a move in a visit, one aside from visits, or one that leads from node
to node. -/
inductive Passes (t : Turn) (d : Deed) (u : Turn) : Prop
  | host (h : t.Yields d u)
  | visit (popped : List Frame) (p : RunId) (base : List Frame) (m : Move) (due : RunId → List Warning)
      (before : t.stack = popped ++ .driving p :: base) (own : ∀ f ∈ popped, f.isOfVisit)
      (after : u = m.on (.driving p :: base)) (visit : m.IsOfVisit) (reports : m.Reports due t.session)
      (owed : ∀ q, due q = t.control.unreported q t.stack ++ t.raises d q)
  | aside (popped rest : List Frame) (m : Move) (before : t.stack = popped ++ rest)
      (own : ∀ f ∈ popped, f.isAside ∨ f.isDriving) (after : u = m.on rest) (aside : m.Aside t.losing? t.session)
      (top : inVisit rest = false) (calm : t.raises d = fun _ => [])
  | onward (popped pushed rest : List Frame) (before : t.stack = popped ++ rest)
      (after : u.stack = pushed ++ rest) (own : ∀ f ∈ popped ++ pushed, f.isDriving ∨ f = .draining)
      (warnings : ∀ r, (u.session.run r).warnings = (t.session.run r).warnings)
      (waits : ∀ r, (u.session.run r).wait = (t.session.run r).wait)
      (control : ∀ a, u.control ≠ .ask a) (laid : u.IsLaid) (top : inVisit rest = false)
      (calm : t.raises d = fun _ => [])

variable {t u : Turn} {d : Deed} {s : Session} {stack : List Frame}

theorem Passes.of_aside {c : Control} {m : Move} (aside : m.Aside (losing? ⟨s, stack, c⟩) s)
    (top : inVisit stack = false) (calm : raises ⟨s, stack, c⟩ d = fun _ => []) :
    Passes ⟨s, stack, c⟩ d (m.on stack) :=
  .aside [] stack m rfl (fun _ hf => absurd hf List.not_mem_nil) rfl aside top calm

theorem Passes.of_visit {c : Control} {m : Move} {due : RunId → List Warning}
    (top : ∃ p, stack.head? = some (.driving p)) (visit : m.IsOfVisit) (reports : m.Reports due s)
    (owed : ∀ q, due q = c.unreported q stack ++ raises ⟨s, stack, c⟩ d q) :
    Passes ⟨s, stack, c⟩ d (m.on stack) := by
  obtain ⟨p, top⟩ := top
  obtain ⟨base, rfl⟩ := List.head?_eq_some_iff.1 top
  exact .visit [] p base m due rfl (fun _ hf => absurd hf List.not_mem_nil) rfl visit reports owed

/-- From node to node, where no run is warned and no wait changes. -/
theorem Passes.of_onward {c c' : Control} {s' : Session} (popped pushed rest : List Frame)
    (own : ∀ f ∈ popped ++ pushed, f.isDriving ∨ f = .draining) (runs : s'.runs = s.runs)
    (control : ∀ a, c' ≠ .ask a) (laid : IsLaid ⟨s', pushed ++ rest, c'⟩) (top : inVisit rest = false)
    (calm : raises ⟨s, popped ++ rest, c⟩ d = fun _ => []) :
    Passes ⟨s, popped ++ rest, c⟩ d ⟨s', pushed ++ rest, c'⟩ :=
  .onward popped pushed rest rfl rfl own (fun r => by simp only [Session.run, runs])
    (fun r => by simp only [Session.run, runs]) control laid top calm

/-- A run that is driven begins with its job. -/
theorem Passes.drive (r : RunId) (job : Job) (top : stack.head? = some .draining) (laid : Laid stack)
    (draining : .draining ∈ stack → s.draining) :
    Passes ⟨s, stack, .work (.drive r job)⟩ .move ((s.drive r job).on stack) := by
  obtain ⟨base, rfl⟩ := List.head?_eq_some_iff.1 top
  have driven : Laid (.driving r :: .draining :: base) := ⟨⟨rfl, nofun, fun _ => rfl, nofun⟩, laid⟩
  unfold Session.drive
  split
  · refine .of_onward [] [.driving r] (.draining :: base) (by simp [Frame.isDriving]) rfl ?_
      ⟨driven, ?_, fun hf => draining ((List.mem_cons.1 hf).resolve_left nofun)⟩ rfl rfl
    · intro a h
      cases h
    · cases job <;> exact ⟨r, rfl⟩
  · exact .of_aside (.finished (.refl s)) rfl rfl

/-- The queue is no longer worked off. -/
theorem Passes.rest {c c' : Control} {s' : Session} (laid : Laid (.draining :: stack)) (top : inVisit stack = false)
    (runs : s'.runs = s.runs) (past : c'.isOver) (calm : raises ⟨s, .draining :: stack, c⟩ d = fun _ => []) :
    Passes ⟨s, .draining :: stack, c⟩ d ⟨s', stack, c'⟩ := by
  have sits : c'.Sits stack := by
    cases c' with
    | work | ask => cases past
    | done | failed => trivial
  refine .of_onward [.draining] [] stack (by simp) runs ?_
    ⟨laid.2, sits, fun hf => absurd hf (laid.1.single rfl)⟩ top calm
  rintro a rfl
  cases past

/-- The first job of the queue is taken up, or the queue is worked off. -/
theorem Passes.drain (result : Result) (laid : Laid (.draining :: stack)) (draining : s.draining)
    (top : inVisit stack = false) :
    Passes ⟨s, .draining :: stack, .done result⟩ .move (s.drain.on stack) := by
  unfold Session.drain
  split
  · exact .rest laid top rfl rfl rfl
  · refine .of_onward [.draining] [.draining] stack (by simp) rfl ?_ ⟨laid, rfl, fun _ => draining⟩ top rfl
    intro a h
    cases h

/-- A run that is driven comes to rest after a step, or goes on to the next node. -/
theorem Passes.proceed {r : RunId} (step : Step) (lt : r < s.runs.length) (laid : Laid (.driving r :: stack))
    (draining : .draining ∈ stack → s.draining) (top : inVisit stack = false) :
    Passes ⟨s, .driving r :: stack, .done (.stepped step)⟩ .move ((s.proceed r step).on stack) := by
  have settles : Passes ⟨s, .driving r :: stack, .done (.stepped step)⟩ .move
      (((s.settle r step).under (.driving r)).on stack) := by
    rw [Move.on_under]
    exact .of_aside (s.settle_isAside lt (fun _ _ => rfl) step) rfl rfl
  have onward {c : Control} (sits : c.Sits (.driving r :: stack)) (control : ∀ a, c ≠ .ask a) :
      Passes ⟨s, .driving r :: stack, .done (.stepped step)⟩ .move ⟨s, .driving r :: stack, c⟩ :=
    .of_onward [.driving r] [.driving r] stack (by simp [Frame.isDriving]) rfl control
      ⟨laid, sits, fun hf => draining ((List.mem_cons.1 hf).resolve_left nofun)⟩ top rfl
  rcases s.proceed_cases r step with ⟨-, h⟩ | ⟨-, ⟨f, h⟩ | ⟨node, graph, -, -, h⟩ | ⟨-, h⟩⟩
  · rw [h]
    refine .of_onward [.driving r] [] stack (by simp [Frame.isDriving]) rfl ?_ ⟨laid.2, trivial, draining⟩ top rfl
    intro a h
    cases h
  · rw [h]
    exact onward trivial fun a h => by cases h
  · rw [h]
    exact onward ⟨r, rfl⟩ fun a h => by cases h
  · rw [h]
    exact settles

/-- **What a deed is**, on a stack that is laid as it should be. -/
theorem Does.passes (h : t.Does d u) (laid : t.IsLaid) (orderly : t.Orderly) : t.Passes d u := by
  have begun := orderly.control
  have serves := h.serves orderly.ends
  cases h with
  | @work s stack task =>
    have sits := laid.control
    cases task with
    | entry e => exact .of_aside (s.enter_isAside e) sits rfl
    | terminate r phase => exact .of_aside (s.terminate_isAside phase) sits rfl
    | drive r job => exact .drive r job sits laid.stack laid.draining
    | visit r node graph =>
      exact .of_visit sits (s.visit_isOfVisit r node graph) (s.visit_reports (begun r rfl) node graph) fun _ => rfl
    | respond r node graph answer =>
      exact .of_visit sits (s.respond_isOfVisit r node graph answer) (s.respond_reports node graph answer) fun _ => rfl
    | resolve r node graph outcome =>
      exact .of_visit sits (s.resolve_isOfVisit r node graph outcome) (s.resolve_reports node graph outcome) fun _ => rfl
    | follow | dispatch | report | engage => exact sits.elim
  | @receive s frame stack result hn =>
    have stacked := laid.stack
    have sits := stacked.1
    have top : inVisit stack = false := sits.onNode.trans (by cases frame <;> first | rfl | exact absurd rfl (hn _))
    have aside (own : frame.isAside) (plain : frame ≠ .draining)
        (losing : losing? ⟨s, frame :: stack, .done result⟩ = frame.frees?) :
        Passes ⟨s, frame :: stack, .done result⟩ .move ((frame.receive s result).on stack) :=
      .aside [frame] stack _ rfl (fun f hf => .inl (List.mem_singleton.1 hf ▸ own)) rfl
        (losing ▸ frame.receive_isAside s own plain result) top rfl
    have visit (own : frame.isOfVisit) :
        Passes ⟨s, frame :: stack, .done result⟩ .move ((frame.receive s result).on stack) := by
      obtain ⟨p, driven⟩ := sits.visit own
      obtain ⟨base, rfl⟩ := List.head?_eq_some_iff.1 driven
      exact .visit [frame] p base _ _ rfl (fun f hf => List.mem_singleton.1 hf ▸ own) rfl
        (frame.receive_isOfVisit s own result) (frame.receive_reports s own result) fun _ => rfl
    cases frame with
    | draining => exact .drain result stacked (laid.draining List.mem_cons_self) top
    | driving r =>
      cases result with
      | done =>
        exact .aside [.driving r] stack _ rfl (fun f hf => .inr (List.mem_singleton.1 hf ▸ rfl)) rfl
          (.finished (.refl s)) top rfl
      | stepped step =>
        exact .proceed step (orderly.stack _ List.mem_cons_self r rfl) stacked
          (fun hf => laid.draining (List.mem_cons_of_mem _ hf)) top
    | triggering | following | stepping => exact visit rfl
    | asked a => exact absurd rfl (hn a)
    | failing | timing | resuming | ending | announcing | linking | posting =>
      exact aside rfl nofun (by cases result <;> rfl)
  | @recover s frame stack fault hn =>
    obtain ⟨sits, -⟩ := laid.stack
    have top : inVisit stack = false := sits.onNode.trans (by cases frame <;> first | rfl | exact absurd rfl (hn _))
    have aside (own : frame.isAside ∨ frame.isDriving) (plain : frame ≠ .draining) :
        Passes ⟨s, frame :: stack, .failed fault⟩ .move ((frame.recover s fault).on stack) :=
      .aside [frame] stack _ rfl (fun f hf => List.mem_singleton.1 hf ▸ own) rfl
        (frame.recover_isAside s own plain fault) top rfl
    have visit (own : frame.isOfVisit) :
        Passes ⟨s, frame :: stack, .failed fault⟩ .move ((frame.recover s fault).on stack) := by
      obtain ⟨p, driven⟩ := sits.visit own
      obtain ⟨base, rfl⟩ := List.head?_eq_some_iff.1 driven
      exact .visit [frame] p base _ _ rfl (fun f hf => List.mem_singleton.1 hf ▸ own) rfl
        (frame.recover_isOfVisit s own fault)
        (frame.recover_reports s own (fun r => orderly.stack _ List.mem_cons_self r) fault _)
        fun _ => (List.append_nil _).symm
    cases frame with
    | draining => exact .rest laid.stack top rfl rfl rfl
    | driving r => exact aside (.inr rfl) nofun
    | triggering | following | stepping => exact visit rfl
    | asked a => exact absurd rfl (hn a)
    | failing | timing | resuming | ending | announcing | linking | posting => exact aside (.inl rfl) nofun
  | @reply s stack a answer =>
    have sits : inVisit stack = a.isOnNode := laid.control
    cases onNode : a.isOnNode with
    | false =>
      refine .of_aside (a.resume_isAside s onNode answer begun) (sits.trans onNode) ?_
      cases a with
      | take => cases onNode
      | _ => rfl
    | true =>
      cases stack with
      | nil => cases sits.trans onNode
      | cons f stack =>
        have own : f.isOfVisit := sits.trans onNode
        obtain ⟨p, driven⟩ := laid.stack.1.visit own
        obtain ⟨base, rfl⟩ := List.head?_eq_some_iff.1 driven
        have visit := (a.resume_isOnNode s onNode answer).under own
        rw [← Move.on_under]
        refine .visit [f] p base _ _ rfl (fun g hg => List.mem_singleton.1 hg ▸ own) rfl visit
          (a.resume_reports s onNode begun answer f) fun q => ?_
        cases a with
        | give | spawn | remove | world => rfl
        | take r node item amount =>
          cases answer with
          | true => exact congrFun (dueTo_nil r) q
          | false => rfl
        | report => exact (List.append_nil _).symm
        | engage | startTimer | cancelTimer | deliver | count | battle | fillIn | dismiss | handOver
          | announce => cases onNode
  | beginAtRest | beginInside | leave | fail | change =>
    rcases serves with yields | ⟨_, _, _, _, _, _, _, _, _, moved⟩
    · exact .host yields
    · rcases moved with hd | ⟨a, answer, hd⟩ <;> cases hd

/-- A move in a visit leaves the stack laid. -/
theorem IsLaid.visit {p : RunId} {base : List Frame} {m : Move} (laid : Laid (.driving p :: base))
    (draining : .draining ∈ base → m.session.draining) (visit : m.IsOfVisit) :
    (m.on (.driving p :: base)).IsLaid := by
  have below (h : .draining ∈ Frame.driving p :: base) : m.session.draining :=
    draining ((List.mem_cons.1 h).resolve_left nofun)
  cases visit with
  | @plain s c off =>
    refine ⟨laid, ?_, below⟩
    cases c with
    | work => cases off
    | ask a =>
      cases a with
      | count => exact rfl
      | _ => cases off
    | done | failed => trivial
  | @waited s f c own on =>
    have sits : f.Sits (.driving p :: base) := by
      cases f with
      | triggering | following | stepping => exact ⟨rfl, fun _ => ⟨p, rfl⟩, nofun, nofun⟩
      | _ => cases own
    refine ⟨⟨sits, laid⟩, ?_, fun h => below ((List.mem_cons.1 h).resolve_left ?_)⟩
    · cases c with
      | work => cases on
      | ask a => exact (show f.isOfVisit = a.isOnNode from own.trans (show a.isOnNode = true from on).symm)
      | done | failed => trivial
    · rintro rfl
      cases own

/-- A move aside from visits leaves the stack laid. -/
theorem IsLaid.aside {lost : Option RunId} {m : Move} (laid : Laid stack) (top : inVisit stack = false)
    (draining : .draining ∈ stack → s.draining) (aside : m.Aside lost s) : (m.on stack).IsLaid := by
  have single : ∀ fs, .draining :: fs <:+ m.frames → .draining ∉ fs ++ stack := by
    intro fs suffix hf
    rcases aside.queue with ⟨idle, -⟩ | ⟨before, -, gs, frames, idle⟩
    · exact idle (suffix.subset List.mem_cons_self)
    · rw [frames] at suffix
      rcases List.suffix_cons_iff.1 suffix with same | suffix
      · obtain ⟨-, rfl⟩ := List.cons.inj same
        rcases List.mem_append.1 hf with hf | hf
        · exact idle hf
        · rw [draining hf] at before
          cases before
      · exact idle (suffix.subset List.mem_cons_self)
  refine ⟨laid.append top aside.frames single, m.control.sits_of_isAside aside.control
    (inVisit_append aside.frames top), fun hf => ?_⟩
  rcases aside.queue with ⟨idle, same⟩ | ⟨-, after, -⟩
  · exact same.trans (draining ((List.mem_append.1 hf).resolve_left idle))
  · exact after

/-- **Every deed leaves the stack laid.** -/
theorem Does.laid (h : t.Does d u) (ht : t.IsLaid) (orderly : t.Orderly) : u.IsLaid := by
  cases h.passes ht orderly with
  | host yields =>
    obtain ⟨s, stack, c⟩ := t
    obtain ⟨s', stack', c'⟩ := u
    obtain ⟨laid, sits, draining⟩ := ht
    have same : s'.draining = s.draining := congrArg Outline.draining yields.outline
    have shifts : Shifts stack c stack' c' := yields.shifts
    cases shifts with
    | change => exact ⟨laid, sits, fun hf => same.trans (draining hf)⟩
    | beginAtRest => exact ⟨laid, rfl, fun hf => same.trans (draining hf)⟩
    | @beginInside _ a =>
      have own : (Frame.asked a).Sits stack := ⟨sits, nofun, nofun, nofun⟩
      exact ⟨⟨own, laid⟩, rfl, fun hf => same.trans (draining ((List.mem_cons.1 hf).resolve_left nofun))⟩
    | leave =>
      exact ⟨laid.2, laid.1.onNode, fun hf => same.trans (draining (List.mem_cons_of_mem _ hf))⟩
    | fail => exact ⟨laid, trivial, fun hf => same.trans (draining hf)⟩
  | visit popped p base m due before own after visit reports =>
    subst after
    refine .visit (Laid.drop (before ▸ ht.stack)) (fun hf => ?_) visit
    rw [reports.draining]
    exact ht.draining (before ▸ List.mem_append_right _ (List.mem_cons_of_mem _ hf))
  | aside popped rest m before own after aside top =>
    subst after
    exact .aside (Laid.drop (before ▸ ht.stack)) top
      (fun hf => ht.draining (before ▸ List.mem_append_right _ hf)) aside
  | onward _ _ _ _ _ _ _ _ _ laid => exact laid

theorem isLaid_atRest (s : Session) : s.atRest.IsLaid := ⟨trivial, trivial, nofun⟩

end Turn

end Questline

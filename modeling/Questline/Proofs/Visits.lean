import Questline.Proofs.Loading
import Questline.Proofs.Writing

/-!
# The visit of a node

A visit begins nothing.  It asks the host for a thing or two, reports what it has to warn of, and gives
back a step; at most one frame waits for what it does.  Of the flags and files it writes what its node
says, with its first move, and then no more.

* `Ask.isOnNode`, `Frame.isOfVisit`: the calls that are made in a visit, and what waits for them.
* `Move.IsOfVisit`, `Move.IsOnNode`: moves in a visit.
* `Turn.Visits`: a visit is under way, kept by every deed of a host that answers (`Turn.Visits.step`).
* `visit_writes`: what is written in a visit that is over.
-/

namespace Questline

open Json (Value)

/-! ## Moves in a visit -/

/-- Whether a call is made while a frame of the visit waits. -/
def Ask.isOnNode : Ask → Bool
  | .give _ _ | .take _ _ _ _ | .spawn _ _ | .remove _ _ | .world _ | .report _ _ _ => true
  | _ => false

/-- Whether this comes next while a frame of the visit waits: a call, or an outcome. -/
def Control.isOnNode : Control → Bool
  | .ask a => a.isOnNode
  | .done _ | .failed _ => true
  | .work _ => false

/-- Whether this comes next in a visit while no frame waits: items are counted, or there is an
outcome. -/
def Control.isOffNode : Control → Bool
  | .ask (.count _ _ _ _) => true
  | .done _ | .failed _ => true
  | _ => false

/-- Whether a visit waits in a frame. -/
def Frame.isOfVisit : Frame → Bool
  | .triggering _ _ _ | .following _ _ _ _ | .stepping _ => true
  | _ => false

/-- A move while a frame of a visit waits: it begins nothing. -/
structure Move.IsOnNode (m : Move) : Prop where
  frames : m.frames = []
  control : m.control.isOnNode

/-- A move in a visit while no frame waits: one may wait then. -/
inductive Move.IsOfVisit : Move → Prop
  | plain {s : Session} {c : Control} (h : c.isOffNode) : IsOfVisit ⟨s, [], c⟩
  | waited {s : Session} {f : Frame} {c : Control} (hf : f.isOfVisit) (h : c.isOnNode) :
      IsOfVisit ⟨s, [f], c⟩

theorem Move.IsOnNode.under {m : Move} (h : m.IsOnNode) {f : Frame} (hf : f.isOfVisit) :
    (m.under f).IsOfVisit := by
  obtain ⟨s, frames, c⟩ := m
  obtain ⟨rfl, control⟩ := h
  exact .waited hf control

namespace Session

variable (s : Session) (r : RunId)

theorem follow_isOfVisit (node : Node) (output : Int) (graph : Graph) :
    (s.follow r node output graph).IsOfVisit := by
  rw [follow_eq]
  exact .plain rfl

theorem report_isOnNode (warnings : List Warning) : (s.report r warnings).IsOnNode := by
  cases warnings <;> exact ⟨rfl, rfl⟩

theorem dispatch_isOnNode (t : Trigger) : (s.dispatch r t).IsOnNode := by
  unfold dispatch perform
  split
  · split
    case h_2 => split <;> exact ⟨rfl, rfl⟩
    all_goals exact ⟨rfl, rfl⟩
  · exact ⟨rfl, rfl⟩

theorem applyItem_isOnNode (node : String) (i : ItemChange) : (s.applyItem r node i).IsOnNode := by
  unfold applyItem
  split <;> exact ⟨rfl, rfl⟩

theorem visit_isOfVisit (node : Node) (graph : Graph) : (s.visit r node graph).IsOfVisit := by
  simp only [visit]
  split
  · exact (report_isOnNode _ r _).under rfl
  · exact (report_isOnNode _ r _).under rfl
  · exact .plain rfl
  · exact (applyItem_isOnNode _ r _ _).under rfl
  · exact (dispatch_isOnNode _ r _).under rfl
  · unfold check
    split
    · exact follow_isOfVisit _ r _ _ _
    · exact .plain rfl
    · exact .plain rfl
  · exact .plain rfl
  · exact .plain rfl
  · exact .plain rfl

theorem respond_isOfVisit (node : Node) (graph : Graph) (answer : Value) :
    (s.respond r node graph answer).IsOfVisit := by
  unfold respond
  split
  · split
    · dsimp only
      split
      · exact follow_isOfVisit _ r _ _ _
      · exact .plain rfl
    · exact .plain rfl
  · exact follow_isOfVisit _ r _ _ _

theorem resolve_isOfVisit (node : Node) (graph : Graph) (outcome : Value) :
    (s.resolve r node graph outcome).IsOfVisit := by
  unfold resolve
  split
  · exact follow_isOfVisit _ r _ _ _
  · exact follow_isOfVisit _ r _ _ _
  · exact .plain rfl

end Session

theorem Ask.resume_isOnNode (s : Session) {a : Ask} (h : a.isOnNode) (answer : a.call.Reply) :
    (a.resume s answer).IsOnNode := by
  cases a with
  | give | world | spawn | remove => exact ⟨rfl, rfl⟩
  | take r node item amount =>
    simp only [resume]
    split
    · exact ⟨rfl, rfl⟩
    · exact s.report_isOnNode r _
  | report r warning rest => exact s.report_isOnNode r rest
  | engage | startTimer | cancelTimer | deliver | count | battle | fillIn | dismiss | handOver
    | announce => cases h

theorem Frame.receive_isOfVisit (s : Session) {f : Frame} (h : f.isOfVisit) (result : Result) :
    (f.receive s result).IsOfVisit := by
  cases f with
  | triggering r node graph => exact s.follow_isOfVisit r node _ graph
  | following r node output graph => exact s.follow_isOfVisit r node output graph
  | stepping step => exact .plain rfl
  | _ => cases h

theorem Frame.recover_isOfVisit (s : Session) {f : Frame} (h : f.isOfVisit) (fault : Fault) :
    (f.recover s fault).IsOfVisit := by
  cases f with
  | triggering r node graph =>
    simp only [recover]
    split
    · exact (s.report_isOnNode r _).under rfl
    · exact .plain rfl
  | following | stepping => exact .plain rfl
  | _ => cases h

namespace Turn

/-- On top of the stack `base` a node is visited, or its visit is over. -/
inductive Visits (base : List Frame) : Turn → Prop
  | plain {s : Session} {c : Control} (h : c.isOffNode) : Visits base ⟨s, base, c⟩
  | waited {s : Session} {f : Frame} {c : Control} (hf : f.isOfVisit) (h : c.isOnNode) :
      Visits base ⟨s, f :: base, c⟩

variable {base : List Frame} {t u : Turn} {d : Deed}

theorem visits_on {m : Move} (h : m.IsOfVisit) (base : List Frame) : (m.on base).Visits base := by
  cases h with
  | plain h => exact .plain h
  | waited hf h => exact .waited hf h

/-- **Nothing else is begun in a visit**, as long as the host only answers, and no more is written. -/
theorem Visits.step (h : t.Visits base) (allowed : answersUntilBack base t d) (does : t.Does d u) :
    u.Visits base ∧ u.session.store = t.session.store := by
  obtain ⟨away, answering⟩ := allowed
  cases h with
  | @plain s c control =>
    cases does with
    | work => cases control
    | receive | recover => exact absurd ⟨rfl, rfl⟩ away
    | @reply _ _ a answer =>
      cases a with
      | count r node condition graph =>
        exact ⟨visits_on (s.follow_isOfVisit r node _ graph) base, s.follow_store r node _ graph⟩
      | _ => cases control
    | beginAtRest | beginInside | leave | fail | change => cases answering
  | @waited s f c hf control =>
    cases does with
    | work => cases control
    | receive => exact ⟨visits_on (f.receive_isOfVisit s hf _) base, f.receive_store s _⟩
    | recover => exact ⟨visits_on (f.recover_isOfVisit s hf _) base, f.recover_store s _⟩
    | @reply _ _ a answer =>
      have visits := visits_on ((a.resume_isOnNode s control answer).under hf) base
      rw [Move.on_under] at visits
      exact ⟨visits, a.resume_store s answer⟩
    | beginInside | leave | fail | change => cases answering

end Turn

section Visit

variable {base : List Frame} {s : Session} {r : RunId} {n : Node} {g : Graph} {events : List Event}
  {u : Turn}

/-- A visit that has begun writes what the node says with its first move. -/
theorem visits_of_history (h : History (answersUntilBack base) ⟨s, base, .work (.visit r n g)⟩ events u) :
    u = ⟨s, base, .work (.visit r n g)⟩ ∨
      u.Visits base ∧ u.session.store = n.write s.flags s.files := by
  induction h with
  | nil => exact .inl rfl
  | snoc _ allowed does ih =>
    right
    rcases ih with rfl | ⟨visits, store⟩
    · cases does with
      | work =>
        exact ⟨Turn.visits_on (s.visit_isOfVisit r n g) base, s.visit_store r n g⟩
      | beginAtRest past | leave past | change past => cases past
    · obtain ⟨visits, same⟩ := visits.step allowed does
      exact ⟨visits, same.trans store⟩

/-- **What is written in a visit** that is over: what the node writes, and nothing else. -/
theorem visit_writes (h : History (answersUntilBack base) ⟨s, base, .work (.visit r n g)⟩ events u)
    (back : u.IsBack base) : u.session.store = n.write s.flags s.files := by
  rcases visits_of_history h with rfl | ⟨-, store⟩
  · cases back.2
  · exact store

end Visit

end Questline

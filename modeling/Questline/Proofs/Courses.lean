import Questline.Proofs.Encounters
import Questline.Proofs.Standing

/-!
# A course on its own

What is below the queue on the stack is of no account as long as the queue is worked off.  So the course
of a run can be looked at on its own, as if there was nothing below: the queue is worked off, a run is
driven, it fails and is stopped, and the fault goes on.

The host is attentive: it may fail in every call, and come back from inside the calls that give it
a scene.  It delivers nothing meanwhile.

* `attentive`: the host.
* `Turn.Closes`: a run comes to its end.
* `Turn.Underway`: a course, from the queue to its end.
* `Turn.Closes.steps`, `Turn.Underway.steps`: a step leads on.
-/

namespace Questline

open Json (Value)

variable {s s' : Session} {q r : RunId} {stack base : List Frame} {t u v : Turn} {a : Ask} {c : Control}
  {f : Fault} {d : Deed} {N : Turn → Prop}

/-! ## Steps -/

namespace Turn.StepsTo

/-- Where it is the session's move, there is one step. -/
theorem of_move (hn : t.next? = some v) (hv : N v) : t.StepsTo N := by
  rintro u (hu | ⟨d, allowed, does⟩)
  · cases hn.symm.trans hu
    exact hv
  · cases (does.still (ne_move_of_allows allowed)).symm.trans hn

/-- At a call that gives no scene the host answers or fails, or it changes files and flags. -/
theorem of_ask (plain : a.isShowing = false) (reply : ∀ answer, N ((a.resume s answer).on stack))
    (fail : ∀ f, a.mayFail f → N ⟨s, stack, .failed f⟩)
    (change : ∀ files flags, N ⟨{ s with files, flags }, stack, .ask a⟩) :
    StepsTo N ⟨s, stack, .ask a⟩ := by
  rintro u (hu | ⟨d, allowed, does⟩)
  · cases hu
  · cases does with
    | beginAtRest past | leave past => cases past
    | beginInside e => simp [allows, plain] at allowed
    | reply answer => exact reply answer
    | fail f => exact fail f allowed
    | change _ files flags => exact change files flags

/-- Until a turn is over, a step from it is one on top of a stack. -/
theorem upon (h : t.StepsTo N) (away : ¬t.IsBack []) :
    (t.upon base).StepsTo fun u => ∃ v, u = v.upon base ∧ N v := by
  rintro u (hu | ⟨d, allowed, does⟩)
  · rw [next?_upon away, Option.map_eq_some_iff] at hu
    obtain ⟨v, hv, rfl⟩ := hu
    exact ⟨v, rfl, h v (.inl hv)⟩
  · rw [allows_upon] at allowed
    obtain ⟨v, rfl, own⟩ := does.of_upon away
    exact ⟨v, rfl, h v (.inr ⟨d, allowed, own⟩)⟩

theorem mono {N' : Turn → Prop} (h : t.StepsTo N) (wider : ∀ u, N u → N' u) : t.StepsTo N' :=
  fun u hu => wider u (h u hu)

end Turn.StepsTo

/-! ## The host -/

/-- A host that may fail in every call, and answers scenes from inside the calls that give them. -/
def attentive : Habits where
  fails _ := True
  answers _ := True
  delivers := False

theorem Base.eq_nil (h : Base attentive base) : base = [] := by
  cases h with
  | bottom => rfl
  | inside delivers => cases delivers

theorem attentive.allow_of_allows (allowed : t.allows d) : attentive.allow t d := by
  cases d with
  | begin e =>
    obtain ⟨s, stack, c⟩ := t
    cases c with
    | work | done | failed => cases allowed
    | ask a =>
      obtain ⟨scene, own⟩ := Bool.and_eq_true_iff.1 allowed
      have answer : e.isAnswer := by cases e <;> first | rfl | cases own
      cases a with
      | deliver => cases scene
      | _ => exact ⟨scene, trivial, answer⟩
  | fail => exact fun _ _ => trivial
  | move | leave | reply | change => trivial

namespace Turn.Stands

/-- A step of a turn that stands leads to one. -/
theorem steps (ht : t.Stands attentive) : t.StepsTo (Turn.Stands attentive) := by
  rintro u (hu | ⟨d, allowed, does⟩)
  · exact ht.next hu
  · exact does.stands ht (attentive.allow_of_allows allowed)

/-- Whatever is begun above a stack is an answer. -/
theorem isAnswer_of_entry {e : Entry} (ht : Turn.Stands attentive ⟨s, stack, .work (.entry e)⟩)
    (above : stack ≠ []) : e.isAnswer := by
  rcases ht.works with ⟨_, he, base | answer⟩ | ⟨_, _, _, he, -⟩ | ⟨_, control⟩ | ⟨_, _, he⟩
  · exact absurd base.eq_nil above
  · cases he
    exact answer
  · cases he
  · cases control
  · cases he

/-- A run that is driven is the current one, and no other goes on. -/
theorem has_of_driving (ht : Turn.Stands attentive ⟨s, .driving q :: stack, .failed f⟩) :
    ∃ pending graph, s.Has q true pending (s.run q) graph := by
  generalize hs : Frame.driving q :: stack = all at ht
  generalize hu : (⟨s, all, .failed f⟩ : Turn) = u at ht
  cases ht with
  | rest base => cases hu; cases base <;> cases hs
  | delivered | resuming | broken | linked | inside => cases hu; cases hs
  | @onWay _ _ frames _ _ _ _ way above =>
    cases hu
    cases frames with
    | nil => cases hs; exact ⟨_, _, way.has⟩
    | cons frame frames =>
      obtain ⟨rfl, -⟩ := List.cons.inj hs
      cases above _ List.mem_cons_self
  | showing quay opens displays =>
    cases hu
    cases displays with
    | shown => cases hs
  | lost quay opens =>
    cases hu
    cases hs
    obtain ⟨pending, graph, has, -⟩ := opens.has
    exact ⟨pending, graph, has⟩
  | unlinked pier has =>
    cases hu
    cases pier with
    | driving => cases hs; exact ⟨_, _, has⟩
    | linking => cases hs
  | @closing _ _ frames _ _ _ _ _ berth has _ above =>
    cases hu
    cases frames with
    | nil =>
      cases berth with
      | base base => cases base <;> cases hs
      | failing | failed => cases hs
      | driving => cases hs; exact ⟨_, _, has⟩
    | cons frame frames =>
      obtain ⟨rfl, -⟩ := List.cons.inj hs
      cases above _ List.mem_cons_self
  | entering | delivering | drained | taken | settled | handing | filling | refused => cases hu

end Turn.Stands

/-! ## The end of a run -/

/-- A run comes to its end: its timer is cancelled, its figures leave, and its answers are announced.
Where the host fails, it is with no fault of a link. -/
inductive Turn.Closes (q : RunId) : Turn → Prop
  | begun {s : Session} (lt : q < s.runs.length) : Closes q ⟨s, [], .work (.terminate q .stopped)⟩
  | cancelling {s : Session} {timer : TimerHandle} (lt : q < s.runs.length) :
      Closes q ⟨s, [.ending q .stopped], .ask (.cancelTimer timer)⟩
  | cancelled {s : Session} {result : Result} (lt : q < s.runs.length) :
      Closes q ⟨s, [.ending q .stopped], .done result⟩
  | leaving {s : Session} {npc : String} {rest : List String} {completion : Option Callback}
      {ledger : Ledger} (past : (s.run q).isActive = false) :
      Closes q ⟨s, [.announcing completion ledger], .ask (.dismiss q npc rest)⟩
  | left {s : Session} {result : Result} {completion : Option Callback} {ledger : Ledger}
      (past : (s.run q).isActive = false) : Closes q ⟨s, [.announcing completion ledger], .done result⟩
  | announcing {s : Session} {callback : Callback} {ledger : Ledger}
      (past : (s.run q).isActive = false) : Closes q ⟨s, [], .ask (.announce callback ledger)⟩
  | closed {s : Session} (past : (s.run q).isActive = false) : Closes q ⟨s, [], .done .done⟩
  | failed {s : Session} {frame : Frame} {f : Fault} (closing : frame.IsClosing q) (own : f.isLink = false) :
      Closes q ⟨s, [frame], .failed f⟩
  | broken {s : Session} {f : Fault} (own : f.isLink = false) : Closes q ⟨s, [], .failed f⟩

/-- The run `q` comes to its end, and the last fault stays the last one. -/
structure Session.Tends (q : RunId) (s s' : Session) : Prop extends Session.Closes q s s' where
  lastError : s'.lastError = s.lastError

theorem Session.Tends.refl (s : Session) : s.Tends q s := ⟨.refl s, rfl⟩

theorem Session.Tends.change (s : Session) (files : FileTree) (flags : FlagStore) :
    s.Tends q { s with files, flags } :=
  ⟨⟨⟨rfl, rfl, rfl, rfl⟩, fun _ _ => rfl, id⟩, rfl⟩

namespace Session

/-- Where the figures leave, the run is closed. -/
theorem dismiss_ends (past : (s.run q).isActive = false) (npcs : List String)
    (completion : Option Callback) (ledger : Ledger) :
    ((s.dismiss q npcs).on [.announcing completion ledger]).Closes q ∧
      s.Tends q (s.dismiss q npcs).session := by
  refine ⟨?_, (s.dismiss_closes npcs).session, by cases npcs <;> rfl⟩
  cases npcs with
  | nil =>
    refine .left ?_
    have same : ((s.setRun q fun run => { run with npcs := [] }).run q).phase = (s.run q).phase := by
      rw [run_setRun]
      split <;> rfl
    exact (congrArg Phase.isActive same).trans past
  | cons npc rest => exact .leaving past

/-- Where the answers are announced, it is, too. -/
theorem announce_ends (past : (s.run q).isActive = false) (completion : Option Callback)
    (ledger : Ledger) :
    ((s.announce completion ledger).on []).Closes q ∧ s.Tends q (s.announce completion ledger).session := by
  refine ⟨?_, (s.announce_closes completion ledger).session, by cases completion <;> rfl⟩
  cases completion with
  | none => exact .closed past
  | some callback => exact .announcing past

/-- A run is over once its timer is cancelled. -/
theorem close_ends (lt : q < s.runs.length) :
    ((s.close q .stopped).on []).Closes q ∧ s.Tends q (s.close q .stopped).session := by
  have past : ((s.ended q .stopped).run q).isActive = false := congrArg Run.isActive (s.run_ended_self q lt)
  obtain ⟨closes, tends⟩ :=
    dismiss_ends past (s.run q).npcs (s.run q).completion (s.run q).ledger
  have same := (s.close_closes (r := q) .stopped).session
  rw [close_stopped] at same ⊢
  rw [Move.on_under]
  exact ⟨closes, same, tends.lastError⟩

theorem terminate_ends (lt : q < s.runs.length) :
    ((s.terminate q .stopped).on []).Closes q ∧ s.Tends q (s.terminate q .stopped).session := by
  have tends := (s.terminate_closes (r := q) .stopped).session
  rcases s.terminate_cases q .stopped with ⟨w, -, -, h⟩ | ⟨-, h⟩
  · rw [h] at tends ⊢
    exact ⟨.cancelling (Nat.lt_of_lt_of_eq lt tends.length.symm), tends, rfl⟩
  · rw [h]
    exact close_ends lt

end Session

/-- **A step at the end of a run.** -/
theorem Turn.Closes.steps (h : t.Closes q) (away : ¬t.IsBack []) :
    t.StepsTo fun u => u.Closes q ∧ t.session.Tends q u.session := by
  cases h with
  | begun lt => exact .of_move rfl (Session.terminate_ends lt)
  | cancelling lt =>
    exact .of_ask rfl (fun _ => ⟨.cancelled lt, .refl _⟩)
      (fun f own => ⟨.failed rfl (by simpa [Ask.mayFail] using own), .refl _⟩)
      fun files flags => ⟨.cancelling lt, .change _ files flags⟩
  | cancelled lt => exact .of_move rfl (Session.close_ends lt)
  | leaving past =>
    exact .of_ask rfl (fun _ => Session.dismiss_ends past _ _ _)
      (fun f own => ⟨.failed trivial (by simpa [Ask.mayFail] using own), .refl _⟩)
      fun files flags => ⟨.leaving past, .change _ files flags⟩
  | left past => exact .of_move rfl (Session.announce_ends past _ _)
  | announcing past =>
    exact .of_ask rfl (fun _ => ⟨.closed past, .refl _⟩)
      (fun f own => ⟨.broken (by simpa [Ask.mayFail] using own), .refl _⟩)
      fun files flags => ⟨.announcing past, .change _ files flags⟩
  | @failed s frame f closing own =>
    have recovers : (⟨s, [frame], .failed f⟩ : Turn).next? = some ⟨s, [], .failed f⟩ := by
      rw [next?_of_does (.recover closing.not_asked), frame.recover_of_isClosing s closing]
      rfl
    exact .of_move recovers ⟨.broken own, .refl s⟩
  | closed | broken => exact absurd ⟨rfl, rfl⟩ away

/-! ## A course -/

/-- The last fault is `f`, and no other run than `q` goes on. -/
structure Session.Loses (q : RunId) (f : Fault) (s : Session) : Prop where
  lastError : s.lastError = some f
  lt : q < s.runs.length
  others : ∀ p, p < s.runs.length → p ≠ q → (s.run p).isActive = false

/-- If the fault is one of a link, it is the last one, and no run goes on. -/
def Session.Notes (f : Fault) (s : Session) : Prop :=
  f.isLink → s.lastError = some f ∧ ∀ p, p < s.runs.length → (s.run p).isActive = false

theorem Session.Tends.loses (h : s.Tends q s') (loses : s.Loses q f) : s'.Loses q f where
  lastError := h.lastError.trans loses.lastError
  lt := h.length ▸ loses.lt
  others p hp hq := by
    rw [h.others p hq]
    exact loses.others p (h.length ▸ hp) hq

theorem Session.Loses.notes (h : s.Loses q f) (past : (s.run q).isActive = false) : s.Notes f := by
  refine fun _ => ⟨h.lastError, fun p hp => ?_⟩
  by_cases hq : p = q
  · exact hq ▸ past
  · exact h.others p hp hq

theorem Session.Notes.of_own (own : f.isLink = false) : s.Notes f := by
  intro link
  rw [own] at link
  cases link

/-- A course: the queue is worked off, a run is driven or comes to its end with a fault, and the fault
goes on. -/
inductive Turn.Underway : Turn → Prop
  | drained {s : Session} {result : Result} : Underway ⟨s, [.draining], .done result⟩
  | taken {s : Session} {q : RunId} {job : Job} : Underway ⟨s, [.draining], .work (.drive q job)⟩
  | driven (q : RunId) (t : Turn) : Underway (t.upon [.driving q, .draining])
  | failing {q : RunId} {f : Fault} {t : Turn} (closes : t.Closes q) (loses : t.session.Loses q f) :
      Underway (t.upon [.failing f, .draining])
  | failed {s : Session} {f : Fault} (notes : s.Notes f) : Underway ⟨s, [.draining], .failed f⟩
  | ended {s : Session} : Underway ⟨s, [], .done .done⟩
  | broken {s : Session} {f : Fault} (notes : s.Notes f) : Underway ⟨s, [], .failed f⟩

namespace Turn.Underway

theorem drain (s : Session) : (s.drain.on []).Underway := by
  unfold Session.drain
  split
  · exact .ended
  · exact .taken

theorem drive (s : Session) (q : RunId) (job : Job) : ((s.drive q job).on [.draining]).Underway := by
  unfold Session.drive
  split
  · exact .driven q ⟨s, [], .work _⟩
  · exact .drained

theorem proceed (s : Session) (q : RunId) (step : Step) : ((s.proceed q step).on [.draining]).Underway := by
  have under (m : Move) : ((m.under (.driving q)).on [.draining]).Underway := by
    have driven := driven q (m.on [])
    rw [on_upon] at driven
    rwa [Move.on_under]
  rcases s.proceed_cases q step with ⟨-, h⟩ | ⟨-, ⟨f, h⟩ | ⟨node, graph, -, -, h⟩ | ⟨-, h⟩⟩
  · rw [h]
    exact .drained
  all_goals
    rw [h]
    exact under _

/-- A run that is driven fails. -/
theorem recover (loses : { s with lastError := some f }.Loses q f) :
    (((Frame.driving q).recover s f).on [.draining]).Underway := by
  unfold Frame.recover Session.stopIfActive
  dsimp only
  split
  case isTrue => exact failing (t := ⟨_, [], _⟩) (.begun loses.lt) loses
  case isFalse past => exact failing (t := ⟨_, [], _⟩) (.closed (Bool.eq_false_iff.2 past)) loses

/-- **A step of a course.** -/
theorem steps (h : t.Underway) (ht : t.Stands attentive) (away : ¬t.IsBack []) :
    t.StepsTo Turn.Underway := by
  cases h with
  | drained => exact .of_move rfl (drain _)
  | taken => exact .of_move rfl (drive _ _ _)
  | driven q t =>
    by_cases back : t.IsBack []
    · obtain ⟨s, stack, c⟩ := t
      obtain ⟨rfl, past⟩ : stack = [] ∧ c.isOver := back
      cases c with
      | work | ask => cases past
      | done result =>
        cases result with
        | done => exact .of_move rfl .drained
        | stepped step => exact .of_move rfl (proceed s q step)
      | failed f =>
        obtain ⟨pending, graph, has⟩ := Turn.Stands.has_of_driving ht
        exact .of_move rfl (recover ⟨rfl, has.lt, has.others⟩)
    · have steps : t.StepsTo fun _ => True := fun _ _ => trivial
      refine (steps.upon back).mono ?_
      rintro _ ⟨v, rfl, -⟩
      exact .driven q v
  | @failing q f t closes loses =>
    by_cases back : t.IsBack []
    · cases closes with
      | begun | cancelling | announcing | leaving => cases back.2
      | cancelled | left | failed => cases back.1
      | closed past => exact .of_move rfl (.failed (loses.notes past))
      | broken own => exact .of_move rfl (.failed (.of_own own))
    · refine ((closes.steps back).upon back).mono ?_
      rintro _ ⟨v, rfl, closes, tends⟩
      exact .failing closes (tends.loses loses)
  | failed notes => exact .of_move rfl (.broken notes)
  | ended | broken => exact absurd ⟨rfl, rfl⟩ away

end Turn.Underway

end Questline

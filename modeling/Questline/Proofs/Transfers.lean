import Questline.Proofs.Courses
import Questline.Proofs.Deliveries
import Questline.Proofs.Sitting

/-!
# Links that wait, and links that do not

When a link is taken, the answers so far are handed over, and what comes back may be a write.  If the write
is over, the link is taken at once, while the run is driven.  If it is under way, the run waits; the
queue is worked off, and when the end of the write is delivered, the link is taken from there.

So the two find different things below them on the stack, and a run in a different phase.  A fault
before the target is entered reaches the frame that drives the run in the one case, and the frame of
the link in the other.  One wait more has been numbered.  Yet the host comes upon the same calls, with
the numbers that follow, and in the end the sessions are the same.  Only the fault of a link is not
raised where the write was waited for.

* `Turn.idle`: whether the queue is worked off is of no account at the end of a run.
* `Session.aside`: the session while a write is waited for.
* `InStep`: the two ways, at the same point.
* `Turn.Agrees`, `links_agree`: both ways lead to the same.
-/

namespace Questline

open Json (Value)

variable {s s' : Session} {q r : RunId} {stack base below : List Frame} {t t' u u' : Turn} {c : Control}
  {f : Fault} {g g₀ : Graph} {link : Link} {writes : List (Ticket × WriteHandle)}

/-! ## The queue at the end of a run -/

/-- The session in which the queue is not worked off. -/
def Session.idle (s : Session) : Session := { s with draining := false }

/-- The move in which the queue is not worked off. -/
def Move.idle (m : Move) : Move := { m with session := m.session.idle }

/-- The turn in which the queue is not worked off. -/
def Turn.idle (t : Turn) : Turn := { t with session := t.session.idle }

namespace Session

theorem dismiss_idle (npcs : List String) : s.idle.dismiss q npcs = (s.dismiss q npcs).idle := by
  cases npcs <;> rfl

theorem announce_idle (completion : Option Callback) (ledger : Ledger) :
    s.idle.announce completion ledger = (s.announce completion ledger).idle := by
  cases completion <;> rfl

theorem close_idle : s.idle.close q .stopped = (s.close q .stopped).idle := by
  have leaves : (s.ended q .stopped).idle.dismiss q (s.run q).npcs = _ := dismiss_idle (s.run q).npcs
  rw [close_stopped, close_stopped]
  exact congrArg (Move.under · (.announcing (s.run q).completion (s.run q).ledger)) leaves

theorem terminate_idle : s.idle.terminate q .stopped = (s.terminate q .stopped).idle := by
  have same : s.idle.run q = s.run q := rfl
  unfold terminate withoutTimer
  dsimp only
  rw [same, close_idle]
  cases (s.run q).wait with
  | none => rfl
  | some w =>
    dsimp only
    split <;> rfl

end Session

namespace Turn

/-- A call at the end of a run is answered no matter whether the queue is worked off. -/
theorem Closes.resume_idle {a : Ask} (h : Closes q ⟨s, stack, .ask a⟩) (s : Session)
    (answer : a.call.Reply) : a.resume s.idle answer = (a.resume s answer).idle := by
  generalize hu : (⟨_, stack, .ask a⟩ : Turn) = u at h
  cases h with
  | cancelling | announcing => cases hu; rfl
  | leaving => cases hu; exact Session.dismiss_idle _
  | begun | cancelled | left | closed | failed | broken => cases hu

theorem Closes.next?_idle (h : t.Closes q) : t.idle.next? = t.next?.map Turn.idle := by
  cases h with
  | begun => exact congrArg some (congrArg (Move.on · []) Session.terminate_idle)
  | cancelled => exact congrArg some (congrArg (Move.on · []) Session.close_idle)
  | left => exact congrArg some (congrArg (Move.on · []) (Session.announce_idle _ _))
  | @failed s frame f closing =>
    have recovers (s : Session) : (⟨s, [frame], .failed f⟩ : Turn).next? = some ⟨s, [], .failed f⟩ := by
      rw [next?_of_does (.recover closing.not_asked), frame.recover_of_isClosing s closing]
      rfl
    rw [recovers]
    exact recovers s.idle
  | cancelling | leaving | announcing | closed | broken => rfl

/-- **Whether the queue is worked off** is of no account at the end of a run. -/
theorem Closes.ignores (h : t.Closes q) : Ignores Turn.idle t where
  stack := rfl
  control := rfl
  waits _ _ := rfl
  next := h.next?_idle
  does {d u} host does := by
    cases does with
    | work | receive | recover => exact absurd rfl host
    | beginAtRest past e => exact .beginAtRest past e
    | beginInside e => exact .beginInside e
    | leave past => exact .leave past
    | @reply s stack a answer =>
      have replies : Does ⟨s.idle, stack, .ask a⟩ (.reply a answer) _ := .reply answer
      rw [h.resume_idle] at replies
      exact replies
    | fail f => exact .fail f
    | change control files flags => exact .change control files flags
  does' {d u'} host does := by
    obtain ⟨s, stack, c⟩ := t
    generalize ht : Turn.idle ⟨s, stack, c⟩ = t' at does
    cases does with
    | work | receive | recover => exact absurd rfl host
    | beginAtRest past e => cases ht; exact ⟨_, rfl, .beginAtRest past e⟩
    | beginInside e => cases ht; exact ⟨_, rfl, .beginInside e⟩
    | leave past => cases ht; exact ⟨_, rfl, .leave past⟩
    | reply answer =>
      cases ht
      refine ⟨_, ?_, .reply answer⟩
      rw [h.resume_idle]
      rfl
    | fail f => cases ht; exact ⟨_, rfl, .fail f⟩
    | change control files flags => cases ht; exact ⟨_, rfl, .change control files flags⟩

end Turn

/-! ## Aside -/

/-- The session while the run `r` waits for a write: the run is suspended, and the queue is worked off. -/
def Session.aside (r : RunId) (s : Session) : Session :=
  { s.setRun r fun run =>
      { run with phase := .suspended, activity := WaitKind.link.activity } with draining := false }

/-- The session once a run has entered a graph to which it was linked. -/
def Session.entered (r : RunId) (g : Graph) (s : Session) : Session :=
  { s.setRun r fun run =>
      { run with script := g.id, node := none, phase := .running, activity := .running } with
    graph := some g
    pending := [(r, .enter g)]
    draining := true }

namespace Session

theorem install_of_onWay (way : s.OnWay r g₀) (g : Graph) : s.install r g = .finished (s.entered r g) := by
  simp [install, enqueue, entered, setRun, way.has.draining_eq, way.has.pending_eq]

theorem install_aside (pending : s.pending = []) (g : Graph) :
    (s.aside r).install r g = (Move.finished (s.entered r g)).under .draining := by
  simp [install, enqueue, entered, aside, setRun, pending, List.modify_modify_eq, Function.comp_def]

theorem close_aside (lt : r < s.runs.length) :
    (s.aside r).close r .stopped = (s.close r .stopped).idle := by
  have stops : (s.aside r).ended r .stopped = (s.ended r .stopped).idle := by
    simp only [ended, aside, idle, setRun, List.modify_modify_eq]
    rfl
  have same : (s.aside r).run r =
      { s.run r with phase := .suspended, activity := WaitKind.link.activity } := run_setRun_self lt
  rw [close_stopped, close_stopped, stops, same]
  exact congrArg (Move.under · (.announcing (s.run r).completion (s.run r).ledger)) (dismiss_idle _)

end Session

/-- A run that goes on and has no timer is stopped in two moves. -/
theorem Turn.ComesTo.stop (active : (s.run r).isActive) (free : (s.run r).wait = none)
    (stack : List Frame) :
    Turn.ComesTo base ((s.stopIfActive r).on stack) ((s.close r .stopped).on stack) := by
  have ends : s.terminate r .stopped = s.close r .stopped :=
    s.withoutTimer_of_untimed r (fun w hw => by cases free.symm.trans hw) _ _
  rw [Session.stopIfActive, if_pos active, ← ends]
  exact .single (fun back => Bool.noConfusion back.2) rfl

/-! ## The two ways -/

/-- Both turns are at the end in the same session, but for the numbers of waits and the writes that are
under way.  Only the fault of a link is not raised in the second. -/
structure Turn.EndsAs (u u' : Turn) : Prop where
  session : ∃ writes, u'.session = u.session.later writes
  control : u'.control = u.control ∨ u'.control = .done .done ∧ ∃ f, u.control = .failed (.link f)

/-- A link that was taken at once, on top of `base`, and one that waited for its write, on top of `below`:
the target is to be filled in, the course goes on in it, the run comes to its end since there is none,
or all is over. -/
inductive InStep (r : RunId) (base below : List Frame) : Turn → Turn → Prop
  | filling {s : Session} {g₀ g : Graph} {writes : List (Ticket × WriteHandle)} (way : s.OnWay r g₀)
      (whole : g.IsWhole) :
      InStep r base below ⟨s, .driving r :: .draining :: base, .ask (.fillIn r g)⟩
        ⟨(s.aside r).later writes, .linking r :: below, .ask (.fillIn r g)⟩
  | course {t : Turn} {writes : List (Ticket × WriteHandle)} (stands : t.Stands attentive)
      (underway : t.Underway) (lt : r < t.session.runs.length) (away : ¬t.IsBack []) :
      InStep r base below (t.upon base) ((t.later writes).upon (.linking r :: below))
  | closing {t : Turn} {f : LinkFault} {writes : List (Ticket × WriteHandle)} (closes : t.Closes r)
      (pending : t.session.pending = []) (away : ¬t.IsBack []) :
      InStep r base below (t.upon (.failing (.link f) :: .draining :: base))
        ((t.idle.later writes).upon below)
  | ended {u u' : Turn} (back : u.IsBack base) (back' : u'.IsBack below) (ends : u.EndsAs u') :
      InStep r base below u u'

/-- The fault of a link that is noted stops nothing more. -/
theorem Session.Notes.taken_up {f : LinkFault} (notes : s.Notes (.link f)) (lt : r < s.runs.length) :
    (Frame.linking r).recover s (.link f) = .finished s := by
  obtain ⟨last, past⟩ := notes rfl
  have same : { s with lastError := some (.link f) } = s := by rw [← last]
  simp only [Frame.recover, same, Session.stopIfActive, past r lt, Bool.false_eq_true, if_false]

/-- Two turns come to turns at the same point. -/
def Beside (r : RunId) (base below : List Frame) : Turn → Turn → Prop :=
  Nears (InStep r base below) base below

namespace Beside

/-- Once a course is over, the fault of a link is taken up. -/
theorem course (stands : t.Stands attentive) (underway : t.Underway) (lt : r < t.session.runs.length) :
    Beside r base below (t.upon base) ((t.later writes).upon (.linking r :: below)) := by
  by_cases back : t.IsBack []
  · have away : ¬((t.later writes).upon (.linking r :: below)).IsBack below := Turn.not_isBack_upon_cons _
    have ends {s : Session} {c c' : Control} {u' : Turn} (hn : u' = ⟨s.later writes, below, c'⟩)
        (past : c.isOver) (past' : c'.isOver)
        (same : c' = c ∨ c' = .done .done ∧ ∃ f, c = .failed (.link f)) :
        InStep r base below ⟨s, base, c⟩ u' := by
      subst hn
      exact .ended ⟨rfl, past⟩ ⟨rfl, past'⟩ ⟨⟨writes, rfl⟩, same⟩
    cases underway with
    | drained | failed => cases back.1
    | taken => cases back.2
    | driven | failing => cases (List.append_eq_nil_iff.1 back.1).2
    | ended => exact ⟨_, _, .refl _, .single away rfl, ends rfl rfl rfl (.inl rfl)⟩
    | @broken s f notes =>
      cases f with
      | link f =>
        -- It was noted in the frame that drove the run, and the run was stopped there.
        have recovers : (Frame.linking r).recover (s.later writes) (.link f) =
            ((Frame.linking r).recover s (.link f)).later writes := Frame.recover_later (.linking r) _
        have taken : ((Frame.linking r).recover (s.later writes) (.link f)).on below =
            ⟨s.later writes, below, .done .done⟩ := by
          rw [recovers, notes.taken_up lt]
          rfl
        exact ⟨_, _, .refl _, .single away rfl, ends taken rfl rfl (.inr ⟨rfl, f, rfl⟩)⟩
      | _ => exact ⟨_, _, .refl _, .single away rfl, ends rfl rfl rfl (.inl rfl)⟩
  · exact ⟨_, _, .refl _, .refl _, .course stands underway lt back⟩

/-- Once the run is at its end, its fault goes on in the one case only. -/
theorem closing {f : LinkFault} (closes : t.Closes r) (pending : t.session.pending = []) :
    Beside r base below (t.upon (.failing (.link f) :: .draining :: base))
      ((t.idle.later writes).upon below) := by
  by_cases back : t.IsBack []
  · -- Below is the queue, which is dropped, in the first case only.
    have fails {s : Session} {c : Control} {f' : Fault} (empty : s.pending = [])
        (hn : Turn.next? ⟨s, .failing (.link f) :: .draining :: base, c⟩ =
          some ⟨s, .draining :: base, .failed f'⟩) :
        Turn.ComesTo base ⟨s, .failing (.link f) :: .draining :: base, c⟩ ⟨s.idle, base, .failed f'⟩ := by
      have empties : { s with pending := [], draining := false } = s.idle := by
        rw [← empty]
        rfl
      refine .head (Turn.not_isBack_upon_cons (t := ⟨s, [.failing (.link f)], c⟩) .draining) hn
        (.single (Turn.not_isBack_upon_cons (t := ⟨s, [], .failed f'⟩) .draining) ?_)
      exact congrArg (fun s => some (⟨s, base, .failed f'⟩ : Turn)) empties
    cases closes with
    | begun | cancelling | announcing | leaving => cases back.2
    | cancelled | left | failed => cases back.1
    | closed =>
      exact ⟨_, _, fails pending rfl, .refl _, .ended ⟨rfl, rfl⟩ ⟨rfl, rfl⟩ ⟨⟨_, rfl⟩, .inr ⟨rfl, f, rfl⟩⟩⟩
    | broken =>
      exact ⟨_, _, fails pending rfl, .refl _, .ended ⟨rfl, rfl⟩ ⟨rfl, rfl⟩ ⟨⟨_, rfl⟩, .inl rfl⟩⟩
  · exact ⟨_, _, .refl _, .refl _, .closing closes pending back⟩

/-- Where the target is entered. -/
theorem install (way : s.OnWay r g₀) (whole : g.IsWhole) :
    Beside r base below ((s.install r g).on (.driving r :: .draining :: base))
      ((((s.aside r).later writes).install r g).on (.linking r :: below)) := by
  have stands := Session.install_stands (h := attentive) (.driving (.base .bottom)) way.has way.wait whole
  rw [Session.install_later, Session.install_aside way.has.pending_eq, Move.later_under, Move.on_under]
  rw [Session.install_of_onWay way] at stands ⊢
  have lt : r < (s.entered r g).runs.length := by
    simpa [Session.entered] using way.has.lt
  let entered : Turn := ⟨s.entered r g, [.draining], .done .done⟩
  obtain ⟨T, T', comes, comes', step⟩ : Beside r base below (entered.upon base)
      ((entered.later writes).upon (.linking r :: below)) := course (stands.next rfl) .drained lt
  refine ⟨T, T', .head ?_ rfl comes, comes', step⟩
  exact Turn.not_isBack_upon_cons (t := ⟨s.entered r g, [.driving r], .done .done⟩) .draining

/-- Where there is no target. -/
theorem fails (way : s.OnWay r g₀) (f : LinkFault) :
    Beside r base below ⟨s, .driving r :: .draining :: base, .failed (.link f)⟩
      ⟨(s.aside r).later writes, .linking r :: below, .failed (.link f)⟩ := by
  -- The frame that drives the run and the frame of the link do the same: they note the fault, and stop
  -- the run.  In the one it is running, in the other suspended, but there is no timer in either.
  let lost : Session := { s with lastError := some (.link f) }
  obtain ⟨closes, tends⟩ := lost.close_ends way.has.lt
  let closed : Turn := (lost.close r .stopped).on []
  obtain ⟨T, T', comes, comes', step⟩ : Beside r base below
      (closed.upon (.failing (.link f) :: .draining :: base)) ((closed.idle.later writes).upon below) :=
    closing closes (tends.pending.trans way.has.pending_eq)
  have free : (lost.run r).wait = none := way.wait
  have aside : (lost.aside r).run r = _ := Session.run_setRun_self way.has.lt
  have active' : (((lost.aside r).later writes).run r).isActive := by
    rw [Session.run_later, aside]
    rfl
  have free' : (((lost.aside r).later writes).run r).wait = none := by
    rw [Session.run_later, aside]
    exact congrArg (Option.map Wait.later) free
  have stops : Turn.ComesTo base ((lost.stopIfActive r).on (.failing (.link f) :: .draining :: base))
      ((lost.close r .stopped).on (.failing (.link f) :: .draining :: base)) :=
    .stop (s := lost) way.isActive free _
  have stops' : Turn.ComesTo below ((((lost.aside r).later writes).stopIfActive r).on below)
      ((((lost.aside r).later writes).close r .stopped).on below) := .stop active' free' below
  rw [Session.close_later, Session.close_aside (s := lost) way.has.lt] at stops'
  have idle : ((((lost.close r .stopped).idle).on []).later writes).upon below =
      ((lost.close r .stopped).idle.later writes).on below := by
    rw [Move.later_on, Turn.on_upon]
    rfl
  rw [Turn.on_upon] at comes
  rw [← idle] at stops'
  refine ⟨T, T', .head ?_ ?_ (stops.trans comes), .head ?_ ?_ (stops'.trans comes'), step⟩
  · exact Turn.not_isBack_upon_cons (t := ⟨s, [.driving r], .failed (.link f)⟩) .draining
  · exact congrArg some (Move.on_under _ _ _)
  · exact Turn.not_isBack_upon_cons (t := ⟨(s.aside r).later writes, [], .failed (.link f)⟩) (.linking r)
  · rfl

/-- **After the write**, the target is read in both cases. -/
theorem afterWrite (way : s.OnWay r g₀) (loads : Library.loadsWell s.files s.library link.target)
    (outcome : WriteOutcome) :
    Beside r base below ((s.afterWrite r link outcome).on (.driving r :: .draining :: base))
      ((((s.aside r).later writes).afterWrite r link outcome).on (.linking r :: below)) := by
  cases outcome with
  | failed | cancelled => exact fails way _
  | written =>
    have files : ((s.aside r).later writes).files = s.files := rfl
    have library : ((s.aside r).later writes).library = s.library := rfl
    rw [Session.afterWrite, Session.afterWrite]
    unfold Session.loadTarget
    rw [files, library]
    unfold Library.loadsWell at loads
    generalize hl : Library.load s.files s.library link.target = loaded at loads ⊢
    cases loaded with
    | ok g =>
      dsimp only
      have whole := Graph.isWhole_of_load hl
      split
      · exact ⟨_, _, .refl _, .refl _, .filling way whole⟩
      · exact install way whole
    | error f =>
      cases f with
      | data f => exact fails way _
      | _ => cases loads

end Beside

/-! ## Step by step -/

theorem Turn.Underway.stack_ne_nil (h : t.Underway) (away : ¬t.IsBack []) : t.stack ≠ [] := by
  cases h with
  | drained | taken | failed => exact List.cons_ne_nil _ _
  | driven | failing => exact List.append_ne_nil_of_right_ne_nil _ (List.cons_ne_nil _ _)
  | ended | broken => exact absurd ⟨rfl, rfl⟩ away

theorem Turn.Underway.isAnswer_of_entry (h : t.Underway) (stands : t.Stands attentive)
    (away : ¬t.IsBack []) (e : Entry) (hc : t.control = .work (.entry e)) : e.isAnswer := by
  obtain ⟨s, stack, c⟩ := t
  subst hc
  exact stands.isAnswer_of_entry (h.stack_ne_nil away)

theorem Turn.Closes.not_entry (h : t.Closes q) (e : Entry) (hc : t.control = .work (.entry e)) :
    e.isAnswer := by
  cases h <;> cases hc

theorem Turn.stepsTo_ages (t : Turn) : t.StepsTo fun u => t.session.Ages u.session := by
  rintro u (hu | ⟨d, -, does⟩)
  · exact (does_of_next? hu).ages
  · exact does.ages

theorem Nears.flip {R : Turn → Turn → Prop} (h : Nears R base below t t') :
    Nears (fun u' u => R u u') below base t' t := by
  obtain ⟨T, T', comes, comes', rel⟩ := h
  exact ⟨T', T, comes', comes, rel⟩

namespace InStep

/-- Neither way is over before the other, and they end in the same. -/
theorem away_or_back (h : InStep r base below t t') :
    ¬t.IsBack base ∧ ¬t'.IsBack below ∨ t.IsBack base ∧ t'.IsBack below ∧ t.EndsAs t' := by
  cases h with
  | filling => exact .inl ⟨fun back => Bool.noConfusion back.2, fun back => Bool.noConfusion back.2⟩
  | course _ _ _ away =>
    exact .inl ⟨fun back => away (Turn.isBack_upon.1 back), Turn.not_isBack_upon_cons _⟩
  | @closing t f writes closes pending away =>
    have longer : ¬((t.upon [.failing (.link f)]).upon (.draining :: base)).IsBack base :=
      Turn.not_isBack_upon_cons _
    rw [Turn.upon_upon] at longer
    refine .inl ⟨longer, fun back => away ?_⟩
    exact closes.ignores.isBack.1 (Turn.isBack_later.1 (Turn.isBack_upon.1 back))
  | ended back back' ends => exact .inr ⟨back, back', ends⟩

theorem isBack_iff (h : InStep r base below t t') : t.IsBack base ↔ t'.IsBack below := by
  rcases h.away_or_back with ⟨away, away'⟩ | ⟨back, back', -⟩
  · exact ⟨fun back => absurd back away, fun back' => absurd back' away'⟩
  · exact ⟨fun _ => back', fun _ => back⟩

theorem endsAs (h : InStep r base below t t') (back : t.IsBack base) : t.EndsAs t' := by
  rcases h.away_or_back with ⟨away, -⟩ | ⟨-, -, ends⟩
  · exact absurd back away
  · exact ends

/-- What comes of a step of a course. -/
theorem course_steps (stands : t.Stands attentive) (underway : t.Underway)
    (lt : r < t.session.runs.length) (away : ¬t.IsBack []) :
    t.StepsTo fun u => ∀ writes,
      Beside r base below (u.upon base) ((u.later writes).upon (.linking r :: below)) := by
  intro u hu writes
  have ages : t.session.Ages u.session := t.stepsTo_ages u hu
  exact .course (stands.steps u hu) (underway.steps stands away u hu) (Nat.lt_of_lt_of_le lt ages.length_le)

/-- What comes of a step at the end of a run. -/
theorem closing_steps (closes : t.Closes r) (pending : t.session.pending = []) (away : ¬t.IsBack [])
    (f : LinkFault) :
    t.StepsTo fun u => ∀ writes,
      Beside r base below (u.upon (.failing (.link f) :: .draining :: base))
        ((u.idle.later writes).upon below) := by
  intro u hu writes
  obtain ⟨closes, tends⟩ := closes.steps away u hu
  exact .closing closes (tends.pending.trans pending)

/-- **Whatever happens where the link is taken at once** happens where it waits. -/
theorem follows (h : InStep r base below t t') (away : ¬t.IsBack base) :
    Turn.Follows (fun x x' => x.later = x') (Beside r base below) t t' := by
  cases h with
  | filling way whole =>
    refine ⟨fun u hu => (by cases hu), fun d u allowed does => ?_⟩
    cases does with
    | beginInside | fail => cases allowed
    | reply table =>
      exact ⟨.reply _ table, _, rfl, rfl, .reply table, .install way (whole.fill table)⟩
    | change _ files flags =>
      exact ⟨.change files flags, _, rfl, rfl, .change rfl files flags, _, _, .refl _, .refl _,
        .filling (way.change files flags) whole⟩
  | course stands underway lt away' =>
    exact Turn.follows_later (f := fun t => t) .id away' (underway.isAnswer_of_entry stands away')
      (course_steps stands underway lt away')
  | @closing t f writes closes pending away' =>
    exact Turn.follows_later closes.ignores away' closes.not_entry (closing_steps closes pending away' f)
  | ended back => exact absurd back away

/-- **And the other way round.** -/
theorem follows_back (h : InStep r base below t t') (away : ¬t'.IsBack below) :
    Turn.Follows (fun x' x => x' = x.later)
      (Nears (fun u' u => InStep r base below u u') below base) t' t := by
  cases h with
  | filling way whole =>
    refine ⟨fun u hu => (by cases hu), fun d u allowed does => ?_⟩
    cases does with
    | beginInside | fail => cases allowed
    | reply table =>
      exact ⟨.reply _ table, _, rfl, rfl, .reply table, (Beside.install way (whole.fill table)).flip⟩
    | change _ files flags =>
      exact ⟨.change files flags, _, rfl, rfl, .change rfl files flags, _, _, .refl _, .refl _,
        .filling (way.change files flags) whole⟩
  | course stands underway lt away' =>
    exact Turn.later_follows (f := fun t => t) .id away' (underway.isAnswer_of_entry stands away')
      ((course_steps stands underway lt away').mono fun _ near writes => (near writes).flip)
  | @closing t f writes closes pending away' =>
    exact Turn.later_follows closes.ignores away' closes.not_entry
      ((closing_steps closes pending away' f).mono fun _ near writes => (near writes).flip)
  | ended _ back' => exact absurd back' away

end InStep

/-! ## All the way -/

/-- Whatever the host comes upon on its way from the one turn, it comes upon on its way from the other,
with the numbers that follow, and the other way round.  Where one is over, so is the other, and they end
in the same. -/
structure Turn.Agrees (base below : List Frame) (t t' : Turn) : Prop where
  there : ∀ {log u}, t.Encounters base log u →
    ∃ u', t'.Encounters below (log.map Encounter.later) u' ∧
      (u.IsBack base → u'.IsBack below ∧ u.EndsAs u')
  back : ∀ {log' u'}, t'.Encounters below log' u' →
    ∃ log u, log' = log.map Encounter.later ∧ t.Encounters base log u ∧
      (u'.IsBack below → u.IsBack base ∧ u.EndsAs u')

theorem Beside.agrees (h : Beside r base below t t') : t.Agrees base below t' where
  there {log u} along := by
    obtain ⟨log', u', alike, along', T, T', comes, comes', step⟩ :=
      along.follow (fun step away => ⟨fun back => away (step.isBack_iff.2 back), step.follows away⟩) h
    obtain rfl : log.map Encounter.later = log' := by
      rw [← List.forall₂_eq_eq_eq]
      exact List.forall₂_map_left_iff.2 alike
    refine ⟨T', along'.then_comes comes', fun back => ?_⟩
    obtain rfl := comes.eq_of_isBack back
    exact ⟨step.isBack_iff.1 back, step.endsAs back⟩
  back {log' u'} along := by
    obtain ⟨log, u, alike, along', T', T, comes', comes, step⟩ :=
      along.follow (fun step away => ⟨fun back => away (step.isBack_iff.1 back), step.follows_back away⟩)
        h.flip
    obtain rfl : log' = log.map Encounter.later := by
      rw [← List.forall₂_eq_eq_eq]
      exact List.forall₂_map_right_iff.2 alike
    refine ⟨log, T, rfl, along'.then_comes comes, fun back' => ?_⟩
    obtain rfl := comes'.eq_of_isBack back'
    have back := step.isBack_iff.2 back'
    exact ⟨back, step.endsAs back⟩

/-! ## A write that is waited for -/

/-- What happens until the end of a write is handed back to its link: the session goes on, the write
comes to its end, and the host comes back with it, from inside the call that hands it over or later.
Nothing else is begun, and no file and no flag changes. -/
def betweenWrite (ticket : Ticket) (d : Delivery) (t : Turn) : Deed → Prop
  | .move => ∀ d', t.control ≠ .work (.entry (.written d'))
  | .begin e => e = .settle ticket d.outcome ∨ e = .written d
  | .leave => True
  | .reply a _ => ∃ d', a = .deliver d'
  | .fail _ | .change _ _ => False

/-- Nothing is under way but deliveries, and a link that went on after its write. -/
def Frame.isLull : Frame → Bool
  | .linking _ | .posting _ | .asked (.deliver _) => true
  | _ => false

/-- Nothing is begun but the end of a write, and nothing is asked for but to deliver it. -/
def Control.isLull : Control → Bool
  | .done _ | .ask (.deliver _) | .work (.entry (.settle _ _)) | .work (.entry (.written _)) => true
  | _ => false

/-- Of the session nothing has changed but the writes that are under way. -/
structure Turn.Lulls (s : Session) (t : Turn) : Prop where
  session : ∃ writes, t.session = { s with writes }
  frames : ∀ f ∈ t.stack, f.isLull
  control : t.control.isLull

theorem Quay.isLull {h : Habits} (quay : Quay h r stack) : ∀ f ∈ stack, f.isLull := by
  have base {stack : List Frame} (base : Base h stack) : ∀ f ∈ stack, f.isLull := by
    induction base with
    | bottom => exact fun _ hf => absurd hf List.not_mem_nil
    | inside _ d ds _ ih =>
      rintro f hf
      rcases List.mem_cons.1 hf with rfl | hf
      · rfl
      · rcases List.mem_cons.1 hf with rfl | hf
        · rfl
        · exact ih f hf
  cases quay with
  | base b => exact base b
  | linking _ b =>
    rintro f hf
    rcases List.mem_cons.1 hf with rfl | hf
    · rfl
    · exact base b f hf

namespace Turn.Lulls

theorem post {s' : Session} (same : ∃ writes, s' = { s with writes }) (frames : ∀ f ∈ stack, f.isLull)
    (ds : List Delivery) : Lulls s ((s'.post ds).on stack) := by
  cases ds with
  | nil => exact ⟨same, frames, rfl⟩
  | cons d ds =>
    refine ⟨same, fun f hf => ?_, rfl⟩
    rcases List.mem_cons.1 hf with rfl | hf
    · rfl
    · exact frames f hf

theorem step {ticket : Ticket} {d : Delivery} {e : Deed} (h : t.Lulls s)
    (allowed : betweenWrite ticket d t e) (does : t.Does e u) : u.Lulls s := by
  obtain ⟨same, frames, control⟩ := h
  cases does with
  | @work s' stack task =>
    cases task with
    | entry e =>
      cases e with
      | settle ticket outcome =>
        obtain ⟨writes, rfl⟩ := same
        exact .post ⟨_, rfl⟩ frames _
      | written d' => exact absurd rfl (allowed d')
      | start | startGraph | advance | stop | battleOver | timeUp => cases control
    | _ => cases control
  | @receive s' frame stack result hf =>
    have lull := frames frame List.mem_cons_self
    have below : ∀ f ∈ stack, f.isLull := fun f hf => frames f (List.mem_cons_of_mem _ hf)
    cases frame with
    | linking => exact ⟨same, below, rfl⟩
    | posting ds => exact .post same below ds
    | asked a => exact absurd rfl (hf a)
    | _ => cases lull
  | recover => cases control
  | beginAtRest =>
    refine ⟨same, frames, ?_⟩
    rcases allowed with rfl | rfl <;> rfl
  | @beginInside s' stack a e =>
    refine ⟨same, fun f hf => ?_, ?_⟩
    · rcases List.mem_cons.1 hf with rfl | hf
      · cases a <;> first | rfl | cases control
      · exact frames f hf
    · rcases allowed with rfl | rfl <;> rfl
  | @leave s' stack a c past =>
    have lull := frames _ List.mem_cons_self
    refine ⟨same, fun f hf => frames f (List.mem_cons_of_mem _ hf), ?_⟩
    cases a <;> first | rfl | cases lull
  | reply =>
    obtain ⟨d', rfl⟩ := allowed
    exact ⟨same, frames, rfl⟩
  | fail | change => exact allowed.elim

theorem leads {ticket : Ticket} {d : Delivery} (h : t.Lulls s) (l : t.Leads (betweenWrite ticket d) u) :
    u.Lulls s := by
  obtain ⟨events, l⟩ := l
  exact l.induct h fun h allowed does => h.step allowed does

end Turn.Lulls

/-- The host comes back with the end of a write. -/
structure Turn.HandsBack (ticket : Ticket) (d : Delivery) (t u : Turn) : Prop where
  leads : t.Leads (betweenWrite ticket d) u
  control : u.control = .work (.entry (.written d))

/-- Where nothing is under way but deliveries, the host can come back with the end of a write. -/
theorem Quay.exists_handsBack {h : Habits} (quay : Quay h r base) (s : Session) (ticket : Ticket)
    (d : Delivery) : ∃ u, Turn.HandsBack ticket d ⟨s, base, .done .done⟩ u := by
  have hands {stack : List Frame} (base : Base h stack) :
      ∃ u, Turn.HandsBack ticket d ⟨s, stack, .done .done⟩ u := by
    cases base with
    | bottom =>
      refine ⟨_, .step (.refl _) ?_ (.beginAtRest rfl (.written d)), rfl⟩
      exact Or.inr rfl
    | @inside stack _ d' ds =>
      have called : Turn.Leads (betweenWrite ticket d)
          ⟨s, .asked (.deliver d') :: .posting ds :: stack, .done .done⟩
          ⟨s, .posting ds :: stack, .ask (.deliver d')⟩ := by
        refine .step (.refl _) ?_ (.leave rfl)
        trivial
      refine ⟨_, called.step ?_ (.beginInside (.written d)), rfl⟩
      exact Or.inr rfl
  cases quay with
  | base base => exact hands base
  | @linking stack _ base =>
    obtain ⟨u, leads, control⟩ := hands base
    have goes : Turn.Leads (betweenWrite ticket d) ⟨s, .linking r :: stack, .done .done⟩
        ⟨s, stack, .done .done⟩ := by
      refine .step (.refl _) ?_ (.receive fun a => Frame.noConfusion)
      exact fun _ => Control.noConfusion
    exact ⟨u, goes.trans leads, control⟩

/-- The session in which the run `r` waits for the write of a link, and nothing is under way. -/
def Session.awaiting (r : RunId) (node : String) (link : Link) (ticket : Ticket) (s : Session) : Session :=
  { s.suspend r .link node with
    writes := s.writes ++ [(ticket, { run := r, wait := s.nextWait, link })]
    draining := false }

theorem Run.later_of_free {run : Run} (free : run.wait = none) : run.later = run := by
  rw [Run.later, free, Option.map_none, ← free]

namespace Session

variable {node : String} {ticket : Ticket}

/-- Until its write is over, nothing happens with a link. -/
theorem awaiting_comes (way : s.OnWay r g) :
    Turn.Moves ((s.afterHandOver r node link (.pending ticket)).on (.driving r :: .draining :: base))
      ⟨s.awaiting r node link ticket, base, .done .done⟩ := by
  have drains (s' : Session) (pending : s'.pending = []) :
      s'.drain.on base = ⟨{ s' with draining := false }, base, .done .done⟩ := by
    unfold drain
    rw [pending]
    rfl
  refine .head rfl (.head ?_ (.refl _))
  exact congrArg some (drains _ way.has.pending_eq)

/-- While a run is driven, no run waits. -/
theorem OnWay.free (way : s.OnWay r g) (tidy : s.Tidy) {run : Run} (h : run ∈ s.runs) : run.wait = none := by
  obtain ⟨p, hp, rfl⟩ := List.getElem_of_mem h
  have at_p : s.run p = s.runs[p] := by simp [Session.run, hp]
  rw [← at_p]
  by_cases hq : p = r
  · exact hq ▸ way.wait
  · refine tidy p fun suspended => ?_
    have past := way.has.others p hp hq
    rw [Run.isActive, suspended] at past
    cases past

/-- The write that is over was the last one that was waited for, so that no other number is changed. -/
theorem free_awaiting (way : s.OnWay r g) (tidy : s.Tidy) :
    { s.awaiting r node link ticket with writes }.setRun r (fun run => { run with wait := none }) =
      (s.aside r).later writes := by
  have runs : ((s.awaiting r node link ticket).runs.modify r fun run => { run with wait := none }) =
      (s.aside r).runs.map Run.later := by
    apply List.ext_getElem?
    intro i
    simp only [awaiting, suspend, aside, setRun, List.getElem?_modify, List.getElem?_map]
    cases hi : s.runs[i]? with
    | none => rfl
    | some run =>
      have free := way.free tidy (List.mem_of_getElem? hi)
      simp only [Option.map_some, Option.map_eq_map]
      split
      case isTrue => simp [Run.later, free]
      case isFalse => exact congrArg some (Run.later_of_free free).symm
  exact congrArg (fun runs => { (s.aside r).later writes with runs }) runs

/-- **The end of the write** is taken up by the link. -/
theorem deliver_awaiting (way : s.OnWay r g) (tidy : s.Tidy) (outcome : WriteOutcome) :
    { s.awaiting r node link ticket with writes }.deliver ⟨⟨r, s.nextWait, link⟩, outcome⟩ =
      (((s.aside r).later writes).afterWrite r link outcome).under (.linking r) := by
  have suspended : { s.awaiting r node link ticket with writes }.run r = _ := run_setRun_self way.has.lt
  have waits : ({ s.awaiting r node link ticket with writes }.run r).isWaitingOn s.nextWait := by
    rw [suspended]
    simp [Run.isWaitingOn]
  simp only [deliver, waits, if_true, free_awaiting way tidy]

end Session

/-- A host that begins something only where it is given a scene, or an end is handed back to it, begins
nothing while a timer is cancelled. -/
theorem Habits.calmCancel_of_allow {h : Habits} {d : Deed} (allowed : h.allow t d) : calmCancel t d := by
  obtain ⟨s, stack, c⟩ := t
  cases d with
  | begin e =>
    cases c with
    | ask a =>
      cases a with
      | cancelTimer => cases allowed.1
      | _ => rfl
    | work | done | failed => rfl
  | move | leave | reply | fail | change => rfl

/-- Where the answers are handed over, a run is driven on its way. -/
theorem Turn.Stands.hands {h : Habits} {node : String} {callback : Callback} {ledger : Ledger}
    (ht : Turn.Stands h ⟨s, stack, .ask (.handOver r node link callback ledger)⟩) :
    ∃ g base, stack = .driving r :: .draining :: base ∧ Quay h r base ∧ s.OnWay r g := by
  cases ht.asks with
  | handing quay way => exact ⟨_, _, rfl, quay, way⟩
  | onWay _ _ _ control | closing _ _ _ _ control => cases control
  | showing _ _ displays => cases displays with | shown past => cases past

/-- **Links that wait agree with links that do not.**  When the answers are handed over at a link, the
write may be over, with any outcome, or it may be under way and come to the same outcome later.  Then
the run waits until the end of the write is handed back, which may happen at any time; from there the
host comes upon the same as if the link had been taken at once.

There the host may do anything that `Turn.allows` lets it do.  It may fail in its calls, but it has a table
for whatever is to be filled in; and where a run comes to its end, and its timer is cancelled, its figures
leave or its end is announced, the host raises none of the session's own link faults (`Ask.mayFail`). -/
theorem links_agree {h : Habits} {files : FileTree} {library : Path} {flags : FlagStore}
    {events : List Event} {node : String} {callback : Callback} {ledger : Ledger}
    (history : History h.allow (Session.fresh files library flags).atRest events
      ⟨s, stack, .ask (.handOver r node link callback ledger)⟩)
    (loads : Library.loadsWell s.files s.library link.target) (outcome : WriteOutcome)
    (ticket : Ticket) :
    let handsOver : Turn := ⟨s, stack, .ask (.handOver r node link callback ledger)⟩
    let reply (receipt : Receipt) : Turn := handsOver.reply (.handOver r node link callback ledger) receipt
    let d : Delivery := ⟨⟨r, s.nextWait, link⟩, outcome⟩
    ∃ base, stack = .driving r :: .draining :: base ∧
      (reply (.pending ticket)).Moves ⟨s.awaiting r node link ticket, base, .done .done⟩ ∧
      (∃ v, Turn.HandsBack ticket d ⟨s.awaiting r node link ticket, base, .done .done⟩ v) ∧
      ∀ v, Turn.HandsBack ticket d ⟨s.awaiting r node link ticket, base, .done .done⟩ v →
        Turn.Agrees base v.stack (reply (.finished outcome)) v := by
  intro handsOver reply d
  have tidy : s.Tidy := (history.mono fun _ _ => Habits.calmCancel_of_allow).filing.tidy
  obtain ⟨g, base, rfl, quay, way⟩ := history.stands.hands
  refine ⟨base, rfl, Session.awaiting_comes way, quay.exists_handsBack _ _ _, fun v hands => ?_⟩
  have lull : Turn.Lulls (s.awaiting r node link ticket) ⟨s.awaiting r node link ticket, base, .done .done⟩ :=
    ⟨⟨_, rfl⟩, quay.isLull, rfl⟩
  obtain ⟨⟨writes, same⟩, -, -⟩ := lull.leads hands.leads
  obtain ⟨s', below, c⟩ := v
  obtain rfl : c = .work (.entry (.written d)) := hands.control
  obtain rfl : s' = { s.awaiting r node link ticket with writes } := same
  have takes : Turn.next? ⟨{ s.awaiting r node link ticket with writes }, below, .work (.entry (.written d))⟩ =
      some ((((s.aside r).later writes).afterWrite r link outcome).on (.linking r :: below)) := by
    have delivers : { s.awaiting r node link ticket with writes }.deliver d = _ :=
      Session.deliver_awaiting way tidy outcome
    rw [← Move.on_under, ← delivers]
    rfl
  obtain ⟨T, T', comes, comes', step⟩ : Beside r base below (reply (.finished outcome))
      ((((s.aside r).later writes).afterWrite r link outcome).on (.linking r :: below)) :=
    .afterWrite way loads outcome
  exact Beside.agrees ⟨T, T', comes, .head (fun back => Bool.noConfusion back.2) takes comes', step⟩

/-- Behind the door lies the quest, whether the run has waited there or not. -/
theorem quest_entered_either_way :
    let t := (Session.fresh quest (.ofString "scripts") {}).atRest.play doorReached
    let door : Link := { target := "quest" }
    t.control = .ask (.handOver 0 "door" door 0 []) ∧
      Library.loadsWell t.session.files t.session.library "quest" ∧
      ∃ v, Turn.HandsBack 7 ⟨⟨0, 0, door⟩, .written⟩
          ⟨t.session.awaiting 0 "door" door 7, [], .done .done⟩ v ∧
        Turn.Agrees [] v.stack (t.reply (.handOver 0 "door" door 0 []) (.finished .written)) v := by
  intro t door
  have control : t.control = .ask (.handOver 0 "door" door 0 []) := by decide +kernel
  have loads : Library.loadsWell t.session.files t.session.library "quest" := by decide +kernel
  have wait : t.session.nextWait = 0 := by decide +kernel
  have below : t.stack = [.driving 0, .draining] := by decide +kernel
  have modest : ∀ e ∈ (Session.fresh quest (.ofString "scripts") {}).atRest.record doorReached,
      e.deed.isModest e.before := by decide +kernel
  have played : (Session.fresh quest (.ofString "scripts") {}).atRest.play? doorReached = some t :=
    Turn.play?_eq (by decide +kernel)
  have history := Turn.history_of_play? played fun e he => attentive.allow_of_isModest (modest e he)
  clear_value t
  obtain ⟨s, stack, c⟩ := t
  obtain rfl : c = _ := control
  obtain ⟨base, hs, -, ⟨v, hands⟩, agrees⟩ := links_agree history loads .written 7
  obtain rfl : base = [] := by
    rw [show stack = _ from below] at hs
    exact (List.cons.inj (List.cons.inj hs).2).2.symm
  rw [show s.nextWait = 0 from wait] at hands agrees
  exact ⟨rfl, loads, v, hands, agrees v hands⟩

end Questline

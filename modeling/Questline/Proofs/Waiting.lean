import Questline.Proofs.Finality

/-!
# Waiting

Whatever a run waits for is numbered, and no two waits of a session have the same number.
The answer that a wait is for can come late, more than once, or from inside another call:
at most one answer is taken up for each wait, and what comes for a wait that is over does
nothing at all.

What this rests on is that waits grow old (`Session.Ages`): a wait that is over never comes
back, since each new one has a new number.  That an answer that is taken up ends an open
wait rests on the host: from inside the cancelling of a timer it begins nothing.

* `Event.TakesUp`, `Event.Resolves`: an answer is taken up, and ends a wait.
* `Turn.Poised`: a run that is to be resumed once its timer is cancelled still waits.
* `Turn.Does.resolves`: an answer that is taken up ends a wait that was open.
* `next?_of_over`: an answer for a wait that is over does nothing.
* `waits_resolved_once`: the three together, for every history.
-/

namespace Questline

/-! ## Answers -/

/-- The wait that an entry is an answer for, if it comes with a handle. -/
def Entry.answers? : Entry → Option (RunId × WaitId)
  | .battleOver battle _ => some (battle.run, battle.wait)
  | .timeUp timer => some (timer.run, timer.wait)
  | .written delivery => some (delivery.handle.run, delivery.handle.wait)
  | _ => none

/-- Whether a deed begins something from inside the cancelling of a timer. -/
def Deed.disturbs (t : Turn) (d : Deed) : Bool :=
  match d, t.control with
  | .begin _, .ask (.cancelTimer _) => true
  | _, _ => false

/-- Nothing is begun from inside the cancelling of a timer. -/
def calmCancel : Turn → Deed → Prop := fun t d => d.disturbs t = false

instance (t : Turn) (d : Deed) : Decidable (calmCancel t d) :=
  inferInstanceAs (Decidable (d.disturbs t = false))

/-- In the event an answer for the run `r` is taken up: the run is queued to go on after it,
or the end of a write is accepted. -/
def Event.TakesUp (e : Event) (r : RunId) : Prop :=
  (∃ job : Job, job.isAnswer ∧
    e.after.session.pending = e.before.session.pending ++ [(r, job)]) ∨
  (∃ delivery, e.before.control = .work (.entry (.written delivery)) ∧ delivery.handle.run = r ∧
    (e.before.session.run r).isWaitingOn delivery.handle.wait)

/-- In the event an answer is taken up that ends the wait `w` of the run `r`. -/
structure Event.Resolves (e : Event) (r : RunId) (w : WaitId) : Prop where
  takesUp : e.TakesUp r
  before : (e.before.session.run r).isWaitingOn w
  after : (e.after.session.run r).isWaitingOn w = false

/-! ## Runs to be resumed -/

namespace Turn

/-- A frame that waits for a timer is on top alone, and a run to be resumed there still
waits. -/
structure Poised (t : Turn) : Prop where
  top : Unhurried t.stack ∨ t.control.isOver ∨ ∃ timer, t.control = .ask (.cancelTimer timer)
  waits : ∀ r job stack, t.stack = .resuming r job :: stack → t.session.Waits r
  rest : ∀ f ∈ t.stack.tail, f.isForTimer = false

variable {t u : Turn} {d : Deed}

theorem poised_of_free {s : Session} {stack : List Frame} {c : Control}
    (h : ∀ f ∈ stack, f.isForTimer = false) : Poised ⟨s, stack, c⟩ where
  top := .inl fun f fs hs => h f (by rw [show stack = f :: fs from hs]; exact List.mem_cons_self)
  waits r job fs hs := by
    have hr := h (.resuming r job) (by rw [show stack = _ from hs]; exact List.mem_cons_self)
    cases hr
  rest f hf := h f (List.mem_of_mem_tail hf)

theorem Poised.on {P : Prop} {q : RunId} {s : Session} {m : Move} {stack : List Frame}
    (h : m.WorksFor P q s) (free : ∀ f ∈ stack, f.isForTimer = false) : (m.on stack).Poised := by
  cases hm : m.frames with
  | nil =>
    have hon : m.on stack = ⟨m.session, stack, m.control⟩ := by simp [Move.on, hm]
    rw [hon]
    exact poised_of_free free
  | cons f fs =>
    have hon : m.on stack = ⟨m.session, f :: (fs ++ stack), m.control⟩ := by simp [Move.on, hm]
    rw [hon]
    refine ⟨?_, ?_, ?_⟩
    · by_cases hf : f.isForTimer
      · exact .inr (.inr (h.timer f fs hm hf))
      · refine .inl fun g gs hg => ?_
        obtain ⟨rfl, -⟩ := List.cons.inj hg
        simpa using hf
    · intro r job gs hg
      obtain ⟨rfl, -⟩ := List.cons.inj hg
      exact (h.resumes r job (by rw [hm]; exact List.mem_cons_self)).2
    · intro g hg
      rcases List.mem_append.1 hg with hg | hg
      · exact h.noTimer g (by rw [hm]; exact hg)
      · exact free g hg

theorem Poised.post {s : Session} {ds : List Delivery} {stack : List Frame}
    (free : ∀ f ∈ stack, f.isForTimer = false) : ((s.post ds).on stack).Poised := by
  cases ds with
  | nil => exact poised_of_free free
  | cons d ds =>
    have above : ∀ f ∈ .posting ds :: stack, f.isForTimer = false := by
      intro f hf
      rcases List.mem_cons.1 hf with rfl | hf
      · rfl
      · exact free f hf
    exact poised_of_free above

theorem Poised.free (h : t.Poised) (hu : Unhurried t.stack) :
    ∀ f ∈ t.stack, f.isForTimer = false := by
  intro f hf
  cases hs : t.stack with
  | nil => rw [hs] at hf; cases hf
  | cons g stack =>
    rw [hs] at hf
    rcases List.mem_cons.1 hf with rfl | hf
    · exact hu f stack hs
    · exact h.rest f (by rw [hs]; exact hf)

theorem Does.poised (h : t.Does d u) (allowed : calmCancel t d) (ht : t.Poised) : u.Poised := by
  cases h with
  | @work s stack task =>
    have hu : Unhurried stack := by
      rcases ht.top with hu | ho | ⟨_, hc⟩
      · exact hu
      · cases ho
      · cases hc
    by_cases he : ∃ e, task = .entry e
    · obtain ⟨e, rfl⟩ := he
      rcases s.enter_worksFor e with ⟨q, hm⟩ | ⟨s', -, ds, hm⟩
      · exact .on hm (ht.free hu)
      · rw [show Task.begin s (.entry e) = _ from hm]
        exact .post (ht.free hu)
    · obtain ⟨q, hm⟩ := Task.begin_worksFor s task fun e h => he ⟨e, h⟩
      exact .on hm (ht.free hu)
  | @receive s frame stack result hn =>
    cases hp : frame.isPosting with
    | true =>
      cases frame <;> cases hp
      exact .post ht.rest
    | false =>
      obtain ⟨q, hm⟩ := Frame.receive_worksFor s frame result hn hp
      exact .on hm ht.rest
  | @recover s frame stack fault hn =>
    cases hp : frame.isPosting with
    | true =>
      cases frame <;> cases hp
      exact .post ht.rest
    | false =>
      obtain ⟨q, hm⟩ := Frame.recover_worksFor s frame fault hp
      exact .on hm ht.rest
  | beginAtRest => exact poised_of_free (by simp)
  | @beginInside s stack a entry =>
    have hu : Unhurried stack := by
      rcases ht.top with hu | ho | ⟨timer, hc⟩
      · exact hu
      · cases ho
      · cases hc
        cases allowed
    have above : ∀ f ∈ .asked a :: stack, f.isForTimer = false := by
      intro f hf
      rcases List.mem_cons.1 hf with rfl | hf
      · rfl
      · exact ht.free hu f hf
    exact poised_of_free above
  | leave => exact poised_of_free ht.rest
  | @reply s stack a answer =>
    rcases ht.top with hu | ho | ⟨timer, hc⟩
    · obtain ⟨q, hm⟩ := a.resume_worksFor s answer
      exact .on hm (ht.free hu)
    · cases ho
    · cases hc
      exact ⟨.inr (.inl rfl), ht.waits, ht.rest⟩
  | fail => exact ⟨.inr (.inl rfl), ht.waits, ht.rest⟩
  | change ho files flags => exact ⟨ht.top, ht.waits, ht.rest⟩

end Turn

/-! ## An answer that is taken up ends a wait -/

/-- A job that is queued after an answer is queued for the run that the work is for. -/
theorem Session.Queues.answer {P : Prop} {q r : RunId} {job : Job} {s s' : Session}
    (h : s.Queues P q s') (hjob : job.isAnswer)
    (queued : s'.pending = s.pending ++ [(r, job)]) :
    P ∧ r = q ∧ ∀ w, (s'.run q).isWaitingOn w = false := by
  cases h with
  | kept length_le =>
    rw [queued, List.length_append] at length_le
    exact absurd length_le (Nat.not_succ_le_self _)
  | entered graph h =>
    have hlast := List.singleton_inj.1 (List.append_cancel_left (queued.symm.trans h))
    obtain ⟨-, rfl⟩ := Prod.mk.inj hlast
    cases hjob
  | answered job' h closed allowed =>
    have hlast := List.singleton_inj.1 (List.append_cancel_left (queued.symm.trans h))
    exact ⟨allowed, (Prod.mk.inj hlast).1, closed⟩

/-- Accepting the end of a write ends the wait for it. -/
theorem Session.deliver_ends {s : Session} {d : Delivery}
    (waits : (s.run d.handle.run).isWaitingOn d.handle.wait)
    (old : d.handle.wait < s.nextWait) :
    ((s.deliver d).session.run d.handle.run).isWaitingOn d.handle.wait = false := by
  simp only [deliver]
  rw [if_pos waits]
  have works := (afterWrite_worksFor (s.setRun d.handle.run fun run => { run with wait := none })
    d.handle.run d.handle.link d.outcome).session
  exact works.not_waiting old (isWaitingOn_setRun_of_wait s _ (fun _ => rfl) _)

namespace Turn

variable {t u : Turn} {d : Deed}

/-- A run is queued to go on after an answer only if it waited. -/
theorem Does.queues (h : t.Does d u) (ht : t.Poised) :
    ∃ q, t.session.Queues (t.session.Waits q) q u.session := by
  have posted (s : Session) (ds : List Delivery) :
      s.Queues (s.Waits 0) 0 (s.post ds).session := .of_eq (s.works_post 0 ds).pending
  cases h with
  | @work s stack task =>
    by_cases he : ∃ e, task = .entry e
    · obtain ⟨e, rfl⟩ := he
      rcases s.enter_worksFor e with ⟨q, hm⟩ | hm
      · exact ⟨q, hm.queue⟩
      · exact ⟨0, .of_eq (hm.works 0).pending⟩
    · obtain ⟨q, hm⟩ := Task.begin_worksFor s task fun e h => he ⟨e, h⟩
      exact ⟨q, hm.queue.mono False.elim⟩
  | @receive s frame stack result hn =>
    cases hp : frame.isPosting with
    | true =>
      cases frame <;> cases hp
      exact ⟨0, posted s _⟩
    | false =>
      obtain ⟨q, hm⟩ := Frame.receive_worksFor s frame result hn hp
      refine ⟨q, hm.queue.mono ?_⟩
      rintro ⟨job, rfl⟩
      exact ht.waits q job stack rfl
  | @recover s frame stack fault hn =>
    cases hp : frame.isPosting with
    | true =>
      cases frame <;> cases hp
      exact ⟨0, posted s _⟩
    | false =>
      obtain ⟨q, hm⟩ := Frame.recover_worksFor s frame fault hp
      exact ⟨q, hm.queue.mono False.elim⟩
  | @reply s stack a answer =>
    obtain ⟨q, hm⟩ := a.resume_worksFor s answer
    exact ⟨q, hm.queue.mono False.elim⟩
  | beginAtRest | beginInside | leave | fail | change => exact ⟨0, .of_eq rfl⟩

/-- **An answer that is taken up ends an open wait**: the run waited for it, and does so no
longer. -/
theorem Does.resolves {r : RunId} (h : t.Does d u) (ht : t.Poised)
    (old : ∀ r w, (t.session.run r).isWaitingOn w → w < t.session.nextWait)
    (taken : Event.TakesUp ⟨t, d, u⟩ r) : ∃ w, Event.Resolves ⟨t, d, u⟩ r w := by
  rcases id taken with ⟨job, hjob, queued⟩ | ⟨delivery, hc, rfl, waits⟩
  · obtain ⟨q, hq⟩ := h.queues ht
    obtain ⟨⟨w, waits⟩, rfl, closed⟩ := hq.answer hjob queued
    exact ⟨w, taken, waits, closed w⟩
  · obtain ⟨s, stack, c⟩ := t
    obtain rfl : c = .work (.entry (.written delivery)) := hc
    refine ⟨delivery.handle.wait, taken, waits, ?_⟩
    cases h with
    | work => exact Session.deliver_ends waits (old _ _ waits)
    | beginAtRest ho => cases ho
    | leave ho => cases ho
    | change ho => cases ho

/-! ## An answer for a wait that is over does nothing -/

/-- Begin the answer for a wait that is over: nothing is changed, asked for or at fault. -/
theorem next?_of_over {s : Session} {stack : List Frame} {entry : Entry} {r : RunId} {w : WaitId}
    (answers : entry.answers? = some (r, w)) (past : (s.run r).isWaitingOn w = false) :
    next? ⟨s, stack, .work (.entry entry)⟩ = some ⟨s, stack, .done .done⟩ := by
  have hover : s.isWaiting r w = false := by simp [Session.isWaiting, past]
  have henter : s.enter entry = .finished s := by
    cases entry with
    | battleOver battle outcome =>
      cases answers
      simp [Session.enter, Session.battleOver, hover]
    | timeUp timer =>
      cases answers
      simp [Session.enter, Session.timeUp, hover]
    | written delivery =>
      cases answers
      simp [Session.enter, Session.deliver, past]
    | start | startGraph | advance | stop | settle => cases answers
  show some ((s.enter entry).on stack) = _
  rw [henter]
  rfl

end Turn

/-! ## Every wait is resolved at most once -/

namespace History

variable {may : Turn → Deed → Prop} {events : List Event} {t : Turn} {files : FileTree}
  {library : Path} {flags : FlagStore}

/-- What a run waits for was begun. -/
theorem wait_lt (h : History may (Session.fresh files library flags).atRest events t) {r : RunId}
    {w : WaitId} (hw : (t.session.run r).isWaitingOn w) : w < t.session.nextWait := by
  rcases h.leads.ages.waiting r w hw with hw | ⟨-, hw⟩
  · cases hw
  · exact hw

theorem poised (h : History calmCancel (Session.fresh files library flags).atRest events t) :
    t.Poised :=
  h.induct (Turn.poised_of_free (by simp)) fun ih allowed does => does.poised allowed ih

end History

/-- After the events `earlier`, in the turn `t`, the wait `w` was begun and is over for the
run `r`: the run does not wait for it, be it that an answer was taken up, that the run was
stopped or that it took a link, or the run was current and is so no longer. -/
structure Turn.IsOver (earlier : List Event) (t : Turn) (r : RunId) (w : WaitId) : Prop where
  begun : w < t.session.nextWait
  past : (t.session.run r).isWaitingOn w = false ∨
    t.session.current ≠ some r ∧
      ∃ e ∈ earlier, e.before.session.current = some r ∧ w < e.before.session.nextWait

theorem Turn.IsOver.not_waiting {may : Turn → Deed → Prop} {start t : Turn} {earlier : List Event}
    {r : RunId} {w : WaitId} (h : History may start earlier t) (past : t.IsOver earlier r w) :
    (t.session.run r).isWaitingOn w = false := by
  rcases past.past with hw | ⟨replaced, e, he, current, begun⟩
  · exact hw
  · obtain ⟨before, after, rfl⟩ := List.append_of_mem he
    obtain ⟨-, allowed, does, hafter⟩ := h.of_append_cons
    have ages := does.ages.trans hafter.leads.ages
    rcases ages.current with hc | ⟨_, -, -, -, hold⟩
    · exact absurd (hc.trans current) replaced
    · exact hold r w current begun

/-- **Each wait is resolved at most once, and what comes late does nothing.**  Whatever a
host does that begins nothing from inside the cancelling of a timer: an answer that is
taken up ends a wait that was open; no wait is ended by two answers; and an answer that is
given with the handle of a wait that is over leaves the session as it is, asks for nothing
and fails in nothing. -/
theorem waits_resolved_once {files : FileTree} {library : Path} {flags : FlagStore}
    {events : List Event} {t : Turn}
    (h : History calmCancel (Session.fresh files library flags).atRest events t) :
    (∀ e ∈ events, ∀ r, e.TakesUp r → ∃ w, e.Resolves r w) ∧
    (∀ earlier e between e' later r w, events = earlier ++ e :: (between ++ e' :: later) →
      e.Resolves r w → ¬e'.Resolves r w) ∧
    (∀ earlier e later r w, events = earlier ++ e :: later → e.before.IsOver earlier r w →
      ∀ e' ∈ e :: later, ∀ entry, e'.before.control = .work (.entry entry) →
        entry.answers? = some (r, w) →
        e'.deed = .move ∧ e'.after = ⟨e'.before.session, e'.before.stack, .done .done⟩) := by
  refine ⟨?_, ?_, ?_⟩
  · intro e he r taken
    obtain ⟨earlier, later, rfl⟩ := List.append_of_mem he
    obtain ⟨hbefore, -, does, -⟩ := h.of_append_cons
    exact does.resolves hbefore.poised (fun _ _ => hbefore.wait_lt) taken
  · intro earlier e between e' later r w hs resolved again
    subst hs
    obtain ⟨hbefore, -, does, hafter⟩ := h.of_append_cons
    obtain ⟨hbetween, -, -, -⟩ := hafter.of_append_cons
    have begun := Nat.lt_of_lt_of_le (hbefore.wait_lt resolved.before) does.ages.waits_le
    have past := hbetween.leads.ages.not_waiting begun resolved.after
    rw [again.before] at past
    cases past
  · intro earlier e later r w hs past e' he' entry hc answers
    subst hs
    obtain ⟨hbefore, allowed, does, hafter⟩ := h.of_append_cons
    have hfrom : e.before.Leads calmCancel e'.before ∧ e'.before.Does e'.deed e'.after := by
      rcases List.mem_cons.1 he' with rfl | he'
      · exact ⟨.refl _, does⟩
      · obtain ⟨before, after, rfl⟩ := List.append_of_mem he'
        obtain ⟨hev, -, does', -⟩ := hafter.of_append_cons
        exact ⟨((Turn.Leads.refl _).step allowed does).trans hev.leads, does'⟩
    obtain ⟨hleads, does'⟩ := hfrom
    have hover := hleads.ages.not_waiting past.begun (past.not_waiting hbefore)
    obtain ⟨⟨s, stack, c⟩, deed, after⟩ := e'
    obtain rfl : c = .work (.entry entry) := hc
    cases does' with
    | work => exact ⟨rfl, Option.some.inj (Turn.next?_of_over answers hover)⟩
    | beginAtRest ho => cases ho
    | leave ho => cases ho
    | change ho => cases ho

/-! ### A timer that comes late -/

/-- The player goes on from an image before its time is up, and the host cancels its timer
and lets it ring nevertheless. -/
def lateTimer : List Deed :=
  [.begin (.startGraph imageOnly none), .move, .move, .move, .move, .move,
    .reply (.engage (.image ⟨"map", "map.png", .int 3⟩)) (), .move,
    .reply (.startTimer (.int 3) ⟨0, 0⟩) true, .move, .move,
    .begin (.advance .null), .move, .reply (.cancelTimer ⟨0, 0⟩) (),
    .move, .move, .move, .move, .move, .move, .move, .move, .begin (.timeUp ⟨0, 0⟩)]

/-- The timer that rings late does nothing. -/
theorem late_timer_ignored :
    let start := (Session.fresh (.empty []) (.ofString "scripts") {}).atRest
    ∃ t, start.play? lateTimer = some t ∧ t.control = .work (.entry (.timeUp ⟨0, 0⟩)) ∧
      t.next? = some ⟨t.session, t.stack, .done .done⟩ := by
  intro start
  have calm : ∀ e ∈ start.record lateTimer, calmCancel e.before e.deed := by decide
  have reached : ∃ t, start.play? lateTimer = some t ∧ 0 < t.session.nextWait ∧
      (t.session.run 0).isWaitingOn 0 = false ∧ t.control = .work (.entry (.timeUp ⟨0, 0⟩)) :=
    ⟨start.play lateTimer, Turn.play?_eq (by decide), by decide, by decide, by decide⟩
  obtain ⟨t, played, begun, past, hc⟩ := reached
  obtain ⟨u, hu⟩ : ∃ u, t.next? = some u := ⟨_, by rw [Turn.next?, hc]⟩
  have quiet : calmCancel t .move := by simp [calmCancel, Deed.disturbs]
  have history := (Turn.history_of_play? played calm).snoc quiet (Turn.does_of_next? hu)
  have ignored := (waits_resolved_once history).2.2 _ _ [] 0 0 rfl ⟨begun, .inl past⟩
    _ List.mem_cons_self (.timeUp ⟨0, 0⟩) hc rfl
  exact ⟨t, played, hc, hu.trans (congrArg some ignored.2)⟩

end Questline

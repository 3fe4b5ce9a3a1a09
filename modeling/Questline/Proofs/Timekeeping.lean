import Questline.Proofs.Adrift

/-!
# No timer is left behind

A timer that was started rings or is cancelled once its image is left.  When all that was begun is over, the
timers that have done neither are the one of the image at which the current run is suspended, if it is at one.
There is one exception: the timer may ring in vain, when the graph was changed under the run, and then the image
stays up without a timer.

* `IsLive`: a timer was started, and has neither rung nor been cancelled.
* `Turn.Departing`, `Turn.Over`: a run is about to leave its image; a timer is over.
* `Timekeeping`: what is kept of timers; `Timekeeping.concat` keeps it with each event.
* `timers_kept`: the timers that are live, and that none is cancelled twice.
-/

namespace Questline

/-! ## What is known before timers come in -/

/-- A run is suspended at a link for the write that is filed. -/
theorem Event.files.link {e : Event} {ticket : Ticket} {handle : WriteHandle} (h : e.files ticket handle)
    (does : e.before.Does e.deed e.after) (busy : e.before.Busy) (after : e.after.Busy) :
    ∀ v ∈ (e.after.session.outline.run handle.run).waiting, v.id = handle.wait → v.kind = .link := by
  intro v hv _
  obtain ⟨node, waits⟩ := (h.awaits does busy after).waits
  rw [waits] at hv
  cases hv
  rfl

section

variable {files : FileTree} {library : Path} {flags : FlagStore} {events : List Event} {t : Turn}

/-- The end of a write is delivered for a link. -/
theorem Faithful.link_of_delivers {p : Delivery} (faithful : Faithful events t)
    (h : History calmCancel (Session.fresh files library flags).atRest events t)
    (hc : t.control = .work (.entry (.written p))) :
    ∀ v ∈ (t.session.outline.run p.handle.run).waiting, v.id = p.handle.wait → v.kind = .link := by
  obtain ⟨ticket, earlier, e, later, rfl, filed, -⟩ := faithful.delivers p hc
  obtain ⟨before, calm, does, after⟩ := h.of_append_cons
  have busy := before.filing.busy
  refine (after.induct (P := fun u => u.EndsWell ∧ p.handle.wait < u.session.nextWait ∧
    ∀ v ∈ (u.session.outline.run p.handle.run).waiting, v.id = p.handle.wait → v.kind = .link)
    ⟨does.endsWell busy.orderly.ends, filed.waits does, filed.link does busy (does.busy calm busy).1⟩ ?_).2.2
  rintro u v d ⟨ends, begun, link⟩ - does
  exact ⟨does.endsWell ends, Nat.lt_of_lt_of_le begun does.ages.waits_le,
    does.kind_of_wait (P := (· = .link)) ends begun link⟩

theorem History.laid {may : Turn → Deed → Prop}
    (h : History may (Session.fresh files library flags).atRest events t) : t.IsLaid :=
  (h.induct (P := fun u => u.Orderly ∧ u.IsLaid) ⟨Turn.orderly_fresh files library flags, Turn.isLaid_atRest _⟩
    fun ih _ does => ⟨does.orderly ih.1, does.laid ih.2 ih.1⟩).2

theorem History.grounds (h : History timely (Session.fresh files library flags).atRest events t)
    (handed : handedOut [] events) (posted : AllPosted events) : t.Grounds := by
  have calm := h.mono fun _ _ => timely.calm
  have faithful := calm.faithful handed posted
  have tidy := faithful.filing.tidy
  exact
    { busy := faithful.filing.busy
      tidy := tidy
      laid := h.laid
      begun := fun r v wait => calm.wait_lt (tidy.isWaitingOn_iff.2 ⟨v, wait, rfl⟩)
      links := fun p hc v wait id =>
        faithful.link_of_delivers calm hc { v with timer := false } (tidy.waiting_eq wait) id
      mild := faithful.mild
      bound := faithful.bound
      poised := calm.poised }

theorem History.tended (h : History timely (Session.fresh files library flags).atRest events t)
    (handed : handedOut [] events) (posted : AllPosted events) : t.Tended := by
  induction h with
  | nil => exact Turn.tended_atRest fun r => by simp [Session.run, Session.fresh]
  | snoc h allowed does ih =>
    have grounds := (h.snoc allowed does).grounds handed posted
    have handed := handedOut_of_append handed
    have posted := posted.of_append
    exact does.tended allowed (ih handed posted) (h.grounds handed posted) grounds.tidy

end

/-! ## Runs that leave their image -/

namespace Session

variable (s : Session) (q : RunId)

theorem wait_dismiss (r : RunId) (npcs : List String) : ((s.dismiss q npcs).session.run r).wait = (s.run r).wait := by
  cases npcs with
  | nil => exact (Keeps.setRun (s := s) (f := fun run => { run with npcs := [] }) (fun _ => rfl) fun _ => rfl).waits r
  | cons => rfl

/-- A run that has ended waits for nothing. -/
theorem wait_close (phase : Phase) : ((s.close q phase).session.run q).wait = none := by
  have free := s.free_ended q phase
  rw [close_eq]
  split
  · exact (wait_dismiss _ q q _).trans free
  · cases (s.run q).completion <;> exact free

end Session

namespace Turn

variable {t u : Turn} {d : Deed} {r : RunId} {timer : TimerHandle}

/-- The run `r` is about to leave its image: its timer is being cancelled, or a fault has reached the frame
that drives it, or it is to be ended. -/
inductive Departing (r : RunId) (t : Turn) : Prop
  | cancelling (h : t.Cancelling r)
  | faulty {f : Fault} {below : List Frame} (control : t.control = .failed f) (stack : t.stack = .driving r :: below)
  | ending {phase : Phase} (control : t.control = .work (.terminate r phase))

/-- While its timer is being cancelled, nothing comes between a run and its going on or ending. -/
theorem Does.cancelling (h : t.Does d u) (allowed : timely t d) (ht : t.Tended) (hc : t.Cancelling r) :
    u.Cancelling r ∨ (u.session.run r).wait = none := by
  have idle := ht.cancelling r hc
  obtain ⟨s, stack, c⟩ := t
  obtain ⟨f, below, hs, forTimer, own⟩ := hc
  obtain rfl : stack = f :: below := hs
  have still {s' : Session} {c' : Control} : Cancelling r ⟨s', f :: below, c'⟩ := ⟨f, below, rfl, forTimer, own⟩
  cases h with
  | work | recover => rcases idle with ⟨_, hc⟩ | hc <;> cases hc
  | @receive _ _ _ result =>
    right
    cases f with
    | resuming q job =>
      obtain rfl : q = r := Option.some.inj own
      exact (s.wait_resume q q job).trans (if_pos rfl)
    | ending q phase =>
      obtain rfl : q = r := Option.some.inj own
      exact s.wait_close q phase
    | _ => cases forTimer
  | beginInside | fail =>
    rcases idle with ⟨timer, hc⟩ | hc
    · cases hc
      cases allowed
    · cases hc
  | leave => cases forTimer
  | reply =>
    rcases idle with ⟨timer, hc⟩ | hc
    · cases hc
      exact .inl still
    · cases hc
  | change => exact .inl still

/-- A run that is to be ended waits for nothing any more, or its timer is cancelled first. -/
theorem departing_terminate (s : Session) (r : RunId) (phase : Phase) (stack : List Frame) :
    ((s.terminate r phase).on stack).Departing r ∨ (((s.terminate r phase).on stack).session.run r).wait = none := by
  rcases s.terminate_cases r phase with ⟨w, -, -, h⟩ | ⟨-, h⟩
  · rw [h]
    exact .inl (.cancelling ⟨_, _, rfl, rfl, rfl⟩)
  · rw [h]
    exact .inr (s.wait_close r phase)

/-- **A run that is about to leave its image** does so next. -/
theorem Does.departing (h : t.Does d u) (allowed : timely t d) (ht : t.Tended) (tidy : t.session.Tidy)
    (hr : t.Departing r) : u.Departing r ∨ (u.session.run r).wait = none := by
  cases hr with
  | cancelling hc => exact (h.cancelling allowed ht hc).imp_left .cancelling
  | @faulty f below control stack =>
    obtain ⟨s, _, _⟩ := t
    cases control
    cases stack
    cases h with
    | recover =>
      by_cases active : (s.run r).isActive
      · have stops : (Session.stopIfActive { s with lastError := some f } r).control = .work (.terminate r .stopped) := by
          unfold Session.stopIfActive
          rw [if_pos (by exact active)]
          rfl
        exact .inl (.ending stops)
      · right
        have free := tidy r fun suspended => active (by rw [Run.isActive, suspended]; rfl)
        show ((Session.stopIfActive { s with lastError := some f } r).session.run r).wait = none
        unfold Session.stopIfActive
        rw [if_neg (by exact active)]
        exact free
    | change past => cases past
  | @ending phase control =>
    obtain ⟨s, stack, _⟩ := t
    cases control
    cases h with
    | work => exact departing_terminate s r phase stack
    | leave past | beginAtRest past | change past => cases past

/-! ## Timers that are started -/

/-- A timer that is to be started stays so, as long as its run waits without one, unless the run is about to
leave its image. -/
theorem Does.still_pending (h : t.Does d u) (allowed : timely t d) (ht : t.Tended) (tidy : t.session.Tidy) {v : Wait}
    (before : (t.session.run r).wait = some v) (same : (u.session.run r).wait = (t.session.run r).wait)
    (pending : t.Pending ⟨r, v.id⟩) : u.Pending ⟨r, v.id⟩ ∨ u.Departing r := by
  have untimed : v.timer = false := (ht.pending r v before pending).2
  rcases pending with ⟨seconds, mem⟩ | ⟨seconds, hc | mem⟩
  · cases h with
    | work | reply => exact .inl (.inl ⟨seconds, List.mem_append_right _ mem⟩)
    | @receive s frame stack result =>
      rcases List.mem_cons.1 mem with rfl | mem
      · refine .inl (.inr ⟨seconds, .inl ?_⟩)
        show ((Frame.timing r v.id seconds).receive s result).control = _
        have waits : (s.run r).isWaitingOn v.id := tidy.isWaitingOn_iff.2 ⟨v, before, rfl⟩
        rw [Frame.receive, if_pos waits]
        rfl
      · exact .inl (.inl ⟨seconds, List.mem_append_right _ mem⟩)
    | @recover s frame stack fault =>
      rcases List.mem_cons.1 mem with rfl | mem
      · obtain ⟨base, rfl⟩ := List.head?_eq_some_iff.1 (ht.sits r v.id seconds stack (List.suffix_refl _))
        exact .inr (.faulty rfl rfl)
      · exact .inl (.inl ⟨seconds, List.mem_append_right _ mem⟩)
    | beginAtRest => cases mem
    | beginInside => exact .inl (.inl ⟨seconds, List.mem_cons_of_mem _ mem⟩)
    | leave => exact .inl (.inl ⟨seconds, (List.mem_cons.1 mem).resolve_left fun top => by cases top⟩)
    | fail | change => exact .inl (.inl ⟨seconds, mem⟩)
  · obtain ⟨s, stack, c⟩ := t
    obtain rfl : c = .ask (.startTimer seconds ⟨r, v.id⟩) := hc
    cases h with
    | beginAtRest past | leave past => cases past
    | beginInside => exact .inl (.inr ⟨seconds, .inr List.mem_cons_self⟩)
    | @reply _ _ _ answer =>
      obtain rfl : answer = true := allowed
      have after := Session.wait_setTimer_self before true
      have same : ((s.setRun r (·.setTimer v.id true)).run r).wait = (s.run r).wait := same
      rw [before, after] at same
      rw [← congrArg Wait.timer (Option.some.inj same)] at untimed
      cases untimed
    | fail => cases allowed
    | change => exact .inl (.inr ⟨seconds, .inl rfl⟩)
  · left
    right
    refine ⟨seconds, ?_⟩
    cases h with
    | work | reply => exact .inr (List.mem_append_right _ mem)
    | receive hn | recover hn =>
      exact .inr (List.mem_append_right _ ((List.mem_cons.1 mem).resolve_left fun top => hn _ top.symm))
    | beginAtRest => cases mem
    | beginInside => exact .inr (List.mem_cons_of_mem _ mem)
    | leave =>
      rcases List.mem_cons.1 mem with top | mem
      · exact .inl (congrArg Control.ask (Frame.asked.inj top).symm)
      · exact .inr mem
    | fail | change => exact .inr mem

/-- While a timer is being started, nothing is done to the runs but that it rings. -/
theorem Does.starting (h : t.Does d u) (ht : t.Tended) (before : t.Starts timer) (after : u.Starts timer) :
    Event.rings timer ⟨t, d, u⟩ ∨ u.session.runs = t.session.runs := by
  have within {seconds : Number} (mem : .asked (.startTimer seconds timer) ∈ t.stack) :
      t.stack.head? = some (.asked (.startTimer seconds timer)) ∧
        (t.control = .work (.entry (.timeUp timer)) ∨ t.control.isOver) := by
    obtain ⟨above, below, hs⟩ := List.append_of_mem mem
    obtain ⟨rfl, -, idle⟩ := ht.inside seconds timer above below hs
    exact ⟨by rw [hs]; rfl, idle⟩
  obtain ⟨seconds, hc | mem⟩ := before
  · obtain ⟨s, stack, c⟩ := t
    obtain rfl : c = .ask (.startTimer seconds timer) := hc
    cases h with
    | beginAtRest | beginInside | leave | fail | change => exact .inr rfl
    | reply =>
      obtain ⟨seconds', hc | mem⟩ := after
      · cases hc
      · obtain ⟨-, hc | past⟩ := within mem
        · cases hc
        · cases past
  · obtain ⟨top, idle⟩ := within mem
    cases h with
    | beginAtRest | beginInside | leave | fail | change => exact .inr rfl
    | work => exact .inl (idle.resolve_right nofun)
    | receive hn | recover hn => exact absurd (Option.some.inj top) (hn _)
    | reply =>
      rcases idle with hc | past
      · cases hc
      · cases past

/-! ## Timers that are over -/

/-- The timer is over: it is being cancelled, or its run does not wait with it any more. -/
structure Over (timer : TimerHandle) (t : Turn) : Prop where
  begun : timer.wait < t.session.nextWait
  past : t.Cancelling timer.run ∨ (t.session.run timer.run).isWaitingOn timer.wait = false

/-- What is over stays over. -/
theorem Does.stays_over (h : t.Does d u) (allowed : timely t d) (ht : t.Tended) (ended : t.Over timer) : u.Over timer where
  begun := Nat.lt_of_lt_of_le ended.begun h.ages.waits_le
  past := by
    rcases ended.past with cancelling | past
    · exact (h.cancelling allowed ht cancelling).imp_right fun free => by simp [Run.isWaitingOn, free]
    · exact .inr (h.ages.not_waiting ended.begun past)

/-- A timer that is over does not run. -/
theorem Over.not_timed (ended : t.Over timer) (ht : t.Tended) (tidy : t.session.Tidy) :
    ¬(t.session.run timer.run).IsTimed timer.wait := by
  rcases ended.past with cancelling | past
  · exact ht.untimed cancelling timer.wait
  · rintro ⟨v, wait, id, -⟩
    rw [tidy.isWaitingOn_iff.2 ⟨v, wait, id⟩] at past
    cases past

end Turn

/-- With the event the timer is disposed of: it is cancelled, or it rings, and its run goes on. -/
def Event.disposesOf (timer : TimerHandle) (e : Event) : Prop :=
  e.cancels timer ∨ e.rings timer ∧ e.Resolves timer.run timer.wait

namespace Turn

/-- A timer is disposed of once. -/
theorem Does.disposes (h : t.Does d u) (ht : t.Tended) (grounds : t.Grounds)
    (disposes : Event.disposesOf timer ⟨t, d, u⟩) : ¬t.Over timer ∧ u.Over timer := by
  rcases disposes with ⟨rfl, hc⟩ | ⟨rings, resolves⟩
  · obtain ⟨m, rest, rfl, cancels⟩ := h.cancels_of_move grounds.laid grounds.busy.orderly hc
    obtain ⟨v, before, id, timed, -⟩ := cancels.wait
    obtain ⟨f, fs, frames, forTimer, own⟩ := cancels.top
    refine ⟨fun ended => ended.not_timed ht grounds.tidy ⟨v, before, id, timed⟩, ?_, .inl ⟨f, fs ++ rest, ?_, forTimer, own⟩⟩
    · rw [← id]
      exact Nat.lt_of_lt_of_le (grounds.begun _ v before) h.ages.waits_le
    · show m.frames ++ rest = _
      rw [frames, List.cons_append]
  · have waits : (t.session.run timer.run).isWaitingOn timer.wait := resolves.before
    obtain ⟨v, before, id⟩ := grounds.tidy.isWaitingOn_iff.1 waits
    refine ⟨fun ended => ?_, ?_, .inr resolves.after⟩
    · have rings : t.control = .work (.entry (.timeUp timer)) := rings
      rcases ended.past with cancelling | past
      · rcases ht.cancelling _ cancelling with ⟨_, hc⟩ | hc <;> cases rings.symm.trans hc
      · rw [waits] at past
        cases past
    · rw [← id]
      exact Nat.lt_of_lt_of_le (grounds.begun _ v before) h.ages.waits_le

/-- While its timer is being cancelled, a run still waits. -/
theorem Does.waits_of_cancels (h : t.Does d u) (grounds : t.Grounds) (tidy : u.session.Tidy)
    (cancels : Event.cancels timer ⟨t, d, u⟩) : (u.session.run timer.run).isWaitingOn timer.wait := by
  obtain ⟨rfl, hc⟩ := cancels
  obtain ⟨m, rest, rfl, cancels⟩ := h.cancels_of_move grounds.laid grounds.busy.orderly hc
  obtain ⟨v, -, id, -, after⟩ := cancels.wait
  exact tidy.isWaitingOn_iff.2 ⟨_, after, id⟩

end Turn

/-! ## What is kept of timers -/

/-- A timer was started, and has neither rung nor been cancelled. -/
structure IsLive (events : List Event) (timer : TimerHandle) : Prop where
  started : ∃ e ∈ events, e.startsTimer timer
  silent : ∀ e ∈ events, ¬e.rings timer
  kept : ∀ e ∈ events, ¬e.cancels timer

/-- The current run is suspended at an image, and waits with the timer. -/
def Session.AtImage (s : Session) (timer : TimerHandle) : Prop :=
  s.isWaiting timer.run timer.wait ∧ ∃ v, (s.run timer.run).wait = some v ∧ v.kind = .image

/-- What is kept of timers over the events.  A wait whose timer runs had it started, and a timer that is live
runs; a timer that rang at an image that is still up rang in vain; a timer that is disposed of is over, and the
run does not go on with the event with which it is cancelled.  An image that is up without a timer is to get one, or is about to be left, or its timer rang in vain. -/
structure Timekeeping (events : List Event) (t : Turn) : Prop where
  begun : ∀ e ∈ events, ∀ timer, e.rings timer → timer.wait < t.session.nextWait
  started : ∀ r v, (t.session.run r).wait = some v → v.timer → ∃ e ∈ events, e.startsTimer ⟨r, v.id⟩
  rung : ∀ r v, (t.session.run r).wait = some v → v.kind = .image →
    ∀ e ∈ events, e.rings ⟨r, v.id⟩ → e.Misses ⟨r, v.id⟩
  ended : ∀ e ∈ events, ∀ timer, e.disposesOf timer → t.Over timer
  apart : ∀ e ∈ events, ∀ timer, e.cancels timer → ¬e.Resolves timer.run timer.wait
  awaited : ∀ timer, t.Starts timer →
    (t.session.run timer.run).isWaitingOn timer.wait ∨ ∃ e ∈ events, e.rings timer
  live : ∀ timer, IsLive events timer → (t.session.run timer.run).IsTimed timer.wait
  stage : ∀ r v, (t.session.run r).wait = some v → v.kind = .image →
    v.timer ∨ t.Pending ⟨r, v.id⟩ ∨ t.Departing r ∨ ∃ e ∈ events, e.Misses ⟨r, v.id⟩

section

variable {events : List Event} {t u : Turn} {d : Deed}

theorem IsLive.of_concat {e : Event} {timer : TimerHandle} (h : IsLive (events ++ [e]) timer) :
    (IsLive events timer ∨ e.startsTimer timer) ∧ ¬e.rings timer ∧ ¬e.cancels timer ∧
      ∀ x ∈ events, ¬x.rings timer := by
  have last : e ∈ events ++ [e] := List.mem_append_right _ List.mem_cons_self
  have earlier {x : Event} (hx : x ∈ events) : x ∈ events ++ [e] := List.mem_append_left _ hx
  refine ⟨?_, h.silent e last, h.kept e last, fun x hx => h.silent x (earlier hx)⟩
  obtain ⟨x, hx, starts⟩ := h.started
  rcases List.mem_append.1 hx with hx | hx
  · exact .inl ⟨⟨x, hx, starts⟩, fun y hy => h.silent y (earlier hy), fun y hy => h.kept y (earlier hy)⟩
  · obtain rfl := List.mem_singleton.1 hx
    exact .inr starts

namespace Timekeeping

/-- A timer that is live after an event runs then. -/
theorem live_concat (h : Timekeeping events t) (does : t.Does d u) (ht : t.Tended) (grounds : t.Grounds)
    (tidy : u.session.Tidy) {timer : TimerHandle} (live : IsLive (events ++ [⟨t, d, u⟩]) timer) :
    (u.session.run timer.run).IsTimed timer.wait := by
  obtain ⟨started, quiet, kept, silent⟩ := live.of_concat
  rcases started with before | ⟨seconds, starts⟩
  · obtain ⟨v, before, id, timed⟩ := h.live timer before
    have own : (⟨timer.run, v.id⟩ : TimerHandle) = timer := by rw [id]
    cases does.handles ht grounds tidy timer.run with
    | kept same => exact ⟨v, same.trans before, id, timed⟩
    | ended free rung => exact absurd (own ▸ rung v before timed) quiet
    | begun kind node wait untimed => exact absurd ⟨v, before, rfl, timed⟩ (untimed v.id)
    | started w before' after =>
      cases before.symm.trans before'
      exact ⟨_, after, id, rfl⟩
    | missed w before' after misses =>
      cases before.symm.trans before'
      exact absurd (own ▸ misses.rings) quiet
    | cancelled w before' _ after cancels =>
      cases before.symm.trans before'
      exact absurd (own ▸ cancels) kept
  · -- It has not rung, so its run still waits when the host answers.
    obtain rfl : d = .reply (.startTimer seconds timer) true := starts
    rcases h.awaited timer ⟨seconds, .inl does.answered.1⟩ with waits | ⟨x, hx, rings⟩
    · obtain ⟨v, before, id⟩ := grounds.tidy.isWaitingOn_iff.1 waits
      refine ⟨{ v with timer := true }, ?_, id, rfl⟩
      rw [← Session.wait_setTimer_self before true, id]
      cases does with
      | reply => rfl
    · exact absurd rings (silent x hx)

/-- A timer that rings is for a wait that was begun before. -/
theorem begun_concat (h : Timekeeping events t) (grounds : t.Grounds) {e : Event} {timer : TimerHandle}
    (he : e ∈ events ++ [⟨t, d, u⟩]) (rings : e.rings timer) : timer.wait < t.session.nextWait := by
  rcases List.mem_append.1 he with he | he
  · exact h.begun e he timer rings
  · obtain rfl := List.mem_singleton.1 he
    have rings : t.control = .work (.entry (.timeUp timer)) := rings
    have bound := grounds.bound.control
    rw [rings] at bound
    exact (bound _ rfl).1

/-- A timer that has rung at an image that is still up after an event rang in vain. -/
theorem rung_concat (h : Timekeeping events t) (does : t.Does d u) (ht : t.Tended) (grounds : t.Grounds)
    (tidy : u.session.Tidy) {r : RunId} {v : Wait} (wait : (u.session.run r).wait = some v) (image : v.kind = .image)
    {e : Event} (he : e ∈ events ++ [⟨t, d, u⟩]) (rings : e.rings ⟨r, v.id⟩) : e.Misses ⟨r, v.id⟩ := by
  have either {P : Prop} (earlier : e ∈ events → P) (now : e = ⟨t, d, u⟩ → P) : P :=
    (List.mem_append.1 he).elim earlier fun he => now (List.mem_singleton.1 he)
  cases does.handles ht grounds tidy r with
  | kept same unheard =>
    have before := same.symm.trans wait
    refine either (fun he => h.rung r v before image e he rings) ?_
    rintro rfl
    exact absurd rings (unheard v before image)
  | ended free => cases free.symm.trans wait
  | begun kind node begun =>
    cases begun.symm.trans wait
    exact absurd (h.begun_concat grounds he rings) (Nat.lt_irrefl _)
  | started w before after starts =>
    cases after.symm.trans wait
    refine either (fun he => h.rung r w before image e he rings) ?_
    rintro rfl
    obtain ⟨seconds, rfl⟩ := starts
    cases rings.symm.trans does.answered.1
  | missed w before after misses =>
    cases after.symm.trans wait
    refine either (fun he => h.rung r w before image e he rings) ?_
    rintro rfl
    exact misses
  | cancelled w before _ after _ unheard =>
    cases after.symm.trans wait
    refine either (fun he => h.rung r w before image e he rings) ?_
    rintro rfl
    exact absurd rings unheard

/-- An image that is up after an event has its timer, or is to get one, or is about to be left, or its timer
rang in vain. -/
theorem stage_concat (h : Timekeeping events t) (does : t.Does d u) (allowed : timely t d) (ht : t.Tended)
    (grounds : t.Grounds) (tidy : u.session.Tidy) {r : RunId} {v : Wait}
    (wait : (u.session.run r).wait = some v) (image : v.kind = .image) :
    v.timer ∨ u.Pending ⟨r, v.id⟩ ∨ u.Departing r ∨ ∃ e ∈ events ++ [⟨t, d, u⟩], e.Misses ⟨r, v.id⟩ := by
  cases does.handles ht grounds tidy r with
  | kept same =>
    have before := same.symm.trans wait
    rcases h.stage r v before image with timed | pending | leaving | ⟨e, he, misses⟩
    · exact .inl timed
    · rcases does.still_pending allowed ht grounds.tidy before same pending with pending | leaving
      · exact .inr (.inl pending)
      · exact .inr (.inr (.inl leaving))
    · rcases does.departing allowed ht grounds.tidy leaving with leaving | free
      · exact .inr (.inr (.inl leaving))
      · cases free.symm.trans wait
    · exact .inr (.inr (.inr ⟨e, List.mem_append_left _ he, misses⟩))
  | ended free => cases free.symm.trans wait
  | begun kind node begun _ exhibits =>
    cases begun.symm.trans wait
    exact .inr (.inl (exhibits image).pending)
  | started w before after =>
    cases after.symm.trans wait
    exact .inl rfl
  | missed w before after misses =>
    cases after.symm.trans wait
    exact .inr (.inr (.inr ⟨_, List.mem_append_right _ List.mem_cons_self, misses⟩))
  | cancelled w before _ after _ _ top => exact .inr (.inr (.inl (.cancelling top)))

/-- **Timers are kept** with each event. -/
theorem concat (h : Timekeeping events t) (does : t.Does d u) (allowed : timely t d) (ht : t.Tended)
    (grounds : t.Grounds) (tidy : u.session.Tidy) : Timekeeping (events ++ [⟨t, d, u⟩]) u where
  begun e he timer rings := Nat.lt_of_lt_of_le (h.begun_concat grounds he rings) does.ages.waits_le
  started r v wait timed := by
    have last : (⟨t, d, u⟩ : Event) ∈ events ++ [⟨t, d, u⟩] := List.mem_append_right _ List.mem_cons_self
    cases does.handles ht grounds tidy r with
    | kept same =>
      obtain ⟨e, he, starts⟩ := h.started r v (same.symm.trans wait) timed
      exact ⟨e, List.mem_append_left _ he, starts⟩
    | ended free => cases free.symm.trans wait
    | begun kind node begun =>
      cases begun.symm.trans wait
      cases timed
    | started w before after starts =>
      cases after.symm.trans wait
      exact ⟨_, last, starts⟩
    | missed w before after | cancelled w before _ after =>
      cases after.symm.trans wait
      cases timed
  rung r v wait image e he rings := h.rung_concat does ht grounds tidy wait image he rings
  ended e he timer disposes := by
    rcases List.mem_append.1 he with he | he
    · exact does.stays_over allowed ht (h.ended e he timer disposes)
    · obtain rfl := List.mem_singleton.1 he
      exact (does.disposes ht grounds disposes).2
  apart e he timer cancels resolves := by
    rcases List.mem_append.1 he with he | he
    · exact h.apart e he timer cancels resolves
    · obtain rfl := List.mem_singleton.1 he
      have waits := does.waits_of_cancels grounds tidy cancels
      rw [resolves.after] at waits
      cases waits
  awaited timer starts := by
    rcases does.starts grounds starts with before | ⟨-, waits, same⟩
    · rcases h.awaited timer before with waits | ⟨e, he, rings⟩
      · rcases does.starting ht before starts with rings | runs
        · exact .inr ⟨_, List.mem_append_right _ List.mem_cons_self, rings⟩
        · left
          simp only [Session.run, runs]
          exact waits
      · exact .inr ⟨e, List.mem_append_left _ he, rings⟩
    · left
      rw [same]
      exact waits
  live timer live := h.live_concat does ht grounds tidy live
  stage r v wait image := h.stage_concat does allowed ht grounds tidy wait image

/-- At rest a timer is live just if it is that of the image that is up, and has not rung in vain. -/
theorem isLive_iff (h : Timekeeping events t) (ht : t.Tended) (tidy : t.session.Tidy) (back : t.IsBack [])
    (timer : TimerHandle) : IsLive events timer ↔ t.session.AtImage timer ∧ ∀ e ∈ events, ¬e.Misses timer := by
  obtain ⟨rest, past⟩ := back
  constructor
  · intro live
    obtain ⟨v, wait, id, timed⟩ := h.live timer live
    have image := ht.image _ v wait timed
    refine ⟨⟨?_, v, wait, image⟩, fun e he misses => live.silent e he misses.rings⟩
    simp [Session.isWaiting, ht.current _ v wait image, tidy.isWaitingOn_iff.2 ⟨v, wait, id⟩]
  · rintro ⟨⟨waits, v, wait, image⟩, heard⟩
    obtain ⟨v', wait', id⟩ := tidy.isWaitingOn_iff.1 (Bool.and_eq_true_iff.1 waits).2
    cases wait.symm.trans wait'
    have own : (⟨timer.run, v.id⟩ : TimerHandle) = timer := by rw [id]
    have timed : v.timer := by
      rcases h.stage _ v wait image with timed | pending | leaving | ⟨e, he, misses⟩
      · exact timed
      · rcases pending with ⟨seconds, mem⟩ | ⟨seconds, hc | mem⟩
        · rw [rest] at mem
          cases mem
        · rw [hc] at past
          cases past
        · rw [rest] at mem
          cases mem
      · cases leaving with
        | cancelling hc =>
          obtain ⟨f, below, hs, -⟩ := hc
          cases rest.symm.trans hs
        | faulty _ hs => cases rest.symm.trans hs
        | ending hc =>
          rw [hc] at past
          cases past
      · exact absurd (own ▸ misses) (heard e he)
    refine ⟨?_, fun e he rings => ?_, fun e he cancels => ?_⟩
    · obtain ⟨e, he, starts⟩ := h.started _ v wait timed
      exact ⟨e, he, own ▸ starts⟩
    · exact heard e he (own ▸ h.rung _ v wait image e he (own.symm ▸ rings))
    · exact (h.ended e he timer (.inl cancels)).not_timed ht tidy ⟨v, wait, id, timed⟩

end Timekeeping

end

/-! ## Timers in a history -/

section

variable {files : FileTree} {library : Path} {flags : FlagStore} {events : List Event} {t : Turn}

theorem Timekeeping.fresh (files : FileTree) (library : Path) (flags : FlagStore) :
    Timekeeping [] (Session.fresh files library flags).atRest where
  begun := by simp
  started r v wait := by simp [Session.run, Session.fresh, Session.atRest] at wait
  rung := by simp
  ended := by simp
  apart := by simp
  awaited timer := by
    rintro ⟨seconds, hc | mem⟩
    · cases hc
    · cases mem
  live timer live := by
    obtain ⟨e, he, -⟩ := live.started
    cases he
  stage r v wait := by simp [Session.run, Session.fresh, Session.atRest] at wait

theorem History.timekeeping (h : History timely (Session.fresh files library flags).atRest events t)
    (handed : handedOut [] events) (posted : AllPosted events) : Timekeeping events t := by
  induction h with
  | nil => exact .fresh files library flags
  | snoc h allowed does ih =>
    have tidy := ((h.snoc allowed does).grounds handed posted).tidy
    have handed := handedOut_of_append handed
    have posted := posted.of_append
    exact (ih handed posted).concat does allowed (h.tended handed posted) (h.grounds handed posted) tidy

/-- A timer is disposed of at most once. -/
theorem History.pairwise_disposes (h : History timely (Session.fresh files library flags).atRest events t)
    (handed : handedOut [] events) (posted : AllPosted events) :
    events.Pairwise fun e x => ∀ timer, e.disposesOf timer → ¬x.disposesOf timer := by
  induction h with
  | nil => exact .nil
  | snoc h allowed does ih =>
    have handed := handedOut_of_append handed
    have posted := posted.of_append
    refine List.pairwise_append.2 ⟨ih handed posted, List.pairwise_singleton _ _, fun e he x hx timer first again => ?_⟩
    obtain rfl := List.mem_singleton.1 hx
    have ended := (h.timekeeping handed posted).ended e he timer first
    exact (does.disposes (h.tended handed posted) (h.grounds handed posted) again).1 ended

/-- What a run that is adrift has under way. -/
theorem History.anchored (h : History timely (Session.fresh files library flags).atRest events t)
    (handed : handedOut [] events) (posted : AllPosted events) : t.Anchored := by
  induction h with
  | nil =>
    exact
      { rides := rfl
        jobs := by simp [Session.atRest, Session.fresh]
        waits := fun r adrift => by cases adrift.current }
  | snoc h allowed does ih =>
    have busy := ((h.snoc allowed does).grounds handed posted).busy
    have handed := handedOut_of_append handed
    have posted := posted.of_append
    exact does.anchored (h.tended handed posted) (h.grounds handed posted) busy (ih handed posted)

theorem History.housed (h : History calmCancel (Session.fresh files library flags).atRest events t)
    (started : battlesStarted [] events) (home : NoneTrespasses events) : t.Housed (latest events) := by
  induction h with
  | nil => exact fun r v hv => by cases hv
  | snoc h calm does ih =>
    rw [battlesStarted_append, Bool.and_eq_true_iff] at started
    have home := AtEach.of_append home
    rw [latest_concat]
    exact does.housed (h.kept started.1 home).separate (ih started.1 home)

/-- If every graph that is entered has its entry among its nodes, so has the one that a run entered last. -/
theorem isWhole_latest (whole : ∀ e ∈ events, ∀ x ∈ e.entered?, x.2.IsWhole) (r : RunId) :
    ∀ g ∈ latest events r, g.IsWhole := by
  induction events using List.reverseRecOn with
  | nil => simp
  | append_singleton events e ih =>
    intro g hg
    rw [latest_concat, Event.moves] at hg
    cases enters : e.enters? r with
    | some g' =>
      rw [enters] at hg
      cases hg
      exact whole e (by simp) (r, g) (Event.enters?_eq_some.1 enters)
    | none =>
      rw [enters] at hg
      exact ih (fun x hx => whole x (List.mem_append_left _ hx)) g hg

/-- Where runs wait in the graphs that they entered, and the graph is that of the current run, no timer rings
in vain. -/
theorem Event.not_misses {e : Event} {own : RunId → Option Graph} {timer : TimerHandle} (grounds : e.before.Grounds)
    (anchored : e.before.Anchored) (housed : e.before.Housed own) (owns : e.before.OwnsGraph own)
    (whole : ∀ r, ∀ g ∈ own r, g.IsWhole) : ¬e.Misses timer := by
  intro misses
  obtain ⟨current, waits⟩ := Bool.and_eq_true_iff.1 misses.waits
  have current : e.before.session.current = some timer.run := beq_iff_eq.1 current
  obtain ⟨v, wait, id⟩ := grounds.tidy.isWaitingOn_iff.1 waits
  have waiting := grounds.tidy.waiting_eq wait
  have other : v.kind ≠ .link := by
    have bound := grounds.bound.control
    rw [show e.before.control = .work (.entry (.timeUp timer)) from misses.rings] at bound
    exact (bound _ rfl).2 { v with timer := false } waiting id
  obtain ⟨g, hg, node, holds, same⟩ := housed timer.run { v with timer := false } waiting other
  cases graph : e.before.session.graph with
  | none =>
    have suspended : (e.before.session.run timer.run).phase = .suspended :=
      beq_iff_eq.1 (Bool.and_eq_true_iff.1 waits).1
    have active : (e.before.session.outline.run timer.run).phase.isActive := by
      show (e.before.session.run timer.run).phase.isActive
      rw [suspended]
      rfl
    exact other (anchored.waits timer.run ⟨current, graph, active⟩ { v with timer := false } waiting)
  | some g' =>
    obtain rfl : g = g' := Option.some.inj (hg.symm.trans (owns timer.run current g' graph))
    have gone : g.node? node.id = none := same ▸ misses.gone v g wait graph
    rcases holds with rfl | found
    · rw [whole timer.run g hg] at gone
      cases gone
    · rw [found] at gone
      cases gone

/-- While no run trespasses, no timer rings in vain. -/
theorem History.not_misses (h : History timely (Session.fresh files library flags).atRest events t)
    (handed : handedOut [] events) (posted : AllPosted events) (started : battlesStarted [] events)
    (home : NoneTrespasses events) (whole : ∀ e ∈ events, ∀ x ∈ e.entered?, x.2.IsWhole) :
    ∀ e ∈ events, ∀ timer, ¬e.Misses timer := by
  intro e he timer
  obtain ⟨earlier, later, rfl⟩ := List.append_of_mem he
  obtain ⟨before, -, -, -⟩ := h.of_append_cons
  rw [battlesStarted_append, Bool.and_eq_true_iff] at started
  have handed := handedOut_of_append handed
  have posted := posted.of_append
  have home := AtEach.of_append home
  have calm := before.mono fun _ _ => timely.calm
  exact Event.not_misses (before.grounds handed posted) (before.anchored handed posted) (calm.housed started.1 home)
    (calm.kept started.1 home).separate.graph (isWhole_latest fun x hx => whole x (List.mem_append_left _ hx))

/-- **No timer is left behind.**  The host's timers can all be cancelled, and it brings back only what it was
given.  Then at rest the timers that have neither rung nor been cancelled are that of the image at which the
current run is suspended, if it is at one, and if the timer has not rung in vain; and none rings in vain as long
as no run trespasses.  No timer is cancelled twice, and none whose ringing let its run go on. -/
theorem timers_kept (h : History timely (Session.fresh files library flags).atRest events t)
    (handed : handedOut [] events) (posted : AllPosted events) :
    (t.IsBack [] → ∀ timer, IsLive events timer ↔ t.session.AtImage timer ∧ ∀ e ∈ events, ¬e.Misses timer) ∧
    (NoneTrespasses events → battlesStarted [] events → (∀ e ∈ events, ∀ x ∈ e.entered?, x.2.IsWhole) →
      ∀ e ∈ events, ∀ timer, ¬e.Misses timer) ∧
    (events.Pairwise fun e x => ∀ timer, e.cancels timer → ¬x.cancels timer) ∧
    ∀ e ∈ events, ∀ x ∈ events, ∀ timer, e.rings timer → e.Resolves timer.run timer.wait → ¬x.cancels timer := by
  have once := h.pairwise_disposes handed posted
  refine ⟨fun back => ?_, fun home started whole => h.not_misses handed posted started home whole,
    once.imp fun apart timer first again => apart timer (.inl first) (.inl again), ?_⟩
  · exact (h.timekeeping handed posted).isLive_iff (h.tended handed posted) (h.grounds handed posted).tidy back
  · intro e he x hx timer rings resolves cancels
    by_cases same : e = x
    · exact (h.timekeeping handed posted).apart e he timer (same ▸ cancels) resolves
    · have : Std.Symm fun e x : Event => ∀ timer, e.disposesOf timer → ¬x.disposesOf timer :=
        ⟨fun _ _ apart timer first again => apart timer again first⟩
      exact once.forall he hx same timer (.inr ⟨rings, resolves⟩) (.inl cancels)

end

/-! ### The timer of a picture -/

/-- The timer of a picture that is up is live. -/
theorem picture_timer_live :
    let start := (Session.fresh (.empty []) (.ofString "scripts") {}).atRest
    let events := start.record pictureShown
    handedOut [] events ∧ AllPosted events ∧ (start.play pictureShown).IsBack [] ∧ NoneTrespasses events ∧
      battlesStarted [] events ∧ (∀ e ∈ events, ∀ x ∈ e.entered?, x.2.IsWhole) ∧
      (start.play pictureShown).session.AtImage ⟨0, 0⟩ ∧ IsLive events ⟨0, 0⟩ := by
  intro start events
  have history : History timely start events (start.play pictureShown) :=
    Turn.history_of_play? (Turn.play?_eq (by decide +kernel)) (by decide +kernel)
  have handed : handedOut [] events := by decide +kernel
  have posted : AllPosted events := by decide +kernel
  have back : (start.play pictureShown).IsBack [] := ⟨by decide +kernel, by decide +kernel⟩
  have home : NoneTrespasses events := by decide +kernel
  have started : battlesStarted [] events := by decide +kernel
  have whole : ∀ e ∈ events, ∀ x ∈ e.entered?, x.2.IsWhole := by decide +kernel
  have shown : (start.play pictureShown).session.AtImage ⟨0, 0⟩ :=
    ⟨by decide +kernel, ⟨0, .image, "picture", true⟩, by decide +kernel, rfl⟩
  obtain ⟨live, heard, -⟩ := timers_kept history handed posted
  exact ⟨handed, posted, back, home, started, whole, shown,
    (live back ⟨0, 0⟩).2 ⟨shown, fun e he => heard home started whole e he ⟨0, 0⟩⟩⟩

/-- A door to the quest, which is to be filled in. -/
def portal : Graph :=
  let door : Node := ⟨"door", .link { target := "quest", useTemplates := true }⟩
  { script := { id := "portal", nodes := [door], connections := [] }, entry := door }

/-- The quest behind the door, as it is read. -/
def questGraph : Graph :=
  let line : Node := ⟨"x", .dialogue { text := "Hello!" }⟩
  { script := { id := "quest", nodes := [line], connections := [] }, entry := line }

/-- From inside the call for the table the host stops the run and begins another.  It comes to its picture, and
the timer of the picture rings. -/
def replacedInPortal : List Deed :=
  [.begin (.startGraph portal none), .move, .move, .move, .move, .move,
    .begin .stop, .move, .move, .leave, .begin (.startGraph gallery none), .move, .leave,
    .reply (.fillIn 0 questGraph) (show TemplateTable from []), .move, .move, .move, .move, .move,
    .reply (.engage (.image ⟨"picture", "map.png", .int 3⟩)) (), .move,
    .reply (.startTimer (.int 3) ⟨1, 0⟩) true, .move, .move, .move, .move,
    .begin (.timeUp ⟨1, 0⟩), .move]

/-- **The picture of a run whose graph was replaced** stays up after its timer has rung: the current run is
suspended at it, but the timer is not live. -/
theorem replaced_picture_outlives_timer :
    let start := (Session.fresh quest (.ofString "scripts") {}).atRest
    let events := start.record replacedInPortal
    ∃ t, History timely start events t ∧ handedOut [] events ∧ AllPosted events ∧ t.IsBack [] ∧
      t.session.AtImage ⟨1, 0⟩ ∧ ¬IsLive events ⟨1, 0⟩ ∧ ¬NoneTrespasses events := by
  intro start events
  have history : History timely start events (start.play replacedInPortal) :=
    Turn.history_of_play? (Turn.play?_eq (by decide +kernel)) (by decide +kernel)
  have rung : events.any (·.before.control = .work (.entry (.timeUp ⟨1, 0⟩))) := by decide +kernel
  have silent : ¬IsLive events ⟨1, 0⟩ := by
    intro live
    obtain ⟨e, he, rings⟩ := List.any_eq_true.1 rung
    exact live.silent e he (show e.before.control = _ from of_decide_eq_true rings)
  have shown : (start.play replacedInPortal).session.AtImage ⟨1, 0⟩ :=
    ⟨by decide +kernel, ⟨0, .image, "picture", false⟩, by decide +kernel, rfl⟩
  exact ⟨_, history, by decide +kernel, by decide +kernel, ⟨by decide +kernel, by decide +kernel⟩, shown, silent,
    by decide +kernel⟩

end Questline

import Questline.Proofs.Deliveries

/-!
# Runs that lie dormant

A run that has no errand but its wait is let be: whatever is begun, for this run or another, it
waits on or is stopped.  Only an entry that brings what it waits for makes it go on.

So it is with a run that waits for a write at a link.  If the write fails, the fault stops the run,
in two moves with which the host has nothing to do.

* `Move.Dozes`: a move that lets a run be; `Session.enter_dozes`: so does every entry.
* `Turn.Dormant`, `Turn.Does.dozes`: a dormant run stays so.
* `Turn.Awaits`, `Turn.Does.awaits`: a run that waits for a write waits on, or is stopped.
* `Turn.Broken`, `Turn.Doomed`, `Turn.Retired`: a run whose link has failed is stopped.
-/

namespace Questline

open Json (Value)

/-! ## Runs for which nothing is done -/

/-- Whether a frame resumes the run `r`, or ends it, but not for good. -/
def Frame.ousts (r : RunId) : Frame → Bool
  | .resuming q _ => q == r
  | .ending q phase => q == r && phase != .stopped
  | _ => false

/-- Whether the run `r` is ended next, but not for good. -/
def Control.ousts (r : RunId) : Control → Bool
  | .work (.terminate q phase) => q == r && phase != .stopped
  | _ => false

/-- The run `r` is in the same phase in both sessions, and waits for the same. -/
def Session.Lasts (r : RunId) (s s' : Session) : Prop :=
  (s'.run r).phase = (s.run r).phase ∧
    (s'.outline.run r).waiting = (s.outline.run r).waiting

/-- What becomes of the run `r` with a move that does not go on with it: it waits on, or it is
stopped. -/
inductive Move.Dozes (r : RunId) (s : Session) (m : Move) : Prop
  | lasts (same : s.Lasts r m.session) (frames : ∀ f ∈ m.frames, f.ousts r = false)
      (control : m.control.ousts r = false)
  | stops (phase : (m.session.run r).phase = .stopped) (pending : m.session.pending = s.pending)
      (still : m.IsStill) (frames : ∀ f ∈ m.frames, f.ousts r = false)
      (control : m.control.ousts r = false)

section

variable {r q : RunId} {s s' : Session} {m : Move} {f : Frame}

theorem Frame.not_ousts (h : f.revives r = false) : f.ousts r = false := by
  cases f <;> first | rfl | exact h

theorem Control.not_ousts {c : Control} (h : c.revives r = false) : c.ousts r = false := by
  cases c with
  | work task => cases task <;> first | rfl | exact h
  | _ => rfl

namespace Session.Lasts

theorem of_outline (h : s'.outline = s.outline) : s.Lasts r s' :=
  ⟨congrArg (fun o : Outline => (o.run r).phase) h,
    congrArg (fun o : Outline => (o.run r).waiting) h⟩

theorem refl (s : Session) : s.Lasts r s := of_outline rfl

theorem of_run (h : s'.run r = s.run r) : s.Lasts r s' :=
  ⟨congrArg Run.phase h, congrArg (fun run : Run => run.outline.waiting) h⟩

theorem setRun {f : Run → Run} (h : ∀ run, (f run).outline = run.outline) :
    s.Lasts r (s.setRun q f) := of_outline (Session.Retouches.setRun h).outline

end Session.Lasts

namespace Move.Dozes

theorem of_nil (h : s.Lasts r m.session) (frames : m.frames = [])
    (control : m.control.ousts r = false) : m.Dozes r s := .lasts h (by simp [frames]) control

theorem finished (h : s.Lasts r s') : (Move.finished s').Dozes r s := .of_nil h rfl rfl

theorem failure (h : s.Lasts r s') (fault : Fault) : (Move.failure s' fault).Dozes r s :=
  .of_nil h rfl rfl

theorem ask (h : s.Lasts r s') (a : Ask) : (Move.ask s' a).Dozes r s := .of_nil h rfl rfl

theorem under (h : m.Dozes r s) (hf : f.ousts r = false) (still : f.rider = .nobody) :
    (m.under f).Dozes r s := by
  have frames (hm : ∀ g ∈ m.frames, g.ousts r = false) (g) (hg : g ∈ (m.under f).frames) :
      g.ousts r = false := by
    rcases List.mem_append.1 hg with hg | hg
    · exact hm g hg
    · exact List.mem_singleton.1 hg ▸ hf
  cases h with
  | lasts same hm control => exact .lasts same (frames hm) control
  | stops phase pending hs hm control =>
    exact .stops phase pending (hs.under still) (frames hm) control

theorem after (h : m.Dozes r s') (hs : s.Lasts r s') (pending : s'.pending = s.pending) :
    m.Dozes r s := by
  cases h with
  | lasts same frames control =>
    exact .lasts ⟨same.1.trans hs.1, same.2.trans hs.2⟩ frames control
  | stops phase hp still frames control =>
    exact .stops phase (hp.trans pending) still frames control

/-- What is done for another run. -/
theorem of_worksFor {P : Prop} (h : m.WorksFor P q s) (hq : r ≠ q) : m.Dozes r s := by
  refine .lasts (.of_run (h.session.others r hq)) (fun f hf => Frame.not_ousts ?_)
    (Control.not_ousts ?_)
  · cases hv : f.revives r with
    | true => exact absurd (h.frames f hf r hv) hq
    | false => rfl
  · cases hv : m.control.revives r with
    | true => exact absurd (h.control r hv) hq
    | false => rfl

/-- What is done for any run, if it is so for the run itself. -/
theorem of_self {P : Prop} (h : m.WorksFor P q s) (self : r = q → m.Dozes r s) : m.Dozes r s := by
  by_cases hq : r = q
  · exact self hq
  · exact of_worksFor h hq

/-- What is done for no run at all. -/
theorem of_nobody {P : Prop} (h : ∀ q, m.WorksFor P q s) : m.Dozes r s :=
  of_worksFor (h (r + 1)) (Nat.ne_of_lt (Nat.lt_succ_self r))

end Move.Dozes

end

namespace Session

variable (s : Session) {r : RunId}

theorem report_dozes (ws : List Warning) : (s.report r ws).Dozes r s := by
  cases ws with
  | nil => exact .finished (.refl s)
  | cons w ws => exact .ask (.setRun (by exact fun _ => rfl)) _

theorem dispatch_dozes (t : Trigger) : (s.dispatch r t).Dozes r s := by
  unfold dispatch perform
  split
  · split
    · exact .ask (.refl s) _
    · split
      · exact .finished (.of_run (by exact rfl))
      · exact .failure (.of_run (by exact rfl)) _
    · exact .ask (.refl s) _
    · exact .ask (.refl s) _
  · exact .failure (.refl s) _

theorem dismiss_dozes (npcs : List String) : (s.dismiss r npcs).Dozes r s := by
  cases npcs with
  | nil => exact .finished (.setRun (by exact fun _ => rfl))
  | cons npc rest => exact .ask (.refl s) _

/-- A run that is ended for good is stopped. -/
theorem phase_close_stopped (hr : r < s.runs.length) :
    ((s.close r .stopped).session.run r).phase = .stopped := by
  rw [close_stopped]
  exact (dismiss_spares (s.phase_ended r hr) (s.run r).npcs).session.phase

theorem close_dozes (hr : r < s.runs.length) : (s.close r .stopped).Dozes r s := by
  have spares := (dismiss_spares (s.phase_ended r hr) (s.run r).npcs).under
    (f := .announcing (s.run r).completion (s.run r).ledger) rfl
  have serves := s.close_serves r .stopped
  refine .stops (phase_close_stopped s hr) (congrArg Outline.pending serves.outline)
    (serves.still.resolve_right id) (fun f hf => Frame.not_ousts ?_) (Control.not_ousts ?_)
  · rw [close_stopped] at hf
    exact spares.frames f hf
  · rw [close_stopped]
    exact spares.control

theorem terminate_dozes (hr : r < s.runs.length) : (s.terminate r .stopped).Dozes r s := by
  rcases s.terminate_cases r .stopped with ⟨w, -, -, h⟩ | ⟨-, h⟩
  · rw [h]
    refine Move.Dozes.under (.ask (.setRun ?_) _) (by simp [Frame.ousts]) rfl
    exact fun run => Run.outline_setTimer run _ _
  · rw [h]
    exact close_dozes s hr

theorem stopIfActive_dozes : (s.stopIfActive r).Dozes r s := by
  unfold stopIfActive
  split
  · exact .of_nil (.refl s) rfl (by simp [Move.work, Control.ousts])
  · exact .finished (.refl s)

theorem stop_dozes (hr : r < s.runs.length) : s.stop.Dozes r s := by
  rcases s.stop_cases with h | ⟨q, -, -, h⟩
  · rw [h]
    exact .finished (.refl s)
  · rw [h]
    refine .of_self (terminate_worksFor s q _) ?_
    rintro rfl
    exact terminate_dozes s hr

theorem start_dozes (hr : r < s.runs.length) (script : String) (completion : Option Callback) :
    (s.start script completion).Dozes r s := by
  rcases s.start_cases script completion with ⟨f, h⟩ | ⟨-, ⟨graph, -, h⟩ | ⟨f, -, h⟩⟩
  · rw [h]
    exact .failure (.refl s) f
  · rw [h]
    exact .of_worksFor (startGraph_worksFor s graph completion) (Nat.ne_of_lt hr)
  · rw [h]
    have stopped := stop_dozes { s with lastError := some (.data f) } (r := r) hr
    exact (stopped.under (f := .failing (.data f)) rfl rfl).after (.of_run rfl) rfl

theorem post_dozes (ds : List Delivery) : (s.post ds).Dozes r s := by
  cases ds with
  | nil => exact .finished (.refl s)
  | cons d ds => exact (Move.Dozes.ask (.refl s) _).under (f := .posting ds) rfl rfl

/-- **An entry lets a run be** that waits for a write, or for nothing, unless it brings what the
run waits for. -/
theorem enter_dozes (hr : r < s.runs.length) (e : Entry)
    (hw : ∀ v ∈ (s.outline.run r).waiting, v.kind = .link ∧ e.answers? ≠ some (r, v.id)) :
    (s.enter e).Dozes r s := by
  have late {w : WaitId} (he : e.answers? = some (r, w)) : (s.run r).isWaitingOn w = false := by
    rw [Run.isWaitingOn_eq, Option.any_eq_false]
    intro v hv
    have other := (hw v hv).2
    rw [he] at other
    simpa using fun same : v.id = w => other (by rw [same])
  cases e with
  | start script completion => exact start_dozes s hr script completion
  | startGraph graph completion =>
    exact .of_worksFor (startGraph_worksFor s graph completion) (Nat.ne_of_lt hr)
  | stop => exact stop_dozes s hr
  | advance answer =>
    show (s.advance answer).Dozes r s
    rcases s.advance_cases answer with ⟨f, h⟩ | ⟨q, wait, -, hp, hwait, player, -, h⟩
    · rw [h]
      exact .failure (.refl s) f
    · rw [h]
      refine .of_self (resumeInput_worksFor s q wait answer
        ⟨wait.id, by simp [Run.isWaitingOn, hp, hwait]⟩) ?_
      rintro rfl
      have link : wait.kind = .link :=
        (hw { wait with timer := false } (by simp [outline, Run.outline, hp, hwait])).1
      rw [link] at player
      cases player
  | battleOver b outcome =>
    refine .of_self (battleOver_worksFor s b outcome) ?_
    rintro rfl
    show (s.battleOver b outcome).Dozes _ s
    rw [battleOver, if_neg (by simp [isWaiting, late rfl])]
    exact .finished (.refl s)
  | timeUp timer =>
    refine .of_self (timeUp_worksFor s timer) ?_
    rintro rfl
    show (s.timeUp timer).Dozes _ s
    rw [timeUp, if_neg (by simp [isWaiting, late rfl])]
    exact .finished (.refl s)
  | written d =>
    refine .of_self (deliver_worksFor s d) ?_
    rintro rfl
    show (s.deliver d).Dozes _ s
    simp only [deliver]
    rw [if_neg (by simp [late rfl])]
    exact .finished (.refl s)
  | settle ticket outcome =>
    exact (post_dozes _ _).after (.of_run rfl) rfl

end Session

/-! ### Links that fail -/

/-- Whether the fault goes through the frame as the fault of a link of the run `r`. -/
def Frame.IsBroken (r : RunId) (f : Fault) (frame : Frame) : Prop :=
  frame = .driving r ∨ frame = .linking r ∧ ∃ reason, f = .link reason

/-- A run that goes on is stopped if its link fails. -/
theorem Frame.recover_of_broken {s : Session} {r : RunId} {frame : Frame} {f : Fault}
    (h : frame.IsBroken r f)
    (active : (s.run r).isActive) :
    (frame.recover s f).control = .work (.terminate r .stopped) ∧
      (frame.recover s f).session.runs = s.runs := by
  have stops : Session.stopIfActive { s with lastError := some f } r =
      .work { s with lastError := some f } (.terminate r .stopped) := if_pos active
  rcases h with rfl | ⟨rfl, reason, rfl⟩
  · simp only [Frame.recover, stops]
    exact ⟨rfl, rfl⟩
  · simp only [Frame.recover, stops]
    exact ⟨rfl, rfl⟩

/-! ### Deeds -/

namespace Turn

/-- The run `r` has begun and has no errand but a wait; and nothing on the stack resumes it, or ends
it but not for good. -/
structure Dormant (r : RunId) (t : Turn) : Prop where
  begun : r < t.session.runs.length
  riders : riders r t.control.rider t.stack = 0
  jobs : ∀ job, (r, job) ∉ t.session.pending
  stack : ∀ f ∈ t.stack, f.ousts r = false
  control : t.control.ousts r = false

/-- The entry that is begun brings nothing that the run `r` waits for, and that is a write, if
anything. -/
def Misses (r : RunId) (t : Turn) : Prop :=
  ∀ e, t.control = .work (.entry e) → ∀ v ∈ (t.session.outline.run r).waiting,
    v.kind = .link ∧ e.answers? ≠ some (r, v.id)

variable {t u : Turn} {d : Deed} {r : RunId} {s : Session} {stack : List Frame}

theorem Dormant.not_rider (h : t.Dormant r)
    (rides : Rides (Fitting fun _ => some .everywhere) t.control.rider t.stack) :
    t.control.rider.run? ≠ some r := fun hx =>
  absurd h.riders (Nat.ne_of_gt (riders_pos rides hx))

theorem Dormant.not_riding {f : Frame} {c : Control} (h : Dormant r ⟨s, f :: stack, c⟩)
    (rides : Rides (Fitting fun _ => some .everywhere) c.rider (f :: stack)) :
    f.rider.run? ≠ some r := by
  intro hx
  have h : Questline.riders r c.rider (f :: stack) = 0 := h.riders
  have below := riders_pos rides.below hx
  have le : Questline.riders r f.rider stack ≤ Questline.riders r c.rider (f :: stack) :=
    riders_cons_le
  omega

/-- A task lets a run be that has no errand. -/
theorem Dormant.begin {task : Task} (h : Dormant r ⟨s, stack, .work task⟩)
    (rides : Rides (Fitting fun _ => some .everywhere) (Control.work task).rider stack)
    (misses : Misses r ⟨s, stack, .work task⟩) : (task.begin s).Dozes r s := by
  have way := h.not_rider rides
  cases task with
  | entry e => exact s.enter_dozes h.begun e (misses e rfl)
  | drive q job =>
    exact .of_self (s.drive_worksFor q job) fun hq => absurd (congrArg some hq.symm) way
  | visit q node graph =>
    exact .of_self (s.visit_worksFor q node graph) fun hq => absurd (congrArg some hq.symm) way
  | respond q node graph answer =>
    exact .of_self (s.respond_worksFor q node graph answer)
      fun hq => absurd (congrArg some hq.symm) way
  | resolve q node graph outcome =>
    exact .of_self (s.resolve_worksFor q node graph outcome)
      fun hq => absurd (congrArg some hq.symm) way
  | follow q node output graph =>
    exact .of_self (s.follow_worksFor q node output graph)
      fun hq => absurd (congrArg some hq.symm) way
  | dispatch q trigger =>
    refine .of_self (s.dispatch_worksFor q trigger) ?_
    rintro rfl
    exact s.dispatch_dozes trigger
  | report q ws =>
    refine .of_self (s.report_worksFor q ws) ?_
    rintro rfl
    exact s.report_dozes ws
  | engage card => exact .ask (.refl s) _
  | terminate q phase =>
    refine .of_self (s.terminate_worksFor q phase) ?_
    rintro rfl
    obtain rfl : phase = .stopped := by simpa [Control.ousts] using h.control
    exact s.terminate_dozes h.begun

theorem Dormant.resume {a : Ask} (h : Dormant r ⟨s, stack, .ask a⟩)
    (rides : Rides (Fitting fun _ => some .everywhere) a.rider stack) (answer : a.call.Reply) :
    (a.resume s answer).Dozes r s := by
  have way : a.rider.run? ≠ some r := h.not_rider rides
  cases a with
  | startTimer seconds timer =>
    refine .finished ?_
    split
    · exact .setRun fun run => Run.outline_setTimer run _ _
    · exact .refl s
  | take q node item amount =>
    simp only [Ask.resume]
    split
    · exact .finished (.refl s)
    · refine .of_self (s.report_worksFor q _) ?_
      rintro rfl
      exact s.report_dozes _
  | count q node c graph =>
    exact .of_self (s.follow_worksFor q node _ graph) fun hq => absurd (congrArg some hq.symm) way
  | spawn q request => exact .finished (.setRun (by exact fun _ => rfl))
  | remove q npc => exact .finished (.setRun (by exact fun _ => rfl))
  | fillIn q graph =>
    exact .of_self (s.install_worksFor q _) fun hq => absurd (congrArg some hq.symm) way
  | report q w rest =>
    refine .of_self (s.report_worksFor q rest) ?_
    rintro rfl
    exact s.report_dozes rest
  | dismiss q npc rest =>
    refine .of_self (s.dismiss_worksFor q rest) ?_
    rintro rfl
    exact s.dismiss_dozes rest
  | handOver q node link callback ledger =>
    exact .of_self (s.afterHandOver_worksFor q node link answer)
      fun hq => absurd (congrArg some hq.symm) way
  | engage | cancelTimer | deliver | give | battle | world | announce => exact .finished (.refl s)

theorem Dormant.receive {frame : Frame} {result : Result}
    (h : Dormant r ⟨s, frame :: stack, .done result⟩) (hn : ∀ a, frame ≠ .asked a)
    (rides : Rides (Fitting fun _ => some .everywhere) (Control.done result).rider (frame :: stack)) :
    (frame.receive s result).Dozes r s := by
  have way := h.not_riding rides
  have owned := h.stack frame List.mem_cons_self
  cases frame with
  | draining => exact .of_nobody s.drain_worksFor
  | driving q =>
    cases result with
    | done => exact .finished (.refl s)
    | stepped step =>
      refine .of_self (s.proceed_worksFor q step) ?_
      rintro rfl
      have riding : 0 < Questline.riders r (.stepped step) (.driving r :: stack) := by
        simp [Questline.riders, Frame.seats]
      exact absurd h.riders (Nat.ne_of_gt riding)
  | failing f => exact .failure (.refl s) f
  | triggering q node graph | following q node output graph =>
    exact .of_self (s.follow_worksFor q node _ graph) fun hq => absurd (congrArg some hq.symm) way
  | stepping step => exact .of_nil (.refl s) rfl rfl
  | timing q wait seconds =>
    simp only [Frame.receive]
    split
    · exact .ask (.refl s) _
    · exact .finished (.refl s)
  | resuming q job =>
    refine .of_self (s.resume_worksFor q job trivial) fun hq => ?_
    simp [Frame.ousts, hq] at owned
  | ending q phase =>
    refine .of_self (s.close_worksFor q phase) ?_
    rintro rfl
    obtain rfl : phase = .stopped := by simpa [Frame.ousts] using owned
    exact s.close_dozes h.begun
  | announcing completion ledger => exact .of_nobody fun q => s.announce_worksFor q completion ledger
  | linking q => exact .finished (.refl s)
  | posting rest => exact s.post_dozes rest
  | asked a => exact absurd rfl (hn a)

theorem Dormant.recover {frame : Frame} {fault : Fault}
    (h : Dormant r ⟨s, frame :: stack, .failed fault⟩)
    (rides : Rides (Fitting fun _ => some .everywhere) .nobody (frame :: stack)) :
    (frame.recover s fault).Dozes r s := by
  have way := h.not_riding rides
  have noted (q : RunId) : s.Lasts q { s with lastError := some fault } := .of_run rfl
  have stops (q : RunId) :
      Move.Dozes r s (Session.stopIfActive { s with lastError := some fault } q) := by
    refine .of_self (q := q) ((Session.stopIfActive_worksFor _ q).after (.of_eq rfl rfl rfl rfl)) ?_
    rintro rfl
    exact (Session.stopIfActive_dozes _).after (noted _) rfl
  cases frame with
  | draining => exact .of_nil (.of_run rfl) rfl rfl
  | driving q => exact (stops q).under (f := .failing fault) rfl rfl
  | triggering q node graph =>
    simp only [Frame.recover]
    split
    · refine .of_self ((s.report_worksFor q _).under (by simp [Frame.revives]) rfl rfl) fun hq => ?_
      exact absurd (congrArg some hq.symm) way
    · exact .failure (.refl s) _
  | linking q =>
    cases fault with
    | link f => exact stops q
    | _ => exact .failure (.refl s) _
  | posting rest => exact s.post_dozes rest
  | failing | following | stepping | timing | resuming | ending | announcing | asked =>
    exact .failure (.refl s) fault

/-- A run that is dormant has no errand but its wait. -/
theorem Dormant.errands (h : t.Dormant r) :
    t.errands r = (t.session.outline.run r).waiting.toList.length := by
  have jobs : t.session.outline.pending.filter (·.1 == r) = [] := by
    refine List.filter_eq_nil_iff.2 fun x hx own => ?_
    obtain ⟨q, job⟩ := x
    obtain rfl : q = r := by simpa using own
    exact h.jobs job hx
  simp [Turn.errands, Outline.load, jobs, h.riders]

theorem dormant_of_errands (begun : r < t.session.runs.length)
    (errands : t.errands r ≤ (t.session.outline.run r).waiting.toList.length)
    (stack : ∀ f ∈ t.stack, f.ousts r = false) (control : t.control.ousts r = false) :
    t.Dormant r := by
  simp only [Turn.errands, Outline.load] at errands
  refine ⟨begun, by omega, fun job hj => ?_, stack, control⟩
  have none : t.session.outline.pending.filter (·.1 == r) = [] :=
    List.eq_nil_of_length_eq_zero (by omega)
  exact List.filter_eq_nil_iff.1 none (r, job) hj (by simp)

/-- What becomes of a dormant run with a move. -/
theorem Dormant.on {m : Move} (popped : List Frame) {rest : List Frame} (h : t.Dormant r)
    (hs : t.stack = popped ++ rest) (hm : m.Dozes r t.session)
    (fewer : (m.on rest).errands r ≤ t.errands r)
    (length : t.session.runs.length ≤ m.session.runs.length) :
    (m.on rest).Dormant r ∧
      (t.session.Lasts r m.session ∨ (m.session.run r).phase = .stopped) := by
  have begun := Nat.lt_of_lt_of_le h.begun length
  have stack (frames : ∀ f ∈ m.frames, f.ousts r = false) :
      ∀ f ∈ (m.on rest).stack, f.ousts r = false := by
    intro f hf
    rcases List.mem_append.1 hf with hf | hf
    · exact frames f hf
    · exact h.stack f (hs ▸ List.mem_append_right _ hf)
  cases hm with
  | lasts same frames control =>
    refine ⟨dormant_of_errands begun ?_ (stack frames) control, .inl same⟩
    rw [h.errands, ← same.2] at fewer
    exact fewer
  | stops phase pending still frames control =>
    refine ⟨⟨begun, ?_, fun job hj => h.jobs job (pending ▸ hj), stack frames, control⟩, .inr phase⟩
    show Questline.riders r m.control.rider (m.frames ++ rest) = 0
    rw [still.control, riders_append still.frames]
    have before := h.riders
    rw [hs] at before
    exact Nat.le_zero.1 (before ▸ riders_drop_le)

/-- **Nothing is done for a dormant run**, unless an entry brings what it waits for: it waits on, or
it is stopped. -/
theorem Does.dozes (h : t.Does d u) (calm : calmCancel t d) (busy : t.Busy) (ht : t.Dormant r)
    (misses : t.Misses r) :
    u.Dormant r ∧ (t.session.Lasts r u.session ∨ (u.session.run r).phase = .stopped) := by
  have fewer := (h.busy calm busy).2 r ht.begun
  have length := h.ages.length_le
  have yields (hy : t.Yields d u) :
      u.Dormant r ∧ (t.session.Lasts r u.session ∨ (u.session.run r).phase = .stopped) := by
    have same : t.session.Lasts r u.session := .of_outline hy.outline
    have errands : u.errands r ≤ (u.session.outline.run r).waiting.toList.length := by
      rw [same.2, ← ht.errands]
      exact fewer
    refine ⟨dormant_of_errands (Nat.lt_of_lt_of_le ht.begun length) errands ?_ ?_, .inl same⟩
    · intro f hf
      rcases hy.stack with hs | ⟨a, hs⟩ | ⟨a, hs⟩
      · exact ht.stack f (hs ▸ hf)
      · rw [hs] at hf
        rcases List.mem_cons.1 hf with rfl | hf
        · rfl
        · exact ht.stack f hf
      · exact ht.stack f (hs ▸ List.mem_cons_of_mem _ hf)
    · obtain ⟨s, stack, c⟩ := t
      obtain ⟨s', stack', c'⟩ := u
      have shifts : Shifts stack c stack' c' := hy.shifts
      cases shifts with
      | change => exact ht.control
      | beginAtRest | beginInside | leave | fail => rfl
  rcases h.serves busy.orderly.ends with hy | ⟨-, -, -, -, -, -, -, -, -, moved⟩
  · exact yields hy
  cases h with
  | work task => exact ht.on [] rfl (ht.begin busy.rides misses) fewer length
  | @receive s frame stack result hn =>
    exact ht.on [frame] rfl (ht.receive hn busy.rides) fewer length
  | @recover s frame stack fault hn => exact ht.on [frame] rfl (ht.recover busy.rides) fewer length
  | reply answer => exact ht.on [] rfl (ht.resume busy.rides answer) fewer length
  | beginAtRest | beginInside | leave | fail | change =>
    rcases moved with hd | ⟨a, answer, hd⟩ <;> cases hd

/-! ## Runs that wait for a write, and runs that are over -/

/-- The run `r` waits for a write on the wait `w`, and nothing else is under way for it. -/
structure Awaits (r : RunId) (w : WaitId) (t : Turn) : Prop where
  dormant : t.Dormant r
  waits : ∃ node, (t.session.outline.run r).waiting = some { id := w, kind := .link, node }

/-- The run `r` is stopped, and nothing is under way for it. -/
structure Retired (r : RunId) (t : Turn) : Prop where
  dormant : t.Dormant r
  stopped : (t.session.run r).phase = .stopped

theorem Retired.waiting (h : t.Retired r) : (t.session.outline.run r).waiting = none := by
  simp [Session.outline, Run.outline, h.stopped]

theorem Retired.errands (h : t.Retired r) : t.errands r = 0 := by
  rw [h.dormant.errands, h.waiting]
  rfl

/-- A run that is stopped stays so. -/
theorem Does.retired (h : t.Does d u) (calm : calmCancel t d) (busy : t.Busy) (ht : t.Retired r) :
    u.Retired r := by
  obtain ⟨dormant, same | stopped⟩ := h.dozes calm busy ht.dormant fun e _ v hv => by
    rw [ht.waiting] at hv
    cases hv
  · exact ⟨dormant, same.1.trans ht.stopped⟩
  · exact ⟨dormant, stopped⟩

/-- A run that waits for a write waits on, or is stopped, unless the end of the write is
delivered. -/
theorem Does.awaits {w : WaitId} (h : t.Does d u) (calm : calmCancel t d) (busy : t.Busy)
    (ht : t.Awaits r w) (misses : ∀ e, t.control = .work (.entry e) → e.answers? ≠ some (r, w)) :
    u.Awaits r w ∨ u.Retired r := by
  obtain ⟨node, waits⟩ := ht.waits
  obtain ⟨dormant, same | stopped⟩ := h.dozes calm busy ht.dormant fun e hc v hv => by
    rw [waits] at hv
    cases hv
    exact ⟨rfl, misses e hc⟩
  · exact .inl ⟨dormant, node, same.2.trans waits⟩
  · exact .inr ⟨dormant, stopped⟩

/-- The run `r` goes on, and the fault of its link has just come up. -/
structure Broken (r : RunId) (t : Turn) : Prop where
  dormant : t.Dormant r
  free : (t.session.run r).wait = none
  active : (t.session.run r).isActive
  fault : ∃ frame stack f, t.stack = frame :: stack ∧ t.control = .failed f ∧ frame.IsBroken r f

/-- The run `r` is about to be stopped. -/
structure Doomed (r : RunId) (t : Turn) : Prop where
  dormant : t.Dormant r
  free : (t.session.run r).wait = none
  control : t.control = .work (.terminate r .stopped)

theorem not_waiting_of_free (h : (s.run r).wait = none) : (s.outline.run r).waiting = none := by
  simp [Session.outline, Run.outline, h]

/-- Nothing that is begun is for a run that does not wait. -/
theorem misses_of_free (h : (t.session.run r).wait = none) : t.Misses r := fun e _ v hv => by
  rw [not_waiting_of_free h] at hv
  cases hv

theorem Broken.next? (h : t.Broken r) : t.next?.isSome := by
  obtain ⟨frame, stack, f, hs, hc, broken⟩ := h.fault
  rcases broken with rfl | ⟨rfl, -⟩ <;> simp [Turn.next?, hs, hc]

theorem Doomed.next? (h : t.Doomed r) : t.next?.isSome := by
  simp [Turn.next?, h.control]

/-- **A run whose link has failed is about to be stopped.** -/
theorem Does.broken (h : t.Does d u) (calm : calmCancel t d) (busy : t.Busy) (ht : t.Broken r) :
    u.Doomed r := by
  obtain ⟨dormant, -⟩ := h.dozes calm busy ht.dormant (misses_of_free ht.free)
  obtain ⟨frame, below, f, hs, hc, broken⟩ := ht.fault
  obtain ⟨s, stack, c⟩ := t
  obtain rfl : stack = frame :: below := hs
  obtain rfl : c = .failed f := hc
  cases h with
  | recover =>
    obtain ⟨stops, runs⟩ := Frame.recover_of_broken (s := s) broken ht.active
    refine ⟨dormant, ?_, stops⟩
    show ((frame.recover s f).session.run r).wait = none
    rw [Session.run, runs]
    exact ht.free
  | leave => rcases broken with h | ⟨h, -⟩ <;> cases h
  | change past => cases past

/-- **A run that is about to be stopped is stopped.** -/
theorem Does.doomed (h : t.Does d u) (calm : calmCancel t d) (busy : t.Busy) (ht : t.Doomed r) :
    u.Retired r := by
  obtain ⟨dormant, -⟩ := h.dozes calm busy ht.dormant (misses_of_free ht.free)
  obtain ⟨s, stack, c⟩ := t
  obtain rfl : c = .work (.terminate r .stopped) := ht.control
  have free : (s.run r).wait = none := ht.free
  cases h with
  | work =>
    have closes : s.terminate r .stopped = s.close r .stopped :=
      s.withoutTimer_of_untimed r (fun w hw => by cases free.symm.trans hw) _ _
    refine ⟨dormant, ?_⟩
    show ((s.terminate r .stopped).session.run r).phase = .stopped
    rw [closes]
    exact s.phase_close_stopped ht.dormant.begun
  | beginAtRest past => cases past
  | leave past => cases past
  | change past => cases past

/-! ### How it begins -/

/-- Where a link is taken, nothing is about to resume or to end a run. -/
theorem Busy.unousted {a : Ask} (busy : Busy ⟨s, stack, .ask a⟩) (link : a.rider = .linking r) :
    ∀ f ∈ stack, f.ousts r = false := by
  have unhurried : Unhurried stack := by
    rcases busy.poised.top with hu | past | ⟨timer, hc⟩
    · exact hu
    · cases past
    · obtain rfl := Control.ask.inj hc
      cases link
  intro f hf
  have free := busy.poised.free unhurried f hf
  cases f <;> first | rfl | cases free

/-- A run whose link fails is dormant. -/
theorem Busy.dormant_of_fault {a : Ask} (busy : Busy ⟨s, stack, .ask a⟩)
    (link : a.rider = .linking r) (begun : r < s.runs.length) (fault : Fault) : Dormant r ⟨s, stack, .failed fault⟩ := by
  have single : s.outline.load r + riders r a.rider stack ≤ 1 := busy.single r
  have way : riders r a.rider stack = riders r .nobody stack + 1 :=
    riders_eq_succ busy.rides (by show a.rider.run? = _; rw [link]; rfl)
  refine dormant_of_errands begun ?_ (busy.unousted link) rfl
  show s.outline.load r + riders r .nobody stack ≤ _
  omega

/-- **A run waits for a write** from when the host says that it is under way. -/
theorem Busy.awaits {node : String} {link : Link} {callback : Callback} {ledger : Ledger}
    {ticket : Ticket} (busy : Busy ⟨s, stack, .ask (.handOver r node link callback ledger)⟩)
    (after : Busy ((s.afterHandOver r node link (.pending ticket)).on stack)) :
    ((s.afterHandOver r node link (.pending ticket)).on stack).Awaits r s.nextWait := by
  have begun : r < s.runs.length := busy.orderly.control r rfl
  have suspended : (s.suspend r .link node).run r = { s.run r with
      wait := some { id := s.nextWait, kind := .link, node }, phase := .suspended,
      activity := WaitKind.link.activity } := Session.run_setRun_self begun
  have waits : ((s.suspend r .link node).outline.run r).waiting =
      some { id := s.nextWait, kind := .link, node } := by
    show ((s.suspend r .link node).run r).outline.waiting = _
    rw [suspended]
    rfl
  refine ⟨dormant_of_errands ?_ ?_ (busy.unousted rfl) rfl, node, waits⟩
  · show r < (s.runs.modify r _).length
    rwa [List.length_modify]
  · refine Nat.le_trans (after.single r) (Nat.le_of_eq ?_)
    show 1 = ((s.suspend r .link node).outline.run r).waiting.toList.length
    rw [waits]
    rfl

theorem afterWrite_of_failed (s : Session) (r : RunId) (link : Link) {outcome : WriteOutcome}
    (failed : outcome ≠ .written) :
    ∃ reason, s.afterWrite r link outcome = .failure s (.link reason) := by
  cases outcome with
  | written => exact absurd rfl failed
  | failed reason => exact ⟨_, rfl⟩
  | cancelled => exact ⟨_, rfl⟩

/-- A link that is taken at once fails with its write. -/
theorem Busy.broken {below : List Frame} {node : String} {link : Link} {callback : Callback}
    {ledger : Ledger} {outcome : WriteOutcome}
    (busy : Busy ⟨s, .driving r :: below, .ask (.handOver r node link callback ledger)⟩)
    (tidy : s.Tidy) (active : (s.run r).isActive) (failed : outcome ≠ .written) :
    ((s.afterHandOver r node link (.finished outcome)).on (.driving r :: below)).Broken r := by
  obtain ⟨reason, fails⟩ := afterWrite_of_failed s r link failed
  have way := riders_pos busy.rides (r := r) rfl
  rw [show s.afterHandOver r node link (.finished outcome) = _ from fails]
  exact ⟨busy.dormant_of_fault rfl (busy.orderly.control r rfl) _, busy.free tidy way, active,
    .driving r, below, _, rfl, rfl, .inl rfl⟩

/-- A link that waits for its write fails with it. -/
theorem Awaits.broken {delivery : Delivery}
    (h : Awaits delivery.handle.run delivery.handle.wait
      ⟨s, stack, .work (.entry (.written delivery))⟩)
    (failed : delivery.outcome ≠ .written) :
    ((s.deliver delivery).on stack).Broken delivery.handle.run := by
  obtain ⟨⟨r, w, link⟩, outcome⟩ := delivery
  obtain ⟨node, waits⟩ := h.waits
  have waits : (s.run r).outline.waiting = some { id := w, kind := .link, node } := waits
  have waiting : (s.run r).isWaitingOn w := by
    rw [Run.isWaitingOn_eq, waits]
    simp
  obtain ⟨reason, fails⟩ := afterWrite_of_failed
    (s.setRun r fun run => { run with wait := none }) r link failed
  have delivers : s.deliver ⟨⟨r, w, link⟩, outcome⟩ =
      (Move.failure (s.setRun r fun run => { run with wait := none }) (.link reason)).under
        (.linking r) := by
    rw [← fails]
    exact if_pos waiting
  have self := Session.run_setRun_self h.dormant.begun (f := fun run => { run with wait := none })
  rw [delivers]
  refine ⟨⟨?_, ?_, h.dormant.jobs, ?_, rfl⟩, ?_, ?_, .linking r, stack, _, rfl, rfl,
    .inr ⟨rfl, reason, rfl⟩⟩
  · show r < (s.runs.modify r _).length
    rw [List.length_modify]
    exact h.dormant.begun
  · show riders r .nobody (.linking r :: stack) = 0
    rw [riders_nobody_cons]
    exact h.dormant.riders
  · exact List.forall_mem_cons.2 ⟨rfl, h.dormant.stack⟩
  · exact (congrArg Run.wait self).trans rfl
  · show ((s.setRun r _).run r).phase.isActive
    rw [self]
    have suspended : (s.run r).phase = .suspended := by
      simp only [Run.isWaitingOn, Bool.and_eq_true_iff] at waiting
      exact beq_iff_eq.1 waiting.1
    rw [suspended]
    rfl

end Turn

end Questline

import Questline.Proofs.Handover
import Questline.Proofs.Layout

/-!
# The timers of images

An image is shown for a while.  Its run waits first, then the card is shown, and then a timer is started,
unless the run no longer waits.  The timer may ring at once, from inside the call that starts it; only
when that call has been answered does the wait know that its timer can be cancelled.

* `timely`: a host whose timers can all be cancelled.
* `Turn.Exhibits`: a run comes to rest at an image.
* `Event.Handles`: what becomes of the wait of a run and of its timer.
* `Turn.Tended`: how timers are waited for on the stack; `Turn.Does.tended` keeps it.
* `Turn.Does.handles`: what every deed does to the wait of a run.
-/

namespace Questline

open Json (Value)

/-! ## What happens to timers -/

/-- With the event the host answers that it has started the timer, and that it can be cancelled. -/
def Event.startsTimer (timer : TimerHandle) (e : Event) : Prop :=
  ∃ seconds, e.deed = .reply (.startTimer seconds timer) true

/-- With the event the timer rings. -/
def Event.rings (timer : TimerHandle) (e : Event) : Prop := e.before.control = .work (.entry (.timeUp timer))

/-- With the event the timer is cancelled. -/
def Event.cancels (timer : TimerHandle) (e : Event) : Prop :=
  e.deed = .move ∧ e.after.control = .ask (.cancelTimer timer)

/-- With the event the timer rings in vain: its run waits for it, at a node that is not in the current
graph. -/
structure Event.Misses (timer : TimerHandle) (e : Event) : Prop where
  rings : e.rings timer
  waits : e.before.session.isWaiting timer.run timer.wait
  gone : ∀ v graph, (e.before.session.run timer.run).wait = some v → e.before.session.graph = some graph →
    graph.node? v.node = none

/-- Whether a deed of the host keeps to what is asked of timers.  Each can be cancelled; nothing is begun
from inside the call that starts it but that it rings, and nothing from inside the call that cancels it;
and neither of the two calls fails. -/
def Deed.keepsTime (t : Turn) (d : Deed) : Bool :=
  match d, t.control with
  | .begin entry, .ask (.startTimer _ timer) => entry = .timeUp timer
  | .begin _, .ask (.cancelTimer _) => false
  | .fail _, .ask (.startTimer _ _) => false
  | .fail _, .ask (.cancelTimer _) => false
  | .reply (.startTimer _ _) answer, _ => answer
  | _, _ => true

/-- A host whose timers can all be cancelled. -/
def timely : Turn → Deed → Prop := fun t d => d.keepsTime t

instance (t : Turn) (d : Deed) : Decidable (timely t d) := inferInstanceAs (Decidable (d.keepsTime t = true))

theorem timely.calm {t : Turn} {d : Deed} (h : timely t d) : calmCancel t d := by
  unfold timely Deed.keepsTime at h
  unfold calmCancel Deed.disturbs
  split
  case h_1 hc =>
    rw [hc] at h
    cases h
  case h_2 => rfl

/-! ## Coming to rest at an image -/

namespace Session

variable {s : Session} {r : RunId}

theorem proceed_image {step : Step} {card : ImageCard} (owns : s.owns r)
    (action : step.action = .suspend (.card (.image card))) :
    s.proceed r step = ⟨s.suspend r .image step.node.id, [.timing r s.nextWait card.duration, .driving r],
      .ask (.engage (.image card))⟩ := by
  unfold proceed
  rw [if_pos owns]
  simp only [settle, action]
  rfl

theorem proceed_of_not_owns {step : Step} (h : s.owns r = false) : s.proceed r step = .finished s := by
  unfold proceed
  rw [h]
  rfl

/-- Who waits for something is suspended. -/
theorem Tidy.isWaitingOn_iff (tidy : s.Tidy) {w : WaitId} :
    (s.run r).isWaitingOn w ↔ ∃ v, (s.run r).wait = some v ∧ v.id = w := by
  cases hw : (s.run r).wait with
  | none => simp [Run.isWaitingOn, hw]
  | some v =>
    have suspended : (s.run r).phase = .suspended := by
      by_contra other
      rw [tidy r other] at hw
      cases hw
    simp [Run.isWaitingOn, hw, suspended]

theorem Tidy.waiting_eq (tidy : s.Tidy) {v : Wait} (wait : (s.run r).wait = some v) :
    (s.outline.run r).waiting = some { v with timer := false } := by
  have suspended : (s.run r).phase = .suspended := by
    by_contra other
    rw [tidy r other] at wait
    cases wait
  show (s.run r).outline.waiting = _
  rw [Run.outline, if_pos suspended, wait]
  rfl

end Session

namespace Turn

variable {t u : Turn} {d : Deed} {r : RunId}

/-- The run `r` comes to rest at an image.  Its card is shown, and on top of the stack a timer is to be
started after that. -/
inductive Exhibits (r : RunId) : Turn → Turn → Prop
  | intro {s : Session} {rest : List Frame} {step : Step} {card : ImageCard} (owns : s.owns r)
      (action : step.action = .suspend (.card (.image card))) :
      Exhibits r ⟨s, .driving r :: rest, .done (.stepped step)⟩
        ⟨s.suspend r .image step.node.id, .timing r s.nextWait card.duration :: .driving r :: rest,
          .ask (.engage (.image card))⟩

/-- A run that is driven comes to rest at an image only where it is shown. -/
theorem Does.exhibits (h : t.Does d u) {rest : List Frame} {step : Step} {node : String}
    (hs : t.stack = .driving r :: rest) (hc : t.control = .done (.stepped step)) (stages : step.Stages .image node)
    (new : u.session.nextWait ≠ t.session.nextWait) : t.Exhibits r u := by
  obtain ⟨s, stack, c⟩ := t
  obtain rfl : stack = .driving r :: rest := hs
  obtain rfl : c = .done (.stepped step) := hc
  obtain ⟨scene, action, kind, -⟩ := stages
  obtain ⟨card, rfl⟩ : ∃ card, scene = .card (.image card) := by
    cases scene with
    | battle => cases kind
    | card card =>
      cases card with
      | image card => exact ⟨card, rfl⟩
      | dialogue | choice => cases kind
  cases h with
  | receive hn =>
    cases owns : s.owns r with
    | true =>
      show Exhibits r _ ((s.proceed r step).on rest)
      rw [Session.proceed_image owns action]
      exact .intro owns action
    | false =>
      refine absurd ?_ new
      show (s.proceed r step).session.nextWait = s.nextWait
      rw [Session.proceed_of_not_owns owns]
      rfl
  | change past => cases past

end Turn

/-! ## A timer that rings -/

namespace Session

variable {s : Session} {timer : TimerHandle}

/-- A timer that rings is for a wait that is over; or its node is gone; or its run goes on. -/
inductive Rings (s : Session) (timer : TimerHandle) : Prop
  | stale (past : s.isWaiting timer.run timer.wait = false) (same : s.timeUp timer = .finished s)
  | missed (v : Wait) (waits : s.isWaiting timer.run timer.wait) (wait : (s.run timer.run).wait = some v)
      (id : v.id = timer.wait) (gone : ∀ graph, s.graph = some graph → graph.node? v.node = none) (f : Fault)
      (fails : s.timeUp timer = .failure (s.setRun timer.run (·.setTimer timer.wait false)) f)
  | heard (v : Wait) (job : Job) (wait : (s.run timer.run).wait = some v) (id : v.id = timer.wait)
      (goes : s.timeUp timer = (s.setRun timer.run (·.setTimer timer.wait false)).resume timer.run job)

/-- The wait of a run after its timer is switched on or off. -/
theorem wait_setTimer_self {r : RunId} {v : Wait} (wait : (s.run r).wait = some v) (on : Bool) :
    ((s.setRun r (·.setTimer v.id on)).run r).wait = some { v with timer := on } := by
  rw [wait_setTimer, Run.setTimer, wait, Option.map_some, if_pos rfl]

/-- A run that goes on waits for nothing. -/
theorem wait_resume (q r : RunId) (job : Job) :
    ((s.resume q job).session.run r).wait = if r = q then none else (s.run r).wait := by
  have runs : (s.resume q job).session.runs = (s.setRun q fun run =>
      { run with wait := none, phase := .running, activity := .running }).runs := by
    unfold resume enqueue
    dsimp only
    split <;> rfl
  simp only [run, runs]
  split
  case isTrue own =>
    subst own
    exact s.free_setRun fun _ => rfl
  case isFalse away => exact congrArg Run.wait (run_setRun_of_ne away)

/-- A run that is driven comes to rest after a step, or goes on. -/
theorem proceed_disposes {r : RunId} {step : Step} (lt : r < s.runs.length) (free : (s.run r).wait = none) :
    (s.proceed r step).Disposes False r s := by
  have settles : (s.settle r step).Aside none s :=
    s.settle_isAside lt (fun w hw => absurd hw (Run.not_isTimed free w)) step
  rcases s.proceed_cases r step with ⟨-, h⟩ | ⟨-, ⟨f, h⟩ | ⟨node, graph, -, -, h⟩ | ⟨-, h⟩⟩
  · rw [h]
    exact .kept rfl
  · rw [h]
    exact .kept rfl
  · rw [h]
    exact .kept rfl
  · rw [h]
    exact ((settles.waits r).mono nofun).under _

theorem rings (s : Session) (timer : TimerHandle) : s.Rings timer := by
  rcases s.timeUp_cases timer with ⟨stale, h⟩ | ⟨waits, v, wait, id, rung⟩
  · exact .stale stale h
  · have after := wait_setTimer_self wait false
    rw [id] at after
    have graph : (s.setRun timer.run (·.setTimer timer.wait false)).graph = s.graph := rfl
    cases hg : s.graph with
    | none =>
      refine .missed v waits wait id (by simp [hg]) .graphGone ?_
      rw [rung, resumeInput, graph, hg]
    | some g =>
      cases hn : g.node? v.node with
      | none =>
        refine .missed v waits wait id (by simp [hg, hn]) (.noSuchNode v.node) ?_
        rw [rung, resumeInput, graph, hg]
        simp only [hn]
      | some node =>
        refine .heard v (.respond node g .null) wait id ?_
        rw [rung, resumeInput, graph, hg]
        simp only [hn]
        refine withoutTimer_of_untimed _ _ (fun w hw => ?_) _ _
        obtain rfl := Option.some.inj (after.symm.trans hw)
        rfl

/-- While the queue is worked off, nothing comes of a timer that rings but an outcome. -/
theorem timeUp_calm (draining : s.draining) (timer : TimerHandle) :
    (s.timeUp timer).frames = [] ∧ (s.timeUp timer).control.isOver := by
  rcases s.rings timer with ⟨-, same⟩ | ⟨-, -, -, -, -, f, fails⟩ | ⟨-, job, -, -, goes⟩
  · rw [same]
    exact ⟨rfl, rfl⟩
  · rw [fails]
    exact ⟨rfl, rfl⟩
  · rw [goes, resume, enqueue]
    dsimp only
    split
    · exact ⟨rfl, rfl⟩
    case isFalse idle => exact absurd draining idle

end Session

/-- With the answer to a call no timer is cancelled. -/
theorem Ask.resume_ne_cancelTimer (s : Session) (a : Ask) (answer : a.call.Reply) (timer : TimerHandle) :
    (a.resume s answer).control ≠ .ask (.cancelTimer timer) := by
  have loads (r : RunId) (link : Link) : (s.loadTarget r link).control ≠ .ask (.cancelTimer timer) := by
    intro asks
    rcases s.loadTarget_cases r link with ⟨f, h⟩ | ⟨graph, -, h | h⟩
    · rw [h] at asks
      cases asks
    · rw [h] at asks
      cases asks
    · rw [h, Session.install_eq, (Session.enqueue_isQueued _ _ _).control] at asks
      cases asks
  have reports (r : RunId) (ws : List Warning) : (s.report r ws).control ≠ .ask (.cancelTimer timer) := by
    intro asks
    cases ws <;> cases asks
  intro asks
  cases a with
  | engage | startTimer | cancelTimer | deliver | give | battle | spawn | remove | world | announce => cases asks
  | take r node item amount =>
    simp only [resume] at asks
    split at asks
    · cases asks
    · exact reports r _ asks
  | count r node condition graph =>
    simp only [resume, Session.follow] at asks
    split at asks <;> cases asks
  | fillIn r graph =>
    rw [resume, Session.install_eq, (Session.enqueue_isQueued _ _ _).control] at asks
    cases asks
  | report r warning rest => exact reports r rest asks
  | dismiss r npc rest => cases rest <;> cases asks
  | handOver r node link callback ledger =>
    simp only [resume, Session.afterHandOver, Session.afterWrite] at asks
    split at asks
    · exact loads r link asks
    · split at asks
      · exact loads r link asks
      · cases asks
      · cases asks
    · cases asks

/-! ## What becomes of the wait of a run -/

/-- The timer of the run `r` is being cancelled, before the run goes on or ends. -/
def Turn.Cancelling (r : RunId) (t : Turn) : Prop :=
  ∃ f below, t.stack = f :: below ∧ f.isForTimer ∧ f.run? = some r

/-- What becomes of the wait of the run `r`, and of its timer, with an event.  A wait whose timer runs is over
only if the timer has rung. -/
inductive Event.Handles (r : RunId) (e : Event) : Prop
  | kept (same : (e.after.session.run r).wait = (e.before.session.run r).wait)
      (unheard : ∀ v, (e.before.session.run r).wait = some v → v.kind = .image → ¬e.rings ⟨r, v.id⟩)
  | ended (free : (e.after.session.run r).wait = none)
      (rung : ∀ v, (e.before.session.run r).wait = some v → v.timer → e.rings ⟨r, v.id⟩)
  | begun (kind : WaitKind) (node : String)
      (wait : (e.after.session.run r).wait = some { id := e.before.session.nextWait, kind, node })
      (untimed : ∀ w, ¬(e.before.session.run r).IsTimed w) (image : kind = .image → e.before.Exhibits r e.after)
  | started (v : Wait) (before : (e.before.session.run r).wait = some v)
      (after : (e.after.session.run r).wait = some { v with timer := true })
      (starts : e.startsTimer ⟨r, v.id⟩)
  | missed (v : Wait) (before : (e.before.session.run r).wait = some v)
      (after : (e.after.session.run r).wait = some { v with timer := false }) (misses : e.Misses ⟨r, v.id⟩)
  | cancelled (v : Wait) (before : (e.before.session.run r).wait = some v) (timed : v.timer)
      (after : (e.after.session.run r).wait = some { v with timer := false }) (cancels : e.cancels ⟨r, v.id⟩)
      (unheard : ¬e.rings ⟨r, v.id⟩) (top : e.after.Cancelling r)

/-- A call to start the timer is under way. -/
def Turn.Starts (timer : TimerHandle) (t : Turn) : Prop :=
  ∃ seconds, t.control = .ask (.startTimer seconds timer) ∨ .asked (.startTimer seconds timer) ∈ t.stack

/-- The timer is being started, or is still to be. -/
def Turn.Pending (timer : TimerHandle) (t : Turn) : Prop :=
  (∃ seconds, .timing timer.run timer.wait seconds ∈ t.stack) ∨ t.Starts timer

/-- How timers are waited for.  Only images of the current run have timers.  A timer is to be started
right above the frame in which its run is driven, and from inside the call that starts it nothing but its
ringing is under way; a frame that waits until a timer is cancelled is on top only while that is done. -/
structure Turn.Tended (t : Turn) : Prop where
  sits : ∀ r w seconds below, .timing r w seconds :: below <:+ t.stack → below.head? = some (.driving r)
  called : ∀ seconds timer, t.control = .ask (.startTimer seconds timer) →
    t.stack.head? = some (.driving timer.run)
  inside : ∀ seconds timer above below, t.stack = above ++ .asked (.startTimer seconds timer) :: below →
    above = [] ∧ below.head? = some (.driving timer.run) ∧
      (t.control = .work (.entry (.timeUp timer)) ∨ t.control.isOver)
  cancelling : ∀ r, t.Cancelling r → (∃ timer, t.control = .ask (.cancelTimer timer)) ∨ t.control = .done .done
  current : ∀ r v, (t.session.run r).wait = some v → v.kind = .image → t.session.current = some r
  image : ∀ r v, (t.session.run r).wait = some v → v.timer → v.kind = .image
  pending : ∀ r v, (t.session.run r).wait = some v → t.Pending ⟨r, v.id⟩ → v.kind = .image ∧ v.timer = false
  cancelled : ∀ r, t.Cancelling r →
    ∃ v, (t.session.run r).wait = some v ∧ v.kind = .image ∧ v.timer = false

namespace Turn

variable {t u : Turn} {d : Deed} {r : RunId}

/-- While the timer of a run is being cancelled, it does not run. -/
theorem Tended.untimed (ht : t.Tended) (hc : t.Cancelling r) (w : WaitId) : ¬(t.session.run r).IsTimed w := by
  obtain ⟨v, wait, -, untimed⟩ := ht.cancelled r hc
  rintro ⟨v', wait', -, timed⟩
  cases wait.symm.trans wait'
  rw [timed] at untimed
  cases untimed

/-- What a move makes of the wait of a run, if no timer is lost with it. -/
theorem Does.handles_of_disposes (h : t.Does d u) (ends : t.EndsWell) (tidy : t.session.Tidy)
    (tidy' : u.session.Tidy) (begun : ∀ v, (t.session.run r).wait = some v → v.id < t.session.nextWait) {m : Move}
    {rest : List Frame} (after : u = m.on rest) (moves : ∀ timer, u.control = .ask (.cancelTimer timer) → d = .move)
    (quiet : ∀ timer, t.control ≠ .work (.entry (.timeUp timer))) (disposes : m.Disposes False r t.session) :
    Event.Handles r ⟨t, d, u⟩ := by
  subst after
  cases disposes with
  | kept same => exact .kept same fun _ _ _ rings => quiet _ rings
  | ended free timed => exact .ended free fun v wait timer => (timed v.id ⟨v, wait, rfl, timer⟩).elim
  | switched _ _ _ lost => exact lost.elim
  | begun kind node wait timed =>
    refine .begun kind node wait timed fun hk => ?_
    subst hk
    have new : ((m.on rest).session.outline.run r).waiting = _ := tidy'.waiting_eq wait
    rcases h.waiting ends r with same | none | ⟨kind', node', new', later, staged⟩
    · rw [new] at same
      obtain ⟨v, hv, id⟩ := tidy.isWaitingOn_iff.1
        (show (t.session.run r).isWaitingOn t.session.nextWait by
          rw [Run.isWaitingOn_eq, show (t.session.run r).outline.waiting = _ from same.symm]
          simp)
      exact absurd (begun v hv) (by rw [id]; exact Nat.lt_irrefl _)
    · rw [new] at none
      cases none
    · rw [new] at new'
      cases new'
      obtain ⟨below, step, hs, hc, stages⟩ := staged.resolve_left nofun
      exact h.exhibits hs hc stages (Nat.ne_of_gt later)
  | cancelled timer own cancels =>
    subst own
    obtain ⟨v, before, id, timed, after⟩ := cancels.wait
    obtain ⟨f, fs, frames, forTimer, own⟩ := cancels.top
    refine .cancelled v before timed after ⟨moves timer cancels.asks, ?_⟩ (quiet _)
      ⟨f, fs ++ rest, ?_, forTimer, own⟩
    · rw [id]
      exact cancels.asks
    · show m.frames ++ rest = _
      rw [frames, List.cons_append]

/-- What is known of a turn before timers come in: runs that are busy do not wait, the stack is laid as it
should be, waits were begun, and the ends of writes are delivered for links. -/
structure Grounds (t : Turn) : Prop where
  busy : t.Busy
  tidy : t.session.Tidy
  laid : t.IsLaid
  begun : ∀ r v, (t.session.run r).wait = some v → v.id < t.session.nextWait
  links : ∀ p, t.control = .work (.entry (.written p)) → ∀ v, (t.session.run p.handle.run).wait = some v →
    v.id = p.handle.wait → v.kind = .link
  mild : t.Mild
  bound : t.NodeBound
  poised : t.Poised

/-- A run that goes on after a step waits for nothing. -/
theorem Grounds.free_of_stepped (ht : t.Grounds) {step : Step} {rest : List Frame} (hs : t.stack = .driving r :: rest)
    (hc : t.control = .done (.stepped step)) : (t.session.run r).wait = none := by
  refine ht.busy.free ht.tidy ?_
  rw [hs, hc]
  show 0 < riders r (.stepped step) (.driving r :: rest)
  simp [riders, Frame.seats]

/-- What a ringing timer does to the wait of a run. -/
theorem Does.handles_of_rings {timer : TimerHandle} (h : t.Does d u) (ht : t.Tended) (tidy : t.session.Tidy)
    (rings : t.control = .work (.entry (.timeUp timer))) : Event.Handles r ⟨t, d, u⟩ := by
  obtain ⟨s, stack, c⟩ := t
  obtain rfl : c = .work (.entry (.timeUp timer)) := rings
  have other (own : r ≠ timer.run) : ∀ v, (s.run r).wait = some v → v.kind = .image →
      ¬Event.rings ⟨r, v.id⟩ ⟨⟨s, stack, .work (.entry (.timeUp timer))⟩, d, u⟩ := by
    rintro v - - hr
    have hr : Control.work (.entry (.timeUp timer)) = .work (.entry (.timeUp ⟨r, v.id⟩)) := hr
    cases hr
    exact own rfl
  cases h with
  | beginAtRest past | leave past | change past => cases past
  | work =>
    rcases s.rings timer with ⟨past, same⟩ | ⟨v, waits, wait, id, gone, f, fails⟩ | ⟨v, job, wait, id, goes⟩
    · refine .kept ?_ fun v wait image hr => ?_
      · show ((s.timeUp timer).session.run r).wait = _
        rw [same]
        rfl
      · have hr : Control.work (.entry (.timeUp timer)) = .work (.entry (.timeUp ⟨r, v.id⟩)) := hr
        cases hr
        have current : s.current = some r := ht.current r v wait image
        have waits : (s.run r).isWaitingOn v.id := tidy.isWaitingOn_iff.2 ⟨v, wait, rfl⟩
        simp [Session.isWaiting, current, waits] at past
    · by_cases own : r = timer.run
      · subst own
        refine .missed v wait ?_ ⟨by rw [id]; rfl, by rw [id]; exact waits, fun v' graph wait' hg => ?_⟩
        · show ((s.timeUp timer).session.run timer.run).wait = _
          rw [fails, ← id]
          exact Session.wait_setTimer_self wait false
        · cases wait.symm.trans wait'
          exact gone graph hg
      · refine .kept ?_ (other own)
        show ((s.timeUp timer).session.run r).wait = _
        rw [fails]
        exact congrArg Run.wait (Session.run_setRun_of_ne own)
    · have run : ((s.timeUp timer).session.run r).wait = if r = timer.run then none else (s.run r).wait := by
        rw [goes, Session.wait_resume]
        split
        case isTrue => rfl
        case isFalse away => exact congrArg Run.wait (Session.run_setRun_of_ne away)
      by_cases own : r = timer.run
      · subst own
        refine .ended (run.trans (if_pos rfl)) fun v' wait' _ => ?_
        cases wait.symm.trans wait'
        show Control.work (.entry (.timeUp timer)) = .work (.entry (.timeUp ⟨timer.run, v.id⟩))
        rw [id]
      · exact .kept (run.trans (if_neg own)) (other own)

/-- With a deed that is a move or an answer, a timer is cancelled only if it is a move. -/
theorem Does.move_of_cancel {timer : TimerHandle} (h : t.Does d u) (moved : d = .move ∨ ∃ a answer, d = .reply a answer)
    (hu : u.control = .ask (.cancelTimer timer)) : d = .move := by
  rcases moved with rfl | ⟨a, answer, rfl⟩
  · rfl
  · cases h with
    | reply => exact absurd hu (Ask.resume_ne_cancelTimer _ a answer timer)

/-- No timer is lost where the wait of a run is over, or begins, with a deed of its own. -/
theorem Does.handles_of_losing (h : t.Does d u) (ht : t.Tended) (grounds : t.Grounds) (losing : t.losing? = some r)
    (quiet : ∀ timer, t.control ≠ .work (.entry (.timeUp timer))) (moved : d = .move ∨ ∃ a answer, d = .reply a answer)
    (disposed : ∀ {m : Move} {rest : List Frame}, u = m.on rest → m.Disposes False r t.session →
      Event.Handles r ⟨t, d, u⟩) : Event.Handles r ⟨t, d, u⟩ := by
  obtain ⟨s, stack, c⟩ := t
  have plain {m : Move} (aside : m.Aside none s) : m.Disposes False r s := (aside.waits r).mono nofun
  unfold losing? at losing
  split at losing
  case h_1 e hc =>
    -- The end of a write, which is delivered for a link.
    obtain rfl : c = .work (.entry e) := hc
    cases e with
    | timeUp timer => exact absurd rfl (quiet timer)
    | written p =>
      obtain rfl : p.handle.run = r := Option.some.inj losing
      cases h with
      | beginAtRest past | leave past | change past => cases past
      | work =>
        refine disposed rfl (plain (s.deliver_isAside p fun w waits timed => ?_))
        obtain ⟨v, wait, -, timed⟩ := timed
        obtain ⟨v', wait', id⟩ := grounds.tidy.isWaitingOn_iff.1 waits
        cases wait.symm.trans wait'
        have image : v.kind = .image := ht.image _ v wait timed
        have link : v.kind = .link := grounds.links p rfl v wait id
        rw [image] at link
        cases link
    | _ => cases losing
  case h_2 a hc =>
    obtain rfl : c = .ask a := hc
    rcases moved with rfl | ⟨b, answer, rfl⟩
    · cases h
    cases h with
    | @reply _ _ a answer =>
      cases a with
      | startTimer seconds timer =>
        obtain rfl : timer.run = r := Option.some.inj losing
        cases answer with
        | false => exact .kept rfl nofun
        | true =>
          by_cases waits : ∃ v, (s.run timer.run).wait = some v ∧ v.id = timer.wait
          · obtain ⟨v, wait, id⟩ := waits
            refine .started v wait ?_ ⟨seconds, by rw [id]⟩
            show ((s.setRun timer.run (·.setTimer timer.wait true)).run timer.run).wait = _
            rw [← id]
            exact Session.wait_setTimer_self wait true
          · refine .kept ?_ nofun
            show ((s.setRun timer.run (·.setTimer timer.wait true)).run timer.run).wait = _
            rw [Session.wait_setTimer, Run.setTimer]
            cases wait : (s.run timer.run).wait with
            | none => rfl
            | some v => rw [Option.map_some, if_neg fun id => waits ⟨v, wait, id⟩]
      | handOver q node link callback ledger =>
        obtain rfl : q = r := Option.some.inj losing
        have free : (s.run q).wait = none := grounds.busy.free grounds.tidy (riders_pos grounds.busy.rides rfl)
        exact disposed rfl (plain (s.afterHandOver_isAside (grounds.busy.orderly.control q rfl)
          (fun w hw => absurd hw (Run.not_isTimed free w)) node link answer))
      | _ => cases losing
  case h_3 step q rest hc hs =>
    obtain rfl : q = r := Option.some.inj losing
    obtain rfl : c = .done (.stepped step) := hc
    obtain rfl : stack = .driving q :: rest := hs
    have lt := grounds.busy.orderly.stack (.driving q) List.mem_cons_self q rfl
    cases h with
    | receive => exact disposed rfl (Session.proceed_disposes lt (grounds.free_of_stepped rfl rfl))
    | change past => cases past
  case h_4 result f rest _ hc hs =>
    obtain rfl : c = .done result := hc
    obtain rfl : stack = f :: rest := hs
    cases f with
    | resuming q job =>
      obtain rfl : q = r := Option.some.inj losing
      cases h with
      | receive =>
        exact disposed rfl (plain (s.resume_isAside (fun w hw => absurd hw (ht.untimed ⟨_, _, rfl, rfl, rfl⟩ w)) job))
      | change past => cases past
    | ending q phase =>
      obtain rfl : q = r := Option.some.inj losing
      cases h with
      | receive =>
        exact disposed rfl (plain (s.close_isAside (fun w hw => absurd hw (ht.untimed ⟨_, _, rfl, rfl, rfl⟩ w)) phase))
      | change past => cases past
    | _ => cases losing
  case h_5 => cases losing

/-- **What a deed does to the wait of a run.** -/
theorem Does.handles (h : t.Does d u) (ht : t.Tended) (grounds : t.Grounds) (tidy : u.session.Tidy) (r : RunId) :
    Event.Handles r ⟨t, d, u⟩ := by
  by_cases rings : ∃ timer, t.control = .work (.entry (.timeUp timer))
  · obtain ⟨timer, rings⟩ := rings
    exact h.handles_of_rings ht grounds.tidy rings
  have quiet : ∀ timer, t.control ≠ .work (.entry (.timeUp timer)) := fun timer hc => rings ⟨timer, hc⟩
  have unheard : ∀ v, (t.session.run r).wait = some v → v.kind = .image → ¬Event.rings ⟨r, v.id⟩ ⟨t, d, u⟩ :=
    fun _ _ _ => quiet _
  have orderly := grounds.busy.orderly
  rcases h.serves orderly.ends with yields | ⟨-, -, -, -, -, -, -, -, -, moved⟩
  · exact .kept (by simp only [Session.run, yields.runs]) unheard
  have disposed {m : Move} {rest : List Frame} (after : u = m.on rest)
      (disposes : m.Disposes False r t.session) : Event.Handles r ⟨t, d, u⟩ :=
    h.handles_of_disposes orderly.ends grounds.tidy tidy (grounds.begun r) after
      (fun _ hu => h.move_of_cancel moved hu) quiet disposes
  by_cases losing : t.losing? = some r
  · exact h.handles_of_losing ht grounds losing quiet moved disposed
  · cases h.passes grounds.laid orderly with
    | host yields => exact .kept (by simp only [Session.run, yields.runs]) unheard
    | visit popped p base m due before own after visit reports =>
      subst after
      exact .kept (reports.waits r) unheard
    | aside popped rest m before own after aside => exact disposed after ((aside.waits r).mono losing)
    | onward popped pushed rest before after own warnings waits => exact .kept (waits r) unheard


/-! ## Timers on the stack -/

/-- A timer that is to be started was to be so before, or it is that of an image to which its run comes. -/
theorem Does.timing_suffix (h : t.Does d u) (ends : t.EndsWell) {w : WaitId} {seconds : Number} {below : List Frame}
    (hf : .timing r w seconds :: below <:+ u.stack) :
    .timing r w seconds :: below <:+ t.stack ∨
      t.Exhibits r u ∧ w = t.session.nextWait ∧ below.head? = some (.driving r) := by
  rcases h.serves ends with yields | ⟨popped, rest, q, α, m, hs, -, rfl, hm, -⟩
  · left
    obtain ⟨s, stack, c⟩ := t
    obtain ⟨s', stack', c'⟩ := u
    have shifts : Shifts stack c stack' c' := yields.shifts
    cases shifts with
    | change | fail => exact hf
    | beginAtRest => cases List.eq_nil_of_suffix_nil hf
    | beginInside =>
      rcases List.suffix_cons_iff.1 hf with same | hf
      · cases same
      · exact hf
    | leave => exact hf.trans (List.suffix_cons _ _)
  · by_cases mem : .timing r w seconds ∈ m.frames
    · obtain ⟨rfl, rfl, node, rfl⟩ := hm.serves.timing r w seconds mem
      obtain ⟨rfl, step, hc, stages⟩ := (hm.staged .image node rfl).resolve_left nofun
      have later : m.session.nextWait = t.session.nextWait + 1 := congrArg Outline.nextWait hm.serves.outline
      have exhibits := h.exhibits hs hc stages
        (show m.session.nextWait ≠ t.session.nextWait by rw [later]; exact Nat.succ_ne_self _)
      generalize m.on rest = u at hf exhibits
      cases exhibits with
      | intro owns action =>
        rcases List.suffix_cons_iff.1 hf with same | hf
        · cases same
          exact .inr ⟨.intro owns action, rfl, rfl⟩
        · exact .inl hf
    · left
      have inRest : .timing r w seconds :: below <:+ rest := by
        obtain ⟨above, split⟩ := hf
        rcases List.append_eq_append_iff.1 split with ⟨xs, hx, hy⟩ | ⟨xs, hx, hy⟩
        · cases xs with
          | nil => exact ⟨[], hy⟩
          | cons x xs =>
            obtain ⟨rfl, -⟩ := List.cons.inj hy
            exact absurd (hx ▸ List.mem_append_right _ List.mem_cons_self) mem
        · exact ⟨xs, hy.symm⟩
      rw [hs]
      exact inRest.trans (List.suffix_append _ _)

/-- A timer is started where it was to be, or the call for it was under way. -/
theorem Does.asks_timer (h : t.Does d u) (mild : t.Mild) {seconds : Number} {timer : TimerHandle}
    (hu : u.control = .ask (.startTimer seconds timer)) :
    (∃ result, t.control = .done result ∧ t.stack = .timing timer.run timer.wait seconds :: u.stack ∧
      (t.session.run timer.run).isWaitingOn timer.wait ∧ u.session = t.session) ∨
    (t.control = .ask (.startTimer seconds timer) ∧ u.stack = t.stack) ∨
    t.stack = .asked (.startTimer seconds timer) :: u.stack := by
  have none {m : Move} (hm : m.Mild t.session) : m.control ≠ .ask (.startTimer seconds timer) := by
    intro hc
    have silent := hm.timer
    rw [hc] at silent
    cases silent
  cases h with
  | work task => exact absurd hu (none (task.begin_mild _ mild.control))
  | @receive s frame stack result hn =>
    rcases Frame.receive_mild s hn result with hm | ⟨q, w, seconds', rfl, hm⟩
    · exact absurd hu (none hm)
    · rw [hm] at hu ⊢
      cases hu
      refine .inl ⟨result, rfl, rfl, ?_, rfl⟩
      by_contra waits
      simp only [Frame.receive, if_neg waits] at hm
      cases hm
  | @recover s frame stack fault hn =>
    rcases Frame.recover_mild s hn fault with hm | ⟨q, node, graph, event, rfl, rfl, hm⟩
    · exact absurd hu (none hm)
    · rw [hm] at hu
      cases hu
  | @reply s stack a answer => exact absurd hu (none (a.resume_mild s answer mild.control))
  | beginAtRest | beginInside | fail => cases hu
  | leave =>
    cases hu
    exact .inr (.inr rfl)
  | change => exact .inr (.inl ⟨hu, rfl⟩)

/-- A frame comes to wait for the cancelling of a timer with a move that cancels one, and until that is done
it is on top. -/
theorem Does.tops (h : t.Does d u) (allowed : timely t d) (poised : t.Poised) {f : Frame} {below : List Frame}
    (hu : u.stack = f :: below) (forTimer : f.isForTimer) :
    (t.stack = f :: below ∧ u.session.runs = t.session.runs ∧
      ((∃ timer, u.control = .ask (.cancelTimer timer)) ∨ u.control = .done .done)) ∨
    d = .move ∧ ∃ timer, u.control = .ask (.cancelTimer timer) := by
  have quick {stack : List Frame} (hs : stack = f :: below) (idle : Unhurried stack) : False := by
    have off := idle f below hs
    rw [forTimer] at off
    cases off
  have rest (hs : t.stack.tail = f :: below) : False := by
    have off := poised.rest f (by rw [hs]; exact List.mem_cons_self)
    rw [forTimer] at off
    cases off
  have fresh {P : Prop} {q : RunId} {m : Move} {stack : List Frame} (hm : m.WorksFor P q t.session)
      (hs : m.frames ++ stack = f :: below) (idle : stack ≠ f :: below) :
      ∃ timer, m.control = .ask (.cancelTimer timer) := by
    cases frames : m.frames with
    | nil => exact absurd (by rw [← hs, frames, List.nil_append]) idle
    | cons g gs =>
      rw [frames, List.cons_append] at hs
      obtain ⟨rfl, -⟩ := List.cons.inj hs
      exact hm.timer g gs frames forTimer
  have posts {s : Session} {ds : List Delivery} {stack : List Frame} (hs : (s.post ds).frames ++ stack = f :: below)
      (idle : stack ≠ f :: below) : False := by
    cases ds with
    | nil => exact idle hs
    | cons p ds =>
      obtain ⟨rfl, -⟩ := List.cons.inj (show .posting ds :: stack = f :: below from hs)
      cases forTimer
  cases h with
  | @work s stack task =>
    have idle : Unhurried stack := by
      rcases poised.top with idle | past | ⟨timer, hc⟩
      · exact idle
      · cases past
      · cases hc
    have idle : stack ≠ f :: below := fun hs => quick hs idle
    by_cases he : ∃ e, task = .entry e
    · obtain ⟨e, rfl⟩ := he
      rcases s.enter_worksFor e with ⟨q, hm⟩ | ⟨s', -, ds, hm⟩
      · exact .inr ⟨rfl, fresh hm hu idle⟩
      · have hu : (s.enter e).frames ++ stack = f :: below := hu
        rw [hm] at hu
        exact (posts hu idle).elim
    · obtain ⟨q, hm⟩ := Task.begin_worksFor s task fun e h => he ⟨e, h⟩
      exact .inr ⟨rfl, fresh hm hu idle⟩
  | @receive s frame stack result hn =>
    cases hp : frame.isPosting with
    | true =>
      cases frame <;> cases hp
      exact (posts hu rest).elim
    | false =>
      obtain ⟨q, hm⟩ := Frame.receive_worksFor s frame result hn hp
      exact .inr ⟨rfl, fresh hm hu rest⟩
  | @recover s frame stack fault hn =>
    cases hp : frame.isPosting with
    | true =>
      cases frame <;> cases hp
      exact (posts hu rest).elim
    | false =>
      obtain ⟨q, hm⟩ := Frame.recover_worksFor s frame fault hp
      exact .inr ⟨rfl, fresh hm hu rest⟩
  | beginAtRest => cases hu
  | beginInside =>
    obtain ⟨rfl, -⟩ := List.cons.inj hu
    cases forTimer
  | leave => exact (rest hu).elim
  | @reply s stack a answer =>
    by_cases hs : stack = f :: below
    · subst hs
      rcases poised.top with idle | past | ⟨timer, hc⟩
      · exact (quick rfl idle).elim
      · cases past
      · cases hc
        exact .inl ⟨rfl, rfl, .inr rfl⟩
    · obtain ⟨q, hm⟩ := a.resume_worksFor s answer
      obtain ⟨timer, hc⟩ := fresh hm hu hs
      exact absurd hc (Ask.resume_ne_cancelTimer s a answer timer)
  | @fail s stack a fault =>
    obtain rfl : stack = f :: below := hu
    rcases poised.top with idle | past | ⟨timer, hc⟩
    · exact (quick rfl idle).elim
    · cases past
    · cases hc
      cases allowed
  | @change s stack c host =>
    obtain rfl : stack = f :: below := hu
    rcases poised.top with idle | past | ⟨timer, hc⟩
    · exact (quick rfl idle).elim
    · cases c with
      | work | ask => cases past
      | done | failed => cases host
    · exact .inl ⟨rfl, rfl, .inl ⟨timer, hc⟩⟩

/-- A move that cancels a timer is one aside from visits. -/
theorem Does.cancels_of_move (h : t.Does .move u) (laid : t.IsLaid) (orderly : t.Orderly) {timer : TimerHandle}
    (hu : u.control = .ask (.cancelTimer timer)) :
    ∃ (m : Move) (rest : List Frame), u = m.on rest ∧ m.Cancels timer t.session := by
  cases h.passes laid orderly with
  | host yields => exact absurd rfl yields.deed.1
  | visit popped p base m due before own after visit =>
    subst after
    cases visit with
    | plain off =>
      cases hu
      cases off
    | waited own on =>
      cases hu
      cases on
  | aside popped rest m before own after aside =>
    subst after
    exact ⟨m, rest, rfl, aside.cancels timer hu⟩
  | onward popped pushed rest before after own warnings waits control => exact absurd hu (control _)

/-- Where a run is driven on top of the stack, no other timer is to be started. -/
theorem Tended.no_timing (ht : t.Tended) (laid : Laid t.stack) {above below : List Frame} {p : RunId}
    (hs : t.stack = above ++ .driving p :: below) {w : WaitId} {seconds : Number} :
    .timing r w seconds ∉ below := by
  intro mem
  have driving : Laid (.driving p :: below) := Laid.drop (hs ▸ laid)
  obtain ⟨xs, ys, rfl⟩ := List.append_of_mem mem
  have next := ht.sits r w seconds ys ⟨above ++ .driving p :: xs, by rw [hs]; simp⟩
  obtain ⟨base, rfl⟩ := List.head?_eq_some_iff.1 next
  obtain ⟨sits, rest⟩ := driving
  -- Both are driven on the queue, but there is only one.
  cases xs with
  | nil => cases sits.driven rfl
  | cons x xs =>
    obtain rfl : x = .draining := Option.some.inj (sits.driven rfl)
    obtain ⟨queue, rest⟩ := rest
    have driven := (rest.no_visit (queue.single rfl) (.driving r) (by simp)).2.2
    cases driven

/-- While a timer is being started, none is still to be. -/
theorem Tended.starts_no_timing (ht : t.Tended) (laid : Laid t.stack) {timer : TimerHandle} (starts : t.Starts timer)
    {w : WaitId} {seconds : Number} : .timing r w seconds ∉ t.stack := by
  intro mem
  obtain ⟨seconds', hc | ha⟩ := starts
  · obtain ⟨below, hs⟩ := List.head?_eq_some_iff.1 (ht.called seconds' timer hc)
    rw [hs] at mem
    have driven : t.stack = [] ++ .driving timer.run :: below := hs
    exact ht.no_timing laid driven ((List.mem_cons.1 mem).resolve_left nofun)
  · obtain ⟨above, below, hs⟩ := List.append_of_mem ha
    obtain ⟨rfl, driven, -⟩ := ht.inside seconds' timer above below hs
    obtain ⟨base, rfl⟩ := List.head?_eq_some_iff.1 driven
    rw [hs] at mem
    have mem := (List.mem_cons.1 mem).resolve_left nofun
    have driven : t.stack = [.asked (.startTimer seconds' timer)] ++ .driving timer.run :: base := hs
    exact ht.no_timing laid driven ((List.mem_cons.1 mem).resolve_left nofun)

/-- From inside the call that starts a timer nothing but its ringing is under way. -/
theorem Does.inside (h : t.Does d u) (allowed : timely t d) (ht : t.Tended) (grounds : t.Grounds) {seconds : Number}
    {timer : TimerHandle} {above below : List Frame} (hu : u.stack = above ++ .asked (.startTimer seconds timer) :: below) :
    above = [] ∧ below.head? = some (.driving timer.run) ∧
      (u.control = .work (.entry (.timeUp timer)) ∨ u.control.isOver) := by
  rcases h.serves grounds.busy.orderly.ends with yields | ⟨popped, rest, q, α, m, hs, pops, after, hm, -⟩
  · cases h with
    | work | receive | recover => exact absurd rfl yields.deed.1
    | reply => exact absurd rfl (yields.deed.2 _ _)
    | beginAtRest => simp at hu
    | @beginInside s stack a e =>
      have hu : .asked a :: stack = above ++ .asked (.startTimer seconds timer) :: below := hu
      cases above with
      | nil =>
        obtain ⟨ha, rfl⟩ := List.cons.inj hu
        cases ha
        obtain rfl : e = .timeUp timer := of_decide_eq_true allowed
        exact ⟨rfl, ht.called seconds timer rfl, .inl rfl⟩
      | cons x above =>
        obtain ⟨-, hs⟩ := List.cons.inj hu
        rcases (ht.inside seconds timer above below hs).2.2 with hc | past
        · cases hc
        · cases past
    | @leave s stack a c =>
      have hs : Frame.asked a :: stack = (.asked a :: above) ++ .asked (.startTimer seconds timer) :: below :=
        congrArg (Frame.asked a :: ·) hu
      cases (ht.inside seconds timer _ below hs).1
    | fail =>
      rcases (ht.inside seconds timer above below hu).2.2 with hc | past
      · cases hc
      · cases past
    | change => exact ht.inside seconds timer above below hu
  · -- No call is put on the stack with a move, so this one was waited for before.
    obtain ⟨xs, hx⟩ : ∃ xs, rest = xs ++ .asked (.startTimer seconds timer) :: below := by
      rw [after] at hu
      have hu : m.frames ++ rest = above ++ .asked (.startTimer seconds timer) :: below := hu
      rcases List.append_eq_append_iff.1 hu with ⟨xs, -, hx⟩ | ⟨xs, hx, hy⟩
      · exact ⟨xs, hx⟩
      · cases xs with
        | nil => exact ⟨[], hy.symm⟩
        | cons x xs =>
          obtain ⟨rfl, -⟩ := List.cons.inj hy
          exact absurd (hx ▸ List.mem_append_right _ List.mem_cons_self) (hm.serves.calls _)
    obtain ⟨top, driven, inside⟩ := ht.inside seconds timer (popped ++ xs) below (by rw [hs, hx, List.append_assoc])
    obtain ⟨rfl, rfl⟩ := List.append_eq_nil_iff.1 top
    obtain ⟨s, stack, c⟩ := t
    obtain rfl : stack = .asked (.startTimer seconds timer) :: below := hs.trans hx
    have draining : s.draining := by
      obtain ⟨base, rfl⟩ := List.head?_eq_some_iff.1 driven
      obtain ⟨-, sits, -⟩ := grounds.laid.stack
      exact grounds.laid.draining
        (List.mem_cons_of_mem _ (List.mem_cons_of_mem _ (List.mem_of_head? (sits.driven rfl))))
    obtain rfl : c = .work (.entry (.timeUp timer)) := by
      refine inside.resolve_right fun past => ?_
      rcases pops with ⟨-, busy⟩ | ⟨f, hf, -⟩
      · rw [show c.isOver = true from past] at busy
        cases busy
      · cases hf
    cases h with
    | leave past | change past => cases past
    | work =>
      obtain ⟨frames, past⟩ := Session.timeUp_calm draining timer
      have hu : (s.timeUp timer).frames ++ _ = _ := hu
      rw [frames, List.nil_append, List.self_eq_append_left] at hu
      exact ⟨hu, driven, .inr past⟩

/-- A timer that is being started was so before, or it was to be, and its run still waits. -/
theorem Does.starts (h : t.Does d u) (grounds : t.Grounds) {timer : TimerHandle} (hu : u.Starts timer) :
    t.Starts timer ∨ (∃ seconds, .timing timer.run timer.wait seconds ∈ t.stack) ∧
      (t.session.run timer.run).isWaitingOn timer.wait ∧ u.session = t.session := by
  obtain ⟨seconds, hc | mem⟩ := hu
  · rcases h.asks_timer grounds.mild hc with ⟨_, -, hs, waits, same⟩ | ⟨before, -⟩ | hs
    · exact .inr ⟨⟨seconds, by rw [hs]; exact List.mem_cons_self⟩, waits, same⟩
    · exact .inl ⟨seconds, .inl before⟩
    · exact .inl ⟨seconds, .inr (by rw [hs]; exact List.mem_cons_self)⟩
  · refine .inl ⟨seconds, ?_⟩
    rcases h.serves grounds.busy.orderly.ends with yields | ⟨popped, rest, q, α, m, hs, -, rfl, hm, -⟩
    · obtain ⟨s, stack, c⟩ := t
      obtain ⟨s', stack', c'⟩ := u
      have shifts : Shifts stack c stack' c' := yields.shifts
      cases shifts with
      | change | fail => exact .inr mem
      | beginAtRest => cases mem
      | beginInside =>
        rcases List.mem_cons.1 mem with same | mem
        · cases same
          exact .inl rfl
        · exact .inr mem
      | leave => exact .inr (List.mem_cons_of_mem _ mem)
    · rcases List.mem_append.1 mem with mem | mem
      · exact absurd mem (hm.serves.calls _)
      · rw [hs]
        exact .inr (List.mem_append_right _ mem)

/-- A timer that is to be started, or is being started, was so before, unless its run comes to rest at its image. -/
theorem Does.pending (h : t.Does d u) (grounds : t.Grounds) {timer : TimerHandle} (hu : u.Pending timer) :
    t.Pending timer ∨ t.Exhibits timer.run u ∧ timer.wait = t.session.nextWait := by
  rcases hu with ⟨seconds, mem⟩ | starts
  · obtain ⟨above, below, hs⟩ := List.append_of_mem mem
    rcases h.timing_suffix grounds.busy.orderly.ends ⟨above, hs.symm⟩ with before | ⟨exhibits, new, -⟩
    · exact .inl (.inl ⟨seconds, before.subset List.mem_cons_self⟩)
    · exact .inr ⟨exhibits, new⟩
  · rcases h.starts grounds starts with before | ⟨before, -⟩
    · exact .inl (.inr before)
    · exact .inl (.inl before)

/-- What is to be started for a wait was begun. -/
theorem Grounds.lt_of_pending (grounds : t.Grounds) {timer : TimerHandle} (pending : t.Pending timer) :
    timer.wait < t.session.nextWait := by
  rcases pending with ⟨seconds, mem⟩ | ⟨seconds, hc | mem⟩
  · exact (grounds.bound.stack _ mem _ rfl).1
  · have bound := grounds.bound.control
    rw [hc] at bound
    exact (bound _ rfl).1
  · exact (grounds.bound.stack _ mem _ rfl).1

/-- The wait with which a run comes to rest at an image. -/
theorem Exhibits.wait {w : Wait} (h : t.Exhibits r u) (lt : r < t.session.runs.length) (wait : (u.session.run r).wait = some w) :
    w.kind = .image ∧ w.timer = false ∧ u.session.current = some r := by
  cases h with
  | @intro s rest step card owns action =>
    have wait : ((s.suspend r .image step.node.id).run r).wait = some w := wait
    have new : ((s.suspend r .image step.node.id).run r).wait =
        some { id := s.nextWait, kind := .image, node := step.node.id } :=
      congrArg Run.wait (Session.run_setRun_self lt)
    cases new.symm.trans wait
    exact ⟨rfl, rfl, beq_iff_eq.1 (Bool.and_eq_true_iff.1 owns).1⟩

/-- Where a run comes to rest at an image, its timer is to be started. -/
theorem Exhibits.pending (h : t.Exhibits r u) : u.Pending ⟨r, t.session.nextWait⟩ := by
  cases h with
  | intro => exact .inl ⟨_, List.mem_cons_self⟩

/-- With the answer that a timer has been started the call for it is over. -/
theorem Does.answered {seconds : Number} {timer : TimerHandle} {answer : Bool}
    (h : t.Does (.reply (.startTimer seconds timer) answer) u) :
    t.control = .ask (.startTimer seconds timer) ∧ u.stack = t.stack ∧ u.control = .done .done := by
  cases h with
  | reply => exact ⟨rfl, rfl, rfl⟩

/-- When a timer has been started, it is no longer to be. -/
theorem Does.answered_pending {seconds : Number} {timer : TimerHandle} {answer : Bool}
    (h : t.Does (.reply (.startTimer seconds timer) answer) u) (ht : t.Tended) (laid : Laid t.stack) :
    ¬u.Pending timer := by
  obtain ⟨asks, stack, done⟩ := h.answered
  rintro (⟨seconds', mem⟩ | ⟨seconds', hc | mem⟩)
  · rw [stack] at mem
    exact ht.starts_no_timing laid ⟨seconds, .inl asks⟩ mem
  · rw [done] at hc
    cases hc
  · rw [stack] at mem
    obtain ⟨above, below, hs⟩ := List.append_of_mem mem
    rcases (ht.inside seconds' timer above below hs).2.2 with hc | past
    · rw [asks] at hc
      cases hc
    · rw [asks] at past
      cases past

/-- The run that comes to rest at an image is one of the runs. -/
theorem Exhibits.lt (h : t.Exhibits r u) (orderly : t.Orderly) : r < t.session.runs.length := by
  cases h with
  | intro => exact orderly.stack _ List.mem_cons_self r rfl

/-- The run that waits for an image stays the current one, as long as it waits. -/
theorem Grounds.stays_current (grounds : t.Grounds) (h : t.Does d u) (tidy : u.session.Tidy) {v w : Wait}
    (before : (t.session.run r).wait = some v) (after : (u.session.run r).wait = some w) (same : w.id = v.id)
    (current : t.session.current = some r) : u.session.current = some r := by
  rcases h.ages.current with kept | ⟨-, -, -, -, past⟩
  · exact kept.trans current
  · have waits : (u.session.run r).isWaitingOn v.id := tidy.isWaitingOn_iff.2 ⟨w, after, same⟩
    rw [past r v.id current (grounds.begun r v before)] at waits
    cases waits

theorem tended_atRest {s : Session} (free : ∀ r, (s.run r).wait = none) : s.atRest.Tended where
  sits r w seconds below hf := by
    have none : Frame.timing r w seconds :: below = [] := List.eq_nil_of_suffix_nil hf
    cases none
  called := nofun
  inside seconds timer above below hs := by
    have none : [] = above ++ Frame.asked (.startTimer seconds timer) :: below := hs
    simp at none
  cancelling r := by
    rintro ⟨f, below, hs, -⟩
    cases hs
  current r v wait := by cases (free r).symm.trans wait
  image r v wait := by cases (free r).symm.trans wait
  pending r v wait := by cases (free r).symm.trans wait
  cancelled r := by
    rintro ⟨f, below, hs, -⟩
    cases hs

/-- **Timers are looked after**, whatever is done. -/
theorem Does.tended (h : t.Does d u) (allowed : timely t d) (ht : t.Tended) (grounds : t.Grounds)
    (tidy : u.session.Tidy) : u.Tended where
  sits r w seconds below hf := by
    rcases h.timing_suffix grounds.busy.orderly.ends hf with before | ⟨-, -, next⟩
    · exact ht.sits r w seconds below before
    · exact next
  called seconds timer hc := by
    rcases h.asks_timer grounds.mild hc with ⟨_, -, hs, -⟩ | ⟨before, same⟩ | hs
    · exact ht.sits timer.run timer.wait seconds u.stack ⟨[], hs.symm⟩
    · rw [same]
      exact ht.called seconds timer before
    · exact (ht.inside seconds timer [] u.stack hs).2.1
  inside seconds timer above below hu := h.inside allowed ht grounds hu
  cancelling r := by
    rintro ⟨f, below, hu, forTimer, -⟩
    rcases h.tops allowed grounds.poised hu forTimer with ⟨-, -, hc⟩ | ⟨-, hc⟩
    · exact hc
    · exact .inl hc
  current r w wait image := by
    have still {v : Wait} (before : (t.session.run r).wait = some v) (id : w.id = v.id) (kind : v.kind = .image) :
        u.session.current = some r :=
      grounds.stays_current h tidy before wait id (ht.current r v before kind)
    cases h.handles ht grounds tidy r with
    | kept same => exact still (same.symm.trans wait) rfl image
    | ended free => cases free.symm.trans wait
    | begun kind node begun _ exhibits =>
      cases begun.symm.trans wait
      have exhibits := exhibits image
      exact (exhibits.wait (exhibits.lt grounds.busy.orderly) wait).2.2
    | started v before after | missed v before after | cancelled v before _ after =>
      cases after.symm.trans wait
      exact still before rfl image
  image r w wait timed := by
    cases h.handles ht grounds tidy r with
    | kept same => exact ht.image r w (same.symm.trans wait) timed
    | ended free => cases free.symm.trans wait
    | begun kind node begun =>
      cases begun.symm.trans wait
      cases timed
    | started v before after starts =>
      cases after.symm.trans wait
      obtain ⟨seconds, rfl⟩ := starts
      exact (ht.pending r v before (.inr ⟨seconds, .inl h.answered.1⟩)).1
    | missed v before after | cancelled v before _ after =>
      cases after.symm.trans wait
      cases timed
  pending r w wait pending := by
    rcases h.pending grounds pending with past | ⟨exhibits, -⟩
    · cases h.handles ht grounds tidy r with
      | kept same => exact ht.pending r w (same.symm.trans wait) past
      | ended free => cases free.symm.trans wait
      | begun kind node begun =>
        cases begun.symm.trans wait
        exact absurd (grounds.lt_of_pending past) (Nat.lt_irrefl _)
      | started v before after starts =>
        cases after.symm.trans wait
        obtain ⟨seconds, rfl⟩ := starts
        exact absurd pending (h.answered_pending ht grounds.laid.stack)
      | missed v before after =>
        cases after.symm.trans wait
        exact ⟨(ht.pending r v before past).1, rfl⟩
      | cancelled v before timed after =>
        cases after.symm.trans wait
        exact ⟨(ht.pending r v before past).1, rfl⟩
    · obtain ⟨image, untimed, -⟩ := exhibits.wait (exhibits.lt grounds.busy.orderly) wait
      exact ⟨image, untimed⟩
  cancelled r := by
    rintro ⟨f, below, hu, forTimer, own⟩
    rcases h.tops allowed grounds.poised hu forTimer with ⟨hs, runs, -⟩ | ⟨rfl, timer, hc⟩
    · obtain ⟨v, wait, image, untimed⟩ := ht.cancelled r ⟨f, below, hs, forTimer, own⟩
      refine ⟨v, ?_, image, untimed⟩
      simp only [Session.run, runs]
      exact wait
    · obtain ⟨m, rest, rfl, cancels⟩ := h.cancels_of_move grounds.laid grounds.busy.orderly hc
      obtain ⟨g, gs, frames, -, own'⟩ := cancels.top
      have hu : m.frames ++ rest = f :: below := hu
      rw [frames, List.cons_append] at hu
      obtain ⟨rfl, -⟩ := List.cons.inj hu
      obtain rfl : r = timer.run := Option.some.inj (own.symm.trans own')
      obtain ⟨v, before, -, timed, after⟩ := cancels.wait
      exact ⟨_, after, ht.image _ v before timed, rfl⟩

end Turn

end Questline

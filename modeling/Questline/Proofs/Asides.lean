import Questline.Proofs.Stranding
import Questline.Proofs.Visits

/-!
# Aside from visits

All that a session does but for the visits of nodes is done aside from them.  No run is warned there, no
call of a visit is made, and the queue is worked off once at most.  Of the waits of runs, those whose timer
runs go on, unless the timer is cancelled, or its run is the one that a move is about.

* `Move.Disposes`: what becomes of the wait of a run.
* `Move.Aside`: a move aside from visits; every function of the course of a run is one.
-/

namespace Questline

open Json (Value)

/-! ## Moves aside from visits -/

/-- Whether a run is driven in a frame. -/
def Frame.isDriving : Frame → Bool
  | .driving _ => true
  | _ => false

/-- Whether a frame is none of a run that is driven or of its visit, and no call. -/
def Frame.isAside : Frame → Bool
  | .driving _ | .triggering _ _ _ | .following _ _ _ _ | .stepping _ | .asked _ => false
  | _ => true

/-- Whether this comes next aside from visits. -/
def Control.isAside : Control → Bool
  | .work (.terminate _ _) | .done _ | .failed _ => true
  | .ask a => !a.isOnNode
  | .work _ => false

/-- A timer runs for the wait of a run. -/
def Run.IsTimed (run : Run) (w : WaitId) : Prop := ∃ v, run.wait = some v ∧ v.id = w ∧ v.timer

/-- Between two sessions no run is warned, and no wait is begun or over. -/
structure Session.Keeps (s s' : Session) : Prop where
  warnings : ∀ r, (s'.run r).warnings = (s.run r).warnings
  waits : ∀ r, (s'.run r).wait = (s.run r).wait
  draining : s'.draining = s.draining
  nextWait : s'.nextWait = s.nextWait

/-- Between two sessions only the wait of the run `r` changes, and it gets no timer. -/
structure Session.Alters (r : RunId) (s s' : Session) : Prop where
  warnings : ∀ q, (s'.run q).warnings = (s.run q).warnings
  others : ∀ q, q ≠ r → (s'.run q).wait = (s.run q).wait
  timed : ∀ v, (s'.run r).wait = some v → v.timer → (s.run r).wait = some v
  draining : s'.draining = s.draining
  nextWait : s'.nextWait = s.nextWait

/-- With a move the timer of a wait is cancelled: it ran until then, and on top of the stack its run is to go
on or to end after that. -/
structure Move.Cancels (timer : TimerHandle) (s : Session) (m : Move) : Prop where
  asks : m.control = .ask (.cancelTimer timer)
  wait : ∃ v, (s.run timer.run).wait = some v ∧ v.id = timer.wait ∧ v.timer ∧
    (m.session.run timer.run).wait = some { v with timer := false }
  top : ∃ f fs, m.frames = f :: fs ∧ f.isForTimer ∧ f.run? = some timer.run

/-- What becomes of the wait of the run `r` with a move.  A wait whose timer runs goes on, or the timer is
cancelled; it is over with its timer only if it is `lost`. -/
inductive Move.Disposes (lost : Prop) (r : RunId) (s : Session) (m : Move) : Prop
  | kept (same : (m.session.run r).wait = (s.run r).wait)
  | ended (free : (m.session.run r).wait = none) (timed : ∀ w, (s.run r).IsTimed w → lost)
  | switched (w : WaitId) (timer : Bool) (same : (m.session.run r).wait = ((s.run r).setTimer w timer).wait)
      (lost : lost)
  | begun (kind : WaitKind) (node : String)
      (wait : (m.session.run r).wait = some { id := s.nextWait, kind, node })
      (timed : ∀ w, (s.run r).IsTimed w → lost)
  | cancelled (timer : TimerHandle) (own : timer.run = r) (cancels : m.Cancels timer s)

/-- The run that may cease to wait with an entry while its timer runs. -/
def Entry.silences? : Entry → Option RunId
  | .timeUp timer => some timer.run
  | .written d => some d.handle.run
  | _ => none

/-- The run that may begin to wait with the answer to a call, or whose timer begins to run. -/
def Ask.silences? : Ask → Option RunId
  | .startTimer _ timer => some timer.run
  | .handOver r _ _ _ _ => some r
  | _ => none

/-- The run that ceases to wait with what a frame waits for. -/
def Frame.frees? : Frame → Option RunId
  | .resuming r _ | .ending r _ => some r
  | _ => none

/-- A move aside from visits.  It warns of nothing, makes no call of a visit and begins none, and works off
the queue unless that is going on.  Only the wait of the run that is `lost` may be over while its timer
runs. -/
structure Move.Aside (lost : Option RunId) (s : Session) (m : Move) : Prop where
  warnings : ∀ r, (m.session.run r).warnings = (s.run r).warnings
  waits : ∀ r, m.Disposes (lost = some r) r s
  control : m.control.isAside
  frames : ∀ f ∈ m.frames, f.isAside
  queue : .draining ∉ m.frames ∧ m.session.draining = s.draining ∨
    s.draining = false ∧ m.session.draining ∧ ∃ fs, m.frames = .draining :: fs ∧ .draining ∉ fs
  cancels : ∀ timer, m.control = .ask (.cancelTimer timer) → m.Cancels timer s
  tops : ∀ f fs, m.frames = f :: fs → f.isForTimer → ∃ timer, m.control = .ask (.cancelTimer timer)

section

variable {lost : Option RunId} {s s' : Session} {q r : RunId} {m : Move} {f : Frame}

theorem Session.warnings_setRun (s : Session) {f : Run → Run}
    (warnings : ∀ run, (f run).warnings = run.warnings) (r : RunId) :
    ((s.setRun q f).run r).warnings = (s.run r).warnings := by
  rw [run_setRun]
  split
  · exact warnings _
  · rfl

namespace Session.Keeps

theorem refl (s : Session) : s.Keeps s := ⟨fun _ => rfl, fun _ => rfl, rfl, rfl⟩

theorem trans {s'' : Session} (h : s.Keeps s') (g : s'.Keeps s'') : s.Keeps s'' :=
  ⟨fun r => (g.warnings r).trans (h.warnings r), fun r => (g.waits r).trans (h.waits r),
    g.draining.trans h.draining, g.nextWait.trans h.nextWait⟩

theorem of_runs (runs : s'.runs = s.runs) (draining : s'.draining = s.draining)
    (nextWait : s'.nextWait = s.nextWait) : s.Keeps s' :=
  ⟨fun r => by simp only [run, runs], fun r => by simp only [run, runs], draining, nextWait⟩

theorem setRun {f : Run → Run} (warnings : ∀ run, (f run).warnings = run.warnings)
    (waits : ∀ run, (f run).wait = run.wait) : s.Keeps (s.setRun q f) :=
  ⟨warnings_setRun s warnings, fun r => by rw [run_setRun]; split <;> simp only [waits], rfl, rfl⟩

/-- A run that is new has no warnings and waits for nothing. -/
theorem addRun {run : Run} (warnings : run.warnings = []) (wait : run.wait = none) :
    s.Keeps (s.addRun run) := by
  have new {r : RunId} (hr : r = s.runs.length) : s.run r = {} := run_of_length_le (Nat.le_of_eq hr.symm)
  refine ⟨fun r => ?_, fun r => ?_, rfl, rfl⟩
  · by_cases hr : r = s.runs.length
    · rw [new hr, hr, run_addRun_length, warnings]
    · rw [run_addRun_of_ne _ hr]
  · by_cases hr : r = s.runs.length
    · rw [new hr, hr, run_addRun_length, wait]
    · rw [run_addRun_of_ne _ hr]

end Session.Keeps

theorem Session.Alters.setRun {f : Run → Run} (warnings : ∀ run, (f run).warnings = run.warnings)
    (timed : ∀ run v, (f run).wait = some v → v.timer → run.wait = some v) : s.Alters q (s.setRun q f) := by
  refine ⟨warnings_setRun s warnings, fun r hr => congrArg Run.wait (run_setRun_of_ne hr), fun v hv ht => ?_, rfl, rfl⟩
  rw [run_setRun] at hv
  split at hv
  · exact timed _ v hv ht
  · exact hv

theorem Session.Alters.free {f : Run → Run} (warnings : ∀ run, (f run).warnings = run.warnings)
    (free : ∀ run, (f run).wait = none) : s.Alters q (s.setRun q f) :=
  .setRun warnings fun run v hv => by
    rw [free] at hv
    cases hv

theorem Session.Alters.trans {s'' : Session} (h : s.Alters r s') (g : s'.Keeps s'') : s.Alters r s'' :=
  ⟨fun q => (g.warnings q).trans (h.warnings q), fun q hq => (g.waits q).trans (h.others q hq),
    fun v hv => h.timed v ((g.waits r).symm.trans hv), g.draining.trans h.draining, g.nextWait.trans h.nextWait⟩

/-- A wait whose timer runs is the same before. -/
theorem Session.Alters.kept (h : s.Alters r s') {v : Wait} (wait : (s'.run q).wait = some v) (timed : v.timer) :
    (s.run q).wait = some v := by
  by_cases hq : q = r
  · subst hq
    exact h.timed v wait timed
  · exact (h.others q hq).symm.trans wait

theorem Run.not_isTimed {run : Run} (h : run.wait = none) (w : WaitId) : ¬run.IsTimed w := by
  rintro ⟨v, hv, -⟩
  rw [h] at hv
  cases hv

theorem Run.IsTimed.congr {run run' : Run} (h : run'.wait = run.wait) {w : WaitId} :
    run'.IsTimed w ↔ run.IsTimed w := by
  rw [IsTimed, IsTimed, h]

namespace Move.Cancels

variable {timer : TimerHandle}

theorem under (h : m.Cancels timer s) (f : Frame) : (m.under f).Cancels timer s where
  asks := h.asks
  wait := h.wait
  top := by
    obtain ⟨g, gs, frames, own⟩ := h.top
    exact ⟨g, gs ++ [f], by simp [Move.under, frames], own⟩

/-- The timer ran before, too. -/
theorem after (h : m.Cancels timer s') (timed : ∀ v, (s'.run timer.run).wait = some v → v.timer →
    (s.run timer.run).wait = some v) : m.Cancels timer s where
  asks := h.asks
  wait := by
    obtain ⟨v, wait, id, ran, after⟩ := h.wait
    exact ⟨v, timed v wait ran, id, ran, after⟩
  top := h.top

end Move.Cancels

namespace Move.Disposes

variable {P Q : Prop}

theorem mono (h : m.Disposes P r s) (wider : P → Q) : m.Disposes Q r s := by
  cases h with
  | kept same => exact .kept same
  | ended free timed => exact .ended free fun w hw => wider (timed w hw)
  | switched w timer same lost => exact .switched w timer same (wider lost)
  | begun kind node wait timed => exact .begun kind node wait fun w hw => wider (timed w hw)
  | cancelled timer own cancels => exact .cancelled timer own cancels

theorem under (h : m.Disposes P r s) (f : Frame) : (m.under f).Disposes P r s := by
  cases h with
  | kept same => exact .kept same
  | ended free timed => exact .ended free timed
  | switched w timer same lost => exact .switched w timer same lost
  | begun kind node wait timed => exact .begun kind node wait timed
  | cancelled timer own cancels => exact .cancelled timer own (cancels.under f)

theorem after (h : m.Disposes P r s') (wait : (s'.run r).wait = (s.run r).wait) (next : s'.nextWait = s.nextWait) :
    m.Disposes P r s := by
  cases h with
  | kept same => exact .kept (same.trans wait)
  | ended free timed => exact .ended free fun w hw => timed w ((Run.IsTimed.congr wait).2 hw)
  | switched w timer same lost => exact .switched w timer (same.trans (by simp only [Run.setTimer, wait])) lost
  | begun kind node begins timed =>
    rw [next] at begins
    exact .begun kind node begins fun w hw => timed w ((Run.IsTimed.congr wait).2 hw)
  | cancelled timer own cancels =>
    subst own
    exact .cancelled timer rfl (cancels.after fun v before _ => wait.symm.trans before)

end Move.Disposes

namespace Move.Aside

theorem of_nil (h : s.Keeps m.session) (frames : m.frames = []) (control : m.control.isAside)
    (calm : ∀ timer, m.control ≠ .ask (.cancelTimer timer)) : m.Aside lost s where
  warnings := h.warnings
  waits r := .kept (h.waits r)
  control := control
  frames := by simp [frames]
  queue := .inl ⟨by simp [frames], h.draining⟩
  cancels timer asks := absurd asks (calm timer)
  tops := by simp [frames]

theorem finished (h : s.Keeps s') : (Move.finished s').Aside lost s := .of_nil h rfl rfl nofun

theorem failure (h : s.Keeps s') (fault : Fault) : (Move.failure s' fault).Aside lost s :=
  .of_nil h rfl rfl nofun

theorem ask (h : s.Keeps s') {a : Ask} (aside : a.isOnNode = false)
    (calm : ∀ timer, a ≠ .cancelTimer timer) : (Move.ask s' a).Aside lost s :=
  .of_nil h rfl (by simp [Move.ask, Control.isAside, aside]) fun timer asks => calm timer (Control.ask.inj asks)

theorem under (h : m.Aside lost s) (aside : f.isAside) (plain : f ≠ .draining) (quiet : f.isForTimer = false) :
    (m.under f).Aside lost s where
  warnings := h.warnings
  waits r := (h.waits r).under f
  control := h.control
  frames g hg := by
    rcases List.mem_append.1 hg with hg | hg
    · exact h.frames g hg
    · exact List.mem_singleton.1 hg ▸ aside
  queue := by
    have last {fs : List Frame} (idle : .draining ∉ fs) : .draining ∉ fs ++ [f] := by
      simpa [idle] using plain.symm
    rcases h.queue with ⟨idle, same⟩ | ⟨before, after, fs, frames, idle⟩
    · exact .inl ⟨last idle, same⟩
    · exact .inr ⟨before, after, fs ++ [f], by simp [Move.under, frames], last idle⟩
  cancels timer asks := (h.cancels timer asks).under f
  tops g gs hg forTimer := by
    cases frames : m.frames with
    | nil =>
      rw [Move.under, frames, List.nil_append] at hg
      obtain ⟨rfl, -⟩ := List.cons.inj hg
      rw [quiet] at forTimer
      cases forTimer
    | cons g' gs' =>
      rw [Move.under, frames, List.cons_append] at hg
      obtain ⟨rfl, -⟩ := List.cons.inj hg
      exact h.tops g' gs' frames forTimer

theorem after (h : m.Aside lost s') (hs : s.Keeps s') : m.Aside lost s where
  warnings r := (h.warnings r).trans (hs.warnings r)
  waits r := (h.waits r).after (hs.waits r) hs.nextWait
  control := h.control
  frames := h.frames
  queue := hs.draining ▸ h.queue
  cancels timer asks := (h.cancels timer asks).after fun _ wait _ => (hs.waits _).symm.trans wait
  tops := h.tops

/-- The wait of the run `r` has changed before. -/
theorem altered (h : m.Aside none s') (hs : s.Alters r s')
    (own : m.Disposes False r s' → m.Disposes (lost = some r) r s) : m.Aside lost s where
  warnings q := (h.warnings q).trans (hs.warnings q)
  waits q := by
    by_cases hq : q = r
    · subst hq
      exact own ((h.waits q).mono nofun)
    · exact ((h.waits q).mono nofun).after (hs.others q hq) hs.nextWait
  control := h.control
  frames := h.frames
  queue := hs.draining ▸ h.queue
  cancels timer asks := (h.cancels timer asks).after fun _ => hs.kept
  tops := h.tops

/-- The run `r` has ceased to wait before. -/
theorem freed (h : m.Aside none s') (hs : s.Alters r s') (free : (s'.run r).wait = none)
    (timed : ∀ w, (s.run r).IsTimed w → lost = some r) : m.Aside lost s :=
  h.altered hs fun own => by
    cases own with
    | kept same => exact .ended (same.trans free) timed
    | ended free => exact .ended free timed
    | switched _ _ _ lost => exact lost.elim
    | begun kind node begins =>
      rw [hs.nextWait] at begins
      exact .begun kind node begins timed
    | cancelled timer own cancels =>
      obtain ⟨v, before, -⟩ := cancels.wait
      rw [own, free] at before
      cases before

/-- Where no timer runs, none is lost. -/
theorem weaken (h : m.Aside none s) : m.Aside lost s where
  warnings := h.warnings
  waits q := (h.waits q).mono nofun
  control := h.control
  frames := h.frames
  queue := h.queue
  cancels := h.cancels
  tops := h.tops

end Move.Aside

end

/-! ### Every function of the course is aside -/

namespace Session

variable (s : Session) {q r : RunId} {lost : Option RunId}

/-- An output that is taken once the items are counted. -/
theorem follow_isAside (node : Node) (output : Int) (graph : Graph) :
    (s.follow q node output graph).Aside lost s := by
  rw [follow_eq]
  exact .of_nil (.setRun (fun _ => rfl) fun _ => rfl) rfl rfl nofun

theorem enqueue_isAside (job : Job) : (s.enqueue q job).Aside lost s := by
  unfold enqueue
  dsimp only
  split
  · exact .finished (.of_runs rfl rfl rfl)
  case isFalse idle =>
    exact
      { warnings := fun _ => rfl
        waits := fun _ => .kept rfl
        control := rfl
        frames := fun f hf => List.mem_singleton.1 hf ▸ rfl
        queue := .inr ⟨by simpa using idle, rfl, [], rfl, List.not_mem_nil⟩
        cancels := nofun
        tops := fun f fs hf forTimer => by
          obtain ⟨rfl, -⟩ := List.cons.inj hf
          cases forTimer }

theorem resume_isAside (timed : ∀ w, (s.run q).IsTimed w → lost = some q) (job : Job) :
    (s.resume q job).Aside lost s :=
  .freed (enqueue_isAside _ job) (.free (fun _ => rfl) fun _ => rfl) (s.free_setRun fun _ => rfl) timed

/-- A run whose timer is cancelled goes on to wait until that is done. -/
theorem withoutTimer_isAside {f : Frame} {go : Session → Move} (top : f.isForTimer) (own : f.run? = some q)
    (aside : f.isAside) (plain : f ≠ .draining)
    (h : (∀ w, ¬(s.run q).IsTimed w) → (go s).Aside none s) : (s.withoutTimer q f go).Aside lost s := by
  rcases s.withoutTimer_cases q f go with ⟨v, wait, timed, hm⟩ | ⟨untimed, hm⟩
  · rw [hm]
    have lt : q < s.runs.length := by
      refine Nat.lt_of_not_le fun le => ?_
      rw [run_of_length_le le] at wait
      cases wait
    have after : ((s.setRun q (·.setTimer v.id false)).run q).wait = some { v with timer := false } := by
      rw [run_setRun_self lt, Run.setTimer, wait, Option.map_some, if_pos rfl]
    have cancels : ((Move.ask (s.setRun q (·.setTimer v.id false)) (.cancelTimer ⟨q, v.id⟩)).under f).Cancels
        ⟨q, v.id⟩ s := ⟨rfl, ⟨v, wait, rfl, timed, after⟩, ⟨f, [], rfl, top, own⟩⟩
    exact
      { warnings := s.warnings_setRun fun _ => rfl
        waits := fun r => by
          by_cases hr : r = q
          · exact .cancelled _ hr.symm cancels
          · exact .kept (congrArg Run.wait (run_setRun_of_ne hr))
        control := rfl
        frames := fun g hg => List.mem_singleton.1 hg ▸ aside
        queue := .inl ⟨fun hg => plain (List.mem_singleton.1 hg).symm, rfl⟩
        cancels := fun timer asks => by
          cases asks
          exact cancels
        tops := fun _ _ _ _ => ⟨_, rfl⟩ }
  · rw [hm]
    refine (h fun w => ?_).weaken
    rintro ⟨v, wait, -, timed⟩
    rw [untimed v wait] at timed
    cases timed

theorem clear_isAside (job : Job) : (s.clear q job).Aside lost s :=
  withoutTimer_isAside s rfl rfl rfl nofun fun untimed => resume_isAside s (fun w hw => absurd hw (untimed w)) job

theorem resumeInput_isAside (wait : Wait) (answer : Value) : (s.resumeInput q wait answer).Aside lost s := by
  rcases s.resumeInput_cases q wait answer with ⟨f, h⟩ | ⟨graph, node, -, -, h⟩
  · rw [h]
    exact .failure (.refl s) f
  · rw [h]
    exact clear_isAside s _

theorem announce_isAside (completion : Option Callback) (ledger : Ledger) :
    (s.announce completion ledger).Aside lost s := by
  cases completion with
  | none => exact .finished (.refl s)
  | some callback => exact .ask (.refl s) (by exact rfl) (by exact nofun)

theorem dismiss_isAside (npcs : List String) : (s.dismiss q npcs).Aside lost s := by
  cases npcs with
  | nil => exact .finished (.setRun (fun _ => rfl) fun _ => rfl)
  | cons npc rest => exact .ask (.refl s) (by exact rfl) (by exact nofun)

theorem close_isAside (timed : ∀ w, (s.run q).IsTimed w → lost = some q) (phase : Phase) :
    (s.close q phase).Aside lost s := by
  have ended : s.Alters q (s.ended q phase) :=
    .trans (.free (f := Run.ended phase) (fun _ => rfl) fun _ => rfl) (.of_runs rfl rfl rfl)
  have free := s.free_ended q phase
  rw [close_eq]
  split
  · exact .freed ((dismiss_isAside _ _).under rfl nofun rfl) ended free timed
  · exact .freed (announce_isAside _ _ _) ended free timed

theorem terminate_isAside (phase : Phase) : (s.terminate q phase).Aside lost s :=
  withoutTimer_isAside s rfl rfl rfl nofun fun untimed => close_isAside s (fun w hw => absurd hw (untimed w)) phase

theorem stopIfActive_isAside : (s.stopIfActive q).Aside lost s := by
  unfold stopIfActive
  split
  · exact .of_nil (.refl s) rfl rfl nofun
  · exact .finished (.refl s)

theorem stop_isAside : s.stop.Aside lost s := by
  rcases s.stop_cases with h | ⟨r, -, -, h⟩
  · rw [h]
    exact .finished (.refl s)
  · rw [h]
    exact terminate_isAside s _

theorem install_isAside (graph : Graph) : (s.install q graph).Aside lost s :=
  (enqueue_isAside _ _).after
    (.trans (.setRun (f := Run.moved graph) (fun _ => rfl) fun _ => rfl) (.of_runs rfl rfl rfl))

theorem loadTarget_isAside (link : Link) : (s.loadTarget q link).Aside lost s := by
  rcases s.loadTarget_cases q link with ⟨f, h⟩ | ⟨graph, -, h | h⟩
  · rw [h]
    exact .failure (.refl s) f
  · rw [h]
    exact .ask (.refl s) (by exact rfl) (by exact nofun)
  · rw [h]
    exact install_isAside s graph

theorem afterWrite_isAside (link : Link) (outcome : WriteOutcome) :
    (s.afterWrite q link outcome).Aside lost s := by
  unfold afterWrite
  split
  · exact loadTarget_isAside s link
  · exact .failure (.refl s) _
  · exact .failure (.refl s) _

/-- A run that is suspended begins a new wait. -/
theorem suspend_isAside {m : Move} (kind : WaitKind) (node : String) (lt : q < s.runs.length)
    (timed : ∀ w, (s.run q).IsTimed w → lost = some q)
    (session : (s.suspend q kind node).Keeps m.session) (control : m.control.isAside)
    (calm : ∀ timer, m.control ≠ .ask (.cancelTimer timer))
    (frames : m.frames = [] ∨ ∃ seconds, m.frames = [.timing q s.nextWait seconds]) : m.Aside lost s where
  warnings r := (session.warnings r).trans (s.warnings_setRun (by exact fun _ => rfl) r)
  waits r := by
    by_cases hr : r = q
    · subst hr
      exact .begun kind node ((session.waits r).trans (congrArg Run.wait (run_setRun_self lt))) timed
    · exact .kept ((session.waits r).trans (congrArg Run.wait (run_setRun_of_ne hr)))
  control := control
  frames f hf := by
    rcases frames with none | ⟨seconds, one⟩
    · rw [none] at hf
      cases hf
    · rw [one] at hf
      exact List.mem_singleton.1 hf ▸ rfl
  queue := by
    refine .inl ⟨fun hf => ?_, session.draining⟩
    rcases frames with none | ⟨seconds, one⟩
    · rw [none] at hf
      cases hf
    · rw [one] at hf
      cases List.mem_singleton.1 hf
  cancels timer asks := absurd asks (calm timer)
  tops f fs hf forTimer := by
    rcases frames with none | ⟨seconds, one⟩
    · rw [none] at hf
      cases hf
    · rw [one] at hf
      obtain ⟨rfl, -⟩ := List.cons.inj hf
      cases forTimer

theorem afterHandOver_isAside (lt : q < s.runs.length) (timed : ∀ w, (s.run q).IsTimed w → lost = some q)
    (node : String) (link : Link) (receipt : Receipt) :
    (s.afterHandOver q node link receipt).Aside lost s := by
  unfold afterHandOver
  split
  · exact loadTarget_isAside s link
  · exact afterWrite_isAside s link _
  · exact suspend_isAside s .link node lt timed (.of_runs (by exact rfl) (by exact rfl) (by exact rfl)) rfl nofun
      (.inl rfl)

theorem transfer_isAside (node : String) (link : Link) : (s.transfer q node link).Aside lost s := by
  unfold transfer
  split
  · exact loadTarget_isAside s link
  · exact .ask (.setRun (by exact fun _ => rfl) (by exact fun _ => rfl)) (by exact rfl) (by exact nofun)

theorem pause_isAside (lt : q < s.runs.length) (timed : ∀ w, (s.run q).IsTimed w → lost = some q) (node : Node)
    (scene : Scene) : (s.pause q node scene).Aside lost s := by
  unfold pause
  dsimp only
  split
  · exact suspend_isAside s .combat _ lt timed (.refl _) rfl nofun (.inl rfl)
  · exact suspend_isAside s .image _ lt timed (.refl _) rfl nofun (.inr ⟨_, rfl⟩)
  case h_3 card _ => exact suspend_isAside s card.kind _ lt timed (.refl _) rfl nofun (.inl rfl)

theorem settle_isAside (lt : q < s.runs.length) (timed : ∀ w, (s.run q).IsTimed w → lost = some q)
    (step : Step) : (s.settle q step).Aside lost s := by
  unfold settle
  split
  · exact .finished (.refl s)
  · exact pause_isAside s lt timed _ _
  · exact transfer_isAside s _ _
  · exact terminate_isAside s _
  · exact terminate_isAside s _

theorem startGraph_isAside (graph : Graph) (completion : Option Callback) :
    (s.startGraph graph completion).Aside lost s := by
  rcases s.startGraph_cases graph completion with ⟨f, h⟩ | ⟨-, h⟩
  · rw [h]
    exact .failure (.refl s) f
  · rw [h]
    exact (enqueue_isAside _ _).after ((Keeps.addRun rfl rfl).trans (.of_runs rfl rfl rfl))

theorem start_isAside (script : String) (completion : Option Callback) :
    (s.start script completion).Aside lost s := by
  rcases s.start_cases script completion with ⟨f, h⟩ | ⟨-, ⟨graph, -, h⟩ | ⟨f, -, h⟩⟩
  · rw [h]
    exact .failure (.refl s) f
  · rw [h]
    exact startGraph_isAside s graph completion
  · rw [h]
    exact ((stop_isAside _).under rfl (by exact nofun) rfl).after
      (.of_runs (by exact rfl) (by exact rfl) (by exact rfl))

theorem advance_isAside (answer : Value) : (s.advance answer).Aside lost s := by
  rcases s.advance_cases answer with ⟨f, h⟩ | ⟨r, wait, -, -, -, -, -, h⟩
  · rw [h]
    exact .failure (.refl s) f
  · rw [h]
    exact resumeInput_isAside s wait answer

theorem battleOver_isAside (battle : BattleHandle) (outcome : Value) :
    (s.battleOver battle outcome).Aside lost s := by
  rcases s.battleOver_cases battle outcome with ⟨-, h⟩ | ⟨-, ⟨f, h⟩ | ⟨graph, -, h⟩⟩
  · rw [h]
    exact .finished (.refl s)
  · rw [h]
    exact .failure (.refl s) f
  · rw [h]
    exact clear_isAside s _

theorem deliver_isAside (d : Delivery)
    (timed : ∀ w, (s.run d.handle.run).isWaitingOn d.handle.wait → (s.run d.handle.run).IsTimed w →
      lost = some d.handle.run) : (s.deliver d).Aside lost s := by
  rcases s.deliver_cases d with ⟨-, h⟩ | ⟨waits, h⟩
  · rw [h]
    exact .finished (.refl s)
  · rw [h]
    exact .freed ((afterWrite_isAside _ _ _).under rfl (by simp) rfl) (.free (fun _ => rfl) fun _ => rfl)
      (s.free_setRun fun _ => rfl) fun w => timed w waits

theorem post_isAside (ds : List Delivery) : (s.post ds).Aside lost s := by
  cases ds with
  | nil => exact .finished (.refl s)
  | cons d ds => exact (Move.Aside.ask (.refl s) (by exact rfl) (by exact nofun)).under rfl nofun rfl

theorem wait_setTimer (w : WaitId) (timer : Bool) :
    ((s.setRun q (·.setTimer w timer)).run q).wait = ((s.run q).setTimer w timer).wait := by
  rw [run_setRun]
  split
  case isTrue => rfl
  case isFalse out =>
    rw [run_of_length_le (Nat.le_of_not_lt fun lt => out ⟨rfl, lt⟩)]
    rfl

/-- The timer of a wait begins to run. -/
theorem wind_isAside (w : WaitId) : (Move.finished (s.setRun q (·.setTimer w true))).Aside (some q) s where
  warnings r := s.warnings_setRun (by exact fun _ => rfl) r
  waits r := by
    by_cases hr : r = q
    · subst hr
      exact .switched w true (s.wait_setTimer w true) rfl
    · exact .kept (congrArg Run.wait (run_setRun_of_ne hr))
  control := rfl
  frames _ hf := absurd hf List.not_mem_nil
  queue := .inl ⟨List.not_mem_nil, rfl⟩
  cancels _ asks := by cases asks
  tops _ _ hf := by cases hf

/-- The timer of a wait has run off. -/
theorem silence_isAside {w : WaitId} {m : Move} (h : m.Aside none (s.setRun q (·.setTimer w false))) :
    m.Aside (some q) s := by
  have wait := s.wait_setTimer (q := q) w false
  have alters : s.Alters q (s.setRun q (·.setTimer w false)) := by
    refine .setRun (fun _ => rfl) fun run v hv timed => ?_
    obtain ⟨v', hv', same⟩ := Option.map_eq_some_iff.1 hv
    split at same
    · subst same
      cases timed
    · exact same ▸ hv'
  refine h.altered alters fun own => ?_
  cases own with
  | kept same => exact .switched w false (same.trans wait) rfl
  | ended free => exact .ended free fun _ _ => rfl
  | switched _ _ _ lost => exact lost.elim
  | begun kind node begins => exact .begun kind node begins fun _ _ => rfl
  | cancelled timer own cancels => exact .cancelled timer own (cancels.after fun _ => alters.kept)

theorem timeUp_isAside (timer : TimerHandle) : (s.timeUp timer).Aside (some timer.run) s := by
  rcases s.timeUp_cases timer with ⟨-, h⟩ | ⟨-, wait, -, -, h⟩
  · rw [h]
    exact .finished (.refl s)
  · rw [h]
    exact silence_isAside s (resumeInput_isAside _ _ _)

theorem enter_isAside (e : Entry) : (s.enter e).Aside e.silences? s := by
  cases e with
  | start script completion => exact start_isAside s script completion
  | startGraph graph completion => exact startGraph_isAside s graph completion
  | stop => exact stop_isAside s
  | advance answer => exact advance_isAside s answer
  | battleOver battle outcome => exact battleOver_isAside s battle outcome
  | timeUp timer => exact timeUp_isAside s timer
  | written d => exact deliver_isAside s d fun _ _ _ => rfl
  | settle ticket outcome => exact (post_isAside _ _).after (.of_runs rfl rfl rfl)

end Session

section

variable (s : Session) {lost : Option RunId}

/-- An answer that goes on aside from visits. -/
theorem Ask.resume_isAside {a : Ask} (off : a.isOnNode = false) (answer : a.call.Reply)
    (begun : ∀ r, a.run? = some r → r < s.runs.length) : (a.resume s answer).Aside a.silences? s := by
  cases a with
  | count r node condition graph => exact s.follow_isAside node _ graph
  | give | take | spawn | remove | world | report => cases off
  | engage | cancelTimer | deliver | battle | announce => exact .finished (.refl s)
  | startTimer seconds timer =>
    simp only [resume]
    split
    · exact s.wind_isAside timer.wait
    · exact .finished (.refl s)
  | fillIn r graph => exact s.install_isAside _
  | dismiss r npc rest => exact s.dismiss_isAside rest
  | handOver r node link callback ledger =>
    exact s.afterHandOver_isAside (begun r rfl) (fun _ _ => rfl) node link answer

/-- What is waited for aside from visits, and not for a run that is driven or for the queue. -/
theorem Frame.receive_isAside {f : Frame} (aside : f.isAside) (plain : f ≠ .draining) (result : Result) :
    (f.receive s result).Aside f.frees? s := by
  cases f with
  | draining => exact absurd rfl plain
  | driving | triggering | following | stepping | asked => cases aside
  | failing f => exact .failure (.refl s) f
  | timing r wait seconds =>
    simp only [receive]
    split
    · exact .ask (.refl s) rfl (by simp)
    · exact .finished (.refl s)
  | resuming r job => exact s.resume_isAside (fun _ _ => rfl) job
  | ending r phase => exact s.close_isAside (fun _ _ => rfl) phase
  | announcing completion ledger => exact s.announce_isAside completion ledger
  | linking => exact .finished (.refl s)
  | posting ds => exact s.post_isAside ds

theorem Frame.recover_isAside {f : Frame} (aside : f.isAside ∨ f.isDriving) (plain : f ≠ .draining) (fault : Fault) :
    (f.recover s fault).Aside lost s := by
  cases f with
  | draining => exact absurd rfl plain
  | triggering | following | stepping | asked => rcases aside with own | own <;> cases own
  | driving r =>
    have stopped : (Session.stopIfActive { s with lastError := some fault } r).Aside lost _ :=
      Session.stopIfActive_isAside _
    exact (stopped.under (f := .failing fault) rfl nofun rfl).after (.of_runs rfl rfl rfl)
  | failing | timing | resuming | ending | announcing => exact .failure (.refl s) fault
  | linking r =>
    simp only [recover]
    split
    · exact (Session.stopIfActive_isAside _).after (.of_runs rfl rfl rfl)
    · exact .failure (.refl s) _
  | posting ds => exact s.post_isAside ds

end

end Questline

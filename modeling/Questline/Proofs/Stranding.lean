import Questline.Proofs.Finality
import Questline.Proofs.Outline

/-!
# Stranded runs

A run that is begun from inside a call of another run is only queued, and its turn comes when
the other run has come to rest.  If that run fails, the fault goes on to the caller through
the queue, and all jobs are dropped with it.  A run that was begun in between, say by the
completion callback of the run that failed, is stranded then: it is current and running, and
nothing is left that would ever go on with it.

This is the only way in which a run can hang.  Until then whatever is running is queued, or
is gone on with from the stack (`Turn.Minds`); and a run that was begun reaches its first
node, unless it is stopped or stranded before.

* `Event.Strands`, `Stranded`: a fault reaches the queue while the current run is running, and
  the run has stayed so since.
* `Turn.Minds`: something under way goes on with a run.
* `Turn.Apart`: nothing under way concerns a run.
* `running_at_rest_iff`: at rest the current run is running just if it was stranded, and then
  nothing but a stop changes it.
-/

namespace Questline

open Json (Value)

/-! ## The queue is worked off -/

namespace Alteration

variable {α : Alteration} {q r : RunId} {o : Outline} {x : RunId × Job}

theorem current_apply (h : ∀ graph completion, α ≠ .opened graph completion) :
    (α.apply q o).current = o.current := by
  cases α with
  | opened graph completion => exact absurd rfl (h graph completion)
  | _ => rfl

/-- Jobs are queued for the run that is served alone. -/
theorem pending_apply (h : x ∈ (α.apply q o).pending) : x ∈ o.pending ∨ x.1 = q := by
  cases α with
  | opened | resumed | installed =>
    rcases List.mem_append.1 h with h | h
    · exact .inl h
    · exact .inr (congrArg Prod.fst (List.mem_singleton.1 h))
  | taken => exact .inl (List.mem_of_mem_tail h)
  | dropped => cases h
  | _ => exact .inl h

/-- Jobs leave the queue only where it is worked off. -/
theorem mem_pending_apply (h : x ∈ o.pending) (queues : α.isDraining = false) :
    x ∈ (α.apply q o).pending := by
  cases α with
  | opened | resumed | installed => exact List.mem_append_left _ h
  | taken | dropped => cases queues
  | _ => exact h

theorem draining_apply (h : o.pending ≠ [] → o.draining) (rested : α = .rested → o.pending = [])
    (pending : (α.apply q o).pending ≠ []) : (α.apply q o).draining := by
  cases α with
  | opened | resumed | installed => rfl
  | taken =>
    refine h fun hp => pending ?_
    simp [apply, hp]
  | dropped => exact absurd rfl pending
  | rested => exact absurd (rested rfl) pending
  | _ => exact h pending

/-- A run that begins to run is queued. -/
theorem running_apply (h : ((α.apply q o).run r).phase = .running) (hr : r < (α.apply q o).length)
    (ends : α.endsWell) (opened : ∀ graph completion, α = .opened graph completion → q = o.length) :
    (o.run r).phase = .running ∧ r < o.length ∨ ∃ job, (r, job) ∈ (α.apply q o).pending := by
  have changed {f : RunOutline → RunOutline} (job : Job)
      (h : ((o.change q f).run r).phase = .running) (hr : r < o.length) :
      (o.run r).phase = .running ∧ r < o.length ∨ (r, job) ∈ o.pending ++ [(q, job)] := by
    by_cases hq : q = r
    · exact .inr (by simp [hq])
    · simp only [Outline.change, hq, false_and, if_false] at h
      exact .inl ⟨h, hr⟩
  cases α with
  | nothing | announced | taken | dropped | rested => exact .inl ⟨h, hr⟩
  | answered | handed | released =>
    refine .inl ⟨?_, hr⟩
    simp only [apply, Outline.change] at h
    split at h <;> exact h
  | suspended kind node =>
    refine .inl ⟨?_, hr⟩
    simp only [apply, Outline.change] at h
    split at h
    · cases h
    · exact h
  | closed phase =>
    refine .inl ⟨?_, hr⟩
    simp only [apply, Outline.change] at h
    split at h
    · obtain rfl : phase = .running := h
      cases ends
    · exact h
  | resumed job =>
    exact (changed (f := fun run => { run with phase := .running, waiting := none }) job h hr).imp_right
      fun h => ⟨job, h⟩
  | installed graph =>
    exact (changed (f := fun run => { run with script := graph.id, phase := .running, waiting := none })
      (.enter graph) h hr).imp_right fun h => ⟨.enter graph, h⟩
  | opened graph completion =>
    by_cases hq : r = o.length
    · exact .inr ⟨.enter graph, by simp [apply, Outline.queue, hq, opened graph completion rfl]⟩
    · simp only [apply, Outline.queue, hq, if_false] at h
      exact .inl ⟨h, Nat.lt_of_le_of_ne (Nat.lt_succ_iff.1 hr) hq⟩

end Alteration

/-! ## What every turn looks like -/

theorem Entry.lt_length {s : Session} {r : RunId} {e : Entry} (h : e.run? s = some r)
    (current : ∀ r, s.current = some r → r < s.runs.length) : r < s.runs.length := by
  cases e with
  | start | startGraph | advance | stop => exact current r h
  | battleOver battle outcome =>
    obtain ⟨hw, hr⟩ := Option.ite_none_right_eq_some.1 h
    obtain rfl := Option.some.inj hr
    exact Session.lt_length_of_isWaiting hw
  | timeUp timer =>
    obtain ⟨hw, hr⟩ := Option.ite_none_right_eq_some.1 h
    obtain rfl := Option.some.inj hr
    exact Session.lt_length_of_isWaiting hw
  | written delivery =>
    obtain ⟨hw, hr⟩ := Option.ite_none_right_eq_some.1 h
    obtain rfl := Option.some.inj hr
    exact Session.lt_length_of_isWaitingOn hw
  | settle => cases h

namespace Turn

/-- Nothing mentions a run that was never begun, and jobs are queued only while the queue is
worked off. -/
structure Orderly (t : Turn) : Prop where
  ends : t.EndsWell
  stack : ∀ f ∈ t.stack, ∀ r, f.run? = some r → r < t.session.runs.length
  control : ∀ r, t.control.run? t.session = some r → r < t.session.runs.length
  current : ∀ r, t.session.current = some r → r < t.session.runs.length
  pending : ∀ x ∈ t.session.pending, x.1 < t.session.runs.length
  queued : t.session.pending ≠ [] → t.session.draining
  draining : t.session.draining → .draining ∈ t.stack

variable {t u : Turn} {d : Deed} {q r : RunId}

theorem Orderly.worker (h : t.Orderly) (hq : t.worker? = some q) : q < t.session.runs.length := by
  obtain ⟨s, stack, c⟩ := t
  cases c with
  | work | ask => exact h.control q hq
  | done | failed =>
    cases stack with
    | nil => cases hq
    | cons f stack => exact h.stack f List.mem_cons_self q hq

theorem Yields.orderly (h : t.Yields d u) (ht : t.Orderly) (ends : u.EndsWell) : u.Orderly := by
  obtain ⟨s, stack, c⟩ := t
  obtain ⟨s', stack', c'⟩ := u
  have hlength : s'.runs.length = s.runs.length := congrArg List.length h.runs
  have hcurrent : s'.current = s.current := congrArg Outline.current h.outline
  have hpending : s'.pending = s.pending := congrArg Outline.pending h.outline
  have hdraining : s'.draining = s.draining := congrArg Outline.draining h.outline
  have current : ∀ r, s'.current = some r → r < s'.runs.length := by
    rw [hcurrent, hlength]
    exact ht.current
  have keeps (mentions : (∀ f ∈ stack', ∀ r, f.run? = some r → r < s.runs.length) ∧
      ∀ r, c'.run? s' = some r → r < s'.runs.length)
      (draining : .draining ∈ stack → .draining ∈ stack') : Orderly ⟨s', stack', c'⟩ :=
    { ends
      stack := by
        rw [hlength]
        exact mentions.1
      control := mentions.2
      current
      pending := by
        rw [hpending, hlength]
        exact ht.pending
      queued := by
        rw [hpending, hdraining]
        exact ht.queued
      draining := fun hd => draining (ht.draining (by rw [← hdraining]; exact hd)) }
  have control : ∀ r, c.run? s = some r → r < s.runs.length := ht.control
  have hshifts : Shifts stack c stack' c' := h.shifts
  cases hshifts with
  | change hc =>
    refine keeps ⟨ht.stack, ?_⟩ id
    rw [hlength]
    cases c with
    | work => cases hc
    | ask | done | failed => exact control
  | beginAtRest ho e => exact keeps ⟨ht.stack, fun r hr => Entry.lt_length hr current⟩ id
  | beginInside e =>
    exact keeps ⟨List.forall_mem_cons.2 ⟨control, ht.stack⟩, fun r hr => Entry.lt_length hr current⟩
      (List.mem_cons_of_mem _)
  | @leave _ a _ ho =>
    obtain ⟨ha, hstack⟩ := List.forall_mem_cons.1 ht.stack
    refine keeps ⟨hstack, ?_⟩ (fun hm => ?_)
    · rw [hlength]
      exact ha
    · rcases List.mem_cons.1 hm with hm | hm
      · cases hm
      · exact hm
  | fail f => exact keeps ⟨ht.stack, fun r hr => (by cases hr)⟩ id

theorem Makes.orderly {popped rest : List Frame} {α : Alteration} {m : Move}
    (h : t.Makes popped q α m) (hs : t.stack = popped ++ rest) (ht : t.Orderly)
    (ends : (m.on rest).EndsWell) : (m.on rest).Orderly := by
  have outline : m.session.outline = α.apply q t.session.outline := h.serves.outline
  have hlength : m.session.runs.length = (α.apply q t.session.outline).length :=
    congrArg Outline.length outline
  have hpending : m.session.pending = (α.apply q t.session.outline).pending :=
    congrArg Outline.pending outline
  have longer : t.session.runs.length ≤ m.session.runs.length := by
    rw [hlength]
    exact Alteration.length_apply (o := t.session.outline)
  -- Whoever is mentioned, or queued, by the move was begun.
  have mentioned (r : RunId) (hr : (∃ f ∈ m.frames, f.run? = some r) ∨
      m.control.run? m.session = some r ∨ ∃ job, (r, job) ∈ m.session.pending) :
      r < m.session.runs.length := by
    have served {L : Prop} {q' : RunId} (hm : m.Serves L q' α t.session) :
        r = q' ∨ ∃ job, (r, job) ∈ t.session.pending := by
      rcases hr with ⟨f, hf, hr⟩ | hr | ⟨job, hr⟩
      · exact .inl (hm.frames f hf r hr)
      · exact .inl (hm.control r hr)
      · rw [show m.session.pending = _ from congrArg Outline.pending hm.outline] at hr
        exact (Alteration.pending_apply hr).symm.imp_right fun h => ⟨job, h⟩
    have queued (h : ∃ job, (r, job) ∈ t.session.pending) : r < m.session.runs.length :=
      let ⟨_, hr⟩ := h
      Nat.lt_of_lt_of_le (ht.pending _ hr) longer
    rcases h.worker with hw | ho | hall
    · rcases served h.serves with rfl | hq
      · exact Nat.lt_of_lt_of_le (ht.worker hw) longer
      · exact queued hq
    · rcases served h.serves with rfl | hq
      · cases α with
        | opened graph completion =>
          rw [hlength, (h.opened _ _ rfl).1]
          exact Nat.lt_succ_self _
        | taken =>
          obtain ⟨job, rest, hp, -⟩ := h.queue
          exact queued ⟨job, hp ▸ List.mem_cons_self⟩
        | _ => cases ho
      · exact queued hq
    · rcases served (hall (r + 1)) with hr | hq
      · exact absurd hr (Nat.ne_of_lt (Nat.lt_succ_self r))
      · exact queued hq
  refine
    { ends
      stack := fun f hf r hr => ?_
      control := fun r hr => mentioned r (.inr (.inl hr))
      current := fun r hr => ?_
      pending := fun x hx => mentioned x.1 (.inr (.inr ⟨x.2, hx⟩))
      queued := fun hp => ?_
      draining := fun hd => ?_ }
  · rcases List.mem_append.1 hf with hf | hf
    · exact mentioned r (.inl ⟨f, hf, hr⟩)
    · exact Nat.lt_of_lt_of_le (ht.stack f (hs ▸ List.mem_append_right _ hf) r hr) longer
  · have hcurrent : m.session.current = (α.apply q t.session.outline).current :=
      congrArg Outline.current outline
    show r < m.session.runs.length
    by_cases ho : ∃ graph completion, α = .opened graph completion
    · obtain ⟨graph, completion, rfl⟩ := ho
      obtain rfl : t.session.runs.length = r := Option.some.inj (hcurrent.symm.trans hr)
      rw [hlength]
      exact Nat.lt_succ_self _
    · rw [Alteration.current_apply fun g c h => ho ⟨g, c, h⟩] at hcurrent
      exact Nat.lt_of_lt_of_le (ht.current r (hcurrent.symm.trans hr)) longer
  · refine (congrArg Outline.draining outline).trans (Alteration.draining_apply ht.queued ?_ ?_)
    · rintro rfl
      exact h.queue
    · rw [← hpending]
      exact hp
  · rcases h.serves.drains hd with hf | ⟨hd, hα⟩
    · exact List.mem_append_left _ hf
    · have hmem := ht.draining hd
      rw [hs] at hmem
      refine List.mem_append_right _ ((List.mem_append.1 hmem).resolve_left fun hp => ?_)
      rw [h.draining, hα] at hp
      cases hp

theorem Does.orderly (h : t.Does d u) (ht : t.Orderly) : u.Orderly := by
  have ends := h.endsWell ht.ends
  rcases h.serves ht.ends with hy | ⟨popped, rest, q, α, m, hs, -, rfl, hm, -⟩
  · exact hy.orderly ht ends
  · exact hm.orderly hs ht ends

end Turn

/-! ## Runs that are gone on with -/

namespace Session

variable (s : Session) {r : RunId}

/-- The run is the current one, and running. -/
def IsRunning (r : RunId) : Prop := s.current = some r ∧ (s.run r).phase = .running

/-- The run is queued, if it is running. -/
def IsSettled (r : RunId) : Prop := (s.run r).phase = .running → ∃ job, (r, job) ∈ s.pending

variable {s}

theorem isActive_of_running (h : (s.run r).phase = .running) : (s.run r).isActive := by
  simp [Run.isActive, h, Phase.isActive]

theorem IsRunning.owns (h : s.IsRunning r) : s.owns r := by
  simp [Session.owns, h.1, isActive_of_running h.2]

theorem isSettled_of_phase {phase : Phase} (h : (s.run r).phase = phase) (hp : phase ≠ .running) :
    s.IsSettled r := fun hr => absurd (h.symm.trans hr) hp

theorem isSettled_enqueue (s : Session) (r : RunId) (job : Job) :
    (s.enqueue r job).session.IsSettled r := by
  refine fun _ => ⟨job, ?_⟩
  simp only [enqueue]
  split <;> exact List.mem_append_right _ List.mem_cons_self

theorem isSettled_suspend (hr : r < s.runs.length) (kind : WaitKind) (node : String) :
    (s.suspend r kind node).IsSettled r :=
  isSettled_of_phase (phase_suspend hr kind node) (by decide)

theorem isSettled_close (hr : r < s.runs.length) {phase : Phase} (past : phase.isActive = false) :
    (s.close r phase).session.IsSettled r := by
  by_cases hp : phase = .stopped
  · subst hp
    have hrun := congrArg (fun o : Outline => (o.run r).phase) (s.close_serves r .stopped).outline
    have stopped : ((s.close r .stopped).session.run r).phase = .stopped := by
      refine hrun.trans ?_
      simp [Alteration.apply, Outline.change, show r < s.outline.length from hr]
    exact isSettled_of_phase stopped (by decide)
  · refine isSettled_of_phase (phase_close hr hp) ?_
    rintro rfl
    cases past

end Session

/-- Whether a rider is on its way with a run.  A step is on its way with the run that is driven. -/
def Rider.isFor (r : RunId) : Rider → Bool
  | .nobody | .job _ _ => false
  | .atNode q _ _ | .linking q => q == r
  | .stepped _ => true

/-- Whether a frame goes on with a run, or ends it. -/
def Frame.pursues (r : RunId) : Frame → Bool
  | .ending q _ => q == r
  | f => f.rider.isFor r

/-- Whether what comes next goes on with a run, or has it stopped. -/
def Control.pursues (r : RunId) : Control → Bool
  | .failed _ => true
  | c => c.rider.isFor r

/-- A move goes on with a run, unless that is settled by then. -/
def Move.Pursues (r : RunId) (m : Move) : Prop :=
  (match m.frames.getLast? with
    | some f => f.pursues r
    | none => m.control.pursues r) ∨ m.session.IsSettled r

namespace Move.Pursues

variable {r : RunId} {m : Move}

theorem under {f : Frame} (h : f.pursues r) : (m.under f).Pursues r :=
  .inl (by simpa [Move.under] using h)

theorem of_frames_nil (frames : m.frames = []) (h : m.control.pursues r) : m.Pursues r :=
  .inl (by simpa [frames] using h)

theorem failure (s : Session) (f : Fault) : (Move.failure s f).Pursues r := of_frames_nil rfl rfl

theorem stepped (s : Session) (node : Node) (action : Action) :
    (Move.stepped s node action).Pursues r := of_frames_nil rfl rfl

theorem ask (s : Session) {a : Ask} (h : a.rider.isFor r) : (Move.ask s a).Pursues r :=
  of_frames_nil rfl h

end Move.Pursues

section Pursuit

variable (s : Session) {r : RunId}

namespace Session

theorem follow_pursues (node : Node) (output : Int) (graph : Graph) :
    (s.follow r node output graph).Pursues r := by
  rw [follow_eq]
  exact .stepped _ _ _

theorem visit_pursues (node : Node) (graph : Graph) : (s.visit r node graph).Pursues r := by
  unfold visit
  cases node.body with
  | dialogue | choice => exact .under rfl
  | image | combat | link | ending => exact .stepped _ _ _
  | item | trigger => exact .under (by simp [Frame.pursues, Frame.rider, Rider.isFor])
  | condition c =>
    dsimp only [check]
    split
    · exact follow_pursues _ _ _ _
    · exact .ask _ (by simp [Ask.rider, Rider.isFor])
    · exact .ask _ (by simp [Ask.rider, Rider.isFor])

theorem respond_pursues (node : Node) (graph : Graph) (answer : Value) :
    (s.respond r node graph answer).Pursues r := by
  unfold respond
  split
  · split
    · dsimp only
      split
      · exact follow_pursues _ _ _ _
      · exact .failure _ _
    · exact .failure _ _
  · exact follow_pursues _ _ _ _

theorem resolve_pursues (node : Node) (graph : Graph) (outcome : Value) :
    (s.resolve r node graph outcome).Pursues r := by
  unfold resolve
  split
  · exact follow_pursues _ _ _ _
  · exact follow_pursues _ _ _ _
  · exact .failure _ _

theorem install_pursues (graph : Graph) : (s.install r graph).Pursues r :=
  .inr (isSettled_enqueue _ _ _)

theorem loadTarget_pursues (link : Link) : (s.loadTarget r link).Pursues r := by
  rcases s.loadTarget_cases r link with ⟨f, h⟩ | ⟨graph, -, h | h⟩
  · rw [h]
    exact .failure _ f
  · rw [h]
    exact .ask _ (by simp [Ask.rider, Rider.isFor])
  · rw [h]
    exact install_pursues _ graph

theorem afterWrite_pursues (link : Link) (outcome : WriteOutcome) :
    (s.afterWrite r link outcome).Pursues r := by
  cases outcome with
  | written => exact loadTarget_pursues s link
  | failed | cancelled => exact .failure _ _

variable {s} (hr : r < s.runs.length)

include hr

theorem afterHandOver_pursues (node : String) (link : Link) (receipt : Receipt) :
    (s.afterHandOver r node link receipt).Pursues r := by
  cases receipt with
  | plain => exact loadTarget_pursues s link
  | finished outcome => exact afterWrite_pursues s link outcome
  | pending ticket =>
    have h := isSettled_suspend hr .link node
    simp only [afterHandOver]
    generalize s.suspend r .link node = s' at h ⊢
    exact .inr h

omit hr in
theorem transfer_pursues (node : String) (link : Link) : (s.transfer r node link).Pursues r := by
  unfold transfer
  split
  · exact loadTarget_pursues _ _
  · exact .ask _ (by simp [Ask.rider, Rider.isFor])

theorem pause_pursues (node : Node) (scene : Scene) : (s.pause r node scene).Pursues r := by
  have h := isSettled_suspend hr scene.kind node.id
  unfold pause
  dsimp only
  generalize s.suspend r scene.kind node.id = s' at h ⊢
  split <;> exact .inr h

theorem terminate_pursues {phase : Phase} (past : phase.isActive = false) :
    (s.terminate r phase).Pursues r := by
  rcases s.terminate_cases r phase with ⟨w, -, -, h⟩ | ⟨-, h⟩
  · rw [h]
    exact .under (by simp [Frame.pursues])
  · rw [h]
    exact .inr (isSettled_close hr past)

/-- A run that goes on is driven on, unless it is settled. -/
theorem proceed_pursues (h : s.IsRunning r) (step : Step) :
    ∃ m : Move, s.proceed r step = m.under (.driving r) ∧ m.Pursues r := by
  rcases s.proceed_cases r step with ⟨lost, -⟩ | ⟨-, ⟨f, hm⟩ | ⟨node, graph, -, -, hm⟩ | ⟨hn, hm⟩⟩
  · rw [h.owns] at lost
    cases lost
  · exact ⟨_, hm, .failure _ _⟩
  · exact ⟨_, hm, .of_frames_nil rfl (by simp [Move.work, Control.pursues, Control.rider, Rider.isFor])⟩
  · refine ⟨_, hm, ?_⟩
    unfold settle
    split
    case h_1 node ha => exact absurd ha (hn node)
    · exact pause_pursues hr _ _
    · exact transfer_pursues _ _
    · exact terminate_pursues hr rfl
    · exact terminate_pursues hr (phaseAfter_isActive _)

end Session

variable {s} (hr : r < s.runs.length)

include hr

theorem Task.begin_pursues {task : Task} (h : (Control.work task).rider.isFor r) :
    (task.begin s).Pursues r := by
  cases task with
  | visit q node graph =>
    obtain rfl : q = r := beq_iff_eq.1 h
    exact s.visit_pursues node graph
  | respond q node graph answer =>
    obtain rfl : q = r := beq_iff_eq.1 h
    exact s.respond_pursues node graph answer
  | resolve q node graph outcome =>
    obtain rfl : q = r := beq_iff_eq.1 h
    exact s.resolve_pursues node graph outcome
  | follow q node output graph =>
    obtain rfl : q = r := beq_iff_eq.1 h
    exact s.follow_pursues node output graph
  | _ => cases h

theorem Ask.resume_pursues {a : Ask} (h : a.rider.isFor r) (answer : a.call.Reply) :
    (a.resume s answer).Pursues r := by
  cases a with
  | count q node condition graph =>
    obtain rfl : q = r := beq_iff_eq.1 h
    exact s.follow_pursues node _ graph
  | handOver q node link callback ledger =>
    obtain rfl : q = r := beq_iff_eq.1 h
    exact Session.afterHandOver_pursues hr node link answer
  | fillIn q graph =>
    obtain rfl : q = r := beq_iff_eq.1 h
    exact s.install_pursues _
  | _ => cases h

theorem Frame.receive_pursues {f : Frame} (h : f.pursues r) (ends : f.endsWell)
    (hn : ∀ a, f ≠ .asked a) (result : Result) : (f.receive s result).Pursues r := by
  cases f with
  | stepping step => exact .stepped _ _ _
  | following q node output graph =>
    obtain rfl : q = r := beq_iff_eq.1 h
    exact s.follow_pursues node output graph
  | triggering q node graph =>
    obtain rfl : q = r := beq_iff_eq.1 h
    exact s.follow_pursues node _ graph
  | ending q phase =>
    obtain rfl : q = r := beq_iff_eq.1 h
    exact .inr (Session.isSettled_close hr (by simpa [Frame.endsWell] using ends))
  | asked a => exact absurd rfl (hn a)
  | _ => cases h

omit hr in
theorem Frame.recover_pursues {f : Frame} (h : f.pursues r) (hn : ∀ a, f ≠ .asked a)
    (fault : Fault) : (f.recover s fault).Pursues r := by
  cases f with
  | triggering q node graph =>
    obtain rfl : q = r := beq_iff_eq.1 h
    simp only [recover]
    split
    · exact .under (by simp [Frame.pursues, Frame.rider, Rider.isFor])
    · exact .failure _ _
  | stepping | following | ending => exact .failure _ _
  | asked a => exact absurd rfl (hn a)
  | _ => cases h

end Pursuit

/-- What comes next goes on with a run: its job is begun, it is on its way from node to node, or
it is stopped since it failed. -/
inductive Control.Minds (r : RunId) : Control → List Frame → Prop
  | drive (job : Job) (below : List Frame) : Minds r (.work (.drive r job)) (.draining :: below)
  | pursue {c : Control} (h : c.pursues r) (below : List Frame) :
      Minds r c (.driving r :: .draining :: below)
  | terminate (f : Fault) (below : List Frame) :
      Minds r (.work (.terminate r .stopped)) (.failing f :: .draining :: below)
  | failing (f f' : Fault) (below : List Frame) :
      Minds r (.failed f) (.failing f' :: .draining :: below)
  | failed (f : Fault) (below : List Frame) : Minds r (.failed f) (.draining :: below)

theorem Control.not_minds_nil {r : RunId} {c : Control} : ¬c.Minds r [] := fun h => by cases h

/-- A frame goes on with a run. -/
inductive Frame.Minds (r : RunId) : Frame → List Frame → Prop
  | pursue {f : Frame} (h : f.pursues r) (below : List Frame) :
      Minds r f (.driving r :: .draining :: below)
  | ending (f : Fault) (below : List Frame) :
      Minds r (.ending r .stopped) (.failing f :: .draining :: below)

/-- Some frame of a stack goes on with a run. -/
inductive Minded (r : RunId) : List Frame → Prop
  | here {f : Frame} {stack : List Frame} (h : f.Minds r stack) : Minded r (f :: stack)
  | deeper {f : Frame} {stack : List Frame} (h : Minded r stack) : Minded r (f :: stack)

theorem Minded.append {r : RunId} {stack : List Frame} (h : Minded r stack) (frames : List Frame) :
    Minded r (frames ++ stack) := by
  induction frames with
  | nil => exact h
  | cons f frames ih => exact .deeper ih

/-- Something under way goes on with a run. -/
def Turn.Minds (r : RunId) (t : Turn) : Prop := t.control.Minds r t.stack ∨ Minded r t.stack

/-- The run is queued, or something under way goes on with it. -/
def Turn.Attends (r : RunId) (t : Turn) : Prop :=
  (∃ job, (r, job) ∈ t.session.pending) ∨ t.Minds r

/-- A fault reaches the queue while the run is running. -/
structure Event.Strands (e : Event) (r : RunId) : Prop where
  queue : ∃ below, e.before.stack = .draining :: below
  fault : ∃ f, e.before.control = .failed f
  running : e.before.session.IsRunning r

namespace Turn

variable {t u : Turn} {d : Deed} {r : RunId}

/-- A driven run is gone on with after a move that pursues it, unless it is settled. -/
theorem minds_of_pursues {m : Move} (h : m.Pursues r) (below : List Frame) :
    (m.on (.driving r :: .draining :: below)).Minds r ∨ m.session.IsSettled r := by
  refine h.imp_left fun h => ?_
  rcases List.eq_nil_or_concat m.frames with hm | ⟨frames, f, hm⟩
  · left
    rw [hm] at h
    show m.control.Minds r (m.frames ++ _)
    rw [hm]
    exact .pursue h below
  · right
    rw [hm, List.concat_eq_append, List.getLast?_concat] at h
    show Minded r (m.frames ++ _)
    rw [hm, List.concat_eq_append, List.append_assoc]
    exact Minded.append (.here (.pursue h below)) frames

theorem minds_of_minded {m : Move} {stack : List Frame} (h : Minded r stack) :
    (m.on stack).Minds r := .inr (h.append m.frames)

/-- What goes on with a run does so with every deed, until the run is settled or stranded. -/
theorem Does.minds (h : t.Does d u) (ht : t.Minds r) (orderly : t.Orderly)
    (running : t.session.IsRunning r) :
    u.Minds r ∨ u.session.IsSettled r ∨ Event.Strands ⟨t, d, u⟩ r := by
  have hr : r < t.session.runs.length := orderly.current r running.1
  have settle {P Q : Prop} (h : P ∨ Q) (R : Prop) : P ∨ Q ∨ R := h.imp_right .inl
  cases h with
  | @work s stack task =>
    rcases ht with hc | hm
    · cases hc with
      | drive job below =>
        refine .inl (.inl ?_)
        have hdrive : s.drive r job = (Move.work s (Session.taskOf r job)).under (.driving r) :=
          if_pos running.owns
        show ((s.drive r job).on (.draining :: below)).control.Minds r
          ((s.drive r job).on (.draining :: below)).stack
        rw [hdrive]
        exact .pursue (by cases job <;> exact beq_self_eq_true r) below
      | pursue hl below => exact settle (minds_of_pursues (Task.begin_pursues hr hl) below) _
      | terminate f below =>
        show ((s.terminate r .stopped).on _).Minds r ∨ (s.terminate r .stopped).session.IsSettled r ∨ _
        rcases s.terminate_cases r .stopped with ⟨w, -, -, h⟩ | ⟨-, h⟩
        · rw [h]
          exact .inl (.inr (.here (.ending f below)))
        · rw [h]
          exact .inr (.inl (Session.isSettled_close hr rfl))
    · exact .inl (minds_of_minded hm)
  | @receive s frame stack result hn =>
    rcases ht with hc | hm
    · cases hc with
      | pursue hl below =>
        cases result with
        | done => cases hl
        | stepped step =>
          obtain ⟨m, hproceed, hm⟩ := Session.proceed_pursues hr running step
          show ((s.proceed r step).on _).Minds r ∨ (s.proceed r step).session.IsSettled r ∨ _
          rw [hproceed, Move.on_under]
          exact settle (minds_of_pursues hm below) _
    · cases hm with
      | here hf =>
        cases hf with
        | pursue hf below =>
          exact settle (minds_of_pursues
            (Frame.receive_pursues hr hf (orderly.ends.1 _ List.mem_cons_self) hn result) below) _
        | ending f below => exact .inr (.inl (Session.isSettled_close hr rfl))
      | deeper hm => exact .inl (minds_of_minded hm)
  | @recover s frame stack fault hn =>
    rcases ht with hc | hm
    · cases hc with
      | pursue hl below =>
        refine .inl (.inl ?_)
        have hstop : Session.stopIfActive { s with lastError := some fault } r =
            .work { s with lastError := some fault } (.terminate r .stopped) :=
          if_pos (Session.isActive_of_running running.2)
        simp only [Frame.recover, hstop]
        exact .terminate fault below
      | failing f f' below => exact .inl (.inl (.failed _ below))
      | failed f below => exact .inr (.inr ⟨⟨stack, rfl⟩, ⟨fault, rfl⟩, running⟩)
    · cases hm with
      | here hf =>
        cases hf with
        | pursue hf below =>
          exact settle (minds_of_pursues (Frame.recover_pursues hf hn fault) below) _
        | ending f below => exact .inl (.inl (.failing _ f below))
      | deeper hm => exact .inl (minds_of_minded hm)
  | beginAtRest =>
    rcases ht with hc | hm
    · cases hc
    · cases hm
  | @beginInside s stack a e =>
    rcases ht with hc | hm
    · cases hc with
      | pursue hl below =>
        have hf : (Frame.asked a).pursues r := hl
        exact .inl (.inr (.here (.pursue hf below)))
    · exact .inl (.inr (.deeper hm))
  | @leave s stack a c ho =>
    rcases ht with hc | hm
    · cases hc
    · cases hm with
      | here hf =>
        cases hf with
        | pursue hf below =>
          have hc : (Control.ask a).pursues r := hf
          exact .inl (.inl (.pursue hc below))
      | deeper hm => exact .inl (.inr hm)
  | @reply s stack a answer =>
    rcases ht with hc | hm
    · cases hc with
      | pursue hl below => exact settle (minds_of_pursues (Ask.resume_pursues hr hl answer) below) _
    · exact .inl (minds_of_minded hm)
  | fail f =>
    rcases ht with hc | hm
    · cases hc with
      | pursue hl below => exact .inl (.inl (.pursue rfl below))
    · exact .inl (.inr hm)
  | change => exact .inl ht

theorem isRunning_iff {s : Session} :
    s.IsRunning r ↔ s.outline.current = some r ∧ (s.outline.run r).phase = .running := Iff.rfl

/-- **A run that is running is attended to** by every deed, unless it is stranded. -/
theorem Does.attends (h : t.Does d u) (orderly : t.Orderly)
    (ht : t.session.IsRunning r → t.Attends r) (hu : u.session.IsRunning r) :
    u.Attends r ∨ Event.Strands ⟨t, d, u⟩ r := by
  -- What goes on with the run does so, or the run is queued.
  have minds (running : t.session.IsRunning r) (hm : t.Minds r) :
      u.Attends r ∨ Event.Strands ⟨t, d, u⟩ r := by
    rcases h.minds hm orderly running with hm | hs | hs
    · exact .inl (.inr hm)
    · exact .inl (.inl (hs hu.2))
    · exact .inr hs
  rcases h.serves orderly.ends with hy | ⟨popped, rest, q, α, m, hs, hp, rfl, hm, -⟩
  · have running : t.session.IsRunning r := by
      rw [isRunning_iff, ← hy.outline]
      exact hu
    rcases ht running with ⟨job, hq⟩ | hm
    · refine .inl (.inl ⟨job, ?_⟩)
      rw [show u.session.pending = t.session.pending from congrArg Outline.pending hy.outline]
      exact hq
    · exact minds running hm
  · have outline : m.session.outline = α.apply q t.session.outline := hm.serves.outline
    have hpending : m.session.pending = (α.apply q t.session.outline).pending :=
      congrArg Outline.pending outline
    rw [isRunning_iff, show (m.on rest).session.outline = _ from outline] at hu
    have hr : r < (α.apply q t.session.outline).length := by
      rw [← outline]
      exact (h.orderly orderly).current r (by rw [← hu.1, ← outline]; rfl)
    rcases Alteration.running_apply hu.2 hr hm.ends fun g c ho => (hm.opened g c ho).1 with
      ⟨hphase, hlt⟩ | ⟨job, hq⟩
    · have running : t.session.IsRunning r := by
        refine ⟨?_, hphase⟩
        by_cases ho : ∃ graph completion, α = .opened graph completion
        · obtain ⟨graph, completion, rfl⟩ := ho
          obtain rfl : t.session.outline.length = r := Option.some.inj hu.1
          exact absurd hlt (Nat.lt_irrefl _)
        · rw [Alteration.current_apply fun g c h => ho ⟨g, c, h⟩] at hu
          exact hu.1
      rcases ht running with ⟨job, hq⟩ | hminds
      · cases hα : α.isDraining with
        | false =>
          refine .inl (.inl ⟨job, ?_⟩)
          show _ ∈ m.session.pending
          rw [hpending]
          exact Alteration.mem_pending_apply hq hα
        | true =>
          cases α with
          | taken =>
            obtain ⟨job', jobs, hjobs, rfl⟩ := hm.queue
            rw [hjobs] at hq
            rcases List.mem_cons.1 hq with hq | hq
            · obtain ⟨rfl, rfl⟩ := Prod.mk.inj hq
              exact .inl (.inr (.inl (.drive job rest)))
            · exact .inl (.inl ⟨job, hq⟩)
          | dropped =>
            obtain ⟨f, hf⟩ := hm.queue
            have hpop : Frame.draining ∈ popped := hm.draining.2 rfl
            rcases hp with ⟨rfl, -⟩ | ⟨frame, rfl, -, -⟩
            · cases hpop
            · obtain rfl := List.mem_singleton.1 hpop
              exact .inr ⟨⟨rest, hs⟩, ⟨f, hf⟩, running⟩
          | rested =>
            rw [show t.session.pending = [] from hm.queue] at hq
            cases hq
          | _ => cases hα
      · exact minds running hminds
    · refine .inl (.inl ⟨job, ?_⟩)
      show _ ∈ m.session.pending
      rw [hpending]
      exact hq

end Turn

/-! ## Runs that nothing under way concerns -/

/-- The jobs that are queued for a run. -/
def Session.jobs (s : Session) (r : RunId) : List (RunId × Job) := s.pending.filter (·.1 == r)

/-- The jobs of a run are left alone on behalf of other runs, unless all are dropped. -/
theorem Alteration.jobs_apply {α : Alteration} {q r : RunId} {o : Outline} (hq : q ≠ r)
    (taken : α = .taken → ∃ job rest, o.pending = (q, job) :: rest) (dropped : α ≠ .dropped) :
    (α.apply q o).pending.filter (·.1 == r) = o.pending.filter (·.1 == r) := by
  cases α with
  | opened | resumed | installed => simp [apply, Outline.queue, Outline.change, hq]
  | taken =>
    obtain ⟨job, rest, hp⟩ := taken rfl
    simp [apply, hp, hq]
  | dropped => exact absurd rfl dropped
  | _ => rfl

/-- The run `r` is running, and nothing under way concerns it, unless it is an entry that is yet
to be begun. -/
structure Turn.Apart (r : RunId) (t : Turn) : Prop where
  running : t.session.IsRunning r
  stack : ∀ f ∈ t.stack, f.run? ≠ some r
  control : t.control.run? t.session = some r → ∃ e, t.control = .work (.entry e)

/-- While a run is running, the host can begin nothing that concerns it but a stop. -/
theorem Session.enter_of_running {s : Session} {r : RunId} {e : Entry} (h : s.IsRunning r)
    (he : e.run? s = some r) (hn : e ≠ .stop) : ∃ f, s.enter e = .failure s f := by
  have busy : ¬s.IsIdle := fun idle => by
    have active := isActive_of_running h.2
    rw [idle r h.1] at active
    cases active
  have deaf {w : WaitId} (hw : (s.run r).isWaitingOn w) : False := by
    simp [Run.isWaitingOn, h.2] at hw
  cases e with
  | start script completion =>
    exact (s.start_cases script completion).resolve_right fun begun => busy begun.1
  | startGraph graph completion =>
    exact (s.startGraph_cases graph completion).resolve_right fun begun => busy begun.1
  | advance answer => exact ⟨.runner .notWaiting, by simp only [enter, advance, h.1, h.2]⟩
  | stop => exact absurd rfl hn
  | battleOver battle outcome =>
    obtain ⟨hw, hr⟩ := Option.ite_none_right_eq_some.1 he
    obtain rfl := Option.some.inj hr
    exact (deaf (Bool.and_eq_true_iff.1 hw).2).elim
  | timeUp timer =>
    obtain ⟨hw, hr⟩ := Option.ite_none_right_eq_some.1 he
    obtain rfl := Option.some.inj hr
    exact (deaf (Bool.and_eq_true_iff.1 hw).2).elim
  | written delivery =>
    obtain ⟨hw, hr⟩ := Option.ite_none_right_eq_some.1 he
    obtain rfl := Option.some.inj hr
    exact (deaf hw).elim
  | settle => cases he

namespace Turn

variable {t u : Turn} {d : Deed} {q r : RunId}

theorem Apart.worker (ht : t.Apart r) (hw : t.worker? = some r) :
    ∃ e, t.control = .work (.entry e) ∧ e.run? t.session = some r := by
  obtain ⟨s, stack, c⟩ := t
  cases c with
  | work task =>
    obtain ⟨e, he⟩ := ht.control hw
    obtain rfl : task = .entry e := Control.work.inj he
    exact ⟨e, rfl, hw⟩
  | ask a =>
    obtain ⟨e, he⟩ := ht.control hw
    cases he
  | done | failed =>
    cases stack with
    | nil => cases hw
    | cons f stack => exact absurd hw (ht.stack f List.mem_cons_self)

theorem Yields.apart (h : t.Yields d u) (ht : t.Apart r) :
    u.Apart r ∧ u.session.jobs r = t.session.jobs r := by
  have running : u.session.IsRunning r := by
    rw [isRunning_iff, h.outline]
    exact ht.running
  have jobs : u.session.jobs r = t.session.jobs r := by
    simp only [Session.jobs, show u.session.pending = t.session.pending from
      congrArg Outline.pending h.outline]
  refine ⟨?_, jobs⟩
  obtain ⟨s, stack, c⟩ := t
  obtain ⟨s', stack', c'⟩ := u
  obtain ⟨-, hstack, hc⟩ := ht
  have hask {a : Ask} (ha : c = .ask a) : a.run? ≠ some r := fun hr => by
    subst ha
    obtain ⟨e, he⟩ := hc hr
    cases he
  have hshifts : Shifts stack c stack' c' := h.shifts
  cases hshifts with
  | change ho =>
    refine ⟨running, hstack, fun hr => ?_⟩
    cases c with
    | work => cases ho
    | ask => exact hc hr
    | done | failed => cases hr
  | beginAtRest ho e => exact ⟨running, hstack, fun _ => ⟨e, rfl⟩⟩
  | beginInside e =>
    exact ⟨running, List.forall_mem_cons.2 ⟨hask rfl, hstack⟩, fun _ => ⟨e, rfl⟩⟩
  | leave ho =>
    obtain ⟨ha, hrest⟩ := List.forall_mem_cons.1 hstack
    exact ⟨running, hrest, fun hr => absurd hr ha⟩
  | fail f => exact ⟨running, hstack, fun hr => by cases hr⟩

/-- A move of another run leaves the run as it is, and its jobs too, unless a fault drops all of
them; or the run is up next. -/
theorem Makes.apart {popped rest : List Frame} {α : Alteration} {m : Move}
    (h : t.Makes popped q α m) (hs : t.stack = popped ++ rest)
    (hp : popped = [] ∧ t.control.isOver = false ∨
      ∃ f, popped = [f] ∧ t.control.isOver ∧ ∀ a, f ≠ .asked a)
    (ht : t.Apart r) (hw : t.worker? ≠ some r) :
    ((m.on rest).Apart r ∧ ((m.on rest).session.jobs r = t.session.jobs r ∨
      Event.Strands ⟨t, d, m.on rest⟩ r ∧ (m.on rest).session.jobs r = [])) ∨
    ∃ job jobs, t.session.pending = (r, job) :: jobs ∧ (m.on rest).session.IsRunning r ∧
      (m.on rest).control = .work (.drive r job) := by
  have idle : ∀ graph completion, α ≠ .opened graph completion := by
    rintro graph completion rfl
    have hidle := (h.opened _ _ rfl).2.1 r ht.running.1
    rw [Session.isActive_of_running ht.running.2] at hidle
    cases hidle
  -- A move on behalf of another run does not concern this one.
  have other {L : Prop} {q : RunId} (hq : q ≠ r) (hm : m.Serves L q α t.session)
      (taken : α = .taken → ∃ job rest, t.session.pending = (q, job) :: rest) :
      (m.on rest).Apart r ∧ ((m.on rest).session.jobs r = t.session.jobs r ∨
        Event.Strands ⟨t, d, m.on rest⟩ r ∧ (m.on rest).session.jobs r = []) := by
    have outline : m.session.outline = α.apply q t.session.outline := hm.outline
    have running : m.session.IsRunning r := by
      refine ⟨?_, ?_⟩
      · have hcurrent := congrArg Outline.current outline
        rw [Alteration.current_apply idle] at hcurrent
        exact hcurrent.trans ht.running.1
      · rw [hm.others r (Ne.symm hq)]
        exact ht.running.2
    refine ⟨⟨running, fun f hf hr => ?_, fun hr => absurd (hm.control r hr) (Ne.symm hq)⟩, ?_⟩
    · rcases List.mem_append.1 hf with hf | hf
      · exact absurd (hm.frames f hf r hr) (Ne.symm hq)
      · exact ht.stack f (hs ▸ List.mem_append_right _ hf) hr
    · have hpending : m.session.pending = (α.apply q t.session.outline).pending :=
        congrArg Outline.pending outline
      by_cases hd : α = .dropped
      · subst hd
        refine .inr ⟨?_, ?_⟩
        · obtain ⟨f, hf⟩ := h.queue
          have hpop : Frame.draining ∈ popped := h.draining.2 rfl
          rcases hp with ⟨rfl, -⟩ | ⟨frame, rfl, -, -⟩
          · cases hpop
          · obtain rfl := List.mem_singleton.1 hpop
            exact ⟨⟨rest, hs⟩, ⟨f, hf⟩, ht.running⟩
        · show m.session.pending.filter _ = []
          rw [hpending]
          rfl
      · left
        show m.session.pending.filter _ = _
        rw [hpending]
        exact Alteration.jobs_apply hq taken hd
  by_cases hα : α = .taken
  · subst hα
    obtain ⟨job, jobs, hjobs, rfl⟩ := h.queue
    by_cases hq : q = r
    · subst hq
      exact .inr ⟨job, jobs, hjobs, ht.running, rfl⟩
    · exact .inl (other hq h.serves fun _ => ⟨job, jobs, hjobs⟩)
  · left
    have taken {q : RunId} (h : α = .taken) : ∃ job rest, t.session.pending = (q, job) :: rest :=
      absurd h hα
    rcases h.worker with hworker | ho | hall
    · exact other (fun hq => hw (hq ▸ hworker)) h.serves taken
    · cases α with
      | opened graph completion => exact absurd rfl (idle graph completion)
      | taken => exact absurd rfl hα
      | _ => cases ho
    · exact other (Nat.ne_of_gt (Nat.lt_succ_self r)) (hall (r + 1)) taken

/-- **A run that nothing under way concerns stays as it is** until its job comes up or it is
stopped. -/
theorem Does.apart (h : t.Does d u) (ends : t.EndsWell) (ht : t.Apart r)
    (hn : t.control ≠ .work (.entry .stop)) :
    (u.Apart r ∧ (u.session.jobs r = t.session.jobs r ∨
      Event.Strands ⟨t, d, u⟩ r ∧ u.session.jobs r = [])) ∨
    ∃ job jobs, t.session.pending = (r, job) :: jobs ∧ u.session.IsRunning r ∧
      u.control = .work (.drive r job) := by
  by_cases hw : t.worker? = some r
  · obtain ⟨e, hc, he⟩ := ht.worker hw
    obtain ⟨s, stack, c⟩ := t
    obtain rfl : c = .work (.entry e) := hc
    cases h with
    | work =>
      obtain ⟨f, hf⟩ := Session.enter_of_running ht.running he fun hstop => hn (by rw [hstop])
      left
      show ((s.enter e).on stack).Apart r ∧ _
      simp only [Task.begin, hf]
      exact ⟨⟨ht.running, ht.stack, fun hr => by cases hr⟩, .inl rfl⟩
    | beginAtRest ho => cases ho
    | leave ho => cases ho
    | change ho => cases ho
  · rcases h.serves ends with hy | ⟨popped, rest, q, α, m, hs, hp, rfl, hm, -⟩
    · exact .inl ((hy.apart ht).imp_right .inl)
    · exact hm.apart hs hp ht hw

end Turn

/-! ## The fate of a run -/

/-- In the event the run `r` is begun in a graph, and its first job is queued. -/
structure Event.Opens (e : Event) (r : RunId) (graph : Graph) : Prop where
  new : e.before.session.runs.length = r ∧ e.after.session.runs.length = r + 1
  queued : e.after.session.pending = e.before.session.pending ++ [(r, .enter graph)]

/-- The run `r` was begun in a graph. -/
def Opened (events : List Event) (r : RunId) (graph : Graph) : Prop :=
  ∃ e ∈ events, e.Opens r graph

/-- The run `r` visits the first node of the graph. -/
def Entered (events : List Event) (r : RunId) (graph : Graph) : Prop :=
  ∃ e ∈ events, e.before.control = .work (.visit r graph.entry graph)

/-- A stop is begun while the run `r` is the current one. -/
def StopBegun (events : List Event) (r : RunId) : Prop :=
  ∃ e ∈ events, e.before.control = .work (.entry .stop) ∧ e.before.session.current = some r

instance (e : Event) (r : RunId) (graph : Graph) : Decidable (e.Opens r graph) :=
  decidable_of_iff ((e.before.session.runs.length = r ∧ e.after.session.runs.length = r + 1) ∧
      e.after.session.pending = e.before.session.pending ++ [(r, .enter graph)])
    ⟨fun h => ⟨h.1, h.2⟩, fun h => ⟨h.new, h.queued⟩⟩

instance (events : List Event) (r : RunId) (graph : Graph) : Decidable (Opened events r graph) :=
  inferInstanceAs (Decidable (∃ e ∈ events, e.Opens r graph))

instance (events : List Event) (r : RunId) (graph : Graph) : Decidable (Entered events r graph) :=
  inferInstanceAs (Decidable (∃ e ∈ events, e.before.control = .work (.visit r graph.entry graph)))

instance (events : List Event) (r : RunId) : Decidable (StopBegun events r) :=
  inferInstanceAs (Decidable (∃ e ∈ events, e.before.control = .work (.entry .stop) ∧
    e.before.session.current = some r))

/-- A fault reached the queue while the run `r` was running, and it is running since. -/
def Stranded (events : List Event) (r : RunId) : Prop :=
  ∃ earlier e later, events = earlier ++ e :: later ∧ e.Strands r ∧
    ∀ e' ∈ e :: later, e'.after.session.IsRunning r

section Fates

variable {events : List Event} {e : Event} {r : RunId} {graph : Graph}

theorem Opened.concat (h : Opened events r graph) (e : Event) : Opened (events ++ [e]) r graph := by
  obtain ⟨g, hg, opens⟩ := h
  exact ⟨g, List.mem_append_left _ hg, opens⟩

theorem Entered.concat (h : Entered events r graph) (e : Event) :
    Entered (events ++ [e]) r graph := by
  obtain ⟨g, hg, enters⟩ := h
  exact ⟨g, List.mem_append_left _ hg, enters⟩

theorem StopBegun.concat (h : StopBegun events r) (e : Event) : StopBegun (events ++ [e]) r := by
  obtain ⟨g, hg, stops⟩ := h
  exact ⟨g, List.mem_append_left _ hg, stops⟩

theorem Stranded.concat (h : Stranded events r) (running : e.after.session.IsRunning r) :
    Stranded (events ++ [e]) r := by
  obtain ⟨earlier, e', later, rfl, strands, since⟩ := h
  refine ⟨earlier, e', later ++ [e], by simp, strands, fun g hg => ?_⟩
  rw [← List.cons_append] at hg
  rcases List.mem_append.1 hg with hg | hg
  · exact since g hg
  · obtain rfl := List.mem_singleton.1 hg
    exact running

theorem stranded_of_strands (strands : e.Strands r) (running : e.after.session.IsRunning r) :
    Stranded (events ++ [e]) r :=
  ⟨events, e, [], rfl, strands, fun g hg => by
    obtain rfl := List.mem_singleton.1 hg
    exact running⟩

theorem Stranded.running {may : Turn → Deed → Prop} {start t : Turn}
    (h : History may start events t) (hs : Stranded events r) : t.session.IsRunning r := by
  cases h with
  | nil =>
    obtain ⟨earlier, e, later, he, -⟩ := hs
    simp at he
  | @snoc events t u d h allowed does =>
    obtain ⟨earlier, e, later, he, -, since⟩ := hs
    rcases List.eq_nil_or_concat later with rfl | ⟨later', e', rfl⟩
    · obtain ⟨-, hlast⟩ := List.append_inj' he rfl
      obtain rfl := List.singleton_inj.1 hlast
      exact since _ List.mem_cons_self
    · rw [List.concat_eq_append, ← List.cons_append, ← List.append_assoc] at he
      obtain ⟨-, hlast⟩ := List.append_inj' he rfl
      obtain rfl := List.singleton_inj.1 hlast
      exact since ⟨t, d, _⟩ (by simp)

end Fates

/-- What becomes of a run that was begun in a graph: its first job is queued, is up next, or was
begun; or the run is stopped or stranded before. -/
inductive Fate (events : List Event) (t : Turn) (r : RunId) (graph : Graph) : Prop
  | queued (apart : t.Apart r) (jobs : t.session.jobs r = [(r, .enter graph)])
  | next (running : t.session.IsRunning r) (control : t.control = .work (.drive r (.enter graph)))
  | entering (control : t.control = .work (.visit r graph.entry graph))
  | entered (h : Entered events r graph)
  | stopped (h : StopBegun events r)
  | stranded (h : Stranded events r) (apart : t.Apart r) (jobs : t.session.jobs r = [])

/-- The fate of a run is decided once. -/
theorem Turn.Does.fate {events : List Event} {t u : Turn} {d : Deed} {r : RunId} {graph : Graph}
    (h : t.Does d u) (ends : t.EndsWell) (ht : Fate events t r graph) :
    Fate (events ++ [⟨t, d, u⟩]) u r graph := by
  by_cases hstop : t.control = .work (.entry .stop) ∧ t.session.current = some r
  · exact .stopped ⟨⟨t, d, u⟩, by simp, hstop⟩
  have goes (apart : t.Apart r) := h.apart ends apart fun hc => hstop ⟨hc, apart.running.1⟩
  cases ht with
  | queued apart jobs =>
    rcases goes apart with ⟨apart', hjobs | ⟨strands, hjobs⟩⟩ | ⟨job, rest, hp, running, hc⟩
    · exact .queued apart' (hjobs.trans jobs)
    · exact .stranded (stranded_of_strands strands apart'.running) apart' hjobs
    · have hjob : (r, job) ∈ t.session.jobs r := List.mem_filter.2 ⟨hp ▸ List.mem_cons_self, by simp⟩
      rw [jobs] at hjob
      obtain ⟨-, rfl⟩ := Prod.mk.inj (List.mem_singleton.1 hjob)
      exact .next running hc
  | next running hc =>
    obtain ⟨s, stack, c⟩ := t
    obtain rfl : c = .work (.drive r (.enter graph)) := hc
    cases h with
    | work =>
      refine .entering ?_
      show (s.drive r (.enter graph)).control = _
      simp only [Session.drive, running.owns, if_true]
      rfl
    | beginAtRest ho => cases ho
    | leave ho => cases ho
    | change ho => cases ho
  | entering hc => exact .entered ⟨⟨t, d, u⟩, by simp, hc⟩
  | entered h => exact .entered (h.concat _)
  | stopped h => exact .stopped (h.concat _)
  | stranded hs apart jobs =>
    rcases goes apart with ⟨apart', hjobs | ⟨strands, hjobs⟩⟩ | ⟨job, rest, hp, -, -⟩
    · exact .stranded (hs.concat apart'.running) apart' (hjobs.trans jobs)
    · exact .stranded (stranded_of_strands strands apart'.running) apart' hjobs
    · have hjob : (r, job) ∈ t.session.jobs r := List.mem_filter.2 ⟨hp ▸ List.mem_cons_self, by simp⟩
      rw [jobs] at hjob
      cases hjob

/-- A run that is begun is queued, and nothing concerns it yet. -/
theorem Turn.Makes.fate {events : List Event} {t : Turn} {popped rest : List Frame} {d : Deed}
    {q : RunId} {graph : Graph} {completion : Option Callback} {m : Move}
    (h : t.Makes popped q (.opened graph completion) m) (hs : t.stack = popped ++ rest)
    (orderly : t.Orderly) :
    q = t.session.runs.length ∧ Event.Opens ⟨t, d, m.on rest⟩ q graph ∧
      Fate events (m.on rest) q graph := by
  obtain ⟨rfl, -, queued, -⟩ := h.opened _ _ rfl
  have outline := h.serves.outline
  have hpending : m.session.pending = t.session.pending ++ [(t.session.runs.length, .enter graph)] :=
    congrArg Outline.pending outline
  refine ⟨rfl, ⟨⟨rfl, congrArg Outline.length outline⟩, hpending⟩, .queued ⟨⟨?_, ?_⟩, ?_, ?_⟩ ?_⟩
  · exact congrArg Outline.current outline
  · refine (congrArg (fun o : Outline => (o.run t.session.runs.length).phase) outline).trans ?_
    simp [Alteration.apply, Outline.queue, Session.outline]
  · intro f hf hr
    rcases List.mem_append.1 hf with hf | hf
    · rw [queued.frames f hf] at hr
      cases hr
    · exact Nat.lt_irrefl _ (orderly.stack f (hs ▸ List.mem_append_right _ hf) _ hr)
  · intro hr
    have hcontrol : m.control.run? m.session = some t.session.runs.length := hr
    rw [queued.control] at hcontrol
    cases hcontrol
  · have none : t.session.pending.filter (·.1 == t.session.runs.length) = [] :=
      List.filter_eq_nil_iff.2 fun x hx hq =>
        Nat.ne_of_lt (orderly.pending x hx) (beq_iff_eq.1 hq)
    show m.session.pending.filter _ = _
    rw [hpending, List.filter_append, none]
    simp

theorem Turn.orderly_fresh (files : FileTree) (library : Path) (flags : FlagStore) :
    (Session.fresh files library flags).atRest.Orderly where
  ends := Turn.endsWell_atRest _
  stack _ h := by cases h
  control _ h := by cases h
  current _ h := by cases h
  pending _ h := by cases h
  queued h := absurd rfl h
  draining h := by cases h

section Histories

variable {files : FileTree} {library : Path} {flags : FlagStore} {events : List Event} {t : Turn}

theorem History.orderly_turn (h : History anyDeed (Session.fresh files library flags).atRest events t) :
    t.Orderly :=
  h.induct (Turn.orderly_fresh files library flags) fun ht _ does => does.orderly ht

/-- Whatever is running is attended to, or was stranded. -/
theorem History.attends (h : History anyDeed (Session.fresh files library flags).atRest events t)
    {r : RunId} (running : t.session.IsRunning r) : t.Attends r ∨ Stranded events r := by
  induction h with
  | nil => cases running.1
  | @snoc events t u d h _ does ih =>
    by_cases hs : t.session.IsRunning r ∧ Stranded events r
    · exact .inr (hs.2.concat running)
    · refine (does.attends h.orderly_turn (fun ht => ?_) running).imp_right fun hs =>
        stranded_of_strands hs running
      exact (ih ht).resolve_right fun hst => hs ⟨ht, hst⟩

/-- Every run was begun in some graph, and has a fate. -/
theorem History.fate (h : History anyDeed (Session.fresh files library flags).atRest events t)
    {r : RunId} (hr : r < t.session.runs.length) :
    ∃ graph, Opened events r graph ∧ Fate events t r graph := by
  induction h with
  | nil => exact absurd hr (Nat.not_lt_zero r)
  | @snoc events t u d h _ does ih =>
    have orderly := h.orderly_turn
    have kept (hr : r < t.session.runs.length) :
        ∃ graph, Opened (events ++ [⟨t, d, u⟩]) r graph ∧ Fate (events ++ [⟨t, d, u⟩]) u r graph := by
      obtain ⟨graph, opened, fate⟩ := ih hr
      exact ⟨graph, opened.concat _, does.fate orderly.ends fate⟩
    rcases does.serves orderly.ends with hy | ⟨popped, rest, q, α, m, hs, -, rfl, hm, -⟩
    · exact kept (by rwa [← hy.runs])
    · by_cases ho : ∃ graph completion, α = .opened graph completion
      · obtain ⟨graph, completion, rfl⟩ := ho
        have hlength : m.session.runs.length = t.session.runs.length + 1 :=
          congrArg Outline.length hm.serves.outline
        rcases Nat.lt_or_eq_of_le (Nat.lt_succ_iff.1 (hlength ▸ hr)) with hr | rfl
        · exact kept hr
        · obtain ⟨rfl, opens, fate⟩ : _ ∧ Event.Opens ⟨t, d, m.on rest⟩ q graph ∧
              Fate (events ++ [⟨t, d, m.on rest⟩]) (m.on rest) q graph := hm.fate hs orderly
          exact ⟨graph, ⟨_, by simp, opens⟩, fate⟩
      · refine kept ?_
        have hlength : m.session.runs.length = t.session.runs.length :=
          (congrArg Outline.length hm.serves.outline).trans
            (Alteration.length_apply_of_not_opened fun g c hα => ho ⟨g, c, hα⟩)
        exact hlength ▸ hr

end Histories

/-- At rest, what is running is not attended to. -/
theorem Turn.Orderly.not_attends {t : Turn} {r : RunId} (h : t.Orderly) (hs : t.stack = []) :
    t.session.pending = [] ∧ ¬t.Attends r := by
  have empty : t.session.pending = [] := by
    refine Classical.byContradiction fun hp => ?_
    have hd := h.draining (h.queued hp)
    rw [hs] at hd
    cases hd
  refine ⟨empty, ?_⟩
  rintro (⟨job, hq⟩ | hc | hm)
  · rw [empty] at hq
    cases hq
  · rw [hs] at hc
    exact Control.not_minds_nil hc
  · rw [hs] at hm
    cases hm

/-- A run that nothing concerns and that is not queued stays as it is until it is stopped. -/
theorem Turn.Apart.stays {t u : Turn} {r : RunId} {later : List Event} (ht : t.Apart r)
    (jobs : t.session.jobs r = []) (ends : t.EndsWell) (h : History anyDeed t later u)
    (hn : ∀ e ∈ later, e.before.control ≠ .work (.entry .stop)) :
    u.Apart r ∧ u.session.jobs r = [] ∧ u.EndsWell ∧
      ∀ e ∈ later, ∀ node graph, e.before.control ≠ .work (.visit r node graph) := by
  induction h with
  | nil => exact ⟨ht, jobs, ends, by simp⟩
  | @snoc later v u d _ _ does ih =>
    obtain ⟨hv, jobs, ends, visits⟩ := ih fun e he => hn e (List.mem_append_left _ he)
    have none : u.Apart r ∧ u.session.jobs r = [] := by
      rcases does.apart ends hv (hn ⟨v, d, u⟩ (by simp)) with
        ⟨hu, hjobs | ⟨-, hjobs⟩⟩ | ⟨job, rest, hp, -, -⟩
      · exact ⟨hu, hjobs.trans jobs⟩
      · exact ⟨hu, hjobs⟩
      · simp [Session.jobs, hp] at jobs
    refine ⟨none.1, none.2, does.endsWell ends, fun e he node graph hc => ?_⟩
    rcases List.mem_append.1 he with he | he
    · exact visits e he node graph hc
    · obtain rfl := List.mem_singleton.1 he
      have hc : v.control = .work (.visit r node graph) := hc
      obtain ⟨e, he⟩ := hv.control (by rw [hc]; rfl)
      rw [he] at hc
      cases hc

theorem Session.phase_eq_running_iff {s : Session} : s.phase = .running ↔ ∃ r, s.IsRunning r := by
  unfold phase currentRun? IsRunning
  cases hc : s.current with
  | none => simp
  | some r => simp

/-- **A run hangs just if it is stranded.**  Whatever the host does, once nothing is under way:
the current run is running exactly if a fault reached the queue while it was running, and it is
so since; every run that was begun has visited its first node, unless it was stopped or is
stranded; and a run that hangs stays as it is and visits no further node, until it is stopped. -/
theorem running_at_rest_iff {files : FileTree} {library : Path} {flags : FlagStore}
    {events : List Event} {t : Turn}
    (h : History anyDeed (Session.fresh files library flags).atRest events t) (back : t.IsBack []) :
    (t.session.phase = .running ↔ ∃ r, Stranded events r) ∧
    (∀ r < t.session.runs.length, ∃ graph, Opened events r graph ∧
      (Entered events r graph ∨ StopBegun events r ∨ Stranded events r)) ∧
    ∀ r, t.session.IsRunning r → ∀ later u, History anyDeed t later u →
      (∀ e ∈ later, e.before.control ≠ .work (.entry .stop)) → u.session.IsRunning r ∧
        ∀ e ∈ later, ∀ node graph, e.before.control ≠ .work (.visit r node graph) := by
  have orderly := h.orderly_turn
  refine ⟨?_, ?_, ?_⟩
  · rw [Session.phase_eq_running_iff]
    refine exists_congr fun r => ⟨fun running => ?_, fun stranded => stranded.running h⟩
    exact (h.attends running).resolve_left (orderly.not_attends back.1).2
  · intro r hr
    obtain ⟨graph, opened, fate⟩ := h.fate hr
    refine ⟨graph, opened, ?_⟩
    cases fate with
    | queued apart jobs =>
      simp only [Session.jobs, (orderly.not_attends (r := r) back.1).1] at jobs
      cases jobs
    | next _ hc | entering hc =>
      have past := back.2
      rw [hc] at past
      cases past
    | entered he => exact .inl he
    | stopped hs => exact .inr (.inl hs)
    | stranded hs => exact .inr (.inr hs)
  · intro r running later u hl
    -- Nothing concerns the run from then on, and no job is queued for it.
    have apart : t.Apart r ∧ t.session.jobs r = [] := by
      refine ⟨⟨running, by simp [back.1], fun hr => ?_⟩, ?_⟩
      · have past := back.2
        cases hc : t.control with
        | work | ask => rw [hc] at past; cases past
        | done | failed => rw [hc] at hr; cases hr
      · simp [Session.jobs, (orderly.not_attends (r := r) back.1).1]
    intro hn
    obtain ⟨hu, -, -, visits⟩ := apart.1.stays apart.2 orderly.ends hl hn
    exact ⟨hu.running, visits⟩

/-! ### Beginning again when a run has failed -/

/-- An image is shown, and its timer started. -/
def imageShown : List Deed :=
  [.begin (.startGraph imageOnly none), .move, .move, .move, .move, .move,
    .reply (.engage (.image ⟨"map", "map.png", .int 3⟩)) (), .move,
    .reply (.startTimer (.int 3) ⟨0, 0⟩) false, .move, .move]

/-- The run that shows the image has visited its node, and does not hang. -/
theorem shown_not_stranded :
    let start := (Session.fresh (.empty []) (.ofString "scripts") {}).atRest
    let events := start.record imageShown
    ∃ t, History anyDeed start events t ∧ t.IsBack [] ∧ t.session.phase = .suspended ∧
      Entered events 0 imageOnly ∧ ¬∃ r, Stranded events r := by
  intro start events
  have played : start.play? imageShown = some (start.play imageShown) := Turn.play?_eq (by decide)
  have history : History anyDeed start events (start.play imageShown) :=
    Turn.history_of_play? played fun _ _ => trivial
  have back : (start.play imageShown).IsBack [] := ⟨by decide, by decide⟩
  have phase : (start.play imageShown).session.phase = .suspended := by decide
  refine ⟨_, history, back, phase, by decide +kernel, fun stranded => ?_⟩
  have running := (running_at_rest_iff history back).1.2 stranded
  rw [phase] at running
  cases running

/-- The host fails to show the image.  When the answers of the run are announced, it begins the
quest again. -/
def beginsAgain : List Deed :=
  [.begin (.startGraph imageOnly (some 0)), .move, .move, .move, .move, .move, .fail .unsupported,
    .move, .move, .move, .move, .begin (.startGraph imageOnly none), .move, .leave,
    .reply (.announce 0 []) .plain, .move, .move]

/-- **The new run hangs**: it was begun without a fault and never stopped, and when nothing is
under way it is running and has not visited its node. -/
theorem begun_again_hangs :
    let start := (Session.fresh (.empty []) (.ofString "scripts") {}).atRest
    let events := start.record beginsAgain
    ∃ t, History anyDeed start events t ∧ t.IsBack [] ∧ t.session.phase = .running ∧
      Opened events 1 imageOnly ∧
      (∃ e ∈ events, e.before.stack.head? = some (.asked (.announce 0 [])) ∧
        e.before.control = .done .done) ∧
      ¬Entered events 1 imageOnly ∧ ¬StopBegun events 1 := by
  intro start events
  have played : start.play? beginsAgain = some (start.play beginsAgain) :=
    Turn.play?_eq (by decide +kernel)
  have history : History anyDeed start events (start.play beginsAgain) :=
    Turn.history_of_play? played fun _ _ => trivial
  exact ⟨_, history, ⟨by decide +kernel, by decide +kernel⟩, by decide +kernel, by decide +kernel,
    by decide +kernel, by decide +kernel, by decide +kernel⟩

end Questline

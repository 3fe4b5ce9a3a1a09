import Questline.Proofs.Concern

/-!
# Stopping

A run that is stopped is over for good, unless a call was under way whose answer takes the
run up again without asking whether it still goes on: a figure is spawned, a template is
filled in, the answers are handed over at a link, or a timer is cancelled so that the run
can be resumed or left in the world.  A host that stops the run from inside such a call
can bring it back to life by answering the call.

* `Session.Spares`, `Move.Spares`: what leaves a run that is over as it is.
* `Turn.Does.spares`: every deed does, as long as nothing on the stack revives the run.
* `stop_returns`: a stop that returns leaves the run stopped.
-/

namespace Questline

/-! ## Leaving a run as it is -/

/-- What becomes of the run `r`, which is over, between two sessions: it stays over, no
figure joins it, no node of it is visited and no job is queued for it. -/
structure Session.Spares (r : RunId) (s s' : Session) : Prop where
  phase : (s'.run r).phase = .stopped
  npcs : (s.run r).npcs = [] → (s'.run r).npcs = []
  script : (s'.run r).script = (s.run r).script
  counters : (s'.run r).counters = (s.run r).counters
  jobs : ∀ job, (r, job) ∈ s'.pending → (r, job) ∈ s.pending

namespace Session.Spares

variable {r q : RunId} {s s' s'' : Session}

theorem refl (h : (s.run r).phase = .stopped) : s.Spares r s :=
  ⟨h, fun h => h, rfl, rfl, fun _ h => h⟩

theorem trans (h : s.Spares r s') (g : s'.Spares r s'') : s.Spares r s'' where
  phase := g.phase
  npcs hn := g.npcs (h.npcs hn)
  script := g.script.trans h.script
  counters := g.counters.trans h.counters
  jobs job hj := h.jobs job (g.jobs job hj)

theorem of_others (h : (s.run r).phase = .stopped) (others : s'.run r = s.run r)
    (jobs : ∀ job, (r, job) ∈ s'.pending → (r, job) ∈ s.pending) : s.Spares r s' :=
  ⟨by rw [others, h], by rw [others]; exact fun h => h, by rw [others], by rw [others], jobs⟩

theorem of_run (h : (s.run r).phase = .stopped) (runs : s'.runs = s.runs)
    (jobs : ∀ job, (r, job) ∈ s'.pending → (r, job) ∈ s.pending) : s.Spares r s' := by
  exact .of_others h (by simp only [run, runs]) jobs

theorem setRun {f : Run → Run} (phase : (f (s.run r)).phase = .stopped)
    (h : (s.run r).phase = .stopped) (npcs : (s.run r).npcs = [] → (f (s.run r)).npcs = [])
    (script : (f (s.run r)).script = (s.run r).script)
    (counters : (f (s.run r)).counters = (s.run r).counters) : s.Spares r (s.setRun r f) := by
  by_cases hr : r < s.runs.length
  · have hf : (s.setRun r f).run r = f (s.run r) := run_setRun_self hr
    exact ⟨by rw [hf, phase], by rw [hf]; exact npcs, by rw [hf, script], by rw [hf, counters],
      fun _ h => h⟩
  · have hf : (s.setRun r f).run r = s.run r := by rw [run_setRun, if_neg fun h => hr h.2]
    exact ⟨by rw [hf, h], by rw [hf]; exact fun h => h, by rw [hf], by rw [hf], fun _ h => h⟩

end Session.Spares

/-- A move after which the run `r` is still over and is revived by nothing new. -/
structure Move.Spares (r : RunId) (s : Session) (m : Move) : Prop where
  session : s.Spares r m.session
  frames : ∀ f ∈ m.frames, f.revives r = false
  control : m.control.revives r = false

namespace Move.Spares

variable {r q : RunId} {s s' : Session} {m : Move}

theorem finished (h : s.Spares r s') : (Move.finished s').Spares r s :=
  ⟨h, by simp [Move.finished], rfl⟩

theorem stepped (h : s.Spares r s') (node : Node) (action : Action) :
    (Move.stepped s' node action).Spares r s :=
  ⟨h, by simp [Move.stepped], rfl⟩

theorem failure (h : s.Spares r s') (f : Fault) : (Move.failure s' f).Spares r s :=
  ⟨h, by simp [Move.failure], rfl⟩

theorem work (h : s.Spares r s') {task : Task} (ht : task.revives r = false) :
    (Move.work s' task).Spares r s :=
  ⟨h, by simp [Move.work], ht⟩

theorem ask (h : s.Spares r s') {a : Ask} (ha : a.revives r = false) :
    (Move.ask s' a).Spares r s :=
  ⟨h, by simp [Move.ask], ha⟩

theorem under (h : m.Spares r s) {f : Frame} (hf : f.revives r = false) :
    (m.under f).Spares r s where
  session := h.session
  frames g hg := by
    rcases List.mem_append.1 hg with hg | hg
    · exact h.frames g hg
    · obtain rfl := List.mem_singleton.1 hg
      exact hf
  control := h.control

theorem after (h : m.Spares r s') (hs : s.Spares r s') : m.Spares r s :=
  ⟨hs.trans h.session, h.frames, h.control⟩

/-- A move on behalf of another run. -/
theorem of_worksFor {P : Prop} (hr : (s.run r).phase = .stopped) (h : m.WorksFor P q s)
    (hq : r ≠ q) : m.Spares r s where
  session := .of_others hr (h.session.others r hq) fun _ => h.queue.mem hq
  frames f hf := by
    cases hv : f.revives r with
    | true => exact absurd (h.frames f hf r hv) hq
    | false => rfl
  control := by
    cases hv : m.control.revives r with
    | true => exact absurd (h.control r hv) hq
    | false => rfl

/-- A move on behalf of any run, if it spares the run that it is on behalf of. -/
theorem of_self {P : Prop} (hr : (s.run r).phase = .stopped) (h : m.WorksFor P q s)
    (self : r = q → m.Spares r s) : m.Spares r s := by
  by_cases hq : r = q
  · exact self hq
  · exact of_worksFor hr h hq

end Move.Spares

/-! ## What is done for a run that is over -/

namespace Session

variable {s : Session} {r : RunId} (hr : (s.run r).phase = .stopped)

include hr

theorem not_isActive_of_stopped : (s.run r).isActive = false := by
  simp [Run.isActive, hr, Phase.isActive]

theorem not_owns_of_stopped : s.owns r = false := by
  simp [owns, not_isActive_of_stopped hr]

theorem not_isWaitingOn_of_stopped (w : WaitId) : (s.run r).isWaitingOn w = false := by
  simp [Run.isWaitingOn, hr]

theorem follow_spares (node : Node) (output : Int) (graph : Graph) :
    (s.follow r node output graph).Spares r s := by
  have h : s.Spares r (s.setRun r fun run => { run with activity := .advancing }) :=
    .setRun hr hr (fun h => h) rfl rfl
  rw [follow_eq]
  exact .stepped h _ _

theorem report_spares (warnings : List Warning) : (s.report r warnings).Spares r s := by
  cases warnings with
  | nil => exact .finished (.refl hr)
  | cons w ws => exact .ask (.setRun hr hr (fun h => h) rfl rfl) rfl

theorem drive_spares (job : Job) : (s.drive r job).Spares r s := by
  rw [drive, if_neg (by simp [not_owns_of_stopped hr])]
  exact .finished (.refl hr)

theorem proceed_spares (step : Step) : (s.proceed r step).Spares r s := by
  rw [proceed, if_neg (by simp [not_owns_of_stopped hr])]
  exact .finished (.refl hr)

theorem announce_spares (completion : Option Callback) (ledger : Ledger) :
    (s.announce completion ledger).Spares r s := by
  cases completion with
  | none => exact .finished (.refl hr)
  | some callback => exact .ask (.refl hr) rfl

theorem dismiss_spares (npcs : List String) : (s.dismiss r npcs).Spares r s := by
  cases npcs with
  | nil => exact .finished (.setRun hr hr (fun _ => rfl) rfl rfl)
  | cons npc rest => exact .ask (.refl hr) rfl

theorem ended_spares : s.Spares r (s.ended r .stopped) := by
  have h : s.Spares r (s.setRun r (Run.ended .stopped)) := .setRun rfl hr (fun h => h) rfl rfl
  exact h.trans (.of_run h.phase rfl fun _ h => h)

theorem close_spares : (s.close r .stopped).Spares r s := by
  have h := ended_spares hr
  rw [close_stopped]
  exact ((dismiss_spares h.phase _).under rfl).after h

theorem terminate_spares : (s.terminate r .stopped).Spares r s := by
  rcases s.terminate_cases r .stopped with ⟨w, -, -, h⟩ | ⟨-, h⟩
  · rw [h]
    exact (Move.Spares.ask (.setRun hr hr (fun h => h) rfl rfl) rfl).under (by simp [Frame.revives])
  · rw [h]
    exact close_spares hr

theorem stopIfActive_spares (q : RunId) : (s.stopIfActive q).Spares r s := by
  refine .of_self hr (stopIfActive_worksFor s q) ?_
  rintro rfl
  rw [stopIfActive, if_neg (by simp [not_isActive_of_stopped hr])]
  exact .finished (.refl hr)

theorem drain_spares : s.drain.Spares r s := by
  unfold drain
  split
  · exact .finished (.of_run hr rfl fun _ h => h)
  case h_2 q job rest h =>
    have hs : s.Spares r { s with pending := rest } := by
      refine .of_run hr rfl fun _ hj => ?_
      rw [h]
      exact List.mem_cons_of_mem _ hj
    exact (Move.Spares.work hs rfl).under rfl

/-! ### Entries -/

theorem stop_spares : s.stop.Spares r s := by
  rcases s.stop_cases with h | ⟨q, -, hq, h⟩
  · rw [h]
    exact .finished (.refl hr)
  · rw [h]
    exact .of_worksFor hr (terminate_worksFor s q _) fun h => hq (h ▸ hr)

theorem lt_length_of_stopped : r < s.runs.length := by
  refine Nat.lt_of_not_le fun h => ?_
  rw [run_of_length_le h] at hr
  cases hr

theorem startGraph_spares (graph : Graph) (completion : Option Callback) :
    (s.startGraph graph completion).Spares r s :=
  .of_worksFor hr (startGraph_worksFor s graph completion) (Nat.ne_of_lt (lt_length_of_stopped hr))

theorem start_spares (script : String) (completion : Option Callback) :
    (s.start script completion).Spares r s := by
  rcases s.start_cases script completion with ⟨f, h⟩ | ⟨-, ⟨graph, -, h⟩ | ⟨f, -, h⟩⟩
  · rw [h]
    exact .failure (.refl hr) f
  · rw [h]
    exact startGraph_spares hr graph completion
  · rw [h]
    have noted : s.Spares r { s with lastError := some (.data f) } := .of_run hr rfl fun _ h => h
    exact ((stop_spares noted.phase).under rfl).after noted

theorem advance_spares (answer : Json.Value) : (s.advance answer).Spares r s := by
  rcases s.advance_cases answer with ⟨f, h⟩ | ⟨q, wait, -, hp, hw, -, -, h⟩
  · rw [h]
    exact .failure (.refl hr) f
  · rw [h]
    have waits : s.Waits q := ⟨wait.id, by simp [Run.isWaitingOn, hp, hw]⟩
    refine .of_worksFor hr (resumeInput_worksFor s q wait answer waits) ?_
    rintro rfl
    cases hr.symm.trans hp

theorem battleOver_spares (battle : BattleHandle) (outcome : Json.Value) :
    (s.battleOver battle outcome).Spares r s := by
  refine .of_self hr (battleOver_worksFor s battle outcome) fun hq => ?_
  subst hq
  rw [battleOver, if_neg (by simp [isWaiting, not_isWaitingOn_of_stopped hr])]
  exact .finished (.refl hr)

theorem timeUp_spares (timer : TimerHandle) : (s.timeUp timer).Spares r s := by
  refine .of_self hr (timeUp_worksFor s timer) fun hq => ?_
  subst hq
  rw [timeUp, if_neg (by simp [isWaiting, not_isWaitingOn_of_stopped hr])]
  exact .finished (.refl hr)

theorem deliver_spares (d : Delivery) : (s.deliver d).Spares r s := by
  refine .of_self hr (deliver_worksFor s d) fun hq => ?_
  subst hq
  simp only [deliver]
  rw [if_neg (by simp [not_isWaitingOn_of_stopped hr])]
  exact .finished (.refl hr)

theorem post_spares (ds : List Delivery) : (s.post ds).Spares r s := by
  cases ds with
  | nil => exact .finished (.refl hr)
  | cons d ds => exact (Move.Spares.ask (.refl hr) rfl).under rfl

theorem settleWrite_spares (ticket : Ticket) (outcome : WriteOutcome) :
    (s.settleWrite ticket outcome).Spares r s := by
  have h : s.Spares r { s with writes := s.writes.filter fun w => w.1 != ticket } :=
    .of_run hr rfl fun _ h => h
  exact (post_spares h.phase _).after h

theorem enter_spares (entry : Entry) : (s.enter entry).Spares r s := by
  cases entry with
  | start script completion => exact start_spares hr script completion
  | startGraph graph completion => exact startGraph_spares hr graph completion
  | advance answer => exact advance_spares hr answer
  | stop => exact stop_spares hr
  | battleOver battle outcome => exact battleOver_spares hr battle outcome
  | timeUp timer => exact timeUp_spares hr timer
  | written delivery => exact deliver_spares hr delivery
  | settle ticket outcome => exact settleWrite_spares hr ticket outcome

end Session

/-! ## Every move that does not revive a run leaves it as it is -/

section Moves

variable {s : Session} {r : RunId} (hr : (s.run r).phase = .stopped)

include hr

theorem Task.begin_spares (task : Task) (ht : task.revives r = false) :
    (task.begin s).Spares r s := by
  have other {q : RunId} (h : (q == r) = false) : r ≠ q := (beq_eq_false_iff_ne.1 h).symm
  cases task with
  | entry e => exact Session.enter_spares hr e
  | drive q job =>
    exact .of_self hr (s.drive_worksFor q job) (by rintro rfl; exact Session.drive_spares hr job)
  | visit q node graph => exact .of_worksFor hr (s.visit_worksFor q node graph) (other ht)
  | respond q node graph answer =>
    exact .of_worksFor hr (s.respond_worksFor q node graph answer) (other ht)
  | resolve q node graph outcome =>
    exact .of_worksFor hr (s.resolve_worksFor q node graph outcome) (other ht)
  | follow q node output graph =>
    refine .of_self hr (s.follow_worksFor q node output graph) ?_
    rintro rfl
    exact Session.follow_spares hr node output graph
  | dispatch q trigger => exact .of_worksFor hr (s.dispatch_worksFor q trigger) (other ht)
  | report q warnings =>
    refine .of_self hr (s.report_worksFor q warnings) ?_
    rintro rfl
    exact Session.report_spares hr warnings
  | engage card => exact .ask (.refl hr) rfl
  | terminate q phase =>
    refine .of_self hr (s.terminate_worksFor q phase) ?_
    rintro rfl
    obtain rfl : phase = .stopped := by simpa [Task.revives] using ht
    exact Session.terminate_spares hr

theorem Ask.resume_spares (a : Ask) (answer : a.call.Reply) (ha : a.revives r = false) :
    (a.resume s answer).Spares r s := by
  have other {q : RunId} (h : (q == r) = false) : r ≠ q := (beq_eq_false_iff_ne.1 h).symm
  have changed {q : RunId} {f : Run → Run} (works : s.Works q (s.setRun q f))
      (phase : ∀ run, (f run).phase = run.phase)
      (npcs : ∀ run, run.npcs = [] → (f run).npcs = [])
      (rest : ∀ run, (f run).script = run.script ∧ (f run).counters = run.counters) :
      s.Spares r (s.setRun q f) := by
    by_cases hq : r = q
    · subst hq
      exact .setRun ((phase _).trans hr) hr (npcs _) (rest _).1 (rest _).2
    · exact .of_others hr (works.others r hq) fun _ h => works.pending ▸ h
  cases a with
  | startTimer seconds timer =>
    simp only [resume]
    split
    · exact .finished (changed (.setRun fun run w h => by simpa using h) (fun _ => rfl)
        (fun _ h => h) fun _ => ⟨rfl, rfl⟩)
    · exact .finished (.refl hr)
  | take q node item amount =>
    simp only [resume]
    split
    · exact .finished (.refl hr)
    · refine .of_self hr (s.report_worksFor q _) ?_
      rintro rfl
      exact Session.report_spares hr _
  | count q node condition graph =>
    refine .of_self hr (s.follow_worksFor q node _ graph) ?_
    rintro rfl
    exact Session.follow_spares hr node _ graph
  | spawn q request =>
    exact .of_worksFor (P := False) hr (.finished (.setRun (by exact fun _ _ h => h))) (other ha)
  | remove q npc =>
    refine .finished (changed (.setRun (by exact fun _ _ h => h)) (fun _ => rfl) ?_
      fun _ => ⟨rfl, rfl⟩)
    intro run h
    simp [Run.dropNpc, h]
  | fillIn q graph => exact .of_worksFor hr (s.install_worksFor q _) (other ha)
  | report q warning rest =>
    refine .of_self hr (s.report_worksFor q rest) ?_
    rintro rfl
    exact Session.report_spares hr rest
  | dismiss q npc rest =>
    refine .of_self hr (s.dismiss_worksFor q rest) ?_
    rintro rfl
    exact Session.dismiss_spares hr rest
  | handOver q node link callback ledger =>
    exact .of_worksFor hr (s.afterHandOver_worksFor q node link answer) (other ha)
  | engage | cancelTimer | deliver | give | battle | world | announce =>
    exact .finished (.refl hr)

theorem Frame.receive_spares (frame : Frame) (result : Result) (hf : frame.revives r = false)
    (h : ∀ a, frame ≠ .asked a) : (frame.receive s result).Spares r s := by
  have other {q : RunId} (h : (q == r) = false) : r ≠ q := (beq_eq_false_iff_ne.1 h).symm
  cases frame with
  | draining => exact Session.drain_spares hr
  | driving q =>
    cases result with
    | stepped step =>
      refine .of_self hr (s.proceed_worksFor q step) ?_
      rintro rfl
      exact Session.proceed_spares hr step
    | done => exact .finished (.refl hr)
  | failing f => exact .failure (.refl hr) f
  | triggering q node graph =>
    refine .of_self hr (s.follow_worksFor q node _ graph) ?_
    rintro rfl
    exact Session.follow_spares hr node _ graph
  | following q node output graph =>
    refine .of_self hr (s.follow_worksFor q node output graph) ?_
    rintro rfl
    exact Session.follow_spares hr node output graph
  | stepping step => exact .stepped (.refl hr) _ _
  | timing q wait seconds =>
    simp only [receive]
    split
    · exact .ask (.refl hr) rfl
    · exact .finished (.refl hr)
  | resuming q job => exact .of_worksFor hr (s.resume_worksFor q job trivial) (other hf)
  | ending q phase =>
    refine .of_self hr (s.close_worksFor q phase) ?_
    rintro rfl
    obtain rfl : phase = .stopped := by simpa [Frame.revives] using hf
    exact Session.close_spares hr
  | announcing completion ledger => exact Session.announce_spares hr completion ledger
  | linking q => exact .finished (.refl hr)
  | posting rest => exact Session.post_spares hr rest
  | asked a => exact absurd rfl (h a)

theorem Frame.recover_spares (frame : Frame) (f : Fault) :
    (frame.recover s f).Spares r s := by
  have noted : s.Spares r { s with lastError := some f } := .of_run hr rfl fun _ h => h
  cases frame with
  | draining =>
    have h : s.Spares r { s with pending := [], draining := false } :=
      .of_run hr rfl fun _ h => absurd h List.not_mem_nil
    exact .failure h f
  | driving q =>
    exact ((Session.stopIfActive_spares noted.phase q).under rfl).after noted
  | triggering q node graph =>
    simp only [recover]
    split
    · refine Move.Spares.under ?_ rfl
      refine .of_self hr (s.report_worksFor q _) ?_
      rintro rfl
      exact Session.report_spares hr _
    · exact .failure (.refl hr) _
  | linking q =>
    cases f with
    | link f => exact (Session.stopIfActive_spares noted.phase q).after noted
    | _ => exact .failure (.refl hr) _
  | posting rest => exact Session.post_spares hr rest
  | failing | following | stepping | timing | resuming | ending | announcing | asked =>
    exact .failure (.refl hr) f

end Moves

/-! ## What is under way leaves a run as it is -/

/-- The run `r` is over, and nothing that was begun on top of the stack `base` revives it. -/
structure Turn.Spared (r : RunId) (base : List Frame) (t : Turn) : Prop where
  phase : (t.session.run r).phase = .stopped
  stack : ∃ above, t.stack = above ++ base ∧ ∀ f ∈ above, f.revives r = false
  control : t.control.revives r = false

namespace Turn

variable {r : RunId} {base : List Frame} {t u : Turn} {d : Deed}

theorem Spared.on {s : Session} {m : Move} (h : m.Spares r s) {above : List Frame}
    (ha : ∀ f ∈ above, f.revives r = false) : (m.on (above ++ base)).Spared r base := by
  refine ⟨h.session.phase, ⟨m.frames ++ above, (List.append_assoc _ _ _).symm, ?_⟩, h.control⟩
  intro f hf
  rcases List.mem_append.1 hf with hf | hf
  · exact h.frames f hf
  · exact ha f hf

/-- **Every deed leaves a run that is over as it is**, as long as nothing revives it. -/
theorem Does.spares (h : t.Does d u) (ht : t.Spared r base) (hb : base = [] ∨ ¬t.IsBack base) :
    u.Spared r base ∧ t.session.Spares r u.session := by
  obtain ⟨hr, ⟨above, hs, ha⟩, hc⟩ := ht
  -- What is popped lies above the base.
  have pop {s : Session} {f : Frame} {stack : List Frame} {c : Control} (hc : c.isOver)
      (hs : f :: stack = above ++ base) (hb : base = [] ∨ ¬IsBack base ⟨s, f :: stack, c⟩) :
      f.revives r = false ∧ ∃ above', stack = above' ++ base ∧ ∀ f ∈ above', f.revives r = false := by
    cases above with
    | nil =>
      rcases hb with rfl | hb
      · cases hs
      · exact absurd ⟨hs, hc⟩ hb
    | cons g above =>
      obtain ⟨rfl, rfl⟩ := List.cons.inj hs
      exact ⟨ha _ List.mem_cons_self, above, rfl, fun f hf => ha f (List.mem_cons_of_mem _ hf)⟩
  cases h with
  | @work s stack task =>
    obtain rfl : stack = above ++ base := hs
    have h := task.begin_spares hr hc
    exact ⟨.on h ha, h.session⟩
  | @receive s frame stack result hn =>
    obtain ⟨hf, above', rfl, ha'⟩ := pop rfl hs hb
    have h := frame.receive_spares hr result hf hn
    exact ⟨.on h ha', h.session⟩
  | @recover s frame stack fault hn =>
    obtain ⟨-, above', rfl, ha'⟩ := pop rfl hs hb
    have h := frame.recover_spares hr fault
    exact ⟨.on h ha', h.session⟩
  | beginAtRest ho entry => exact ⟨⟨hr, ⟨above, hs, ha⟩, rfl⟩, .refl hr⟩
  | @beginInside s stack a entry =>
    obtain rfl : stack = above ++ base := hs
    refine ⟨⟨hr, ⟨.asked a :: above, rfl, ?_⟩, rfl⟩, .refl hr⟩
    intro f hf
    rcases List.mem_cons.1 hf with rfl | hf
    · exact hc
    · exact ha f hf
  | leave ho =>
    obtain ⟨hf, above', rfl, ha'⟩ := pop ho hs hb
    exact ⟨⟨hr, ⟨above', rfl, ha'⟩, hf⟩, .refl hr⟩
  | @reply s stack a answer =>
    obtain rfl : stack = above ++ base := hs
    have h := a.resume_spares hr answer hc
    exact ⟨.on h ha, h.session⟩
  | fail fault => exact ⟨⟨hr, ⟨above, hs, ha⟩, rfl⟩, .refl hr⟩
  | change ho files flags =>
    exact ⟨⟨hr, ⟨above, hs, ha⟩, hc⟩, .of_run hr rfl fun _ h => h⟩

theorem Leads.spares {may : Turn → Deed → Prop} (h : t.Leads may u) (ht : t.Spared r base)
    (hb : ∀ v d, may v d → base = [] ∨ ¬v.IsBack base) :
    u.Spared r base ∧ t.session.Spares r u.session := by
  obtain ⟨events, h⟩ := h
  refine h.induct (P := fun v => v.Spared r base ∧ t.session.Spares r v.session)
    ⟨ht, .refl ht.phase⟩ ?_
  intro v w d ih allowed does
  obtain ⟨hw, hs⟩ := does.spares ih.1 (hb v d allowed)
  exact ⟨hw, ih.2.trans hs⟩

end Turn

/-! ## Stopping comes to its end -/

namespace Turn

variable {r : RunId} {base : List Frame} {t u : Turn} {d : Deed}

/-- How far the work of stopping the run `r` has come, that was begun on top of the stack
`base`: the timer is cancelled, the figures leave, or the run is over and has no figures
left, unless the host failed in between. -/
inductive Stopping (r : RunId) (base : List Frame) : Turn → Prop
  | begun {s : Session} (current : s.current = some r) (hr : r < s.runs.length)
      (phase : (s.run r).phase ≠ .stopped) : Stopping r base ⟨s, base, .work (.entry .stop)⟩
  | cancelling {t : Turn} {timer : TimerHandle} (hr : r < t.session.runs.length)
      (during : t.During (.cancelTimer timer) (.ending r .stopped :: base)) : Stopping r base t
  | cancelled {s : Session} {result : Result} (hr : r < s.runs.length) :
      Stopping r base ⟨s, .ending r .stopped :: base, .done result⟩
  | dismissing {t : Turn} {npc : String} {rest : List String} {completion : Option Callback}
      {ledger : Ledger} (spared : t.Spared r base)
      (during : t.During (.dismiss r npc rest) (.announcing completion ledger :: base)) :
      Stopping r base t
  | ended {t : Turn} (spared : t.Spared r base) (npcs : (t.session.run r).npcs = []) :
      Stopping r base t
  | failed {s : Session} (above : List Frame) {f : Fault}
      (passes : ∀ g ∈ above, ∀ s, g.recover s f = .failure s f ∧ ∀ a, g ≠ .asked a) :
      Stopping r base ⟨s, above ++ base, .failed f⟩

theorem Stopping.close {s : Session} (hr : r < s.runs.length) :
    ((s.close r .stopped).on base).Stopping r base := by
  have hspares := (Session.dismiss_spares (s.phase_ended r hr) (s.run r).npcs).under
    (f := .announcing (s.run r).completion (s.run r).ledger) rfl
  have bare : ∀ f ∈ ([] : List Frame), f.revives r = false := by simp
  have hspared : Turn.Spared r base (Move.on _ base) := .on hspares bare
  rw [Session.close_stopped]
  cases hn : (s.run r).npcs with
  | nil =>
    rw [hn] at hspared
    refine .ended hspared ?_
    exact congrArg Run.npcs (Session.run_setRun_self (by simpa using hr))
  | cons npc rest =>
    rw [hn] at hspared
    exact .dismissing hspared (.atCall _)

theorem Does.stopping (h : t.Does d u) (ht : t.Stopping r base) (hb : ¬t.IsBack base) :
    u.Stopping r base := by
  cases ht with
  | @begun s current hr phase =>
    cases h with
    | work task =>
      have hstop : Task.begin s (.entry .stop) = s.terminate r .stopped := by
        show s.stop = _
        simp [Session.stop, current, phase]
      rw [hstop]
      rcases s.terminate_cases r .stopped with ⟨w, -, -, h⟩ | ⟨-, h⟩
      · rw [h]
        exact .cancelling (by simpa [Move.ask, Move.under, Move.on] using hr) (.atCall _)
      · rw [h]
        exact .close hr
    | beginAtRest h => cases h
    | leave h => cases h
    | change h => cases h
  | cancelling hr during =>
    have hl := Nat.lt_of_lt_of_le hr h.ages.length_le
    rcases h.during during with hd | ⟨s, rfl, ⟨answer, -, rfl⟩ | ⟨f, -, rfl⟩⟩
    · exact .cancelling hl hd
    · exact .cancelled hr
    · refine .failed [.ending r .stopped] ?_
      intro g hg s
      obtain rfl := List.mem_singleton.1 hg
      exact ⟨rfl, fun _ h => by cases h⟩
  | cancelled hr =>
    cases h with
    | receive => exact .close hr
    | change h => simp [Control.isForHost] at h
  | dismissing spared during =>
    have hs := h.spares spared (.inr hb)
    rcases h.during during with hd | ⟨s, rfl, ⟨answer, -, rfl⟩ | ⟨f, -, rfl⟩⟩
    · exact .dismissing hs.1 hd
    · rename_i rest _ _
      cases rest with
      | nil =>
        refine .ended hs.1 ?_
        exact congrArg Run.npcs (Session.run_setRun_self (Session.lt_length_of_stopped spared.phase))
      | cons npc rest => exact .dismissing hs.1 (.atCall s)
    · rename_i completion ledger
      refine .failed [.announcing completion ledger] ?_
      intro g hg s
      obtain rfl := List.mem_singleton.1 hg
      exact ⟨rfl, fun _ h => by cases h⟩
  | ended spared npcs =>
    have hs := h.spares spared (.inr hb)
    exact .ended hs.1 (hs.2.npcs npcs)
  | @failed s above f passes =>
    cases above with
    | nil => exact absurd ⟨rfl, rfl⟩ hb
    | cons g above =>
      obtain ⟨hrecover, hasked⟩ := passes g List.mem_cons_self s
      have hrest : ∀ g ∈ above, ∀ s, g.recover s f = .failure s f ∧ ∀ a, g ≠ .asked a :=
        fun g hg => passes g (List.mem_cons_of_mem _ hg)
      generalize hstack : g :: above ++ base = stack at h
      cases h with
      | recover =>
        cases hstack
        rw [hrecover]
        exact .failed above hrest
      | leave =>
        cases hstack
        exact absurd rfl (hasked _)
      | beginAtRest => cases hstack
      | change h => subst hstack; simp [Control.isForHost] at h

end Turn

theorem Turn.Stopping.of_back {r : RunId} {base : List Frame} {u : Turn} {result : Result}
    (h : u.Stopping r base) (back : u.stack = base) (done : u.control = .done result) :
    (u.session.run r).phase = .stopped ∧ (u.session.run r).npcs = [] := by
  have short {f : Frame} {a : Ask} (h : u.During a (f :: base)) : False := by
    have hl := h.length_le
    rw [back] at hl
    exact absurd hl (Nat.not_succ_le_self _)
  cases h with
  | begun => cases done
  | cancelling hr during => exact (short during).elim
  | cancelled => simp at back
  | dismissing spared during => exact (short during).elim
  | ended spared npcs => exact ⟨spared.phase, npcs⟩
  | failed => cases done

/-- **A stop that returns leaves the run stopped**, and without figures unless it was
stopped already. -/
theorem stop_returns {t u : Turn} {r : RunId} {result : Result} (hr : r < t.session.runs.length)
    (current : t.session.current = some r) (hc : t.control = .work (.entry .stop))
    (h : t.Leads (untilBack t.stack) u) (back : u.stack = t.stack) (done : u.control = .done result) :
    (u.session.run r).phase = .stopped ∧
      ((t.session.run r).phase ≠ .stopped → (u.session.run r).npcs = []) := by
  by_cases hp : (t.session.run r).phase = .stopped
  · have ht : t.Spared r t.stack := ⟨hp, ⟨[], rfl, by simp⟩, by rw [hc]; rfl⟩
    exact ⟨(h.spares ht fun _ _ h => .inr h).1.phase, fun h => absurd hp h⟩
  · obtain ⟨s, base, c⟩ := t
    obtain rfl : c = .work (.entry .stop) := hc
    obtain ⟨events, h⟩ := h
    have hu : u.Stopping r base :=
      h.induct (P := fun v => v.Stopping r base) (.begun current hr hp)
        fun hv allowed does => does.stopping hv allowed
    have hover := hu.of_back back done
    exact ⟨hover.1, fun _ => hover.2⟩

end Questline

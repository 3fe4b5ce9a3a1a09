import Questline.Proofs.Lessons
import Questline.Proofs.Sitting

/-!
# A tutorial is told

The script of one tutorial is played to a player who goes on after every line, from inside the call that
shows it or afterwards.  Then the lines that are shown are the messages, each once and in order.  In
between there is nothing but warnings, of tokens that are left in a message.  Behind the last message
nothing is connected, so the run is stopped there: figures that it took over from a run before it leave,
and the answers, of which there are none, are announced.

The run is followed from its end to its beginning.  What becomes of a turn is stated of all that may have
been exchanged before, so what is known of the rest of the run can be put behind a message
(`plays_visit`, `plays_respond`), and the messages are gone through from the last one.

* `Player.GoesOn`: who goes on after every line.
* `Turn.Plays`: the calls that are made from a turn on, and where this leads.
* `Tutorial.recital`: the calls in which messages are told.
* `plays_messages`: a run that tells messages.
* `tutorial_told_completely`: from a catalog to the end of the run.
-/

namespace Questline

open Json (Value)

/-! ## Who goes on -/

/-- Whether a call is one that is made when messages are told: a line is shown, a warning is reported, a
figure leaves, or answers are announced. -/
def Call.isTelling : Call → Bool
  | .present (.dialogue _) | .reportWarning _ | .remove _ | .complete _ _ => true
  | _ => false

/-- **A player who goes on after every line**, and whose host does not fail in telling. -/
structure Player.GoesOn (p : Player) : Prop where
  responds : ∀ log a, a.call.isTelling → ∃ reply, p.respond log a = .ok reply
  answers : ∀ log card, ∃ v, p.answer log (.engage (.dialogue card)) = some v

/-- **The calls from a turn on**: whatever was exchanged before, these are made, and the player comes to a
turn that is as required. -/
def Turn.Plays (w : Way) (p : Player) (t : Turn) (calls : List Call) (q : Turn → Prop) : Prop :=
  ∀ start log, Sits w p start log none t →
    ∃ more u, Sits w p start (log ++ more) none u ∧ more.map (·.ask.call) = calls ∧ q u

namespace Turn.Plays

variable {w : Way} {p : Player} {t u : Turn} {calls : List Call} {q : Turn → Prop} {s : Session}
  {stack : List Frame} {a : Ask}

theorem stay (h : q t) : t.Plays w p [] q :=
  fun _ log sits => ⟨[], t, by rwa [List.append_nil], rfl, h⟩

theorem moves (m : t.Moves u) (h : u.Plays w p calls q) : t.Plays w p calls q :=
  fun start log sits => h start log (sits.moves m)

theorem next (hn : t.next? = some u) (h : u.Plays w p calls q) : t.Plays w p calls q :=
  h.moves (.single hn)

/-- A call is made, and what comes after the exchange is caught up with. -/
theorem met (h : ∀ log, ∃ due t T, Meets (p.exchange log a) s stack w due t ∧ t.Catches T due ∧
    T.Plays w p calls q) : Turn.Plays w p ⟨s, stack, .ask a⟩ (a.call :: calls) q := by
  intro start log sits
  obtain ⟨due, t, T, meets, catches, plays⟩ := h log
  obtain ⟨more, u, sits, made, hu⟩ := plays start _ ((sits.meet meets).catches catches)
  refine ⟨p.exchange log a :: more, u, ?_, ?_, hu⟩
  · rwa [List.append_assoc] at sits
  · rw [List.map_cons, made]
    rfl

/-- A call to which nothing but a response is given. -/
theorem reply (goesOn : p.GoesOn) (telling : a.call.isTelling) (silent : ∀ v, a.begins? v = none)
    (h : ∀ answer, ((a.resume s answer).on stack).Plays w p calls q) :
    Turn.Plays w p ⟨s, stack, .ask a⟩ (a.call :: calls) q := by
  refine met fun log => ?_
  obtain ⟨answer, responds⟩ := goesOn.responds log a telling
  have response : (p.exchange log a).response = .ok answer := responds
  have nothing : (p.exchange log a).begins? = none := by
    rw [Exchange.begins?, response]
    exact Option.bind_eq_none_iff.2 fun v _ => silent v
  have meets : Meets (p.exchange log a) s stack w none
      ((⟨s, stack, .ask a⟩ : Turn).conclude a (p.exchange log a).response) := .plain nothing
  rw [response] at meets
  exact ⟨none, _, _, meets, .refl _, h answer⟩

/-- A line that is answered in one of the two ways. -/
theorem line {card : DialogueCard} {r : RunId} {g : Graph} {n : Node} (goesOn : p.GoesOn)
    (pending : s.pending = []) (draining : s.draining = true)
    (enters : ∀ (v : Value) (s' : Session), s'.current = s.current → s'.runs = s.runs → s'.graph = s.graph →
      s'.advance v = s'.resume r (.respond n g v))
    (h : ∀ v, Turn.Plays w p ⟨s.resumed r, [.draining], .work (.drive r (.respond n g v))⟩ calls q) :
    Turn.Plays w p ⟨s, [.driving r, .draining], .ask (.engage (.dialogue card))⟩
      (.present (.dialogue card) :: calls) q := by
  refine met (a := .engage (.dialogue card)) fun log => ?_
  obtain ⟨answer, responds⟩ := goesOn.responds log (.engage (.dialogue card)) rfl
  obtain ⟨v, answers⟩ := goesOn.answers log card
  have begins : (p.exchange log (.engage (.dialogue card))).begins? = some (.advance v) := by
    simp only [Exchange.begins?, Player.exchange, responds, answers]
    rfl
  obtain ⟨meets, catches⟩ := meets_catches_of_resumes pending draining begins
    (fun _ _ => rfl) (enters v)
  obtain ⟨due, t, meets⟩ := meets w
  exact ⟨due, t, _, meets, catches meets, h v⟩

end Turn.Plays

/-! ## A run that tells messages -/

/-- A run that goes through a graph with nothing chosen so far. -/
structure Run.Telling (run : Run) (g : Graph) (npcs : List String) (completion : Option Callback) : Prop
    extends Run.Going run g where
  ledger : run.ledger = []
  figures : run.npcs = npcs
  callback : run.completion = completion

namespace Run.Telling

variable {run : Run} {g : Graph} {npcs : List String} {completion : Option Callback}

theorem warn (h : run.Telling g npcs completion) (warning : Warning) :
    (run.warn warning).Telling g npcs completion :=
  ⟨⟨h.phase, h.wait, h.script⟩, h.ledger, h.figures, h.callback⟩

theorem visited (h : run.Telling g npcs completion) (n : Node) :
    Run.Telling { run.count n.kind.word with node := some n.id, activity := .running } g npcs completion :=
  ⟨⟨h.phase, h.wait, h.script⟩, h.ledger, h.figures, h.callback⟩

theorem advancing (h : run.Telling g npcs completion) :
    Run.Telling { run with activity := .advancing } g npcs completion :=
  ⟨⟨h.phase, h.wait, h.script⟩, h.ledger, h.figures, h.callback⟩

/-- What is suspended and goes on again tells on. -/
theorem resumed (h : run.Telling g npcs completion) (wait : Wait) (activity : Activity) :
    Run.Telling { { run with wait := some wait, phase := .suspended, activity } with
      wait := none, phase := .running, activity := .running } g npcs completion :=
  ⟨⟨rfl, rfl, h.script⟩, h.ledger, h.figures, h.callback⟩

end Run.Telling

namespace Tutorial

/-- **The calls in which messages are told**, the first of them with the given number.  A token that is
left in a message is warned of before the message is shown. -/
def recital : (number : Nat) → List Message → List Call
  | _, [] => []
  | number, m :: ms =>
    (Warning.ofDialogue (natText number) { text := m.text }).map .reportWarning ++
      .present (.dialogue (Dialogue.card { text := m.text } (natText number))) :: recital (number + 1) ms

/-- The calls at the end of a run: the figures leave, and that nothing was answered is announced. -/
def farewell (npcs : List String) (completion : Option Callback) : List Call :=
  npcs.map .remove ++ completion.toList.map (.complete · [])

end Tutorial

/-- **A tutorial has been told**: the run is stopped, with nothing chosen, nobody left, and in no other
script. -/
structure Turn.HasTold (id : String) (t : Turn) : Prop where
  rests : t.stack = [] ∧ t.control = .done .done
  phase : t.session.phase = .stopped
  graph : t.session.graph = none
  run : ∃ run, t.session.currentRun? = some run ∧ run.script = id ∧ run.ledger = [] ∧ run.npcs = []

section

variable {w : Way} {p : Player} {calls : List Call} {q : Turn → Prop} {s : Session} {r : RunId} {run : Run}
  {g : Graph} {npcs : List String} {completion : Option Callback}

/-- Warnings are reported, and the run tells on. -/
theorem plays_report (goesOn : p.GoesOn) {stack : List Frame} (warnings : List Warning)
    (has : s.Has r true [] run (some g)) (tells : run.Telling g npcs completion)
    (next : ∀ s' run', s'.Has r true [] run' (some g) → run'.Telling g npcs completion →
      Turn.Plays w p ⟨s', stack, .done .done⟩ calls q) :
    ((s.report r warnings).on stack).Plays w p (warnings.map .reportWarning ++ calls) q := by
  induction warnings generalizing s run with
  | nil => exact next s run has tells
  | cons warning warnings ih =>
    exact .reply goesOn (a := .report r warning warnings) rfl (fun _ => rfl) fun _ =>
      ih (has.setRun _) (tells.warn warning)

/-- **At a line** the player is shown it and goes on. -/
theorem plays_visit (goesOn : p.GoesOn) {id : String} {d : Dialogue} (has : s.Has r true [] run (some g))
    (tells : run.Telling g npcs completion) (inGraph : g.node? id = some ⟨id, .dialogue d⟩)
    (next : ∀ s' run' v, s'.Has r true [] run' (some g) → run'.Telling g npcs completion →
      Turn.Plays w p ⟨s', [.draining], .work (.drive r (.respond ⟨id, .dialogue d⟩ g v))⟩ calls q) :
    Turn.Plays w p ⟨s, [.driving r, .draining], .work (.visit r ⟨id, .dialogue d⟩ g)⟩
      ((Warning.ofDialogue id d).map .reportWarning ++ .present (.dialogue (d.card id)) :: calls) q := by
  let n : Node := ⟨id, .dialogue d⟩
  let step : Step := ⟨n, .suspend (.card (.dialogue (d.card id)))⟩
  let s₁ := s.setRun r fun run => { run.count n.kind.word with node := some n.id, activity := .running }
  have visits : Turn.next? ⟨s, [.driving r, .draining], .work (.visit r n g)⟩ =
      some ((s₁.report r (Warning.ofDialogue id d)).on [.stepping step, .driving r, .draining]) := by
    rw [← Move.on_under]
    rfl
  refine .next visits (plays_report goesOn _ (has.setRun _) (tells.visited n) fun s₂ run₂ has tells => ?_)
  have owns : s₂.owns r = true := has.owns tells.isActive
  have pauses : Turn.next? ⟨s₂, [.driving r, .draining], .done (.stepped step)⟩ =
      some ⟨s₂.suspend r .dialogue id, [.driving r, .draining], .ask (.engage (.dialogue (d.card id)))⟩ := by
    change some ((s₂.proceed r step).on [.draining]) = _
    rw [Session.proceed, if_pos owns]
    rfl
  refine .next (u := ⟨s₂, [.driving r, .draining], .done (.stepped step)⟩) rfl (.next pauses ?_)
  -- The run is suspended before the line is shown, so an answer from inside the call finds it waiting.
  let wait : Wait := { id := s₂.nextWait, kind := .dialogue, node := id }
  have waits : (s₂.suspend r .dialogue id).Has r true []
      { run₂ with wait := some wait, phase := .suspended, activity := WaitKind.dialogue.activity } (some g) :=
    (has.setRun fun run => { run with
      wait := some wait, phase := .suspended, activity := WaitKind.dialogue.activity }).of_eq
      rfl rfl has.draining_eq has.pending_eq has.graph_eq
  refine .line (n := n) (g := g) goesOn waits.pending_eq waits.draining_eq (fun v s' current runs graph => ?_)
    fun v => ?_
  · have run' : s'.run r = (s₂.suspend r .dialogue id).run r := by rw [Session.run, runs]; rfl
    rw [waits.run_eq] at run'
    have waiting : (s'.run r).wait = some wait := by rw [run']
    exact Session.advance_eq_resume (current.trans waits.current) (by rw [run']) waiting rfl rfl (by simp [wait])
      (graph.trans waits.graph_eq) inGraph
  · exact next _ _ v ((waits.setRun _).of_eq rfl rfl rfl rfl waits.graph_eq) (tells.resumed wait _)

/-- The answer to a line takes its only output. -/
theorem moves_respond {id : String} {d : Dialogue} {target : Option Node} {v : Value}
    (has : s.Has r true [] run (some g)) (active : run.isActive)
    (leads : g.follow? id Session.firstOutput = target) :
    Turn.Moves ⟨s, [.draining], .work (.drive r (.respond ⟨id, .dialogue d⟩ g v))⟩
      ⟨s.setRun r fun run => { run with activity := .advancing }, [.driving r, .draining],
        .done (.stepped ⟨⟨id, .dialogue d⟩, target.elim .terminal .next⟩)⟩ := by
  let n : Node := ⟨id, .dialogue d⟩
  have drives : Turn.next? ⟨s, [.draining], .work (.drive r (.respond n g v))⟩ =
      some ⟨s, [.driving r, .draining], .work (.respond r n g v)⟩ := by
    have owns : s.owns r = true := has.owns active
    change some ((s.drive r _).on _) = _
    rw [Session.drive, if_pos owns]
    rfl
  refine .head drives (.single ?_)
  change some ((s.follow r n Session.firstOutput g).on _) = _
  simp only [Session.follow, n, leads]
  cases target <;> rfl

/-- **Behind a line** the run goes on to what is connected there. -/
theorem plays_respond {id : String} {d : Dialogue} {m : Node} {v : Value} (has : s.Has r true [] run (some g))
    (tells : run.Telling g npcs completion) (leads : g.follow? id Session.firstOutput = some m)
    (next : ∀ s' run', s'.Has r true [] run' (some g) → run'.Telling g npcs completion →
      Turn.Plays w p ⟨s', [.driving r, .draining], .work (.visit r m g)⟩ calls q) :
    Turn.Plays w p ⟨s, [.draining], .work (.drive r (.respond ⟨id, .dialogue d⟩ g v))⟩ calls q := by
  let s₁ := s.setRun r fun run => { run with activity := .advancing }
  have has₁ : s₁.Has r true [] { run with activity := .advancing } (some g) := has.setRun _
  have proceeds : Turn.next? ⟨s₁, [.driving r, .draining], .done (.stepped ⟨⟨id, .dialogue d⟩, .next m⟩)⟩ =
      some ⟨s₁, [.driving r, .draining], .work (.visit r m g)⟩ := by
    have owns : s₁.owns r = true := has₁.owns tells.advancing.isActive
    change some ((s₁.proceed r _).on _) = _
    simp only [Session.proceed, owns, if_true, has₁.graph_eq]
    rfl
  exact .moves (moves_respond has tells.isActive leads) (.next proceeds (next s₁ _ has₁ tells.advancing))

/-- Figures leave, and then nobody is left. -/
theorem plays_dismiss (goesOn : p.GoesOn) {stack : List Frame} {graph : Option Graph} (figures : List String)
    (has : s.Has r true [] run graph)
    (next : ∀ s', s'.Has r true [] { run with npcs := [] } graph →
      Turn.Plays w p ⟨s', stack, .done .done⟩ calls q) :
    ((s.dismiss r figures).on stack).Plays w p (figures.map .remove ++ calls) q := by
  induction figures with
  | nil => exact next _ (has.setRun fun run => { run with npcs := [] })
  | cons npc figures ih => exact .reply goesOn (a := .dismiss r npc figures) rfl (fun _ => rfl) fun _ => ih

/-- The run comes to rest, once the answers are announced. -/
theorem plays_announce (goesOn : p.GoesOn) {ledger : Ledger} (pending : s.pending = [])
    (done : q ⟨{ s with draining := false }, [], .done .done⟩) :
    ((s.announce completion ledger).on [.driving r, .draining]).Plays w p
      (completion.toList.map (.complete · ledger)) q := by
  have drains : Turn.next? ⟨s, [.draining], .done .done⟩ =
      some ⟨{ s with draining := false }, [], .done .done⟩ := by
    change some (s.drain.on _) = _
    rw [Session.drain, pending]
    rfl
  have rests : Turn.Plays w p ⟨s, [.driving r, .draining], .done .done⟩ [] q :=
    .next (u := ⟨s, [.draining], .done .done⟩) rfl (.next drains (.stay done))
  cases completion with
  | none => exact rests
  | some callback => exact .reply goesOn (a := .announce callback ledger) rfl (fun _ => rfl) fun _ => rests

/-- Without a timer a run is stopped at once. -/
theorem terminate_eq {graph : Option Graph} (has : s.Has r true [] run graph) (untimed : run.wait = none) :
    s.terminate r .stopped = ((s.ended r .stopped).dismiss r run.npcs).under
      (.announcing run.completion run.ledger) := by
  have free (w : Wait) (hw : (s.run r).wait = some w) : w.timer = false := by
    rw [has.run_eq, untimed] at hw
    cases hw
  rw [Session.terminate, s.withoutTimer_of_untimed r free, Session.close_stopped, has.run_eq]

/-- **Behind the last line** the run is stopped: the figures leave, and the answers are announced. -/
theorem plays_last (goesOn : p.GoesOn) {id : String} {d : Dialogue} {v : Value}
    (has : s.Has r true [] run (some g)) (tells : run.Telling g npcs completion)
    (nowhere : g.follow? id Session.firstOutput = none) :
    Turn.Plays w p ⟨s, [.draining], .work (.drive r (.respond ⟨id, .dialogue d⟩ g v))⟩
      (Tutorial.farewell npcs completion) (Turn.HasTold g.id) := by
  let run₁ : Run := { run with activity := .advancing }
  let s₁ := s.setRun r fun run => { run with activity := .advancing }
  let s₂ := s₁.ended r .stopped
  have has₁ : s₁.Has r true [] run₁ (some g) := has.setRun _
  have has₂ : s₂.Has r true [] (run₁.ended .stopped) none :=
    (has₁.setRun (Run.ended .stopped)).of_eq rfl rfl has₁.draining_eq has₁.pending_eq
      (congrArg Session.graph (s₁.ended_of_current r has₁.current))
  have ends : Turn.next? ⟨s₁, [.driving r, .draining], .done (.stepped ⟨⟨id, .dialogue d⟩, .terminal⟩)⟩ =
      some ((s₂.dismiss r npcs).on [.announcing completion [], .driving r, .draining]) := by
    have owns : s₁.owns r = true := has₁.owns tells.advancing.isActive
    have terminates := terminate_eq has₁ tells.wait
    rw [tells.advancing.figures, tells.advancing.callback, tells.advancing.ledger] at terminates
    change some ((s₁.proceed r _).on _) = _
    rw [Session.proceed, if_pos owns]
    change some (((s₁.terminate r .stopped).under _).on _) = _
    rw [terminates, Move.on_under, Move.on_under]
  refine .moves (moves_respond has tells.isActive nowhere) (.next ends ?_)
  refine plays_dismiss goesOn npcs has₂ fun s₃ has₃ => .next (u := (s₃.announce completion []).on _) rfl ?_
  have current : s₃.currentRun? = some { run₁.ended .stopped with npcs := [] } := by
    rw [Session.currentRun?, has₃.current, Option.map_some, has₃.run_eq]
  refine plays_announce goesOn has₃.pending_eq ⟨⟨rfl, rfl⟩, ?_, has₃.graph_eq, _, current, tells.script, rfl, rfl⟩
  change (s₃.currentRun?.map (·.phase)).getD .stopped = _
  rw [current]
  rfl

/-! ## From the first message to the last -/

/-- **Messages are told** from one of them to the last. -/
theorem plays_messages (goesOn : p.GoesOn) {all rest : List Message} {m : Message} {i : Nat}
    (tellsAll : g.Tells all) (from' : all.drop i = m :: rest) (has : s.Has r true [] run (some g))
    (tells : run.Telling g npcs completion) :
    Turn.Plays w p ⟨s, [.driving r, .draining], .work (.visit r (Tutorial.messageNode i m) g)⟩
      (Tutorial.recital i (m :: rest) ++ Tutorial.farewell npcs completion) (Turn.HasTold g.id) := by
  induction rest generalizing i m s run with
  | nil =>
    obtain ⟨inGraph, nowhere⟩ := tellsAll.of_drop from'
    rw [Tutorial.recital, List.append_assoc, List.cons_append]
    exact plays_visit goesOn has tells inGraph fun s' run' v has tells => plays_last goesOn has tells nowhere
  | cons m' rest ih =>
    obtain ⟨inGraph, leads⟩ := tellsAll.of_drop from'
    have later : all.drop (i + 1) = m' :: rest := by rw [← List.tail_drop, from', List.tail_cons]
    rw [Tutorial.recital, List.append_assoc, List.cons_append]
    exact plays_visit goesOn has tells inGraph fun s' run' v has tells =>
      plays_respond has tells leads fun s' run' has tells => ih later has tells

/-- When nothing is under way and no run goes on, no run is active. -/
theorem Session.IsQuiet.all_idle (quiet : s.IsQuiet) (idle : s.IsIdle) :
    s.pending = [] ∧ s.draining = false ∧ ∀ q, q < s.runs.length → (s.run q).isActive = false := by
  cases quiet with
  | unbegun runs _ draining pending => exact ⟨pending, draining, fun q hq => by rw [runs] at hq; cases hq⟩
  | begun r stays =>
    obtain ⟨graph, has⟩ := stays.has
    exact ⟨has.pending_eq, has.draining_eq, has.idle (idle r has.current)⟩

/-- **A run in a graph that tells messages tells all of them.** -/
theorem plays_startGraph (goesOn : p.GoesOn) (quiet : s.IsQuiet) (idle : s.IsIdle) {m : Message}
    {ms : List Message} (tellsAll : g.Tells (m :: ms)) (entry : g.entry = Tutorial.messageNode 0 m)
    (completion : Option Callback) :
    (s.begin (.entry (.startGraph g completion))).Plays w p
      (Tutorial.recital 0 (m :: ms) ++ Tutorial.farewell s.carriedNpcs completion) (Turn.HasTold g.id) := by
  obtain ⟨pending, draining, past⟩ := quiet.all_idle idle
  -- The run is added behind all others, and takes over the figures of one that is paused.
  let r := s.runs.length
  let run : Run := { script := g.id, npcs := s.carriedNpcs, completion }
  let s₁ : Session := { s.addRun run with graph := some g, lastError := none, pending := [], draining := true }
  have begins : Turn.next? (s.begin (.entry (.startGraph g completion))) =
      some ⟨{ s₁ with pending := [(r, .enter g)] }, [.draining], .done .done⟩ := by
    change some ((s.startGraph g completion).on []) = _
    rw [idle.startGraph_eq]
    simp only [Session.enqueue, Session.opened, Session.addRun, pending, draining]
    rfl
  have has : s₁.Has r true [] run (some g) := by
    have runs (q : RunId) : s₁.run q = (s.addRun run).run q := rfl
    refine ⟨rfl, ?_, fun q hq other => ?_, rfl, rfl, ?_, rfl⟩
    · change r < (s.addRun run).runs.length
      rw [Session.length_runs_addRun]
      exact Nat.lt_succ_self r
    · change q < (s.addRun run).runs.length at hq
      rw [Session.length_runs_addRun] at hq
      rw [runs, Session.run_addRun_of_ne _ other]
      exact past q (Nat.lt_of_le_of_ne (Nat.le_of_lt_succ hq) other)
    · rw [runs, Session.run_addRun_length]
  have drives : Turn.next? ⟨s₁, [.draining], .work (.drive r (.enter g))⟩ =
      some ⟨s₁, [.driving r, .draining], .work (.visit r g.entry g)⟩ := by
    have owns : s₁.owns r = true := has.owns rfl
    change some ((s₁.drive r _).on _) = _
    rw [Session.drive, if_pos owns]
    rfl
  have tells : run.Telling g s.carriedNpcs completion := ⟨⟨rfl, rfl, rfl⟩, rfl, rfl, rfl⟩
  refine .next begins (.next (u := ⟨s₁, [.draining], .work (.drive r (.enter g))⟩) rfl (.next drives ?_))
  rw [entry]
  exact plays_messages goesOn tellsAll rfl has tells

end

/-! ## What is shown -/

/-- The line that is shown in a call. -/
def Call.line? : Call → Option String
  | .present (.dialogue card) => some card.text
  | _ => none

/-- The lines that are shown are the messages. -/
theorem lines_recital (number : Nat) (ms : List Message) :
    (Tutorial.recital number ms).filterMap Call.line? = ms.map (·.text) := by
  induction ms generalizing number with
  | nil => rfl
  | cons m ms ih =>
    have warnings (ws : List Warning) : (ws.map Call.reportWarning).filterMap Call.line? = [] := by
      rw [List.filterMap_map, List.filterMap_eq_nil_iff]
      exact fun _ _ => rfl
    rw [Tutorial.recital, List.filterMap_append, warnings, List.nil_append, List.filterMap_cons, List.map_cons, ih]
    rfl

theorem lines_farewell (npcs : List String) (completion : Option Callback) :
    (Tutorial.farewell npcs completion).filterMap Call.line? = [] := by
  rw [Tutorial.farewell, List.filterMap_append, List.filterMap_map, List.filterMap_map, List.append_eq_nil_iff,
    List.filterMap_eq_nil_iff, List.filterMap_eq_nil_iff]
  exact ⟨fun _ _ => rfl, fun _ _ => rfl⟩

/-- **A tutorial is told completely.**  If no tutorial of a catalog has the id, then there is no script;
otherwise there is the script of the first one that has it, and it is the one that is made of this
tutorial when it is written down and read again.  Without messages it has no entry.  With messages it has
a graph.  A run in this graph, begun after whatever happened before, when nothing is under way and no run
goes on, comes to an end, in one way only, with every player who goes on after each line, be it from inside
the call that shows it or afterwards.  All calls that are made are those of the recital and the farewell,
the lines that are shown are the messages in their order, and in the end the run is stopped. -/
theorem tutorial_told_completely (catalog : Json.Fields) (ts : List Tutorial) (id : String)
    (reads : Tutorial.catalogOf catalog = .ok ts) :
    (ts.find? (·.id == id) = none → Tutorial.singleOf catalog id = .error (.noSuchTutorial id)) ∧
      ∀ t, ts.find? (·.id == id) = some t → ∃ script, Tutorial.singleOf catalog id = .ok script ∧
        (Tutorial.catalogOf [("tutorials", .object [(t.id, t.toValue)])]).map
          (fun again => (Tutorial.toScript t.id again).script) = .ok script ∧
        (t.messages = [] → Graph.ofScript script = .error (.data (.ambiguousEntry id []))) ∧
        (t.messages ≠ [] → ∃ g, Graph.ofScript script = .ok g ∧
          ∀ (h : Habits) (files : FileTree) (library : Path) (flags : FlagStore) (events : List Event)
            (s : Session) (c : Control) (completion : Option Callback) (w : Way) (p : Player),
            History h.allow (Session.fresh files library flags).atRest events ⟨s, [], c⟩ → c.isOver →
              s.IsIdle → p.GoesOn →
              ∃ log u,
                (∀ log' u', p.Ends w (s.begin (.entry (.startGraph g completion))) log' u' ↔
                  log' = log ∧ u' = u) ∧
                log.map (·.ask.call) =
                  Tutorial.recital 0 t.messages ++ Tutorial.farewell s.carriedNpcs completion ∧
                (log.map (·.ask.call)).filterMap Call.line? = t.messages.map (·.text) ∧ u.HasTold id) := by
  have single := Tutorial.singleOf_eq reads id
  refine ⟨fun none => by rw [single, none], fun t found => ?_⟩
  obtain rfl : t.id = id := by simpa using List.find?_some found
  have again := Tutorial.catalogOf_toValue reads (List.mem_of_find?_eq_some found)
  refine ⟨(Tutorial.toScript t.id [t]).script, by rw [single, found], by rw [again]; rfl,
    Tutorial.graph_toScript_nil t.id, fun spoken => ?_⟩
  -- A sitting through the whole run is made once; that no other ends differently follows.
  obtain ⟨m, ms, messages⟩ := List.exists_cons_of_ne_nil spoken
  obtain ⟨built, tells⟩ := Tutorial.graph_toScript t.id messages
  refine ⟨_, built, fun h files library flags events s c completion w p history past idle goesOn => ?_⟩
  rw [messages] at tells ⊢
  obtain ⟨log, u, sits, calls, told⟩ :=
    plays_startGraph (w := w) goesOn (history.stands.quiet past) idle tells rfl completion _ [] .nil
  have ends : p.Ends w _ log u := ⟨sits, told.rests.1, by rw [told.rests.2]; rfl⟩
  refine ⟨log, u, fun log' u' => ⟨fun ends' => ends'.unique ends, ?_⟩, calls, ?_, told⟩
  · rintro ⟨rfl, rfl⟩
    exact ends
  · rw [calls, List.filterMap_append, lines_recital, lines_farewell, List.append_nil]

/-! ### Two greetings at a door -/

/-- A player who lets every line stand, and whose host lets figures leave. -/
def listener : Player where
  respond _
    | .engage _ | .dismiss _ _ _ => .ok ()
    | .remove _ _ => .ok ()
    | a => a.call.ignored
  answer _ _ := some .null

theorem listener_goesOn : listener.GoesOn where
  responds log a telling := by
    cases a with
    | engage | dismiss | remove | report => exact ⟨(), rfl⟩
    | handOver | announce => exact ⟨.plain, rfl⟩
    | startTimer | cancelTimer | deliver | give | take | count | battle | spawn | world | fillIn => cases telling
  answers log card := ⟨.null, rfl⟩

/-- The listener is told the same line twice at the door; at the window there is nothing to be told. -/
theorem door_told_completely :
    let s := Session.fresh (.empty []) (.ofString "scripts") {}
    Tutorial.catalogOf Tutorial.echoes = .ok Tutorial.echoing ∧
      Tutorial.singleOf Tutorial.echoes "window" = .error (.noSuchTutorial "window") ∧
      ∃ script g log u, Tutorial.singleOf Tutorial.echoes "door" = .ok script ∧
        Graph.ofScript script = .ok g ∧
        listener.Ends .inside (s.begin (.entry (.startGraph g (some 0)))) log u ∧
        (log.map (·.ask.call)).filterMap Call.line? = ["Hello!", "Hello!"] ∧ u.HasTold "door" := by
  intro s
  have reads : Tutorial.catalogOf Tutorial.echoes = .ok Tutorial.echoing := rfl
  have door := (tutorial_told_completely Tutorial.echoes Tutorial.echoing "door" reads).2
  obtain ⟨script, single, -, -, plays⟩ := door _ rfl
  obtain ⟨g, built, plays⟩ := plays (List.cons_ne_nil _ _)
  have rests : History patient.allow s.atRest [] ⟨s, [], .done .done⟩ := .nil
  have idle : s.IsIdle := fun _ h => by cases h
  obtain ⟨log, u, ends, -, lines, told⟩ :=
    plays patient _ _ _ _ s _ (some 0) .inside listener rests rfl idle listener_goesOn
  exact ⟨reads, (tutorial_told_completely Tutorial.echoes Tutorial.echoing "window" reads).1 (by decide),
    script, g, log, u, single, built, (ends log u).2 ⟨rfl, rfl⟩, lines, told⟩

end Questline

import Questline.Proofs.Keeping

/-!
# Coming to rest

Every turn of a gentle host has a shape, so a session can only come to rest as the shapes allow: it
has no run yet, or its run waits at a node of the current graph, or its run has ended.  A host is
gentle if it answers every call and comes back from inside a call only with an answer for what is
waited for.  It may still ring a timer while that timer is being cancelled; then the wait is taken
up twice, and no shape fits any more.

* `Turn.Sound.move`, `Turn.Sound.reply`, `Turn.Sound.enter`, `Turn.Sound.leave`: the deeds, each
  from shape to shape.
* `Turn.Sound.step`: every deed that is gentle and careful keeps a shape, and goes on with the walk.
* `rests_in_one_shape`: the three ways to be at rest.
-/

namespace Questline

open Json (Value)

/-! ## Timers that are cancelled -/

/-- Whether a deed takes up no answer from inside the cancelling of a timer. -/
def Deed.isCareful (t : Turn) (d : Deed) : Bool :=
  match d, t.control, t.stack with
  | .move, .work (.entry e), .asked (.cancelTimer _) :: _ => e.isLate t.session
  | _, _, _ => true

namespace Turn.Sound

variable {X : Option Walker} {s : Session} {stack : List Frame} {t u : Turn}

/-! ## Answers from inside a call -/

theorem inside_of_not_waiting {a : Ask} (h : Sound X ⟨s, stack, .ask a⟩)
    (answers : ∀ e, a.allows e = e.isAnswer) (free : ∀ q w, (s.run q).isWaitingOn w = false)
    {e : Entry} (answer : e.isAnswer)
    (smooth : ∀ v ∈ X, ((s.enter e).on (.asked a :: stack)).isFaulty = false) :
    Carries X (e.signs s) ((s.enter e).on (.asked a :: stack)) := by
  rcases Session.enter_of_not_waiting free answer with ⟨f, hm⟩ | ⟨hm, signs⟩
  · rw [hm] at smooth ⊢
    refine .lost (.inside h answers (.inl rfl)) fun v hv => ?_
    have faulty := smooth v hv
    cases f <;> cases faulty
  · rw [hm, signs]
    exact .same (.inside h answers (.inl rfl))

theorem enter_of_late {e : Entry} (late : e.isLate s) :
    s.enter e = .finished s ∧ e.signs s = [] := by
  cases e with
  | battleOver battle outcome =>
    have late : s.isWaiting battle.run battle.wait = false := by simpa [Entry.isLate] using late
    simp [Session.enter, Session.battleOver, Entry.signs, late]
  | timeUp timer =>
    have late : s.isWaiting timer.run timer.wait = false := by simpa [Entry.isLate] using late
    simp [Session.enter, Session.timeUp, Entry.signs, late]
  | start | startGraph | advance | stop | written | settle => cases late

/-- **An answer from inside a call** is done with at once: it is queued, or nothing waits
for it. -/
theorem answer {a : Ask} (h : Sound X ⟨s, stack, .ask a⟩) (answers : ∀ e, a.allows e = e.isAnswer)
    {e : Entry} (answer : e.isAnswer) (careful : ∀ timer, a = .cancelTimer timer → e.isLate s)
    (suits : ∀ v ∈ X, e.Suits s v)
    (smooth : ∀ v ∈ X, ((s.enter e).on (.asked a :: stack)).isFaulty = false) :
    Carries X (e.signs s) ((s.enter e).on (.asked a :: stack)) := by
  cases id h with
  | rest _ _ past => cases past
  | delivering => cases answers .stop
  | delivered _ _ past => cases past
  | resuming _ _ _ _ cancelling =>
    cases cancelling
    obtain ⟨hm, signs⟩ := enter_of_late (careful _ rfl)
    rw [hm, signs]
    exact .same (.inside h answers (.inl rfl))
  | ending _ _ _ cancelling =>
    cases cancelling
    obtain ⟨hm, signs⟩ := enter_of_late (careful _ rfl)
    rw [hm, signs]
    exact .same (.inside h answers (.inl rfl))
  | underway _ has going =>
    exact h.inside_of_not_waiting answers (has.not_waiting (.inl going.wait)) answer smooth
  | showing floor begun opened showing =>
    cases id opened with
    | held has held id untimed walk =>
      exact (Session.enter_answered has held walk answer suits).inside floor begun has opened
        untimed showing answers smooth
    | queued has going =>
      exact h.inside_of_not_waiting answers (has.not_waiting (.inl going.wait)) answer smooth
  | filling _ has _ free =>
    exact h.inside_of_not_waiting answers (has.not_waiting (.inl free)) answer smooth
  | dismissing _ has closed =>
    exact h.inside_of_not_waiting answers (has.not_waiting (.inl closed.wait)) answer smooth
  | announcing _ has past =>
    exact h.inside_of_not_waiting answers (has.not_waiting (.inl past.wait)) answer smooth
  | inside _ _ control =>
    rcases control with past | ⟨e, hc, -⟩
    · cases past
    · cases hc

/-! ## The moves of the session -/

/-- Nothing is left to do where nothing is under way. -/
theorem next?_ground {c : Control} (ground : Ground stack) (past : c.isOver) :
    next? ⟨s, stack, c⟩ = none := by
  cases c with
  | work task => cases past
  | ask a => cases past
  | done result => cases ground <;> rfl
  | failed f => cases ground <;> rfl

/-- The queue is worked off, or its next job is taken. -/
theorem drain_sound {r : RunId} (floor : Floor r stack) (settled : s.Settled X r) :
    Sound X (s.drain.on stack) := by
  unfold Session.drain
  cases settled with
  | rests rests =>
    have rests' : Session.Rests X r false { s with draining := false } := by
      cases rests with
      | held has held walk =>
        exact .held (has.of_eq rfl rfl rfl has.pending_eq has.graph_eq) held walk
      | ended has past walk =>
        exact .ended (has.of_eq rfl rfl rfl has.pending_eq has.graph_eq) past walk
    have pending : s.pending = [] := by
      cases rests with
      | held has => exact has.pending_eq
      | ended has => exact has.pending_eq
    simp only [pending]
    rw [pending] at rests'
    cases floor with
    | ground ground => exact .rest ground (.begun r rests') rfl
    | linking ground => exact .landed ground rests'
  | queued has going fits =>
    simp only [has.pending_eq, Move.on_under]
    exact .taken floor (has.of_eq rfl rfl has.draining_eq rfl has.graph_eq) going fits

/-- A run is driven that goes on. -/
theorem drive_sound {r : RunId} {run : Run} {g : Graph} {job : Job} (floor : Floor r stack)
    (has : s.Has r true [] run (some g)) (going : run.Going g) (fits : job.Fits X none g) :
    Sound X ((s.drive r job).on (.draining :: stack)) := by
  rw [Session.drive, if_pos (has.owns going.isActive), Move.on_under]
  cases fits with
  | enter whole walk =>
    refine .underway floor has going (.visiting whole fun v hv => ?_)
    rw [walk v hv]
    rfl
  | respond walk => exact .underway floor has going (.responding walk)
  | resolve walk => exact .underway floor has going (.resolving walk)

/-- A fault under way goes to whoever waits below. -/
theorem broken_sound {r : RunId} {run : Run} (floor : Floor r stack)
    (has : s.Has r true [] run none) (past : run.Over) (lost : ∀ v ∈ X, False) (f : Fault) :
    Sound X ((Frame.draining.recover s f).on stack) := by
  have has' : Session.Has { s with pending := [], draining := false } r false [] run none :=
    has.of_eq rfl rfl rfl rfl has.graph_eq
  cases floor with
  | ground ground =>
    exact .rest ground (.begun r (.ended has' past fun v hv => (lost v hv).elim)) rfl
  | linking ground => exact .linkBroken ground has' past lost

theorem stopIfActive_of_active {r : RunId} {draining : Bool} {pending : List (RunId × Job)}
    {run : Run} {graph : Option Graph} (has : s.Has r draining pending run graph)
    (active : run.isActive) : s.stopIfActive r = .work s (.terminate r .stopped) := by
  rw [Session.stopIfActive, has.run_eq, if_pos active]

/-- An event that is not known becomes a warning. -/
theorem refused_sound {r : RunId} {run : Run} {g : Graph} {n : Node} {f : Fault}
    (floor : Floor r stack) (has : s.Has r true [] run (some g)) (going : run.Going g)
    (plain : n.output? .plain = some 0)
    (walk : ∀ v ∈ X, (∃ event, f = .unknownEvent event) ∧
      v = .standing ⟨g, n⟩ none (some .plain)) :
    Sound X ((Frame.recover s f (.triggering r n g)).on (.driving r :: .draining :: stack)) := by
  by_cases known : ∃ event, f = .unknownEvent event
  · obtain ⟨event, rfl⟩ := known
    simp only [Frame.recover]
    rw [Move.on_under]
    refine Session.report_sound has (fun s' run' c has' hrun report => ?_) _
    obtain ⟨_, rfl⟩ := hrun
    exact .underway floor has' ⟨going.phase, going.wait, going.script⟩
      (.noting report plain fun v hv => (walk v hv).2)
  · have passed : Frame.recover s f (.triggering r n g) = .failure s f := by
      cases f with
      | unknownEvent event => exact absurd ⟨event, rfl⟩ known
      | _ => rfl
    rw [passed]
    exact .underway floor has going (.failed fun v hv => known (walk v hv).1)

/-- **The moves of a run on its way.** -/
theorem underway_move {r : RunId} {run : Run} {g : Graph} {frames : List Frame} {c : Control}
    (floor : Floor r stack) (has : s.Has r true [] run (some g)) (going : run.Going g)
    (way : Underway X r run g frames c)
    (hn : next? ⟨s, frames ++ .driving r :: .draining :: stack, c⟩ = some u)
    (loads : ∀ n l, c = .done (.stepped ⟨n, .link l⟩) → frames = [] → s.Reads X l.target)
    (smooth : ∀ v ∈ X, u.isFaulty = false) :
    Carries X (Event.signs ⟨⟨s, frames ++ .driving r :: .draining :: stack, c⟩, .move, u⟩) u := by
  cases way with
  | visiting inGraph walk =>
    obtain rfl := Option.some.inj hn
    exact Session.visit_carries floor has going inGraph walk smooth
  | responding walk =>
    obtain rfl := Option.some.inj hn
    exact .same (Session.respond_sound floor has going walk smooth)
  | resolving walk =>
    obtain rfl := Option.some.inj hn
    exact .same (Session.resolve_sound floor has going walk smooth)
  | reporting arrived given report walk =>
    cases report with
    | ask => cases hn
    | done =>
      obtain rfl := Option.some.inj hn
      exact .same (.underway floor has going (.stepped (.suspend arrived given walk)))
  | handling => cases hn
  | noting report plain walk =>
    cases report with
    | ask => cases hn
    | done =>
      obtain rfl := Option.some.inj hn
      exact .same (Session.follow_sound floor has going plain walk)
  | triggering => cases hn
  | triggered plain walk =>
    obtain rfl := Option.some.inj hn
    exact .same (Session.follow_sound floor has going plain walk)
  | refused plain walk =>
    obtain rfl := Option.some.inj hn
    exact .same (refused_sound floor has going plain walk)
  | counting => cases hn
  | handing => cases hn
  | stepped fits =>
    obtain rfl := Option.some.inj hn
    refine Session.proceed_carries floor has going fits (fun l hl => ?_) smooth
    subst hl
    exact loads _ l rfl rfl
  | @failed f lost =>
    obtain rfl := Option.some.inj hn
    have has' : Session.Has { s with lastError := some f } r true [] run (some g) :=
      has.of_eq rfl rfl has.draining_eq has.pending_eq has.graph_eq
    have hm : Frame.recover s f (.driving r) =
        (Move.work { s with lastError := some f } (.terminate r .stopped)).under (.failing f) := by
      simp only [Frame.recover, stopIfActive_of_active has' going.isActive]
    have sound : Sound X ((Frame.recover s f (.driving r)).on (.draining :: stack)) := by
      rw [hm, Move.on_under]
      exact .terminating (.failed floor lost) has' going.wait lost
    exact .same sound

theorem settled_of_open {r : RunId} {n : Node} {w : WaitId} (h : s.Open X r n w none) :
    s.Settled X r := by
  cases h with
  | held has held _ _ walk => exact .rests (.held has held walk)
  | queued has going fits => exact .queued has going fits

theorem showing_move {r : RunId} {n : Node} {w : WaitId} {todo : Option Act} {frames : List Frame}
    {c : Control} (floor : Floor r stack) (begun : w < s.nextWait) (opened : s.Open X r n w todo)
    (showing : Showing r n w todo frames c)
    (hn : next? ⟨s, frames ++ .driving r :: .draining :: stack, c⟩ = some u) :
    Carries X (Event.signs ⟨⟨s, frames ++ .driving r :: .draining :: stack, c⟩, .move, u⟩) u := by
  cases showing with
  | card => cases hn
  | image => cases hn
  | shown body =>
    obtain rfl := Option.some.inj hn
    have sound (seconds : Number) :
        Sound X ((if (s.run r).isWaitingOn w then
          Move.ask s (.startTimer seconds ⟨r, w⟩) else .finished s).on
            (.driving r :: .draining :: stack)) := by
      split
      · exact .showing floor begun opened (.timer body)
      · exact .settled floor (settled_of_open opened)
    exact .same (sound _)
  | timer => cases hn
  | battle => cases hn

/-- A link that failed after its write stops its run. -/
theorem linkBroken_sound {r : RunId} {run : Run} (ground : Ground stack)
    (has : s.Has r false [] run none) (past : run.Over) (lost : ∀ v ∈ X, False) (f : Fault) :
    Sound X ((Frame.recover s f (.linking r)).on stack) := by
  have rests (s' : Session) (h : s'.Has r false [] run none) : Session.Quiet X s' :=
    .begun r (.ended h past fun v hv => (lost v hv).elim)
  cases f with
  | link f =>
    have has' : Session.Has { s with lastError := some (.link f) } r false [] run none :=
      has.of_eq rfl rfl has.draining_eq has.pending_eq has.graph_eq
    have inactive : ¬(Session.run { s with lastError := some (.link f) } r).isActive := by
      rw [has'.run_eq, past.not_isActive]
      exact Bool.false_ne_true
    simp only [Frame.recover, Session.stopIfActive]
    rw [if_neg inactive]
    exact .rest ground (rests _ has') rfl
  | _ => exact .rest ground (rests s has) rfl

/-- **Every move of the session** leads from a shape to a shape, and the walk goes on by its
signs. -/
theorem move (h : Sound X t) (hn : t.next? = some u)
    (loads : ∀ id ∈ t.target? .move, t.session.Reads X id) (careful : Deed.isCareful t .move)
    (suits : ∀ v ∈ X, ∀ e, t.control = .work (.entry e) → e.Suits t.session v)
    (smooth : ∀ v ∈ X, u.isFaulty = false) : Carries X (Event.signs ⟨t, .move, u⟩) u := by
  cases h with
  | @rest s stack c ground quiet past =>
    rw [next?_ground ground past] at hn
    cases hn
  | entering ground quiet proper =>
    obtain rfl := Option.some.inj hn
    exact Session.enter_carries ground quiet loads proper (fun v hv => suits v hv _ rfl) smooth
  | delivering => cases hn
  | @delivered s stack c ds ground quiet past =>
    cases c with
    | work task => cases past
    | ask a => cases past
    | done result =>
      obtain rfl := Option.some.inj hn
      exact .same (Session.post_sound ground quiet ds)
    | failed f =>
      obtain rfl := Option.some.inj hn
      exact .same (Session.post_sound ground quiet ds)
  | resuming ground has held fits cancelling =>
    cases cancelling with
    | ask => cases hn
    | done =>
      obtain rfl := Option.some.inj hn
      exact .same (Session.resume_sound ground has held.script fits)
  | ending ground has lost cancelling =>
    cases cancelling with
    | ask => cases hn
    | done =>
      obtain rfl := Option.some.inj hn
      exact .same (Session.close_sound (.ground ground) has (.inr rfl) fun v hv => (lost v hv).elim)
  | drained floor settled =>
    obtain rfl := Option.some.inj hn
    exact .same (drain_sound floor settled)
  | broken floor has past lost =>
    obtain rfl := Option.some.inj hn
    exact .same (broken_sound floor has past lost _)
  | taken floor has going fits =>
    obtain rfl := Option.some.inj hn
    exact .same (drive_sound floor has going fits)
  | underway floor has going way => 
    refine underway_move floor has going way hn (fun n l hc hf => loads l.target ?_) smooth
    subst hc hf
    rfl
  | showing floor begun opened showing => exact showing_move floor begun opened showing hn
  | settled floor settled =>
    obtain rfl := Option.some.inj hn
    exact .same (.drained floor settled)
  | filling => cases hn
  | landed ground rests =>
    obtain rfl := Option.some.inj hn
    exact .same (.rest ground (.begun _ rests) rfl)
  | @linkFailed s stack r run graph f ground has active free lost =>
    obtain rfl := Option.some.inj hn
    have has' : Session.Has { s with lastError := some (.link f) } r false [] run graph :=
      has.of_eq rfl rfl has.draining_eq has.pending_eq has.graph_eq
    have sound : Sound X ((Session.stopIfActive { s with lastError := some (.link f) } r).on stack) := by
      rw [stopIfActive_of_active has' active]
      exact .terminating (.ground ground) has' free lost
    exact .same sound
  | linkBroken ground has past lost =>
    obtain rfl := Option.some.inj hn
    exact .same (linkBroken_sound ground has past lost _)
  | terminating landing has free lost =>
    obtain rfl := Option.some.inj hn
    exact .same (Session.terminate_sound landing has free (.inr rfl) fun v hv => (lost v hv).elim)
  | dismissing => cases hn
  | dismissed landing has past walk =>
    obtain rfl := Option.some.inj hn
    exact .same (Session.announce_sound landing has past walk _ _)
  | announcing => cases hn
  | failingAtRest ground quiet lost =>
    obtain rfl := Option.some.inj hn
    exact .same (.rest ground quiet rfl)
  | failing floor has past lost =>
    obtain rfl := Option.some.inj hn
    exact .same (.broken floor has past lost)
  | @inside s stack a c call answers control =>
    rcases control with past | ⟨e, rfl, he⟩
    · cases c with
      | work task => cases past
      | ask a => cases past
      | done result => cases hn
      | failed f => cases hn
    · obtain rfl := Option.some.inj hn
      exact call.answer answers he (fun timer ha => by subst ha; exact careful)
        (fun v hv => suits v hv e rfl) smooth

/-! ## The answers of the host -/

/-- What is done leaves an open wait as it is, answered or not. -/
theorem did_open {r : RunId} {n : Node} {w : WaitId} {act : Act}
    (h : s.Open X r n w (some act)) :
    ∃ w', (∀ v ∈ X, v.walk [.did act] = some w') ∧ s.Open (X.map fun _ => w') r n w none := by
  cases h with
  | @held run g wait has held id untimed walk =>
    refine ⟨.standing ⟨g, n⟩ none none, fun v hv => ?_, ?_⟩
    · rw [walk v hv]
      exact Walker.walk_did
    · exact .held has held id untimed fun v hv => mem_map_const hv
  | @queued job run g has going fits =>
    cases fits with
    | @respond _ _ m answer walk =>
      refine ⟨.standing ⟨g, m⟩ none (some (.player answer)), fun v hv => ?_, ?_⟩
      · rw [walk v hv]
        exact Walker.walk_did
      · exact .queued has going (.respond fun v hv => mem_map_const hv)
    | @resolve _ _ m outcome walk =>
      refine ⟨.standing ⟨g, m⟩ none (some (.battle outcome)), fun v hv => ?_, ?_⟩
      · rw [walk v hv]
        exact Walker.walk_did
      · exact .queued has going (.resolve fun v hv => mem_map_const hv)

theorem underway_reply {r : RunId} {run : Run} {g : Graph} {frames : List Frame} {a : Ask}
    (floor : Floor r stack) (has : s.Has r true [] run (some g)) (going : run.Going g)
    (way : Underway X r run g frames (.ask a)) (answer : a.call.Reply)
    (loads : ∀ id ∈ a.target?, s.Reads X id)
    (smooth : ∀ v ∈ X, ((a.resume s answer).on
      (frames ++ .driving r :: .draining :: stack)).isFaulty = false) :
    Carries X (a.signs s answer)
      ((a.resume s answer).on (frames ++ .driving r :: .draining :: stack)) := by
  cases way with
  | reporting arrived given report walk =>
    cases report
    refine .same (Session.report_sound has (fun s' run' c has' hrun report => ?_) _)
    obtain ⟨_, rfl⟩ := hrun
    exact .underway floor has' ⟨going.phase, going.wait, going.script⟩
      (.reporting ⟨arrived.node, arrived.inGraph⟩ given report walk)
  | @handling n a handles plain walk =>
    have did {act : Act} (h : a.act? = some act) : ∀ v ∈ X, v.walk [.did act] =
        some (.standing ⟨g, n⟩ none (some .plain)) := by
      intro v hv
      rw [walk v hv, h]
      exact Walker.walk_did
    have noted (s' : Session) (run' : Run) (c : Control) (has' : s'.Has r true [] run' (some g))
        (hrun : ∃ warnings, run' = { run with warnings }) (report : Reporting r c) :
        Sound (X.map fun _ => .standing ⟨g, n⟩ none (some .plain))
          ⟨s', .following r n Session.firstOutput g :: .driving r :: .draining :: stack, c⟩ := by
      obtain ⟨_, rfl⟩ := hrun
      exact .underway floor has' ⟨going.phase, going.wait, going.script⟩
        (.noting report plain fun v hv => mem_map_const hv)
    cases handles with
    | give => exact .walk (did rfl) (noted s run _ has ⟨run.warnings, rfl⟩ .done)
    | @take node item amount =>
      have resumed : Ask.resume s (.take r node item amount) answer =
          if answer then .finished s else s.report r [.shortfall node item amount] := rfl
      refine .walk (did rfl) ?_
      rw [resumed]
      split
      · exact noted s run _ has ⟨run.warnings, rfl⟩ .done
      · exact Session.report_sound has noted _
  | noting report plain walk =>
    cases report
    refine .same (Session.report_sound has (fun s' run' c has' hrun report => ?_) _)
    obtain ⟨_, rfl⟩ := hrun
    exact .underway floor has' ⟨going.phase, going.wait, going.script⟩ (.noting report plain walk)
  | @triggering n a triggers plain walk =>
    have did {act : Act} (h : a.act? = some act) : ∀ v ∈ X, v.walk [.did act] =
        some (.standing ⟨g, n⟩ none (some .plain)) := by
      intro v hv
      rw [walk v hv, h]
      exact Walker.walk_did
    have done (s' : Session) (run' : Run) (has' : s'.Has r true [] run' (some g))
        (going' : run'.Going g) : Sound (X.map fun _ => .standing ⟨g, n⟩ none (some .plain))
          ⟨s', .triggering r n g :: .driving r :: .draining :: stack, .done .done⟩ :=
      .underway floor has' going' (.triggered plain fun v hv => mem_map_const hv)
    have going' (npcs : List String) : Run.Going { run with npcs } g :=
      ⟨going.phase, going.wait, going.script⟩
    cases triggers with
    | world => exact .walk (did rfl) (done s run has going)
    | spawn => exact .walk (did rfl) (done _ _ (has.setRun _) (going' _))
    | remove => exact .walk (did rfl) (done _ _ (has.setRun _) (going' _))
  | @counting n c body walk =>
    refine .walk (w := .standing ⟨g, n⟩ none (some (.condition (Session.countMeets c answer))))
      (fun v hv => ?_) ?_
    · show v.walk [.counted answer] = _
      rw [walk v hv]
      simp [Walker.walk, Walker.step, body]
    · exact Session.follow_sound floor has going (Walker.output?_condition n _)
        fun v hv => mem_map_const hv
  | handing arrived body walk =>
    exact Session.afterHandOver_carries floor has going arrived body (loads _ rfl) walk _ _ answer smooth

theorem showing_reply {r : RunId} {n : Node} {w : WaitId} {todo : Option Act}
    {frames : List Frame} {a : Ask} (floor : Floor r stack) (begun : w < s.nextWait)
    (opened : s.Open X r n w todo) (showing : Showing r n w todo frames (.ask a))
    (answer : a.call.Reply) :
    Carries X (a.signs s answer)
      ((a.resume s answer).on (frames ++ .driving r :: .draining :: stack)) := by
  cases showing with
  | card =>
    obtain ⟨w', walk, opened'⟩ := did_open opened
    exact .walk walk (.settled floor (settled_of_open opened'))
  | image body =>
    obtain ⟨w', walk, opened'⟩ := did_open opened
    exact .walk walk (.showing floor begun opened' (.shown body))
  | battle body =>
    obtain ⟨w', walk, opened'⟩ := did_open opened
    exact .walk walk (.settled floor (settled_of_open opened'))
  | timer body =>
    have settled : Session.Settled X r
        (if answer then s.setRun r (·.setTimer w true) else s) := by
      split
      · cases opened with
        | @held run g wait has held id untimed walk =>
          have held' : Run.Held (run.setTimer w true) g n { wait with timer := true } :=
            { held with waits := by simp [Run.setTimer, held.waits, id] }
          exact .rests (.held (has.setRun _) held' walk)
        | queued has going fits =>
          have going' : Run.Going (Run.setTimer _ w true) _ :=
            ⟨going.phase, by simp [Run.setTimer, going.wait], going.script⟩
          exact .queued (has.setRun _) going' fits
      · exact settled_of_open opened
    exact .same (.settled floor settled)

/-- **Every answer of the host** leads from a shape to a shape, and the walk goes on by its
signs. -/
theorem reply {a : Ask} (h : Sound X ⟨s, stack, .ask a⟩) (answer : a.call.Reply)
    (loads : ∀ id ∈ a.target?, s.Reads X id)
    (smooth : ∀ v ∈ X, ((a.resume s answer).on stack).isFaulty = false) :
    Carries X (a.signs s answer) ((a.resume s answer).on stack) := by
  cases h with
  | rest _ _ past => cases past
  | delivering ground quiet => exact .same (.delivered ground quiet rfl)
  | delivered _ _ past => cases past
  | resuming ground has held fits cancelling =>
    cases cancelling
    exact .same (.resuming ground has held fits .done)
  | ending ground has lost cancelling =>
    cases cancelling
    exact .same (.ending ground has lost .done)
  | underway floor has going way => exact underway_reply floor has going way answer loads smooth
  | showing floor begun opened showing => exact showing_reply floor begun opened showing answer
  | @filling s stack r draining run graph g site has active free whole walk =>
    refine .walk (w := .heading (g.fill answer).spot) (fun v hv => ?_) ?_
    · rw [walk v hv]
      rfl
    · exact Session.install_sound site has free (whole.fill answer) fun v hv => mem_map_const hv
  | dismissing landing has closed walk => exact .same (Session.dismiss_sound landing has closed walk _ _ _)
  | announcing landing has past walk => exact .same (Session.landed_sound landing has past walk)
  | inside _ _ control =>
    rcases control with past | ⟨e, hc, -⟩
    · cases past
    · cases hc

end Turn.Sound

/-! ## What a shape does not depend on -/

section Weaken

variable {X Y : Option Walker} {s : Session} {r : RunId} {run : Run} {g : Graph}
  {files : FileTree} {flags : FlagStore}

/-- The host may change the files and the flags. -/
theorem Session.Has.change {draining : Bool} {pending : List (RunId × Job)} {graph : Option Graph}
    (h : s.Has r draining pending run graph) :
    Session.Has { s with files, flags } r draining pending run graph :=
  h.of_eq rfl rfl h.draining_eq h.pending_eq h.graph_eq

theorem Job.Fits.weaken {todo : Option Act} {job : Job} (h : job.Fits X todo g)
    (hY : ∀ v ∈ Y, v ∈ X) : job.Fits Y todo g := by
  cases h with
  | enter whole walk => exact .enter whole fun v hv => walk v (hY v hv)
  | respond walk => exact .respond fun v hv => walk v (hY v hv)
  | resolve walk => exact .resolve fun v hv => walk v (hY v hv)

theorem Session.Rests.weaken {draining : Bool} (h : s.Rests X r draining) (hY : ∀ v ∈ Y, v ∈ X) :
    Session.Rests Y r draining { s with files, flags } := by
  cases h with
  | held has held walk => exact .held has.change held fun v hv => walk v (hY v hv)
  | ended has past walk => exact .ended has.change past fun v hv => walk v (hY v hv)

theorem Session.Quiet.weaken (h : s.Quiet X) (hY : ∀ v ∈ Y, v ∈ X) :
    Session.Quiet Y { s with files, flags } := by
  cases h with
  | unbegun hr hc hd hp walk => exact .unbegun hr hc hd hp fun v hv => walk v (hY v hv)
  | begun r rests => exact .begun r (rests.weaken hY)

theorem Session.Settled.weaken (h : s.Settled X r) (hY : ∀ v ∈ Y, v ∈ X) :
    Session.Settled Y r { s with files, flags } := by
  cases h with
  | rests rests => exact .rests (rests.weaken hY)
  | queued has going fits => exact .queued has.change going (fits.weaken hY)

theorem Session.Open.weaken {n : Node} {w : WaitId} {todo : Option Act} (h : s.Open X r n w todo)
    (hY : ∀ v ∈ Y, v ∈ X) : Session.Open Y r n w todo { s with files, flags } := by
  cases h with
  | held has held id untimed walk =>
    exact .held has.change held id untimed fun v hv => walk v (hY v hv)
  | queued has going fits => exact .queued has.change going (fits.weaken hY)

theorem Action.Fits.weaken {n : Node} {action : Action} (h : action.Fits X run g n)
    (hY : ∀ v ∈ Y, v ∈ X) : action.Fits Y run g n := by
  cases h with
  | next inGraph walk => exact .next inGraph fun v hv => walk v (hY v hv)
  | suspend arrived given walk => exact .suspend arrived given fun v hv => walk v (hY v hv)
  | link arrived body walk => exact .link arrived body fun v hv => walk v (hY v hv)
  | finish walk => exact .finish fun v hv => walk v (hY v hv)
  | terminal walk => exact .terminal fun v hv => walk v (hY v hv)

theorem Underway.weaken {frames : List Frame} {c : Control} (h : Underway X r run g frames c)
    (hY : ∀ v ∈ Y, v ∈ X) : Underway Y r run g frames c := by
  cases h with
  | visiting inGraph walk => exact .visiting inGraph fun v hv => walk v (hY v hv)
  | responding walk => exact .responding fun v hv => walk v (hY v hv)
  | resolving walk => exact .resolving fun v hv => walk v (hY v hv)
  | reporting arrived given report walk =>
    exact .reporting arrived given report fun v hv => walk v (hY v hv)
  | handling handles plain walk => exact .handling handles plain fun v hv => walk v (hY v hv)
  | noting report plain walk => exact .noting report plain fun v hv => walk v (hY v hv)
  | triggering triggers plain walk => exact .triggering triggers plain fun v hv => walk v (hY v hv)
  | triggered plain walk => exact .triggered plain fun v hv => walk v (hY v hv)
  | refused plain walk => exact .refused plain fun v hv => walk v (hY v hv)
  | counting body walk => exact .counting body fun v hv => walk v (hY v hv)
  | handing arrived body walk => exact .handing arrived body fun v hv => walk v (hY v hv)
  | stepped fits => exact .stepped (fits.weaken hY)
  | failed lost => exact .failed fun v hv => lost v (hY v hv)

theorem Landing.weaken {draining : Bool} {stack : List Frame} (h : Landing X r draining stack)
    (hY : ∀ v ∈ Y, v ∈ X) : Landing Y r draining stack := by
  cases h with
  | ground h => exact .ground h
  | failing h lost => exact .failing h fun v hv => lost v (hY v hv)
  | driving h => exact .driving h
  | failed h lost => exact .failed h fun v hv => lost v (hY v hv)

/-- A shape stays one if the host changes files and flags, and if less is known of the walk. -/
theorem Turn.Sound.weaken {t : Turn} (h : Sound X t) (hY : ∀ v ∈ Y, v ∈ X) (files : FileTree)
    (flags : FlagStore) :
    Sound Y { t with session := { t.session with files, flags } } := by
  have keep {P : Walker → Prop} (walk : ∀ v ∈ X, P v) : ∀ v ∈ Y, P v := fun v hv => walk v (hY v hv)
  induction h with
  | rest ground quiet past => exact .rest ground (quiet.weaken hY) past
  | entering ground quiet proper => exact .entering ground (quiet.weaken hY) proper
  | delivering ground quiet => exact .delivering ground (quiet.weaken hY)
  | delivered ground quiet past => exact .delivered ground (quiet.weaken hY) past
  | resuming ground has held fits cancelling =>
    exact .resuming ground has.change held (fits.weaken hY) cancelling
  | ending ground has lost cancelling => exact .ending ground has.change (keep lost) cancelling
  | drained floor settled => exact .drained floor (settled.weaken hY)
  | broken floor has past lost => exact .broken floor has.change past (keep lost)
  | taken floor has going fits => exact .taken floor has.change going (fits.weaken hY)
  | underway floor has going way => exact .underway floor has.change going (way.weaken hY)
  | showing floor begun opened showing => exact .showing floor begun (opened.weaken hY) showing
  | settled floor settled => exact .settled floor (settled.weaken hY)
  | filling site has active free whole walk =>
    exact .filling site has.change active free whole (keep walk)
  | landed ground rests => exact .landed ground (rests.weaken hY)
  | linkFailed ground has active free lost =>
    exact .linkFailed ground has.change active free (keep lost)
  | linkBroken ground has past lost => exact .linkBroken ground has.change past (keep lost)
  | terminating landing has free lost =>
    exact .terminating (landing.weaken hY) has.change free (keep lost)
  | dismissing landing has closed walk =>
    exact .dismissing (landing.weaken hY) has.change closed (keep walk)
  | dismissed landing has past walk =>
    exact .dismissed (landing.weaken hY) has.change past (keep walk)
  | announcing landing has past walk =>
    exact .announcing (landing.weaken hY) has.change past (keep walk)
  | failingAtRest ground quiet lost =>
    exact .failingAtRest ground (quiet.weaken hY) (keep lost)
  | failing floor has past lost => exact .failing floor has.change past (keep lost)
  | inside call answers control ih => exact .inside ih answers control

theorem Turn.Sound.forget {t : Turn} (h : Sound X t) : Sound none t :=
  h.weaken (fun _ hv => (Option.not_mem_none _ hv).elim) t.session.files t.session.flags

end Weaken

/-! ## Gentle hosts -/

/-- Whether a host is gentle in a deed: it answers every call, comes back from inside a call
only with an answer for a run that waits, and starts graphs that are whole. -/
def Deed.isGentle (t : Turn) : Deed → Bool
  | .begin entry =>
    entry.isProper &&
      match t.control with
      | .ask a => a.allows entry
      | _ => true
  | .fail _ => false
  | _ => true

/-- The host is gentle. -/
def gentle : Turn → Deed → Prop := fun t d => d.isGentle t

/-- The host is gentle, it lets no timer resume a run from inside its own cancelling, and a
script that cannot be loaded is at fault itself. -/
def orderly (t : Turn) (d : Deed) : Prop :=
  gentle t d ∧ d.isCareful t ∧
    ∀ id ∈ t.target? d, Library.loadsWell t.session.files t.session.library id

instance (t : Turn) (d : Deed) : Decidable (gentle t d) := inferInstanceAs (Decidable (_ = _))

instance (t : Turn) (d : Deed) : Decidable (orderly t d) := inferInstanceAs (Decidable (_ ∧ _))

/-- What a walk may follow: no fault is under way afterwards, and an entry suits the walk. -/
structure Event.Fair (e : Event) (v : Walker) : Prop where
  smooth : e.after.isFaulty = false
  suits : ∀ entry, e.deed = .move → e.before.control = .work (.entry entry) →
    entry.Suits e.before.session v

namespace Turn

variable {X : Option Walker} {s : Session} {stack : List Frame} {t u : Turn} {d : Deed}

/-- Where nothing is under way the session is quiet. -/
theorem Sound.quiet (h : Sound X t) (hs : t.stack = []) (past : t.control.isOver) :
    t.session.Quiet X := by
  cases h with
  | rest ground quiet past => exact quiet
  | underway => simp at hs
  | showing => simp at hs
  | entering | terminating | filling | announcing => cases past
  | delivering | delivered | resuming | ending | drained | broken | taken | settled | landed
    | linkFailed | linkBroken | dismissing | dismissed | failingAtRest | failing | inside =>
    cases hs

/-- Whatever is begun from inside a call comes back to it. -/
theorem Sound.leave {a : Ask} {c : Control} (h : Sound X ⟨s, .asked a :: stack, c⟩)
    (past : c.isOver) : Sound X ⟨s, stack, .ask a⟩ := by
  generalize hs : Frame.asked a :: stack = all at h
  cases h with
  | rest ground quiet _ =>
    cases ground with
    | bottom => cases hs
    | inside d ds ground =>
      cases hs
      exact .delivering ground quiet
  | underway _ _ _ way =>
    cases way with
    | visiting | responding | resolving | counting | handing => cases past
    | reporting | handling | noting | triggering | triggered | refused | stepped | failed => cases hs
  | showing _ _ _ showing => cases showing <;> cases hs
  | inside call answers control =>
    cases hs
    exact call
  | entering | terminating | filling | announcing => cases past
  | delivering | delivered | resuming | ending | drained | broken | taken | settled | landed
    | linkFailed | linkBroken | dismissing | dismissed | failingAtRest | failing => cases hs

/-- What a gentle host begins from inside a call is an answer, or it is begun in place of a
delivery. -/
theorem Sound.enter {a : Ask} {e : Entry} (h : Sound X ⟨s, stack, .ask a⟩) (proper : e.isProper)
    (allowed : a.allows e) : Sound X ⟨s, .asked a :: stack, .work (.entry e)⟩ := by
  by_cases hd : ∃ d, a = .deliver d
  · obtain ⟨d, rfl⟩ := hd
    cases h with
    | rest _ _ past => cases past
    | delivering ground quiet => exact .entering (.inside _ _ ground) quiet proper
    | delivered _ _ past => cases past
    | resuming _ _ _ _ cancelling => cases cancelling
    | ending _ _ _ cancelling => cases cancelling
    | underway _ _ _ way =>
      cases way with
      | reporting _ _ report => cases report
      | handling handles => cases handles
      | noting report => cases report
      | triggering triggers => cases triggers
    | showing _ _ _ showing => cases showing
    | inside _ _ control =>
      rcases control with past | ⟨_, hc, -⟩
      · cases past
      · cases hc
  · have answers : ∀ e, a.allows e = e.isAnswer := by
      intro e'
      cases a with
      | deliver d => exact absurd ⟨d, rfl⟩ hd
      | _ => rfl
    exact .inside h answers (.inr ⟨e, rfl, by rw [← answers]; exact allowed⟩)

/-- **Every deed of a gentle host and every move of its session** leads from a shape to a
shape, and a walk goes on by the signs as far as it may follow. -/
theorem Sound.step (h : Sound X t) (allowed : gentle t d)
    (loads : ∀ id ∈ t.target? d, t.session.Reads X id) (careful : d.isCareful t)
    (does : t.Does d u) (fair : ∀ v ∈ X, Event.Fair ⟨t, d, u⟩ v) : Carries X (Event.signs ⟨t, d, u⟩) u := by
  have smooth : ∀ v ∈ X, u.isFaulty = false := fun v hv => (fair v hv).smooth
  have moves (hn : t.next? = some u) (hd : d = .move) : Carries X (Event.signs ⟨t, d, u⟩) u := by
    subst hd
    exact h.move hn loads careful (fun v hv e hc => (fair v hv).suits e rfl hc) smooth
  cases does with
  | work task => exact moves rfl rfl
  | @receive s frame stack result hf =>
    refine moves ?_ rfl
    cases frame with
    | asked a => exact absurd rfl (hf a)
    | _ => rfl
  | @recover s frame stack fault hf =>
    refine moves ?_ rfl
    cases frame with
    | asked a => exact absurd rfl (hf a)
    | _ => rfl
  | beginAtRest past entry =>
    have quiet : Session.Quiet X _ := h.quiet rfl past
    exact .same (.entering .bottom quiet (Bool.and_eq_true_iff.1 allowed).1)
  | beginInside entry =>
    obtain ⟨proper, allows⟩ := Bool.and_eq_true_iff.1 allowed
    exact .same (h.enter proper allows)
  | leave past => exact .same (h.leave past)
  | reply answer => exact h.reply answer loads smooth
  | fail fault => cases allowed
  | change past files flags => exact .same (h.weaken (fun _ hv => hv) files flags)

end Turn

/-! ## Every turn has a shape -/

section

variable {files : FileTree} {library : Path} {flags : FlagStore} {events : List Event} {t : Turn}

theorem Turn.sound_fresh (X : Option Walker) (hX : ∀ v ∈ X, v = .outside) :
    Turn.Sound X (Session.fresh files library flags).atRest :=
  .rest .bottom (.unbegun rfl rfl rfl rfl hX) rfl

theorem History.sound (h : History orderly (Session.fresh files library flags).atRest events t) :
    Turn.Sound none t := by
  refine h.induct (Turn.sound_fresh none fun v hv => (Option.not_mem_none v hv).elim) ?_
  rintro t u d ih ⟨allowed, careful, loads⟩ does
  obtain ⟨Y, sound, -⟩ := ih.step allowed (fun id hid _ => loads id hid) careful does
    fun v hv => (Option.not_mem_none v hv).elim
  exact sound.forget

end

/-! ## The three shapes at rest -/

namespace Session

/-- No run was begun yet. -/
structure Unbegun (s : Session) : Prop where
  runs : s.runs = []
  current : s.current = none

/-- The current run waits at a node of the current graph. -/
structure Suspended (s : Session) : Prop where
  waits : ∃ r g n wait, s.current = some r ∧ r < s.runs.length ∧ s.graph = some g ∧
    (s.run r).Held g n wait

/-- The current run has ended. -/
structure Ended (s : Session) : Prop where
  graph : s.graph = none
  run : ∃ r, s.current = some r ∧ r < s.runs.length ∧ (s.run r).Over

end Session

/-- **Whenever nothing is under way**, nothing is queued, and either there is no run yet, or
the current one waits at a node of the current graph, or it has ended; and only one of the
three. -/
theorem rests_in_one_shape {files : FileTree} {library : Path} {flags : FlagStore}
    {events : List Event} {t : Turn}
    (h : History orderly (Session.fresh files library flags).atRest events t) (back : t.IsBack []) :
    t.session.pending = [] ∧ t.session.draining = false ∧
    (t.session.Unbegun ∨ t.session.Suspended ∨ t.session.Ended) ∧
    ¬(t.session.Unbegun ∧ t.session.Suspended) ∧ ¬(t.session.Unbegun ∧ t.session.Ended) ∧
    ¬(t.session.Suspended ∧ t.session.Ended) := by
  have apart : ¬(t.session.Unbegun ∧ t.session.Suspended) ∧
      ¬(t.session.Unbegun ∧ t.session.Ended) ∧ ¬(t.session.Suspended ∧ t.session.Ended) := by
    refine ⟨?_, ?_, ?_⟩
    · rintro ⟨unbegun, ⟨r, g, n, wait, current, -⟩⟩
      rw [unbegun.current] at current
      cases current
    · rintro ⟨unbegun, ended⟩
      obtain ⟨r, current, -⟩ := ended.run
      rw [unbegun.current] at current
      cases current
    · rintro ⟨⟨r, g, n, wait, -, -, graph, -⟩, ended⟩
      rw [ended.graph] at graph
      cases graph
  have quiet := h.sound.quiet back.1 back.2
  cases quiet with
  | unbegun runs current draining pending =>
    exact ⟨pending, draining, .inl ⟨runs, current⟩, apart⟩
  | begun r rests =>
    cases rests with
    | held has held =>
      have suspended : t.session.Suspended :=
        ⟨r, _, _, _, has.current, has.lt, has.graph_eq, has.run_eq ▸ held⟩
      exact ⟨has.pending_eq, has.draining_eq, .inr (.inl suspended), apart⟩
    | ended has past =>
      have ended : t.session.Ended := ⟨has.graph_eq, r, has.current, has.lt, has.run_eq ▸ past⟩
      exact ⟨has.pending_eq, has.draining_eq, .inr (.inr ended), apart⟩

/-! ### A run that waits -/

/-- A line of speech. -/
def hello : Node := ⟨"hello", .dialogue { text := "Hello" }⟩

/-- A graph of a single line. -/
def greeting : Graph := { script := { id := "greeting", nodes := [hello] }, entry := hello }

/-- The line is shown, and the player lets it stand. -/
def greetingShown : List Deed :=
  [.begin (.startGraph greeting none), .move, .move, .move, .move, .move, .move,
    .reply (.engage (.dialogue (Dialogue.card { text := "Hello" } "hello"))) (), .move, .move]

/-- The run waits, and awaits the input of the player. -/
theorem greeting_waits :
    let start := (Session.fresh (.empty []) (.ofString "scripts") {}).atRest
    ∃ t, start.play? greetingShown = some t ∧ t.session.Suspended ∧
      t.session.activity = .awaitingInput := by
  intro start
  have orderly : ∀ e ∈ start.record greetingShown, orderly e.before e.deed := by decide
  have reached : ∃ t, start.play? greetingShown = some t ∧ t.stack = [] ∧ t.control.isOver ∧
      t.session.current.isSome ∧ t.session.graph.isSome ∧ t.session.activity = .awaitingInput :=
    ⟨start.play greetingShown, Turn.play?_eq (by decide), by decide, by decide, by decide, by decide,
      by decide⟩
  obtain ⟨t, played, hs, past, current, graph, awaits⟩ := reached
  have shapes := rests_in_one_shape (Turn.history_of_play? played orderly) ⟨hs, past⟩
  refine ⟨t, played, ?_, awaits⟩
  rcases shapes.2.2.1 with unbegun | suspended | ended
  · rw [unbegun.current] at current
    cases current
  · exact suspended
  · rw [ended.graph] at graph
    cases graph

end Questline

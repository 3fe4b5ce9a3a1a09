import Mathlib.Logic.Relation
import Questline.Proofs.Standing

/-!
# Answers from inside a call, and afterwards

A host may answer a scene before the call that gives it has come back.  The run is then only
queued: it goes on when the one that drives it has come to rest.  Or the host lets the call come
back first, waits until nothing is under way, and begins with the answer anew.

A player is a host without its manners: what is responded to each call, and what is answered to
each scene, by what was exchanged before.  A sitting is what becomes of a player who answers in one
of the two ways.  The two ways part at every answer, and meet again when the run goes on.  So they
lead through the same exchanges to the same end, whatever the graphs do on the way, and in whatever
calls the host fails.

* `Player`, `Exchange`: who answers, and what was asked and answered.
* `Sits`: a sitting, in one of the two ways.
* `Player.Ends.unique`: a sitting ends in one way.
* `Turn.Catches`: what an answer still has to go through.
* `answers_inside_as_afterwards`: both ways lead to the same.
-/

namespace Questline

open Json (Value)

/-! ## Moves of the session -/

/-- The session's own moves lead from one turn to the other. -/
inductive Turn.Moves : Turn → Turn → Prop
  | refl (t : Turn) : Moves t t
  | head {t u v : Turn} (hn : t.next? = some u) (h : Moves u v) : Moves t v

namespace Turn.Moves

variable {t u v : Turn}

theorem single (hn : t.next? = some u) : t.Moves u := .head hn (.refl u)

theorem leads (h : t.Moves u) : t.Leads anyDeed u := by
  induction h with
  | refl t => exact .refl t
  | head hn _ ih => exact (Turn.Leads.step (.refl _) trivial (Turn.does_of_next? hn)).trans ih

/-- Where it is not the session's move, there is nothing to move. -/
theorem eq_of_still (h : t.Moves u) (still : t.next? = none) : u = t := by
  cases h with
  | refl => rfl
  | head hn => cases still.symm.trans hn

/-- The session's moves are determined. -/
theorem after (h : t.Moves v) (hn : t.next? = some u) : v = t ∨ u.Moves v := by
  cases h with
  | refl => exact .inl rfl
  | head hn' h => cases hn.symm.trans hn'; exact .inr h

end Turn.Moves

/-! ## Players -/

/-- A call of the host, the response to it, and the answer to the scene that it gives, if there was
one. -/
structure Exchange where
  ask : Ask
  response : Except Fault ask.call.Reply
  answer : Option Value := none

/-- What is responded to a call, and what is answered to the scene it gives, after what was
exchanged before. -/
structure Player where
  respond : List Exchange → (a : Ask) → Except Fault a.call.Reply
  answer : List Exchange → Ask → Option Value

/-- What the host begins in order to answer a scene. -/
def Ask.begins? (v : Value) : Ask → Option Entry
  | .engage (.dialogue _) | .engage (.choice _) => some (.advance v)
  | .battle _ handle => some (.battleOver handle v)
  | _ => none

/-- What the host begins in order to answer a scene, unless the call that gives it failed. -/
def Exchange.begins? (x : Exchange) : Option Entry :=
  match x.response with
  | .ok _ => x.answer.bind fun v => x.ask.begins? v
  | .error _ => none

/-- The exchange at a call. -/
def Player.exchange (p : Player) (log : List Exchange) (a : Ask) : Exchange :=
  ⟨a, p.respond log a, p.answer log a⟩

/-- Whether a call presents no image, hands over the answers without a write that is still under
way, and is answered with a choice if a choice is to be made. -/
def Ask.isPrompt (answer : Option Value) : (a : Ask) → Except Fault a.call.Reply → Bool
  | .engage (.image _), _ => false
  | .engage (.choice _), .ok _ => answer != some .null
  | .handOver _ _ _ _ _, .ok (.pending _) => false
  | _, _ => true

/-- Whether an exchange is about no image and no write that is under way, and the answer to a choice
is one. -/
def Exchange.isPrompt (x : Exchange) : Bool := x.ask.isPrompt x.answer x.response

/-! ## Sittings -/

/-- When a scene is answered: from inside the call that gives it, or when nothing is under way any
more. -/
inductive Way where
  | inside
  | afterwards
  deriving DecidableEq

/-- `Meets w x s stack due t`: an exchange at a call, in one of the two ways.  The turn `t` comes
next, and the entry `due` is to be begun when nothing is under way. -/
inductive Meets (x : Exchange) (s : Session) (stack : List Frame) : Way → Option Entry → Turn → Prop
  | plain {w : Way} (h : x.begins? = none) :
      Meets x s stack w none ((⟨s, stack, .ask x.ask⟩ : Turn).conclude x.ask x.response)
  | inside {e : Entry} {s' : Session} {c : Control} (h : x.begins? = some e)
      (works : Turn.Moves ⟨s, .asked x.ask :: stack, .work (.entry e)⟩ ⟨s', .asked x.ask :: stack, c⟩)
      (past : c.isOver) :
      Meets x s stack .inside none ((⟨s', stack, .ask x.ask⟩ : Turn).conclude x.ask x.response)
  | afterwards {e : Entry} (h : x.begins? = some e) :
      Meets x s stack .afterwards (some e) ((⟨s, stack, .ask x.ask⟩ : Turn).conclude x.ask x.response)

/-- A sitting: what was exchanged so far, the answer that is still to be begun, and the turn. -/
inductive Sits (w : Way) (p : Player) (start : Turn) : List Exchange → Option Entry → Turn → Prop
  | nil : Sits w p start [] none start
  | move {log : List Exchange} {due : Option Entry} {t u : Turn} (h : Sits w p start log due t)
      (hn : t.next? = some u) : Sits w p start log due u
  | meet {log : List Exchange} {s : Session} {stack : List Frame} {a : Ask} {due : Option Entry}
      {t : Turn} (h : Sits w p start log none ⟨s, stack, .ask a⟩)
      (meets : Meets (p.exchange log a) s stack w due t) :
      Sits w p start (log ++ [p.exchange log a]) due t
  | resume {log : List Exchange} {s : Session} {c : Control} {e : Entry}
      (h : Sits w p start log (some e) ⟨s, [], c⟩) (past : c.isOver) :
      Sits w p start log none (s.begin (.entry e))

/-- A sitting ends where nothing is under way and nothing is still to be begun. -/
def Player.Ends (p : Player) (w : Way) (start : Turn) (log : List Exchange) (t : Turn) : Prop :=
  Sits w p start log none t ∧ t.stack = [] ∧ t.control.isOver

variable {w w' : Way} {p : Player} {start t u T : Turn} {log : List Exchange} {due : Option Entry}
  {e : Entry} {s s' : Session} {stack : List Frame} {c : Control} {x : Exchange} {a : Ask}

theorem Turn.leads_conclude (response : Except Fault a.call.Reply) :
    Turn.Leads anyDeed ⟨s, stack, .ask a⟩ ((⟨s, stack, .ask a⟩ : Turn).conclude a response) := by
  cases response with
  | ok answer => exact .step (.refl _) trivial (.reply answer)
  | error f => exact .step (.refl _) trivial (.fail f)

/-- **A sitting is a history.** -/
theorem Sits.leads (h : Sits w p start log due t) : start.Leads anyDeed t := by
  induction h with
  | nil => exact .refl start
  | move _ hn ih => exact ih.step trivial (Turn.does_of_next? hn)
  | meet _ meets ih =>
    cases meets with
    | plain => exact ih.trans (Turn.leads_conclude _)
    | inside _ works past =>
      have inside := (ih.step trivial (.beginInside _)).trans works.leads
      exact (inside.step trivial (.leave past)).trans (Turn.leads_conclude _)
    | afterwards => exact ih.trans (Turn.leads_conclude _)
  | resume _ past ih => exact ih.step trivial (.beginAtRest past _)

/-! ## Only one way to go on -/

/-- The session's moves come to one turn at which it is not the session's move. -/
theorem Turn.Moves.unique {v : Turn} (h : t.Moves u) (h' : t.Moves v) (still : u.next? = none)
    (still' : v.next? = none) : u = v := by
  induction h with
  | refl => exact (h'.eq_of_still still).symm
  | head hn _ ih =>
    rcases h'.after hn with rfl | h'
    · cases hn.symm.trans still'
    · exact ih h' still

/-- An exchange has one outcome. -/
theorem Meets.unique {due' : Option Entry} (h : Meets x s stack w due t) (h' : Meets x s stack w due' u) :
    due = due' ∧ t = u := by
  cases h with
  | plain hx =>
    cases h' with
    | plain => exact ⟨rfl, rfl⟩
    | inside he | afterwards he => cases hx.symm.trans he
  | inside hx works past =>
    cases h' with
    | plain he => cases hx.symm.trans he
    | inside he works' past' =>
      cases hx.symm.trans he
      have still {s : Session} {c : Control} (past : c.isOver) :
          Turn.next? ⟨s, .asked x.ask :: stack, c⟩ = none := by
        cases c with
        | work | ask => cases past
        | done | failed => rfl
      cases works.unique works' (still past) (still past')
      exact ⟨rfl, rfl⟩
  | afterwards hx =>
    cases h' with
    | plain he => cases hx.symm.trans he
    | afterwards he =>
      cases hx.symm.trans he
      exact ⟨rfl, rfl⟩

/-- A sitting goes on by one move, exchange or beginning. -/
inductive Sits.Step (w : Way) (p : Player) :
    List Exchange × Option Entry × Turn → List Exchange × Option Entry × Turn → Prop
  | move {log : List Exchange} {due : Option Entry} {t u : Turn} (hn : t.next? = some u) :
      Step w p (log, due, t) (log, due, u)
  | meet {log : List Exchange} {s : Session} {stack : List Frame} {a : Ask} {due : Option Entry} {t : Turn}
      (meets : Meets (p.exchange log a) s stack w due t) :
      Step w p (log, none, ⟨s, stack, .ask a⟩) (log ++ [p.exchange log a], due, t)
  | resume {log : List Exchange} {s : Session} {c : Control} {e : Entry} (past : c.isOver) :
      Step w p (log, some e, ⟨s, [], c⟩) (log, none, s.begin (.entry e))

theorem Sits.steps (h : Sits w p start log due t) :
    Relation.ReflTransGen (Sits.Step w p) ([], none, start) (log, due, t) := by
  induction h with
  | nil => exact .refl
  | move _ hn ih => exact ih.tail (.move hn)
  | meet _ meets ih => exact ih.tail (.meet meets)
  | resume _ past ih => exact ih.tail (.resume past)

theorem Sits.Step.rightUnique (w : Way) (p : Player) : Relator.RightUnique (Sits.Step w p) := by
  intro a b c hb hc
  cases hb with
  | move hn =>
    cases hc with
    | move hn' => cases hn.symm.trans hn'; rfl
    | meet => cases hn
    | @resume _ _ c _ past =>
      cases c with
      | work | ask => cases past
      | done | failed => cases hn
  | meet meets =>
    cases hc with
    | move hn' => cases hn'
    | meet meets' =>
      obtain ⟨rfl, rfl⟩ := meets.unique meets'
      rfl
  | @resume _ _ c _ past =>
    cases hc with
    | move hn' =>
      cases c with
      | work | ask => cases past
      | done | failed => cases hn'
    | resume => rfl

/-- Nothing follows the end of a sitting. -/
theorem Player.Ends.no_step (h : p.Ends w start log t) (b : List Exchange × Option Entry × Turn) :
    ¬Sits.Step w p (log, none, t) b := by
  obtain ⟨s, stack, c⟩ := t
  obtain ⟨-, rest, past⟩ := h
  obtain rfl : stack = [] := rest
  intro step
  cases c with
  | work | ask => cases past
  | done | failed =>
    cases step with
    | move hn => cases hn

/-- **A sitting ends in one way.** -/
theorem Player.Ends.unique {log' : List Exchange} (h : p.Ends w start log t) (h' : p.Ends w start log' u) :
    log = log' ∧ t = u := by
  have last {a b : List Exchange × Option Entry × Turn} (none : ∀ c, ¬Sits.Step w p a c)
      (steps : Relation.ReflTransGen (Sits.Step w p) a b) : b = a := by
    rcases steps.cases_head with same | ⟨c, step, -⟩
    · exact same.symm
    · exact absurd step (none c)
  have same : (log', (none : Option Entry), u) = (log, none, t) := by
    rcases Relation.ReflTransGen.total_of_right_unique (Sits.Step.rightUnique w p) h.1.steps h'.1.steps with g | g
    · exact last h.no_step g
    · exact (last h'.no_step g).symm
  cases same
  exact ⟨rfl, rfl⟩

/-! ## Catching up -/

/-- The session's moves lead to the turn `T`, once the answer that is still to be begun is begun when
nothing is under way. -/
def Turn.Catches (t : Turn) (T : Turn) : Option Entry → Prop
  | none => t.Moves T
  | some e => ∃ s c, t.Moves ⟨s, [], c⟩ ∧ Control.isOver c ∧ (s.begin (.entry e)).Moves T

theorem Sits.moves (h : Sits w p start log due t) (m : t.Moves u) : Sits w p start log due u := by
  induction m with
  | refl => exact h
  | head hn _ ih => exact ih (h.move hn)

theorem Sits.catches (h : Sits w p start log due t) (m : t.Catches T due) :
    Sits w p start log none T := by
  cases due with
  | none => exact h.moves m
  | some e =>
    obtain ⟨s, c, rests, past, resumes⟩ := m
    exact ((h.moves rests).resume past).moves resumes

/-- At a call there is nothing to catch up with. -/
theorem Turn.Catches.at_ask (m : Turn.Catches ⟨s, stack, .ask a⟩ T due) :
    due = none ∧ T = ⟨s, stack, .ask a⟩ := by
  cases due with
  | none => exact ⟨rfl, Turn.Moves.eq_of_still m rfl⟩
  | some e =>
    obtain ⟨s', c, rests, past, -⟩ := m
    cases rests.eq_of_still rfl
    cases past

/-- Neither is there when nothing is under way. -/
theorem Turn.Catches.at_rest (m : Turn.Catches ⟨s, [], c⟩ T none) (past : c.isOver) : T = ⟨s, [], c⟩ := by
  refine Turn.Moves.eq_of_still m ?_
  cases c with
  | work | ask => cases past
  | done | failed => rfl

theorem Turn.Catches.move (m : t.Catches T due) (hn : t.next? = some u) :
    u.Catches T due ∨ T = t ∧ due = none := by
  cases due with
  | none =>
    rcases Turn.Moves.after m hn with hT | m
    · exact .inr ⟨hT, rfl⟩
    · exact .inl m
  | some e =>
    obtain ⟨s, c, rests, past, resumes⟩ := m
    rcases rests.after hn with hs | rests
    · subst hs
      cases c with
      | work | ask => cases past
      | done | failed => cases hn
    · exact .inl ⟨s, c, rests, past, resumes⟩

/-! ## An answer -/

/-- A host that may fail in every call, but never comes back from inside one. -/
def patient : Habits where
  fails _ := True
  answers _ := False
  delivers := False

theorem Quay.eq_nil {r : RunId} (quay : Quay patient r stack) : stack = [] := by
  cases quay with
  | base base =>
    cases base with
    | bottom => rfl
    | inside delivers => cases delivers
  | linking delivers => cases delivers

/-- The run `r` goes on with an answer to the card it waits on. -/
theorem Session.advance_eq_resume {r : RunId} {wait : Wait} {g : Graph} {n : Node} {v : Value}
    (current : s.current = some r) (phase : (s.run r).phase = .suspended) (hw : (s.run r).wait = some wait)
    (untimed : wait.timer = false) (player : wait.kind.isForPlayer) (made : ¬(wait.kind = .choice ∧ v = .null))
    (graph : s.graph = some g) (node : g.node? wait.node = some n) :
    s.advance v = s.resume r (.respond n g v) := by
  simp only [advance, current, phase, hw, player, Bool.not_true, Bool.false_eq_true, if_false, if_neg made,
    resumeInput, graph, node]
  refine s.withoutTimer_of_untimed r (fun w hw' => ?_) _ _
  obtain rfl := Option.some.inj (hw.symm.trans hw')
  exact untimed

/-- **An answer is taken up**, whether the queue is worked off or not. -/
theorem Session.enter_answer {r : RunId} {wait : Wait} {frames : List Frame} {v : Value}
    (stays : s.Stays r true) (phase : (s.run r).phase = .suspended)
    (hw : (s.run r).wait = some wait) (untimed : wait.timer = false)
    (displays : Displays r wait frames (.ask a)) (he : a.begins? v = some e)
    {reply : a.call.Reply} (prompt : a.isPrompt (some v) (.ok reply)) :
    frames = [] ∧ (∀ s' answer, a.resume s' answer = .finished s') ∧
      ∃ job, ∀ s' : Session, s'.current = s.current → s'.runs = s.runs → s'.graph = s.graph →
        s'.enter e = s'.resume r job := by
  obtain ⟨graph, has⟩ := stays.has
  have clears {s' : Session} (runs : s'.runs = s.runs) (job : Job) : s'.clear r job = s'.resume r job := by
    have hw' : (s'.run r).wait = some wait := by rw [run, runs]; exact hw
    refine s'.withoutTimer_of_untimed r (fun w hw => ?_) _ _
    obtain rfl := Option.some.inj (hw'.symm.trans hw)
    exact untimed
  have advances (kind : wait.kind = .dialogue ∨ wait.kind = .choice ∧ v ≠ .null) :
      ∃ job, ∀ s' : Session, s'.current = s.current → s'.runs = s.runs → s'.graph = s.graph →
        s'.advance v = s'.resume r job := by
    have ne : wait.kind ≠ .link := by rcases kind with kind | ⟨kind, -⟩ <;> simp [kind]
    obtain ⟨g, n, hg, hn⟩ := stays.moored wait hw ne
    refine ⟨.respond n g v, fun s' current runs graph => ?_⟩
    have player : wait.kind.isForPlayer = true := by
      rcases kind with kind | ⟨kind, -⟩ <;> simp [kind, WaitKind.isForPlayer]
    have made : ¬(wait.kind = .choice ∧ v = .null) := by
      rintro ⟨hk, hv⟩
      rcases kind with kind | ⟨-, ne⟩
      · cases hk.symm.trans kind
      · exact ne hv
    have run' : s'.run r = s.run r := by rw [run, runs]; rfl
    exact advance_eq_resume (current.trans has.current) (by rw [run', phase]) (by rw [run', hw]) untimed player
      made (graph.trans hg) hn
  cases displays with
  | @card c kind still =>
    cases c with
    | dialogue => cases he; exact ⟨rfl, fun _ _ => rfl, advances (.inl kind)⟩
    | choice =>
      cases he
      refine ⟨rfl, fun _ _ => rfl, advances (.inr ⟨kind, ?_⟩)⟩
      rintro rfl
      cases prompt
    | image => exact absurd rfl still
  | @image c _ kind => cases c <;> first | (cases he; done) | cases kind
  | shown past => cases past
  | timer => cases he
  | @battle _ node kind =>
    cases he
    obtain ⟨g, n, hg, -⟩ := stays.moored wait hw (by simp [kind])
    refine ⟨rfl, fun _ _ => rfl, .resolve node g v, fun s' current runs graph => ?_⟩
    have run' : s'.run r = s.run r := by rw [run, runs]; rfl
    have waits : s'.isWaiting r wait.id = true := by
      simp [isWaiting, Run.isWaitingOn, current.trans has.current, run', phase, hw]
    simp only [enter, battleOver, waits, if_true, graph.trans hg]
    exact clears runs _

theorem Ask.isShowing_of_begins? {v : Value} (h : a.begins? v = some e) : a.isShowing := by
  cases a <;> first | rfl | cases h

theorem Ask.isAnswer_of_begins? {v : Value} (h : a.begins? v = some e) : e.isAnswer := by
  cases a with
  | engage card => cases card <;> cases h <;> rfl
  | battle => cases h; rfl
  | _ => cases h

theorem Exchange.begins?_eq_some (h : x.begins? = some e) :
    ∃ answer v, x.response = .ok answer ∧ x.answer = some v ∧ x.ask.begins? v = some e := by
  obtain ⟨a, response, answer⟩ := x
  cases response with
  | error => cases h
  | ok reply =>
    obtain ⟨v, hv, he⟩ := Option.bind_eq_some_iff.1 h
    exact ⟨reply, v, rfl, hv, he⟩

/-- The session in which the run `r`, which waited, goes on while the queue is worked off. -/
def Session.resumed (s : Session) (r : RunId) : Session :=
  { s.setRun r fun run => { run with wait := none, phase := .running, activity := .running } with
    pending := []
    draining := true }

theorem Session.resume_of_draining (pending : s.pending = []) (draining : s.draining = true) (r : RunId)
    (job : Job) : s.resume r job = .finished { s.resumed r with pending := [(r, job)] } := by
  have draining' : (s.setRun r fun run =>
      { run with wait := none, phase := .running, activity := .running }).draining = true := draining
  have pending' : (s.setRun r fun run =>
      { run with wait := none, phase := .running, activity := .running }).pending = [] := pending
  simp only [resume, enqueue, draining', pending', if_true, List.nil_append, resumed]

theorem Session.resume_of_not_draining (pending : s.pending = []) (r : RunId) (job : Job) :
    { s with draining := false }.resume r job =
      (Move.finished { s.resumed r with pending := [(r, job)] }).under .draining := by
  simp only [resume, enqueue, setRun, pending, Bool.false_eq_true, if_false, List.nil_append, resumed]

/-- Where an answer lets the run go on, both ways of answering come to that. -/
theorem meets_catches_of_resumes {r : RunId} {job : Job} (pending : s.pending = []) (draining : s.draining = true)
    (hx : x.begins? = some e) (resumes : ∀ s' answer, x.ask.resume s' answer = .finished s')
    (enters : ∀ s' : Session, s'.current = s.current → s'.runs = s.runs → s'.graph = s.graph →
      s'.enter e = s'.resume r job) :
    (∀ w, ∃ due t, Meets x s [.driving r, .draining] w due t) ∧
      ∀ {w due t}, Meets x s [.driving r, .draining] w due t →
        t.Catches ⟨s.resumed r, [.draining], .work (.drive r job)⟩ due := by
  obtain ⟨reply, v, hr, -, -⟩ := Exchange.begins?_eq_some hx
  have inside : s.enter e = .finished { s.resumed r with pending := [(r, job)] } :=
    (enters s rfl rfl rfl).trans (Session.resume_of_draining pending draining r job)
  have atRest : { s with draining := false }.enter e =
      (Move.finished { s.resumed r with pending := [(r, job)] }).under .draining := by
    rw [enters { s with draining := false } rfl rfl rfl]
    exact Session.resume_of_not_draining pending r job
  have begun : Turn.next? ⟨s, [.asked x.ask, .driving r, .draining], .work (.entry e)⟩ =
      some ⟨{ s.resumed r with pending := [(r, job)] }, [.asked x.ask, .driving r, .draining], .done .done⟩ := by
    change some ((s.enter e).on _) = _
    rw [inside]
    rfl
  have begun' : Turn.next? ({ s with draining := false }.begin (.entry e)) =
      some ⟨{ s.resumed r with pending := [(r, job)] }, [.draining], .done .done⟩ := by
    change some (({ s with draining := false }.enter e).on []) = _
    rw [atRest]
    rfl
  have rests : Turn.next? ⟨s, [.draining], .done .done⟩ =
      some ⟨{ s with draining := false }, [], .done .done⟩ := by
    change some (s.drain.on []) = _
    rw [Session.drain, pending]
    rfl
  refine ⟨fun w => ?_, fun meets => ?_⟩
  · cases w with
    | inside => exact ⟨_, _, .inside hx (.single begun) rfl⟩
    | afterwards => exact ⟨_, _, .afterwards hx⟩
  · cases meets with
    | plain h => cases h.symm.trans hx
    | inside h works past =>
      cases h.symm.trans hx
      rcases works.after begun with hs | works
      · cases hs
        cases past
      · cases works.eq_of_still rfl
        rw [hr, Turn.conclude, Turn.reply, resumes]
        exact .head rfl (.single rfl)
    | afterwards h =>
      cases h.symm.trans hx
      rw [hr, Turn.conclude, Turn.reply, resumes]
      exact ⟨{ s with draining := false }, .done .done, .head rfl (.single rests), rfl,
        .head begun' (.single rfl)⟩

/-- **Both ways of answering meet again** where the run goes on. -/
theorem meets_catches (stands : Turn.Stands patient ⟨s, stack, .ask x.ask⟩) (hx : x.begins? = some e)
    (prompt : x.isPrompt) :
    ∃ T, (∀ w, ∃ due t, Meets x s stack w due t) ∧
      ∀ {w due t}, Meets x s stack w due t → t.Catches T due := by
  obtain ⟨reply, v, hr, hv, he⟩ := Exchange.begins?_eq_some hx
  obtain ⟨frames, r, wait, below, rfl, quay, opens, displays⟩ :=
    stands.shows (Ask.isShowing_of_begins? he)
  obtain rfl := quay.eq_nil
  cases opens with
  | answered answers => obtain ⟨_, hf⟩ := answers; cases hf
  | held stays phase hw untimed =>
    rw [Exchange.isPrompt, hv, hr] at prompt
    obtain ⟨rfl, resumes, job, enters⟩ :=
      Session.enter_answer stays phase hw untimed displays he prompt
    obtain ⟨graph, has⟩ := stays.has
    have stack' : ([] : List Frame) ++ [.driving r, .draining] = [.driving r, .draining] := rfl
    rw [stack']
    exact ⟨_, meets_catches_of_resumes has.pending_eq has.draining_eq hx resumes enters⟩

/-! ## Both ways -/

/-- In a sitting whose answers come afterwards the host never comes back from inside a call. -/
theorem Sits.stands (h : Sits .afterwards p start log due t) (begins : Turn.Stands patient start) :
    Turn.Stands patient t ∧ ∀ e ∈ due, Entry.isAnswer e := by
  have concludes {s : Session} {stack : List Frame} {a : Ask} (ht : Turn.Stands patient ⟨s, stack, .ask a⟩)
      (response : Except Fault a.call.Reply) :
      Turn.Stands patient ((⟨s, stack, .ask a⟩ : Turn).conclude a response) := by
    cases response with
    | ok answer => exact ht.reply answer
    | error f => exact ht.fail trivial f
  induction h with
  | nil => exact ⟨begins, fun _ he => (Option.not_mem_none _ he).elim⟩
  | move _ hn ih => exact ⟨ih.1.next hn, ih.2⟩
  | meet _ meets ih =>
    cases meets with
    | plain => exact ⟨concludes ih.1 _, fun _ he => (Option.not_mem_none _ he).elim⟩
    | afterwards he =>
      refine ⟨concludes ih.1 _, fun _ hdue => ?_⟩
      obtain ⟨_, v, -, -, answers⟩ := Exchange.begins?_eq_some he
      cases hdue
      exact Ask.isAnswer_of_begins? answers
  | resume _ past ih =>
    have answer := ih.2 _ rfl
    refine ⟨.entering .bottom (ih.1.quiet past) (Entry.isProper_of_isAnswer answer) fun hd => ?_, fun _ he =>
      (Option.not_mem_none _ he).elim⟩
    rw [Entry.not_isDelivery_of_isAnswer answer] at hd
    cases hd

/-- **What is sat through in one way** can be sat through in the other, up to a turn with which the
first only has to catch up. -/
theorem Sits.other (h : Sits w p start log due t) (begins : Turn.Stands patient start)
    (prompt : ∀ x ∈ log, x.isPrompt) (w' : Way) : ∃ T, t.Catches T due ∧ Sits w' p start log none T := by
  induction h generalizing w' with
  | nil => exact ⟨start, .refl start, .nil⟩
  | move _ hn ih =>
    obtain ⟨T, catches, sits⟩ := ih prompt w'
    rcases catches.move hn with catches | ⟨rfl, rfl⟩
    · exact ⟨T, catches, sits⟩
    · exact ⟨_, .refl _, sits.move hn⟩
  | @meet log s stack a due t _ meets ih =>
    have before : ∀ x ∈ log, x.isPrompt := fun x hx => prompt x (List.mem_append_left _ hx)
    obtain ⟨T, catches, sits⟩ := ih before w'
    obtain ⟨-, rfl⟩ := catches.at_ask
    cases hx : (p.exchange log a).begins? with
    | none =>
      -- Nothing is answered: both ways do the same.
      cases meets with
      | plain => exact ⟨_, .refl _, sits.meet (.plain hx)⟩
      | inside he | afterwards he => cases hx.symm.trans he
    | some e =>
      obtain ⟨T, catches', sits'⟩ := ih before .afterwards
      obtain ⟨-, rfl⟩ := catches'.at_ask
      have last := prompt _ (List.mem_append_right _ (List.mem_singleton_self _))
      obtain ⟨T, goes, catchUp⟩ := meets_catches (sits'.stands begins).1 hx last
      obtain ⟨due', t', meets'⟩ := goes w'
      exact ⟨T, catchUp meets, (sits.meet meets').catches (catchUp meets')⟩
  | resume _ past ih =>
    obtain ⟨T, ⟨s', c', rests, -, resumes⟩, sits⟩ := ih prompt w'
    have still : ∀ {s : Session} {c : Control}, c.isOver → Turn.next? ⟨s, [], c⟩ = none := by
      intro s c past
      cases c with
      | work | ask => cases past
      | done | failed => rfl
    cases rests.eq_of_still (still past)
    exact ⟨T, resumes, sits⟩

/-- **Answering from inside a call is answering afterwards.**  A player begins a run, or whatever else
is no end of a write, when nothing is under way, after any history.  Then it ends after the same
exchanges, in the same session and with the same fault if any, whether the player answers each scene
from inside the call that gives it or when nothing is under way any more; and as long as it does not
end, the same calls are made. -/
theorem answers_inside_as_afterwards {h : Habits} {files : FileTree} {library : Path} {flags : FlagStore}
    {events : List Event} {s : Session} {c : Control}
    (history : History h.allow (Session.fresh files library flags).atRest events ⟨s, [], c⟩)
    (past : c.isOver) {e : Entry} (proper : e.isProper) (begins : e.isDelivery = false) (p : Player)
    {log : List Exchange} (prompt : ∀ x ∈ log, x.isPrompt) :
    (∀ t, p.Ends .inside (s.begin (.entry e)) log t ↔ p.Ends .afterwards (s.begin (.entry e)) log t) ∧
      ((∃ due t, Sits .inside p (s.begin (.entry e)) log due t) ↔
        ∃ due t, Sits .afterwards p (s.begin (.entry e)) log due t) := by
  have stands : Turn.Stands patient (s.begin (.entry e)) :=
    .entering .bottom (history.stands.quiet past) proper fun hd => by
      rw [begins] at hd
      cases hd
  have ends {w : Way} (w' : Way) {t : Turn} (ends : p.Ends w (s.begin (.entry e)) log t) :
      p.Ends w' (s.begin (.entry e)) log t := by
    obtain ⟨sits, rests, done'⟩ := ends
    obtain ⟨T, catches, sits'⟩ := sits.other stands prompt w'
    obtain ⟨s', stack, c'⟩ := t
    obtain rfl : stack = [] := rests
    cases catches.at_rest done'
    exact ⟨sits', rfl, done'⟩
  refine ⟨fun t => ⟨ends .afterwards, ends .inside⟩, ?_, ?_⟩
  · rintro ⟨due, t, sits⟩
    obtain ⟨T, -, sits'⟩ := sits.other stands prompt .afterwards
    exact ⟨none, T, sits'⟩
  · rintro ⟨due, t, sits⟩
    obtain ⟨T, -, sits'⟩ := sits.other stands prompt .inside
    exact ⟨none, T, sits'⟩

/-! ### A line that is answered -/

/-- A player who lets every line stand, and whose host leaves out what it can. -/
def reader : Player where
  respond _
    | .engage _ => .ok ()
    | a => a.call.ignored
  answer _ _ := some .null

/-- The session's moves, as many as there are. -/
theorem Turn.moves_of_play? {n : Nat} (h : (t.play? (List.replicate n .move)).isSome) :
    t.Moves (t.play (List.replicate n .move)) := by
  induction n generalizing t with
  | zero => exact .refl t
  | succ n ih =>
    obtain ⟨u, hu⟩ := Option.isSome_iff_exists.1 h
    simp only [List.replicate_succ, play?, after?, Option.bind_eq_some_iff] at hu
    obtain ⟨v, hv, hu⟩ := hu
    have tail := ih (by rw [hu]; rfl)
    rw [play, hu, Option.getD_some] at tail
    refine .head hv ?_
    have whole : t.play (List.replicate (n + 1) .move) = u := by
      simp [play, List.replicate_succ, play?, after?, hv, hu]
    rwa [whole]

/-- The card of the greeting. -/
def helloCard : Ask := .engage (.dialogue (Dialogue.card { text := "Hello" } "hello"))

/-- The reader reads the greeting in both ways. -/
theorem greeting_read_both_ways :
    let s := Session.fresh (.empty []) (.ofString "scripts") {}
    let start := s.begin (.entry (.startGraph greeting none))
    ∃ log t, log.length = 1 ∧ t.session.phase = .stopped ∧ reader.Ends .inside start log t ∧
      reader.Ends .afterwards start log t := by
  intro s start
  let shown := start.play (List.replicate 6 .move)
  let answered := (shown.enter helloCard (.entry (.advance .null))).play (List.replicate 1 .move)
  let back : Turn := ⟨answered.session, shown.stack, .ask helloCard⟩
  let last := (back.conclude helloCard (.ok ())).play (List.replicate 8 .move)
  have asks : shown = ⟨shown.session, shown.stack, .ask helloCard⟩ := by
    have control : shown.control = .ask helloCard := by decide
    rw [← control]
  have sits : Sits .inside reader start [] none shown := Sits.nil.moves (Turn.moves_of_play? (by decide))
  rw [asks] at sits
  have works : Turn.Moves ⟨shown.session, .asked helloCard :: shown.stack, .work (.entry (.advance .null))⟩
      ⟨answered.session, .asked helloCard :: shown.stack, answered.control⟩ := by
    have stack : answered.stack = .asked helloCard :: shown.stack := by decide +kernel
    have played : ((shown.enter helloCard (.entry (.advance .null))).play?
        (List.replicate 1 .move)).isSome := by decide +kernel
    rw [← stack]
    exact Turn.moves_of_play? played
  have ends : reader.Ends .inside start [reader.exchange [] helloCard] last :=
    ⟨(sits.meet (.inside rfl works (by decide +kernel))).moves (Turn.moves_of_play? (by decide +kernel)),
      by decide +kernel, by decide +kernel⟩
  have rests : History (patient.allow) s.atRest [] ⟨s, [], .done .done⟩ := .nil
  have prompt : ∀ x ∈ [reader.exchange [] helloCard], x.isPrompt := by decide
  exact ⟨_, last, rfl, by decide +kernel, ends,
    ((answers_inside_as_afterwards rests rfl (by decide) rfl reader prompt).1 last).1 ends⟩

end Questline

import Mathlib.Data.String.Basic
import Questline.Proofs.Errands

/-!
# What moves do about figures

Figures come and go with the answers of the host, on behalf of the run that spawned them or let
them leave.  Apart from that a move concerns the figures of runs in two ways only.  It may end a
run, with its figures leaving if it is stopped; and it may open one, which takes over the figures
of a run that is paused.

* `Session.figures`, `Session.activeNpcs`: the figures of each run, and of the current one.
* `Control.Heeds`: what is needed of a run by what comes next.
* `Move.Treats`: what a move does about figures; every function treats them so.
-/

namespace Questline

open Json (Value)

/-! ## Names in order -/

theorem mem_insertOnce {name id : String} {names : List String} :
    id ∈ insertOnce name names ↔ id = name ∨ id ∈ names := by
  induction names with
  | nil => simp [insertOnce]
  | cons other names ih =>
    unfold insertOnce
    split
    · simp
    · split
      case isTrue h => simp [h]
      case isFalse => simp [ih, or_left_comm]

theorem pairwise_insertOnce {name : String} {names : List String} (h : names.Pairwise (· < ·)) :
    (insertOnce name names).Pairwise (· < ·) := by
  induction h with
  | nil => exact List.pairwise_singleton _ _
  | @cons other names least sorted ih =>
    unfold insertOnce
    split
    case isTrue before =>
      refine .cons (fun id hid => ?_) (.cons least sorted)
      rcases List.mem_cons.1 hid with rfl | hid
      · exact before
      · exact lt_trans before (least id hid)
    case isFalse notBefore =>
      split
      · exact .cons least sorted
      case isFalse different =>
        refine .cons (fun id hid => ?_) ih
        rcases mem_insertOnce.1 hid with rfl | hid
        · exact lt_of_le_of_ne (not_lt.1 notBefore) (Ne.symm different)
        · exact least id hid

/-! ## Figures of a session -/

namespace Session

/-- The figures of each run. -/
def figures (s : Session) (r : RunId) : List String := (s.run r).npcs

/-- The figures of the current run. -/
def activeNpcs (s : Session) : List String := (s.current.map s.figures).getD []

variable {s s' : Session} {q r : RunId} {f : Run → Run}

theorem figures_setRun (h : ∀ run, (f run).npcs = run.npcs) : (s.setRun q f).figures = s.figures := by
  funext r
  rw [figures, figures, run_setRun]
  split
  · exact h _
  · rfl

theorem activeNpcs_congr (current : s'.current = s.current) (figures : s'.figures = s.figures) :
    s'.activeNpcs = s.activeNpcs := by
  rw [activeNpcs, activeNpcs, current, figures]

theorem owns_iff : s.owns r ↔ s.outline.current = some r ∧ (s.outline.run r).phase.isActive := by
  simp [owns, outline, Run.outline, Run.isActive]

end Session

/-! ## What a move does about figures -/

/-- The run that has to be current, and to go on, for what comes next: figures come and go on its
behalf, or its answers are handed over. -/
def Control.needs? : Control → Option RunId
  | .work (.visit r _ _) | .work (.dispatch r _) | .ask (.spawn r _) | .ask (.remove r _)
  | .ask (.handOver r _ _ _ _) => some r
  | _ => none

/-- The run that is to be ended, and its phase then. -/
def Control.ends? : Control → Option (RunId × Phase)
  | .work (.terminate r phase) => some (r, phase)
  | _ => none

/-- The figures that are about to leave with their run. -/
def Control.leaving : Control → List String
  | .ask (.dismiss _ npc rest) => npc :: rest
  | _ => []

/-- Whether a frame ends a run, or is a call from inside which something was begun. -/
def Frame.isApart : Frame → Bool
  | .ending _ _ | .asked _ => true
  | _ => false

/-- Whether an alteration neither opens nor closes a run. -/
def Alteration.isBetween : Alteration → Bool
  | .opened _ _ | .closed _ => false
  | _ => true

/-- What comes next, in the session `s`: no figure leaves; what needs its run has it; and a run is
ended only if it goes on. -/
structure Control.Heeds (s : Session) (c : Control) : Prop where
  leaving : c.leaving = []
  needs : ∀ r, c.needs? = some r → s.owns r
  ends : ∀ r phase, c.ends? = some (r, phase) → phase = .stopped ∧ (s.run r).isActive

/-- A move on behalf of the run `q` that lets all figures be. -/
structure Move.LetsBe (q : RunId) (s : Session) (m : Move) : Prop where
  figures : m.session.figures = s.figures
  outline : ∃ α : Alteration, α.isBetween ∧ m.session.outline = α.apply q s.outline
  heeds : m.control.Heeds m.session
  frames : ∀ f ∈ m.frames, f.isApart = false

/-- What a move does about the figures of runs, on behalf of the run `q`: it lets them be, or ends
a run, with its figures leaving if it is stopped, or opens a run that takes over those of a paused
one.  A run is paused only if `P` holds. -/
inductive Move.Treats (P : Prop) (q : RunId) (s : Session) (m : Move) : Prop
  | keeps (h : m.LetsBe q s)
  /-- The run is ended once its timer is cancelled. -/
  | cancels {phase : Phase} {fs : List Frame} (figures : m.session.figures = s.figures)
      (outline : m.session.outline = s.outline) (still : m.IsStill)
      (control : ∃ timer, m.control = .ask (.cancelTimer timer))
      (frames : m.frames = .ending q phase :: fs) (below : ∀ f ∈ fs, f.isApart = false)
      (owned : s.current = some q ∨ (s.run q).isActive) (paused : phase = .paused → P)
  | closes {phase : Phase} (figures : m.session.figures = s.figures)
      (outline : m.session.outline = (Alteration.closed phase).apply q s.outline) (still : m.IsStill)
      (leaving : m.control.leaving = if phase = .stopped then s.figures q else [])
      (control : (∃ npc rest, m.control = .ask (.dismiss q npc rest)) ∨ m.control.Heeds m.session)
      (frames : ∀ f ∈ m.frames, f.isApart = false) (past : phase.isActive = false)
      (owned : s.current = some q ∨ (s.run q).isActive) (paused : phase = .paused → P)
  | opens {g : Graph} {completion : Option Callback} (idle : s.IsIdle) (new : q = s.runs.length)
      (outline : m.session.outline = (Alteration.opened g completion).apply q s.outline)
      (figures : ∀ r, m.session.figures r = if r = q then s.carriedNpcs else s.figures r)
      (heeds : m.control.Heeds m.session) (frames : ∀ f ∈ m.frames, f.isApart = false)

namespace Control.Heeds

variable {s : Session}

theorem done (result : Result) : (Control.done result).Heeds s :=
  ⟨rfl, fun _ h => (by cases h), fun _ _ h => by cases h⟩

theorem failed (f : Fault) : (Control.failed f).Heeds s :=
  ⟨rfl, fun _ h => (by cases h), fun _ _ h => by cases h⟩

theorem of_isOver {c : Control} (h : c.isOver) : c.Heeds s := by
  cases c with
  | work | ask => cases h
  | done result => exact .done result
  | failed f => exact .failed f

/-- A call that has nothing to do with figures. -/
theorem ask {a : Ask} (leaving : (Control.ask a).leaving = []) (needs : (Control.ask a).needs? = none) :
    (Control.ask a).Heeds s :=
  ⟨leaving, fun _ h => (by rw [needs] at h; cases h), fun _ _ h => (by cases h)⟩

end Control.Heeds

section Treating

variable {P Q : Prop} {q : RunId} {s s' : Session} {m : Move} {α : Alteration} {f : Frame}

theorem Frame.isApart_append {fs : List Frame} (hfs : ∀ g ∈ fs, g.isApart = false)
    (hf : f.isApart = false) : ∀ g ∈ fs ++ [f], g.isApart = false := by
  intro g hg
  rcases List.mem_append.1 hg with hg | hg
  · exact hfs g hg
  · obtain rfl := List.mem_singleton.1 hg
    exact hf

namespace Move.LetsBe

theorem of_serves {L : Prop} (h : m.Serves L q α s) (between : α.isBetween)
    (figures : m.session.figures = s.figures) (heeds : m.control.Heeds m.session)
    (frames : ∀ f ∈ m.frames, f.isApart = false) : m.LetsBe q s :=
  ⟨figures, ⟨α, between, h.outline⟩, heeds, frames⟩

theorem of_retouches (h : s.Retouches q m.session) (figures : m.session.figures = s.figures)
    (frames : m.frames = []) (heeds : m.control.Heeds m.session) : m.LetsBe q s :=
  ⟨figures, ⟨.nothing, rfl, h.outline⟩, heeds, by simp [frames]⟩

theorem finished (h : s.Retouches q s') (figures : s'.figures = s.figures) :
    (Move.finished s').LetsBe q s := .of_retouches h figures rfl (.done _)

theorem failure (h : s.Retouches q s') (figures : s'.figures = s.figures) (f : Fault) :
    (Move.failure s' f).LetsBe q s := .of_retouches h figures rfl (.failed f)

theorem under (h : m.LetsBe q s) (hf : f.isApart = false) : (m.under f).LetsBe q s :=
  ⟨h.figures, h.outline, h.heeds, Frame.isApart_append h.frames hf⟩

theorem after (h : m.LetsBe q s') (outline : s'.outline = s.outline)
    (figures : s'.figures = s.figures) : m.LetsBe q s := by
  refine ⟨h.figures.trans figures, ?_, h.heeds, h.frames⟩
  rw [← outline]
  exact h.outline

end Move.LetsBe

namespace Move.Treats

theorem under (h : m.Treats P q s) (hf : f.isApart = false) (still : f.rider = .nobody) :
    (m.under f).Treats P q s := by
  cases h with
  | keeps h => exact .keeps (h.under hf)
  | cancels figures outline hm control frames below owned paused =>
    refine .cancels figures outline (hm.under still) control ?_ (Frame.isApart_append below hf)
      owned paused
    rw [Move.under, frames, List.cons_append]
  | closes figures outline hm leaving control frames past owned paused =>
    exact .closes figures outline (hm.under still) leaving control (Frame.isApart_append frames hf)
      past owned paused
  | opens idle new outline figures heeds frames =>
    exact .opens idle new outline figures heeds (Frame.isApart_append frames hf)

theorem mono (h : m.Treats P q s) (wider : P → Q) : m.Treats Q q s := by
  cases h with
  | keeps h => exact .keeps h
  | cancels figures outline hm control frames below owned paused =>
    exact .cancels figures outline hm control frames below owned fun h => wider (paused h)
  | closes figures outline hm leaving control frames past owned paused =>
    exact .closes figures outline hm leaving control frames past owned fun h => wider (paused h)
  | opens idle new outline figures heeds frames => exact .opens idle new outline figures heeds frames

theorem after (h : m.Treats P q s') (runs : s'.runs = s.runs) (current : s'.current = s.current)
    (outline : s'.outline = s.outline) : m.Treats P q s := by
  have figures : s'.figures = s.figures := by
    funext r
    simp only [Session.figures, Session.run, runs]
  have run (r : RunId) : s'.run r = s.run r := by simp only [Session.run, runs]
  cases h with
  | keeps h => exact .keeps (h.after outline figures)
  | cancels hf ho still control frames below owned paused =>
    exact .cancels (hf.trans figures) (ho.trans outline) still control frames below
      (by rwa [current, run] at owned) paused
  | closes hf ho still leaving control frames past owned paused =>
    exact .closes (hf.trans figures) (outline ▸ ho) still (figures ▸ leaving) control frames past
      (by rwa [current, run] at owned) paused
  | opens idle new ho hf heeds frames =>
    refine .opens (fun p hp => ?_) (runs ▸ new) (outline ▸ ho) (fun r => ?_) heeds frames
    · rw [← run]
      exact idle p (current ▸ hp)
    · rw [hf, figures]
      congr 1
      simp only [Session.carriedNpcs, Session.currentRun?, current, show s'.run = s.run from funext run]

end Move.Treats

end Treating

section Between

variable {s s' : Session} {α : Alteration} {q r : RunId}

theorem Session.current_of_between (between : α.isBetween)
    (outline : s'.outline = α.apply q s.outline) : s'.current = s.current := by
  have current : s'.current = (α.apply q s.outline).current := congrArg Outline.current outline
  rw [current]
  cases α with
  | opened | closed => cases between
  | _ => rfl

/-- Unless it is opened or closed, the phase of a run changes only if it goes on with an errand. -/
theorem Session.phase_of_between (between : α.isBetween)
    (outline : s'.outline = α.apply q s.outline) :
    (s'.run r).phase = (s.run r).phase ∨ (s'.run r).isActive ∧ 0 < s'.outline.load r := by
  have phase : (s'.run r).phase = ((α.apply q s.outline).run r).phase :=
    congrArg (fun o : Outline => (o.run r).phase) outline
  rw [Run.isActive, phase, outline]
  by_cases hr : q = r ∧ r < s.outline.length
  · obtain ⟨rfl, hq⟩ := hr
    cases α with
    | opened | closed => cases between
    | nothing | announced | taken | dropped | rested => exact .inl rfl
    | answered | handed | released =>
      left
      simp only [Alteration.apply, Outline.run_change_self hq]
      rfl
    | suspended kind node => 
      right
      simp [Alteration.apply, Outline.load, Outline.run_change_self hq, Phase.isActive]
    | resumed job =>
      right
      simp [Alteration.apply, Outline.load, Outline.queue, Outline.run_change_self hq, Phase.isActive]
    | installed graph =>
      right
      simp [Alteration.apply, Outline.load, Outline.queue, Outline.change, hq, Phase.isActive]
  · have same : (α.apply q s.outline).run r = s.outline.run r := by
      cases α with
      | opened | closed => cases between
      | nothing | announced | taken | dropped | rested => rfl
      | _ => exact if_neg hr
    rw [same]
    exact .inl rfl

theorem Session.isActive_of_between (between : α.isBetween)
    (outline : s'.outline = α.apply q s.outline) (h : (s.run r).isActive) : (s'.run r).isActive := by
  rcases phase_of_between (r := r) between outline with phase | ⟨active, -⟩
  · rw [Run.isActive, phase]
    exact h
  · exact active

theorem Session.owns_of_between (between : α.isBetween)
    (outline : s'.outline = α.apply q s.outline) (h : s.owns r) : s'.owns r := by
  obtain ⟨current, active⟩ := Bool.and_eq_true_iff.1 h
  rw [owns, current_of_between between outline, current, isActive_of_between between outline active]
  rfl

/-- What closing a run leaves as it is: the current run, and all phases but its own. -/
theorem Session.of_closed {phase : Phase} (outline : s'.outline = (Alteration.closed phase).apply q s.outline) :
    s'.current = s.current ∧ (q < s.runs.length → (s'.run q).phase = phase) ∧
      ∀ r, (s'.run r).phase = (s.run r).phase ∨ r = q ∧ q < s.runs.length := by
  have run (r : RunId) : (s'.run r).phase = (((Alteration.closed phase).apply q s.outline).run r).phase :=
    congrArg (fun o : Outline => (o.run r).phase) outline
  refine ⟨congrArg Outline.current outline, fun hq => ?_, fun r => ?_⟩
  · rw [run]
    exact congrArg RunOutline.phase (if_pos ⟨rfl, hq⟩)
  · by_cases hr : q = r ∧ r < s.outline.length
    · exact .inr ⟨hr.1.symm, hr.1 ▸ hr.2⟩
    · rw [run]
      exact .inl (congrArg RunOutline.phase (if_neg hr))

/-- What opening a run leaves as it is: the phases of all others. -/
theorem Session.of_opened {g : Graph} {completion : Option Callback}
    (outline : s'.outline = (Alteration.opened g completion).apply q s.outline) :
    s'.current = some s.runs.length ∧ (s'.run s.runs.length).phase = .running ∧
      ∀ r, r ≠ s.runs.length → (s'.run r).phase = (s.run r).phase := by
  have run (r : RunId) :
      (s'.run r).phase = (((Alteration.opened g completion).apply q s.outline).run r).phase :=
    congrArg (fun o : Outline => (o.run r).phase) outline
  refine ⟨congrArg Outline.current outline, ?_, fun r hr => ?_⟩
  · rw [run]
    exact congrArg RunOutline.phase (if_pos rfl)
  · rw [run]
    exact congrArg RunOutline.phase (if_neg hr)

end Between

/-! ## Every function treats figures so -/

namespace Session

variable (s : Session) {q : RunId}

/-! ### Visits -/

theorem follow_figures (node : Node) (output : Int) (graph : Graph) :
    (s.follow q node output graph).session.figures = s.figures ∧
      (s.follow q node output graph).control.isOver ∧ (s.follow q node output graph).frames = [] := by
  have figures : (s.setRun q fun run => { run with activity := .advancing }).figures = s.figures :=
    figures_setRun fun _ => rfl
  rw [follow_eq]
  exact ⟨figures, rfl, rfl⟩

theorem follow_letsBe (node : Node) (output : Int) (graph : Graph) :
    (s.follow q node output graph).LetsBe q s := by
  obtain ⟨figures, past, frames⟩ := follow_figures s (q := q) node output graph
  exact .of_serves (follow_serves s q node output graph) rfl figures (.of_isOver past)
    (by simp [frames])

theorem report_letsBe (warnings : List Warning) : (s.report q warnings).LetsBe q s := by
  cases warnings with
  | nil => exact .finished (.refl s) rfl
  | cons w ws =>
    exact .of_retouches (.setRun (by exact fun _ => rfl)) (figures_setRun fun _ => rfl) rfl (.ask rfl rfl)

theorem dispatch_letsBe (owned : s.owns q) (t : Trigger) : (s.dispatch q t).LetsBe q s := by
  have needed {a : Ask} (leaving : (Control.ask a).leaving = [])
      (needs : (Control.ask a).needs? = some q) : (Move.ask s a).LetsBe q s := by
    refine .of_retouches (.refl s) rfl rfl ⟨leaving, fun r hr => ?_, fun _ _ h => by cases h⟩
    obtain rfl : q = r := Option.some.inj (needs.symm.trans hr)
    exact owned
  unfold dispatch
  split
  · unfold perform
    split
    · exact .of_retouches (.refl s) rfl rfl (.ask rfl rfl)
    · split
      · exact .of_retouches (.of_eq rfl rfl rfl rfl rfl rfl) rfl rfl (.done _)
      · exact .of_retouches (.of_eq rfl rfl rfl rfl rfl rfl) rfl rfl (.failed _)
    · exact needed rfl rfl
    · exact needed rfl rfl
  · exact .failure (.refl s) rfl _

theorem applyItem_letsBe (node : String) (i : ItemChange) : (s.applyItem q node i).LetsBe q s := by
  unfold applyItem
  split
  · exact .of_retouches (.refl s) rfl rfl (.ask rfl rfl)
  · exact .of_retouches (.refl s) rfl rfl (.ask rfl rfl)
  · exact .of_retouches (.refl s) rfl rfl (.ask rfl rfl)

theorem check_letsBe (node : Node) (c : Condition) (graph : Graph) :
    (s.check q node c graph).LetsBe q s := by
  unfold check
  split
  · exact follow_letsBe s node _ graph
  · exact .of_retouches (.refl s) rfl rfl (.ask rfl rfl)
  · exact .of_retouches (.refl s) rfl rfl (.ask rfl rfl)

theorem visit_letsBe (owned : s.owns q) (node : Node) (graph : Graph) :
    (s.visit q node graph).LetsBe q s := by
  have h : s.Retouches q (s.setRun q fun run =>
      { run.count node.kind.word with node := some node.id, activity := .running }) :=
    .setRun fun _ => rfl
  have figures : (s.setRun q fun run =>
      { run.count node.kind.word with node := some node.id, activity := .running }).figures =
        s.figures := figures_setRun fun _ => rfl
  have owned' := owned
  rw [owns_iff, ← h.outline, ← owns_iff] at owned'
  unfold visit
  cases node.body with
  | dialogue d => exact ((report_letsBe _ _).under rfl).after h.outline figures
  | choice c => exact ((report_letsBe _ _).under rfl).after h.outline figures
  | image i => exact .of_retouches h figures rfl (.done _)
  | item i => exact ((applyItem_letsBe _ _ _).under rfl).after h.outline figures
  | trigger t => exact ((dispatch_letsBe _ owned' t).under rfl).after h.outline figures
  | condition c => exact (check_letsBe _ node c graph).after h.outline figures
  | combat opponent => exact .of_retouches h figures rfl (.done _)
  | link l => exact .of_retouches h figures rfl (.done _)
  | ending => exact .of_retouches h figures rfl (.done _)

theorem respond_letsBe (node : Node) (graph : Graph) (answer : Value) :
    (s.respond q node graph answer).LetsBe q s := by
  have h : (s.respond q node graph answer).session.figures = s.figures ∧
      (s.respond q node graph answer).control.isOver ∧
      (s.respond q node graph answer).frames = [] := by
    unfold respond
    split
    · split
      case h_1 pick _ =>
        have taken : (s.setRun q fun run =>
            { run with ledger := run.ledger.put node.id pick }).figures = s.figures :=
          figures_setRun fun _ => rfl
        dsimp only
        split
        · obtain ⟨figures, past, frames⟩ := follow_figures (s.setRun q fun run =>
            { run with ledger := run.ledger.put node.id _ }) (q := q) node _ graph
          exact ⟨figures.trans taken, past, frames⟩
        · exact ⟨taken, rfl, rfl⟩
      · exact ⟨rfl, rfl, rfl⟩
    · exact follow_figures s node _ graph
  obtain ⟨figures, past, frames⟩ := h
  rcases s.respond_serves q node graph answer with ⟨c, pick, -, -, serves⟩ | ⟨-, serves⟩
  · exact .of_serves serves rfl figures (.of_isOver past) (by simp [frames])
  · exact .of_serves serves rfl figures (.of_isOver past) (by simp [frames])

theorem resolve_letsBe (node : Node) (graph : Graph) (outcome : Value) :
    (s.resolve q node graph outcome).LetsBe q s := by
  unfold resolve
  split
  · exact follow_letsBe s node _ graph
  · exact follow_letsBe s node _ graph
  · exact .failure (.refl s) rfl _

/-! ### The queue -/

theorem enqueue_figures (job : Job) : (s.enqueue q job).session.figures = s.figures := by
  unfold enqueue
  dsimp only
  split <;> rfl

theorem enqueue_letsBe {s' : Session} {α : Alteration} (job : Job) (between : α.isBetween)
    (figures : s'.figures = s.figures)
    (outline : (s'.enqueue q job).session.outline = α.apply q s.outline) :
    (s'.enqueue q job).LetsBe q s := by
  have queued := enqueue_isQueued s' q job
  refine ⟨(enqueue_figures s' job).trans figures, ⟨α, between, outline⟩, by rw [queued.control]; exact .done _, fun f hf => ?_⟩
  rw [queued.frames f hf]
  rfl

theorem drain_letsBe : ∃ q, s.drain.LetsBe q s := by
  rcases s.drain_serves with ⟨-, hdrain, serves⟩ | ⟨r, job, rest, -, hdrain, serves⟩
  · refine ⟨0, .of_serves (serves 0) rfl ?_ ?_ ?_⟩
    · rw [hdrain]
      rfl
    · rw [hdrain]
      exact .done _
    · rw [hdrain]
      exact fun f hf => by cases hf
  · refine ⟨r, .of_serves serves rfl ?_ ?_ ?_⟩
    · rw [hdrain]
      rfl
    · rw [hdrain]
      exact ⟨rfl, fun _ h => (by cases h), fun _ _ h => by cases h⟩
    · rw [hdrain]
      intro f hf
      obtain rfl := List.mem_singleton.1 hf
      rfl

theorem drive_letsBe (job : Job) : (s.drive q job).LetsBe q s := by
  unfold drive
  split
  case isTrue owned =>
    refine Move.LetsBe.under (f := .driving q) (.of_retouches (.refl s) rfl rfl
      ⟨?_, fun r hr => ?_, fun r phase hr => ?_⟩) rfl
    · cases job <;> rfl
    · cases job with
      | enter graph =>
        obtain rfl : q = r := Option.some.inj hr
        exact owned
      | _ => cases hr
    · cases job <;> cases hr
  case isFalse => exact .finished (.refl s) rfl

/-! ### Resuming -/

theorem resume_letsBe (job : Job) : (s.resume q job).LetsBe q s :=
  enqueue_letsBe s job (α := .resumed job) rfl (figures_setRun fun _ => rfl)
    (resume_serves (L := False) s q job).outline

theorem clear_letsBe (job : Job) : (s.clear q job).LetsBe q s := by
  rcases s.clear_cases q job with ⟨w, -, -, hm⟩ | ⟨-, hm⟩
  · rw [hm]
    have h : s.Retouches q (s.setRun q (·.setTimer w.id false)) :=
      .setRun fun run => Run.outline_setTimer run _ _
    have figures : (s.setRun q (·.setTimer w.id false)).figures = s.figures :=
      figures_setRun fun _ => rfl
    exact (Move.LetsBe.of_retouches h figures rfl (.ask rfl rfl)).under rfl
  · rw [hm]
    exact resume_letsBe s job

theorem resumeInput_letsBe (wait : Wait) (answer : Value) :
    (s.resumeInput q wait answer).LetsBe q s := by
  rcases s.resumeInput_cases q wait answer with ⟨f, h⟩ | ⟨graph, node, -, -, h⟩
  · rw [h]
    exact .failure (.refl s) rfl f
  · rw [h]
    exact clear_letsBe s _

/-! ### The end of a run -/

theorem announce_letsBe (completion : Option Callback) (ledger : Ledger) :
    (s.announce completion ledger).LetsBe q s := by
  cases completion with
  | none => exact .finished (.refl s) rfl
  | some callback => exact .of_retouches (.refl s) rfl rfl (.ask rfl rfl)

theorem close_treats {P : Prop} {phase : Phase} (past : phase.isActive = false)
    (owned : s.current = some q ∨ (s.run q).isActive) (paused : phase = .paused → P) :
    (s.close q phase).Treats P q s := by
  have serves := close_serves s q phase
  have figures : (s.ended q phase).figures = s.figures := figures_setRun fun _ => rfl
  have made : (s.close q phase).session.figures = s.figures ∧
      ((s.close q phase).control.leaving = if phase = .stopped then s.figures q else []) ∧
      ((∃ npc rest, (s.close q phase).control = .ask (.dismiss q npc rest)) ∨
        (s.close q phase).control.Heeds (s.close q phase).session) ∧
      ∀ f ∈ (s.close q phase).frames, f.isApart = false := by
    rw [close_eq]
    split
    case isTrue hphase =>
      cases hn : (s.run q).npcs with
      | nil =>
        refine ⟨?_, hn.symm, .inr (.done _), fun f hf => ?_⟩
        · -- The last figure has left, and there was none.
          show ((s.ended q phase).setRun q fun run => { run with npcs := [] }).figures = s.figures
          rw [← figures]
          funext r
          rw [Session.figures, Session.figures, run_setRun]
          split
          case isTrue hr =>
            have none : (s.ended q phase).figures q = [] := (congrFun figures q).trans hn
            exact hr.1 ▸ none.symm
          case isFalse => rfl
        · obtain rfl := List.mem_singleton.1 hf
          rfl
      | cons npc rest =>
        refine ⟨figures, hn.symm, .inl ⟨npc, rest, rfl⟩, fun f hf => ?_⟩
        obtain rfl := List.mem_singleton.1 hf
        rfl
    case isFalse =>
      have announced := announce_letsBe (s.ended q phase) (q := q) (s.run q).completion (s.run q).ledger
      exact ⟨announced.figures.trans figures, announced.heeds.leaving, .inr announced.heeds,
        announced.frames⟩
  exact .closes made.1 serves.outline (serves.still.resolve_right id) made.2.1 made.2.2.1 made.2.2.2
    past owned paused

theorem terminate_treats {P : Prop} {phase : Phase} (past : phase.isActive = false)
    (owned : s.current = some q ∨ (s.run q).isActive) (paused : phase = .paused → P) :
    (s.terminate q phase).Treats P q s := by
  rcases s.terminate_cases q phase with ⟨w, -, -, hm⟩ | ⟨-, hm⟩
  · rw [hm]
    have h : s.Retouches q (s.setRun q (·.setTimer w.id false)) :=
      .setRun fun run => Run.outline_setTimer run _ _
    exact .cancels (figures_setRun fun run => rfl) h.outline
      ⟨rfl, fun f hf => by obtain rfl := List.mem_singleton.1 hf; rfl⟩ ⟨_, rfl⟩
      (show _ = [Frame.ending q phase] from rfl)
      (fun f hf => by cases hf) owned paused
  · rw [hm]
    exact close_treats s past owned paused

theorem stopIfActive_letsBe : (s.stopIfActive q).LetsBe q s := by
  unfold stopIfActive
  split
  case isTrue active =>
    refine .of_retouches (.refl s) rfl rfl ⟨rfl, fun r hr => (by cases hr), fun r phase hr => ?_⟩
    cases hr
    exact ⟨rfl, active⟩
  case isFalse => exact .finished (.refl s) rfl

theorem stop_treats : ∃ q, s.stop.Treats False q s := by
  rcases s.stop_cases with h | ⟨r, current, -, h⟩
  · exact ⟨0, h ▸ .keeps (.finished (.refl s) rfl)⟩
  · exact ⟨r, h ▸ terminate_treats s rfl (.inl current) nofun⟩

/-! ### Links and coming to rest -/

theorem install_letsBe (graph : Graph) : (s.install q graph).LetsBe q s :=
  enqueue_letsBe s _ (α := .installed graph) rfl
    (figures_setRun (s := s) (q := q) (f := Run.moved graph) fun _ => rfl)
    (install_serves (L := False) s q graph).outline

theorem loadTarget_letsBe (link : Link) : (s.loadTarget q link).LetsBe q s := by
  rcases s.loadTarget_cases q link with ⟨f, h⟩ | ⟨graph, -, h | h⟩
  · rw [h]
    exact .failure (.refl s) rfl f
  · rw [h]
    exact .of_retouches (.refl s) rfl rfl (.ask rfl rfl)
  · rw [h]
    exact install_letsBe s graph

theorem afterWrite_letsBe (link : Link) (outcome : WriteOutcome) :
    (s.afterWrite q link outcome).LetsBe q s := by
  cases outcome with
  | written => exact loadTarget_letsBe s link
  | failed | cancelled => exact .failure (.refl s) rfl _

theorem afterHandOver_letsBe (node : String) (link : Link) (receipt : Receipt) :
    (s.afterHandOver q node link receipt).LetsBe q s := by
  cases receipt with
  | plain => exact loadTarget_letsBe s link
  | finished outcome => exact afterWrite_letsBe s link outcome
  | pending ticket =>
    exact ⟨figures_setRun fun _ => rfl, ⟨.suspended .link node, rfl, outline_suspend s q .link node⟩,
      .done _, fun f hf => by cases hf⟩

theorem transfer_letsBe (owned : s.owns q) (node : String) (link : Link) :
    (s.transfer q node link).LetsBe q s := by
  unfold transfer
  split
  · exact loadTarget_letsBe s link
  case h_2 callback _ =>
    have handed := outline_setRun s q (f := fun run => { run with completion := none })
      (g := fun run => { run with completion := none }) fun _ => rfl
    refine ⟨figures_setRun fun _ => rfl, ⟨.handed, rfl, handed⟩,
      ⟨rfl, fun r hr => ?_, fun _ _ h => by cases h⟩, fun f hf => by cases hf⟩
    obtain rfl : q = r := Option.some.inj hr
    exact owns_of_between (α := .handed) rfl handed owned

theorem pause_letsBe (node : Node) (scene : Scene) : (s.pause q node scene).LetsBe q s := by
  have serves := pause_serves s q node scene
  refine .of_serves serves rfl ?_ ?_ ?_
  · have suspended : (s.suspend q scene.kind node.id).figures = s.figures :=
      figures_setRun fun _ => rfl
    unfold pause
    dsimp only
    split
    · exact suspended
    · exact suspended
    · exact suspended
  · unfold pause
    split
    · exact .ask rfl rfl
    · exact .ask rfl rfl
    · exact .ask rfl rfl
  · unfold pause
    dsimp only
    split
    · exact fun f hf => by cases hf
    · intro f hf
      obtain rfl := List.mem_singleton.1 hf
      rfl
    · exact fun f hf => by cases hf

theorem settle_treats (owned : s.owns q) (step : Step) : (s.settle q step).Treats True q s := by
  have current : s.current = some q := beq_iff_eq.1 (Bool.and_eq_true_iff.1 owned).1
  unfold settle
  split
  · exact .keeps (.finished (.refl s) rfl)
  · exact .keeps (pause_letsBe s _ _)
  · exact .keeps (transfer_letsBe s owned _ _)
  · exact terminate_treats s rfl (.inl current) fun _ => trivial
  · exact terminate_treats s (phaseAfter_isActive _) (.inl current) fun _ => trivial

theorem proceed_treats (step : Step) : (s.proceed q step).Treats True q s := by
  rcases s.proceed_cases q step with ⟨-, h⟩ | ⟨owned, ⟨f, h⟩ | ⟨node, graph, -, -, h⟩ | ⟨-, h⟩⟩
  · rw [h]
    exact .keeps (.finished (.refl s) rfl)
  · rw [h]
    exact .keeps ((Move.LetsBe.failure (.refl s) rfl f).under rfl)
  · rw [h]
    have heeds : (Control.work (.visit q node graph)).Heeds s := by
      refine ⟨rfl, fun r hr => ?_, fun _ _ h => by cases h⟩
      obtain rfl : q = r := Option.some.inj hr
      exact owned
    have visits : (Move.work s (.visit q node graph)).LetsBe q s :=
      .of_retouches (.refl s) rfl rfl heeds
    exact .keeps (visits.under rfl)
  · rw [h]
    exact (settle_treats s owned step).under rfl rfl

/-! ### Entries -/

theorem startGraph_treats (graph : Graph) (completion : Option Callback) :
    ∃ q, (s.startGraph graph completion).Treats False q s := by
  rcases s.startGraph_cases graph completion with ⟨f, h⟩ | ⟨idle, h⟩
  · exact ⟨0, h ▸ .keeps (.failure (.refl s) rfl f)⟩
  · obtain ⟨queued, serves⟩ := idle.startGraph_serves graph completion
    refine ⟨_, .opens idle rfl serves.outline (fun r => ?_) (by rw [queued.control]; exact .done _)
      fun f hf => by rw [queued.frames f hf]; rfl⟩
    rw [h, enqueue_figures]
    show ((s.addRun _).run r).npcs = _
    split
    case isTrue hr => rw [hr, run_addRun_length]
    case isFalse hr => rw [run_addRun_of_ne _ hr, figures]

theorem start_treats (script : String) (completion : Option Callback) :
    ∃ q, (s.start script completion).Treats False q s := by
  rcases s.start_cases script completion with ⟨f, h⟩ | ⟨-, ⟨graph, -, h⟩ | ⟨f, -, h⟩⟩
  · exact ⟨0, h ▸ .keeps (.failure (.refl s) rfl f)⟩
  · exact h ▸ startGraph_treats s graph completion
  · obtain ⟨q, hm⟩ := stop_treats { s with lastError := some (.data f) }
    exact ⟨q, h ▸ (hm.under (f := .failing (.data f)) rfl rfl).after rfl rfl rfl⟩

theorem advance_treats (answer : Value) : ∃ q, (s.advance answer).Treats False q s := by
  rcases s.advance_cases answer with ⟨f, h⟩ | ⟨q, wait, -, -, -, -, -, h⟩
  · exact ⟨0, h ▸ .keeps (.failure (.refl s) rfl f)⟩
  · exact ⟨q, h ▸ .keeps (resumeInput_letsBe s wait answer)⟩

theorem battleOver_letsBe (battle : BattleHandle) (outcome : Value) :
    (s.battleOver battle outcome).LetsBe battle.run s := by
  rcases s.battleOver_cases battle outcome with ⟨-, h⟩ | ⟨-, ⟨f, h⟩ | ⟨graph, -, h⟩⟩
  · rw [h]
    exact .finished (.refl s) rfl
  · rw [h]
    exact .failure (.refl s) rfl f
  · rw [h]
    exact clear_letsBe s _

theorem timeUp_letsBe (timer : TimerHandle) : (s.timeUp timer).LetsBe timer.run s := by
  rcases s.timeUp_cases timer with ⟨-, hm⟩ | ⟨-, wait, -, -, hm⟩
  · rw [hm]
    exact .finished (.refl s) rfl
  · rw [hm]
    have h : s.Retouches timer.run (s.setRun timer.run (·.setTimer timer.wait false)) :=
      .setRun fun run => Run.outline_setTimer run _ _
    exact (resumeInput_letsBe _ _ _).after h.outline (figures_setRun fun _ => rfl)

theorem deliver_letsBe (d : Delivery) : (s.deliver d).LetsBe d.handle.run s := by
  have delivered := s.deliver_serves d
  rcases s.deliver_cases d with ⟨-, h⟩ | ⟨waits, h⟩
  · rw [h]
    exact .finished (.refl s) rfl
  · rw [h] at delivered ⊢
    have taken := (afterWrite_letsBe (s.setRun d.handle.run fun run => { run with wait := none })
      (q := d.handle.run) d.handle.link d.outcome).under (f := .linking d.handle.run) rfl
    refine ⟨taken.figures.trans (figures_setRun fun _ => rfl), ?_, taken.heeds, taken.frames⟩
    rcases delivered with ⟨past, -⟩ | ⟨-, serves | ⟨graph, id, -, serves⟩⟩
    · rw [waits] at past
      cases past
    · exact ⟨_, rfl, serves.outline⟩
    · exact ⟨_, rfl, serves.outline⟩

theorem post_letsBe {s' : Session} (outline : s'.outline = s.outline)
    (figures : s'.figures = s.figures) (ds : List Delivery) : (s'.post ds).LetsBe q s := by
  refine Move.LetsBe.after ?_ outline figures
  cases ds with
  | nil => exact .finished (.refl s') rfl
  | cons d ds =>
    have delivers : (Move.ask s' (.deliver d)).LetsBe q s' := .of_retouches (.refl s') rfl rfl (.ask rfl rfl)
    exact delivers.under rfl

theorem enter_treats (e : Entry) : ∃ q, (s.enter e).Treats False q s := by
  cases e with
  | start script completion => exact start_treats s script completion
  | startGraph graph completion => exact startGraph_treats s graph completion
  | stop => exact stop_treats s
  | advance answer => exact advance_treats s answer
  | battleOver battle outcome => exact ⟨_, .keeps (battleOver_letsBe s battle outcome)⟩
  | timeUp timer => exact ⟨_, .keeps (timeUp_letsBe s timer)⟩
  | written d => exact ⟨_, .keeps (deliver_letsBe s d)⟩
  | settle ticket outcome =>
    have outline : Session.outline { s with writes := s.writes.filter fun w => w.1 != ticket } =
        s.outline := rfl
    exact ⟨0, .keeps (post_letsBe s outline rfl _)⟩

end Session

/-! ## Deeds -/

/-- In the turn `t` a run may be paused: it has taken its last step, or it is to be paused once its
timer is cancelled. -/
def Turn.Pauses (t : Turn) (popped : List Frame) (q : RunId) : Prop :=
  (∃ step, popped = [.driving q] ∧ t.control = .done (.stepped step)) ∨
    popped = [.ending q .paused]

/-- Whether figures come or go with the answer to a call. -/
def Ask.isForFigures : Ask → Bool
  | .spawn _ _ | .remove _ _ | .dismiss _ _ _ => true
  | _ => false

section Sources

variable (s : Session)

theorem Task.begin_treats {task : Task} (heeds : (Control.work task).Heeds s) :
    ∃ q, (task.begin s).Treats False q s := by
  cases task with
  | entry e => exact s.enter_treats e
  | drive r job => exact ⟨r, .keeps (s.drive_letsBe job)⟩
  | visit r node graph => exact ⟨r, .keeps (s.visit_letsBe (heeds.needs r rfl) node graph)⟩
  | respond r node graph answer => exact ⟨r, .keeps (s.respond_letsBe node graph answer)⟩
  | resolve r node graph outcome => exact ⟨r, .keeps (s.resolve_letsBe node graph outcome)⟩
  | follow r node output graph => exact ⟨r, .keeps (s.follow_letsBe node output graph)⟩
  | dispatch r trigger => exact ⟨r, .keeps (s.dispatch_letsBe (heeds.needs r rfl) trigger)⟩
  | report r warnings => exact ⟨r, .keeps (s.report_letsBe warnings)⟩
  | engage card => exact ⟨0, .keeps (.of_retouches (.refl s) rfl rfl (.ask rfl rfl))⟩
  | terminate r phase =>
    obtain ⟨rfl, active⟩ := heeds.ends r phase rfl
    exact ⟨r, s.terminate_treats rfl (.inr active) nofun⟩

theorem Ask.resume_letsBe {a : Ask} (plain : a.isForFigures = false) (answer : a.call.Reply) :
    ∃ q, (a.resume s answer).LetsBe q s := by
  cases a with
  | spawn | remove | dismiss => cases plain
  | startTimer seconds timer =>
    refine ⟨timer.run, ?_⟩
    simp only [resume]
    split
    · exact .finished (.setRun fun run => Run.outline_setTimer run _ _)
        (Session.figures_setRun fun _ => rfl)
    · exact .finished (.refl s) rfl
  | take r node item amount =>
    refine ⟨r, ?_⟩
    simp only [resume]
    split
    · exact .finished (.refl s) rfl
    · exact s.report_letsBe _
  | count r node condition graph => exact ⟨r, s.follow_letsBe node _ graph⟩
  | fillIn r graph => exact ⟨r, s.install_letsBe _⟩
  | report r warning rest => exact ⟨r, s.report_letsBe rest⟩
  | handOver r node link callback ledger => exact ⟨r, s.afterHandOver_letsBe node link answer⟩
  | engage | cancelTimer | deliver | give | battle | world | announce =>
    exact ⟨0, .finished (.refl s) rfl⟩

theorem Frame.receive_treats (stack : List Frame) {frame : Frame} (hn : ∀ a, frame ≠ .asked a)
    (ending : ∀ r phase, frame = .ending r phase →
      phase.isActive = false ∧ (s.current = some r ∨ (s.run r).isActive)) (result : Result) :
    ∃ q, (frame.receive s result).Treats
      (Turn.Pauses ⟨s, frame :: stack, .done result⟩ [frame] q) q s := by
  cases frame with
  | driving r =>
    refine ⟨r, ?_⟩
    cases result with
    | stepped step => exact (s.proceed_treats step).mono fun _ => .inl ⟨step, rfl, rfl⟩
    | done => exact .keeps (.finished (.refl s) rfl)
  | ending r phase =>
    obtain ⟨past, owned⟩ := ending r phase rfl
    exact ⟨r, s.close_treats past owned fun paused => .inr (by rw [paused])⟩
  | draining =>
    obtain ⟨q, hm⟩ := s.drain_letsBe
    exact ⟨q, .keeps hm⟩
  | failing f => exact ⟨0, .keeps (.failure (.refl s) rfl f)⟩
  | triggering r node graph => exact ⟨r, .keeps (s.follow_letsBe node _ graph)⟩
  | following r node output graph => exact ⟨r, .keeps (s.follow_letsBe node output graph)⟩
  | stepping step => exact ⟨0, .keeps (.of_retouches (.refl s) rfl rfl (.done _))⟩
  | timing r wait seconds =>
    refine ⟨r, .keeps ?_⟩
    simp only [receive]
    split
    · exact .of_retouches (.refl s) rfl rfl (.ask rfl rfl)
    · exact .finished (.refl s) rfl
  | resuming r job => exact ⟨r, .keeps (s.resume_letsBe job)⟩
  | announcing completion ledger => exact ⟨0, .keeps (s.announce_letsBe completion ledger)⟩
  | linking r => exact ⟨r, .keeps (.finished (.refl s) rfl)⟩
  | posting rest => exact ⟨0, .keeps (s.post_letsBe rfl rfl rest)⟩
  | asked a => exact absurd rfl (hn a)

theorem Frame.recover_letsBe {frame : Frame} (f : Fault) : ∃ q, (frame.recover s f).LetsBe q s := by
  have noted (r : RunId) : ({ s with lastError := some f }.stopIfActive r).LetsBe r s :=
    (Session.stopIfActive_letsBe { s with lastError := some f }).after rfl rfl
  cases frame with
  | draining =>
    exact ⟨0, rfl, ⟨.dropped, rfl, rfl⟩, .failed f, fun f hf => by cases hf⟩
  | driving r => exact ⟨r, (noted r).under rfl⟩
  | triggering r node graph =>
    refine ⟨r, ?_⟩
    simp only [recover]
    split
    · exact (s.report_letsBe _).under rfl
    · exact .failure (.refl s) rfl _
  | linking r =>
    refine ⟨r, ?_⟩
    cases f with
    | link f => exact noted r
    | _ => exact .failure (.refl s) rfl _
  | posting rest => exact ⟨0, s.post_letsBe rfl rfl rest⟩
  | failing | following | stepping | timing | resuming | ending | announcing | asked =>
    exact ⟨0, .failure (.refl s) rfl f⟩

end Sources

end Questline

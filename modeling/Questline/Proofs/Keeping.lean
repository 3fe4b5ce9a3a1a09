import Questline.Proofs.Shape

/-!
# Shapes are kept

What each part of the session's work does to the shape of a turn: begun in one shape it ends in
another, and a walk that is known has gone on by the signs of what was done.  A fault loses the
walk, and so does a stop; the shape is kept all the same, and nothing is known of a walk from then
on.  Which part is at work in which turn is put together later.

* `Turn.Carries`: a turn has a shape again, and its walk has gone on.
* `Session.visit_carries`, `Session.respond_sound`, `Session.resolve_sound`: a node is visited,
  and left.
* `Session.close_sound`, `Session.loadTarget_carries`, `Session.proceed_carries`: a run ends, takes
  a link, and goes on or comes to rest.
* `Session.enter_carries`: an entry of the host begins.
-/

namespace Questline

open Json (Value)

/-! ## Faults and fair entries -/

/-- Whether a fault is passed on by a frame. -/
def Frame.isFailing : Frame → Bool
  | .failing _ => true
  | _ => false

/-- Whether a fault is under way.  An event that a trigger does not know is none: it becomes
a warning. -/
def Turn.isFaulty (t : Turn) : Bool :=
  (match t.control, t.stack with
    | .failed (.unknownEvent _), .triggering _ _ _ :: _ => false
    | .failed _, _ => true
    | _, _ => false) || t.stack.any Frame.isFailing

/-- What the walk may do on an entry: it is no stop, and the handle that comes with it was
made for the node at which the walk stands. -/
def Entry.Suits (s : Session) (v : Walker) : Entry → Prop
  | .stop => False
  | .battleOver battle _ =>
    s.isWaiting battle.run battle.wait →
      ∀ n ∈ v.node?, n = battle.node ∧ ∃ opponent, n.body = .combat opponent
  | .timeUp timer => s.isWaiting timer.run timer.wait → ∀ n ∈ v.node?, ∃ i, n.body = .image i
  | .written delivery =>
    (s.run delivery.handle.run).isWaitingOn delivery.handle.wait →
      ∀ n ∈ v.node?, n.body = .link delivery.handle.link
  | _ => True

theorem Move.isFaulty_on_failing (m : Move) (f : Fault) (stack : List Frame) :
    (m.on (.failing f :: stack)).isFaulty = true := by
  have passed : (m.frames ++ .failing f :: stack).any Frame.isFailing = true :=
    List.any_eq_true.2 ⟨.failing f, List.mem_append_right _ List.mem_cons_self, rfl⟩
  simp only [Turn.isFaulty, Move.on, passed, Bool.or_true]

theorem not_smooth_driving {s : Session} {r : RunId} {stack : List Frame} {f : Fault}
    (h : ((Move.failure s f).on (.driving r :: stack)).isFaulty = false) : False := by
  cases f <;> cases h

theorem not_smooth_ground {s : Session} {stack : List Frame} {f : Fault} (ground : Ground stack)
    (h : ((Move.failure s f).on stack).isFaulty = false) : False := by
  cases ground <;> cases f <;> cases h

/-! ## What is read -/

/-- Whether a script was loaded, or else is at fault itself. -/
def isWellLoaded : Except Fault Graph → Bool
  | .ok _ | .error (.data _) => true
  | .error _ => false

/-- Whether a script can be loaded, or else is at fault itself. -/
def Library.loadsWell (files : FileTree) (library : Path) (id : String) : Bool :=
  isWellLoaded (load files library id)

/-- A script can be loaded, or else is at fault itself.  A walk that is known ends with a fault
anyway. -/
def Session.Reads (X : Option Walker) (s : Session) (id : String) : Prop :=
  X = none → Library.loadsWell s.files s.library id

/-- The script that is read at the beginning of an entry. -/
def Entry.target? : Entry → Option String
  | .start script _ => some script
  | .written delivery => some delivery.handle.link.target
  | _ => none

/-- The script that is read after a step. -/
def Frame.target? : Frame → Result → Option String
  | .driving _, .stepped ⟨_, .link l⟩ => some l.target
  | _, _ => none

/-- The script that is read after an answer. -/
def Ask.target? : Ask → Option String
  | .handOver _ _ l _ _ => some l.target
  | _ => none

/-- The script that may be read in a deed. -/
def Turn.target? (t : Turn) : Deed → Option String
  | .reply a _ => a.target?
  | .move =>
    match t.control, t.stack with
    | .work (.entry e), _ => e.target?
    | .done result, frame :: _ => frame.target? result
    | _, _ => none
  | _ => none

/-! ## Turns that carry a walk -/

namespace Turn

variable {X : Option Walker} {signs : List Sign} {t u : Turn} {w : Walker}

/-- The turn `u` has a shape again, and a walk that is known has gone on by the signs. -/
def Carries (X : Option Walker) (signs : List Sign) (u : Turn) : Prop :=
  ∃ Y, Sound Y u ∧ ∀ v ∈ X, ∃ v' ∈ Y, v.walk signs = some v'

theorem Carries.same (h : Sound X u) : Carries X [] u := ⟨X, h, fun v hv => ⟨v, hv, rfl⟩⟩

theorem Carries.walk (hw : ∀ v ∈ X, v.walk signs = some w) (h : Sound (X.map fun _ => w) u) :
    Carries X signs u :=
  ⟨_, h, fun v hv => ⟨w, Option.mem_map_of_mem (fun _ => w) hv, hw v hv⟩⟩

theorem Carries.lost {Y : Option Walker} (h : Sound Y u) (hX : ∀ v ∈ X, False) :
    Carries X signs u :=
  ⟨Y, h, fun v hv => (hX v hv).elim⟩

theorem mem_map_const {v : Walker} (hv : v ∈ X.map fun _ => w) : v = w := by
  obtain ⟨_, -, rfl⟩ := Option.map_eq_some_iff.1 hv
  rfl

theorem of_mem_map_const {P : Prop} (h : ∀ v ∈ X, P) : ∀ v ∈ X.map fun _ => w, P := by
  intro v hv
  obtain ⟨v', hv', -⟩ := Option.map_eq_some_iff.1 hv
  exact h v' hv'

end Turn

/-! ## Steps of a walk -/

namespace Walker

variable {v : Walker} {g : Graph} {n m : Node} {decision : Decision} {output : Int}

theorem next?_standing (out : n.output? decision = some output)
    (h : g.follow? n.id output = some m) :
    (standing ⟨g, n⟩ none (some decision)).next? = some ⟨g, m⟩ := by
  simp [next?, out, h]

theorem end?_standing (out : n.output? decision = some output)
    (h : g.follow? n.id output = none) :
    (standing ⟨g, n⟩ none (some decision)).end? = some (Session.phaseAfter n) := by
  simp [end?, endsAt, out, h]

theorem walk_visited {spot : Spot} (h : v.next? = some spot) (flags : FlagStore) :
    v.walk [.visited spot flags] =
      some (standing spot spot.node.act? (spot.node.decision? flags)) := by
  simp [walk, step, h]

theorem output?_condition (n : Node) (holds : Bool) :
    n.output? (.condition holds) = some (Session.outputOf holds) := rfl

theorem walk_did {spot : Spot} {act : Act} {decision : Option Decision} :
    (standing spot (some act) decision).walk [.did act] = some (standing spot none decision) := by
  simp [walk, step]

end Walker

/-! ## On the way -/

namespace Session

variable {X : Option Walker} {s : Session} {r : RunId} {run : Run} {g : Graph} {n : Node}
  {stack : List Frame} {pending : List (RunId × Job)}

theorem report_sound (has : s.Has r true [] run (some g))
    (h : ∀ s' run' c, s'.Has r true [] run' (some g) → (∃ warnings, run' = { run with warnings }) →
      Reporting r c → Turn.Sound X ⟨s', stack, c⟩) (warnings : List Warning) :
    Turn.Sound X ((s.report r warnings).on stack) := by
  cases warnings with
  | nil => exact h s run _ has ⟨run.warnings, rfl⟩ .done
  | cons w ws => exact h _ _ _ (has.setRun _) ⟨_, rfl⟩ .ask

/-- **Taking an output** is a step to the next node, or to the end of the walk. -/
theorem follow_sound (floor : Floor r stack) (has : s.Has r true [] run (some g))
    (going : run.Going g) {decision : Decision} {output : Int}
    (out : n.output? decision = some output)
    (walk : ∀ v ∈ X, v = .standing ⟨g, n⟩ none (some decision)) :
    Turn.Sound X ((s.follow r n output g).on (.driving r :: .draining :: stack)) := by
  have has' := has.setRun fun run => { run with activity := .advancing }
  have going' : Run.Going { run with activity := .advancing } g :=
    ⟨going.phase, going.wait, going.script⟩
  simp only [follow]
  split
  case h_1 m hm =>
    refine .underway floor has' going' (.stepped (.next (Graph.node?_of_follow? hm) fun v hv => ?_))
    rw [walk v hv]
    exact Walker.next?_standing out hm
  case h_2 hm =>
    refine .underway floor has' going' (.stepped (.terminal fun v hv => ?_))
    rw [walk v hv]
    exact Walker.end?_standing out hm

/-- Doing what a trigger does.  Whatever it is, an event that is not known is its only fault
that the walk survives. -/
theorem dispatch_sound (floor : Floor r stack) (has : s.Has r true [] run (some g))
    (going : run.Going g) {t : Trigger} (body : n.body = .trigger t)
    (walk : ∀ v ∈ X, v = .standing ⟨g, n⟩ n.act? (some .plain))
    (smooth : ∀ v ∈ X,
      ((s.dispatch r t).on (.triggering r n g :: .driving r :: .draining :: stack)).isFaulty = false) :
    Turn.Sound X ((s.dispatch r t).on (.triggering r n g :: .driving r :: .draining :: stack)) := by
  have plain : n.output? .plain = some 0 := by simp [Node.output?, body]
  simp only [dispatch] at smooth ⊢
  cases he : Effect.ofTrigger t with
  | error f =>
    rw [he] at smooth
    have act : n.act? = none := by simp [Node.act?, body, he]
    rw [act] at walk
    refine .underway floor has going (.refused plain fun v hv => ⟨?_, walk v hv⟩)
    have hf := smooth v hv
    cases f with
    | unknownEvent event => exact ⟨event, rfl⟩
    | _ => cases hf
  | ok effect =>
    rw [he] at smooth
    cases effect with
    | world event =>
      have act : n.act? = some (.world event) := by simp [Node.act?, body, he]
      rw [act] at walk
      exact .underway floor has going (.triggering .world plain walk)
    | spawn request =>
      have act : n.act? = some (.spawn request) := by simp [Node.act?, body, he]
      rw [act] at walk
      exact .underway floor has going (.triggering .spawn plain walk)
    | remove npc =>
      have act : n.act? = some (.remove npc) := by simp [Node.act?, body, he]
      rw [act] at walk
      exact .underway floor has going (.triggering .remove plain walk)
    | setFlag name value =>
      have act : n.act? = none := by simp [Node.act?, body, he]
      rw [act] at walk
      have has' (flags : FlagStore) (files : FileTree) :
          Has { s with flags, files } r true [] run (some g) :=
        has.of_eq rfl rfl has.draining_eq has.pending_eq has.graph_eq
      simp only [perform] at smooth ⊢
      split
      · exact .underway floor (has' _ _) going (.triggered plain walk)
      case h_2 flags files f hset =>
        rw [hset] at smooth
        refine .underway floor (has' _ _) going (.refused plain fun v hv => ⟨?_, walk v hv⟩)
        have hf := smooth v hv
        cases f with
        | unknownEvent event => exact ⟨event, rfl⟩
        | _ => cases hf

/-- **A visit** begins what is to be done at its node. -/
theorem visit_carries (floor : Floor r stack) (has : s.Has r true [] run (some g))
    (going : run.Going g) (inGraph : g.node? n.id = some n)
    (walk : ∀ v ∈ X, v.next? = some ⟨g, n⟩)
    (smooth : ∀ v ∈ X,
      ((s.visit r n g).on (.driving r :: .draining :: stack)).isFaulty = false) :
    Turn.Carries X [.visited ⟨g, n⟩ s.flags]
      ((s.visit r n g).on (.driving r :: .draining :: stack)) := by
  refine .walk (fun v hv => Walker.walk_visited (walk v hv) s.flags) ?_
  have standing : ∀ v ∈ X.map fun _ => Walker.standing ⟨g, n⟩ n.act? (n.decision? s.flags),
      v = .standing ⟨g, n⟩ n.act? (n.decision? s.flags) := fun v hv => Turn.mem_map_const hv
  have smooth' := Turn.of_mem_map_const (w := .standing ⟨g, n⟩ n.act? (n.decision? s.flags)) smooth
  generalize (X.map fun _ => Walker.standing ⟨g, n⟩ n.act? (n.decision? s.flags)) = Y at *
  have has' := has.setRun fun run =>
    { run.count n.kind.word with node := some n.id, activity := .running }
  have going' : Run.Going { run.count n.kind.word with node := some n.id, activity := .running } g :=
    ⟨going.phase, going.wait, going.script⟩
  have arrived : Run.Arrived { run.count n.kind.word with node := some n.id, activity := .running }
      g n := ⟨rfl, inGraph⟩
  have told {scene : Scene} (given : n.scene? = some scene) (warnings : List Warning)
      (walk : ∀ v ∈ Y, v = .standing ⟨g, n⟩ (some scene.act) none) :
      Turn.Sound Y (((s.setRun r fun run =>
        { run.count n.kind.word with node := some n.id, activity := .running }).report r
          warnings).on (.stepping ⟨n, .suspend scene⟩ :: .driving r :: .draining :: stack)) := by
    refine report_sound has' (fun s' run' c has'' hrun report => ?_) warnings
    obtain ⟨_, rfl⟩ := hrun
    exact .underway floor has'' ⟨going'.phase, going'.wait, going'.script⟩
      (.reporting ⟨arrived.node, arrived.inGraph⟩ given report walk)
  simp only [visit] at smooth' ⊢
  cases body : n.body with
  | dialogue d =>
    simp only [Node.act?, Node.decision?, body] at standing
    rw [Move.on_under]
    exact told (by simp [Node.scene?, body]) _ standing
  | choice c =>
    simp only [Node.act?, Node.decision?, body] at standing
    rw [Move.on_under]
    exact told (by simp [Node.scene?, body]) _ standing
  | image i =>
    simp only [Node.act?, Node.decision?, body] at standing
    exact .underway floor has' going'
      (.stepped (.suspend arrived (by simp [Node.scene?, body]) standing))
  | item i =>
    have plain : n.output? .plain = some 0 := by simp [Node.output?, body]
    simp only [Node.act?, Node.decision?, body] at standing
    rw [Move.on_under]
    simp only [applyItem]
    cases ha : i.action with
    | give =>
      simp only [ha] at standing
      exact .underway floor has' going' (.handling .give plain standing)
    | take =>
      simp only [ha] at standing
      exact .underway floor has' going' (.handling .take plain standing)
    | other word =>
      simp only [ha] at standing
      exact .underway floor has' going' (.handling .take plain standing)
  | trigger t =>
    rw [body, Move.on_under] at smooth'
    rw [Move.on_under]
    have decided : n.decision? s.flags = some .plain := by simp [Node.decision?, body]
    rw [decided] at standing
    exact dispatch_sound floor has' going' body standing smooth'
  | condition c =>
    simp only [Node.act?, Node.decision?, body] at standing
    simp only [check]
    cases hc : c.check with
    | hasFlag =>
      simp only [hc] at standing
      exact follow_sound floor has' going' (Walker.output?_condition n _) standing
    | hasItem =>
      simp only [hc] at standing
      exact .underway floor has' going' (.counting body standing)
    | other word =>
      simp only [hc] at standing
      exact .underway floor has' going' (.counting body standing)
  | combat opponent =>
    simp only [Node.act?, Node.decision?, body] at standing
    exact .underway floor has' going'
      (.stepped (.suspend arrived (by simp [Node.scene?, body]) standing))
  | link l =>
    simp only [Node.act?, Node.decision?, body] at standing
    exact .underway floor has' going' (.stepped (.link arrived body standing))
  | ending =>
    simp only [Node.act?, Node.decision?, body] at standing
    refine .underway floor has' going' (.stepped (.finish fun v hv => ?_))
    rw [standing v hv]
    simp [Walker.end?, Walker.endsAt, Node.isEnding, Node.kind, phaseAfter, body]

/-- **Going on after an answer of the player**: an answer that does not lie among the options
is a fault. -/
theorem respond_sound (floor : Floor r stack) (has : s.Has r true [] run (some g))
    (going : run.Going g) {answer : Value}
    (walk : ∀ v ∈ X, v = .standing ⟨g, n⟩ none (some (.player answer)))
    (smooth : ∀ v ∈ X,
      ((s.respond r n g answer).on (.driving r :: .draining :: stack)).isFaulty = false) :
    Turn.Sound X ((s.respond r n g answer).on (.driving r :: .draining :: stack)) := by
  unfold respond at smooth ⊢
  split
  case h_1 c body =>
    simp only [body] at smooth
    cases hp : pick? c.options.length answer with
    | none =>
      rw [hp] at smooth
      exact .underway floor has going (.failed fun v hv => not_smooth_driving (smooth v hv))
    | some pick =>
      rw [hp] at smooth
      have has' := has.setRun fun run => { run with ledger := run.ledger.put n.id pick }
      have going' : Run.Going { run with ledger := run.ledger.put n.id pick } g :=
        ⟨going.phase, going.wait, going.script⟩
      cases pick with
      | option i =>
        have out : n.output? (.player answer) = some i := by simp [Node.output?, body, hp]
        exact follow_sound floor has' going' out walk
      | fraction x =>
        exact .underway floor has' going' (.failed fun v hv => not_smooth_driving (smooth v hv))
  case h_2 hb =>
    have out : n.output? (.player answer) = some 0 := by
      cases body : n.body with
      | choice c => exact absurd body (hb c)
      | _ => simp only [Node.output?, body]
    exact follow_sound floor has going out walk

/-- **Going on after a battle.** -/
theorem resolve_sound (floor : Floor r stack) (has : s.Has r true [] run (some g))
    (going : run.Going g) {outcome : Value}
    (walk : ∀ v ∈ X, v = .standing ⟨g, n⟩ none (some (.battle outcome)))
    (smooth : ∀ v ∈ X,
      ((s.resolve r n g outcome).on (.driving r :: .draining :: stack)).isFaulty = false) :
    Turn.Sound X ((s.resolve r n g outcome).on (.driving r :: .draining :: stack)) := by
  unfold resolve at smooth ⊢
  split
  case h_1 =>
    have out : n.output? (.battle (.string "victory")) = some 0 := rfl
    exact follow_sound floor has going out walk
  case h_2 =>
    have out : n.output? (.battle (.string "defeat")) = some 1 := rfl
    exact follow_sound floor has going out walk
  case h_3 victory defeat =>
    refine .underway floor has going (.failed fun v hv => ?_)
    have faulty := smooth v hv
    split at faulty
    · exact victory rfl
    · exact defeat rfl
    · exact not_smooth_driving faulty

/-! ### The queue -/

theorem enqueue_draining (has : s.Has r true [] run (some g)) (job : Job) :
    ∃ s' : Session, s.enqueue r job = .finished s' ∧ s'.Has r true [(r, job)] run (some g) ∧
      s'.nextWait = s.nextWait := by
  refine ⟨{ s with pending := s.pending ++ [(r, job)] }, ?_, ?_, rfl⟩
  · simp only [enqueue, has.draining_eq, if_true]
  · exact has.of_eq rfl rfl has.draining_eq (by rw [has.pending_eq]; rfl) has.graph_eq

theorem enqueue_resting (has : s.Has r false [] run (some g)) (job : Job) :
    ∃ s' : Session, s.enqueue r job = (Move.finished s').under .draining ∧
      s'.Has r true [(r, job)] run (some g) := by
  refine ⟨{ s with pending := s.pending ++ [(r, job)], draining := true }, ?_, ?_⟩
  · simp [enqueue, has.draining_eq]
  · exact has.of_eq rfl rfl rfl (by rw [has.pending_eq]; rfl) has.graph_eq

/-! ### The end of a run -/

variable {draining : Bool} {graph : Option Graph}

theorem landed_sound (landing : Landing X r draining stack) (has : s.Has r draining [] run none)
    (past : run.Over) (walk : ∀ v ∈ X, v.end? = some run.phase) :
    Turn.Sound X ⟨s, stack, .done .done⟩ := by
  cases landing with
  | ground h => exact .rest h (.begun r (.ended has past walk)) rfl
  | failing h lost => exact .failingAtRest h (.begun r (.ended has past walk)) lost
  | driving h => exact .settled h (.rests (.ended has past walk))
  | failed h lost => exact .failing h has past lost

theorem announce_sound (landing : Landing X r draining stack) (has : s.Has r draining [] run none)
    (past : run.Over) (walk : ∀ v ∈ X, v.end? = some run.phase) (completion : Option Callback)
    (ledger : Ledger) : Turn.Sound X ((s.announce completion ledger).on stack) := by
  cases completion with
  | none => exact landed_sound landing has past walk
  | some callback => exact .announcing landing has past walk

theorem dismiss_sound (landing : Landing X r draining stack) (has : s.Has r draining [] run none)
    (closed : run.Closed) (walk : ∀ v ∈ X, v.end? = some run.phase) (npcs : List String)
    (completion : Option Callback) (ledger : Ledger) :
    Turn.Sound X ((s.dismiss r npcs).on (.announcing completion ledger :: stack)) := by
  cases npcs with
  | nil =>
    have past : Run.Over { run with npcs := [] } :=
      ⟨⟨closed.phase, closed.wait, closed.activity, closed.node, closed.ledger, closed.completion⟩,
        fun _ => rfl⟩
    exact .dismissed landing (has.setRun _) past walk
  | cons npc rest => exact .dismissing landing has closed walk

/-- **The end of a run** leaves nothing of it but the phase in which it ends. -/
theorem close_sound (landing : Landing X r draining stack) (has : s.Has r draining [] run graph)
    {phase : Phase} (ends : phase = .paused ∨ phase = .stopped)
    (walk : ∀ v ∈ X, v.end? = some phase) : Turn.Sound X ((s.close r phase).on stack) := by
  have has' := has.setRun (Run.ended phase)
  have closed : Run.Closed (run.ended phase) := ⟨ends, rfl, rfl, rfl, rfl, rfl⟩
  have has'' : (s.ended r phase).Has r draining [] (run.ended phase) none := by
    rw [s.ended_of_current r has.current]
    exact has'.of_eq rfl rfl has'.draining_eq has'.pending_eq rfl
  rw [close_eq]
  split
  · rw [Move.on_under]
    exact dismiss_sound landing has'' closed walk _ _ _
  case isFalse hp => exact announce_sound landing has'' ⟨closed, fun h => absurd h hp⟩ walk _ _

/-- A run that waits for nothing ends at once. -/
theorem terminate_sound (landing : Landing X r draining stack)
    (has : s.Has r draining [] run graph) (free : run.wait = none) {phase : Phase}
    (ends : phase = .paused ∨ phase = .stopped) (walk : ∀ v ∈ X, v.end? = some phase) :
    Turn.Sound X ((s.terminate r phase).on stack) := by
  have untimed (w : Wait) (hw : (s.run r).wait = some w) : w.timer = false := by
    rw [has.run_eq, free] at hw
    cases hw
  rw [terminate, s.withoutTimer_of_untimed r untimed]
  exact close_sound landing has ends walk

/-! ### Links -/

theorem install_sound (site : LinkSite r draining stack) (has : s.Has r draining [] run graph)
    (free : run.wait = none) (whole : g.IsWhole) (walk : ∀ v ∈ X, v = .heading g.spot) :
    Turn.Sound X ((s.install r g).on stack) := by
  have has' := has.setRun (Run.moved g)
  have has'' : Has { s.setRun r (Run.moved g) with graph := some g } r draining [] _ (some g) :=
    has'.of_eq rfl rfl has'.draining_eq has'.pending_eq rfl
  have going : Run.Going (run.moved g) g := ⟨rfl, free, rfl⟩
  rw [install_eq]
  cases site with
  | driving floor =>
    obtain ⟨s', hs', has', -⟩ := enqueue_draining has'' (.enter g)
    rw [hs']
    exact .settled floor (.queued has' going (.enter whole walk))
  | linking ground =>
    obtain ⟨s', hs', has'⟩ := enqueue_resting has'' (.enter g)
    rw [hs', Move.on_under]
    exact .drained (.linking ground) (.queued has' going (.enter whole walk))

theorem not_smooth_site (site : LinkSite r draining stack) {f : Fault}
    (h : ((Move.failure s f).on stack).isFaulty = false) : False := by
  cases site <;> cases f <;> cases h

theorem Reads.data {id : String} {f : Fault} (h : s.Reads X id)
    (hl : Library.load s.files s.library id = .error f) (lost : ∀ v ∈ X, False) :
    ∃ d, f = .data d := by
  have unknown : X = none := Option.eq_none_iff_forall_not_mem.2 lost
  have good : isWellLoaded (.error f) := hl ▸ h unknown
  cases f with
  | data d => exact ⟨d, rfl⟩
  | _ => cases good

/-- **Reading the target of a link**: its entry comes next, unless it cannot be loaded. -/
theorem loadTarget_carries (site : LinkSite r draining stack)
    (has : s.Has r draining [] run graph) (active : run.isActive) (free : run.wait = none)
    {l : Link} (loads : s.Reads X l.target)
    (walk : ∀ v ∈ X, v = .standing ⟨g, n⟩ none none ∧ n.body = .link l)
    (fails : ∀ f : LinkFault, (∀ v ∈ X, False) → Turn.Sound none ⟨s, stack, .failed (.link f)⟩)
    (smooth : ∀ v ∈ X, ((s.loadTarget r l).on stack).isFaulty = false) :
    Turn.Carries X [.loaded s.files s.library] ((s.loadTarget r l).on stack) := by
  unfold loadTarget at smooth ⊢
  cases hl : Library.load s.files s.library l.target with
  | error f =>
    rw [hl] at smooth
    have lost : ∀ v ∈ X, False := by
      intro v hv
      have smooth := smooth v hv
      cases f <;> exact not_smooth_site site smooth
    obtain ⟨d, rfl⟩ := loads.data hl lost
    exact .lost (fails _ lost) lost
  | ok target =>
    have whole := Graph.isWhole_of_load hl
    dsimp only
    split
    case isTrue templates =>
      refine .walk (w := .filling target) (fun v hv => ?_) ?_
      · obtain ⟨rfl, body⟩ := walk v hv
        simp [Walker.walk, Walker.step, body, hl, templates]
      · exact .filling site has active free whole fun v hv => Turn.mem_map_const hv
    case isFalse plain =>
      refine .walk (w := .heading target.spot) (fun v hv => ?_) ?_
      · obtain ⟨rfl, body⟩ := walk v hv
        simp [Walker.walk, Walker.step, body, hl, plain]
      · exact install_sound site has free whole fun v hv => Turn.mem_map_const hv

/-- A link whose write went wrong is not taken. -/
theorem afterWrite_carries (site : LinkSite r draining stack)
    (has : s.Has r draining [] run graph) (active : run.isActive) (free : run.wait = none)
    {l : Link} (loads : s.Reads X l.target)
    (walk : ∀ v ∈ X, v = .standing ⟨g, n⟩ none none ∧ n.body = .link l)
    (fails : ∀ f : LinkFault, (∀ v ∈ X, False) → Turn.Sound none ⟨s, stack, .failed (.link f)⟩)
    (outcome : WriteOutcome)
    (smooth : ∀ v ∈ X, ((s.afterWrite r l outcome).on stack).isFaulty = false) :
    Turn.Carries X (if outcome = .written then [.loaded s.files s.library] else [])
      ((s.afterWrite r l outcome).on stack) := by
  have failed {f : LinkFault} (h : ∀ v ∈ X, ((Move.failure s (.link f)).on stack).isFaulty = false) :
      ∀ v ∈ X, False := fun v hv => not_smooth_site site (h v hv)
  cases outcome with
  | written =>
    simp only [afterWrite, reduceIte] at smooth ⊢
    exact loadTarget_carries site has active free loads walk fails smooth
  | failed reason => exact .lost (fails _ (failed smooth)) (failed smooth)
  | cancelled => exact .lost (fails _ (failed smooth)) (failed smooth)

/-! ### Coming to rest -/

theorem waitKind?_of_scene? {scene : Scene} (given : n.scene? = some scene) :
    n.waitKind? = some scene.kind := by
  unfold Node.scene? at given
  unfold Node.waitKind?
  split at given <;> cases given <;> simp_all [Scene.kind, Card.kind]

/-- Suspending a run holds it at its node. -/
theorem suspend_held (has : s.Has r draining pending run (some g)) (going : run.Going g)
    (arrived : run.Arrived g n) {kind : WaitKind} (suits : n.waitKind? = some kind) :
    ∃ run', (s.suspend r kind n.id).Has r draining pending run' (some g) ∧
      run'.Held g n { id := s.nextWait, kind, node := n.id } := by
  refine ⟨{ run with
    wait := some { id := s.nextWait, kind, node := n.id }
    phase := .suspended
    activity := kind.activity }, ?_, ?_⟩
  · have has' := has.setRun fun run => { run with
      wait := some { id := s.nextWait, kind, node := n.id }
      phase := .suspended
      activity := kind.activity }
    exact has'.of_eq rfl rfl has'.draining_eq has'.pending_eq has'.graph_eq
  · refine ⟨rfl, rfl, rfl, suits, arrived.node, arrived.inGraph, ?_, going.script⟩
    cases kind <;> rfl

/-- **Coming to rest at a scene**: the run is held before the host is given the scene. -/
theorem pause_sound (floor : Floor r stack) (has : s.Has r true [] run (some g))
    (going : run.Going g) (arrived : run.Arrived g n) {scene : Scene}
    (given : n.scene? = some scene)
    (walk : ∀ v ∈ X, v = .standing ⟨g, n⟩ (some scene.act) none) :
    Turn.Sound X ((s.pause r n scene).on (.driving r :: .draining :: stack)) := by
  obtain ⟨run', has', held⟩ := suspend_held has going arrived (waitKind?_of_scene? given)
  have begun : s.nextWait < (s.suspend r scene.kind n.id).nextWait := Nat.lt_succ_self _
  have opened : (s.suspend r scene.kind n.id).Open X r n s.nextWait (some scene.act) :=
    .held has' held rfl rfl walk
  unfold Node.scene? at given
  split at given <;> cases given
  case h_1 d body => exact .showing floor begun opened .card
  case h_2 c body => exact .showing floor begun opened .card
  case h_3 i body => exact .showing floor begun opened (.image body)
  case h_4 opponent body => exact .showing floor begun opened (.battle body)

/-- A link is taken when the answers are handed over, or its run is held until a write is
over. -/
theorem afterHandOver_carries (floor : Floor r stack) (has : s.Has r true [] run (some g))
    (going : run.Going g) (arrived : run.Arrived g n) {l : Link} (body : n.body = .link l)
    (loads : s.Reads X l.target) (walk : ∀ v ∈ X, v = .standing ⟨g, n⟩ none none) (callback : Callback)
    (ledger : Ledger) (receipt : Receipt)
    (smooth : ∀ v ∈ X,
      ((s.afterHandOver r n.id l receipt).on (.driving r :: .draining :: stack)).isFaulty = false) :
    Turn.Carries X ((Ask.handOver r n.id l callback ledger).signs s receipt)
      ((s.afterHandOver r n.id l receipt).on (.driving r :: .draining :: stack)) := by
  have walk' : ∀ v ∈ X, v = .standing ⟨g, n⟩ none none ∧ n.body = .link l :=
    fun v hv => ⟨walk v hv, body⟩
  have fails (f : LinkFault) (_ : ∀ v ∈ X, False) :
      Turn.Sound none ⟨s, .driving r :: .draining :: stack, .failed (.link f)⟩ :=
    .underway floor has going (.failed fun _ hv => Option.not_mem_none _ hv)
  cases receipt with
  | plain =>
    simp only [afterHandOver] at smooth ⊢
    exact loadTarget_carries (.driving floor) has going.isActive going.wait loads walk' fails smooth
  | finished outcome =>
    simp only [afterHandOver] at smooth ⊢
    have carries := afterWrite_carries (.driving floor) has going.isActive going.wait loads walk'
      fails outcome smooth
    cases outcome <;> exact carries
  | pending ticket =>
    have kind : n.waitKind? = some .link := by simp [Node.waitKind?, body]
    obtain ⟨run', has', held⟩ := suspend_held has going arrived kind
    refine .same (.settled floor (.rests (.held ?_ held walk)))
    exact has'.of_eq rfl rfl has'.draining_eq has'.pending_eq has'.graph_eq

/-- **Going on after a step.** -/
theorem proceed_carries (floor : Floor r stack) (has : s.Has r true [] run (some g))
    (going : run.Going g) {action : Action} (fits : action.Fits X run g n)
    (loads : ∀ l, action = .link l → s.Reads X l.target)
    (smooth : ∀ v ∈ X, ((s.proceed r ⟨n, action⟩).on (.draining :: stack)).isFaulty = false) :
    Turn.Carries X (action.signs s r) ((s.proceed r ⟨n, action⟩).on (.draining :: stack)) := by
  simp only [proceed, has.owns going.isActive, if_true, has.graph_eq] at smooth ⊢
  cases fits with
  | next inGraph walk =>
    rw [Move.on_under]
    exact .same (.underway floor has going (.visiting inGraph walk))
  | suspend arrived given walk =>
    rw [Move.on_under]
    exact .same (pause_sound floor has going arrived given walk)
  | finish walk =>
    rw [Move.on_under]
    exact .same (terminate_sound (.driving floor) has going.wait (.inr rfl) walk)
  | terminal walk =>
    have ends : phaseAfter n = .paused ∨ phaseAfter n = .stopped := by
      unfold phaseAfter
      split
      · exact .inl rfl
      · exact .inr rfl
    rw [Move.on_under]
    exact .same (terminate_sound (.driving floor) has going.wait ends walk)
  | @link l arrived body walk =>
    rw [Move.on_under] at smooth ⊢
    simp only [settle, transfer, Action.signs] at smooth ⊢
    cases completion : (s.run r).completion with
    | none =>
      rw [completion] at smooth
      simp only [reduceIte] at smooth ⊢
      refine loadTarget_carries (.driving floor) has going.isActive going.wait (loads l rfl)
        (fun v hv => ⟨walk v hv, body⟩) (fun f _ => ?_) smooth
      exact .underway floor has going (.failed fun _ hv => Option.not_mem_none _ hv)
    | some callback =>
      simp only [reduceCtorEq, reduceIte]
      have has' := has.setRun fun run => { run with completion := none }
      have going' : Run.Going { run with completion := none } g :=
        ⟨going.phase, going.wait, going.script⟩
      exact .same (.underway floor has' going'
        (.handing ⟨arrived.node, arrived.inGraph⟩ body walk))

/-! ## Entries -/

/-! ### Nothing is waited for -/

theorem Quiet.of_eq {s' : Session} (h : s.Quiet X) (runs : s'.runs = s.runs)
    (current : s'.current = s.current) (draining : s'.draining = s.draining)
    (pending : s'.pending = s.pending) (graph : s'.graph = s.graph) : s'.Quiet X := by
  cases h with
  | unbegun hr hc hd hp walk =>
    exact .unbegun (runs.trans hr) (current.trans hc) (draining.trans hd) (pending.trans hp) walk
  | begun r rests =>
    cases rests with
    | held has held walk =>
      exact .begun r (.held (has.of_eq runs current (draining.trans has.draining_eq)
        (pending.trans has.pending_eq) (graph.trans has.graph_eq)) held walk)
    | ended has past walk =>
      exact .begun r (.ended (has.of_eq runs current (draining.trans has.draining_eq)
        (pending.trans has.pending_eq) (graph.trans has.graph_eq)) past walk)

/-- No run goes on, and nothing is queued. -/
structure Idle (X : Option Walker) (s : Session) : Prop where
  runs : ∀ q, q < s.runs.length → (s.run q).isActive = false
  current : ∀ r, s.current = some r → r < s.runs.length
  draining : s.draining = false
  pending : s.pending = []
  walk : ∀ v ∈ X, v = .outside ∨ v.end?.isSome

/-- Either no run goes on, or the current one waits. -/
theorem Quiet.idle_or_held (h : s.Quiet X) :
    s.Idle X ∨ ∃ r run g n wait, s.Has r false [] run (some g) ∧ Run.Held run g n wait ∧
      ∀ v ∈ X, v = .standing ⟨g, n⟩ none none := by
  cases h with
  | unbegun hr hc hd hp walk =>
    refine .inl ⟨fun q hq => ?_, fun r h => ?_, hd, hp, fun v hv => .inl (walk v hv)⟩
    · rw [hr] at hq
      cases hq
    · rw [hc] at h
      cases h
  | begun r rests =>
    cases rests with
    | held has held walk => exact .inr ⟨r, _, _, _, _, has, held, walk⟩
    | ended has past walk =>
      refine .inl ⟨has.idle past.not_isActive, fun q h => ?_, has.draining_eq, has.pending_eq,
        fun v hv => .inr (by rw [walk v hv]; rfl)⟩
      rw [has.current] at h
      cases h
      exact has.lt

theorem Idle.not_waiting (h : s.Idle X) (q : RunId) (w : WaitId) :
    (s.run q).isWaitingOn w = false := by
  by_cases hq : q < s.runs.length
  · exact Run.not_isWaitingOn_of_not_isActive (h.runs q hq) w
  · rw [run_of_length_le (Nat.le_of_not_lt hq)]
    rfl

theorem Idle.isIdle (h : s.Idle X) : s.IsIdle := fun r hr => h.runs r (h.current r hr)

theorem ensureIdle_of_active (has : s.Has r draining pending run graph) (active : run.isActive)
    (go : Session → Move) :
    s.ensureIdle go = .failure s (.runner (.alreadyRunning run.script)) := by
  simp [ensureIdle, currentRun?, has.current, has.run_eq, active]

/-- An answer for which nothing waits is a fault or does nothing. -/
theorem enter_of_not_waiting (h : ∀ q w, (s.run q).isWaitingOn w = false) {e : Entry}
    (answer : e.isAnswer) :
    (∃ f, s.enter e = .failure s f) ∨ s.enter e = .finished s ∧ e.signs s = [] := by
  cases e with
  | advance value =>
    rcases s.advance_cases value with refused | ⟨r, wait, -, hp, hw, -⟩
    · exact .inl refused
    · have waits : (s.run r).isWaitingOn wait.id := by simp [Run.isWaitingOn, hp, hw]
      rw [h] at waits
      cases waits
  | battleOver battle outcome =>
    have late : s.isWaiting battle.run battle.wait = false := by simp [isWaiting, h]
    refine .inr ⟨?_, ?_⟩
    · simp only [enter, battleOver, late, Bool.false_eq_true, if_false]
    · simp only [Entry.signs, late, Bool.false_eq_true, if_false]
  | timeUp timer =>
    have late : s.isWaiting timer.run timer.wait = false := by simp [isWaiting, h]
    refine .inr ⟨?_, ?_⟩
    · simp only [enter, timeUp, late, Bool.false_eq_true, if_false]
    · simp only [Entry.signs, late, Bool.false_eq_true, if_false]
  | start | startGraph | stop | written | settle => cases answer

/-! ### A new run -/

theorem Idle.has_addRun (idle : s.Idle X) (run : Run) (g : Graph) :
    Has { s.addRun run with graph := some g, lastError := none } s.runs.length false [] run
      (some g) where
  current := rfl
  lt := by simp [addRun]
  others q hq hr := by
    have hlt : q < s.runs.length := by
      simp only [addRun, List.length_append, List.length_singleton] at hq
      omega
    exact (congrArg Run.isActive (run_addRun_of_ne run hr)).trans (idle.runs q hlt)
  draining_eq := idle.draining
  pending_eq := idle.pending
  run_eq := run_addRun_length run
  graph_eq := rfl

theorem startGraph_carries (ground : Ground stack) (idle : s.Idle X) (whole : g.IsWhole)
    (completion : Option Callback) :
    Turn.Carries X [.started g] ((s.startGraph g completion).on stack) := by
  have hw : ∀ v ∈ X, v.walk [.started g] = some (.heading g.spot) := by
    intro v hv
    have ready := idle.walk v hv
    simp [Walker.walk, Walker.step, ready]
  refine .walk hw ?_
  have added := idle.has_addRun { script := g.id, npcs := s.carriedNpcs, completion } g
  have going : Run.Going { script := g.id, npcs := s.carriedNpcs, completion } g :=
    ⟨rfl, rfl, rfl⟩
  obtain ⟨s', hs', has⟩ := enqueue_resting added (.enter g)
  rw [idle.isIdle.startGraph_eq, opened, hs', Move.on_under]
  exact .drained (.ground ground)
    (.queued has going (.enter whole fun v hv => Turn.mem_map_const hv))

/-- Stopping when no run goes on: what is left of a paused run is stopped. -/
theorem stop_sound (landing : ∀ r, Landing X r false stack) (quiet : s.Quiet X) (idle : s.Idle X)
    (lost : ∀ v ∈ X, False) (finished : Turn.Sound X ⟨s, stack, .done .done⟩) :
    Turn.Sound X (s.stop.on stack) := by
  rcases s.stop_cases with h | ⟨q, current, -, h⟩
  · rw [h]
    exact finished
  · rw [h]
    cases quiet with
    | unbegun hr hc => cases hc.symm.trans current
    | begun r rests =>
      cases rests with
      | held has held =>
        have past := idle.runs r has.lt
        rw [has.run_eq, held.isActive] at past
        cases past
      | ended has past =>
        obtain rfl := Option.some.inj (has.current.symm.trans current)
        exact terminate_sound (landing r) has past.wait (.inr rfl) fun v hv => (lost v hv).elim

theorem start_carries (ground : Ground stack) (quiet : s.Quiet X) (script : String)
    (completion : Option Callback) (loads : s.Reads X script)
    (smooth : ∀ v ∈ X, ((s.start script completion).on stack).isFaulty = false) :
    Turn.Carries X (startSigns (Library.load s.files s.library script))
      ((s.start script completion).on stack) := by
  unfold start at smooth ⊢
  rcases quiet.idle_or_held with idle | ⟨r, run, g, n, wait, has, held, -⟩
  · rw [idle.isIdle.ensureIdle_eq] at smooth ⊢
    cases hl : Library.load s.files s.library script with
    | ok graph => exact startGraph_carries ground idle (Graph.isWhole_of_load hl) completion
    | error f =>
      rw [hl] at smooth
      have lost : ∀ v ∈ X, False := by
        intro v hv
        have smooth := smooth v hv
        cases f with
        | data d =>
          simp only [Move.on_under, Move.isFaulty_on_failing] at smooth
          cases smooth
        | _ => exact not_smooth_ground ground smooth
      obtain ⟨d, rfl⟩ := loads.data hl lost
      simp only [Move.on_under]
      have quiet' : Quiet X { s with lastError := some (.data d) } :=
        quiet.of_eq rfl rfl rfl rfl rfl
      have idle' : Idle X { s with lastError := some (.data d) } :=
        ⟨idle.runs, idle.current, idle.draining, idle.pending, idle.walk⟩
      exact .lost (stop_sound (fun r => .failing ground lost) quiet' idle' lost
        (.failingAtRest ground quiet' lost)) lost
  · rw [ensureIdle_of_active has held.isActive] at smooth ⊢
    exact .lost (.rest ground quiet rfl) fun v hv => not_smooth_ground ground (smooth v hv)

/-! ### An answer -/

theorem isForPlayer_of_waitKind? {kind : WaitKind} (h : n.waitKind? = some kind)
    (player : kind.isForPlayer) : n.isForPlayer := by
  unfold Node.waitKind? at h
  unfold Node.isForPlayer
  split at h <;> cases h <;> simp_all [WaitKind.isForPlayer]

variable {wait : Wait} {job : Job}

theorem resume_sound (ground : Ground stack) (has : s.Has r false [] run (some g))
    (script : run.script = g.id) (fits : job.Fits X none g) :
    Turn.Sound X ((s.resume r job).on stack) := by
  have has' := has.setRun fun run =>
    { run with wait := none, phase := .running, activity := .running }
  have going : Run.Going { run with wait := none, phase := .running, activity := .running } g :=
    ⟨rfl, rfl, script⟩
  obtain ⟨s', hs', has''⟩ := enqueue_resting has' job
  rw [resume, hs', Move.on_under]
  exact .drained (.ground ground) (.queued has'' going fits)

/-- **Taking up an answer** ends the wait, after its timer is cancelled. -/
theorem clear_sound (ground : Ground stack) (has : s.Has r false [] run (some g))
    (held : run.Held g n wait) (fits : job.Fits X none g) :
    Turn.Sound X ((s.clear r job).on stack) := by
  have waits : (s.run r).wait = some wait := (congrArg Run.wait has.run_eq).trans held.waits
  rcases s.clear_cases r job with ⟨w, hw, -, h⟩ | ⟨-, h⟩
  · obtain rfl := Option.some.inj (waits.symm.trans hw)
    have held' : Run.Held (run.setTimer wait.id false) g n { wait with timer := false } :=
      { held with waits := by simp [Run.setTimer, held.waits] }
    rw [h, Move.on_under]
    exact .resuming ground (has.setRun _) held' fits .ask
  · rw [h]
    exact resume_sound ground has held.script fits

/-- Without a timer an answer is taken up at once. -/
theorem clear_eq_resume (has : s.Has r draining pending run (some g)) (held : run.Held g n wait)
    (untimed : wait.timer = false) : s.clear r job = s.resume r job := by
  refine s.withoutTimer_of_untimed r (fun w hw => ?_) _ _
  obtain rfl := Option.some.inj (((congrArg Run.wait has.run_eq).trans held.waits).symm.trans hw)
  exact untimed

theorem resumeInput_eq (has : s.Has r draining pending run (some g)) (held : run.Held g n wait)
    (answer : Value) : s.resumeInput r wait answer = s.clear r (.respond n g answer) := by
  simp only [resumeInput, has.graph_eq, held.atNode, held.inGraph]

theorem isWaiting_iff (has : s.Has r draining pending run (some g)) (held : run.Held g n wait)
    (q : RunId) (w : WaitId) : s.isWaiting q w = true ↔ q = r ∧ wait.id = w := by
  constructor
  · intro h
    obtain ⟨hc, hw⟩ := Bool.and_eq_true_iff.1 h
    have hq := has.eq_of_waiting hw
    rw [hq, has.run_eq, held.isWaitingOn] at hw
    exact ⟨hq, by simpa using hw⟩
  · rintro ⟨rfl, rfl⟩
    simp [isWaiting, has.current, has.run_eq, held.isWaitingOn]

/-- What becomes of an answer at the node `n`, where `todo` is still to be done: it is a
fault, it comes too late, or it is taken up. -/
inductive Answered (X : Option Walker) (s : Session) (r : RunId) (g : Graph) (n : Node)
    (wait : Wait) (todo : Option Act) (signs : List Sign) : Move → Prop
  | refused (f : Fault) : Answered X s r g n wait todo signs (.failure s f)
  | late (h : signs = []) : Answered X s r g n wait todo signs (.finished s)
  | taken {s' : Session} {run : Run} {wait' : Wait} {job : Job} {w : Walker}
      (has : s'.Has r s.draining s.pending run (some g)) (held : run.Held g n wait')
      (timer : wait'.timer → wait.timer) (waits : s'.nextWait = s.nextWait)
      (walk : ∀ v ∈ X, v.walk signs = some w)
      (fits : ∀ Y : Option Walker, (∀ v ∈ Y, v = w) → job.Fits Y todo g) :
      Answered X s r g n wait todo signs (s'.clear r job)

variable {todo : Option Act}

theorem advance_answered (has : s.Has r draining pending run (some g)) (held : run.Held g n wait)
    (walk : ∀ v ∈ X, v = .standing ⟨g, n⟩ todo none) (answer : Value) :
    Answered X s r g n wait todo [.answered answer] (s.advance answer) := by
  rcases s.advance_cases answer with ⟨f, h⟩ | ⟨q, w, hq, -, hw, player, -, h⟩
  · rw [h]
    exact .refused f
  · obtain rfl := Option.some.inj (has.current.symm.trans hq)
    obtain rfl := Option.some.inj (((congrArg Run.wait has.run_eq).trans held.waits).symm.trans hw)
    rw [h, resumeInput_eq has held]
    have forPlayer := isForPlayer_of_waitKind? held.kind player
    refine .taken (w := .standing ⟨g, n⟩ todo (some (.player answer)))
      (has.of_eq rfl rfl rfl rfl has.graph_eq) held id rfl (fun v hv => ?_) fun Y hY => .respond hY
    rw [walk v hv]
    simp [Walker.walk, Walker.step, forPlayer]

theorem battleOver_answered (has : s.Has r draining pending run (some g))
    (held : run.Held g n wait) (walk : ∀ v ∈ X, v = .standing ⟨g, n⟩ todo none)
    (battle : BattleHandle) (outcome : Value)
    (suits : ∀ v ∈ X, (Entry.battleOver battle outcome).Suits s v) :
    Answered X s r g n wait todo ((Entry.battleOver battle outcome).signs s)
      (s.battleOver battle outcome) := by
  simp only [battleOver, Entry.signs]
  by_cases waits : s.isWaiting battle.run battle.wait
  · obtain ⟨rfl, -⟩ := (isWaiting_iff has held _ _).1 waits
    simp only [waits, if_true, has.graph_eq]
    refine .taken (w := .standing ⟨g, battle.node⟩ todo (some (.battle outcome)))
      (has.of_eq rfl rfl rfl rfl has.graph_eq) held id rfl (fun v hv => ?_) fun Y hY => .resolve hY
    have suit := suits v hv waits
    obtain rfl := walk v hv
    obtain ⟨rfl, opponent, body⟩ := suit n rfl
    simp [Walker.walk, Walker.step, body]
  · simp only [waits, Bool.false_eq_true, if_false]
    exact .late rfl

theorem timeUp_answered (has : s.Has r draining pending run (some g)) (held : run.Held g n wait)
    (walk : ∀ v ∈ X, v = .standing ⟨g, n⟩ todo none) (timer : TimerHandle)
    (suits : ∀ v ∈ X, (Entry.timeUp timer).Suits s v) :
    Answered X s r g n wait todo ((Entry.timeUp timer).signs s) (s.timeUp timer) := by
  simp only [timeUp, Entry.signs]
  by_cases waits : s.isWaiting timer.run timer.wait
  · obtain ⟨rfl, hw⟩ := (isWaiting_iff has held _ _).1 waits
    have has' := has.setRun (·.setTimer timer.wait false)
    have held' : Run.Held (run.setTimer timer.wait false) g n { wait with timer := false } :=
      { held with waits := by simp [Run.setTimer, held.waits, hw] }
    simp only [waits, if_true, has'.run_eq, held'.waits]
    rw [resumeInput_eq has' held']
    refine .taken (w := .standing ⟨g, n⟩ todo (some (.player .null)))
      (has'.of_eq rfl rfl rfl rfl has'.graph_eq) held' (fun ht => by cases ht) rfl (fun v hv => ?_)
      fun Y hY => .respond hY
    have suit := suits v hv waits
    obtain rfl := walk v hv
    obtain ⟨i, body⟩ := suit n rfl
    simp [Walker.walk, Walker.step, body]
  · simp only [waits, Bool.false_eq_true, if_false]
    exact .late rfl

theorem enter_answered (has : s.Has r draining pending run (some g)) (held : run.Held g n wait)
    (walk : ∀ v ∈ X, v = .standing ⟨g, n⟩ todo none) {e : Entry} (answer : e.isAnswer)
    (suits : ∀ v ∈ X, e.Suits s v) :
    Answered X s r g n wait todo (e.signs s) (s.enter e) := by
  cases e with
  | advance value => exact advance_answered has held walk value
  | battleOver battle outcome => exact battleOver_answered has held walk battle outcome suits
  | timeUp timer => exact timeUp_answered has held walk timer suits
  | start | startGraph | stop | written | settle => cases answer

/-- An answer for a run that rests. -/
theorem Answered.atRest {signs : List Sign} {m : Move}
    (h : Answered X s r g n wait none signs m) (ground : Ground stack) (quiet : s.Quiet X)
    (has : s.Has r false [] run graph) (smooth : ∀ v ∈ X, (m.on stack).isFaulty = false) :
    Turn.Carries X signs (m.on stack) := by
  cases h with
  | refused f =>
    exact .lost (.rest ground quiet rfl) fun v hv => not_smooth_ground ground (smooth v hv)
  | late h =>
    rw [h]
    exact .same (.rest ground quiet rfl)
  | taken has' held' timer waits walk fits =>
    rw [has.draining_eq, has.pending_eq] at has'
    exact .walk walk (clear_sound ground has' held' (fits _ fun v hv => Turn.mem_map_const hv))

/-- An answer for a run from inside the call that gives its scene to the host. -/
theorem Answered.inside {signs : List Sign} {m : Move} {w : WaitId} {frames : List Frame} {a : Ask}
    (h : Answered X s r g n wait todo signs m) (floor : Floor r stack) (begun : w < s.nextWait)
    (has : s.Has r true [] run graph) (opened : s.Open X r n w todo)
    (untimed : wait.timer = false) (showing : Showing r n w todo frames (.ask a))
    (answers : ∀ e, a.allows e = e.isAnswer)
    (smooth : ∀ v ∈ X,
      (m.on (.asked a :: (frames ++ .driving r :: .draining :: stack))).isFaulty = false) :
    Turn.Carries X signs (m.on (.asked a :: (frames ++ .driving r :: .draining :: stack))) := by
  cases h with
  | refused f =>
    refine .lost (.inside (.showing floor begun opened showing) answers (.inl rfl)) fun v hv => ?_
    have faulty := smooth v hv
    cases f <;> cases faulty
  | late h =>
    rw [h]
    exact .same (.inside (.showing floor begun opened showing) answers (.inl rfl))
  | @taken s' run' wait' job w' has' held' timer waits walk fits =>
    rw [has.draining_eq, has.pending_eq] at has'
    have noTimer : wait'.timer = false := by
      cases ht : wait'.timer with
      | false => rfl
      | true => rw [timer ht] at untimed; exact untimed
    have cleared : s'.clear r job = s'.resume r job := clear_eq_resume has' held' noTimer
    have has'' := has'.setRun fun run =>
      { run with wait := none, phase := .running, activity := .running }
    have going : Run.Going { run' with wait := none, phase := .running, activity := .running } g :=
      ⟨rfl, rfl, held'.script⟩
    obtain ⟨s'', hs'', queued, hwaits⟩ := enqueue_draining has'' job
    have begun' : w < s''.nextWait := by
      rw [hwaits]
      exact waits ▸ begun
    rw [cleared, resume, hs'']
    exact .walk walk (.inside (.showing floor begun'
      (.queued queued going (fits _ fun v hv => Turn.mem_map_const hv)) showing) answers (.inl rfl))

/-- **The end of a write** lets the link go on that waits for it. -/
theorem deliver_carries (ground : Ground stack) (has : s.Has r false [] run (some g))
    (held : run.Held g n wait) (walk : ∀ v ∈ X, v = .standing ⟨g, n⟩ none none)
    (d : Delivery) (loads : s.Reads X d.handle.link.target) (suits : ∀ v ∈ X, (Entry.written d).Suits s v)
    (smooth : ∀ v ∈ X, ((s.deliver d).on stack).isFaulty = false) :
    Turn.Carries X ((Entry.written d).signs s) ((s.deliver d).on stack) := by
  simp only [deliver, Entry.signs] at smooth ⊢
  by_cases open' : (s.run d.handle.run).isWaitingOn d.handle.wait
  · obtain rfl := has.eq_of_waiting open'
    have has' := has.setRun fun run => { run with wait := none }
    simp only [open', if_true, true_and, Move.on_under] at smooth ⊢
    refine afterWrite_carries (.linking ground) has' held.isActive rfl loads (fun v hv => ⟨walk v hv, ?_⟩)
      (fun f _ => ?_) d.outcome smooth
    · have suit := suits v hv open'
      obtain rfl := walk v hv
      exact suit n rfl
    · exact .linkFailed ground has' held.isActive rfl fun _ hv => Option.not_mem_none _ hv
  · simp only [open', Bool.false_eq_true, if_false, false_and]
    exact .same (.rest ground (.begun r (.held has held walk)) rfl)

theorem post_sound (ground : Ground stack) (quiet : s.Quiet X) (ds : List Delivery) :
    Turn.Sound X ((s.post ds).on stack) := by
  cases ds with
  | nil => exact .rest ground quiet rfl
  | cons d ds => exact .delivering ground quiet

theorem stopEntry_sound (ground : Ground stack) (quiet : s.Quiet X) (lost : ∀ v ∈ X, False) :
    Turn.Sound X (s.stop.on stack) := by
  rcases quiet.idle_or_held with idle | ⟨r, run, g, n, wait, has, held, -⟩
  · exact stop_sound (fun r => .ground ground) quiet idle lost (.rest ground quiet rfl)
  · have active : ¬run.phase = .stopped := by simp [held.phase]
    simp only [stop, has.current, has.run_eq, active, if_false]
    rcases s.terminate_cases r .stopped with ⟨w, -, -, h⟩ | ⟨-, h⟩
    · rw [h, Move.on_under]
      exact .ending ground (has.setRun _) lost .ask
    · rw [h]
      exact close_sound (.ground ground) has (.inr rfl) fun v hv => (lost v hv).elim

/-- **Every entry** that the host begins when nothing is under way. -/
theorem enter_carries (ground : Ground stack) (quiet : s.Quiet X) {e : Entry}
    (loads : ∀ id ∈ e.target?, s.Reads X id) (proper : e.isProper) (suits : ∀ v ∈ X, e.Suits s v)
    (smooth : ∀ v ∈ X, ((s.enter e).on stack).isFaulty = false) :
    Turn.Carries X (e.signs s) ((s.enter e).on stack) := by
  by_cases answers : e.isAnswer
  · rcases quiet.idle_or_held with idle | ⟨r, run, g, n, wait, has, held, walk⟩
    · rcases enter_of_not_waiting idle.not_waiting answers with ⟨f, h⟩ | ⟨h, signs⟩
      · rw [h] at smooth ⊢
        exact .lost (.rest ground quiet rfl) fun v hv => not_smooth_ground ground (smooth v hv)
      · rw [h, signs]
        exact .same (.rest ground quiet rfl)
    · exact (enter_answered has held walk answers suits).atRest ground quiet has smooth
  · cases e with
    | start script completion =>
      exact start_carries ground quiet script completion (loads script rfl) smooth
    | startGraph g completion =>
      rcases quiet.idle_or_held with idle | ⟨r, run, g', n, wait, has, held, -⟩
      · exact startGraph_carries ground idle (of_decide_eq_true proper) completion
      · simp only [enter, startGraph] at smooth ⊢
        rw [ensureIdle_of_active has held.isActive] at smooth ⊢
        exact .lost (.rest ground quiet rfl) fun v hv => not_smooth_ground ground (smooth v hv)
    | stop => exact .lost (stopEntry_sound ground quiet suits) suits
    | written d =>
      rcases quiet.idle_or_held with idle | ⟨r, run, g, n, wait, has, held, walk⟩
      · have late := idle.not_waiting d.handle.run d.handle.wait
        simp only [enter, deliver, Entry.signs, late, Bool.false_eq_true, if_false, false_and]
        exact .same (.rest ground quiet rfl)
      · exact deliver_carries ground has held walk d (loads _ rfl) suits smooth
    | settle ticket outcome =>
      have quiet' : Quiet X { s with writes := s.writes.filter fun w => w.1 != ticket } :=
        quiet.of_eq rfl rfl rfl rfl rfl
      exact .same (post_sound ground quiet' _)
    | advance | battleOver | timeUp => exact absurd rfl answers

end Session

end Questline

import Questline.Proofs.Isolation
import Questline.Proofs.Reach
import Questline.Proofs.Warnings

/-!
# The end of a run is foreseen

As long as a run takes no link, and no other run replaces its graph, it stays among the nodes that
can be reached from the entry of its script, and leaves each of them through an output of its kind.
So a path of it ends, except after a trigger, only at an output about which the script has an
issue; and it is warned of an unknown event only by a trigger about which the script has one.

* `Turn.Grounded`: all errands of a run are on the ground of a script, and suit their nodes.
* `Turn.Does.grounded`: every deed keeps them there.
* `Turn.Does.runsOff`: a deed with which a path ends leaves its last node through an output about which the
  script has an issue, except after a trigger.
* `run_foreseen`: what becomes of a run is foreseen by the issues of its script.
-/

namespace Questline

open Json (Value)

/-! ## Outputs that are taken -/

theorem lt_of_pick {options i : Nat} {answer : Value}
    (h : Session.pick? options answer = some (.option i)) : i < options := by
  unfold Session.pick? at h
  split at h
  · split at h
    · cases h
      omega
    · cases h
  · split at h <;> cases h
  · cases h

/-- **About every output that a node can be left through, something is found** if it leads nowhere,
except after a trigger. -/
theorem Node.loss_of_decides {n : Node} {d : Decision} {output : Int} (h : n.Decides d)
    (out : n.output? d = some output) :
    ∃ i : Nat, output = i ∧ (n.kind = .trigger ∨ ∃ f, n.loss? i = some f) := by
  cases d with
  | plain =>
    obtain rfl := Option.some.inj ((output?_plain h).symm.trans out)
    refine ⟨0, rfl, h.symm.imp_right fun item => ?_⟩
    cases body : n.body <;> simp_all [kind, loss?]
  | player answer =>
    have player : n.isForPlayer := h
    cases body : n.body with
    | choice c =>
      simp only [output?, body] at out
      split at out
      case h_1 i picked =>
        cases out
        have bound := lt_of_pick picked
        refine ⟨i, rfl, .inr ⟨.openOption n.id i c.options[i], ?_⟩⟩
        simp [loss?, body, bound]
      case h_2 => cases out
    | dialogue | image =>
      simp only [output?, body] at out
      cases out
      exact ⟨0, rfl, .inr ⟨.deadEnd n.id n.kind, by simp [loss?, body]⟩⟩
    | _ => simp [isForPlayer, body] at player
  | battle outcome =>
    have combat : n.kind = .combat := h
    cases body : n.body with
    | combat opponent =>
      simp only [output?] at out
      split at out
      · cases out
        exact ⟨0, rfl, .inr ⟨.openBattle n.id "victory", by simp [loss?, body]⟩⟩
      · split at out
        · cases out
          exact ⟨1, rfl, .inr ⟨.openBattle n.id "defeat", by simp [loss?, body]⟩⟩
        · cases out
    | _ => simp [kind, body] at combat
  | condition holds =>
    have condition : n.kind = .condition := h
    cases body : n.body with
    | condition c =>
      cases holds with
      | true =>
        cases out
        exact ⟨0, rfl, .inr ⟨.openCondition n.id "true", by simp [loss?, body]⟩⟩
      | false =>
        cases out
        exact ⟨1, rfl, .inr ⟨.openCondition n.id "false", by simp [loss?, body]⟩⟩
    | _ => simp [kind, body] at condition

/-! ## Runs on the ground of a script -/

/-- The run `r` enters no graph but `g`, nor does any other run while `r` is the current one. -/
def StaysIn (r : RunId) (g : Graph) (events : List Event) : Prop :=
  ∀ e ∈ events, ∀ x ∈ e.entered?, x.1 = r ∨ e.after.session.current = some r → x.2 = g

instance (r : RunId) (g : Graph) (events : List Event) : Decidable (StaysIn r g events) :=
  inferInstanceAs (Decidable (∀ e ∈ events, ∀ x, x ∈ e.entered? → _))

/-- A wait of the run `r` that is over, or for the player. -/
def Session.IsForPlayer (s : Session) (r : RunId) (w : WaitId) : Prop :=
  w < s.nextWait ∧ ∀ v ∈ (s.outline.run r).waiting, v.id = w → v.kind.isForPlayer

/-- What a host begins with a handle of the run `r` is for one of its nodes, if it is the end of a
battle, and for the player, if it is that of a timer. -/
def Entry.Keeps (T : Terrain) (r : RunId) (s : Session) : Entry → Prop
  | .battleOver b _ => b.run = r → T.nodes b.node ∧ b.node.kind = .combat
  | .timeUp timer => timer.run = r → s.IsForPlayer r timer.wait
  | _ => True

/-- The handles of the run `r` that a call hands out keep to its nodes. -/
def Ask.Keeps (T : Terrain) (r : RunId) (s : Session) : Ask → Prop
  | .battle _ b => b.run = r → T.nodes b.node ∧ b.node.kind = .combat
  | .startTimer _ timer => timer.run = r → s.IsForPlayer r timer.wait
  | _ => True

/-- What comes next keeps to the nodes of the run `r`. -/
def Control.Keeps (T : Terrain) (r : RunId) (s : Session) : Control → Prop
  | .ask a => a.Keeps T r s
  | .work (.entry e) => e.Keeps T r s
  | _ => True

/-- What waits in a frame keeps to the nodes of the run `r`. -/
def Frame.Keeps (T : Terrain) (r : RunId) (s : Session) : Frame → Prop
  | .asked a => a.Keeps T r s
  | .timing q wait _ => q = r → s.IsForPlayer r wait
  | _ => True

/-- The terrains of all runs, if the run `r` stays on `T`. -/
def Terrain.homes (T : Terrain) (r q : RunId) : Option Terrain :=
  some (if q = r then T else .everywhere)

/-- Whether each node of a terrain is found under its name in the graphs of the terrain. -/
def Terrain.IsNamed (T : Terrain) : Prop :=
  ∀ {g : Graph} {n m : Node}, T.graphs g → T.nodes n → g.node? n.id = some m → m = n

/-- All errands of the run `r` are on the terrain `T`, and suit their nodes. -/
structure Turn.Grounded (blamed : String → Prop) (T : Terrain) (r : RunId) (t : Turn) : Prop where
  orderly : t.Orderly
  suits : t.Suits blamed r
  mild : t.Mild
  rides : Rides (Fitting (T.homes r)) t.control.rider t.stack
  graph : t.session.current = some r → ∀ g ∈ t.session.graph, T.graphs g
  jobs : ∀ x ∈ t.session.pending, x.1 = r → x.2.IsFor T ∧ x.2.Suits
  resuming : ∀ job, .resuming r job ∈ t.stack → job.IsFor T ∧ job.Suits
  waits : ∀ w ∈ (t.session.outline.run r).waiting, w.id < t.session.nextWait ∧
    (w.kind.isForPlayer → ∃ n, T.nodes n ∧ n.isForPlayer ∧ n.id = w.node)
  control : t.control.Keeps T r t.session
  stack : ∀ f ∈ t.stack, f.Keeps T r t.session

/-! ### Waits -/

/-- What an alteration does to the wait of a run: it stays, it ends, or it is a new one. -/
theorem Alteration.waiting_apply (α : Alteration) (q r : RunId) (o : Outline) :
    ((α.apply q o).run r).waiting = (o.run r).waiting ∨ ((α.apply q o).run r).waiting = none ∨
      r = q ∧ ∃ kind node, α = .suspended kind node ∧
        ((α.apply q o).run r).waiting = some { id := o.nextWait, kind, node } := by
  cases α with
  | nothing | announced | taken | dropped | rested => exact .inl rfl
  | opened g c =>
    by_cases hr : r = o.length
    · exact .inr (.inl (congrArg RunOutline.waiting (if_pos hr)))
    · exact .inl (congrArg RunOutline.waiting (if_neg hr))
  | _ =>
    by_cases hr : q = r ∧ r < o.length
    · obtain ⟨rfl, hr⟩ := hr
      simp [apply, Outline.queue, Outline.change, hr]
    · exact .inl (congrArg RunOutline.waiting (if_neg hr))

section Steps

variable {t u : Turn} {d : Deed} {q r : RunId} {T : Terrain} {blamed : String → Prop} {s s' : Session}

theorem Turn.fits_of_fitting {x : Rider} (h : Fitting (T.homes r) r x) : x.Fits r T := by
  obtain ⟨T', hT, fits⟩ := h
  rw [Terrain.homes, if_pos rfl] at hT
  exact Option.some.inj hT ▸ fits

/-- What a deed does to the wait of a run: it stays, it ends, or it is new after a step. -/
theorem Turn.Does.waiting (h : t.Does d u) (ends : t.EndsWell) (r : RunId) :
    (u.session.outline.run r).waiting = (t.session.outline.run r).waiting ∨
      (u.session.outline.run r).waiting = none ∨
      ∃ kind node, (u.session.outline.run r).waiting = some { id := t.session.nextWait, kind, node } ∧
        t.session.nextWait < u.session.nextWait ∧ (kind = .link ∨ ∃ rest step,
          t.stack = .driving r :: rest ∧ t.control = .done (.stepped step) ∧ step.Stages kind node) := by
  rcases h.serves ends with hy | ⟨popped, rest, q, α, m, hs, -, rfl, hm, -⟩
  · exact .inl (congrArg (fun o : Outline => (o.run r).waiting) hy.outline)
  · have outline := hm.serves.outline
    rcases α.waiting_apply q r t.session.outline with same | none | ⟨rfl, kind, node, rfl, new⟩
    · exact .inl ((congrArg (fun o : Outline => (o.run r).waiting) outline).trans same)
    · exact .inr (.inl ((congrArg (fun o : Outline => (o.run r).waiting) outline).trans none))
    · have later : m.session.nextWait = t.session.nextWait + 1 := congrArg Outline.nextWait outline
      refine .inr (.inr ⟨kind, node,
        (congrArg (fun o : Outline => (o.run r).waiting) outline).trans new, ?_, ?_⟩)
      · exact Nat.lt_of_lt_of_eq (Nat.lt_succ_self _) later.symm
      · refine (hm.staged kind node rfl).imp_right ?_
        rintro ⟨rfl, step, hc, stages⟩
        exact ⟨rest, step, hs, hc, stages⟩

/-- A wait that is not over stays of its kind. -/
theorem Turn.Does.kind_of_wait (h : t.Does d u) (ends : t.EndsWell) {P : WaitKind → Prop} {w : WaitId}
    (begun : w < t.session.nextWait) (kind : ∀ v ∈ (t.session.outline.run r).waiting, v.id = w → P v.kind) :
    ∀ v ∈ (u.session.outline.run r).waiting, v.id = w → P v.kind := by
  intro v hv id
  rcases h.waiting ends r with same | none | ⟨kind', node, new, -, -⟩
  · exact kind v (same ▸ hv) id
  · rw [none] at hv
    cases hv
  · rw [new] at hv
    cases hv
    exact absurd begun (by rw [← id]; exact Nat.lt_irrefl _)

/-- What is over or for the player stays so. -/
theorem Session.IsForPlayer.does {w : WaitId} (hw : t.session.IsForPlayer r w) (h : t.Does d u)
    (ends : t.EndsWell) : u.session.IsForPlayer r w :=
  ⟨Nat.lt_of_lt_of_le hw.1 h.ages.waits_le, h.kind_of_wait (P := fun k => k.isForPlayer) ends hw.1 hw.2⟩

theorem Entry.Keeps.mono {e : Entry} (h : e.Keeps T r s)
    (wider : ∀ w, s.IsForPlayer r w → s'.IsForPlayer r w) : e.Keeps T r s' := by
  cases e with
  | timeUp => exact fun hr => wider _ (h hr)
  | battleOver => exact h
  | _ => trivial

theorem Ask.Keeps.mono {a : Ask} (h : a.Keeps T r s)
    (wider : ∀ w, s.IsForPlayer r w → s'.IsForPlayer r w) : a.Keeps T r s' := by
  cases a with
  | startTimer => exact fun hr => wider _ (h hr)
  | battle => exact h
  | _ => trivial

theorem Frame.Keeps.mono {f : Frame} (h : f.Keeps T r s)
    (wider : ∀ w, s.IsForPlayer r w → s'.IsForPlayer r w) : f.Keeps T r s' := by
  cases f with
  | asked a => exact Ask.Keeps.mono h wider
  | timing => exact fun hr => wider _ (h hr)
  | _ => trivial

namespace Turn

/-- A step of the run that is driven is taken at one of its nodes, which it suits. -/
theorem Grounded.step (ht : t.Grounded blamed T r) {step : Step} {rest : List Frame}
    (hs : t.stack = .driving r :: rest) (hc : t.control = .done (.stepped step)) :
    T.nodes step.node ∧ step.Suits := by
  have rides := ht.rides
  have suits := ht.suits.control
  rw [hs, hc] at rides
  rw [hc] at suits
  obtain ⟨q, f, below, hf, seats, fits, -⟩ := rides.seat fun h => by cases h
  obtain ⟨rfl, -⟩ := List.cons.inj hf
  obtain rfl : r = q := by simpa [Frame.seats, Control.rider] using seats
  exact ⟨(fits_of_fitting fits).1, suits⟩

theorem Does.waits_grounded (h : t.Does d u) (ht : t.Grounded blamed T r) :
    ∀ w ∈ (u.session.outline.run r).waiting, w.id < u.session.nextWait ∧
      (w.kind.isForPlayer → ∃ n, T.nodes n ∧ n.isForPlayer ∧ n.id = w.node) := by
  intro w hw
  rcases h.waiting ht.orderly.ends r with same | none | ⟨kind, node, new, later, staged⟩
  · obtain ⟨old, player⟩ := ht.waits w (same ▸ hw)
    exact ⟨Nat.lt_of_lt_of_le old h.ages.waits_le, player⟩
  · rw [none] at hw
    cases hw
  · rw [new] at hw
    cases hw
    refine ⟨later, fun player => ?_⟩
    rcases staged with rfl | ⟨rest, step, hs, hc, scene, action, rfl, rfl⟩
    · cases player
    · obtain ⟨hn, suits⟩ := ht.step hs hc
      refine ⟨step.node, hn, ?_, rfl⟩
      have own := suits scene action
      cases scene with
      | card => exact own
      | battle => cases player

/-- A call that is not asked for with a deed was asked for before. -/
theorem Yields.asked (h : t.Yields d u) {a : Ask} (hu : u.control = .ask a) :
    t.control = .ask a ∨ .asked a ∈ t.stack := by
  obtain ⟨s, stack, c⟩ := t
  obtain ⟨s', stack', c'⟩ := u
  obtain rfl : c' = .ask a := hu
  have shifts : Shifts stack c stack' (.ask a) := h.shifts
  cases shifts with
  | change => exact .inl rfl
  | leave => exact .inr List.mem_cons_self

/-- A battle was begun before, or is begun where the run that is driven begins to wait. -/
theorem Does.begins_battle {opponent : Json.Fields} {b : BattleHandle} (h : t.Does d u)
    (ends : t.EndsWell) (hu : u.control = .ask (.battle opponent b)) :
    (t.control = .ask (.battle opponent b) ∨ .asked (.battle opponent b) ∈ t.stack) ∨
      ∃ q rest step m node, t.stack = .driving q :: rest ∧ t.control = .done (.stepped step) ∧
        b = ⟨q, t.session.nextWait, step.node⟩ ∧ step.Stages .combat node ∧ u.session = m.session ∧
        t.Makes [.driving q] q (.suspended .combat node) m := by
  rcases h.serves ends with hy | ⟨popped, rest, q, α, m, hs, -, rfl, hm, moved⟩
  · exact .inl (hy.asked hu)
  · obtain ⟨node, rfl⟩ := hm.serves.battles opponent b hu
    obtain ⟨rfl, step, hc, stages⟩ := (hm.staged .combat node rfl).resolve_left nofun
    refine .inr ⟨q, rest, step, m, node, hs, hc, ?_, stages, rfl, hm⟩
    obtain ⟨s, stack, c⟩ := t
    obtain rfl : stack = .driving q :: rest := hs
    obtain rfl : c = .done (.stepped step) := hc
    rcases moved with rfl | ⟨a, answer, rfl⟩
    · generalize m.on rest = u at h hu
      cases h with
      | receive hn => exact Session.proceed_battle hu
    · cases h

/-- A battle of the run is begun at the node of its step. -/
theorem Does.battle_grounded {opponent : Json.Fields} {b : BattleHandle} (h : t.Does d u)
    (ht : t.Grounded blamed T r) (hu : u.control = .ask (.battle opponent b)) :
    b.run = r → T.nodes b.node ∧ b.node.kind = .combat := by
  rcases h.begins_battle ht.orderly.ends hu with
    (hb | hb) | ⟨q, rest, step, m, node, hs, hc, rfl, ⟨scene, action, kind, -⟩, -⟩
  · have keeps := ht.control
    rw [hb] at keeps
    exact keeps
  · exact ht.stack _ hb
  · rintro rfl
    obtain ⟨hn, suits⟩ := ht.step hs hc
    have own := suits scene action
    cases scene with
    | battle => exact ⟨hn, own⟩
    | card card => cases card <;> cases kind

/-- **What the host is given** keeps to the nodes of the run. -/
theorem Does.control_grounded (h : t.Does d u) (ht : t.Grounded blamed T r)
    (handed : ∀ e, d = .begin e → e.Keeps T r t.session) : u.control.Keeps T r u.session := by
  have stays : ∀ w, t.session.IsForPlayer r w → u.session.IsForPlayer r w :=
    fun w hw => hw.does h ht.orderly.ends
  cases hu : u.control with
  | work task =>
    cases task with
    | entry e => exact (handed e (h.begins hu)).mono stays
    | _ => trivial
  | ask a =>
    cases a with
    | battle opponent b => exact h.battle_grounded ht hu
    | startTimer seconds timer =>
      rintro rfl
      refine stays _ ?_
      rcases (h.heeds ht.mild).timer timer.run timer.wait seconds (by rw [hu]; rfl) with hs | hc | hs
      · exact ht.stack _ hs rfl
      · have keeps := ht.control
        unfold Control.timer? at hc
        split at hc
        case h_1 hc' =>
          cases hc
          rw [hc'] at keeps
          exact keeps rfl
        case h_2 => cases hc
      · exact ht.stack _ hs rfl
    | _ => trivial
  | done | failed => trivial

theorem Does.stack_grounded (h : t.Does d u) (ht : t.Grounded blamed T r) :
    ∀ f ∈ u.stack, f.Keeps T r u.session := by
  intro f hf
  have ends := ht.orderly.ends
  have stays : ∀ w, t.session.IsForPlayer r w → u.session.IsForPlayer r w :=
    fun w hw => hw.does h ends
  have before (hf : f ∈ t.stack) : f.Keeps T r u.session := (ht.stack f hf).mono stays
  rcases h.serves ends with hy | ⟨popped, rest, q, α, m, hs, -, rfl, hm, -⟩
  · obtain ⟨s, stack, c⟩ := t
    obtain ⟨s', stack', c'⟩ := u
    have shifts : Shifts stack c stack' c' := hy.shifts
    cases shifts with
    | change | fail => exact before hf
    | beginAtRest => cases hf
    | beginInside =>
      rcases List.mem_cons.1 hf with rfl | hf
      · exact Ask.Keeps.mono ht.control stays
      · exact before hf
    | leave => exact before (List.mem_cons_of_mem _ hf)
  · rcases List.mem_append.1 hf with hf | hf
    · cases f with
      | asked a => exact absurd hf (hm.serves.calls a)
      | timing p w seconds =>
        rintro rfl
        obtain ⟨rfl, rfl, node, rfl⟩ := hm.serves.timing p w seconds hf
        have later : m.session.nextWait = t.session.nextWait + 1 :=
          congrArg Outline.nextWait hm.serves.outline
        refine ⟨Nat.lt_of_lt_of_eq (Nat.lt_succ_self _) later.symm, fun v hv id => ?_⟩
        have waiting : (m.session.outline.run p).waiting = _ :=
          congrArg (fun o : Outline => (o.run p).waiting) hm.serves.outline
        have hv : v ∈ (m.session.outline.run p).waiting := hv
        rw [waiting] at hv
        rcases Alteration.waiting_apply (.suspended .image node) p p t.session.outline with
          same | none | ⟨-, kind, node', hα, new⟩
        · exact absurd (ht.waits v (same ▸ hv)).1 (by rw [id]; exact Nat.lt_irrefl _)
        · rw [none] at hv
          cases hv
        · cases hα
          rw [new] at hv
          cases hv
          rfl
      | _ => trivial
    · exact before (hs ▸ List.mem_append_right _ hf)

/-! ### Jobs -/

/-- An answer that is taken up is one to a node of the run, and suits it. -/
theorem Grounded.offers (ht : t.Grounded blamed T r) (named : T.IsNamed) {job : Job}
    (h : t.Offers r job) : job.IsFor T ∧ job.Suits := by
  rcases h with h | ⟨e, hc, current, g, hg, takes⟩
  · exact ht.resuming job h
  · have graph := ht.graph current g hg
    have keeps := ht.control
    rw [hc] at keeps
    cases job with
    | enter => exact takes.elim
    | respond node graph' answer =>
      obtain ⟨rfl, suspended, w, hw, hn, kind⟩ := takes
      have waiting : { w with timer := false } ∈ (t.session.outline.run r).waiting := by
        have hw : (t.session.run r).wait = some w := hw
        simp [Session.outline, Run.outline, suspended, hw]
      have player : w.kind.isForPlayer := by
        rcases kind with player | rfl
        · exact player
        · exact (keeps rfl).2 { w with timer := false } waiting rfl
      obtain ⟨n, on, own, id⟩ := (ht.waits _ waiting).2 player
      obtain rfl := named graph on (id ▸ hn)
      exact ⟨⟨graph, on⟩, own⟩
    | resolve node graph' outcome =>
      obtain ⟨rfl, b, outcome, rfl, hb, rfl, -⟩ := takes
      obtain ⟨on, combat⟩ := keeps hb
      exact ⟨⟨graph, on⟩, combat⟩

/-- **Jobs of the run** are on its terrain, and suit their nodes. -/
theorem Does.jobs_grounded (h : t.Does d u) (ht : t.Grounded blamed T r) (named : T.IsNamed)
    (entered : ∀ g, Event.enters? ⟨t, d, u⟩ r = some g → T.graphs g ∧ T.nodes g.entry) :
    (∀ x ∈ u.session.pending, x.1 = r → x.2.IsFor T ∧ x.2.Suits) ∧
      ∀ job, .resuming r job ∈ u.stack → job.IsFor T ∧ job.Suits := by
  have ends := ht.orderly.ends
  obtain ⟨queued, resumes⟩ := h.chooses
  refine ⟨?_, fun job hj => ht.offers named (resumes r job hj)⟩
  rintro ⟨q, job⟩ hx rfl
  cases enters : Event.enters? ⟨t, d, u⟩ q with
  | some g =>
    rw [(h.of_enters ends enters).2.1] at hx
    rcases List.mem_append.1 hx with hx | hx
    · exact ht.jobs _ hx rfl
    · cases List.mem_singleton.1 hx
      exact ⟨entered g enters, trivial⟩
  | none =>
    rcases queued _ hx with hx | plain | offered
    · exact ht.jobs _ hx rfl
    · refine ht.jobs _ ((h.mem_pending ends hx enters).resolve_right fun answers => ?_) rfl
      rw [plain] at answers
      cases answers
    · exact ht.offers named offered

/-- The current graph is one of the run, as long as it is the current one. -/
theorem Does.graph_grounded (h : t.Does d u) (ht : t.Grounded blamed T r)
    (entered : ∀ q g, Event.enters? ⟨t, d, u⟩ q = some g → u.session.current = some r → T.graphs g)
    (current : u.session.current = some r) : ∀ g ∈ u.session.graph, T.graphs g := by
  have ends := ht.orderly.ends
  intro g hg
  by_cases none : ∀ q, Event.enters? ⟨t, d, u⟩ q = none
  · obtain ⟨same, graph⟩ := h.graph_of_not_entered ends none
    rcases graph with graph | graph
    · exact ht.graph (same ▸ current) g (graph ▸ hg)
    · rw [graph] at hg
      cases hg
  · obtain ⟨q, hq⟩ := Classical.not_forall.1 none
    obtain ⟨g', enters⟩ := Option.ne_none_iff_exists'.1 hq
    obtain rfl : g' = g := Option.some.inj ((h.of_enters ends enters).1.symm.trans hg)
    exact entered q g' enters current

theorem Does.rides_grounded (h : t.Does d u) (ht : t.Grounded blamed T r) :
    Rides (Fitting (T.homes r)) u.control.rider u.stack := by
  have everywhere (job : Job) : job.IsFor .everywhere := by cases job <;> exact ⟨trivial, trivial⟩
  refine (h.handsOn ht.orderly ht.rides (fun q current g hg T' hT => ?_) (fun _ _ => ⟨_, rfl⟩)
    fun x hx => ⟨_, rfl, ?_⟩).rides
  · obtain rfl := Option.some.inj hT
    split
    case isTrue hq => exact ht.graph (hq ▸ current) g hg
    case isFalse => trivial
  · split
    case isTrue hq => exact (ht.jobs x hx hq).1
    case isFalse => exact everywhere x.2

/-- **No deed leads a run off its ground**, as long as it enters only graphs of it, and no other run
enters another graph while it is the current one. -/
theorem Does.grounded (h : t.Does d u) (ht : t.Grounded blamed T r) (named : T.IsNamed)
    (handed : ∀ e, d = .begin e → e.Keeps T r t.session)
    (entered : ∀ q g, Event.enters? ⟨t, d, u⟩ q = some g → q = r ∨ u.session.current = some r →
      T.graphs g ∧ T.nodes g.entry) :
    u.Grounded (fun event => blamed event ∨ d = .fail (.unknownEvent event)) T r := by
  obtain ⟨jobs, resuming⟩ := h.jobs_grounded ht named fun g enters => entered r g enters (.inl rfl)
  exact
    { orderly := h.orderly ht.orderly
      suits := (h.suits ht.orderly.ends ht.suits fun x hx hq => (ht.jobs x hx hq).2).1
      mild := (h.heeds ht.mild).mild
      rides := h.rides_grounded ht
      graph := fun current => h.graph_grounded ht
        (fun q g enters current => (entered q g enters (.inr current)).1) current
      jobs := jobs
      resuming := resuming
      waits := h.waits_grounded ht
      control := h.control_grounded ht handed
      stack := h.stack_grounded ht }

theorem Grounded.fresh (files : FileTree) (library : Path) (flags : FlagStore) :
    (Session.fresh files library flags).atRest.Grounded (fun _ => False) T r where
  orderly := orderly_fresh files library flags
  suits := ⟨trivial, fun f hf => (by cases hf), trivial, fun _ _ _ _ _ hs => by cases hs⟩
  mild := ⟨trivial, fun f hf => by cases hf⟩
  rides := rfl
  graph := by simp [Session.fresh, Session.atRest]
  jobs := by simp [Session.fresh, Session.atRest]
  resuming := by simp [Session.atRest]
  waits w hw := by cases hw
  control := trivial
  stack f hf := by cases hf

end Turn

end Steps

/-! ## Histories -/

/-- The host says of an event that it is unknown. -/
def Blamed (events : List Event) (event : String) : Prop :=
  ∃ e ∈ events, e.deed = .fail (.unknownEvent event)

/-- What a history keeps in which the run `r` stays on the terrain `T`. -/
structure Homely (T : Terrain) (r : RunId) (events : List Event) (t : Turn) : Prop where
  grounded : t.Grounded (Blamed events) T r
  handles : ∀ e ∈ events, ∀ entry, e.handsOut entry → entry.Keeps T r t.session
  warnings : ∀ w ∈ (t.session.run r).warnings, w.isMild = false →
    ∃ n event, w = .unknownEvent n.id event ∧ T.nodes n ∧ (n.Misses event ∨ Blamed events event)

section Histories

variable {T : Terrain} {r : RunId} {events : List Event} {t u : Turn} {d : Deed}

theorem Turn.Grounded.mono {blamed blamed' : String → Prop} (h : t.Grounded blamed T r)
    (wider : ∀ event, blamed event → blamed' event) : t.Grounded blamed' T r :=
  { h with suits := { h.suits with blame := fun q n g stack event hs hc =>
      (h.suits.blame q n g stack event hs hc).imp_right (wider event) } }

theorem Blamed.mono {e : Event} {event : String} (h : Blamed events event) :
    Blamed (events ++ [e]) event := by
  obtain ⟨e', he, hd⟩ := h
  exact ⟨e', List.mem_append_left _ he, hd⟩

/-- A handle that the host comes to know with an event keeps to the nodes of the run. -/
theorem Turn.Grounded.hands {blamed : String → Prop} (h : t.Grounded blamed T r) {entry : Entry}
    (hands : Event.handsOut ⟨t, d, u⟩ entry) : entry.Keeps T r t.session := by
  have keeps := h.control
  unfold Event.handsOut at hands
  split at hands
  case h_1 =>
    split at hands
    case h_1 hc =>
      obtain rfl := of_decide_eq_true hands
      have hc : t.control = _ := hc
      rw [hc] at keeps
      exact keeps
    case h_2 => cases hands
  case h_2 =>
    split at hands
    case h_1 hc =>
      obtain rfl := of_decide_eq_true hands
      have hc : t.control = _ := hc
      rw [hc] at keeps
      exact keeps
    case h_2 => cases hands
  case h_3 => trivial
  case h_4 battle timer _ =>
    cases entry with
    | battleOver b outcome => exact absurd rfl (battle b outcome)
    | timeUp t => exact absurd rfl (timer t)
    | _ => trivial

/-- A trigger that fails is at a node of its run. -/
theorem Turn.Grounded.fails {blamed : String → Prop} (h : t.Grounded blamed T r) {w : Warning}
    (fails : t.Fails r w) : ∃ n event, w = .unknownEvent n.id event ∧ T.nodes n ∧
      (n.Misses event ∨ blamed event) := by
  obtain ⟨n, g, stack, event, hs, hc, rfl⟩ := fails
  refine ⟨n, event, rfl, ?_, h.suits.blame r n g stack event hs hc⟩
  have rides := h.rides
  rw [hs, hc] at rides
  obtain ⟨q, f, below, -, -, ⟨T', hT, rfl, -, on⟩, -⟩ := rides.below.seat fun h => by cases h
  rw [Terrain.homes, if_pos rfl] at hT
  exact Option.some.inj hT ▸ on

/-- **One deed more** on the ground of a run. -/
theorem Homely.snoc (h : Homely T r events t) (does : t.Does d u) (named : T.IsNamed)
    (handed : Event.isHanded (events ++ [⟨t, d, u⟩]) ⟨t, d, u⟩)
    (entered : ∀ q g, Event.enters? ⟨t, d, u⟩ q = some g → q = r ∨ u.session.current = some r →
      T.graphs g ∧ T.nodes g.entry) : Homely T r (events ++ [⟨t, d, u⟩]) u := by
  have ends := h.grounded.orderly.ends
  have handles : ∀ e ∈ events ++ [⟨t, d, u⟩], ∀ entry, e.handsOut entry → entry.Keeps T r t.session := by
    intro e he entry hands
    rcases List.mem_append.1 he with he | he
    · exact h.handles e he entry hands
    · obtain rfl := List.mem_singleton.1 he
      exact h.grounded.hands hands
  refine ⟨?_, fun e he entry hands => ?_, fun w hw stern => ?_⟩
  · refine (does.grounded h.grounded named ?_ entered).mono fun event blamed => ?_
    · rintro entry rfl
      obtain ⟨e, he, hands⟩ := List.any_eq_true.1 handed
      exact handles e he entry hands
    · rcases blamed with blamed | hd
      · exact blamed.mono
      · exact ⟨_, List.mem_append_right _ List.mem_cons_self, hd⟩
  · exact (handles e he entry hands).mono fun w hw => hw.does does ends
  · have known : ∃ n event, w = .unknownEvent n.id event ∧ T.nodes n ∧
        (n.Misses event ∨ Blamed events event) := by
      rcases (does.heeds h.grounded.mild).warned r w hw stern with hw | fails
      · exact h.warnings w hw stern
      · exact h.grounded.fails fails
    obtain ⟨n, event, hw, on, why⟩ := known
    exact ⟨n, event, hw, on, why.imp_right .mono⟩

theorem Homely.fresh (files : FileTree) (library : Path) (flags : FlagStore) :
    Homely T r [] (Session.fresh files library flags).atRest :=
  ⟨(Turn.Grounded.fresh files library flags).mono fun _ => False.elim, fun e he => (by cases he),
    fun w hw => by cases hw⟩

theorem History.homely {s : Script} {entry : Node} {files : FileTree} {library : Path}
    {flags : FlagStore} (built : s.IsBuilt entry)
    (h : History anyDeed (Session.fresh files library flags).atRest events t)
    (handed : handedOut [] events) (stays : StaysIn r ⟨s, entry⟩ events) :
    Homely built.ground r events t := by
  have named : built.ground.IsNamed := by
    rintro g n m rfl ⟨hn, -⟩ hm
    exact Option.some.inj (hm.symm.trans hn)
  induction h with
  | nil => exact .fresh files library flags
  | snoc _ _ does ih =>
    rw [handedOut_append, Bool.and_eq_true_iff, List.nil_append] at handed
    refine (ih handed.1 fun e he => stays e (List.mem_append_left _ he)).snoc does named ?_ ?_
    · exact (Bool.and_eq_true_iff.1 handed.2).1
    · intro q g enters own
      obtain rfl : g = ⟨s, entry⟩ := stays _ (List.mem_append_right _ List.mem_cons_self) (q, g)
        (Event.enters?_eq_some.1 enters) own
      exact ⟨rfl, built.entry_onGround⟩

end Histories

/-! ## Runs are foreseen -/

section Foreseeing

variable {T : Terrain} {blamed : String → Prop} {r : RunId} {t u : Turn} {d : Deed} {n : Node}

/-- What the run visits is one of its nodes. -/
theorem Turn.Grounded.visits {g : Graph} (h : t.Grounded blamed T r)
    (hc : t.control = .work (.visit r n g)) : T.nodes n := by
  have rides := h.rides
  rw [hc] at rides
  obtain ⟨q, f, below, -, -, ⟨T', hT, rfl, -, on⟩, -⟩ := rides.seat fun h => by cases h
  rw [Terrain.homes, if_pos rfl] at hT
  exact Option.some.inj hT ▸ on

/-- Where the run goes on from a node, above the frame that drives it. -/
theorem Turn.Grounded.at_node {q : RunId} {g : Graph} {below : List Frame}
    (h : t.Grounded blamed T r) (at_node : t.IsAt q n g below) (driven : below.head? = some (.driving r)) :
    q = r ∧ T.graphs g ∧ T.nodes n := by
  have riding (rides : Rides (Fitting (T.homes r)) (.atNode q n g) below) :
      q = r ∧ T.graphs g ∧ T.nodes n := by
    obtain ⟨p, f, rest, rfl, seats, ⟨T', hT, rfl, hg, on⟩, -⟩ := rides.seat fun h => by cases h
    obtain rfl : f = .driving r := Option.some.inj driven
    obtain rfl : r = q := by simpa [Frame.seats] using seats
    rw [Terrain.homes, if_pos rfl] at hT
    obtain rfl := Option.some.inj hT
    exact ⟨rfl, hg, on⟩
  have rides := h.rides
  rcases at_node with ⟨hc, rfl⟩ | ⟨f, result, hs, hc, rider⟩
  · rw [hc] at rides
    exact riding rides
  · rw [hs] at rides
    have below := rides.below
    rw [rider] at below
    exact riding below

/-- Where a path of the run ends, an output of its last node leads nowhere. -/
theorem Turn.Does.runsOff (does : t.Does d u) (h : t.Grounded blamed T r)
    (ended : Event.RunsOff ⟨t, d, u⟩ r n) : ∃ decision, ∃ i : Nat,
      t.leaves? d = some (n, decision) ∧ n.output? decision = some (i : Int) ∧ T.nodes n ∧
        (∃ g, T.graphs g ∧ g.follow? n.id i = none) ∧ (n.kind = .trigger ∨ ∃ f, n.loss? i = some f) := by
  obtain ⟨hu, driven⟩ := ended
  have suits := does.suits h.orderly.ends h.suits fun x hx hq => (h.jobs x hx hq).2
  have full : u.stack ≠ [] := fun none => by
    have driven : u.stack.head? = some (.driving r) := driven
    rw [none] at driven
    cases driven
  obtain ⟨decision, output, q, g, leaves, out, at_node, lost, decides⟩ := suits.2 n hu full
  obtain ⟨rfl, hg, on⟩ := h.at_node at_node driven
  obtain ⟨i, rfl, loss⟩ := Node.loss_of_decides (decides rfl) out
  exact ⟨decision, i, leaves, out, on, ⟨g, hg, lost⟩, loss⟩

end Foreseeing

/-- **What becomes of a run is foreseen** by the issues of its script, as long as it takes no link
and no other run replaces its graph.  No node that it visits has an issue that it cannot be
reached.  Where a path of it ends, the last node was left through an output to which nothing is
connected; and there is an issue about that output, except after a trigger.  It is warned of an
unknown event only where there is an issue about the event, or if the host says so.  So without
issues, the run never ends by running off a node that is no trigger. -/
theorem run_foreseen {s : Script} {g : Graph} (ofScript : Graph.ofScript s = .ok g)
    {files : FileTree} {library : Path} {flags : FlagStore} {events : List Event} {t : Turn}
    (h : History anyDeed (Session.fresh files library flags).atRest events t)
    (handed : handedOut [] events) {r : RunId} (stays : StaysIn r g events) :
    (∀ e ∈ events, ∀ node graph, e.before.control = .work (.visit r node graph) →
      ⟨s.id, .unreachable node.id⟩ ∉ s.issues) ∧
    (∀ e ∈ events, ∀ n, e.RunsOff r n → ∃ decision, ∃ i : Nat,
      e.before.leaves? e.deed = some (n, decision) ∧ n.output? decision = some (i : Int) ∧
        g.follow? n.id i = none ∧
        (n.kind = .trigger ∨ ∃ f, n.loss? i = some f ∧ ⟨s.id, f⟩ ∈ s.issues)) ∧
    (∀ node event, .unknownEvent node event ∈ (t.session.run r).warnings →
      ⟨s.id, .unknownEvent node event⟩ ∈ s.issues ∨ Blamed events event) ∧
    (s.issues = [] → ∀ e ∈ events, ∀ n, e.RunsOff r n → n.kind = .trigger) := by
  obtain ⟨script, entry⟩ := g
  obtain ⟨rfl, built⟩ := Script.isBuilt_of_ofScript ofScript
  have grounded (e : Event) (he : e ∈ events) :
      ∃ blamed, e.before.Does e.deed e.after ∧ e.before.Grounded blamed built.ground r := by
    obtain ⟨earlier, later, rfl⟩ := List.append_of_mem he
    obtain ⟨before, -, does, -⟩ := h.of_append_cons
    rw [handedOut_append, Bool.and_eq_true_iff] at handed
    exact ⟨_, does, (before.homely built handed.1
      fun e he => stays e (List.mem_append_left _ he)).grounded⟩
  have lost (e : Event) (he : e ∈ events) (n : Node) (ended : e.RunsOff r n) :
      ∃ decision, ∃ i : Nat, e.before.leaves? e.deed = some (n, decision) ∧
        n.output? decision = some (i : Int) ∧ Graph.follow? ⟨script, entry⟩ n.id i = none ∧
        (n.kind = .trigger ∨ ∃ f, n.loss? i = some f ∧ ⟨script.id, f⟩ ∈ script.issues) := by
    obtain ⟨blamed, does, ground⟩ := grounded e he
    obtain ⟨decision, i, leaves, out, on, ⟨g, rfl, unconnected⟩, loss⟩ := does.runsOff ground ended
    refine ⟨decision, i, leaves, out, unconnected, loss.imp_right ?_⟩
    rintro ⟨f, found⟩
    exact ⟨f, found, built.issue_of_loss on unconnected found⟩
  refine ⟨fun e he node graph hc => ?_, lost, fun node event warned => ?_, fun none e he n ended => ?_⟩
  · obtain ⟨blamed, -, ground⟩ := grounded e he
    exact built.not_unreachable (ground.visits hc)
  · obtain ⟨n, event', same, on, why⟩ := (h.homely built handed stays).warnings _ warned rfl
    cases same
    refine why.imp_left ?_
    rintro ⟨trigger, body, rfl, unknown⟩
    exact built.issue_of_unknownEvent on body unknown
  · obtain ⟨decision, i, -, -, -, trigger | ⟨f, -, issue⟩⟩ := lost e he n ended
    · exact trigger
    · rw [none] at issue
      cases issue

/-! ### The end of a gallery -/

/-- The gallery is left through the picture, and ends after the line, as its script foretells. -/
theorem gallery_end_foreseen :
    let start := (Session.fresh (.empty []) (.ofString "scripts") {}).atRest
    let events := start.record timerRung
    handedOut [] events ∧ StaysIn 0 gallery events ∧ (∃ e ∈ events, e.RunsOff 0 hello) ∧
      ⟨"gallery", .deadEnd "hello" .dialogue⟩ ∈ gallery.script.issues := by
  intro start events
  have played : start.play? timerRung = some (start.play timerRung) :=
    Turn.play?_eq (by decide +kernel)
  have history : History anyDeed start events (start.play timerRung) :=
    Turn.history_of_play? played fun _ _ => trivial
  have handed : handedOut [] events := by decide +kernel
  have stays : StaysIn 0 gallery events := by decide +kernel
  have ended : ∃ e ∈ events, e.RunsOff 0 hello := by decide +kernel
  refine ⟨handed, stays, ended, ?_⟩
  obtain ⟨e, he, off⟩ := ended
  obtain ⟨-, lost, -⟩ := run_foreseen (s := gallery.script) (g := gallery) rfl history handed stays
  obtain ⟨decision, i, -, -, -, trigger | ⟨f, found, issue⟩⟩ := lost e he hello off
  · cases trigger
  · cases i with
    | zero =>
      cases found
      exact issue
    | succ i => cases found

/-- A line of speech, and the end of the quest after it. -/
def tour : Graph :=
  { script := {
      id := "tour"
      nodes := [hello, ⟨"end", .ending⟩]
      connections := [{ source := "hello", output := 0, target := "end" }] }
    entry := hello }

/-- The quest behind a door: one line of speech, under the name of the line of the tour. -/
def echo : FileTree :=
  ((FileTree.empty []).store ["scripts"] .directory).store ["scripts", "quest.json"]
    (.file ("\x7b\"nodes\":[\x7b\"id\":\"hello\",\"type\":\"dialogue\"\x7d]\x7d".toList.map fun c =>
      UInt8.ofNat c.toNat))

/-- From inside the call that hands over the answers the host stops the run and begins the tour.
Then it lets the link be taken; the line of the tour is shown, and the player goes on from it. -/
def tourReplaced : List Deed :=
  doorReached ++
    [.begin .stop, .move, .move, .leave, .begin (.startGraph tour none), .move, .leave,
      .reply (.handOver 0 "door" { target := "quest" } 0 []) .plain, .move, .move, .move, .move, .move,
      .move, .reply (.engage (.dialogue (Dialogue.card { text := "Hello" } "hello"))) (), .move, .move,
      .move, .move, .begin (.advance .null), .move, .move, .move, .move, .move, .move]

/-- **The tour ends at its first line**, although its script has no issues: the link of a run that
was replaced has put another graph in the place of its own. -/
theorem replaced_tour_unforeseen :
    let start := (Session.fresh echo (.ofString "scripts") {}).atRest
    let events := start.record tourReplaced
    let line : Node := ⟨"hello", .dialogue { text := "Hello!" }⟩
    ∃ t, History anyDeed start events t ∧ handedOut [] events ∧
      Graph.ofScript tour.script = .ok tour ∧ tour.script.issues = [] ∧
      latest events 1 = some tour ∧ (∀ e ∈ events, ∀ x ∈ e.entered?, x.1 = 1 → x.2 = tour) ∧
      (∃ e ∈ events, e.RunsOff 1 line) ∧ line.kind = .dialogue ∧ ¬StaysIn 1 tour events := by
  intro start events line
  have played : start.play? tourReplaced = some (start.play tourReplaced) :=
    Turn.play?_eq (by decide +kernel)
  have history : History anyDeed start events (start.play tourReplaced) :=
    Turn.history_of_play? played fun _ _ => trivial
  have entered : ∀ e ∈ events, ∀ x, x ∈ e.entered? → x.1 = 1 → x.2 = tour := by decide +kernel
  exact ⟨_, history, by decide +kernel, rfl, by decide +kernel, by decide +kernel, entered,
    by decide +kernel, rfl, by decide +kernel⟩

end Questline

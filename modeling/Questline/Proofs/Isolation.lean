import Questline.Proofs.Errands
import Questline.Proofs.Refinement

/-!
# Runs apart from each other

A session has one graph, and it belongs to the current run.  All else that a run has is its own,
and nothing that is done for another run touches it.  The graph is replaced when a run is begun,
and when a run enters the target of a link; and a run may do the latter although it was stopped
and replaced while the link was taken.  Then the current run goes on in a graph that it never
entered.

As long as no run trespasses like that, the current graph is the one that the current run entered
last, and whatever is visited and answered for a run lies in the graph that this run entered last.

* `Event.enters?`, `latest`: the graphs that a run enters, and the one that it entered last.
* `Event.Trespasses`: a run that is not the current one replaces the graph.
* `Turn.Does.others`: what is done for one run leaves every other run as it is.
* `Turn.Separate`: all errands of a run, and the current graph, are in the graph that it entered
  last; `Turn.Does.separate`: no deed changes that but a trespass.
* `runs_isolated_iff`: runs are kept apart just if none trespasses.
-/

namespace Questline

open Json (Value)

/-! ## Graphs that are entered -/

/-- The run that enters a graph with an event, and the graph: the run is begun, or has taken a
link. -/
def Event.entered? (e : Event) : Option (RunId × Graph) :=
  match e.after.session.pending.drop e.before.session.pending.length with
  | [(q, .enter g)] => some (q, g)
  | _ => none

/-- The graph that the run `r` enters with an event. -/
def Event.enters? (e : Event) (r : RunId) : Option Graph :=
  e.entered?.bind fun x => if x.1 = r then some x.2 else none

/-- The graph in which a run is after an event, if it was in the graph `own r` before. -/
def Event.moves (e : Event) (own : RunId → Option Graph) (r : RunId) : Option Graph :=
  (e.enters? r).or (own r)

/-- The graph that each run entered last. -/
def latest (events : List Event) : RunId → Option Graph :=
  events.foldl (fun own e => e.moves own) fun _ => none

@[simp] theorem latest_nil : latest [] = fun _ => none := rfl

@[simp] theorem latest_concat (events : List Event) (e : Event) :
    latest (events ++ [e]) = e.moves (latest events) := by
  simp [latest, List.foldl_append]

/-- A run enters a graph while another run is current, which is in a different graph. -/
def Event.Trespasses (own : RunId → Option Graph) (e : Event) : Prop :=
  ∃ x ∈ e.entered?, ∃ r ∈ e.after.session.current, x.1 ≠ r ∧ own r ≠ some x.2

instance (own : RunId → Option Graph) (e : Event) : Decidable (e.Trespasses own) :=
  inferInstanceAs (Decidable (∃ x, x ∈ e.entered? ∧ _))

/-- The graph that is entered with an alteration. -/
def Alteration.entered? : Alteration → Option Graph
  | .opened g _ | .installed g => some g
  | _ => none

theorem Alteration.entered?_eq_some {α : Alteration} {g : Graph} (h : α.entered? = some g) :
    (∃ c, α = .opened g c) ∨ α = .installed g := by
  cases α with
  | opened g' c => cases h; exact .inl ⟨c, rfl⟩
  | installed g' => cases h; exact .inr rfl
  | _ => cases h

theorem Event.enters?_eq_some {e : Event} {q : RunId} {g : Graph} :
    e.enters? q = some g ↔ e.entered? = some (q, g) := by
  unfold enters?
  cases e.entered? with
  | none => simp
  | some x =>
    obtain ⟨p, g'⟩ := x
    by_cases hp : p = q <;> simp [hp]

theorem Event.enters?_of_ne {e : Event} {q r : RunId} {g : Graph} (h : e.enters? q = some g)
    (hr : r ≠ q) : e.enters? r = none := by
  rw [enters?, enters?_eq_some.1 h]
  exact if_neg (Ne.symm hr)

theorem Event.moves_of_ne {e : Event} {own : RunId → Option Graph} {q r : RunId} {g : Graph}
    (h : e.enters? q = some g) (hr : r ≠ q) : e.moves own r = own r := by
  rw [moves, enters?_of_ne h hr, Option.none_or]

theorem Event.moves_self {e : Event} {own : RunId → Option Graph} {q : RunId} {g : Graph}
    (h : e.enters? q = some g) : e.moves own q = some g := by
  rw [moves, h, Option.some_or]

theorem Event.moves_eq {e : Event} {own : RunId → Option Graph} (h : ∀ q, e.enters? q = none) :
    e.moves own = own := by
  funext r
  rw [moves, h, Option.none_or]

section Entering

variable {q r : RunId} {o : Outline} {α : Alteration} {g : Graph}

theorem Alteration.pending_of_entered (h : α.entered? = some g) :
    (α.apply q o).pending = o.pending ++ [(q, .enter g)] := by
  rcases entered?_eq_some h with ⟨c, rfl⟩ | rfl <;> rfl

theorem Alteration.graph_of_entered (h : α.entered? = some g) : (α.apply q o).graph = some g := by
  rcases entered?_eq_some h with ⟨c, rfl⟩ | rfl <;> rfl

theorem Alteration.waiting_of_entered (h : α.entered? = some g) (hq : q < (α.apply q o).length)
    (opened : ∀ g c, α = .opened g c → q = o.length) : ((α.apply q o).run q).waiting = none := by
  rcases entered?_eq_some h with ⟨c, rfl⟩ | rfl
  · obtain rfl := opened g c rfl
    simp [apply, Outline.queue]
  · have hq : q < o.length := hq
    simp [apply, Outline.queue, Outline.change, hq]

/-- What does not enter a graph queues at most an answer. -/
theorem Alteration.mem_pending_of_not_entered (h : α.entered? = none) (ends : α.endsWell)
    {x : RunId × Job} (hx : x ∈ (α.apply q o).pending) : x ∈ o.pending ∨ x.2.isAnswer := by
  cases α with
  | opened | installed => cases h
  | resumed job =>
    rcases List.mem_append.1 hx with hx | hx
    · exact .inl hx
    · obtain rfl := List.mem_singleton.1 hx
      exact .inr ends
  | taken => exact .inl (List.mem_of_mem_tail hx)
  | dropped => cases hx
  | _ => exact .inl hx

theorem Alteration.pending_of_not_entered (h : α.entered? = none) (ends : α.endsWell) :
    (α.apply q o).pending.drop o.pending.length = [] ∨
      ∃ job : Job, job.isAnswer ∧ (α.apply q o).pending = o.pending ++ [(q, job)] := by
  cases α with
  | opened | installed => cases h
  | resumed job => exact .inr ⟨job, ends, rfl⟩
  | _ => left; simp [apply, Outline.change]

end Entering

namespace Turn

variable {t u : Turn} {d : Deed} {q r : RunId} {α : Alteration} {m : Move} {popped rest : List Frame}

theorem Yields.enters? (h : t.Yields d u) : Event.enters? ⟨t, d, u⟩ r = none := by
  have pending : u.session.pending = t.session.pending := congrArg Outline.pending h.outline
  simp [Event.enters?, Event.entered?, pending]

/-- A move enters the graph that it alters the outline with, for the run that it serves. -/
theorem Makes.enters? (h : t.Makes popped q α m) :
    Event.enters? ⟨t, d, m.on rest⟩ r = if q = r then α.entered? else none := by
  have pending : m.session.pending = (α.apply q t.session.outline).pending :=
    congrArg Outline.pending h.serves.outline
  have entered : Event.entered? ⟨t, d, m.on rest⟩ =
      match m.session.pending.drop t.session.pending.length with
      | [(q, .enter g)] => some (q, g)
      | _ => none := rfl
  rw [Event.enters?, entered]
  cases hα : α.entered? with
  | some g =>
    rw [pending, Alteration.pending_of_entered hα]
    simp [Session.outline]
  | none =>
    rw [ite_self]
    rcases Alteration.pending_of_not_entered (q := q) (o := t.session.outline) hα h.ends with
      hnil | ⟨job, answers, hp⟩
    · rw [pending, show t.session.pending = t.session.outline.pending from rfl, hnil]
      rfl
    · rw [pending, hp]
      cases job with
      | enter g => cases answers
      | respond node g answer => simp [Session.outline]
      | resolve node g outcome => simp [Session.outline]

/-- What happens to the graph and to the jobs with the entering of a graph. -/
theorem Does.of_enters (h : t.Does d u) (ends : t.EndsWell) {g : Graph}
    (enters : Event.enters? ⟨t, d, u⟩ q = some g) :
    u.session.graph = some g ∧ u.session.pending = t.session.pending ++ [(q, .enter g)] ∧
      ∀ w, (u.session.run q).isWaitingOn w = false := by
  rcases h.serves ends with hy | ⟨popped, rest, p, α, m, hs, -, rfl, hm, -⟩
  · rw [hy.enters?] at enters
    cases enters
  · rw [hm.enters?] at enters
    split at enters
    case isFalse => cases enters
    case isTrue hp =>
      subst hp
      have outline := hm.serves.outline
      refine ⟨(congrArg Outline.graph outline).trans (Alteration.graph_of_entered enters),
        (congrArg Outline.pending outline).trans (Alteration.pending_of_entered enters), fun w => ?_⟩
      have length : m.session.runs.length = (α.apply p t.session.outline).length :=
        congrArg Outline.length outline
      rw [Run.isWaitingOn_eq]
      by_cases hp : p < m.session.runs.length
      · have waiting : (m.session.run p).outline.waiting = none :=
          (congrArg (fun o : Outline => (o.run p).waiting) outline).trans
            (Alteration.waiting_of_entered enters (length ▸ hp) fun g c hα => (hm.opened g c hα).1)
        show (m.session.run p).outline.waiting.any _ = false
        rw [waiting]
        rfl
      · show (m.session.run p).outline.waiting.any _ = false
        rw [Session.run_of_length_le (Nat.le_of_not_lt hp)]
        rfl

/-- A run that is new was begun in a graph. -/
theorem Does.begun (h : t.Does d u) (ends : t.EndsWell) (hr : r < u.session.runs.length)
    (none : Event.enters? ⟨t, d, u⟩ r = none) : r < t.session.runs.length := by
  rcases h.serves ends with hy | ⟨popped, rest, q, α, m, hs, -, rfl, hm, -⟩
  · rwa [← hy.runs]
  · have length : m.session.runs.length = (α.apply q t.session.outline).length :=
      congrArg Outline.length hm.serves.outline
    change r < m.session.runs.length at hr
    rw [length] at hr
    by_cases ho : ∃ g c, α = .opened g c
    · obtain ⟨g, c, rfl⟩ := ho
      have hq := (hm.opened g c rfl).1
      rw [hm.enters?] at none
      refine Nat.lt_of_le_of_ne (Nat.lt_succ_iff.1 hr) fun hr => ?_
      rw [if_pos (hq.trans hr.symm)] at none
      cases none
    · rwa [Alteration.length_apply_of_not_opened fun g c hα => ho ⟨g, c, hα⟩] at hr

/-- Unless its run enters a graph, a job was queued before, or is an answer. -/
theorem Does.mem_pending (h : t.Does d u) (ends : t.EndsWell) {x : RunId × Job}
    (hx : x ∈ u.session.pending) (none : Event.enters? ⟨t, d, u⟩ x.1 = none) :
    x ∈ t.session.pending ∨ x.2.isAnswer := by
  rcases h.serves ends with hy | ⟨popped, rest, q, α, m, hs, -, rfl, hm, -⟩
  · have pending : u.session.pending = t.session.pending := congrArg Outline.pending hy.outline
    exact .inl (pending ▸ hx)
  · have pending : m.session.pending = (α.apply q t.session.outline).pending :=
      congrArg Outline.pending hm.serves.outline
    change x ∈ m.session.pending at hx
    rw [pending] at hx
    cases hα : α.entered? with
    | some g =>
      rw [Alteration.pending_of_entered hα] at hx
      rcases List.mem_append.1 hx with hx | hx
      · exact .inl hx
      · obtain rfl := List.mem_singleton.1 hx
        rw [hm.enters?, if_pos rfl, hα] at none
        cases none
    | none => exact Alteration.mem_pending_of_not_entered hα hm.ends hx

/-! ## What is done for other runs -/

/-- What is done for one run leaves every other run as it is, and the graph, too, unless that run
enters another one. -/
theorem Does.others (h : t.Does d u) (orderly : t.Orderly) (hr : r < t.session.runs.length)
    (hw : t.worker? ≠ some r) :
    u.session.run r = t.session.run r ∧
      (t.session.current = some r → u.session.current = some r →
        u.session.graph = t.session.graph ∨ ∃ q g, q ≠ r ∧ Event.enters? ⟨t, d, u⟩ q = some g) := by
  rcases h.serves orderly.ends with hy | ⟨popped, rest, q, α, m, hs, -, rfl, hm, -⟩
  · refine ⟨by simp [Session.run, hy.runs], fun _ _ => .inl (congrArg Outline.graph hy.outline)⟩
  · have outline := hm.serves.outline
    rcases hm.worker with hq | opening | nobody
    · have hq : r ≠ q := fun e => hw (e ▸ hq)
      refine ⟨hm.serves.others r hq, fun current _ => ?_⟩
      cases hα : α.entered? with
      | some g => exact .inr ⟨q, g, Ne.symm hq, by rw [hm.enters?, if_pos rfl, hα]⟩
      | none =>
        refine .inl ((congrArg Outline.graph outline).trans ?_)
        have hc : t.session.outline.current ≠ some q := fun e => hq (Option.some.inj (current.symm.trans e))
        cases α with
        | opened | installed => cases hα
        | closed phase => exact if_neg hc
        | _ => rfl
    · cases α with
      | opened g c =>
        have hq := (hm.opened g c rfl).1
        refine ⟨hm.serves.others r fun e => Nat.lt_irrefl _ (hq ▸ e ▸ hr), fun _ current => ?_⟩
        have new : m.session.current = some t.session.runs.length := congrArg Outline.current outline
        rw [show (m.on rest).session.current = m.session.current from rfl, new] at current
        exact absurd hr (Option.some.inj current ▸ Nat.lt_irrefl _)
      | taken =>
        obtain ⟨job, jobs, -, rfl⟩ := hm.queue
        exact ⟨rfl, fun _ _ => .inl rfl⟩
      | _ => cases opening
    · have away : r ≠ r + 1 := Nat.ne_of_lt (Nat.lt_succ_self r)
      refine ⟨(nobody (r + 1)).others r away, fun current _ => ?_⟩
      have outline := (nobody (r + 1)).outline
      cases hα : α.entered? with
      | some g =>
        -- Whatever is queued is queued for one run only.
        have first := congrArg Outline.pending (nobody r).outline
        have second := congrArg Outline.pending outline
        rw [Alteration.pending_of_entered hα] at first second
        simp [first] at second
      | none =>
        refine .inl ((congrArg Outline.graph outline).trans ?_)
        have hc : t.session.outline.current ≠ some (r + 1) :=
          fun e => away (Option.some.inj (current.symm.trans e))
        cases α with
        | opened | installed => cases hα
        | closed phase => exact if_neg hc
        | _ => rfl

/-! ## The graph of the current run -/

/-- The current graph is the one that the current run is in. -/
def OwnsGraph (own : RunId → Option Graph) (t : Turn) : Prop :=
  ∀ r, t.session.current = some r → ∀ g ∈ t.session.graph, own r = some g

/-- Unless a graph is entered, the current run stays, and its graph until it ends. -/
theorem Does.graph_of_not_entered (h : t.Does d u) (ends : t.EndsWell)
    (none : ∀ q, Event.enters? ⟨t, d, u⟩ q = none) :
    u.session.current = t.session.current ∧
      (u.session.graph = t.session.graph ∨ u.session.graph = .none) := by
  rcases h.serves ends with hy | ⟨popped, rest, q, α, m, hs, -, rfl, hm, -⟩
  · exact ⟨congrArg Outline.current hy.outline, .inl (congrArg Outline.graph hy.outline)⟩
  · have plain : α.entered? = .none := by
      have hq := none q
      rwa [hm.enters?, if_pos rfl] at hq
    have current : m.session.current = _ := congrArg Outline.current hm.serves.outline
    have graph : m.session.graph = _ := congrArg Outline.graph hm.serves.outline
    show m.session.current = _ ∧ (m.session.graph = _ ∨ m.session.graph = _)
    rw [current, graph]
    cases α with
    | opened | installed => cases plain
    | closed phase =>
      refine ⟨rfl, ?_⟩
      simp only [Alteration.apply]
      split
      · exact .inr rfl
      · exact .inl rfl
    | _ => exact ⟨rfl, .inl rfl⟩

/-- The current graph stays that of the current run just if no run trespasses. -/
theorem Does.ownsGraph_iff {own : RunId → Option Graph} (h : t.Does d u) (ends : t.EndsWell)
    (owns : t.OwnsGraph own) :
    u.OwnsGraph (Event.moves ⟨t, d, u⟩ own) ↔ ¬Event.Trespasses own ⟨t, d, u⟩ := by
  constructor
  · rintro after ⟨⟨q, g⟩, entered, r, current, hq, away⟩
    have enters := Event.enters?_eq_some.2 entered
    have hg := after r current g (h.of_enters ends enters).1
    rw [Event.moves_of_ne enters (Ne.symm hq)] at hg
    exact away hg
  · intro home r current g hg
    by_cases none : ∀ q, Event.enters? ⟨t, d, u⟩ q = none
    · obtain ⟨hc, hgraph⟩ := h.graph_of_not_entered ends none
      rw [Event.moves_eq none]
      rcases hgraph with hgraph | hgraph
      · exact owns r (hc ▸ current) g (hgraph ▸ hg)
      · rw [hgraph] at hg
        cases hg
    · obtain ⟨q, hq⟩ := Classical.not_forall.1 none
      obtain ⟨g', enters⟩ := Option.ne_none_iff_exists'.1 hq
      have graph := (h.of_enters ends enters).1
      obtain rfl : g' = g := Option.some.inj (graph.symm.trans hg)
      by_cases hr : r = q
      · subst hr
        exact Event.moves_self enters
      · rw [Event.moves_of_ne enters hr]
        exact Classical.not_not.1 fun away =>
          home ⟨(q, g'), Event.enters?_eq_some.1 enters, r, current, Ne.symm hr, away⟩

/-! ## Errands in the graph of their run -/

/-- The terrain of the graph in which each run is. -/
def homes (own : RunId → Option Graph) (r : RunId) : Option Terrain := (own r).map Graph.terrain

/-- Every run is in the graph `own`, with all that is queued, waited for and under way for it, and
the current graph is that of the current run. -/
structure Separate (own : RunId → Option Graph) (t : Turn) : Prop where
  orderly : t.Orderly
  poised : t.Poised
  errands : ∀ r, t.errands r ≤ 1
  rides : Rides (Fitting (homes own)) t.control.rider t.stack
  graph : t.OwnsGraph own
  begun : ∀ r < t.session.runs.length, ∃ g, g ∈ own r
  jobs : ∀ x ∈ t.session.pending, ∃ T ∈ homes own x.1, x.2.IsFor T
  resuming : ∀ r job, .resuming r job ∈ t.stack → ∃ T ∈ homes own r, job.IsFor T

/-- A battle was begun at a node of the graph in which its run still is, if it is waited for. -/
structure Battling (own : RunId → Option Graph) (s : Session) (b : BattleHandle) : Prop where
  begun : b.wait < s.nextWait
  node : (s.run b.run).isWaitingOn b.wait → ∃ g ∈ own b.run, g.Holds b.node

section Steps

variable {own : RunId → Option Graph} {g : Graph}

theorem Separate.fresh (files : FileTree) (library : Path) (flags : FlagStore) :
    Separate (fun _ => none) (Session.fresh files library flags).atRest where
  orderly := orderly_fresh files library flags
  poised := poised_of_free (by simp)
  errands r := Nat.zero_le 1
  rides := rfl
  graph := by simp [OwnsGraph, Session.fresh, Session.atRest]
  begun r hr := absurd hr (Nat.not_lt_zero r)
  jobs := by simp [Session.fresh, Session.atRest]
  resuming := by simp [Session.atRest]

/-- A job that is offered stays in the graph of its run. -/
theorem Separate.offers (ht : t.Separate own)
    (battles : ∀ b outcome, t.control = .work (.entry (.battleOver b outcome)) →
      Battling own t.session b) {job : Job} (h : t.Offers r job) :
    ∃ T ∈ homes own r, job.IsFor T := by
  rcases h with h | ⟨e, control, current, g, hg, takes⟩
  · exact ht.resuming r job h
  · have home := ht.graph r current g hg
    refine ⟨g.terrain, Option.mem_map_of_mem _ home, ?_⟩
    cases job with
    | enter => exact takes.elim
    | respond node graph answer =>
      obtain ⟨rfl, -, w, -, hn, -⟩ := takes
      exact ⟨rfl, Graph.holds_of_node? hn⟩
    | resolve node graph outcome =>
      obtain ⟨rfl, b, outcome, rfl, rfl, rfl, waits⟩ := takes
      obtain ⟨g', hg', holds⟩ := (battles b outcome control).node (Bool.and_eq_true_iff.1 waits).2
      obtain rfl : graph = g' := Option.some.inj (home.symm.trans hg')
      exact ⟨rfl, holds⟩

/-- A run that enters a graph has no other errand. -/
theorem Does.alone (h : t.Does d u) (ends : t.EndsWell) (errands : u.errands q ≤ 1)
    (enters : Event.enters? ⟨t, d, u⟩ q = some g) :
    riders q u.control.rider u.stack = 0 ∧ ¬u.session.Waits q ∧
      ∀ x ∈ u.session.pending, x.1 = q → x = (q, .enter g) := by
  obtain ⟨-, pending, waits⟩ := h.of_enters ends enters
  have load : u.session.outline.load q =
      (t.session.pending.filter (·.1 == q)).length + 1 +
        (u.session.outline.run q).waiting.toList.length := by
    simp [Outline.load, show u.session.outline.pending = u.session.pending from rfl, pending]
  have one : u.session.outline.load q + riders q u.control.rider u.stack ≤ 1 := errands
  refine ⟨by omega, ?_, fun x hx hxq => ?_⟩
  · rintro ⟨w, hw⟩
    rw [waits w] at hw
    cases hw
  rw [pending] at hx
  rcases List.mem_append.1 hx with hx | hx
  · have before : t.session.pending.filter (·.1 == q) = [] :=
      List.eq_nil_of_length_eq_zero (by omega)
    exact absurd (beq_iff_eq.2 hxq) (List.filter_eq_nil_iff.1 before x hx)
  · exact List.mem_singleton.1 hx

theorem Separate.graphs (ht : t.Separate own) (r : RunId) (current : t.session.current = some r)
    (g : Graph) (hg : g ∈ t.session.graph) (T : Terrain) (hT : T ∈ homes own r) : T.graphs g := by
  obtain ⟨g', hg', rfl⟩ := Option.map_eq_some_iff.1 hT
  exact Option.some.inj ((ht.graph r current g hg).symm.trans hg')

theorem Separate.begins (ht : t.Separate own) (r : RunId) (hr : r < t.session.runs.length) :
    ∃ T, T ∈ homes own r := by
  obtain ⟨g, hg⟩ := ht.begun r hr
  exact ⟨g.terrain, Option.mem_map_of_mem _ hg⟩

/-- **Errands stay in the graph of their run**, as long as no run trespasses. -/
theorem Does.separate (h : t.Does d u) (calm : calmCancel t d) (ht : t.Separate own)
    (battles : ∀ b outcome, t.control = .work (.entry (.battleOver b outcome)) →
      Battling own t.session b)
    (home : ¬Event.Trespasses own ⟨t, d, u⟩) : u.Separate (Event.moves ⟨t, d, u⟩ own) := by
  have ends := ht.orderly.ends
  have handed := h.handsOn ht.orderly ht.rides ht.graphs ht.begins ht.jobs
  have errands (r : RunId) : u.errands r ≤ 1 :=
    (handed.errands ht.poised r).elim (fun le => Nat.le_trans le (ht.errands r)) (·.2)
  have poised := h.poised calm ht.poised
  obtain ⟨queued, resumes⟩ := h.chooses
  have offered {r : RunId} {job : Job} (ho : t.Offers r job) := ht.offers battles ho
  -- What the run had before, it still has, unless it enters a graph.
  have stays {r : RunId} {P : Terrain → Prop} (hr : Event.enters? ⟨t, d, u⟩ r = none)
      (hp : ∃ T ∈ homes own r, P T) : ∃ T ∈ homes (Event.moves ⟨t, d, u⟩ own) r, P T := by
    rwa [homes, Event.moves, hr, Option.none_or]
  have entered {r : RunId} {g : Graph} (hr : Event.enters? ⟨t, d, u⟩ r = some g) :
      g.terrain ∈ homes (Event.moves ⟨t, d, u⟩ own) r :=
    Option.mem_map_of_mem _ (Event.moves_self hr)
  refine
    { orderly := h.orderly ht.orderly
      poised := poised
      errands := errands
      rides := ?rides
      graph := (h.ownsGraph_iff ends ht.graph).2 home
      begun := ?begun
      jobs := ?jobs
      resuming := ?resuming }
  case rides =>
    by_cases none : ∀ q, Event.enters? ⟨t, d, u⟩ q = none
    · rw [Event.moves_eq none]
      exact handed.rides
    · obtain ⟨q, hq⟩ := Classical.not_forall.1 none
      obtain ⟨g, enters⟩ := Option.ne_none_iff_exists'.1 hq
      refine handed.rides.mono (h.alone ends (errands q) enters).1 fun r x hr fits => ?_
      exact stays (Event.enters?_of_ne enters hr) fits
  case begun =>
    intro r hr
    cases enters : Event.enters? ⟨t, d, u⟩ r with
    | some g => exact ⟨g, Event.moves_self enters⟩
    | none =>
      rw [Event.moves, enters, Option.none_or]
      exact ht.begun r (h.begun ends hr enters)
  case jobs =>
    rintro ⟨r, job⟩ hx
    cases enters : Event.enters? ⟨t, d, u⟩ r with
    | some g =>
      cases (h.alone ends (errands r) enters).2.2 _ hx rfl
      exact ⟨g.terrain, entered enters, rfl, .inl rfl⟩
    | none =>
      refine stays enters ?_
      rcases queued _ hx with hx | answer | ho
      · exact ht.jobs _ hx
      · refine ht.jobs _ ((h.mem_pending ends hx enters).resolve_right fun answers => ?_)
        rw [answer] at answers
        cases answers
      · exact offered ho
  case resuming =>
    intro r job hr
    cases enters : Event.enters? ⟨t, d, u⟩ r with
    | some g =>
      -- The run of such a frame still waits, which would be a second errand.
      refine absurd ?_ (h.alone ends (errands r) enters).2.1
      cases hs : u.stack with
      | nil => rw [hs] at hr; cases hr
      | cons f stack =>
        rw [hs] at hr
        rcases List.mem_cons.1 hr with rfl | hr
        · exact poised.waits r job stack hs
        · have free := poised.rest (.resuming r job) (by rw [hs]; exact hr)
          cases free
    | none => exact stays enters (offered (resumes r job hr))

/-! ## Battles that are waited for -/

theorem Does.battling {b : BattleHandle} (h : t.Does d u) (ends : t.EndsWell)
    (hb : Battling own t.session b) : Battling (Event.moves ⟨t, d, u⟩ own) u.session b := by
  have ages := h.ages
  refine ⟨Nat.lt_of_lt_of_le hb.begun ages.waits_le, fun waits => ?_⟩
  have before : (t.session.run b.run).isWaitingOn b.wait := by
    cases hw : (t.session.run b.run).isWaitingOn b.wait with
    | true => rfl
    | false =>
      rw [ages.not_waiting hb.begun hw] at waits
      cases waits
  cases enters : Event.enters? ⟨t, d, u⟩ b.run with
  | some g =>
    rw [(h.of_enters ends enters).2.2 b.wait] at waits
    cases waits
  | none =>
    rw [Event.moves, enters, Option.none_or]
    exact hb.node before

/-- A battle is begun in the graph of its run. -/
theorem Does.battling_of_begun {opponent : Json.Fields} {b : BattleHandle} (h : t.Does .move u)
    (ht : t.Separate own) (hu : u.control = .ask (.battle opponent b)) :
    Battling (Event.moves ⟨t, .move, u⟩ own) u.session b := by
  rcases h.serves ht.orderly.ends with hy | ⟨popped, rest, q, α, m, hs, -, rfl, hm, -⟩
  · exact absurd rfl hy.deed.1
  · obtain ⟨node, rfl⟩ := hm.serves.battles opponent b hu
    obtain ⟨rfl, step, hc, -⟩ := (hm.staged .combat node rfl).resolve_left nofun
    have enters : Event.enters? ⟨t, .move, m.on rest⟩ q = none := by simp [hm.enters?, Alteration.entered?]
    have waits : (m.on rest).session.nextWait = t.session.nextWait + 1 :=
      congrArg Outline.nextWait hm.serves.outline
    obtain ⟨s, stack, c⟩ := t
    obtain rfl : stack = .driving q :: rest := hs
    obtain rfl : c = .done (.stepped step) := hc
    have hb : b = ⟨q, s.nextWait, step.node⟩ := by
      generalize m.on rest = u at h hu
      cases h with
      | receive hn => exact Session.proceed_battle hu
    obtain ⟨seat, -⟩ := ht.rides
    obtain ⟨p, seats, T, hT, holds, -⟩ := seat.resolve_left fun h => by cases h
    obtain ⟨-, rfl⟩ : _ ∧ q = p := by simpa [Frame.seats] using seats
    obtain ⟨g, hg, rfl⟩ := Option.map_eq_some_iff.1 hT
    subst hb
    refine ⟨waits ▸ Nat.lt_succ_self _, fun _ => ⟨g, ?_, holds⟩⟩
    rw [Event.moves, enters, Option.none_or]
    exact hg

end Steps

end Turn

/-! ## At each event -/

/-- At each event of a history, after the earlier ones, something holds. -/
def AtEach (P : List Event → Event → Prop) (events : List Event) : Prop :=
  ∀ earlier e later, events = earlier ++ e :: later → P earlier e

theorem atEach_nil (P : List Event → Event → Prop) : AtEach P [] := by
  intro earlier e later h
  simp at h

theorem atEach_concat {P : List Event → Event → Prop} {events : List Event} {e : Event} :
    AtEach P (events ++ [e]) ↔ AtEach P events ∧ P events e := by
  constructor
  · intro h
    refine ⟨fun earlier x later hx => h earlier x (later ++ [e]) ?_, h events e [] rfl⟩
    rw [hx, List.append_assoc, List.cons_append]
  · rintro ⟨h, last⟩ earlier x later hx
    rcases List.eq_nil_or_concat later with rfl | ⟨later, y, rfl⟩
    · obtain ⟨rfl, hy⟩ := List.append_inj' hx rfl
      exact List.singleton_inj.1 hy ▸ last
    · rw [List.concat_eq_append, ← List.cons_append, ← List.append_assoc] at hx
      exact h earlier x later (List.append_inj' hx rfl).1

theorem AtEach.of_append {P : List Event → Event → Prop} {events later : List Event}
    (h : AtEach P (events ++ later)) : AtEach P events := by
  rintro before e after rfl
  exact h before e (after ++ later) (by simp)

/-- No run trespasses. -/
def NoneTrespasses (events : List Event) : Prop :=
  AtEach (fun earlier e => ¬e.Trespasses (latest earlier)) events

/-- After each event the current graph is the one that the current run entered last. -/
def GraphOwned (events : List Event) : Prop :=
  AtEach (fun earlier e => e.after.OwnsGraph (latest (earlier ++ [e]))) events

instance {P : List Event → Event → Prop} [∀ earlier e, Decidable (P earlier e)]
    (events : List Event) : Decidable (AtEach P events) :=
  decidable_of_iff (∀ i : Fin events.length, P (events.take i) events[i])
    ⟨fun h earlier e later hx => by
      have hi : earlier.length < events.length := by simp [hx]
      simpa [hx] using h ⟨earlier.length, hi⟩,
     fun h i => h _ _ (events.drop (i + 1)) (by simp)⟩

instance (events : List Event) : Decidable (NoneTrespasses events) :=
  inferInstanceAs (Decidable (AtEach _ events))

/-! ## Battles that were started -/

/-- Whether a battle is started with an event. -/
def Event.startsBattle (e : Event) (b : BattleHandle) : Bool :=
  match e.deed, e.after.control with
  | .move, .ask (.battle _ started) => started = b
  | _, _ => false

/-- Whether the battle, if its end is reported with an event, was started before. -/
def Event.knowsBattle (known : List Event) (e : Event) : Bool :=
  match e.deed with
  | .begin (.battleOver b _) => known.any (·.startsBattle b)
  | _ => true

/-- Whether the ends of battles are reported only for battles that were started. -/
def battlesStarted (known : List Event) : List Event → Bool
  | [] => true
  | e :: events => e.knowsBattle known && battlesStarted (known ++ [e]) events

theorem battlesStarted_append (known events later : List Event) :
    battlesStarted known (events ++ later) =
      (battlesStarted known events && battlesStarted (known ++ events) later) := by
  induction events generalizing known with
  | nil => simp [battlesStarted]
  | cons e events ih => simp [battlesStarted, ih, Bool.and_assoc]

/-! ## Histories -/

section Histories

variable {files : FileTree} {library : Path} {flags : FlagStore} {events : List Event} {t : Turn}

theorem History.of_forall {may may' : Turn → Deed → Prop} {start : Turn}
    (h : History may start events t) (all : ∀ e ∈ events, may' e.before e.deed) :
    History may' start events t := by
  induction h with
  | nil => exact .nil
  | snoc _ _ does ih =>
    exact (ih fun e he => all e (List.mem_append_left _ he)).snoc
      (all _ (List.mem_append_right _ List.mem_cons_self)) does

/-- While no run trespasses, the current graph is that of the current run. -/
theorem History.ownsGraph (h : History anyDeed (Session.fresh files library flags).atRest events t)
    (home : NoneTrespasses events) : t.OwnsGraph (latest events) := by
  induction h with
  | nil => exact (Turn.Separate.fresh files library flags).graph
  | snoc h _ does ih =>
    obtain ⟨before, last⟩ := atEach_concat.1 home
    rw [latest_concat]
    exact (does.ownsGraph_iff h.orderly_turn.ends (ih before)).2 last

theorem History.graphOwned_iff
    (h : History anyDeed (Session.fresh files library flags).atRest events t) :
    NoneTrespasses events ↔ GraphOwned events := by
  induction h with
  | nil => exact ⟨fun _ => atEach_nil _, fun _ => atEach_nil _⟩
  | snoc h _ does ih =>
    unfold NoneTrespasses GraphOwned at ih ⊢
    rw [atEach_concat, atEach_concat, ← ih]
    refine and_congr_right fun before => ?_
    rw [latest_concat]
    exact (does.ownsGraph_iff h.orderly_turn.ends (h.ownsGraph before)).symm

/-- What a history without trespasses keeps. -/
structure Kept (events : List Event) (t : Turn) : Prop where
  separate : t.Separate (latest events)
  battles : ∀ e ∈ events, ∀ b, e.startsBattle b → Turn.Battling (latest events) t.session b
  reported : ∀ b outcome, t.control = .work (.entry (.battleOver b outcome)) →
    Turn.Battling (latest events) t.session b

theorem History.kept (h : History calmCancel (Session.fresh files library flags).atRest events t)
    (started : battlesStarted [] events) (home : NoneTrespasses events) : Kept events t := by
  induction h with
  | nil =>
    exact ⟨.fresh files library flags, by simp, by simp [Session.atRest]⟩
  | @snoc events t u d h calm does ih =>
    obtain ⟨before, last⟩ := atEach_concat.1 home
    rw [battlesStarted_append, Bool.and_eq_true_iff, List.nil_append] at started
    obtain ⟨started, now⟩ := started
    have kept := ih started before
    have ends := kept.separate.orderly.ends
    have battling {b : BattleHandle} (hb : Turn.Battling (latest events) t.session b) :
        Turn.Battling (latest (events ++ [⟨t, d, u⟩])) u.session b := by
      rw [latest_concat]
      exact does.battling ends hb
    refine ⟨?_, fun e he b hb => ?_, fun b outcome hc => ?_⟩
    · rw [latest_concat]
      exact does.separate calm kept.separate kept.reported last
    · rcases List.mem_append.1 he with he | he
      · exact battling (kept.battles e he b hb)
      · obtain rfl := List.mem_singleton.1 he
        unfold Event.startsBattle at hb
        split at hb
        case h_1 opponent b' hd hu =>
          obtain rfl : d = .move := hd
          obtain rfl := of_decide_eq_true hb
          rw [latest_concat]
          exact does.battling_of_begun kept.separate hu
        case h_2 => cases hb
    · obtain rfl := does.begins hc
      obtain ⟨e, he, hb⟩ : ∃ e ∈ events, e.startsBattle b := by
        simpa [battlesStarted, Event.knowsBattle] using now
      exact battling (kept.battles e he b hb)

end Histories

/-! ## Runs are kept apart -/

/-- Where a node is visited, or an answer taken at it: the run, the node and the graph. -/
def Control.spot? : Control → Option (RunId × Node × Graph)
  | .work (.visit r node graph) | .work (.respond r node graph _)
  | .work (.resolve r node graph _) => some (r, node, graph)
  | _ => none

theorem Turn.Separate.spot {own : RunId → Option Graph} {t : Turn} (ht : t.Separate own) {r : RunId}
    {node : Node} {graph : Graph} (h : t.control.spot? = some (r, node, graph)) :
    own r = some graph ∧ graph.Holds node := by
  have rider : t.control.rider = .atNode r node graph := by
    unfold Control.spot? at h
    split at h <;> cases h <;> simp_all [Control.rider]
  have rides := ht.rides
  rw [rider] at rides
  obtain ⟨q, f, below, -, -, ⟨T, hT, rfl, hgraph, holds⟩, -⟩ := rides.seat fun h => by cases h
  obtain ⟨g, hg, rfl⟩ := Option.map_eq_some_iff.1 hT
  obtain rfl : graph = g := hgraph
  exact ⟨hg, holds⟩

/-- **Runs are kept apart just if none trespasses.**  What is done for one run changes no other,
and replaces the current graph only if it enters another.  The graph stays that of the current run
just if no run enters a graph while another one is current.  Then, for a host that begins nothing
from inside the cancelling of a timer, and reports only the ends of battles that were started, a
run visits and answers nodes only of the graph that it entered last. -/
theorem runs_isolated_iff {files : FileTree} {library : Path} {flags : FlagStore}
    {events : List Event} {t : Turn}
    (h : History anyDeed (Session.fresh files library flags).atRest events t) :
    (∀ e ∈ events, ∀ r < e.before.session.runs.length, e.before.worker? ≠ some r →
      e.after.session.run r = e.before.session.run r ∧
        (e.before.session.current = some r → e.after.session.current = some r →
          e.after.session.graph = e.before.session.graph ∨
            ∃ q g, q ≠ r ∧ e.enters? q = some g)) ∧
    (NoneTrespasses events ↔ GraphOwned events) ∧
    (NoneTrespasses events → (∀ e ∈ events, calmCancel e.before e.deed) →
      battlesStarted [] events →
        AtEach (fun earlier e => ∀ r node graph, e.before.control.spot? = some (r, node, graph) →
          latest earlier r = some graph ∧ graph.Holds node) events) := by
  refine ⟨fun e he r hr worker => ?_, h.graphOwned_iff, fun home calm started => ?_⟩
  · obtain ⟨earlier, later, rfl⟩ := List.append_of_mem he
    obtain ⟨hbefore, -, does, -⟩ := h.of_append_cons
    exact does.others hbefore.orderly_turn hr worker
  · rintro earlier e later rfl r node graph spot
    obtain ⟨hbefore, -, -, -⟩ := h.of_append_cons
    have calmly := hbefore.of_forall fun e he => calm e (List.mem_append_left _ he)
    rw [battlesStarted_append, Bool.and_eq_true_iff] at started
    have apart : NoneTrespasses earlier := fun before x after hx =>
      home before x (after ++ e :: later) (by rw [hx, List.append_assoc, List.cons_append])
    exact (calmly.kept started.1 apart).separate.spot spot

/-! ### A quest that is replaced while its link is taken -/

/-- The quest behind a door: one line of speech. -/
def quest : FileTree :=
  ((FileTree.empty []).store ["scripts"] .directory).store ["scripts", "quest.json"]
    (.file ("\x7b\"nodes\":[\x7b\"id\":\"x\",\"type\":\"dialogue\"\x7d]\x7d".toList.map fun c =>
      UInt8.ofNat c.toNat))

/-- The door is reached, behind which the quest lies, and the answers are handed over. -/
def doorReached : List Deed :=
  [.begin (.startGraph linkOnly (some 0)), .move, .move, .move, .move, .move]

/-- The link is taken, and the quest entered. -/
def questEntered : List Deed :=
  doorReached ++ [.reply (.handOver 0 "door" { target := "quest" } 0 []) .plain, .move, .move, .move]

/-- The run through the door visits nodes only of the graphs that it entered. -/
theorem door_not_trespassed :
    let start := (Session.fresh quest (.ofString "scripts") {}).atRest
    let events := start.record questEntered
    NoneTrespasses events ∧ GraphOwned events ∧
      (start.play questEntered).control.spot?.map (fun x => (x.1, x.2.1.id)) = some (0, "x") := by
  intro start events
  have played : start.play? questEntered = some (start.play questEntered) :=
    Turn.play?_eq (by decide +kernel)
  have history : History anyDeed start events (start.play questEntered) :=
    Turn.history_of_play? played fun _ _ => trivial
  have home : NoneTrespasses events := by decide +kernel
  exact ⟨home, (runs_isolated_iff history).2.1.1 home, by decide +kernel⟩

/-- From inside the call that hands over the answers the host stops the run and begins another,
and then lets the link be taken.  The other run comes to its picture. -/
def replacedAtDoor : List Deed :=
  doorReached ++
    [.begin .stop, .move, .move, .leave, .begin (.startGraph gallery none), .move, .leave,
      .reply (.handOver 0 "door" { target := "quest" } 0 []) .plain, .move, .move, .move, .move, .move]

/-- **The link of a run that was replaced** takes the new run into a graph that it never entered:
it waits at its picture, which is no node of that graph. -/
theorem replaced_run_trespasses :
    let start := (Session.fresh quest (.ofString "scripts") {}).atRest
    let events := start.record replacedAtDoor
    ∃ t, History anyDeed start events t ∧ (∀ e ∈ events, calmCancel e.before e.deed) ∧
      battlesStarted [] events ∧ t.session.current = some 1 ∧ t.session.phase = .suspended ∧
      (t.session.run 1).node = some "picture" ∧ latest events 1 = some gallery ∧
      t.session.graph.map (·.id) = some "quest" ∧
      (t.session.graph.bind (·.node? "picture")).isNone ∧ ¬NoneTrespasses events := by
  intro start events
  have played : start.play? replacedAtDoor = some (start.play replacedAtDoor) :=
    Turn.play?_eq (by decide +kernel)
  have history : History anyDeed start events (start.play replacedAtDoor) :=
    Turn.history_of_play? played fun _ _ => trivial
  exact ⟨_, history, by decide +kernel, by decide +kernel, by decide +kernel, by decide +kernel,
    by decide +kernel, by decide +kernel, by decide +kernel, by decide +kernel, by decide +kernel⟩

end Questline

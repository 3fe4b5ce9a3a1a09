import Questline.Proofs.Timers

/-!
# Runs that have lost their graph

A run that ends takes the current graph with it.  If it was ended from inside the call that hands over its
answers, it may still be suspended for a write after that: it goes on, and is current, but no graph is.  Such a
run is adrift.  It waits for nothing but its write, and visits no node before it has entered another graph.

* `Outline.IsAdrift`: a run is adrift.
* `Turn.Anchored`: what is under way for a run that is adrift; `Turn.Does.anchored` keeps it.
* `Turn.Housed`: runs wait at nodes of the graph that they entered last; `Turn.Does.housed` keeps it.
-/

namespace Questline

open Json (Value)

/-! ## Runs that are adrift -/

/-- The run `r` is current and goes on, but no graph is current. -/
structure Outline.IsAdrift (o : Outline) (r : RunId) : Prop where
  current : o.current = some r
  graph : o.graph = none
  active : (o.run r).phase.isActive

/-- A run is not set adrift but by a suspension, or where it is resumed. -/
theorem Alteration.adrift_apply {α : Alteration} {q r : RunId} {o : Outline} (lt : r < o.length) (ends : α.endsWell)
    (h : (α.apply q o).IsAdrift r) : o.IsAdrift r ∨
      r = q ∧ o.current = some r ∧ o.graph = none ∧ ((∃ kind node, α = .suspended kind node) ∨ ∃ job, α = .resumed job) := by
  obtain ⟨current, graph, active⟩ := h
  cases α with
  | nothing | announced | taken | dropped | rested => exact .inl ⟨current, graph, active⟩
  | opened | installed => cases graph
  | answered | handed | released =>
    refine .inl ⟨current, graph, ?_⟩
    simp only [apply, Outline.change] at active
    split at active <;> exact active
  | suspended kind node =>
    by_cases hr : r = q
    · exact .inr ⟨hr, current, graph, .inl ⟨kind, node, rfl⟩⟩
    · simp only [apply, Outline.change, Ne.symm hr, false_and, if_false] at active
      exact .inl ⟨current, graph, active⟩
  | resumed job =>
    by_cases hr : r = q
    · exact .inr ⟨hr, current, graph, .inr ⟨job, rfl⟩⟩
    · simp only [apply, Outline.queue, Outline.change, Ne.symm hr, false_and, if_false] at active
      exact .inl ⟨current, graph, active⟩
  | closed phase =>
    have current : o.current = some r := current
    by_cases hr : r = q
    · subst hr
      simp only [apply, Outline.change, lt, true_and, if_true] at active
      simp [endsWell, active] at ends
    · refine .inl ⟨current, ?_, ?_⟩
      · simpa [apply, current, hr] using graph
      · simpa [apply, Outline.change, Ne.symm hr] using active

/-- The graphs and nodes that a run may go on with: none if it is adrift. -/
def Outline.shore (o : Outline) (r : RunId) : Terrain where
  graphs _ := ¬o.IsAdrift r
  nodes _ := ¬o.IsAdrift r
  closed _ h _ := h

theorem Rider.Fits.shore {o o' : Outline} {r : RunId} {x : Rider} (h : x.Fits r (o.shore r))
    (keeps : ¬o.IsAdrift r → ¬o'.IsAdrift r) : x.Fits r (o'.shore r) := by
  cases x with
  | nobody | linking => exact h
  | job q job =>
    obtain ⟨rfl, fits⟩ := h
    refine ⟨rfl, ?_⟩
    cases job with
    | enter | respond | resolve => exact ⟨keeps fits.1, keeps fits.2⟩
  | atNode => exact ⟨h.1, keeps h.2.1, keeps h.2.2⟩
  | stepped step => exact ⟨keeps h.1, fun node next => keeps (h.2 node next)⟩

theorem Rides.imp {fits fits' : RunId → Rider → Prop} (wider : ∀ r x, fits r x → fits' r x) {x : Rider}
    {stack : List Frame} (h : Rides fits x stack) : Rides fits' x stack := by
  induction stack generalizing x with
  | nil => exact h
  | cons f stack ih =>
    refine ⟨h.1.imp_right ?_, ih h.2⟩
    rintro ⟨r, seats, fit⟩
    exact ⟨r, seats, wider r x fit⟩

namespace Turn

variable {t u : Turn} {d : Deed} {r : RunId}

/-- A run that is adrift waits for a write at most, and nothing is queued or under way for it but a link. -/
structure Anchored (t : Turn) : Prop where
  rides : Rides (Fitting fun r => some (t.session.outline.shore r)) t.control.rider t.stack
  jobs : ∀ x ∈ t.session.pending, ¬t.session.outline.IsAdrift x.1
  waits : ∀ r, t.session.outline.IsAdrift r → ∀ v ∈ (t.session.outline.run r).waiting, v.kind = .link

/-- Only a run that owns the session is suspended after a step. -/
theorem Does.owns_of_waits (h : t.Does d u) {rest : List Frame} {step : Step}
    (hs : t.stack = .driving r :: rest) (hc : t.control = .done (.stepped step))
    (new : u.session.nextWait ≠ t.session.nextWait) : t.session.owns r := by
  obtain ⟨s, stack, c⟩ := t
  obtain rfl : stack = .driving r :: rest := hs
  obtain rfl : c = .done (.stepped step) := hc
  cases h with
  | receive =>
    cases owns : s.owns r with
    | true => rfl
    | false =>
      refine absurd ?_ new
      show (s.proceed r step).session.nextWait = s.nextWait
      rw [Session.proceed_of_not_owns owns]
      rfl
  | change past => cases past

/-- A run whose timer is being cancelled, or that is to be resumed, waits for its image. -/
theorem Tended.image_of_resuming (ht : t.Tended) (poised : t.Poised) {job : Job} (mem : .resuming r job ∈ t.stack) :
    ∃ v, (t.session.run r).wait = some v ∧ v.kind = .image := by
  cases hs : t.stack with
  | nil =>
    rw [hs] at mem
    cases mem
  | cons f below =>
    rw [hs] at mem
    rcases List.mem_cons.1 mem with rfl | mem
    · obtain ⟨v, wait, image, -⟩ := ht.cancelled r ⟨_, below, hs, rfl, rfl⟩
      exact ⟨v, wait, image⟩
    · have off := poised.rest (.resuming r job) (by rw [hs]; exact mem)
      cases off

/-- A run that is set adrift has just been suspended for a write. -/
theorem Does.set_adrift (h : t.Does d u) (grounds : t.Grounds)
    (before : ¬t.session.outline.IsAdrift r) (after : u.session.outline.IsAdrift r) :
    ∃ v, (u.session.outline.run r).waiting = some v ∧ v.kind = .link := by
  have orderly := grounds.busy.orderly
  rcases h.serves orderly.ends with yields | ⟨popped, rest, q, α, m, hs, -, rfl, hm, -⟩
  · rw [yields.outline] at after
    exact absurd after before
  · have outline : (m.on rest).session.outline = α.apply q t.session.outline := hm.serves.outline
    rw [outline] at after
    have lt : r < t.session.runs.length := by
      refine orderly.current r ?_
      rw [← after.current, Alteration.current_apply fun g c opened => ?_]
      · rfl
      · subst opened
        cases after.graph
    obtain ⟨rfl, current, graph, begins⟩ := (Alteration.adrift_apply lt hm.ends after).resolve_left before
    rcases begins with ⟨kind, node, rfl⟩ | ⟨job, rfl⟩
    · have link : kind = .link := by
        refine (hm.staged kind node rfl).resolve_right ?_
        rintro ⟨rfl, step, hc, -⟩
        have owns := h.owns_of_waits hs hc (by
          show (m.on rest).session.outline.nextWait ≠ t.session.nextWait
          rw [outline]
          exact Nat.succ_ne_self _)
        exact before ⟨current, graph, (Bool.and_eq_true_iff.1 owns).2⟩
      subst link
      rw [outline]
      refine ⟨{ id := t.session.nextWait, kind := .link, node }, ?_, rfl⟩
      exact congrArg RunOutline.waiting (if_pos ⟨rfl, lt⟩)
    · -- A run that is resumed waited before, so it was adrift already.
      obtain ⟨p, queues⟩ := h.queues grounds.poised
      have queued : (m.on rest).session.pending = t.session.pending ++ [(r, job)] := congrArg Outline.pending outline
      obtain ⟨⟨w, waits⟩, rfl, -⟩ := queues.answer hm.ends queued
      refine absurd ⟨current, graph, ?_⟩ before
      rw [Run.isWaitingOn, Bool.and_eq_true_iff] at waits
      show (t.session.run r).phase.isActive
      rw [beq_iff_eq.1 waits.1]
      rfl

/-- A run that stays adrift begins to wait for nothing but a write. -/
theorem Does.adrift_waits (h : t.Does d u) (grounds : t.Grounds) (anchored : t.Anchored)
    (before : t.session.outline.IsAdrift r) :
    ∀ v ∈ (u.session.outline.run r).waiting, v.kind = .link := by
  intro v hv
  rcases h.waiting grounds.busy.orderly.ends r with same | none | ⟨kind, node, new, -, staged⟩
  · exact anchored.waits r before v (same ▸ hv)
  · rw [none] at hv
    cases hv
  · rw [new] at hv
    cases hv
    refine staged.resolve_right ?_
    rintro ⟨rest, step, hs, hc, -⟩
    have rides := anchored.rides
    rw [hs, hc] at rides
    obtain ⟨q, seats, T, hT, holds, -⟩ := rides.1.resolve_left nofun
    obtain ⟨-, rfl⟩ : _ ∧ r = q := by simpa [Frame.seats] using seats
    cases hT
    exact holds before

/-- A run that stays adrift has nothing queued. -/
theorem Does.adrift_jobs (h : t.Does d u) (ht : t.Tended) (grounds : t.Grounds) (anchored : t.Anchored)
    {x : RunId × Job} (before : t.session.outline.IsAdrift x.1) (after : u.session.outline.IsAdrift x.1) :
    x ∉ u.session.pending := by
  intro hx
  have ends := grounds.busy.orderly.ends
  have absent : x ∉ t.session.pending := fun hx => anchored.jobs x hx before
  cases enters : Event.enters? ⟨t, d, u⟩ x.1 with
  | some g =>
    have graph : u.session.graph = none := after.graph
    rw [(h.of_enters ends enters).1] at graph
    cases graph
  | none =>
    have answer := (h.mem_pending ends hx enters).resolve_left absent
    rcases h.chooses.1 x hx with hx | other | mem | ⟨e, -, -, g, hg, -⟩
    · exact absent hx
    · rw [answer] at other
      cases other
    · obtain ⟨v, wait, image⟩ := ht.image_of_resuming grounds.poised mem
      have link := anchored.waits x.1 before { v with timer := false } (grounds.tidy.waiting_eq wait)
      cases image.symm.trans link
    · have graph : t.session.graph = none := before.graph
      rw [graph] at hg
      cases hg

/-- A run that has just been suspended for a write has no other errand. -/
theorem Busy.alone_of_waits (busy : u.Busy) {v : Wait} (hv : (u.session.outline.run r).waiting = some v) :
    riders r u.control.rider u.stack = 0 ∧ ∀ x ∈ u.session.pending, x.1 ≠ r := by
  have one : u.session.outline.load r + riders r u.control.rider u.stack ≤ 1 := busy.single r
  simp only [Outline.load, hv, Option.toList_some, List.length_singleton] at one
  refine ⟨by omega, fun x hx own => ?_⟩
  have none : u.session.pending.filter (·.1 == r) = [] := List.eq_nil_of_length_eq_zero (by
    have same : u.session.outline.pending = u.session.pending := rfl
    rw [same] at one
    omega)
  exact List.filter_eq_nil_iff.1 none x hx (beq_iff_eq.2 own)

/-- **Whoever is adrift waits for a write**, and nothing but a link is under way for it. -/
theorem Does.anchored (h : t.Does d u) (ht : t.Tended) (grounds : t.Grounds) (busy : u.Busy) (anchored : t.Anchored) :
    u.Anchored := by
  have handed := h.handsOn grounds.busy.orderly anchored.rides
    (fun r _ g hg T hT => by
      cases hT
      intro adrift
      have graph : t.session.graph = none := adrift.graph
      rw [graph] at hg
      cases hg)
    (fun r _ => ⟨_, rfl⟩)
    (fun x hx => ⟨_, rfl, by
      have away := anchored.jobs x hx
      cases x.2 <;> exact ⟨away, away⟩⟩)
  refine ⟨?rides, fun x hx after => ?jobs, fun r after => ?waits⟩
  case rides =>
    have wider {r : RunId} {x : Rider}
        (keeps : ¬t.session.outline.IsAdrift r → ¬u.session.outline.IsAdrift r)
        (fits : Fitting (fun r => some (t.session.outline.shore r)) r x) :
        Fitting (fun r => some (u.session.outline.shore r)) r x := by
      obtain ⟨T, hT, fits⟩ := fits
      cases hT
      exact ⟨_, rfl, fits.shore keeps⟩
    by_cases set : ∃ r, ¬t.session.outline.IsAdrift r ∧ u.session.outline.IsAdrift r
    · obtain ⟨r, before, after⟩ := set
      obtain ⟨v, hv, -⟩ := h.set_adrift grounds before after
      refine handed.rides.mono (busy.alone_of_waits hv).1 fun q x hq => wider fun _ other => hq ?_
      exact Option.some.inj (other.current.symm.trans after.current)
    · exact handed.rides.imp fun r x => wider fun before after => set ⟨r, before, after⟩
  case jobs =>
    by_cases before : t.session.outline.IsAdrift x.1
    · exact h.adrift_jobs ht grounds anchored before after hx
    · obtain ⟨v, hv, -⟩ := h.set_adrift grounds before after
      exact (busy.alone_of_waits hv).2 x hx rfl
  case waits =>
    by_cases before : t.session.outline.IsAdrift r
    · exact h.adrift_waits grounds anchored before
    · obtain ⟨v, hv, link⟩ := h.set_adrift grounds before after
      intro w hw
      rw [hv] at hw
      cases hw
      exact link

/-! ## Where runs wait -/

section

variable {own : RunId → Option Graph}

/-- Runs that wait for no write do so at nodes of the graphs that they entered last. -/
def Housed (own : RunId → Option Graph) (t : Turn) : Prop :=
  ∀ r, ∀ v ∈ (t.session.outline.run r).waiting, v.kind ≠ .link →
    ∃ g ∈ own r, ∃ node, g.Holds node ∧ node.id = v.node

/-- **Runs wait in the graphs that they entered**, as long as none trespasses. -/
theorem Does.housed (h : t.Does d u) (separate : t.Separate own) (housed : t.Housed own) :
    u.Housed (Event.moves ⟨t, d, u⟩ own) := by
  intro r v hv other
  have ends := separate.orderly.ends
  have stays : Event.enters? ⟨t, d, u⟩ r = none := by
    cases enters : Event.enters? ⟨t, d, u⟩ r with
    | none => rfl
    | some g =>
      have waits := (h.of_enters ends enters).2.2 v.id
      rw [Run.isWaitingOn_eq, show (u.session.run r).outline.waiting = some v from hv] at waits
      simp at waits
  rw [Event.moves, stays, Option.none_or]
  rcases h.waiting ends r with same | none | ⟨kind, node, new, -, staged⟩
  · exact housed r v (same ▸ hv) other
  · rw [none] at hv
    cases hv
  · rw [new] at hv
    cases hv
    obtain ⟨rest, step, hs, hc, -, -, -, id⟩ := staged.resolve_left other
    have rides := separate.rides
    rw [hs, hc] at rides
    obtain ⟨q, seats, T, hT, holds, -⟩ := rides.1.resolve_left fun nobody => by cases nobody
    obtain ⟨-, rfl⟩ : _ ∧ r = q := by simpa [Frame.seats] using seats
    obtain ⟨g, hg, rfl⟩ := Option.map_eq_some_iff.1 hT
    exact ⟨g, hg, step.node, holds, id.symm⟩

end

end Turn

end Questline

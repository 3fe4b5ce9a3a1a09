import Mathlib.Data.List.Forall2
import Questline.Proofs.Loading
import Questline.Proofs.Renumbering

/-!
# What a host comes upon

Of a turn the host sees the calls that it is asked for, and what becomes of the entries that it
begins from inside them.  What the session does in between is its own.  Two turns are alike for the
host if it comes upon the same in both, whatever it does there, until what was begun is over.

It may do what a host does that comes back with answers only: it answers calls or fails in them, and
it answers the scene that it is given, from inside the call that gives it.

* `Turn.upon`: a turn on top of a stack that it does not look at.
* `Turn.allows`: what the host may do.
* `Turn.Encounters`: what it comes upon on its way from one turn to another.
* `Turn.Follows`, `Turn.Encounters.follow`: one turn follows the other, step by step, and so all the way.
-/

namespace Questline

/-! ## On top of a stack -/

/-- The turn on top of a stack. -/
def Turn.upon (t : Turn) (base : List Frame) : Turn := ⟨t.session, t.stack ++ base, t.control⟩

namespace Turn

variable {t u v : Turn} {d : Deed} {base below : List Frame}

theorem on_upon (m : Move) (stack : List Frame) : (m.on stack).upon base = m.on (stack ++ base) := by
  simp [Move.on, upon]

theorem upon_upon : (t.upon base).upon below = t.upon (base ++ below) := by simp [upon]

theorem isBack_upon : (t.upon base).IsBack base ↔ t.IsBack [] := by simp [IsBack, upon]

theorem not_isBack_upon_cons (f : Frame) : ¬(t.upon (f :: base)).IsBack base := by
  rintro ⟨same, -⟩
  have := congrArg List.length same
  simp [upon] at this
  omega

/-- Until a turn is over, it does not come upon what is below. -/
theorem next?_upon (away : ¬t.IsBack []) : (t.upon base).next? = t.next?.map (·.upon base) := by
  obtain ⟨s, stack, c⟩ := t
  cases c with
  | work task => exact congrArg some (on_upon _ _).symm
  | ask a => rfl
  | done result =>
    cases stack with
    | nil => exact absurd ⟨rfl, rfl⟩ away
    | cons frame stack => cases frame <;> first | rfl | exact congrArg some (on_upon _ _).symm
  | failed f =>
    cases stack with
    | nil => exact absurd ⟨rfl, rfl⟩ away
    | cons frame stack => cases frame <;> first | rfl | exact congrArg some (on_upon _ _).symm

theorem isForHost_upon (away : ¬t.IsBack []) :
    (t.upon base).control.isForHost (t.upon base).stack = t.control.isForHost t.stack := by
  obtain ⟨s, stack, c⟩ := t
  cases c with
  | work | ask => rfl
  | done | failed =>
    cases stack with
    | nil => exact absurd ⟨rfl, rfl⟩ away
    | cons => rfl

theorem Does.upon (h : t.Does d u) (away : ¬t.IsBack []) : (t.upon base).Does d (u.upon base) := by
  cases h with
  | work task => rw [on_upon]; exact .work task
  | receive hf => rw [on_upon]; exact .receive hf
  | recover hf => rw [on_upon]; exact .recover hf
  | beginAtRest past => exact absurd ⟨rfl, past⟩ away
  | beginInside entry => exact .beginInside entry
  | leave past => exact .leave past
  | reply answer => rw [on_upon]; exact .reply answer
  | fail f => exact .fail f
  | change control files flags => exact .change ((isForHost_upon away).trans control) files flags

theorem Does.of_upon (h : (t.upon base).Does d u) (away : ¬t.IsBack []) :
    ∃ v, u = v.upon base ∧ t.Does d v := by
  obtain ⟨s, stack, c⟩ := t
  generalize ht : Turn.upon ⟨s, stack, c⟩ base = t' at h
  have ended {P : Prop} (hs : stack ++ base = []) (past : c.isOver) : P :=
    absurd ⟨(List.append_eq_nil_iff.1 hs).1, past⟩ away
  have top {frame : Frame} {rest : List Frame} (hs : stack ++ base = frame :: rest) (past : c.isOver) :
      ∃ above, stack = frame :: above ∧ rest = above ++ base := by
    cases stack with
    | nil => exact absurd ⟨rfl, past⟩ away
    | cons f above =>
      obtain ⟨rfl, rfl⟩ := List.cons.inj hs
      exact ⟨above, rfl, rfl⟩
  cases h with
  | work task =>
    obtain ⟨rfl, rfl, rfl⟩ := Turn.mk.inj ht
    exact ⟨_, (on_upon _ _).symm, .work task⟩
  | receive hf =>
    obtain ⟨rfl, hs, rfl⟩ := Turn.mk.inj ht
    obtain ⟨above, rfl, rfl⟩ := top hs rfl
    exact ⟨_, (on_upon _ _).symm, .receive hf⟩
  | recover hf =>
    obtain ⟨rfl, hs, rfl⟩ := Turn.mk.inj ht
    obtain ⟨above, rfl, rfl⟩ := top hs rfl
    exact ⟨_, (on_upon _ _).symm, .recover hf⟩
  | beginAtRest past =>
    obtain ⟨rfl, hs, rfl⟩ := Turn.mk.inj ht
    exact ended hs past
  | beginInside entry =>
    obtain ⟨rfl, rfl, rfl⟩ := Turn.mk.inj ht
    exact ⟨_, rfl, .beginInside entry⟩
  | leave past =>
    obtain ⟨rfl, hs, rfl⟩ := Turn.mk.inj ht
    obtain ⟨above, rfl, rfl⟩ := top hs past
    exact ⟨_, rfl, .leave past⟩
  | reply answer =>
    obtain ⟨rfl, rfl, rfl⟩ := Turn.mk.inj ht
    exact ⟨_, (on_upon _ _).symm, .reply answer⟩
  | fail f =>
    obtain ⟨rfl, rfl, rfl⟩ := Turn.mk.inj ht
    exact ⟨_, rfl, .fail f⟩
  | change control files flags =>
    obtain ⟨rfl, rfl, rfl⟩ := Turn.mk.inj ht
    exact ⟨_, rfl, .change ((isForHost_upon away).symm.trans control) files flags⟩

/-- Where the host has something to do, it is not the session's move. -/
theorem Does.still (h : t.Does d u) (host : d ≠ .move) : t.next? = none := by
  cases h with
  | work | receive | recover => exact absurd rfl host
  | @beginAtRest s c past | @leave s stack a c past =>
    cases c with
    | work | ask => cases past
    | done | failed => rfl
  | beginInside | reply | fail => rfl
  | @change s stack c control =>
    cases c with
    | work => cases control
    | ask => rfl
    | done | failed =>
      cases stack with
      | nil => rfl
      | cons => cases control

end Turn

/-! ## Encounters -/

/-- Whether the host may fail in a call like that.  It has a table for whatever is to be filled in.  The
faults of a link are the session's own: where a run comes to its end, the host raises none of them. -/
def Ask.mayFail (f : Fault) : Ask → Bool
  | .fillIn _ _ => false
  | .cancelTimer _ | .dismiss _ _ _ | .announce _ _ => !f.isLink
  | _ => true

/-- Whether an entry answers what the current run waits for. -/
def Entry.isFor (s : Session) : Entry → Bool
  | .advance _ => true
  | .battleOver battle _ => s.isWaiting battle.run battle.wait
  | .timeUp timer => s.isWaiting timer.run timer.wait
  | _ => false

/-- What the host may do: change files and flags, answer calls or fail in them, and answer a scene from
inside the call that gives it. -/
def Turn.allows (t : Turn) : Deed → Bool
  | .begin e =>
    match t.control with
    | .ask a => a.isShowing && e.isFor t.session
    | _ => false
  | .fail f =>
    match t.control with
    | .ask a => a.mayFail f
    | _ => false
  | .leave | .reply _ _ | .change _ _ => true
  | .move => false

/-- What the host comes upon, a call or the end of what it began, and what it does there. -/
structure Encounter where
  seen : Control
  deed : Deed

/-- What the host comes upon from one turn to another, until what was begun on top of the stack `base`
is over. -/
inductive Turn.Encounters (base : List Frame) : Turn → List Encounter → Turn → Prop
  | refl (t : Turn) : Encounters base t [] t
  | move {t u v : Turn} {log : List Encounter} (away : ¬t.IsBack base) (hn : t.next? = some u)
      (h : Encounters base u log v) : Encounters base t log v
  | meet {t u v : Turn} {d : Deed} {log : List Encounter} (away : ¬t.IsBack base) (allowed : t.allows d)
      (does : t.Does d u) (h : Encounters base u log v) :
      Encounters base t (⟨t.control, d⟩ :: log) v

/-- The session's own moves lead from one turn to the other, before what was begun on top of the stack
`base` is over. -/
inductive Turn.ComesTo (base : List Frame) : Turn → Turn → Prop
  | refl (t : Turn) : ComesTo base t t
  | head {t u v : Turn} (away : ¬t.IsBack base) (hn : t.next? = some u) (h : ComesTo base u v) :
      ComesTo base t v

section

variable {base base' : List Frame} {t t' u v : Turn} {log : List Encounter} {d : Deed}

theorem Turn.ne_move_of_allows (h : t.allows d) : d ≠ .move := by
  rintro rfl
  cases h

namespace Turn.ComesTo

theorem single (away : ¬t.IsBack base) (hn : t.next? = some u) : t.ComesTo base u :=
  .head away hn (.refl u)

theorem trans (h : t.ComesTo base u) (g : u.ComesTo base v) : t.ComesTo base v := by
  induction h with
  | refl => exact g
  | head away hn _ ih => exact .head away hn (ih g)

theorem encounters (h : t.ComesTo base u) (g : u.Encounters base log v) : t.Encounters base log v := by
  induction h with
  | refl => exact g
  | head away hn _ ih => exact .move away hn (ih g)

/-- Where what was begun is over, there is nowhere to come to. -/
theorem eq_of_isBack (h : t.ComesTo base u) (back : t.IsBack base) : u = t := by
  cases h with
  | refl => rfl
  | head away => exact absurd back away

/-- Where it is not the session's move, neither. -/
theorem eq_of_still (h : t.ComesTo base u) (still : t.next? = none) : u = t := by
  cases h with
  | refl => rfl
  | head _ hn => cases still.symm.trans hn

end Turn.ComesTo

theorem Turn.Encounters.then_comes (h : t.Encounters base log u) (g : u.ComesTo base v) :
    t.Encounters base log v := by
  induction h with
  | refl => exact g.encounters (.refl v)
  | move away hn _ ih => exact .move away hn (ih g)
  | meet away allowed does _ ih => exact .meet away allowed does (ih g)

/-! ## One turn follows the other -/

/-- Two turns come to turns that are related. -/
def Nears (R : Turn → Turn → Prop) (base base' : List Frame) (t t' : Turn) : Prop :=
  ∃ T T', t.ComesTo base T ∧ t'.ComesTo base' T' ∧ R T T'

/-- Whatever happens next at the one turn, the like happens at the other, and what comes of it is near
again. -/
structure Turn.Follows (like : Encounter → Encounter → Prop) (N : Turn → Turn → Prop) (t t' : Turn) :
    Prop where
  moves : ∀ u, t.next? = some u → ∃ u', t'.next? = some u' ∧ N u u'
  deeds : ∀ d u, t.allows d → t.Does d u →
    ∃ d' u', like ⟨t.control, d⟩ ⟨t'.control, d'⟩ ∧ t'.allows d' ∧ t'.Does d' u' ∧ N u u'

variable {like : Encounter → Encounter → Prop} {R : Turn → Turn → Prop}

/-- **What follows step by step follows all the way.** -/
theorem Turn.Encounters.follow
    (steps : ∀ {t t'}, R t t' → ¬t.IsBack base →
      ¬t'.IsBack base' ∧ Turn.Follows like (Nears R base base') t t')
    (h : t.Encounters base log u) (near : Nears R base base' t t') :
    ∃ log' u', List.Forall₂ like log log' ∧ t'.Encounters base' log' u' ∧ Nears R base base' u u' := by
  induction h generalizing t' with
  | refl => exact ⟨[], t', .nil, .refl t', near⟩
  | @move t u v log away hn _ ih =>
    obtain ⟨T, T', comes, comes', rel⟩ := near
    cases comes with
    | refl =>
      obtain ⟨away', follows⟩ := steps rel away
      obtain ⟨u', hu', near⟩ := follows.moves u hn
      obtain ⟨log', v', likes, meets, near⟩ := ih near
      exact ⟨log', v', likes, comes'.encounters (.move away' hu' meets), near⟩
    | head _ hn' comes =>
      cases hn.symm.trans hn'
      exact ih ⟨T, T', comes, comes', rel⟩
  | @meet t u v d log away allowed does _ ih =>
    obtain ⟨T, T', comes, comes', rel⟩ := near
    obtain rfl := comes.eq_of_still (does.still (Turn.ne_move_of_allows allowed))
    obtain ⟨away', follows⟩ := steps rel away
    obtain ⟨d', u', alike, allowed', does', near⟩ := follows.deeds d u allowed does
    obtain ⟨log', v', likes, meets, near⟩ := ih near
    exact ⟨_, v', .cons alike likes, comes'.encounters (.meet away' allowed' does' meets), near⟩

end

/-! ## Turns in which no step differs -/

/-- The encounter with the handles that follow. -/
def Encounter.later (x : Encounter) : Encounter := ⟨x.seen.later, x.deed.later⟩

section

variable {base below : List Frame} {writes : List (Ticket × WriteHandle)} {t u : Turn} {d : Deed} {e : Entry}
  {s : Session}

theorem Ask.isShowing_later (a : Ask) : a.later.isShowing = a.isShowing := by cases a <;> rfl

theorem Ask.mayFail_later (a : Ask) (f : Fault) : a.later.mayFail f = a.mayFail f := by cases a <;> rfl

theorem Entry.isFor_later : e.later.isFor (s.later writes) = e.isFor s := by
  cases e with
  | battleOver battle outcome => exact Session.isWaiting_later battle.wait
  | timeUp timer => exact Session.isWaiting_later timer.wait
  | start | startGraph | advance | stop | written | settle => rfl

/-- What the current run waits for has a number that follows. -/
theorem Session.exists_of_isWaiting_later {r : RunId} {w : WaitId}
    (h : (s.later writes).isWaiting r w) : ∃ v, w = v + 1 := by
  simp only [isWaiting, run_later, Run.isWaitingOn, Run.wait_later, Bool.and_eq_true] at h
  cases hw : (s.run r).wait with
  | none => simp [hw] at h
  | some v =>
    refine ⟨v.id, ?_⟩
    simp only [hw, Option.map_some, Option.any_some, beq_iff_eq] at h
    exact h.2.2.symm

theorem Entry.exists_of_isFor_later {e' : Entry} (h : e'.isFor (s.later writes)) :
    ∃ e : Entry, e' = e.later := by
  cases e' with
  | advance v => exact ⟨.advance v, rfl⟩
  | battleOver battle outcome =>
    obtain ⟨r, w, node⟩ := battle
    obtain ⟨v, rfl⟩ := Session.exists_of_isWaiting_later h
    exact ⟨.battleOver ⟨r, v, node⟩ outcome, rfl⟩
  | timeUp timer =>
    obtain ⟨r, w⟩ := timer
    obtain ⟨v, rfl⟩ := Session.exists_of_isWaiting_later h
    exact ⟨.timeUp ⟨r, v⟩, rfl⟩
  | start | startGraph | stop | written | settle => cases h

namespace Turn

theorem allows_upon : (t.upon base).allows d = t.allows d := by cases d <;> rfl

theorem allows_later : (t.later writes).allows d.later = t.allows d := by
  obtain ⟨s, stack, c⟩ := t
  cases d with
  | begin e =>
    cases c with
    | ask a =>
      change (a.later.isShowing && e.later.isFor (s.later writes)) = (a.isShowing && e.isFor s)
      rw [Ask.isShowing_later, Entry.isFor_later]
    | work | done | failed => rfl
  | fail f =>
    cases c with
    | ask a => exact a.mayFail_later f
    | work | done | failed => rfl
  | move | leave | reply | change => rfl

theorem exists_of_allows_later {e' : Entry} (h : (t.later writes).allows (.begin e')) :
    ∃ e : Entry, e' = e.later := by
  obtain ⟨s, stack, c⟩ := t
  cases c with
  | ask a => exact Entry.exists_of_isFor_later (Bool.and_eq_true_iff.1 h).2
  | work | done | failed => cases h

theorem isBack_later : (t.later writes).IsBack [] ↔ t.IsBack [] := by
  simp [IsBack, Turn.later]

/-- What `f` changes in a turn is of no account for its next step. -/
structure Ignores (f : Turn → Turn) (t : Turn) : Prop where
  stack : (f t).stack = t.stack
  control : (f t).control = t.control
  waits : ∀ r w, (f t).session.isWaiting r w = t.session.isWaiting r w
  next : (f t).next? = t.next?.map f
  does : ∀ {d u}, d ≠ .move → t.Does d u → (f t).Does d (f u)
  does' : ∀ {d u'}, d ≠ .move → (f t).Does d u' → ∃ u, u' = f u ∧ t.Does d u

theorem Ignores.id : Ignores (fun t => t) t where
  stack := rfl
  control := rfl
  waits _ _ := rfl
  next := by simp
  does _ h := h
  does' _ h := ⟨_, rfl, h⟩

namespace Ignores

variable {f : Turn → Turn}

theorem isBack (h : Ignores f t) : (f t).IsBack [] ↔ t.IsBack [] := by
  rw [IsBack, IsBack, h.stack, h.control]

theorem allows (h : Ignores f t) : (f t).allows d = t.allows d := by
  have waits (e : Entry) : e.isFor (f t).session = e.isFor t.session := by
    cases e <;> first | rfl | exact h.waits _ _
  cases d with
  | begin e => simp only [Turn.allows, h.control, waits]
  | fail => simp only [Turn.allows, h.control]
  | move | leave | reply | change => rfl

end Ignores

/-- A turn, on top of two stacks: one step from it leads to where `N` holds. -/
def StepsTo (N : Turn → Prop) (t : Turn) : Prop :=
  ∀ u, t.next? = some u ∨ (∃ d, t.allows d ∧ t.Does d u) → N u

variable {f : Turn → Turn} {N : Turn → Turn → Prop}

/-- **A turn with the numbers that follow** follows the turn, whatever is below the two. -/
theorem follows_later (ignores : Ignores f t) (away : ¬t.IsBack [])
    (answer : ∀ e, t.control = .work (.entry e) → e.isAnswer)
    (steps : t.StepsTo fun u => ∀ writes, N (u.upon base) (((f u).later writes).upon below)) :
    Follows (fun x x' => x.later = x') N (t.upon base) (((f t).later writes).upon below) := by
  have away' : ¬(f t).IsBack [] := fun back => away (ignores.isBack.1 back)
  have away'' : ¬((f t).later writes).IsBack [] := fun back => away' (isBack_later.1 back)
  have answer' : ∀ e, (f t).control = .work (.entry e) → e.isAnswer := by
    rw [ignores.control]
    exact answer
  refine ⟨fun u hu => ?_, fun d u allowed does => ?_⟩
  · rw [next?_upon away, Option.map_eq_some_iff] at hu
    obtain ⟨v, hv, rfl⟩ := hu
    refine ⟨((f v).later writes).upon below, ?_, steps v (.inl hv) writes⟩
    rw [next?_upon away'', next?_later answer', ignores.next, hv]
    rfl
  · rw [allows_upon] at allowed
    have host := ne_move_of_allows allowed
    obtain ⟨v, rfl, above⟩ := does.of_upon away
    obtain ⟨writes', above'⟩ : ∃ writes', ((f t).later writes).Does d.later ((f v).later writes') :=
      (ignores.does host above).later host
    refine ⟨d.later, _, ?_, ?_, above'.upon away'', steps v (.inr ⟨d, allowed, above⟩) writes'⟩
    · change Encounter.mk t.control.later d.later = ⟨(f t).control.later, d.later⟩
      rw [ignores.control]
    · rw [allows_upon, allows_later, ignores.allows]
      exact allowed

/-- And the turn follows the one with the numbers that follow. -/
theorem later_follows (ignores : Ignores f t) (away : ¬t.IsBack [])
    (answer : ∀ e, t.control = .work (.entry e) → e.isAnswer)
    (steps : t.StepsTo fun u => ∀ writes, N (u.upon base) (((f u).later writes).upon below)) :
    Follows (fun x' x => x' = x.later) (fun u' u => N u u') (((f t).later writes).upon below)
      (t.upon base) := by
  have away' : ¬(f t).IsBack [] := fun back => away (ignores.isBack.1 back)
  have away'' : ¬((f t).later writes).IsBack [] := fun back => away' (isBack_later.1 back)
  have answer' : ∀ e, (f t).control = .work (.entry e) → e.isAnswer := by
    rw [ignores.control]
    exact answer
  refine ⟨fun u' hu => ?_, fun d' u' allowed does => ?_⟩
  · rw [next?_upon away'', next?_later answer', ignores.next] at hu
    cases hv : t.next? with
    | none => rw [hv] at hu; cases hu
    | some v =>
      rw [hv] at hu
      cases hu
      exact ⟨v.upon base, by rw [next?_upon away, hv]; rfl, steps v (.inl hv) writes⟩
  · rw [allows_upon] at allowed
    have host := ne_move_of_allows allowed
    obtain ⟨v', rfl, above'⟩ := does.of_upon away''
    obtain ⟨d, u, writes', rfl, rfl, host, above⟩ := above'.of_later host fun e' he => by
      rw [he] at allowed
      exact exists_of_allows_later allowed
    rw [allows_later, ignores.allows] at allowed
    obtain ⟨v, rfl, own⟩ := ignores.does' host above
    refine ⟨d, v.upon base, ?_, by rw [allows_upon]; exact allowed, own.upon away,
      steps v (.inr ⟨d, allowed, own⟩) writes'⟩
    change Encounter.mk (f t).control.later d.later = ⟨t.control.later, d.later⟩
    rw [ignores.control]

end Turn

end

end Questline

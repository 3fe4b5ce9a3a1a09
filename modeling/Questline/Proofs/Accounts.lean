import Questline.Proofs.Figures

/-!
# Figures are accounted for

A figure comes with the answer to a spawn, under the id that the host gives it, and leaves with
its removal, by a trigger or with its run.  In between it belongs to the current run: a run that
is paused passes its figures on to the next one, and a run that is stopped keeps none.

That no figure is left with a run that is replaced rests on the errands of runs.  A run that is
paused has come to the end of its way and has no errand left, so nothing brings it back, and its
figures have a single owner from then on.

* `obliging`: the hosts that answer every call, and let it be while figures come and go.
* `Turn.Accounts`: only a run that is paused, or current, has figures; `Turn.Does.accounts`: every
  deed keeps it so.
* `Event.Balances`: a run that is stopped leaves with its figures.
* `Tracked`: the figures that were spawned and not removed since.
* `figures_accounted`: the figures of the current run are those that are tracked.
-/

namespace Questline

/-! ## Figures come and go -/

/-- The figure that comes with a deed. -/
def Deed.spawned? : Deed → Option String
  | .reply (.spawn _ _) npc => some npc
  | _ => none

/-- The figure that is removed with a deed. -/
def Deed.removed? : Deed → Option String
  | .reply (.remove _ npc) _ | .reply (.dismiss _ npc _) _ => some npc
  | _ => none

/-! ## Hosts that keep to themselves -/

/-- Whether a call is one from inside which the host begins nothing: figures come and go, a timer
is cancelled, or answers are handed over. -/
def Ask.isSecluded : Ask → Bool
  | .spawn _ _ | .remove _ _ | .dismiss _ _ _ | .cancelTimer _ | .handOver _ _ _ _ _
  | .announce _ _ => true
  | _ => false

/-- Whether a deed fails in a call, or begins something from inside a secluded one. -/
def Deed.intrudes (t : Turn) (d : Deed) : Bool :=
  match d, t.control with
  | .begin _, .ask a => a.isSecluded
  | .fail _, _ => true
  | _, _ => false

/-- Every call is answered, and nothing is begun from inside a secluded one. -/
def obliging : Turn → Deed → Prop := fun t d => d.intrudes t = false

instance (t : Turn) (d : Deed) : Decidable (obliging t d) :=
  inferInstanceAs (Decidable (d.intrudes t = false))

theorem obliging.calmCancel {t : Turn} {d : Deed} (h : obliging t d) : calmCancel t d := by
  unfold obliging Deed.intrudes at h
  unfold Questline.calmCancel Deed.disturbs
  split
  case h_1 hc =>
    rw [hc] at h
    cases h
  case h_2 => rfl

namespace Turn

/-! ## Errands of all runs -/

/-- Each run has at most one errand, wherever it goes. -/
structure Busy (t : Turn) : Prop where
  orderly : t.Orderly
  poised : t.Poised
  rides : Rides (Fitting fun _ => some .everywhere) t.control.rider t.stack
  single : ∀ r, t.errands r ≤ 1

theorem Busy.fresh (files : FileTree) (library : Path) (flags : FlagStore) :
    Busy (Session.fresh files library flags).atRest where
  orderly := orderly_fresh files library flags
  poised := poised_of_free (by simp)
  rides := rfl
  single r := Nat.zero_le 1

variable {t u : Turn} {d : Deed}

theorem Does.busy (h : t.Does d u) (calm : calmCancel t d) (ht : t.Busy) :
    u.Busy ∧ ∀ r < t.session.runs.length, u.errands r ≤ t.errands r := by
  have jobs (x : RunId × Job) : x.2.IsFor .everywhere := by
    cases x.2 <;> exact ⟨trivial, trivial⟩
  have handed := h.handsOn ht.orderly ht.rides (fun _ _ _ _ T hT => by cases hT; trivial)
    (fun _ _ => ⟨_, rfl⟩) fun x _ => ⟨_, rfl, jobs x⟩
  have errands := handed.errands ht.poised
  refine ⟨⟨h.orderly ht.orderly, h.poised calm ht.poised, handed.rides, fun r => ?_⟩, fun r hr => ?_⟩
  · exact (errands r).elim (fun le => Nat.le_trans le (ht.single r)) (·.2)
  · exact (errands r).resolve_right fun new => absurd hr (Nat.not_lt_of_le new.1)

/-! ## Accounts -/

/-- The figures that are there: those that are about to leave, or else those of the current run. -/
def present (t : Turn) : List String :=
  match t.control.leaving with
  | [] => t.session.activeNpcs
  | names => names

/-- Only a run that is paused, or the current one while it goes on or its figures leave, has
figures; a run that is paused has no errands; and the figures that are there are the given ones. -/
structure Accounts (given : String → Prop) (t : Turn) : Prop where
  busy : t.Busy
  paused : ∀ r, (t.session.run r).phase = .paused ∨ .ending r .paused ∈ t.stack → t.errands r = 0
  secluded : ∀ a, .asked a ∈ t.stack → a.isSecluded = false
  heeds : (∃ r npc rest, t.control = .ask (.dismiss r npc rest) ∧ t.session.current = some r ∧
    (t.session.run r).phase = .stopped) ∨ t.control.Heeds t.session
  ending : ∀ r phase stack, t.stack = .ending r phase :: stack →
    t.session.current = some r ∨ (t.session.run r).isActive
  owner : ∀ r, t.session.figures r ≠ [] → (t.session.run r).phase = .paused ∨ t.session.owns r ∨
    t.session.current = some r ∧ t.control.leaving ≠ []
  sorted : (∀ r, (t.session.figures r).Pairwise (· < ·)) ∧ t.control.leaving.Pairwise (· < ·)
  present : ∀ id, id ∈ t.present ↔ given id

theorem Accounts.fresh (files : FileTree) (library : Path) (flags : FlagStore) :
    Accounts (fun _ => False) (Session.fresh files library flags).atRest where
  busy := .fresh files library flags
  paused r h := by
    rcases h with h | h
    · cases h
    · cases h
  secluded a ha := by cases ha
  heeds := .inr (.done _)
  ending r phase stack hs := by cases hs
  owner r hr := absurd rfl hr
  sorted := ⟨fun r => .nil, .nil⟩
  present id := by simp [Turn.present, Session.atRest, Control.leaving, Session.activeNpcs, Session.fresh]

/-! ## What a deed does about figures -/

variable {given : String → Prop}

/-- Every deed is one of the host, or the answer to a call for a figure, or treats figures as every
function does. -/
theorem Does.treats (h : t.Does d u) (ht : t.Accounts given) :
    t.Yields d u ∨
    (∃ a answer, t.control = .ask a ∧ a.isForFigures ∧ d = .reply a answer ∧
      u = (a.resume t.session answer).on t.stack) ∨
    ∃ (popped rest : List Frame) (q : RunId) (m : Move), t.stack = popped ++ rest ∧ u = m.on rest ∧
      m.Treats (t.Pauses popped q) q t.session ∧ t.control.leaving = [] ∧
      (∀ a answer, d = .reply a answer → a.isForFigures = false) ∧
      (m.LetsBe q t.session ∨ ∀ f ∈ rest, f.isForTimer = false) := by
  rcases h.serves ht.busy.orderly.ends with hy | ⟨-, -, -, -, -, -, -, -, -, moved⟩
  · exact .inl hy
  have poised := ht.busy.poised
  cases h with
  | @work s stack task =>
    have heeds : (Control.work task).Heeds s := by
      rcases ht.heeds with ⟨_, _, _, hc, -⟩ | heeds
      · cases hc
      · exact heeds
    have unhurried : Unhurried stack := by
      rcases poised.top with hu | past | ⟨timer, hc⟩
      · exact hu
      · cases past
      · cases hc
    obtain ⟨q, hm⟩ := Task.begin_treats s heeds
    exact .inr (.inr ⟨[], stack, q, task.begin s, rfl, rfl, hm.mono False.elim, rfl,
      fun _ _ h => (by cases h), .inr (poised.free unhurried)⟩)
  | @receive s frame stack result hn =>
    have ending (r : RunId) (phase : Phase) (hf : frame = .ending r phase) :
        phase.isActive = false ∧ (s.current = some r ∨ (s.run r).isActive) := by
      subst hf
      refine ⟨?_, ht.ending r phase stack rfl⟩
      simpa [Frame.endsWell] using ht.busy.orderly.ends.1 _ List.mem_cons_self
    obtain ⟨q, hm⟩ := Frame.receive_treats s stack hn ending result
    exact .inr (.inr ⟨[frame], stack, q, frame.receive s result, rfl, rfl, hm, rfl,
      fun _ _ h => (by cases h), .inr poised.rest⟩)
  | @recover s frame stack fault hn =>
    obtain ⟨q, hm⟩ := frame.recover_letsBe s fault
    exact .inr (.inr ⟨[frame], stack, q, frame.recover s fault, rfl, rfl, .keeps hm, rfl, fun _ _ h => (by cases h), .inl hm⟩)
  | @reply s stack a answer =>
    cases plain : a.isForFigures with
    | true => exact .inr (.inl ⟨a, answer, rfl, plain, rfl, rfl⟩)
    | false =>
      obtain ⟨q, hm⟩ := a.resume_letsBe s plain answer
      refine .inr (.inr ⟨[], stack, q, _, rfl, rfl, .keeps hm, ?_, fun b answer' hb => ?_, .inl hm⟩)
      · cases a with
        | dismiss => cases plain
        | _ => rfl
      · cases hb
        exact plain
  | beginAtRest | beginInside | leave | fail | change =>
    rcases moved with hd | ⟨a, answer, hd⟩ <;> cases hd

/-! ### Accounts are kept -/

section Keeping

variable {q r : RunId} {m : Move} {popped rest : List Frame} {phase : Phase}

theorem present_of_leaving (h : t.control.leaving = []) : t.present = t.session.activeNpcs := by
  rw [Turn.present, h]

theorem Accounts.lt_length (ht : t.Accounts given)
    (h : (t.session.run r).phase = .paused ∨ .ending r .paused ∈ t.stack) :
    r < t.session.runs.length := by
  rcases h with h | h
  · refine Nat.lt_of_not_le fun le => ?_
    rw [Session.run_of_length_le le] at h
    cases h
  · exact ht.busy.orderly.stack _ h r rfl

/-- Unless figures are leaving, a run that is stopped has none. -/
theorem Accounts.not_stopped (ht : t.Accounts given) (h : t.session.figures r ≠ [])
    (still : t.control.leaving = []) : (t.session.run r).phase ≠ .stopped := by
  intro stopped
  rcases ht.owner r h with paused | owns | ⟨-, leaving⟩
  · cases stopped.symm.trans paused
  · have active := (Bool.and_eq_true_iff.1 owns).2
    rw [Run.isActive, stopped] at active
    cases active
  · exact leaving still

/-- What is not put on the stack apart was there before. -/
theorem mem_of_apart {f : Frame} (hs : t.stack = popped ++ rest)
    (frames : ∀ f ∈ m.frames, f.isApart = false) (hf : f.isApart) (h : f ∈ (m.on rest).stack) :
    f ∈ t.stack := by
  rcases List.mem_append.1 h with h | h
  · rw [frames f h] at hf
    cases hf
  · exact hs ▸ List.mem_append_right _ h

theorem Accounts.top (ht : t.Accounts given) (hs : t.stack = popped ++ rest)
    (frames : ∀ f ∈ m.frames, f.isApart = false) {stack : List Frame}
    (h : (m.on rest).stack = .ending r phase :: stack) :
    t.session.current = some r ∨ (t.session.run r).isActive := by
  have hrest : rest = .ending r phase :: stack := by
    cases hf : m.frames with
    | nil => simpa [Move.on, hf] using h
    | cons f fs =>
      have first : f = .ending r phase := by
        have h : m.frames ++ rest = .ending r phase :: stack := h
        rw [hf] at h
        exact (List.cons.inj h).1
      have apart := frames f (hf ▸ List.mem_cons_self)
      rw [first] at apart
      cases apart
  cases popped with
  | nil => exact ht.ending r phase stack (by rw [hs, hrest]; rfl)
  | cons f popped =>
    have free := ht.busy.poised.rest (.ending r phase) (by
      rw [hs, hrest]
      exact List.mem_append_right _ List.mem_cons_self)
    cases free

theorem Accounts.letsBe (ht : t.Accounts given) (hs : t.stack = popped ++ rest)
    (hm : m.LetsBe q t.session) (still : t.control.leaving = []) (busy : (m.on rest).Busy)
    (fewer : ∀ r < t.session.runs.length, (m.on rest).errands r ≤ t.errands r) :
    (m.on rest).Accounts given := by
  obtain ⟨α, between, outline⟩ := hm.outline
  have current := Session.current_of_between between outline
  have zero {r : RunId} (old : (t.session.run r).phase = .paused ∨ .ending r .paused ∈ t.stack) :
      (m.on rest).errands r = 0 :=
    Nat.le_zero.1 (ht.paused r old ▸ fewer r (ht.lt_length old))
  refine
    { busy := busy
      paused := fun r h => zero ?_
      secluded := fun a ha => ht.secluded a (mem_of_apart hs hm.frames rfl ha)
      heeds := .inr hm.heeds
      ending := fun r phase stack h => ?_
      owner := fun r h => ?_
      sorted := ⟨fun r => ?_, ?_⟩
      present := fun id => ?_ }
  · rcases h with paused | ending
    · left
      rcases Session.phase_of_between (r := r) between outline with same | ⟨active, -⟩
      · exact same.symm.trans paused
      · rw [Run.isActive, show (m.session.run r).phase = .paused from paused] at active
        cases active
    · exact .inr (mem_of_apart hs hm.frames rfl ending)
  · rcases ht.top hs hm.frames h with hc | active
    · exact .inl (current.trans hc)
    · exact .inr (Session.isActive_of_between between outline active)
  · have h : t.session.figures r ≠ [] := by rwa [← hm.figures]
    rcases ht.owner r h with paused | owns | ⟨-, leaving⟩
    · left
      have none := zero (.inl paused)
      rcases Session.phase_of_between (r := r) between outline with same | ⟨-, load⟩
      · exact same.trans paused
      · exact absurd (Nat.add_eq_zero_iff.1 none).1 (Nat.ne_of_gt load)
    · exact .inr (.inl (Session.owns_of_between between outline owns))
    · exact absurd still leaving
  · show (m.session.figures r).Pairwise _
    rw [hm.figures]
    exact ht.sorted.1 r
  · show m.control.leaving.Pairwise _
    rw [hm.heeds.leaving]
    exact .nil
  · rw [← ht.present id, present_of_leaving still, present_of_leaving (t := m.on rest) hm.heeds.leaving]
    show id ∈ m.session.activeNpcs ↔ _
    rw [Session.activeNpcs_congr current hm.figures]

/-- A run that is paused has no errand left. -/
theorem Accounts.errands_of_pauses (ht : t.Accounts given) (hs : t.stack = popped ++ rest)
    (pauses : t.Pauses popped q) (still : m.IsStill)
    (light : m.session.outline.load q ≤ t.session.outline.load q)
    (fewer : ∀ r < t.session.runs.length, (m.on rest).errands r ≤ t.errands r) :
    (m.on rest).errands q = 0 := by
  rcases pauses with ⟨step, rfl, hc⟩ | rfl
  · have single := ht.busy.single q
    have last : t.errands q = t.session.outline.load q + (1 + riders q .nobody rest) := by
      rw [errands, hs, hc]
      simp [riders, Control.rider, Frame.seats, Frame.rider]
    show m.session.outline.load q + riders q m.control.rider (m.frames ++ rest) = 0
    rw [still.control, riders_append still.frames]
    omega
  · have old : (t.session.run q).phase = .paused ∨ .ending q .paused ∈ t.stack :=
      .inr (hs ▸ List.mem_append_left _ List.mem_cons_self)
    exact Nat.le_zero.1 (ht.paused q old ▸ fewer q (ht.lt_length old))

/-- A run whose figures are there, and that is to be ended, is the current one. -/
theorem Accounts.current_of_owned (ht : t.Accounts given)
    (owned : t.session.current = some q ∨ (t.session.run q).isActive)
    (h : t.session.figures q ≠ []) : t.session.current = some q ∧ q < t.session.runs.length := by
  have current : t.session.current = some q := by
    rcases owned with current | active
    · exact current
    · rcases ht.owner q h with paused | owns | ⟨current, -⟩
      · rw [Run.isActive, paused] at active
        cases active
      · exact beq_iff_eq.1 (Bool.and_eq_true_iff.1 owns).1
      · exact current
  exact ⟨current, ht.busy.orderly.current q current⟩

theorem Accounts.cancels {fs : List Frame} (ht : t.Accounts given) (hs : t.stack = popped ++ rest)
    (figures : m.session.figures = t.session.figures) (outline : m.session.outline = t.session.outline)
    (hm : m.IsStill) (control : ∃ timer, m.control = .ask (.cancelTimer timer))
    (frames : m.frames = .ending q phase :: fs) (below : ∀ f ∈ fs, f.isApart = false)
    (owned : t.session.current = some q ∨ (t.session.run q).isActive)
    (pauses : phase = .paused → t.Pauses popped q)
    (still : t.control.leaving = []) (busy : (m.on rest).Busy)
    (fewer : ∀ r < t.session.runs.length, (m.on rest).errands r ≤ t.errands r) :
    (m.on rest).Accounts given := by
  obtain ⟨timer, hc⟩ := control
  have current : m.session.current = t.session.current := congrArg Outline.current outline
  have phases (r : RunId) : (m.session.run r).phase = (t.session.run r).phase :=
    congrArg (fun o : Outline => (o.run r).phase) outline
  have old {f : Frame} (h : f ∈ (m.on rest).stack) (hf : f ≠ .ending q phase) (apart : f.isApart) :
      f ∈ t.stack := by
    have h : f ∈ m.frames ++ rest := h
    rw [frames, List.cons_append] at h
    rcases List.mem_append.1 ((List.mem_cons.1 h).resolve_left hf) with h | h
    · rw [below f h] at apart
      cases apart
    · exact hs ▸ List.mem_append_right _ h
  refine
    { busy := busy
      paused := fun r h => ?_
      secluded := fun a ha => ht.secluded a (old ha nofun rfl)
      heeds := .inr (by rw [show (m.on rest).control = m.control from rfl, hc]; exact .ask rfl rfl)
      ending := fun r p stack h => ?_
      owner := fun r h => ?_
      sorted := ⟨fun r => ?_, ?_⟩
      present := fun id => ?_ }
  · by_cases hr : Frame.ending r .paused = .ending q phase ∧ Frame.ending r .paused ∈ (m.on rest).stack
    · obtain ⟨⟨rfl, rfl⟩, -⟩ : (r = q ∧ Phase.paused = phase) ∧ _ :=
        ⟨Frame.ending.inj hr.1, hr.2⟩
      refine ht.errands_of_pauses hs (pauses rfl) hm (Nat.le_of_eq ?_) fewer
      rw [outline]
    · have before : (t.session.run r).phase = .paused ∨ .ending r .paused ∈ t.stack := by
        refine h.imp (fun paused => (phases r).symm.trans paused) fun ending => ?_
        exact old ending (fun he => hr ⟨he, ending⟩) rfl
      exact Nat.le_zero.1 (ht.paused r before ▸ fewer r (ht.lt_length before))
  · have h : m.frames ++ rest = .ending r p :: stack := h
    rw [frames, List.cons_append] at h
    obtain ⟨rfl, rfl⟩ := Frame.ending.inj (List.cons.inj h).1
    refine owned.imp (current.trans ·) fun active => ?_
    rw [Run.isActive, show ((m.on rest).session.run q).phase = _ from phases q]
    exact active
  · have h : t.session.figures r ≠ [] := by rwa [← figures]
    refine (ht.owner r h).imp ((phases r).trans ·) fun h => .inl ?_
    rcases h with owns | ⟨-, leaving⟩
    · rw [Session.owns_iff] at owns ⊢
      rwa [show (m.on rest).session.outline = _ from outline]
    · exact absurd still leaving
  · show (m.session.figures r).Pairwise _
    rw [figures]
    exact ht.sorted.1 r
  · rw [show (m.on rest).control = m.control from rfl, hc]
    exact .nil
  · have leaving : (m.on rest).control.leaving = [] := by
      rw [show (m.on rest).control = m.control from rfl, hc]
      rfl
    rw [← ht.present id, present_of_leaving still, present_of_leaving leaving]
    show id ∈ m.session.activeNpcs ↔ _
    rw [Session.activeNpcs_congr current figures]

theorem Accounts.closes (ht : t.Accounts given) (hs : t.stack = popped ++ rest)
    (figures : m.session.figures = t.session.figures)
    (outline : m.session.outline = (Alteration.closed phase).apply q t.session.outline)
    (hm : m.IsStill)
    (leaving : m.control.leaving = if phase = .stopped then t.session.figures q else [])
    (control : (∃ npc rest, m.control = .ask (.dismiss q npc rest)) ∨ m.control.Heeds m.session)
    (frames : ∀ f ∈ m.frames, f.isApart = false) (past : phase.isActive = false)
    (owned : t.session.current = some q ∨ (t.session.run q).isActive)
    (pauses : phase = .paused → t.Pauses popped q) (still : t.control.leaving = [])
    (clear : ∀ f ∈ rest, f.isForTimer = false) (busy : (m.on rest).Busy)
    (fewer : ∀ r < t.session.runs.length, (m.on rest).errands r ≤ t.errands r) :
    (m.on rest).Accounts given := by
  obtain ⟨current, own, phases⟩ := Session.of_closed outline
  refine
    { busy := busy
      paused := fun r h => ?_
      secluded := fun a ha => ht.secluded a (mem_of_apart hs frames rfl ha)
      heeds := control.imp_left ?_
      ending := fun r p stack h => ?_
      owner := fun r h => ?_
      sorted := ⟨fun r => ?_, ?_⟩
      present := fun id => ?_ }
  · by_cases before : (t.session.run r).phase = .paused ∨ .ending r .paused ∈ t.stack
    · exact Nat.le_zero.1 (ht.paused r before ▸ fewer r (ht.lt_length before))
    · have paused : (m.session.run r).phase = .paused := h.resolve_right fun ending =>
        before (.inr (mem_of_apart hs frames rfl ending))
      rcases phases r with same | ⟨rfl, hr⟩
      · exact absurd (.inl (same.symm.trans paused)) before
      · refine ht.errands_of_pauses hs (pauses ((own hr).symm.trans paused)) hm ?_ fewer
        rw [outline]
        exact Alteration.load_apply rfl
  · rintro ⟨npc, names, hc⟩
    have leaves : t.session.figures q ≠ [] ∧ phase = .stopped := by
      rw [hc] at leaving
      split at leaving
      case isTrue hp => exact ⟨fun none => (by rw [none] at leaving; cases leaving), hp⟩
      case isFalse => cases leaving
    obtain ⟨hq, hr⟩ := ht.current_of_owned owned leaves.1
    exact ⟨q, npc, names, hc, current.trans hq, (own hr).trans leaves.2⟩
  · -- A frame that waits for a timer is on top alone, so none comes to light.
    have h : m.frames ++ rest = .ending r p :: stack := h
    have ending : .ending r p ∈ m.frames ++ rest := h ▸ List.mem_cons_self
    rcases List.mem_append.1 ending with hf | hf
    · cases frames _ hf
    · cases clear _ hf
  · have h : t.session.figures r ≠ [] := by rwa [← figures]
    rcases phases r with same | ⟨rfl, hr⟩
    · rcases ht.owner r h with paused | owns | ⟨-, leaving⟩
      · exact .inl (same.trans paused)
      · refine .inr (.inl ?_)
        obtain ⟨hc, active⟩ := Bool.and_eq_true_iff.1 owns
        show (m.session.current == some r && (m.session.run r).isActive) = true
        rw [current, hc, Run.isActive, same]
        exact active
      · exact absurd still leaving
    · have hc := (ht.current_of_owned owned h).1
      cases phase with
      | running | suspended => cases past
      | paused => exact .inl (own hr)
      | stopped =>
        refine .inr (.inr ⟨current.trans hc, ?_⟩)
        show m.control.leaving ≠ []
        rw [leaving, if_pos rfl]
        exact h
  · show (m.session.figures r).Pairwise _
    rw [figures]
    exact ht.sorted.1 r
  · show m.control.leaving.Pairwise _
    rw [leaving]
    split
    · exact ht.sorted.1 q
    · exact .nil
  · have kept : m.session.activeNpcs = t.session.activeNpcs := by
      rw [Session.activeNpcs_congr current figures]
    rw [← ht.present id, present_of_leaving still]
    by_cases none : m.control.leaving = []
    · rw [present_of_leaving (t := m.on rest) none]
      show id ∈ m.session.activeNpcs ↔ _
      rw [kept]
    · rw [leaving] at none
      split at none
      case isTrue hp =>
        rw [if_pos hp] at leaving
        have there : (m.on rest).present = t.session.figures q := by
          show (match m.control.leaving with | [] => _ | names => names) = _
          rw [leaving]
          split
          · contradiction
          · rfl
        rw [there, Session.activeNpcs, (ht.current_of_owned owned none).1]
        rfl
      case isFalse => exact absurd rfl none

/-- A new run takes over all figures. -/
theorem Accounts.carried (ht : t.Accounts given) (idle : t.session.IsIdle)
    (still : t.control.leaving = []) : t.session.carriedNpcs = t.session.activeNpcs := by
  rw [Session.carriedNpcs, Session.activeNpcs, Session.currentRun?]
  cases hc : t.session.current with
  | none => rfl
  | some p =>
    show (if (t.session.run p).phase = .paused then t.session.figures p else []) = t.session.figures p
    split
    · rfl
    case isFalse unpaused =>
      by_cases none : t.session.figures p = []
      · exact none.symm
      · rcases ht.owner p none with paused | owns | ⟨-, leaving⟩
        · exact absurd paused unpaused
        · have active := (Bool.and_eq_true_iff.1 owns).2
          rw [idle p hc] at active
          cases active
        · exact absurd still leaving

theorem Accounts.opens {g : Graph} {completion : Option Callback} (ht : t.Accounts given)
    (hs : t.stack = popped ++ rest) (idle : t.session.IsIdle) (new : q = t.session.runs.length)
    (outline : m.session.outline = (Alteration.opened g completion).apply q t.session.outline)
    (figures : ∀ r, m.session.figures r = if r = q then t.session.carriedNpcs else t.session.figures r)
    (heeds : m.control.Heeds m.session) (frames : ∀ f ∈ m.frames, f.isApart = false)
    (still : t.control.leaving = []) (clear : ∀ f ∈ rest, f.isForTimer = false)
    (busy : (m.on rest).Busy)
    (fewer : ∀ r < t.session.runs.length, (m.on rest).errands r ≤ t.errands r) :
    (m.on rest).Accounts given := by
  obtain ⟨current, running, phases⟩ := Session.of_opened outline
  subst new
  have carried := ht.carried idle still
  refine
    { busy := busy
      paused := fun r h => ?_
      secluded := fun a ha => ht.secluded a (mem_of_apart hs frames rfl ha)
      heeds := .inr heeds
      ending := fun r p stack h => ?_
      owner := fun r h => ?_
      sorted := ⟨fun r => ?_, ?_⟩
      present := fun id => ?_ }
  · have before : (t.session.run r).phase = .paused ∨ .ending r .paused ∈ t.stack := by
      rcases h with paused | ending
      · refine .inl ((phases r fun hr => ?_).symm.trans paused)
        have paused : (m.session.run r).phase = .paused := paused
        rw [hr, running] at paused
        cases paused
      · exact .inr (mem_of_apart hs frames rfl ending)
    exact Nat.le_zero.1 (ht.paused r before ▸ fewer r (ht.lt_length before))
  · have h : m.frames ++ rest = .ending r p :: stack := h
    have ending : .ending r p ∈ m.frames ++ rest := h ▸ List.mem_cons_self
    rcases List.mem_append.1 ending with hf | hf
    · cases frames _ hf
    · cases clear _ hf
  · by_cases hr : r = t.session.runs.length
    · refine .inr (.inl ?_)
      show (m.session.current == some r && (m.session.run r).isActive) = true
      rw [current, hr, Run.isActive, running]
      simp [Phase.isActive]
    · have h : t.session.figures r ≠ [] := by
        rwa [show (m.on rest).session.figures r = _ from figures r, if_neg hr] at h
      rcases ht.owner r h with paused | owns | ⟨-, leaving⟩
      · exact .inl ((phases r hr).trans paused)
      · obtain ⟨hc, active⟩ := Bool.and_eq_true_iff.1 owns
        rw [idle r (beq_iff_eq.1 hc)] at active
        cases active
      · exact absurd still leaving
  · show (m.session.figures r).Pairwise _
    rw [figures]
    split
    · rw [carried, Session.activeNpcs]
      cases t.session.current with
      | none => exact .nil
      | some p => exact ht.sorted.1 p
    · exact ht.sorted.1 r
  · show m.control.leaving.Pairwise _
    rw [heeds.leaving]
    exact .nil
  · rw [← ht.present id, present_of_leaving still, present_of_leaving (t := m.on rest) heeds.leaving]
    show id ∈ m.session.activeNpcs ↔ _
    rw [Session.activeNpcs, current, ← carried]
    show id ∈ m.session.figures _ ↔ _
    rw [figures, if_pos rfl]

/-! ### Deeds of the host -/

/-- A call that the host may begin something from inside is for no figure. -/
theorem heeds_of_open {s : Session} {a : Ask} (h : a.isSecluded = false) : (Control.ask a).Heeds s := by
  cases a with
  | spawn | remove | dismiss | cancelTimer | handOver | announce => cases h
  | _ => exact .ask rfl rfl

/-- What a deed of the host leaves to be done about figures. -/
theorem Yields.keeps (hy : t.Yields d u) (h : t.Does d u) (allowed : obliging t d)
    (ht : t.Accounts given) :
    u.control.leaving = t.control.leaving ∧ (∀ a, .asked a ∈ u.stack → a.isSecluded = false) ∧
      ((∃ r npc rest, u.control = .ask (.dismiss r npc rest) ∧ u.session.current = some r ∧
        (u.session.run r).phase = .stopped) ∨ u.control.Heeds u.session) := by
  have entry (s : Session) (e : Entry) : (Control.work (.entry e)).Heeds s :=
    ⟨rfl, fun _ h => (by cases h), fun _ _ h => by cases h⟩
  cases h with
  | work | receive | recover => exact absurd rfl hy.deed.1
  | reply => exact absurd rfl (hy.deed.2 _ _)
  | fail => cases allowed
  | @beginAtRest u c ho e =>
    exact ⟨(Control.Heeds.of_isOver (s := u) ho).leaving.symm, fun a ha => (by cases ha),
      .inr (entry _ e)⟩
  | @beginInside s stack a e =>
    have secluded : a.isSecluded = false := allowed
    refine ⟨(heeds_of_open (s := s) secluded).leaving.symm, fun b hb => ?_, .inr (entry _ e)⟩
    rcases List.mem_cons.1 hb with hb | hb
    · cases hb
      exact secluded
    · exact ht.secluded b hb
  | @leave s stack a c ho =>
    have heeds : (Control.ask a).Heeds s := heeds_of_open (ht.secluded a List.mem_cons_self)
    exact ⟨heeds.leaving.trans (Control.Heeds.of_isOver (s := s) ho).leaving.symm,
      fun b hb => ht.secluded b (List.mem_cons_of_mem _ hb), .inr heeds⟩
  | change ho files flags =>
    exact ⟨rfl, ht.secluded, ht.heeds.imp_right fun heeds => ⟨heeds.leaving, heeds.needs, heeds.ends⟩⟩

theorem Accounts.yields (ht : t.Accounts given) (hy : t.Yields d u) (h : t.Does d u)
    (allowed : obliging t d) (busy : u.Busy)
    (fewer : ∀ r < t.session.runs.length, u.errands r ≤ t.errands r) : u.Accounts given := by
  obtain ⟨leaving, secluded, heeds⟩ := hy.keeps h allowed ht
  have current : u.session.current = t.session.current := congrArg Outline.current hy.outline
  have run (r : RunId) : u.session.run r = t.session.run r := by
    simp only [Session.run, hy.runs]
  have figures : u.session.figures = t.session.figures := funext fun r => congrArg Run.npcs (run r)
  have old {r : RunId} {phase : Phase} (h : .ending r phase ∈ u.stack) : .ending r phase ∈ t.stack := by
    rcases hy.stack with hs | ⟨a, hs⟩ | ⟨a, hs⟩
    · exact hs ▸ h
    · rw [hs] at h
      exact (List.mem_cons.1 h).resolve_left fun h => by cases h
    · exact hs ▸ List.mem_cons_of_mem _ h
  refine
    { busy := busy
      paused := fun r h => ?_
      secluded := secluded
      heeds := heeds
      ending := fun r phase stack hs => ?_
      owner := fun r h => ?_
      sorted := ⟨fun r => ?_, ?_⟩
      present := fun id => ?_ }
  · rw [run] at h
    have before := h.imp_right old
    exact Nat.le_zero.1 (ht.paused r before ▸ fewer r (ht.lt_length before))
  · rw [current, run]
    rcases hy.stack with same | ⟨a, same⟩ | ⟨a, same⟩
    · exact ht.ending r phase stack (same.symm.trans hs)
    · cases same.symm.trans hs
    · -- A run that is to be ended is never below a call.
      have clear := ht.busy.poised.rest (.ending r phase) (by rw [same, hs]; exact List.mem_cons_self)
      cases clear
  · rw [figures] at h
    rw [run, current, leaving, Session.owns, current, run]
    exact ht.owner r h
  · rw [figures]
    exact ht.sorted.1 r
  · rw [leaving]
    exact ht.sorted.2
  · rw [← ht.present id, Turn.present, Turn.present, leaving, Session.activeNpcs_congr current figures]

/-! ### Figures come and go -/

/-- The figures of the current run change with an answer. -/
theorem Accounts.changes {given' : String → Prop} (ht : t.Accounts given)
    (current : t.session.current = some r) (outline : m.session.outline = t.session.outline)
    (frames : m.frames = []) (others : ∀ q, q ≠ r → m.session.figures q = t.session.figures q)
    (control : (∃ npc rest, m.control = .ask (.dismiss r npc rest) ∧
      (t.session.run r).phase = .stopped) ∨ m.control.Heeds m.session)
    (owner : m.session.figures r ≠ [] → t.session.owns r ∨ m.control.leaving ≠ [])
    (sorted : (m.session.figures r).Pairwise (· < ·) ∧ m.control.leaving.Pairwise (· < ·))
    (present : ∀ id, id ∈ (m.on t.stack).present ↔ given' id) (busy : (m.on t.stack).Busy)
    (fewer : ∀ q < t.session.runs.length, (m.on t.stack).errands q ≤ t.errands q) :
    (m.on t.stack).Accounts given' := by
  have phase (q : RunId) : (m.session.run q).phase = (t.session.run q).phase :=
    congrArg (fun o : Outline => (o.run q).phase) outline
  have same : m.session.current = t.session.current := congrArg Outline.current outline
  have owns (q : RunId) : m.session.owns q = t.session.owns q := by
    rw [Session.owns, Session.owns, same, Run.isActive, Run.isActive, phase]
  have stack : (m.on t.stack).stack = t.stack := by rw [Move.on, frames, List.nil_append]
  refine
    { busy := busy
      paused := fun q h => ?_
      secluded := fun a ha => ht.secluded a (stack ▸ ha)
      heeds := control.imp_left ?_
      ending := fun q p below hs => ?_
      owner := fun q h => ?_
      sorted := ⟨fun q => ?_, sorted.2⟩
      present := present }
  · have before : (t.session.run q).phase = .paused ∨ .ending q .paused ∈ t.stack :=
      h.imp ((phase q).symm.trans ·) (stack ▸ ·)
    exact Nat.le_zero.1 (ht.paused q before ▸ fewer q (ht.lt_length before))
  · rintro ⟨npc, rest, hc, stopped⟩
    exact ⟨r, npc, rest, hc, same.trans current, (phase r).trans stopped⟩
  · refine (ht.ending q p below (stack ▸ hs)).imp (same.trans ·) fun active => ?_
    rw [Run.isActive, show ((m.on t.stack).session.run q).phase = _ from phase q]
    exact active
  · show (m.session.run q).phase = .paused ∨ m.session.owns q ∨ m.session.current = some q ∧ _
    rw [phase, owns, same]
    by_cases hq : q = r
    · subst hq
      exact .inr ((owner h).imp_right fun leaving => ⟨current, leaving⟩)
    · have h : t.session.figures q ≠ [] := by rwa [← others q hq]
      refine (ht.owner q h).imp_right (Or.imp_right fun hcur => ?_)
      exact absurd (Option.some.inj (hcur.1.symm.trans current)) hq
  · by_cases hq : q = r
    · exact hq ▸ sorted.1
    · show (m.session.figures q).Pairwise _
      rw [others q hq]
      exact ht.sorted.1 q

/-- A figure comes, or one leaves before its run is over. -/
theorem Accounts.retouched {given' : String → Prop} {f : Run → Run} (ht : t.Accounts given)
    (owns : t.session.owns r) (outline : ∀ run, (f run).outline = run.outline)
    (sorted : (f (t.session.run r)).npcs.Pairwise (· < ·))
    (present : ∀ id, id ∈ (f (t.session.run r)).npcs ↔ given' id)
    (busy : ((Move.finished (t.session.setRun r f)).on t.stack).Busy)
    (fewer : ∀ q < t.session.runs.length,
      ((Move.finished (t.session.setRun r f)).on t.stack).errands q ≤ t.errands q) :
    ((Move.finished (t.session.setRun r f)).on t.stack).Accounts given' := by
  have current : t.session.current = some r := beq_iff_eq.1 (Bool.and_eq_true_iff.1 owns).1
  have hr : r < t.session.runs.length := ht.busy.orderly.current r current
  have own : (t.session.setRun r f).figures r = (f (t.session.run r)).npcs :=
    congrArg Run.npcs (Session.run_setRun_self hr)
  refine ht.changes (m := .finished (t.session.setRun r f)) current
    (Session.Retouches.setRun outline).outline rfl
    (fun q hq => congrArg Run.npcs (Session.run_setRun_of_ne hq)) (.inr (.done _))
    (fun _ => .inl owns) ⟨own ▸ sorted, .nil⟩ (fun id => ?_) busy fewer
  rw [present_of_leaving rfl, ← present id, ← own]
  show id ∈ (t.session.current.map _).getD [] ↔ _
  rw [current]
  rfl

theorem Accounts.answered {a : Ask} (ht : t.Accounts given) (hc : t.control = .ask a)
    (forFigures : a.isForFigures) (answer : a.call.Reply)
    (busy : ((a.resume t.session answer).on t.stack).Busy)
    (fewer : ∀ q < t.session.runs.length,
      ((a.resume t.session answer).on t.stack).errands q ≤ t.errands q) :
    ((a.resume t.session answer).on t.stack).Accounts fun id =>
      (Deed.reply a answer).spawned? = some id ∨
        given id ∧ (Deed.reply a answer).removed? ≠ some id := by
  have heeds := ht.heeds
  rw [hc] at heeds
  -- The figures that are there are those of the current run, unless one is leaving.
  have there (r : RunId) (current : t.session.current = some r) (still : t.control.leaving = [])
      (id : String) : id ∈ t.session.figures r ↔ given id := by
    rw [← ht.present id, present_of_leaving still, Session.activeNpcs, current]
    rfl
  cases a with
  | spawn r request =>
    have still : t.control.leaving = [] := by rw [hc]; rfl
    have owns : t.session.owns r := by
      rcases heeds with ⟨_, _, _, h, -⟩ | heeds
      · cases h
      · exact heeds.needs r rfl
    refine ht.retouched owns (fun _ => rfl) (pairwise_insertOnce (ht.sorted.1 r))
      (fun id => ?_) busy fewer
    have before := there r (beq_iff_eq.1 (Bool.and_eq_true_iff.1 owns).1) still id
    show id ∈ insertOnce answer (t.session.figures r) ↔ some answer = some id ∨ given id ∧ none ≠ some id
    rw [mem_insertOnce, before]
    simp only [ne_eq, reduceCtorEq, not_false_eq_true, and_true, Option.some.injEq, @eq_comm _ answer id]
  | remove r npc =>
    have still : t.control.leaving = [] := by rw [hc]; rfl
    have owns : t.session.owns r := by
      rcases heeds with ⟨_, _, _, h, -⟩ | heeds
      · cases h
      · exact heeds.needs r rfl
    refine ht.retouched owns (fun _ => rfl) ((ht.sorted.1 r).filter _)
      (fun id => ?_) busy fewer
    have before := there r (beq_iff_eq.1 (Bool.and_eq_true_iff.1 owns).1) still id
    show id ∈ (t.session.figures r).filter (· != npc) ↔ none = some id ∨ given id ∧ some npc ≠ some id
    rw [List.mem_filter, before]
    simp only [bne_iff_ne, ne_eq, reduceCtorEq, Option.some.injEq, false_or, @eq_comm _ npc id]
  | dismiss r npc rest =>
    obtain ⟨current, stopped⟩ : t.session.current = some r ∧ (t.session.run r).phase = .stopped := by
      rcases heeds with ⟨r', npc', rest', h, current, stopped⟩ | heeds
      · cases h
        exact ⟨current, stopped⟩
      · cases heeds.leaving
    have hr : r < t.session.runs.length := ht.busy.orderly.current r current
    have sorted := ht.sorted.2
    rw [hc] at sorted
    obtain ⟨least, sorted⟩ := List.pairwise_cons.1 sorted
    have before (id : String) : id ∈ npc :: rest ↔ given id := by
      rw [← ht.present id, Turn.present, hc]
      rfl
    have after (id : String) : id ∈ rest ↔ none = some id ∨ given id ∧ some npc ≠ some id := by
      rw [← before id, List.mem_cons]
      constructor
      · intro hid
        exact .inr ⟨.inr hid, fun h => (least id hid).ne (Option.some.inj h)⟩
      · rintro (h | ⟨rfl | hid, hne⟩)
        · cases h
        · exact absurd rfl hne
        · exact hid
    cases rest with
    | nil =>
      let forget (run : Run) : Run := { run with npcs := [] }
      have own : (t.session.setRun r forget).figures r = [] :=
        congrArg Run.npcs (Session.run_setRun_self hr)
      have sorted : ((t.session.setRun r forget).figures r).Pairwise (· < ·) := by
        rw [own]
        exact .nil
      refine ht.changes (m := .finished (t.session.setRun r forget)) current
        (Session.Retouches.setRun (f := forget) fun _ => rfl).outline rfl
        (fun q hq => congrArg Run.npcs (Session.run_setRun_of_ne hq)) (.inr (.done _))
        (fun some => absurd own some) ⟨sorted, .nil⟩ (fun id => ?_) busy fewer
      rw [present_of_leaving rfl]
      show id ∈ (t.session.current.map _).getD [] ↔ none = some id ∨ given id ∧ some npc ≠ some id
      rw [← after id, current, ← own]
      rfl
    | cons next rest =>
      refine ht.changes (m := .ask t.session (.dismiss r next rest)) current rfl rfl
        (fun _ _ => rfl) (.inl ⟨next, rest, rfl, stopped⟩) (fun _ => .inr fun h => by cases h)
        ⟨ht.sorted.1 r, sorted⟩ after busy fewer
  | _ => cases forFigures

end Keeping

/-! ### Every deed keeps accounts -/

theorem Accounts.congr {given' : String → Prop} (ht : t.Accounts given)
    (h : ∀ id, given id ↔ given' id) : t.Accounts given' :=
  { ht with present := fun id => (ht.present id).trans (h id) }

theorem Accounts.treats {m : Move} {popped rest : List Frame} {q : RunId} (ht : t.Accounts given) (hs : t.stack = popped ++ rest)
    (hm : m.Treats (t.Pauses popped q) q t.session) (still : t.control.leaving = [])
    (clear : m.LetsBe q t.session ∨ ∀ f ∈ rest, f.isForTimer = false) (busy : (m.on rest).Busy)
    (fewer : ∀ r < t.session.runs.length, (m.on rest).errands r ≤ t.errands r) :
    (m.on rest).Accounts given := by
  rcases clear with hm | clear
  · exact ht.letsBe hs hm still busy fewer
  cases hm with
  | keeps hm => exact ht.letsBe hs hm still busy fewer
  | cancels figures outline hm control frames below owned pauses =>
    exact ht.cancels hs figures outline hm control frames below owned pauses still busy fewer
  | closes figures outline hm leaving control frames past owned pauses =>
    exact ht.closes hs figures outline hm leaving control frames past owned pauses still clear busy fewer
  | opens idle new outline figures heeds frames =>
    exact ht.opens hs idle new outline figures heeds frames still clear busy fewer

/-- **Every deed keeps accounts.** -/
theorem Does.accounts (h : t.Does d u) (allowed : obliging t d) (ht : t.Accounts given) :
    u.Accounts fun id => d.spawned? = some id ∨ given id ∧ d.removed? ≠ some id := by
  obtain ⟨busy, fewer⟩ := h.busy allowed.calmCancel ht.busy
  have same (spawned : d.spawned? = none) (removed : d.removed? = none) (id : String) :
      given id ↔ d.spawned? = some id ∨ given id ∧ d.removed? ≠ some id := by
    simp [spawned, removed]
  rcases h.treats ht with hy | ⟨a, answer, hc, forFigures, rfl, rfl⟩ |
      ⟨popped, rest, q, m, hs, rfl, hm, still, plain, clear⟩
  · refine (ht.yields hy h allowed busy fewer).congr (same ?_ ?_)
    · cases d with
      | reply a answer => exact absurd rfl (hy.deed.2 a answer)
      | _ => rfl
    · cases d with
      | reply a answer => exact absurd rfl (hy.deed.2 a answer)
      | _ => rfl
  · exact ht.answered hc forFigures answer busy fewer
  · refine (ht.treats hs hm still clear busy fewer).congr (same ?_ ?_)
    · cases d with
      | reply a answer =>
        have plain := plain a answer rfl
        cases a with
        | spawn => cases plain
        | _ => rfl
      | _ => rfl
    · cases d with
      | reply a answer =>
        have plain := plain a answer rfl
        cases a with
        | remove | dismiss => cases plain
        | _ => rfl
      | _ => rfl

end Turn

/-! ## Figures leave with their run -/

/-- The figure that leaves with a deed because its run is stopped. -/
def Deed.dismissed : Deed → List String
  | .reply (.dismiss _ npc _) _ => [npc]
  | _ => []

/-- The figures of the current run, if an event stops it. -/
def Event.leavers (e : Event) : List String :=
  if e.before.session.phase ≠ .stopped ∧ e.after.session.phase = .stopped then
    e.before.session.activeNpcs
  else []

/-- An event stops a run with the figures that leave from then on, and no figure comes or goes
when a run is opened, paused or stopped. -/
structure Event.Balances (e : Event) : Prop where
  leaving : e.before.control.leaving ++ e.leavers = e.deed.dismissed ++ e.after.control.leaving
  kept : e.before.session.phase ≠ e.after.session.phase →
    e.after.session.activeNpcs = e.before.session.activeNpcs

section Balancing

variable {s s' : Session} {t u : Turn} {d : Deed} {given : String → Prop}

theorem Session.phase_of_current {r : RunId} (h : s.current = some r) : s.phase = (s.run r).phase := by
  rw [phase, currentRun?, h]
  rfl

theorem Session.phase_of_outline (h : s'.outline = s.outline) : s'.phase = s.phase := by
  have current : s'.current = s.current := congrArg Outline.current h
  cases hc : s.current with
  | none => rw [phase, phase, currentRun?, currentRun?, current, hc]; rfl
  | some r =>
    rw [phase_of_current (current.trans hc), phase_of_current hc]
    exact congrArg (fun o : Outline => (o.run r).phase) h

theorem Event.leavers_of_phase (h : u.session.phase = .stopped → t.session.phase = .stopped) :
    Event.leavers ⟨t, d, u⟩ = [] :=
  if_neg fun stops => stops.1 (h stops.2)

theorem Event.leavers_of_outline (h : u.session.outline = t.session.outline) :
    Event.leavers ⟨t, d, u⟩ = [] :=
  leavers_of_phase (Session.phase_of_outline h).symm.trans

namespace Turn

/-- What a move leaves to be done about figures: those of a run that it stops are to leave. -/
theorem Accounts.leavers {P : Prop} {m : Move} (rest : List Frame) {q : RunId}
    (ht : t.Accounts given) (hm : m.Treats P q t.session) (still : t.control.leaving = []) :
    Event.leavers ⟨t, d, m.on rest⟩ = m.control.leaving ∧
      m.session.activeNpcs = t.session.activeNpcs := by
  cases hm with
  | keeps hm =>
    obtain ⟨α, between, outline⟩ := hm.outline
    have current := Session.current_of_between between outline
    refine ⟨?_, Session.activeNpcs_congr current hm.figures⟩
    rw [hm.heeds.leaving]
    refine Event.leavers_of_phase fun stopped => ?_
    have stopped : m.session.phase = .stopped := stopped
    cases hc : t.session.current with
    | none => rw [Session.phase, Session.currentRun?, hc]; rfl
    | some r =>
      rw [Session.phase_of_current (current.trans hc)] at stopped
      rw [Session.phase_of_current hc]
      rcases Session.phase_of_between (r := r) between outline with h | ⟨active, -⟩
      · exact h.symm.trans stopped
      · rw [Run.isActive, stopped] at active
        cases active
  | cancels figures outline hm control frames below owned pauses =>
    obtain ⟨timer, hc⟩ := control
    rw [hc]
    exact ⟨Event.leavers_of_outline outline,
      Session.activeNpcs_congr (congrArg Outline.current outline) figures⟩
  | @closes phase figures outline hm leaving control frames past owned pauses =>
    obtain ⟨current, own, phases⟩ := Session.of_closed outline
    refine ⟨?_, Session.activeNpcs_congr current figures⟩
    rw [leaving]
    by_cases none : t.session.figures q = []
    · -- Nobody leaves, since the run that is closed has no figures.
      have leaves : (if phase = .stopped then t.session.figures q else []) = [] := by
        rw [none, ite_self]
      rw [leaves, Event.leavers]
      split
      case isFalse => rfl
      case isTrue stops =>
        have before := stops.1
        have after : m.session.phase = .stopped := stops.2
        rw [Session.activeNpcs]
        cases hc : t.session.current with
        | none => rfl
        | some r =>
          rw [Session.phase_of_current hc] at before
          rw [Session.phase_of_current (current.trans hc)] at after
          rcases phases r with h | ⟨rfl, -⟩
          · exact absurd (h.symm.trans after) before
          · exact none
    · obtain ⟨hc, hq⟩ := ht.current_of_owned owned none
      have active : t.session.phase ≠ .stopped := by
        rw [Session.phase_of_current hc]
        exact ht.not_stopped none still
      have after : (m.on rest).session.phase = phase :=
        (Session.phase_of_current (current.trans hc)).trans (own hq)
      rw [Event.leavers, Session.activeNpcs, hc]
      simp only [after, active, ne_eq, not_false_eq_true, true_and]
      rfl
  | opens idle new outline figures heeds frames =>
    obtain ⟨current, running, -⟩ := Session.of_opened outline
    rw [heeds.leaving]
    refine ⟨Event.leavers_of_phase fun stopped => ?_, ?_⟩
    · have stopped : m.session.phase = .stopped := stopped
      rw [Session.phase_of_current current, running] at stopped
      cases stopped
    · rw [← ht.carried idle still, Session.activeNpcs, current]
      show m.session.figures _ = _
      rw [figures, if_pos new.symm]

theorem Does.balances (h : t.Does d u) (allowed : obliging t d) (ht : t.Accounts given) :
    Event.Balances ⟨t, d, u⟩ := by
  have host (outline : u.session.outline = t.session.outline)
      (leaving : t.control.leaving = d.dismissed ++ u.control.leaving) : Event.Balances ⟨t, d, u⟩ := by
    refine ⟨?_, fun changes => absurd (Session.phase_of_outline outline).symm changes⟩
    rw [Event.leavers_of_outline outline, List.append_nil]
    exact leaving
  rcases h.treats ht with hy | ⟨a, answer, hc, forFigures, rfl, rfl⟩ |
      ⟨popped, rest, q, m, hs, rfl, hm, still, plain, clear⟩
  · refine host hy.outline ?_
    rw [(hy.keeps h allowed ht).1]
    cases d with
    | reply a answer => exact absurd rfl (hy.deed.2 a answer)
    | _ => rfl
  · cases a with
    | spawn r request =>
      refine host (Session.Retouches.setRun (f := (·.addNpc answer)) fun _ => rfl).outline ?_
      rw [hc]
      rfl
    | remove r npc =>
      refine host (Session.Retouches.setRun (f := (·.dropNpc npc)) fun _ => rfl).outline ?_
      rw [hc]
      rfl
    | dismiss r npc rest =>
      cases rest with
      | nil =>
        refine host (Session.Retouches.setRun (f := fun run => { run with npcs := [] })
          fun _ => rfl).outline ?_
        rw [hc]
        rfl
      | cons next rest =>
        refine host rfl ?_
        rw [hc]
        rfl
    | _ => cases forFigures
  · obtain ⟨leavers, kept⟩ := ht.leavers (d := d) rest hm still
    refine ⟨?_, fun _ => kept⟩
    have dismissed : d.dismissed = [] := by
      cases d with
      | reply a answer =>
        have plain := plain a answer rfl
        cases a with
        | dismiss => cases plain
        | _ => rfl
      | _ => rfl
    show t.control.leaving ++ _ = d.dismissed ++ _
    rw [still, dismissed, leavers]
    rfl

end Turn

end Balancing

/-! ## Whole sessions -/

/-- The figure `id` was spawned and has not been removed since. -/
def Tracked (events : List Event) (id : String) : Prop :=
  ∃ earlier e later, events = earlier ++ e :: later ∧ e.deed.spawned? = some id ∧
    ∀ e' ∈ later, e'.deed.removed? ≠ some id

theorem tracked_concat {events : List Event} {e : Event} {id : String} :
    Tracked (events ++ [e]) id ↔
      e.deed.spawned? = some id ∨ Tracked events id ∧ e.deed.removed? ≠ some id := by
  constructor
  · rintro ⟨earlier, e', later, hs, spawned, kept⟩
    rcases List.eq_nil_or_concat later with rfl | ⟨later, last, rfl⟩
    · obtain ⟨-, he⟩ := List.append_inj' hs rfl
      obtain rfl := List.singleton_inj.1 he
      exact .inl spawned
    · rw [List.concat_eq_append, ← List.cons_append, ← List.append_assoc] at hs
      obtain ⟨rfl, he⟩ := List.append_inj' hs rfl
      obtain rfl := List.singleton_inj.1 he
      rw [List.concat_eq_append] at kept
      exact .inr ⟨⟨earlier, e', later, rfl, spawned, fun x hx => kept x (List.mem_append_left _ hx)⟩,
        kept e (List.mem_append_right _ (List.mem_singleton_self e))⟩
  · rintro (spawned | ⟨⟨earlier, e', later, rfl, spawned, kept⟩, keeps⟩)
    · exact ⟨events, e, [], rfl, spawned, fun x hx => by cases hx⟩
    · refine ⟨earlier, e', later ++ [e], by simp, spawned, fun x hx => ?_⟩
      rcases List.mem_append.1 hx with hx | hx
      · exact kept x hx
      · obtain rfl := List.mem_singleton.1 hx
        exact keeps

section Sessions

variable {files : FileTree} {library : Path} {flags : FlagStore} {events : List Event} {t : Turn}

/-- The figures that are there are those that are tracked. -/
theorem History.accounts
    (h : History obliging (Session.fresh files library flags).atRest events t) :
    t.Accounts (Tracked events) := by
  induction h with
  | nil =>
    refine (Turn.Accounts.fresh files library flags).congr fun id => ⟨False.elim, ?_⟩
    rintro ⟨earlier, e, later, hs, -⟩
    simp at hs
  | @snoc events t u d h allowed does ih =>
    exact (does.accounts allowed ih).congr fun id => (tracked_concat (e := ⟨t, d, u⟩)).symm

/-- Whoever left because a run was stopped was one of its figures, in their order. -/
theorem History.balances
    (h : History obliging (Session.fresh files library flags).atRest events t) :
    (∀ e ∈ events, e.Balances) ∧
      (events.flatMap fun e => e.deed.dismissed) ++ t.control.leaving = events.flatMap Event.leavers := by
  induction h with
  | nil => exact ⟨fun e he => (by cases he), rfl⟩
  | snoc h allowed does ih =>
    have balances := does.balances allowed h.accounts
    refine ⟨fun e he => ?_, ?_⟩
    · rcases List.mem_append.1 he with he | he
      · exact ih.1 e he
      · obtain rfl := List.mem_singleton.1 he
        exact balances
    · rw [List.flatMap_append, List.flatMap_append, ← ih.2, List.append_assoc, List.append_assoc]
      simp only [List.flatMap_cons, List.flatMap_nil, List.append_nil]
      rw [← balances.leaving]

/-- **Figures are accounted for.**  In a session whose host answers every call, and begins nothing
while a figure comes or goes, a timer is cancelled or answers are handed over, the figures of the
current run are at any time those that came with a spawn and were not removed since, in their
order, unless figures are just leaving.  A run that is stopped has none.  When a run is opened,
paused or stopped the figures remain the same; and those that leave with their run are, one after
the other, those that each run had when it was stopped. -/
theorem figures_accounted
    (h : History obliging (Session.fresh files library flags).atRest events t) :
    (t.control.leaving = [] →
      (∀ id, id ∈ t.session.activeNpcs ↔ Tracked events id) ∧
      (t.session.phase = .stopped → t.session.activeNpcs = [])) ∧
    t.session.activeNpcs.Pairwise (· < ·) ∧
    (∀ e ∈ events, e.before.session.phase ≠ e.after.session.phase →
      e.after.session.activeNpcs = e.before.session.activeNpcs) ∧
    (events.flatMap fun e => e.deed.dismissed) ++ t.control.leaving =
      events.flatMap Event.leavers := by
  have accounts := h.accounts
  obtain ⟨balances, balance⟩ := h.balances
  refine ⟨fun still => ⟨fun id => ?_, fun stopped => ?_⟩, ?_, fun e he => (balances e he).kept, balance⟩
  · rw [← accounts.present id, Turn.present_of_leaving still]
  · rw [Session.activeNpcs]
    cases hc : t.session.current with
    | none => rfl
    | some r =>
      rw [Session.phase_of_current hc] at stopped
      exact Classical.byContradiction fun some => accounts.not_stopped some still stopped
  · rw [Session.activeNpcs]
    cases t.session.current with
    | none => exact .nil
    | some r => exact accounts.sorted.1 r

end Sessions

/-! ### Guards who come and leave -/

/-- A guard is posted. -/
def guardPost : Node := ⟨"post", .trigger { event := "spawnNPC", params := [("npcId", .string "guard")] }⟩

/-- A quest that only posts a guard. -/
def watch : Graph := { script := { id := "watch", nodes := [guardPost] }, entry := guardPost }

/-- A guard is posted and goes by a name of its own; then the run is paused. -/
def guardPosted (r : RunId) (name : String) : List Deed :=
  [.begin (.startGraph watch none), .move, .move, .move, .move,
    .reply (.spawn r ⟨"guard", none, none, .zero, .zero, .zero, .ofRatio false 1 1⟩) name,
    .move, .move, .move, .move]

/-- One guard is posted, then another one, and then the watch is over. -/
def watchKept : List Deed :=
  guardPosted 0 "Otto" ++ guardPosted 1 "Carl" ++
    [.begin .stop, .move, .reply (.dismiss 1 "Carl" ["Otto"]) (), .reply (.dismiss 1 "Otto" []) (),
      .move]

/-- The first guard is carried over, and both leave when the watch is over. -/
theorem guards_dismissed :
    let start := (Session.fresh (.empty []) (.ofString "scripts") {}).atRest
    let posted := start.record (guardPosted 0 "Otto")
    let events := start.record watchKept
    (∃ t, History obliging start posted t ∧ t.session.phase = .paused ∧
      t.session.activeNpcs = ["Otto"] ∧ Tracked posted "Otto") ∧
    ∃ t, History obliging start events t ∧ t.session.phase = .stopped ∧
      t.session.activeNpcs = [] ∧ ¬Tracked events "Otto" ∧
      events.flatMap Event.leavers = ["Carl", "Otto"] := by
  intro start posted events
  have obliged : ∀ e ∈ posted ++ events, obliging e.before e.deed := by decide +kernel
  have history (ds : List Deed) (played : (start.play? ds).isSome)
      (obliged : ∀ e ∈ start.record ds, obliging e.before e.deed) :
      History obliging start (start.record ds) (start.play ds) :=
    Turn.history_of_play? (Turn.play?_eq played) obliged
  have first := history (guardPosted 0 "Otto") (by decide +kernel)
    fun e he => obliged e (List.mem_append_left _ he)
  have whole := history watchKept (by decide +kernel)
    fun e he => obliged e (List.mem_append_right _ he)
  have paused : (start.play (guardPosted 0 "Otto")).session.phase = .paused ∧
      (start.play (guardPosted 0 "Otto")).control.leaving = [] ∧
      (start.play (guardPosted 0 "Otto")).session.activeNpcs = ["Otto"] := by decide +kernel
  have stopped : (start.play watchKept).session.phase = .stopped ∧
      (start.play watchKept).control.leaving = [] ∧
      (events.flatMap fun e => e.deed.dismissed) = ["Carl", "Otto"] := by decide +kernel
  obtain ⟨tracked, -⟩ := figures_accounted first
  obtain ⟨gone, -, -, balance⟩ := figures_accounted whole
  obtain ⟨there, none⟩ := gone stopped.2.1
  refine ⟨⟨_, first, paused.1, paused.2.2, ?_⟩, _, whole, stopped.1, none stopped.1, ?_, ?_⟩
  · rw [← (tracked paused.2.1).1 "Otto", paused.2.2]
    exact List.mem_singleton_self _
  · rw [← there "Otto", none stopped.1]
    exact List.not_mem_nil
  · rw [← balance, stopped.2.1, stopped.2.2]
    rfl

end Questline

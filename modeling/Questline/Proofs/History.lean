import Questline.Run.Turn

/-!
# Histories

Between its own moves a session waits for its host.  At a call the host may answer or
fail, and before it does so it may begin something from inside the call, as often as it
likes; when nothing is under way it may begin something from outside.  Whenever it is the
host's move it may also change the files and the flags.  A history is a sequence of such
deeds, of the session and of its host, from one turn to another.

* `Turn.after?`: the turn after a deed, and `Turn.Does`, the same case by case.
* `History`: deeds in a row, each one allowed to the host.
* `History.induct`: what holds at the beginning and is kept by every deed holds at the end.
* `Turn.Does.during`: what is begun from inside a call comes back to it.
-/

namespace Questline

@[simp] theorem Move.on_under (m : Move) (f : Frame) (stack : List Frame) :
    (m.under f).on stack = m.on (f :: stack) := by
  simp [Move.on, Move.under]

/-! ## Deeds -/

/-- What happens next: a move of the session, or one of the five things a host may do. -/
inductive Deed where
  | move
  | begin (entry : Entry)
  /-- Come back to the call from inside which work was begun that is over. -/
  | leave
  | reply (ask : Ask) (answer : ask.call.Reply)
  | fail (fault : Fault)
  | change (files : FileTree) (flags : FlagStore)

/-- Whether nothing is left to do in what was begun last. -/
def Control.isOver : Control → Bool
  | .done _ | .failed _ => true
  | .work _ | .ask _ => false

/-- Whether it is the host's move, on the given stack: at a call, or when nothing is under
way. -/
def Control.isForHost : Control → List Frame → Bool
  | .ask _, _ => true
  | c, stack => c.isOver && stack.isEmpty

namespace Turn

/-- The turn after a deed, if the deed is possible then. -/
def after? (t : Turn) : Deed → Option Turn
  | .move => t.next?
  | .begin entry =>
    match t.control, t.stack with
    | .ask a, _ => some (t.enter a (.entry entry))
    | .done _, [] | .failed _, [] => some (t.session.begin (.entry entry))
    | _, _ => none
  | .leave =>
    match t.control, t.stack with
    | .done _, .asked _ :: _ | .failed _, .asked _ :: _ => some t.leave
    | _, _ => none
  | .reply a answer => if t.control = .ask a then some (t.reply a answer) else none
  | .fail fault =>
    match t.control with
    | .ask _ => some (t.fail fault)
    | _ => none
  | .change files flags =>
    if t.control.isForHost t.stack then some { t with session := { t.session with files, flags } }
    else none

/-- The turn after several deeds. -/
def play? (t : Turn) : List Deed → Option Turn
  | [] => some t
  | d :: ds => (t.after? d).bind fun t => t.play? ds

/-- `t.Does d u`: the deed `d` leads from the turn `t` to the turn `u`. -/
inductive Does : Turn → Deed → Turn → Prop
  | work {s : Session} {stack : List Frame} (task : Task) :
      Does ⟨s, stack, .work task⟩ .move ((task.begin s).on stack)
  | receive {s : Session} {frame : Frame} {stack : List Frame} {result : Result}
      (h : ∀ a, frame ≠ .asked a) :
      Does ⟨s, frame :: stack, .done result⟩ .move ((frame.receive s result).on stack)
  | recover {s : Session} {frame : Frame} {stack : List Frame} {fault : Fault}
      (h : ∀ a, frame ≠ .asked a) :
      Does ⟨s, frame :: stack, .failed fault⟩ .move ((frame.recover s fault).on stack)
  | beginAtRest {s : Session} {c : Control} (h : c.isOver) (entry : Entry) :
      Does ⟨s, [], c⟩ (.begin entry) ⟨s, [], .work (.entry entry)⟩
  | beginInside {s : Session} {stack : List Frame} {a : Ask} (entry : Entry) :
      Does ⟨s, stack, .ask a⟩ (.begin entry) ⟨s, .asked a :: stack, .work (.entry entry)⟩
  | leave {s : Session} {stack : List Frame} {a : Ask} {c : Control} (h : c.isOver) :
      Does ⟨s, .asked a :: stack, c⟩ .leave ⟨s, stack, .ask a⟩
  | reply {s : Session} {stack : List Frame} {a : Ask} (answer : a.call.Reply) :
      Does ⟨s, stack, .ask a⟩ (.reply a answer) ((a.resume s answer).on stack)
  | fail {s : Session} {stack : List Frame} {a : Ask} (fault : Fault) :
      Does ⟨s, stack, .ask a⟩ (.fail fault) ⟨s, stack, .failed fault⟩
  | change {s : Session} {stack : List Frame} {c : Control} (h : c.isForHost stack)
      (files : FileTree) (flags : FlagStore) :
      Does ⟨s, stack, c⟩ (.change files flags) ⟨{ s with files, flags }, stack, c⟩

theorem does_of_next? {t u : Turn} (h : t.next? = some u) : t.Does .move u := by
  obtain ⟨s, stack, c⟩ := t
  unfold next? at h
  split at h
  case h_1 hc => cases hc; cases h; exact .work _
  case h_7 hn hc hs => cases hc; cases hs; cases h; exact .receive fun a ha => hn a (by rw [ha])
  case h_8 hn hc hs => cases hc; cases hs; cases h; exact .recover fun a ha => hn a (by rw [ha])
  all_goals cases h

theorem does_of_after? {t u : Turn} {d : Deed} (h : t.after? d = some u) : t.Does d u := by
  obtain ⟨s, stack, c⟩ := t
  cases d with
  | move => exact does_of_next? h
  | begin entry =>
    simp only [after?] at h
    split at h <;> cases h
    · exact .beginInside entry
    · exact .beginAtRest rfl entry
    · exact .beginAtRest rfl entry
  | leave =>
    simp only [after?] at h
    split at h <;> cases h
    · exact .leave rfl
    · exact .leave rfl
  | reply a answer =>
    simp only [after?] at h
    split at h
    case isTrue hc => subst hc; cases h; exact .reply answer
    case isFalse => cases h
  | fail fault =>
    simp only [after?] at h
    split at h <;> cases h
    exact .fail fault
  | change files flags =>
    simp only [after?] at h
    split at h
    case isTrue hc => cases h; exact .change hc files flags
    case isFalse => cases h

end Turn

/-! ## Histories -/

/-- A deed with the turns before and after it. -/
structure Event where
  before : Turn
  deed : Deed
  after : Turn

/-- `History may t events u`: the events lead from the turn `t` to the turn `u`, the latest
one last, and each of their deeds is one that `may` allows in its turn. -/
inductive History (may : Turn → Deed → Prop) (start : Turn) : List Event → Turn → Prop
  | nil : History may start [] start
  | snoc {events : List Event} {t u : Turn} {d : Deed} (h : History may start events t)
      (allowed : may t d) (does : t.Does d u) : History may start (events ++ [⟨t, d, u⟩]) u

/-- Everything is allowed. -/
def anyDeed : Turn → Deed → Prop := fun _ _ => True

/-- Some history leads from one turn to another. -/
def Turn.Leads (may : Turn → Deed → Prop) (t u : Turn) : Prop := ∃ events, History may t events u

namespace History

variable {may : Turn → Deed → Prop} {start t u : Turn} {events : List Event}

/-- **Induction over a history**: what holds at its beginning and is kept by every deed
that is allowed holds at its end. -/
theorem induct {P : Turn → Prop} (h : History may start events t) (begins : P start)
    (keeps : ∀ {t u : Turn} {d : Deed}, P t → may t d → t.Does d u → P u) : P t := by
  induction h with
  | nil => exact begins
  | snoc _ allowed does ih => exact keeps ih allowed does

theorem append (h : History may start events t) {later : List Event}
    (g : History may t later u) : History may start (events ++ later) u := by
  induction g with
  | nil => rw [List.append_nil]; exact h
  | snoc _ allowed does ih => rw [← List.append_assoc]; exact ih.snoc allowed does

theorem mono {may' : Turn → Deed → Prop} (h : History may start events t)
    (wider : ∀ t d, may t d → may' t d) : History may' start events t := by
  induction h with
  | nil => exact .nil
  | snoc _ allowed does ih => exact ih.snoc (wider _ _ allowed) does

theorem nil_inv (h : History may start [] t) : t = start := by
  generalize hs : ([] : List Event) = all at h
  cases h with
  | nil => rfl
  | snoc => simp at hs

theorem snoc_inv {e : Event} (h : History may start (events ++ [e]) t) :
    History may start events e.before ∧ may e.before e.deed ∧ e.before.Does e.deed e.after ∧
      e.after = t := by
  generalize hs : events ++ [e] = all at h
  cases h with
  | nil => simp at hs
  | snoc h allowed does =>
    obtain ⟨rfl, he⟩ := List.append_inj' hs rfl
    obtain rfl := List.singleton_inj.1 he
    exact ⟨h, allowed, does, rfl⟩

/-- A history can be cut anywhere. -/
theorem of_append {later : List Event} (h : History may start (events ++ later) t) :
    ∃ u, History may start events u ∧ History may u later t := by
  generalize hs : events ++ later = all at h
  induction h generalizing later with
  | nil =>
    obtain ⟨rfl, rfl⟩ := List.append_eq_nil_iff.1 hs
    exact ⟨_, .nil, .nil⟩
  | @snoc all t u d h allowed does ih =>
    rcases List.eq_nil_or_concat later with rfl | ⟨later, e, rfl⟩
    · rw [List.append_nil] at hs
      subst hs
      exact ⟨_, h.snoc allowed does, .nil⟩
    · rw [List.concat_eq_append, ← List.append_assoc] at hs
      obtain ⟨hinit, he⟩ := List.append_inj' hs rfl
      obtain rfl := List.singleton_inj.1 he
      obtain ⟨v, hv, hlater⟩ := ih hinit
      rw [List.concat_eq_append]
      exact ⟨v, hv, hlater.snoc allowed does⟩

/-- The turns around an event of a history. -/
theorem of_append_cons {e : Event} {later : List Event}
    (h : History may start (events ++ e :: later) t) :
    History may start events e.before ∧ may e.before e.deed ∧ e.before.Does e.deed e.after ∧
      History may e.after later t := by
  rw [← List.singleton_append, ← List.append_assoc] at h
  obtain ⟨u, hu, hlater⟩ := h.of_append
  obtain ⟨hbefore, allowed, does, rfl⟩ := hu.snoc_inv
  exact ⟨hbefore, allowed, does, hlater⟩

theorem leads (h : History may start events t) : start.Leads may t := ⟨events, h⟩

end History

namespace Turn.Leads

variable {may : Turn → Deed → Prop} {t u v : Turn}

theorem refl (t : Turn) : t.Leads may t := ⟨[], .nil⟩

theorem step (h : t.Leads may u) {d : Deed} (allowed : may u d) (does : u.Does d v) :
    t.Leads may v := by
  obtain ⟨events, h⟩ := h
  exact ⟨_, h.snoc allowed does⟩

theorem trans (h : t.Leads may u) (g : u.Leads may v) : t.Leads may v := by
  obtain ⟨events, h⟩ := h
  obtain ⟨later, g⟩ := g
  exact ⟨_, h.append g⟩

end Turn.Leads

namespace Turn

/-- The events of several deeds, as far as they are possible. -/
def record (t : Turn) : List Deed → List Event
  | [] => []
  | d :: ds =>
    match t.after? d with
    | some u => ⟨t, d, u⟩ :: u.record ds
    | none => []

/-- Deeds that can be played one after the other are a history. -/
theorem history_of_play? {may : Turn → Deed → Prop} {t u : Turn} {ds : List Deed}
    (h : t.play? ds = some u) (allowed : ∀ e ∈ t.record ds, may e.before e.deed) :
    History may t (t.record ds) u := by
  induction ds generalizing t with
  | nil => cases h; exact .nil
  | cons d ds ih =>
    simp only [play?, Option.bind_eq_some_iff] at h
    obtain ⟨v, hv, h⟩ := h
    simp only [record, hv] at allowed ⊢
    have first : History may t [⟨t, d, v⟩] v :=
      History.nil.snoc (allowed _ List.mem_cons_self) (does_of_after? hv)
    exact first.append (ih h fun e he => allowed e (List.mem_cons_of_mem _ he))

end Turn

theorem leads_of_play? {t u : Turn} {ds : List Deed} (h : t.play? ds = some u) :
    t.Leads anyDeed u :=
  ⟨_, Turn.history_of_play? h fun _ _ => trivial⟩

/-- The turn after several deeds, if they are possible, and else the turn itself. -/
def Turn.play (t : Turn) (ds : List Deed) : Turn := (t.play? ds).getD t

theorem Turn.play?_eq {t : Turn} {ds : List Deed} (h : (t.play? ds).isSome) :
    t.play? ds = some (t.play ds) := by
  obtain ⟨u, hu⟩ := Option.isSome_iff_exists.1 h
  rw [Turn.play, hu, Option.getD_some]

theorem leads_play {t : Turn} {ds : List Deed} (h : (t.play? ds).isSome) :
    t.Leads anyDeed (t.play ds) :=
  leads_of_play? (Turn.play?_eq h)

/-! ## Inside a call -/

namespace Turn

/-- On top of the stack `below` the call `a` is waited for, or something that was begun
from inside it is under way. -/
inductive During (a : Ask) (below : List Frame) : Turn → Prop
  | atCall (s : Session) : During a below ⟨s, below, .ask a⟩
  | inside (s : Session) (above : List Frame) (c : Control) :
      During a below ⟨s, above ++ .asked a :: below, c⟩

variable {t u : Turn} {d : Deed} {a : Ask} {below : List Frame}

theorem During.length_le (h : t.During a below) : below.length ≤ t.stack.length := by
  cases h with
  | atCall s => exact Nat.le_refl _
  | inside s above c => simp only [List.length_append, List.length_cons]; omega

/-- **A call ends with its answer or its fault.**  Until then, whatever is begun from inside
it leaves the stack below as it is. -/
theorem Does.during (h : t.Does d u) (ht : t.During a below) :
    u.During a below ∨ ∃ s, t = ⟨s, below, .ask a⟩ ∧
      ((∃ answer, d = .reply a answer ∧ u = (a.resume s answer).on below) ∨
        ∃ f, d = .fail f ∧ u = ⟨s, below, .failed f⟩) := by
  cases ht with
  | atCall s =>
    cases h with
    | beginAtRest h => cases h
    | beginInside entry => exact .inl (.inside s [] _)
    | leave h => cases h
    | reply answer => exact .inr ⟨s, rfl, .inl ⟨answer, rfl, rfl⟩⟩
    | fail f => exact .inr ⟨s, rfl, .inr ⟨f, rfl, rfl⟩⟩
    | change h files flags => exact .inl (.atCall _)
  | inside s above c =>
    left
    generalize hs : above ++ .asked a :: below = stack at h
    have put (m : Move) (above : List Frame) : (m.on (above ++ .asked a :: below)).During a below := by
      have hm : m.on (above ++ .asked a :: below) =
          ⟨m.session, (m.frames ++ above) ++ .asked a :: below, m.control⟩ := by
        simp [Move.on]
      rw [hm]
      exact .inside _ _ _
    cases h with
    | work task => subst hs; exact put _ _
    | receive h =>
      cases above with
      | nil => cases hs; exact absurd rfl (h a)
      | cons f above => cases hs; exact put _ _
    | recover h =>
      cases above with
      | nil => cases hs; exact absurd rfl (h a)
      | cons f above => cases hs; exact put _ _
    | beginAtRest h => simp at hs
    | @beginInside _ _ b entry => subst hs; exact .inside s (.asked b :: above) _
    | leave h =>
      cases above with
      | nil => cases hs; exact .atCall s
      | cons f above => cases hs; exact .inside s above _
    | reply answer => subst hs; exact put _ _
    | fail f => subst hs; exact .inside _ _ _
    | change h files flags => subst hs; exact .inside _ _ _

/-- Whether what was begun on top of the stack `base` is over. -/
def IsBack (base : List Frame) (t : Turn) : Prop := t.stack = base ∧ t.control.isOver

end Turn

/-- Everything is allowed until what was begun on top of the stack `base` is over. -/
def untilBack (base : List Frame) : Turn → Deed → Prop := fun t _ => ¬t.IsBack base

/-! ## Beginnings -/

/-- The turn in which nothing is under way. -/
def Session.atRest (s : Session) : Turn := { session := s, control := .done .done }

/-- A session in which nothing was begun yet. -/
def Session.fresh (files : FileTree) (library : Path) (flags : FlagStore) : Session :=
  { files, library, flags }

end Questline

import Questline.Proofs.Resting
import Questline.Proofs.Writing

/-!
# Runs are walks

A history is told to a walker sign by sign.  With a gentle host, and as long as nothing fails or is
stopped, the walker can take every sign, unless an answer is taken up from inside the cancelling of
a timer: that answer is the second one at its node, and no walk goes on with it.

What a host brings back late, the end of a battle or of an image's time, counts only if its wait is
still open; that the wait was made for the node at which the walk then stands is what has to be
remembered from the moment the handle was given out.

* `Pledge`: what is remembered of a handle, and `Turn.Sound.kept`: it stays so.
* `handedOut`: the host comes back only with handles that it was given.
* `Turn.Walks.step`, `Turn.Walks.stuck`: one deed more, and the deed at which a walk halts.
* `run_is_walk_iff`: the run is the walk just if no such answer is taken up.
-/

namespace Questline

open Json (Value)

/-! ## Where a walk stands -/

namespace Walker

variable {v v' : Walker}

/-- Only a visit brings a walk to another node. -/
theorem node?_of_step {sign : Sign} (h : v.step sign = some v')
    (hs : ∀ spot flags, sign ≠ .visited spot flags) : v'.node? = v.node? ∨ v'.node? = none := by
  unfold step at h
  split at h
  case h_1 =>
    split at h <;> cases h
    exact .inr rfl
  case h_2 => exact absurd rfl (hs _ _)
  case h_3 =>
    split at h <;> cases h
    exact .inl rfl
  case h_4 =>
    split at h <;> cases h
    exact .inl rfl
  case h_5 =>
    split at h <;> cases h
    exact .inl rfl
  case h_6 =>
    split at h <;> cases h
    exact .inl rfl
  case h_7 =>
    split at h <;> cases h
    exact .inl rfl
  case h_8 =>
    split at h
    · split at h
      · cases h
        split <;> exact .inr rfl
      · cases h
    · cases h
  case h_9 =>
    cases h
    exact .inr rfl
  case h_10 => cases h

theorem node?_of_walk {signs : List Sign} (h : v.walk signs = some v')
    (hs : ∀ spot flags, .visited spot flags ∉ signs) : v'.node? = v.node? ∨ v'.node? = none := by
  induction signs generalizing v with
  | nil =>
    cases h
    exact .inl rfl
  | cons sign signs ih =>
    rw [walk, Option.bind_eq_some_iff] at h
    obtain ⟨w, step, h⟩ := h
    have first : w.node? = v.node? ∨ w.node? = none :=
      node?_of_step step fun spot flags he => hs spot flags (he ▸ List.mem_cons_self)
    rcases ih h fun spot flags hm => hs spot flags (List.mem_cons_of_mem _ hm) with later | later
    · rw [later]
      exact first
    · exact .inr later

end Walker

/-! ## Handles -/

/-- What a handle was made for: a wait of a run at a node of some sort. -/
structure Pledge where
  run : RunId
  wait : WaitId
  node : Node → Prop

/-- What the handle of an entry was made for. -/
def Entry.pledge? : Entry → Option Pledge
  | .battleOver battle _ =>
    some ⟨battle.run, battle.wait, fun n => n = battle.node ∧ ∃ opponent, n.body = .combat opponent⟩
  | .timeUp timer => some ⟨timer.run, timer.wait, fun n => ∃ i, n.body = .image i⟩
  | .written delivery =>
    some ⟨delivery.handle.run, delivery.handle.wait, fun n => n.body = .link delivery.handle.link⟩
  | _ => none

/-- As long as the run waits for what the handle was made for, the walk stands there. -/
structure Pledge.Kept (p : Pledge) (s : Session) (v : Walker) : Prop where
  old : p.wait < s.nextWait
  node : (s.run p.run).isWaitingOn p.wait → ∀ n ∈ v.node?, p.node n

theorem Entry.suits_of_kept {e : Entry} {s : Session} {v : Walker}
    (h : ∀ p ∈ e.pledge?, p.Kept s v) (hs : e ≠ .stop) : e.Suits s v := by
  cases e with
  | stop => exact hs rfl
  | battleOver battle outcome =>
    intro waits
    exact (h _ rfl).node (Bool.and_eq_true_iff.1 waits).2
  | timeUp timer =>
    intro waits
    exact (h _ rfl).node (Bool.and_eq_true_iff.1 waits).2
  | written delivery => exact (h _ rfl).node
  | start | startGraph | advance | settle => trivial

section

variable {spot : Spot} {flags : FlagStore} (s : Session)

theorem not_visited_reply (a : Ask) (answer : a.call.Reply) :
    .visited spot flags ∉ a.signs s answer := by
  intro h
  cases a with
  | handOver r node link callback ledger =>
    cases answer with
    | plain => simp [Ask.signs] at h
    | finished outcome => cases outcome <;> simp [Ask.signs] at h
    | pending ticket => simp [Ask.signs] at h
  | _ => simp [Ask.signs, Ask.act?] at h

theorem not_visited_entry (e : Entry) : .visited spot flags ∉ e.signs s := by
  intro h
  cases e with
  | start script completion =>
    simp only [Entry.signs] at h
    generalize Library.load s.files s.library script = loaded at h
    cases loaded <;> simp [startSigns] at h
  | written delivery =>
    simp only [Entry.signs] at h
    split at h <;> simp at h
  | battleOver battle outcome =>
    simp only [Entry.signs] at h
    split at h <;> simp at h
  | timeUp timer =>
    simp only [Entry.signs] at h
    split at h <;> simp at h
  | startGraph | advance | stop | settle => simp [Entry.signs] at h

theorem not_visited_receive (frame : Frame) (result : Result) :
    .visited spot flags ∉ frame.signs s result := by
  intro h
  unfold Frame.signs at h
  split at h
  case h_1 r step =>
    unfold Action.signs at h
    split at h
    · split at h <;> simp at h
    · cases h
  case h_2 => cases h

end

/-- A node is visited when its visit begins. -/
theorem visiting_of_visited {e : Event} {spot : Spot} {flags : FlagStore}
    (h : .visited spot flags ∈ e.signs) :
    ∃ r, e.before.control = .work (.visit r spot.node spot.graph) := by
  unfold Event.signs at h
  split at h
  case h_1 => exact absurd h (not_visited_reply _ _ _)
  case h_2 =>
    split at h
    case h_1 task hc =>
      cases task with
      | visit r n g =>
        obtain ⟨rfl, -⟩ := Sign.visited.inj (List.mem_singleton.1 h)
        exact ⟨r, hc⟩
      | entry entry => exact absurd h (not_visited_entry _ entry)
      | _ => cases h
    case h_2 => exact absurd h (not_visited_receive _ _ _)
    case h_3 => cases h
  case h_3 => cases h

namespace Turn

variable {X : Option Walker} {v v' : Walker} {s : Session} {stack : List Frame} {t u : Turn}
  {d : Deed}

theorem Sound.not_waiting_of_visiting {r : RunId} {n : Node} {g : Graph} (h : Sound X t)
    (hc : t.control = .work (.visit r n g)) (q : RunId) (w : WaitId) :
    (t.session.run q).isWaitingOn w = false := by
  cases h with
  | underway floor has going way => exact has.not_waiting (.inl going.wait) q w
  | rest _ _ past => subst hc; cases past
  | delivered _ _ past => subst hc; cases past
  | resuming _ _ _ _ cancelling => subst hc; cases cancelling
  | ending _ _ _ cancelling => subst hc; cases cancelling
  | showing _ _ _ showing => subst hc; cases showing
  | inside _ _ control =>
    subst hc
    rcases control with past | ⟨_, hc, -⟩
    · cases past
    · cases hc
  | _ => cases hc

/-- **A pledge is kept**: the walk stands where it stood, or nothing old is waited for. -/
theorem Sound.kept {p : Pledge} (h : Sound X t) (does : t.Does d u) (kept : p.Kept t.session v)
    (walk : v.walk (Event.signs ⟨t, d, u⟩) = some v') : p.Kept u.session v' where
  old := Nat.lt_of_lt_of_le kept.old does.ages.waits_le
  node waits := by
    have waited : (t.session.run p.run).isWaitingOn p.wait = true := by
      cases before : (t.session.run p.run).isWaitingOn p.wait with
      | true => rfl
      | false =>
        rw [does.ages.not_waiting kept.old before] at waits
        cases waits
    have unvisited : ∀ spot flags, Sign.visited spot flags ∉ Event.signs ⟨t, d, u⟩ := by
      intro spot flags hm
      obtain ⟨r, hc⟩ := visiting_of_visited hm
      rw [h.not_waiting_of_visiting hc] at waited
      cases waited
    intro n hn
    rcases Walker.node?_of_walk walk unvisited with same | none
    · exact kept.node waited n (same ▸ hn)
    · rw [none] at hn
      cases hn

/-- The session begins no entry on its own. -/
theorem Does.begins {e : Entry} (h : t.Does d u) (hc : u.control = .work (.entry e)) :
    d = .begin e := by
  have posts (s : Session) (ds : List Delivery) (stack : List Frame) :
      ((s.post ds).on stack).control ≠ .work (.entry e) := by
    cases ds <;> exact nofun
  cases h with
  | @work s stack task =>
    by_cases he : ∃ e', task = .entry e'
    · obtain ⟨e', rfl⟩ := he
      rcases s.enter_worksFor e' with ⟨q, hm⟩ | ⟨s', -, ds, hm⟩
      · exact absurd hc (hm.noEntry e)
      · have entered : Task.begin s (.entry e') = s'.post ds := hm
        rw [entered] at hc
        exact absurd hc (posts _ _ _)
    · obtain ⟨q, hm⟩ := Task.begin_worksFor s task fun e' h => he ⟨e', h⟩
      exact absurd hc (hm.noEntry e)
  | @receive s frame stack result hf =>
    cases hp : frame.isPosting with
    | true =>
      cases frame <;> cases hp
      exact absurd hc (posts _ _ _)
    | false =>
      obtain ⟨q, hm⟩ := Frame.receive_worksFor s frame result hf hp
      exact absurd hc (hm.noEntry e)
  | @recover s frame stack fault hf =>
    cases hp : frame.isPosting with
    | true =>
      cases frame <;> cases hp
      exact absurd hc (posts _ _ _)
    | false =>
      obtain ⟨q, hm⟩ := Frame.recover_worksFor s frame fault hp
      exact absurd hc (hm.noEntry e)
  | @reply s stack a answer =>
    obtain ⟨q, hm⟩ := a.resume_worksFor s answer
    exact absurd hc (hm.noEntry e)
  | beginAtRest past entry =>
    cases hc
    rfl
  | beginInside entry =>
    cases hc
    rfl
  | leave => cases hc
  | fail => cases hc
  | change past =>
    subst hc
    cases past

end Turn

/-! ## What was handed out -/

/-- The handle for the end of a write that the host comes to know with its answer. -/
def Ask.writeHandle? (s : Session) : (a : Ask) → a.call.Reply → Option WriteHandle
  | .handOver r _ link _ _, receipt =>
    match receipt with
    | .pending _ => some { run := r, wait := s.nextWait, link }
    | _ => none
  | _, _ => none

/-- Whether in an event the host comes to know the handle of an entry: from the call that
starts the battle or the timer, or from its own answer that a write is under way. -/
def Event.handsOut (e : Event) : Entry → Bool
  | .battleOver battle _ =>
    match e.before.control with
    | .ask (.battle _ b) => b = battle
    | _ => false
  | .timeUp timer =>
    match e.before.control with
    | .ask (.startTimer _ t) => t = timer
    | _ => false
  | .written delivery =>
    match e.deed with
    | .reply a answer => a.writeHandle? e.before.session answer = some delivery.handle
    | _ => false
  | _ => true

/-- Whether an event begins nothing but what it has the handle for; `known` are the events so
far. -/
def Event.isHanded (known : List Event) (e : Event) : Bool :=
  match e.deed with
  | .begin entry => known.any (·.handsOut entry)
  | _ => true

/-- Whether every handle with which the host comes back was handed out to it before. -/
def handedOut (earlier : List Event) : List Event → Bool
  | [] => true
  | e :: events => e.isHanded (earlier ++ [e]) && handedOut (earlier ++ [e]) events

theorem handedOut_append (earlier events later : List Event) :
    handedOut earlier (events ++ later) =
      (handedOut earlier events && handedOut (earlier ++ events) later) := by
  induction events generalizing earlier with
  | nil => simp [handedOut]
  | cons e events ih => simp [handedOut, ih, Bool.and_assoc]

/-- Whether no fault is under way after an event, and no stop is begun. -/
def Event.isSmooth (e : Event) : Bool :=
  !e.after.isFaulty &&
    match e.deed with
    | .begin .stop => false
    | _ => true

namespace Turn

variable {v v' : Walker} {s : Session} {stack : List Frame} {t u : Turn} {d : Deed}

theorem Sound.showing_of_ask {X : Option Walker} {a : Ask} (h : Sound X ⟨s, stack, .ask a⟩)
    (ha : a.isShowing) : ∃ r n w todo frames,
      w < s.nextWait ∧ s.Open X r n w todo ∧ Showing r n w todo frames (.ask a) := by
  cases h with
  | showing floor begun opened showing => exact ⟨_, _, _, _, _, begun, opened, showing⟩
  | rest _ _ past => cases past
  | delivered _ _ past => cases past
  | delivering => cases ha
  | resuming _ _ _ _ cancelling => cases cancelling; cases ha
  | ending _ _ _ cancelling => cases cancelling; cases ha
  | underway _ _ _ way =>
    cases way with
    | reporting _ _ report => cases report; cases ha
    | handling handles => cases handles <;> cases ha
    | noting report => cases report; cases ha
    | triggering triggers => cases triggers <;> cases ha
    | counting | handing => cases ha
  | filling | dismissing | announcing => cases ha
  | inside _ _ control =>
    rcases control with past | ⟨_, hc, -⟩
    · cases past
    · cases hc

/-- What is shown to the host is waited for at the node where the walk stands. -/
theorem open_kept {r : RunId} {n : Node} {w : WaitId} {todo : Option Act} {P : Node → Prop}
    (begun : w < s.nextWait) (opened : s.Open (some v) r n w todo) (hn : P n) :
    Pledge.Kept ⟨r, w, P⟩ s v := by
  refine ⟨begun, fun waits => ?_⟩
  cases opened with
  | held has held id untimed walk =>
    obtain rfl := walk v rfl
    intro m hm
    obtain rfl := Option.some.inj hm
    exact hn
  | queued has going =>
    rw [has.not_waiting (.inl going.wait)] at waits
    cases waits

theorem Sound.kept_battle {opponent : Json.Fields} {battle : BattleHandle} {outcome : Value}
    (h : Sound (some v) ⟨s, stack, .ask (.battle opponent battle)⟩) :
    ∀ p ∈ (Entry.battleOver battle outcome).pledge?, p.Kept s v := by
  intro p hp
  obtain rfl := Option.some.inj hp
  obtain ⟨r, n, w, todo, frames, begun, opened, showing⟩ := h.showing_of_ask rfl
  cases showing with
  | battle body => exact open_kept begun opened ⟨rfl, _, body⟩

theorem Sound.kept_timer {seconds : Number} {timer : TimerHandle}
    (h : Sound (some v) ⟨s, stack, .ask (.startTimer seconds timer)⟩) :
    ∀ p ∈ (Entry.timeUp timer).pledge?, p.Kept s v := by
  intro p hp
  obtain rfl := Option.some.inj hp
  obtain ⟨r, n, w, todo, frames, begun, opened, showing⟩ := h.showing_of_ask rfl
  cases showing with
  | timer body => exact open_kept begun opened ⟨_, body⟩

theorem Sound.node_of_handing {r : RunId} {node : String} {l : Link} {callback : Callback}
    {ledger : Ledger} (h : Sound (some v) ⟨s, stack, .ask (.handOver r node l callback ledger)⟩) :
    ∃ n : Node, n.body = .link l ∧ v.node? = some n := by
  cases h with
  | underway _ _ _ way =>
    cases way with
    | handing arrived body walk =>
      obtain rfl := walk v rfl
      exact ⟨_, body, rfl⟩
    | reporting _ _ report => cases report
    | handling handles => cases handles
    | noting report => cases report
    | triggering triggers => cases triggers
  | rest _ _ past => cases past
  | delivered _ _ past => cases past
  | resuming _ _ _ _ cancelling => cases cancelling
  | ending _ _ _ cancelling => cases cancelling
  | showing _ _ _ showing => cases showing
  | inside _ _ control =>
    rcases control with past | ⟨_, hc, -⟩
    · cases past
    · cases hc

/-- A link whose write is under way is waited for at its node. -/
theorem Sound.kept_write {a : Ask} {answer : a.call.Reply} {delivery : Delivery}
    (h : Sound (some v) ⟨s, stack, .ask a⟩)
    (hands : a.writeHandle? s answer = some delivery.handle)
    (walk : v.walk (a.signs s answer) = some v') :
    ∀ p ∈ (Entry.written delivery).pledge?, p.Kept ((a.resume s answer).on stack).session v' := by
  intro p hp
  obtain rfl := Option.some.inj hp
  cases a with
  | handOver r node l callback ledger =>
    cases answer with
    | plain => cases hands
    | finished outcome => cases hands
    | pending ticket =>
      obtain rfl := Option.some.inj walk
      have handle : delivery.handle = { run := r, wait := s.nextWait, link := l } :=
        (Option.some.inj hands).symm
      obtain ⟨n, body, standing⟩ := h.node_of_handing
      rw [handle]
      refine ⟨Nat.lt_succ_self _, fun _ m hm => ?_⟩
      rw [standing] at hm
      obtain rfl := Option.some.inj hm
      exact body
  | _ => cases hands

/-- **A handle that is handed out** is made for what is waited for where the walk stands. -/
theorem Sound.kept_handed {e : Entry} (h : Sound (some v) t) (does : t.Does d u)
    (walk : v.walk (Event.signs ⟨t, d, u⟩) = some v') (hands : Event.handsOut ⟨t, d, u⟩ e) :
    ∀ p ∈ e.pledge?, p.Kept u.session v' := by
  intro p hp
  cases e with
  | battleOver battle outcome =>
    obtain ⟨s, stack, c⟩ := t
    simp only [Event.handsOut] at hands
    split at hands
    case h_1 =>
      obtain rfl := of_decide_eq_true hands
      exact h.kept does (h.kept_battle p hp) walk
    case h_2 => cases hands
  | timeUp timer =>
    obtain ⟨s, stack, c⟩ := t
    simp only [Event.handsOut] at hands
    split at hands
    case h_1 =>
      obtain rfl := of_decide_eq_true hands
      exact h.kept does (h.kept_timer p hp) walk
    case h_2 => cases hands
  | written delivery =>
    cases does with
    | reply answer => exact h.kept_write (of_decide_eq_true hands) walk p hp
    | _ => cases hands
  | start | startGraph | advance | stop | settle => cases hp

end Turn

/-! ## The end of a walk -/

section

variable {X : Option Walker} {s : Session} {r : RunId} {run : Run} {draining : Bool}
  {pending : List (RunId × Job)} {graph : Option Graph}

theorem Session.Has.currentRun? (h : s.Has r draining pending run graph) :
    s.currentRun? = some run := by
  rw [Session.currentRun?, h.current, Option.map_some, h.run_eq]

/-- If the current run is over, the walk is known to have ended in the same phase. -/
def Session.EndsWith (X : Option Walker) (s : Session) : Prop :=
  ∀ run, s.currentRun? = some run → run.isActive = false → ∀ v ∈ X, v.end? = some run.phase

theorem Session.Has.endsWith_of_active (h : s.Has r draining pending run graph)
    (active : run.isActive) : s.EndsWith X := by
  intro run' hr past
  rw [h.currentRun?] at hr
  obtain rfl := Option.some.inj hr
  rw [active] at past
  cases past

theorem Session.Has.endsWith_of_end (h : s.Has r draining pending run graph)
    (walk : ∀ v ∈ X, v.end? = some run.phase) : s.EndsWith X := by
  intro run' hr _
  rw [h.currentRun?] at hr
  obtain rfl := Option.some.inj hr
  exact walk

theorem Session.endsWith_of_lost (lost : ∀ v ∈ X, False) : s.EndsWith X :=
  fun _ _ _ v hv => (lost v hv).elim

theorem Session.Rests.endsWith (h : s.Rests X r draining) : s.EndsWith X := by
  cases h with
  | held has held => exact has.endsWith_of_active held.isActive
  | ended has past walk => exact has.endsWith_of_end walk

theorem Session.Quiet.endsWith (h : s.Quiet X) : s.EndsWith X := by
  cases h with
  | unbegun _ current =>
    intro run hr
    simp [Session.currentRun?, current] at hr
  | begun r rests => exact rests.endsWith

theorem Session.Settled.endsWith (h : s.Settled X r) : s.EndsWith X := by
  cases h with
  | rests rests => exact rests.endsWith
  | queued has going => exact has.endsWith_of_active going.isActive

theorem Session.Open.endsWith {n : Node} {w : WaitId} {todo : Option Act}
    (h : s.Open X r n w todo) : s.EndsWith X := by
  cases h with
  | held has held => exact has.endsWith_of_active held.isActive
  | queued has going => exact has.endsWith_of_active going.isActive

end

namespace Turn

variable {X : Option Walker} {t u : Turn} {d : Deed} {v : Walker}

/-- **A run that is over has come to the end of its walk.** -/
theorem Sound.endsWith (h : Sound X t) : t.session.EndsWith X := by
  induction h with
  | rest _ quiet => exact quiet.endsWith
  | entering _ quiet => exact quiet.endsWith
  | delivering _ quiet => exact quiet.endsWith
  | delivered _ quiet => exact quiet.endsWith
  | resuming _ has held => exact has.endsWith_of_active held.isActive
  | ending _ _ lost => exact Session.endsWith_of_lost lost
  | drained _ settled => exact settled.endsWith
  | broken _ _ _ lost => exact Session.endsWith_of_lost lost
  | taken _ has going => exact has.endsWith_of_active going.isActive
  | underway _ has going => exact has.endsWith_of_active going.isActive
  | showing _ _ opened => exact opened.endsWith
  | settled _ settled => exact settled.endsWith
  | filling _ has active => exact has.endsWith_of_active active
  | landed _ rests => exact rests.endsWith
  | linkFailed _ _ _ _ lost => exact Session.endsWith_of_lost lost
  | linkBroken _ _ _ lost => exact Session.endsWith_of_lost lost
  | terminating _ _ _ lost => exact Session.endsWith_of_lost lost
  | dismissing _ has _ walk => exact has.endsWith_of_end walk
  | dismissed _ has _ walk => exact has.endsWith_of_end walk
  | announcing _ has _ walk => exact has.endsWith_of_end walk
  | failingAtRest _ _ lost => exact Session.endsWith_of_lost lost
  | failing _ _ _ lost => exact Session.endsWith_of_lost lost
  | inside _ _ _ ih => exact ih

theorem Sound.not_dispatch (h : Sound X t) (r : RunId) (trigger : Trigger) :
    t.control ≠ .work (.dispatch r trigger) := by
  intro hc
  cases h with
  | rest _ _ past => subst hc; cases past
  | delivered _ _ past => subst hc; cases past
  | resuming _ _ _ _ cancelling => subst hc; cases cancelling
  | ending _ _ _ cancelling => subst hc; cases cancelling
  | underway _ _ _ way =>
    subst hc
    cases way with
    | reporting _ _ report => cases report
    | noting report => cases report
  | showing _ _ _ showing => subst hc; cases showing
  | inside _ _ control =>
    subst hc
    rcases control with past | ⟨_, hc, -⟩
    · cases past
    · cases hc
  | _ => cases hc

/-- After the events, in the turn `t`, the walk stands at `v`. -/
structure Walks (events : List Event) (t : Turn) (v : Walker) : Prop where
  walk : Walker.outside.walk (events.flatMap Event.signs) = some v
  sound : Sound (some v) t
  pledges : ∀ e ∈ events, ∀ entry, e.handsOut entry → ∀ p ∈ entry.pledge?, p.Kept t.session v
  suits : ∀ entry, t.control = .work (.entry entry) → entry.Suits t.session v
  stores : ∀ e ∈ events, e.after.session.store = e.store

/-- What a host begins that has the handle for it suits the walk. -/
theorem suits_of_handed {known : List Event} {e : Entry}
    (pledges : ∀ event ∈ known, event.handsOut e → ∀ p ∈ e.pledge?, p.Kept u.session v)
    (smooth : Event.isSmooth ⟨t, .begin e, u⟩) (handed : Event.isHanded known ⟨t, .begin e, u⟩) :
    e.Suits u.session v := by
  obtain ⟨event, hm, hands⟩ := List.any_eq_true.1 handed
  refine Entry.suits_of_kept (pledges event hm hands) ?_
  rintro rfl
  cases (Bool.and_eq_true_iff.1 smooth).2

variable {events : List Event}

/-- **One deed more**, one step of the walk. -/
theorem Walks.step (h : Walks events t v) (allowed : gentle t d) (careful : d.isCareful t)
    (does : t.Does d u) (smooth : Event.isSmooth ⟨t, d, u⟩)
    (handed : Event.isHanded (events ++ [⟨t, d, u⟩]) ⟨t, d, u⟩) :
    ∃ v', Walks (events ++ [⟨t, d, u⟩]) u v' := by
  have clean : u.isFaulty = false := by simpa using (Bool.and_eq_true_iff.1 smooth).1
  have fair : ∀ w ∈ some v, Event.Fair ⟨t, d, u⟩ w := by
    rintro w ⟨⟩
    exact ⟨clean, fun entry _ hc => h.suits entry hc⟩
  obtain ⟨Y, sound, goesOn⟩ := h.sound.step allowed (fun _ _ => nofun) careful does fair
  obtain ⟨v', hY, walk⟩ := goesOn v rfl
  obtain rfl := Option.mem_def.1 hY
  have pledges : ∀ event ∈ events ++ [⟨t, d, u⟩], ∀ entry, event.handsOut entry →
      ∀ p ∈ entry.pledge?, p.Kept u.session v' := by
    intro event hm entry hands p hp
    rcases List.mem_append.1 hm with hm | hm
    · exact h.sound.kept does (h.pledges event hm entry hands p hp) walk
    · obtain rfl := List.mem_singleton.1 hm
      exact h.sound.kept_handed does walk hands p hp
  refine ⟨v', ?_, sound, pledges, ?_, ?_⟩
  · simp only [List.flatMap_append, Walker.walk_append, h.walk, Option.bind_some,
      List.flatMap_singleton, walk]
  · intro entry hc
    obtain rfl := does.begins hc
    exact suits_of_handed (fun event hm => pledges event hm entry) smooth handed
  · intro event hm
    rcases List.mem_append.1 hm with hm | hm
    · exact h.stores event hm
    · obtain rfl := List.mem_singleton.1 hm
      exact does.store h.sound.not_dispatch

/-- What a session shows of its walk: where it has ended, and, when nothing is under way, at
which node it stands. -/
structure Shows (t : Turn) (v : Walker) : Prop where
  ends : ∀ run, t.session.currentRun? = some run → run.isActive = false →
    v.next? = none ∧ v.end? = some run.phase
  ended : t.IsBack [] → ∀ phase, v.end? = some phase →
    ∃ run, t.session.currentRun? = some run ∧ run.phase = phase
  waits : t.IsBack [] → ∀ run, t.session.currentRun? = some run → run.isActive →
    ∃ spot, v = .standing spot none none ∧ t.session.graph = some spot.graph ∧
      run.node = some spot.node.id

theorem Walks.shows (h : Walks events t v) : t.Shows v where
  ends run hr past := by
    have ended : v.end? = some run.phase := h.sound.endsWith run hr past v rfl
    exact ⟨Walker.next?_of_end? h.walk ended, ended⟩
  ended back phase ended := by
    cases h.sound.quiet back.1 back.2 with
    | unbegun _ _ _ _ walk =>
      rw [walk v rfl] at ended
      cases ended
    | begun r rests =>
      cases rests with
      | held has held walk =>
        rw [walk v rfl] at ended
        cases ended
      | @ended run has past walk =>
        rw [walk v rfl] at ended
        exact ⟨run, has.currentRun?, Option.some.inj ended⟩
  waits back run hr active := by
    cases h.sound.quiet back.1 back.2 with
    | unbegun _ current => simp [Session.currentRun?, current] at hr
    | begun r rests =>
      cases rests with
      | @held _ g n _ has held walk =>
        rw [has.currentRun?] at hr
        obtain rfl := Option.some.inj hr
        exact ⟨⟨g, n⟩, walk v rfl, has.graph_eq, held.node⟩
      | ended has past =>
        rw [has.currentRun?] at hr
        obtain rfl := Option.some.inj hr
        rw [past.not_isActive] at active
        cases active

end Turn

section

variable {files : FileTree} {library : Path} {flags : FlagStore} {events : List Event} {t : Turn}

end

/-! ### A picture and a line -/

/-- A picture that is shown for a while. -/
def picture : Node := ⟨"picture", .image { path := "map.png", duration := .int 3 }⟩

/-- A picture, and a line of speech after it. -/
def gallery : Graph :=
  { script := {
      id := "gallery"
      nodes := [picture, hello]
      connections := [{ source := "picture", output := 0, target := "hello" }] }
    entry := picture }

/-- The picture is shown, and its timer is started. -/
def pictureShown : List Deed :=
  [.begin (.startGraph gallery none), .move, .move, .move, .move, .move,
    .reply (.engage (.image ⟨"picture", "map.png", .int 3⟩)) (), .move,
    .reply (.startTimer (.int 3) ⟨0, 0⟩) true, .move, .move]

/-- What was begun goes on to the line, and the line is shown. -/
def lineShown : List Deed :=
  [.move, .move, .move, .move, .move, .move, .move, .move,
    .reply (.engage (.dialogue (Dialogue.card { text := "Hello" } "hello"))) (), .move, .move]

/-- The timer rings, and later the player goes on from the line. -/
def timerRung : List Deed :=
  pictureShown ++ .begin (.timeUp ⟨0, 0⟩) :: lineShown ++
    [.begin (.advance .null), .move, .move, .move, .move, .move, .move, .move, .move]

end Questline

import Questline.Proofs.Dormancy

/-!
# Answers are written down before a link is taken

At a link the answers of the run are handed over first.  If the host has them written down, the link
is not taken before that is done: its target is not read, no template table is asked for, no graph
is entered and no node visited.  If the write fails, the run is stopped.

All this rests on the host bringing back only what it was given.  The handles of battles and timers
are for other waits than the one for the write, and the end of a write is delivered only as it was
handed back.

* `Event.Proceeds`: a run goes on through a link.
* `Turn.NodeBound`: the handles of battles and timers are for no write.
* `Event.isPosted`: the end of a write is delivered as it was handed back.
* `Turn.Stage`: how far a link has come whose write was filed; `History.stage` leads on.
* `write_precedes_link`: until its write is done, nothing is done for a link.
-/

namespace Questline

open Json (Value)

/-! ## Going on through a link -/

/-- With the event the target of a link of the run `r` is read. -/
inductive Event.Reads (r : RunId) (e : Event) : Prop
  /-- Nobody is left who would have the answers. -/
  | unasked {node : Node} {link : Link} {stack : List Frame}
      (top : e.before.stack = .driving r :: stack)
      (step : e.before.control = .done (.stepped ⟨node, .link link⟩))
      (owns : e.before.session.owns r)
      (completion : (e.before.session.run r).completion = none)
  /-- There is nothing to wait for. -/
  | plain {node : String} {link : Link} {callback : Callback} {ledger : Ledger}
      (deed : e.deed = .reply (.handOver r node link callback ledger) .plain)
  /-- The write is done already. -/
  | done {node : String} {link : Link} {callback : Callback} {ledger : Ledger}
      (deed : e.deed = .reply (.handOver r node link callback ledger) (.finished .written))
  /-- The end of the write is delivered. -/
  | late {delivery : Delivery} (entry : e.before.control = .work (.entry (.written delivery)))
      (own : delivery.handle.run = r)
      (waits : (e.before.session.run r).isWaitingOn delivery.handle.wait)
      (written : delivery.outcome = .written)

/-- With the event the run `r` goes on through a link: the target is read, a template table is asked
for, the graph is entered, or a node is visited. -/
inductive Event.Proceeds (r : RunId) (e : Event) : Prop
  | reads (h : e.Reads r)
  | fills {graph : Graph} (h : e.after.control = .ask (.fillIn r graph))
  | enters {graph : Graph} (h : e.enters? r = some graph)
  | visits {node : Node} {graph : Graph} (h : e.before.control = .work (.visit r node graph))

namespace Turn

variable {t u : Turn} {d : Deed} {r : RunId}

/-- **Nothing is done for a link of a dormant run**, unless the end of its write is delivered. -/
theorem Dormant.not_proceeds (ht : t.Dormant r) (hu : u.Dormant r) (busy : t.Busy) (after : u.Busy)
    (does : t.Does d u) (open_ : ∀ delivery, t.control = .work (.entry (.written delivery)) →
      delivery.handle.run = r → (t.session.run r).isWaitingOn delivery.handle.wait →
        delivery.outcome ≠ .written) : ¬Event.Proceeds r ⟨t, d, u⟩ := by
  have way (h : t.control.rider.run? = some r) : False := ht.not_rider busy.rides h
  have handing {node link callback ledger receipt}
      (hd : d = .reply (.handOver r node link callback ledger) receipt) : False := by
    subst hd
    cases does with
    | reply => exact way rfl
  intro proceeds
  cases proceeds with
  | reads reads =>
    cases reads with
    | unasked top step =>
      have top : t.stack = _ := top
      have step : t.control = _ := step
      have riders := ht.riders
      rw [top, step] at riders
      simp [Questline.riders, Frame.seats, Control.rider] at riders
    | plain hd => exact handing hd
    | done hd => exact handing hd
    | late entry own waits written => exact open_ _ entry own waits written
  | fills asks =>
    have asks : u.control = _ := asks
    exact hu.not_rider after.rides (by rw [asks]; rfl)
  | @enters graph enters =>
    have last := Event.enters?_eq_some.1 enters
    unfold Event.entered? at last
    split at last
    case h_1 q g new =>
      cases last
      have entered : (r, Job.enter graph) ∈ u.session.pending :=
        List.mem_of_mem_drop (i := t.session.pending.length) (by
          rw [show u.session.pending.drop _ = _ from new]
          exact List.mem_singleton_self _)
      exact hu.jobs _ entered
    case h_2 => cases last
  | visits visits =>
    have visits : t.control = _ := visits
    exact way (by rw [visits]; rfl)

/-- Nothing is under way for the run `r`, and it waits for nothing. -/
structure Spent (r : RunId) (t : Turn) : Prop where
  dormant : t.Dormant r
  waiting : (t.session.outline.run r).waiting = none

theorem Retired.spent (h : t.Retired r) : t.Spent r := ⟨h.dormant, h.waiting⟩

theorem Broken.spent (h : t.Broken r) : t.Spent r := ⟨h.dormant, not_waiting_of_free h.free⟩

theorem Doomed.spent (h : t.Doomed r) : t.Spent r := ⟨h.dormant, not_waiting_of_free h.free⟩

/-- A run that waits for nothing goes on through no link. -/
theorem Does.spent (h : t.Does d u) (calm : calmCancel t d) (busy : t.Busy) (ht : t.Spent r) :
    u.Spent r ∧ ¬Event.Proceeds r ⟨t, d, u⟩ := by
  obtain ⟨dormant, same⟩ := h.dozes calm busy ht.dormant fun e _ v hv => by
    rw [ht.waiting] at hv
    cases hv
  refine ⟨⟨dormant, ?_⟩,
    ht.dormant.not_proceeds dormant busy (h.busy calm busy).1 h fun p _ _ waits => ?_⟩
  · rcases same with same | stopped
    · exact same.2.trans ht.waiting
    · exact Retired.waiting ⟨dormant, stopped⟩
  · rw [Run.isWaitingOn_eq, show (t.session.run r).outline.waiting = none from ht.waiting] at waits
    cases waits

end Turn

/-! ## Handles for nodes -/

/-- A wait of the run `r` that is over, or for a node. -/
def Session.IsForNode (s : Session) (r : RunId) (w : WaitId) : Prop :=
  w < s.nextWait ∧ ∀ v ∈ (s.outline.run r).waiting, v.id = w → v.kind ≠ .link

/-- The run and the wait for which a battle or a timer is started. -/
def Ask.nodeWait? : Ask → Option (RunId × WaitId)
  | .battle _ b => some (b.run, b.wait)
  | .startTimer _ timer => some (timer.run, timer.wait)
  | _ => none

/-- The run and the wait whose battle or timer is over. -/
def Entry.nodeWait? : Entry → Option (RunId × WaitId)
  | .battleOver b _ => some (b.run, b.wait)
  | .timeUp timer => some (timer.run, timer.wait)
  | _ => none

/-- The run and the wait for which a battle or a timer is started next, or is over. -/
def Control.nodeWait? : Control → Option (RunId × WaitId)
  | .ask a => a.nodeWait?
  | .work (.entry e) => e.nodeWait?
  | _ => none

/-- The run and the wait for which a battle or a timer is started later. -/
def Frame.nodeWait? : Frame → Option (RunId × WaitId)
  | .asked a => a.nodeWait?
  | .timing r w _ => some (r, w)
  | _ => none

/-- What is over, or for a node, stays so. -/
theorem Session.IsForNode.does {t u : Turn} {d : Deed} {r : RunId} {w : WaitId}
    (hw : t.session.IsForNode r w) (h : t.Does d u) (ends : t.EndsWell) :
    u.session.IsForNode r w :=
  ⟨Nat.lt_of_lt_of_le hw.1 h.ages.waits_le, h.kind_of_wait (P := (· ≠ .link)) ends hw.1 hw.2⟩

namespace Turn

/-- Whatever runs wait for was begun. -/
def Begun (t : Turn) : Prop :=
  ∀ r, ∀ v ∈ (t.session.outline.run r).waiting, v.id < t.session.nextWait

/-- The handles of battles and timers are for waits for nodes. -/
structure NodeBound (t : Turn) : Prop where
  control : ∀ x ∈ t.control.nodeWait?, t.session.IsForNode x.1 x.2
  stack : ∀ f ∈ t.stack, ∀ x ∈ f.nodeWait?, t.session.IsForNode x.1 x.2

section

variable {t u : Turn} {d : Deed} {q : RunId}

/-- The new wait of a run is for a node, unless it is for a write. -/
theorem Makes.isForNode {popped : List Frame} {kind : WaitKind} {node : String} {m : Move}
    (hm : t.Makes popped q (.suspended kind node) m) (other : kind ≠ .link) (begun : t.Begun) :
    m.session.IsForNode q t.session.nextWait := by
  have later : m.session.nextWait = t.session.nextWait + 1 :=
    congrArg Outline.nextWait hm.serves.outline
  have waiting : (m.session.outline.run q).waiting = _ :=
    congrArg (fun o : Outline => (o.run q).waiting) hm.serves.outline
  refine ⟨Nat.lt_of_lt_of_eq (Nat.lt_succ_self _) later.symm, fun v hv id => ?_⟩
  rw [waiting] at hv
  rcases Alteration.waiting_apply (.suspended kind node) q q t.session.outline with
    same | none | ⟨-, kind', node', hα, new⟩
  · exact absurd (begun q v (same ▸ hv)) (by rw [id]; exact Nat.lt_irrefl _)
  · rw [none] at hv
    cases hv
  · cases hα
    rw [new] at hv
    cases hv
    exact other

theorem NodeBound.asked (ht : t.NodeBound) {a : Ask}
    (ha : t.control = .ask a ∨ .asked a ∈ t.stack) :
    ∀ x ∈ a.nodeWait?, t.session.IsForNode x.1 x.2 := by
  rcases ha with ha | ha
  · exact fun x hx => ht.control x (by rw [ha]; exact hx)
  · exact ht.stack _ ha

theorem Does.control_nodeBound (h : t.Does d u) (ends : t.EndsWell) (mild : t.Mild)
    (ht : t.NodeBound) (begun : t.Begun)
    (handed : ∀ e, d = .begin e → ∀ x ∈ e.nodeWait?, t.session.IsForNode x.1 x.2) :
    ∀ x ∈ u.control.nodeWait?, u.session.IsForNode x.1 x.2 := by
  intro x hx
  cases hu : u.control with
  | work task =>
    rw [hu] at hx
    cases task with
    | entry e => exact (handed e (h.begins hu) x hx).does h ends
    | _ => cases hx
  | ask a =>
    rw [hu] at hx
    cases a with
    | battle opponent b =>
      rcases h.begins_battle ends hu with known | ⟨q, rest, step, m, node, -, -, rfl, -, same, hm⟩
      · exact (ht.asked known x hx).does h ends
      · cases hx
        rw [same]
        exact hm.isForNode nofun begun
    | startTimer seconds timer =>
      cases hx
      rcases (h.heeds mild).timer timer.run timer.wait seconds (by rw [hu]; rfl) with hs | hc | hs
      · exact (ht.stack _ hs _ rfl).does h ends
      · unfold Control.timer? at hc
        split at hc
        case h_1 hc' =>
          cases hc
          exact (ht.asked (.inl hc') _ rfl).does h ends
        case h_2 => cases hc
      · exact (ht.asked (.inr hs) _ rfl).does h ends
    | _ => cases hx
  | done | failed => rw [hu] at hx; cases hx

/-- **Handles are for waits for nodes**, as long as the host brings back no others. -/
theorem Does.nodeBound (h : t.Does d u) (ends : t.EndsWell) (mild : t.Mild) (ht : t.NodeBound)
    (begun : t.Begun)
    (handed : ∀ e, d = .begin e → ∀ x ∈ e.nodeWait?, t.session.IsForNode x.1 x.2) : u.NodeBound := by
  refine ⟨h.control_nodeBound ends mild ht begun handed, fun f hf x hx => ?_⟩
  have before (hf : f ∈ t.stack) : u.session.IsForNode x.1 x.2 := (ht.stack f hf x hx).does h ends
  rcases h.serves ends with hy | ⟨popped, rest, q, α, m, hs, -, rfl, hm, -⟩
  · obtain ⟨s, stack, c⟩ := t
    obtain ⟨s', stack', c'⟩ := u
    have shifts : Shifts stack c stack' c' := hy.shifts
    cases shifts with
    | change | fail => exact before hf
    | beginAtRest => cases hf
    | beginInside =>
      rcases List.mem_cons.1 hf with rfl | hf
      · exact (ht.asked (.inl rfl) x hx).does h ends
      · exact before hf
    | leave => exact before (List.mem_cons_of_mem _ hf)
  · rcases List.mem_append.1 hf with hf | hf
    · cases f with
      | asked a => exact absurd hf (hm.serves.calls a)
      | timing p w seconds =>
        obtain ⟨rfl, rfl, node, rfl⟩ := hm.serves.timing p w seconds hf
        cases hx
        exact hm.isForNode nofun begun
      | _ => cases hx
    · exact before (hs ▸ List.mem_append_right _ hf)

end

end Turn

/-! ## What the host brings back -/

/-- Whether the end of a write, if it is delivered with the event, was handed back before; `known`
are the events so far. -/
def Event.isPosted (known : List Event) (e : Event) : Bool :=
  match e.deed with
  | .begin (.written delivery) => known.any (·.before.control = .ask (.deliver delivery))
  | _ => true

/-- Every end of a write that is delivered was handed back before. -/
def AllPosted (events : List Event) : Prop :=
  AtEach (fun earlier e => e.isPosted (earlier ++ [e])) events

instance (events : List Event) : Decidable (AllPosted events) :=
  inferInstanceAs (Decidable (AtEach _ events))

/-- What a host keeps to that brings back only what it was given: the handles of battles and timers
are for waits for nodes, and what is delivered is the end of a write. -/
structure Faithful (events : List Event) (t : Turn) : Prop where
  filing : Filing events t
  mild : t.Mild
  bound : t.NodeBound
  handles : ∀ e ∈ events, ∀ entry, e.handsOut entry → ∀ x ∈ entry.nodeWait?,
    t.session.IsForNode x.1 x.2
  posted : ∀ e ∈ events, ∀ p, e.before.control = .ask (.deliver p) →
    ∃ ticket, Filed events ticket p.handle (some p.outcome)
  delivers : ∀ p, t.control = .work (.entry (.written p)) →
    ∃ ticket, Filed events ticket p.handle (some p.outcome)

section

variable {files : FileTree} {library : Path} {flags : FlagStore} {events : List Event} {t u : Turn}
  {d : Deed}

/-- A handle that the host comes to know with an event is for a wait for a node. -/
theorem Turn.NodeBound.hands (h : t.NodeBound) {entry : Entry}
    (hands : Event.handsOut ⟨t, d, u⟩ entry) :
    ∀ x ∈ entry.nodeWait?, t.session.IsForNode x.1 x.2 := by
  have bound := h.control
  cases entry with
  | battleOver b outcome =>
    simp only [Event.handsOut] at hands
    split at hands
    case h_1 hc =>
      obtain rfl := of_decide_eq_true hands
      rw [hc] at bound
      exact bound
    case h_2 => cases hands
  | timeUp timer =>
    simp only [Event.handsOut] at hands
    split at hands
    case h_1 hc =>
      obtain rfl := of_decide_eq_true hands
      rw [hc] at bound
      exact bound
    case h_2 => cases hands
  | _ => exact fun _ hx => by cases hx

theorem Faithful.concat (h : Faithful events t) (does : t.Does d u) (calm : calmCancel t d)
    (begun : t.Begun) (handed : Event.isHanded (events ++ [⟨t, d, u⟩]) ⟨t, d, u⟩)
    (posts : Event.isPosted (events ++ [⟨t, d, u⟩]) ⟨t, d, u⟩) :
    Faithful (events ++ [⟨t, d, u⟩]) u := by
  have ends := h.filing.busy.orderly.ends
  have handles : ∀ e ∈ events ++ [⟨t, d, u⟩], ∀ entry, e.handsOut entry → ∀ x ∈ entry.nodeWait?,
      t.session.IsForNode x.1 x.2 := by
    intro e he entry hands
    rcases List.mem_append.1 he with he | he
    · exact h.handles e he entry hands
    · obtain rfl := List.mem_singleton.1 he
      exact h.bound.hands hands
  have posted : ∀ e ∈ events ++ [⟨t, d, u⟩], ∀ p, e.before.control = .ask (.deliver p) →
      ∃ ticket, Filed (events ++ [⟨t, d, u⟩]) ticket p.handle (some p.outcome) := by
    intro e he p hc
    obtain ⟨ticket, filed⟩ : ∃ ticket, Filed events ticket p.handle (some p.outcome) := by
      rcases List.mem_append.1 he with he | he
      · exact h.posted e he p hc
      · obtain rfl := List.mem_singleton.1 he
        have hc : t.control = _ := hc
        exact h.filing.posts p (List.mem_append_left _ (by rw [hc]; exact List.mem_cons_self))
    exact ⟨ticket, filed.append _⟩
  refine ⟨h.filing.concat does calm, (does.heeds h.mild).mild,
    does.nodeBound ends h.mild h.bound begun ?_, fun e he entry hands x hx => ?_, posted,
    fun p hc => ?_⟩
  · rintro entry rfl
    obtain ⟨e, he, hands⟩ := List.any_eq_true.1 handed
    exact handles e he entry hands
  · exact (handles e he entry hands x hx).does does ends
  · obtain rfl := does.begins hc
    obtain ⟨e, he, hp⟩ := List.any_eq_true.1 posts
    exact posted e he p (of_decide_eq_true hp)

/-- **A host that brings back only what it was given** keeps to it. -/
theorem History.faithful
    (h : History calmCancel (Session.fresh files library flags).atRest events t)
    (handed : handedOut [] events) (posted : AllPosted events) : Faithful events t := by
  induction h with
  | nil =>
    refine ⟨.fresh files library flags, ⟨trivial, by simp [Session.atRest]⟩,
      ⟨fun x hx => (by cases hx), by simp [Session.atRest]⟩, ?_, ?_, fun _ hc => by cases hc⟩
    · simp
    · simp
  | snoc h calm does ih =>
    rw [handedOut_append, Bool.and_eq_true_iff, List.nil_append] at handed
    obtain ⟨posted, posts⟩ := atEach_concat.1 posted
    refine (ih handed.1 posted).concat does calm (fun r v hv => h.wait_lt (r := r) ?_)
      (Bool.and_eq_true_iff.1 handed.2).1 posts
    have hv : v ∈ (Session.run _ r).outline.waiting := hv
    rw [Run.isWaitingOn_eq, Option.any_eq_true]
    exact ⟨v, hv, by simp⟩

end

/-! ## A link whose write was filed -/

namespace Turn

/-- How far a link of the run `r` has come whose write was filed with the wait `w`, after the
events: the run waits for the write; or it is stopped, or about to be; or the write is done. -/
inductive Stage (ticket : Ticket) (r : RunId) (w : WaitId) (events : List Event) (t : Turn) : Prop
  | awaits (h : t.Awaits r w)
  | broken (h : t.Broken r)
  | doomed (h : t.Doomed r)
  | retired (h : t.Retired r)
  | written (h : settled? events ticket = some .written)

variable {t u : Turn} {d : Deed} {ticket : Ticket} {r : RunId} {w : WaitId} {events : List Event}

/-- What comes for the wait `w` of the run `r` is the end to which the write came first, unless it
comes for a node. -/
structure Owns (ticket : Ticket) (r : RunId) (w : WaitId) (events : List Event) (t : Turn) :
    Prop where
  nodes : ∀ e, t.control = .work (.entry e) → e.nodeWait? = some (r, w) → t.session.IsForNode r w
  delivers : ∀ p, t.control = .work (.entry (.written p)) → p.handle.run = r → p.handle.wait = w →
    settled? events ticket = some p.outcome

/-- What the deed `d` does for the link obeys its write: the link is taken only if the write is done,
and the run is stopped when it is told that it has failed. -/
structure Obeys (ticket : Ticket) (r : RunId) (w : WaitId) (events : List Event) (t : Turn) (d : Deed)
    (u : Turn) : Prop where
  stage : u.Stage ticket r w (events ++ [⟨t, d, u⟩])
  proceeds : Event.Proceeds r ⟨t, d, u⟩ → settled? events ticket = some .written
  fails : ∀ p, t.control = .work (.entry (.written p)) → p.handle.run = r → p.handle.wait = w →
    p.outcome ≠ .written → u.Broken r ∨ u.Retired r

theorem Obeys.of_spent (ht : t.Spent r) (stage : u.Stage ticket r w (events ++ [⟨t, d, u⟩]))
    (does : t.Does d u) (calm : calmCancel t d) (busy : t.Busy)
    (fails : ∀ p, t.control = .work (.entry (.written p)) → u.Broken r ∨ u.Retired r) :
    t.Obeys ticket r w events d u where
  stage := stage
  proceeds h := absurd h (does.spent calm busy ht).2
  fails p hc _ _ _ := fails p hc

/-- A run that waits for a write waits on, or is stopped, unless the end of the write is
delivered. -/
theorem Awaits.obeys_of_missed (ht : t.Awaits r w) (does : t.Does d u) (calm : calmCancel t d)
    (busy : t.Busy) (missed : ∀ e, t.control = .work (.entry e) → e.answers? ≠ some (r, w)) :
    t.Obeys ticket r w events d u := by
  have open_ : ∀ p, t.control = .work (.entry (.written p)) → p.handle.run = r →
      (t.session.run r).isWaitingOn p.handle.wait → p.outcome ≠ .written := by
    rintro p hc rfl waits
    obtain ⟨node, waiting⟩ := ht.waits
    rw [Run.isWaitingOn_eq, show (t.session.run _).outline.waiting = _ from waiting] at waits
    have same : w = p.handle.wait := by simpa using waits
    exact absurd (by rw [same]; rfl) (missed _ hc)
  have never (hu : u.Dormant r) : ¬Event.Proceeds r ⟨t, d, u⟩ :=
    ht.dormant.not_proceeds hu busy (does.busy calm busy).1 does open_
  have told : ∀ p, t.control = .work (.entry (.written p)) → p.handle.run = r →
      p.handle.wait ≠ w := by
    rintro p hc rfl rfl
    exact missed _ hc rfl
  rcases does.awaits calm busy ht missed with hu | hu
  · exact ⟨.awaits hu, fun h => absurd h (never hu.dormant), fun p hc own wait _ =>
      absurd wait (told p hc own)⟩
  · exact ⟨.retired hu, fun h => absurd h (never hu.dormant), fun p hc own wait _ =>
      absurd wait (told p hc own)⟩

/-- When the end of the write is delivered, the link is taken or fails. -/
theorem Awaits.obeys_of_delivered {p : Delivery} (ht : t.Awaits p.handle.run p.handle.wait)
    (hc : t.control = .work (.entry (.written p))) (does : t.Does d u) (calm : calmCancel t d)
    (busy : t.Busy) (settled : settled? events ticket = some p.outcome) :
    t.Obeys ticket p.handle.run p.handle.wait events d u := by
  have same {p' : Delivery} (hc' : t.control = .work (.entry (.written p'))) : p' = p := by
    rw [hc] at hc'
    cases hc'
    rfl
  by_cases done : p.outcome = .written
  · rw [done] at settled
    refine ⟨.written (by rw [settled?_concat, settled, Option.some_or]), fun _ => settled,
      fun p' hc' _ _ failed => ?_⟩
    rw [same hc'] at failed
    exact absurd done failed
  · have hu : u.Broken p.handle.run := by
      obtain ⟨s, stack, c⟩ := t
      obtain rfl : c = .work (.entry (.written p)) := hc
      cases does with
      | work => exact ht.broken done
      | beginAtRest past => cases past
      | leave past => cases past
      | change past => cases past
    refine ⟨.broken hu, fun h => ?_, fun _ _ _ _ _ => .inl hu⟩
    refine absurd h (ht.dormant.not_proceeds hu.dormant busy (does.busy calm busy).1 does ?_)
    intro p' hc' _ _
    rw [same hc']
    exact done

/-- **What is done for a link obeys its write.** -/
theorem Does.obeys (does : t.Does d u) (calm : calmCancel t d) (busy : t.Busy)
    (ht : t.Stage ticket r w events) (owns : t.Owns ticket r w events) :
    t.Obeys ticket r w events d u := by
  cases ht with
  | written done =>
    refine ⟨.written (by rw [settled?_concat, done, Option.some_or]), fun _ => done,
      fun p hc own wait failed => ?_⟩
    rw [owns.delivers p hc own wait] at done
    exact absurd (Option.some.inj done) failed
  | retired ht =>
    have hu := does.retired calm busy ht
    exact .of_spent ht.spent (.retired hu) does calm busy fun _ _ => .inr hu
  | doomed ht =>
    have hu := does.doomed calm busy ht
    exact .of_spent ht.spent (.retired hu) does calm busy fun _ _ => .inr hu
  | broken ht =>
    have hu := does.broken calm busy ht
    refine .of_spent ht.spent (.doomed hu) does calm busy fun p hc => ?_
    obtain ⟨frame, stack, f, -, hf, -⟩ := ht.fault
    rw [hc] at hf
    cases hf
  | awaits ht =>
    by_cases told : ∃ p, t.control = .work (.entry (.written p)) ∧ p.handle.run = r ∧
      p.handle.wait = w
    · obtain ⟨p, hc, rfl, rfl⟩ := told
      exact ht.obeys_of_delivered hc does calm busy (owns.delivers p hc rfl rfl)
    · refine ht.obeys_of_missed does calm busy fun e hc answers => ?_
      cases e with
      | written p =>
        cases answers
        exact told ⟨p, hc, rfl, rfl⟩
      | battleOver | timeUp =>
        obtain ⟨node, waits⟩ := ht.waits
        exact (owns.nodes _ hc answers).2 _ waits rfl rfl
      | _ => cases answers

end Turn

/-! ## Histories -/

section

variable {files : FileTree} {library : Path} {flags : FlagStore} {earlier later events : List Event}
  {e : Event} {t u : Turn} {ticket : Ticket} {handle : WriteHandle} {r : RunId}

theorem Event.files.ticket_eq {ticket' : Ticket} {handle' : WriteHandle} (h : e.files ticket handle)
    (h' : e.files ticket' handle') : ticket = ticket' := by
  obtain ⟨r, w, link⟩ := handle
  obtain ⟨r', w', link'⟩ := handle'
  obtain ⟨⟨node, callback, ledger, hd⟩, -⟩ := h
  obtain ⟨⟨node', callback', ledger', hd'⟩, -⟩ := h'
  rw [hd] at hd'
  cases hd'
  rfl

/-- Only the end of a write that was filed is delivered for it. -/
theorem Faithful.owns (h : Faithful (earlier ++ e :: later) t) {may : Turn → Deed → Prop}
    {start : Turn} (history : History may start (earlier ++ e :: later) t) (files : e.files ticket handle) :
    t.Owns ticket handle.run handle.wait later where
  nodes entry hc hx := h.bound.control _ (by rw [hc]; exact hx)
  delivers p hc own wait := by
    obtain ⟨ticket', earlier', e', later', hs, files', settled⟩ := h.delivers p hc
    obtain ⟨-, rfl, rfl⟩ := history.files_unique rfl hs files files' wait.symm
    rwa [files.ticket_eq files']

theorem AllPosted.of_append (h : AllPosted (events ++ later)) : AllPosted events := AtEach.of_append h

theorem handedOut_of_append (h : handedOut [] (events ++ later)) : handedOut [] events := by
  rw [handedOut_append, Bool.and_eq_true_iff] at h
  exact h.1

/-- A run waits for a write that is filed. -/
theorem Event.files.awaits (h : e.files ticket handle) (does : e.before.Does e.deed e.after)
    (busy : e.before.Busy) (after : e.after.Busy) : e.after.Awaits handle.run handle.wait := by
  obtain ⟨t, d, u⟩ := e
  obtain ⟨⟨node, callback, ledger, hd⟩, hw⟩ := h
  obtain rfl : d = _ := hd
  rw [hw]
  cases does with
  | reply => exact busy.awaits after

/-- **A link whose write was filed** waits for it, and obeys it. -/
theorem History.stage
    (h : History calmCancel (Session.fresh files library flags).atRest (earlier ++ e :: later) t)
    (handed : handedOut [] (earlier ++ e :: later)) (posted : AllPosted (earlier ++ e :: later))
    (filed : e.files ticket handle) : t.Stage ticket handle.run handle.wait later := by
  generalize hs : earlier ++ e :: later = all at h handed posted
  induction h generalizing later with
  | nil => simp at hs
  | snoc before calm does ih =>
    rcases List.eq_nil_or_concat later with rfl | ⟨later, x, rfl⟩
    · obtain ⟨rfl, last⟩ := List.append_inj' hs rfl
      obtain rfl := List.singleton_inj.1 last
      exact .awaits (filed.awaits does before.filing.busy (does.busy calm before.filing.busy).1)
    · rw [List.concat_eq_append, ← List.cons_append, ← List.append_assoc] at hs
      obtain ⟨rfl, last⟩ := List.append_inj' hs rfl
      obtain rfl := List.singleton_inj.1 last
      have handed := handedOut_of_append handed
      have posted := posted.of_append
      have owns := (before.faithful handed posted).owns before filed
      rw [List.concat_eq_append]
      exact (does.obeys calm before.filing.busy (ih rfl handed posted) owns).stage

theorem History.obeys {between after : List Event} {x : Event}
    (h : History calmCancel (Session.fresh files library flags).atRest
      (earlier ++ e :: (between ++ x :: after)) t)
    (handed : handedOut [] (earlier ++ e :: (between ++ x :: after)))
    (posted : AllPosted (earlier ++ e :: (between ++ x :: after))) (filed : e.files ticket handle) :
    x.before.Obeys ticket handle.run handle.wait between x.deed x.after := by
  rw [← List.cons_append, ← List.append_assoc] at h handed posted
  obtain ⟨before, calm, does, -⟩ := h.of_append_cons
  have handed := handedOut_of_append handed
  have posted := posted.of_append
  exact does.obeys calm before.filing.busy (before.stage handed posted filed)
    ((before.faithful handed posted).owns before filed)

/-! ### Runs that are stopped -/

/-- After the first of the events the run `r` is stopped: as soon as it is no longer the session's
move, and after two more moves at the latest. -/
def IsStoppedBy (r : RunId) (events : List Event) : Prop :=
  ∀ x ∈ events, x.after.next? = none ∨ x ∈ events.drop 2 → (x.after.session.run r).phase = .stopped

theorem History.retired (h : History calmCancel t events u) (busy : t.Busy) (ht : t.Retired r) :
    ∀ x ∈ events, x.after.Retired r := by
  intro x hx
  obtain ⟨earlier, later, rfl⟩ := List.append_of_mem hx
  obtain ⟨before, calm, does, -⟩ := h.of_append_cons
  have kept : x.before.Busy ∧ x.before.Retired r :=
    before.induct (P := fun t => t.Busy ∧ t.Retired r) ⟨busy, ht⟩ fun kept calm does =>
      ⟨(does.busy calm kept.1).1, does.retired calm kept.1 kept.2⟩
  exact does.retired calm kept.1 kept.2

theorem History.head {x : Event} (h : History calmCancel t (x :: events) u) :
    x.before = t ∧ calmCancel x.before x.deed ∧ x.before.Does x.deed x.after ∧
      History calmCancel x.after events u := by
  obtain ⟨before, calm, does, after⟩ := (show History calmCancel t ([] ++ x :: events) u from h).of_append_cons
  exact ⟨before.nil_inv, calm, does, after⟩

/-- **A run whose link has failed is stopped**, whatever the host does. -/
theorem History.isStoppedBy {x : Event} (h : History calmCancel x.after events u)
    (busy : x.after.Busy) (ht : x.after.Broken r ∨ x.after.Retired r) :
    IsStoppedBy r (x :: events) := by
  have late {x : Event} (hx : x.after.next?.isSome) (now : x.after.next? = none) : False := by
    rw [now] at hx
    cases hx
  rcases ht with broken | retired
  · cases events with
    | nil =>
      intro y hy now
      obtain rfl := List.mem_singleton.1 hy
      exact now.elim (fun now => (late broken.next? now).elim) nofun
    | cons y events =>
      obtain ⟨first, calm, does, h⟩ := h.head
      rw [← first] at broken busy
      have doomed := does.broken calm busy broken
      have busy := (does.busy calm busy).1
      have stopped : ∀ z ∈ events, z.after.Retired r := by
        cases events with
        | nil => simp
        | cons z events =>
          obtain ⟨second, calm, does, h⟩ := h.head
          rw [← second] at doomed busy
          have retired := does.doomed calm busy doomed
          exact List.forall_mem_cons.2 ⟨retired, h.retired (does.busy calm busy).1 retired⟩
      intro z hz now
      rcases now with now | last
      · rcases List.mem_cons.1 hz with rfl | hz
        · exact (late (first ▸ broken.next?) now).elim
        rcases List.mem_cons.1 hz with rfl | hz
        · exact (late doomed.next? now).elim
        · exact (stopped z hz).stopped
      · exact (stopped z last).stopped
  · intro y hy _
    rcases List.mem_cons.1 hy with rfl | hy
    · exact retired.stopped
    · exact (h.retired busy retired y hy).stopped

theorem History.spent (h : History calmCancel t events u) (busy : t.Busy) (ht : t.Spent r) :
    ∀ x ∈ events, ¬x.Proceeds r := by
  intro x hx
  obtain ⟨earlier, later, rfl⟩ := List.append_of_mem hx
  obtain ⟨before, calm, does, -⟩ := h.of_append_cons
  have kept : x.before.Busy ∧ x.before.Spent r :=
    before.induct (P := fun t => t.Busy ∧ t.Spent r) ⟨busy, ht⟩ fun kept calm does =>
      ⟨(does.busy calm kept.1).1, (does.spent calm kept.1 kept.2).1⟩
  exact (does.spent calm kept.1 kept.2).2

end

/-! ### Answers that are handed over -/

/-- Nothing is begun from inside the calls with which the run `r` hands its answers over. -/
def IsHeardOut (r : RunId) (events : List Event) : Prop :=
  ∀ x ∈ events, ∀ node link callback ledger,
    x.before.control = .ask (.handOver r node link callback ledger) → ∀ entry, x.deed ≠ .begin entry

namespace Turn

variable {t u : Turn} {d : Deed} {r : RunId} {node : Node} {graph : Graph} {link : Link}
  {callback : Callback} {ledger : Ledger} {outcome : WriteOutcome}

/-- A run that comes to a node or to a link is the one that is driven, and goes on. -/
structure Unbroken (r : RunId) (t : Turn) : Prop where
  unasked : ∀ node link callback ledger, .asked (.handOver r node link callback ledger) ∉ t.stack
  driven : t.control.comesTo? = some r → t.stack.head? = some (.driving r) ∧ t.session.owns r

theorem Does.unbroken (h : t.Does d u) (busy : t.Busy) (tidy : t.session.Tidy) (ht : t.Unbroken r)
    (quiet : ∀ node link callback ledger, t.control = .ask (.handOver r node link callback ledger) →
      ∀ entry, d ≠ .begin entry) : u.Unbroken r := by
  refine ⟨fun node link callback ledger hf => ?_, fun comes => ?_⟩
  · rcases h.serves busy.orderly.ends with hy | ⟨popped, rest, q, α, m, hs, -, rfl, hm, -⟩
    · obtain ⟨s, stack, c⟩ := t
      obtain ⟨s', stack', c'⟩ := u
      have shifts : Shifts stack c stack' c' := hy.shifts
      have unasked := ht.unasked node link callback ledger
      cases shifts with
      | change | fail => exact unasked hf
      | beginAtRest => cases hf
      | beginInside entry =>
        rcases List.mem_cons.1 hf with same | hf
        · cases same
          exact quiet _ _ _ _ rfl entry (h.begins rfl)
        · exact unasked hf
      | leave => exact unasked (List.mem_cons_of_mem _ hf)
    · rcases List.mem_append.1 hf with hf | hf
      · exact hm.serves.calls _ hf
      · exact ht.unasked _ _ _ _ (hs ▸ List.mem_append_right _ hf)
  · rcases (h.registers busy tidy).visits r comes with driven | ⟨a, ha, before, runs, current⟩
    · exact driven
    · rw [ha] at comes
      rcases before with ⟨hc, hs⟩ | hf
      · obtain ⟨top, owns⟩ := ht.driven (by rw [hc]; exact comes)
        refine ⟨hs ▸ top, ?_⟩
        simpa only [Session.owns, Session.run, runs, current] using owns
      · cases a with
        | handOver q node link callback ledger =>
          cases comes
          exact absurd hf (ht.unasked _ _ _ _)
        | _ => cases comes

/-- A link that fails with its write at once is not taken. -/
theorem Does.fails_at_once (h : t.Does d u) (busy : t.Busy) {node : String}
    (hd : d = .reply (.handOver r node link callback ledger) (.finished outcome))
    (tidy : t.session.Tidy) (failed : outcome ≠ .written) :
    u.Spent r ∧ ¬Event.Proceeds r ⟨t, d, u⟩ := by
  subst hd
  cases h with
  | @reply s stack =>
    obtain ⟨reason, fails⟩ := afterWrite_of_failed s r link failed
    have free : (s.run r).wait = none := busy.free tidy (riders_pos busy.rides rfl)
    have after : Ask.resume s (.handOver r node link callback ledger) (.finished outcome) =
        .failure s (.link reason) := fails
    rw [after]
    refine ⟨⟨busy.dormant_of_fault rfl (busy.orderly.control r rfl) _, not_waiting_of_free free⟩,
      fun proceeds => ?_⟩
    cases proceeds with
    | reads reads =>
      cases reads with
      | unasked _ step => cases step
      | plain deed => cases deed
      | done deed =>
        cases deed
        exact failed rfl
      | late entry => cases entry
    | fills h => cases h
    | enters h =>
      have same : Event.entered? ⟨⟨s, stack, .ask (.handOver r node link callback ledger)⟩,
          .reply (.handOver r node link callback ledger) (.finished outcome),
          (Move.failure s (.link reason)).on stack⟩ = none := by
        simp [Event.entered?, Move.on, Move.failure]
      rw [Event.enters?, same] at h
      cases h
    | visits h => cases h

/-- A run that goes on and fails at a link with its write is about to be stopped. -/
theorem Does.breaks_at_once (h : t.Does d u) (busy : t.Busy) {node : String}
    (hd : d = .reply (.handOver r node link callback ledger) (.finished outcome))
    (tidy : t.session.Tidy) (failed : outcome ≠ .written) (ht : t.Unbroken r) : u.Broken r := by
  subst hd
  cases h with
  | @reply s stack =>
    obtain ⟨top, owns⟩ := ht.driven rfl
    obtain ⟨below, rfl⟩ : ∃ below, stack = .driving r :: below := List.head?_eq_some_iff.1 top
    have owns : (s.current == some r && (s.run r).isActive) = true := owns
    exact busy.broken tidy (Bool.and_eq_true_iff.1 owns).2 failed

/-- At a link the answers are handed over. -/
theorem Does.hands_over (h : t.Does d u) (hc : t.control = .work (.visit r node graph))
    (body : node.body = .link link) (top : t.stack.head? = some (.driving r))
    (owns : t.session.owns r) (completion : (t.session.run r).completion = some callback) :
    ∃ v, u.next? = some v ∧
      v.control = .ask (.handOver r node.id link callback (t.session.run r).ledger) := by
  obtain ⟨s, stack, c⟩ := t
  obtain rfl : c = .work (.visit r node graph) := hc
  obtain ⟨below, rfl⟩ : ∃ below, stack = .driving r :: below := List.head?_eq_some_iff.1 top
  cases h with
  | work =>
    let s' := s.setRun r fun run =>
      { run.count node.kind.word with node := some node.id, activity := .running }
    have visits : Task.begin s (.visit r node graph) = .stepped s' node (.link link) := by
      show s.visit r node graph = _
      simp only [Session.visit, body]
      rfl
    have kept : (s'.run r).completion = some callback ∧ (s'.run r).ledger = (s.run r).ledger := by
      rw [Session.run_setRun]
      split
      · exact ⟨completion, rfl⟩
      · exact ⟨completion, rfl⟩
    have owns' : s'.owns r = true :=
      (Session.owns_setRun (s := s) (by exact fun _ => rfl) r).trans owns
    have proceeds : s'.proceed r ⟨node, .link link⟩ =
        (s'.transfer r node.id link).under (.driving r) := if_pos owns'
    rw [visits]
    refine ⟨_, rfl, ?_⟩
    show (s'.proceed r ⟨node, .link link⟩).control = _
    rw [proceeds]
    simp only [Session.transfer, kept.1, kept.2]
    rfl
  | change past => cases past

end Turn

section

variable {files : FileTree} {library : Path} {flags : FlagStore} {events : List Event} {t : Turn}
  {r : RunId}

theorem History.unbroken
    (h : History calmCancel (Session.fresh files library flags).atRest events t)
    (quiet : IsHeardOut r events) : t.Unbroken r := by
  induction h with
  | nil => exact ⟨fun _ _ _ _ hf => (by cases hf), fun comes => by cases comes⟩
  | snoc h calm does ih =>
    have before := ih fun x hx => quiet x (List.mem_append_left _ hx)
    exact does.unbroken h.filing.busy h.filing.tidy before
      (quiet _ (List.mem_append_right _ (List.mem_singleton_self _)))

/-! ## The write comes first -/

/-- When a run comes to a link, its answers are handed over before anything else is done, unless
nobody is left who would have them. -/
def HandsOverFirst (events : List Event) : Prop :=
  ∀ e ∈ events, ∀ r node graph link callback, e.before.control = .work (.visit r node graph) →
    node.body = .link link → (e.before.session.run r).completion = some callback →
      ∃ u, e.after.next? = some u ∧
        u.control = .ask (.handOver r node.id link callback (e.before.session.run r).ledger)

/-- A run whose write is filed goes on only after the write is done. -/
def WaitsForWrites (events : List Event) : Prop :=
  ∀ earlier e between x later ticket handle,
    events = earlier ++ e :: (between ++ x :: later) → e.files ticket handle →
      x.Proceeds handle.run → settled? between ticket = some .written

/-- When it is delivered that a write has failed, its run is stopped. -/
def StopsWhenTold (events : List Event) : Prop :=
  ∀ earlier e between x later ticket handle outcome,
    events = earlier ++ e :: (between ++ x :: later) → e.files ticket handle →
      x.before.control = .work (.entry (.written ⟨handle, outcome⟩)) → outcome ≠ .written →
        IsStoppedBy handle.run (x :: later)

/-- When the host says at once that a write has failed, the run does not go on, and is stopped if
nothing was begun from inside the call. -/
def StopsAtOnce (events : List Event) : Prop :=
  ∀ earlier e later r node link callback ledger outcome, events = earlier ++ e :: later →
    e.deed = .reply (.handOver r node link callback ledger) (.finished outcome) →
      outcome ≠ .written → (∀ x ∈ e :: later, ¬x.Proceeds r) ∧
        (IsHeardOut r earlier → IsStoppedBy r (e :: later))

/-- **Answers are written down before a link is taken.**  At a link the answers are handed over
first; until the write that was filed for them is done, the target is not read, no template table is
asked for, no graph is entered and no node visited; and if the write fails, the run is stopped. -/
theorem write_precedes_link
    (h : History calmCancel (Session.fresh files library flags).atRest events t)
    (handed : handedOut [] events) (posted : AllPosted events) :
    HandsOverFirst events ∧ WaitsForWrites events ∧ StopsWhenTold events ∧ StopsAtOnce events := by
  refine ⟨?_, ?_, ?_, ?_⟩
  · intro e he r node graph link callback hc body completion
    obtain ⟨earlier, later, rfl⟩ := List.append_of_mem he
    obtain ⟨before, -, does, -⟩ := h.of_append_cons
    obtain ⟨top, owns⟩ := before.filing.visits r node graph hc
    exact does.hands_over hc body top owns completion
  · rintro earlier e between x later ticket handle rfl filed
    exact (h.obeys handed posted filed).proceeds
  · rintro earlier e between x later ticket handle outcome rfl filed hc failed
    have obeys := h.obeys handed posted filed
    rw [← List.cons_append, ← List.append_assoc] at h
    obtain ⟨before, calm, does, after⟩ := h.of_append_cons
    exact after.isStoppedBy (does.busy calm before.filing.busy).1 (obeys.fails _ hc rfl rfl failed)
  · rintro earlier e later r node link callback ledger outcome rfl hd failed
    obtain ⟨before, calm, does, after⟩ := h.of_append_cons
    have busy := (does.busy calm before.filing.busy).1
    obtain ⟨spent, never⟩ := does.fails_at_once before.filing.busy hd before.filing.tidy failed
    refine ⟨List.forall_mem_cons.2 ⟨never, after.spent busy spent⟩, fun quiet => ?_⟩
    exact after.isStoppedBy busy (.inl (does.breaks_at_once before.filing.busy hd before.filing.tidy
      failed (before.unbroken quiet)))

end

/-! ### A quest that is written down before it is entered -/

/-- The write of the answers at the door is under way. -/
def doorPending : Deed := .reply (.handOver 0 "door" { target := "quest" } 0 []) (.pending 7)

/-- The write at the door is done. -/
def doorWritten : Delivery := ⟨⟨0, 0, { target := "quest" }⟩, .written⟩

/-- The run waits at the door until the write is done, and enters the quest when that is
delivered. -/
def questAwaited : List Deed :=
  doorReached ++ [doorPending, .move, .move, .begin (.settle 7 .written), .move,
    .reply (.deliver doorWritten) (), .move, .begin (.written doorWritten), .move, .move, .move]

/-- The quest is entered after the answers were written down. -/
theorem quest_awaits_write :
    let start := (Session.fresh quest (.ofString "scripts") {}).atRest
    let events := start.record questAwaited
    WaitsForWrites events ∧
      (start.play questAwaited).control.spot?.map (fun x => (x.1, x.2.1.id)) = some (0, "x") := by
  intro start events
  have calmly : ∀ e ∈ events, calmCancel e.before e.deed := by decide +kernel
  have history : History calmCancel start events (start.play questAwaited) :=
    Turn.history_of_play? (Turn.play?_eq (by decide +kernel)) calmly
  have handed : handedOut [] events := by decide +kernel
  have posted : AllPosted events := by decide +kernel
  exact ⟨(write_precedes_link history handed posted).2.1, by decide +kernel⟩

/-! ### A link that is taken twice -/

theorem Turn.record_append {t : Turn} {ds ds' : List Deed} (h : (t.play? ds).isSome) :
    t.record (ds ++ ds') = t.record ds ++ (t.play ds).record ds' := by
  induction ds generalizing t with
  | nil => rfl
  | cons d ds ih =>
    obtain ⟨v, hv⟩ := Option.isSome_iff_exists.1 h
    simp only [play?, Option.bind_eq_some_iff] at hv
    obtain ⟨u, hu, hv⟩ := hv
    have play : t.play (d :: ds) = u.play ds := by simp [Turn.play, play?, hu, hv]
    simp only [List.cons_append, record, hu, play, ih (by rw [hv]; rfl)]

theorem Turn.record_cons {t : Turn} {d : Deed} {ds : List Deed} (h : (t.after? d).isSome) :
    t.record (d :: ds) = ⟨t, d, t.play [d]⟩ :: (t.play [d]).record ds := by
  obtain ⟨u, hu⟩ := Option.isSome_iff_exists.1 h
  have play : t.play [d] = u := by simp [Turn.play, play?, hu]
  simp only [record, hu, play]

/-- A picture, and the door after it. -/
def hall : Graph :=
  let door : Node := ⟨"door", .link { target := "quest" }⟩
  { script := {
      id := "hall"
      nodes := [picture, door]
      connections := [{ source := "picture", output := 0, target := "door" }] }
    entry := picture }

/-- The player goes on from the picture, and once more from inside the cancelling of its timer.  So
the run comes to the door, where the answers are handed over. -/
def hallCrossed : List Deed :=
  [.begin (.startGraph hall (some 0)), .move, .move, .move, .move, .move,
    .reply (.engage (.image ⟨"picture", "map.png", .int 3⟩)) (), .move,
    .reply (.startTimer (.int 3) ⟨0, 0⟩) true, .move, .move, .begin (.advance .null), .move,
    .begin (.advance .null), .move, .move, .move, .move, .move, .move, .move]

/-- The timer is cancelled, and the run that waits at the door comes there again. -/
def doorReachedAgain : List Deed :=
  [.move, .move, .leave, .reply (.cancelTimer ⟨0, 0⟩) (), .move, .move, .move, .move, .move, .move]

/-- **A player who goes on while a timer is cancelled** makes the run take its link before the write
is done: nobody is left who would have the answers. -/
theorem crossed_hall_waits_for_no_write :
    let start := (Session.fresh quest (.ofString "scripts") {}).atRest
    let deeds := hallCrossed ++ doorPending :: (doorReachedAgain ++ [.move, .move, .move, .move])
    let events := start.record deeds
    (∃ t, History anyDeed start events t) ∧ handedOut [] events ∧ AllPosted events ∧
      settled? events 7 = none ∧
      (start.play deeds).control.spot?.map (fun x => (x.1, x.2.1.id)) = some (0, "x") ∧
      ¬WaitsForWrites events := by
  intro start deeds events
  have played : start.play? deeds = some (start.play deeds) := Turn.play?_eq (by decide +kernel)
  refine ⟨⟨_, Turn.history_of_play? played fun _ _ => trivial⟩, by decide +kernel,
    by decide +kernel, by decide +kernel, by decide +kernel, fun waits => ?_⟩
  let t := start.play hallCrossed
  let u := (t.play [doorPending]).play doorReachedAgain
  have split : events = start.record hallCrossed ++ ⟨t, doorPending, t.play [doorPending]⟩ ::
      ((t.play [doorPending]).record doorReachedAgain ++ ⟨u, .move, u.play [.move]⟩ ::
        (u.play [.move]).record [.move, .move, .move]) := by
    show start.record deeds = _
    rw [Turn.record_append (by decide +kernel), Turn.record_cons (by decide +kernel),
      Turn.record_append (by decide +kernel), Turn.record_cons (by decide +kernel)]
  have filed : Event.files ⟨t, doorPending, t.play [doorPending]⟩ 7 ⟨0, 1, { target := "quest" }⟩ :=
    ⟨⟨"door", 0, [], rfl⟩, by decide +kernel⟩
  have top : u.stack = [.driving 0, .draining] := by decide +kernel
  have step : u.control = .done (.stepped ⟨⟨"door", .link { target := "quest" }⟩,
      .link { target := "quest" }⟩) := by decide +kernel
  have reads : Event.Reads 0 ⟨u, .move, u.play [.move]⟩ :=
    .unasked top step (by decide +kernel) (by decide +kernel)
  have written := waits _ _ _ _ _ 7 _ split filed (.reads reads)
  exact absurd written (by decide +kernel)

end Questline

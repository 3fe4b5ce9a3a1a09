import Questline.Proofs.Stranding

/-!
# Scripts that cannot be loaded

A script is read when a run is begun, and when a link leads to it.  If that fails, what is
left of the run is cleaned up: its timer is cancelled, its figures leave, its answers are
announced, and the fault is remembered.  This is done for a data fault when a run is begun,
for every fault when a link is taken at once, and for a link fault when it is taken after a
late write.

Files can fail in other ways than by a data fault: their bytes may be no text, a path may
hold a null character, a number may be too large.  Where such a fault is not caught, nothing
at all is cleaned up: a paused run keeps its figures, and a run that waited for the write
stays suspended without waiting for anything.

* `Turn.Ends`: whatever the host answers, the work ends, and how.
* `Session.CleanlyStopped`: nothing is left of a run but the fault.
* `Link.fault?`: why a link leads nowhere.
* `failed_load_clean_iff`: what is cleaned up if a script cannot be loaded.
-/

namespace Questline

/-! ## Hosts that only answer -/

/-- Whether a deed is a move of the session, or an answer of its host. -/
def Deed.isAnswering : Deed → Bool
  | .move | .reply _ _ => true
  | _ => false

/-- The host does nothing but answer its calls. -/
def answers : Turn → Deed → Prop := fun _ d => d.isAnswering

/-- The host does nothing but answer its calls, until what was begun on top of the stack `base`
is over. -/
def answersUntilBack (base : List Frame) : Turn → Deed → Prop := fun t d =>
  ¬t.IsBack base ∧ answers t d

instance (t : Turn) (d : Deed) : Decidable (answers t d) := inferInstanceAs (Decidable (_ = true))

instance (base : List Frame) (t : Turn) : Decidable (t.IsBack base) :=
  inferInstanceAs (Decidable (t.stack = base ∧ t.control.isOver))

instance (base : List Frame) (t : Turn) (d : Deed) : Decidable (answersUntilBack base t d) :=
  inferInstanceAs (Decidable (¬t.IsBack base ∧ answers t d))

/-- The figure that a call asks to leave. -/
def Ask.leaver : Ask → List String
  | .dismiss _ npc _ | .remove _ npc => [npc]
  | _ => []

/-- The figure that has left in an event. -/
def Event.leaver (e : Event) : List String :=
  match e.deed with
  | .reply a _ => a.leaver
  | _ => []

theorem Ask.exists_reply (a : Ask) : Nonempty a.call.Reply := by
  cases a with
  | startTimer => exact ⟨false⟩
  | take => exact ⟨false⟩
  | count => exact ⟨.int 0⟩
  | spawn => exact ⟨""⟩
  | fillIn => exact ⟨[]⟩
  | handOver | announce => exact ⟨.plain⟩
  | engage | cancelTimer | deliver | give | battle | remove | world | report | dismiss => exact ⟨()⟩

namespace Turn

/-- Whatever the host answers, what was begun on top of the stack `base` comes to its end.  Then
`P` holds of the turn and of the figures that have left, those of `gone` being the first. -/
inductive Ends (base : List Frame) (P : List String → Turn → Prop) : List String → Turn → Prop
  | here {gone : List String} {t : Turn} (back : t.IsBack base) (holds : P gone t) :
      Ends base P gone t
  | later {gone : List String} {t : Turn} (away : ¬t.IsBack base)
      (goes : ∃ d u, answers t d ∧ t.Does d u)
      (next : ∀ d u, answers t d → t.Does d u → Ends base P (gone ++ Event.leaver ⟨t, d, u⟩) u) :
      Ends base P gone t

variable {base stack : List Frame} {P Q : List String → Turn → Prop} {gone : List String}
  {t u : Turn} {s : Session}

theorem next?_of_does (h : t.Does .move u) : t.next? = some u := by
  cases h with
  | work => rfl
  | @receive s frame stack result hn =>
    cases frame with
    | asked a => exact absurd rfl (hn a)
    | _ => rfl
  | @recover s frame stack fault hn =>
    cases frame with
    | asked a => exact absurd rfl (hn a)
    | _ => rfl

namespace Ends

/-- The session's own move is the only one. -/
theorem of_next (hn : t.next? = some u) (away : ¬t.IsBack base) (hask : ∀ a, t.control ≠ .ask a)
    (h : u.Ends base P gone) : t.Ends base P gone := by
  refine .later away ⟨.move, u, rfl, does_of_next? hn⟩ fun d v hd hv => ?_
  cases d with
  | move =>
    obtain rfl : u = v := Option.some.inj (hn.symm.trans (next?_of_does hv))
    simpa [Event.leaver] using h
  | reply =>
    cases hv
    exact absurd rfl (hask _)
  | _ => cases hd

theorem work {task : Task} (h : ((task.begin s).on stack).Ends base P gone) :
    Ends base P gone ⟨s, stack, .work task⟩ :=
  of_next rfl (fun hb => by cases hb.2) (by simp) h

theorem longer {frame : Frame} (hl : base.length ≤ stack.length) (c : Control) :
    ¬IsBack base ⟨s, frame :: stack, c⟩ := fun hb => by
  have hlen := congrArg List.length hb.1
  simp only [List.length_cons] at hlen
  omega

theorem receive {frame : Frame} {result : Result} (hn : ∀ a, frame ≠ .asked a)
    (hl : base.length ≤ stack.length)
    (h : ((frame.receive s result).on stack).Ends base P gone) :
    Ends base P gone ⟨s, frame :: stack, .done result⟩ := by
  refine of_next ?_ (longer hl _) (by simp) h
  cases frame with
  | asked a => exact absurd rfl (hn a)
  | _ => rfl

theorem recover {frame : Frame} {fault : Fault} (hn : ∀ a, frame ≠ .asked a)
    (hl : base.length ≤ stack.length)
    (h : ((frame.recover s fault).on stack).Ends base P gone) :
    Ends base P gone ⟨s, frame :: stack, .failed fault⟩ := by
  refine of_next ?_ (longer hl _) (by simp) h
  cases frame with
  | asked a => exact absurd rfl (hn a)
  | _ => rfl

/-- A call is answered, whatever the answer is. -/
theorem ask {a : Ask}
    (h : ∀ answer, ((a.resume s answer).on stack).Ends base P (gone ++ a.leaver)) :
    Ends base P gone ⟨s, stack, .ask a⟩ := by
  obtain ⟨answer⟩ := a.exists_reply
  refine .later (fun hb => by cases hb.2) ⟨.reply a answer, _, rfl, .reply answer⟩ fun d u hd hu => ?_
  cases hu with
  | reply => exact h _
  | _ => cases hd

/-- A call that asks no figure to leave. -/
theorem reply {a : Ask} (ha : a.leaver = [])
    (h : ∀ answer, ((a.resume s answer).on stack).Ends base P gone) :
    Ends base P gone ⟨s, stack, .ask a⟩ :=
  ask fun answer => by rw [ha, List.append_nil]; exact h answer

/-- Every history of answers that comes back has come to that end. -/
theorem of_history {events : List Event} (h : t.Ends base P gone)
    (hu : History (answersUntilBack base) t events u) (back : u.IsBack base) :
    P (gone ++ events.flatMap Event.leaver) u := by
  induction h generalizing events with
  | here hb holds =>
    cases events with
    | nil =>
      obtain rfl := hu.nil_inv
      simpa using holds
    | cons e events =>
      rw [← List.nil_append (e :: events)] at hu
      obtain ⟨hnil, ⟨away, -⟩, -, -⟩ := hu.of_append_cons
      exact absurd (hnil.nil_inv ▸ hb) away
  | @later gone t away _ _ ih =>
    cases events with
    | nil =>
      obtain rfl := hu.nil_inv
      exact absurd back away
    | cons e events =>
      rw [← List.nil_append (e :: events)] at hu
      obtain ⟨hnil, ⟨-, hd⟩, does, hlater⟩ := hu.of_append_cons
      obtain ⟨before, d, after⟩ := e
      obtain rfl : before = t := hnil.nil_inv
      simpa [List.append_assoc] using ih d after hd does hlater

end Ends

end Turn

/-! ## Cleaning up -/

/-- The current run is the run `r`.  It is stopped and waits for nothing, its figures and its
graph are gone, and the fault is remembered. -/
structure Session.CleanlyStopped (r : RunId) (f : Fault) (s : Session) : Prop where
  current : s.current = some r
  phase : (s.run r).phase = .stopped
  wait : (s.run r).wait = none
  npcs : (s.run r).npcs = []
  graph : s.graph = none
  lastError : s.lastError = some f

/-- The run `r` was cleaned up after, beginning in the session `s`: its answers are gone as well,
and the queue is as it was. -/
structure Session.Cleared (r : RunId) (f : Fault) (s s' : Session) : Prop
    extends Session.CleanlyStopped r f s' where
  ledger : (s'.run r).ledger = []
  pending : s'.pending = s.pending
  draining : s'.draining = s.draining

namespace Turn.Ends

variable {base stack : List Frame} {P : List String → Turn → Prop} {gone : List String}
  {s : Session} {r : RunId} {f : Fault}

/-- All figures leave, one after the other. -/
theorem dismiss {npcs : List String}
    (h : Ends base P (gone ++ npcs) ⟨s.setRun r fun run => { run with npcs := [] }, stack, .done .done⟩) :
    ((s.dismiss r npcs).on stack).Ends base P gone := by
  induction npcs generalizing gone with
  | nil =>
    rw [List.append_nil] at h
    exact h
  | cons npc rest ih => exact ask fun () => ih (by simpa [Ask.leaver] using h)

theorem announce {completion : Option Callback} {ledger : Ledger}
    (h : Ends base P gone ⟨s, stack, .done .done⟩) :
    ((s.announce completion ledger).on stack).Ends base P gone := by
  cases completion with
  | none => exact h
  | some callback => exact reply rfl fun _ => h

variable (hr : r < s.runs.length) (current : s.current = some r) (noted : s.lastError = some f)
  (long : base.length ≤ stack.length)

include hr current noted long

/-- The current run is closed: its figures leave, and its answers are announced. -/
theorem close
    (h : ∀ s', s.Cleared r f s' → Ends base P (gone ++ (s.run r).npcs) ⟨s', stack, .done .done⟩) :
    ((s.close r .stopped).on stack).Ends base P gone := by
  have ended : s.ended r .stopped = { s.setRun r (Run.ended .stopped) with graph := none } :=
    s.ended_of_current r current
  rw [Session.close_stopped, ended, Move.on_under]
  refine dismiss (receive (by simp) long (announce (h _ ?_)))
  have hrun := Session.run_setRun_self (s := s.setRun r (Run.ended .stopped)) (r := r)
    (f := fun run => { run with npcs := [] }) (by simpa using hr)
  rw [Session.run_setRun_self hr] at hrun
  exact
    { current
      phase := congrArg Run.phase hrun
      wait := congrArg Run.wait hrun
      npcs := congrArg Run.npcs hrun
      graph := rfl
      lastError := noted
      ledger := congrArg Run.ledger hrun
      pending := rfl
      draining := rfl }

/-- The current run is stopped: its timer is cancelled before. -/
theorem terminate
    (h : ∀ s', s.Cleared r f s' → Ends base P (gone ++ (s.run r).npcs) ⟨s', stack, .done .done⟩) :
    ((s.terminate r .stopped).on stack).Ends base P gone := by
  rcases s.terminate_cases r .stopped with ⟨w, -, -, hm⟩ | ⟨-, hm⟩
  · rw [hm, Move.on_under]
    refine reply rfl fun _ => receive (by simp) long ?_
    show ((Session.close (s.setRun r (·.setTimer w.id false)) r .stopped).on stack).Ends base P gone
    refine close (by simpa using hr) current noted long fun s' clean => ?_
    rw [Session.run_setRun_self hr]
    exact h s' { clean with }
  · rw [hm]
    exact close hr current noted long h

/-- If the current run goes on, it is stopped. -/
theorem stopIfActive (active : (s.run r).isActive)
    (h : ∀ s', s.Cleared r f s' → Ends base P (gone ++ (s.run r).npcs) ⟨s', stack, .done .done⟩) :
    ((s.stopIfActive r).on stack).Ends base P gone := by
  rw [Session.stopIfActive, if_pos active]
  exact work (terminate hr current noted long h)

end Turn.Ends

/-! ## Beginning a run -/

/-- Whether a fault is one of the data. -/
def Fault.isData : Fault → Bool
  | .data _ => true
  | _ => false

/-- Whether a fault is one of a link. -/
def Fault.isLink : Fault → Bool
  | .link _ => true
  | _ => false

namespace Session

variable {s : Session} {script : String} {completion : Option Callback} {f : Fault}

theorem stop_of_current {r : RunId} (hc : s.current = some r) (hp : (s.run r).phase ≠ .stopped) :
    s.stop = s.terminate r .stopped := by
  simp only [stop, hc, if_neg hp]

theorem stop_of_stopped (h : ∀ r, s.current = some r → (s.run r).phase = .stopped) :
    s.stop = .finished s := by
  unfold stop
  split
  · rfl
  case h_2 r hc => exact if_pos (h r hc)

theorem start_of_data (idle : s.IsIdle) (hf : f.isData)
    (load : Library.load s.files s.library script = .error f) :
    s.start script completion = ({ s with lastError := some f }.stop).under (.failing f) := by
  unfold start
  rw [idle.ensureIdle_eq]
  simp only [load]
  cases f with
  | data => rfl
  | _ => cases hf

theorem start_of_not_data (idle : s.IsIdle) (hf : f.isData = false)
    (load : Library.load s.files s.library script = .error f) :
    s.start script completion = .failure s f := by
  unfold start
  rw [idle.ensureIdle_eq]
  simp only [load]
  cases f with
  | data => cases hf
  | _ => rfl

end Session

/-- **A run that cannot be begun.**  A data fault cleans up what is left of the run before; any
other fault leaves everything as it was. -/
theorem Turn.ends_start {s : Session} {base : List Frame} {script : String}
    {completion : Option Callback} {f : Fault} (born : ∀ r, s.current = some r → r < s.runs.length)
    (idle : s.IsIdle) (load : Library.load s.files s.library script = .error f) :
    Ends base (fun gone u => u.control = .failed f ∧
      (∀ r, s.current = some r → (s.run r).phase = .paused →
        (gone = (s.run r).npcs ∧ u.session.CleanlyStopped r f ↔ f.isData)) ∧
      (s.phase = .stopped →
        gone = [] ∧ u.session = if f.isData then { s with lastError := some f } else s))
      [] ⟨s, base, .work (.entry (.start script completion))⟩ := by
  refine .work ?_
  show ((s.start script completion).on base).Ends _ _ _
  cases hf : f.isData with
  | false =>
    rw [Session.start_of_not_data idle hf load]
    refine .here ⟨rfl, rfl⟩ ⟨rfl, fun r _ hp => ?_, fun _ => ⟨rfl, rfl⟩⟩
    refine iff_of_false (fun clean => ?_) (by simp)
    cases hp.symm.trans clean.2.phase
  | true =>
    rw [Session.start_of_data idle hf load, Move.on_under]
    -- The fault is passed on once the cleaning up is done.
    have failing {gone : List String} {s' : Session} {P : List String → Turn → Prop}
        (h : P gone ⟨s', base, .failed f⟩) :
        Ends base P gone ⟨s', .failing f :: base, .done .done⟩ :=
      .receive (by simp) (Nat.le_refl _) (.here ⟨rfl, rfl⟩ h)
    by_cases hp : ∃ r, s.current = some r ∧ (s.run r).phase ≠ .stopped
    · obtain ⟨r, hc, hp⟩ := hp
      rw [Session.stop_of_current (s := { s with lastError := some f }) hc hp]
      refine .terminate (born r hc) hc rfl (Nat.le_succ _) fun s' clean => failing ⟨rfl, ?_, ?_⟩
      · intro r' hr' _
        obtain rfl := Option.some.inj (hc.symm.trans hr')
        exact iff_of_true ⟨rfl, clean.toCleanlyStopped⟩ rfl
      · intro hphase
        refine absurd ?_ hp
        simpa [Session.phase, Session.currentRun?, hc] using hphase
    · have hstopped : ∀ r, s.current = some r → (s.run r).phase = .stopped := fun r hc =>
        Classical.byContradiction fun h => hp ⟨r, hc, h⟩
      rw [Session.stop_of_stopped (s := { s with lastError := some f }) hstopped]
      refine failing ⟨rfl, fun r hc hpaused => ?_, fun _ => ⟨rfl, rfl⟩⟩
      cases hpaused.symm.trans (hstopped r hc)

/-! ## Links -/

/-- How the write of a link has ended, unless it is under way: nothing to wait for counts as
written. -/
def Receipt.outcome? : Receipt → Option WriteOutcome
  | .plain => some .written
  | .finished outcome => some outcome
  | .pending _ => none

/-- Why a link leads nowhere once its write has ended. -/
def Link.fault? (link : Link) (s : Session) : WriteOutcome → Option Fault
  | .written =>
    match Library.load s.files s.library link.target with
    | .ok _ => none
    | .error (.data f) => some (.link (.notLoaded link.target f))
    | .error f => some f
  | .failed reason => some (.link (.writeFailed link.target reason))
  | .cancelled => some (.link (.writeCancelled link.target))

@[simp] theorem Link.fault?_setRun (link : Link) (s : Session) (q : RunId) (f : Run → Run)
    (outcome : WriteOutcome) : link.fault? (s.setRun q f) outcome = link.fault? s outcome := by
  cases outcome with
  | written =>
    unfold Link.fault?
    rw [show (s.setRun q f).files = s.files from rfl, show (s.setRun q f).library = s.library from rfl]
  | failed | cancelled => rfl

/-- The run `r` takes a link while it is driven: its answers have been handed over before, or
they are now, and no write is under way. -/
inductive Turn.LinksAtOnce (r : RunId) (link : Link) (base : List Frame) :
    WriteOutcome → Turn → Deed → Prop
  | unheard {s : Session} {node : Node} (h : (s.run r).completion = none) :
      LinksAtOnce r link base .written
        ⟨s, .driving r :: .draining :: base, .done (.stepped ⟨node, .link link⟩)⟩ .move
  | heard {s : Session} {node : String} {callback : Callback} {ledger : Ledger} {receipt : Receipt}
      {outcome : WriteOutcome} (h : receipt.outcome? = some outcome) :
      LinksAtOnce r link base outcome
        ⟨s, .driving r :: .draining :: base, .ask (.handOver r node link callback ledger)⟩
        (.reply (.handOver r node link callback ledger) receipt)

namespace Session

variable {s : Session} {r : RunId} {link : Link} {outcome : WriteOutcome} {f : Fault}

theorem loadTarget_of_fault (h : link.fault? s .written = some f) :
    s.loadTarget r link = .failure s f := by
  unfold loadTarget
  unfold Link.fault? at h
  generalize Library.load s.files s.library link.target = loaded at h ⊢
  cases loaded with
  | ok graph => cases h
  | error e => cases e <;> (cases h; rfl)

theorem afterWrite_of_fault (h : link.fault? s outcome = some f) :
    s.afterWrite r link outcome = .failure s f := by
  cases outcome with
  | written =>
    unfold afterWrite
    exact loadTarget_of_fault h
  | failed | cancelled =>
    obtain rfl := Option.some.inj h
    rfl

theorem afterHandOver_of_fault {node : String} {receipt : Receipt}
    (hr : receipt.outcome? = some outcome) (h : link.fault? s outcome = some f) :
    s.afterHandOver r node link receipt = .failure s f := by
  unfold afterHandOver
  cases receipt with
  | plain =>
    obtain rfl := Option.some.inj hr
    exact loadTarget_of_fault h
  | finished =>
    obtain rfl := Option.some.inj hr
    exact afterWrite_of_fault h
  | pending => cases hr

end Session

namespace Turn

variable {s : Session} {r : RunId} {link : Link} {outcome : WriteOutcome} {f : Fault}
  {base : List Frame}

/-- A link that leads nowhere is a fault of the run that is driven. -/
theorem LinksAtOnce.fails {t u : Turn} {d : Deed} (h : t.LinksAtOnce r link base outcome d)
    (owns : t.session.owns r) (hf : link.fault? t.session outcome = some f) (does : t.Does d u) :
    u = ⟨t.session, .driving r :: .draining :: base, .failed f⟩ := by
  cases h with
  | @unheard s node hc =>
    have hu := next?_of_does does
    have hproceed : s.proceed r ⟨node, .link link⟩ = (Move.failure s f).under (.driving r) := by
      simp only [Session.proceed, owns, if_true, Session.settle, Session.transfer, hc,
        Session.loadTarget_of_fault hf]
    obtain rfl : (s.proceed r ⟨node, .link link⟩).on (.draining :: base) = u := Option.some.inj hu
    rw [hproceed]
    rfl
  | heard hr =>
    cases does with
    | reply =>
      show (Session.afterHandOver _ r _ link _).on _ = _
      rw [Session.afterHandOver_of_fault hr hf]
      rfl

/-- A run that fails while it is driven is cleaned up, the queue is dropped, and the fault goes on
below it. -/
theorem ends_driven {below : List Frame} {P : List String → Turn → Prop} (hr : r < s.runs.length)
    (owns : s.owns r) (long : base.length ≤ below.length)
    (h : ∀ s', Session.Cleared r f { s with pending := [], draining := false } s' →
      Ends base P (s.run r).npcs ⟨s', below, .failed f⟩) :
    Ends base P [] ⟨s, .driving r :: .draining :: below, .failed f⟩ := by
  obtain ⟨hc, active⟩ := Bool.and_eq_true_iff.1 owns
  have current : s.current = some r := beq_iff_eq.1 hc
  refine .recover (by simp) (by simp; omega) ?_
  show (((Session.stopIfActive { s with lastError := some f } r).under (.failing f)).on
    (.draining :: below)).Ends _ _ _
  rw [Move.on_under]
  refine .stopIfActive hr current rfl (by simp; omega) active fun s' clean => ?_
  refine .receive (by simp) (by simp; omega) (.recover (by simp) long ?_)
  exact h { s' with pending := [], draining := false } { clean with pending := rfl, draining := rfl }

/-- **A run that fails while it is driven is cleaned up**, and the fault goes on to the caller. -/
theorem ends_driving (hr : r < s.runs.length) (owns : s.owns r) :
    Ends base (fun gone u => u.control = .failed f ∧ gone = (s.run r).npcs ∧
      u.session.CleanlyStopped r f) [] ⟨s, .driving r :: .draining :: base, .failed f⟩ :=
  ends_driven hr owns (Nat.le_refl _) fun _ clean =>
    .here ⟨rfl, rfl⟩ ⟨rfl, rfl, clean.toCleanlyStopped⟩

/-- **A link that leads nowhere after a late write.**  A link fault cleans up; any other fault
goes on to the caller and leaves everything as it is. -/
theorem ends_linking (hr : r < s.runs.length) (current : s.current = some r)
    (active : (s.run r).isActive) :
    Ends base (fun gone u =>
      (gone = (s.run r).npcs ∧ u.session.CleanlyStopped r f ↔ f.isLink) ∧
        (f.isLink = false → u.control = .failed f ∧ gone = [] ∧ u.session = s))
      [] ⟨s, .linking r :: base, .failed f⟩ := by
  refine .recover (by simp) (Nat.le_refl _) ?_
  cases hl : f.isLink with
  | false =>
    have passes : (Frame.linking r).recover s f = .failure s f := by
      cases f with
      | link => cases hl
      | _ => rfl
    rw [passes]
    refine .here ⟨rfl, rfl⟩ ⟨iff_of_false (fun clean => ?_) (by simp), fun _ => ⟨rfl, rfl, rfl⟩⟩
    have phase : (s.run r).phase = .stopped := clean.2.phase
    simp [Run.isActive, phase, Phase.isActive] at active
  | true =>
    have cleans : (Frame.linking r).recover s f =
        Session.stopIfActive { s with lastError := some f } r := by
      cases f with
      | link => rfl
      | _ => cases hl
    rw [cleans]
    exact .stopIfActive hr current rfl (Nat.le_refl _) active fun s' clean =>
      .here ⟨rfl, rfl⟩ ⟨iff_of_true ⟨rfl, clean.toCleanlyStopped⟩ rfl, fun h => by cases h⟩

/-- The link of a run is taken up when its write is over. -/
theorem ends_written {d : Delivery} (hr : d.handle.run < s.runs.length)
    (waits : s.isWaiting d.handle.run d.handle.wait)
    (hf : d.handle.link.fault? s d.outcome = some f) :
    Ends base (fun gone u =>
      (gone = (s.run d.handle.run).npcs ∧ u.session.CleanlyStopped d.handle.run f ↔ f.isLink) ∧
      (f.isLink = false → u.control = .failed f ∧ gone = [] ∧
        u.session = s.setRun d.handle.run fun run => { run with wait := none }))
      [] ⟨s, base, .work (.entry (.written d))⟩ := by
  obtain ⟨hc, hw⟩ := Bool.and_eq_true_iff.1 waits
  have phase : (s.run d.handle.run).phase = .suspended := beq_iff_eq.1 (Bool.and_eq_true_iff.1 hw).1
  have hrun := Session.run_setRun_self (f := fun run => { run with wait := none }) hr
  have failing : s.deliver d = (Move.failure
      (s.setRun d.handle.run fun run => { run with wait := none }) f).under (.linking d.handle.run) := by
    have hlink : d.handle.link.fault?
        (s.setRun d.handle.run fun run => { run with wait := none }) d.outcome = some f := by
      rw [Link.fault?_setRun]
      exact hf
    simp only [Session.deliver, hw, if_true, Session.afterWrite_of_fault hlink]
  refine .work ?_
  show ((s.deliver d).on base).Ends _ _ _
  rw [failing, Move.on_under]
  have linking : Ends base _ []
      ⟨s.setRun d.handle.run fun run => { run with wait := none }, .linking d.handle.run :: base,
        .failed f⟩ :=
    ends_linking (by simpa using hr) (beq_iff_eq.1 hc)
      (by rw [hrun]; simp [Run.isActive, phase, Phase.isActive])
  rw [hrun] at linking
  exact linking

end Turn

/-- **What is cleaned up if a script cannot be loaded.**  If the host only answers, the work ends
in any case.  A paused run is cleaned up by an attempt to begin another one exactly if the fault
is one of the data, and then its figures have left and the fault is remembered; a runner that
has stopped only remembers it, and with any other fault nothing changes.  A run that takes a link
at once is always cleaned up.  A run that takes it after a late write is cleaned up exactly if
the fault is one of the link; otherwise it stays suspended and waits for nothing. -/
theorem failed_load_clean_iff {files : FileTree} {library : Path} {flags : FlagStore}
    {events : List Event} {t : Turn}
    (h : History anyDeed (Session.fresh files library flags).atRest events t) :
    (∀ script completion f, t.control = .work (.entry (.start script completion)) →
      t.session.IsIdle → Library.load t.session.files t.session.library script = .error f →
      t.Ends t.stack (fun gone u => u.control = .failed f ∧
        (∀ r, t.session.current = some r → (t.session.run r).phase = .paused →
          (gone = (t.session.run r).npcs ∧ u.session.CleanlyStopped r f ↔ f.isData)) ∧
        (t.session.phase = .stopped → gone = [] ∧
          u.session = if f.isData then { t.session with lastError := some f } else t.session)) []) ∧
    (∀ r link base outcome f d u, t.LinksAtOnce r link base outcome d → t.session.owns r →
      link.fault? t.session outcome = some f → t.Does d u →
      u.Ends base (fun gone v => v.control = .failed f ∧ gone = (t.session.run r).npcs ∧
        v.session.CleanlyStopped r f) []) ∧
    ∀ d f, t.control = .work (.entry (.written d)) → t.session.isWaiting d.handle.run d.handle.wait →
      d.handle.link.fault? t.session d.outcome = some f →
      t.Ends t.stack (fun gone u =>
        (gone = (t.session.run d.handle.run).npcs ∧ u.session.CleanlyStopped d.handle.run f ↔
          f.isLink) ∧
        (f.isLink = false → u.control = .failed f ∧ gone = [] ∧
          u.session = t.session.setRun d.handle.run fun run => { run with wait := none })) [] := by
  have current := h.orderly_turn.current
  obtain ⟨s, stack, c⟩ := t
  refine ⟨?_, ?_, ?_⟩
  · rintro script completion f hc idle load
    obtain rfl : c = .work (.entry (.start script completion)) := hc
    exact Turn.ends_start current idle load
  · intro r link base outcome f d u links owns hf does
    rw [links.fails owns hf does]
    exact Turn.ends_driving (current r (beq_iff_eq.1 (Bool.and_eq_true_iff.1 owns).1)) owns
  · rintro d f hc waits hf
    obtain rfl : c = .work (.entry (.written d)) := hc
    exact Turn.ends_written (current _ (beq_iff_eq.1 (Bool.and_eq_true_iff.1 waits).1)) waits hf

/-! ### A camp and its goblin -/

/-- The goblin of the camp. -/
def goblin : SpawnRequest :=
  { npc := "goblin", emoji := none, name := none, x := .zero, y := .zero, z := .zero
    scale := .ofRatio false 1 1 }

/-- A script that only spawns a goblin. -/
def camp : Graph :=
  let node : Node :=
    ⟨"camp", .trigger { event := "spawnNPC", params := [("npcId", .string "goblin")] }⟩
  { script := { id := "camp", nodes := [node] }, entry := node }

/-- A library with a single script, whose file is a byte that is no text. -/
def unreadable : FileTree :=
  ((FileTree.empty []).store ["scripts"] .directory).store ["scripts", "bad.json"] (.file [0xff])

theorem load_eq_error {files : FileTree} {library : Path} {id : String} {f : Fault}
    (h : (match Library.load files library id with
      | .ok _ => none
      | .error f => some f) = some f) : Library.load files library id = .error f := by
  split at h
  · cases h
  case h_2 hl => rw [hl, Option.some.inj h]

/-- The camp is left, and another script begun. -/
def campThen (script : String) : Turn :=
  (Session.fresh unreadable (.ofString "scripts") {}).atRest.play
    [.begin (.startGraph camp none), .move, .move, .move, .move, .reply (.spawn 0 goblin) "goblin",
      .move, .move, .move, .move, .begin (.start script none)]

/-- If there is no such script, the goblin leaves and the run is stopped. -/
theorem goblin_leaves :
    let t := campThen "gone"
    let u := t.play [.move, .reply (.dismiss 0 "goblin" []) (), .move, .move]
    (t.session.run 0).phase = .paused ∧ (t.session.run 0).npcs = ["goblin"] ∧ u.IsBack [] ∧
      u.session.CleanlyStopped 0 (.data (.fileMissing (.ofString "scripts/gone.json"))) := by
  intro t u
  have reached : (Session.fresh unreadable (.ofString "scripts") {}).atRest.Leads anyDeed t :=
    leads_play (by decide +kernel)
  obtain ⟨_, history⟩ := reached
  have control : t.control = .work (.entry (.start "gone" none)) := by decide +kernel
  have current : t.session.current = some 0 := by decide +kernel
  have phase : (t.session.run 0).phase = .paused := by decide +kernel
  have stack : t.stack = [] := by decide +kernel
  have idle : t.session.IsIdle := by
    intro r hr
    obtain rfl := Option.some.inj (current.symm.trans hr)
    rw [Run.isActive, phase]
    rfl
  have ends := (failed_load_clean_iff history).1 "gone" none
    (.data (.fileMissing (.ofString "scripts/gone.json"))) control idle
    (load_eq_error (by decide +kernel))
  rw [stack] at ends
  have played : t.play? [.move, .reply (.dismiss 0 "goblin" []) (), .move, .move] = some u :=
    Turn.play?_eq (by decide +kernel)
  have back : u.IsBack [] := ⟨by decide +kernel, by decide +kernel⟩
  have answered : History (answersUntilBack []) t _ u :=
    Turn.history_of_play? played (by decide +kernel)
  obtain ⟨-, clean, -⟩ := ends.of_history answered back
  exact ⟨phase, by decide +kernel, back, ((clean 0 current phase).2 rfl).2⟩

/-- **A file that is no text is not cleaned up after**: the run stays paused, the goblin stays,
and no fault is remembered. -/
theorem goblin_stays :
    let t := campThen "bad"
    let u := t.play [.move]
    (Session.fresh unreadable (.ofString "scripts") {}).atRest.Leads anyDeed t ∧
      t.control = .work (.entry (.start "bad" none)) ∧ t.Leads (answersUntilBack []) u ∧
      u.IsBack [] ∧ u.control = .failed (.undecodable ⟨.startByte, 0xff, 0, 1⟩) ∧
      u.session.phase = .paused ∧ (u.session.run 0).npcs = ["goblin"] ∧
      u.session.lastError = none := by
  intro t u
  have played : t.play? [.move] = some u := Turn.play?_eq (by decide +kernel)
  exact ⟨leads_play (by decide +kernel), by decide +kernel,
    ⟨_, Turn.history_of_play? played (by decide +kernel)⟩, by decide +kernel, by decide +kernel,
    by decide +kernel, by decide +kernel, by decide +kernel⟩

end Questline

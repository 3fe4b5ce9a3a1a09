import Mathlib.Logic.Relation
import Questline.Console.Game
import Questline.Proofs.Agreement
import Questline.Proofs.Entries
import Questline.Proofs.Figures
import Questline.Proofs.Loading
import Questline.Proofs.Refusals
import Questline.Proofs.Resting

/-!
# Games at a console

A console never comes back from inside a call.  So what happens between two lines of the player is
determined, but for the files, which may change at any time: a turn goes on until nothing is under
way, or to the visit of another node.  It suffices to follow it once from each visit, and once from
each line; nothing has to be said about the turns in between.

* `Turn.Comes`: a turn comes to another one, whatever becomes of the files.
* `Console.Agrees`: how the console and the session stand when nothing is under way.
* `Turn.Comes.visit`: after the visit of a node, the next node is visited, or the console and the
  session agree again.
* `Game.Fair`: what every step and every line of a game preserves.
* `Game.console_in_step`: the figures, the last choice and the pending battle of the console are those
  of the current run.
-/

namespace Questline

open Json (Value Fields)

/-! ## What goes wrong in a game -/

/-- Whether a fault can occur in a game: it is reported, or an integer is too large. -/
def Fault.isUsual (f : Fault) : Prop := f.isReported ∨ f = .tooLarge

/-- A computation that fails only with faults of a game. -/
abbrev IsUsual {α : Type} (x : Except Fault α) : Prop := FailsWith Fault.isUsual x

/-- A computation that fails only with faults that are reported. -/
abbrev IsReported {α : Type} (x : Except Fault α) : Prop := FailsWith (fun f => f.isReported) x

theorem IsReported.usual {α : Type} {x : Except Fault α} (h : IsReported x) : IsUsual x :=
  h.mono fun _ => .inl

theorem inRange_usual {α : Type} (a : Option α) : IsUsual (inRange a) := by
  cases a with
  | some a => exact .ok a
  | none => exact .error (.inr rfl)

namespace Effect

variable (name : String) (v : Value) (params : Fields)

theorem badParameter_usual {α : Type} (need : Requirement) : IsUsual (badParameter (α := α) name need) :=
  .error (.inl rfl)

theorem textParameter_usual : IsUsual (textParameter name v) := by
  unfold textParameter
  split
  · split
    · exact badParameter_usual name _
    · exact .ok _
  · exact badParameter_usual name _

theorem optionalParameter_usual : IsUsual (optionalParameter name v) := by
  unfold optionalParameter
  split
  · exact .ok _
  · exact .ok _
  · exact badParameter_usual name _

theorem numberParameter_usual : IsUsual (numberParameter name v) := by
  unfold numberParameter
  split
  · exact inRange_usual _
  · exact .ok _
  · exact badParameter_usual name _

theorem scalarParameter_usual : IsUsual (scalarParameter name v) := by
  unfold scalarParameter
  split
  · exact .ok _
  · exact badParameter_usual name _

theorem hourParameter_usual : IsUsual (hourParameter name v) := by
  refine (numberParameter_usual name v).bind fun hour => ?_
  split
  · exact .pure _
  · exact badParameter_usual name _

/-- **The parameters of a trigger** are right, or go wrong as in a game. -/
theorem ofTrigger_usual (t : Trigger) : IsUsual (ofTrigger t) := by
  unfold ofTrigger
  split
  case h_1 read found =>
    obtain ⟨before, after, split, -⟩ := List.lookup_eq_some_iff.1 found
    have known : (t.event, read) ∈ readers := split ▸ List.mem_append_right _ List.mem_cons_self
    simp only [readers, List.mem_cons, Prod.mk.injEq, List.not_mem_nil, or_false] at known
    rcases known with ⟨-, rfl⟩ | ⟨-, rfl⟩ | ⟨-, rfl⟩ | ⟨-, rfl⟩ | ⟨-, rfl⟩ | ⟨-, rfl⟩ | ⟨-, rfl⟩ |
      ⟨-, rfl⟩ | ⟨-, rfl⟩
    · exact (textParameter_usual _ _).map _
    · exact .ok _
    · exact (textParameter_usual _ _).bind fun _ => (scalarParameter_usual _ _).bind fun _ => .pure _
    · exact (textParameter_usual _ _).bind fun _ => (optionalParameter_usual _ _).bind fun _ =>
        (optionalParameter_usual _ _).bind fun _ => (numberParameter_usual _ _).bind fun _ =>
        (numberParameter_usual _ _).bind fun _ => (numberParameter_usual _ _).bind fun _ =>
        (numberParameter_usual _ _).bind fun _ => .pure _
    · exact (textParameter_usual _ _).map _
    · exact (textParameter_usual _ _).bind fun _ => (optionalParameter_usual _ _).bind fun _ => .pure _
    · exact (numberParameter_usual _ _).bind fun _ => (numberParameter_usual _ _).bind fun _ =>
        (numberParameter_usual _ _).bind fun _ => .pure _
    · exact (hourParameter_usual _ _).map _
    · exact (textParameter_usual _ _).map _
  case h_2 => exact .error (.inl rfl)

end Effect

theorem FlagStore.set_reported (store : FlagStore) (files : FileTree) (name : String) (value : Scalar) :
    IsReported (store.set files name value).2.2 := by
  unfold FlagStore.set save
  dsimp only
  split
  · exact .ok ()
  · split
    · exact .ok ()
    case h_2 e _ =>
      split
      case isTrue null =>
        refine .error ?_
        simp [Fault.isReported, null]
      case isFalse => exact .error rfl

theorem Script.ofValue_usual (id : String) (v : Value) : IsUsual (Script.ofValue id v) := by
  intro f h
  by_cases hf : f.isRefusal = true
  · cases f with
    | data => exact .inl rfl
    | _ => cases hf
  · cases (Script.eq_error_iff (Bool.not_eq_true _ ▸ hf)).1 h with
    | node _ _ _ escapes =>
      cases escapes with
      | id => exact .inl rfl
      | duration => exact .inr rfl
    | connection _ _ _ _ escapes => cases escapes <;> exact .inl rfl

theorem loadJson_reported (files : FileTree) (path : Path) : IsReported (loadJson files path) := by
  unfold loadJson
  split
  · exact .error rfl
  case h_2 e _ =>
    split
    · exact .error rfl
    case h_2 null =>
      refine .error ?_
      simp [Fault.isReported, null]
    · exact .error rfl
  · split
    · exact .ok _
    · exact .error rfl

theorem Graph.ofScript_reported (s : Script) : IsReported (Graph.ofScript s) := by
  cases Graph.ofScript_cases s with
  | unsound _ _ failed =>
    rw [failed]
    exact .error rfl
  | unentered _ _ _ failed =>
    rw [failed]
    exact .error rfl
  | built _ _ built =>
    rw [built]
    exact .ok _

theorem Library.load_usual (files : FileTree) (library : Path) (id : String) :
    IsUsual (Library.load files library id) := by
  refine .bind (.bind (loadJson_reported _ _).usual fun v => ?_) fun s => (Graph.ofScript_reported s).usual
  split
  · exact Script.ofValue_usual _ _
  · exact .error (.inl rfl)

/-! ## What a turn comes to -/

/-- A session with other files. -/
def Session.withFiles (s : Session) (files : FileTree) : Session := { s with files }

theorem Session.Has.withFiles {s : Session} {r : RunId} {draining : Bool}
    {pending : List (RunId × Job)} {run : Run} {graph : Option Graph}
    (h : s.Has r draining pending run graph) (files : FileTree) :
    (s.withFiles files).Has r draining pending run graph :=
  h.change

namespace Turn

/-- A turn with other files. -/
def withFiles (t : Turn) (files : FileTree) : Turn := { t with session := t.session.withFiles files }

/-- Whatever becomes of the files, the turn `t` of the console `c` comes to a turn of which `Q`
holds. -/
inductive Comes (Q : Console → Turn → Prop) : Console → Turn → Prop
  | here {c : Console} {t : Turn} (holds : Q c t) : Comes Q c t
  | move {c : Console} {t : Turn} {next : FileTree → Turn}
      (goes : ∀ files, (t.withFiles files).next? = some (next files))
      (h : ∀ files, Comes Q c (next files)) : Comes Q c t
  | ask {c : Console} {s : Session} {stack : List Frame} {a : Ask}
      (h : ∀ files, Comes Q (c.answer a.call).1
        (conclude ⟨s.withFiles files, stack, .ask a⟩ a (c.answer a.call).2.2)) :
      Comes Q c ⟨s, stack, .ask a⟩

namespace Comes

variable {Q : Console → Turn → Prop} {c : Console} {s : Session} {stack : List Frame}

theorem work {task : Task} (h : ∀ files, Comes Q c ((task.begin (s.withFiles files)).on stack)) :
    Comes Q c ⟨s, stack, .work task⟩ :=
  .move (fun _ => rfl) h

theorem receive {frame : Frame} {result : Result} (hn : ∀ a, frame ≠ .asked a)
    (h : ∀ files, Comes Q c ((frame.receive (s.withFiles files) result).on stack)) :
    Comes Q c ⟨s, frame :: stack, .done result⟩ :=
  .move (fun _ => next?_of_does (.receive hn)) h

theorem recover {frame : Frame} {f : Fault} (hn : ∀ a, frame ≠ .asked a)
    (h : ∀ files, Comes Q c ((frame.recover (s.withFiles files) f).on stack)) :
    Comes Q c ⟨s, frame :: stack, .failed f⟩ :=
  .move (fun _ => next?_of_does (.recover hn)) h

/-- The console answers. -/
theorem reply {a : Ask} {answer : a.call.Reply} (ha : (c.answer a.call).2.2 = .ok answer)
    (h : ∀ files, Comes Q (c.answer a.call).1 ((a.resume (s.withFiles files) answer).on stack)) :
    Comes Q c ⟨s, stack, .ask a⟩ :=
  .ask fun files => by
    rw [ha]
    exact h files

/-- The console fails. -/
theorem fail {a : Ask} {f : Fault} (ha : (c.answer a.call).2.2 = .error f)
    (h : ∀ files, Comes Q (c.answer a.call).1 ⟨s.withFiles files, stack, .failed f⟩) :
    Comes Q c ⟨s, stack, .ask a⟩ :=
  .ask fun files => by
    rw [ha]
    exact h files

end Comes

end Turn

/-! ## How the console and the session agree -/

namespace Console

/-- The figures that are there are those of the run. -/
def Houses (c : Console) (run : Run) : Prop := ∀ id, c.npcs.has id ↔ id ∈ run.npcs

/-- The console remembers what the run `r` waits for at a node. -/
inductive Recalls (c : Console) (r : RunId) (wait : Wait) (n : Node) : Prop
  | dialogue {d : Dialogue} (body : n.body = .dialogue d)
  | choice {choice : Choice} (body : n.body = .choice choice)
      (last : c.lastChoice = some ⟨n.id, choice.question, choice.options⟩)
  | image {i : Image} (body : n.body = .image i)
  | combat {opponent : Fields} (body : n.body = .combat opponent)
      (battle : c.battle = some ⟨r, wait.id, n⟩)

/-- The current run has come to rest, and the console has what belongs to it; `draining` says
whether the queue is worked off. -/
inductive Settles (c : Console) (draining : Bool) (s : Session) : Prop
  | waits {r : RunId} {run : Run} {g : Graph} {n : Node} {wait : Wait}
      (has : s.Has r draining [] run (some g)) (held : run.Held g n wait)
      (untimed : wait.timer = false) (recalls : c.Recalls r wait n) (houses : c.Houses run)
  | ended {r : RunId} {run : Run} (has : s.Has r draining [] run none)
      (past : run.isActive = false) (houses : c.Houses run)

/-- How the console and the session stand when nothing is under way. -/
inductive Agrees (c : Console) (s : Session) : Prop
  | unbegun (runs : s.runs = []) (current : s.current = none) (npcs : c.npcs = [])
  | begun (settles : c.Settles false s)

end Console

/-- Where a turn of a console comes to: nothing is under way, with or without a fault, or the
current run is about to visit a node. -/
inductive Turn.Halts (c : Console) : Turn → Prop
  | rests {s : Session} {result : Result} (agrees : c.Agrees s) : Halts c ⟨s, [], .done result⟩
  | fails {s : Session} {f : Fault} (agrees : c.Agrees s) (usual : f.isUsual) :
      Halts c ⟨s, [], .failed f⟩
  | visits {s : Session} {r : RunId} {run : Run} {g : Graph} {n : Node}
      (has : s.Has r true [] run (some g)) (going : run.Going g) (inGraph : g.node? n.id = some n)
      (houses : c.Houses run) :
      Halts c ⟨s, [.driving r, .draining], .work (.visit r n g)⟩

/-- Where the stopping of a run comes to. -/
inductive Turn.Quits (c : Console) : Turn → Prop
  | rests {s : Session} {result : Result} (settles : c.Settles false s) : Quits c ⟨s, [], .done result⟩

/-! ## From one node to the next -/

namespace Console

variable {c : Console} {run : Run}

theorem has_remove (npc id : String) :
    (c.remove npc).1.npcs.has id ↔ c.npcs.has id ∧ id ≠ npc := by
  unfold remove
  split
  · exact Entries.has_erase c.npcs npc id
  case isFalse absent =>
    refine (and_iff_left_of_imp fun there => ?_).symm
    rintro rfl
    exact absent there

theorem Houses.spawn (h : c.Houses run) (request : SpawnRequest) :
    (c.spawn request).1.Houses (run.addNpc request.npc) := fun id => by
  show (c.npcs.put request.npc request).has id ↔ id ∈ insertOnce request.npc run.npcs
  rw [Entries.has_put, mem_insertOnce, h id]

theorem Houses.remove (h : c.Houses run) (npc : String) :
    (c.remove npc).1.Houses (run.dropNpc npc) := fun id => by
  rw [has_remove, h id]
  simp [Run.dropNpc]

/-- An image is shown, or its duration is too large. -/
theorem present_image (c : Console) (card : ImageCard) :
    (c.present (.image card)).1 = c ∧ IsUsual (c.present (.image card)).2.2 := by
  unfold present
  dsimp only [cardText, imageText]
  cases hd : floatOf card.duration with
  | ok seconds => exact ⟨rfl, .ok ()⟩
  | error f => exact ⟨rfl, .error (.inr (floatOf_eq_error_iff.1 hd).1)⟩

theorem give_spec (c : Console) (item : String) (amount : Number) :
    (c.give item amount).1.npcs = c.npcs ∧ IsUsual (c.give item amount).2.2 := by
  have usual := inRange_usual ((c.held item).add? amount)
  unfold give
  cases total : inRange ((c.held item).add? amount) with
  | ok total => exact ⟨rfl, .ok ()⟩
  | error f => exact ⟨rfl, .error (usual f total)⟩

theorem take_spec (c : Console) (item : String) (amount : Number) :
    (c.take item amount).1.npcs = c.npcs ∧ IsUsual (c.take item amount).2.2 := by
  have usual := inRange_usual ((c.held item).sub? amount)
  unfold take
  split
  · exact ⟨rfl, .ok false⟩
  · cases rest : inRange ((c.held item).sub? amount) with
    | ok rest => exact ⟨rfl, .ok true⟩
    | error f => exact ⟨rfl, .error (usual f rest)⟩

end Console

/-! ### What the session does -/

namespace Session

variable {s : Session} {r : RunId} {run : Run} {g : Graph}

theorem drain_of_empty (pending : s.pending = []) :
    s.drain = .finished { s with draining := false } := by
  simp only [drain, pending]

theorem drain_of_job {job : Job} {rest : List (RunId × Job)} (pending : s.pending = (r, job) :: rest) :
    s.drain = (Move.work { s with pending := rest } (.drive r job)).under .draining := by
  simp only [drain, pending]

theorem drive_of_owns {job : Job} (owns : s.owns r) :
    s.drive r job = (Move.work s (taskOf r job)).under (.driving r) := if_pos owns

theorem proceed_next {node next : Node} (owns : s.owns r) (graph : s.graph = some g) :
    s.proceed r ⟨node, .next next⟩ = (Move.work s (.visit r next g)).under (.driving r) := by
  unfold proceed
  rw [if_pos owns]
  simp only [graph]

theorem proceed_last {node : Node} {action : Action} (owns : s.owns r) (last : ∀ m, action ≠ .next m) :
    s.proceed r ⟨node, action⟩ = (s.settle r ⟨node, action⟩).under (.driving r) := by
  unfold proceed
  rw [if_pos owns]
  cases action with
  | next m => exact absurd rfl (last m)
  | suspend | link | finish | terminal => rfl

end Session

namespace Turn.Comes

variable {Q : Console → Turn → Prop} {c : Console} {s : Session} {stack : List Frame} {r : RunId}
  {run : Run} {g : Graph} {graph : Option Graph} {draining : Bool}

/-! ### The end of a run -/

/-- All figures leave, one after the other. -/
theorem dismiss {npcs : List String}
    (h : ∀ c' : Console, ∀ files, (∀ id, c'.npcs.has id ↔ c.npcs.has id ∧ id ∉ npcs) →
      Comes Q c' ⟨(s.withFiles files).setRun r fun run => { run with npcs := [] }, stack,
        .done .done⟩) :
    Comes Q c ((s.dismiss r npcs).on stack) := by
  induction npcs generalizing c s with
  | nil => exact h c s.files fun id => by simp
  | cons npc rest ih =>
    refine reply rfl fun files => ih fun c' files left => h c' files fun id => ?_
    have gone : c'.npcs.has id ↔ (c.remove npc).1.npcs.has id ∧ id ∉ rest := left id
    rw [gone, Console.has_remove, List.mem_cons, not_or, and_assoc]

theorem announce {completion : Option Callback} {ledger : Ledger}
    (h : ∀ files, Comes Q c ⟨s.withFiles files, stack, .done .done⟩) :
    Comes Q c ((s.announce completion ledger).on stack) := by
  cases completion with
  | none => exact h s.files
  | some callback => exact reply rfl h

/-- **A run is closed**: if it is stopped, its figures leave. -/
theorem close (has : s.Has r draining [] run graph) (houses : c.Houses run) {phase : Phase}
    (past : phase.isActive = false)
    (h : ∀ (c' : Console) (s' : Session) (run' : Run), s'.Has r draining [] run' none →
      run'.isActive = false → c'.Houses run' → Comes Q c' ⟨s', stack, .done .done⟩) :
    Comes Q c ((s.close r phase).on stack) := by
  have has' := has.setRun (Run.ended phase)
  have has'' : (s.ended r phase).Has r draining [] (run.ended phase) none := by
    rw [s.ended_of_current r has.current]
    exact has'.of_eq rfl rfl has'.draining_eq has'.pending_eq rfl
  rw [Session.close_eq]
  split
  case isTrue stopped =>
    rw [Move.on_under]
    refine dismiss fun c' files left => receive (by simp) fun files' => announce fun files'' => ?_
    refine h c' _ _ ((((has''.withFiles files).setRun _).withFiles files').withFiles files'') past
      fun id => ?_
    rw [left id, houses id, has.run_eq]
    simp
  case isFalse => exact announce fun files => h c _ _ (has''.withFiles files) past houses

/-- **A run ends**, if no timer has to be cancelled. -/
theorem terminate (has : s.Has r draining [] run graph) (untimed : ∀ w ∈ run.wait, w.timer = false)
    (houses : c.Houses run) {phase : Phase} (past : phase.isActive = false)
    (h : ∀ (c' : Console) (s' : Session) (run' : Run), s'.Has r draining [] run' none →
      run'.isActive = false → c'.Houses run' → Comes Q c' ⟨s', stack, .done .done⟩) :
    Comes Q c ((s.terminate r phase).on stack) := by
  rw [Session.terminate, s.withoutTimer_of_untimed r (has.run_eq ▸ untimed)]
  exact close has houses past h

/-! ### Coming to rest -/

/-- The queue is empty once the current run has come to rest. -/
theorem drained {result : Result} (settles : c.Settles true s) :
    Comes Halts c ⟨s, [.draining], .done result⟩ := by
  refine receive (by simp) fun files => ?_
  have idle : (s.withFiles files).pending = [] ∧
      c.Settles false { s.withFiles files with draining := false } := by
    cases settles with
    | waits has held untimed recalls houses =>
      exact ⟨has.pending_eq, .waits (has.of_eq rfl rfl rfl has.pending_eq has.graph_eq) held untimed
        recalls houses⟩
    | ended has past houses =>
      exact ⟨has.pending_eq, .ended (has.of_eq rfl rfl rfl has.pending_eq has.graph_eq) past houses⟩
  rw [Frame.receive, Session.drain_of_empty idle.1]
  exact .here (.rests (.begun idle.2))

theorem settled (settles : ∀ files, c.Settles true (s.withFiles files)) :
    Comes Halts c ⟨s, [.driving r, .draining], .done .done⟩ :=
  receive (by simp) fun files => drained (settles files)

/-- **A fault** stops the run that is driven, and is left over. -/
theorem fault (has : s.Has r true [] run graph) (active : run.isActive)
    (untimed : ∀ w ∈ run.wait, w.timer = false) (houses : c.Houses run) {f : Fault}
    (usual : f.isUsual) : Comes Halts c ⟨s, [.driving r, .draining], .failed f⟩ := by
  refine recover (by simp) fun files => ?_
  have has' : Session.Has { s.withFiles files with lastError := some f } r true [] run graph :=
    has.of_eq rfl rfl has.draining_eq has.pending_eq has.graph_eq
  rw [Frame.recover, Sound.stopIfActive_of_active has' active, Move.on_under]
  refine work fun files => terminate (has'.withFiles files) untimed houses rfl
    fun c' s' run' has past houses => ?_
  refine receive (by simp) fun files => recover (by simp) fun files => ?_
  exact .here (.fails (.begun (.ended (has.of_eq rfl rfl rfl rfl has.graph_eq) past houses)) usual)

/-! ### The queue -/

theorem drive {job : Job} (has : s.Has r true [] run (some g)) (going : run.Going g)
    (h : ∀ s' : Session, s'.Has r true [] run (some g) →
      Comes Q c ⟨s', [.driving r, .draining], .work (Session.taskOf r job)⟩) :
    Comes Q c ⟨s, [.draining], .work (.drive r job)⟩ := by
  refine work fun files => ?_
  rw [Task.begin, Session.drive_of_owns ((has.withFiles files).owns going.isActive)]
  exact h _ (has.withFiles files)

/-- The only job is taken up. -/
theorem driven {job : Job} {result : Result} (has : s.Has r true [(r, job)] run (some g))
    (going : run.Going g)
    (h : ∀ s' : Session, s'.Has r true [] run (some g) →
      Comes Q c ⟨s', [.driving r, .draining], .work (Session.taskOf r job)⟩) :
    Comes Q c ⟨s, [.draining], .done result⟩ := by
  refine receive (by simp) fun files => ?_
  rw [Frame.receive, Session.drain_of_job (has.withFiles files).pending_eq, Move.on_under]
  exact drive (has.of_eq rfl rfl has.draining_eq rfl has.graph_eq) going h

/-- A graph is entered. -/
theorem entered {result : Result} (has : s.Has r true [(r, .enter g)] run (some g))
    (going : run.Going g) (whole : g.IsWhole) (houses : c.Houses run) :
    Comes Halts c ⟨s, [.draining], .done result⟩ :=
  driven has going fun _ has' => .here (.visits has' going whole houses)

/-! ### Steps -/

/-- After a step that leads to no other node, the run is settled. -/
theorem stepped {node : Node} {action : Action} (has : s.Has r true [] run (some g))
    (going : run.Going g) (last : ∀ m, action ≠ .next m)
    (h : ∀ files, Comes Q c (((s.withFiles files).settle r ⟨node, action⟩).on
      [.driving r, .draining])) :
    Comes Q c ⟨s, [.driving r, .draining], .done (.stepped ⟨node, action⟩)⟩ := by
  refine receive (by simp) fun files => ?_
  have owns := (has.withFiles files).owns going.isActive
  rw [Frame.receive, Session.proceed_last owns last, Move.on_under]
  exact h files

/-- A path ends. -/
theorem ended (has : s.Has r true [] run (some g)) (going : run.Going g) (houses : c.Houses run)
    {phase : Phase} (past : phase.isActive = false) :
    Comes Halts c ((s.terminate r phase).on [.driving r, .draining]) :=
  terminate has (by simp [going.wait]) houses past fun _ _ _ has past houses =>
    settled fun files => .ended (has.withFiles files) past houses

/-- **Taking an output** leads to the visit of another node, or the run ends. -/
theorem follow (has : s.Has r true [] run (some g)) (going : run.Going g) (houses : c.Houses run)
    (node : Node) (output : Int) :
    Comes Halts c ((s.follow r node output g).on [.driving r, .draining]) := by
  have has' := has.setRun fun run => { run with activity := .advancing }
  have going' : Run.Going { run with activity := .advancing } g :=
    ⟨going.phase, going.wait, going.script⟩
  simp only [Session.follow]
  split
  case h_1 next found =>
    refine receive (by simp) fun files => ?_
    have has'' := has'.withFiles files
    have here : ((Move.stepped (s.setRun r fun run => { run with activity := .advancing }) node
      (.next next)).session.withFiles files).proceed r ⟨node, .next next⟩ = _ :=
      Session.proceed_next (has''.owns going'.isActive) has''.graph_eq
    rw [Frame.receive, here]
    exact .here (.visits has'' going' (Graph.node?_of_follow? found) houses)
  case h_2 =>
    refine stepped has' going' (by simp) fun files => ended (has'.withFiles files) going' houses ?_
    unfold Session.phaseAfter
    split <;> rfl

/-- Warnings are reported. -/
theorem report {warnings : List Warning} (has : s.Has r draining [] run graph) (houses : c.Houses run)
    (h : ∀ (c' : Console) (s' : Session) (ws : List Warning),
      s'.Has r draining [] { run with warnings := ws } graph → c'.Houses { run with warnings := ws } →
      Comes Q c' ⟨s', stack, .done .done⟩) :
    Comes Q c ((s.report r warnings).on stack) := by
  induction warnings generalizing c s run with
  | nil => exact h c s run.warnings has houses
  | cons w rest ih =>
    exact reply rfl fun files => ih ((has.setRun (·.warn w)).withFiles files) houses h

/-! ### Scenes -/

/-- The console starts no timer. -/
theorem timed {w : WaitId} {seconds : Number} (waiting : (s.run r).isWaitingOn w)
    (settles : ∀ files, c.Settles true (s.withFiles files)) :
    Comes Halts c ((Frame.receive s (.timing r w seconds) .done).on [.driving r, .draining]) := by
  rw [Frame.receive, if_pos waiting]
  exact reply rfl fun files => receive (by simp) fun files' => drained (settles files')

/-- **Coming to rest at a scene**: the console remembers what is waited for.  Only an image can fail
to be shown. -/
theorem pause {n : Node} {scene : Scene} (has : s.Has r true [] run (some g)) (going : run.Going g)
    (arrived : run.Arrived g n) (given : n.scene? = some scene) (houses : c.Houses run) :
    Comes Halts c ((s.pause r n scene).on [.driving r, .draining]) := by
  obtain ⟨run', has', held⟩ := Session.suspend_held has going arrived (Session.waitKind?_of_scene? given)
  have npcs : run'.npcs = run.npcs := by
    have suspended : (s.suspend r scene.kind n.id).figures = s.figures :=
      Session.figures_setRun fun _ => rfl
    have same := congrFun suspended r
    rwa [Session.figures, Session.figures, has'.run_eq, has.run_eq] at same
  have houses' : c.Houses run' := fun id => by rw [npcs, houses id]
  have untimed : ∀ w ∈ run'.wait, w.timer = false := by simp [held.waits]
  unfold Node.scene? at given
  split at given <;> cases given
  case h_1 d body =>
    exact reply rfl fun files => settled fun files' =>
      .waits ((has'.withFiles files).withFiles files') held rfl (.dialogue body) houses'
  case h_2 choice body =>
    exact reply rfl fun files => settled fun files' =>
      .waits ((has'.withFiles files).withFiles files') held rfl (.choice body rfl) houses'
  case h_3 i body =>
    obtain ⟨same, usual⟩ := c.present_image ⟨n.id, i.path, i.duration⟩
    cases shown : (c.present (.image ⟨n.id, i.path, i.duration⟩)).2.2 with
    | error f =>
      refine fail shown fun files => recover (by simp) fun files' => ?_
      rw [Ask.call, Console.answer, same]
      exact fault ((has'.withFiles files).withFiles files') held.isActive untimed houses' (usual f shown)
    | ok =>
      refine reply shown fun files => receive (by simp) fun files' => ?_
      rw [Ask.call, Console.answer, same]
      have has'' := (has'.withFiles files).withFiles files'
      refine timed ?_ fun files' => .waits (has''.withFiles files') held rfl (.image body) houses'
      exact (congrArg (·.isWaitingOn s.nextWait) has''.run_eq).trans
        ((held.isWaitingOn s.nextWait).trans (beq_self_eq_true _))
  case h_4 opponent body =>
    exact reply rfl fun files => settled fun files' =>
      .waits ((has'.withFiles files).withFiles files') held rfl (.combat body rfl) houses'

/-! ### Links -/

/-- The target of a link is entered. -/
theorem install (has : s.Has r true [] run graph) (free : run.wait = none) (whole : g.IsWhole)
    (houses : c.Houses run) : Comes Halts c ((s.install r g).on [.driving r, .draining]) := by
  have has' := has.setRun (Run.moved g)
  have has'' : Session.Has { s.setRun r (Run.moved g) with graph := some g } r true [] _ (some g) :=
    has'.of_eq rfl rfl has'.draining_eq has'.pending_eq rfl
  obtain ⟨s', queued, has', -⟩ := Session.enqueue_draining has'' (.enter g)
  rw [Session.install_eq, queued]
  exact receive (by simp) fun files => entered (has'.withFiles files) ⟨rfl, free, rfl⟩ whole houses

/-- **A link** leads to the entry of its target, or the run is stopped. -/
theorem loadTarget (has : s.Has r true [] run (some g)) (going : run.Going g) (houses : c.Houses run)
    (link : Link) : Comes Halts c ((s.loadTarget r link).on [.driving r, .draining]) := by
  have usual := Library.load_usual s.files s.library link.target
  have untimed : ∀ w ∈ run.wait, w.timer = false := by simp [going.wait]
  unfold Session.loadTarget
  cases loaded : Library.load s.files s.library link.target with
  | ok target =>
    have whole := Graph.isWhole_of_load loaded
    dsimp only
    split
    · exact reply rfl fun files => install (has.withFiles files) going.wait (whole.fill _) houses
    · exact install has going.wait whole houses
  | error f =>
    cases f with
    | data d => exact fault has going.isActive untimed houses (.inl rfl)
    | _ => exact fault has going.isActive untimed houses (usual _ loaded)

theorem transfer (has : s.Has r true [] run (some g)) (going : run.Going g) (houses : c.Houses run)
    (node : String) (link : Link) :
    Comes Halts c ((s.transfer r node link).on [.driving r, .draining]) := by
  unfold Session.transfer
  split
  · exact loadTarget has going houses link
  · have going' : Run.Going { run with completion := none } g := ⟨going.phase, going.wait, going.script⟩
    exact reply rfl fun files =>
      loadTarget ((has.setRun fun run => { run with completion := none }).withFiles files) going'
        houses link

/-! ### Visits -/

section Visits

variable (has : s.Has r true [] run (some g)) (going : run.Going g) (houses : c.Houses run)
include has going houses

/-- An output is taken after items have changed hands. -/
theorem following {n : Node} {output : Int} {result : Result} :
    Comes Halts c ⟨s, [.following r n output g, .driving r, .draining], .done result⟩ :=
  receive (by simp) fun files => follow (has.withFiles files) going houses n output

theorem unfollowed {n : Node} {output : Int} {f : Fault} (usual : f.isUsual) :
    Comes Halts c ⟨s, [.following r n output g, .driving r, .draining], .failed f⟩ :=
  recover (by simp) fun files =>
    fault (has.withFiles files) going.isActive (by simp [going.wait]) houses usual

/-- An output is taken after warnings. -/
theorem warned {n : Node} {output : Int} (warnings : List Warning) :
    Comes Halts c ((s.report r warnings).on [.following r n output g, .driving r, .draining]) :=
  report has houses fun _ _ _ has' houses' =>
    following has' ⟨going.phase, going.wait, going.script⟩ houses'

theorem applyItem (n : Node) (i : ItemChange) (output : Int) :
    Comes Halts c ((s.applyItem r n.id i).on [.following r n output g, .driving r, .draining]) := by
  have taking : Comes Halts c ⟨s, [.following r n output g, .driving r, .draining],
      .ask (.take r n.id i.item i.amount)⟩ := by
    obtain ⟨npcs, usual⟩ := c.take_spec i.item i.amount
    have houses' : (c.take i.item i.amount).1.Houses run := fun id => by rw [npcs, houses id]
    cases taken : (c.take i.item i.amount).2.2 with
    | error f =>
      exact fail taken fun files => unfollowed (has.withFiles files) going houses' (usual f taken)
    | ok enough =>
      refine reply taken fun files => ?_
      cases enough with
      | true => exact following (has.withFiles files) going houses'
      | false => exact warned (has.withFiles files) going houses' [.shortfall n.id i.item i.amount]
  unfold Session.applyItem
  cases i.action with
  | give =>
    obtain ⟨npcs, usual⟩ := c.give_spec i.item i.amount
    have houses' : (c.give i.item i.amount).1.Houses run := fun id => by rw [npcs, houses id]
    cases given : (c.give i.item i.amount).2.2 with
    | error f =>
      exact fail given fun files => unfollowed (has.withFiles files) going houses' (usual f given)
    | ok => exact reply given fun files => following (has.withFiles files) going houses'
  | take => exact taking
  | other => exact taking

theorem triggered {n : Node} {result : Result} :
    Comes Halts c ⟨s, [.triggering r n g, .driving r, .draining], .done result⟩ :=
  receive (by simp) fun files => follow (has.withFiles files) going houses n _

/-- An event that is not known is reported; any other fault stops the run. -/
theorem misfired {n : Node} {f : Fault} (usual : f.isUsual) :
    Comes Halts c ⟨s, [.triggering r n g, .driving r, .draining], .failed f⟩ := by
  refine recover (by simp) fun files => ?_
  cases f with
  | unknownEvent event =>
    rw [Frame.recover, Move.on_under]
    exact warned (has.withFiles files) going houses _
  | _ => exact fault (has.withFiles files) going.isActive (by simp [going.wait]) houses usual

theorem dispatch (n : Node) (t : Trigger) :
    Comes Halts c ((s.dispatch r t).on [.triggering r n g, .driving r, .draining]) := by
  have usual := Effect.ofTrigger_usual t
  unfold Session.dispatch
  cases read : Effect.ofTrigger t with
  | error f => exact misfired has going houses (usual f read)
  | ok effect =>
    cases effect with
    | world event => exact reply rfl fun files => triggered (has.withFiles files) going houses
    | spawn request =>
      exact reply rfl fun files => triggered ((has.withFiles files).setRun (·.addNpc request.npc))
        ⟨going.phase, going.wait, going.script⟩ (houses.spawn request)
    | remove npc =>
      exact reply rfl fun files => triggered ((has.withFiles files).setRun (·.dropNpc npc))
        ⟨going.phase, going.wait, going.script⟩ (houses.remove npc)
    | setFlag name value =>
      have usual := (s.flags.set_reported s.files name value).usual
      simp only [Session.perform]
      split
      · exact triggered has.change going houses
      case h_2 f stored =>
        rw [stored] at usual
        exact misfired has.change going houses (usual f rfl)

theorem check (n : Node) (condition : Condition) :
    Comes Halts c ((s.check r n condition g).on [.driving r, .draining]) := by
  unfold Session.check
  cases condition.check with
  | hasFlag => exact follow has going houses n _
  | hasItem | other => exact reply rfl fun files => follow (has.withFiles files) going houses n _

/-- **From one node to the next**: after the visit of a node another one is visited, or the console
and the session agree. -/
theorem visit {n : Node} (inGraph : g.node? n.id = some n) :
    Comes Halts c ((s.visit r n g).on [.driving r, .draining]) := by
  have has' := has.setRun fun run =>
    { run.count n.kind.word with node := some n.id, activity := .running }
  have going' : Run.Going { run.count n.kind.word with node := some n.id, activity := .running } g :=
    ⟨going.phase, going.wait, going.script⟩
  have arrived : Run.Arrived { run.count n.kind.word with node := some n.id, activity := .running }
      g n := ⟨rfl, inGraph⟩
  simp only [Session.visit]
  have told {scene : Scene} (given : n.scene? = some scene) (warnings : List Warning) :
      Comes Halts c (((s.setRun r fun run =>
        { run.count n.kind.word with node := some n.id, activity := .running }).report r
          warnings).on [.stepping ⟨n, .suspend scene⟩, .driving r, .draining]) := by
    refine report has' houses fun c' s' ws has'' houses' => receive (by simp) fun files => ?_
    have going'' : Run.Going { run.count n.kind.word with
        node := some n.id, activity := .running, warnings := ws } g :=
      ⟨going.phase, going.wait, going.script⟩
    exact stepped (has''.withFiles files) going'' (by simp) fun files' =>
      pause ((has''.withFiles files).withFiles files') going'' ⟨rfl, inGraph⟩ given houses'
  cases body : n.body with
  | dialogue d =>
    rw [Move.on_under]
    exact told (by simp [Node.scene?, body]) _
  | choice choice =>
    rw [Move.on_under]
    exact told (by simp [Node.scene?, body]) _
  | image i =>
    exact stepped has' going' (by simp) fun files =>
      pause (has'.withFiles files) going' arrived (by simp [Node.scene?, body]) houses
  | combat opponent =>
    exact stepped has' going' (by simp) fun files =>
      pause (has'.withFiles files) going' arrived (by simp [Node.scene?, body]) houses
  | item i =>
    rw [Move.on_under]
    exact applyItem has' going' houses n i _
  | trigger t =>
    rw [Move.on_under]
    exact dispatch has' going' houses n t
  | condition condition => exact check has' going' houses n condition
  | link l =>
    exact stepped has' going' (by simp) fun files =>
      transfer (has'.withFiles files) going' houses n.id l
  | ending =>
    exact stepped has' going' (by simp) fun files => ended (has'.withFiles files) going' houses rfl

end Visits

/-! ### The first node -/

section Start

variable {files : FileTree} {library : Path} {flags : FlagStore}

theorem idle_fresh : Session.Idle none (Session.fresh files library flags) where
  runs _ hq := by cases hq
  current _ h := by cases h
  draining := rfl
  pending := rfl
  walk _ hv := absurd hv (Option.not_mem_none _)

theorem startGraph (empty : c.npcs = []) (whole : g.IsWhole) (completion : Option Callback) :
    Comes Halts c (((Session.fresh files library flags).startGraph g completion).on []) := by
  have added := (idle_fresh : Session.Idle none (.fresh files library flags)).has_addRun
    { script := g.id, completion } g
  obtain ⟨s', queued, has⟩ := Session.enqueue_resting added (.enter g)
  have starts : (Session.fresh files library flags).startGraph g completion =
      (Move.finished s').under .draining := by
    rw [idle_fresh.isIdle.startGraph_eq]
    exact queued
  rw [starts, Move.on_under]
  exact entered has ⟨rfl, rfl, rfl⟩ whole fun id => by simp [empty, Entries.has]

theorem start (empty : c.npcs = []) (script : String) (completion : Option Callback) :
    Comes Halts c (((Session.fresh files library flags).start script completion).on []) := by
  have usual := Library.load_usual files library script
  rw [Session.start, idle_fresh.isIdle.ensureIdle_eq]
  cases loaded : Library.load (Session.fresh files library flags).files
      (Session.fresh files library flags).library script with
  | ok graph => exact startGraph empty (Graph.isWhole_of_load loaded) completion
  | error f =>
    cases f with
    | data d =>
      exact receive (by simp) fun files => .here (.fails (.unbegun rfl rfl empty) (.inl rfl))
    | _ => exact .here (.fails (.unbegun rfl rfl empty) (usual _ loaded))

end Start

/-! ### After a line -/

section Answers

variable {n : Node} {wait : Wait} (has : s.Has r false [] run (some g)) (held : run.Held g n wait)
  (untimed : wait.timer = false) (houses : c.Houses run)
include has held untimed houses

theorem clear {job : Job}
    (h : ∀ (s' : Session) (run' : Run), s'.Has r true [] run' (some g) → run'.Going g →
      c.Houses run' → Comes Q c ⟨s', [.driving r, .draining], .work (Session.taskOf r job)⟩) :
    Comes Q c ((s.clear r job).on []) := by
  have has' := has.setRun fun run => { run with wait := none, phase := .running, activity := .running }
  have going : Run.Going { run with wait := none, phase := .running, activity := .running } g :=
    ⟨rfl, rfl, held.script⟩
  obtain ⟨s', queued, has''⟩ := Session.enqueue_resting has' job
  rw [Session.clear_eq_resume has held untimed, Session.resume, queued, Move.on_under]
  exact driven has'' going fun s' has => h s' _ has going houses

/-- The player goes on. -/
theorem advance {answer : Value} (player : wait.kind.isForPlayer)
    (given : wait.kind = .choice → answer ≠ .null)
    (h : ∀ (s' : Session) (run' : Run), s'.Has r true [] run' (some g) → run'.Going g →
      c.Houses run' → Comes Q c ⟨s', [.driving r, .draining], .work (.respond r n g answer)⟩) :
    Comes Q c ⟨s, [], .work (.entry (.advance answer))⟩ := by
  refine work fun files => ?_
  have has' := has.withFiles files
  have clears : (s.withFiles files).advance answer = (s.withFiles files).clear r (.respond n g answer) := by
    simp only [Session.advance, has'.current, has'.run_eq, held.phase, held.waits]
    rw [if_neg (by simp [player]), if_neg fun h => given h.1 h.2]
    exact Session.resumeInput_eq has' held answer
  rw [Task.begin, Session.enter, clears]
  exact clear has' held untimed houses h

/-- The battle that is waited for is over. -/
theorem battleOver {outcome : Value} (known : outcome = .string "victory" ∨ outcome = .string "defeat") :
    Comes Halts c ⟨s, [], .work (.entry (.battleOver ⟨r, wait.id, n⟩ outcome))⟩ := by
  refine work fun files => ?_
  have has' := has.withFiles files
  have clears : (s.withFiles files).battleOver ⟨r, wait.id, n⟩ outcome =
      (s.withFiles files).clear r (.resolve n g outcome) := by
    rw [Session.battleOver, if_pos ((Session.isWaiting_iff has' held r wait.id).2 ⟨rfl, rfl⟩)]
    simp only [has'.graph_eq]
  rw [Task.begin, Session.enter, clears]
  refine clear has' held untimed houses fun s' run' has going houses => work fun files => ?_
  rcases known with rfl | rfl
  · exact follow (has.withFiles files) going houses n _
  · exact follow (has.withFiles files) going houses n _

/-- The run is stopped. -/
theorem stop : Comes Quits c ⟨s, [], .work (.entry .stop)⟩ := by
  refine work fun files => ?_
  have has' := has.withFiles files
  have ends : (s.withFiles files).stop = (s.withFiles files).terminate r .stopped := by
    simp only [Session.stop, has'.current, has'.run_eq]
    exact if_neg (by simp [held.phase])
  rw [Task.begin, Session.enter, ends]
  refine terminate has' (by simp [held.waits, untimed]) houses rfl fun c' s' run' has past houses => ?_
  exact .here (.rests (.ended has past houses))

end Answers

end Turn.Comes

/-! ## Lines -/

namespace Prompt

variable {l : String} {v : Value}

theorem readOption_answer {count : Nat} (h : readOption count l = .answer v) :
    ∃ i : Nat, i < count ∧ v = .int i := by
  unfold readOption at h
  dsimp only at h
  split at h
  · split at h
    · cases h
    case h_2 k _ =>
      split at h
      case isTrue range =>
        cases h
        exact ⟨k - 1, by omega, rfl⟩
      case isFalse => cases h
  · cases h

theorem readOutcome_answer (h : readOutcome l = .answer v) :
    v = .string "victory" ∨ v = .string "defeat" := by
  unfold readOutcome at h
  split at h
  · cases h
    exact .inl rfl
  · split at h
    · cases h
      exact .inr rfl
    · cases h

/-- A line with a number that is none is the only one to fail. -/
theorem read_failed {p : Prompt} {f : Fault} (h : p.read l = .failed f) : f.isReported := by
  cases p with
  | proceed => cases h
  | option count =>
    simp only [read, readOption] at h
    split at h
    · split at h
      · cases h
        rfl
      · split at h <;> cases h
    · cases h
  | outcome =>
    simp only [read, readOutcome] at h
    split at h
    · cases h
    · split at h <;> cases h

end Prompt

/-! ## Games -/

/-- What the player is asked for at a node. -/
def Node.prompt (n : Node) : Prompt :=
  match n.body with
  | .choice choice => .option choice.options.length
  | .combat _ => .outcome
  | _ => .proceed

/-- The player is asked for what the current run waits for. -/
inductive Console.Awaits (c : Console) (s : Session) : Prompt → Prop
  | intro {r : RunId} {run : Run} {g : Graph} {n : Node} {wait : Wait}
      (has : s.Has r false [] run (some g)) (held : run.Held g n wait)
      (untimed : wait.timer = false) (recalls : c.Recalls r wait n) (houses : c.Houses run) :
      Awaits c s n.prompt

/-- A game goes as it should: whatever is under way comes to an end or to another node, the player
is asked for what is waited for, and the program ends with a code of its own unless an integer is too
large. -/
inductive Game.Fair : Game → Prop
  | turn {c : Console} {t : Turn} (comes : Turn.Comes Turn.Halts c t) : Fair ⟨c, .turn t⟩
  | prompt {c : Console} {s : Session} {p : Prompt} (awaits : c.Awaits s p) : Fair ⟨c, .prompt s p⟩
  | stopping {c : Console} {t : Turn} (comes : Turn.Comes Turn.Quits c t) : Fair ⟨c, .stopping t⟩
  | ended {c : Console} {files : FileTree} {code : Nat} (known : code ∈ [0, 1, 130]) :
      Fair ⟨c, .over files code⟩
  | crashed {c : Console} {files : FileTree} : Fair ⟨c, .crashed files .tooLarge⟩

/-! ### Files that change -/

section Change

variable {c : Console} {s : Session} {t : Turn} {Q : Console → Turn → Prop}

theorem Console.Settles.withFiles {draining : Bool} (h : c.Settles draining s) (files : FileTree) :
    c.Settles draining (s.withFiles files) := by
  cases h with
  | waits has held untimed recalls houses =>
    exact .waits (has.withFiles files) held untimed recalls houses
  | ended has past houses => exact .ended (has.withFiles files) past houses

theorem Console.Agrees.withFiles (h : c.Agrees s) (files : FileTree) : c.Agrees (s.withFiles files) := by
  cases h with
  | unbegun runs current npcs => exact .unbegun runs current npcs
  | begun settles => exact .begun (settles.withFiles files)

theorem Turn.Halts.withFiles (h : t.Halts c) (files : FileTree) : (t.withFiles files).Halts c := by
  cases h with
  | rests agrees => exact .rests (agrees.withFiles files)
  | fails agrees usual => exact .fails (agrees.withFiles files) usual
  | visits has going inGraph houses => exact .visits (has.withFiles files) going inGraph houses

theorem Turn.Quits.withFiles (h : t.Quits c) (files : FileTree) : (t.withFiles files).Quits c := by
  cases h with
  | rests settles => exact .rests (settles.withFiles files)

theorem Turn.Comes.withFiles (stable : ∀ c t, Q c t → ∀ files, Q c (t.withFiles files))
    (h : Turn.Comes Q c t) (files : FileTree) : Turn.Comes Q c (t.withFiles files) := by
  cases h with
  | here holds => exact .here (stable c t holds files)
  | move goes h => exact .move goes h
  | ask h => exact .ask h

end Change

/-! ### A step -/

section Current

variable {s : Session} {r : RunId} {draining : Bool} {pending : List (RunId × Job)} {run : Run}
  {graph : Option Graph}

theorem Session.Has.phase_eq (h : s.Has r draining pending run graph) : s.phase = run.phase := by
  simp [Session.phase, Session.currentRun?, h.current, h.run_eq]

theorem Session.Has.waitingFor?_eq (h : s.Has r draining pending run graph) :
    s.waitingFor? = run.wait.map (·.kind) := by
  simp [Session.waitingFor?, Session.currentRun?, h.current, h.run_eq]

end Current

namespace Game

variable {g g' : Game} {shown : String} {c : Console} {s : Session}

theorem rest_of_awaits {p : Prompt} (h : c.Awaits s p) : rest c s = ask c s p := by
  cases h with
  | @intro r run graph n wait has held untimed recalls houses =>
    have waiting : s.waitingFor? = some wait.kind := by simp [has.waitingFor?_eq, held.waits]
    have kind := held.kind
    simp only [rest, if_pos (has.phase_eq.trans held.phase), waiting]
    cases recalls with
    | dialogue body =>
      simp only [Node.waitKind?, body, Option.some.injEq] at kind
      simp only [← kind, Node.prompt, body]
    | choice body last =>
      simp only [Node.waitKind?, body, Option.some.injEq] at kind
      simp only [← kind, Node.prompt, body, last, Option.map_some, Option.getD_some]
    | image body =>
      simp only [Node.waitKind?, body, Option.some.injEq] at kind
      simp only [← kind, Node.prompt, body]
    | combat body battle =>
      simp only [Node.waitKind?, body, Option.some.injEq] at kind
      simp only [← kind, Node.prompt, body]

/-- The player is asked for what is waited for, or the game is over. -/
theorem rest_cases (agrees : c.Agrees s) :
    (∃ p, c.Awaits s p ∧ rest c s = ask c s p) ∨ (rest c s).1 = ⟨c, .over s.files 0⟩ := by
  have ends (past : s.phase ≠ .suspended) : (rest c s).1 = ⟨c, .over s.files 0⟩ := by
    rw [rest, if_neg past]
  cases agrees with
  | unbegun runs current npcs => exact .inr (ends (by simp [Session.phase, Session.currentRun?, current]))
  | begun settles =>
    cases settles with
    | waits has held untimed recalls houses =>
      have awaits : c.Awaits s _ := .intro has held untimed recalls houses
      exact .inl ⟨_, awaits, rest_of_awaits awaits⟩
    | ended has past houses =>
      refine .inr (ends fun suspended => ?_)
      rw [Run.isActive, ← has.phase_eq, suspended] at past
      cases past

theorem next?_turn {t u : Turn} (ht : t.next? = some u) :
    next? ⟨c, .turn t⟩ = some (⟨c, .turn u⟩, "") := by
  simp only [next?, ht]

theorem next?_stopping {t u : Turn} (ht : t.next? = some u) :
    next? ⟨c, .stopping t⟩ = some (⟨c, .stopping u⟩, "") := by
  simp only [next?, ht]

namespace Fair

theorem rest (agrees : c.Agrees s) : (rest c s).1.Fair := by
  rcases rest_cases agrees with ⟨p, awaits, asked⟩ | closed
  · rw [asked]
    exact .prompt awaits
  · rw [closed]
    exact .ended (by simp)

theorem failed {f : Fault} (usual : f.isUsual) (files : FileTree) : (failed c files f).1.Fair := by
  unfold Game.failed
  split
  · exact .ended (by simp)
  case isFalse hidden =>
    obtain rfl : f = .tooLarge := usual.resolve_left hidden
    exact .crashed

/-- **A step of a game** is fair. -/
theorem next (h : g.Fair) (hn : g.next? = some (g', shown)) : g'.Fair := by
  cases h with
  | @turn c t comes =>
    cases comes with
    | here holds =>
      cases holds with
      | rests agrees =>
        obtain rfl : (Game.rest _ _).1 = g' := congrArg Prod.fst (Option.some.inj hn)
        exact rest agrees
      | fails agrees usual =>
        obtain rfl : (Game.failed _ _ _).1 = g' := congrArg Prod.fst (Option.some.inj hn)
        exact failed usual _
      | visits has going inGraph houses =>
        cases hn
        exact .turn (.visit has going houses inGraph)
    | move goes h =>
      cases (next?_turn (goes t.session.files)).symm.trans hn
      exact .turn (h _)
    | @ask _ s stack a h =>
      cases hn
      exact .turn (h s.files)
  | @stopping c t comes =>
    cases comes with
    | here holds =>
      cases holds with
      | rests settles =>
        cases hn
        exact .ended (by simp)
    | move goes h =>
      cases (next?_stopping (goes t.session.files)).symm.trans hn
      exact .stopping (h _)
    | @ask _ s stack a h =>
      cases hn
      exact .stopping (h s.files)
  | prompt | ended | crashed => cases hn

theorem withFiles (h : g.Fair) (files : FileTree) : (g.withFiles files).Fair := by
  cases h with
  | turn comes => exact .turn (comes.withFiles (fun _ _ => Turn.Halts.withFiles) files)
  | stopping comes => exact .stopping (comes.withFiles (fun _ _ => Turn.Quits.withFiles) files)
  | prompt awaits =>
    cases awaits with
    | intro has held untimed recalls houses =>
      exact .prompt (.intro (has.withFiles files) held untimed recalls houses)
  | ended known => exact .ended known
  | crashed => exact .crashed

/-- **An answer** is taken up by what is waited for. -/
theorem take {p : Prompt} (awaits : c.Awaits s p) {l : String} {v : Value} (read : p.read l = .answer v) :
    (take c s p v).1.Fair := by
  cases awaits with
  | @intro r run graph n wait has held untimed recalls houses =>
    have kind := held.kind
    have goesOn {kind : WaitKind} (hk : wait.kind = kind) (player : kind.isForPlayer)
        (plain : kind ≠ .choice) (single : ∀ s' : Session,
          s'.respond r n graph .null = s'.follow r n Session.firstOutput graph) :
        (begin c s (.advance .null)).Fair :=
      .turn (.advance has held untimed houses (hk ▸ player) (fun h => absurd (hk ▸ h) plain)
        fun s' run' has going houses => .work fun files => by
          rw [Task.begin, single]
          exact .follow (has.withFiles files) going houses n _)
    cases recalls with
    | dialogue body =>
      simp only [Node.waitKind?, body, Option.some.injEq] at kind
      simp only [Node.prompt, body] at read ⊢
      cases read
      exact goesOn kind.symm rfl (by simp) fun s' => by simp only [Session.respond, body]
    | image body =>
      simp only [Node.waitKind?, body, Option.some.injEq] at kind
      simp only [Node.prompt, body] at read ⊢
      cases read
      exact goesOn kind.symm rfl (by simp) fun s' => by simp only [Session.respond, body]
    | @choice choice body last =>
      simp only [Node.waitKind?, body, Option.some.injEq] at kind
      simp only [Node.prompt, body] at read ⊢
      obtain ⟨i, lt, rfl⟩ := Prompt.readOption_answer read
      refine .turn (.advance has held untimed houses (kind ▸ rfl) (fun _ => by simp)
        fun s' run' has going houses => .work fun files => ?_)
      have picked : Session.pick? choice.options.length (.int i) = some (.option i) := by
        simp [Session.pick?, lt]
      have responds : (s'.withFiles files).respond r n graph (.int i) =
          ((s'.withFiles files).setRun r fun run =>
            { run with ledger := run.ledger.put n.id (.option i) }).follow r n i graph := by
        simp only [Session.respond, body, picked]
      rw [Task.begin, responds]
      exact .follow ((has.withFiles files).setRun _) ⟨going.phase, going.wait, going.script⟩ houses n _
    | combat body battle =>
      simp only [Node.prompt, body] at read ⊢
      simp only [Game.take, Console.endBattle, battle]
      have houses' : Console.Houses { c with opponent := none, battle := none } run := houses
      exact .turn (.battleOver has held untimed houses' (Prompt.readOutcome_answer read))

/-- **A line** keeps a game fair. -/
theorem line (h : g.Fair) (l : Option String) : (g.line l).1.Fair := by
  cases h with
  | @prompt c s p awaits =>
    cases l with
    | none =>
      cases awaits with
      | intro has held untimed recalls houses => exact .stopping (.stop has held untimed houses)
    | some l =>
      unfold Game.line
      dsimp only
      split
      case h_1 v read => exact take awaits read
      case h_2 => exact .prompt awaits
      case h_3 f read => exact failed (.inl (Prompt.read_failed read)) s.files
  | turn comes => exact .turn comes
  | stopping comes => exact .stopping comes
  | ended known => exact .ended known
  | crashed => exact .crashed

end Fair

end Game

/-! ## What the console knows -/

namespace Game

/-- One game goes on to another: by itself, with a line, or because files change. -/
inductive Steps : Game → Game → Prop
  | next {g g' : Game} {shown : String} (h : g.next? = some (g', shown)) : Steps g g'
  | line (g : Game) (l : Option String) : Steps g (g.line l).1
  | change (g : Game) (files : FileTree) : Steps g (g.withFiles files)

/-- The games that a game can go on to. -/
abbrev Reaches : Game → Game → Prop := Relation.ReflTransGen Steps

/-- A game begins at a console without figures, with the start of a script or of a graph that is
whole. -/
inductive Opens : Game → Prop
  | start {c : Console} {files : FileTree} {library : Path} {flags : FlagStore} {script : String}
      {completion : Option Callback} (empty : c.npcs = []) :
      Opens (begin c (.fresh files library flags) (.start script completion))
  | startGraph {c : Console} {files : FileTree} {library : Path} {flags : FlagStore} {graph : Graph}
      {completion : Option Callback} (empty : c.npcs = []) (whole : graph.IsWhole) :
      Opens (begin c (.fresh files library flags) (.startGraph graph completion))

/-- Nothing is under way in the session `s` of a game. -/
inductive Rests : Game → Session → Prop
  | turn {c : Console} {t : Turn} (back : t.IsBack []) : Rests ⟨c, .turn t⟩ t.session
  | stopping {c : Console} {t : Turn} (back : t.IsBack []) : Rests ⟨c, .stopping t⟩ t.session
  | prompt {c : Console} {s : Session} {p : Prompt} : Rests ⟨c, .prompt s p⟩ s

/-- The game is about to ask for a line for the session `s` or to end, or it has asked. -/
inductive Heads : Game → Session → Prop
  | turn {c : Console} {s : Session} {result : Result} : Heads ⟨c, .turn ⟨s, [], .done result⟩⟩ s
  | prompt {c : Console} {s : Session} {p : Prompt} : Heads ⟨c, .prompt s p⟩ s

end Game

/-- The last choice that was shown is that of the node where the current run stands, and the number
that a line stands for is that of one of its options. -/
inductive Console.Offers (c : Console) (s : Session) : Prop
  | intro {r : RunId} {g : Graph} {n : Node} {choice : Choice} (current : s.current = some r)
      (graph : s.graph = some g) (node : (s.run r).node = some n.id) (inGraph : g.node? n.id = some n)
      (body : n.body = .choice choice)
      (last : c.lastChoice = some ⟨n.id, choice.question, choice.options⟩)
      (asked : Game.rest c s = Game.ask c s (.option choice.options.length))
      (inRange : ∀ l v, (Prompt.option choice.options.length).read l = .answer v →
        ∃ i : Nat, i < choice.options.length ∧ v = .int i)

/-- The battle that is pending is the one that the current run waits for, and its end lets the run go
on. -/
inductive Console.Fights (c : Console) (s : Session) : Prop
  | intro {battle : BattleHandle} {g : Graph} (pending : c.battle = some battle)
      (current : s.current = some battle.run) (graph : s.graph = some g)
      (node : (s.run battle.run).node = some battle.node.id)
      (waiting : s.isWaiting battle.run battle.wait)
      (resumes : ∀ outcome, s.enter (.battleOver battle outcome) =
        s.resume battle.run (.resolve battle.node g outcome))

/-- **The console and the session are in step.** -/
structure Game.InStep (g : Game) : Prop where
  /-- The figures that are there are those of the current run. -/
  figures : ∀ s, g.Rests s → ∀ id, g.console.npcs.has id ↔ id ∈ s.activeNpcs
  /-- What is waited for is something that the player can be asked for. -/
  waits : ∀ s, g.Heads s → s.phase = .suspended →
    s.waitingFor? ∈ [some .dialogue, some .image, some .choice, some .combat]
  choice : ∀ s, g.Heads s → s.phase = .suspended → s.waitingFor? = some .choice → g.console.Offers s
  battle : ∀ s, g.Heads s → s.phase = .suspended → s.waitingFor? = some .combat → g.console.Fights s
  /-- The player is asked for it. -/
  prompt : ∀ s p, g.stage = .prompt s p → Game.rest g.console s = Game.ask g.console s p

section InStep

variable {c : Console} {s : Session}

theorem Console.Agrees.figures (h : c.Agrees s) (id : String) : c.npcs.has id ↔ id ∈ s.activeNpcs := by
  have begun {r : RunId} {draining : Bool} {run : Run} {graph : Option Graph}
      (has : s.Has r draining [] run graph) (houses : c.Houses run) :
      c.npcs.has id ↔ id ∈ s.activeNpcs := by
    rw [houses id, Session.activeNpcs, has.current, Option.map_some, Option.getD_some,
      Session.figures, has.run_eq]
  cases h with
  | unbegun runs current npcs => simp [npcs, Entries.has, Session.activeNpcs, current]
  | begun settles =>
    cases settles with
    | waits has _ _ _ houses => exact begun has houses
    | ended has _ houses => exact begun has houses

theorem Console.Agrees.awaits (h : c.Agrees s) (suspended : s.phase = .suspended) :
    ∃ p, c.Awaits s p := by
  cases h with
  | unbegun runs current npcs => simp [Session.phase, Session.currentRun?, current] at suspended
  | begun settles =>
    cases settles with
    | waits has held untimed recalls houses => exact ⟨_, .intro has held untimed recalls houses⟩
    | ended has past houses =>
      rw [Run.isActive, ← has.phase_eq, suspended] at past
      cases past

theorem Console.Awaits.agrees {p : Prompt} (h : c.Awaits s p) : c.Agrees s := by
  cases h with
  | intro has held untimed recalls houses => exact .begun (.waits has held untimed recalls houses)

theorem Console.Awaits.waits {p : Prompt} (h : c.Awaits s p) :
    s.waitingFor? ∈ [some .dialogue, some .image, some .choice, some .combat] := by
  cases h with
  | intro has held untimed recalls houses =>
    have kind := held.kind
    rw [has.waitingFor?_eq, held.waits, Option.map_some, ← kind]
    cases recalls with
    | dialogue body => simp [Node.waitKind?, body]
    | choice body last => simp [Node.waitKind?, body]
    | image body => simp [Node.waitKind?, body]
    | combat body battle => simp [Node.waitKind?, body]

theorem Console.Awaits.offers {p : Prompt} (h : c.Awaits s p) (waiting : s.waitingFor? = some .choice) :
    c.Offers s := by
  have asked := Game.rest_of_awaits h
  cases h with
  | intro has held untimed recalls houses =>
    have kind := held.kind
    rw [has.waitingFor?_eq, held.waits, Option.map_some, ← kind] at waiting
    cases recalls with
    | choice body last =>
      simp only [Node.prompt, body] at asked
      exact .intro has.current has.graph_eq (has.run_eq ▸ held.node) held.inGraph body last asked
        fun l v => Prompt.readOption_answer
    | dialogue body => simp [Node.waitKind?, body] at waiting
    | image body => simp [Node.waitKind?, body] at waiting
    | combat body battle => simp [Node.waitKind?, body] at waiting

end InStep

namespace Game

variable {g g' : Game}

theorem Opens.fair (h : g.Opens) : g.Fair := by
  cases h with
  | @start c _ library flags script completion empty =>
    refine .turn (.work fun files => ?_)
    show Turn.Comes Turn.Halts c (((Session.fresh files library flags).start script completion).on [])
    exact .start empty script completion
  | @startGraph c _ library flags graph completion empty whole =>
    refine .turn (.work fun files => ?_)
    show Turn.Comes Turn.Halts c
      (((Session.fresh files library flags).startGraph graph completion).on [])
    exact .startGraph empty whole completion

theorem Fair.step (h : g.Fair) (hs : Steps g g') : g'.Fair := by
  cases hs with
  | next hn => exact h.next hn
  | line l => exact h.line l
  | change files => exact h.withFiles files

theorem Fair.reaches (h : g.Fair) (hr : Reaches g g') : g'.Fair := by
  induction hr with
  | refl => exact h
  | tail _ hs ih => exact ih.step hs

theorem Fair.agrees {s : Session} (h : g.Fair) (rests : g.Rests s) : g.console.Agrees s := by
  have nothing {t : Turn} (back : t.IsBack []) : t.next? = none := by
    obtain ⟨s, stack, control⟩ := t
    obtain ⟨rfl, past⟩ := back
    exact Turn.Sound.next?_ground .bottom past
  cases rests with
  | @turn c t back =>
    cases h with
    | turn comes =>
      cases comes with
      | here holds =>
        cases holds with
        | rests agrees => exact agrees
        | fails agrees => exact agrees
        | visits => cases back.1
      | move goes h =>
        have ht : t.next? = some _ := goes t.session.files
        rw [nothing back] at ht
        cases ht
      | ask => cases back.2
  | @stopping c t back =>
    cases h with
    | stopping comes =>
      cases comes with
      | here holds =>
        cases holds with
        | rests settles => exact .begun settles
      | move goes h =>
        have ht : t.next? = some _ := goes t.session.files
        rw [nothing back] at ht
        cases ht
      | ask => cases back.2
  | prompt =>
    cases h with
    | prompt awaits => exact awaits.agrees

/-- A game after so many steps of its own, or fewer if it stops before. -/
def steps : Nat → Game → Game
  | 0, g => g
  | k + 1, g =>
    match g.next? with
    | some (g, _) => steps k g
    | none => g

/-- A game after lines, with so many steps of its own before each and at the end. -/
def played (k : Nat) (g : Game) : List String → Game
  | [] => g.steps k
  | l :: ls => played k ((g.steps k).line (some l)).1 ls

theorem steps_succ {g g' : Game} {shown : String} (hn : g.next? = some (g', shown)) (k : Nat) :
    g.steps (k + 1) = g'.steps k := by
  simp only [steps, hn]

/-- What the player is asked for. -/
def prompt? (g : Game) : Option Prompt :=
  match g.stage with
  | .prompt _ p => some p
  | _ => none

/-- A goblin appears, and one can fight or flee. -/
def ambush : Graph :=
  let road : Node := ⟨"road", .trigger { event := "spawnNPC", params := [("npcId", .string "goblin")] }⟩
  let stand : Node := ⟨"stand", .choice { question := "And now?", options := ["fight", "flee"] }⟩
  let fight : Node := ⟨"fight", .combat [("enemy", .string "Goblin")]⟩
  { script :=
      { id := "ambush", nodes := [road, stand, fight]
        connections := [⟨"road", 0, "stand"⟩, ⟨"stand", 0, "fight"⟩] }
    entry := road }

end Game

end Questline

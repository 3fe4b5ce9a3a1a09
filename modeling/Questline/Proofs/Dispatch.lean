import Questline.Proofs.Acceptance
import Questline.Proofs.Exits
import Questline.Proofs.Figures
import Questline.Proofs.Loading

/-!
# All of a trigger, or nothing

A trigger is read before anything is done.  If its event is unknown, or a parameter is wrong, the
trigger fails, and nothing at all has been done: the host was not called, and flags and runs are as they
were.  Otherwise the trigger does one thing.  It makes one call of the host, or it sets one flag; and of
the run only the figures can change, by the one figure that the call is about.

Which calls are made is read off a history of a host that answers them and does nothing else.

* `Effect.IsOf`: what an effect has from its trigger.
* `Session.Performed`: the one thing that a trigger has done.
* `Dispatching`: how far a trigger has come, kept by every deed (`Dispatching.step`).
* `dispatch_all_or_nothing`: a trigger does all that it says, or fails and does nothing.
-/

namespace Questline

open Json (Value)

/-! ## Effects of triggers -/

theorem map_eq_ok_iff {α β : Type} {g : α → β} {x : Except Fault α} {b : β} :
    g <$> x = .ok b ↔ ∃ a, x = .ok a ∧ g a = b := by
  cases x with
  | error f => exact ⟨nofun, fun ⟨_, h, _⟩ => nomatch h⟩
  | ok a =>
    constructor
    · intro h
      exact ⟨a, rfl, Except.ok.inj h⟩
    · rintro ⟨a', h, rfl⟩
      obtain rfl := Except.ok.inj h
      rfl

/-- The name of a change of the world. -/
def WorldEvent.word : WorldEvent → String
  | .playMusic _ => "playMusic"
  | .stopMusic => "stopMusic"
  | .showStatus _ _ => "showStatus"
  | .teleport _ _ _ => "teleport"
  | .setTime _ => "setTime"
  | .setWeather _ => "setWeather"

namespace Effect

variable {t : Trigger} {effect : Effect} {name s : String} {v : Value}

/-- What an effect has from the trigger that it was read from: its kind is that of the event, and a
figure or a flag is what the parameters say. -/
inductive IsOf (t : Trigger) : Effect → Prop
  | world {event : WorldEvent} (named : t.event = event.word) : IsOf t (.world event)
  | setFlag {name : String} {value : Scalar} (named : t.event = "setFlag")
      (flag : Value.field t.params "flag" = .string name)
      (held : Scalar.ofValue? (fieldOr t.params "value" (.bool true)) = some value) :
      IsOf t (.setFlag name value)
  | spawn {request : SpawnRequest} (named : t.event = "spawnNPC")
      (npc : Value.field t.params "npcId" = .string request.npc) : IsOf t (.spawn request)
  | remove {npc : String} (named : t.event = "removeNPC")
      (figure : Value.field t.params "npcId" = .string npc) : IsOf t (.remove npc)

theorem eq_of_textParameter (h : textParameter name v = .ok s) : v = .string s := by
  unfold textParameter at h
  split at h
  case h_1 =>
    split at h
    case isTrue => cases h
    case isFalse => exact congrArg Value.string (Except.ok.inj h)
  case h_2 => cases h

theorem eq_of_scalarParameter {value : Scalar} (h : scalarParameter name v = .ok value) :
    Scalar.ofValue? v = some value := by
  unfold scalarParameter at h
  split at h
  case h_1 held => exact held.trans (congrArg some (Except.ok.inj h))
  case h_2 => cases h

theorem readSetFlag_isOf (named : t.event = "setFlag") (h : readSetFlag t.params = .ok effect) :
    effect.IsOf t := by
  obtain ⟨name, flag, h⟩ := bind_eq_ok_iff.1 h
  obtain ⟨value, held, h⟩ := bind_eq_ok_iff.1 h
  obtain rfl := Except.ok.inj h
  exact .setFlag named (eq_of_textParameter flag) (eq_of_scalarParameter held)

theorem readSpawn_isOf (named : t.event = "spawnNPC") (h : readSpawn t.params = .ok effect) :
    effect.IsOf t := by
  obtain ⟨npc, figure, h⟩ := bind_eq_ok_iff.1 h
  obtain ⟨emoji, -, h⟩ := bind_eq_ok_iff.1 h
  obtain ⟨name, -, h⟩ := bind_eq_ok_iff.1 h
  obtain ⟨x, -, h⟩ := bind_eq_ok_iff.1 h
  obtain ⟨y, -, h⟩ := bind_eq_ok_iff.1 h
  obtain ⟨z, -, h⟩ := bind_eq_ok_iff.1 h
  obtain ⟨scale, -, h⟩ := bind_eq_ok_iff.1 h
  obtain rfl := Except.ok.inj h
  exact .spawn named (eq_of_textParameter figure)

theorem readRemove_isOf (named : t.event = "removeNPC") (h : readRemove t.params = .ok effect) :
    effect.IsOf t := by
  obtain ⟨npc, figure, rfl⟩ := map_eq_ok_iff.1 h
  exact .remove named (eq_of_textParameter figure)

theorem readShowStatus_isOf (named : t.event = "showStatus")
    (h : readShowStatus t.params = .ok effect) : effect.IsOf t := by
  obtain ⟨message, -, h⟩ := bind_eq_ok_iff.1 h
  obtain ⟨kind, -, h⟩ := bind_eq_ok_iff.1 h
  obtain rfl := Except.ok.inj h
  exact .world named

theorem readTeleport_isOf (named : t.event = "teleport") (h : readTeleport t.params = .ok effect) :
    effect.IsOf t := by
  obtain ⟨x, -, h⟩ := bind_eq_ok_iff.1 h
  obtain ⟨y, -, h⟩ := bind_eq_ok_iff.1 h
  obtain ⟨z, -, h⟩ := bind_eq_ok_iff.1 h
  obtain rfl := Except.ok.inj h
  exact .world named

/-- A change of the world that has one parameter. -/
theorem isOf_of_map {α : Type} {g : α → WorldEvent} {x : Except Fault α}
    (h : (fun a => Effect.world (g a)) <$> x = .ok effect) (named : ∀ a, t.event = (g a).word) :
    effect.IsOf t := by
  obtain ⟨a, -, rfl⟩ := map_eq_ok_iff.1 h
  exact .world (named a)

/-- **An effect is one of its trigger**, event by event. -/
theorem isOf_of_ofTrigger (h : ofTrigger t = .ok effect) : effect.IsOf t := by
  unfold ofTrigger at h
  split at h
  case h_2 => cases h
  case h_1 read found =>
    obtain ⟨before, after, split, -⟩ := List.lookup_eq_some_iff.1 found
    have known : (t.event, read) ∈ readers := split ▸ List.mem_append_right _ List.mem_cons_self
    simp only [readers, List.mem_cons, Prod.mk.injEq, List.not_mem_nil, or_false] at known
    rcases known with ⟨named, rfl⟩ | ⟨named, rfl⟩ | ⟨named, rfl⟩ | ⟨named, rfl⟩ | ⟨named, rfl⟩ |
      ⟨named, rfl⟩ | ⟨named, rfl⟩ | ⟨named, rfl⟩ | ⟨named, rfl⟩
    · exact isOf_of_map h fun _ => named
    · obtain rfl := Except.ok.inj h
      exact .world named
    · exact readSetFlag_isOf named h
    · exact readSpawn_isOf named h
    · exact readRemove_isOf named h
    · exact readShowStatus_isOf named h
    · exact readTeleport_isOf named h
    · exact isOf_of_map h fun _ => named
    · exact isOf_of_map h fun _ => named

/-- An event that is not known has no effect. -/
theorem ofTrigger_of_unknown (h : isKnown t.event = false) :
    ofTrigger t = .error (.unknownEvent t.event) := by
  have absent : readers.lookup t.event = none := by
    rw [List.lookup_eq_none_iff]
    intro e he
    rw [isKnown, Bool.eq_false_iff, ne_eq, List.contains_iff_mem, events_eq, List.mem_map] at h
    exact bne_iff_ne.2 fun same => h ⟨e, he, same.symm⟩
  rw [ofTrigger, absent]

end Effect

/-! ## What has been done -/

/-- The call that was answered in an event, with the answer. -/
def Event.reply? (e : Event) : Option (Σ a : Ask, a.call.Reply) :=
  match e.deed with
  | .reply a answer => some ⟨a, answer⟩
  | _ => none

/-- The calls that were answered, in order. -/
def replies (events : List Event) : List (Σ a : Ask, a.call.Reply) := events.filterMap Event.reply?

namespace Session

variable {s s' : Session} {r : RunId} {t : Trigger}

/-- Of the session `s` nothing has changed but the figures of a run, which are now as told. -/
structure FiguresBecome (s : Session) (r : RunId) (s' : Session) (npcs : String → Prop) : Prop where
  rest : { s' with runs := s.runs } = s
  length : s'.runs.length = s.runs.length
  others : ∀ q, q ≠ r → s'.run q = s.run q
  own : { s'.run r with npcs := (s.run r).npcs } = s.run r
  figures : ∀ id, id ∈ s'.figures r ↔ npcs id

theorem figuresBecome_setRun (hr : r < s.runs.length) {f : Run → Run} {npcs : String → Prop}
    (own : ∀ run : Run, { f run with npcs := run.npcs } = run)
    (figures : ∀ id, id ∈ (f (s.run r)).npcs ↔ npcs id) : s.FiguresBecome r (s.setRun r f) npcs where
  rest := rfl
  length := length_runs_setRun
  others := fun _ apart => run_setRun_of_ne apart
  own := by
    rw [run_setRun_self hr]
    exact own _
  figures := by
    intro id
    rw [Session.figures, run_setRun_self hr]
    exact figures id

/-- The one thing that a trigger has done: the calls of the host with their answers, and the session
afterwards. -/
inductive Performed (s : Session) (r : RunId) (t : Trigger) :
    List (Σ a : Ask, a.call.Reply) → Session → Prop
  | world {event : WorldEvent} (named : t.event = event.word) :
      Performed s r t [⟨.world event, ()⟩] s
  | setFlag {name : String} {value : Scalar} (named : t.event = "setFlag")
      (flag : Value.field t.params "flag" = .string name)
      (held : Scalar.ofValue? (fieldOr t.params "value" (.bool true)) = some value) :
      Performed s r t [] { s with flags := { s.flags with flags := s.flags.flags.put name value } }
  | spawn {request : SpawnRequest} {id : String} {s' : Session} (named : t.event = "spawnNPC")
      (figure : Value.field t.params "npcId" = .string request.npc)
      (gained : s.FiguresBecome r s' fun npc => npc = id ∨ npc ∈ s.figures r) :
      Performed s r t [⟨.spawn r request, id⟩] s'
  | remove {id : String} {s' : Session} (named : t.event = "removeNPC")
      (figure : Value.field t.params "npcId" = .string id)
      (lost : s.FiguresBecome r s' fun npc => npc ∈ s.figures r ∧ npc ≠ id) :
      Performed s r t [⟨.remove r id, ()⟩] s'

/-- What an effect does that is of the trigger: it sets a flag in memory at once, or it calls the host, and
whatever is answered, nothing else is to be done. -/
theorem perform_cases (hr : r < s.runs.length) (memory : s.flags.path = none) {effect : Effect}
    (h : effect.IsOf t) :
    (∃ s', s.perform r effect = .finished s' ∧ s.Performed r t [] s') ∨
      ∃ a, s.perform r effect = .ask s a ∧
        ∀ answer, ∃ s', a.resume s answer = .finished s' ∧ s.Performed r t [⟨a, answer⟩] s' := by
  cases h with
  | @world event named => exact .inr ⟨_, rfl, fun _ => ⟨s, rfl, .world named⟩⟩
  | @setFlag name value named flag held =>
    refine .inl ⟨_, ?_, .setFlag named flag held⟩
    simp only [perform, FlagStore.set, FlagStore.save, memory]
  | @spawn request named figure =>
    refine .inr ⟨_, rfl, fun id => ⟨_, rfl, .spawn named figure ?_⟩⟩
    exact figuresBecome_setRun hr (fun _ => rfl) fun npc => mem_insertOnce
  | @remove id named figure =>
    refine .inr ⟨_, rfl, fun _ => ⟨_, rfl, .remove named figure ?_⟩⟩
    refine figuresBecome_setRun hr (fun _ => rfl) fun npc => ?_
    rw [Run.dropNpc, List.mem_filter, bne_iff_ne]
    rfl

end Session

/-! ## Step by step -/

/-- How far the trigger `t` of the run `r` has come, begun in the session `s` on top of the stack
`base`. -/
inductive Dispatching (s : Session) (r : RunId) (t : Trigger) (base : List Frame) :
    List Event → Turn → Prop
  | begun : Dispatching s r t base [] ⟨s, base, .work (.dispatch r t)⟩
  | asked {events : List Event} {a : Ask} {effect : Effect} (reads : Effect.ofTrigger t = .ok effect)
      (one : events.length = 1) (none : replies events = [])
      (serves : ∀ answer, ∃ s', a.resume s answer = .finished s' ∧ s.Performed r t [⟨a, answer⟩] s') :
      Dispatching s r t base events ⟨s, base, .ask a⟩
  | performed {events : List Event} {s' : Session} {effect : Effect}
      (reads : Effect.ofTrigger t = .ok effect) (short : events.length ≤ 2)
      (done : s.Performed r t (replies events) s') :
      Dispatching s r t base events ⟨s', base, .done .done⟩
  | refused {events : List Event} {f : Fault} (fails : Effect.ofTrigger t = .error f)
      (one : events.length = 1) (none : replies events = []) :
      Dispatching s r t base events ⟨s, base, .failed f⟩

namespace Dispatching

variable {s : Session} {r : RunId} {t : Trigger} {base : List Frame} {events : List Event} {u v : Turn}
  {d : Deed}

/-- The first move: the trigger is read, and what it does is begun. -/
theorem of_dispatch (hr : r < s.runs.length) (memory : s.flags.path = none) {e : Event}
    (quiet : e.reply? = none) : Dispatching s r t base [e] ((s.dispatch r t).on base) := by
  have none : replies [e] = [] := by rw [replies, List.filterMap_cons_none quiet, List.filterMap_nil]
  unfold Session.dispatch
  split
  case h_1 effect reads =>
    rcases Session.perform_cases hr memory (Effect.isOf_of_ofTrigger reads) with
      ⟨s', finished, done⟩ | ⟨a, asks, serves⟩
    · rw [finished]
      exact .performed reads (Nat.le_succ 1) (none ▸ done)
    · rw [asks]
      exact .asked reads rfl none serves
  case h_2 f fails => exact .refused fails rfl none

/-- **Every deed of a host that answers keeps this.** -/
theorem step (hr : r < s.runs.length) (memory : s.flags.path = none)
    (h : Dispatching s r t base events u) (allowed : answersUntilBack base u d) (does : u.Does d v) :
    Dispatching s r t base (events ++ [⟨u, d, v⟩]) v := by
  obtain ⟨away, answering⟩ := allowed
  cases h with
  | begun =>
    cases does with
    | work => exact of_dispatch hr memory rfl
    | beginAtRest | leave | change => cases answering
  | @asked _ a effect reads one none serves =>
    -- The host can do nothing but answer, and whatever it answers, the trigger is done.
    cases does with
    | reply answer =>
      obtain ⟨s', resumed, done⟩ := serves answer
      have whole (v : Turn) : replies (events ++ [⟨⟨s, base, .ask a⟩, .reply a answer, v⟩]) =
          [⟨a, answer⟩] := by
        rw [replies, List.filterMap_append]
        exact congrArg (· ++ _) none
      rw [resumed]
      exact .performed reads (by rw [List.length_append, one]; rfl) (by rw [whole]; exact done)
    | beginAtRest | beginInside | leave | fail | change => cases answering
  | performed => exact absurd ⟨rfl, rfl⟩ away
  | refused => exact absurd ⟨rfl, rfl⟩ away

/-- **The whole run**, by induction over its deeds. -/
theorem of_history (hr : r < s.runs.length) (memory : s.flags.path = none)
    (h : History (answersUntilBack base) ⟨s, base, .work (.dispatch r t)⟩ events u) :
    Dispatching s r t base events u := by
  induction h with
  | nil => exact .begun
  | snoc _ allowed does ih => exact ih.step hr memory allowed does

theorem length_le (h : Dispatching s r t base events u) : events.length ≤ 2 := by
  cases h with
  | begun => exact Nat.zero_le 2
  | asked _ one => omega
  | performed _ short => exact short
  | refused _ one => omega

/-- A trigger is never stuck: it is over, or it can go on. -/
theorem progress (h : Dispatching s r t base events u) :
    u.IsBack base ∨ ∃ d v, answersUntilBack base u d ∧ u.Does d v := by
  cases h with
  | begun => exact .inr ⟨.move, _, ⟨fun back => (nomatch back.2), rfl⟩, .work _⟩
  | @asked _ a =>
    obtain ⟨answer⟩ := a.exists_reply
    exact .inr ⟨.reply a answer, _, ⟨fun back => (nomatch back.2), rfl⟩, .reply answer⟩
  | performed => exact .inl ⟨rfl, rfl⟩
  | refused => exact .inl ⟨rfl, rfl⟩

/-- A trigger fails for its event just if the event is not known. -/
theorem unknownEvent_iff (h : Dispatching s r t base events u) (back : u.IsBack base) :
    (∃ event, u.control = .failed (.unknownEvent event)) ↔ Effect.isKnown t.event = false := by
  have read (unknown : Effect.isKnown t.event = false) := Effect.ofTrigger_of_unknown unknown
  cases h with
  | begun => cases back.2
  | asked => cases back.2
  | performed reads =>
    refine ⟨nofun, fun unknown => ?_⟩
    rw [read unknown] at reads
    cases reads
  | @refused _ f fails =>
    constructor
    · rintro ⟨event, failed⟩
      obtain rfl := Control.failed.inj failed
      obtain ⟨rfl, unknown⟩ := Effect.isKnown_of_unknownEvent fails
      exact unknown
    · intro unknown
      obtain rfl := Except.error.inj ((read unknown).symm.trans fails)
      exact ⟨t.event, rfl⟩

end Dispatching

/-- **A trigger does all that it says, or nothing.**  Let the flags be kept in memory, and let the host
do nothing but answer.  Then a trigger is over after two deeds at most, and never stuck before.  When it is
over, it has made one call of the host, or set one flag, and has added or removed just the one figure that
the call was about; or it fails, then no call was made and the session is as it was.  It fails for its
event just if the event is not known. -/
theorem dispatch_all_or_nothing {s : Session} {r : RunId} {t : Trigger} {base : List Frame}
    {events : List Event} {u : Turn} (hr : r < s.runs.length) (memory : s.flags.path = none)
    (h : History (answersUntilBack base) ⟨s, base, .work (.dispatch r t)⟩ events u) :
    events.length ≤ 2 ∧ (u.IsBack base ∨ ∃ d v, answersUntilBack base u d ∧ u.Does d v) ∧
      (u.IsBack base →
        (u.control = .done .done ∧ s.Performed r t (replies events) u.session ∨
          ∃ f, u.control = .failed f ∧ replies events = [] ∧ u.session = s) ∧
        ((∃ event, u.control = .failed (.unknownEvent event)) ↔ Effect.isKnown t.event = false)) := by
  have dispatching := Dispatching.of_history hr memory h
  refine ⟨dispatching.length_le, dispatching.progress, fun back => ⟨?_, dispatching.unknownEvent_iff back⟩⟩
  cases dispatching with
  | begun => cases back.2
  | asked => cases back.2
  | performed _ _ done => exact .inl ⟨rfl, done⟩
  | refused _ _ none => exact .inr ⟨_, rfl, none, rfl⟩

theorem Turn.does_reply {t : Turn} {a : Ask} (h : t.control = .ask a) (answer : a.call.Reply) :
    t.Does (.reply a answer) (t.reply a answer) := by
  obtain ⟨s, stack, c⟩ := t
  obtain rfl : c = .ask a := h
  exact .reply answer

/-- A session with one run, and nothing else. -/
def glade : Session := (Session.fresh (.empty []) (.ofString "scripts") {}).addRun {}

/-- A trigger that spawns the goblin. -/
def goblinCall : Trigger := { event := "spawnNPC", params := [("npcId", .string "goblin")] }

/-- The goblin is spawned by one call, and known by the id that the host gives it. -/
theorem goblin_spawned_once :
    let asked := (glade.dispatch 0 goblinCall).on []
    let u := asked.reply (.spawn 0 goblin) "goblin-2"
    asked.control = .ask (.spawn 0 goblin) ∧ u.control = .done .done ∧
      glade.Performed 0 goblinCall [⟨.spawn 0 goblin, "goblin-2"⟩] u.session ∧
      u.session.figures 0 = ["goblin-2"] := by
  intro asked u
  have control : asked.control = .ask (.spawn 0 goblin) := by decide +kernel
  have ended : u.control = .done .done := by decide +kernel
  have back : u.IsBack [] := ⟨by decide +kernel, by decide +kernel⟩
  have away : ¬asked.IsBack [] := by
    intro back
    rw [Turn.IsBack, control] at back
    cases back.2
  have history : History (answersUntilBack []) ⟨glade, [], .work (.dispatch 0 goblinCall)⟩
      [⟨_, .move, asked⟩, ⟨asked, .reply (.spawn 0 goblin) "goblin-2", u⟩] u :=
    (History.nil.snoc ⟨fun back => (nomatch back.2), rfl⟩ (.work _)).snoc ⟨away, rfl⟩
      (Turn.does_reply control "goblin-2")
  obtain ⟨-, -, ends⟩ := dispatch_all_or_nothing (by decide) rfl history
  rcases (ends back).1 with ⟨-, done⟩ | ⟨f, failed, -⟩
  · exact ⟨control, ended, done, by decide +kernel⟩
  · rw [ended] at failed
    cases failed

end Questline

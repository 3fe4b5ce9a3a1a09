import Questline.Proofs.Comparison
import Questline.Proofs.Dispatch
import Questline.Proofs.Entries
import Questline.Proofs.Visits

/-!
# What a condition sees

A condition takes the first output of its node if it holds, and the second if not.  A condition on a
flag sees the value that the flag was set to last, by whichever trigger, and nothing of all other
flags; a flag that was never set counts as false.  A condition on the inventory sees the number of items
that the host counts.  Numbers are compared by their exact values, and never with what is no number.
Nothing is changed by a condition: it asks the host for a count at most.

* `Node.sets?`, `lastSet?`: the value that a flag is set to by a node, and by several the last time.
* `FlagStore.Executes`: nodes are visited one after the other; `Executes.get?`: what a flag is then.
* `Checking`: how far a condition has come, kept by every deed (`Checking.step`).
* `condition_sees`: which output a condition takes, and what it leaves as it was.
-/

namespace Questline

open Json (Value)

/-! ## What a node sets -/

/-- The value that a node sets a flag to: it is a trigger that names the flag, and the value is true
unless it gives another. -/
def Node.sets? (flag : String) (n : Node) : Option Scalar :=
  match n.body with
  | .trigger t =>
    if t.event = "setFlag" ∧ flag ≠ "" ∧ Value.field t.params "flag" = .string flag then
      Scalar.ofValue? (fieldOr t.params "value" (.bool true))
    else none
  | _ => none

/-- The value that a flag is set to last by several nodes. -/
def lastSet? (flag : String) (nodes : List Node) : Option Scalar :=
  (nodes.filterMap (·.sets? flag)).getLast?

theorem lastSet?_concat (flag : String) (nodes : List Node) (n : Node) :
    lastSet? flag (nodes ++ [n]) = (n.sets? flag).or (lastSet? flag nodes) := by
  rw [lastSet?, List.filterMap_append, List.getLast?_append]
  cases set : n.sets? flag with
  | none => rw [List.filterMap_cons_none set]; rfl
  | some v => rw [List.filterMap_cons_some set]; rfl

/-- A trigger that sets a flag has the name of the flag and its value from the parameters. -/
theorem Effect.setFlag_iff {t : Trigger} {name : String} {value : Scalar} :
    ofTrigger t = .ok (.setFlag name value) ↔
      (t.event = "setFlag" ∧ name ≠ "" ∧ Value.field t.params "flag" = .string name) ∧
        Scalar.ofValue? (fieldOr t.params "value" (.bool true)) = some value := by
  have reads (named : t.event = "setFlag") : ofTrigger t = readSetFlag t.params := by
    rw [ofTrigger, named]
    rfl
  constructor
  · intro h
    cases isOf_of_ofTrigger h with
    | setFlag named flag held =>
      refine ⟨⟨named, ?_, flag⟩, held⟩
      rintro rfl
      rw [reads named] at h
      obtain ⟨name, read, -⟩ := bind_eq_ok_iff.1 h
      rw [flag] at read
      cases read
  · rintro ⟨⟨named, filled, flag⟩, held⟩
    have text : textParameter "setFlag.flag" (.string name) = .ok name :=
      if_neg fun none => filled (String.isEmpty_iff.1 none)
    simp [reads named, readSetFlag, flag, text, scalarParameter, held]
    rfl

/-- **What a flag is after a node** has written: what the node sets it to, and else what it was. -/
theorem Node.get?_write (n : Node) (flags : FlagStore) (files : FileTree) (flag : String) :
    (n.write flags files).1.get? flag = (n.sets? flag).or (flags.get? flag) := by
  cases body : n.body with
  | trigger t =>
    simp only [write, sets?, body]
    split
    case h_1 name value reads =>
      obtain ⟨⟨named, filled, field⟩, held⟩ := Effect.setFlag_iff.1 reads
      rw [FlagStore.set, FlagStore.get?, Entries.get?_put, held]
      by_cases same : name = flag
      · subst same
        rw [if_pos rfl, if_pos ⟨named, filled, field⟩]
        rfl
      · rw [if_neg same, if_neg fun h => same (Value.string.inj (field.symm.trans h.2.2))]
        rfl
    case h_2 other =>
      split
      case isTrue is =>
        cases held : Scalar.ofValue? (fieldOr t.params "value" (.bool true)) with
        | none => rfl
        | some value => exact absurd (Effect.setFlag_iff.2 ⟨is, held⟩) (other flag value)
      case isFalse => rfl
  | _ => simp only [write, sets?, body, Option.none_or]

/-! ## One node after the other -/

/-- The nodes are visited one after the other, each visit to its end, and each in a session with the flags
that the one before has left: at first `store`, and `store'` at the end. -/
inductive FlagStore.Executes (store : FlagStore) : List Node → FlagStore → Prop
  | nil : Executes store [] store
  | snoc {nodes : List Node} {base : List Frame} {s : Session} {r : RunId} {n : Node} {g : Graph}
      {events : List Event} {u : Turn} (h : Executes store nodes s.flags)
      (visit : History (answersUntilBack base) ⟨s, base, .work (.visit r n g)⟩ events u)
      (back : u.IsBack base) : Executes store (nodes ++ [n]) u.session.flags

/-- **What a flag is** after several nodes: what it was set to last, and else what it was before. -/
theorem FlagStore.Executes.get? {store store' : FlagStore} {nodes : List Node}
    (h : store.Executes nodes store') (flag : String) :
    store'.get? flag = (lastSet? flag nodes).or (store.get? flag) := by
  induction h with
  | nil => rfl
  | @snoc nodes base s r n g events u h visit back ih =>
    have written : u.session.flags = (n.write s.flags s.files).1 :=
      congrArg Prod.fst (visit_writes visit back)
    rw [written, Node.get?_write, ih, lastSet?_concat, Option.or_assoc]

/-! ## Conditions -/

namespace Session

variable {s s' s'' : Session} {r : RunId} {n : Node} {g : Graph}

/-- Between the sessions `s` and `s'` nothing changes but the runs, and no answers of a run. -/
structure KeepsAnswers (s s' : Session) : Prop where
  rest : { s' with runs := s.runs } = s
  ledgers : ∀ q, (s'.run q).ledger = (s.run q).ledger

theorem keepsAnswers_setRun {f : Run → Run} (h : ∀ run, (f run).ledger = run.ledger) :
    s.KeepsAnswers (s.setRun r f) := by
  refine ⟨rfl, fun q => ?_⟩
  rw [run_setRun]
  split
  · exact h _
  · rfl

theorem KeepsAnswers.trans (h : s.KeepsAnswers s') (h' : s'.KeepsAnswers s'') : s.KeepsAnswers s'' := by
  refine ⟨?_, fun q => (h'.ledgers q).trans (h.ledgers q)⟩
  have rest := h.rest
  rw [← h'.rest] at rest
  exact rest

end Session

/-- Whether a condition holds, as told by the flags, or by the count that the host has answered. -/
inductive Condition.Tells (c : Condition) (r : RunId) (n : Node) (g : Graph) (flags : FlagStore) :
    List (Σ a : Ask, a.call.Reply) → Bool → Prop
  | flag (kind : c.check = .hasFlag) :
      Tells c r n g flags [] (Scalar.meets (flags.get? c.target) c.expected)
  | item (kind : c.check ≠ .hasFlag) (held : Number) :
      Tells c r n g flags [⟨.count r n c g, held⟩] (Session.countMeets c held)

/-- How far the visit of the condition `c` has come. -/
inductive Checking (s : Session) (r : RunId) (n : Node) (g : Graph) (c : Condition) (base : List Frame) :
    List Event → Turn → Prop
  | begun : Checking s r n g c base [] ⟨s, base, .work (.visit r n g)⟩
  | asked {events : List Event} {s' : Session} (kind : c.check ≠ .hasFlag) (one : events.length = 1)
      (none : replies events = []) (kept : s.KeepsAnswers s') :
      Checking s r n g c base events ⟨s', base, .ask (.count r n c g)⟩
  | decided {events : List Event} {s' : Session} {holds : Bool} (short : events.length ≤ 2)
      (kept : s.KeepsAnswers s') (tells : c.Tells r n g s.flags (replies events) holds) :
      Checking s r n g c base events
        ⟨s', base, .done (.stepped ⟨n, g.onward n.id (Session.outputOf holds)⟩)⟩

namespace Checking

variable {s : Session} {r : RunId} {n : Node} {g : Graph} {c : Condition} {base : List Frame}
  {events : List Event} {u v : Turn} {d : Deed}

/-- The first move: a flag decides at once, and for the inventory the host is asked. -/
theorem of_visit (body : n.body = .condition c) {e : Event} (quiet : e.reply? = none) :
    Checking s r n g c base [e] ((s.visit r n g).on base) := by
  have none : replies [e] = [] := by rw [replies, List.filterMap_cons_none quiet, List.filterMap_nil]
  have entered : s.KeepsAnswers (s.setRun r fun run =>
      { run.count n.kind.word with node := some n.id, activity := .running }) :=
    Session.keepsAnswers_setRun fun _ => rfl
  simp only [Session.visit, body, Session.check]
  split
  case h_1 kind =>
    rw [Session.follow_eq]
    refine .decided (Nat.le_succ 1) (entered.trans (Session.keepsAnswers_setRun fun _ => rfl)) ?_
    rw [none]
    exact .flag kind
  case h_2 kind => exact .asked (by simp [kind]) rfl none entered
  case h_3 kind => exact .asked (by simp [kind]) rfl none entered

/-- **Every deed of a host that answers keeps this.** -/
theorem step (body : n.body = .condition c) (h : Checking s r n g c base events u)
    (allowed : answersUntilBack base u d) (does : u.Does d v) :
    Checking s r n g c base (events ++ [⟨u, d, v⟩]) v := by
  obtain ⟨away, answering⟩ := allowed
  cases h with
  | begun =>
    cases does with
    | work => exact of_visit body rfl
    | beginAtRest | leave | change => cases answering
  | @asked _ s' kind one none kept =>
    cases does with
    | reply held =>
      have whole (v : Turn) : replies (events ++ [⟨⟨s', base, .ask (.count r n c g)⟩,
          .reply (.count r n c g) held, v⟩]) = [⟨.count r n c g, held⟩] := by
        rw [replies, List.filterMap_append]
        exact congrArg (· ++ _) none
      rw [Ask.resume, Session.follow_eq]
      refine .decided (by rw [List.length_append, one]; rfl)
        (kept.trans (Session.keepsAnswers_setRun fun _ => rfl)) ?_
      rw [whole]
      exact .item kind held
    | beginAtRest | beginInside | leave | fail | change => cases answering
  | decided => exact absurd ⟨rfl, rfl⟩ away

/-- **The whole visit**, by induction over its deeds. -/
theorem of_history (body : n.body = .condition c)
    (h : History (answersUntilBack base) ⟨s, base, .work (.visit r n g)⟩ events u) :
    Checking s r n g c base events u := by
  induction h with
  | nil => exact .begun
  | snoc _ allowed does ih => exact ih.step body allowed does

theorem length_le (h : Checking s r n g c base events u) : events.length ≤ 2 := by
  cases h with
  | begun => exact Nat.zero_le 2
  | asked _ one => omega
  | decided short => exact short

/-- A condition is never stuck: it is over, or it can go on. -/
theorem progress (h : Checking s r n g c base events u) :
    u.IsBack base ∨ ∃ d v, answersUntilBack base u d ∧ u.Does d v := by
  cases h with
  | begun => exact .inr ⟨.move, _, ⟨fun back => (nomatch back.2), rfl⟩, .work _⟩
  | asked => exact .inr ⟨.reply (.count r n c g) (.int 0), _, ⟨fun back => (nomatch back.2), rfl⟩, .reply _⟩
  | decided => exact .inl ⟨rfl, rfl⟩

/-- Nothing is changed at any moment, and the host is asked for nothing but the count. -/
theorem changes_nothing (h : Checking s r n g c base events u) :
    s.KeepsAnswers u.session ∧ ∀ x ∈ replies events, x.1.call = .countItem c.target := by
  cases h with
  | begun => exact ⟨⟨rfl, fun _ => rfl⟩, by simp [replies]⟩
  | asked _ _ none kept => exact ⟨kept, by simp [none]⟩
  | decided _ kept tells =>
    refine ⟨kept, ?_⟩
    generalize replies events = calls at tells
    cases tells with
    | flag => simp
    | item => simp

end Checking

/-- **What a condition sees.**  Let nodes be visited, one after the other, with a store in which no flag
was set before, and then a condition.  Its visit is over after two deeds at most, and never stuck before.
It changes no flag, no file and no answers of a run, and of the host it asks for one count at most.  When
it is over, the first output is taken or the second.  It is the first, for a flag, just if the flag was
never set and false is expected, or if the value that it was set to last matches what is expected; and for
an item, just if it is as expected that the host has counted the amount, or more. -/
theorem condition_sees {store : FlagStore} {nodes : List Node} {s : Session} {base : List Frame}
    {r : RunId} {n : Node} {g : Graph} {c : Condition} {events : List Event} {u : Turn}
    (empty : store.flags = []) (before : store.Executes nodes s.flags) (body : n.body = .condition c)
    (h : History (answersUntilBack base) ⟨s, base, .work (.visit r n g)⟩ events u) :
    (events.length ≤ 2 ∧ (u.IsBack base ∨ ∃ d v, answersUntilBack base u d ∧ u.Does d v)) ∧
      (s.KeepsAnswers u.session ∧ ∀ x ∈ replies events, x.1.call = .countItem c.target) ∧
      (u.IsBack base → ∃ output, (output = 0 ∨ output = 1) ∧
        u.control = .done (.stepped ⟨n, g.onward n.id output⟩) ∧
        (∀ w : Scalar, c.check = .hasFlag → c.expected = w.toValue →
          (output = 0 ↔ lastSet? c.target nodes = none ∧ w = .bool false ∨
            ∃ v, lastSet? c.target nodes = some v ∧ v.Matches w)) ∧
        (∀ expected : Bool, c.check = .hasItem → c.expected = .bool expected →
          ∃ held, replies events = [⟨.count r n c g, held⟩] ∧
            (output = 0 ↔ (Number.Relates (· ≤ ·) c.amount held ↔ expected = true)))) := by
  have checking := Checking.of_history body h
  refine ⟨⟨checking.length_le, checking.progress⟩, checking.changes_nothing, fun back => ?_⟩
  have flags : s.flags.get? c.target = lastSet? c.target nodes := by
    rw [before.get?, FlagStore.get?, empty]
    exact Option.or_none
  have first (holds : Bool) : Session.outputOf holds = 0 ↔ holds := by cases holds <;> decide
  cases checking with
  | begun => cases back.2
  | asked => cases back.2
  | @decided _ s' holds _ _ tells =>
    refine ⟨Session.outputOf holds, ?_, rfl, fun w kind expected => ?_, fun expected kind is => ?_⟩
    · cases holds
      · exact .inr rfl
      · exact .inl rfl
    · generalize replies events = calls at tells
      cases tells with
      | flag => rw [first, expected, Scalar.meets_iff, flags]
      | item other => exact absurd kind other
    · generalize replies events = calls at tells
      cases tells with
      | flag other => rw [kind] at other; cases other
      | item _ held =>
        refine ⟨held, rfl, ?_⟩
        rw [first, Session.countMeets, is, ← Number.atMost_iff, beq_iff_eq, Bool.eq_iff_iff]

/-- A trigger that sets the lamp to one. -/
def lampSet : Node :=
  ⟨"light", .trigger { event := "setFlag", params := [("flag", .string "lamp"), ("value", .int 1)] }⟩

/-- Whether the lamp is one, as a number that is no integer. -/
def lampBurns : Condition :=
  { check := .hasFlag, target := "lamp", expected := .float (.ofRatio false 1 1) }

/-- The lamp is lit, and looked at. -/
def lighthouse : Graph :=
  { script := {
      id := "lighthouse"
      nodes := [lampSet, ⟨"look", .condition lampBurns⟩, ⟨"end", .ending⟩]
      connections := [{ source := "light", output := 0, target := "look" },
        { source := "look", output := 0, target := "end" }] }
    entry := lampSet }

/-- The lamp is set to the integer one, and is found to be the number one: the first output is taken. -/
theorem lamp_found_burning :
    let u := (glade.begin (.visit 0 lampSet lighthouse)).play [.move, .move]
    let v := (u.session.begin (.visit 0 ⟨"look", .condition lampBurns⟩ lighthouse)).play [.move]
    FlagStore.Executes {} [lampSet] u.session.flags ∧ lastSet? "lamp" [lampSet] = some (.int 1) ∧
      v.control = .done (.stepped ⟨⟨"look", .condition lampBurns⟩, .next ⟨"end", .ending⟩⟩) := by
  intro u v
  have set : lastSet? "lamp" [lampSet] = some (.int 1) := by decide +kernel
  have lit : History (answersUntilBack []) (glade.begin (.visit 0 lampSet lighthouse)) _ u :=
    Turn.history_of_play? (Turn.play?_eq (by decide +kernel)) (by decide +kernel)
  have executes : FlagStore.Executes {} [lampSet] u.session.flags :=
    .snoc .nil lit ⟨by decide +kernel, by decide +kernel⟩
  have looked : History (answersUntilBack [])
      (u.session.begin (.visit 0 ⟨"look", .condition lampBurns⟩ lighthouse)) _ v :=
    Turn.history_of_play? (Turn.play?_eq (by decide +kernel)) (by decide +kernel)
  obtain ⟨-, -, ends⟩ := condition_sees rfl executes rfl looked
  obtain ⟨output, -, control, flag, -⟩ := ends ⟨by decide +kernel, by decide +kernel⟩
  have one : (Scalar.int 1).Matches (.float (.ofRatio false 1 1)) :=
    .number rfl rfl ⟨_, _, rfl, by decide +kernel, rfl⟩
  obtain rfl : output = 0 := (flag _ rfl rfl).2 (.inr ⟨_, set, one⟩)
  exact ⟨executes, set, control.trans (by decide +kernel)⟩

end Questline

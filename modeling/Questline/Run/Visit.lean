import Questline.Run.Task

/-!
# Visiting nodes

A visit does what the node says and gives back a step.  Items, triggers and conditions
go on to the node behind one of their outputs; a dialogue, a choice, an image and a
battle suspend the run, and an answer later takes an output.  An output to which nothing
is connected ends the path.
-/

namespace Questline.Session

open Json (Value)

/-! ## Outputs -/

/-- The output that is taken unless there is a choice, and the one for what holds and
for a victory. -/
def firstOutput : Int := 0

/-- The output for what does not hold and for a defeat. -/
def secondOutput : Int := 1

/-- The output for what holds or does not. -/
def outputOf (holds : Bool) : Int := if holds then firstOutput else secondOutput

/-- Take an output of a node. -/
def follow (s : Session) (r : RunId) (node : Node) (output : Int) (graph : Graph) : Move :=
  let s := s.setRun r fun run => { run with activity := .advancing }
  match graph.follow? node.id output with
  | some next => .stepped s node (.next next)
  | none => .stepped s node .terminal

/-! ## Effects -/

/-- Report warnings, each remembered by the run before the host hears of it. -/
def report (s : Session) (r : RunId) : List Warning → Move
  | [] => .finished s
  | w :: ws => .ask (s.setRun r (·.warn w)) (.report r w ws)

/-- Do what a trigger does. -/
def perform (s : Session) (r : RunId) : Effect → Move
  | .world event => .ask s (.world event)
  | .setFlag name value =>
    match s.flags.set s.files name value with
    | (flags, files, .ok ()) => .finished { s with flags, files }
    | (flags, files, .error f) => .failure { s with flags, files } f
  | .spawn request => .ask s (.spawn r request)
  | .remove npc => .ask s (.remove r npc)

/-- Do what a trigger does, if its event is known and its parameters are right. -/
def dispatch (s : Session) (r : RunId) (t : Trigger) : Move :=
  match Effect.ofTrigger t with
  | .ok effect => s.perform r effect
  | .error f => .failure s f

/-- Hand out or take away items. -/
def applyItem (s : Session) (r : RunId) (node : String) (i : ItemChange) : Move :=
  match i.action with
  | .give => .ask s (.give i.item i.amount)
  | .take | .other _ => .ask s (.take r node i.item i.amount)

/-- Check a condition and take its output. -/
def check (s : Session) (r : RunId) (node : Node) (c : Condition) (graph : Graph) : Move :=
  match c.check with
  | .hasFlag =>
    s.follow r node (outputOf (Scalar.meets (s.flags.get? c.target) c.expected)) graph
  | .hasItem | .other _ => .ask s (.count r node c graph)

/-- Whether a number of items is what a condition expects: at least the amount, or fewer
if that is expected. -/
def countMeets (c : Condition) (count : Number) : Bool :=
  match c.expected with
  | .bool expected => c.amount.atMost count == expected
  | _ => c.amount.atMost count

/-! ## Visits -/

/-- Visit a node. -/
def visit (s : Session) (r : RunId) (node : Node) (graph : Graph) : Move :=
  let s := s.setRun r fun run =>
    { run.count node.kind.word with node := some node.id, activity := .running }
  match node.body with
  | .dialogue d =>
    (s.report r (Warning.ofDialogue node.id d)).under
      (.stepping ⟨node, .suspend (.card (.dialogue (d.card node.id)))⟩)
  | .choice c =>
    (s.report r (Warning.ofText node.id "question" c.question)).under
      (.stepping ⟨node, .suspend (.card (.choice ⟨node.id, c.question, c.options⟩))⟩)
  | .image i => .stepped s node (.suspend (.card (.image ⟨node.id, i.path, i.duration⟩)))
  | .item i => (s.applyItem r node.id i).under (.following r node firstOutput graph)
  | .trigger t => (s.dispatch r t).under (.triggering r node graph)
  | .condition c => s.check r node c graph
  | .combat opponent => .stepped s node (.suspend (.battle opponent))
  | .link l => .stepped s node (.link l)
  | .ending => .stepped s node .finish

/-- The answer as it is remembered, if it lies among a number of options. -/
def pick? (options : Nat) (answer : Value) : Option Pick :=
  match answer with
  | .int i => if 0 ≤ i ∧ i < options then some (.option i.toNat) else none
  | .float x =>
    if Binary64.zero.numLe x && x.numLt (.ofRatio false options 1) then some (.fraction x)
    else none
  | _ => none

/-- What is wrong with an answer that does not lie among the options. -/
def answerFault (node : String) (options : Nat) (answer : Value) : Fault :=
  match answer with
  | .null => .noAnswer node
  | .bool _ | .int _ | .float _ => .data (.noSuchOption answer node options)
  | .string _ | .array _ | .object _ => .uncomparable answer

/-- Go on after the player's answer.  A choice remembers an answer that lies among its
options and takes the output of that number; every other node takes its only output. -/
def respond (s : Session) (r : RunId) (node : Node) (graph : Graph) (answer : Value) : Move :=
  match node.body with
  | .choice c =>
    match pick? c.options.length answer with
    | some pick =>
      let s := s.setRun r fun run => { run with ledger := run.ledger.put node.id pick }
      match pick with
      | .option i => s.follow r node i graph
      | .fraction x => .failure s (.noPosition x)
    | none => .failure s (answerFault node.id c.options.length answer)
  | _ => s.follow r node firstOutput graph

/-- Go on after a battle. -/
def resolve (s : Session) (r : RunId) (node : Node) (graph : Graph) (outcome : Value) : Move :=
  match outcome with
  | .string "victory" => s.follow r node firstOutput graph
  | .string "defeat" => s.follow r node secondOutput graph
  | _ => .failure s (.badOutcome outcome)

end Questline.Session

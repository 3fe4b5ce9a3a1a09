import Questline.Script.Effect
import Questline.Script.Graph
import Questline.Text.Blank

/-!
# Issues of a script

A script can be looked through without being run.  The search goes on past each
problem: a node whose id was used before and a connection that cannot be followed are
reported and set aside, and what is kept is examined for an entry, for nodes that
cannot be reached and for outputs that lead nowhere.

* `Script.issues`: everything found, in a fixed order: nodes, connections, the entry,
  reachability, then each kept node by itself.
* `Script.keptNodes`, `Script.keptConnections`: what is not set aside.
* `Search.next?`, `reachable`: the search for nodes that can be reached, round by round.
* `Issue.line`: an issue on one line.
-/

namespace Questline

/-! ## Issues -/

/-- How bad an issue is. -/
inductive Severity where
  | error
  | warning
  deriving DecidableEq

/-- The name of a severity. -/
def Severity.word : Severity → String
  | .error => "ERROR"
  | .warning => "WARN"

/-- What is found in a script. -/
inductive Finding where
  | repeatedNode (node : String)
  | missingNode (source missing : String)
  | noSuchOutput (node : String) (kind : NodeKind) (output : Int)
  | repeatedOutput (node : String) (output : Int)
  | ambiguousEntry (candidates : List String)
  | unreachable (node : String)
  | noOptions (node : String)
  | openOption (node : String) (index : Nat) (option : String)
  | openCondition (node label : String)
  | openBattle (node label : String)
  | unknownEvent (node event : String)
  | noLinkTarget (node : String)
  | deadEnd (node : String) (kind : NodeKind)
  /-- The script cannot be had at all. -/
  | notLoaded (fault : DataFault)
  deriving DecidableEq

namespace Finding

/-- How bad the finding is: an error if the script cannot be run as it stands. -/
def severity : Finding → Severity
  | .repeatedNode _ | .missingNode _ _ | .noSuchOutput _ _ _ | .repeatedOutput _ _
  | .ambiguousEntry _ | .noOptions _ | .noLinkTarget _ | .notLoaded _ => .error
  | .unreachable _ | .openOption _ _ _ | .openCondition _ _ | .openBattle _ _
  | .unknownEvent _ _ | .deadEnd _ _ => .warning

/-- The code of the finding. -/
def code : Finding → String
  | .repeatedNode _ => "DUPLICATE_NODE_ID"
  | .missingNode _ _ => "MISSING_NODE_REF"
  | .noSuchOutput _ _ _ => "INVALID_OUTPUT_INDEX"
  | .repeatedOutput _ _ => "DUPLICATE_CONNECTION"
  | .ambiguousEntry _ => "AMBIGUOUS_ENTRY"
  | .unreachable _ => "UNREACHABLE_NODE"
  | .noOptions _ => "EMPTY_CHOICE"
  | .openOption _ _ _ => "MISSING_CHOICE_BRANCH"
  | .openCondition _ _ => "MISSING_CONDITION_BRANCH"
  | .openBattle _ _ => "MISSING_COMBAT_BRANCH"
  | .unknownEvent _ _ => "UNKNOWN_TRIGGER_EVENT"
  | .noLinkTarget _ => "EMPTY_LINK_TARGET"
  | .deadEnd _ _ => "DEAD_END"
  | .notLoaded _ => "LOAD_ERROR"

/-- The finding in words. -/
def message : Finding → String
  | .repeatedNode _ => "Duplicate node id detected."
  | .missingNode _ _ => "Connection references missing node."
  | .noSuchOutput _ kind output => kind.word ++ " node has no output " ++ intText output ++ "."
  | .repeatedOutput _ output => "Output " ++ intText output ++ " is connected more than once."
  | .ambiguousEntry _ => "Script must have exactly one entry node."
  | .unreachable _ => "Node cannot be reached from the entry node."
  | .noOptions _ => "Choice node has no options."
  | .openOption _ index option =>
    "Option " ++ natText index ++ " (" ++ Text.quoted option ++
      ") leads nowhere; choosing it stops the script."
  | .openCondition _ label => "The " ++ label ++ " output is not connected."
  | .openBattle _ label => "The " ++ label ++ " output is not connected."
  | .unknownEvent _ event =>
    "Trigger event '" ++ event ++ "' is not recognised and will be skipped."
  | .noLinkTarget _ => "Link node has no target script."
  | .deadEnd _ kind =>
    kind.word ++ " node has no outgoing connection; the script stops here."
  | .notLoaded fault => fault.message

/-- What the finding is about, beside the script. -/
def details : Finding → Entries String
  | .repeatedNode node | .noSuchOutput node _ _ | .repeatedOutput node _ | .unreachable node
  | .noOptions node | .openOption node _ _ | .openCondition node _ | .openBattle node _
  | .unknownEvent node _ | .noLinkTarget node | .deadEnd node _ => [("node_id", node)]
  | .missingNode source missing => [("node_id", source), ("referenced_id", missing)]
  | .ambiguousEntry candidates => [("candidates", listed "," candidates)]
  | .notLoaded _ => []

end Finding

/-- A finding in a script. -/
structure Issue where
  script : String
  finding : Finding
  deriving DecidableEq

namespace Issue

/-- What the issue is about. -/
def context (i : Issue) : Entries String := ("script_id", i.script) :: i.finding.details

/-- The issue on one line. -/
def line (i : Issue) : String :=
  "[" ++ i.finding.severity.word ++ "] " ++ i.finding.code ++ ": " ++ i.finding.message ++ " (" ++
    " ".intercalate (i.context.map fun e => e.1 ++ "=" ++ e.2) ++ ")"

/-- Whether the issue is an error. -/
def isError (i : Issue) : Bool := i.finding.severity == .error

end Issue

/-- Whether any issue is an error. -/
def hasErrors (issues : List Issue) : Bool := issues.any Issue.isError

/-! ## What is kept -/

/-- Keep the nodes whose id is new; `kept` holds the nodes before. -/
def keepNodes : (kept nodes : List Node) → List Node
  | kept, [] => kept
  | kept, n :: nodes =>
    if kept.any (·.id == n.id) then keepNodes kept nodes else keepNodes (kept ++ [n]) nodes

/-- The findings about nodes whose id is not new; `kept` holds the nodes before. -/
def repeatedNodes : (kept nodes : List Node) → List Finding
  | _, [] => []
  | kept, n :: nodes =>
    if kept.any (·.id == n.id) then .repeatedNode n.id :: repeatedNodes kept nodes
    else repeatedNodes (kept ++ [n]) nodes

/-- What is wrong with a connection between the nodes that are kept; `kept` holds the
connections before. -/
def connectionFinding? (nodes : List Node) (kept : List Connection) (c : Connection) :
    Option Finding :=
  match nodes.find? (·.id == c.source) with
  | none => some (.missingNode c.source c.source)
  | some n =>
    if !nodes.any (·.id == c.target) then some (.missingNode c.source c.target)
    else if !(0 ≤ c.output && c.output < n.outputs) then
      some (.noSuchOutput n.id n.kind c.output)
    else if kept.any c.sameOutput then some (.repeatedOutput n.id c.output)
    else none

/-- Keep the connections with which nothing is wrong; `kept` holds those before. -/
def keepConnections (nodes : List Node) : (kept connections : List Connection) → List Connection
  | kept, [] => kept
  | kept, c :: connections =>
    match connectionFinding? nodes kept c with
    | some _ => keepConnections nodes kept connections
    | none => keepConnections nodes (kept ++ [c]) connections

/-- The findings about connections; `kept` holds those that were kept before. -/
def connectionFindings (nodes : List Node) : (kept connections : List Connection) → List Finding
  | _, [] => []
  | kept, c :: connections =>
    match connectionFinding? nodes kept c with
    | some f => f :: connectionFindings nodes kept connections
    | none => connectionFindings nodes (kept ++ [c]) connections

namespace Script

/-- The nodes that are not set aside. -/
def keptNodes (s : Script) : List Node := keepNodes [] s.nodes

/-- The connections that are not set aside. -/
def keptConnections (s : Script) : List Connection := keepConnections s.keptNodes [] s.connections

/-- The kept nodes that are no ends and the target of no kept connection. -/
def candidates (s : Script) : List String :=
  (s.keptNodes.filter fun n =>
    !n.isEnding && !s.keptConnections.any (·.target == n.id)).map (·.id)

end Script

/-! ## Reachability -/

/-- A search along connections: the nodes that were seen, and those among them whose
connections are still to be followed. -/
structure Search where
  seen : List String
  queue : List String
  deriving DecidableEq

namespace Search

/-- The search that begins at a node. -/
def start (entry : String) : Search := ⟨[entry], [entry]⟩

/-- See a node: a new one is queued. -/
def see (s : Search) (node : String) : Search :=
  if s.seen.contains node then s else ⟨s.seen ++ [node], s.queue ++ [node]⟩

/-- The nodes that the connections of a node lead to. -/
def targets (connections : List Connection) (node : String) : List String :=
  (connections.filter (·.source == node)).map (·.target)

/-- A round: the first node of the queue is taken out, and the nodes that its connections
lead to are seen.  There is none once the queue is empty. -/
def next? (connections : List Connection) (s : Search) : Option Search :=
  match s.queue with
  | [] => none
  | node :: queue => some ((targets connections node).foldl see ⟨s.seen, queue⟩)

/-- How many rounds there can still be: one for each node of the queue, and one for each
connection to a node that was not seen yet. -/
def left (connections : List Connection) (s : Search) : Nat :=
  s.queue.length + (connections.filter fun c => !s.seen.contains c.target).length

variable {connections : List Connection} {s t : Search}

theorem left_see {node : String} (h : ∃ c ∈ connections, c.target = node) :
    (s.see node).left connections ≤ s.left connections := by
  unfold see
  split
  case isTrue => exact Nat.le_refl _
  case isFalse new =>
    obtain ⟨c, hc, rfl⟩ := h
    have fewer : ((connections.filter fun d => !s.seen.contains d.target).filter
        fun d => !decide (d.target = c.target)).length <
          (connections.filter fun d => !s.seen.contains d.target).length :=
      List.length_filter_lt_length_iff_exists.2
        ⟨c, List.mem_filter.2 ⟨hc, by simpa using new⟩, by simp⟩
    have split : (connections.filter fun d => !(s.seen ++ [c.target]).contains d.target) =
        (connections.filter fun d => !s.seen.contains d.target).filter
          fun d => !decide (d.target = c.target) := by
      rw [List.filter_filter]
      congr 1
      funext d
      simp [Bool.and_comm]
    simp only [left, List.length_append, List.length_singleton, split]
    omega

/-- Each round leaves fewer rounds. -/
theorem left_next? (h : s.next? connections = some t) : t.left connections < s.left connections := by
  have sees (nodes : List String) (u : Search)
      (hn : ∀ node ∈ nodes, ∃ c ∈ connections, c.target = node) :
      (nodes.foldl see u).left connections ≤ u.left connections := by
    induction nodes generalizing u with
    | nil => exact Nat.le_refl _
    | cons node nodes ih =>
      exact Nat.le_trans (ih _ fun m hm => hn m (List.mem_cons_of_mem _ hm))
        (left_see (hn node List.mem_cons_self))
  unfold next? at h
  split at h
  case h_1 => cases h
  case h_2 node queue hq =>
    obtain rfl := Option.some.inj h
    refine Nat.lt_of_le_of_lt (sees _ _ fun m hm => ?_) ?_
    · obtain ⟨c, hc, rfl⟩ := List.mem_map.1 hm
      exact ⟨c, (List.mem_filter.1 hc).1, rfl⟩
    · simp only [left, hq, List.length_cons]
      omega

/-- What was seen when the search is over. -/
def run (connections : List Connection) (s : Search) : List String :=
  match _h : s.next? connections with
  | none => s.seen
  | some t => t.run connections
termination_by s.left connections
decreasing_by exact left_next? _h

end Search

/-- The nodes that a way along the connections leads to. -/
def reachable (connections : List Connection) (entry : String) : List String :=
  (Search.start entry).run connections

/-! ## Single nodes -/

/-- Whether a connection leaves a node through an output. -/
def isConnected (connections : List Connection) (node : String) (output : Nat) : Bool :=
  connections.any fun c => c.source == node && c.output == output

/-- The options of a choice that lead nowhere. -/
def openOptions (connections : List Connection) (node : String) :
    (index : Nat) → List String → List Finding
  | _, [] => []
  | index, option :: options =>
    if isConnected connections node index then openOptions connections node (index + 1) options
    else .openOption node index option :: openOptions connections node (index + 1) options

/-- The findings of one label for each output that leads nowhere. -/
def openOutputs (connections : List Connection) (node : String) (finding : String → Finding) :
    (index : Nat) → (labels : List String) → List Finding
  | _, [] => []
  | index, label :: labels =>
    if isConnected connections node index then
      openOutputs connections node finding (index + 1) labels
    else finding label :: openOutputs connections node finding (index + 1) labels

/-- The findings about a node by itself. -/
def Node.findings (connections : List Connection) (n : Node) : List Finding :=
  match n.body with
  | .choice c =>
    (if c.options.isEmpty then [.noOptions n.id] else []) ++
      openOptions connections n.id 0 c.options
  | .condition _ => openOutputs connections n.id (.openCondition n.id) 0 ["true", "false"]
  | .combat _ => openOutputs connections n.id (.openBattle n.id) 0 ["victory", "defeat"]
  | .trigger t => if Effect.isKnown t.event then [] else [.unknownEvent n.id t.event]
  | .link l => if Text.allBlank l.target.toList then [.noLinkTarget n.id] else []
  | .ending => []
  | .dialogue _ | .image _ | .item _ =>
    if isConnected connections n.id 0 then [] else [.deadEnd n.id n.kind]

/-! ## Whole scripts -/

namespace Script

/-- The findings about the entry and, if there is one, about what it does not reach. -/
def entryFindings (s : Script) : List Finding :=
  match s.candidates with
  | [entry] =>
    let reached := reachable s.keptConnections entry
    (s.keptNodes.filter fun n => !reached.contains n.id).map fun n => .unreachable n.id
  | candidates => [.ambiguousEntry candidates]

/-- Everything found in a script. -/
def findings (s : Script) : List Finding :=
  repeatedNodes [] s.nodes ++ connectionFindings s.keptNodes [] s.connections ++
    s.entryFindings ++ s.keptNodes.flatMap (Node.findings s.keptConnections)

/-- The issues of a script. -/
def issues (s : Script) : List Issue := s.findings.map (⟨s.id, ·⟩)

end Script

end Questline

import Questline.Fault

/-!
# Graphs

A graph is a script that holds together: node ids are distinct, every connection
joins two of its nodes through an output that its source has and no other connection
uses, and exactly one node that is not an end is the target of no connection.  That
node is the entry.

* `Graph.ofScript`: the graph of a script, or the first fault: of the nodes, then of
  the connections in order, then of the entry.
* `Graph.node?`: the node of an id.
* `Graph.follow?`: the node that an output leads to.
-/

namespace Questline

namespace Script

/-- The first node of an id. -/
def node? (s : Script) (id : String) : Option Node := s.nodes.find? (·.id == id)

/-- Whether the script has a node of an id. -/
def hasNode (s : Script) (id : String) : Bool := s.nodes.any (·.id == id)

end Script

/-- Whether two connections leave the same node through the same output. -/
def Connection.sameOutput (c d : Connection) : Bool :=
  c.source == d.source && c.output == d.output

namespace Graph

/-- Check that ids are distinct; `earlier` holds the nodes before. -/
def checkNodes (script : String) : (earlier nodes : List Node) → Except Fault Unit
  | _, [] => .ok ()
  | earlier, n :: nodes =>
    if earlier.any (·.id == n.id) then .error (.data (.repeatedNode script n.id))
    else checkNodes script (earlier ++ [n]) nodes

/-- Check a connection; `earlier` holds the connections before. -/
def checkConnection (s : Script) (earlier : List Connection) (c : Connection) :
    Except Fault Unit :=
  match s.node? c.source with
  | none => .error (.data (.unknownSource s.id c.source))
  | some n =>
    if !s.hasNode c.target then .error (.data (.unknownTarget s.id c.target))
    else if !(0 ≤ c.output && c.output < n.outputs) then
      .error (.data (.noSuchOutput s.id n.id n.kind c.output))
    else if earlier.any c.sameOutput then .error (.data (.repeatedOutput s.id n.id c.output))
    else .ok ()

/-- Check connections in order; `earlier` holds those before. -/
def checkConnections (s : Script) : (earlier connections : List Connection) → Except Fault Unit
  | _, [] => .ok ()
  | earlier, c :: connections =>
    match checkConnection s earlier c with
    | .error e => .error e
    | .ok () => checkConnections s (earlier ++ [c]) connections

/-- The nodes that are no ends and the target of no connection. -/
def entries (s : Script) : List Node :=
  s.nodes.filter fun n => !n.isEnding && !s.connections.any (·.target == n.id)

end Graph

/-- A script that holds together, with its entry. -/
structure Graph where
  script : Script
  entry : Node
  deriving DecidableEq

namespace Graph

/-- The graph of a script. -/
def ofScript (s : Script) : Except Fault Graph := do
  checkNodes s.id [] s.nodes
  checkConnections s [] s.connections
  match entries s with
  | [n] => return { script := s, entry := n }
  | ns => throw (.data (.ambiguousEntry s.id (ns.map (·.id))))

/-- The id of the graph's script. -/
def id (g : Graph) : String := g.script.id

/-- The node of an id. -/
def node? (g : Graph) (id : String) : Option Node := g.script.node? id

/-- The node that an output of a node leads to. -/
def follow? (g : Graph) (id : String) (output : Int) : Option Node :=
  match g.script.connections.find? fun c => c.source == id && c.output == output with
  | some c => g.node? c.target
  | none => none

end Graph

end Questline

import Mathlib.Data.List.ProdSigma
import Questline.Proofs.Coherence

/-!
# Filling in a script that has a graph

The texts of a linked script are filled in after its graph was built.  The nodes are changed where they
are, and the graph is not built again: it keeps under which id which node stands, where the outputs lead
and which node is the entry, and through this it shows the nodes as they are now.

Nothing of what it keeps depends on a text that is filled in.  So the graph that was built before shows
just what a graph would show that is built from the rewritten script.

* `Node.spoken?`, `Node.bare`: the four template fields of a node, and the rest of it.
* `Node.Retouched`: a node of which only these fields are filled in.
* `Script.differences`: in which fields of which nodes two scripts differ.
* `Graph.ofScript_fill`: building a graph and filling in can be exchanged, also where there is no graph.
* `Graph.Index`: what a graph keeps, `Graph.Index.follow?_ofScript`: what it shows by that.
* `fill_keeps_graph`: what is changed in a script, what is not, and that its graph stays.
-/

namespace Questline

/-! ## Template fields -/

/-- The fields of nodes that templates are filled into. -/
inductive TemplateField where
  | text
  | speaker
  | question
  | character
  deriving DecidableEq

/-- The template fields, in the order in which they are filled in. -/
def TemplateField.all : List TemplateField := [.text, .speaker, .question, .character]

namespace Node

/-- What a node holds in a template field; none if it has no such field, and if there is nothing in it. -/
def spoken? (n : Node) : TemplateField → Option String
  | .text => match n.body with
    | .dialogue d => some d.text
    | _ => none
  | .speaker => match n.body with
    | .dialogue d => some d.speaker
    | _ => none
  | .question => match n.body with
    | .choice c => some c.question
    | _ => none
  | .character => match n.body with
    | .dialogue d => d.character
    | _ => none

/-- A node without what it holds in its template fields. -/
def bare (n : Node) : Node :=
  match n.body with
  | .dialogue d => { n with body := .dialogue { d with text := "", speaker := "", character := none } }
  | .choice c => { n with body := .choice { c with question := "" } }
  | _ => n

/-- **A node of which only the template fields are filled in.** -/
structure Retouched (table : TemplateTable) (n n' : Node) : Prop where
  id : n'.id = n.id
  kind : n'.kind = n.kind
  rest : n'.bare = n.bare
  fields : ∀ field, n'.spoken? field = (n.spoken? field).map (Template.fill table)

variable {n : Node} {table : TemplateTable}

/-- Filling in changes the template fields, and nothing else. -/
theorem retouched_fill (table : TemplateTable) (n : Node) : n.Retouched table (n.fill table) := by
  obtain ⟨id, body⟩ := n
  cases body with
  | dialogue d => exact ⟨rfl, rfl, rfl, fun field => by cases field <;> rfl⟩
  | choice c => exact ⟨rfl, rfl, rfl, fun field => by cases field <;> rfl⟩
  | image | item | trigger | condition | combat | link | ending =>
    exact ⟨rfl, rfl, rfl, fun field => by cases field <;> rfl⟩

theorem kind_fill : (n.fill table).kind = n.kind := (retouched_fill table n).kind

theorem outputs_fill : (n.fill table).outputs = n.outputs := by
  obtain ⟨id, body⟩ := n
  cases body <;> rfl

theorem isEnding_fill : (n.fill table).isEnding = n.isEnding := by
  rw [isEnding, isEnding, kind_fill]

/-- The texts of a node are what it holds in its template fields. -/
theorem countP_templates (p : String → Bool) :
    n.templates.countP p = TemplateField.all.countP fun field => (n.spoken? field).any p := by
  obtain ⟨id, body⟩ := n
  cases body with
  | dialogue d =>
    obtain ⟨text, speaker, character, emoji, portrait⟩ := d
    cases character <;> simp [templates, TemplateField.all, spoken?, List.countP_cons]
  | choice c => simp [templates, TemplateField.all, spoken?, List.countP_cons]
  | image | item | trigger | condition | combat | link | ending => rfl

end Node

/-! ## Counting -/

/-- A field that is filled in differs just if there is something in it and that is changed. -/
theorem map_fill_bne (table : TemplateTable) (held : Option String) :
    (held.map (Template.fill table) != held) = held.any fun text => Template.fill table text != text := by
  cases held with
  | none => rfl
  | some text => exact Bool.eq_iff_iff.2 (by simp)

namespace Script

/-- **In which fields of which nodes** two scripts differ, the nodes being compared in their order. -/
def differences (s s' : Script) : List ((Node × Node) × TemplateField) :=
  ((s.nodes.zip s'.nodes) ×ˢ TemplateField.all).filter fun p =>
    p.1.2.spoken? p.2 != p.1.1.spoken? p.2

/-- **Each change is counted once.** -/
theorem changes_eq_differences (table : TemplateTable) (s : Script) :
    s.changes table = (s.differences (s.fill table)).length := by
  have pairs : s.nodes.zip (s.fill table).nodes = s.nodes.map fun n => (n, n.fill table) := by
    rw [fill, List.zip_map_right, List.zip_eq_zipWith, List.zipWith_self, List.map_map]
    rfl
  rw [changes, differences, ← List.countP_eq_length_filter, pairs]
  induction s.nodes with
  | nil => rfl
  | cons n nodes ih =>
    have here : (TemplateField.all.map (Prod.mk (n, n.fill table))).countP
        (fun p => p.1.2.spoken? p.2 != p.1.1.spoken? p.2) =
          n.templates.countP fun text => Template.fill table text != text := by
      rw [List.countP_map, Node.countP_templates]
      congr 1
      funext field
      simp only [Function.comp_apply, (Node.retouched_fill table n).fields, map_fill_bne]
    rw [List.flatMap_cons, List.countP_append, ih, List.map_cons, List.product_cons, List.countP_append, here]

/-! ## Graphs -/

variable {s : Script} {table : TemplateTable} {id : String}

theorem node?_fill : (s.fill table).node? id = (s.node? id).map (Node.fill table) := by
  rw [node?, node?, fill, List.find?_map]
  rfl

theorem hasNode_fill : (s.fill table).hasNode id = s.hasNode id := by
  rw [hasNode, hasNode, fill, List.any_map]
  rfl

end Script

namespace Graph

variable {s : Script} {g : Graph} {table : TemplateTable} {id script : String} {output : Int}

theorem checkNodes_fill (earlier nodes : List Node) :
    checkNodes script (earlier.map (Node.fill table)) (nodes.map (Node.fill table)) =
      checkNodes script earlier nodes := by
  induction nodes generalizing earlier with
  | nil => rfl
  | cons n nodes ih =>
    have known : (earlier.map (Node.fill table)).any (·.id == (n.fill table).id) =
        earlier.any (·.id == n.id) := by
      rw [List.any_map]
      rfl
    have later := ih (earlier ++ [n])
    rw [List.map_append, List.map_singleton] at later
    rw [List.map_cons, checkNodes, checkNodes, known, later]
    rfl

/-- A connection is checked by what the nodes are, not by what they say. -/
theorem checkConnection_fill (earlier : List Connection) (c : Connection) :
    checkConnection (s.fill table) earlier c = checkConnection s earlier c := by
  rw [checkConnection, checkConnection, Script.node?_fill]
  cases s.node? c.source with
  | none => rfl
  | some n =>
    simp only [Option.map_some, Script.hasNode_fill, Node.outputs_fill, Node.kind_fill]
    rfl

theorem checkConnections_fill (earlier connections : List Connection) :
    checkConnections (s.fill table) earlier connections = checkConnections s earlier connections := by
  induction connections generalizing earlier with
  | nil => rfl
  | cons c connections ih => rw [checkConnections, checkConnections, checkConnection_fill, ih]

theorem entries_fill : entries (s.fill table) = (entries s).map (Node.fill table) := by
  rw [entries, entries, Script.fill, List.filter_map]
  congr 2
  funext n
  simp only [Function.comp_apply, Node.isEnding_fill]
  rfl

/-- **Building a graph and filling in can be exchanged**: if there is no graph, the fault is the same. -/
theorem ofScript_fill (table : TemplateTable) (s : Script) :
    ofScript (s.fill table) = (ofScript s).map (Graph.fill table) := by
  have nodes : checkNodes (s.fill table).id [] (s.fill table).nodes = checkNodes s.id [] s.nodes :=
    checkNodes_fill [] s.nodes
  rw [ofScript, ofScript, nodes, checkConnections_fill, entries_fill]
  cases checkNodes s.id [] s.nodes with
  | error f => rfl
  | ok =>
    have connections : (s.fill table).connections = s.connections := rfl
    rw [connections]
    cases checkConnections s [] s.connections with
    | error f => rfl
    | ok =>
      cases entries s with
      | nil => rfl
      | cons n rest =>
        cases rest with
        | nil => rfl
        | cons m rest =>
          have ids : ((n :: m :: rest).map (Node.fill table)).map (·.id) = (n :: m :: rest).map (·.id) := by
            rw [List.map_map]
            rfl
          exact congrArg (fun ids => Except.error (Fault.data (.ambiguousEntry s.id ids))) ids

/-- Outputs lead to the same nodes, filled in. -/
theorem follow?_fill : (g.fill table).follow? id output = (g.follow? id output).map (Node.fill table) := by
  have connections : (g.fill table).script.connections = g.script.connections := rfl
  rw [follow?, follow?, connections]
  cases g.script.connections.find? fun c => c.source == id && c.output == output with
  | none => rfl
  | some c => exact node?_fill table

/-! ## What a graph keeps -/

/-- What a graph keeps of its script.  A node is kept by its place, so that what is changed there is seen
through the graph. -/
structure Index where
  places : Entries Nat
  edges : List ((String × Int) × String)
  entry : Nat
  deriving DecidableEq

namespace Index

/-- What the graph of a script keeps. -/
def ofScript (s : Script) : Index where
  places := s.nodes.zipIdx.map fun e => (e.1.id, e.2)
  edges := s.connections.map fun c => ((c.source, c.output), c.target)
  entry := s.nodes.findIdx fun n => !n.isEnding && !s.connections.any (·.target == n.id)

/-- The entry, as it is among the nodes now. -/
def entryNode? (index : Index) (nodes : List Node) : Option Node := nodes[index.entry]?

/-- The node of an id, as it is among the nodes now. -/
def node? (index : Index) (nodes : List Node) (id : String) : Option Node :=
  (index.places.get? id).bind (nodes[·]?)

/-- The node that an output leads to, as it is among the nodes now. -/
def follow? (index : Index) (nodes : List Node) (id : String) (output : Int) : Option Node :=
  (index.edges.find? (·.1 == (id, output))).bind fun edge => index.node? nodes edge.2

/-- Each node is found at its place. -/
theorem node?_ofScript (s : Script) (id : String) : (ofScript s).node? s.nodes id = s.node? id := by
  -- The places count on from the nodes before, so the induction is on what is left of the list.
  have placed (nodes before : List Node) :
      (((nodes.zipIdx before.length).map fun e => (e.1.id, e.2)).find? (·.1 == id)).bind
        (fun e => (before ++ nodes)[e.2]?) = nodes.find? (·.id == id) := by
    induction nodes generalizing before with
    | nil => rfl
    | cons n nodes ih =>
      rw [List.zipIdx_cons, List.map_cons, List.find?_cons, List.find?_cons]
      cases n.id == id with
      | true => simp
      | false => simpa using ih (before ++ [n])
  have found := placed s.nodes []
  rw [node?, ofScript, Entries.get?, Option.bind_map]
  exact found

/-- The edges are the connections. -/
theorem follow?_ofScript (s : Script) (g : Graph) (h : g.script = s) (id : String) (output : Int) :
    (ofScript s).follow? s.nodes id output = g.follow? id output := by
  have same : ((fun edge : (String × Int) × String => edge.1 == (id, output)) ∘
      fun c : Connection => ((c.source, c.output), c.target)) =
        fun c => c.source == id && c.output == output := rfl
  subst h
  rw [follow?, Graph.follow?]
  simp only [node?_ofScript]
  rw [ofScript, List.find?_map, same]
  cases g.script.connections.find? fun c => c.source == id && c.output == output <;> rfl

theorem entryNode?_ofScript (h : Graph.ofScript s = .ok g) : (ofScript s).entryNode? s.nodes = some g.entry := by
  obtain ⟨-, -, -, one⟩ := ofScript_eq_ok_iff.1 h
  have first : s.nodes.find? (fun n => !n.isEnding && !s.connections.any (·.target == n.id)) =
      some g.entry := by
    rw [← List.head?_filter, ← entries, one, List.head?_cons]
  rw [entryNode?, ofScript, ← List.find?_eq_getElem?_findIdx]
  exact first

/-- **Filling in does not change what is kept.** -/
theorem ofScript_fill (table : TemplateTable) (s : Script) : ofScript (s.fill table) = ofScript s := by
  have places : (s.fill table).nodes.zipIdx.map (fun e => (e.1.id, e.2)) =
      s.nodes.zipIdx.map fun e => (e.1.id, e.2) := by
    rw [Script.fill, List.zipIdx_map, List.map_map]
    rfl
  have entry : (s.fill table).nodes.findIdx
      (fun n => !n.isEnding && !(s.fill table).connections.any (·.target == n.id)) =
        s.nodes.findIdx fun n => !n.isEnding && !s.connections.any (·.target == n.id) := by
    rw [Script.fill, List.findIdx_map]
    congr 1
    funext n
    simp only [Function.comp_apply, Node.isEnding_fill]
    rfl
  rw [ofScript, ofScript, places, entry]
  rfl

end Index

end Graph

/-- **A script with a graph can be filled in.**  In each of its nodes the template fields are filled in,
if there is something in them, and nothing else is changed; the changes are counted field by field.  The
graph built from the result is the graph with its texts filled in: it has the entry of the same id, and
outputs lead to nodes of the same ids.  And what the graph built before has kept shows, of the nodes as
they are now, just the same nodes. -/
theorem fill_keeps_graph (s : Script) (g : Graph) (table : TemplateTable) (h : Graph.ofScript s = .ok g) :
    (s.fill table).id = s.id ∧ (s.fill table).connections = s.connections ∧
      List.Forall₂ (Node.Retouched table) s.nodes (s.fill table).nodes ∧
      s.changes table = (s.differences (s.fill table)).length ∧
      Graph.ofScript (s.fill table) = .ok (g.fill table) ∧
      (g.fill table).entry.id = g.entry.id ∧
      (∀ id output, ((g.fill table).follow? id output).map (·.id) = (g.follow? id output).map (·.id)) ∧
      (Graph.Index.ofScript s).entryNode? (s.fill table).nodes = some (g.fill table).entry ∧
      (∀ id, (Graph.Index.ofScript s).node? (s.fill table).nodes id = (g.fill table).node? id) ∧
      ∀ id output, (Graph.Index.ofScript s).follow? (s.fill table).nodes id output =
        (g.fill table).follow? id output := by
  have retouched : List.Forall₂ (Node.Retouched table) s.nodes (s.fill table).nodes := by
    rw [Script.fill, List.forall₂_map_right_iff, List.forall₂_same]
    exact fun n _ => n.retouched_fill table
  have built : Graph.ofScript (s.fill table) = .ok (g.fill table) := by
    rw [Graph.ofScript_fill, h]
    rfl
  have script : (g.fill table).script = s.fill table := (Graph.ofScript_eq_ok_iff.1 built).2.2.1
  have kept : Graph.Index.ofScript s = Graph.Index.ofScript (s.fill table) :=
    (Graph.Index.ofScript_fill table s).symm
  refine ⟨rfl, rfl, retouched, s.changes_eq_differences table, built, rfl, ?_, ?_, ?_, ?_⟩
  · intro id output
    rw [Graph.follow?_fill, Option.map_map]
    rfl
  · rw [kept]
    exact Graph.Index.entryNode?_ofScript built
  · intro id
    rw [kept, Graph.Index.node?_ofScript, Graph.node?, script]
  · intro id output
    rw [kept]
    exact Graph.Index.follow?_ofScript _ _ script id output

/-! ### A welcome -/

/-- Someone whose name is not known yet. -/
def stranger : Node where
  id := "hello"
  body := .dialogue {
    text := "I am \x7b\x7bname\x7d\x7d."
    speaker := "\x7b\x7bname\x7d\x7d"
    emoji := "\x7b\x7bname\x7d\x7d" }

/-- A welcome by someone whose name is to be filled in. -/
def welcome : Script :=
  { id := "welcome"
    nodes := [stranger,
      ⟨"ask", .choice {
        question := "Do you know \x7b\x7bname\x7d\x7d?"
        options := ["\x7b\x7bname\x7d\x7d?", "Yes"] }⟩,
      ⟨"bye", .ending⟩]
    connections := [⟨"hello", 0, "ask"⟩, ⟨"ask", 0, "ask"⟩, ⟨"ask", 1, "bye"⟩] }

/-- With a name the welcome has three texts changed, and through the same graph it leads to the same
places. -/
theorem welcome_keeps_graph :
    let table := [("name", "Elf")]
    let g : Graph := ⟨welcome, stranger⟩
    Graph.ofScript welcome = .ok g ∧ welcome.changes table = 3 ∧
      List.Forall₂ (Node.Retouched table) welcome.nodes (welcome.fill table).nodes ∧
      Graph.ofScript (welcome.fill table) = .ok (g.fill table) ∧
      ((g.fill table).follow? "ask" 1).map (·.id) = some "bye" ∧
      (Graph.Index.ofScript welcome).entryNode? (welcome.fill table).nodes = some (g.fill table).entry ∧
      (Graph.Index.ofScript welcome).follow? (welcome.fill table).nodes "ask" 0 =
        (g.fill table).follow? "ask" 0 := by
  intro table g
  have built : Graph.ofScript welcome = .ok g := by decide
  obtain ⟨-, -, retouched, -, fresh, -, leads, shown, -, follows⟩ := fill_keeps_graph welcome g table built
  exact ⟨built, by decide, retouched, fresh, (leads "ask" 1).trans (by decide), shown, follows "ask" 0⟩

end Questline

import Mathlib.Data.List.Nodup
import Mathlib.Data.List.Pairwise
import Questline.Proofs.Walk

/-!
# Coherent scripts

What a script has to be like to have a graph can be said without going through it from one end to the
other: its nodes have different ids, its connections join nodes of the script through outputs that
those have, no two connections leave a node through the same output, and there is one node only, not
an end, that no connection leads to.  Such a script is coherent.

The graph is built by going through the script, and the first fault ends the building.  Each check
looks back at what came before it, so each is brought to a statement about all pairs
(`Graph.checkNodes_of_pairwise`, `Graph.checkConnections_eq_ok_iff_joins`).  A node is looked up by its
id, and there is only one to be found once the ids are known to be different.

* `Script.Coherent`: scripts that hold together, `Script.IsEntry`: where they begin.
* `Graph.ofScript_eq_ok_iff`: what has to be passed on the way to the graph.
* `graph_iff_coherent`: which scripts have a graph, where it begins and where its outputs lead.
-/

namespace Questline

/-! ## Scripts that hold together -/

/-- Two connections leave the same node through the same output. -/
def Connection.Parallel (c d : Connection) : Prop := c.source = d.source ∧ c.output = d.output

namespace Script

/-- A connection leaves a node of the script through an output that it has, and leads to a node of
the script. -/
def Joins (s : Script) (c : Connection) : Prop :=
  (∃ n ∈ s.nodes, n.id = c.source ∧ 0 ≤ c.output ∧ c.output < n.outputs) ∧
    ∃ n ∈ s.nodes, n.id = c.target

/-- A node that is no end and that no connection leads to. -/
def IsEntry (s : Script) (n : Node) : Prop :=
  n ∈ s.nodes ∧ n.isEnding = false ∧ ∀ c ∈ s.connections, c.target ≠ n.id

/-- **Scripts that hold together.** -/
structure Coherent (s : Script) : Prop where
  distinct : s.nodes.Pairwise fun n m => n.id ≠ m.id
  joined : ∀ c ∈ s.connections, s.Joins c
  apart : s.connections.Pairwise fun c d => ¬c.Parallel d
  oneEntry : ∃! n, s.IsEntry n

end Script

theorem Connection.sameOutput_iff {c d : Connection} : c.sameOutput d ↔ c.Parallel d := by
  simp [sameOutput, Parallel]

theorem Connection.Parallel.symm {c d : Connection} (h : c.Parallel d) : d.Parallel c :=
  ⟨h.1.symm, h.2.symm⟩

/-- No other connection of a coherent script leaves through the output of a connection. -/
theorem Script.Coherent.unique {s : Script} {c d : Connection} (h : s.Coherent)
    (hc : c ∈ s.connections) (hd : d ∈ s.connections) (parallel : c.Parallel d) : c = d := by
  have symm : Std.Symm fun c d : Connection => ¬c.Parallel d := ⟨fun _ _ h p => h p.symm⟩
  by_contra other
  exact h.apart.forall hc hd other parallel

namespace Graph

variable {s : Script} {g : Graph} {n m : Node} {script id : String}
variable {earlier connections : List Connection} {c : Connection}

/-! ## Nodes -/

/-- Distinct ids pass the check. -/
theorem checkNodes_of_pairwise {earlier nodes : List Node}
    (distinct : nodes.Pairwise fun n m => n.id ≠ m.id)
    (apart : ∀ e ∈ earlier, ∀ n ∈ nodes, e.id ≠ n.id) :
    checkNodes script earlier nodes = .ok () := by
  induction nodes generalizing earlier with
  | nil => rfl
  | cons n nodes ih =>
    obtain ⟨first, distinct⟩ := List.pairwise_cons.1 distinct
    have new : ¬earlier.any (·.id == n.id) := by
      simpa using fun e he => apart e he n List.mem_cons_self
    rw [checkNodes, if_neg new]
    apply ih distinct
    intro e he m hm
    rcases List.mem_append.1 he with he | he
    · exact apart e he m (List.mem_cons_of_mem n hm)
    · obtain rfl := List.mem_singleton.1 he
      exact first m hm

/-- Among nodes of different ids each is found under its own. -/
theorem node?_eq_some_iff (distinct : s.nodes.Pairwise fun n m => n.id ≠ m.id) :
    s.node? id = some n ↔ n ∈ s.nodes ∧ n.id = id := by
  constructor
  · intro h
    exact ⟨List.mem_of_find?_eq_some h, by simpa using List.find?_some h⟩
  · rintro ⟨mem, rfl⟩
    exact find?_of_pairwise distinct mem

/-! ## Connections -/

theorem checkConnection_eq_ok_iff_joins (distinct : s.nodes.Pairwise fun n m => n.id ≠ m.id) :
    checkConnection s earlier c = .ok () ↔ s.Joins c ∧ ∀ d ∈ earlier, ¬d.Parallel c := by
  have target : s.hasNode c.target ↔ ∃ n ∈ s.nodes, n.id = c.target := by
    simp [Script.hasNode]
  have before : earlier.any c.sameOutput ↔ ∃ d ∈ earlier, d.Parallel c := by
    rw [List.any_eq_true]
    simp only [Connection.sameOutput_iff]
    exact ⟨fun ⟨d, hd, h⟩ => ⟨d, hd, h.symm⟩, fun ⟨d, hd, h⟩ => ⟨d, hd, h.symm⟩⟩
  cases found : s.node? c.source with
  | none =>
    have nowhere : ¬s.Joins c := by
      rintro ⟨⟨n, mem, hid, -⟩, -⟩
      rw [(node?_eq_some_iff distinct).2 ⟨mem, hid⟩] at found
      cases found
    simp [checkConnection, found, nowhere]
  | some n =>
    obtain ⟨mem, hid⟩ := (node?_eq_some_iff distinct).1 found
    have source : (∃ m ∈ s.nodes, m.id = c.source ∧ 0 ≤ c.output ∧ c.output < m.outputs) ↔
        0 ≤ c.output ∧ c.output < n.outputs := by
      constructor
      · rintro ⟨m, hm, same, bounds⟩
        rw [(node?_eq_some_iff distinct).2 ⟨hm, same⟩] at found
        cases found
        exact bounds
      · intro bounds
        exact ⟨n, mem, hid, bounds⟩
    rw [Script.Joins, source, ← target]
    have none : (∀ d ∈ earlier, ¬d.Parallel c) ↔ ¬earlier.any c.sameOutput := by
      rw [before]
      simp
    rw [none]
    simp only [checkConnection, found]
    by_cases reached : s.hasNode c.target
    · by_cases inside : 0 ≤ c.output ∧ c.output < n.outputs
      · by_cases free : earlier.any c.sameOutput <;> simp [reached, inside, free]
      · have outside : (decide (0 ≤ c.output) && decide (c.output < n.outputs)) = false := by
          simpa using inside
        simp [reached, inside, outside]
    · simp [reached]

/-- **The connections pass just if each joins two nodes and no two leave through one output**, those
before included. -/
theorem checkConnections_eq_ok_iff_joins (distinct : s.nodes.Pairwise fun n m => n.id ≠ m.id) :
    checkConnections s earlier connections = .ok () ↔
      (∀ c ∈ connections, s.Joins c) ∧ (connections.Pairwise fun c d => ¬c.Parallel d) ∧
        ∀ d ∈ earlier, ∀ c ∈ connections, ¬d.Parallel c := by
  induction connections generalizing earlier with
  | nil => simp [checkConnections]
  | cons c connections ih =>
    have first : checkConnection s earlier c = .ok () ↔ s.Joins c ∧ ∀ d ∈ earlier, ¬d.Parallel c :=
      checkConnection_eq_ok_iff_joins distinct
    cases hc : checkConnection s earlier c with
    | error f =>
      rw [hc] at first
      simp only [checkConnections, hc, List.forall_mem_cons]
      constructor
      · intro h
        cases h
      · rintro ⟨⟨joins, -⟩, -, free⟩
        cases first.2 ⟨joins, fun d hd => (free d hd).1⟩
    | ok =>
      obtain ⟨joins, free⟩ := first.1 hc
      simp only [checkConnections, hc]
      rw [ih, List.pairwise_cons]
      rw [List.forall_mem_append, List.forall_mem_singleton]
      simp only [List.forall_mem_cons]
      constructor
      · rintro ⟨rest, apart, before, here⟩
        exact ⟨⟨joins, rest⟩, ⟨here, apart⟩, fun d hd => ⟨free d hd, before d hd⟩⟩
      · rintro ⟨⟨-, rest⟩, ⟨here, apart⟩, before⟩
        exact ⟨rest, apart, fun d hd => (before d hd).2, here⟩

/-! ## The entry -/

theorem mem_entries_iff : n ∈ entries s ↔ s.IsEntry n := by
  simp [entries, Script.IsEntry]

/-- There is one entry just if one node, and no other, is one. -/
theorem entries_eq_singleton_iff (distinct : s.nodes.Pairwise fun n m => n.id ≠ m.id) :
    entries s = [n] ↔ ∀ m, s.IsEntry m ↔ m = n := by
  simp only [← mem_entries_iff]
  constructor
  · intro h m
    rw [h, List.mem_singleton]
  · intro h
    have nodup : (entries s).Nodup := by
      have nodes : s.nodes.Nodup := distinct.imp fun apart same => apart (congrArg Node.id same)
      exact nodes.filter _
    apply List.perm_singleton.1
    rw [List.perm_ext_iff_of_nodup nodup (List.nodup_singleton n)]
    simpa using h

/-! ## The graph -/

/-- What is passed on the way to a graph. -/
theorem ofScript_eq_ok_iff :
    ofScript s = .ok g ↔ checkNodes s.id [] s.nodes = .ok () ∧
      checkConnections s [] s.connections = .ok () ∧ g.script = s ∧ entries s = [g.entry] := by
  obtain ⟨script, entry⟩ := g
  unfold ofScript
  cases checkNodes s.id [] s.nodes with
  | error f => simp [bind, Except.bind]
  | ok =>
    cases checkConnections s [] s.connections with
    | error f => simp [bind, Except.bind]
    | ok =>
      simp only [bind, Except.bind, true_and]
      cases entries s with
      | nil => simp [throw, throwThe, MonadExceptOf.throw]
      | cons n ns =>
        cases ns with
        | nil => simp [pure, Except.pure, eq_comm]
        | cons m ns => simp [throw, throwThe, MonadExceptOf.throw]

/-- **The graph of a script** is the script with its entry, if the script is coherent. -/
theorem ofScript_eq_ok_iff_coherent :
    ofScript s = .ok g ↔ s.Coherent ∧ g.script = s ∧ s.IsEntry g.entry := by
  rw [ofScript_eq_ok_iff]
  constructor
  · rintro ⟨nodes, connections, same, entry⟩
    have distinct := (pairwise_of_checkNodes nodes).1
    obtain ⟨joined, apart, -⟩ := (checkConnections_eq_ok_iff_joins distinct).1 connections
    have one := (entries_eq_singleton_iff distinct).1 entry
    have isEntry : s.IsEntry g.entry := (one _).2 rfl
    exact ⟨⟨distinct, joined, apart, g.entry, isEntry, fun m hm => (one m).1 hm⟩, same, isEntry⟩
  · rintro ⟨⟨distinct, joined, apart, n, -, unique⟩, same, isEntry⟩
    refine ⟨checkNodes_of_pairwise distinct (by simp),
      (checkConnections_eq_ok_iff_joins distinct).2 ⟨joined, apart, by simp⟩, same, ?_⟩
    rw [entries_eq_singleton_iff distinct]
    intro m
    constructor
    · intro hm
      rw [unique m hm, unique _ isEntry]
    · rintro rfl
      exact isEntry

/-- In a coherent script an output leads where its connection says. -/
theorem follow?_eq_some_iff {output : Int} (coherent : g.script.Coherent) :
    g.follow? id output = some n ↔
      ∃ c ∈ g.script.connections, c.source = id ∧ c.output = output ∧
        n ∈ g.script.nodes ∧ n.id = c.target := by
  unfold follow?
  cases found : g.script.connections.find? fun c => c.source == id && c.output == output with
  | none =>
    have none := List.find?_eq_none.1 found
    simp only [reduceCtorEq, false_iff]
    rintro ⟨c, hc, rfl, rfl, -⟩
    simpa using none c hc
  | some c =>
    have mem := List.mem_of_find?_eq_some found
    obtain ⟨rfl, rfl⟩ : c.source = id ∧ c.output = output := by simpa using List.find?_some found
    simp only [node?, node?_eq_some_iff coherent.distinct]
    constructor
    · intro h
      exact ⟨c, mem, rfl, rfl, h⟩
    · rintro ⟨d, hd, hs, ho, h⟩
      rwa [coherent.unique hd mem ⟨hs, ho⟩] at h

/-- In a coherent script an output leads nowhere only where there is no connection for it. -/
theorem follow?_eq_none_iff {output : Int} (coherent : g.script.Coherent) :
    g.follow? id output = none ↔
      ∀ c ∈ g.script.connections, ¬(c.source = id ∧ c.output = output) := by
  constructor
  · rintro h c hc ⟨rfl, rfl⟩
    obtain ⟨-, n, mem, hid⟩ := coherent.joined c hc
    rw [(follow?_eq_some_iff coherent).2 ⟨c, hc, rfl, rfl, mem, hid⟩] at h
    cases h
  · intro free
    cases h : g.follow? id output with
    | none => rfl
    | some n =>
      obtain ⟨c, hc, hs, ho, -⟩ := (follow?_eq_some_iff coherent).1 h
      exact absurd ⟨hs, ho⟩ (free c hc)

end Graph

/-- **Just the coherent scripts have graphs.**  The graph of a coherent script is the script with its
only entry, and each output of a node leads to the node that the connection for it names, the only one
there is; without such a connection it leads nowhere. -/
theorem graph_iff_coherent (s : Script) :
    ((∃ g, Graph.ofScript s = .ok g) ↔ s.Coherent) ∧
      ∀ g, Graph.ofScript s = .ok g →
        g.script = s ∧ (∀ n, s.IsEntry n ↔ n = g.entry) ∧
          (∀ id output n, g.follow? id output = some n ↔
            ∃ c ∈ s.connections, c.source = id ∧ c.output = output ∧
              n ∈ s.nodes ∧ n.id = c.target) ∧
          ∀ id output, g.follow? id output = none ↔
            ∀ c ∈ s.connections, ¬(c.source = id ∧ c.output = output) := by
  refine ⟨⟨?_, ?_⟩, ?_⟩
  · rintro ⟨g, h⟩
    exact (Graph.ofScript_eq_ok_iff_coherent.1 h).1
  · intro coherent
    obtain ⟨n, entry, -⟩ := coherent.oneEntry
    exact ⟨⟨s, n⟩, Graph.ofScript_eq_ok_iff_coherent.2 ⟨coherent, rfl, entry⟩⟩
  · intro g h
    obtain ⟨coherent, rfl, entry⟩ := Graph.ofScript_eq_ok_iff_coherent.1 h
    refine ⟨rfl, fun n => ⟨fun hn => ?_, ?_⟩, fun id output n => Graph.follow?_eq_some_iff coherent,
      fun id output => Graph.follow?_eq_none_iff coherent⟩
    · exact coherent.oneEntry.unique hn entry
    · rintro rfl
      exact entry

/-! ### A signpost -/

/-- Where the script begins. -/
def lane : Node := ⟨"lane", .dialogue { text := "A lane." }⟩

/-- A question one of whose answers asks it again. -/
def signpost : Script :=
  { id := "signpost"
    nodes := [lane, ⟨"fork", .choice { question := "Where to?", options := ["Left", "Right"] }⟩,
      ⟨"inn", .ending⟩]
    connections := [⟨"lane", 0, "fork"⟩, ⟨"fork", 0, "fork"⟩, ⟨"fork", 1, "inn"⟩] }

/-- The script begins on the lane; to the right it leads to the inn, and behind the inn nowhere. -/
theorem signpost_resolved :
    Graph.ofScript signpost = .ok ⟨signpost, lane⟩ ∧ signpost.Coherent ∧
      Graph.follow? ⟨signpost, lane⟩ "fork" 1 = some ⟨"inn", .ending⟩ ∧
      Graph.follow? ⟨signpost, lane⟩ "inn" 0 = none := by
  have built : Graph.ofScript signpost = .ok ⟨signpost, lane⟩ := by rfl
  obtain ⟨accepted, resolved⟩ := graph_iff_coherent signpost
  obtain ⟨-, -, leads, nowhere⟩ := resolved _ built
  refine ⟨built, accepted.1 ⟨_, built⟩, (leads _ _ _).2 ?_, (nowhere _ _).2 ?_⟩
  · exact ⟨⟨"fork", 1, "inn"⟩, by decide, rfl, rfl, by decide, rfl⟩
  · decide

end Questline

import Questline.Proofs.Errands
import Questline.Proofs.Searching

/-!
# What issues say about a graph

The nodes that a run can come to are those that are reachable from the entry, and the outputs that
it can leave them through are those of their kind.  A script that is looked through has an issue for
every node that is not reached, and for every output that a path can end at, except after a trigger.

* `Node.loss?`: what is found about an output that leads nowhere.
* `Script.IsBuilt.ground`: where a run of a script stays, unless it takes a link.
* `Script.IsBuilt.not_unreachable`, `Script.IsBuilt.issue_of_loss`: no issue about a node on that
  ground, and one about each of its open outputs.
-/

namespace Questline

/-! ## Outputs that lead nowhere -/

section Outputs

variable {connections : List Connection} {node : String}

theorem mem_openOptions {options : List String} {option : String} {i : Nat} (index : Nat)
    (h : options[i]? = some option) (unconnected : isConnected connections node (index + i) = false) :
    .openOption node (index + i) option ∈ openOptions connections node index options := by
  induction options generalizing index i with
  | nil => cases h
  | cons first options ih =>
    unfold openOptions
    cases i with
    | zero =>
      obtain rfl : first = option := Option.some.inj h
      rw [Nat.add_zero] at unconnected ⊢
      rw [unconnected]
      exact List.mem_cons_self
    | succ i =>
      have later := ih (index + 1) h (by rw [Nat.add_right_comm]; exact unconnected)
      rw [Nat.add_right_comm] at later
      split
      · exact later
      · exact List.mem_cons_of_mem _ later

theorem mem_openOutputs_of_unconnected {finding : String → Finding} {labels : List String}
    {label : String} {i : Nat} (index : Nat) (h : labels[i]? = some label)
    (unconnected : isConnected connections node (index + i) = false) :
    finding label ∈ openOutputs connections node finding index labels := by
  induction labels generalizing index i with
  | nil => cases h
  | cons first labels ih =>
    unfold openOutputs
    cases i with
    | zero =>
      obtain rfl : first = label := Option.some.inj h
      rw [Nat.add_zero] at unconnected
      rw [unconnected]
      exact List.mem_cons_self
    | succ i =>
      have later := ih (index + 1) h (by rw [Nat.add_right_comm]; exact unconnected)
      split
      · exact later
      · exact List.mem_cons_of_mem _ later

/-- What is found about an output of a node, if it leads nowhere. -/
def Node.loss? (n : Node) (i : Nat) : Option Finding :=
  match n.body with
  | .choice c => c.options[i]?.map (.openOption n.id i)
  | .condition _ => ["true", "false"][i]?.map (.openCondition n.id)
  | .combat _ => ["victory", "defeat"][i]?.map (.openBattle n.id)
  | .dialogue _ | .image _ | .item _ => if i = 0 then some (.deadEnd n.id n.kind) else none
  | .trigger _ | .link _ | .ending => none

theorem Node.mem_findings_of_loss {n : Node} {i : Nat} {f : Finding} (h : n.loss? i = some f)
    (unconnected : isConnected connections n.id i = false) : f ∈ n.findings connections := by
  have start : isConnected connections n.id (0 + i) = false := by rwa [Nat.zero_add]
  unfold loss? at h
  unfold findings
  split at h
  case h_1 c body =>
    obtain ⟨option, hi, rfl⟩ := Option.map_eq_some_iff.1 h
    have mem := mem_openOptions 0 hi start
    rw [Nat.zero_add] at mem
    rw [body]
    exact List.mem_append_right _ mem
  case h_2 c body =>
    obtain ⟨label, hi, rfl⟩ := Option.map_eq_some_iff.1 h
    rw [body]
    exact mem_openOutputs_of_unconnected 0 hi start
  case h_3 opponent body =>
    obtain ⟨label, hi, rfl⟩ := Option.map_eq_some_iff.1 h
    rw [body]
    exact mem_openOutputs_of_unconnected 0 hi start
  case h_7 => cases h
  case h_8 => cases h
  case h_9 => cases h
  all_goals
    rename_i body
    split at h
    case isTrue hi =>
      subst hi
      cases h
      rw [body]
      simp [unconnected]
    case isFalse => cases h

end Outputs

/-! ## The ground of a script -/

namespace Script

variable {s : Script} {n : Node} {f : Finding}

theorem issue_iff : ⟨s.id, f⟩ ∈ s.issues ↔ f ∈ s.findings := by
  simp [issues]

/-- The targets of all connections are there, if nothing is wrong with the connections. -/
theorem hasNode_of_connectionFindings {nodes : List Node} {kept connections : List Connection}
    (h : connectionFindings nodes kept connections = []) {c : Connection} (hc : c ∈ connections) :
    nodes.any (·.id == c.target) := by
  induction connections generalizing kept with
  | nil => cases hc
  | cons d connections ih =>
    unfold connectionFindings at h
    split at h
    · cases h
    case h_2 hd =>
      rcases List.mem_cons.1 hc with rfl | hc
      · unfold connectionFinding? at hd
        split at hd
        · cases hd
        · split at hd
          · cases hd
          case isFalse there => simpa using there
      · exact ih h hc

/-- A script whose graph is built, with the node that is its entry. -/
structure IsBuilt (s : Script) (n : Node) : Prop where
  sound : s.structureFindings = []
  one : s.candidates = [n.id]
  built : Graph.ofScript s = .ok ⟨s, n⟩

theorem isBuilt_of_ofScript {g : Graph} (h : Graph.ofScript s = .ok g) :
    g.script = s ∧ s.IsBuilt g.entry := by
  cases Graph.ofScript_cases s with
  | unsound _ _ failed => rw [failed] at h; cases h
  | unentered _ _ _ failed => rw [failed] at h; cases h
  | built sound one built =>
    rw [built] at h
    cases h
    exact ⟨rfl, sound, one, built⟩

/-- The nodes of a script that can be reached from its entry. -/
def OnGround (s : Script) (entry n : Node) : Prop :=
  s.node? n.id = some n ∧ n.id ∈ reachable s.keptConnections entry.id

theorem IsBuilt.follow {n m : Node} {entry : Node} (h : s.IsBuilt entry) {output : Int}
    (hn : s.OnGround entry n) (hm : Graph.follow? ⟨s, entry⟩ n.id output = some m) :
    s.OnGround entry m := by
  refine ⟨Graph.node?_of_follow? hm, ?_⟩
  unfold Graph.follow? at hm
  split at hm
  case h_1 c hc =>
    have mem : c ∈ s.connections := List.mem_of_find?_eq_some hc
    have source : c.source = n.id := by
      have found := List.find?_some hc
      simp only [Bool.and_eq_true, beq_iff_eq] at found
      exact found.1
    have target : m.id = c.target := by simpa using List.find?_some hm
    have kept : c ∈ s.keptConnections := by
      rw [keptConnections_of_sound h.sound]
      exact mem
    rw [target, mem_reachable_iff]
    exact (mem_reachable_iff.1 hn.2).tail ⟨c, kept, source, rfl⟩
  case h_2 => cases hm

/-- Where a run of a script stays, unless it takes a link. -/
def IsBuilt.ground {entry : Node} (h : s.IsBuilt entry) : Terrain where
  graphs := (· = ⟨s, entry⟩)
  nodes := s.OnGround entry
  closed := by
    rintro g n m output rfl hn hm
    exact h.follow hn hm

/-- A run of a script begins on its ground. -/
theorem IsBuilt.entry_onGround {entry : Node} (h : s.IsBuilt entry) : s.OnGround entry entry :=
  ⟨Graph.isWhole_of_ofScript h.built, mem_reachable_iff.2 .refl⟩

/-- **No issue says that a node on the ground of a script cannot be reached.** -/
theorem IsBuilt.not_unreachable {entry : Node} (h : s.IsBuilt entry) (hn : s.OnGround entry n) :
    ⟨s.id, .unreachable n.id⟩ ∉ s.issues := by
  rw [issue_iff]
  intro mem
  rcases List.mem_append.1 mem with mem | mem
  · rcases List.mem_append.1 mem with mem | mem
    · have none : s.structureFindings = [] := h.sound
      unfold structureFindings at none
      rw [none] at mem
      cases mem
    · unfold entryFindings at mem
      rw [h.one] at mem
      obtain ⟨m, hm, same⟩ := List.mem_map.1 mem
      obtain ⟨-, unreached⟩ := List.mem_filter.1 hm
      have id : m.id = n.id := by simpa using same
      rw [id] at unreached
      simp [hn.2] at unreached
  · obtain ⟨m, -, mem⟩ := List.mem_flatMap.1 mem
    cases Node.findings_isLocal mem

/-- **An output on the ground of a script that leads nowhere has an issue**, which names its node. -/
theorem IsBuilt.issue_of_loss {entry : Node} (h : s.IsBuilt entry) (hn : s.OnGround entry n) {i : Nat}
    (unconnected : Graph.follow? ⟨s, entry⟩ n.id i = none) (loss : n.loss? i = some f) :
    ⟨s.id, f⟩ ∈ s.issues := by
  rw [issue_iff]
  refine List.mem_append_right _ (List.mem_flatMap.2 ⟨n, ?_, n.mem_findings_of_loss loss ?_⟩)
  · rw [keptNodes_of_sound h.sound]
    exact List.mem_of_find?_eq_some hn.1
  · rw [keptConnections_of_sound h.sound]
    unfold Graph.follow? at unconnected
    split at unconnected
    case h_1 c hc =>
      -- The targets of connections are there.
      have sound : connectionFindings s.keptNodes [] s.connections = [] :=
        (List.append_eq_nil_iff.1 h.sound).2
      rw [keptNodes_of_sound h.sound] at sound
      have there := hasNode_of_connectionFindings sound (List.mem_of_find?_eq_some hc)
      obtain ⟨m, hm, target⟩ := List.any_eq_true.1 there
      have none := List.find?_eq_none.1 unconnected m hm
      exact absurd target none
    case h_2 hc =>
      have none := List.find?_eq_none.1 hc
      unfold isConnected
      rw [List.any_eq_false]
      exact none

/-- **A trigger on the ground whose event is not known has an issue.** -/
theorem IsBuilt.issue_of_unknownEvent {entry : Node} (h : s.IsBuilt entry) (hn : s.OnGround entry n)
    {t : Trigger} (body : n.body = .trigger t) (unknown : Effect.isKnown t.event = false) :
    ⟨s.id, .unknownEvent n.id t.event⟩ ∈ s.issues := by
  rw [issue_iff]
  refine List.mem_append_right _ (List.mem_flatMap.2 ⟨n, ?_, ?_⟩)
  · rw [keptNodes_of_sound h.sound]
    exact List.mem_of_find?_eq_some hn.1
  · simp [Node.findings, body, unknown]

end Script

end Questline

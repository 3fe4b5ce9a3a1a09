import Questline.Script.Issue

/-!
# Graphs and findings agree

A script is judged twice.  Its graph is built up to the first fault; its findings are gathered past
every fault, with the nodes and connections at fault set aside.  The two agree: the first fault is
one of structure just if some finding is, and the entry is in doubt for both if nothing else is
wrong with the structure.

The check of the nodes fails just if some node is repeated, and otherwise nothing is set aside
(`Graph.checkNodes_eq_ok_iff`, `keepNodes_of_distinct`); then the same holds of the connections, and
then both look for the entry among the same nodes.

* `Finding.isStructural`, `DataFault.isIntegrity`: findings and faults of structure.
* `Script.structureFindings`: the findings about nodes and connections that are set aside.
* `Graph.ofScript_cases`: what becomes of a script.
* `graph_fails_iff_finding`: when a graph is refused, in terms of the issues.
-/

namespace Questline

/-! ## Faults and findings -/

/-- Whether a fault is that of a script that does not hold together, or of an output that it does
not have. -/
def DataFault.isIntegrity : DataFault → Bool
  | .repeatedNode _ _ | .unknownSource _ _ | .unknownTarget _ _ | .noSuchOutput _ _ _ _
  | .repeatedOutput _ _ _ | .noSuchOption _ _ _ => true
  | _ => false

/-- Whether a fault is that of a script without a single entry. -/
def DataFault.isAmbiguousEntry : DataFault → Bool
  | .ambiguousEntry _ _ => true
  | _ => false

/-- The codes of the findings for which a node or a connection is set aside. -/
def structuralCodes : List String :=
  ["DUPLICATE_NODE_ID", "MISSING_NODE_REF", "INVALID_OUTPUT_INDEX", "DUPLICATE_CONNECTION"]

/-- The code of the finding that there is no single entry. -/
def entryCode : String := "AMBIGUOUS_ENTRY"

namespace Finding

/-- Whether a node or a connection is set aside for the finding. -/
def isStructural : Finding → Bool
  | .repeatedNode _ | .missingNode _ _ | .noSuchOutput _ _ _ | .repeatedOutput _ _ => true
  | _ => false

/-- Whether the finding is that there is no single entry. -/
def isAmbiguousEntry : Finding → Bool
  | .ambiguousEntry _ => true
  | _ => false

/-- Whether the finding is about a node by itself. -/
def isLocal : Finding → Bool
  | .noOptions _ | .openOption _ _ _ | .openCondition _ _ | .openBattle _ _ | .unknownEvent _ _
  | .noLinkTarget _ | .deadEnd _ _ => true
  | _ => false

theorem code_mem_structuralCodes (f : Finding) : f.code ∈ structuralCodes ↔ f.isStructural := by
  cases f <;> simp [code, structuralCodes, isStructural]

theorem code_eq_entryCode (f : Finding) : f.code = entryCode ↔ f.isAmbiguousEntry := by
  cases f <;> simp [code, entryCode, isAmbiguousEntry]

theorem severity_of_isStructural {f : Finding} (h : f.isStructural) : f.severity = .error := by
  cases f <;> first | rfl | cases h

theorem severity_of_isAmbiguousEntry {f : Finding} (h : f.isAmbiguousEntry) :
    f.severity = .error := by
  cases f <;> first | rfl | cases h

theorem not_isAmbiguousEntry {f : Finding} (h : f.isStructural) : f.isAmbiguousEntry = false := by
  cases f <;> first | rfl | cases h

/-- What is found about a node by itself says nothing about the structure, nor about the entry. -/
theorem plain_of_isLocal {f : Finding} (h : f.isLocal) :
    f.isStructural = false ∧ f.isAmbiguousEntry = false := by
  cases f <;> first | exact ⟨rfl, rfl⟩ | cases h

end Finding

theorem DataFault.not_isAmbiguousEntry {d : DataFault} (h : d.isIntegrity) :
    d.isAmbiguousEntry = false := by
  cases d <;> first | rfl | cases h

theorem Script.exists_issue_iff {s : Script} {P : Finding → Prop} :
    (∃ i ∈ s.issues, P i.finding) ↔ ∃ f ∈ s.findings, P f := by
  constructor
  · rintro ⟨i, hi, h⟩
    obtain ⟨f, hf, rfl⟩ := List.mem_map.1 hi
    exact ⟨f, hf, h⟩
  · rintro ⟨f, hf, h⟩
    exact ⟨_, List.mem_map_of_mem hf, h⟩

/-! ## Nodes -/

section Nodes

variable {script : String} {earlier nodes : List Node}

/-- The nodes pass just if none is repeated. -/
theorem Graph.checkNodes_eq_ok_iff :
    checkNodes script earlier nodes = .ok () ↔ repeatedNodes earlier nodes = [] := by
  induction nodes generalizing earlier with
  | nil => simp [checkNodes, repeatedNodes]
  | cons n nodes ih =>
    unfold checkNodes repeatedNodes
    split
    · simp
    · exact ih

theorem Graph.checkNodes_error {f : Fault} (h : checkNodes script earlier nodes = .error f) :
    ∃ d : DataFault, f = .data d ∧ d.isIntegrity := by
  induction nodes generalizing earlier with
  | nil => cases h
  | cons n nodes ih =>
    unfold checkNodes at h
    split at h
    · exact ⟨_, (Except.error.inj h).symm, rfl⟩
    · exact ih h

/-- Nodes of which none is repeated are all kept. -/
theorem keepNodes_of_distinct (h : repeatedNodes earlier nodes = []) :
    keepNodes earlier nodes = earlier ++ nodes := by
  induction nodes generalizing earlier with
  | nil => simp [keepNodes]
  | cons n nodes ih =>
    unfold repeatedNodes at h
    unfold keepNodes
    split at h
    case isTrue => cases h
    case isFalse hn =>
      rw [if_neg hn, ih h, List.append_assoc, List.singleton_append]

theorem repeatedNodes_isStructural {f : Finding} (h : f ∈ repeatedNodes earlier nodes) :
    f.isStructural := by
  induction nodes generalizing earlier with
  | nil => cases h
  | cons n nodes ih =>
    unfold repeatedNodes at h
    split at h
    · rcases List.mem_cons.1 h with rfl | h
      · rfl
      · exact ih h
    · exact ih h

end Nodes

/-! ## Connections -/

section Connections

variable {s : Script} {nodes : List Node} {earlier connections : List Connection} {c : Connection}

/-- A connection between nodes that are all kept passes just if nothing is found about it. -/
theorem Graph.checkConnection_eq_ok_iff :
    checkConnection s earlier c = .ok () ↔ connectionFinding? s.nodes earlier c = none := by
  unfold checkConnection connectionFinding? Script.node? Script.hasNode
  cases s.nodes.find? (·.id == c.source) with
  | none => simp
  | some n =>
    dsimp only
    split
    · simp
    · split
      · simp
      · split <;> simp

theorem Graph.checkConnection_error {f : Fault} (h : checkConnection s earlier c = .error f) :
    ∃ d : DataFault, f = .data d ∧ d.isIntegrity := by
  unfold checkConnection at h
  split at h
  · exact ⟨_, (Except.error.inj h).symm, rfl⟩
  · split at h
    · exact ⟨_, (Except.error.inj h).symm, rfl⟩
    · split at h
      · exact ⟨_, (Except.error.inj h).symm, rfl⟩
      · split at h
        · exact ⟨_, (Except.error.inj h).symm, rfl⟩
        · cases h

/-- The connections pass just if nothing is found about any of them. -/
theorem Graph.checkConnections_eq_ok_iff :
    checkConnections s earlier connections = .ok () ↔
      connectionFindings s.nodes earlier connections = [] := by
  induction connections generalizing earlier with
  | nil => simp [checkConnections, connectionFindings]
  | cons c connections ih =>
    unfold checkConnections connectionFindings
    cases hc : checkConnection s earlier c with
    | ok =>
      rw [checkConnection_eq_ok_iff.1 hc]
      exact ih
    | error f =>
      cases hf : connectionFinding? s.nodes earlier c with
      | none =>
        rw [checkConnection_eq_ok_iff.2 hf] at hc
        cases hc
      | some finding => simp

theorem Graph.checkConnections_error {f : Fault}
    (h : checkConnections s earlier connections = .error f) :
    ∃ d : DataFault, f = .data d ∧ d.isIntegrity := by
  induction connections generalizing earlier with
  | nil => cases h
  | cons c connections ih =>
    unfold checkConnections at h
    split at h
    case h_1 f' hc =>
      cases h
      exact checkConnection_error hc
    case h_2 => exact ih h

/-- Connections about which nothing is found are all kept. -/
theorem keepConnections_of_sound (h : connectionFindings nodes earlier connections = []) :
    keepConnections nodes earlier connections = earlier ++ connections := by
  induction connections generalizing earlier with
  | nil => simp [keepConnections]
  | cons c connections ih =>
    unfold connectionFindings at h
    unfold keepConnections
    split at h
    case h_1 => cases h
    case h_2 hc => exact (ih h).trans (by rw [List.append_assoc, List.singleton_append])

theorem connectionFinding?_isStructural {f : Finding}
    (h : connectionFinding? nodes earlier c = some f) : f.isStructural := by
  unfold connectionFinding? at h
  split at h
  · exact Option.some.inj h ▸ rfl
  · split at h
    · exact Option.some.inj h ▸ rfl
    · split at h
      · exact Option.some.inj h ▸ rfl
      · split at h
        · exact Option.some.inj h ▸ rfl
        · cases h

theorem connectionFindings_isStructural {f : Finding}
    (h : f ∈ connectionFindings nodes earlier connections) : f.isStructural := by
  induction connections generalizing earlier with
  | nil => cases h
  | cons c connections ih =>
    unfold connectionFindings at h
    split at h
    case h_1 finding hc =>
      rcases List.mem_cons.1 h with rfl | h
      · exact connectionFinding?_isStructural hc
      · exact ih h
    case h_2 => exact ih h

end Connections

/-! ## Single nodes and the entry -/

theorem openOptions_isLocal {connections : List Connection} {node : String} {index : Nat}
    {options : List String} {f : Finding} (h : f ∈ openOptions connections node index options) : f.isLocal := by
  induction options generalizing index with
  | nil => cases h
  | cons option options ih =>
    unfold openOptions at h
    split at h
    · exact ih h
    · rcases List.mem_cons.1 h with rfl | h
      · rfl
      · exact ih h

theorem mem_openOutputs {connections : List Connection} {node : String} {finding : String → Finding}
    {index : Nat} {labels : List String} {f : Finding}
    (h : f ∈ openOutputs connections node finding index labels) : ∃ label, f = finding label := by
  induction labels generalizing index with
  | nil => cases h
  | cons label labels ih =>
    unfold openOutputs at h
    split at h
    · exact ih h
    · rcases List.mem_cons.1 h with rfl | h
      · exact ⟨label, rfl⟩
      · exact ih h

theorem Node.findings_isLocal {connections : List Connection} {n : Node} {f : Finding}
    (h : f ∈ n.findings connections) : f.isLocal := by
  unfold findings at h
  split at h
  case h_1 c hc =>
    rcases List.mem_append.1 h with h | h
    · split at h
      · obtain rfl := List.mem_singleton.1 h
        rfl
      · cases h
    · exact openOptions_isLocal h
  case h_2 =>
    obtain ⟨label, rfl⟩ := mem_openOutputs h
    rfl
  case h_3 =>
    obtain ⟨label, rfl⟩ := mem_openOutputs h
    rfl
  case h_6 => cases h
  all_goals
    split at h
    all_goals first
      | exact absurd h List.not_mem_nil
      | obtain rfl := List.mem_singleton.1 h
        rfl

namespace Script

variable (s : Script)

/-- The findings about the nodes and connections that are set aside. -/
def structureFindings : List Finding :=
  repeatedNodes [] s.nodes ++ connectionFindings s.keptNodes [] s.connections

variable {s}

theorem keptNodes_of_sound (h : s.structureFindings = []) : s.keptNodes = s.nodes :=
  keepNodes_of_distinct (List.append_eq_nil_iff.1 h).1

/-- If nothing is wrong with the structure, everything is kept. -/
theorem keptConnections_of_sound (h : s.structureFindings = []) :
    s.keptConnections = s.connections :=
  keepConnections_of_sound (List.append_eq_nil_iff.1 h).2

/-- If nothing is wrong with the structure, the entry is looked for among the same nodes. -/
theorem candidates_of_sound (h : s.structureFindings = []) :
    s.candidates = (Graph.entries s).map (·.id) := by
  rw [candidates, keptNodes_of_sound h, keptConnections_of_sound h, Graph.entries]

theorem entryFindings_plain {f : Finding} (h : f ∈ s.entryFindings) : f.isStructural = false := by
  unfold entryFindings at h
  split at h
  · obtain ⟨n, -, rfl⟩ := List.mem_map.1 h
    rfl
  · obtain rfl := List.mem_singleton.1 h
    rfl

/-- The entry is in doubt just if there is not exactly one candidate. -/
theorem exists_ambiguous_iff :
    (∃ f ∈ s.entryFindings, f.isAmbiguousEntry) ↔ ∀ entry, s.candidates ≠ [entry] := by
  unfold entryFindings
  split
  case h_1 entry hc =>
    constructor
    · rintro ⟨f, hf, hambiguous⟩
      obtain ⟨n, -, rfl⟩ := List.mem_map.1 hf
      cases hambiguous
    · intro none
      exact absurd hc (none entry)
  case h_2 hn => exact ⟨fun _ => hn, fun _ => ⟨_, List.mem_singleton_self _, rfl⟩⟩

/-- A finding of structure is one about what is set aside. -/
theorem exists_structural_iff :
    (∃ f ∈ s.findings, f.isStructural) ↔ s.structureFindings ≠ [] := by
  constructor
  · rintro ⟨f, hf, structural⟩ hnil
    rw [findings, ← structureFindings, hnil, List.nil_append] at hf
    rcases List.mem_append.1 hf with hf | hf
    · rw [entryFindings_plain hf] at structural
      cases structural
    · obtain ⟨n, -, hf⟩ := List.mem_flatMap.1 hf
      rw [(Finding.plain_of_isLocal (Node.findings_isLocal hf)).1] at structural
      cases structural
  · intro hne
    obtain ⟨f, hf⟩ := List.exists_mem_of_ne_nil _ hne
    refine ⟨f, ?_, ?_⟩
    · rw [findings, ← structureFindings, List.append_assoc]
      exact List.mem_append_left _ hf
    · rcases List.mem_append.1 hf with hf | hf
      · exact repeatedNodes_isStructural hf
      · exact connectionFindings_isStructural hf

/-- The entry is in doubt just if the findings about it say so. -/
theorem exists_ambiguous_findings_iff :
    (∃ f ∈ s.findings, f.isAmbiguousEntry) ↔ ∀ entry, s.candidates ≠ [entry] := by
  rw [← exists_ambiguous_iff]
  constructor
  · rintro ⟨f, hf, ambiguous⟩
    rw [findings, ← structureFindings, List.append_assoc] at hf
    rcases List.mem_append.1 hf with hf | hf
    · have structural : f.isStructural := by
        rcases List.mem_append.1 hf with hf | hf
        · exact repeatedNodes_isStructural hf
        · exact connectionFindings_isStructural hf
      rw [Finding.not_isAmbiguousEntry structural] at ambiguous
      cases ambiguous
    · rcases List.mem_append.1 hf with hf | hf
      · exact ⟨f, hf, ambiguous⟩
      · obtain ⟨n, -, hf⟩ := List.mem_flatMap.1 hf
        rw [(Finding.plain_of_isLocal (Node.findings_isLocal hf)).2] at ambiguous
        cases ambiguous
  · rintro ⟨f, hf, ambiguous⟩
    refine ⟨f, ?_, ambiguous⟩
    rw [findings]
    exact List.mem_append_left _ (List.mem_append_right _ hf)

end Script

/-! ## What becomes of a script -/

/-- A script is refused for its structure, or for its entry, or it has a graph. -/
inductive Graph.Built (s : Script) : Prop
  | unsound {d : DataFault} (h : s.structureFindings ≠ []) (integrity : d.isIntegrity)
      (failed : ofScript s = .error (.data d))
  | unentered {d : DataFault} (h : s.structureFindings = [])
      (none : ∀ entry, s.candidates ≠ [entry]) (ambiguous : d.isAmbiguousEntry)
      (failed : ofScript s = .error (.data d))
  | built {n : Node} (h : s.structureFindings = []) (one : s.candidates = [n.id])
      (built : ofScript s = .ok ⟨s, n⟩)

theorem Graph.ofScript_cases (s : Script) : Built s := by
  cases hn : checkNodes s.id [] s.nodes with
  | error f =>
    obtain ⟨d, rfl, integrity⟩ := checkNodes_error hn
    refine .unsound (fun h => ?_) integrity (by rw [ofScript, hn]; rfl)
    rw [checkNodes_eq_ok_iff.2 (List.append_eq_nil_iff.1 h).1] at hn
    cases hn
  | ok =>
    have distinct := checkNodes_eq_ok_iff.1 hn
    have kept : s.keptNodes = s.nodes := keepNodes_of_distinct distinct
    cases hc : checkConnections s [] s.connections with
    | error f =>
      obtain ⟨d, rfl, integrity⟩ := checkConnections_error hc
      refine .unsound (fun h => ?_) integrity (by rw [ofScript, hn, hc]; rfl)
      have sound := (List.append_eq_nil_iff.1 h).2
      rw [kept] at sound
      rw [checkConnections_eq_ok_iff.2 sound] at hc
      cases hc
    | ok =>
      have sound : s.structureFindings = [] := by
        rw [Script.structureFindings, distinct, kept, checkConnections_eq_ok_iff.1 hc]
        rfl
      have candidates := Script.candidates_of_sound sound
      cases he : entries s with
      | nil =>
        rw [he] at candidates
        refine .unentered sound (by simp [candidates]) rfl (d := .ambiguousEntry s.id []) ?_
        rw [ofScript, hn, hc, he]
        rfl
      | cons n ns =>
        rw [he] at candidates
        cases ns with
        | nil =>
          refine .built (n := n) sound candidates ?_
          rw [ofScript, hn, hc, he]
          rfl
        | cons n' ns =>
          refine .unentered sound (by simp [candidates]) rfl
            (d := .ambiguousEntry s.id ((n :: n' :: ns).map (·.id))) ?_
          rw [ofScript, hn, hc, he]
          rfl

/-- **Graph and findings agree.**  A script has no graph just if it has an issue of structure or an
ambiguous entry; it is refused for its structure just if it has an issue of structure, and for its
entry just if the entry is ambiguous and nothing is wrong with the structure.  A script without
errors has a graph. -/
theorem graph_fails_iff_finding (s : Script) :
    ((∃ f, Graph.ofScript s = .error f) ↔
      ∃ i ∈ s.issues, i.finding.code ∈ structuralCodes ∨ i.finding.code = entryCode) ∧
    ((∃ d : DataFault, Graph.ofScript s = .error (.data d) ∧ d.isIntegrity) ↔
      ∃ i ∈ s.issues, i.finding.code ∈ structuralCodes) ∧
    ((∃ d : DataFault, Graph.ofScript s = .error (.data d) ∧ d.isAmbiguousEntry) ↔
      (∃ i ∈ s.issues, i.finding.code = entryCode) ∧
        ∀ i ∈ s.issues, i.finding.code ∉ structuralCodes) ∧
    (hasErrors s.issues = false → ∃ g, Graph.ofScript s = .ok g) := by
  have structural : (∃ i ∈ s.issues, i.finding.code ∈ structuralCodes) ↔ s.structureFindings ≠ [] := by
    rw [← Script.exists_structural_iff, ← Script.exists_issue_iff]
    simp only [Finding.code_mem_structuralCodes]
  have ambiguous : (∃ i ∈ s.issues, i.finding.code = entryCode) ↔
      ∀ entry, s.candidates ≠ [entry] := by
    rw [← Script.exists_ambiguous_findings_iff, ← Script.exists_issue_iff]
    simp only [Finding.code_eq_entryCode]
  have plain : (∀ i ∈ s.issues, i.finding.code ∉ structuralCodes) ↔ s.structureFindings = [] := by
    have none := not_congr structural
    rw [Classical.not_not] at none
    rw [← none]
    simp
  have either : (∃ i ∈ s.issues, i.finding.code ∈ structuralCodes ∨ i.finding.code = entryCode) ↔
      s.structureFindings ≠ [] ∨ ∀ entry, s.candidates ≠ [entry] := by
    rw [← structural, ← ambiguous, ← exists_or]
    simp only [← and_or_left]
  have errors : s.structureFindings ≠ [] ∨ (∀ entry, s.candidates ≠ [entry]) →
      hasErrors s.issues = true := by
    intro h
    rw [← either] at h
    obtain ⟨i, hi, h⟩ := h
    refine List.any_eq_true.2 ⟨i, hi, beq_iff_eq.2 ?_⟩
    rcases h with h | h
    · exact Finding.severity_of_isStructural ((Finding.code_mem_structuralCodes _).1 h)
    · exact Finding.severity_of_isAmbiguousEntry ((Finding.code_eq_entryCode _).1 h)
  rw [either, structural, ambiguous, plain]
  cases Graph.ofScript_cases s with
  | @unsound d h integrity failed =>
    refine ⟨⟨fun _ => .inl h, fun _ => ⟨_, failed⟩⟩, ⟨fun _ => h, fun _ => ⟨d, failed, integrity⟩⟩,
      ⟨?_, fun hs => absurd hs.2 h⟩, fun none => ?_⟩
    · rintro ⟨d', failed', entry⟩
      obtain rfl : d = d' := by simpa [failed] using failed'
      rw [DataFault.not_isAmbiguousEntry integrity] at entry
      cases entry
    · rw [errors (.inl h)] at none
      cases none
  | @unentered d h none entry failed =>
    refine ⟨⟨fun _ => .inr none, fun _ => ⟨_, failed⟩⟩, ⟨?_, fun hs => absurd h hs⟩,
      ⟨fun _ => ⟨none, h⟩, fun _ => ⟨d, failed, entry⟩⟩, fun clean => ?_⟩
    · rintro ⟨d', failed', integrity⟩
      obtain rfl : d = d' := by simpa [failed] using failed'
      rw [DataFault.not_isAmbiguousEntry integrity] at entry
      cases entry
    · rw [errors (.inr none)] at clean
      cases clean
  | @built n h one built =>
    refine ⟨⟨?_, ?_⟩, ⟨?_, fun hs => absurd h hs⟩, ⟨?_, fun hs => absurd one (hs.1 _)⟩,
      fun _ => ⟨_, built⟩⟩
    · rintro ⟨f, failed⟩
      rw [built] at failed
      cases failed
    · rintro (hs | none)
      · exact absurd h hs
      · exact absurd one (none _)
    · rintro ⟨d, failed, -⟩
      rw [built] at failed
      cases failed
    · rintro ⟨d, failed, -⟩
      rw [built] at failed
      cases failed

end Questline

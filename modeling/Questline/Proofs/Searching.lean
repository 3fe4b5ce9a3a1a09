import Mathlib.Data.List.Nodup
import Mathlib.Logic.Relation
import Questline.Proofs.Agreement
import Questline.Proofs.Entries

/-!
# Searching

A search goes along the connections of a graph in rounds.  In each round the first node of the queue
is taken out, the nodes behind it are seen, and the new ones among them are queued.  Whatever is
queued was seen at the same moment, so the queue is always what was seen without the first nodes, as
many as there were rounds (`Search.Tracks`).  Every node is therefore queued once, also on a graph
that leads back to where it came from, and the search is over after as many rounds as there are nodes
that were seen.  By then the connections of each of them were followed.

* `LeadsTo`: a way along connections.
* `Search.after?`: a search some rounds later.
* `Search.Tracks.next`, `Search.Tracks.after`: what a round keeps, and what the rounds of a search keep.
* `Search.ends`, `mem_reachable_iff`: a search ends, and has seen just the nodes that a way leads to.
* `unreachable_nodes_reported`: the nodes of a script that are reported as not to be reached.
-/

namespace Questline

/-! ## Ways -/

/-- A way along connections leads from one node to another; a node is led to from itself. -/
def LeadsTo (connections : List Connection) : String → String → Prop :=
  Relation.ReflTransGen fun a b => ∃ c ∈ connections, c.source = a ∧ c.target = b

namespace Search

variable {connections : List Connection} {s t : Search} {entry node : String} {rounds : Nat}

/-- The search some rounds later; none if it is over before. -/
def after? (connections : List Connection) : (rounds : Nat) → Search → Option Search
  | 0, s => some s
  | rounds + 1, s => (s.next? connections).bind (after? connections rounds)

/-! ## One round -/

theorem mem_targets : node ∈ targets connections entry ↔
    ∃ c ∈ connections, c.source = entry ∧ c.target = node := by
  simp [targets, and_assoc]

/-- Nodes that are seen one after the other: the new ones are added to what was seen and to the queue,
each once. -/
theorem foldl_see (nodes : List String) (apart : s.seen.Nodup) :
    ∃ new, nodes.foldl see s = ⟨s.seen ++ new, s.queue ++ new⟩ ∧ (s.seen ++ new).Nodup ∧
      (∀ node ∈ new, node ∈ nodes) ∧ ∀ node ∈ nodes, node ∈ s.seen ++ new := by
  induction nodes generalizing s with
  | nil => exact ⟨[], by simp, by simpa using apart, by simp, by simp⟩
  | cons first nodes ih =>
    rw [List.foldl_cons]
    by_cases known : first ∈ s.seen
    · have same : s.see first = s := by simp [see, known]
      obtain ⟨new, all, apart', within, covers⟩ := ih apart
      refine ⟨new, by rw [same, all], apart', fun node hn => .tail _ (within node hn), ?_⟩
      intro node hn
      rcases List.mem_cons.1 hn with rfl | hn
      · exact List.mem_append_left _ known
      · exact covers node hn
    · have more : s.see first = ⟨s.seen ++ [first], s.queue ++ [first]⟩ := by simp [see, known]
      have apart₁ : (s.seen ++ [first]).Nodup :=
        apart.append (List.nodup_singleton first) (by simpa using known)
      obtain ⟨new, all, apart', within, covers⟩ := ih (s := ⟨s.seen ++ [first], s.queue ++ [first]⟩) apart₁
      simp only [List.append_assoc, List.singleton_append] at all apart' covers
      refine ⟨first :: new, by rw [more, all], apart', ?_, ?_⟩
      · intro node hn
        rcases List.mem_cons.1 hn with rfl | hn
        · exact List.mem_cons_self
        · exact .tail _ (within node hn)
      · intro node hn
        rcases List.mem_cons.1 hn with rfl | hn
        · exact List.mem_append_right _ List.mem_cons_self
        · exact covers node hn

/-- A search that began at `entry` and has made `rounds` rounds. -/
structure Tracks (connections : List Connection) (entry : String) (rounds : Nat) (s : Search) :
    Prop where
  began : entry ∈ s.seen
  apart : s.seen.Nodup
  led : ∀ node ∈ s.seen, LeadsTo connections entry node
  made : rounds ≤ s.seen.length
  queue : s.queue = s.seen.drop rounds
  followed : ∀ c ∈ connections, c.source ∈ s.seen.take rounds → c.target ∈ s.seen

theorem tracks_start (connections : List Connection) (entry : String) :
    (start entry).Tracks connections entry 0 where
  began := List.mem_singleton_self entry
  apart := List.nodup_singleton entry
  led node hn := by
    obtain rfl := List.mem_singleton.1 hn
    exact .refl
  made := Nat.zero_le _
  queue := rfl
  followed c _ hc := by cases hc

/-- **A round keeps track**: the node that is taken out is the next one of those that were seen. -/
theorem Tracks.next (h : s.Tracks connections entry rounds) (step : s.next? connections = some t) :
    t.Tracks connections entry (rounds + 1) := by
  unfold next? at step
  split at step
  case h_1 => cases step
  case h_2 node queue hq =>
    obtain ⟨new, all, apart, within, covers⟩ := foldl_see (s := ⟨s.seen, queue⟩)
      (targets connections node) h.apart
    obtain rfl : ⟨s.seen ++ new, queue ++ new⟩ = t := all.symm.trans (Option.some.inj step)
    have tail : s.seen.drop rounds = node :: queue := h.queue.symm.trans hq
    have made : rounds < s.seen.length := by
      rw [← Nat.not_le, ← List.drop_eq_nil_iff, tail]
      exact List.cons_ne_nil _ _
    have taken : s.seen.take (rounds + 1) = s.seen.take rounds ++ [node] := by
      have nth : s.seen[rounds]? = some node := by
        rw [← List.head?_drop, tail]
        rfl
      rw [List.take_add_one, nth]
      rfl
    have seen : node ∈ s.seen := List.mem_of_mem_drop (tail ▸ List.mem_cons_self)
    refine ⟨List.mem_append_left _ h.began, apart, ?_, ?_, ?_, ?_⟩
    · intro m hm
      rcases List.mem_append.1 hm with hm | hm
      · exact h.led m hm
      · exact (h.led node seen).tail (mem_targets.1 (within m hm))
    · rw [List.length_append]
      omega
    · have rest : queue = s.seen.drop (rounds + 1) := by
        rw [← List.tail_drop, tail, List.tail_cons]
      simp only [List.drop_append_of_le_length (Nat.succ_le_of_lt made), rest]
    · intro c hc hs
      rw [List.take_append_of_le_length (Nat.succ_le_of_lt made), taken] at hs
      rcases List.mem_append.1 hs with hs | hs
      · exact List.mem_append_left _ (h.followed c hc hs)
      · exact covers _ (mem_targets.2 ⟨c, hc, List.mem_singleton.1 hs, rfl⟩)

/-! ## Whole searches -/

/-- **The rounds of a search keep track.** -/
theorem Tracks.after (h : s.Tracks connections entry rounds) {more : Nat}
    (later : s.after? connections more = some t) : t.Tracks connections entry (rounds + more) := by
  induction more generalizing s rounds with
  | zero =>
    obtain rfl := Option.some.inj later
    exact h
  | succ more ih =>
    obtain ⟨u, step, later⟩ := Option.bind_eq_some_iff.1 later
    have track := ih (h.next step) later
    rwa [Nat.add_assoc, Nat.add_comm 1] at track

/-- A search that is over has made a round for each node, and has seen just those that a way leads
to. -/
theorem Tracks.ended (h : s.Tracks connections entry rounds) (empty : s.queue = []) :
    rounds = s.seen.length ∧ ∀ node, node ∈ s.seen ↔ LeadsTo connections entry node := by
  have all : s.seen.length ≤ rounds := List.drop_eq_nil_iff.1 (h.queue.symm.trans empty)
  refine ⟨Nat.le_antisymm h.made all, fun node => ⟨h.led node, fun way => ?_⟩⟩
  induction way with
  | refl => exact h.began
  | tail _ behind ih =>
    obtain ⟨c, hc, rfl, rfl⟩ := behind
    exact h.followed c hc (by rwa [List.take_of_length_le all])

/-- What is left after a run is what is seen when no round can be made any more. -/
theorem run_eq (connections : List Connection) (s : Search) :
    ∃ rounds last, s.after? connections rounds = some last ∧ last.queue = [] ∧
      s.run connections = last.seen := by
  fun_induction run connections s with
  | case1 s ended =>
    refine ⟨0, s, rfl, ?_, rfl⟩
    unfold next? at ended
    split at ended
    case h_1 empty => exact empty
    case h_2 => cases ended
  | case2 s t step ih =>
    obtain ⟨rounds, last, later, empty, seen⟩ := ih
    exact ⟨rounds + 1, last, by rw [after?, step, Option.bind_some, later], empty, seen⟩

/-- **A search ends**, after one round for each node that it has seen. -/
theorem ends (connections : List Connection) (entry : String) :
    ∃ last, (start entry).after? connections last.seen.length = some last ∧ last.queue = [] ∧
      reachable connections entry = last.seen ∧
      ∀ node, node ∈ last.seen ↔ LeadsTo connections entry node := by
  obtain ⟨rounds, last, later, empty, seen⟩ := run_eq connections (start entry)
  have track := (tracks_start connections entry).after later
  rw [Nat.zero_add] at track
  obtain ⟨rfl, just⟩ := track.ended empty
  exact ⟨last, later, empty, seen, just⟩

end Search

section Reachable

variable {connections : List Connection} {entry node : String}

/-- **What is reachable is what a way leads to.** -/
theorem mem_reachable_iff : node ∈ reachable connections entry ↔ LeadsTo connections entry node := by
  obtain ⟨last, -, -, seen, just⟩ := Search.ends connections entry
  rw [seen, just]

instance : Decidable (LeadsTo connections entry node) :=
  decidable_of_iff (node ∈ reachable connections entry) mem_reachable_iff

end Reachable

/-! ## Nodes that are reported -/

/-- The kept nodes have the ids of all nodes, each once and in the order in which they first
appear. -/
theorem ids_keepNodes {kept nodes : List Node} (before : List String)
    (h : kept.map (·.id) = before.eraseDups) :
    (keepNodes kept nodes).map (·.id) = (before ++ nodes.map (·.id)).eraseDups := by
  induction nodes generalizing kept before with
  | nil => rw [keepNodes, List.map_nil, List.append_nil, h]
  | cons n nodes ih =>
    have known : kept.any (·.id == n.id) ↔ n.id ∈ before := by
      rw [← List.mem_eraseDups, ← h]
      simp
    have split : before ++ (n :: nodes).map (·.id) = (before ++ [n.id]) ++ nodes.map (·.id) := by simp
    rw [keepNodes, split]
    split
    case isTrue there =>
      exact ih _ (by rw [h, Entries.eraseDups_concat, if_pos (known.1 there)])
    case isFalse new =>
      refine ih _ ?_
      rw [List.map_append, h, Entries.eraseDups_concat, if_neg (mt known.2 new)]
      rfl

/-- The code of the finding that a node cannot be reached. -/
def unreachableCode : String := "UNREACHABLE_NODE"

theorem Finding.code_eq_unreachableCode (f : Finding) :
    f.code = unreachableCode ↔ ∃ node, f = .unreachable node := by
  cases f <;> simp [code, unreachableCode]

namespace Script

variable {s : Script}

/-- Only what is found about the entry says that a node cannot be reached. -/
theorem filter_unreachable_findings (s : Script) :
    s.findings.filter (·.code == unreachableCode) =
      s.entryFindings.filter (·.code == unreachableCode) := by
  have structural {f : Finding} (h : f.isStructural) : ¬(f.code == unreachableCode) = true := by
    rw [beq_iff_eq, Finding.code_eq_unreachableCode]
    rintro ⟨node, rfl⟩
    cases h
  have nodes : (repeatedNodes [] s.nodes).filter (·.code == unreachableCode) = [] :=
    List.filter_eq_nil_iff.2 fun _ hf => structural (repeatedNodes_isStructural hf)
  have connections : (connectionFindings s.keptNodes [] s.connections).filter
      (·.code == unreachableCode) = [] :=
    List.filter_eq_nil_iff.2 fun _ hf => structural (connectionFindings_isStructural hf)
  have single : (s.keptNodes.flatMap (Node.findings s.keptConnections)).filter
      (·.code == unreachableCode) = [] := by
    refine List.filter_eq_nil_iff.2 fun f hf => ?_
    obtain ⟨n, -, hf⟩ := List.mem_flatMap.1 hf
    rw [beq_iff_eq, Finding.code_eq_unreachableCode]
    rintro ⟨node, rfl⟩
    cases Node.findings_isLocal hf
  rw [findings, List.filter_append, List.filter_append, List.filter_append, nodes, connections, single,
    List.nil_append, List.nil_append, List.append_nil]

/-- If there is one candidate, what is found about the entry are the nodes that it does not lead to. -/
theorem entryFindings_of_one {entry : String} (one : s.candidates = [entry]) :
    s.entryFindings = ((s.nodes.map (·.id)).eraseDups.filter fun id =>
      ¬LeadsTo s.keptConnections entry id).map .unreachable := by
  have ids : s.keptNodes.map (·.id) = (s.nodes.map (·.id)).eraseDups := ids_keepNodes [] rfl
  unfold entryFindings
  rw [one, ← ids, List.filter_map, List.map_map]
  simp only [← mem_reachable_iff]
  congr 1
  refine List.filter_congr fun n _ => ?_
  simp

end Script

/-- **Just the nodes that cannot be reached are reported.**  If what is kept of a script has one
candidate for its entry, the issues of unreachable nodes name the ids of the script to which no way
along the kept connections leads from there, each once and in the order in which they first appear.
The search for these ways comes to its end on every graph, after a round for each node that it has
seen, and these are the nodes that a way leads to. -/
theorem unreachable_nodes_reported {s : Script} {entry : String} (one : s.candidates = [entry]) :
    (s.issues.filter fun i => i.finding.code == unreachableCode) =
        ((s.nodes.map (·.id)).eraseDups.filter fun id => ¬LeadsTo s.keptConnections entry id).map
          (fun id => ⟨s.id, .unreachable id⟩) ∧
      ∃ last, (Search.start entry).after? s.keptConnections last.seen.length = some last ∧
        last.next? s.keptConnections = none ∧ last.seen.Nodup ∧
        ∀ id, id ∈ last.seen ↔ LeadsTo s.keptConnections entry id := by
  constructor
  · have all : ∀ f ∈ s.entryFindings, (f.code == unreachableCode) = true := by
      intro f hf
      rw [Script.entryFindings_of_one one] at hf
      obtain ⟨id, -, rfl⟩ := List.mem_map.1 hf
      rfl
    rw [Script.issues, List.filter_map]
    change (s.findings.filter (·.code == unreachableCode)).map _ = _
    rw [Script.filter_unreachable_findings, List.filter_eq_self.2 all,
      Script.entryFindings_of_one one, List.map_map]
    rfl
  · obtain ⟨last, later, empty, -, just⟩ := Search.ends s.keptConnections entry
    have track := (Search.tracks_start s.keptConnections entry).after later
    exact ⟨last, later, by rw [Search.next?, empty], track.apart, just⟩

/-- A house with a hall that leads back to itself, and two rooms that only lead to each other.  The
attic is there twice, and one connection leads to a garden that is not there. -/
def house : Script where
  id := "house"
  nodes := [⟨"door", .dialogue { text := "Come in." }⟩,
    ⟨"hall", .choice { question := "Stay?" }⟩,
    ⟨"attic", .dialogue { text := "It is dark." }⟩,
    ⟨"stairs", .ending⟩,
    ⟨"cellar", .dialogue { text := "It is cold." }⟩,
    ⟨"attic", .dialogue { text := "It is dusty." }⟩]
  connections := [⟨"door", 0, "hall"⟩, ⟨"hall", 0, "hall"⟩, ⟨"cellar", 0, "garden"⟩,
    ⟨"attic", 0, "cellar"⟩, ⟨"hall", 1, "stairs"⟩, ⟨"cellar", 0, "attic"⟩]

/-- The two rooms are reported, each once. -/
theorem house_attic_reported :
    house.candidates = ["door"] ∧
      (house.issues.filter fun i => i.finding.code == unreachableCode) =
        [⟨"house", .unreachable "attic"⟩, ⟨"house", .unreachable "cellar"⟩] ∧
      ∃ last, (Search.start "door").after? house.keptConnections last.seen.length = some last ∧
        last.next? house.keptConnections = none := by
  have one : house.candidates = ["door"] := by decide
  obtain ⟨reported, last, later, ended, -⟩ := unreachable_nodes_reported one
  refine ⟨one, reported.trans ?_, last, later, ended⟩
  decide +kernel

end Questline

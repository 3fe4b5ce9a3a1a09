import Mathlib.Data.List.Perm.Subperm
import Questline.Proofs.Chains

/-!
# Dialogues that are left out

The dialogues of a script are gathered by their tutorials, and of each group one chain is read: it
begins at one dialogue and goes on to the next one as long as there is one that was not read.  So no
dialogue is read twice, cycles or not.  But what the chain does not come to is left out: a second
chain, a branch, a dialogue without connections.

A dialogue leads to one dialogue of its group at most.  If several of its connections lead to some, the
last of them counts.

* `TutorialScript.mem_groups_iff`: the group of a tutorial is made of all its dialogues.
* `TutorialScript.Next`: the dialogue that is read after another.
* `TutorialScript.goAlong_spec`: what is read from a node on is what can be reached from it.
* `TutorialScript.chainOf_spec`: what is read of a group.
* `exported_once_iff_reached`: the dialogues that come back as messages.
-/

namespace Questline

namespace TutorialScript

variable {s : TutorialScript} {group nodes read : List Node} {connections : List Connection}
  {n m k start : Node} {id name : String} {key : Node → String} {gs : Entries (List Node)} {bound : Nat}

/-! ## Groups -/

theorem nodup_names_gather (apart : gs.names.Nodup) (nodes : List Node) :
    (gather key gs nodes).names.Nodup := by
  induction nodes generalizing gs with
  | nil => exact apart
  | cons n nodes ih => exact ih (Entries.nodup_names_put apart _ _)

/-- Nodes are added to the group of their key, in order. -/
theorem get?_gather (key : Node → String) (gs : Entries (List Node)) (nodes : List Node) (name : String) :
    (gather key gs nodes).get? name =
      if nodes.filter (key · == name) = [] then gs.get? name
      else some ((gs.get? name).getD [] ++ nodes.filter (key · == name)) := by
  induction nodes generalizing gs with
  | nil => rfl
  | cons n nodes ih =>
    rw [gather, List.foldl_cons]
    have later := ih (gs.put (key n) ((gs.get? (key n)).getD [] ++ [n]))
    rw [gather] at later
    rw [later, Entries.get?_put, List.filter_cons]
    by_cases same : key n = name
    · subst same
      by_cases last : nodes.filter (key · == key n) = []
      · simp [last]
      · simp [last]
    · simp [same]

/-- The dialogues of a script. -/
def dialogues (s : TutorialScript) : List Node := s.script.nodes.filter isDialogue

/-- The dialogues of a tutorial. -/
def dialoguesOf (s : TutorialScript) (id : String) : List Node :=
  s.dialogues.filter fun n => s.tutorialOf n == id

theorem mem_dialoguesOf : n ∈ s.dialoguesOf id ↔ n ∈ s.dialogues ∧ s.tutorialOf n = id := by
  rw [dialoguesOf, List.mem_filter, beq_iff_eq]

theorem nodup_names_groups (s : TutorialScript) : s.groups.names.Nodup := by
  have none : (Entries.names ([] : Entries (List Node))).Nodup := List.nodup_nil
  exact nodup_names_gather none s.dialogues

/-- **The group of a tutorial is made of all its dialogues**, if it has any. -/
theorem mem_groups_iff : (id, group) ∈ s.groups ↔ group = s.dialoguesOf id ∧ group ≠ [] := by
  have found : s.groups.get? id = if s.dialoguesOf id = [] then none else some (s.dialoguesOf id) :=
    get?_gather s.tutorialOf [] s.dialogues id
  rw [← Entries.get?_eq_some_iff s.nodup_names_groups, found]
  by_cases none : s.dialoguesOf id = []
  · simp [none]
  · rw [if_neg none, Option.some_inj]
    constructor
    · rintro rfl
      exact ⟨rfl, none⟩
    · rintro ⟨rfl, -⟩
      rfl

/-! ## One dialogue after another -/

/-- The last connection from `n` to a node of the group leads to `m`. -/
def Next (group : List Node) (connections : List Connection) (n m : Node) : Prop :=
  n ∈ group ∧ m ∈ group ∧ ∃ before c after, connections = before ++ c :: after ∧ c.source = n.id ∧
    c.target = m.id ∧ ∀ d ∈ after, d.source = n.id → d.target ∉ group.map (·.id)

theorem any_id_iff : group.any (·.id == id) = true ↔ id ∈ group.map (·.id) := by
  simp [List.any_eq_true, List.mem_map]

/-- The last connection that leaves a node within the group is the one that counts. -/
theorem get?_linksWithin_eq_some_iff (source : id ∈ group.map (·.id)) :
    (linksWithin group connections).get? id = some name ↔ name ∈ group.map (·.id) ∧
      ∃ before c after, connections = before ++ c :: after ∧ c.source = id ∧ c.target = name ∧
        ∀ d ∈ after, d.source = id → d.target ∉ group.map (·.id) := by
  -- The last pair of a name is the one that is kept: the first one that is found from the end.
  have last : (linksWithin group connections).get? id =
      ((connections.reverse.find? fun c => c.source == id &&
        (group.any (·.id == c.source) && group.any (·.id == c.target))).map (·.target)) := by
    rw [linksWithin, Entries.get?_ofPairs, List.filter_map, List.getLast?_map, List.filter_filter,
      List.getLast?_filter, Option.map_map]
    rfl
  rw [last, Option.map_eq_some_iff]
  constructor
  · rintro ⟨c, found, rfl⟩
    obtain ⟨counts, after, before, split, later⟩ := List.find?_eq_some_iff_append.1 found
    simp only [Bool.and_eq_true, beq_iff_eq, any_id_iff] at counts
    refine ⟨counts.2.2, before.reverse, c, after.reverse, ?_, counts.1, rfl, ?_⟩
    · rw [← List.reverse_reverse connections, split]
      simp
    · intro d hd from_ target
      have away := later d (List.mem_reverse.1 hd)
      rw [Bool.not_eq_true', Bool.eq_false_iff] at away
      apply away
      simp only [Bool.and_eq_true, beq_iff_eq, any_id_iff]
      exact ⟨from_, from_ ▸ source, target⟩
  · rintro ⟨target, before, c, after, rfl, rfl, rfl, later⟩
    refine ⟨c, List.find?_eq_some_iff_append.2 ⟨?_, after.reverse, before.reverse, by simp, ?_⟩, rfl⟩
    · simp only [Bool.and_eq_true, beq_iff_eq, any_id_iff]
      exact ⟨trivial, source, target⟩
    · intro d hd
      rw [Bool.not_eq_true', Bool.eq_false_iff]
      intro counts
      simp only [Bool.and_eq_true, beq_iff_eq, any_id_iff] at counts
      exact later d (List.mem_reverse.1 hd) counts.1 counts.2.2

theorem next_iff (distinct : (group.map (·.id)).Nodup) (known : n ∈ group) :
    ((linksWithin group connections).get? n.id).bind (lastOfId? group) = some m ↔
      Next group connections n m := by
  have source : n.id ∈ group.map (·.id) := List.mem_map_of_mem known
  rw [Option.bind_eq_some_iff]
  constructor
  · rintro ⟨name, link, found⟩
    have same : m.id = name := by simpa using List.find?_some found
    subst same
    obtain ⟨-, last⟩ := (get?_linksWithin_eq_some_iff source).1 link
    exact ⟨known, List.mem_reverse.1 (List.mem_of_find?_eq_some found), last⟩
  · rintro ⟨-, there, last⟩
    exact ⟨m.id, (get?_linksWithin_eq_some_iff source).2 ⟨List.mem_map_of_mem there, last⟩,
      lastOfId?_eq distinct there⟩

/-- Some connection that counts leads to a node just if the node is next after some other. -/
theorem any_target_iff (distinct : (group.map (·.id)).Nodup) (known : n ∈ group) :
    (linksWithin group connections).any (·.2 == n.id) = true ↔ ∃ m, Next group connections m n := by
  rw [List.any_eq_true]
  constructor
  · rintro ⟨⟨source, target⟩, link, same⟩
    obtain rfl : target = n.id := eq_of_beq same
    have held : (linksWithin group connections).get? source = some n.id :=
      (Entries.get?_eq_some_iff (Entries.nodup_names_ofPairs _)).2 link
    have name : source ∈ (linksWithin group connections).names := List.mem_map_of_mem link
    rw [linksWithin, Entries.names_ofPairs, List.mem_eraseDups, List.map_map, List.mem_map] at name
    obtain ⟨c, hc, rfl⟩ := name
    have within := (List.mem_filter.1 hc).2
    rw [Bool.and_eq_true, any_id_iff] at within
    obtain ⟨m, hm, same⟩ := List.mem_map.1 within.1
    have source : c.source = m.id := same.symm
    rw [Function.comp_apply, source] at held
    refine ⟨m, (next_iff distinct hm).1 ?_⟩
    rw [held, Option.bind_some, lastOfId?_eq distinct known]
  · rintro ⟨m, next⟩
    obtain ⟨target, held, found⟩ := Option.bind_eq_some_iff.1 ((next_iff distinct next.1).2 next)
    have same : n.id = target := by simpa using List.find?_some found
    exact ⟨(m.id, target), (Entries.get?_eq_some_iff (Entries.nodup_names_ofPairs _)).1 held,
      by simp [same]⟩

/-! ## Reading a group -/

/-- A group is read from its first node that is not next after any, or from its first node if there is
no such node. -/
inductive Begins (group : List Node) (connections : List Connection) : Node → Prop
  | free {before : List Node} {n : Node} {after : List Node} (split : group = before ++ n :: after)
      (taken : ∀ k ∈ before, ∃ m, Next group connections m k) (free : ∀ m, ¬Next group connections m n) :
      Begins group connections n
  | around {n : Node} {after : List Node} (split : group = n :: after)
      (taken : ∀ k ∈ group, ∃ m, Next group connections m k) : Begins group connections n

theorem startOf?_eq_some_iff (distinct : (group.map (·.id)).Nodup) :
    startOf? group (linksWithin group connections) = some n ↔ Begins group connections n := by
  have free {k : Node} (known : k ∈ group) :
      (!(linksWithin group connections).any (·.2 == k.id)) = true ↔ ∀ m, ¬Next group connections m k := by
    rw [Bool.not_eq_true', Bool.eq_false_iff, ne_eq, any_target_iff distinct known, not_exists]
  have taken {k : Node} (known : k ∈ group) :
      ¬(!(linksWithin group connections).any (·.2 == k.id)) = true ↔ ∃ m, Next group connections m k := by
    rw [free known, not_forall_not]
  rw [startOf?, Option.or_eq_some_iff, List.find?_eq_some_iff_append, List.find?_eq_none,
    List.head?_eq_some_iff]
  constructor
  · rintro (⟨unled, before, after, split, led⟩ | ⟨led, after, split⟩)
    · have known : n ∈ group := by simp [split]
      refine .free split ?_ ((free known).1 unled)
      intro k hk
      have known : k ∈ group := by simp [split, hk]
      exact (taken known).1 (by simpa using led k hk)
    · exact .around split fun k hk => (taken hk).1 (led k hk)
  · rintro (⟨split, led, unled⟩ | ⟨split, led⟩)
    · have known : n ∈ group := by simp [split]
      refine .inl ⟨(free known).2 unled, _, _, split, ?_⟩
      intro k hk
      have known : k ∈ group := by simp [split, hk]
      simpa using (taken known).2 (led k hk)
    · exact .inr ⟨fun k hk => (taken hk).2 (led k hk), _, split⟩

theorem Begins.mem (h : Begins group connections n) : n ∈ group := by
  cases h with
  | free split => simp [split]
  | around split => simp [split]

/-- What can be reached from a node along the connections of its group. -/
abbrev Along (group : List Node) (connections : List Connection) : Node → Node → Prop :=
  Relation.ReflTransGen (Next group connections)

/-- What holds while a group is read: `read` was read, and `n` is the node to go on with. -/
structure Passed (group : List Node) (connections : List Connection) (start : Node) (read : List Node)
    (n : Node) : Prop where
  apart : read.Nodup
  within : read ⊆ group
  known : n ∈ group
  reached : ∀ m ∈ read, Along group connections start m
  arrived : Along group connections start n
  onward : ∀ m ∈ read, ∀ k, Next group connections m k → k ∈ read ∨ k = n
  begun : start ∈ read ∨ start = n

namespace Passed

theorem init (known : start ∈ group) : Passed group connections start [] start where
  apart := List.nodup_nil
  within := List.nil_subset _
  known := known
  reached := nofun
  arrived := .refl
  onward := nofun
  begun := .inr rfl

theorem step (h : Passed group connections start read n) (new : n ∉ read)
    (next : ∀ m, Next group connections n m ↔ m = k) : Passed group connections start (read ++ [n]) k where
  apart := List.nodup_append.2 ⟨h.apart, List.nodup_singleton n, by
    rintro m hm _ hn rfl
    exact new (List.mem_singleton.1 hn ▸ hm)⟩
  within := by
    intro m hm
    rcases List.mem_append.1 hm with hm | hm
    · exact h.within hm
    · exact List.mem_singleton.1 hm ▸ h.known
  known := ((next k).2 rfl).2.1
  reached := by
    intro m hm
    rcases List.mem_append.1 hm with hm | hm
    · exact h.reached m hm
    · exact List.mem_singleton.1 hm ▸ h.arrived
  arrived := h.arrived.tail ((next k).2 rfl)
  onward := by
    intro m hm j step
    rcases List.mem_append.1 hm with hm | hm
    · refine .inl (List.mem_append.2 ?_)
      exact (h.onward m hm j step).imp_right fun same => List.mem_singleton.2 same
    · obtain rfl := List.mem_singleton.1 hm
      exact .inr ((next j).1 step)
  begun := .inl (List.mem_append.2 (h.begun.imp_right fun same => List.mem_singleton.2 same))

/-- Nodes that include the first one and all that are next after one of them are all that can be
reached. -/
theorem mem_iff {result : List Node} (begun : start ∈ result)
    (reached : ∀ m ∈ result, Along group connections start m)
    (closed : ∀ m ∈ result, ∀ k, Next group connections m k → k ∈ result) :
    m ∈ result ↔ Along group connections start m := by
  refine ⟨reached m, fun along => ?_⟩
  induction along with
  | refl => exact begun
  | tail _ next ih => exact closed _ ih _ next

/-- Once the chain comes back, all is read that can be reached. -/
theorem back (h : Passed group connections start read n) (again : n ∈ read) :
    m ∈ read ↔ Along group connections start m := by
  refine mem_iff ?_ h.reached ?_
  · rcases h.begun with first | rfl
    · exact first
    · exact again
  · intro j hj k next
    rcases h.onward j hj k next with old | rfl
    · exact old
    · exact again

/-- Where no node is next, all is read that can be reached. -/
theorem halt (h : Passed group connections start read n) (last : ∀ k, ¬Next group connections n k) :
    m ∈ read ++ [n] ↔ Along group connections start m := by
  refine mem_iff ?_ ?_ ?_
  · exact List.mem_append.2 (h.begun.imp_right fun same => List.mem_singleton.2 same)
  · intro j hj
    rcases List.mem_append.1 hj with hj | hj
    · exact h.reached j hj
    · exact List.mem_singleton.1 hj ▸ h.arrived
  · intro j hj k next
    rcases List.mem_append.1 hj with hj | hj
    · simpa using h.onward j hj k next
    · exact absurd (List.mem_singleton.1 hj ▸ next) (last k)

end Passed

/-- **What is read from a node on**: all that can be reached from it, each node once.  The induction is
on the bound; it is never what ends the reading, as no more nodes can be read than there are. -/
theorem goAlong_spec (distinct : (group.map (·.id)).Nodup) (h : Passed group connections start read n)
    (long : group.length ≤ bound + read.length) :
    (goAlong group (linksWithin group connections) bound read n).Nodup ∧
      ∀ m, m ∈ goAlong group (linksWithin group connections) bound read n ↔
        Along group connections start m := by
  induction bound generalizing read n with
  | zero =>
    have all : read.Perm group := (List.subperm_of_subset h.apart h.within).perm_of_length_le (by omega)
    exact ⟨h.apart, fun _ => h.back (all.mem_iff.2 h.known)⟩
  | succ bound ih =>
    rw [goAlong]
    split
    case isTrue again => exact ⟨h.apart, fun _ => h.back (by simpa using again)⟩
    case isFalse new =>
      have new : n ∉ read := by simpa using new
      have next (m : Node) : ((linksWithin group connections).get? n.id).bind (lastOfId? group) = some m ↔
          Next group connections n m := next_iff distinct h.known
      split
      case h_1 k found =>
        refine ih (h.step new fun m => ?_) (by simp only [List.length_append, List.length_singleton]; omega)
        rw [← next, found, Option.some_inj, eq_comm]
      case h_2 none =>
        refine ⟨List.nodup_append.2 ⟨h.apart, List.nodup_singleton n, ?_⟩, fun _ => h.halt fun k => ?_⟩
        · rintro m hm _ hn rfl
          exact new (List.mem_singleton.1 hn ▸ hm)
        · rw [← next, none]
          exact (Option.some_ne_none k).symm

theorem chainOf_spec (distinct : (group.map (·.id)).Nodup) (connections : List Connection) :
    (chainOf group connections).Nodup ∧ ∀ m, m ∈ chainOf group connections ↔
      ∃ b, Begins group connections b ∧ Along group connections b m := by
  unfold chainOf
  dsimp only
  split
  case h_1 b first =>
    have begins := (startOf?_eq_some_iff distinct).1 first
    obtain ⟨apart, reads⟩ := goAlong_spec distinct (Passed.init begins.mem) (Nat.le_refl group.length)
    refine ⟨apart, fun m => (reads m).trans ⟨fun along => ⟨b, begins, along⟩, ?_⟩⟩
    rintro ⟨b', begins', along⟩
    obtain rfl := Option.some.inj (first.symm.trans ((startOf?_eq_some_iff distinct).2 begins'))
    exact along
  case h_2 none =>
    refine ⟨List.nodup_nil, fun m => ⟨nofun, ?_⟩⟩
    rintro ⟨b, begins, -⟩
    rw [(startOf?_eq_some_iff distinct).2 begins] at none
    cases none

/-! ## Messages -/

/-- The dialogues that are read of each tutorial. -/
def readings (s : TutorialScript) : Entries (List Node) :=
  s.groups.map fun g => (g.1, chainOf g.2 s.script.connections)

/-- A dialogue is reached if the chain of its tutorial comes to it. -/
def Reached (s : TutorialScript) (n : Node) : Prop :=
  ∃ b, Begins (s.dialoguesOf (s.tutorialOf n)) s.script.connections b ∧
    Along (s.dialoguesOf (s.tutorialOf n)) s.script.connections b n

/-- A dialogue is read just once, in the tutorial that it belongs to. -/
def ReadOnce (s : TutorialScript) (n : Node) : Prop :=
  ∃ before r after, s.readings = before ++ r :: after ∧ r.1 = s.tutorialOf n ∧ r.2.count n = 1 ∧
    ∀ q ∈ before ++ after, n ∉ q.2

theorem names_readings (s : TutorialScript) : s.readings.names = s.groups.names := by
  rw [readings, Entries.names, List.map_map]
  rfl

/-- **What is read of a tutorial**: each of its dialogues that is reached, once, and no other. -/
theorem mem_readings (distinct : (s.script.nodes.map (·.id)).Nodup) {r : String × List Node}
    (h : r ∈ s.readings) :
    r.2.Nodup ∧ ∀ n, n ∈ r.2 ↔ n ∈ s.dialogues ∧ s.tutorialOf n = r.1 ∧ s.Reached n := by
  obtain ⟨⟨id, group⟩, hg, rfl⟩ := List.mem_map.1 h
  obtain ⟨rfl, -⟩ := mem_groups_iff.1 hg
  have apart : ((s.dialoguesOf id).map (·.id)).Nodup :=
    ((List.filter_sublist.trans List.filter_sublist).map _).nodup distinct
  obtain ⟨once, reads⟩ := chainOf_spec apart s.script.connections
  refine ⟨once, fun n => (reads n).trans ?_⟩
  constructor
  · rintro ⟨b, begins, along⟩
    have known : n ∈ s.dialoguesOf id := by
      rcases Relation.ReflTransGen.cases_tail along with rfl | ⟨m, -, next⟩
      · exact begins.mem
      · exact next.2.1
    obtain ⟨spoken, own⟩ := mem_dialoguesOf.1 known
    exact ⟨spoken, own, b, own ▸ begins, own ▸ along⟩
  · rintro ⟨-, rfl, reached⟩
    exact reached

end TutorialScript

open TutorialScript in
/-- **The dialogues that come back as messages.**  If no two nodes have the same id, then the messages
of a tutorial are those of its dialogues that are reached: each has its own text and its recorded
delay, and none is there twice.  A dialogue that is not reached is in no tutorial. -/
theorem exported_once_iff_reached {s : TutorialScript} (distinct : (s.script.nodes.map (·.id)).Nodup) :
    (s.tutorials.map fun t => (t.id, t.messages)) =
        (s.readings.map fun r => (r.1, r.2.map fun n =>
          ⟨textOf n, ((s.notes.get? n.id).map (·.delay)).getD (.int 0)⟩)) ∧
      s.readings.names.Nodup ∧
      (∀ r ∈ s.readings, ∀ n ∈ r.2, n ∈ s.dialogues ∧ s.tutorialOf n = r.1) ∧
      ∀ n ∈ s.dialogues, (s.ReadOnce n ↔ s.Reached n) ∧ (¬s.Reached n → ∀ r ∈ s.readings, n ∉ r.2) := by
  have apart : s.readings.names.Nodup := by
    rw [names_readings]
    exact s.nodup_names_groups
  refine ⟨?_, apart, ?_, ?_⟩
  · rw [tutorials, readings, List.map_map, List.map_map]
    rfl
  · intro r hr n hn
    obtain ⟨spoken, own, -⟩ := ((mem_readings distinct hr).2 n).1 hn
    exact ⟨spoken, own⟩
  · intro n spoken
    refine ⟨⟨?_, ?_⟩, fun left r hr hn => left (((mem_readings distinct hr).2 n).1 hn).2.2⟩
    · rintro ⟨before, r, after, split, -, once, -⟩
      have hr : r ∈ s.readings := by simp [split]
      have hn : n ∈ r.2 := List.count_pos_iff.1 (by omega)
      exact (((mem_readings distinct hr).2 n).1 hn).2.2
    · intro reached
      have known : n ∈ s.dialoguesOf (s.tutorialOf n) := mem_dialoguesOf.2 ⟨spoken, rfl⟩
      have grouped := mem_groups_iff.2 ⟨rfl, List.ne_nil_of_mem known⟩
      have hr : (s.tutorialOf n, chainOf (s.dialoguesOf (s.tutorialOf n)) s.script.connections) ∈
          s.readings := List.mem_map_of_mem grouped
      obtain ⟨once, reads⟩ := mem_readings distinct hr
      obtain ⟨before, after, split⟩ := List.append_of_mem hr
      refine ⟨before, _, after, split, rfl, ?_, ?_⟩
      · rw [once.count, if_pos ((reads n).2 ⟨spoken, rfl, reached⟩)]
      · intro q hq hn
        have there : q ∈ s.readings := by
          rw [split]
          rcases List.mem_append.1 hq with hq | hq
          · exact List.mem_append_left _ hq
          · exact List.mem_append_right _ (List.mem_cons_of_mem _ hq)
        have same : s.tutorialOf n = q.1 := (((mem_readings distinct there).2 n).1 hn).2.1
        rw [split, Entries.names, List.map_append, List.map_cons] at apart
        obtain ⟨-, later, earlier⟩ := List.nodup_append.1 apart
        rcases List.mem_append.1 hq with hq | hq
        · exact earlier _ (List.mem_map_of_mem hq) _ List.mem_cons_self same.symm
        · refine (List.nodup_cons.1 later).1 ?_
          rw [same]
          exact List.mem_map.2 ⟨q, hq, rfl⟩

namespace TutorialScript

/-- A dialogue of the given text. -/
def line (id text : String) : Node := ⟨id, .dialogue { text }⟩

/-- A dialogue that leads into a circle of two others. -/
def circle : TutorialScript where
  script :=
    { id := "circle"
      nodes := [line "a" "One", line "b" "Two", line "c" "Three"]
      connections := [⟨"a", 0, "b"⟩, ⟨"b", 0, "a"⟩, ⟨"c", 0, "a"⟩] }

/-- The circle is left after one turn: its second dialogue is read once. -/
theorem circle_read_once : (circle.script.nodes.map (·.id)).Nodup ∧ circle.ReadOnce (line "b" "Two") := by
  have distinct : (circle.script.nodes.map (·.id)).Nodup := by decide
  have group : circle.dialoguesOf (circle.tutorialOf (line "b" "Two")) = circle.script.nodes := by decide
  have first : Begins circle.script.nodes circle.script.connections (line "c" "Three") := by
    have start : startOf? circle.script.nodes (linksWithin circle.script.nodes circle.script.connections) =
      some (line "c" "Three") := by decide
    exact (startOf?_eq_some_iff distinct).1 start
  have second : Next circle.script.nodes circle.script.connections (line "c" "Three") (line "a" "One") :=
    ⟨by decide, by decide, [⟨"a", 0, "b"⟩, ⟨"b", 0, "a"⟩], _, [], rfl, rfl, rfl, nofun⟩
  have third : Next circle.script.nodes circle.script.connections (line "a" "One") (line "b" "Two") :=
    ⟨by decide, by decide, [], _, [⟨"b", 0, "a"⟩, ⟨"c", 0, "a"⟩], rfl, rfl, rfl, by decide⟩
  have reached : circle.Reached (line "b" "Two") := by
    rw [Reached, group]
    exact ⟨_, first, .tail (.single second) third⟩
  obtain ⟨-, -, -, each⟩ := exported_once_iff_reached distinct
  exact ⟨distinct, (each (line "b" "Two") (by decide)).1.2 reached⟩

/-- Two tutorials of one id, which say one thing each. -/
def namesakes : List Tutorial :=
  [{ id := "door", title := "Door", trigger := "onDoor", messages := [{ text := "One" }] },
    { id := "door", title := "Door", trigger := "onDoor", messages := [{ text := "Two" }] }]

/-- **A message that is lost.**  Two tutorials of one id make two chains of one group, and only the
first of these comes back. -/
theorem second_namesake_lost :
    ((Tutorial.toScript "tutorials" namesakes).script.nodes.map (·.id)).Nodup ∧
      (⟨"1", .dialogue { text := "Two" }⟩ : Node) ∈ (Tutorial.toScript "tutorials" namesakes).dialogues ∧
      ¬(Tutorial.toScript "tutorials" namesakes).ReadOnce ⟨"1", .dialogue { text := "Two" }⟩ ∧
      (Tutorial.toScript "tutorials" namesakes).tutorials = namesakes.take 1 := by
  have readings : (Tutorial.toScript "tutorials" namesakes).readings =
      [("door", [⟨"0", .dialogue { text := "One" }⟩])] := by decide
  refine ⟨by decide, by decide, ?_, by decide +kernel⟩
  rintro ⟨before, r, after, split, -, once, -⟩
  have only : r ∈ (Tutorial.toScript "tutorials" namesakes).readings := by simp [split]
  rw [readings, List.mem_singleton] at only
  subst only
  revert once
  decide

end TutorialScript

end Questline

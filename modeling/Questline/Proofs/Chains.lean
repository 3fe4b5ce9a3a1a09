import Questline.Proofs.Entries
import Questline.Proofs.Numerals
import Questline.Tutorial.Export

/-!
# Chains are read back

A script of several tutorials numbers all their messages in one row.  So no two dialogues have the
same id, however often a text is repeated, and everything that is noted under an id is about one
message only.

The dialogues are gathered again by the tutorial that is noted beside them: tutorials of different
ids make different groups, in the order in which they were written.  Within a group the connections
lead from each dialogue to the next, and no connection comes from another group.  Reading a group
along its connections therefore goes through it from its first dialogue to its last.

* `TutorialScript.chainOf_consecutive`: a group whose connections lead from each node to the next.
* `TutorialScript.gather_blocks`: nodes that are gathered block by block.
* `Tutorial.nodup_ids_chains`: no two dialogues have the same id.
* `tutorials_survive_script`: the tutorials of a catalog, as they come back from its script.
-/

namespace Questline

theorem natText_injective : Function.Injective natText := by
  intro m n h
  have digits : decimalDigits m = decimalDigits n := String.ofList_injective h
  rw [← natOfDigits_decimalDigits m, digits, natOfDigits_decimalDigits]

namespace TutorialScript

variable {group nodes pre rest : List Node} {connections : List Connection} {n : Node} {id : String}

/-! ## Along the connections -/

/-- The connections of a chain: each node leads to the next one. -/
def consecutive : List Node → Entries String
  | a :: b :: rest => (a.id, b.id) :: consecutive (b :: rest)
  | _ => []

theorem names_consecutive (group : List Node) :
    (consecutive group).names = group.dropLast.map (·.id) := by
  induction group with
  | nil => rfl
  | cons a group ih =>
    cases group with
    | nil => rfl
    | cons b rest =>
      simp only [Entries.names] at ih
      simp [consecutive, Entries.names, ih]

theorem targets_consecutive (group : List Node) :
    (consecutive group).map (·.2) = group.tail.map (·.id) := by
  induction group with
  | nil => rfl
  | cons a group ih =>
    cases group with
    | nil => rfl
    | cons b rest => simpa [consecutive] using ih

theorem nodup_names_consecutive (distinct : (group.map (·.id)).Nodup) :
    (consecutive group).names.Nodup := by
  rw [names_consecutive]
  exact (List.Sublist.map _ (List.dropLast_sublist group)).nodup distinct

/-- In a chain a node leads to the one that stands behind it. -/
theorem get?_consecutive (distinct : ((pre ++ n :: rest).map (·.id)).Nodup) :
    (consecutive (pre ++ n :: rest)).get? n.id = rest.head?.map (·.id) := by
  induction pre with
  | nil =>
    cases rest with
    | nil => rfl
    | cons b rest => simp [consecutive, Entries.get?]
  | cons a pre ih =>
    rw [List.cons_append, List.map_cons, List.nodup_cons] at distinct
    have other : a.id ≠ n.id := by
      intro h
      apply distinct.1
      rw [h]
      simp
    obtain ⟨b, tail, hb⟩ : ∃ b tail, pre ++ n :: rest = b :: tail := by
      cases pre with
      | nil => exact ⟨n, rest, rfl⟩
      | cons b pre => exact ⟨b, pre ++ n :: rest, rfl⟩
    have ih := ih distinct.2
    rw [hb] at ih
    rw [List.cons_append, hb, consecutive]
    simp only [Entries.get?] at ih
    simp [Entries.get?, other, ih]

/-- A node of a group is found under its id. -/
theorem lastOfId?_eq (distinct : (group.map (·.id)).Nodup) (mem : n ∈ group) :
    lastOfId? group n.id = some n := by
  have found : (lastOfId? group n.id).isSome := by
    rw [lastOfId?, List.find?_isSome]
    exact ⟨n, List.mem_reverse.2 mem, by simp⟩
  obtain ⟨m, hm⟩ := Option.isSome_iff_exists.1 found
  have same : m.id = n.id := by simpa using List.find?_some hm
  have known : m ∈ group := List.mem_reverse.1 (List.mem_of_find?_eq_some hm)
  rw [hm, List.inj_on_of_nodup_map distinct known mem same]

/-- **Going along a chain goes through it**: from a node in it with all nodes behind that one, in
order. -/
theorem goAlong_consecutive (distinct : (group.map (·.id)).Nodup) :
    ∀ {rest pre : List Node} {n : Node} {bound : Nat}, group = pre ++ n :: rest →
      rest.length < bound → goAlong group (consecutive group) bound pre n = group := by
  intro rest
  induction rest with
  | nil =>
    intro pre n bound split long
    obtain ⟨bound, rfl⟩ := Nat.exists_eq_succ_of_ne_zero (Nat.ne_of_gt (Nat.zero_lt_of_lt long))
    have new : n ∉ pre := by
      rw [split, List.map_append] at distinct
      intro mem
      exact (List.nodup_append.1 distinct).2.2 _ (List.mem_map_of_mem mem) n.id (by simp) rfl
    have last : (consecutive group).get? n.id = none := by
      rw [split] at distinct ⊢
      exact get?_consecutive distinct
    rw [goAlong, last, split]
    simp [new]
  | cons b rest ih =>
    intro pre n bound split long
    obtain ⟨bound, rfl⟩ := Nat.exists_eq_succ_of_ne_zero (Nat.ne_of_gt (Nat.zero_lt_of_lt long))
    have new : n ∉ pre := by
      rw [split, List.map_append] at distinct
      intro mem
      exact (List.nodup_append.1 distinct).2.2 _ (List.mem_map_of_mem mem) n.id (by simp) rfl
    have next : (consecutive group).get? n.id = some b.id := by
      rw [split] at distinct ⊢
      exact get?_consecutive distinct
    have found : lastOfId? group b.id = some b := lastOfId?_eq distinct (by rw [split]; simp)
    have goes : goAlong group (consecutive group) bound (pre ++ [n]) b = group := by
      apply ih
      · rw [split, List.append_assoc]
        rfl
      · rw [List.length_cons] at long
        omega
    rw [goAlong, next, Option.bind_some, found]
    simp [new, goes]

/-- **A group whose connections lead from each node to the next** is read as it is. -/
theorem chainOf_consecutive (distinct : (group.map (·.id)).Nodup)
    (links : linksWithin group connections = consecutive group) :
    chainOf group connections = group := by
  cases group with
  | nil => rw [chainOf, links]; rfl
  | cons n rest =>
    have first : startOf? (n :: rest) (consecutive (n :: rest)) = some n := by
      have free : (consecutive (n :: rest)).any (·.2 == n.id) = false := by
        rw [List.any_eq_false]
        intro e he same
        have target : e.2 ∈ (consecutive (n :: rest)).map (·.2) := List.mem_map_of_mem he
        rw [targets_consecutive, eq_of_beq same] at target
        rw [List.map_cons, List.nodup_cons] at distinct
        exact distinct.1 target
      rw [startOf?, List.find?_cons_of_pos (by rw [free]; rfl)]
      rfl
    rw [chainOf, links]
    simp only [first]
    apply goAlong_consecutive distinct (List.nil_append _).symm
    simp

/-! ## Gathering -/

/-- The nodes gathered under keys, after those that are gathered already. -/
def gather (key : Node → String) (gs : Entries (List Node)) (nodes : List Node) : Entries (List Node) :=
  nodes.foldl (fun gs n => gs.put (key n) ((gs.get? (key n)).getD [] ++ [n])) gs

variable {key : Node → String} {gs : Entries (List Node)}

theorem get?_of_new {name : String} (new : name ∉ gs.names) : gs.get? name = none := by
  rw [Entries.get?, Option.map_eq_none_iff, List.find?_eq_none]
  intro e he same
  exact new (eq_of_beq same ▸ List.mem_map_of_mem he)

theorem put_last {name : String} (new : name ∉ gs.names) (old young : List Node) :
    (gs ++ [(name, old)]).put name young = gs ++ [(name, young)] := by
  induction gs with
  | nil => simp [Entries.put]
  | cons g gs ih =>
    simp only [Entries.names, List.map_cons, List.mem_cons, not_or] at new
    simp [Entries.put, Ne.symm new.1, ih new.2]

theorem get?_last {name : String} (new : name ∉ gs.names) (block : List Node) :
    Entries.get? (gs ++ [(name, block)]) name = some block := by
  have absent := get?_of_new new
  rw [Entries.get?, Option.map_eq_none_iff] at absent
  rw [Entries.get?, List.find?_append, absent]
  simp

/-- Nodes of the key that comes last are added to its group. -/
theorem gather_same {name : String} (new : name ∉ gs.names) (same : ∀ n ∈ nodes, key n = name)
    (block : List Node) : gather key (gs ++ [(name, block)]) nodes = gs ++ [(name, block ++ nodes)] := by
  induction nodes generalizing block with
  | nil => rw [List.append_nil]; rfl
  | cons n nodes ih =>
    rw [gather, List.foldl_cons, same n List.mem_cons_self, get?_last new, put_last new, Option.getD_some]
    have later := ih (fun m hm => same m (List.mem_cons_of_mem n hm)) (block ++ [n])
    rw [List.append_assoc] at later
    exact later

/-- **Nodes that are gathered block by block** make a group of each block. -/
theorem gather_blocks {blocks : Entries (List Node)} (new : ∀ b ∈ blocks, b.1 ∉ gs.names)
    (distinct : blocks.names.Nodup) (filled : ∀ b ∈ blocks, b.2 ≠ [])
    (same : ∀ b ∈ blocks, ∀ n ∈ b.2, key n = b.1) :
    gather key gs (blocks.flatMap (·.2)) = gs ++ blocks := by
  induction blocks generalizing gs with
  | nil => simp [gather]
  | cons b blocks ih =>
    obtain ⟨name, block⟩ := b
    have fresh : name ∉ gs.names := new _ List.mem_cons_self
    have own : ∀ n ∈ block, key n = name := same _ List.mem_cons_self
    rw [Entries.names, List.map_cons, List.nodup_cons] at distinct
    have gathered : gather key gs block = gs ++ [(name, block)] := by
      cases block with
      | nil => exact absurd rfl (filled _ List.mem_cons_self)
      | cons n block =>
        rw [gather, List.foldl_cons, own n List.mem_cons_self, get?_of_new fresh, Option.getD_none,
          Entries.put_of_new fresh]
        exact gather_same fresh (fun m hm => own m (List.mem_cons_of_mem n hm)) [n]
    have others : ∀ b ∈ blocks, b.1 ∉ Entries.names (gs ++ [(name, block)]) := by
      intro b hb known
      rw [Entries.names, List.map_append, List.mem_append] at known
      rcases known with known | known
      · exact new b (List.mem_cons_of_mem _ hb) known
      · rw [List.map_cons, List.map_nil, List.mem_singleton] at known
        exact distinct.1 (known ▸ List.mem_map_of_mem hb)
    have split : gather key gs (List.flatMap (·.2) ((name, block) :: blocks)) =
        gather key (gather key gs block) (blocks.flatMap (·.2)) := by
      rw [List.flatMap_cons, gather, List.foldl_append]
      rfl
    rw [split, gathered, ih others distinct.2 (fun b hb => filled b (List.mem_cons_of_mem _ hb))
      (fun b hb => same b (List.mem_cons_of_mem _ hb)), List.append_assoc]
    rfl

end TutorialScript

/-! ## The row of messages -/

namespace Tutorial

variable {t : Tutorial} {ts xs ys : List Tutorial} {ms : List Message} {number index : Nat}

/-- The number of messages of several tutorials. -/
def span (ts : List Tutorial) : Nat := (ts.map (·.messages.length)).sum

/-- The dialogues of each tutorial, under its id. -/
def blocks : (number : Nat) → List Tutorial → Entries (List Node)
  | _, [] => []
  | number, t :: ts =>
    (t.id, messageNodes number t.messages) :: blocks (number + t.messages.length) ts

theorem names_blocks (number : Nat) (ts : List Tutorial) :
    (blocks number ts).names = ts.map (·.id) := by
  induction ts generalizing number with
  | nil => rfl
  | cons t ts ih =>
    have ih := ih (number + t.messages.length)
    simp only [Entries.names] at ih
    simp [blocks, Entries.names, ih]

theorem nodes_chains (number : Nat) (ts : List Tutorial) :
    (chains number ts).1 = (blocks number ts).flatMap (·.2) := by
  induction ts generalizing number with
  | nil => rfl
  | cons t ts ih => rw [chains, blocks, List.flatMap_cons, ← ih]

/-- Tutorials that are written one after the other. -/
theorem chains_append (number : Nat) (xs ys : List Tutorial) :
    chains number (xs ++ ys) =
      ((chains number xs).1 ++ (chains (number + span xs) ys).1,
        (chains number xs).2.1 ++ (chains (number + span xs) ys).2.1,
        (chains number xs).2.2 ++ (chains (number + span xs) ys).2.2) := by
  induction xs generalizing number with
  | nil => simp [chains, span]
  | cons x xs ih =>
    have next : number + x.messages.length + span xs = number + span (x :: xs) := by
      simp only [span, List.map_cons, List.sum_cons]
      omega
    simp only [List.cons_append, chains, ih, next, List.append_assoc]

/-- A block is that of a tutorial, numbered from behind those before it. -/
theorem exists_of_mem_blocks {b : String × List Node} (h : b ∈ blocks number ts) :
    ∃ xs t ys, ts = xs ++ t :: ys ∧ b = (t.id, messageNodes (number + span xs) t.messages) := by
  induction ts generalizing number with
  | nil => cases h
  | cons t ts ih =>
    rcases List.mem_cons.1 h with rfl | h
    · exact ⟨[], t, ts, rfl, by simp [span]⟩
    · obtain ⟨xs, u, ys, rfl, rfl⟩ := ih h
      refine ⟨t :: xs, u, ys, rfl, ?_⟩
      have next : number + t.messages.length + span xs = number + span (t :: xs) := by
        simp only [span, List.map_cons, List.sum_cons]
        omega
      rw [next]

theorem ids_messageNodes (number : Nat) (ms : List Message) :
    (messageNodes number ms).map (·.id) = (List.range' number ms.length).map natText := by
  induction ms generalizing number with
  | nil => rfl
  | cons m ms ih =>
    rw [messageNodes, List.map_cons, ih, List.length_cons, List.range'_succ, List.map_cons]
    rfl

theorem ids_chains (number : Nat) (ts : List Tutorial) :
    (chains number ts).1.map (·.id) = (List.range' number (span ts)).map natText := by
  induction ts generalizing number with
  | nil => rfl
  | cons t ts ih =>
    have all : span (t :: ts) = t.messages.length + span ts := by
      simp [span]
    rw [chains, List.map_append, ids_messageNodes, ih, ← List.map_append, List.range'_append_1, all]

/-- **No two dialogues have the same id.** -/
theorem nodup_ids_chains (number : Nat) (ts : List Tutorial) :
    ((chains number ts).1.map (·.id)).Nodup := by
  rw [ids_chains]
  exact List.Nodup.map natText_injective (List.nodup_range' ..)

theorem names_messageNotes (t : Tutorial) (number index : Nat) (ms : List Message) :
    (messageNotes t number index ms).names = (messageNodes number ms).map (·.id) := by
  induction ms generalizing number index with
  | nil => rfl
  | cons m ms ih =>
    have ih := ih (number + 1) (index + 1)
    simp only [Entries.names] at ih
    simp [messageNotes, messageNodes, messageNode, Entries.names, ih]

/-- Each dialogue has a note. -/
theorem names_chains (number : Nat) (ts : List Tutorial) :
    (chains number ts).2.2.names = (chains number ts).1.map (·.id) := by
  induction ts generalizing number with
  | nil => rfl
  | cons t ts ih =>
    have ih := ih (number + t.messages.length)
    have own := names_messageNotes t number 0 t.messages
    simp only [Entries.names] at ih own
    simp only [chains, Entries.names, List.map_append, ih, own]

/-! ## Connections between dialogues -/

theorem messageLinks_consecutive (number : Nat) (ms : List Message) :
    (messageLinks number ms).map (fun c => (c.source, c.target)) =
      TutorialScript.consecutive (messageNodes number ms) := by
  induction ms generalizing number with
  | nil => rfl
  | cons m ms ih =>
    cases ms with
    | nil => rfl
    | cons m' ms =>
      rw [messageLinks, List.map_cons, ih]
      rfl

/-- A connection of a tutorial joins two of its dialogues. -/
theorem ends_messageLinks {c : Connection} (h : c ∈ messageLinks number ms) :
    c.source ∈ (messageNodes number ms).map (·.id) ∧ c.target ∈ (messageNodes number ms).map (·.id) := by
  induction ms generalizing number with
  | nil => cases h
  | cons m ms ih =>
    cases ms with
    | nil => cases h
    | cons m' ms =>
      rcases List.mem_cons.1 h with rfl | h
      · exact ⟨List.mem_cons_self, List.mem_cons_of_mem _ List.mem_cons_self⟩
      · obtain ⟨source, target⟩ := ih h
        exact ⟨List.mem_cons_of_mem _ source, List.mem_cons_of_mem _ target⟩

theorem source_chains {c : Connection} (h : c ∈ (chains number ts).2.1) :
    c.source ∈ (chains number ts).1.map (·.id) := by
  induction ts generalizing number with
  | nil => cases h
  | cons t ts ih =>
    rw [chains, List.map_append, List.mem_append]
    rcases List.mem_append.1 h with h | h
    · exact .inl (ends_messageLinks h).1
    · exact .inr (ih h)

/-- **The connections within a tutorial** lead from each of its dialogues to the next, and all others
lie outside. -/
theorem linksWithin_chains (number : Nat) (xs : List Tutorial) (t : Tutorial) (ys : List Tutorial) :
    TutorialScript.linksWithin (messageNodes (number + span xs) t.messages)
        (chains number (xs ++ t :: ys)).2.1 =
      TutorialScript.consecutive (messageNodes (number + span xs) t.messages) := by
  have distinct := nodup_ids_chains number (xs ++ t :: ys)
  rw [chains_append, chains, List.map_append, List.map_append] at distinct
  obtain ⟨-, later, before⟩ := List.nodup_append.1 distinct
  obtain ⟨own, -, after⟩ := List.nodup_append.1 later
  generalize hg : messageNodes (number + span xs) t.messages = group at *
  have outside {c : Connection} (away : c.source ∉ group.map (·.id)) :
      ¬(group.any (·.id == c.source) && group.any (·.id == c.target)) = true := by
    intro h
    rw [Bool.and_eq_true, List.any_eq_true] at h
    obtain ⟨⟨n, hn, same⟩, -⟩ := h
    exact away (eq_of_beq same ▸ List.mem_map_of_mem hn)
  have inside {c : Connection} (h : c ∈ messageLinks (number + span xs) t.messages) :
      (group.any (·.id == c.source) && group.any (·.id == c.target)) = true := by
    obtain ⟨source, target⟩ := ends_messageLinks h
    rw [hg] at source target
    obtain ⟨a, ha, same⟩ := List.mem_map.1 source
    obtain ⟨b, hb, same'⟩ := List.mem_map.1 target
    rw [Bool.and_eq_true, List.any_eq_true, List.any_eq_true]
    exact ⟨⟨a, ha, by simp [same]⟩, ⟨b, hb, by simp [same']⟩⟩
  have earlier : (chains number xs).2.1.filter
      (fun c => group.any (·.id == c.source) && group.any (·.id == c.target)) = [] := by
    rw [List.filter_eq_nil_iff]
    intro c hc
    apply outside
    intro mem
    exact before _ (source_chains hc) _ (List.mem_append_left _ mem) rfl
  have rest : (chains (number + span xs + t.messages.length) ys).2.1.filter
      (fun c => group.any (·.id == c.source) && group.any (·.id == c.target)) = [] := by
    rw [List.filter_eq_nil_iff]
    intro c hc
    apply outside
    intro mem
    exact after _ mem _ (source_chains hc) rfl
  have kept : (messageLinks (number + span xs) t.messages).filter
      (fun c => group.any (·.id == c.source) && group.any (·.id == c.target)) =
      messageLinks (number + span xs) t.messages := by
    rw [List.filter_eq_self]
    intro c hc
    exact inside hc
  rw [TutorialScript.linksWithin, chains_append, chains, List.filter_append, List.filter_append, earlier,
    rest, kept, List.nil_append, List.append_nil, messageLinks_consecutive, hg]
  exact Entries.ofPairs_of_nodup (TutorialScript.nodup_names_consecutive own)

/-! ## Notes beside dialogues -/

/-- What a script of tutorials notes beside a dialogue is found under its id. -/
theorem note_toScript {id name : String} {note : MessageNote} (h : (name, note) ∈ (chains 0 ts).2.2) :
    (toScript id ts).notes.get? name = some note := by
  have distinct : (toScript id ts).notes.names.Nodup := by
    have ids := nodup_ids_chains 0 ts
    rw [← names_chains] at ids
    exact ids
  exact (Entries.get?_eq_some_iff distinct).2 h

/-- The messages are read off the dialogues and their notes. -/
theorem map_messageOf {s : TutorialScript}
    (noted : ∀ e ∈ messageNotes t number index ms, s.notes.get? e.1 = some e.2) :
    (messageNodes number ms).map s.messageOf = ms := by
  induction ms generalizing number index with
  | nil => rfl
  | cons m ms ih =>
    have first : s.notes.get? (natText number) = some (messageNote t index m) := noted _ List.mem_cons_self
    have message : s.messageOf (messageNode number m) = m := by
      rw [TutorialScript.messageOf, messageNode, first]
      rfl
    rw [messageNodes, List.map_cons, message, ih fun e he => noted e (List.mem_cons_of_mem _ he)]

theorem tutorialOf_messageNodes {s : TutorialScript}
    (noted : ∀ e ∈ messageNotes t number index ms, s.notes.get? e.1 = some e.2) :
    ∀ n ∈ messageNodes number ms, s.tutorialOf n = t.id := by
  induction ms generalizing number index with
  | nil => intro n hn; cases hn
  | cons m ms ih =>
    intro n hn
    rcases List.mem_cons.1 hn with rfl | hn
    · have first : s.notes.get? (natText number) = some (messageNote t index m) :=
        noted _ List.mem_cons_self
      rw [TutorialScript.tutorialOf, messageNode, first]
      rfl
    · exact ih (fun e he => noted e (List.mem_cons_of_mem _ he)) n hn

theorem isDialogue_messageNodes {n : Node} (h : n ∈ messageNodes number ms) :
    TutorialScript.isDialogue n = true := by
  induction ms generalizing number with
  | nil => cases h
  | cons m ms ih =>
    rcases List.mem_cons.1 h with rfl | h
    · rfl
    · exact ih h

/-! ## Tutorials come back -/

/-- The title of a tutorial as it comes back: what is left of it in the name of the first dialogue. -/
def shownTitle (t : Tutorial) : String := TutorialScript.titleOf (nodeName t.title 0)

/-- The notes on a tutorial are found in the script that it is part of. -/
theorem noted_toScript (id : String) (xs : List Tutorial) (t : Tutorial) (ys : List Tutorial) :
    ∀ e ∈ messageNotes t (span xs) 0 t.messages,
      (toScript id (xs ++ t :: ys)).notes.get? e.1 = some e.2 := by
  intro e he
  apply note_toScript
  rw [chains_append, chains, Nat.zero_add]
  exact List.mem_append_right _ (List.mem_append_left _ he)

/-- The group of a tutorial is the tutorial. -/
theorem tutorialOfGroup_toScript (id : String) (xs : List Tutorial) (t : Tutorial) (ys : List Tutorial)
    (spoken : t.messages ≠ []) :
    (toScript id (xs ++ t :: ys)).tutorialOfGroup t.id (messageNodes (span xs) t.messages) =
      { t with title := t.shownTitle } := by
  have noted := noted_toScript id xs t ys
  have links := linksWithin_chains 0 xs t ys
  have distinct : ((messageNodes (span xs) t.messages).map (·.id)).Nodup := by
    rw [ids_messageNodes]
    exact List.Nodup.map natText_injective (List.nodup_range' ..)
  rw [Nat.zero_add] at links
  have chain : TutorialScript.chainOf (messageNodes (span xs) t.messages)
      (toScript id (xs ++ t :: ys)).script.connections = messageNodes (span xs) t.messages :=
    TutorialScript.chainOf_consecutive distinct links
  have note : ((messageNodes (span xs) t.messages).head?.bind fun n =>
      (toScript id (xs ++ t :: ys)).notes.get? n.id) =
        t.messages.head?.map fun m => messageNote t 0 m := by
    cases hm : t.messages with
    | nil => exact absurd hm spoken
    | cons m ms =>
      rw [hm] at noted
      exact noted _ List.mem_cons_self
  obtain ⟨m, hm⟩ : ∃ m, t.messages.head? = some m := by
    obtain ⟨m, ms, hm⟩ := List.exists_cons_of_ne_nil spoken
    exact ⟨m, by rw [hm]; rfl⟩
  unfold TutorialScript.tutorialOfGroup
  dsimp only
  rw [chain, note, map_messageOf noted, hm]
  rfl

/-- **Tutorials of different ids come back from their script**, in their order. -/
theorem tutorials_toScript (id : String) (distinct : (ts.map (·.id)).Nodup)
    (spoken : ∀ t ∈ ts, t.messages ≠ []) :
    (toScript id ts).tutorials = ts.map fun t => { t with title := t.shownTitle } := by
  have blockwise : ∀ b ∈ blocks 0 ts, ∃ xs t ys, ts = xs ++ t :: ys ∧
      b = (t.id, messageNodes (span xs) t.messages) := by
    intro b hb
    obtain ⟨xs, t, ys, split, hb⟩ := exists_of_mem_blocks hb
    rw [Nat.zero_add] at hb
    exact ⟨xs, t, ys, split, hb⟩
  have dialogues : (toScript id ts).script.nodes.filter TutorialScript.isDialogue =
      (blocks 0 ts).flatMap (·.2) := by
    have nodes : (toScript id ts).script.nodes = (blocks 0 ts).flatMap (·.2) := nodes_chains 0 ts
    rw [nodes, List.filter_eq_self]
    intro n hn
    obtain ⟨b, hb, hn⟩ := List.mem_flatMap.1 hn
    obtain ⟨xs, t, ys, -, rfl⟩ := blockwise b hb
    exact isDialogue_messageNodes hn
  have groups : (toScript id ts).groups = blocks 0 ts := by
    have gathered : TutorialScript.gather (toScript id ts).tutorialOf [] ((blocks 0 ts).flatMap (·.2)) =
        [] ++ blocks 0 ts := TutorialScript.gather_blocks (fun _ _ known => absurd known List.not_mem_nil)
      (by rw [names_blocks]; exact distinct) (by
        intro b hb
        obtain ⟨xs, t, ys, rfl, rfl⟩ := blockwise b hb
        have some := spoken t (by simp)
        cases hm : t.messages with
        | nil => exact absurd hm some
        | cons m ms => exact List.cons_ne_nil _ _) (by
        intro b hb
        obtain ⟨xs, t, ys, rfl, rfl⟩ := blockwise b hb
        exact tutorialOf_messageNodes (noted_toScript id xs t ys))
    rw [TutorialScript.groups, dialogues]
    exact gathered
  rw [TutorialScript.tutorials, groups]
  have whole (xs ys : List Tutorial) (split : ts = xs ++ ys) :
      (blocks (span xs) ys).map (fun g => (toScript id ts).tutorialOfGroup g.1 g.2) =
        ys.map fun t => { t with title := t.shownTitle } := by
    induction ys generalizing xs with
    | nil => rfl
    | cons t ys ih =>
      have behind : span xs + t.messages.length = span (xs ++ [t]) := by simp [span]
      have first := tutorialOfGroup_toScript id xs t ys (spoken t (by rw [split]; simp))
      rw [← split] at first
      rw [blocks, List.map_cons, List.map_cons, first, behind, ih (xs ++ [t]) (by rw [split]; simp)]
  exact whole [] ts rfl

/-- **The tutorials of a catalog survive their script.**  If their ids differ and each of them says
something, then they come back in the order of the catalog, each with its occasion, with whether it is
shown once, and with all its messages in order, whatever their texts are.  Only of the title there may
be less. -/
theorem tutorials_survive_script {catalog : Json.Fields} {ts : List Tutorial}
    (reads : catalogOf catalog = .ok ts) (distinct : (ts.map (·.id)).Nodup)
    (spoken : ∀ t ∈ ts, t.messages ≠ []) (id : String) :
    (catalogOf catalog).map (fun ts => (toScript id ts).tutorials) =
      .ok (ts.map fun t => { t with title := t.shownTitle }) := by
  rw [reads, ← tutorials_toScript id distinct spoken]
  rfl

/-- A catalog of two tutorials that say the same. -/
def echoes : Json.Fields :=
  [("tutorials", .object [
    ("door", .object [("title", .string "The door"), ("messages", .array [
      .object [("text", .string "Hello!")],
      .object [("text", .string "Hello!"), ("delay", .int 2)]])]),
    ("gate", .object [("trigger", .string "onGate"), ("once", .bool false), ("messages", .array [
      .object [("text", .string "Hello!")]])])])]

/-- The tutorials of that catalog. -/
def echoing : List Tutorial :=
  [{ id := "door", title := "The door", trigger := "onGameStart",
     messages := [{ text := "Hello!" }, { text := "Hello!", delay := .int 2 }] },
   { id := "gate", title := "gate", trigger := "onGate", once := false,
     messages := [{ text := "Hello!" }] }]

/-- Both tutorials come back, though they say the same. -/
theorem echoes_survive_script :
    catalogOf echoes = .ok echoing ∧
      (catalogOf echoes).map (fun ts => (toScript "tutorials" ts).tutorials) = .ok echoing := by
  have reads : catalogOf echoes = .ok echoing := rfl
  have titles : echoing.map (fun t => { t with title := t.shownTitle }) = echoing := by decide +kernel
  refine ⟨reads, ?_⟩
  rw [tutorials_survive_script reads (by decide) (by decide) "tutorials", titles]

end Tutorial

end Questline

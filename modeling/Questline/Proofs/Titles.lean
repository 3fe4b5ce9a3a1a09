import Questline.Proofs.Chains

/-!
# Titles that come back

A title is kept in the names of the dialogues only.  The name of a dialogue is the title, cut off if it
is long, and behind a blank the number of the message in brackets.  When the script is read back, the
title is what stands before the first bracket, without blanks at either end.

So a short title comes back as it was, unless it has an opening bracket of its own, at which it is cut,
or blanks at an end, which are lost.

* `TutorialScript.titleOf_nodeName`: the title that is read off a name.
* `TutorialScript.titleOf_nodeName_eq_iff`: the short titles that are read off their names.
* `Tutorial.toScript_speaking`: tutorials that say nothing leave no trace in a script.
* `short_title_survives_iff`: the short titles that come back from a script.
-/

namespace Questline

/-! ## Trimming -/

namespace Text

theorem trimList_concat_blank (cs : List Char) {c : Char} (blank : isBlank c) :
    trimList (cs ++ [c]) = trimList cs := by
  unfold trimList
  rw [List.dropWhile_append]
  split
  case isTrue none =>
    rw [List.isEmpty_iff.1 none]
    simp [blank]
  case isFalse => simp [blank]

theorem length_trimList_le (cs : List Char) : (trimList cs).length ≤ cs.length := by
  rw [trimList, List.length_reverse]
  calc ((cs.dropWhile isBlank).reverse.dropWhile isBlank).length
      ≤ (cs.dropWhile isBlank).reverse.length := (List.dropWhile_sublist _).length_le
    _ = (cs.dropWhile isBlank).length := List.length_reverse
    _ ≤ cs.length := (List.dropWhile_sublist _).length_le

end Text

/-! ## Titles in names -/

namespace TutorialScript

variable {title : String}

theorem takeWhile_eq_self_iff_free {cs : List Char} : cs.takeWhile (· != '[') = cs ↔ '[' ∉ cs := by
  rw [List.takeWhile_eq_self_iff]
  simp only [bne_iff_ne]
  exact ⟨fun others bracket => others _ bracket rfl, fun free c hc => ne_of_mem_of_not_mem hc free⟩

/-- What stands before the first bracket of a name: the title with the blank behind it, or what the
title has before a bracket of its own. -/
theorem takeWhile_label (title rest : List Char) :
    (title ++ ' ' :: '[' :: rest).takeWhile (· != '[') =
      if '[' ∈ title then title.takeWhile (· != '[') else title ++ [' '] := by
  induction title with
  | nil => rfl
  | cons c title ih =>
    by_cases bracket : c = '['
    · simp [bracket]
    · have kept : (c != '[') = true := by simpa using bracket
      have same : '[' ∈ c :: title ↔ '[' ∈ title := by simp [Ne.symm bracket]
      rw [List.cons_append, List.takeWhile_cons, if_pos kept, ih, List.takeWhile_cons, if_pos kept]
      simp only [same]
      split <;> rfl

/-- **The title that is read off a name** is what stands before its first bracket, trimmed. -/
theorem titleOf_nodeName (short : title.length ≤ Tutorial.titleLimit) (index : Int) :
    titleOf (Tutorial.nodeName title index) =
      String.ofList (Text.trimList (title.toList.takeWhile (· != '['))) := by
  have whole : Tutorial.shortTitle title.toList = title.toList := by
    rw [Tutorial.shortTitle, String.length_toList, if_neg (Nat.not_lt.2 short)]
  have name : (Tutorial.nodeName title index).toList =
      title.toList ++ ' ' :: '[' :: ((intText (index + 1)).toList ++ [']']) := by
    simp [Tutorial.nodeName, whole]
  rw [titleOf, name, takeWhile_label]
  split
  case isTrue => rfl
  case isFalse free =>
    rw [takeWhile_eq_self_iff_free.2 free, Text.trimList_concat_blank _ (by decide)]

/-- **The short titles that are read off their names**: those without an opening bracket and without
blanks at either end. -/
theorem titleOf_nodeName_eq_iff (short : title.length ≤ Tutorial.titleLimit) (index : Int) :
    titleOf (Tutorial.nodeName title index) = title ↔ '[' ∉ title.toList ∧ Text.trim title = title := by
  rw [titleOf_nodeName short, Text.trim, ← takeWhile_eq_self_iff_free]
  have front : title.toList.takeWhile (· != '[') <+: title.toList := List.takeWhile_prefix _
  generalize title.toList.takeWhile (· != '[') = w at front
  constructor
  · intro same
    -- Nothing can have been cut off, as trimming only makes a text shorter.
    have trimmed : Text.trimList w = title.toList := by rw [← same, String.toList_ofList]
    have long : title.toList.length ≤ w.length := by
      rw [← trimmed]
      exact Text.length_trimList_le w
    have all : w = title.toList := front.eq_of_length_le long
    exact ⟨all, all ▸ same⟩
  · rintro ⟨rfl, trimmed⟩
    exact trimmed

end TutorialScript

/-! ## Tutorials that say nothing -/

namespace Tutorial

variable {catalog : Json.Fields} {ts : List Tutorial} {t : Tutorial}

/-- The tutorials that say something. -/
def speaking (ts : List Tutorial) : List Tutorial := ts.filter fun t => !t.messages.isEmpty

theorem mem_speaking : t ∈ speaking ts ↔ t ∈ ts ∧ t.messages ≠ [] := by
  simp [speaking, List.mem_filter]

theorem chains_speaking (number : Nat) (ts : List Tutorial) :
    chains number (speaking ts) = chains number ts := by
  induction ts generalizing number with
  | nil => rfl
  | cons t ts ih =>
    by_cases silent : t.messages = []
    · have skip : speaking (t :: ts) = speaking ts := by simp [speaking, silent]
      rw [skip, ih]
      simp [chains, silent, messageNodes, messageLinks, messageNotes]
    · have kept : speaking (t :: ts) = t :: speaking ts := by simp [speaking, silent]
      rw [kept, chains, chains, ih]

/-- **Tutorials that say nothing leave no trace in a script.** -/
theorem toScript_speaking (id : String) (ts : List Tutorial) :
    toScript id (speaking ts) = toScript id ts := by
  rw [toScript, toScript, chains_speaking]

/-- The tutorials of different ids that say something come back. -/
theorem tutorials_toScript_speaking (id : String) (distinct : (ts.map (·.id)).Nodup) :
    (toScript id ts).tutorials = (speaking ts).map fun t => { t with title := t.shownTitle } := by
  rw [← toScript_speaking]
  refine tutorials_toScript id ?_ fun t ht => (mem_speaking.1 ht).2
  exact (List.filter_sublist.map _).nodup distinct

/-! ## Titles that survive -/

/-- Among tutorials of different ids there is one of each id. -/
theorem filter_id_eq (apart : (ts.map (·.id)).Nodup) (mem : t ∈ ts) : ts.filter (·.id == t.id) = [t] := by
  induction ts with
  | nil => cases mem
  | cons u ts ih =>
    obtain ⟨fresh, apart⟩ := List.nodup_cons.1 apart
    have fresh : ∀ v ∈ ts, v.id ≠ u.id := fun v hv same => fresh (List.mem_map.2 ⟨v, hv, same⟩)
    rcases List.mem_cons.1 mem with rfl | mem
    · have others : ts.filter (·.id == t.id) = [] :=
        List.filter_eq_nil_iff.2 fun v hv same => fresh v hv (eq_of_beq same)
      rw [List.filter_cons_of_pos (by simp), others]
    · have other : (u.id == t.id) = false := beq_eq_false_iff_ne.2 (fresh t mem).symm
      rw [List.filter_cons, other, ih apart mem]
      rfl

/-- **The short titles that come back from a script.**  Of a catalog whose tutorials have different ids,
each tutorial that says something comes back once under its id.  If its title is short, it comes back as
it was just if it has no opening bracket and no blanks at either end. -/
theorem short_title_survives_iff (reads : catalogOf catalog = .ok ts)
    (distinct : (ts.map (·.id)).Nodup) (mem : t ∈ ts) (spoken : t.messages ≠ [])
    (short : t.title.length ≤ titleLimit) (id : String) :
    ∃ title, (catalogOf catalog).map (fun ts => (toScript id ts).tutorials.filter (·.id == t.id)) =
        .ok [{ t with title }] ∧
      (title = t.title ↔ '[' ∉ t.title.toList ∧ Text.trim t.title = t.title) := by
  refine ⟨t.shownTitle, ?_, TutorialScript.titleOf_nodeName_eq_iff short 0⟩
  have apart : ((speaking ts).map (·.id)).Nodup := (List.filter_sublist.map _).nodup distinct
  have own : (speaking ts).filter (·.id == t.id) = [t] :=
    filter_id_eq apart (mem_speaking.2 ⟨mem, spoken⟩)
  have back : (toScript id ts).tutorials.filter (·.id == t.id) = [{ t with title := t.shownTitle }] := by
    rw [tutorials_toScript_speaking id distinct, List.filter_map]
    exact congrArg (List.map _) own
  rw [reads]
  exact congrArg Except.ok back

/-- A tutorial in two parts, and one without a message. -/
def parts : Json.Fields :=
  [("tutorials", .object [
    ("intro", .object [("title", .string "Intro [part 1]"), ("messages", .array [
      .object [("text", .string "Hello!")]])]),
    ("pause", .object [("title", .string "Pause")]),
    ("outro", .object [("title", .string "Outro: part 2 (end)"), ("messages", .array [
      .object [("text", .string "Farewell!")]])])])]

/-- The first tutorial of that catalog. -/
def prologue : Tutorial :=
  { id := "intro", title := "Intro [part 1]", trigger := "onGameStart", messages := [{ text := "Hello!" }] }

/-- The last tutorial of that catalog. -/
def epilogue : Tutorial :=
  { id := "outro", title := "Outro: part 2 (end)", trigger := "onGameStart",
    messages := [{ text := "Farewell!" }] }

/-- All tutorials of that catalog. -/
def volumes : List Tutorial :=
  [prologue, { id := "pause", title := "Pause", trigger := "onGameStart" }, epilogue]

/-- A title without brackets comes back, though a tutorial before it says nothing. -/
theorem epilogue_title_survives :
    catalogOf parts = .ok volumes ∧ (volumes.map (·.id)).Nodup ∧ epilogue ∈ volumes ∧
      epilogue.messages ≠ [] ∧ epilogue.title.length ≤ titleLimit ∧
      (catalogOf parts).map (fun ts => (toScript "tutorials" ts).tutorials.filter (·.id == epilogue.id)) =
        .ok [epilogue] := by
  have reads : catalogOf parts = .ok volumes := rfl
  have distinct : (volumes.map (·.id)).Nodup := by decide
  have mem : epilogue ∈ volumes := by decide
  have spoken : epilogue.messages ≠ [] := by decide
  have short : epilogue.title.length ≤ titleLimit := by decide
  obtain ⟨title, back, same⟩ := short_title_survives_iff reads distinct mem spoken short "tutorials"
  obtain rfl : title = epilogue.title := same.2 (by decide)
  exact ⟨reads, distinct, mem, spoken, short, back⟩

/-- **A short title that does not come back**: it is cut at its bracket. -/
theorem prologue_title_cut :
    catalogOf parts = .ok volumes ∧ (volumes.map (·.id)).Nodup ∧ prologue ∈ volumes ∧
      prologue.messages ≠ [] ∧ prologue.title.length ≤ titleLimit ∧
      (catalogOf parts).map (fun ts => (toScript "tutorials" ts).tutorials.filter (·.id == prologue.id)) =
        .ok [{ prologue with title := "Intro" }] := by
  have reads : catalogOf parts = .ok volumes := rfl
  refine ⟨reads, by decide, by decide, by decide, by decide, ?_⟩
  rw [reads]
  exact congrArg Except.ok (by decide +kernel)

end Tutorial

end Questline

import Questline.Proofs.Agreement
import Questline.Proofs.Coherence
import Questline.Proofs.Refusals

/-!
# What is accepted is loaded, if it has the right name

The file that a path names is read in two ways.  Its issues are found in the file itself.  To be loaded
as a script of the library that is its directory, it is looked up again by its name, and a name without
the suffix is given one: what is loaded then is another file.

Apart from that the two agree.  The id under which a script is read stands in the faults and in the
script, and what is read does not depend on it (`Script.ofValue_rename`).  A script without errors is
coherent, whatever its id (`Script.coherent_of_accepted`).  A name with the suffix, put behind its
directory again, is the path it was taken from (`Library.file_eq_self`).

* `Library.Holds`: the script that a file holds, `Library.twin`: the file that is loaded for a name
  without the suffix.
* `Library.loadFile_eq_ok_iff`: which graph is loaded.
* `accepted_loads_iff`: when a file without errors is loaded.
-/

namespace Questline

open Json (Value Fields)

/-! ## Reading under another name -/

/-- Whatever the first computation gives, the second one gives. -/
def Gives {α : Type} (x y : Except Fault α) : Prop := ∀ a, x = .ok a → y = .ok a

theorem bind_eq_ok_iff {α β : Type} {x : Except Fault α} {next : α → Except Fault β} {b : β} :
    x >>= next = .ok b ↔ ∃ a, x = .ok a ∧ next a = .ok b := by
  cases x with
  | error f =>
    constructor
    · intro h
      cases h
    · rintro ⟨a, h, -⟩
      cases h
  | ok a =>
    constructor
    · intro h
      exact ⟨a, rfl, h⟩
    · rintro ⟨b, h, hb⟩
      cases h
      exact hb

theorem Gives.bind {α β : Type} {x y : Except Fault α} {f g : α → Except Fault β} (h : Gives x y)
    (hn : ∀ a, Gives (f a) (g a)) : Gives (x >>= f) (y >>= g) := by
  intro b hb
  obtain ⟨a, ha, hb⟩ := bind_eq_ok_iff.1 hb
  exact bind_eq_ok_iff.2 ⟨a, h a ha, hn a b hb⟩

theorem Gives.refl {α : Type} (x : Except Fault α) : Gives x x := fun _ h => h

section Subjects

variable (a b : Subject) (v : Value) (fields : Fields)

theorem requireObject_gives : Gives (requireObject a v) (requireObject b v) := by
  intro x h
  cases v <;> first | exact h | cases h

theorem requireList_gives : Gives (requireList a v) (requireList b v) := by
  intro x h
  cases v <;> first | exact h | cases h

theorem requireId_gives : Gives (requireId a v) (requireId b v) := by
  intro x h
  cases v <;> first | exact h | cases h

theorem optionalObject_gives (name : String) :
    Gives (optionalObject a fields name) (optionalObject b fields name) := by
  unfold optionalObject
  cases Value.field fields name with
  | null => exact .refl _
  | bool | int | float | string | array | object => exact requireObject_gives a b _

theorem readHandle_gives : Gives (readHandle a v) (readHandle b v) := by
  intro x h
  cases v with
  | null => exact h
  | string s =>
    rw [readHandle] at h ⊢
    split at h
    case isTrue handle =>
      rw [if_pos handle]
      split at h
      case h_1 => exact h
      case h_2 => cases h
    case isFalse => cases h
  | bool | int | float | array | object => cases h

theorem readOutput_gives : Gives (readOutput a fields) (readOutput b fields) := by
  unfold readOutput
  cases fields.get? "outputIndex" with
  | none => exact readHandle_gives _ _ _
  | some v =>
    intro x h
    cases v with
    | int i =>
      simp only at h ⊢
      split at h
      case isTrue => cases h
      case isFalse natural =>
        rw [if_neg natural]
        exact h
    | null | bool | float | string | array | object => cases h

theorem Node.ofValue_gives : Gives (Node.ofValue a v) (Node.ofValue b v) :=
  (requireObject_gives a b v).bind fun _ => (requireId_gives _ _ _).bind fun _ =>
    (optionalObject_gives _ _ _ _).bind fun _ => .refl _

theorem Connection.ofValue_gives : Gives (Connection.ofValue a v) (Connection.ofValue b v) :=
  (requireObject_gives a b v).bind fun _ => (requireId_gives _ _ _).bind fun _ =>
    (requireId_gives _ _ _).bind fun _ => (readOutput_gives _ _ _).bind fun _ => .refl _

theorem readEach_gives {α : Type} {read : Subject → Value → Except Fault α}
    (h : ∀ a b v, Gives (read a v) (read b v)) (index : Nat) (vs : List Value) :
    Gives (readEach read a index vs) (readEach read b index vs) := by
  induction vs generalizing index with
  | nil => exact .refl _
  | cons v vs ih => exact (h _ _ v).bind fun _ => (ih _).bind fun _ => .refl _

end Subjects

namespace Script

variable {s s' : Script} {id : String} {v : Value}

/-- **The nodes and connections that are read do not depend on the id.** -/
theorem ofValue_rename (h : Script.ofValue id v = .ok s) (id' : String) :
    Script.ofValue id' v = .ok { s with id := id' } := by
  obtain ⟨fields, hfields, h⟩ := bind_eq_ok_iff.1 h
  obtain ⟨rawNodes, hrawNodes, h⟩ := bind_eq_ok_iff.1 h
  obtain ⟨rawConnections, hrawConnections, h⟩ := bind_eq_ok_iff.1 h
  obtain ⟨nodes, hnodes, h⟩ := bind_eq_ok_iff.1 h
  obtain ⟨connections, hconnections, h⟩ := bind_eq_ok_iff.1 h
  cases h
  rw [ofValue, requireObject_gives _ _ _ _ hfields, ok_bind, requireList_gives _ _ _ _ hrawNodes, ok_bind,
    requireList_gives _ _ _ _ hrawConnections, ok_bind,
    readEach_gives _ _ Node.ofValue_gives _ _ _ hnodes, ok_bind,
    readEach_gives _ _ Connection.ofValue_gives _ _ _ hconnections, ok_bind]
  rfl

theorem id_of_ofValue (h : Script.ofValue id v = .ok s) : s.id = id := by
  have same : Except.ok s = Except.ok { s with id := id } := h.symm.trans (ofValue_rename h id)
  exact congrArg Script.id (Except.ok.inj same)

/-! ## Without errors -/

/-- Coherence is about nodes and connections only. -/
theorem Coherent.congr (h : s.Coherent) (nodes : s'.nodes = s.nodes)
    (connections : s'.connections = s.connections) : s'.Coherent := by
  obtain ⟨distinct, joined, apart, oneEntry⟩ := h
  simp only [Joins, IsEntry, ← nodes, ← connections] at distinct joined apart oneEntry
  exact ⟨distinct, joined, apart, oneEntry⟩

/-- **A script without errors is coherent.** -/
theorem coherent_of_accepted (h : hasErrors s.issues = false) : s.Coherent := by
  have clean {f : Finding} (hf : f ∈ s.findings) : f.severity ≠ .error := by
    intro bad
    rw [hasErrors, List.any_eq_false] at h
    exact h ⟨s.id, f⟩ (List.mem_map_of_mem hf) (beq_iff_eq.2 bad)
  cases Graph.ofScript_cases s with
  | unsound unsound =>
    obtain ⟨f, hf, structural⟩ := exists_structural_iff.2 unsound
    exact absurd (Finding.severity_of_isStructural structural) (clean hf)
  | unentered _ none =>
    obtain ⟨f, hf, ambiguous⟩ := exists_ambiguous_findings_iff.2 none
    exact absurd (Finding.severity_of_isAmbiguousEntry ambiguous) (clean hf)
  | built _ _ built => exact (Graph.ofScript_eq_ok_iff_coherent.1 built).1

end Script

/-! ## Names of files -/

/-- A name that may stand in a path. -/
structure Path.IsName (name : String) : Prop where
  noSlash : '/' ∉ name.toList
  nonempty : name.toList ≠ []
  noDot : name.toList ≠ ['.']

namespace Path

theorem pieces_of_noSlash {cs : List Char} (h : '/' ∉ cs) : pieces cs = [cs] := by
  induction cs with
  | nil => rfl
  | cons c cs ih =>
    obtain ⟨other, rest⟩ := List.ne_and_not_mem_of_not_mem_cons h
    have letter : (c == '/') = false := by simpa using other.symm
    rw [pieces, letter, ih rest]
    rfl

/-- No piece between slashes has a slash in it. -/
theorem noSlash_of_mem_pieces {cs piece : List Char} (h : piece ∈ pieces cs) : '/' ∉ piece := by
  induction cs generalizing piece with
  | nil =>
    obtain rfl := List.mem_singleton.1 h
    exact List.not_mem_nil
  | cons c cs ih =>
    rw [pieces] at h
    split at h
    case isTrue =>
      rcases List.mem_cons.1 h with rfl | h
      · exact List.not_mem_nil
      · exact ih h
    case isFalse letter =>
      have other : '/' ≠ c := fun same => letter (beq_iff_eq.2 same.symm)
      split at h
      case h_1 =>
        obtain rfl := List.mem_singleton.1 h
        simpa using other
      case h_2 p ps hp =>
        rw [hp] at ih
        rcases List.mem_cons.1 h with rfl | h
        · exact List.not_mem_cons_of_ne_of_not_mem other (ih List.mem_cons_self)
        · exact ih (List.mem_cons_of_mem p h)

/-- The parts of a path that is read are names. -/
theorem isName_of_mem_parts {text part : String} (h : part ∈ (ofString text).parts) :
    IsName part := by
  obtain ⟨piece, hp, rfl⟩ := List.mem_map.1 h
  obtain ⟨mem, kept⟩ := List.mem_filter.1 hp
  obtain ⟨nonempty, noDot⟩ : piece ≠ [] ∧ piece ≠ ['.'] := by simpa using kept
  refine ⟨?_, ?_, ?_⟩ <;> rw [String.toList_ofList]
  · exact noSlash_of_mem_pieces mem
  · exact nonempty
  · exact noDot

/-- A name is a path by itself. -/
theorem ofString_of_isName {name : String} (h : IsName name) : ofString name = ⟨0, [name]⟩ := by
  have slashes : name.toList.takeWhile (· == '/') = [] := by
    cases hcs : name.toList with
    | nil => rfl
    | cons c cs =>
      have noSlash := h.noSlash
      rw [hcs] at noSlash
      have letter : (c == '/') = false := by
        simpa using (List.ne_of_not_mem_cons noSlash).symm
      rw [List.takeWhile_cons, letter]
      rfl
  have kept : (!name.toList.isEmpty && name.toList != ['.']) = true := by
    simpa using ⟨fun empty => h.nonempty (by simp [empty]), h.noDot⟩
  rw [ofString, slashes, pieces_of_noSlash h.noSlash]
  simp only [List.filter_cons, kept]
  simp

/-- A path is its parent with its name behind it. -/
theorem parent_join_name {text : String} (h : (ofString text).parts ≠ []) :
    (ofString text).parent.join (ofString (ofString text).name) = ofString text := by
  have last : (ofString text).name = (ofString text).parts.getLast h := by
    rw [name, List.getLast?_eq_some_getLast h, Option.getD_some]
  have isName : IsName (ofString text).name := by
    rw [last]
    exact isName_of_mem_parts (List.getLast_mem h)
  rw [ofString_of_isName isName, join, parent, last]
  simp [isAbsolute, List.dropLast_append_getLast h]

end Path

/-! ## Files of scripts -/

namespace Library

variable {files : FileTree} {path directory : Path} {s s' : Script} {g : Graph} {id text : String}

/-- A file holds a script: under the script's id it is read as the script. -/
def Holds (files : FileTree) (path : Path) (s : Script) : Prop :=
  (loadJson files path >>= Script.ofValue s.id) = .ok s

/-- The file that stands in for one whose name has no suffix. -/
def twin (path : Path) : Path := path.parent.join (.ofString (path.name ++ suffix))

/-- What a file holds, it holds under every id. -/
theorem Holds.rename (h : Holds files path s) (id : String) :
    Holds files path { s with id := id } := by
  obtain ⟨v, hv, hs⟩ := bind_eq_ok_iff.1 h
  exact bind_eq_ok_iff.2 ⟨v, hv, Script.ofValue_rename hs id⟩

/-- A file holds one list of nodes and one of connections. -/
theorem Holds.unique (h : Holds files path s) (h' : Holds files path s') :
    s'.nodes = s.nodes ∧ s'.connections = s.connections := by
  have same : Except.ok (ε := Fault) s = .ok { s' with id := s.id } :=
    h.symm.trans (h'.rename s.id)
  have same := Except.ok.inj same
  exact ⟨(congrArg Script.nodes same).symm, (congrArg Script.connections same).symm⟩

theorem Holds.of_parts (h : Holds files path s) (nodes : s'.nodes = s.nodes)
    (connections : s'.connections = s.connections) : Holds files path s' := by
  have same : { s with id := s'.id } = s' := by
    obtain ⟨id, ns, cs⟩ := s'
    cases nodes
    cases connections
    rfl
  rw [← same]
  exact h.rename s'.id

theorem loadScript_eq_ok_iff :
    loadScript files directory id = .ok s ↔ s.id = id ∧ Holds files (file directory id) s := by
  have whole : loadScript files directory id = .ok s ↔
      (loadJson files (file directory id) >>= Script.ofValue id) = .ok s := by
    rw [loadScript, bind_eq_ok_iff, bind_eq_ok_iff]
    refine exists_congr fun v => and_congr_right fun _ => ?_
    cases v with
    | object fields => exact Iff.rfl
    | null | bool | int | float | string | array =>
      constructor <;> intro h <;> cases h
  rw [whole]
  constructor
  · intro h
    obtain ⟨v, hv, hs⟩ := bind_eq_ok_iff.1 h
    obtain rfl := Script.id_of_ofValue hs
    exact ⟨rfl, h⟩
  · rintro ⟨rfl, h⟩
    exact h

/-- **Loading a file** gives the graph of the script that the file of its name holds. -/
theorem loadFile_eq_ok_iff :
    loadFile files path = .ok g ↔
      g.script.id = path.name ∧ Holds files (file path.parent path.name) g.script ∧
        g.script.Coherent ∧ g.script.IsEntry g.entry := by
  rw [loadFile, load, bind_eq_ok_iff]
  constructor
  · rintro ⟨s, hs, hg⟩
    obtain ⟨coherent, rfl, entry⟩ := Graph.ofScript_eq_ok_iff_coherent.1 hg
    obtain ⟨hid, holds⟩ := loadScript_eq_ok_iff.1 hs
    exact ⟨hid, holds, coherent, entry⟩
  · rintro ⟨hid, holds, coherent, entry⟩
    exact ⟨g.script, loadScript_eq_ok_iff.2 ⟨hid, holds⟩,
      Graph.ofScript_eq_ok_iff_coherent.2 ⟨coherent, rfl, entry⟩⟩

/-- What holds a coherent script is loaded, if it is the file of the name. -/
theorem exists_loadFile_iff (coherent : s.Coherent) :
    (∃ g, loadFile files path = .ok g ∧ g.script.nodes = s.nodes ∧
      g.script.connections = s.connections) ↔ Holds files (file path.parent path.name) s := by
  constructor
  · rintro ⟨g, hg, nodes, connections⟩
    obtain ⟨-, holds, -⟩ := loadFile_eq_ok_iff.1 hg
    exact holds.of_parts nodes.symm connections.symm
  · intro holds
    have renamed : ({ s with id := path.name } : Script).Coherent := coherent.congr rfl rfl
    obtain ⟨n, entry, -⟩ := renamed.oneEntry
    exact ⟨⟨{ s with id := path.name }, n⟩,
      loadFile_eq_ok_iff.2 ⟨rfl, holds.rename path.name, renamed, entry⟩, rfl, rfl⟩

/-- **A file whose name has the suffix is its own.** -/
theorem file_eq_self (h : hasSuffix (Path.ofString text).name) :
    file (Path.ofString text).parent (Path.ofString text).name = .ofString text := by
  have nonempty : (Path.ofString text).parts ≠ [] := by
    intro empty
    rw [Path.name, empty] at h
    cases h
  rw [file, if_pos h, Path.parent_join_name nonempty]

theorem file_eq_twin (h : ¬hasSuffix path.name) : file path.parent path.name = twin path := by
  rw [file, if_neg h, twin]

/-- A file without errors holds a script that has none. -/
theorem holds_of_accepted {issues : List Issue} (found : fileIssues files path = .ok issues)
    (accepted : hasErrors issues = false) :
    ∃ s, Holds files path s ∧ hasErrors s.issues = false := by
  unfold fileIssues at found
  split at found
  case h_1 s hs =>
    cases found
    obtain ⟨v, hv, hsv⟩ := bind_eq_ok_iff.1 hs
    obtain hid := Script.id_of_ofValue hsv
    refine ⟨s, ?_, accepted⟩
    rw [Holds, hid]
    exact hs
  case h_2 =>
    cases found
    cases accepted
  case h_3 => cases found

end Library

/-- **What is accepted is loaded, if it has the right name.**  A file in which no errors are found holds
a script, and loading the file gives a graph with the nodes and connections of that script just if its
name has the suffix, or the file that stands in for it holds them, too. -/
theorem accepted_loads_iff (files : FileTree) (text : String) (issues : List Issue)
    (found : Library.fileIssues files (.ofString text) = .ok issues)
    (accepted : hasErrors issues = false) :
    (∃ s, Library.Holds files (.ofString text) s) ∧
      ∀ s, Library.Holds files (.ofString text) s →
        ((∃ g, Library.loadFile files (.ofString text) = .ok g ∧ g.script.nodes = s.nodes ∧
          g.script.connections = s.connections) ↔
          Library.hasSuffix (Path.ofString text).name ∨
            Library.Holds files (Library.twin (.ofString text)) s) := by
  obtain ⟨s, holds, clean⟩ := Library.holds_of_accepted found accepted
  refine ⟨⟨s, holds⟩, fun s' holds' => ?_⟩
  obtain ⟨nodes, connections⟩ := holds.unique holds'
  have coherent : s'.Coherent := (Script.coherent_of_accepted clean).congr nodes connections
  rw [Library.exists_loadFile_iff coherent]
  by_cases suffixed : Library.hasSuffix (Path.ofString text).name
  · rw [Library.file_eq_self suffixed]
    simp [suffixed, holds']
  · rw [Library.file_eq_twin suffixed]
    simp [suffixed]

/-! ### A tale under two names -/

/-- A script that is right. -/
def taleText : String :=
  "\x7b\"nodes\":[\x7b\"id\":\"d\",\"type\":\"dialogue\"\x7d,\x7b\"id\":\"e\",\"type\":\"end\"\x7d]," ++
    "\"connections\":[\x7b\"from\":\"d\",\"to\":\"e\"\x7d]\x7d"

/-- Two files that hold it, one of them without the suffix. -/
def shelf : FileTree :=
  ((FileTree.empty []).store ["tale.json"] (.file (Utf8.encode taleText.toList))).store ["tale.txt"]
    (.file (Utf8.encode taleText.toList))

/-- Under the name with the suffix the tale is loaded. -/
theorem tale_loaded :
    Library.fileIssues shelf (.ofString "tale.json") = .ok [] ∧ hasErrors [] = false ∧
      ∃ s g, Library.Holds shelf (.ofString "tale.json") s ∧
        Library.loadFile shelf (.ofString "tale.json") = .ok g ∧ g.script.nodes = s.nodes ∧
          g.script.connections = s.connections := by
  have found : Library.fileIssues shelf (.ofString "tale.json") = .ok [] :=
    ok_of_toOption (by decide +kernel)
  obtain ⟨⟨s, holds⟩, loads⟩ := accepted_loads_iff shelf "tale.json" [] found rfl
  obtain ⟨g, loaded⟩ := (loads s holds).2 (.inl (by decide +kernel))
  exact ⟨found, rfl, s, g, holds, loaded⟩

/-- **Under the name without the suffix it is not**, though no errors are found in it: another file is
looked for. -/
theorem tale_not_loaded :
    shelf.isFile (.ofString "tale.txt") = .ok true ∧
      Library.fileIssues shelf (.ofString "tale.txt") = .ok [] ∧ hasErrors [] = false ∧
        Library.loadFile shelf (.ofString "tale.txt") =
          .error (.data (.fileMissing (.ofString "tale.txt.json"))) := by
  have found : Library.fileIssues shelf (.ofString "tale.txt") = .ok [] :=
    ok_of_toOption (by decide +kernel)
  exact ⟨ok_of_toOption (by decide +kernel), found, rfl, by rfl⟩

end Questline

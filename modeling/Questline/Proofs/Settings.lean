import Questline.Console.Settings
import Questline.Proofs.Durability

/-!
# Settings that are read back

A setting is what a value says, if that is a text with more than blanks, and what stands by default if
not.  Blanks at the ends of a text are left out, both when settings are written and when they are read.
A text that has none is left as it is, so settings are read as they were written, and writing what was
read is the same as writing what came first.

All this needs the settings by default to have no blanks at their ends either.  They have none where the
home directory and the directory of the program are given from the root.

* `Text.Tidy`: a text without blanks at its ends, `Text.IsCore`: what a text holds between them.
* `Text.isCore_iff`: it is what trimming leaves of a text that is not blank.
* `FileTree.Writable`: a path at which a file can be written, `FileTree.writable_iff`: whatever its text.
* `FileTree.writeBelow_again`: a text that is written once more changes nothing.
* `Settings.Means`: what a value means as a setting, `Settings.means_iff`: it is what is read.
* `Settings.load_saved`, `Settings.save_normal`: settings that are read back, and written again.
* `settings_read_back`: saving and loading take one another back.
-/

namespace Questline

open Json (Value Fields)

/-! ## Trimming -/

namespace Text

/-- A text that is not empty and has no blanks at its ends. -/
structure Tidy (s : String) : Prop where
  some : s.toList ≠ []
  first : ∀ c ∈ s.toList.head?, ¬isBlank c
  last : ∀ c ∈ s.toList.getLast?, ¬isBlank c

/-- What a text holds between the blanks at its ends. -/
structure IsCore (core text : String) : Prop where
  tidy : Tidy core
  between : ∃ front back, text.toList = front ++ core.toList ++ back ∧ allBlank front ∧ allBlank back

variable {cs front core back : List Char} {s t : String}

theorem dropWhile_of_head? (h : ∀ c ∈ cs.head?, ¬isBlank c) : cs.dropWhile isBlank = cs := by
  cases cs with
  | nil => rfl
  | cons c cs => exact List.dropWhile_cons_of_neg (h c rfl)

theorem head?_dropWhile {c : Char} (h : c ∈ (cs.dropWhile isBlank).head?) : ¬isBlank c := by
  have first := List.head?_dropWhile_not isBlank cs
  rw [Option.mem_def.1 h] at first
  simpa using first

/-- Blanks before and behind a text are trimmed. -/
theorem trimList_between (before : allBlank front) (behind : allBlank back) (some : core ≠ [])
    (first : ∀ c ∈ core.head?, ¬isBlank c) (last : ∀ c ∈ core.getLast?, ¬isBlank c) :
    trimList (front ++ core ++ back) = core := by
  have start : (core ++ back).dropWhile isBlank = core ++ back := by
    refine dropWhile_of_head? fun c hc => first c ?_
    rwa [List.head?_append_of_ne_nil _ some] at hc
  have finish : core.reverse.dropWhile isBlank = core.reverse := by
    refine dropWhile_of_head? fun c hc => last c ?_
    rwa [List.head?_reverse] at hc
  have behind : ∀ c ∈ back.reverse, isBlank c := fun c hc =>
    List.all_eq_true.1 behind c (List.mem_reverse.1 hc)
  rw [trimList, List.append_assoc, List.dropWhile_append_of_pos (List.all_eq_true.1 before), start,
    List.reverse_append, List.dropWhile_append_of_pos behind, finish, List.reverse_reverse]

theorem exists_dropWhile_eq (cs : List Char) :
    ∃ back, cs.dropWhile isBlank = trimList cs ++ back ∧ allBlank back := by
  refine ⟨((cs.dropWhile isBlank).reverse.takeWhile isBlank).reverse, ?_, ?_⟩
  · rw [trimList, ← List.reverse_append, List.takeWhile_append_dropWhile, List.reverse_reverse]
  · rw [allBlank, List.all_reverse]
    exact List.all_takeWhile

/-- Only blanks are trimmed, those before the text and those behind it. -/
theorem exists_between (cs : List Char) :
    ∃ front back, cs = front ++ trimList cs ++ back ∧ allBlank front ∧ allBlank back := by
  obtain ⟨back, left, behind⟩ := exists_dropWhile_eq cs
  refine ⟨cs.takeWhile isBlank, back, ?_, List.all_takeWhile, behind⟩
  rw [List.append_assoc, ← left, List.takeWhile_append_dropWhile]

theorem trimList_eq_nil_iff : trimList cs = [] ↔ allBlank cs := by
  obtain ⟨front, back, split, before, behind⟩ := exists_between cs
  constructor
  · intro none
    rw [none, List.append_nil] at split
    rw [split, allBlank, List.all_append, Bool.and_eq_true]
    exact ⟨before, behind⟩
  · intro blank
    have gone : cs.dropWhile isBlank = [] := List.dropWhile_eq_nil_iff.2 (List.all_eq_true.1 blank)
    rw [trimList, gone]
    rfl

/-- What is left of a text that is not blank. -/
theorem isCore_trim (some : ¬allBlank s.toList) : IsCore (trim s) s := by
  have left : (trim s).toList = trimList s.toList := String.toList_ofList
  have some : trimList s.toList ≠ [] := fun none => some (trimList_eq_nil_iff.1 none)
  refine ⟨⟨?_, fun c hc => ?_, fun c hc => ?_⟩, ?_⟩
  · rwa [left]
  · obtain ⟨back, whole, -⟩ := exists_dropWhile_eq s.toList
    have start : (s.toList.dropWhile isBlank).head? = (trimList s.toList).head? := by
      rw [whole, List.head?_append_of_ne_nil _ some]
    rw [left, ← start] at hc
    exact head?_dropWhile hc
  · rw [left, trimList, List.getLast?_reverse] at hc
    exact head?_dropWhile hc
  · rw [left]
    exact exists_between s.toList

/-- **What a text holds between the blanks at its ends** is what trimming leaves. -/
theorem isCore_iff : IsCore t s ↔ ¬allBlank s.toList ∧ trim s = t := by
  constructor
  · rintro ⟨tidy, front, back, split, before, behind⟩
    have left : trimList s.toList = t.toList := by
      rw [split]
      exact trimList_between before behind tidy.some tidy.first tidy.last
    refine ⟨fun blank => tidy.some ?_, ?_⟩
    · rw [← left]
      exact trimList_eq_nil_iff.2 blank
    · rw [trim, left, String.ofList_toList]
  · rintro ⟨some, rfl⟩
    exact isCore_trim some

/-- A tidy text is what it holds between its ends. -/
theorem Tidy.isCore (h : Tidy s) : IsCore s s := ⟨h, [], [], by simp, rfl, rfl⟩

theorem tidy_iff : Tidy s ↔ ¬allBlank s.toList ∧ trim s = s :=
  ⟨fun h => isCore_iff.1 h.isCore, fun h => (isCore_iff.2 h).tidy⟩

instance : DecidablePred Tidy := fun _ => decidable_of_iff _ tidy_iff.symm

theorem isEmpty_trim_iff : (trim s).isEmpty ↔ allBlank s.toList := by
  rw [← trimList_eq_nil_iff, String.isEmpty_iff, trim, ← String.toList_inj, String.toList_ofList]
  rfl

end Text

/-! ## Paths from the root -/

namespace Path

/-- A path from the root is tidy if its last name is. -/
theorem tidy_text {slashes : Nat} {above : List String} {name : String} (rooted : slashes ≠ 0)
    (named : Text.Tidy name) : Text.Tidy (⟨slashes, above ++ [name]⟩ : Path).text := by
  obtain ⟨n, rfl⟩ := Nat.exists_eq_succ_of_ne_zero rooted
  have root : ∃ cs, (⟨n + 1, above⟩ : Path).text.toList = '/' :: cs := by
    rw [text, if_neg (by simp), String.toList_append, String.toList_ofList]
    exact ⟨_, rfl⟩
  obtain ⟨cs, root⟩ := root
  obtain ⟨gap, long⟩ := exists_text_concat (fun none => rooted none.1) name
  have split : (⟨n + 1, above ++ [name]⟩ : Path).text.toList = '/' :: cs ++ gap.toList ++ name.toList := by
    rw [long, String.toList_append, String.toList_append, root, List.append_assoc]
  refine ⟨?_, ?_, ?_⟩ <;> rw [split]
  · exact List.append_ne_nil_of_right_ne_nil _ named.some
  · rintro c ⟨⟩
    decide
  · rw [List.getLast?_append_of_ne_nil _ named.some]
    exact named.last

end Path

/-! ## Writing to a path -/

namespace FileTree

variable {t t' : FileTree} {p : Path} {s : String}

/-- A path at which a file can be written: the directories above it are there or can be created, and then
it does not lead to a directory. -/
def Writable (t : FileTree) (p : Path) : Prop :=
  ∃ t' place, t.makeDirs p.parent = (t', none) ∧ t'.find p = .ok place ∧
    t'.entry? place ≠ some .directory

theorem writeBytes_eq_ok_iff {bytes : List UInt8} :
    t.writeBytes p bytes = .ok t' ↔ ∃ place, t.find p = .ok place ∧
      t.entry? place ≠ some .directory ∧ t.store place (.file bytes) = t' := by
  unfold writeBytes
  cases t.find p with
  | error e => exact ⟨nofun, fun ⟨_, found, _⟩ => nomatch found⟩
  | ok place =>
    simp only [Except.ok.injEq, exists_eq_left']
    split
    case h_1 directory => exact ⟨nofun, fun h => absurd directory h.1⟩
    case h_2 free =>
      rw [Except.ok.injEq]
      exact ⟨fun same => ⟨free, same⟩, fun h => h.2⟩

theorem writeBelow_eq_iff : t.writeBelow p s = (t', none) ↔ ∃ t₁, t.makeDirs p.parent = (t₁, none) ∧
    t₁.writeBytes p (Utf8.encode s.toList) = .ok t' := by
  unfold writeBelow writeBytesBelow
  rcases t.makeDirs p.parent with ⟨t₁, none | e⟩
  · simp only [Prod.mk.injEq, and_true, exists_eq_left']
    cases t₁.writeBytes p (Utf8.encode s.toList) <;> simp
  · simp

/-- **Whether a file can be written at a path** does not depend on its text. -/
theorem writable_iff (s : String) : t.Writable p ↔ ∃ t', t.writeBelow p s = (t', none) := by
  simp only [writeBelow_eq_iff, writeBytes_eq_ok_iff]
  constructor
  · rintro ⟨t₁, place, made, found, free⟩
    exact ⟨_, t₁, made, place, found, free, rfl⟩
  · rintro ⟨_, t₁, made, place, found, free, -⟩
    exact ⟨t₁, place, made, found, free⟩

instance (t : FileTree) (p : Path) : Decidable (t.Writable p) :=
  decidable_of_iff ((t.writeBelow p "").2 = none) <| by
    rw [writable_iff ""]
    obtain ⟨t', e⟩ := t.writeBelow p ""
    simp

theorem settleDir_succeeds (h : t.settleDir p (t.makeDir p) = (t', none)) :
    t'.at? p = some .directory := by
  cases made : t.makeDir p with
  | error e =>
    rw [made, settleDir] at h
    split at h
    case isTrue there =>
      obtain ⟨rfl, -⟩ := Prod.mk.inj h
      exact there
    case isFalse => cases h
  | ok t₁ =>
    rw [made, settleDir] at h
    obtain ⟨rfl, -⟩ := Prod.mk.inj h
    unfold makeDir at made
    split at made
    case h_1 => cases made
    case h_2 place found =>
      split at made
      case h_1 => cases made
      case h_2 free =>
        obtain rfl := Except.ok.inj made
        have below : place ≠ [] := by
          rintro rfl
          cases free
        have free : t.entry? place ≠ some .directory := by simp [free]
        exact at?_eq_some_iff.2 ⟨place, find_store free found, entry?_store_self below⟩

/-- **Where directories could be created there is one.** -/
theorem makeDirs_succeeds (h : t.makeDirs p = (t', none)) : t'.at? p = some .directory := by
  obtain ⟨slashes, parts⟩ := p
  simp only [makeDirs] at h
  cases names : parts.reverse with
  | nil =>
    obtain rfl := List.reverse_eq_nil_iff.1 names
    exact settleDir_succeeds h
  | cons name above =>
    have whole : (name :: above).reverse = parts := by rw [← names, List.reverse_reverse]
    rw [names, makeDirsAbove, whole] at h
    -- With the directories above it or without them, in the end the directory itself is created.
    split at h
    case h_1 =>
      split at h
      case h_1 => cases h
      case h_2 => exact settleDir_succeeds h
    case h_2 => exact settleDir_succeeds h

theorem store_store (t : FileTree) (place : Place) (x y : FileEntry) :
    (t.store place x).store place y = t.store place y := by
  simp [store, List.filter_filter]

/-- **A text that is written once more** changes nothing. -/
theorem writeBelow_again (h : t.writeBelow p s = (t', none)) : t'.writeBelow p s = (t', none) := by
  obtain ⟨t₁, made, written⟩ := writeBelow_eq_iff.1 h
  have there := at?_of_readBytes (readBytes_writeBytes written)
  obtain ⟨place, found, free, rfl⟩ := writeBytes_eq_ok_iff.1 written
  -- A path without a name is its own parent, and there a directory was created.
  have named : p.parts ≠ [] := by
    intro none
    have same : p.parent = p := by
      obtain ⟨slashes, parts⟩ := p
      obtain rfl : parts = [] := none
      rfl
    rw [same] at made
    obtain ⟨place', found', directory⟩ := at?_eq_some_iff.1 (makeDirs_succeeds made)
    obtain rfl := Except.ok.inj (found.symm.trans found')
    exact free directory
  have above := at?_parent named there
  refine writeBelow_eq_iff.2 ⟨_, by rw [makeDirs_of_at? above, if_pos rfl], ?_⟩
  obtain ⟨place', found', file⟩ := at?_eq_some_iff.1 there
  obtain rfl := Except.ok.inj ((find_store free found).symm.trans found')
  exact writeBytes_eq_ok_iff.2 ⟨place, found', by simp [file], store_store _ _ _ _⟩

end FileTree

/-! ## Settings -/

namespace Settings

variable {w w' : Surroundings} {files files' : FileTree} {path : Path} {fields : Fields} {settings : Settings}
  {v : Value} {s stand : String}

/-- What a value means as a setting: a text that is not blank means what it holds between the blanks at
its ends, and any other value what stands by default. -/
inductive Means (stand : String) : Value → String → Prop
  | text {s core : String} (h : Text.IsCore core s) : Means stand (.string s) core
  | nothing {v : Value} (h : ∀ s, v = .string s → Text.allBlank s.toList) : Means stand v stand

theorem means_readSetting (stand : String) (v : Value) : Means stand v (readSetting stand v) := by
  cases v with
  | string s =>
    rw [readSetting]
    split
    case isTrue blank =>
      refine .nothing ?_
      rintro _ ⟨⟩
      exact Text.isEmpty_trim_iff.1 blank
    case isFalse some =>
      exact .text (Text.isCore_trim fun blank => some (Text.isEmpty_trim_iff.2 blank))
  | null | bool | int | float | array | object => exact .nothing nofun

/-- **What is read as a setting** is what the value means. -/
theorem means_iff : Means stand v s ↔ readSetting stand v = s := by
  constructor
  · intro h
    cases h with
    | text h =>
      obtain ⟨some, left⟩ := Text.isCore_iff.1 h
      rw [readSetting, if_neg fun blank => some (Text.isEmpty_trim_iff.1 blank), left]
    | nothing h =>
      cases v with
      | string s => rw [readSetting, if_pos (Text.isEmpty_trim_iff.2 (h s rfl))]
      | null | bool | int | float | array | object => rfl
  · rintro rfl
    exact means_readSetting stand v

/-- A setting is tidy if what stands by default is. -/
theorem Means.tidy (h : Means stand v s) (standing : Text.Tidy stand) : Text.Tidy s := by
  cases h with
  | text h => exact h.tidy
  | nothing => exact standing

/-- The settings as the fields of an object. -/
def toFields (settings : Settings) : Fields := settings.toEntries.map fun e => (e.1, .string e.2)

/-- **The settings that fields give** are what the fields mean, name by name. -/
theorem means_of_mem {name : String} (h : (name, s) ∈ (ofFields w fields).toEntries) :
    ∃ stand, (name, stand) ∈ (standard w).toEntries ∧ Means stand (Value.field fields name) s := by
  simp only [toEntries, ofFields, List.mem_cons, List.not_mem_nil, or_false, Prod.mk.injEq] at h
  obtain ⟨rfl, rfl⟩ | ⟨rfl, rfl⟩ | ⟨rfl, rfl⟩ | ⟨rfl, rfl⟩ := h
  all_goals exact ⟨_, by simp [toEntries], means_readSetting _ _⟩

/-- All settings are tidy. -/
def IsTidy (settings : Settings) : Prop := ∀ name s, (name, s) ∈ settings.toEntries → Text.Tidy s

theorem isTidy_normal (standing : (standard w).IsTidy) (v : Value) : (normal w v).IsTidy := by
  cases v with
  | object fields =>
    intro name s h
    obtain ⟨stand, there, means⟩ := means_of_mem h
    exact means.tidy (standing name stand there)
  | null | bool | int | float | string | array => exact standing

/-- **The settings by default are tidy** where the directories are given from the root. -/
theorem isTidy_standard (home : w.home.isAbsolute) (installed : w.installed.isAbsolute) :
    (standard w).IsTidy := by
  have rooted {p : Path} (h : p.isAbsolute) : p.slashes ≠ 0 := by simpa [Path.isAbsolute] using h
  have scripts : Text.Tidy w.scriptsDirectory.text := by
    have path : w.scriptsDirectory = ⟨w.installed.slashes, w.installed.parts ++ ["data"] ++ ["scripts"]⟩ := by
      simp [Surroundings.scriptsDirectory, Path.join, Path.isAbsolute]
    rw [path]
    exact Path.tidy_text (rooted installed) (by decide)
  have flags : Text.Tidy w.flagsFile.text := by
    have path : w.flagsFile =
        ⟨w.home.slashes, w.home.parts ++ [".config", "questscript"] ++ ["flags.json"]⟩ := by
      simp [Surroundings.flagsFile, Surroundings.userDirectory, Path.join, Path.isAbsolute]
    rw [path]
    exact Path.tidy_text (rooted home) (by decide)
  intro name s h
  simp only [toEntries, standard, List.mem_cons, List.not_mem_nil, or_false, Prod.mk.injEq] at h
  obtain ⟨-, rfl⟩ | ⟨-, rfl⟩ | ⟨-, rfl⟩ | ⟨-, rfl⟩ := h
  · exact scripts
  · exact flags
  · decide
  · decide

theorem nodup_names_toFields (settings : Settings) : settings.toFields.names.Nodup := by
  have names : settings.toFields.names = ["scripts_dir", "flags_path", "companion_id", "player_race"] := rfl
  rw [names]
  decide

theorem field_toFields {name : String} (h : (name, s) ∈ settings.toEntries) :
    Value.field settings.toFields name = .string s := by
  have there : (name, Value.string s) ∈ settings.toFields := List.mem_map_of_mem h
  rw [Value.field, (Entries.get?_eq_some_iff settings.nodup_names_toFields).2 there]
  rfl

/-- Fields that hold tidy settings give these settings, wherever the program runs. -/
theorem ofFields_eq (tidy : settings.IsTidy)
    (h : ∀ name s, (name, s) ∈ settings.toEntries → Value.field fields name = .string s) :
    ofFields w fields = settings := by
  have kept {name s : String} (there : (name, s) ∈ settings.toEntries) (stand : String) :
      readSetting stand (Value.field fields name) = s := by
    rw [h name s there]
    exact means_iff.1 (.text (tidy name s there).isCore)
  -- The defaults of the reader are not asked for.
  obtain ⟨scripts, flags, companion, race⟩ := settings
  rw [ofFields, kept (.head _), kept (.tail _ (.head _)), kept (.tail _ (.tail _ (.head _))),
    kept (.tail _ (.tail _ (.tail _ (.head _))))]

theorem normal_toFields (tidy : settings.IsTidy) : normal w (.object settings.toFields) = settings :=
  ofFields_eq tidy fun _ _ => field_toFields

/-! ## Files of settings -/

theorem save_eq_ok_iff :
    save w files path v = (files', .ok ()) ↔ files.writeBelow path (normal w v).document = (files', none) := by
  unfold save
  obtain ⟨files₁, none | e⟩ := files.writeBelow path (normal w v).document <;> simp

/-- **Settings that were written are read.** -/
theorem load_saved (tidy : settings.IsTidy)
    (h : files.writeBelow path settings.document = (files', none)) : load w files' path = .ok settings := by
  let texts : Entries Scalar := settings.toEntries.map fun e => (e.1, .text e.2)
  have fields : settings.toFields = Json.scalarFields texts := rfl
  have document : settings.document = Json.document (Json.scalarFields texts) := rfl
  have text : files'.readText path = .ok settings.document :=
    FileTree.readText_writeBelow (document ▸ Json.plain_document texts) h
  have value : Json.read settings.document = .ok (.object settings.toFields.sorted) := by
    rw [document, fields, Json.sorted_scalarFields]
    exact Json.read_document settings.nodup_names_toFields
  -- The fields are written by name, which does not matter for what they hold.
  have same : normal w (.object settings.toFields.sorted) = settings := by
    refine ofFields_eq tidy fun name s there => ?_
    rw [Value.field, Entries.get?_sorted settings.nodup_names_toFields]
    exact field_toFields there
  rw [load, text]
  simp only [value, same]

/-- **Saving settings that were read** is saving what they were read from. -/
theorem save_normal (tidy : (normal w v).IsTidy) :
    save w' files path (.object (normal w v).toFields) = save w files path v := by
  rw [save, save, normal_toFields tidy]

end Settings

section ReadBack

open Settings (Means)

variable {w : Surroundings} {files : FileTree} {path : Path}

/-- **Settings are read back.**  Where the settings by default are tidy, what any fields are saved as at
a path that can be written is what is read there afterwards, wherever the program runs then.  Each of
these settings is tidy, and it is what the field of its name means: the text without the blanks at its
ends, or what stands by default if there is no text with more than blanks.  Saving what was read does the
same as saving the fields at any path, and once more at this one it changes nothing. -/
theorem settings_read_back (standing : (Settings.standard w).IsTidy) (writable : files.Writable path)
    (fields : Fields) :
    ∃ files' settings, Settings.save w files path (.object fields) = (files', .ok ()) ∧
      (∀ w', Settings.load w' files' path = .ok settings) ∧
      settings = Settings.normal w (.object fields) ∧
      (∀ name s, (name, s) ∈ settings.toEntries → Text.Tidy s ∧
        ∃ stand, (name, stand) ∈ (Settings.standard w).toEntries ∧
          Means stand (Value.field fields name) s) ∧
      (∀ w', Settings.save w' files' path (.object settings.toFields) = (files', .ok ())) ∧
      ∀ w' files'' path', Settings.save w' files'' path' (.object settings.toFields) =
        Settings.save w files'' path' (.object fields) := by
  have tidy := Settings.isTidy_normal standing (.object fields)
  obtain ⟨files', written⟩ :=
    (FileTree.writable_iff (Settings.normal w (.object fields)).document).1 writable
  have saved : Settings.save w files path (.object fields) = (files', .ok ()) :=
    Settings.save_eq_ok_iff.2 written
  have again (w' : Surroundings) (files'' : FileTree) (path' : Path) :
      Settings.save w' files'' path' (.object (Settings.normal w (.object fields)).toFields) =
        Settings.save w files'' path' (.object fields) :=
    Settings.save_normal tidy
  refine ⟨files', Settings.normal w (.object fields), saved, fun w' => ?_, rfl, fun name s h => ?_,
    fun w' => ?_, again⟩
  · exact Settings.load_saved tidy written
  · exact ⟨tidy name s h, Settings.means_of_mem h⟩
  · rw [again]
    exact Settings.save_eq_ok_iff.2 (FileTree.writeBelow_again written)

/-- A hut in the woods. -/
def hut : Surroundings := { home := ⟨1, ["home", "hermit"]⟩, installed := ⟨1, ["opt", "questline"]⟩ }

/-- Settings with blanks of several kinds, one that is blank, and one that is no text. -/
def hermitFields : Fields :=
  [("race", .string "troll"), ("player_race", .int 3), ("companion_id", .string "\u2003owl \"Ö\"\n\u3000"),
    ("flags_path", .string " \u0085\t"), ("scripts_dir", .string "\x1c old tales")]

/-- The settings that these fields give. -/
def hermitSettings : Settings :=
  { scripts := "old tales", flags := "/home/hermit/.config/questscript/flags.json", companion := "owl \"Ö\"",
    race := "unknown" }

/-- The directory of the file is created. -/
theorem hermit_settings_read_back :
    (Settings.standard hut).IsTidy ∧ (FileTree.empty ["game"]).Writable ⟨0, ["hut", "config.json"]⟩ ∧
      ∃ files', Settings.save hut (.empty ["game"]) ⟨0, ["hut", "config.json"]⟩ (.object hermitFields) =
          (files', .ok ()) ∧
        Settings.load hut files' ⟨0, ["hut", "config.json"]⟩ = .ok hermitSettings ∧
        Settings.save hut files' ⟨0, ["hut", "config.json"]⟩ (.object hermitSettings.toFields) =
          (files', .ok ()) := by
  have standing : (Settings.standard hut).IsTidy := Settings.isTidy_standard rfl rfl
  have writable : (FileTree.empty ["game"]).Writable ⟨0, ["hut", "config.json"]⟩ := by decide +kernel
  obtain ⟨files', settings, saved, read, rfl, -, again, -⟩ :=
    settings_read_back standing writable hermitFields
  have given : Settings.normal hut (.object hermitFields) = hermitSettings := by decide +kernel
  exact ⟨standing, writable, files', saved, given ▸ read hut, given ▸ again hut⟩

end ReadBack

end Questline

import Mathlib.Data.List.Sort
import Mathlib.Data.Set.Finite.Lemmas
import Questline.Proofs.Acceptance
import Questline.Proofs.Durability

/-!
# Scripts that a directory lists

A directory lists its scripts by their ids: the names of the files that have the suffix, each without
it.  Looking up an id adds the suffix, unless the id has it.  For a name with one suffix the second
undoes the first, and also for the name that is a suffix and nothing else, which neither of them changes.
The id that is listed for a name with two suffixes still has one.  It leads to the file of that shorter
name, which is another script or is not there at all.

So the scripts of a directory can be addressed by the ids that are listed just if none of them has two
suffixes, and all their paths are short enough to be looked up.

* `FileTree.find_join_iff`: the place of a name in a directory.
* `Library.fileName_withoutSuffix_iff`: the names that their ids lead back to.
* `Library.exists_ids`: what is listed.
* `Library.load_eq_graphOf`: loading reads the one file that an id leads to.
* `Library.Addresses`: what it means that the scripts can be addressed.
* `Library.addressable_iff`: when they can.
-/

namespace Questline

/-! ## Names of files in a tree -/

/-- A name that a file may have. -/
structure Path.IsFileName (name : String) : Prop extends Path.IsName name where
  noParent : name ≠ ".."
  noNull : '\x00' ∉ name.toList
  short : (Utf8.encode name.toList).length ≤ 255

instance (name : String) : Decidable (Path.IsFileName name) :=
  decidable_of_iff
    (('/' ∉ name.toList ∧ name.toList ≠ [] ∧ name.toList ≠ ['.']) ∧ name ≠ ".." ∧
      '\x00' ∉ name.toList ∧ (Utf8.encode name.toList).length ≤ 255)
    ⟨fun ⟨⟨slash, empty, dot⟩, parent, null, short⟩ => ⟨⟨slash, empty, dot⟩, parent, null, short⟩,
      fun ⟨⟨slash, empty, dot⟩, parent, null, short⟩ => ⟨⟨slash, empty, dot⟩, parent, null, short⟩⟩

namespace FileTree

variable {t : FileTree} {d : Path} {place q : Place} {name : String}

/-- A name in a directory leads below it, if the whole path is short. -/
theorem find_join_iff (found : t.find d = .ok place) (there : t.entry? place = some .directory)
    (h : Path.IsFileName name) :
    t.find (d.join (.ofString name)) = .ok q ↔
      (Utf8.encode (d.join (.ofString name)).text.toList).length < 4096 ∧ q = place ++ [name] := by
  obtain ⟨whole, -, follows⟩ := find_eq_ok_iff.1 found
  have joined : d.join (.ofString name) = ⟨d.slashes, d.parts ++ [name]⟩ := by
    rw [Path.ofString_of_isName h.toIsName]
    rfl
  have noNull : ¬(d.parts ++ [name]).any (·.toList.contains '\x00') := by
    rw [List.any_append]
    simpa [h.noNull] using whole
  have step : t.descend place name = .ok (place ++ [name]) := by
    simp only [descend, there, if_neg h.noParent, if_neg (Nat.not_lt.2 h.short)]
  have below : t.follow (if d.isAbsolute then [] else t.workplace) (d.parts ++ [name]) =
      .ok (place ++ [name]) := by
    rw [follow_append, follows]
    change t.follow place [name] = _
    rw [follow, step]
    rfl
  rw [find_eq_ok_iff, joined]
  constructor
  · rintro ⟨-, short, same⟩
    exact ⟨short, Except.ok.inj (same.symm.trans below)⟩
  · rintro ⟨short, rfl⟩
    exact ⟨noNull, short, below⟩

theorem isFile_eq_true_iff : t.isFile d = .ok true ↔ ∃ bytes, t.at? d = some (.file bytes) := by
  unfold isFile look at?
  cases t.find d with
  | error e => by_cases long : e.cause = .nameTooLong <;> simp [long, Except.map]
  | ok place =>
    dsimp only [Except.map]
    rcases t.entry? place with _ | _ | _ <;> simp

theorem readBytes_eq_ok_iff {bytes : List UInt8} :
    t.readBytes d = .ok bytes ↔ t.at? d = some (.file bytes) := by
  refine ⟨at?_of_readBytes, fun h => ?_⟩
  obtain ⟨place, found, there⟩ := at?_eq_some_iff.1 h
  simp only [readBytes, found, there]

/-- The names in a directory are different, if the places of the tree are. -/
theorem nodup_namesIn (distinct : (t.entries.map Prod.fst).Nodup) (d : Path) : (t.namesIn d).Nodup := by
  unfold namesIn
  split
  case h_1 => exact List.nodup_nil
  case h_2 place _ =>
    have split : ∀ {p : Place} {name : String}, p.dropLast = place → p.getLast? = some name →
        p = place ++ [name] := by
      rintro p name rfl last
      obtain ⟨named, rfl⟩ := List.getLast?_eq_some_iff.1 last
      simp
    rw [List.Nodup, List.pairwise_map] at distinct
    rw [List.Nodup, List.pairwise_filterMap]
    refine distinct.imp ?_
    rintro ⟨p, _⟩ ⟨p', _⟩ apart name hname name' hname' rfl
    refine apart ?_
    split_ifs at hname hname' with here here'
    exact (split here hname).trans (split here' hname').symm

end FileTree

/-! ## Ids and names -/

namespace Library

variable {files : FileTree} {directory : Path} {place : Place} {name id : String}

/-- The name of the file of a script. -/
def fileName (id : String) : String := if hasSuffix id then id else id ++ suffix

/-- A name that has the suffix twice. -/
def IsDouble (name : String) : Prop := ∃ stem, name = stem ++ suffix ++ suffix

theorem isSuffixOf_iff {s text : String} : s.toList.isSuffixOf text.toList ↔ ∃ stem, text = stem ++ s := by
  rw [List.isSuffixOf_iff_suffix]
  constructor
  · rintro ⟨cs, h⟩
    refine ⟨String.ofList cs, String.toList_injective ?_⟩
    rw [String.toList_append, String.toList_ofList, h]
  · rintro ⟨stem, rfl⟩
    exact ⟨stem.toList, (String.toList_append ..).symm⟩

theorem hasSuffix_iff : hasSuffix name ↔ ∃ stem, name = stem ++ suffix := isSuffixOf_iff

instance (name : String) : Decidable (IsDouble name) :=
  decidable_of_iff ((suffix ++ suffix).toList.isSuffixOf name.toList) <|
    isSuffixOf_iff.trans <| exists_congr fun _ => by rw [String.append_assoc]

theorem isDouble_append_iff {stem : String} : IsDouble (stem ++ suffix) ↔ hasSuffix stem := by
  rw [hasSuffix_iff]
  refine exists_congr fun rest => ⟨fun h => ?_, fun h => h ▸ rfl⟩
  have h := congrArg String.toList h
  simp only [String.toList_append, List.append_left_inj] at h
  exact String.toList_injective (by rw [h, String.toList_append])

/-- The id of a name: what stands before the suffix, or the suffix if there is nothing before it. -/
theorem withoutSuffix_append (stem : String) :
    Path.withoutSuffix (stem ++ suffix) = if stem = "" then suffix else stem := by
  have chars : (stem ++ suffix).toList = stem.toList ++ ['.', 'j', 's', 'o', 'n'] := String.toList_append ..
  have after : ((stem ++ suffix).toList.reverse.takeWhile (· != '.')).length = 4 := by
    rw [chars, List.reverse_append]
    rfl
  have length : (stem ++ suffix).toList.length = stem.toList.length + 5 := by simp [chars]
  rw [Path.withoutSuffix]
  simp only [after, length]
  by_cases empty : stem = ""
  · simp [empty]
  · have nonempty : stem.toList.length ≠ 0 := by simpa using empty
    rw [if_neg (by omega), if_neg empty, chars]
    simp

/-- **The names that their ids lead back to**: those that do not have the suffix twice. -/
theorem fileName_withoutSuffix_iff (h : hasSuffix name) :
    fileName (Path.withoutSuffix name) = name ↔ ¬IsDouble name := by
  obtain ⟨stem, rfl⟩ := hasSuffix_iff.1 h
  rw [withoutSuffix_append, isDouble_append_iff, fileName]
  by_cases empty : stem = ""
  · subst empty
    decide
  · by_cases double : hasSuffix stem
    · have shorter : stem ≠ stem ++ suffix := fun same => by
        have := congrArg String.length same
        simp [suffix] at this
      simp [empty, double, shorter]
    · simp [empty, double]

/-- The id of a name that has the suffix twice leads to the name with one of the two. -/
theorem fileName_withoutSuffix_append (h : IsDouble name) :
    fileName (Path.withoutSuffix name) ++ suffix = name := by
  obtain ⟨stem, rfl⟩ := h
  rw [withoutSuffix_append, fileName]
  have once : hasSuffix (stem ++ suffix) := hasSuffix_iff.2 ⟨stem, rfl⟩
  have nonempty : stem ++ suffix ≠ "" := by simp [suffix]
  rw [if_neg nonempty, if_pos once]

/-! ## What is listed -/

theorem insertName_eq : insertName = List.orderedInsert (· < ·) := by
  funext name names
  induction names with
  | nil => rfl
  | cons other names ih => rw [insertName, ih, List.orderedInsert_cons]

/-- The names of a directory's scripts. -/
def scripts (files : FileTree) (directory : Path) : List String :=
  (files.namesIn directory).filter hasSuffix

/-- **What is listed**: of each script the name without its suffix. -/
theorem exists_ids (there : files.at? directory = some .directory) :
    ∃ ids, Library.ids files directory = .ok ids ∧
      ids.Perm ((scripts files directory).map Path.withoutSuffix) := by
  have isDir : files.isDir directory = .ok true := by
    obtain ⟨place, found, there⟩ := FileTree.at?_eq_some_iff.1 there
    simp [FileTree.isDir, FileTree.look, found, there, Except.map]
  refine ⟨_, by rw [Library.ids, isDir]; rfl, ?_⟩
  rw [insertName_eq]
  exact List.perm_insertionSort (· < ·) _

/-- The graph that is made of the bytes of a file. -/
def graphOf (path : Path) (id : String) (bytes : List UInt8) : Except Fault Graph :=
  match Utf8.decode bytes with
  | .error e => .error (.undecodable e)
  | .ok cs =>
    match Json.read (String.ofList (FileTree.newlines cs)) with
    | .error e => .error (.data (.notJson path e))
    | .ok (.object fields) => Script.ofValue id (.object fields) >>= Graph.ofScript
    | .ok _ => .error (.data (.notObject path))

/-- **Loading reads the one file that the id leads to**, whatever else there is. -/
theorem load_eq_graphOf {bytes : List UInt8}
    (held : files.at? (file directory id) = some (.file bytes)) :
    load files directory id = graphOf (file directory id) id bytes := by
  rw [load, loadScript, loadJson, FileTree.readText, FileTree.readBytes_eq_ok_iff.2 held, graphOf]
  dsimp only
  cases Utf8.decode bytes with
  | error e => rfl
  | ok cs =>
    dsimp only
    cases Json.read (String.ofList (FileTree.newlines cs)) with
    | error e => rfl
    | ok v => cases v <;> rfl

/-! ## Addressing what is listed -/

/-- A directory whose scripts are regular files, in a tree whose places are different. -/
structure IsRegular (files : FileTree) (directory : Path) (place : Place) : Prop where
  found : files.find directory = .ok place
  there : files.entry? place = some .directory
  distinct : (files.entries.map Prod.fst).Nodup
  named : ∀ name ∈ scripts files directory, Path.IsFileName name
  filed : ∀ name ∈ scripts files directory, ∃ bytes, files.entry? (place ++ [name]) = some (.file bytes)

/-- The scripts of a directory can be addressed by some ids: each has an id that leads to it, each id has
a file, the ids are different, and loading the id of a script reads the bytes of its file. -/
structure Addresses (files : FileTree) (directory : Path) (place : Place) (ids : List String) : Prop where
  reached : ∀ name ∈ scripts files directory, ∃ id ∈ ids, file directory id = directory.join (.ofString name)
  there : ∀ id ∈ ids, contains files directory id = .ok true
  apart : ids.Nodup
  reads : ∀ name ∈ scripts files directory, ∀ bytes,
    files.entry? (place ++ [name]) = some (.file bytes) →
      load files directory (Path.withoutSuffix name) =
        graphOf (directory.join (.ofString name)) (Path.withoutSuffix name) bytes

/-- A script whose path can be looked up, and whose id leads back to it. -/
structure IsAddressable (directory : Path) (name : String) : Prop where
  single : ¬IsDouble name
  short : (Utf8.encode (directory.join (.ofString name)).text.toList).length < 4096

instance (directory : Path) (name : String) : Decidable (IsAddressable directory name) :=
  decidable_of_iff (¬IsDouble name ∧ (Utf8.encode (directory.join (.ofString name)).text.toList).length < 4096)
    ⟨fun ⟨single, short⟩ => ⟨single, short⟩, fun ⟨single, short⟩ => ⟨single, short⟩⟩

theorem hasSuffix_fileName (id : String) : hasSuffix (fileName id) := by
  unfold fileName
  split
  case isTrue suffixed => exact suffixed
  case isFalse => exact hasSuffix_iff.2 ⟨id, rfl⟩

theorem isName_of_hasSuffix (suffixed : hasSuffix name) (noSlash : '/' ∉ name.toList) : Path.IsName name := by
  obtain ⟨stem, rfl⟩ := hasSuffix_iff.1 suffixed
  have long : 5 ≤ (stem ++ suffix).toList.length := by simp [suffix]
  refine ⟨noSlash, fun empty => ?_, fun dot => ?_⟩
  · simp [empty] at long
  · simp [dot] at long

/-- The name that an id leads to may stand in a path. -/
theorem isName_fileName (suffixed : hasSuffix name) (h : Path.IsName name) :
    Path.IsName (fileName (Path.withoutSuffix name)) := by
  by_cases double : IsDouble name
  · refine isName_of_hasSuffix (hasSuffix_fileName _) fun slash => h.noSlash ?_
    rw [← fileName_withoutSuffix_append double, String.toList_append]
    exact List.mem_append_left _ slash
  · rwa [(fileName_withoutSuffix_iff suffixed).2 double]

theorem file_eq_join_iff {id : String} (h : Path.IsName name) (h' : Path.IsName (fileName id)) :
    file directory id = directory.join (.ofString name) ↔ fileName id = name := by
  constructor
  · intro same
    have same : directory.join (.ofString (fileName id)) = directory.join (.ofString name) := same
    rw [Path.ofString_of_isName h, Path.ofString_of_isName h'] at same
    simpa [Path.join, Path.isAbsolute] using same
  · rintro rfl
    rfl

theorem hasSuffix_of_mem (mem : name ∈ scripts files directory) : hasSuffix name := (List.mem_filter.1 mem).2

/-- **If the ids of the scripts lead to all of the scripts, none has the suffix twice.** -/
theorem not_isDouble_of_reached
    (reached : ∀ name ∈ scripts files directory, ∃ other ∈ scripts files directory,
      fileName (Path.withoutSuffix other) = name) (mem : name ∈ scripts files directory) :
    ¬IsDouble name := by
  intro double
  -- To the longest of those that have it twice only a longer one could lead.
  let doubles : Set String := {name | name ∈ scripts files directory ∧ IsDouble name}
  have finite : doubles.Finite := (scripts files directory).finite_toSet.subset fun _ h => h.1
  obtain ⟨longest, ⟨mem, double⟩, longer⟩ :=
    Set.exists_max_image doubles String.length finite ⟨name, mem, double⟩
  obtain ⟨other, hother, leads⟩ := reached longest mem
  by_cases again : IsDouble other
  · have long : longest ++ suffix = other := leads ▸ fileName_withoutSuffix_append again
    have short := longer other ⟨hother, again⟩
    simp [← long, suffix] at short
  · have same := (fileName_withoutSuffix_iff (hasSuffix_of_mem hother)).2 again
    exact again (same.symm.trans leads ▸ double)

theorem contains_eq_true_iff :
    contains files directory id = .ok true ↔ ∃ bytes, files.at? (file directory id) = some (.file bytes) := by
  rw [← FileTree.isFile_eq_true_iff, contains]
  cases files.isFile (file directory id) <;> simp [Except.mapError]

variable {ids : List String}

theorem mem_iff_of_perm (perm : ids.Perm ((scripts files directory).map Path.withoutSuffix)) :
    id ∈ ids ↔ ∃ name ∈ scripts files directory, Path.withoutSuffix name = id :=
  perm.mem_iff.trans List.mem_map

/-- What the ids of an addressed directory lead to. -/
theorem Addresses.isAddressable (regular : IsRegular files directory place)
    (perm : ids.Perm ((scripts files directory).map Path.withoutSuffix))
    (h : Addresses files directory place ids) (mem : name ∈ scripts files directory) :
    IsAddressable directory name := by
  have single : ¬IsDouble name := by
    refine not_isDouble_of_reached (fun name mem => ?_) mem
    obtain ⟨id, hid, leads⟩ := h.reached name mem
    obtain ⟨other, hother, rfl⟩ := (mem_iff_of_perm perm).1 hid
    refine ⟨other, hother, (file_eq_join_iff (regular.named name mem).toIsName ?_).1 leads⟩
    exact isName_fileName (hasSuffix_of_mem hother) (regular.named other hother).toIsName
  refine ⟨single, ?_⟩
  obtain ⟨bytes, held⟩ := contains_eq_true_iff.1 (h.there _ ((mem_iff_of_perm perm).2 ⟨name, mem, rfl⟩))
  obtain ⟨q, found, -⟩ := FileTree.at?_eq_some_iff.1 held
  rw [file, ← fileName, (fileName_withoutSuffix_iff (hasSuffix_of_mem mem)).2 single] at found
  exact (FileTree.find_eq_ok_iff.1 found).2.1

/-- The id of a script that is addressable leads to its file. -/
theorem IsAddressable.leads (regular : IsRegular files directory place)
    (mem : name ∈ scripts files directory) (h : IsAddressable directory name) {bytes : List UInt8}
    (held : files.entry? (place ++ [name]) = some (.file bytes)) :
    file directory (Path.withoutSuffix name) = directory.join (.ofString name) ∧
      files.at? (file directory (Path.withoutSuffix name)) = some (.file bytes) := by
  have same : file directory (Path.withoutSuffix name) = directory.join (.ofString name) := by
    rw [file, ← fileName, (fileName_withoutSuffix_iff (hasSuffix_of_mem mem)).2 h.single]
  have found : files.find (directory.join (.ofString name)) = .ok (place ++ [name]) :=
    (FileTree.find_join_iff regular.found regular.there (regular.named name mem)).2 ⟨h.short, rfl⟩
  exact ⟨same, FileTree.at?_eq_some_iff.2 ⟨_, same ▸ found, held⟩⟩

/-- Scripts that are addressable have different ids, as each id leads back to its script. -/
theorem nodup_of_isAddressable (regular : IsRegular files directory place)
    (h : ∀ name ∈ scripts files directory, IsAddressable directory name) :
    ((scripts files directory).map Path.withoutSuffix).Nodup := by
  have back : ∀ name ∈ scripts files directory, fileName (Path.withoutSuffix name) = name :=
    fun name mem => (fileName_withoutSuffix_iff (hasSuffix_of_mem mem)).2 (h name mem).single
  refine List.Nodup.map_on (fun name mem other hother same => ?_) ?_
  · rw [← back name mem, same, back other hother]
  · exact (FileTree.nodup_namesIn regular.distinct directory).filter _

theorem addresses_of_isAddressable (regular : IsRegular files directory place)
    (perm : ids.Perm ((scripts files directory).map Path.withoutSuffix))
    (h : ∀ name ∈ scripts files directory, IsAddressable directory name) :
    Addresses files directory place ids where
  reached name mem := by
    obtain ⟨bytes, held⟩ := regular.filed name mem
    exact ⟨_, (mem_iff_of_perm perm).2 ⟨name, mem, rfl⟩, ((h name mem).leads regular mem held).1⟩
  there id hid := by
    obtain ⟨name, mem, rfl⟩ := (mem_iff_of_perm perm).1 hid
    obtain ⟨bytes, held⟩ := regular.filed name mem
    exact contains_eq_true_iff.2 ⟨bytes, ((h name mem).leads regular mem held).2⟩
  apart := perm.nodup_iff.2 (nodup_of_isAddressable regular h)
  reads name mem bytes held := by
    obtain ⟨same, there⟩ := (h name mem).leads regular mem held
    rw [← same]
    exact load_eq_graphOf there

/-- **The scripts of a directory can be addressed by the ids that are listed** just if none of them has
the suffix twice and the paths of all of them are short. -/
theorem addressable_iff (regular : IsRegular files directory place) :
    ∃ ids, Library.ids files directory = .ok ids ∧
      ids.Perm ((scripts files directory).map Path.withoutSuffix) ∧
        (Addresses files directory place ids ↔
          ∀ name ∈ scripts files directory, IsAddressable directory name) := by
  obtain ⟨ids, listed, perm⟩ :=
    exists_ids (FileTree.at?_eq_some_iff.2 ⟨place, regular.found, regular.there⟩)
  exact ⟨ids, listed, perm, fun h _ mem => h.isAddressable regular perm mem,
    addresses_of_isAddressable regular perm⟩

/-- A directory with three scripts and a file that is none. -/
def archive : FileTree :=
  { workplace := ["home"]
    entries := [(["home"], .directory), (["home", "scripts"], .directory),
      (["home", "scripts", "tale.json"], .file [0x7b, 0x7d]),
      (["home", "scripts", ".json"], .file []),
      (["home", "scripts", "tale.part.json"], .file [0x5b, 0x5d]),
      (["home", "scripts", "notes.txt"], .file [])] }

/-- A directory with one script, whose name has the suffix twice. -/
def copies : FileTree :=
  { workplace := ["home"]
    entries := [(["home"], .directory), (["home", "scripts"], .directory),
      (["home", "scripts", "tale.json.json"], .file [0x7b, 0x7d])] }

theorem archive_regular : IsRegular archive (.ofString "scripts") ["home", "scripts"] where
  found := rfl
  there := rfl
  distinct := by decide
  named := by decide
  filed := by
    have names : scripts archive (.ofString "scripts") = ["tale.json", ".json", "tale.part.json"] := rfl
    simp only [names, List.forall_mem_cons]
    exact ⟨⟨_, rfl⟩, ⟨_, rfl⟩, ⟨_, rfl⟩, nofun⟩

/-- A script whose name is the suffix and one with two dots are addressed like any other. -/
theorem archive_addressed :
    IsRegular archive (.ofString "scripts") ["home", "scripts"] ∧
      Library.ids archive (.ofString "scripts") = .ok [".json", "tale", "tale.part"] ∧
        Addresses archive (.ofString "scripts") ["home", "scripts"] [".json", "tale", "tale.part"] := by
  have listed : Library.ids archive (.ofString "scripts") = .ok [".json", "tale", "tale.part"] := rfl
  obtain ⟨ids, same, -, addressed⟩ := addressable_iff archive_regular
  obtain rfl := Except.ok.inj (listed.symm.trans same)
  exact ⟨archive_regular, listed, addressed.2 (by decide)⟩

theorem copies_regular : IsRegular copies (.ofString "scripts") ["home", "scripts"] where
  found := rfl
  there := rfl
  distinct := by decide
  named := by decide
  filed := by
    have names : scripts copies (.ofString "scripts") = ["tale.json.json"] := rfl
    simp only [names, List.forall_mem_cons]
    exact ⟨⟨_, rfl⟩, nofun⟩

/-- **A script that is listed and cannot be addressed**: the id that is listed for it has the suffix, so
it leads to a file that is not there. -/
theorem copies_not_addressed :
    IsRegular copies (.ofString "scripts") ["home", "scripts"] ∧
      Library.ids copies (.ofString "scripts") = .ok ["tale.json"] ∧
        contains copies (.ofString "scripts") "tale.json" = .ok false ∧
          load copies (.ofString "scripts") "tale.json" =
            .error (.data (.fileMissing (.ofString "scripts/tale.json"))) ∧
          ¬Addresses copies (.ofString "scripts") ["home", "scripts"] ["tale.json"] := by
  have missing : contains copies (.ofString "scripts") "tale.json" = .ok false := rfl
  refine ⟨copies_regular, rfl, missing, rfl, fun addressed => ?_⟩
  have there := addressed.there "tale.json" List.mem_cons_self
  rw [missing] at there
  cases there

end Library

end Questline

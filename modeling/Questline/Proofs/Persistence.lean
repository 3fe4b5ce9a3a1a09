import Questline.Flag.Store
import Questline.Proofs.Documents

/-!
# Flags that outlive their store

A store with a path writes all its flags with every flag that is set.  Whoever opens the path
afterwards finds what the store holds: the text that was written is the text that is read, and the
document is read back value by value.

Writing needs the place of the file to hold no directory, so no way to the file leads through that
place, and the file is found again where it was put.  In the same way it is found missing when it was
deleted.

* `FileTree.readText_writeBelow`: a text that was written is read.
* `FlagStore.open_save`: a store that was saved is found again.
* `FlagStore.open_delete`: a store whose file was deleted begins anew.
* `FlagStore.setEach?`: flags set one after the other.
* `flags_survive_restart`: whatever was set, the store that is opened next holds the same.
-/

namespace Questline

open Json (Value Fields scalarFields)

/-! ## Files -/

namespace FileTree

section Places

variable {t t' : FileTree} {place q : Place} {e : FileEntry} {p : Path}

theorem entry?_store_self (h : place ≠ []) : FileTree.entry? (t.store place e) place = some e := by
  rw [ entry?, if_neg h, store, List.lookup_cons_self]

theorem lookup_filter_of_ne (es : List (Place × FileEntry)) (h : q ≠ place) :
    (es.filter fun x => x.1 != place).lookup q = es.lookup q := by
  have other : (q == place) = false := by simpa using h
  induction es with
  | nil => rfl
  | cons x es ih =>
    obtain ⟨r, f⟩ := x
    by_cases there : r = place
    · simp [there, List.lookup_cons, ih, other]
    · simp [there, List.lookup_cons, ih]

theorem entry?_store_of_ne (h : q ≠ place) : FileTree.entry? (t.store place e) q = t.entry? q := by
  have other : (q == place) = false := by simpa using h
  simp only [ entry?, store, List.lookup_cons, other, lookup_filter_of_ne t.entries h]

theorem entry?_remove_of_ne (h : q ≠ place) : FileTree.entry? (t.remove place) q = t.entry? q := by
  simp only [ entry?, remove, lookup_filter_of_ne t.entries h]

theorem entry?_remove_self (h : place ≠ []) : FileTree.entry? (t.remove place) place = none := by
  rw [ entry?, if_neg h, remove, List.lookup_eq_none_iff]
  intro x hx
  have apart : x.1 ≠ place := by simpa using (List.mem_filter.1 hx).2
  simpa using apart.symm

/-- Two trees hold the same everywhere but at a place. -/
structure SameOff (place : Place) (t t' : FileTree) : Prop where
  workplace : t'.workplace = t.workplace
  entry : ∀ q, q ≠ place → FileTree.entry? t' q = t.entry? q

theorem sameOff_store : SameOff place t (t.store place e) := ⟨rfl, fun _ h => entry?_store_of_ne h⟩

theorem sameOff_remove : SameOff place t (t.remove place) := ⟨rfl, fun _ h => entry?_remove_of_ne h⟩

/-- Where no directory is, none is needed on the way. -/
theorem SameOff.descend (off : SameOff place t t') (free : t.entry? place ≠ some .directory)
    {name : String} {start : Place} (h : t.descend start name = .ok q) :
    t'.descend start name = .ok q := by
  have other : start ≠ place := by
    rintro rfl
    unfold FileTree.descend at h
    split at h
    case h_1 => cases h
    case h_2 => cases h
    case h_3 directory => exact free directory
  rw [FileTree.descend, off.entry start other]
  exact h

theorem SameOff.follow (off : SameOff place t t') (free : t.entry? place ≠ some .directory)
    {names : List String} {start : Place} (h : t.follow start names = .ok q) :
    t'.follow start names = .ok q := by
  induction names generalizing start with
  | nil => exact h
  | cons name names ih =>
    rw [FileTree.follow] at h
    split at h
    case h_1 => cases h
    case h_2 next step =>
      rw [FileTree.follow, off.descend free step]
      exact ih h

/-- A path still leads where it led. -/
theorem SameOff.find (off : SameOff place t t') (free : t.entry? place ≠ some .directory)
    (h : t.find p = .ok q) : t'.find p = .ok q := by
  unfold FileTree.find at h ⊢
  split at h
  case isTrue => cases h
  case isFalse text =>
    rw [if_neg text]
    split at h
    case isTrue => cases h
    case isFalse short =>
      rw [if_neg short]
      split at h
      case h_1 found =>
        rw [off.workplace, off.follow free found]
        exact h
      case h_2 => cases h

/-- **A place that no directory holds is found again** after something was put there. -/
theorem find_store (free : t.entry? place ≠ some .directory) (h : t.find p = .ok q) :
    (t.store place e).find p = .ok q :=
  sameOff_store.find free h

/-- What was written is what is read. -/
theorem readBytes_writeBytes {bytes : List UInt8} (h : t.writeBytes p bytes = .ok t') :
    t'.readBytes p = .ok bytes := by
  unfold writeBytes at h
  split at h
  case h_1 => cases h
  case h_2 place found =>
    split at h
    case h_1 => cases h
    case h_2 free =>
      obtain rfl := Except.ok.inj h
      have below : place ≠ [] := by
        rintro rfl
        exact free rfl
      rw [readBytes, find_store free found]
      simp only [entry?_store_self below]

/-- A file that was deleted is missing. -/
theorem readBytes_delete (h : t.delete p = .ok t') : t'.readBytes p = .error ⟨.missing, p⟩ := by
  unfold delete at h
  split at h
  case h_1 => cases h
  case h_2 place found =>
    split at h
    case h_1 => cases h
    case h_2 => cases h
    case h_3 bytes held =>
      obtain rfl := Except.ok.inj h
      have free : t.entry? place ≠ some .directory := by
        rw [held]
        exact nofun
      have below : place ≠ [] := by
        rintro rfl
        cases held
      rw [readBytes, sameOff_remove.find free found]
      simp only [entry?_remove_self below]

/-- **A text that was written is read**, if it needs no other line ends. -/
theorem readText_writeBelow {s : String} (plain : ∀ c ∈ s.toList, Json.Plain c)
    (h : t.writeBelow p s = (t', none)) : t'.readText p = .ok s := by
  unfold writeBelow writeBytesBelow at h
  split at h
  case h_1 => cases h
  case h_2 made =>
    split at h
    case h_1 written =>
      obtain rfl := (Prod.mk.inj h).1
      rw [readText, readBytes_writeBytes written]
      simp only [Utf8.decode_encode plain, newlines_plain plain, String.ofList_toList]
    case h_2 => cases h

end Places

end FileTree

/-! ## Stores -/

namespace FlagStore

section Stores

variable {files files' : FileTree} {path : Path} {store store' : FlagStore}

theorem readFlags_scalarFields (path : Path) (es : Entries Scalar) :
    readFlags path (scalarFields es) = .ok es := by
  induction es with
  | nil => rfl
  | cons e es ih =>
    rw [scalarFields, List.map_cons, readFlags, Scalar.ofValue?_toValue]
    simp only [scalarFields] at ih
    simp only [ih]
    rfl

theorem names_readFlags {fields : Fields} {flags : Entries Scalar}
    (h : readFlags path fields = .ok flags) : flags.names = fields.names := by
  induction fields generalizing flags with
  | nil =>
    obtain rfl := Except.ok.inj h
    rfl
  | cons f fields ih =>
    obtain ⟨name, v⟩ := f
    rw [readFlags] at h
    split at h
    case h_1 => cases h
    case h_2 s _ =>
      cases rest : readFlags path fields with
      | error e =>
        rw [rest] at h
        cases h
      | ok flags' =>
        rw [rest] at h
        obtain rfl := Except.ok.inj h
        simp only [Entries.names, List.map_cons, List.cons.injEq, true_and]
        exact ih rest

/-- A store that is opened keeps the names of its flags apart. -/
theorem nodup_names_of_open (h : FlagStore.open files (some path) = .ok store) :
    store.path = some path ∧ store.flags.names.Nodup := by
  rw [FlagStore.open] at h
  cases read : readFile files path with
  | error e =>
    rw [read] at h
    cases h
  | ok flags =>
    rw [read] at h
    obtain rfl := Except.ok.inj h
    refine ⟨rfl, ?_⟩
    unfold readFile at read
    split at read
    case h_1 => cases read
    case h_2 =>
      split at read
      case h_1 =>
        obtain rfl := Except.ok.inj read
        exact List.nodup_nil
      case h_2 => cases read
      case h_3 => cases read
    case h_3 =>
      split at read
      case h_1 => cases read
      case h_2 fields object =>
        exact (names_readFlags read).symm ▸ Json.nodup_names_of_read object
      case h_3 => cases read

/-- **A store that was saved is found again**, with its flags by name. -/
theorem open_save (apart : store.flags.names.Nodup) (here : store.path = some path)
    (h : store.save files = (files', .ok ())) :
    FlagStore.open files' (some path) = .ok ⟨some path, store.flags.sorted⟩ := by
  rw [save, here] at h
  simp only at h
  have written : files.writeBelow path store.document = (files', none) := by
    split at h
    case h_1 written =>
      obtain rfl := (Prod.mk.inj h).1
      exact written
    case h_2 =>
      split at h
      case isTrue => cases (Prod.mk.inj h).2
      case isFalse => cases (Prod.mk.inj h).2
  have text : files'.readText path = .ok store.document :=
    FileTree.readText_writeBelow (Json.plain_document store.flags) written
  have document : Json.read store.document = .ok (.object (scalarFields store.flags.sorted)) :=
    Json.read_document apart
  have flags : readFile files' path = .ok store.flags.sorted := by
    rw [readFile, text]
    simp only [document, readFlags_scalarFields]
  rw [FlagStore.open, flags]
  rfl

/-- **A store whose file was deleted begins anew.** -/
theorem open_delete (h : files.delete path = .ok files') :
    FlagStore.open files' (some path) = .ok { path := some path } := by
  have gone : files'.readText path = .error (.file ⟨.missing, path⟩) := by
    rw [FileTree.readText, FileTree.readBytes_delete h]
  rw [FlagStore.open, readFile, gone]
  rfl

/-- The flags set one after the other: the store and the files in the end; none if a call fails. -/
def setEach? (store : FlagStore) (files : FileTree) :
    (calls : List (Value × Value)) → Option (FlagStore × FileTree)
  | [] => some (store, files)
  | (name, value) :: calls =>
    match store.setValue files name value with
    | (store', files', .ok ()) => setEach? store' files' calls
    | (_, _, .error _) => none

/-- What a flag was last set to. -/
def lastSet (name : String) : (calls : List (Value × Value)) → Option Scalar
  | [] => none
  | (n, value) :: calls =>
    (lastSet name calls).or (if n = .string name then Scalar.ofValue? value else none)

/-- A call that succeeds stores its scalar and saves the store. -/
theorem setValue_ok {name value : Value}
    (h : store.setValue files name value = (store', files', .ok ())) :
    ∃ n s, name = .string n ∧ Scalar.ofValue? value = some s ∧
      store' = { store with flags := store.flags.put n s } ∧
      store'.save files = (files', .ok ()) := by
  unfold setValue at h
  split at h
  case h_1 n =>
    split at h
    case isTrue => cases h
    case isFalse =>
      split at h
      case h_1 s scalar =>
        simp only [set, Prod.mk.injEq] at h
        obtain ⟨rfl, saved⟩ := h
        exact ⟨n, s, rfl, scalar, rfl, saved⟩
      case h_2 => cases h
  case h_2 => cases h

/-- Flags that were set hold what they were last set to, and the others what they held. -/
theorem get?_setEach? {calls : List (Value × Value)}
    (h : store.setEach? files calls = some (store', files')) (name : String) :
    store'.get? name = (lastSet name calls).or (store.get? name) := by
  induction calls generalizing store files with
  | nil =>
    obtain ⟨rfl, rfl⟩ := Prod.mk.inj (Option.some.inj h)
    rfl
  | cons c calls ih =>
    obtain ⟨n, value⟩ := c
    rw [setEach?] at h
    split at h
    case h_1 store₁ files₁ first =>
      obtain ⟨m, s, rfl, scalar, rfl, -⟩ := setValue_ok first
      rw [ih h, lastSet, scalar, Option.or_assoc]
      congr 1
      simp only [get?, Entries.get?_put, Value.string.injEq]
      split <;> rfl
    case h_2 => cases h

/-- What is set keeps the names apart, and unless nothing is set, the store was saved. -/
theorem setEach?_saved {calls : List (Value × Value)} (apart : store.flags.names.Nodup)
    (here : store.path = some path) (h : store.setEach? files calls = some (store', files')) :
    store'.flags.names.Nodup ∧ store'.path = some path ∧
      (calls = [] ∧ store' = store ∧ files' = files ∨
        ∃ before, store'.save before = (files', .ok ())) := by
  induction calls generalizing store files with
  | nil =>
    obtain ⟨rfl, rfl⟩ := Prod.mk.inj (Option.some.inj h)
    exact ⟨apart, here, .inl ⟨rfl, rfl, rfl⟩⟩
  | cons c calls ih =>
    obtain ⟨n, value⟩ := c
    rw [setEach?] at h
    split at h
    case h_1 store₁ files₁ first =>
      obtain ⟨m, s, rfl, -, rfl, saved⟩ := setValue_ok first
      have kept : ({ store with flags := store.flags.put m s } : FlagStore).flags.names.Nodup :=
        Entries.nodup_names_put apart m s
      obtain ⟨apart', here', last⟩ := ih kept here h
      refine ⟨apart', here', .inr ?_⟩
      obtain ⟨-, rfl, rfl⟩ | last := last
      · exact ⟨files, saved⟩
      · exact last
    case h_2 => cases h

end Stores

end FlagStore

section Restart

variable {files files' : FileTree} {path : Path} {store store' : FlagStore}
  {calls : List (Value × Value)}

/-- **Flags survive a restart.**  Whatever was set successfully in a store with a path, the store
that is opened on that path next holds what the first one holds: each flag that was set has the
value to which it was set last, and every other flag the value that the file held before.  If
anything was set at all, the names are in the order of their code points. -/
theorem flags_survive_restart (opened : FlagStore.open files (some path) = .ok store)
    (done : store.setEach? files calls = some (store', files')) :
    ∃ again, FlagStore.open files' (some path) = .ok again ∧
      (∀ name, again.get? name = store'.get? name) ∧
      (∀ name, again.get? name = (FlagStore.lastSet name calls).or (store.get? name)) ∧
      (calls ≠ [] → again.flags.names.Pairwise (· < ·)) := by
  obtain ⟨here, apart⟩ := FlagStore.nodup_names_of_open opened
  have last := FlagStore.get?_setEach? done
  obtain ⟨apart', here', ⟨none, rfl, rfl⟩ | ⟨before, saved⟩⟩ :=
    FlagStore.setEach?_saved apart here done
  · exact ⟨store', opened, fun _ => rfl, last, fun some => absurd none some⟩
  · have same (name : String) : store'.flags.sorted.get? name = store'.get? name :=
      Entries.get?_sorted apart' name
    exact ⟨_, FlagStore.open_save apart' here' saved, same,
      fun name => (same name).trans (last name), fun _ => Entries.pairwise_sorted apart'⟩

deriving instance DecidableEq for FlagStore

/-- A directory with a file of two flags. -/
def purse : FileTree :=
  (FileTree.empty ["game"]).store ["game", "flags.json"]
    (.file (Utf8.encode "\x7b\"coins\": true, \"door\": 1\x7d".toList))

/-- The store of that file. -/
def purseStore : FlagStore :=
  { path := some ⟨0, ["flags.json"]⟩, flags := [("coins", .bool true), ("door", .int 1)] }

/-- A new flag, and the number one with a fraction for one that the file holds. -/
def purseCalls : List (Value × Value) :=
  [(.string "seen", .string "é\n"), (.string "coins", .float (.ofRatio false 1 1))]

/-- The number one with a fraction is told from the number one and from true. -/
theorem purse_survives_restart :
    FlagStore.open purse (some ⟨0, ["flags.json"]⟩) = .ok purseStore ∧
      ∃ store files, purseStore.setEach? purse purseCalls = some (store, files) ∧
        ∃ again, FlagStore.open files (some ⟨0, ["flags.json"]⟩) = .ok again ∧
          again.get? "coins" = some (.float (.ofRatio false 1 1)) ∧
          again.get? "door" = some (.int 1) ∧ again.get? "seen" = some (.text "é\n") ∧
          again.flags.names.Pairwise (· < ·) := by
  have opened : FlagStore.open purse (some ⟨0, ["flags.json"]⟩) = .ok purseStore := by
    have : (FlagStore.open purse (some ⟨0, ["flags.json"]⟩)).toOption = some purseStore := by
      decide +kernel
    revert this
    cases FlagStore.open purse (some ⟨0, ["flags.json"]⟩) with
    | error e => exact fun none => nomatch none
    | ok store => exact fun some => congrArg Except.ok (Option.some.inj some)
  have succeeds : (purseStore.setEach? purse purseCalls).isSome = true := by decide +kernel
  obtain ⟨⟨store, files⟩, done⟩ := Option.isSome_iff_exists.1 succeeds
  obtain ⟨again, reopened, -, held, ordered⟩ := flags_survive_restart opened done
  refine ⟨opened, store, files, done, again, reopened, ?_, ?_, ?_, ordered (List.cons_ne_nil _ _)⟩
  all_goals
    rw [held]
    decide +kernel

end Restart

end Questline

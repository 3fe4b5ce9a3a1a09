import Questline.Json.Writer
import Questline.Fault

/-!
# Flags

Flags are scalars under names.  A store keeps them in memory and, if it has a path, in
a file that is written anew with every flag that is set.

* `FlagStore.open`: the store of a file; a missing file is an empty store.
* `FlagStore.set`: set a flag.  It counts in memory also when the file cannot be
  written.
-/

namespace Questline

open Json (Value Fields)

/-- The flags, and the path of the file that keeps them. -/
structure FlagStore where
  path : Option Path := none
  flags : Entries Scalar := []

namespace FlagStore

instance : Inhabited FlagStore := ⟨{}⟩

/-- The flags of a file's fields. -/
def readFlags (path : Path) : Fields → Except Fault (Entries Scalar)
  | [] => .ok []
  | (name, v) :: fields =>
    match Scalar.ofValue? v with
    | none => .error (.flags (.notScalar name path v))
    | some s => (readFlags path fields).map ((name, s) :: ·)

/-- The flags that a file keeps. -/
def readFile (files : FileTree) (path : Path) : Except Fault (Entries Scalar) :=
  match files.readText path with
  | .error (.decode e) => .error (.undecodable e)
  | .error (.file e) =>
    match e.cause with
    | .missing => .ok []
    | .nullCharacter => .error (.file e)
    | _ => .error (.flags (.unreadable path e))
  | .ok text =>
    match Json.read text with
    | .error e => .error (.flags (.notJson path e))
    | .ok (.object fields) => readFlags path fields
    | .ok _ => .error (.flags (.notObject path))

/-- The store of a path, or a store in memory only. -/
def «open» (files : FileTree) : Option Path → Except Fault FlagStore
  | none => .ok {}
  | some path => (readFile files path).map fun flags => { path := some path, flags }

/-- The value of a flag. -/
def get? (store : FlagStore) (name : String) : Option Scalar := store.flags.get? name

/-- Whether a flag was set. -/
def has (store : FlagStore) (name : String) : Bool := store.flags.has name

/-- The text of the file that keeps the flags. -/
def document (store : FlagStore) : String :=
  Json.document (store.flags.map fun e => (e.1, e.2.toValue))

/-- Write the file of the store, if it has one. -/
def save (store : FlagStore) (files : FileTree) : FileTree × Except Fault Unit :=
  match store.path with
  | none => (files, .ok ())
  | some path =>
    match files.writeBelow path store.document with
    | (files', none) => (files', .ok ())
    | (files', some e) =>
      if e.cause = .nullCharacter then (files', .error (.file e))
      else (files', .error (.flags (.unwritable path e)))

/-- Set a flag and write the file. -/
def set (store : FlagStore) (files : FileTree) (name : String) (value : Scalar) :
    FlagStore × FileTree × Except Fault Unit :=
  let store' : FlagStore := { store with flags := store.flags.put name value }
  (store', store'.save files)

/-- Set a flag of any name to any value, if the name is a text that is not empty and the
value is a scalar. -/
def setValue (store : FlagStore) (files : FileTree) (name value : Value) :
    FlagStore × FileTree × Except Fault Unit :=
  match name with
  | .string name =>
    if name.isEmpty then (store, files, .error .emptyFlagName)
    else
      match Scalar.ofValue? value with
      | some s => store.set files name s
      | none => (store, files, .error (.flagNotScalar name))
  | _ => (store, files, .error .emptyFlagName)

end FlagStore

end Questline

import Questline.Proofs.Persistence

/-!
# Flags that are not written

A store changes its flags in memory before it writes them.  If the file cannot be written, the flag
counts all the same: the store reports it, and whoever opens the path afterwards does not find it.
Only a call whose name or value is refused, or one that sets a flag to what it is already, leaves the
answers of the store as they were.

A write that fails writes nothing.  It may have created directories on the way, but where a file can be
read, all directories above it are there, so then the files are as they were before.

* `FileTree.at?_parent`: above everything there is a directory.
* `FileTree.writeBelow_readable`: a write that fails leaves the files as they are, if the path can be
  read before or afterwards.
* `FlagStore.setValue_cases`: a call is refused, or it sets a flag.
* `FlagStore.InStep`: whoever opens the path of a store finds what the store reports.
* `FlagStore.stays_in_step_iff`: a store that was opened stays in step just if no call that fails
  changes an answer.
* `failing_set_untouched_iff`: what a failing call leaves as it was.
-/

namespace Questline

open Json (Value)

/-! ## Directories above a file -/

theorem Utf8.length_encode_append (cs ds : List Char) :
    (Utf8.encode (cs ++ ds)).length = (Utf8.encode cs).length + (Utf8.encode ds).length := by
  rw [Utf8.encode, List.flatMap_append, List.length_append]
  rfl

/-- One more name stands at the end of a path, unless the path was empty. -/
theorem Path.exists_text_concat {slashes : Nat} {above : List String} (some : ¬(slashes = 0 ∧ above = []))
    (name : String) : ∃ gap, (⟨slashes, above ++ [name]⟩ : Path).text =
      (⟨slashes, above⟩ : Path).text ++ (gap ++ name) := by
  rw [text, text, if_neg some, if_neg (by simp)]
  by_cases none : above = []
  · exact ⟨"", by simp [none]⟩
  · refine ⟨"/", ?_⟩
    rw [String.intercalate_append_of_ne_nil none (List.cons_ne_nil _ _), String.intercalate_singleton]
    simp only [String.append_assoc]

/-- A path that is short enough to be looked up is so without its last name. -/
theorem Path.parent_short {p : Path} (short : (Utf8.encode p.text.toList).length < 4096) :
    (Utf8.encode p.parent.text.toList).length < 4096 := by
  obtain ⟨slashes, parts⟩ := p
  rcases List.eq_nil_or_concat parts with rfl | ⟨above, name, rfl⟩
  · exact short
  rw [List.concat_eq_append] at short ⊢
  have parent : (⟨slashes, above ++ [name]⟩ : Path).parent = ⟨slashes, above⟩ := by simp [parent]
  rw [parent]
  by_cases empty : slashes = 0 ∧ above = []
  · have dot : (⟨slashes, above⟩ : Path).text = "." := by rw [text, if_pos empty]
    rw [dot]
    decide
  · obtain ⟨gap, long⟩ := exists_text_concat empty name
    rw [long, String.toList_append, Utf8.length_encode_append] at short
    omega

namespace FileTree

variable {t t' : FileTree} {p q : Path} {place : Place} {x : FileEntry} {e : FileFault}

theorem follow_append (t : FileTree) (place : Place) (names more : List String) :
    t.follow place (names ++ more) = (t.follow place names).bind fun place' => t.follow place' more := by
  induction names generalizing place with
  | nil => rfl
  | cons name names ih =>
    rw [List.cons_append, follow, follow]
    cases t.descend place name with
    | error e => rfl
    | ok place' => exact ih place'

/-- What is behind a name is in a directory. -/
theorem directory_of_descend {name : String} {place' : Place}
    (h : t.descend place name = .ok place') : t.entry? place = some .directory := by
  unfold descend at h
  split at h
  case h_1 => cases h
  case h_2 => cases h
  case h_3 there => exact there

theorem at?_eq_some_iff : t.at? p = some x ↔ ∃ place, t.find p = .ok place ∧ t.entry? place = some x := by
  unfold at?
  cases t.find p with
  | error e => simp
  | ok place => simp

/-- A path is found just if its names can be followed, it holds no null character, and it is short. -/
theorem find_eq_ok_iff : t.find p = .ok place ↔
    ¬p.parts.any (·.toList.contains '\x00') ∧ (Utf8.encode p.text.toList).length < 4096 ∧
      t.follow (if p.isAbsolute then [] else t.workplace) p.parts = .ok place := by
  unfold find
  dsimp only
  split
  case isTrue null => exact ⟨nofun, fun h => absurd null h.1⟩
  case isFalse whole =>
    split
    case isTrue long => exact ⟨nofun, fun h => absurd h.2.1 (Nat.not_lt.2 long)⟩
    case isFalse short =>
      cases t.follow (if p.isAbsolute then [] else t.workplace) p.parts with
      | error e => exact ⟨nofun, fun h => nomatch h.2.2⟩
      | ok q =>
        constructor
        · intro h
          obtain rfl := Except.ok.inj h
          exact ⟨whole, Nat.lt_of_not_le short, rfl⟩
        · intro h
          obtain rfl := Except.ok.inj h.2.2
          rfl

/-- **Above everything there is a directory.** -/
theorem at?_parent (named : p.parts ≠ []) (h : t.at? p = some x) :
    t.at? p.parent = some .directory := by
  obtain ⟨place, found, -⟩ := at?_eq_some_iff.1 h
  obtain ⟨whole, short, follows⟩ := find_eq_ok_iff.1 found
  have split : p.parts = p.parent.parts ++ [p.parts.getLast named] :=
    (List.dropLast_append_getLast named).symm
  rw [split, follow_append] at follows
  cases above : t.follow (if p.isAbsolute then [] else t.workplace) p.parent.parts with
  | error e =>
    rw [above] at follows
    cases follows
  | ok directory =>
    rw [above] at follows
    have below : t.follow directory [p.parts.getLast named] = .ok place := follows
    have there : t.entry? directory = some .directory := by
      cases step : t.descend directory (p.parts.getLast named) with
      | error e =>
        rw [follow, step] at below
        cases below
      | ok q => exact directory_of_descend step
    refine at?_eq_some_iff.2 ⟨directory, find_eq_ok_iff.2 ⟨?_, Path.parent_short short, above⟩, there⟩
    rw [split, List.any_append] at whole
    exact fun null => whole (by rw [null]; rfl)

/-! ## Creating directories -/

/-- Where something is, no directory is created. -/
theorem makeDirs_of_at? (h : t.at? q = some x) :
    t.makeDirs q = (t, if x = .directory then none else some ⟨.alreadyThere, q⟩) := by
  obtain ⟨place, found, there⟩ := at?_eq_some_iff.1 h
  have made : t.makeDir q = .error ⟨.alreadyThere, q⟩ := by
    rw [makeDir, found]
    simp only [there]
  have settled : t.settleDir q (t.makeDir q) =
      (t, if x = .directory then none else some ⟨.alreadyThere, q⟩) := by
    rw [made, settleDir, h]
    by_cases directory : x = .directory <;> simp [directory]
  obtain ⟨slashes, parts⟩ := q
  unfold makeDirs
  cases hn : parts.reverse with
  | nil =>
    obtain rfl := List.reverse_eq_nil_iff.1 hn
    exact settled
  | cons name above =>
    have parts : (name :: above).reverse = parts := by rw [← hn, List.reverse_reverse]
    rw [makeDirsAbove, parts]
    simp only [made] at settled ⊢
    exact settled

theorem settleDir_fails {r : Except FileFault FileTree} (h : t.settleDir p r = (t', some e)) :
    t'.at? p ≠ some .directory := by
  cases r with
  | ok t₁ => cases h
  | error f =>
    rw [settleDir] at h
    split at h
    case isTrue => cases h
    case isFalse none =>
      obtain ⟨rfl, -⟩ := Prod.mk.inj h
      exact none

/-- **Where directories could not be created, there is none**, by induction on their names: one that is
missing has none above it. -/
theorem makeDirs_fails (h : t.makeDirs p = (t', some e)) : t'.at? p ≠ some .directory := by
  have go (slashes : Nat) (names : List String) (t : FileTree)
      (h : makeDirsAbove slashes names t = (t', some e)) :
      t'.at? ⟨slashes, names.reverse⟩ ≠ some .directory := by
    induction names generalizing t with
    | nil => exact settleDir_fails h
    | cons name above ih =>
      unfold makeDirsAbove at h
      dsimp only at h
      split at h
      case h_1 =>
        split at h
        case h_1 failed =>
          obtain ⟨rfl, rfl⟩ := h
          intro there
          refine ih t failed ?_
          have directory := at?_parent (by simp) there
          simpa [Path.parent] using directory
        case h_2 => exact settleDir_fails h
      case h_2 => exact settleDir_fails h
  have failed := go p.slashes p.parts.reverse t h
  rwa [List.reverse_reverse] at failed

/-! ## Failing writes -/

theorem at?_of_readBytes {bytes : List UInt8} (h : t.readBytes p = .ok bytes) :
    t.at? p = some (.file bytes) := by
  unfold readBytes at h
  split at h
  case h_1 => cases h
  case h_2 place found =>
    split at h
    case h_1 => cases h
    case h_2 => cases h
    case h_3 there =>
      obtain rfl := Except.ok.inj h
      exact at?_eq_some_iff.2 ⟨place, found, there⟩

/-- Above a file that can be read no directory is created. -/
theorem makeDirs_parent_of_readBytes {bytes : List UInt8} (h : t.readBytes p = .ok bytes) :
    (t.makeDirs p.parent).1 = t := by
  have there := at?_of_readBytes h
  by_cases named : p.parts = []
  · have same : p.parent = p := by
      obtain ⟨slashes, parts⟩ := p
      obtain rfl : parts = [] := named
      rfl
    rw [same, makeDirs_of_at? there]
  · rw [makeDirs_of_at? (at?_parent named there)]

/-- **A write that fails leaves the files as they are**, if the path can be read before or
afterwards. -/
theorem writeBelow_readable {text : String} (h : t.writeBelow p text = (t', some e))
    {bytes : List UInt8} (readable : t.readBytes p = .ok bytes ∨ t'.readBytes p = .ok bytes) : t' = t := by
  unfold writeBelow writeBytesBelow at h
  split at h
  case h_1 t₁ e₁ made =>
    obtain ⟨rfl, -⟩ := Prod.mk.inj h
    rcases readable with before | after
    · have same := makeDirs_parent_of_readBytes before
      rwa [made] at same
    · -- Nothing could be read below a directory that is not there.
      have there := at?_of_readBytes after
      by_cases named : p.parts = []
      · obtain ⟨slashes, parts⟩ := p
        obtain rfl : parts = [] := named
        have made : t.settleDir ⟨slashes, []⟩ (t.makeDir ⟨slashes, []⟩) = (t₁, some e₁) := made
        unfold settleDir at made
        split at made
        case h_1 => cases made
        case h_2 =>
          split at made
          case isTrue => cases made
          case isFalse => exact (Prod.mk.inj made).1.symm
      · exact absurd (at?_parent named there) (makeDirs_fails made)
  case h_2 t₁ made =>
    split at h
    case h_1 => cases h
    case h_2 e₁ failed =>
      obtain ⟨rfl, -⟩ := Prod.mk.inj h
      rcases readable with before | after
      · have same := makeDirs_parent_of_readBytes before
        rwa [made] at same
      · -- What can be read can be written.
        obtain ⟨place, found, there⟩ := at?_eq_some_iff.1 (at?_of_readBytes after)
        rw [writeBytes, found] at failed
        simp only [there] at failed
        cases failed

end FileTree

/-! ## Calls that fail -/

theorem Entries.put_eq_self_iff {α : Type} {es : Entries α} {name : String} {a : α} :
    es.put name a = es ↔ es.get? name = some a := by
  induction es with
  | nil => simp [Entries.put, Entries.get?]
  | cons e es ih =>
    obtain ⟨n, b⟩ := e
    by_cases same : n = name
    · simp [Entries.put, Entries.get?, same, eq_comm]
    · simp only [Entries.get?] at ih
      simp [Entries.put, Entries.get?, same, ih]

namespace FlagStore

variable {files files' : FileTree} {path : Path} {store store' : FlagStore} {name value : Value}
  {n : String} {s : Scalar} {f : Fault}

/-- A name and a value that can be set: a text that is not empty, and a scalar. -/
def Accepts (name value : Value) (n : String) (s : Scalar) : Prop :=
  name = .string n ∧ n ≠ "" ∧ Scalar.ofValue? value = some s

/-- The fault of a name or a value that cannot be set. -/
inductive Refusal : Fault → Prop
  | name : Refusal .emptyFlagName
  | value (name : String) : Refusal (.flagNotScalar name)

/-- A call is refused and changes nothing, or it sets a flag. -/
inductive Called (store : FlagStore) (files : FileTree) (name value : Value) : Prop
  | refused {f : Fault} (refusal : Refusal f) (none : ∀ n s, ¬Accepts name value n s)
      (result : store.setValue files name value = (store, files, .error f))
  | accepted {n : String} {s : Scalar} (accepts : Accepts name value n s)
      (result : store.setValue files name value = store.set files n s)

theorem setValue_cases (store : FlagStore) (files : FileTree) (name value : Value) :
    store.Called files name value := by
  cases name with
  | string n =>
    by_cases empty : n = ""
    · refine .refused .name ?_ (by simp [setValue, empty])
      rintro m s ⟨hm, some, -⟩
      exact some ((Value.string.inj hm).symm.trans empty)
    · have named : n.isEmpty = false := by simpa using empty
      cases hs : Scalar.ofValue? value with
      | none =>
        refine .refused (.value n) ?_ (by simp [setValue, named, hs])
        rintro m s ⟨-, -, scalar⟩
        rw [hs] at scalar
        cases scalar
      | some s => exact .accepted ⟨rfl, empty, hs⟩ (by simp [setValue, named, hs])
  | null | bool | int | float | array | object =>
    refine .refused .name ?_ rfl
    rintro m s ⟨hm, -⟩
    cases hm

theorem Accepts.unique {m : String} {u : Scalar} (h : Accepts name value n s)
    (g : Accepts name value m u) : n = m ∧ s = u :=
  ⟨Value.string.inj (h.1.symm.trans g.1), Option.some.inj (h.2.2.symm.trans g.2.2)⟩

/-- Only a store with a path can fail to be saved: its file cannot be written. -/
theorem save_fails (h : store.save files = (files', .error f)) :
    ¬Refusal f ∧ ∃ path e, store.path = some path ∧
      files.writeBelow path store.document = (files', some e) := by
  unfold save at h
  split at h
  case h_1 => cases h
  case h_2 path here =>
    split at h
    case h_1 => cases h
    case h_2 e written =>
      split at h
      case isTrue =>
        cases h
        exact ⟨nofun, path, e, here, written⟩
      case isFalse =>
        cases h
        exact ⟨nofun, path, e, here, written⟩

/-- Two stores give the same answers: to what a flag is, to whether it is set, and to what is set
altogether. -/
structure AnswersAs (store' store : FlagStore) : Prop where
  get : ∀ n, store'.get? n = store.get? n
  has : ∀ n, store'.has n = store.has n
  all : store'.flags = store.flags

theorem answersAs_put_iff :
    ({ store with flags := store.flags.put n s } : FlagStore).AnswersAs store ↔ store.get? n = some s := by
  constructor
  · intro h
    exact Entries.put_eq_self_iff.1 h.all
  · intro same
    have kept : store.flags.put n s = store.flags := Entries.put_eq_self_iff.2 same
    rw [kept]
    exact ⟨fun _ => rfl, fun _ => rfl, rfl⟩

/-- What a call that fails comes from: a refusal, or a flag that is set and not written. -/
inductive Fails (store : FlagStore) (files : FileTree) (name value : Value) :
    FlagStore → FileTree → Fault → Prop
  | refused {f : Fault} (refusal : Refusal f) (none : ∀ n s, ¬Accepts name value n s) :
      Fails store files name value store files f
  | unwritten {n : String} {s : Scalar} {files' : FileTree} {f : Fault} {path : Path} {e : FileFault}
      {text : String} (accepts : Accepts name value n s) (other : ¬Refusal f)
      (here : store.path = some path) (failed : files.writeBelow path text = (files', some e)) :
      Fails store files name value { store with flags := store.flags.put n s } files' f

theorem fails_of_setValue (h : store.setValue files name value = (store', files', .error f)) :
    store.Fails files name value store' files' f := by
  cases store.setValue_cases files name value with
  | refused refusal none result =>
    rw [result] at h
    cases h
    exact .refused refusal none
  | @accepted n s accepts result =>
    rw [result, set] at h
    simp only [Prod.mk.injEq] at h
    obtain ⟨rfl, saved⟩ := h
    obtain ⟨other, path, e, here, failed⟩ := save_fails saved
    exact .unwritten accepts other here failed

/-! ## Stores and their files -/

/-- Whoever opens the path of the store finds what the store reports. -/
def InStep (store : FlagStore) (files : FileTree) : Prop :=
  ∃ path again, store.path = some path ∧ FlagStore.open files (some path) = .ok again ∧
    ∀ n, again.get? n = store.get? n

/-- A flag is found only in a file that can be read. -/
theorem readable_of_get? {again : FlagStore} (opened : FlagStore.open files (some path) = .ok again)
    (held : again.get? n = some s) : ∃ bytes, files.readBytes path = .ok bytes := by
  cases read : files.readBytes path with
  | ok bytes => exact ⟨bytes, rfl⟩
  | error e =>
    have text : files.readText path = .error (.file e) := by rw [FileTree.readText, read]
    rw [FlagStore.open, readFile, text] at opened
    simp only at opened
    split at opened
    case h_1 =>
      obtain rfl := Except.ok.inj opened
      cases held
    case h_2 => cases opened
    case h_3 => cases opened

/-- **A call that fails makes no flag durable**: what can be found afterwards was found before. -/
theorem found_of_fails (h : store.Fails files name value store' files' f) (here : store.path = some path)
    {again : FlagStore} (opened : FlagStore.open files' (some path) = .ok again)
    (held : again.get? n = some s) : files' = files := by
  cases h with
  | refused => rfl
  | unwritten accepts other here' failed =>
    obtain rfl := Option.some.inj (here.symm.trans here')
    obtain ⟨bytes, readable⟩ := readable_of_get? opened held
    exact FileTree.writeBelow_readable failed (.inr readable)

/-- A store that is in step with its file is so after a call that fails just if the call has changed no
answer. -/
theorem InStep.fails_iff (step : store.InStep files) (h : store.Fails files name value store' files' f) :
    store'.InStep files' ↔ store'.AnswersAs store := by
  obtain ⟨path, again, here, opened, same⟩ := step
  cases h with
  | refused =>
    exact ⟨fun _ => ⟨fun _ => rfl, fun _ => rfl, rfl⟩, fun _ => ⟨path, again, here, opened, same⟩⟩
  | @unwritten n s files' f path' e text accepts other here' failed =>
    obtain rfl := Option.some.inj (here.symm.trans here')
    rw [answersAs_put_iff]
    have reports : ({ store with flags := store.flags.put n s } : FlagStore).get? n = some s := by
      simp [get?, Entries.get?_put]
    constructor
    · rintro ⟨path'', later, here'', opened', same'⟩
      obtain rfl := Option.some.inj (here.symm.trans here'')
      have held : later.get? n = some s := (same' n).trans reports
      obtain rfl := found_of_fails (.unwritten accepts other here failed) here opened' held
      obtain rfl := Except.ok.inj (opened.symm.trans opened')
      rw [← same n, held]
    · intro known
      obtain ⟨bytes, readable⟩ := readable_of_get? opened ((same n).trans known)
      obtain rfl := FileTree.writeBelow_readable failed (.inl readable)
      rw [Entries.put_eq_self_iff.2 known]
      exact ⟨path, again, here, opened, same⟩

/-- A call that succeeds brings the store in step with its file, whatever went wrong before. -/
theorem InStep.of_success (apart : store.flags.names.Nodup) (here : store.path = some path)
    (h : store.setValue files name value = (store', files', .ok ())) : store'.InStep files' := by
  obtain ⟨n, s, -, -, same, saved⟩ := setValue_ok h
  have apart' : store'.flags.names.Nodup := by
    rw [same]
    exact Entries.nodup_names_put apart n s
  have here' : store'.path = some path := by
    rw [same]
    exact here
  exact ⟨path, _, here', open_save apart' here' saved, Entries.get?_sorted apart'⟩

/-! ## One call after the other -/

/-- The store is in step with its file before the first of the calls and after each of them. -/
def StaysInStep (store : FlagStore) (files : FileTree) : (calls : List (Value × Value)) → Prop
  | [] => store.InStep files
  | (name, value) :: calls =>
    store.InStep files ∧ StaysInStep (store.setValue files name value).1
      (store.setValue files name value).2.1 calls

/-- Each of the calls that fails leaves the answers of the store as they are. -/
def LeavesAnswers (store : FlagStore) (files : FileTree) : (calls : List (Value × Value)) → Prop
  | [] => True
  | (name, value) :: calls =>
    (∀ f, (store.setValue files name value).2.2 = .error f →
      (store.setValue files name value).1.AnswersAs store) ∧
    LeavesAnswers (store.setValue files name value).1 (store.setValue files name value).2.1 calls

/-- Names that are apart are so after a call, whether it fails or not. -/
theorem nodup_names_setValue (apart : store.flags.names.Nodup) (files : FileTree)
    (name value : Value) : (store.setValue files name value).1.flags.names.Nodup := by
  cases store.setValue_cases files name value with
  | refused refusal none result =>
    rw [result]
    exact apart
  | @accepted n s accepts result =>
    rw [result]
    exact Entries.nodup_names_put apart n s

/-- **A store that is in step stays so just if no call that fails changes an answer**, by induction on
the calls: a call that succeeds always writes the whole store, and one that fails writes nothing. -/
theorem InStep.stays_iff (calls : List (Value × Value)) (step : store.InStep files)
    (apart : store.flags.names.Nodup) :
    store.StaysInStep files calls ↔ store.LeavesAnswers files calls := by
  induction calls generalizing store files with
  | nil => exact ⟨fun _ => trivial, fun _ => step⟩
  | cons c calls ih =>
    obtain ⟨name, value⟩ := c
    obtain ⟨path, again, here, opened⟩ := step
    have step : store.InStep files := ⟨path, again, here, opened⟩
    rw [StaysInStep, LeavesAnswers]
    cases called : store.setValue files name value with
    | mk store' rest =>
      obtain ⟨files', result⟩ := rest
      have apart' := nodup_names_setValue apart files name value
      rw [called] at apart'
      cases result with
      | ok u =>
        have step' : store'.InStep files' := .of_success apart here called
        rw [and_iff_right step, ih step' apart']
        exact (and_iff_right nofun).symm
      | error f =>
        have fails := step.fails_iff (fails_of_setValue called)
        rw [and_iff_right step]
        constructor
        · intro stays
          have step' : store'.InStep files' := by
            cases calls with
            | nil => exact stays
            | cons c calls => exact stays.1
          exact ⟨fun _ _ => fails.1 step', (ih step' apart').1 stays⟩
        · rintro ⟨same, leaves⟩
          exact (ih (fails.2 (same f rfl)) apart').2 leaves

/-- **A store that was opened stays in step with its file just if no call that fails changes an
answer**, as long as nothing else changes the file. -/
theorem stays_in_step_iff (opened : FlagStore.open files (some path) = .ok store)
    (calls : List (Value × Value)) :
    store.StaysInStep files calls ↔ store.LeavesAnswers files calls := by
  obtain ⟨here, apart⟩ := nodup_names_of_open opened
  exact InStep.stays_iff calls ⟨path, store, here, opened, fun _ => rfl⟩ apart

end FlagStore

/-- **What a failing call leaves as it was.**  It fails for its name or value just if these cannot be
set; then nothing at all has changed.  Otherwise its file cannot be written, and all answers of the
store are as before just if the flag was already what it was to be set to.  No flag is made durable by
a call that fails.  So a store of which all answers can be found again in its file is such a store
afterwards just if its answers are as before. -/
theorem failing_set_untouched_iff {files files' : FileTree} {store store' : FlagStore}
    {name value : Value} {f : Fault}
    (failed : store.setValue files name value = (store', files', .error f)) :
    (store'.AnswersAs store ↔ ∀ n s, FlagStore.Accepts name value n s → store.get? n = some s) ∧
      (FlagStore.Refusal f ↔ ∀ n s, ¬FlagStore.Accepts name value n s) ∧
      (FlagStore.Refusal f ∨ store.path = none → store' = store ∧ files' = files) ∧
      (∀ path again n s, store.path = some path → FlagStore.open files' (some path) = .ok again →
        again.get? n = some s → FlagStore.open files (some path) = .ok again) ∧
      (store.InStep files → (store'.InStep files' ↔ store'.AnswersAs store)) := by
  have h := FlagStore.fails_of_setValue failed
  have found (path : Path) (again : FlagStore) (n : String) (s : Scalar) (here : store.path = some path)
      (opened : FlagStore.open files' (some path) = .ok again) (held : again.get? n = some s) :
      FlagStore.open files (some path) = .ok again := by
    rw [← FlagStore.found_of_fails h here opened held]
    exact opened
  refine ⟨?_, ?_, ?_, found, fun step => step.fails_iff h⟩
  · cases h with
    | refused refusal none =>
      exact ⟨fun _ n s accepts => absurd accepts (none n s), fun _ => ⟨fun _ => rfl, fun _ => rfl, rfl⟩⟩
    | @unwritten n s _ _ _ _ _ accepts =>
      rw [FlagStore.answersAs_put_iff]
      constructor
      · intro known m u accepts'
        obtain ⟨rfl, rfl⟩ := accepts.unique accepts'
        exact known
      · intro all
        exact all n s accepts
  · cases h with
    | refused refusal none => exact ⟨fun _ => none, fun _ => refusal⟩
    | unwritten accepts other =>
      exact ⟨fun refusal => absurd refusal other, fun none => absurd accepts (none _ _)⟩
  · cases h with
    | refused => exact fun _ => ⟨rfl, rfl⟩
    | unwritten accepts other here =>
      rintro (refusal | memory)
      · exact absurd refusal other
      · rw [here] at memory
        cases memory

/-- A directory with a file where the directory of the flags should be. -/
def barred : FileTree :=
  (FileTree.empty ["game"]).store ["game", "saves"] (.file (Utf8.encode "x".toList))

/-- A store of flags that cannot be written there. -/
def barredStore (flags : Entries Scalar) : FlagStore :=
  { path := some ⟨0, ["saves", "flags.json"]⟩, flags }

/-- The fault of every call that sets a flag there. -/
def barredFault : Fault :=
  .flags (.unwritable ⟨0, ["saves", "flags.json"]⟩ ⟨.alreadyThere, ⟨0, ["saves"]⟩⟩)

/-- A flag that is set again to what it is: the call fails, and every answer is as before. -/
theorem known_flag_untouched :
    ∃ store' files', (barredStore [("seen", .bool true)]).setValue barred (.string "seen") (.bool true) =
        (store', files', .error barredFault) ∧
      store'.AnswersAs (barredStore [("seen", .bool true)]) := by
  have failed : ((barredStore [("seen", .bool true)]).setValue barred (.string "seen") (.bool true)).2.2 =
      .error barredFault := by decide +kernel
  have called := Prod.ext rfl (Prod.ext rfl failed)
  refine ⟨_, _, called, (failing_set_untouched_iff called).1.2 ?_⟩
  intro n s accepts
  obtain ⟨rfl, rfl⟩ := accepts.unique (m := "seen") (u := .bool true) ⟨rfl, by decide, rfl⟩
  decide

/-- **A flag that is reported and not written.**  A store is opened where there are no flags yet.  Then
there is a file in the place of their directory, and the call that sets a flag fails; the store
reports the flag from then on. -/
theorem reported_though_unwritten :
    FlagStore.open (.empty ["game"]) (some ⟨0, ["saves", "flags.json"]⟩) = .ok (barredStore []) ∧
      ∃ store' files',
        (barredStore []).setValue barred (.string "seen") (.bool true) =
          (store', files', .error barredFault) ∧
        (barredStore []).get? "seen" = none ∧ store'.get? "seen" = some (.bool true) ∧
        ¬store'.AnswersAs (barredStore []) := by
  have opened : FlagStore.open (.empty ["game"]) (some ⟨0, ["saves", "flags.json"]⟩) =
      .ok (barredStore []) := by
    have : (FlagStore.open (.empty ["game"]) (some ⟨0, ["saves", "flags.json"]⟩)).toOption =
        some (barredStore []) := by decide +kernel
    revert this
    cases FlagStore.open (.empty ["game"]) (some ⟨0, ["saves", "flags.json"]⟩) with
    | error e => exact fun none => nomatch none
    | ok store => exact fun some => congrArg Except.ok (Option.some.inj some)
  have failed : ((barredStore []).setValue barred (.string "seen") (.bool true)).2.2 =
      .error barredFault := by decide +kernel
  have reports : ((barredStore []).setValue barred (.string "seen") (.bool true)).1.get? "seen" =
      some (.bool true) := by decide +kernel
  refine ⟨opened, _, _, Prod.ext rfl (Prod.ext rfl failed), rfl, reports, ?_⟩
  intro same
  have none := (same.get "seen").symm.trans reports
  cases none

end Questline

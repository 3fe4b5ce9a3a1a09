import Mathlib.Algebra.Group.Int.Defs
import Mathlib.Data.List.Basic
import Questline.Script.Library

/-!
# What is refused, and what is not

A script is read with a requirement on every part of it.  A part that does not meet its requirement
is refused, by a fault of the data that names it, and the first fault counts.  In three places more is
done with a part than its requirement promises:

* the duration of an image has to be a number that is not below zero, and is then made a
  floating-point value.  There is none for an integer that is too large;
* an id may be an integer, and is then put in decimal notation, which may be too long;
* what follows `output_` in the handle of a connection has to consist of digits, and is then read as
  a number.  Superscripts and circled numbers are digits, but form no number, and there may be too many.

There the reading fails by a fault that is none of the data, and with it the looking through of the
file.  It fails so in no other way.

* `FailsWith`: what a computation fails with.
* `Node.Escapes`, `Connection.Escapes`: the three exceptions.
* `readEach_eq_error_iff`: the first fault counts.
* `Script.Escapes`: the first fault of a script is one of the exceptions.
* `malformed_refused_iff`: malformed scripts are refused, if they do not escape.
-/

namespace Questline

open Json (Value Fields)

/-! ## Failing -/

/-- A computation fails only with faults of a kind. -/
def FailsWith {α : Type} (p : Fault → Prop) (x : Except Fault α) : Prop := ∀ f, x = .error f → p f

theorem ok_bind {α β : Type} (a : α) (next : α → Except Fault β) : (.ok a >>= next) = next a := rfl

/-- A computation that comes after another one. -/
theorem bind_eq_error_iff {α β : Type} {x : Except Fault α} {next : α → Except Fault β} {f : Fault} :
    x >>= next = .error f ↔ x = .error f ∨ ∃ a, x = .ok a ∧ next a = .error f := by
  cases x with
  | error g =>
    constructor
    · intro h
      exact .inl (congrArg Except.error (Except.error.inj h))
    · rintro (h | ⟨a, h, -⟩)
      · exact congrArg Except.error (Except.error.inj h)
      · cases h
  | ok a =>
    constructor
    · intro h
      exact .inr ⟨a, rfl, h⟩
    · rintro (h | ⟨b, h, hb⟩)
      · cases h
      · cases h
        exact hb

namespace FailsWith

variable {α β : Type} {p q : Fault → Prop} {x : Except Fault α}

theorem ok (a : α) : FailsWith p (.ok a) := by
  intro f h
  cases h

theorem pure (a : α) : FailsWith p (Pure.pure a : Except Fault α) := ok a

theorem error {f : Fault} (h : p f) : FailsWith p (.error f : Except Fault α) := by
  intro g hg
  exact Except.error.inj hg ▸ h

theorem bind {next : α → Except Fault β} (h : FailsWith p x) (hn : ∀ a, FailsWith p (next a)) :
    FailsWith p (x >>= next) := by
  intro f hf
  rcases bind_eq_error_iff.1 hf with hx | ⟨a, -, ha⟩
  · exact h f hx
  · exact hn a f ha

theorem map (g : α → β) (h : FailsWith p x) : FailsWith p (g <$> x) := by
  cases x with
  | ok a => exact ok (g a)
  | error f => exact error (h f rfl)

theorem mono (h : FailsWith p x) (wider : ∀ f, p f → q f) : FailsWith q x := by
  intro f hf
  exact wider f (h f hf)

theorem ne {f : Fault} (h : FailsWith p x) (hf : ¬p f) : x ≠ .error f := by
  intro hx
  exact hf (h f hx)

end FailsWith

theorem map_eq_error_iff {α β : Type} {x : Except Fault α} {g : α → β} {f : Fault} :
    g <$> x = .error f ↔ x = .error f := by
  cases x with
  | ok a => constructor <;> intro h <;> cases h
  | error e =>
    constructor
    · intro h
      exact congrArg Except.error (Except.error.inj h)
    · intro h
      exact congrArg Except.error (Except.error.inj h)

/-! ## Requirements -/

/-- Whether a fault refuses a script: a requirement is not met, or a kind of node is not known. -/
def Fault.isRefusal : Fault → Bool
  | .data (.unmet _ _) | .data (.unknownKind _ _) => true
  | _ => false

/-- A computation that only refuses. -/
abbrev Refuses {α : Type} (x : Except Fault α) : Prop := FailsWith (fun f => f.isRefusal = true) x

/-- What only refuses never fails with another fault. -/
theorem Refuses.ne_error {α : Type} {x : Except Fault α} {f : Fault} (h : Refuses x)
    (hf : f.isRefusal = false) : x ≠ .error f := by
  apply h.ne
  rw [hf]
  exact Bool.false_ne_true

section Requirements

variable (subject : Subject) (v : Value) (data : Fields)

theorem unmet_refuses {α : Type} (need : Requirement) : Refuses (unmet subject need : Except Fault α) :=
  .error rfl

variable {subject} in
theorem unmet_ne_error {α : Type} {need : Requirement} {f : Fault} (hf : f.isRefusal = false) :
    (unmet subject need : Except Fault α) ≠ .error f :=
  (unmet_refuses subject need).ne_error hf

variable {subject v} in
theorem eq_object_of_required {fields : Fields} (h : requireObject subject v = .ok fields) :
    v = .object fields := by
  cases v with
  | object fields' => cases h; rfl
  | null | bool | int | float | string | array => cases h

theorem requireObject_refuses : Refuses (requireObject subject v) := by
  cases v <;> first | exact .ok _ | exact unmet_refuses _ _

theorem requireList_refuses : Refuses (requireList subject v) := by
  cases v <;> first | exact .ok _ | exact unmet_refuses _ _

theorem requireText_refuses : Refuses (requireText subject v) := by
  unfold requireText
  split
  · split
    · exact unmet_refuses _ _
    · exact .ok _
  · exact unmet_refuses _ _

theorem optionalText_refuses : Refuses (optionalText subject v) := by
  cases v <;> first | exact .ok _ | exact unmet_refuses _ _

theorem textOr_refuses (stand : String) : Refuses (textOr stand subject v) :=
  (optionalText_refuses subject v).map _

theorem requirePositive_refuses : Refuses (requirePositive subject v) := by
  unfold requirePositive
  split
  · split
    · exact .ok _
    · exact unmet_refuses _ _
  · exact unmet_refuses _ _

theorem requireBool_refuses : Refuses (requireBool subject v) := by
  cases v <;> first | exact .ok _ | exact unmet_refuses _ _

theorem requireScalar_refuses : Refuses (requireScalar subject v) := by
  unfold requireScalar
  split
  · exact .ok _
  · exact unmet_refuses _ _

theorem requireDuration_refuses : Refuses (requireDuration subject v) := by
  unfold requireDuration
  split
  · split
    · exact unmet_refuses _ _
    · exact .ok _
  · split
    · exact unmet_refuses _ _
    · exact .ok _
  · exact unmet_refuses _ _

theorem optionalObject_refuses (name : String) : Refuses (optionalObject subject data name) := by
  unfold optionalObject
  split
  · exact .ok _
  · exact requireObject_refuses _ _

/-! ## Nodes -/

theorem dialogue_refuses : Refuses (Dialogue.ofFields subject data) :=
  (textOr_refuses _ _ _).bind fun _ => (textOr_refuses _ _ _).bind fun _ =>
    (optionalText_refuses _ _).bind fun _ => (optionalText_refuses _ _).bind fun _ =>
      (optionalText_refuses _ _).bind fun _ => .pure _

theorem choice_refuses : Refuses (Choice.ofFields subject data) := by
  have options (v : Value) : Refuses (readOptions (.part subject "options") v) := by
    unfold readOptions
    split
    · split
      · exact .ok _
      · exact unmet_refuses _ _
    · exact unmet_refuses _ _
  exact (options _).bind fun _ => (textOr_refuses _ _ _).bind fun _ => .pure _

theorem item_refuses : Refuses (ItemChange.ofFields subject data) := by
  have action (v : Value) : Refuses (readAction (.part subject "action") v) := by
    unfold readAction
    split <;> first | exact .ok _ | exact unmet_refuses _ _
  exact (action _).bind fun _ => (requireText_refuses _ _).bind fun _ =>
    (requirePositive_refuses _ _).bind fun _ => .pure _

theorem trigger_refuses : Refuses (Trigger.ofFields subject data) :=
  (optionalObject_refuses _ _ _).bind fun _ => (requireText_refuses _ _).bind fun _ => .pure _

theorem readTarget_refuses : Refuses (readTarget subject data) := by
  unfold readTarget
  split
  · exact (requireText_refuses _ _).bind fun _ => .pure _
  · exact (requireText_refuses _ _).bind fun _ => .pure _

theorem condition_refuses : Refuses (Condition.ofFields subject data) := by
  have check (v : Value) : Refuses (readCheck (.part subject "checkType") v) := by
    unfold readCheck
    split <;> first | exact .ok _ | exact unmet_refuses _ _
  exact (check _).bind fun _ => (readTarget_refuses _ _).bind fun _ =>
    (requireScalar_refuses _ _).bind fun _ => (requirePositive_refuses _ _).bind fun _ => .pure _

theorem combat_refuses : Refuses (readOpponent subject data) :=
  (requireObject_refuses _ _).bind fun _ => .pure _

theorem link_refuses : Refuses (Link.ofFields subject data) :=
  (requireBool_refuses _ _).bind fun _ => (requireText_refuses _ _).bind fun _ => .pure _

end Requirements

/-- The data of an image are right, but for a duration that is an integer beyond the floating-point
numbers. -/
structure Image.Overruns (data : Fields) : Prop where
  duration : ∃ i, fieldOr data "duration" (.int 3) = .int i ∧ 0 ≤ i ∧ Binary64.ofInt? i = none
  path : Value.field data "path" = .null ∨ ∃ path, Value.field data "path" = .string path

theorem optionalText_eq_ok_iff {subject : Subject} {v : Value} :
    (∃ text, optionalText subject v = .ok text) ↔ v = .null ∨ ∃ text, v = .string text := by
  constructor
  · rintro ⟨text, h⟩
    cases v with
    | null => exact .inl rfl
    | string s => exact .inr ⟨s, rfl⟩
    | bool | int | float | array | object => cases h
  · rintro (rfl | ⟨s, rfl⟩)
    · exact ⟨none, rfl⟩
    · exact ⟨some s, rfl⟩

theorem textOr_eq_ok_iff {stand : String} {subject : Subject} {v : Value} :
    (∃ text, textOr stand subject v = .ok text) ↔ v = .null ∨ ∃ text, v = .string text := by
  refine Iff.trans ?_ (optionalText_eq_ok_iff : (∃ text, optionalText subject v = .ok text) ↔ _)
  constructor
  · rintro ⟨text, h⟩
    unfold textOr at h
    cases given : optionalText subject v with
    | ok text => exact ⟨text, rfl⟩
    | error f => rw [given] at h; cases h
  · rintro ⟨text, h⟩
    exact ⟨text.getD stand, by rw [textOr, h]; rfl⟩

theorem floatOf_eq_error_iff {n : Number} {f : Fault} :
    floatOf n = .error f ↔ f = .tooLarge ∧ n.toFloat? = none := by
  unfold floatOf inRange
  split
  case h_1 h => simp [h]
  case h_2 h => simp [h, eq_comm]

/-- **An image is refused, or it overruns.** -/
theorem image_eq_error_iff {subject : Subject} {data : Fields} {f : Fault} (hf : f.isRefusal = false) :
    Image.ofFields subject data = .error f ↔ f = .tooLarge ∧ Image.Overruns data := by
  constructor
  · intro h
    rcases bind_eq_error_iff.1 h with h | ⟨given, hgiven, h⟩
    · exact absurd h ((requireDuration_refuses _ _).ne_error hf)
    rcases bind_eq_error_iff.1 h with h | ⟨path, hpath, h⟩
    · exact absurd h ((textOr_refuses _ _ _).ne_error hf)
    rcases bind_eq_error_iff.1 h with h | ⟨seconds, -, h⟩
    · obtain ⟨rfl, none⟩ := floatOf_eq_error_iff.1 h
      refine ⟨rfl, ?_, textOr_eq_ok_iff.1 ⟨path, hpath⟩⟩
      unfold requireDuration at hgiven
      split at hgiven
      case h_1 i hi =>
        split at hgiven
        · cases hgiven
        case isFalse notNegative =>
          cases hgiven
          exact ⟨i, hi, by omega, none⟩
      case h_2 x hx =>
        split at hgiven
        · cases hgiven
        · cases hgiven
          cases none
      case h_3 => cases hgiven
    · cases h
  · rintro ⟨rfl, ⟨i, hi, notNegative, none⟩, path⟩
    obtain ⟨path, hpath⟩ : ∃ p, textOr "" (.part subject "path") (Value.field data "path") = .ok p :=
      textOr_eq_ok_iff.2 path
    have given : requireDuration (.part subject "duration") (fieldOr data "duration" (.int 3)) =
        .ok (.int i) := by
      rw [hi, requireDuration, if_neg (by omega)]
    have seconds : floatOf (.int i) = .error .tooLarge := floatOf_eq_error_iff.2 ⟨rfl, none⟩
    rw [Image.ofFields, given]
    exact bind_eq_error_iff.2 (.inr ⟨.int i, rfl,
      bind_eq_error_iff.2 (.inr ⟨path, hpath, bind_eq_error_iff.2 (.inl seconds)⟩)⟩)

/-- A value is an id: a text, or an integer that is not too long. -/
def Json.Value.IsId (v : Value) : Prop := (∃ s, v = .string s) ∨ ∃ i : Int, v = .int i ∧ isShort i.natAbs

/-- A value is an integer that is too long for an id. -/
def Json.Value.IsLong (v : Value) : Prop := ∃ i : Int, v = .int i ∧ isShort i.natAbs = false

theorem requireId_eq_ok_iff {subject : Subject} {v : Value} :
    (∃ id, requireId subject v = .ok id) ↔ v.IsId := by
  constructor
  · rintro ⟨id, h⟩
    cases v with
    | string s => exact .inl ⟨s, rfl⟩
    | int i =>
      rw [requireId] at h
      split at h
      case isTrue short => exact .inr ⟨i, rfl, short⟩
      case isFalse => cases h
    | null | bool | float | array | object => cases h
  · rintro (⟨s, rfl⟩ | ⟨i, rfl, short⟩)
    · exact ⟨s, rfl⟩
    · exact ⟨intText i, if_pos short⟩

/-- **An id is refused, or it is too long.** -/
theorem requireId_eq_error_iff {subject : Subject} {v : Value} {f : Fault} (hf : f.isRefusal = false) :
    requireId subject v = .error f ↔ f = .badNumeral .unwritable ∧ v.IsLong := by
  constructor
  · intro h
    cases v with
    | string => cases h
    | int i =>
      rw [requireId] at h
      split at h
      case isTrue => cases h
      case isFalse long =>
        cases h
        exact ⟨rfl, i, rfl, by simpa using long⟩
    | null | bool | float | array | object => exact absurd h (unmet_ne_error hf)
  · rintro ⟨rfl, i, rfl, long⟩
    exact if_neg (by simp [long])

/-- A node is an image that is right but for a duration that is too large. -/
structure Node.Overruns (v : Value) : Prop where
  image : ∃ fields data : Fields, v = .object fields ∧ (Value.field fields "id").IsId ∧
    Value.field fields "type" = .string "image" ∧ Value.field fields "data" = .object data ∧
    Image.Overruns data

theorem NodeBody.eq_error_iff {id : String} {kind : Value} {data : Fields} {f : Fault}
    (hf : f.isRefusal = false) :
    NodeBody.ofFields id kind data = .error f ↔
      f = .tooLarge ∧ kind = .string "image" ∧ Image.Overruns data := by
  have refused {α β : Type} {x : Except Fault α} {g : α → β} (h : Refuses x) : g <$> x ≠ .error f := by
    apply (h.map g).ne
    rw [hf]
    exact Bool.false_ne_true
  unfold NodeBody.ofFields
  dsimp only
  split
  case h_1 => simpa using refused (dialogue_refuses _ _)
  case h_2 => simpa using refused (choice_refuses _ _)
  case h_3 => rw [map_eq_error_iff, image_eq_error_iff hf]; simp
  case h_4 => simpa using refused (item_refuses _ _)
  case h_5 => simpa using refused (trigger_refuses _ _)
  case h_6 => simpa using refused (condition_refuses _ _)
  case h_7 => simpa using refused (combat_refuses _ _)
  case h_8 => simpa using refused (link_refuses _ _)
  case h_9 => simp
  case h_10 =>
    constructor
    · intro h
      cases h
      cases hf
    · rintro ⟨-, rfl, -⟩
      rename_i other _ _ _ _ _ _
      exact absurd rfl other

/-- A node escapes being read and being refused: its id is too long, or its duration too large. -/
inductive Node.Escapes (v : Value) : Fault → Prop
  | id {fields : Fields} (object : v = .object fields) (long : (Value.field fields "id").IsLong) :
      Escapes v (.badNumeral .unwritable)
  | duration (overruns : Node.Overruns v) : Escapes v .tooLarge

/-- **A node is refused, or it escapes.** -/
theorem Node.eq_error_iff {subject : Subject} {v : Value} {f : Fault} (hf : f.isRefusal = false) :
    Node.ofValue subject v = .error f ↔ Node.Escapes v f := by
  constructor
  · intro h
    rcases bind_eq_error_iff.1 h with h | ⟨fields, hfields, h⟩
    · exact absurd h ((requireObject_refuses _ _).ne_error hf)
    have object := eq_object_of_required hfields
    rcases bind_eq_error_iff.1 h with h | ⟨id, hid, h⟩
    · obtain ⟨rfl, long⟩ := (requireId_eq_error_iff hf).1 h
      exact .id object long
    rcases bind_eq_error_iff.1 h with h | ⟨data, hdata, h⟩
    · exact absurd h ((optionalObject_refuses _ _ _).ne_error hf)
    rcases bind_eq_error_iff.1 h with h | ⟨body, -, h⟩
    · obtain ⟨rfl, kind, overruns⟩ := (NodeBody.eq_error_iff hf).1 h
      refine .duration ⟨fields, data, object, requireId_eq_ok_iff.1 ⟨id, hid⟩, kind, ?_, overruns⟩
      unfold optionalObject at hdata
      cases hd : Value.field fields "data" with
      | null =>
        -- Without data an image has its usual duration.
        rw [hd] at hdata
        cases hdata
        obtain ⟨i, hi, -, none⟩ := overruns.duration
        cases hi
        exact absurd none (by decide +kernel)
      | object data' => rw [hd] at hdata; cases hdata; rfl
      | bool | int | float | string | array => rw [hd] at hdata; cases hdata
    · cases h
  · intro escapes
    cases escapes with
    | @id fields object long =>
      subst object
      have fails : requireId (.part subject "id") (Value.field fields "id") = .error (.badNumeral .unwritable) :=
        (requireId_eq_error_iff hf).2 ⟨rfl, long⟩
      exact bind_eq_error_iff.2 (.inr ⟨fields, rfl, bind_eq_error_iff.2 (.inl fails)⟩)
    | duration overruns =>
      obtain ⟨fields, data, rfl, hid, kind, hdata, overruns⟩ := overruns
      obtain ⟨id, hid⟩ : ∃ id, requireId (.part subject "id") (Value.field fields "id") = .ok id :=
        requireId_eq_ok_iff.2 hid
      have given : optionalObject (.part subject "data") fields "data" = .ok data := by
        rw [optionalObject, hdata]
        rfl
      have body : NodeBody.ofFields id (Value.field fields "type") data = .error .tooLarge :=
        (NodeBody.eq_error_iff hf).2 ⟨rfl, kind, overruns⟩
      exact bind_eq_error_iff.2 (.inr ⟨fields, rfl, bind_eq_error_iff.2 (.inr ⟨id, hid,
        bind_eq_error_iff.2 (.inr ⟨data, given, bind_eq_error_iff.2 (.inl body)⟩)⟩)⟩)

/-! ## Connections -/

/-- A connection is right, but for a handle that ends in digits from which no number is read. -/
structure Connection.Miscounts (v : Value) (digits : String) : Prop where
  handle : ∃ fields : Fields, v = .object fields ∧ (firstPresent fields sourceNames).IsId ∧
    (firstPresent fields targetNames).IsId ∧ fields.get? "outputIndex" = none ∧
    Value.field fields "sourceHandle" = .string (outputPrefix ++ digits)
  counts : Text.isDigits digits
  noNumber : Text.natural? digits = none

theorem readHandle_eq_error_iff {subject : Subject} {v : Value} {f : Fault} (hf : f.isRefusal = false) :
    readHandle subject v = .error f ↔
      ∃ digits, f = .badNumeral (.unreadable digits) ∧ v = .string (outputPrefix ++ digits) ∧ Text.isDigits digits ∧
        Text.natural? digits = none := by
  unfold readHandle
  split
  case h_1 => simp
  case h_2 s =>
    have suffix (digits : String) :
        String.ofList ((outputPrefix ++ digits).toList.drop outputPrefix.length) = digits := by
      rw [String.toList_append, ← String.length_toList, List.drop_left, String.ofList_toList]
    dsimp only
    split
    case isTrue named =>
      rw [Bool.and_eq_true, List.isPrefixOf_iff_prefix] at named
      obtain ⟨⟨rest, hrest⟩, digits⟩ := named
      obtain rfl : s = outputPrefix ++ String.ofList rest := by
        rw [← String.toList_inj, String.toList_append, String.toList_ofList, hrest]
      rw [suffix] at digits ⊢
      split
      case h_1 n hn =>
        constructor
        · intro h
          cases h
        · rintro ⟨digits', -, same, -, none⟩
          have same : String.ofList rest = digits' := by simpa using same
          rw [← same, hn] at none
          cases none
      case h_2 hn =>
        constructor
        · intro h
          cases h
          exact ⟨_, rfl, rfl, digits, hn⟩
        · rintro ⟨digits', rfl, same, -, -⟩
          have same : String.ofList rest = digits' := by simpa using same
          rw [same]
    case isFalse named =>
      constructor
      · intro h
        exact absurd h (unmet_ne_error hf)
      · rintro ⟨digits, -, same, hd, -⟩
        cases same
        apply absurd _ named
        rw [suffix, Bool.and_eq_true, List.isPrefixOf_iff_prefix, String.toList_append]
        exact ⟨List.prefix_append _ _, hd⟩
  case h_3 =>
    constructor
    · intro h
      exact absurd h (unmet_ne_error hf)
    · rintro ⟨digits, -, rfl, -⟩
      rename_i other
      exact absurd rfl (other _)

theorem readOutput_eq_error_iff {subject : Subject} {fields : Fields} {f : Fault}
    (hf : f.isRefusal = false) :
    readOutput subject fields = .error f ↔
      ∃ digits, f = .badNumeral (.unreadable digits) ∧ fields.get? "outputIndex" = none ∧
        Value.field fields "sourceHandle" = .string (outputPrefix ++ digits) ∧ Text.isDigits digits ∧
        Text.natural? digits = none := by
  unfold readOutput
  split
  case h_1 i hi =>
    have given : (if i < 0 then unmet (.part subject "outputIndex") .nonNegativeInteger else .ok i) ≠
        .error f := by
      split
      · exact unmet_ne_error hf
      · exact nofun
    simp [given, hi]
  case h_2 h => simp [unmet_ne_error hf, h]
  case h_3 h => simp [readHandle_eq_error_iff hf, h]

/-- A connection escapes being read and being refused: the id it starts at is too long, or, if that is
right, the id it leads to, or, if both are right, it miscounts. -/
inductive Connection.Escapes (v : Value) : Fault → Prop
  | source {fields : Fields} (object : v = .object fields)
      (long : (firstPresent fields sourceNames).IsLong) : Escapes v (.badNumeral .unwritable)
  | target {fields : Fields} (object : v = .object fields) (source : (firstPresent fields sourceNames).IsId)
      (long : (firstPresent fields targetNames).IsLong) : Escapes v (.badNumeral .unwritable)
  | handle {digits : String} (miscounts : Connection.Miscounts v digits) :
      Escapes v (.badNumeral (.unreadable digits))

/-- **A connection is refused, or it escapes.** -/
theorem Connection.eq_error_iff {subject : Subject} {v : Value} {f : Fault} (hf : f.isRefusal = false) :
    Connection.ofValue subject v = .error f ↔ Connection.Escapes v f := by
  constructor
  · intro h
    rcases bind_eq_error_iff.1 h with h | ⟨fields, hfields, h⟩
    · exact absurd h ((requireObject_refuses _ _).ne_error hf)
    have object := eq_object_of_required hfields
    rcases bind_eq_error_iff.1 h with h | ⟨source, hsource, h⟩
    · obtain ⟨rfl, long⟩ := (requireId_eq_error_iff hf).1 h
      exact .source object long
    have source := requireId_eq_ok_iff.1 ⟨source, hsource⟩
    rcases bind_eq_error_iff.1 h with h | ⟨target, htarget, h⟩
    · obtain ⟨rfl, long⟩ := (requireId_eq_error_iff hf).1 h
      exact .target object source long
    rcases bind_eq_error_iff.1 h with h | ⟨output, -, h⟩
    · obtain ⟨digits, rfl, none, handle, hd, noNumber⟩ := (readOutput_eq_error_iff hf).1 h
      exact .handle ⟨⟨fields, object, source, requireId_eq_ok_iff.1 ⟨target, htarget⟩, none, handle⟩, hd,
        noNumber⟩
    · cases h
  · intro escapes
    cases escapes with
    | @source fields object long =>
      subst object
      have fails : requireId (.part subject "fromId") (firstPresent fields sourceNames) =
          .error (.badNumeral .unwritable) := (requireId_eq_error_iff hf).2 ⟨rfl, long⟩
      exact bind_eq_error_iff.2 (.inr ⟨fields, rfl, bind_eq_error_iff.2 (.inl fails)⟩)
    | @target fields object source long =>
      subst object
      obtain ⟨source, hsource⟩ : ∃ id,
          requireId (.part subject "fromId") (firstPresent fields sourceNames) = .ok id :=
        requireId_eq_ok_iff.2 source
      have fails : requireId (.part subject "toId") (firstPresent fields targetNames) =
          .error (.badNumeral .unwritable) := (requireId_eq_error_iff hf).2 ⟨rfl, long⟩
      exact bind_eq_error_iff.2 (.inr ⟨fields, rfl, bind_eq_error_iff.2 (.inr ⟨source, hsource,
        bind_eq_error_iff.2 (.inl fails)⟩)⟩)
    | @handle digits miscounts =>
      obtain ⟨⟨fields, rfl, source, target, none, handle⟩, hd, noNumber⟩ := miscounts
      obtain ⟨source, hsource⟩ : ∃ id,
          requireId (.part subject "fromId") (firstPresent fields sourceNames) = .ok id :=
        requireId_eq_ok_iff.2 source
      obtain ⟨target, htarget⟩ : ∃ id,
          requireId (.part subject "toId") (firstPresent fields targetNames) = .ok id :=
        requireId_eq_ok_iff.2 target
      have output : readOutput subject fields = .error (.badNumeral (.unreadable digits)) :=
        (readOutput_eq_error_iff hf).2 ⟨digits, rfl, none, handle, hd, noNumber⟩
      exact bind_eq_error_iff.2 (.inr ⟨fields, rfl, bind_eq_error_iff.2 (.inr ⟨source, hsource,
        bind_eq_error_iff.2 (.inr ⟨target, htarget, bind_eq_error_iff.2 (.inl output)⟩)⟩)⟩)

/-! ## Scripts -/

/-- **The first fault counts**: what comes before it is read, and what comes after it does not matter. -/
theorem readEach_eq_error_iff {α : Type} {read : Subject → Value → Except Fault α} {list : Subject}
    {f : Fault} {index : Nat} {vs : List Value} :
    readEach read list index vs = .error f ↔
      ∃ good bad later, vs = good ++ bad :: later ∧ (∃ as, readEach read list index good = .ok as) ∧
        read (.item list (index + good.length)) bad = .error f := by
  induction vs generalizing index with
  | nil =>
    constructor
    · intro h
      cases h
    · rintro ⟨good, bad, later, split, -⟩
      simp at split
  | cons v vs ih =>
    constructor
    · intro h
      rcases bind_eq_error_iff.1 h with h | ⟨a, ha, h⟩
      · exact ⟨[], v, vs, rfl, ⟨[], rfl⟩, h⟩
      rcases bind_eq_error_iff.1 h with h | ⟨as, -, h⟩
      · obtain ⟨good, bad, later, rfl, ⟨as, has⟩, hbad⟩ := ih.1 h
        refine ⟨v :: good, bad, later, rfl, ⟨a :: as, ?_⟩, ?_⟩
        · rw [readEach, ha, ok_bind, has]
          rfl
        · rw [List.length_cons, Nat.add_comm good.length, ← Nat.add_assoc]
          exact hbad
      · cases h
    · rintro ⟨good, bad, later, split, ⟨as, has⟩, hbad⟩
      cases good with
      | nil =>
        cases split
        exact bind_eq_error_iff.2 (.inl hbad)
      | cons w good =>
        cases split
        rw [List.length_cons, Nat.add_comm good.length, ← Nat.add_assoc] at hbad
        cases ha : read (.item list index) v with
        | error g => rw [readEach, ha] at has; cases has
        | ok a =>
          rw [readEach, ha, ok_bind] at has
          cases hr : readEach read list (index + 1) good with
          | error g => rw [hr] at has; cases has
          | ok as' =>
            have later := ih.2 ⟨good, bad, later, rfl, ⟨as', hr⟩, hbad⟩
            exact bind_eq_error_iff.2 (.inr ⟨a, ha, bind_eq_error_iff.2 (.inl later)⟩)

namespace Script

/-- The values of a script's nodes and connections. -/
structure Lists (v : Value) (nodes connections : List Value) : Prop where
  fields : ∃ fields : Fields, v = .object fields ∧ fieldOr fields "nodes" (.array []) = .array nodes ∧
    fieldOr fields "connections" (.array []) = .array connections

/-- The nodes of the script of an id are read. -/
def ReadsNodes (id : String) (vs : List Value) : Prop :=
  ∃ nodes, readEach Node.ofValue (.part (.script id) "nodes") 0 vs = .ok nodes

/-- The connections of the script of an id are read. -/
def ReadsConnections (id : String) (vs : List Value) : Prop :=
  ∃ connections, readEach Connection.ofValue (.part (.script id) "connections") 0 vs = .ok connections

/-- **A script escapes** being read and being refused: of its first fault more is expected than is
required. -/
inductive Escapes (id : String) (v : Value) : Fault → Prop
  | node {nodes connections good later : List Value} {bad : Value} {f : Fault}
      (lists : Lists v nodes connections) (split : nodes = good ++ bad :: later) (before : ReadsNodes id good)
      (escapes : Node.Escapes bad f) : Escapes id v f
  | connection {nodes connections good later : List Value} {bad : Value} {f : Fault}
      (lists : Lists v nodes connections) (whole : ReadsNodes id nodes)
      (split : connections = good ++ bad :: later) (before : ReadsConnections id good)
      (escapes : Connection.Escapes bad f) : Escapes id v f

variable {id : String} {v : Value} {f : Fault}

theorem Escapes.not_isRefusal (h : Escapes id v f) : f.isRefusal = false := by
  cases h with
  | node _ _ _ escapes | connection _ _ _ _ escapes => cases escapes <;> rfl

theorem lists_of_required {fields : Fields} {nodes connections : List Value} {a b : Subject}
    (hnodes : requireList a (fieldOr fields "nodes" (.array [])) = .ok nodes)
    (hconnections : requireList b (fieldOr fields "connections" (.array [])) = .ok connections) :
    Lists (.object fields) nodes connections := by
  have list {subject : Subject} {w : Value} {items : List Value} (h : requireList subject w = .ok items) :
      w = .array items := by
    cases w with
    | array items' => cases h; rfl
    | null | bool | int | float | string | object => cases h
  exact ⟨fields, rfl, list hnodes, list hconnections⟩

/-- **A script is refused, or it escapes.** -/
theorem eq_error_iff (hf : f.isRefusal = false) : Script.ofValue id v = .error f ↔ Escapes id v f := by
  constructor
  · intro h
    obtain ⟨fields, rfl⟩ : ∃ fields, v = .object fields := by
      cases v with
      | object fields => exact ⟨fields, rfl⟩
      | null | bool | int | float | string | array => cases h; cases hf
    rw [ofValue, requireObject, ok_bind] at h
    rcases bind_eq_error_iff.1 h with h | ⟨rawNodes, hnodes, h⟩
    · exact absurd h ((requireList_refuses _ _).ne_error hf)
    rcases bind_eq_error_iff.1 h with h | ⟨rawConnections, hconnections, h⟩
    · exact absurd h ((requireList_refuses _ _).ne_error hf)
    have lists := lists_of_required hnodes hconnections
    rcases bind_eq_error_iff.1 h with h | ⟨nodes, whole, h⟩
    · obtain ⟨good, bad, later, split, before, hbad⟩ := readEach_eq_error_iff.1 h
      exact .node lists split before ((Node.eq_error_iff hf).1 hbad)
    rcases bind_eq_error_iff.1 h with h | ⟨connections, -, h⟩
    · obtain ⟨good, bad, later, split, before, hbad⟩ := readEach_eq_error_iff.1 h
      exact .connection lists ⟨nodes, whole⟩ split before ((Connection.eq_error_iff hf).1 hbad)
    · cases h
  · intro h
    have lists {nodes connections : List Value} (lists : Lists v nodes connections) :
        Script.ofValue id v = (do
          let nodes ← readEach Node.ofValue (.part (.script id) "nodes") 0 nodes
          let connections ← readEach Connection.ofValue (.part (.script id) "connections") 0 connections
          return { id, nodes, connections }) := by
      obtain ⟨fields, rfl, hnodes, hconnections⟩ := lists
      rw [Script.ofValue, requireObject, ok_bind, hnodes, requireList, ok_bind, hconnections,
        requireList, ok_bind]
    cases h with
    | node listed split before escapes =>
      rw [lists listed]
      exact bind_eq_error_iff.2 (.inl (readEach_eq_error_iff.2
        ⟨_, _, _, split, before, (Node.eq_error_iff hf).2 escapes⟩))
    | connection listed whole split before escapes =>
      rw [lists listed]
      obtain ⟨nodes, hnodes⟩ := whole
      exact bind_eq_error_iff.2 (.inr ⟨nodes, hnodes, bind_eq_error_iff.2 (.inl (readEach_eq_error_iff.2
        ⟨_, _, _, split, before, (Connection.eq_error_iff hf).2 escapes⟩))⟩)

end Script

/-! ## Files -/

theorem loadJson_of_text {files : FileTree} {path : Path} {text : String}
    (h : files.readText path = .ok text) :
    loadJson files path = match Json.read text with
      | .ok v => .ok v
      | .error e => .error (.data (.notJson path e)) := by
  cases hv : Json.read text <;> simp only [loadJson, h, hv]

/-- **A file that holds a text is looked through**, unless it holds a script that escapes. -/
theorem fileIssues_eq_error_iff {files : FileTree} {path : Path} {text : String} {f : Fault}
    (h : files.readText path = .ok text) :
    Library.fileIssues files path = .error f ↔
      ∃ v, Json.read text = .ok v ∧ Script.Escapes path.stem v f := by
  rw [Library.fileIssues, loadJson_of_text h]
  cases hv : Json.read text with
  | error e =>
    constructor
    · intro hi
      cases hi
    · rintro ⟨v, hv, -⟩
      cases hv
  | ok v =>
    rw [ok_bind]
    constructor
    · intro hi
      split at hi
      case h_1 => cases hi
      case h_2 => cases hi
      case h_3 g other he =>
        cases hi
        refine ⟨v, rfl, (Script.eq_error_iff ?_).1 he⟩
        cases f with
        | data e => exact absurd rfl (other e)
        | _ => rfl
    · rintro ⟨w, hw, escapes⟩
      cases hw
      rw [(Script.eq_error_iff escapes.not_isRefusal).2 escapes]
      cases escapes with
      | node _ _ _ escapes | connection _ _ _ _ escapes => cases escapes <;> rfl

/-- **Malformed scripts are refused, unless they escape.**  Whatever value a script is read from, it is
read, or refused with a requirement that is not met or with a kind that is not known, or else it escapes;
and one that escapes is neither read nor refused.  So the issues of a file that holds a text are found
just if it holds no script that escapes. -/
theorem malformed_refused_iff (id : String) (v : Value) (files : FileTree) (path : Path) (text : String) :
    (∀ f, Script.ofValue id v = .error f → f.isRefusal = true ∨ Script.Escapes id v f) ∧
      (∀ f, Script.Escapes id v f → Script.ofValue id v = .error f ∧ f.isRefusal = false) ∧
      (files.readText path = .ok text →
        ((∃ issues, Library.fileIssues files path = .ok issues) ↔
          ∀ v f, Json.read text = .ok v → ¬Script.Escapes path.stem v f)) := by
  refine ⟨fun f h => ?_, fun f h => ?_, fun h => ?_⟩
  · cases hf : f.isRefusal with
    | true => exact .inl rfl
    | false => exact .inr ((Script.eq_error_iff hf).1 h)
  · exact ⟨(Script.eq_error_iff h.not_isRefusal).2 h, h.not_isRefusal⟩
  · constructor
    · rintro ⟨issues, hi⟩ v f hv escapes
      cases hi.symm.trans ((fileIssues_eq_error_iff h).2 ⟨v, hv, escapes⟩)
    · intro none
      cases hi : Library.fileIssues files path with
      | ok issues => exact ⟨issues, rfl⟩
      | error f =>
        obtain ⟨v, hv, escapes⟩ := (fileIssues_eq_error_iff h).1 hi
        exact absurd escapes (none v f hv)

/-! ### A superscript -/

theorem ok_of_toOption {ε α : Type} {x : Except ε α} {a : α} (h : x.toOption = some a) : x = .ok a := by
  cases x with
  | error e => cases h
  | ok b => exact congrArg Except.ok (Option.some.inj h)

/-- Nodes that are no list. -/
def threeText : String := "\x7b\"nodes\": 3\x7d"

/-- A connection that has a superscript for a number. -/
def squaredText : String :=
  "\x7b\"connections\":[\x7b\"from\":\"a\",\"to\":\"b\",\"sourceHandle\":\"output_²\"\x7d]\x7d"

/-- A library with these two scripts. -/
def riddles : FileTree :=
  (((FileTree.empty []).store ["scripts"] .directory).store ["scripts", "three.json"]
    (.file (Utf8.encode threeText.toList))).store ["scripts", "squared.json"]
      (.file (Utf8.encode squaredText.toList))

/-- The first script is refused, and that is its issue. -/
theorem three_refused :
    (∃ f, Script.ofValue "three" (.object [("nodes", .int 3)]) = .error f ∧ f.isRefusal = true) ∧
      riddles.readText (.ofString "scripts/three.json") = .ok threeText ∧
      ∃ issues, Library.fileIssues riddles (.ofString "scripts/three.json") = .ok issues := by
  have text : riddles.readText (.ofString "scripts/three.json") = .ok threeText :=
    ok_of_toOption (by decide +kernel)
  have value : Json.read threeText = .ok (.object [("nodes", .int 3)]) := ok_of_toOption (by decide +kernel)
  have still (id : String) (f : Fault) : ¬Script.Escapes id (.object [("nodes", .int 3)]) f := by
    intro escapes
    have lists {nodes connections : List Value} :
        ¬Script.Lists (.object [("nodes", .int 3)]) nodes connections := by
      rintro ⟨fields, same, list, -⟩
      cases same
      cases list
    cases escapes with
    | node listed => exact lists listed
    | connection listed => exact lists listed
  obtain ⟨refused, -, found⟩ := malformed_refused_iff "three" (.object [("nodes", .int 3)]) riddles
    (.ofString "scripts/three.json") threeText
  refine ⟨⟨_, rfl, (refused _ rfl).resolve_right (still _ _)⟩, text, (found text).2 ?_⟩
  intro v f hv escapes
  cases value.symm.trans hv
  exact still _ _ escapes

/-- **A superscript for a number, and a duration that is too large, are not refused**: the reading fails
by a fault that is none of the data, and so does the looking through of a file that holds a text. -/
theorem squared_not_refused :
    let squared : Value := .object [("connections", .array [.object [("from", .string "a"),
      ("to", .string "b"), ("sourceHandle", .string "output_²")]])]
    let lasting : Value := .object [("nodes", .array [.object [("id", .string "i"),
      ("type", .string "image"), ("data", .object [("duration", .int (10 ^ 400))])]])]
    Script.ofValue "squared" squared = .error (.badNumeral (.unreadable "²")) ∧
      Script.ofValue "lasting" lasting = .error .tooLarge ∧
      riddles.readText (.ofString "scripts/squared.json") = .ok squaredText ∧
      Library.fileIssues riddles (.ofString "scripts/squared.json") = .error (.badNumeral (.unreadable "²")) ∧
      Fault.isRefusal (.badNumeral (.unreadable "²")) = false ∧ Fault.isRefusal .tooLarge = false := by
  intro squared lasting
  have fails : Script.ofValue "squared" squared = .error (.badNumeral (.unreadable "²")) := by rfl
  have longest : Image.Overruns [("duration", .int (10 ^ 400))] :=
    ⟨⟨_, rfl, by decide +kernel, by decide +kernel⟩, .inl rfl⟩
  have overruns : Script.Escapes "lasting" lasting .tooLarge :=
    .node ⟨_, rfl, rfl, rfl⟩ (List.nil_append _).symm ⟨[], rfl⟩
      (.duration ⟨_, _, rfl, .inl ⟨"i", rfl⟩, rfl, rfl, longest⟩)
  have text : riddles.readText (.ofString "scripts/squared.json") = .ok squaredText :=
    ok_of_toOption (by decide +kernel)
  have value : Json.read squaredText = .ok squared := ok_of_toOption (by decide +kernel)
  have escapes : Script.Escapes "squared" squared (.badNumeral (.unreadable "²")) := (Script.eq_error_iff rfl).1 fails
  exact ⟨fails, (Script.eq_error_iff rfl).2 overruns, text, (fileIssues_eq_error_iff text).2 ⟨_, value, escapes⟩, rfl, rfl⟩

end Questline

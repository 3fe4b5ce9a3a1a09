import Questline.Proofs.Coherence
import Questline.Proofs.Entries
import Questline.Proofs.Numerals
import Questline.Proofs.Refusals

/-!
# Spellings of a connection

Editors name the ends of a connection under several names, and its output by a number or by a handle.
Of the names of an end the first one counts that is there and not null, whatever stands under those
after it.  An id may be a text or an integer, and an integer is the same id as its decimal notation.  A
handle is `output_` with the decimal notation of the output, and it counts only without a number.

All spellings of a connection are read as that connection, except for those in which a number of more than
`maxDigits` digits would have to be converted: an id that is an integer, or the number of a handle that
counts.  These are not read at all.  So a script in which some of the others are put for each other is read
as the same script, with the same faults if there are any, and has the same graph.

* `Text.natural?_natText`: decimal notation is read as the number it was written for.
* `Connection.SpelledBy`: the spellings of a connection.
* `Connection.IsShort`: no number of a spelling is too long to be converted.
* `Connection.ofValue_of_spelledBy`, `Connection.ofValue_of_not_isShort`: what becomes of a spelling.
* `spellings_interchangeable`: what this means for scripts and graphs.
-/

namespace Questline

open Json (Value Fields)

/-! ## Decimal notation -/

namespace Text

/-- A digit of the decimal notation has its value. -/
theorem decimalValue?_of_isDigit {c : Char} (h : c.isDigit) : decimalValue? c = some (c.toNat - '0'.toNat) := by
  have bounds : '0'.toNat ≤ c.toNat ∧ c.toNat ≤ '9'.toNat := Char.isDigit_iff_toNat.1 h
  have below : c.toNat < '0'.toNat + 10 := bounds.2.trans_lt (by decide)
  obtain ⟨zeros, hz⟩ : ∃ zeros, digitZeros = '0'.toNat :: zeros := ⟨_, rfl⟩
  simp only [decimalValue?, hz, List.find?_cons, bounds.1, below, decide_true, Bool.and_self, Option.map_some]

theorem mapM_decimalValue? {ds : List Char} (digits : ∀ c ∈ ds, c.isDigit) :
    ds.mapM decimalValue? = some (ds.map fun c => c.toNat - '0'.toNat) := by
  induction ds with
  | nil => rfl
  | cons c ds ih =>
    rw [List.mapM_cons, decimalValue?_of_isDigit (digits c List.mem_cons_self),
      ih fun d hd => digits d (List.mem_cons_of_mem c hd)]
    rfl

/-- **Decimal notation is read** as the number it was written for, unless it is too long. -/
theorem natural?_natText (n : Nat) : natural? (natText n) = if isShort n then some n else none := by
  have some : decimalDigits n ≠ [] := List.length_pos_iff.1 (length_decimalDigits_pos n)
  rw [natural?, natText, String.toList_ofList, isShort]
  by_cases short : (decimalDigits n).length ≤ maxDigits
  · have read : ((decimalDigits n).map fun c => c.toNat - '0'.toNat).foldl (fun n d => 10 * n + d) 0 = n := by
      rw [List.foldl_map]
      exact natOfDigits_decimalDigits n
    rw [if_neg (by simp [some, short]), mapM_decimalValue? fun _ => isDigit_decimalDigits,
      Option.map_some, read, if_pos (by simpa using short)]
  · rw [if_pos (by simp [Nat.lt_of_not_le short]), if_neg (by simpa using short)]

theorem isDigits_natText (n : Nat) : isDigits (natText n) := by
  have some : decimalDigits n ≠ [] := List.length_pos_iff.1 (length_decimalDigits_pos n)
  have digits : (decimalDigits n).all isDigit := by
    rw [List.all_eq_true]
    intro c hc
    rw [isDigit, decimalValue?_of_isDigit (isDigit_decimalDigits hc)]
    rfl
  rw [isDigits, natText, String.toList_ofList, digits]
  simpa using some

end Text

/-- A number is short if it lies below a power of ten. -/
theorem isShort_iff {n : Nat} : isShort n ↔ n < 10 ^ maxDigits := by
  rw [isShort, decide_eq_true_iff]
  exact length_decimalDigits_le_iff (by decide)

/-! ## Spellings -/

/-- A value spells an id: as a text, or as the integer of which the id is the decimal notation. -/
inductive Json.Value.SpellsId : Value → String → Prop
  | text (id : String) : SpellsId (.string id) id
  | number (i : Int) : SpellsId (.int i) (intText i)

/-- Fields name an id under one of the given names.  What stands before that name is absent or null, and
what stands behind it may hold anything. -/
structure Json.Value.NamesId (fields : Fields) (names : List String) (id : String) : Prop where
  named : ∃ before name after v, names = before ++ name :: after ∧
    (∀ earlier ∈ before, fields.get? earlier = none ∨ fields.get? earlier = some .null) ∧
    fields.get? name = some v ∧ v.SpellsId id

/-- Fields name an output: by its number, whatever handle there is, by its handle, or, if it is the first
one, not at all. -/
inductive Json.Value.NamesOutput (fields : Fields) : Nat → Prop
  | index {n : Nat} (index : fields.get? "outputIndex" = some (.int n)) : NamesOutput fields n
  | handle {n : Nat} (index : fields.get? "outputIndex" = none)
      (handle : fields.get? "sourceHandle" = some (.string (outputPrefix ++ natText n))) :
      NamesOutput fields n
  | neither (index : fields.get? "outputIndex" = none)
      (handle : fields.get? "sourceHandle" = none ∨ fields.get? "sourceHandle" = some .null) :
      NamesOutput fields 0

open Json.Value (NamesId NamesOutput)

/-- **The spellings of a connection.** -/
structure Connection.SpelledBy (c : Connection) (fields : Fields) : Prop where
  source : NamesId fields sourceNames c.source
  target : NamesId fields targetNames c.target
  output : ∃ n : Nat, c.output = n ∧ NamesOutput fields n

/-- **No number of a connection is too long to be converted**: neither an integer that is the id of one of
its ends, nor the number of its handle, where the handle counts. -/
structure Connection.IsShort (fields : Fields) : Prop where
  source : ¬(firstPresent fields sourceNames).IsLong
  target : ¬(firstPresent fields targetNames).IsLong
  handle (n : Nat) : fields.get? "outputIndex" = none →
    fields.get? "sourceHandle" = some (.string (outputPrefix ++ natText n)) → isShort n

section

variable {fields : Fields} {names : List String} {id : String} {subject : Subject} {v : Value}
  {c : Connection}

theorem not_isLong_string (s : String) : ¬(Value.string s).IsLong := by
  rintro ⟨i, same, -⟩
  cases same

/-- The first name that is there counts. -/
theorem spellsId_of_namesId (h : NamesId fields names id) : (firstPresent fields names).SpellsId id := by
  obtain ⟨before, name, after, v, rfl, absent, here, spells⟩ := h.named
  have skipped : (before.map (Value.field fields)).find? (· ≠ .null) = none := by
    rw [List.find?_eq_none]
    intro w hw
    obtain ⟨earlier, mem, rfl⟩ := List.mem_map.1 hw
    rcases absent earlier mem with none | null
    · simp [Value.field, none]
    · simp [Value.field, null]
  have field : Value.field fields name = v := by rw [Value.field, here, Option.getD_some]
  have present : v ≠ .null := by cases spells <;> simp
  have first : firstPresent fields (before ++ name :: after) = v := by
    rw [firstPresent, List.map_append, List.find?_append, skipped, Option.none_or, List.map_cons, field,
      List.find?_cons_of_pos (by simpa using present), Option.getD_some]
  rw [first]
  exact spells

theorem isId_of_spellsId (h : v.SpellsId id) (short : ¬v.IsLong) : v.IsId := by
  cases h with
  | text => exact .inl ⟨id, rfl⟩
  | number i => exact .inr ⟨i, rfl, by simpa [Value.IsLong] using short⟩

theorem requireId_of_spellsId (h : v.SpellsId id) (short : ¬v.IsLong) : requireId subject v = .ok id := by
  cases h with
  | text => rfl
  | number i => exact if_pos (by simpa [Value.IsLong] using short)

/-- A handle is read as the output it was written for. -/
theorem readHandle_of_natText {n : Nat} (short : isShort n) :
    readHandle subject (.string (outputPrefix ++ natText n)) = .ok (n : Int) := by
  have suffix : String.ofList ((outputPrefix ++ natText n).toList.drop outputPrefix.length) = natText n := by
    rw [String.toList_append, ← String.length_toList, List.drop_left, String.ofList_toList]
  have begins : outputPrefix.toList.isPrefixOf (outputPrefix ++ natText n).toList := by
    rw [List.isPrefixOf_iff_prefix, String.toList_append]
    exact List.prefix_append _ _
  simp only [readHandle, suffix, begins, Text.isDigits_natText, Bool.and_self, if_true,
    Text.natural?_natText, short]

theorem readOutput_of_namesOutput {n : Nat} (h : NamesOutput fields n) (short : Connection.IsShort fields) :
    readOutput subject fields = .ok (n : Int) := by
  cases h with
  | index index =>
    have natural : ¬(n : Int) < 0 := by omega
    rw [readOutput, index]
    simp only [if_neg natural]
  | handle index handle =>
    rw [readOutput, index]
    simp only [Value.field, handle, Option.getD_some]
    exact readHandle_of_natText (short.handle n index handle)
  | neither index handle =>
    rw [readOutput, index]
    rcases handle with none | null
    · simp only [Value.field, none]
      rfl
    · simp only [Value.field, null]
      rfl

namespace Connection

/-- **Each spelling of a connection is read as that connection**, if no number of it is too long. -/
theorem ofValue_of_spelledBy (h : c.SpelledBy fields) (short : IsShort fields) :
    Connection.ofValue subject (.object fields) = .ok c := by
  obtain ⟨source, target, n, output, leaves⟩ := h
  obtain ⟨_, _, _⟩ := c
  obtain rfl := output
  rw [Connection.ofValue, requireObject, ok_bind, requireId_of_spellsId (spellsId_of_namesId source) short.source,
    ok_bind, requireId_of_spellsId (spellsId_of_namesId target) short.target, ok_bind,
    readOutput_of_namesOutput leaves short]
  rfl

/-- **A spelling with a number that is too long** is not read, and not refused either. -/
theorem ofValue_of_not_isShort (h : c.SpelledBy fields) (long : ¬IsShort fields) :
    ∃ fault, Connection.ofValue subject (.object fields) = .error (.badNumeral fault) := by
  by_cases source : (firstPresent fields sourceNames).IsLong
  · exact ⟨_, (eq_error_iff rfl).2 (.source rfl source)⟩
  have sourceIsId := isId_of_spellsId (spellsId_of_namesId h.source) source
  by_cases target : (firstPresent fields targetNames).IsLong
  · exact ⟨_, (eq_error_iff rfl).2 (.target rfl sourceIsId target)⟩
  have targetIsId := isId_of_spellsId (spellsId_of_namesId h.target) target
  obtain ⟨n, index, handle, long⟩ : ∃ n, fields.get? "outputIndex" = none ∧
      fields.get? "sourceHandle" = some (.string (outputPrefix ++ natText n)) ∧ ¬isShort n := by
    by_contra none
    exact long ⟨source, target, fun n index handle => by_contra fun long => none ⟨n, index, handle, long⟩⟩
  have field : Value.field fields "sourceHandle" = .string (outputPrefix ++ natText n) := by
    rw [Value.field, handle, Option.getD_some]
  have noNumber : Text.natural? (natText n) = none := by rw [Text.natural?_natText, if_neg long]
  exact ⟨_, (eq_error_iff rfl).2 (.handle ⟨⟨fields, rfl, sourceIsId, targetIsId, index, field⟩,
    Text.isDigits_natText n, noNumber⟩)⟩

end Connection

end

/-! ## Scripts -/

/-- Two values are the same, or they spell the same connection with no number that is too long. -/
inductive Connection.Interchangeable : Value → Value → Prop
  | same (v : Value) : Interchangeable v v
  | spellings {c : Connection} {fields others : Fields} (left : c.SpelledBy fields) (right : c.SpelledBy others)
      (leftShort : Connection.IsShort fields) (rightShort : Connection.IsShort others) :
      Interchangeable (.object fields) (.object others)

/-- Interchangeable values are read alike, wherever they stand. -/
theorem Connection.Interchangeable.ofValue_eq {v w : Value} (h : Connection.Interchangeable v w)
    (subject : Subject) : Connection.ofValue subject v = Connection.ofValue subject w := by
  cases h with
  | same => rfl
  | spellings left right leftShort rightShort =>
    rw [ofValue_of_spelledBy left leftShort, ofValue_of_spelledBy right rightShort]

/-- Lists whose values are read alike one by one are read alike. -/
theorem readEach_congr {α : Type} {read : Subject → Value → Except Fault α} {list : Subject}
    {vs ws : List Value} (alike : List.Forall₂ (fun v w => ∀ subject, read subject v = read subject w) vs ws)
    (index : Nat) : readEach read list index vs = readEach read list index ws := by
  induction alike generalizing index with
  | nil => rfl
  | cons same _ ih => rw [readEach, readEach, same, ih]

/-- A field of a script does not hold anything for what is read under another name. -/
theorem fieldOr_put (fields : Fields) (name n : String) (v stand : Value) :
    fieldOr (fields.put name v) n stand = if name = n then v else fieldOr fields n stand := by
  rw [fieldOr, fieldOr, Entries.get?_put]
  split <;> rfl

/-- A script does not change with the values that its connections are read from. -/
theorem Script.ofValue_put_connections (id : String) (fields : Fields) {vs ws : List Value}
    (same : readEach Connection.ofValue (.part (.script id) "connections") 0 vs =
      readEach Connection.ofValue (.part (.script id) "connections") 0 ws) :
    Script.ofValue id (.object (fields.put "connections" (.array vs))) =
      Script.ofValue id (.object (fields.put "connections" (.array ws))) := by
  have nodes (v : Value) : fieldOr (fields.put "connections" v) "nodes" (.array []) =
      fieldOr fields "nodes" (.array []) := by
    rw [fieldOr_put, if_neg (by decide)]
  have connections (v : Value) : fieldOr (fields.put "connections" v) "connections" (.array []) = v := by
    rw [fieldOr_put, if_pos rfl]
  simp only [Script.ofValue, requireObject, nodes, connections, requireList, ok_bind, same]

/-- **Spellings are interchangeable.**  Each spelling of a connection is read as that connection if no number
of it is too long to be converted, and otherwise the reading fails by a fault that is none of the data.  So if
spellings of a script's connections are put for others, and none of them has a number that is too long, the
script is read as it was, and it has the same graph or the same fault. -/
theorem spellings_interchangeable :
    (∀ (subject : Subject) (c : Connection) (fields : Fields), c.SpelledBy fields →
        (Connection.IsShort fields → Connection.ofValue subject (.object fields) = .ok c) ∧
          (¬Connection.IsShort fields →
            ∃ fault, Connection.ofValue subject (.object fields) = .error (.badNumeral fault))) ∧
      ∀ (id : String) (fields : Fields) (vs ws : List Value),
        List.Forall₂ Connection.Interchangeable vs ws →
          Script.ofValue id (.object (fields.put "connections" (.array vs))) =
              Script.ofValue id (.object (fields.put "connections" (.array ws))) ∧
            (Script.ofValue id (.object (fields.put "connections" (.array vs))) >>= Graph.ofScript) =
              (Script.ofValue id (.object (fields.put "connections" (.array ws))) >>= Graph.ofScript) := by
  refine ⟨fun subject c fields h => ⟨Connection.ofValue_of_spelledBy h, Connection.ofValue_of_not_isShort h⟩,
    fun id fields vs ws h => ?_⟩
  have alike : List.Forall₂ (fun v w => ∀ subject, Connection.ofValue subject v = Connection.ofValue subject w)
      vs ws := h.imp fun _ _ interchangeable => interchangeable.ofValue_eq
  have script := Script.ofValue_put_connections id fields (readEach_congr alike 0)
  exact ⟨script, by rw [script]⟩

/-! ### A ferry -/

/-- The way to the far bank. -/
def crossing : Connection := ⟨"1", 1, "1000000000000000000000000"⟩

/-- That way with numbers for its ends and a handle. -/
def crossingByHandle : Fields :=
  [("fromNodeId", .null), ("sourceId", .int 1), ("from", .bool true),
    ("toId", .int 1000000000000000000000000), ("targetId", .array []), ("sourceHandle", .string "output_1")]

/-- That way with texts for its ends and a number. -/
def crossingByIndex : Fields :=
  [("from", .string "1"), ("to", .string "1000000000000000000000000"), ("outputIndex", .int 1),
    ("sourceHandle", .bool false)]

/-- A river with a ferry. -/
def river : Fields :=
  [("nodes", .array [
    .object [("id", .int 1), ("type", .string "choice")],
    .object [("id", .string "1000000000000000000000000"), ("type", .string "end")]])]

theorem crossing_spelledBy_handle : crossing.SpelledBy crossingByHandle := by
  have one : intText 1 = crossing.source := by decide +kernel
  have far : intText 1000000000000000000000000 = crossing.target := by decide +kernel
  refine ⟨⟨["fromNodeId", "fromId"], "sourceId", ["from"], .int 1, rfl, by decide, rfl, ?_⟩,
    ⟨["toNodeId"], "toId", ["targetId", "to"], .int 1000000000000000000000000, rfl, by decide, rfl, ?_⟩, 1, rfl,
    .handle rfl rfl⟩
  · exact one ▸ .number 1
  · exact far ▸ .number _

theorem crossing_spelledBy_index : crossing.SpelledBy crossingByIndex :=
  ⟨⟨["fromNodeId", "fromId", "sourceId"], "from", [], .string "1", rfl, by decide, rfl, .text _⟩,
    ⟨["toNodeId", "toId", "targetId"], "to", [], .string _, rfl, by decide, rfl, .text _⟩, 1, rfl, .index rfl⟩

theorem crossingByHandle_isShort : Connection.IsShort crossingByHandle where
  source := by
    rintro ⟨i, same, long⟩
    cases same
    exact absurd long (by decide)
  target := by
    rintro ⟨i, same, long⟩
    cases same
    exact absurd long (by decide)
  handle n _ same := by
    have one : outputPrefix ++ natText n = "output_1" := Value.string.inj (Option.some.inj same).symm
    have length : outputPrefix.toList.length + (decimalDigits n).length = 8 := by
      rw [← List.length_append, ← String.toList_ofList (l := decimalDigits n), ← String.toList_append]
      exact congrArg (·.toList.length) one
    have before : outputPrefix.toList.length = 7 := rfl
    exact decide_eq_true (by rw [maxDigits]; omega)

theorem crossingByIndex_isShort : Connection.IsShort crossingByIndex where
  source := not_isLong_string "1"
  target := not_isLong_string "1000000000000000000000000"
  handle _ none := by cases none

/-- Either way across the river is read as the crossing, and the rivers have the same graph. -/
theorem crossings_interchangeable :
    Connection.ofValue (.script "river") (.object crossingByHandle) = .ok crossing ∧
      Connection.ofValue (.script "river") (.object crossingByIndex) = .ok crossing ∧
      ∃ g, (Script.ofValue "river" (.object (river.put "connections" (.array [.object crossingByHandle]))) >>=
          Graph.ofScript) = .ok g ∧
        (Script.ofValue "river" (.object (river.put "connections" (.array [.object crossingByIndex]))) >>=
          Graph.ofScript) = .ok g ∧
        g.script.connections = [crossing] := by
  obtain ⟨read, interchangeable⟩ := spellings_interchangeable
  have either : Connection.Interchangeable (.object crossingByHandle) (.object crossingByIndex) :=
    .spellings crossing_spelledBy_handle crossing_spelledBy_index crossingByHandle_isShort crossingByIndex_isShort
  have built : ∃ g, (Script.ofValue "river"
      (.object (river.put "connections" (.array [.object crossingByIndex]))) >>= Graph.ofScript) = .ok g ∧
      g.script.connections = [crossing] := ⟨_, by rfl, by rfl⟩
  obtain ⟨g, hg, connections⟩ := built
  exact ⟨(read _ _ _ crossing_spelledBy_handle).1 crossingByHandle_isShort,
    (read _ _ _ crossing_spelledBy_index).1 crossingByIndex_isShort, g,
    (interchangeable "river" river _ _ (.cons either .nil)).2.trans hg, hg, connections⟩

/-! ### A ford -/

/-- A number that is too long to be converted. -/
def deep : Nat := 10 ^ maxDigits

theorem not_isShort_deep : ¬isShort deep := by
  rw [isShort_iff]
  exact Nat.lt_irrefl _

/-- A way through the deep. -/
def ford : Connection := ⟨"a", deep, "b"⟩

/-- That way with a number. -/
def fordByIndex : Fields := [("from", .string "a"), ("to", .string "b"), ("outputIndex", .int deep)]

/-- That way with a handle. -/
def fordByHandle : Fields :=
  [("from", .string "a"), ("to", .string "b"), ("sourceHandle", .string (outputPrefix ++ natText deep))]

/-- A way out of the deep. -/
def landing : Connection := ⟨intText deep, 0, "b"⟩

/-- That way with a text. -/
def landingByText : Fields := [("from", .string (intText deep)), ("to", .string "b")]

/-- That way with an integer. -/
def landingByNumber : Fields := [("from", .int deep), ("to", .string "b")]

theorem ford_spelledBy_index : ford.SpelledBy fordByIndex :=
  ⟨⟨["fromNodeId", "fromId", "sourceId"], "from", [], .string "a", rfl, by decide, rfl, .text _⟩,
    ⟨["toNodeId", "toId", "targetId"], "to", [], .string "b", rfl, by decide, rfl, .text _⟩, deep, rfl,
    .index rfl⟩

theorem ford_spelledBy_handle : ford.SpelledBy fordByHandle :=
  ⟨⟨["fromNodeId", "fromId", "sourceId"], "from", [], .string "a", rfl, by decide, rfl, .text _⟩,
    ⟨["toNodeId", "toId", "targetId"], "to", [], .string "b", rfl, by decide, rfl, .text _⟩, deep, rfl,
    .handle rfl rfl⟩

theorem landing_spelledBy_text : landing.SpelledBy landingByText :=
  ⟨⟨["fromNodeId", "fromId", "sourceId"], "from", [], .string _, rfl, by decide, rfl, .text _⟩,
    ⟨["toNodeId", "toId", "targetId"], "to", [], .string "b", rfl, by decide, rfl, .text _⟩, 0, rfl,
    .neither rfl (.inl rfl)⟩

theorem landing_spelledBy_number : landing.SpelledBy landingByNumber :=
  ⟨⟨["fromNodeId", "fromId", "sourceId"], "from", [], .int deep, rfl, by decide, rfl, .number _⟩,
    ⟨["toNodeId", "toId", "targetId"], "to", [], .string "b", rfl, by decide, rfl, .text _⟩, 0, rfl,
    .neither rfl (.inl rfl)⟩

/-- **Spellings with numbers that are too long are not interchangeable.**  The output of a connection is read
where it is a number, and not where it stands in a handle; and the id of an end is read where it is a text,
and not where it is an integer.  So scripts that differ in this alone are not read as the same. -/
theorem fords_not_interchangeable :
    (ford.SpelledBy fordByIndex ∧ ford.SpelledBy fordByHandle ∧
        Connection.ofValue (.script "river") (.object fordByIndex) = .ok ford ∧
        Connection.ofValue (.script "river") (.object fordByHandle) =
          .error (.badNumeral (.unreadable (natText deep)))) ∧
      (landing.SpelledBy landingByText ∧ landing.SpelledBy landingByNumber ∧
        Connection.ofValue (.script "river") (.object landingByText) = .ok landing ∧
        Connection.ofValue (.script "river") (.object landingByNumber) = .error (.badNumeral .unwritable)) ∧
      Script.ofValue "river" (.object [("connections", .array [.object fordByIndex])]) ≠
        Script.ofValue "river" (.object [("connections", .array [.object fordByHandle])]) := by
  have byIndex (subject : Subject) : Connection.ofValue subject (.object fordByIndex) = .ok ford :=
    Connection.ofValue_of_spelledBy ford_spelledBy_index
      ⟨not_isLong_string "a", not_isLong_string "b", fun _ none => by cases none⟩
  have byText : Connection.ofValue (.script "river") (.object landingByText) = .ok landing :=
    Connection.ofValue_of_spelledBy landing_spelledBy_text
      ⟨not_isLong_string _, not_isLong_string "b", fun _ _ none => by cases none⟩
  have long : Text.natural? (natText deep) = none := by rw [Text.natural?_natText, if_neg not_isShort_deep]
  have byHandle (subject : Subject) : Connection.ofValue subject (.object fordByHandle) =
      .error (.badNumeral (.unreadable (natText deep))) :=
    (Connection.eq_error_iff rfl).2 (.handle ⟨⟨_, rfl, .inl ⟨"a", rfl⟩, .inl ⟨"b", rfl⟩, rfl, rfl⟩,
      Text.isDigits_natText deep, long⟩)
  have tooLong : isShort (deep : Int).natAbs = false := by
    rw [Int.natAbs_natCast]
    exact Bool.eq_false_iff.2 not_isShort_deep
  have byNumber : Connection.ofValue (.script "river") (.object landingByNumber) =
      .error (.badNumeral .unwritable) :=
    (Connection.eq_error_iff rfl).2 (.source rfl ⟨deep, rfl, tooLong⟩)
  refine ⟨⟨ford_spelledBy_index, ford_spelledBy_handle, byIndex _, byHandle _⟩,
    ⟨landing_spelledBy_text, landing_spelledBy_number, byText, byNumber⟩, ?_⟩
  have script (v : Value) : Script.ofValue "river" (.object [("connections", .array [v])]) =
      (readEach Connection.ofValue (.part (.script "river") "connections") 0 [v] >>=
        fun connections => .ok ⟨"river", [], connections⟩) := rfl
  have read : Script.ofValue "river" (.object [("connections", .array [.object fordByIndex])]) =
      .ok ⟨"river", [], [ford]⟩ := by
    rw [script, readEach, byIndex]
    rfl
  have fails : Script.ofValue "river" (.object [("connections", .array [.object fordByHandle])]) =
      .error (.badNumeral (.unreadable (natText deep))) := by
    rw [script, readEach, byHandle]
    rfl
  rw [read, fails]
  intro same
  cases same

end Questline

import Questline.Files.Tree
import Questline.Json.Scalar
import Questline.Json.Writer
import Questline.Proofs.Entries
import Questline.Proofs.Numerals

/-!
# Documents written and read back

A document whose fields are scalars is read back as what was written: every string through its
escapes, every number through its digits, the fields by name.  Nothing but printed ASCII and
newlines is written, so that what is read from a file is what was written to it, character by
character.

* `Json.readString_written`: a string is read back.
* `Json.readValue_scalar`: a scalar is read back, whatever follows it.
* `Json.read_document`: a document is read back with its fields by name.
* `Utf8.decode_encode`, `FileTree.newlines_plain`: a document is the text of its own bytes.
-/

namespace Questline

namespace Json

/-! ## Strings -/

section Strings

variable {start tail : List Char} {a b c d a' b' c' d' : Char} {n m : Nat}

theorem hexValue?_hexDigit : ∀ n < 16, hexValue? (hexDigit n) = some n := by decide

/-- Four hexadecimal digits denote the unit that they were written for. -/
theorem hexUnit?_hexDigits (hn : n < 0x10000) :
    ∃ a b c d, hexDigits 4 n = [a, b, c, d] ∧ hexUnit? a b c d = some n := by
  refine ⟨_, _, _, _, rfl, ?_⟩
  simp only [hexUnit?, hexValue?_hexDigit _ (Nat.mod_lt _ (show 0 < 16 by decide))]
  congr 1
  omega

/-- An escaped unit other than the first half of a pair is a character of its own. -/
theorem readString_unit (unit : hexUnit? a b c d = some n) (single : isHighSurrogate n = false)
    (left : tail ≠ []) :
    readString start ('\\' :: 'u' :: a :: b :: c :: d :: tail) =
      consChar (unitChar n) (readString start tail) := by
  obtain ⟨x, tail, rfl⟩ := List.exists_cons_of_ne_nil left
  rw [readString.eq_def]
  split
  case h_3 eq =>
    simp only [List.cons.injEq] at eq
    obtain ⟨-, -, rfl, rfl, rfl, rfl, eq⟩ := eq
    simp [unit, single, eq]
  case h_4 eq =>
    cases eq
    simp [unit]
  case h_5 few eq =>
    cases eq
    exact absurd rfl (few _ _ _ _ _ _)
  case h_6 other eq =>
    cases eq
    exact absurd rfl other
  case h_8 other _ eq =>
    cases eq
    exact absurd rfl (other _ _ rfl)
  all_goals simp_all

/-- Two halves of a pair, both escaped, are one character. -/
theorem readString_pair (unit : hexUnit? a b c d = some n) (high : isHighSurrogate n = true)
    (unit' : hexUnit? a' b' c' d' = some m) (low : isLowSurrogate m = true) (left : tail ≠ []) :
    readString start
        ('\\' :: 'u' :: a :: b :: c :: d :: '\\' :: 'u' :: a' :: b' :: c' :: d' :: tail) =
      consChar (pairChar n m) (readString start tail) := by
  obtain ⟨x, tail, rfl⟩ := List.exists_cons_of_ne_nil left
  simp [readString, unit, high, unit', low]

/-- **A character is read back.** -/
theorem readString_writeChar (c : Char) (left : tail ≠ []) :
    readString start (writeChar c ++ tail) = consChar c (readString start tail) := by
  unfold writeChar
  split
  case h_8 quote backslash _ _ _ _ _ =>
    have valid := c.valid
    simp only [UInt32.isValidChar, Nat.isValidChar] at valid
    change c.toNat < 0xd800 ∨ 0xdfff < c.toNat ∧ c.toNat < 0x110000 at valid
    have self : Char.ofNat c.toNat = c := Char.ofNat_toNat c
    dsimp only
    split
    case isTrue plain => exact readString_plain plain.1 quote backslash tail
    case isFalse =>
      split
      case isTrue small =>
        obtain ⟨x, y, z, w, digits, unit⟩ := hexUnit?_hexDigits small
        have single : isHighSurrogate c.toNat = false := by simp [isHighSurrogate]; omega
        have other : isLowSurrogate c.toNat = false := by simp [isLowSurrogate]; omega
        rw [escapeUnit, digits]
        simp only [List.cons_append, List.nil_append]
        rw [readString_unit unit single left, unitChar, single, other]
        simp [self]
      case isFalse large =>
        obtain ⟨x, y, z, w, digits, unit⟩ := hexUnit?_hexDigits
          (show 0xD800 + (c.toNat - 0x10000) / 0x400 < 0x10000 by omega)
        obtain ⟨x', y', z', w', digits', unit'⟩ := hexUnit?_hexDigits
          (show 0xDC00 + (c.toNat - 0x10000) % 0x400 < 0x10000 by omega)
        have high : isHighSurrogate (0xD800 + (c.toNat - 0x10000) / 0x400) = true := by
          simp [isHighSurrogate]; omega
        have low : isLowSurrogate (0xDC00 + (c.toNat - 0x10000) % 0x400) = true := by
          simp [isLowSurrogate]; omega
        rw [escapeUnit, escapeUnit, digits, digits']
        simp only [List.cons_append, List.nil_append]
        have value : 0x10000 + (0xD800 + (c.toNat - 0x10000) / 0x400 - 0xD800) * 0x400 +
            (0xDC00 + (c.toNat - 0x10000) % 0x400 - 0xDC00) = c.toNat := by omega
        rw [readString_pair unit high unit' low left, pairChar, value, self]
  all_goals exact readString_escape rfl tail

/-- **A string is read back**, up to its closing quote. -/
theorem readString_written (start cs rest : List Char) :
    readString start (cs.flatMap writeChar ++ '"' :: rest) = .ok (cs, rest) := by
  induction cs with
  | nil => rw [List.flatMap_nil, List.nil_append, readString]
  | cons c cs ih =>
    rw [List.flatMap_cons, List.append_assoc, readString_writeChar c (by simp), ih, consChar]

end Strings

/-! ## Scalars -/

section Scalars

variable {cs rest : List Char} {bound : Nat}

theorem readValue_string (s : String) (bound : Nat) (rest : List Char) :
    readValue (bound + 1) (writeString s ++ rest) = .ok (.string s, rest) := by
  rw [writeString, List.append_assoc, List.cons_append, List.cons_append, List.nil_append,
    readValue, readString_written]
  simp only [String.ofList_toList]

/-- **A scalar is read back**, whatever follows it. -/
theorem readValue_scalar (layout : Layout) (s : Scalar) (bound : Nat) (h : EndsNumber rest) :
    readValue (bound + 1) (write layout s.toValue ++ rest) = .ok (s.toValue, rest) := by
  cases s with
  | bool b => cases b <;> simp [Scalar.toValue, write, readValue]
  | int i =>
    rw [Scalar.toValue, write]
    exact readValue_number (readNumber?_intText i h) bound
  | float x =>
    rw [Scalar.toValue, write]
    cases x with
    | nan => simp [FloatStyle.text, FloatStyle.json, readValue]
    | infinite negative => cases negative <;> simp [FloatStyle.text, FloatStyle.json, readValue]
    | finite negative r => exact readValue_number (readNumber?_floatText negative r h) bound
  | text s =>
    rw [Scalar.toValue, write]
    exact readValue_string s bound rest

/-- A value does not start with white space. -/
theorem skipSpace_of_readValue {r : Value × List Char} (h : readValue bound cs = .ok r) :
    skipSpace cs = cs := by
  cases bound with
  | zero => cases h
  | succ bound =>
    cases cs with
    | nil => rfl
    | cons c cs =>
      by_cases space : isSpace c
      · have space : ((c = ' ' ∨ c = '\t') ∨ c = '\n') ∨ c = '\r' := by simpa [isSpace] using space
        obtain ((rfl | rfl) | rfl) | rfl := space <;> cases h
      · simp [skipSpace, space]

end Scalars

/-! ## Documents -/

section Documents

/-- Scalars as the fields of an object. -/
def scalarFields (es : Entries Scalar) : Fields := es.map fun e => (e.1, e.2.toValue)

variable {rest : List Char} {ms : Entries Scalar} {bound : Nat}

theorem sorted_scalarFields (es : Entries Scalar) :
    (scalarFields es).sorted = scalarFields es.sorted :=
  Entries.sorted_map (fun e : String × Scalar => (e.1, e.2.toValue)) (fun _ => rfl) es

theorem skipSpace_edge (layout : Layout) (rest : List Char) :
    skipSpace (layout.edge ++ rest) = skipSpace rest := by
  cases layout with
  | compact => rfl
  | lines depth =>
    refine List.dropWhile_append_of_pos fun c hc => ?_
    rcases hc with _ | ⟨_, hc⟩
    · rfl
    · rw [List.eq_of_mem_replicate hc]
      rfl

theorem skipSpace_gap (layout : Layout) (rest : List Char) :
    skipSpace (layout.gap ++ rest) = skipSpace rest := by
  cases layout with
  | compact => rfl
  | lines depth => exact skipSpace_edge (.lines depth) rest

theorem endsNumber_comma (rest : List Char) : EndsNumber (',' :: rest) := by
  rintro c ⟨⟩
  decide

theorem endsNumber_edge (layout : Layout) (rest : List Char) :
    EndsNumber (layout.edge ++ '}' :: rest) := by
  cases layout <;> (rintro c ⟨⟩; decide)

theorem length_writeMembers (layout : Layout) (ms : Fields) :
    ms.length ≤ (writeMembers layout ms).length := by
  induction ms with
  | nil => exact Nat.zero_le _
  | cons m ms ih =>
    rw [writeMembers]
    simp only [List.length_cons, List.length_append]
    omega

/-- A field is read back, and then what follows it is looked at. -/
theorem readMembers_member (layout : Layout) (name : String) (s : Scalar) (bound : Nat)
    (h : EndsNumber rest) :
    (∀ rest', skipSpace rest = '}' :: rest' →
      readMembers (bound + 2) (writeMember layout (name, s.toValue) ++ rest) =
        .ok ([(name, s.toValue)], rest')) ∧
    ∀ rest' fields rest'', skipSpace rest = ',' :: rest' →
      readMembers (bound + 1) (skipSpace rest') = .ok (fields, rest'') →
      readMembers (bound + 2) (writeMember layout (name, s.toValue) ++ rest) =
        .ok ((name, s.toValue) :: fields, rest'') := by
  have value := readValue_scalar layout s bound h
  have start := skipSpace_of_readValue value
  have colon (cs : List Char) : skipSpace (':' :: cs) = ':' :: cs := rfl
  have blank (cs : List Char) : skipSpace (' ' :: cs) = skipSpace cs := rfl
  rw [writeMember, writeString]
  simp only [List.cons_append, List.append_assoc, List.nil_append]
  rw [readMembers, readString_written]
  simp only [colon, blank, start, value, String.ofList_toList]
  constructor
  · intro rest' last
    rw [last]
    rfl
  · intro rest' fields rest'' comma more
    rw [comma]
    simp only [more]

/-- **The fields of an object are read back**, up to the closing brace. -/
theorem readMembers_written (outer inner : Layout) (m : String × Scalar) (ms : Entries Scalar)
    (rest : List Char) (h : ms.length + 2 ≤ bound) :
    readMembers bound (writeMember inner (m.1, m.2.toValue) ++
        (writeMembers inner (scalarFields ms) ++ (outer.edge ++ '}' :: rest))) =
      .ok (scalarFields (m :: ms), rest) := by
  induction ms generalizing m bound with
  | nil =>
    obtain ⟨bound, rfl⟩ : ∃ n, bound = n + 2 := ⟨bound - 2, by omega⟩
    rw [scalarFields, List.map_nil, writeMembers, List.nil_append]
    exact (readMembers_member inner m.1 m.2 bound (endsNumber_edge outer rest)).1 rest
      (skipSpace_edge outer _)
  | cons n ms ih =>
    obtain ⟨bound, rfl⟩ : ∃ n, bound = n + 2 := ⟨bound - 2, by omega⟩
    rw [scalarFields, List.map_cons, writeMembers]
    simp only [List.cons_append, List.append_assoc]
    refine (readMembers_member inner m.1 m.2 bound (endsNumber_comma _)).2 _ _ _ rfl ?_
    rw [skipSpace_gap]
    exact ih n (by simpa using h)

/-- An object is read back, its fields in the order in which they were written. -/
theorem readValue_object (layout : Layout) (es : Entries Scalar) (rest : List Char)
    (h : es.length + 2 ≤ bound) :
    readValue (bound + 1) (write layout (.object (scalarFields es)) ++ rest) =
      .ok (.object (Entries.ofPairs (scalarFields es)), rest) := by
  cases es with
  | nil =>
    rw [scalarFields, List.map_nil, write]
    rfl
  | cons e es =>
    have fields := readMembers_written layout layout.deeper e es rest (Nat.le_of_succ_le h)
    rw [scalarFields, List.map_cons, write]
    simp only [List.cons_append, List.append_assoc, List.nil_append]
    -- The first field begins with a quote.
    obtain ⟨cs, quote⟩ : ∃ cs, writeMember layout.deeper (e.1, e.2.toValue) ++
        (writeMembers layout.deeper (scalarFields es) ++ (layout.edge ++ '}' :: rest)) =
          '"' :: cs := ⟨_, rfl⟩
    rw [quote] at fields
    change readValue (bound + 1) ('{' :: (layout.deeper.edge ++
      (writeMember layout.deeper (e.1, e.2.toValue) ++
        (writeMembers layout.deeper (scalarFields es) ++ (layout.edge ++ '}' :: rest))))) = _
    have start : skipSpace ('"' :: cs) = '"' :: cs := rfl
    rw [quote, readValue, skipSpace_edge, start]
    split
    case h_1 brace => cases brace
    case h_2 =>
      rw [fields]
      rfl

/-- No number is an object. -/
theorem readNumber?_ne_object (cs : List Char) (fields : Fields) (rest : List Char) :
    readNumber? cs ≠ some (.object fields, rest) := by
  intro h
  unfold readNumber? at h
  simp only at h
  split at h
  case h_1 => cases h
  case h_2 => split at h <;> cases h

/-- The fields of an object that is read have different names. -/
theorem nodup_names_of_readValue {cs rest : List Char} {fields : Fields}
    (h : readValue bound cs = .ok (.object fields, rest)) : fields.names.Nodup := by
  cases bound with
  | zero => cases h
  | succ bound =>
    rw [readValue.eq_def] at h
    simp only at h
    split at h
    case h_1 =>
      split at h <;> cases h
    case h_2 =>
      split at h
      case h_1 =>
        cases h
        exact List.nodup_nil
      case h_2 =>
        split at h
        case h_1 ms _ _ =>
          cases h
          exact Entries.nodup_names_ofPairs ms
        case h_2 => cases h
    case h_3 =>
      split at h
      case h_1 => cases h
      case h_2 => split at h <;> cases h
    case h_10 =>
      split at h
      case h_1 number =>
        cases h
        exact absurd number (readNumber?_ne_object _ _ _)
      case h_2 => cases h
    all_goals cases h

theorem nodup_names_of_read {text : String} {fields : Fields}
    (h : read text = .ok (.object fields)) : fields.names.Nodup := by
  unfold read readText at h
  split at h
  case h_1 v done =>
    split at done
    case h_1 => cases done
    case h_2 =>
      split at done
      case h_1 => cases done
      case h_2 value =>
        split at done
        case h_1 =>
          cases done
          cases h
          exact nodup_names_of_readValue value
        case h_2 => cases done
  case h_2 => cases h

theorem length_write_object (layout : Layout) (fields : Fields) :
    fields.length + 1 ≤ (write layout (.object fields)).length := by
  cases fields with
  | nil =>
    rw [write]
    decide
  | cons m ms =>
    have := length_writeMembers layout.deeper ms
    rw [write]
    simp only [List.length_cons, List.length_append]
    omega

/-- **A document is read back**, with its fields by name. -/
theorem read_document (h : ms.names.Nodup) :
    read (document (scalarFields ms)) = .ok (.object (scalarFields ms.sorted)) := by
  have apart : (scalarFields ms.sorted).names.Nodup := by
    rw [Entries.names, scalarFields, List.map_map]
    exact Entries.nodup_names_sorted h
  rw [read, document, sorted_scalarFields, String.toList_ofList]
  generalize ms.sorted = es at *
  have long : es.length + 2 ≤ 2 * (write (.lines 0) (.object (scalarFields es))).length := by
    have := length_write_object (.lines 0) (scalarFields es)
    simp only [scalarFields, List.length_map] at this ⊢
    omega
  have value := readValue_object (.lines 0) es [] long
  rw [List.append_nil, Entries.ofPairs_of_nodup apart] at value
  have start := skipSpace_of_readValue value
  obtain ⟨cs, brace⟩ : ∃ cs, write (.lines 0) (.object (scalarFields es)) = '{' :: cs := by
    cases es with
    | nil => exact ⟨['}'], by rw [scalarFields, List.map_nil, write]⟩
    | cons e es => exact ⟨_, by rw [scalarFields, List.map_cons, write]; rfl⟩
  rw [brace] at value start ⊢
  rw [readText, start, value]
  · rfl
  · intro cs mark
    cases mark

end Documents

/-! ## Printed characters -/

section Plain

/-- A printed ASCII character or a newline. -/
def Plain (c : Char) : Prop := c = '\n' ∨ 0x20 ≤ c.toNat ∧ c.toNat < 0x7F

instance : DecidablePred Plain := fun c =>
  inferInstanceAs (Decidable (c = '\n' ∨ 0x20 ≤ c.toNat ∧ c.toNat < 0x7F))

variable {c : Char}

theorem plain_of_all {cs : List Char} (h : cs.all (fun c => decide (Plain c)) = true) :
    ∀ c ∈ cs, Plain c :=
  fun c hc => of_decide_eq_true (List.all_eq_true.1 h c hc)

theorem plain_of_isDigit (h : c.isDigit) : Plain c := by
  simp only [Char.isDigit, Bool.and_eq_true, decide_eq_true_eq] at h
  have low : '0'.toNat ≤ c.toNat := h.1
  have high : c.toNat ≤ '9'.toNat := h.2
  exact .inr ⟨Nat.le_trans (by decide) low, Nat.lt_of_le_of_lt high (by decide)⟩

theorem plain_hexDigits (n value : Nat) : ∀ c ∈ hexDigits n value, Plain c := by
  have digit : ∀ n < 16, Plain (hexDigit n) := by decide
  induction n generalizing value with
  | zero => exact fun _ h => nomatch h
  | succ n ih =>
    rw [hexDigits, List.forall_mem_append]
    exact ⟨ih _, List.forall_mem_singleton.2 (digit _ (Nat.mod_lt _ (by decide)))⟩

theorem plain_escapeUnit (n : Nat) : ∀ c ∈ escapeUnit n, Plain c := by
  rw [escapeUnit, List.forall_mem_cons, List.forall_mem_cons]
  exact ⟨by decide, by decide, plain_hexDigits 4 n⟩

theorem plain_writeChar (c : Char) : ∀ d ∈ writeChar c, Plain d := by
  unfold writeChar
  split
  case h_8 =>
    dsimp only
    split
    case isTrue printed => exact List.forall_mem_singleton.2 (.inr ⟨printed.1, by omega⟩)
    case isFalse =>
      split
      case isTrue => exact plain_escapeUnit _
      case isFalse =>
        rw [List.forall_mem_append]
        exact ⟨plain_escapeUnit _, plain_escapeUnit _⟩
  all_goals exact plain_of_all (by decide)

theorem plain_writeString (s : String) : ∀ c ∈ writeString s, Plain c := by
  rw [writeString, List.cons_append, List.forall_mem_cons, List.forall_mem_append]
  refine ⟨by decide, fun d hd => ?_, plain_of_all (by decide)⟩
  obtain ⟨c, _, hd⟩ := List.mem_flatMap.1 hd
  exact plain_writeChar c d hd

theorem plain_decimalDigits (n : Nat) : ∀ c ∈ decimalDigits n, Plain c :=
  fun _ hc => plain_of_isDigit (isDigit_decimalDigits hc)

theorem plain_withSign (negative : Bool) {ds : List Char} (h : ∀ c ∈ ds, Plain c) :
    ∀ c ∈ withSign negative ds, Plain c := by
  cases negative with
  | false => exact h
  | true => exact List.forall_mem_cons.2 ⟨by decide, h⟩

theorem plain_replicate {c : Char} (h : Plain c) (k : Nat) : ∀ d ∈ List.replicate k c, Plain d :=
  fun _ hd => List.eq_of_mem_replicate hd ▸ h

theorem plain_significant (d : Decimal) : ∀ c ∈ FloatStyle.significant d, Plain c := by
  unfold FloatStyle.significant
  split
  case h_1 => exact plain_of_all (by decide)
  case h_2 =>
    intro c hc
    have := (List.dropWhile_sublist _).subset (List.mem_reverse.1 hc)
    exact plain_decimalDigits _ c (List.mem_reverse.1 this)

theorem plain_positional {ds : List Char} (h : ∀ c ∈ ds, Plain c) (point : Int) :
    ∀ c ∈ FloatStyle.positional true ds point, Plain c := by
  have zeros := plain_replicate (c := '0') (by decide)
  unfold FloatStyle.positional
  split
  case isTrue =>
    simp only [List.forall_mem_append]
    exact ⟨⟨plain_of_all (by decide), zeros _⟩, h⟩
  case isFalse =>
    split
    case isTrue =>
      simp only [List.forall_mem_append]
      exact ⟨⟨h, zeros _⟩, plain_of_all (by decide)⟩
    case isFalse =>
      rw [List.forall_mem_append, List.forall_mem_cons]
      exact ⟨fun c hc => h c (List.mem_of_mem_take hc), by decide,
        fun c hc => h c (List.mem_of_mem_drop hc)⟩

theorem plain_scientific {ds : List Char} (h : ∀ c ∈ ds, Plain c) (point : Int) :
    ∀ c ∈ FloatStyle.scientific ds point, Plain c := by
  have exponent (e : Int) : ∀ c ∈ FloatStyle.exponentText e, Plain c := by
    rw [FloatStyle.exponentText, List.forall_mem_cons]
    refine ⟨by split <;> decide, ?_⟩
    split
    case isTrue => exact List.forall_mem_cons.2 ⟨by decide, plain_decimalDigits _⟩
    case isFalse => exact plain_decimalDigits _
  unfold FloatStyle.scientific
  split
  case h_1 => exact fun _ hc => nomatch hc
  case h_2 =>
    rw [List.forall_mem_cons, List.forall_mem_cons]
    exact ⟨h _ List.mem_cons_self, by decide, exponent _⟩
  case h_3 =>
    rw [List.cons_append, List.forall_mem_cons, List.cons_append, List.forall_mem_cons,
      List.forall_mem_append, List.forall_mem_cons]
    exact ⟨h _ List.mem_cons_self, by decide, fun c hc => h c (.tail _ hc), by decide, exponent _⟩

/-- Only printed characters are written for a scalar. -/
theorem plain_scalar (layout : Layout) (s : Scalar) : ∀ c ∈ write layout s.toValue, Plain c := by
  cases s with
  | bool b => cases b <;> (rw [Scalar.toValue, write]; exact plain_of_all (by decide))
  | int i =>
    rw [Scalar.toValue, write, toList_intText]
    exact plain_withSign _ (plain_decimalDigits _)
  | float x =>
    rw [Scalar.toValue, write]
    cases x with
    | nan => exact plain_of_all (by decide)
    | infinite negative => cases negative <;> exact plain_of_all (by decide)
    | finite negative r =>
      rw [FloatStyle.text, String.toList_ofList]
      refine plain_withSign negative ?_
      rcases FloatStyle.magnitudeText_json r with positional | scientific
      · rw [positional]
        exact plain_positional (plain_significant _) _
      · rw [scientific]
        exact plain_scientific (plain_significant _) _
  | text s =>
    rw [Scalar.toValue, write]
    exact plain_writeString s

theorem plain_edge (layout : Layout) : ∀ c ∈ layout.edge, Plain c := by
  cases layout with
  | compact => exact fun _ hc => nomatch hc
  | lines depth => exact List.forall_mem_cons.2 ⟨by decide, plain_replicate (by decide) _⟩

theorem plain_gap (layout : Layout) : ∀ c ∈ layout.gap, Plain c := by
  cases layout with
  | compact => exact plain_of_all (by decide)
  | lines depth => exact plain_edge (.lines depth)

theorem plain_writeMember (layout : Layout) (m : String × Scalar) :
    ∀ c ∈ writeMember layout (m.1, m.2.toValue), Plain c := by
  rw [writeMember]
  simp only [List.forall_mem_append]
  exact ⟨⟨plain_writeString _, plain_of_all (by decide)⟩, plain_scalar layout m.2⟩

theorem plain_writeMembers (layout : Layout) (ms : Entries Scalar) :
    ∀ c ∈ writeMembers layout (scalarFields ms), Plain c := by
  induction ms with
  | nil =>
    rw [scalarFields, List.map_nil, writeMembers]
    exact fun _ hc => nomatch hc
  | cons m ms ih =>
    rw [scalarFields, List.map_cons, writeMembers]
    simp only [List.cons_append, List.forall_mem_cons, List.forall_mem_append]
    exact ⟨by decide, ⟨plain_gap layout, plain_writeMember layout m⟩, ih⟩

/-- **Only printed characters and newlines are written.** -/
theorem plain_document (es : Entries Scalar) :
    ∀ c ∈ (document (scalarFields es)).toList, Plain c := by
  rw [document, sorted_scalarFields, String.toList_ofList]
  cases es.sorted with
  | nil =>
    rw [scalarFields, List.map_nil, write]
    exact plain_of_all (by decide)
  | cons m ms =>
    rw [scalarFields, List.map_cons, write]
    simp only [List.cons_append, List.forall_mem_cons, List.forall_mem_append]
    exact ⟨by decide, ⟨⟨⟨plain_edge _, plain_writeMember _ m⟩, plain_writeMembers _ ms⟩,
      plain_edge _⟩, by decide, fun _ hc => nomatch hc⟩

end Plain

end Json

/-! ## Texts and bytes -/

section Bytes

open Json (Plain)

theorem Utf8.decode_encode {cs : List Char} (h : ∀ c ∈ cs, Plain c) :
    Utf8.decode (Utf8.encode cs) = .ok cs := by
  have go (start : Nat) : Utf8.decodeFrom start 0 (Utf8.encode cs) = .ok cs := by
    induction cs generalizing start with
    | nil => rfl
    | cons c cs ih =>
      have small : c.toNat < 0x80 := by
        rcases h c List.mem_cons_self with rfl | printed
        · decide
        · omega
      have byte : (c.toNat.toUInt8).toNat = c.toNat := by
        rw [UInt8.toNat_ofNat']
        omega
      have first : Utf8.encode (c :: cs) = c.toNat.toUInt8 :: Utf8.encode cs := by
        rw [Utf8.encode, List.flatMap_cons, Utf8.encodeChar, if_pos small]
        rfl
      have head (rest : List UInt8) : Utf8.head c.toNat.toUInt8 rest = .ok (c, 1) := by
        simp only [Utf8.head, byte, small, if_true, Char.ofNat_toNat]
      rw [first, Utf8.decodeFrom, head]
      simp only
      rw [ih (fun d hd => h d (.tail c hd))]
      rfl
  exact go 0

theorem FileTree.newlines_plain {cs : List Char} (h : ∀ c ∈ cs, Plain c) :
    FileTree.newlines cs = cs := by
  induction cs with
  | nil => rfl
  | cons c cs ih =>
    have printed : c ≠ '\r' := by
      rintro rfl
      exact absurd (h _ List.mem_cons_self) (by decide)
    have ih := ih fun d hd => h d (.tail c hd)
    rw [FileTree.newlines]
    · rw [ih]
    all_goals simp_all

end Bytes

end Questline

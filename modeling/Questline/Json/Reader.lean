import Questline.Json.Value
import Questline.Number.Hexadecimal

/-!
# Reading JSON

A text is read from left to right as one value.  Beyond the standard the words
`NaN`, `Infinity` and `-Infinity` are numbers; of two fields with one name the
later value counts.  A text that is no JSON is refused at a definite place.  Integers are
read at any length: that only `maxDigits` digits are converted is left out here.

* `Json.read`: the value of a text, or the reason and the place of its refusal.
* `Json.ReadFault.message`: the refusal in words, with line, column and offset.

The readers return the characters they leave.  Their first argument bounds the
number of nested calls; `read` gives them more than any text of that length needs.
-/

namespace Questline.Json

/-! ## Refusals -/

/-- Why a text is no JSON. -/
inductive Refusal where
  | noValue
  | extraData
  | noPropertyName
  | noColon
  | noComma
  | unterminatedString
  | controlCharacter
  | badEscape
  | badUnicodeEscape
  | byteOrderMark
  deriving DecidableEq

/-- The reason in words. -/
def Refusal.message : Refusal → String
  | .noValue => "Expecting value"
  | .extraData => "Extra data"
  | .noPropertyName => "Expecting property name enclosed in double quotes"
  | .noColon => "Expecting ':' delimiter"
  | .noComma => "Expecting ',' delimiter"
  | .unterminatedString => "Unterminated string starting at"
  | .controlCharacter => "Invalid control character at"
  | .badEscape => "Invalid \\escape"
  | .badUnicodeEscape => "Invalid \\uXXXX escape"
  | .byteOrderMark => "Unexpected UTF-8 BOM (decode using utf-8-sig)"

/-- A refusal together with the text from the refused place onwards. -/
structure Stop where
  refusal : Refusal
  rest : List Char

/-- A refusal at a place: lines and columns are counted from one, the offset from
zero. -/
structure ReadFault where
  refusal : Refusal
  line : Nat
  column : Nat
  offset : Nat
  deriving DecidableEq

/-- The place of a refusal in the whole text. -/
def Stop.locate (text : List Char) (s : Stop) : ReadFault :=
  let before := text.take (text.length - s.rest.length)
  { refusal := s.refusal
    line := before.countP (· == '\n') + 1
    column := (before.reverse.takeWhile (· != '\n')).length + 1
    offset := before.length }

/-- The refusal in words. -/
def ReadFault.message (f : ReadFault) : String :=
  f.refusal.message ++ ": line " ++ natText f.line ++ " column " ++ natText f.column ++ " (char " ++
    natText f.offset ++ ")"

/-- What reading a part gives: the part and the characters after it. -/
abbrev Reading (α : Type) := Except Stop (α × List Char)

/-! ## Strings -/

/-- The number that four hexadecimal digits denote. -/
def hexUnit? (a b c d : Char) : Option Nat :=
  match hexValue? a, hexValue? b, hexValue? c, hexValue? d with
  | some a, some b, some c, some d => some (((a * 16 + b) * 16 + c) * 16 + d)
  | _, _, _, _ => none

/-- The character that a letter stands for after a backslash. -/
def escaped? : Char → Option Char
  | '"' => some '"'
  | '\\' => some '\\'
  | '/' => some '/'
  | 'b' => some '\x08'
  | 'f' => some '\x0c'
  | 'n' => some '\n'
  | 'r' => some '\r'
  | 't' => some '\t'
  | _ => none

/-- The first half of a surrogate pair. -/
def isHighSurrogate (n : Nat) : Bool := 0xD800 ≤ n && n ≤ 0xDBFF

/-- The second half of a surrogate pair. -/
def isLowSurrogate (n : Nat) : Bool := 0xDC00 ≤ n && n ≤ 0xDFFF

/-- The character that a surrogate pair denotes. -/
def pairChar (high low : Nat) : Char :=
  Char.ofNat (0x10000 + (high - 0xD800) * 0x400 + (low - 0xDC00))

/-- The character of a code unit.  Half of a surrogate pair is no character; the
replacement character takes its place. -/
def unitChar (n : Nat) : Char :=
  if isHighSurrogate n || isLowSurrogate n then '\uFFFD' else Char.ofNat n

/-- Put a character in front of the string that is read. -/
def consChar (c : Char) : Reading (List Char) → Reading (List Char)
  | .ok (cs, rest) => .ok (c :: cs, rest)
  | .error e => .error e

/-- Read a string after its opening quote, which stands at the head of `start`.  An
escape in four hexadecimal digits needs a character after it. -/
def readString (start : List Char) : List Char → Reading (List Char)
  | [] => .error ⟨.unterminatedString, start⟩
  | '"' :: rest => .ok ([], rest)
  | '\\' :: 'u' :: a :: b :: c :: d :: '\\' :: 'u' :: a' :: b' :: c' :: d' :: x :: rest =>
    match hexUnit? a b c d with
    | none => .error ⟨.badUnicodeEscape,
        'u' :: a :: b :: c :: d :: '\\' :: 'u' :: a' :: b' :: c' :: d' :: x :: rest⟩
    | some n =>
      if isHighSurrogate n then
        match hexUnit? a' b' c' d' with
        | none => .error ⟨.badUnicodeEscape, 'u' :: a' :: b' :: c' :: d' :: x :: rest⟩
        | some m =>
          if isLowSurrogate m then consChar (pairChar n m) (readString start (x :: rest))
          else consChar (unitChar n)
            (readString start ('\\' :: 'u' :: a' :: b' :: c' :: d' :: x :: rest))
      else consChar (unitChar n)
        (readString start ('\\' :: 'u' :: a' :: b' :: c' :: d' :: x :: rest))
  | '\\' :: 'u' :: a :: b :: c :: d :: x :: rest =>
    match hexUnit? a b c d with
    | none => .error ⟨.badUnicodeEscape, 'u' :: a :: b :: c :: d :: x :: rest⟩
    | some n => consChar (unitChar n) (readString start (x :: rest))
  | '\\' :: 'u' :: rest => .error ⟨.badUnicodeEscape, 'u' :: rest⟩
  | '\\' :: e :: rest =>
    match escaped? e with
    | none => .error ⟨.badEscape, '\\' :: e :: rest⟩
    | some c => consChar c (readString start rest)
  | ['\\'] => .error ⟨.unterminatedString, start⟩
  | c :: rest =>
    if c.toNat < 0x20 then .error ⟨.controlCharacter, c :: rest⟩
    else consChar c (readString start rest)

/-- A letter after a backslash stands for its character. -/
theorem readString_escape {start : List Char} {e c : Char} (h : escaped? e = some c)
    (tail : List Char) :
    readString start ('\\' :: e :: tail) = consChar c (readString start tail) := by
  have : e ≠ 'u' := by
    rintro rfl
    cases h
  rw [readString]
  · rw [h]
  all_goals simp_all

/-- A character that needs no backslash stands for itself. -/
theorem readString_plain {start : List Char} {c : Char} (h : 0x20 ≤ c.toNat) (quote : c ≠ '"')
    (backslash : c ≠ '\\') (tail : List Char) :
    readString start (c :: tail) = consChar c (readString start tail) := by
  rw [readString]
  · rw [if_neg (Nat.not_lt.2 h)]
  all_goals simp_all

/-! ## Numbers -/

/-- Split off the ASCII digits at the head. -/
def spanDigits (cs : List Char) : List Char × List Char :=
  (cs.takeWhile Char.isDigit, cs.dropWhile Char.isDigit)

/-- The integer part: a zero alone, or digits that do not start with zero. -/
def readWhole? : List Char → Option (List Char × List Char)
  | '0' :: rest => some (['0'], rest)
  | cs => if (spanDigits cs).1.isEmpty then none else some (spanDigits cs)

/-- The digits after a point, if the point is followed by one. -/
def readFraction : List Char → List Char × List Char
  | '.' :: rest => if (spanDigits rest).1.isEmpty then ([], '.' :: rest) else spanDigits rest
  | cs => ([], cs)

/-- The exponent, if digits follow its letter and sign. -/
def readExponent (cs : List Char) : Option Int × List Char :=
  match cs with
  | e :: rest =>
    if e = 'e' ∨ e = 'E' then
      let (negative, digits) := match rest with
        | '-' :: r => (true, r)
        | '+' :: r => (false, r)
        | r => (false, r)
      if (spanDigits digits).1.isEmpty then (none, cs)
      else
        let n : Int := natOfDigits (spanDigits digits).1
        (some (if negative then -n else n), (spanDigits digits).2)
    else (none, cs)
  | [] => (none, [])

/-- Read a number.  It is an integer unless it has a fraction or an exponent. -/
def readNumber? (cs : List Char) : Option (Value × List Char) :=
  let (negative, unsigned) := match cs with
    | '-' :: rest => (true, rest)
    | _ => (false, cs)
  match readWhole? unsigned with
  | none => none
  | some (whole, rest) =>
    let (fraction, rest') := readFraction rest
    let (exponent, rest'') := readExponent rest'
    if fraction.isEmpty && exponent.isNone then
      let n : Int := natOfDigits whole
      some (.int (if negative then -n else n), rest'')
    else
      let d : Decimal := ⟨natOfDigits (whole ++ fraction), exponent.getD 0 - fraction.length⟩
      some (.float (d.toBinary negative), rest'')

/-! ## Values -/

/-- White space between the parts of a text. -/
def isSpace (c : Char) : Bool := c == ' ' || c == '\t' || c == '\n' || c == '\r'

/-- The text after the white space at its head. -/
def skipSpace (cs : List Char) : List Char := cs.dropWhile isSpace

mutual

/-- Read a value, which starts with the first character. -/
def readValue : (bound : Nat) → List Char → Reading Value
  | 0, cs => .error ⟨.noValue, cs⟩
  | bound + 1, cs =>
    match cs with
    | '"' :: rest =>
      match readString cs rest with
      | .ok (s, rest') => .ok (.string (String.ofList s), rest')
      | .error e => .error e
    | '{' :: rest =>
      match skipSpace rest with
      | '}' :: rest' => .ok (.object [], rest')
      | rest' =>
        match readMembers bound rest' with
        | .ok (ms, rest'') => .ok (.object (Entries.ofPairs ms), rest'')
        | .error e => .error e
    | '[' :: rest =>
      match skipSpace rest with
      | ']' :: rest' => .ok (.array [], rest')
      | rest' =>
        match readItems bound rest' with
        | .ok (vs, rest'') => .ok (.array vs, rest'')
        | .error e => .error e
    | 'n' :: 'u' :: 'l' :: 'l' :: rest => .ok (.null, rest)
    | 't' :: 'r' :: 'u' :: 'e' :: rest => .ok (.bool true, rest)
    | 'f' :: 'a' :: 'l' :: 's' :: 'e' :: rest => .ok (.bool false, rest)
    | 'N' :: 'a' :: 'N' :: rest => .ok (.float .nan, rest)
    | 'I' :: 'n' :: 'f' :: 'i' :: 'n' :: 'i' :: 't' :: 'y' :: rest =>
      .ok (.float (.infinite false), rest)
    | '-' :: 'I' :: 'n' :: 'f' :: 'i' :: 'n' :: 'i' :: 't' :: 'y' :: rest =>
      .ok (.float (.infinite true), rest)
    | _ =>
      match readNumber? cs with
      | some r => .ok r
      | none => .error ⟨.noValue, cs⟩

/-- Read the items of an array up to its closing bracket. -/
def readItems : (bound : Nat) → List Char → Reading (List Value)
  | 0, cs => .error ⟨.noValue, cs⟩
  | bound + 1, cs =>
    match readValue bound cs with
    | .error e => .error e
    | .ok (v, rest) =>
      match skipSpace rest with
      | ']' :: rest' => .ok ([v], rest')
      | ',' :: rest' =>
        match readItems bound (skipSpace rest') with
        | .ok (vs, rest'') => .ok (v :: vs, rest'')
        | .error e => .error e
      | rest' => .error ⟨.noComma, rest'⟩

/-- Read the members of an object up to its closing brace. -/
def readMembers : (bound : Nat) → List Char → Reading (List (String × Value))
  | 0, cs => .error ⟨.noPropertyName, cs⟩
  | bound + 1, cs =>
    match cs with
    | '"' :: rest =>
      match readString cs rest with
      | .error e => .error e
      | .ok (name, rest') =>
        match skipSpace rest' with
        | ':' :: rest'' =>
          match readValue bound (skipSpace rest'') with
          | .error e => .error e
          | .ok (v, rest) =>
            match skipSpace rest with
            | '}' :: rest' => .ok ([(String.ofList name, v)], rest')
            | ',' :: rest' =>
              match readMembers bound (skipSpace rest') with
              | .ok (ms, rest'') => .ok ((String.ofList name, v) :: ms, rest'')
              | .error e => .error e
            | rest' => .error ⟨.noComma, rest'⟩
        | rest'' => .error ⟨.noColon, rest''⟩
    | _ => .error ⟨.noPropertyName, cs⟩

end

/-- What is read as a number is read as that value. -/
theorem readValue_number {cs : List Char} {r : Value × List Char} (h : readNumber? cs = some r)
    (bound : Nat) : readValue (bound + 1) cs = .ok r := by
  rw [readValue.eq_def]
  simp only
  split
  case h_10 => rw [h]
  all_goals cases h

/-- Read a whole text as one value with white space around it. -/
def readText (cs : List Char) : Except Stop Value :=
  match cs with
  | '\uFEFF' :: _ => .error ⟨.byteOrderMark, cs⟩
  | _ =>
    match readValue (2 * cs.length + 1) (skipSpace cs) with
    | .error e => .error e
    | .ok (v, rest) =>
      match skipSpace rest with
      | [] => .ok v
      | rest' => .error ⟨.extraData, rest'⟩

/-- The value of a text. -/
def read (s : String) : Except ReadFault Value :=
  match readText s.toList with
  | .ok v => .ok v
  | .error stop => .error (stop.locate s.toList)

end Questline.Json

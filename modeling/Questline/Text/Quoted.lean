import Questline.Json.Value
import Questline.Number.Hexadecimal
import Questline.Text.Printable

/-!
# Quoted values

Messages show values in a notation of their own.  A string stands in apostrophes,
or in quotation marks when it holds an apostrophe and no quotation mark; a
backslash escapes the enclosing mark, itself and whatever is not printable.

* `Text.quoted`: a string in this notation.
* `Text.literal`: a value in this notation.
* `Text.display`: a value where a text is expected; a string stands for itself.
-/

namespace Questline.Text

/-- The mark a string is enclosed in. -/
def enclosingMark (cs : List Char) : Char :=
  if cs.contains '\'' && !cs.contains '"' then '"' else '\''

/-- A character inside a string that is enclosed in `mark`. -/
def quotedChar (mark c : Char) : List Char :=
  if c == mark || c == '\\' then ['\\', c]
  else if c == '\n' then ['\\', 'n']
  else if c == '\r' then ['\\', 'r']
  else if c == '\t' then ['\\', 't']
  else if isPrintable c then [c]
  else if c.toNat < 0x100 then '\\' :: 'x' :: hexDigits 2 c.toNat
  else if c.toNat < 0x10000 then '\\' :: 'u' :: hexDigits 4 c.toNat
  else '\\' :: 'U' :: hexDigits 8 c.toNat

/-- A string with its marks. -/
def quotedList (cs : List Char) : List Char :=
  enclosingMark cs :: cs.flatMap (quotedChar (enclosingMark cs)) ++ [enclosingMark cs]

/-- A string with its marks. -/
def quoted (s : String) : String := String.ofList (quotedList s.toList)

mutual

/-- A value in the notation of messages. -/
def literalList : Json.Value → List Char
  | .null => "None".toList
  | .bool b => (if b then "True" else "False").toList
  | .int i => (intText i).toList
  | .float x => (FloatStyle.literal.text x).toList
  | .string s => quotedList s.toList
  | .array vs => '[' :: literalItems vs ++ [']']
  | .object ms => '\x7b' :: literalMembers ms ++ ['\x7d']

/-- The items of an array. -/
def literalItems : List Json.Value → List Char
  | [] => []
  | [v] => literalList v
  | v :: vs => literalList v ++ ',' :: ' ' :: literalItems vs

/-- The fields of an object. -/
def literalMembers : List (String × Json.Value) → List Char
  | [] => []
  | [(name, v)] => quotedList name.toList ++ ':' :: ' ' :: literalList v
  | (name, v) :: ms =>
    quotedList name.toList ++ ':' :: ' ' :: literalList v ++ ',' :: ' ' :: literalMembers ms

end

/-- A value in the notation of messages. -/
def literal (v : Json.Value) : String := String.ofList (literalList v)

/-- A value as a text: a string as it stands, any other value in the notation of
messages. -/
def display : Json.Value → String
  | .string s => s
  | v => literal v

end Questline.Text

import Questline.Json.Value
import Questline.Number.Hexadecimal

/-!
# Writing JSON

A value is written in ASCII: other characters, and controls without a short form,
are escaped by their UTF-16 code units.  Files of the program's own are written
over several lines, with two blanks for each level and the fields by name.

* `Json.compact`: a value on one line.
* `Json.document`: an object over several lines, its own fields sorted by name.
-/

namespace Questline.Json

/-! ## Strings -/

/-- The escape of a UTF-16 code unit. -/
def escapeUnit (n : Nat) : List Char := '\\' :: 'u' :: hexDigits 4 n

/-- A character inside a string. -/
def writeChar (c : Char) : List Char :=
  match c with
  | '"' => ['\\', '"']
  | '\\' => ['\\', '\\']
  | '\n' => ['\\', 'n']
  | '\r' => ['\\', 'r']
  | '\t' => ['\\', 't']
  | '\x0c' => ['\\', 'f']
  | '\x08' => ['\\', 'b']
  | c =>
    let n := c.toNat
    if 0x20 ≤ n ∧ n ≤ 0x7E then [c]
    else if n < 0x10000 then escapeUnit n
    else escapeUnit (0xD800 + (n - 0x10000) / 0x400) ++ escapeUnit (0xDC00 + (n - 0x10000) % 0x400)

/-- A string with its quotes. -/
def writeString (s : String) : List Char := '"' :: s.toList.flatMap writeChar ++ ['"']

/-! ## Values -/

/-- How the parts of a text are laid out. -/
inductive Layout where
  /-- On one line, with a blank after each comma. -/
  | compact
  /-- Each item on a line of its own, at the given depth. -/
  | lines (depth : Nat)

/-- One level deeper. -/
def Layout.deeper : Layout → Layout
  | .compact => .compact
  | .lines depth => .lines (depth + 1)

/-- What stands between an opening bracket and the first item, or between the last
item and the closing bracket. -/
def Layout.edge : Layout → List Char
  | .compact => []
  | .lines depth => '\n' :: List.replicate (2 * depth) ' '

/-- What follows a comma. -/
def Layout.gap : Layout → List Char
  | .compact => [' ']
  | .lines depth => '\n' :: List.replicate (2 * depth) ' '

mutual

/-- A value in a layout. -/
def write (layout : Layout) : Value → List Char
  | .null => "null".toList
  | .bool b => (if b then "true" else "false").toList
  | .int i => (intText i).toList
  | .float x => (FloatStyle.json.text x).toList
  | .string s => writeString s
  | .array [] => ['[', ']']
  | .array (v :: vs) =>
    '[' :: layout.deeper.edge ++ write layout.deeper v ++ writeItems layout.deeper vs ++
      layout.edge ++ [']']
  | .object [] => ['{', '}']
  | .object (m :: ms) =>
    '{' :: layout.deeper.edge ++ writeMember layout.deeper m ++ writeMembers layout.deeper ms ++
      layout.edge ++ ['}']

/-- The items after the first one. -/
def writeItems (layout : Layout) : List Value → List Char
  | [] => []
  | v :: vs => ',' :: layout.gap ++ write layout v ++ writeItems layout vs

/-- A field with its name. -/
def writeMember (layout : Layout) : String × Value → List Char
  | (name, v) => writeString name ++ [':', ' '] ++ write layout v

/-- The fields after the first one. -/
def writeMembers (layout : Layout) : List (String × Value) → List Char
  | [] => []
  | m :: ms => ',' :: layout.gap ++ writeMember layout m ++ writeMembers layout ms

end

/-- A value on one line. -/
def compact (v : Value) : String := String.ofList (write .compact v)

/-- An object over several lines, its fields by name. -/
def document (fields : Fields) : String := String.ofList (write (.lines 0) (.object fields.sorted))

end Questline.Json

import Questline.Json.Value
import Questline.Number.Arithmetic

/-!
# Scalars

Flags are scalars: booleans, numbers or texts.  A condition compares a flag strictly by
kind: a boolean matches only a boolean and a text only a text, while numbers match by
value, whether integral or not.

* `Scalar.meets`: whether a flag is what a condition expects.
-/

namespace Questline

/-- A number as a JSON value. -/
def Number.toValue : Number → Json.Value
  | .int i => .int i
  | .float x => .float x

/-- A boolean, a number or a text. -/
inductive Scalar where
  | bool (b : Bool)
  | int (i : Int)
  | float (x : Binary64)
  | text (s : String)
  deriving DecidableEq

namespace Scalar

/-- The scalar as a JSON value. -/
def toValue : Scalar → Json.Value
  | .bool b => .bool b
  | .int i => .int i
  | .float x => .float x
  | .text s => .string s

/-- A JSON value as a scalar; null, arrays and objects are none. -/
def ofValue? : Json.Value → Option Scalar
  | .bool b => some (.bool b)
  | .int i => some (.int i)
  | .float x => some (.float x)
  | .string s => some (.text s)
  | _ => none

@[simp] theorem ofValue?_toValue (s : Scalar) : ofValue? s.toValue = some s := by
  cases s <;> rfl

/-- The number that a scalar is. -/
def number? : Scalar → Option Number
  | .int i => some (.int i)
  | .float x => some (.float x)
  | .bool _ | .text _ => none

/-- Whether two scalars match. -/
def agrees : Scalar → Scalar → Bool
  | .bool a, .bool b => a == b
  | .text s, .text t => s == t
  | s, t =>
    match s.number?, t.number? with
    | some m, some n => m.agrees n
    | _, _ => false

/-- Whether what is held matches what is expected.  What is not held counts as
false, or as null, and matches nothing else. -/
def meets (held : Option Scalar) (expected : Json.Value) : Bool :=
  match held, ofValue? expected with
  | some s, some e => s.agrees e
  | none, some e => e == .bool false
  | some _, none => false
  | none, none => expected == .null

end Scalar

end Questline

import Questline.Number.Decimal

/-!
# Mixed arithmetic

Numbers are integers of any size or floating-point values.  Integers are added and
subtracted exactly; as soon as a floating-point value takes part the other side is made
one too, which fails for an integer beyond them.  Order and equality compare the exact
values, so that no integer is too large to be compared.

* `Number.add?`, `Number.sub?`: sum and difference.
* `Number.agrees`, `Number.less`, `Number.atMost`: equality and order.
* `Number.text`: a number in words.
-/

namespace Questline

/-- A number. -/
inductive Number where
  | int (i : Int)
  | float (x : Binary64)
  deriving DecidableEq

namespace Number

/-- The floating-point value of a number, unless it is an integer beyond them. -/
def toFloat? : Number → Option Binary64
  | .int i => Binary64.ofInt? i
  | .float x => some x

/-- The number in decimal notation. -/
def text : Number → String
  | .int i => intText i
  | .float x => FloatStyle.literal.text x

/-! ## Sums -/

/-- The sum of two numbers. -/
def add? : Number → Number → Option Number
  | .int a, .int b => some (.int (a + b))
  | a, b =>
    match a.toFloat?, b.toFloat? with
    | some x, some y => some (.float (x.add y))
    | _, _ => none

/-- The number with the other sign. -/
def negated : Number → Number
  | .int i => .int (-i)
  | .float x => .float x.negated

/-- The difference of two numbers. -/
def sub? (a b : Number) : Option Number := a.add? b.negated

@[simp] theorem add?_int (a b : Int) : add? (.int a) (.int b) = some (.int (a + b)) := rfl

@[simp] theorem sub?_int (a b : Int) : sub? (.int a) (.int b) = some (.int (a - b)) := rfl

/-! ## Order -/

/-- Whether two numbers have the same value. -/
def agrees : Number → Number → Bool
  | .int a, .int b => a == b
  | .int a, .float y => y.eqInt a
  | .float x, .int b => x.eqInt b
  | .float x, .float y => x.numEq y

/-- Whether a number lies below another. -/
def less : Number → Number → Bool
  | .int a, .int b => decide (a < b)
  | .int a, .float y => y.aboveInt a
  | .float x, .int b => x.belowInt b
  | .float x, .float y => x.numLt y

/-- Whether a number lies below another or agrees with it. -/
def atMost (a b : Number) : Bool := a.less b || a.agrees b

@[simp] theorem less_int (a b : Int) : less (.int a) (.int b) = decide (a < b) := rfl

@[simp] theorem atMost_int (a b : Int) : atMost (.int a) (.int b) = decide (a ≤ b) := by
  rw [Bool.eq_iff_iff]
  simp [atMost, agrees, Int.le_iff_lt_or_eq]

end Number

end Questline

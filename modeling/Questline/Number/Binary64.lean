/-!
# Binary floating-point numbers

The numbers of a script that carry a fraction are IEEE 754 binary64 values, kept
exactly.  The finite magnitudes are counted from zero upwards: magnitude number
`r` is the `r`-th smallest one, its **rank**.  With `m` and `q` read off the rank
(`significand`, `exponent`) the magnitude is `m * 2 ^ q`, so each magnitude has
exactly one representation, and order and parity of magnitudes are order and
parity of ranks.

* `Binary64.ofRatio`: the nearest value to a quotient of naturals, a tie going to
  the even rank; past the last magnitude lies infinity.
* `Binary64.ofInt?`: an integer as a value, when it does not overflow.
* `Binary64.key?`: a number that orders the values; not-a-number has none, and
  the two zeros share theirs.
* `Binary64.add`: the exact sum, rounded.
-/

namespace Questline

/-- The number of finite magnitudes. -/
def Binary64.magnitudes : Nat := 2047 * Nat.pow 2 52

/-- A binary64 value: not-a-number, an infinity, or a sign with the rank of a
finite magnitude. -/
inductive Binary64 where
  | nan
  | infinite (negative : Bool)
  | finite (negative : Bool) (rank : Fin Binary64.magnitudes)
  deriving DecidableEq

namespace Binary64

/-! ## Magnitudes -/

/-- The significand of the magnitude of rank `r`, below `2 ^ 53`. -/
def significand (r : Nat) : Nat :=
  if r < Nat.pow 2 52 then r else Nat.pow 2 52 + r % Nat.pow 2 52

/-- How far the magnitude of rank `r` is scaled up from the smallest exponent,
`-1074`. -/
def scale (r : Nat) : Nat := r / Nat.pow 2 52 - 1

/-- The magnitude of rank `r` as a quotient of naturals: `significand r` times
`2 ^ (scale r - 1074)`. -/
def ratio (r : Nat) : Nat × Nat :=
  if 1074 ≤ scale r then (significand r * Nat.pow 2 (scale r - 1074), 1)
  else (significand r, Nat.pow 2 (1074 - scale r))

/-- The magnitude of rank `r` as a multiple of the smallest one, `2 ^ (-1074)`. -/
def multiple (r : Nat) : Nat := significand r * Nat.pow 2 (scale r)

/-- Zero. -/
def zero : Binary64 := .finite false ⟨0, by decide⟩

instance : Inhabited Binary64 := ⟨zero⟩

/-! ## Rounding -/

/-- The quotient `a / b` rounded to the nearest natural, a tie going to the even
one. -/
def roundDiv (a b : Nat) : Nat :=
  let q := a / b
  let r := a % b
  if 2 * r < b then q
  else if b < 2 * r then q + 1
  else if q % 2 = 0 then q else q + 1

/-- The scale that gives `a / b` a significand of 53 bits, or of fewer where the
exponent can fall no further.  It is found from the binary logarithm of `a / b`,
which lies at or one below the difference of the logarithms of `a` and `b`. -/
def scaleOf (a b : Nat) : Nat :=
  let high := a.log2 + 1022 - b.log2
  if a * Nat.pow 2 b.log2 < b * Nat.pow 2 a.log2 then high - 1 else high

/-- The rank of the magnitude nearest to `a / b`, as if the magnitudes went on
without end. -/
def rankOf (a b : Nat) : Nat :=
  if a = 0 then 0
  else
    roundDiv (a * Nat.pow 2 1074) (b * Nat.pow 2 (scaleOf a b)) + scaleOf a b * Nat.pow 2 52

/-- The value nearest to `a / b` with the given sign. -/
def ofRatio (negative : Bool) (a b : Nat) : Binary64 :=
  if h : rankOf a b < magnitudes then .finite negative ⟨rankOf a b, h⟩ else .infinite negative

/-- The value nearest to an integer; none when that is an infinity. -/
def ofInt? (i : Int) : Option Binary64 :=
  match ofRatio (decide (i < 0)) i.natAbs 1 with
  | .infinite _ => none
  | x => some x

/-! ## Order -/

/-- A number that orders the values from negative infinity to infinity. -/
def key? : Binary64 → Option Int
  | .nan => none
  | .infinite negative => some (if negative then -magnitudes else magnitudes)
  | .finite negative r => some (if negative then -r.val else r.val)

/-- Numeric equality: the zeros are equal, and not-a-number equals nothing. -/
def numEq (x y : Binary64) : Bool :=
  match x.key?, y.key? with
  | some a, some b => a == b
  | _, _ => false

/-- Numeric order; false when one side is not a number. -/
def numLt (x y : Binary64) : Bool :=
  match x.key?, y.key? with
  | some a, some b => decide (a < b)
  | _, _ => false

/-- Numeric order or equality; false when one side is not a number. -/
def numLe (x y : Binary64) : Bool := numLt x y || numEq x y

/-- Whether the value is exactly the integer `i`. -/
def eqInt : Binary64 → Int → Bool
  | .finite negative r, i =>
    let (a, b) := ratio r.val
    i.natAbs * b == a && (a == 0 || negative == decide (i < 0))
  | _, _ => false

/-- A natural with a sign. -/
def signed (negative : Bool) (n : Nat) : Int := if negative then -n else n

/-- Whether the value lies below the integer `i`. -/
def belowInt : Binary64 → Int → Bool
  | .nan, _ => false
  | .infinite negative, _ => negative
  | .finite negative r, i => decide (signed negative (multiple r) < i * Nat.pow 2 1074)

/-- Whether the value lies above the integer `i`. -/
def aboveInt : Binary64 → Int → Bool
  | .nan, _ => false
  | .infinite negative, _ => !negative
  | .finite negative r, i => decide (i * Nat.pow 2 1074 < signed negative (multiple r))

/-- Below zero; neither zero is. -/
def isNegative (x : Binary64) : Bool := numLt x zero

/-! ## Sums -/

/-- The value with the other sign. -/
def negated : Binary64 → Binary64
  | .nan => .nan
  | .infinite negative => .infinite (!negative)
  | .finite negative r => .finite (!negative) r

/-- The sum.  Finite values are added exactly as multiples of the smallest magnitude and
then rounded; a sum of zero is negative only when both sides are.  Opposite infinities
have no sum. -/
def add : Binary64 → Binary64 → Binary64
  | .nan, _ | _, .nan => .nan
  | .infinite a, .infinite b => if a = b then .infinite a else .nan
  | .infinite a, .finite _ _ => .infinite a
  | .finite _ _, .infinite b => .infinite b
  | .finite a r, .finite b s =>
    let sum := signed a (multiple r) + signed b (multiple s)
    if sum = 0 then .ofRatio (a && b) 0 1
    else .ofRatio (decide (sum < 0)) sum.natAbs (Nat.pow 2 1074)

end Binary64

end Questline

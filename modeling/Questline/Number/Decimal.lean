import Questline.Number.Binary64

/-!
# Decimal notation

A decimal is `digits * 10 ^ exponent`.  Integers are written with their digits
alone.  A binary floating-point value is written with the fewest digits that read
back as the same value, or rounded to a fixed number of digits; the digits are
then laid out positionally or with an exponent.

An integer is converted from decimal notation, or to it, only if it has at most
`maxDigits` digits.  This is kept for the ids and handles of a script and for typed
lines (`isShort`, `Text.natural?`).  It is left out wherever else integers are read or
written: in JSON texts, in the flags that are stored, in messages and in what is shown.
There `intText`, `natText` and `Json.readNumber?` know no limit.

* `Decimal.toBinary`: the nearest floating-point value to a decimal.
* `Binary64.shortest`: the decimal with the fewest digits that reads back; of two
  such decimals on one grid the nearer one, and of two equally near ones the even
  one.
* `Binary64.rounded`: the nearest decimal with a given number of digits.
* `FloatStyle`: the decisions that the places where numbers are printed differ in.
-/

namespace Questline

/-! ## Digits -/

/-- The decimal digits of a natural number, first to last. -/
def decimalDigits (n : Nat) : List Char := Nat.toDigits 10 n

/-- The natural number that a list of ASCII digits denotes. -/
def natOfDigits (ds : List Char) : Nat :=
  ds.foldl (fun n d => 10 * n + (d.toNat - '0'.toNat)) 0

/-- An integer in decimal notation. -/
def intText (i : Int) : String :=
  String.ofList (if i < 0 then '-' :: decimalDigits i.natAbs else decimalDigits i.natAbs)

/-- A natural number in decimal notation. -/
def natText (n : Nat) : String := String.ofList (decimalDigits n)

/-- How many digits an integer may have that is converted. -/
def maxDigits : Nat := 4300

/-- Whether a number can be converted: its notation is not too long. -/
def isShort (n : Nat) : Bool := (decimalDigits n).length ≤ maxDigits

/-- A nonnegative decimal number, `digits * 10 ^ exponent`. -/
structure Decimal where
  digits : Nat
  exponent : Int
  deriving DecidableEq

namespace Decimal

/-! ## Reading -/

/-- The place of the decimal point, counted from before the first digit: the
decimal lies below `10 ^ point`, and unless it is zero not below
`10 ^ (point - 1)`. -/
def point (d : Decimal) : Int := (decimalDigits d.digits).length + d.exponent

/-- The decimal as a quotient of naturals. -/
def ratio (d : Decimal) : Nat × Nat :=
  if 0 ≤ d.exponent then (d.digits * Nat.pow 10 d.exponent.toNat, 1)
  else (d.digits, Nat.pow 10 d.exponent.natAbs)

/-- The nearest floating-point value.  Decimals of `10 ^ 310` and more are beyond
the last magnitude, those below `10 ^ (-330)` are nearest to zero; for these the
powers of ten need not be formed. -/
def toBinary (negative : Bool) (d : Decimal) : Binary64 :=
  if d.digits = 0 ∨ d.point < -330 then .ofRatio negative 0 1
  else if 310 < d.point then .infinite negative
  else .ofRatio negative d.ratio.1 d.ratio.2

/-! ## Decimal grids -/

/-- The exponent of the leading digit of `a / b`: the greatest `k` with
`10 ^ k ≤ a / b`. -/
def leading (a b : Nat) : Int :=
  let k : Int := (decimalDigits a).length - (decimalDigits b).length
  if 0 ≤ k then (if b * Nat.pow 10 k.toNat ≤ a then k else k - 1)
  else (if b ≤ a * Nat.pow 10 k.natAbs then k else k - 1)

/-- The quotient `a / b` in units of `10 ^ k`, as a quotient of naturals. -/
def inUnits (a b : Nat) (k : Int) : Nat × Nat :=
  if 0 ≤ k then (a, b * Nat.pow 10 k.toNat) else (a * Nat.pow 10 k.natAbs, b)

/-- The unit that leaves `a / b` with `n` digits before the point. -/
def unitFor (a b n : Nat) : Int := leading a b + 1 - n

/-- The two neighbours of `a / b` among the naturals, the nearer one first. -/
def neighbours (a b : Nat) : List Nat :=
  let near := Binary64.roundDiv a b
  if near = a / b then [near, near + 1] else [near, near - 1]

end Decimal

namespace Binary64

/-- The exact decimal expansion of the magnitude of rank `r`. -/
def exactDecimal (r : Nat) : Decimal :=
  if 1074 ≤ scale r then ⟨(ratio r).1, 0⟩
  else ⟨significand r * Nat.pow 5 (1074 - scale r), scale r - 1074⟩

/-- The decimals with `n` digits around the magnitude of rank `r`, the nearer one
first. -/
def decimalsNear (r n : Nat) : List Decimal :=
  let a := (ratio r).1
  let b := (ratio r).2
  let k := Decimal.unitFor a b n
  let u := Decimal.inUnits a b k
  (Decimal.neighbours u.1 u.2).map (⟨·, k⟩)

/-- The first decimal that reads back as the magnitude of rank `r`, when `n`, `n+1`,
… digits are tried, `fuel` lengths in all; the exact expansion if none does. -/
def shortestFrom (r : Fin magnitudes) : (fuel n : Nat) → Decimal
  | 0, _ => exactDecimal r
  | fuel + 1, n =>
    match (decimalsNear r n).find? (fun d => d.toBinary false == .finite false r) with
    | some d => d
    | none => shortestFrom r fuel (n + 1)

/-- The decimal with the fewest digits that reads back as the magnitude of rank
`r`.  Seventeen digits always suffice. -/
def shortest (r : Fin magnitudes) : Decimal :=
  if r.val = 0 then ⟨0, 0⟩ else shortestFrom r 17 1

/-- The nearest decimal with `n` digits, a tie going to the even one. -/
def rounded (r n : Nat) : Decimal :=
  if r = 0 then ⟨0, 0⟩
  else
    let a := (ratio r).1
    let b := (ratio r).2
    let k := Decimal.unitFor a b n
    let u := Decimal.inUnits a b k
    ⟨roundDiv u.1 u.2, k⟩

end Binary64

/-! ## Layout -/

/-- How a floating-point value is written. -/
structure FloatStyle where
  /-- The word for not-a-number. -/
  nan : String
  /-- The word for infinity. -/
  infinity : String
  /-- The number of digits rounded to; without one, the fewest that read back. -/
  precision : Option Nat
  /-- The last place of the point at which the number is written positionally. -/
  lastPoint : Int
  /-- Whether an integral value keeps a point and a zero. -/
  keepsFraction : Bool

namespace FloatStyle

/-- Floating-point literals: the fewest digits, positionally below `10 ^ 16`. -/
def literal : FloatStyle := ⟨"nan", "inf", none, 16, true⟩

/-- Numbers of a JSON text. -/
def json : FloatStyle := ⟨"NaN", "Infinity", none, 16, true⟩

/-- Quantities shown to the player: six digits, without a trailing fraction of
zero. -/
def brief : FloatStyle := ⟨"nan", "inf", some 6, 6, false⟩

/-- The digits of a decimal without trailing zeros; zero keeps one digit. -/
def significant (d : Decimal) : List Char :=
  match (decimalDigits d.digits).reverse.dropWhile (· == '0') with
  | [] => ['0']
  | ds => ds.reverse

/-- Digits with the point after `point` of them, filled up with zeros on either
side. -/
def positional (keepsFraction : Bool) (ds : List Char) (point : Int) : List Char :=
  if point ≤ 0 then
    ['0', '.'] ++ List.replicate point.natAbs '0' ++ ds
  else if ds.length ≤ point.toNat then
    ds ++ List.replicate (point.toNat - ds.length) '0' ++ (if keepsFraction then ['.', '0'] else [])
  else
    ds.take point.toNat ++ '.' :: ds.drop point.toNat

/-- An exponent: its sign and at least two digits. -/
def exponentText (e : Int) : List Char :=
  let ds := decimalDigits e.natAbs
  (if e < 0 then '-' else '+') :: (if ds.length < 2 then '0' :: ds else ds)

/-- One digit before the point, and an exponent. -/
def scientific (ds : List Char) (point : Int) : List Char :=
  match ds with
  | [] => []
  | [d] => d :: 'e' :: exponentText (point - 1)
  | d :: rest => d :: '.' :: rest ++ 'e' :: exponentText (point - 1)

/-- A finite magnitude. -/
def magnitudeText (style : FloatStyle) (r : Fin Binary64.magnitudes) : List Char :=
  let d := match style.precision with
    | none => Binary64.shortest r
    | some n => Binary64.rounded r n
  let ds := significant d
  if -4 < d.point ∧ d.point ≤ style.lastPoint then positional style.keepsFraction ds d.point
  else scientific ds d.point

/-- A floating-point value in the given style. -/
def text (style : FloatStyle) : Binary64 → String
  | .nan => style.nan
  | .infinite negative => if negative then "-" ++ style.infinity else style.infinity
  | .finite negative r =>
    String.ofList (if negative then '-' :: style.magnitudeText r else style.magnitudeText r)

end FloatStyle

end Questline

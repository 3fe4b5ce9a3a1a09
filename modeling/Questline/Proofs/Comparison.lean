import Mathlib.Order.WithBot
import Questline.Json.Scalar
import Questline.Proofs.Rounding

/-!
# What is compared

Numbers are compared by their exact values, an integer with a floating-point value just as two of one
kind.  Every finite value is a multiple of the smallest magnitude, so the values can be counted in it,
without fractions; the infinities lie at both ends, and not-a-number has no value.  Two scalars match
if they are of one kind and equal, where all numbers are of one kind, and a boolean is none.

* `Binary64.multiple_lt_iff`: magnitudes are in the order of their ranks.
* `Number.value?`: the exact value of a number; `Number.agrees_iff` and `Number.atMost_iff`: equality and
  order are those of the values.
* `Scalar.Matches`: two scalars of one kind and one value; `Scalar.agrees_iff`.
-/

namespace Questline

open Json (Value)

namespace Binary64

/-! ## The order of magnitudes -/

/-- A magnitude that is scaled at all has a significand of 53 bits. -/
theorem le_significand {r : Nat} (h : 0 < scale r) : 2 ^ 52 ≤ significand r := by
  simp only [scale, Nat.pow_eq] at h
  simp only [significand, Nat.pow_eq]
  split <;> omega

theorem multiple_lt {r q : Nat} (h : r < q) : multiple r < multiple q := by
  have rank := significand_add_scale r
  have rank' := significand_add_scale q
  have ordered : scale r ≤ scale q := by
    simp only [scale, Nat.pow_eq]
    omega
  simp only [multiple, Nat.pow_eq]
  rcases Nat.eq_or_lt_of_le ordered with same | less
  · rw [same]
    refine Nat.mul_lt_mul_of_pos_right ?_ (Nat.pow_pos (by decide))
    rw [same] at rank
    omega
  · -- The significand of the smaller one has at most 53 bits, that of the greater one no fewer.
    calc significand r * 2 ^ scale r < 2 ^ 53 * 2 ^ scale r :=
          Nat.mul_lt_mul_of_pos_right (significand_lt r) (Nat.pow_pos (by decide))
      _ = 2 ^ 52 * 2 ^ (scale r + 1) := by rw [Nat.pow_succ 2 (scale r)]; omega
      _ ≤ significand q * 2 ^ scale q :=
          Nat.mul_le_mul (le_significand (by omega)) (Nat.pow_le_pow_right (by decide) less)

/-- **Magnitudes are in the order of their ranks.** -/
theorem multiple_lt_iff {r q : Nat} : multiple r < multiple q ↔ r < q := by
  refine ⟨fun h => ?_, multiple_lt⟩
  by_contra no
  rcases Nat.eq_or_lt_of_le (Nat.le_of_not_lt no) with rfl | less
  · exact Nat.lt_irrefl _ h
  · exact Nat.lt_asymm h (multiple_lt less)

/-- A sign makes no difference to the order of magnitudes. -/
theorem signed_lt_iff {a b : Bool} {r q : Nat} :
    signed a (multiple r) < signed b (multiple q) ↔ signed a r < signed b q := by
  have up := multiple_lt_iff (r := r) (q := q)
  have down := multiple_lt_iff (r := q) (q := r)
  have zero := multiple_lt_iff (r := 0) (q := r)
  have zero' := multiple_lt_iff (r := 0) (q := q)
  have none : multiple 0 = 0 := by decide
  rw [none] at zero zero'
  cases a <;> cases b <;> simp only [signed, if_true, if_false, Bool.false_eq_true] <;> omega

end Binary64

/-! ## Exact values -/

/-- An extended integer: an integer, or one of the two infinities. -/
abbrev Extended := WithBot (WithTop Int)

/-- The order of the integers, between the infinities. -/
instance Extended.preorder : Preorder Extended :=
  @WithBot.instPreorder (WithTop Int) (@WithTop.instPreorder Int Int.instLinearOrder.toPreorder)

/-- An integer as an extended one. -/
def Extended.of (i : Int) : Extended := ((i : WithTop Int) : WithBot (WithTop Int))

namespace Extended

variable {i j : Int}

@[simp] theorem of_lt_of : of i < of j ↔ i < j := by simp [of]

@[simp] theorem of_inj : of i = of j ↔ i = j := by simp [of]

@[simp] theorem bot_lt_of : (⊥ : Extended) < of i := WithBot.bot_lt_coe _

@[simp] theorem of_lt_top : of i < (⊤ : Extended) := WithBot.coe_lt_coe.2 (WithTop.coe_lt_top i)

@[simp] theorem bot_ne_of : (⊥ : Extended) ≠ of i := bot_lt_of.ne

@[simp] theorem top_ne_of : (⊤ : Extended) ≠ of i := of_lt_top.ne'

end Extended

namespace Number

open Binary64 (signed multiple ratio)

/-- How many of the smallest magnitude, `2 ^ (-1074)`, make one. -/
@[irreducible] def unit : Nat := Nat.pow 2 1074

theorem unit_eq : unit = 2 ^ 1074 := by
  unfold unit
  generalize 1074 = n
  exact Nat.pow_eq

theorem unit_pos : 0 < unit := by
  unfold unit
  generalize 1074 = n
  exact Nat.two_pow_pos n

/-- The exact value of a number, counted in the smallest magnitude.  Not-a-number has none. -/
def value? : Number → Option Extended
  | .int i => some (.of (i * unit))
  | .float .nan => none
  | .float (.infinite negative) => some (if negative then ⊥ else ⊤)
  | .float (.finite negative r) => some (.of (signed negative (multiple r)))

/-! ### Floating-point values and integers -/

section Values

variable {x : Binary64} {i : Int}

/-- An integer is a natural with a sign just if it is that natural without its sign, and has the
sign. -/
theorem eq_signed_iff {negative : Bool} {m : Nat} :
    signed negative m = i ↔ i.natAbs = m ∧ (m = 0 ∨ negative = decide (i < 0)) := by
  cases negative with
  | false =>
    rw [eq_comm (a := false), decide_eq_false_iff_not, signed, if_neg Bool.false_ne_true]
    omega
  | true =>
    rw [eq_comm (a := true), decide_eq_true_iff, signed, if_pos rfl]
    omega

/-- Whether a value is an integer, is seen in units of the smallest magnitude. -/
theorem eqInt_iff : x.eqInt i ↔ value? (.float x) = value? (.int i) := by
  cases x with
  | nan => simp [Binary64.eqInt, value?]
  | infinite negative => cases negative <;> simp [Binary64.eqInt, value?]
  | finite negative r =>
    obtain ⟨positive, value⟩ := Binary64.ratio_spec r.val
    rw [← unit_eq] at value
    have whole : i.natAbs * (ratio r).2 = (ratio r).1 ↔ i.natAbs * unit = multiple r := by
      rw [← Nat.mul_left_inj unit_pos.ne', value, Nat.mul_right_comm, Nat.mul_left_inj positive.ne']
    have zero : (ratio r).1 = 0 ↔ multiple r = 0 := by
      rw [← Nat.mul_left_inj unit_pos.ne', value, Nat.zero_mul]
      simp [positive.ne']
    have size : (i * unit).natAbs = i.natAbs * unit := by rw [Int.natAbs_mul, Int.natAbs_natCast]
    have sign : i * unit < 0 ↔ i < 0 := by
      have := Int.mul_lt_mul_right (b := i) (c := 0) (Int.natCast_pos.2 unit_pos)
      rwa [Int.zero_mul] at this
    simp only [Binary64.eqInt, value?, Option.some.injEq, Extended.of_inj, eq_signed_iff, size, sign,
      Bool.and_eq_true, Bool.or_eq_true, beq_iff_eq, whole, zero]

theorem belowInt_finite (negative : Bool) (r : Fin Binary64.magnitudes) :
    (Binary64.finite negative r).belowInt i = decide (signed negative (multiple r) < i * unit) := by
  unfold unit
  exact rfl

theorem aboveInt_finite (negative : Bool) (r : Fin Binary64.magnitudes) :
    (Binary64.finite negative r).aboveInt i = decide (i * unit < signed negative (multiple r)) := by
  unfold unit
  exact rfl

end Values

/-! ### Equality and order -/

/-- Two numbers have values, and these are related. -/
def Relates (related : Extended → Extended → Prop) (m n : Number) : Prop :=
  ∃ v w, m.value? = some v ∧ n.value? = some w ∧ related v w

variable {m n : Number}

/-- What orders the floating-point values orders them by their exact values. -/
theorem key_lt_iff {x y : Binary64} {a b : Int} {v w : Extended} (hx : x.key? = some a)
    (hy : y.key? = some b) (hv : value? (.float x) = some v) (hw : value? (.float y) = some w) :
    a < b ↔ v < w := by
  have positive : (0 : Int) < Binary64.magnitudes := by decide
  cases x with
  | nan => cases hx
  | infinite p =>
    cases y with
    | nan => cases hy
    | infinite q =>
      cases hx; cases hy; cases hv; cases hw
      cases p <;> cases q <;> simp
      omega
    | finite q s =>
      have := s.isLt
      cases hx; cases hy; cases hv; cases hw
      cases p <;> simp <;> omega
  | finite p r =>
    have := r.isLt
    cases y with
    | nan => cases hy
    | infinite q =>
      cases hx; cases hy; cases hv; cases hw
      cases q <;> simp <;> omega
    | finite q s =>
      cases hx; cases hy; cases hv; cases hw
      rw [Extended.of_lt_of, Binary64.signed_lt_iff]
      rfl

/-- Two floating-point values both have exact values and numbers that order them, or they cannot be
compared in any way. -/
theorem compare_cases (x y : Binary64) :
    (∃ a b v w, x.key? = some a ∧ y.key? = some b ∧ value? (.float x) = some v ∧
        value? (.float y) = some w) ∨
      (x.key? = none ∨ y.key? = none) ∧ ∀ related, ¬Relates related (.float x) (.float y) := by
  cases x with
  | nan => exact .inr ⟨.inl rfl, fun _ ⟨_, _, value, _⟩ => nomatch value⟩
  | infinite | finite =>
    cases y with
    | nan => exact .inr ⟨.inr rfl, fun _ ⟨_, _, _, value, _⟩ => nomatch value⟩
    | infinite | finite => exact .inl ⟨_, _, _, _, rfl, rfl, rfl, rfl⟩

theorem numLt_iff {x y : Binary64} : x.numLt y ↔ Relates (· < ·) (.float x) (.float y) := by
  rcases compare_cases x y with ⟨a, b, v, w, hx, hy, hv, hw⟩ | ⟨none | none, apart⟩
  · simp [Binary64.numLt, Relates, hx, hy, hv, hw, key_lt_iff hx hy hv hw]
  · simp [Binary64.numLt, none, apart]
  · simp [Binary64.numLt, none, apart]

theorem numEq_iff {x y : Binary64} : x.numEq y ↔ Relates (· = ·) (.float x) (.float y) := by
  rcases compare_cases x y with ⟨a, b, v, w, hx, hy, hv, hw⟩ | ⟨none | none, apart⟩
  · have same : a = b ↔ v = w := by
      have less := key_lt_iff hx hy hv hw
      have more := key_lt_iff hy hx hw hv
      rw [Int.eq_iff_le_and_ge, le_antisymm_iff, ← not_lt, ← not_lt, less, more, not_lt, not_lt]
    simp [Binary64.numEq, Relates, hx, hy, hv, hw, same]
  · simp [Binary64.numEq, none, apart]
  · simp [Binary64.numEq, none, apart]

/-- **A number lies below another** just if its exact value does. -/
theorem less_iff : m.less n ↔ Relates (· < ·) m n := by
  cases m with
  | int a =>
    cases n with
    | int b => simp [Relates, value?, Int.mul_lt_mul_right (Int.natCast_pos.2 unit_pos)]
    | float y =>
      cases y with
      | nan => simp [Relates, value?, less, Binary64.aboveInt]
      | infinite negative => cases negative <;> simp [Relates, value?, less, Binary64.aboveInt]
      | finite negative r => simp [Relates, value?, less, aboveInt_finite]
  | float x =>
    cases n with
    | int b =>
      cases x with
      | nan => simp [Relates, value?, less, Binary64.belowInt]
      | infinite negative => cases negative <;> simp [Relates, value?, less, Binary64.belowInt]
      | finite negative r => simp [Relates, value?, less, belowInt_finite]
    | float y => exact numLt_iff

/-- **Two numbers agree** just if they have the same exact value. -/
theorem agrees_iff : m.agrees n ↔ Relates (· = ·) m n := by
  cases m with
  | int a =>
    cases n with
    | int b => simp [Relates, value?, agrees, unit_pos.ne']
    | float y => simp [Relates, agrees, eqInt_iff, value?]
  | float x =>
    cases n with
    | int b => simp [Relates, agrees, eqInt_iff, value?]
    | float y => exact numEq_iff

/-- **A number is at most another** just if its exact value is. -/
theorem atMost_iff : m.atMost n ↔ Relates (· ≤ ·) m n := by
  simp only [atMost, Bool.or_eq_true, less_iff, agrees_iff, Relates, le_iff_lt_or_eq, and_or_left,
    exists_or]

example : value? (.int 1) = value? (.float (.ofRatio false 1 1)) := by decide +kernel

end Number

/-! ## Scalars -/

namespace Scalar

/-- Two scalars of one kind and one value: equal booleans, equal texts, or numbers of one exact value. -/
inductive Matches : Scalar → Scalar → Prop
  | bool (b : Bool) : Matches (.bool b) (.bool b)
  | text (s : String) : Matches (.text s) (.text s)
  | number {s t : Scalar} {m n : Number} (first : s.number? = some m) (second : t.number? = some n)
      (same : Number.Relates (· = ·) m n) : Matches s t

/-- **Scalars agree** just if they match. -/
theorem agrees_iff {s t : Scalar} : s.agrees t ↔ s.Matches t := by
  constructor
  · intro h
    unfold agrees at h
    split at h
    case h_1 =>
      obtain rfl := beq_iff_eq.1 h
      exact .bool _
    case h_2 =>
      obtain rfl := beq_iff_eq.1 h
      exact .text _
    case h_3 =>
      split at h
      case h_1 first second => exact .number first second (Number.agrees_iff.1 h)
      case h_2 => cases h
  · intro h
    cases h with
    | bool b => exact beq_self_eq_true b
    | text s => exact beq_self_eq_true s
    | @number s t m n first second same =>
      have agree := Number.agrees_iff.2 same
      cases s <;> cases first <;> cases t <;> cases second <;> exact agree

/-- **What is held meets what is expected** just if both match; what is not held counts as false. -/
theorem meets_iff {held : Option Scalar} {w : Scalar} :
    meets held w.toValue ↔ held = none ∧ w = .bool false ∨ ∃ v, held = some v ∧ v.Matches w := by
  cases held with
  | none => simp [meets]
  | some v => simp [meets, agrees_iff]

end Scalar

end Questline

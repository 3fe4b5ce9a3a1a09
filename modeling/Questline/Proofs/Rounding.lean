import Mathlib.Tactic.Ring
import Mathlib.Order.Basic
import Questline.Number.Decimal

/-!
# Rounding and reading back

A quotient of naturals is rounded by its value alone, however it is written down, and a
magnitude is rounded to itself.  So a decimal is read as the value that it denotes: zeros at
the end of its digits make no difference, and the shortest decimal of a magnitude is read as
that magnitude.

The shortest decimal reads back because only a decimal that does so is chosen.  If there were
none among the decimals of up to seventeen digits, the exact expansion would be written, and
that one reads back because a magnitude is rounded to itself.

* `Binary64.le_scaleOf_iff`: the scale of a quotient.
* `Binary64.rankOf_multiple`: a magnitude is rounded to itself.
* `Decimal.toBinary_scaled`: zeros at the end of the digits make no difference.
* `Binary64.toBinary_shortest`: the shortest decimal reads back.
-/

namespace Questline

namespace Binary64

/-! ## Quotients -/

section Quotients

variable {a b a' b' c n r : Nat}

/-- **The scale of a quotient**: the greatest one at which it has a significand of 53 bits. -/
theorem le_scaleOf_iff (ha : 0 < a) (hb : 0 < b) :
    n ≤ scaleOf a b ↔ n = 0 ∨ b * 2 ^ n ≤ a * 2 ^ 1022 := by
  rcases Nat.eq_zero_or_pos n with rfl | hn
  · simp
  have ha1 : 2 ^ a.log2 ≤ a := Nat.log2_self_le ha.ne'
  have ha2 : a < 2 ^ (a.log2 + 1) := Nat.lt_log2_self
  have hb1 : 2 ^ b.log2 ≤ b := Nat.log2_self_le hb.ne'
  have hb2 : b < 2 ^ (b.log2 + 1) := Nat.lt_log2_self
  have pos (k : Nat) : 0 < 2 ^ k := Nat.pow_pos (by decide)
  simp only [scaleOf, Nat.pow_eq]
  generalize 1022 = least
  generalize a.log2 = x at *
  generalize b.log2 = y at *
  split
  case isTrue less =>
    constructor
    · intro le
      right
      calc b * 2 ^ n ≤ 2 ^ (y + 1) * 2 ^ n := Nat.mul_le_mul_right _ hb2.le
        _ = 2 ^ (y + 1 + n) := (Nat.pow_add ..).symm
        _ ≤ 2 ^ (x + least) := Nat.pow_le_pow_right (by decide) (by omega)
        _ = 2 ^ x * 2 ^ least := Nat.pow_add ..
        _ ≤ a * 2 ^ least := Nat.mul_le_mul_right _ ha1
    · rintro (zero | le)
      · omega
      have small : b * 2 ^ (n + y) < b * 2 ^ (x + least) := by
        calc b * 2 ^ (n + y) = b * 2 ^ n * 2 ^ y := by ring
          _ ≤ a * 2 ^ least * 2 ^ y := Nat.mul_le_mul_right _ le
          _ = a * 2 ^ y * 2 ^ least := by ring
          _ < b * 2 ^ x * 2 ^ least := Nat.mul_lt_mul_of_pos_right less (pos _)
          _ = b * 2 ^ (x + least) := by ring
      have := (Nat.pow_lt_pow_iff_right (by decide)).1 (Nat.lt_of_mul_lt_mul_left small)
      omega
  case isFalse more =>
    have more : b * 2 ^ x ≤ a * 2 ^ y := Nat.le_of_not_lt more
    constructor
    · intro le
      right
      refine Nat.le_of_mul_le_mul_right ?_ (pos x)
      calc b * 2 ^ n * 2 ^ x = b * 2 ^ x * 2 ^ n := by ring
        _ ≤ a * 2 ^ y * 2 ^ n := Nat.mul_le_mul_right _ more
        _ = a * 2 ^ (y + n) := by ring
        _ ≤ a * 2 ^ (x + least) :=
          Nat.mul_le_mul_left _ (Nat.pow_le_pow_right (by decide) (by omega))
        _ = a * 2 ^ least * 2 ^ x := by ring
    · rintro (zero | le)
      · omega
      have small : 2 ^ (y + n) < 2 ^ (x + 1 + least) := by
        calc 2 ^ (y + n) = 2 ^ y * 2 ^ n := Nat.pow_add ..
          _ ≤ b * 2 ^ n := Nat.mul_le_mul_right _ hb1
          _ ≤ a * 2 ^ least := le
          _ < 2 ^ (x + 1) * 2 ^ least := Nat.mul_lt_mul_of_pos_right ha2 (pos _)
          _ = 2 ^ (x + 1 + least) := (Nat.pow_add ..).symm
      have := (Nat.pow_lt_pow_iff_right (by decide)).1 small
      omega

theorem scaleOf_mul (ha : 0 < a) (hb : 0 < b) (hc : 0 < c) :
    scaleOf (a * c) (b * c) = scaleOf a b := by
  refine eq_of_forall_le_iff fun n => ?_
  rw [le_scaleOf_iff (Nat.mul_pos ha hc) (Nat.mul_pos hb hc), le_scaleOf_iff ha hb,
    Nat.mul_right_comm b, Nat.mul_right_comm a, Nat.mul_le_mul_right_iff hc]

theorem roundDiv_mul (hc : 0 < c) : roundDiv (a * c) (b * c) = roundDiv a b := by
  simp only [roundDiv, Nat.mul_div_mul_right _ _ hc, Nat.mul_mod_mul_right, ← Nat.mul_assoc,
    Nat.mul_lt_mul_right hc]

theorem roundDiv_mul_self (hb : 0 < b) : roundDiv (n * b) b = n := by
  simp [roundDiv, Nat.mul_div_cancel _ hb, hb]

theorem rankOf_mul (hb : 0 < b) (hc : 0 < c) : rankOf (a * c) (b * c) = rankOf a b := by
  rcases Nat.eq_zero_or_pos a with rfl | ha
  · simp [rankOf]
  · simp only [rankOf, Nat.mul_eq_zero, ha.ne', hc.ne', or_self, if_false, scaleOf_mul ha hb hc]
    rw [Nat.mul_right_comm a, Nat.mul_right_comm b, roundDiv_mul hc]

/-- **A quotient is rounded by its value alone.** -/
theorem rankOf_congr (hb : 0 < b) (hb' : 0 < b') (h : a * b' = a' * b) :
    rankOf a b = rankOf a' b' := by
  rw [← rankOf_mul hb hb', h, Nat.mul_comm b b', rankOf_mul hb' hb]

end Quotients

/-! ## Magnitudes -/

section Magnitudes

variable {r : Nat}

theorem significand_lt (r : Nat) : significand r < 2 ^ 53 := by
  simp only [significand, Nat.pow_eq]
  split <;> omega

theorem significand_pos (hr : 0 < r) : 0 < significand r := by
  simp only [significand, Nat.pow_eq]
  split <;> omega

theorem scale_lt (hr : r < magnitudes) : scale r < 2046 := by
  simp only [magnitudes, Nat.pow_eq] at hr
  simp only [scale, Nat.pow_eq]
  omega

/-- A rank is made up of the significand and the scale of its magnitude. -/
theorem significand_add_scale (r : Nat) : significand r + scale r * 2 ^ 52 = r := by
  simp only [significand, scale, Nat.pow_eq]
  split <;> omega

theorem scaleOf_multiple (hr : 0 < r) : scaleOf (multiple r) (2 ^ 1074) = scale r := by
  have positive : 0 < multiple r :=
    Nat.mul_pos (significand_pos hr) (Nat.pow_pos (by decide))
  refine eq_of_forall_le_iff fun n => ?_
  rw [le_scaleOf_iff positive (Nat.pow_pos (by decide))]
  have value : 2 ^ 1074 * 2 ^ n ≤ multiple r * 2 ^ 1022 ↔
      2 ^ (52 + n) ≤ significand r * 2 ^ scale r := by
    have units : 2 ^ 1074 * 2 ^ n = 2 ^ (52 + n) * 2 ^ 1022 := by
      rw [← Nat.pow_add, ← Nat.pow_add, Nat.add_right_comm]
    rw [units, Nat.mul_le_mul_right_iff (Nat.pow_pos (by decide))]
    rfl
  rw [value]
  by_cases low : r < 2 ^ 52
  · -- The magnitude is too small for 53 bits, and is not scaled at all.
    have hs : significand r = r := by simp only [significand, Nat.pow_eq, if_pos low]
    have hq : scale r = 0 := by simp only [scale, Nat.pow_eq]; omega
    rw [hs, hq, Nat.pow_zero, Nat.mul_one]
    constructor
    · rintro (rfl | le)
      · exact Nat.le_refl 0
      · have : 2 ^ 52 ≤ 2 ^ (52 + n) := Nat.pow_le_pow_right (by decide) (by omega)
        omega
    · intro le
      exact .inl (by omega)
  · have hs : 2 ^ 52 ≤ significand r := by simp only [significand, Nat.pow_eq]; split <;> omega
    constructor
    · rintro (rfl | le)
      · exact Nat.zero_le _
      · have less : 2 ^ (52 + n) < 2 ^ (53 + scale r) := by
          calc 2 ^ (52 + n) ≤ significand r * 2 ^ scale r := le
            _ < 2 ^ 53 * 2 ^ scale r :=
              Nat.mul_lt_mul_of_pos_right (significand_lt r) (Nat.pow_pos (by decide))
            _ = 2 ^ (53 + scale r) := (Nat.pow_add ..).symm
        have := (Nat.pow_lt_pow_iff_right (by decide)).1 less
        omega
    · intro le
      right
      calc 2 ^ (52 + n) = 2 ^ 52 * 2 ^ n := Nat.pow_add ..
        _ ≤ significand r * 2 ^ scale r :=
          Nat.mul_le_mul hs (Nat.pow_le_pow_right (by decide) le)

/-- **A magnitude**, as a multiple of the smallest one, **is rounded to itself**. -/
theorem rankOf_multiple (r : Nat) : rankOf (multiple r) (2 ^ 1074) = r := by
  rcases Nat.eq_zero_or_pos r with rfl | hr
  · decide
  have positive : multiple r ≠ 0 :=
    (Nat.mul_pos (significand_pos hr) (Nat.pow_pos (by decide))).ne'
  rw [rankOf, if_neg positive, scaleOf_multiple hr]
  simp only [Nat.pow_eq]
  rw [multiple, Nat.pow_eq, Nat.mul_assoc, Nat.mul_comm (2 ^ scale r),
    roundDiv_mul_self (Nat.mul_pos (Nat.pow_pos (by decide)) (Nat.pow_pos (by decide)))]
  exact significand_add_scale r

/-- The quotient of a magnitude is a multiple of the smallest one. -/
theorem ratio_spec (r : Nat) :
    0 < (ratio r).2 ∧ (ratio r).1 * 2 ^ 1074 = multiple r * (ratio r).2 := by
  unfold ratio
  split
  case isTrue h =>
    refine ⟨Nat.one_pos, ?_⟩
    simp only [multiple, Nat.pow_eq, Nat.mul_one]
    rw [Nat.mul_assoc, ← Nat.pow_add, Nat.sub_add_cancel h]
  case isFalse h =>
    refine ⟨Nat.pow_pos (by decide), ?_⟩
    simp only [multiple, Nat.pow_eq]
    rw [Nat.mul_assoc, ← Nat.pow_add, Nat.add_sub_cancel' (Nat.le_of_not_le h)]

end Magnitudes

end Binary64

/-! ## Digits -/

theorem length_decimalDigits_pos (n : Nat) : 0 < (decimalDigits n).length := Nat.length_toDigits_pos

theorem length_decimalDigits_le_iff {n k : Nat} (hk : 0 < k) :
    (decimalDigits n).length ≤ k ↔ n < 10 ^ k :=
  Nat.length_toDigits_le_iff (by decide) hk

theorem decimalDigits_mul_ten {n : Nat} (hn : 0 < n) :
    decimalDigits (n * 10) = decimalDigits n ++ ['0'] := by
  have := Nat.toDigits_append_toDigits (b := 10) (n := n) (d := 0) (by decide) hn (by decide)
  rw [Nat.add_zero, Nat.mul_comm] at this
  exact this.symm

/-- A power of ten puts zeros at the end. -/
theorem decimalDigits_mul_pow {n : Nat} (hn : 0 < n) (k : Nat) :
    decimalDigits (n * 10 ^ k) = decimalDigits n ++ List.replicate k '0' := by
  induction k with
  | zero => simp
  | succ k ih =>
    rw [Nat.pow_succ, ← Nat.mul_assoc,
      decimalDigits_mul_ten (Nat.mul_pos hn (Nat.pow_pos (by decide))), ih, List.append_assoc,
      List.replicate_succ']

namespace Decimal

/-! ## Decimals of one value -/

variable {d : Decimal} {n : Nat} {e : Int}

/-- A decimal as a quotient, in units so small that all is integral. -/
theorem ratio_spec (d : Decimal) {k : Nat} (hk : 0 ≤ d.exponent + k) :
    0 < d.ratio.2 ∧ d.ratio.1 * 10 ^ k = d.digits * 10 ^ (d.exponent + k).toNat * d.ratio.2 := by
  unfold ratio
  split
  case isTrue h =>
    refine ⟨Nat.one_pos, ?_⟩
    simp only [Nat.pow_eq, Nat.mul_one]
    rw [Nat.mul_assoc, ← Nat.pow_add, Int.toNat_add h (by omega), Int.toNat_natCast]
  case isFalse h =>
    refine ⟨Nat.pow_pos (by decide), ?_⟩
    simp only [Nat.pow_eq]
    rw [Nat.mul_assoc, ← Nat.pow_add]
    congr 2
    omega

theorem point_scaled (hn : 0 < n) (e : Int) (k : Nat) :
    point ⟨n * 10 ^ k, e - k⟩ = point ⟨n, e⟩ := by
  simp only [point, decimalDigits_mul_pow hn, List.length_append, List.length_replicate,
    Int.natCast_add]
  omega

theorem ofRatio_scaled (negative : Bool) (n : Nat) (e : Int) (k : Nat) :
    Binary64.ofRatio negative (ratio ⟨n * 10 ^ k, e - k⟩).1 (ratio ⟨n * 10 ^ k, e - k⟩).2 =
      Binary64.ofRatio negative (ratio ⟨n, e⟩).1 (ratio ⟨n, e⟩).2 := by
  have unit : ∃ m : Nat, 0 ≤ e - k + m := ⟨(e - k).natAbs, by omega⟩
  obtain ⟨m, hm⟩ := unit
  obtain ⟨pos, value⟩ := ratio_spec ⟨n * 10 ^ k, e - k⟩ hm
  obtain ⟨pos', value'⟩ := ratio_spec ⟨n, e⟩ (k := m) (show 0 ≤ e + m by omega)
  generalize ratio ⟨n * 10 ^ k, e - k⟩ = x at *
  generalize ratio ⟨n, e⟩ = y at *
  simp only at value value'
  rw [show n * 10 ^ k * 10 ^ (e - k + m).toNat = n * 10 ^ (e + m).toNat by
    rw [Nat.mul_assoc, ← Nat.pow_add]; congr 2; omega] at value
  -- Both quotients are the same number of units.
  have cross : x.1 * y.2 = y.1 * x.2 := by
    refine Nat.eq_of_mul_eq_mul_right (Nat.pow_pos (n := m) (show 0 < 10 by decide)) ?_
    calc x.1 * y.2 * 10 ^ m = x.1 * 10 ^ m * y.2 := by ring
      _ = n * 10 ^ (e + m).toNat * x.2 * y.2 := by rw [value]
      _ = n * 10 ^ (e + m).toNat * y.2 * x.2 := by ring
      _ = y.1 * 10 ^ m * x.2 := by rw [value']
      _ = y.1 * x.2 * 10 ^ m := by ring
  simp only [Binary64.ofRatio, Binary64.rankOf_congr pos pos' cross]

/-- **Zeros at the end of the digits make no difference.** -/
theorem toBinary_scaled (negative : Bool) (n : Nat) (e : Int) (k : Nat) :
    toBinary negative ⟨n * 10 ^ k, e - k⟩ = toBinary negative ⟨n, e⟩ := by
  rcases Nat.eq_zero_or_pos n with rfl | hn
  · simp [toBinary]
  · have hnk : 0 < n * 10 ^ k := Nat.mul_pos hn (Nat.pow_pos (by decide))
    simp only [toBinary, hnk.ne', hn.ne', false_or, point_scaled hn, ofRatio_scaled]

/-- The sign is put on what the digits denote. -/
theorem toBinary_of_finite {r : Fin Binary64.magnitudes} (negative : Bool)
    (h : d.toBinary false = .finite false r) : d.toBinary negative = .finite negative r := by
  have put {a b : Nat} (h : Binary64.ofRatio false a b = .finite false r) :
      Binary64.ofRatio negative a b = .finite negative r := by
    unfold Binary64.ofRatio at h ⊢
    split at h
    case isTrue hr =>
      cases h
      exact dif_pos hr
    case isFalse => cases h
  unfold toBinary at h ⊢
  split at h
  case isTrue hd =>
    rw [if_pos hd]
    exact put h
  case isFalse hd =>
    split at h
    case isTrue => cases h
    case isFalse hp =>
      rw [if_neg hd, if_neg hp]
      exact put h

end Decimal

/-! ## The shortest decimal -/

namespace Binary64

theorem toBinary_zero (negative : Bool) (e : Int) :
    Decimal.toBinary negative ⟨0, e⟩ = .finite negative ⟨0, by decide⟩ := by
  have zero : rankOf 0 1 = 0 := rfl
  simp only [Decimal.toBinary, true_or, if_true, ofRatio, zero]
  rfl

/-- In units of `10 ^ (-1074)` the exact expansion is integral. -/
theorem exactDecimal_spec (r : Nat) :
    0 ≤ (exactDecimal r).exponent + (1074 : Nat) ∧
      (exactDecimal r).digits * 10 ^ ((exactDecimal r).exponent + (1074 : Nat)).toNat =
        multiple r * 5 ^ 1074 := by
  have ten (k : Nat) : 10 ^ k = 2 ^ k * 5 ^ k := Nat.mul_pow 2 5 k
  unfold exactDecimal ratio multiple
  rw [show (1074 : Int) = (1074 : Nat) from rfl]
  generalize 1074 = depth
  simp only [Nat.pow_eq]
  split
  case isTrue h =>
    simp only
    refine ⟨by omega, ?_⟩
    rw [Int.zero_add, Int.toNat_natCast, ten, Nat.mul_assoc, ← Nat.mul_assoc (2 ^ _), ← Nat.pow_add,
      Nat.sub_add_cancel h, Nat.mul_assoc]
  case isFalse h =>
    have split : 5 ^ depth = 5 ^ (depth - scale r) * 5 ^ scale r := by
      rw [← Nat.pow_add, Nat.sub_add_cancel (Nat.le_of_not_le h)]
    simp only
    rw [Int.sub_add_cancel, Int.toNat_natCast]
    refine ⟨Int.natCast_nonneg _, ?_⟩
    rw [split, ten]
    ring

/-- The exact expansion of a magnitude lies between the powers of ten beyond which no decimal is
looked at. -/
theorem point_exactDecimal {r : Nat} (hr : 0 < r) (hm : r < magnitudes) :
    -330 ≤ (exactDecimal r).point ∧ (exactDecimal r).point ≤ 310 := by
  obtain ⟨low, value⟩ := exactDecimal_spec r
  have least : 1 ≤ multiple r := Nat.mul_pos (significand_pos hr) (Nat.pow_pos (by decide))
  have greatest : multiple r ≤ 2 ^ 2099 := by
    calc multiple r = significand r * 2 ^ scale r := rfl
      _ ≤ 2 ^ 53 * 2 ^ scale r := Nat.mul_le_mul_right _ (significand_lt r).le
      _ = 2 ^ (53 + scale r) := (Nat.pow_add ..).symm
      _ ≤ 2 ^ 2099 := Nat.pow_le_pow_right (by decide) (by have := scale_lt hm; omega)
  generalize exactDecimal r = d at *
  obtain ⟨k, hk⟩ : ∃ k : Nat, d.exponent + (1074 : Nat) = k := ⟨_, (Int.toNat_of_nonneg low).symm⟩
  rw [hk, Int.toNat_natCast] at value
  have upper : d.digits * 10 ^ k < 10 ^ 1384 := by
    rw [value]
    exact Nat.lt_of_le_of_lt (Nat.mul_le_mul_right _ greatest) (by decide +kernel)
  have lower : 10 ^ 743 < d.digits * 10 ^ k := by
    rw [value]
    exact Nat.lt_of_lt_of_le (by decide +kernel) (Nat.mul_le_mul_right (5 ^ 1074) least)
  have length := length_decimalDigits_pos d.digits
  have digits : d.digits < 10 ^ (decimalDigits d.digits).length :=
    (length_decimalDigits_le_iff length).1 (Nat.le_refl _)
  have some : 0 < d.digits := Nat.pos_of_mul_pos_right (Nat.zero_lt_of_lt lower)
  simp only [Decimal.point]
  generalize hl : (decimalDigits d.digits).length = l at *
  constructor
  · have : 10 ^ 743 < 10 ^ (l + k) := by
      calc 10 ^ 743 < d.digits * 10 ^ k := lower
        _ ≤ 10 ^ l * 10 ^ k := Nat.mul_le_mul_right _ digits.le
        _ = 10 ^ (l + k) := (Nat.pow_add ..).symm
    have := (Nat.pow_lt_pow_iff_right (by decide)).1 this
    omega
  · have : 10 ^ (l - 1 + k) < 10 ^ 1384 := by
      rw [Nat.pow_add]
      refine Nat.lt_of_le_of_lt (Nat.mul_le_mul_right _ ?_) upper
      rcases Nat.eq_zero_or_pos (l - 1) with h | h
      · rw [h]
        exact some
      · refine Nat.le_of_not_lt fun less => ?_
        have := (length_decimalDigits_le_iff h).2 less
        omega
    have := (Nat.pow_lt_pow_iff_right (by decide)).1 this
    omega

/-- The exact expansion of a magnitude reads back. -/
theorem toBinary_exactDecimal {r : Fin magnitudes} (hr : 0 < r.val) :
    (exactDecimal r).toBinary false = .finite false r := by
  obtain ⟨low, value⟩ := exactDecimal_spec r
  obtain ⟨above, below⟩ := point_exactDecimal hr r.isLt
  have some : (exactDecimal r.val).digits ≠ 0 := by
    intro zero
    rw [zero, Nat.zero_mul] at value
    have : 0 < multiple r := Nat.mul_pos (significand_pos hr) (Nat.pow_pos (by decide))
    have := Nat.mul_pos this (Nat.pow_pos (n := 1074) (show 0 < 5 by decide))
    omega
  obtain ⟨pos, quotient⟩ := Decimal.ratio_spec (exactDecimal r) low
  rw [value] at quotient
  -- The quotient of the decimal is that of the magnitude.
  have cross : (exactDecimal r.val).ratio.1 * 2 ^ 1074 =
      multiple r * (exactDecimal r.val).ratio.2 := by
    refine Nat.eq_of_mul_eq_mul_right (Nat.pow_pos (n := 1074) (show 0 < 5 by decide)) ?_
    rw [Nat.mul_assoc, ← Nat.mul_pow, show 2 * 5 = 10 from rfl, quotient]
    ring
  have rank : rankOf (exactDecimal r.val).ratio.1 (exactDecimal r.val).ratio.2 = r.val := by
    rw [rankOf_congr pos (Nat.pow_pos (by decide)) cross, rankOf_multiple]
  rw [Decimal.toBinary, if_neg (by omega), if_neg (by omega), ofRatio]
  simp only [rank, r.isLt, dif_pos]

theorem toBinary_shortestFrom {r : Fin magnitudes} (hr : 0 < r.val) (fuel n : Nat) :
    (shortestFrom r fuel n).toBinary false = .finite false r := by
  induction fuel generalizing n with
  | zero => exact toBinary_exactDecimal hr
  | succ fuel ih =>
    unfold shortestFrom
    split
    case h_1 d found => exact beq_iff_eq.1 (List.find?_some (p := fun d => _ == _) found)
    case h_2 => exact ih (n + 1)

/-- **The shortest decimal of a magnitude reads back.** -/
theorem toBinary_shortest (negative : Bool) (r : Fin magnitudes) :
    (shortest r).toBinary negative = .finite negative r := by
  unfold shortest
  split
  case isTrue h =>
    obtain rfl : r = ⟨0, by decide⟩ := Fin.ext h
    exact toBinary_zero negative 0
  case isFalse h =>
    exact Decimal.toBinary_of_finite negative (toBinary_shortestFrom (Nat.pos_of_ne_zero h) 17 1)

theorem shortest_digits_pos {r : Fin magnitudes} (hr : 0 < r.val) : 0 < (shortest r).digits := by
  refine Nat.pos_of_ne_zero fun zero => ?_
  have back := toBinary_shortest false r
  rw [show shortest r = ⟨0, (shortest r).exponent⟩ by rw [← zero], toBinary_zero] at back
  have : r = ⟨0, by decide⟩ := by injection back with _ h; exact h.symm
  rw [this] at hr
  exact Nat.lt_irrefl 0 hr

end Binary64

end Questline

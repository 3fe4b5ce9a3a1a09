import Mathlib.Data.List.Basic
import Mathlib.Data.List.TakeWhile
import Questline.Json.Reader
import Questline.Proofs.Rounding

/-!
# Numbers written and read back

An integer is written with its digits, and a floating-point value with the significant digits of
its shortest decimal, positionally or with an exponent.  Either is read back as the number that was
written, up to the first character that cannot continue it.

The layout moves the point and adds zeros, so what is read is another decimal of the same value as
the one that was laid out; what is read in the end depends on the value alone.

* `natOfDigits_decimalDigits`: the digits of a natural number denote it.
* `Json.readNumber?_positional`, `Json.readNumber?_scientific`: the two layouts.
* `Json.readNumber?_intText`, `Json.readNumber?_floatText`: a number that is written is read back.
-/

namespace Questline

/-! ## Digits -/

section Digits

variable {ds es : List Char} {n : Nat}

theorem natOfDigits_eq (ds : List Char) : natOfDigits ds = Nat.ofDigitChars 10 ds 0 :=
  (Nat.ofDigitChars_eq_foldl ..).symm

/-- **The digits of a natural number denote it.** -/
@[simp] theorem natOfDigits_decimalDigits (n : Nat) : natOfDigits (decimalDigits n) = n := by
  rw [natOfDigits_eq, decimalDigits, Nat.ofDigitChars_ten_toDigits]

theorem natOfDigits_append (ds es : List Char) :
    natOfDigits (ds ++ es) = natOfDigits ds * 10 ^ es.length + natOfDigits es := by
  simp only [natOfDigits_eq, Nat.ofDigitChars_append]
  rw [Nat.ofDigitChars_eq_ofDigitChars_zero, Nat.mul_comm]

theorem natOfDigits_zero_cons (ds : List Char) : natOfDigits ('0' :: ds) = natOfDigits ds := rfl

@[simp] theorem natOfDigits_replicate_zero (k : Nat) : natOfDigits (List.replicate k '0') = 0 := by
  induction k with
  | zero => rfl
  | succ k ih => rw [List.replicate_succ, natOfDigits_zero_cons, ih]

theorem isDigit_decimalDigits {c : Char} (h : c ∈ decimalDigits n) : c.isDigit :=
  Nat.isDigit_of_mem_toDigits (by decide) (by decide) h

/-- Digits that do not begin with a zero. -/
structure IsNumeral (ds : List Char) : Prop where
  digits : ∀ c ∈ ds, c.isDigit
  nonempty : ds ≠ []
  leads : ds.head? ≠ some '0'

/-- Digits that begin a numeral are one. -/
theorem IsNumeral.of_append (h : IsNumeral (ds ++ es)) (some : ds ≠ []) : IsNumeral ds where
  digits c hc := h.digits c (List.mem_append_left es hc)
  nonempty := some
  leads := List.head?_append_of_ne_nil _ some ▸ h.leads

theorem IsNumeral.append (h : IsNumeral ds) (hes : ∀ c ∈ es, c.isDigit) : IsNumeral (ds ++ es) where
  digits c hc := (List.mem_append.1 hc).elim (h.digits c) (hes c)
  nonempty := List.append_ne_nil_of_left_ne_nil h.nonempty es
  leads := (List.head?_append_of_ne_nil _ h.nonempty).symm ▸ h.leads

theorem isNumeral_decimalDigits (hn : 0 < n) : IsNumeral (decimalDigits n) where
  digits _ := isDigit_decimalDigits
  nonempty := List.length_pos_iff.1 (length_decimalDigits_pos n)
  leads := by
    induction n using Nat.strongRecOn with
    | ind n ih =>
      rcases Nat.lt_or_ge n 10 with small | large
      · have one : ∀ n < 10, 0 < n → (decimalDigits n).head? ≠ some '0' := by decide
        exact one n small hn
      · have some : Nat.toDigits 10 (n / 10) ≠ [] := Nat.toDigits_ne_nil
        rw [decimalDigits, Nat.toDigits_of_base_le (by decide) large,
          List.head?_append_of_ne_nil _ some]
        exact ih (n / 10) (by omega) (by omega)

end Digits

/-! ## Significant digits -/

namespace FloatStyle

open Decimal (toBinary)

variable {d : Decimal}

/-- What is left out of the significant digits are zeros at the end. -/
theorem significant_append (hd : 0 < d.digits) :
    ∃ k, decimalDigits d.digits = significant d ++ List.replicate k '0' := by
  have numeral := isNumeral_decimalDigits hd
  unfold significant
  generalize decimalDigits d.digits = ds at *
  have split := List.takeWhile_append_dropWhile (p := (· == '0')) (l := ds.reverse)
  have zeros : ds.reverse.takeWhile (· == '0') =
      List.replicate (ds.reverse.takeWhile (· == '0')).length '0' := by
    refine List.eq_replicate_iff.2 ⟨rfl, fun c hc => ?_⟩
    simpa using List.mem_takeWhile_imp hc
  generalize ds.reverse.takeWhile (· == '0') = dropped at *
  have whole : ds = (ds.reverse.dropWhile (· == '0')).reverse ++
      List.replicate dropped.length '0' := by
    rw [← List.reverse_replicate, ← zeros, ← List.reverse_append, split, List.reverse_reverse]
  generalize ds.reverse.dropWhile (· == '0') = kept at *
  cases kept with
  | nil =>
    -- A numeral does not consist of zeros only.
    cases dropped with
    | nil => exact absurd whole numeral.nonempty
    | cons c cs => exact absurd (by rw [whole]; rfl) numeral.leads
  | cons c cs => exact ⟨dropped.length, whole⟩

theorem significant_ne_nil (d : Decimal) : significant d ≠ [] := by
  unfold significant
  split
  case h_1 => exact List.cons_ne_nil _ _
  case h_2 some => exact List.reverse_ne_nil_iff.2 some

theorem isNumeral_significant (hd : 0 < d.digits) : IsNumeral (significant d) := by
  obtain ⟨k, split⟩ := significant_append hd
  exact IsNumeral.of_append (split ▸ isNumeral_decimalDigits hd) (significant_ne_nil d)

/-- The significant digits below the point of a decimal have its value. -/
theorem toBinary_significant (negative : Bool) (hd : 0 < d.digits) :
    toBinary negative ⟨natOfDigits (significant d), d.point - (significant d).length⟩ =
      toBinary negative d := by
  obtain ⟨k, split⟩ := significant_append hd
  have digits : d.digits = natOfDigits (significant d) * 10 ^ k := by
    have := congrArg natOfDigits split
    simpa [natOfDigits_append] using this
  have point : d.point - (significant d).length = d.exponent + k := by
    rw [Decimal.point, split, List.length_append, List.length_replicate]
    omega
  rw [point, ← Decimal.toBinary_scaled negative _ _ k, ← digits, Int.add_sub_cancel]

/-- In a document the digits of the shortest decimal are laid out in one of two ways. -/
theorem magnitudeText_json (r : Fin Binary64.magnitudes) :
    json.magnitudeText r =
        positional true (significant (Binary64.shortest r)) (Binary64.shortest r).point ∨
      json.magnitudeText r =
        scientific (significant (Binary64.shortest r)) (Binary64.shortest r).point :=
  ite_eq_or_eq _ _ _

end FloatStyle

/-! ## Reading -/

namespace Json

open Decimal (toBinary)

section Parts

variable {cs ds rest rest' rest'' : List Char} {fraction : List Char} {exponent : Option Int}

/-- No digit stands at the head. -/
def NoDigit (rest : List Char) : Prop := ∀ c ∈ rest.head?, c.isDigit = false

/-- A number cannot be continued by the character at the head. -/
def EndsNumber (rest : List Char) : Prop :=
  ∀ c ∈ rest.head?, c.isDigit = false ∧ c ≠ '.' ∧ c ≠ 'e' ∧ c ≠ 'E'

theorem EndsNumber.noDigit (h : EndsNumber rest) : NoDigit rest := fun c hc => (h c hc).1

theorem noDigit_cons {c : Char} (h : c.isDigit = false) : NoDigit (c :: rest) := by
  simpa [NoDigit] using h

/-- The digits before something else are split off. -/
theorem spanDigits_append (digits : ∀ c ∈ ds, c.isDigit) (h : NoDigit rest) :
    spanDigits (ds ++ rest) = (ds, rest) := by
  have stop : rest.takeWhile Char.isDigit = [] ∧ rest.dropWhile Char.isDigit = rest := by
    cases rest with
    | nil => exact ⟨rfl, rfl⟩
    | cons c cs => simp [h c rfl]
  rw [spanDigits, List.takeWhile_append_of_pos digits, List.dropWhile_append_of_pos digits, stop.1,
    stop.2, List.append_nil]

theorem readWhole?_zero (rest : List Char) : readWhole? ('0' :: rest) = some (['0'], rest) := rfl

theorem readWhole?_numeral (numeral : IsNumeral ds) (h : NoDigit rest) :
    readWhole? (ds ++ rest) = some (ds, rest) := by
  obtain ⟨c, cs, rfl⟩ := List.exists_cons_of_ne_nil numeral.nonempty
  have leads : c ≠ '0' := fun zero => numeral.leads (congrArg some zero)
  have span := spanDigits_append numeral.digits h
  rw [List.cons_append] at span ⊢
  rw [readWhole?, span]
  · rfl
  · intro rest eq
    exact leads (List.cons.inj eq).1

theorem readFraction_point (digits : ∀ c ∈ ds, c.isDigit) (some : ds ≠ []) (h : NoDigit rest) :
    readFraction ('.' :: (ds ++ rest)) = (ds, rest) := by
  rw [readFraction, spanDigits_append digits h]
  simp [some]

theorem readFraction_end (h : EndsNumber rest) : readFraction rest = ([], rest) := by
  cases rest with
  | nil => rfl
  | cons c cs =>
    have := (h c rfl).2.1
    rw [readFraction]
    intro rest eq
    exact this (List.cons.inj eq).1

theorem readExponent_end (h : EndsNumber rest) : readExponent rest = (none, rest) := by
  cases rest with
  | nil => rfl
  | cons c cs =>
    obtain ⟨_, _, small, capital⟩ := h c rfl
    simp only [readExponent, small, capital, or_self, if_false]

theorem readExponent_exponentText (e : Int) (h : NoDigit rest) :
    readExponent ('e' :: (FloatStyle.exponentText e ++ rest)) = (some e, rest) := by
  unfold FloatStyle.exponentText
  -- The exponent is filled up to two digits, of the same value.
  obtain ⟨ds, filled, digits, some, value⟩ : ∃ ds : List Char,
      (if (decimalDigits e.natAbs).length < 2 then '0' :: decimalDigits e.natAbs
        else decimalDigits e.natAbs) = ds ∧
      (∀ c ∈ ds, c.isDigit) ∧ ds ≠ [] ∧ natOfDigits ds = e.natAbs := by
    refine ⟨_, rfl, ?_⟩
    split
    case isTrue =>
      refine ⟨?_, List.cons_ne_nil _ _, by rw [natOfDigits_zero_cons, natOfDigits_decimalDigits]⟩
      rintro c (_ | ⟨_, hc⟩)
      · rfl
      · exact isDigit_decimalDigits hc
    case isFalse =>
      exact ⟨fun _ => isDigit_decimalDigits, List.length_pos_iff.1 (length_decimalDigits_pos _),
        natOfDigits_decimalDigits _⟩
  simp only [filled]
  have span := spanDigits_append digits h
  split
  case isTrue low =>
    simp only [readExponent, List.cons_append, true_or, if_true, span, List.isEmpty_iff, some,
      if_false, value]
    congr 2
    omega
  case isFalse high =>
    simp only [readExponent, List.cons_append, true_or, if_true, span, List.isEmpty_iff, some,
      if_false, value]
    congr 2
    simp
    omega

theorem readWhole?_minus (cs : List Char) : readWhole? ('-' :: cs) = none := rfl

/-- Digits with their sign. -/
def withSign (negative : Bool) (ds : List Char) : List Char := if negative then '-' :: ds else ds

theorem withSign_append (negative : Bool) (ds rest : List Char) :
    withSign negative ds ++ rest = withSign negative (ds ++ rest) := by
  cases negative <;> rfl

/-- **A number is put together from its parts.** -/
theorem readNumber?_withSign (negative : Bool) (whole : readWhole? cs = some (ds, rest))
    (frac : readFraction rest = (fraction, rest')) (exp : readExponent rest' = (exponent, rest'')) :
    readNumber? (withSign negative cs) =
      some (if fraction.isEmpty && exponent.isNone then
          .int (if negative then -natOfDigits ds else natOfDigits ds)
        else .float (toBinary negative
          ⟨natOfDigits (ds ++ fraction), exponent.getD 0 - fraction.length⟩), rest'') := by
  cases negative with
  | true =>
    simp only [withSign, if_true, readNumber?, whole, frac, exp]
    split <;> rfl
  | false =>
    cases cs with
    | nil => cases whole
    | cons c cs =>
      have unsigned : c ≠ '-' := by
        rintro rfl
        rw [readWhole?_minus] at whole
        cases whole
      simp [withSign, readNumber?, unsigned, whole, frac, exp]
      split <;> rfl

/-- A number without fraction and exponent is an integer. -/
theorem readNumber?_integral (negative : Bool) (whole : readWhole? cs = some (ds, rest))
    (h : EndsNumber rest) :
    readNumber? (withSign negative cs) =
      some (.int (if negative then -natOfDigits ds else natOfDigits ds), rest) := by
  rw [readNumber?_withSign negative whole (readFraction_end h) (readExponent_end h)]
  rfl

/-- A number with a fraction is a floating-point number. -/
theorem readNumber?_fraction (negative : Bool) (whole : readWhole? cs = some (ds, rest))
    (frac : readFraction rest = (fraction, rest')) (exp : readExponent rest' = (exponent, rest''))
    (nonempty : fraction ≠ []) :
    readNumber? (withSign negative cs) =
      some (.float (toBinary negative
        ⟨natOfDigits (ds ++ fraction), exponent.getD 0 - fraction.length⟩), rest'') := by
  rw [readNumber?_withSign negative whole frac exp]
  simp [nonempty]

end Parts

section Layouts

open FloatStyle (positional scientific)

variable {ds rest : List Char}

/-- **The positional layout** is read as the digits below their point. -/
theorem readNumber?_positional (negative : Bool) (numeral : IsNumeral ds) (point : Int)
    (h : EndsNumber rest) :
    readNumber? (withSign negative (positional true ds point) ++ rest) =
      some (.float (toBinary negative ⟨natOfDigits ds, point - ds.length⟩), rest) := by
  have isZero (k : Nat) : ∀ c ∈ List.replicate k '0', c.isDigit := by
    intro c hc
    rw [List.eq_of_mem_replicate hc]
    rfl
  have noPoint (cs : List Char) : NoDigit ('.' :: cs) := noDigit_cons rfl
  rw [withSign_append, positional]
  rcases Int.lt_or_le 0 point with high | low
  · rw [if_neg (Int.not_le.2 high)]
    rcases Nat.lt_or_ge point.toNat ds.length with short | long
    · rw [if_neg (Nat.not_le.2 short)]
      have behind : ds.drop point.toNat ≠ [] := by simpa using short
      have split := List.take_append_drop point.toNat ds
      have whole : IsNumeral (ds.take point.toNat) :=
        IsNumeral.of_append
          (show IsNumeral (ds.take point.toNat ++ ds.drop point.toNat) from split.symm ▸ numeral)
          (by simp [numeral.nonempty]; omega)
      rw [List.append_assoc, List.cons_append]
      rw [readNumber?_fraction negative (readWhole?_numeral whole (noPoint _))
        (readFraction_point (fun c hc => numeral.digits c (List.mem_of_mem_drop hc)) behind
          h.noDigit) (readExponent_end h) behind, split]
      congr 4
      simp
      omega
    · -- All the digits stand before the point, which a zero follows.
      have whole : IsNumeral (ds ++ List.replicate (point.toNat - ds.length) '0') :=
        numeral.append (isZero _)
      rw [if_pos long, if_pos rfl, List.append_assoc _ ['.', '0'] rest,
        show ['.', '0'] ++ rest = '.' :: (['0'] ++ rest) from rfl]
      rw [readNumber?_fraction negative (readWhole?_numeral whole (noPoint _))
        (readFraction_point (List.forall_mem_singleton.2 rfl) (List.cons_ne_nil '0' []) h.noDigit)
        (readExponent_end h) (List.cons_ne_nil _ _)]
      rw [← Decimal.toBinary_scaled negative (natOfDigits ds) _ (point.toNat - ds.length + 1)]
      congr 4
      simp [natOfDigits_append, Nat.pow_succ]
      exact ⟨rfl, by omega⟩
  · -- All the digits stand behind the point.
    rw [if_pos low]
    have digits : ∀ c ∈ List.replicate point.natAbs '0' ++ ds, c.isDigit := fun c hc =>
      (List.mem_append.1 hc).elim (isZero _ c) (numeral.digits c)
    rw [show ['0', '.'] ++ List.replicate point.natAbs '0' ++ ds ++ rest =
      '0' :: '.' :: (List.replicate point.natAbs '0' ++ ds ++ rest) from by simp]
    rw [readNumber?_fraction negative (readWhole?_zero _)
      (readFraction_point digits (by simp [numeral.nonempty]) h.noDigit) (readExponent_end h)
      (by simp [numeral.nonempty])]
    have value : natOfDigits (['0'] ++ (List.replicate point.natAbs '0' ++ ds)) =
        natOfDigits ds := by
      rw [List.cons_append, List.nil_append, natOfDigits_zero_cons, natOfDigits_append,
        natOfDigits_replicate_zero, Nat.zero_mul, Nat.zero_add]
    have places : (none : Option Int).getD 0 -
        (List.replicate point.natAbs '0' ++ ds).length = point - ds.length := by
      rw [List.length_append, List.length_replicate, Option.getD_none]
      omega
    rw [value, places]

/-- **The layout with an exponent** is read as the digits below their point. -/
theorem readNumber?_scientific (negative : Bool) (numeral : IsNumeral ds) (point : Int)
    (h : EndsNumber rest) :
    readNumber? (withSign negative (scientific ds point) ++ rest) =
      some (.float (toBinary negative ⟨natOfDigits ds, point - ds.length⟩), rest) := by
  have noPoint (cs : List Char) : NoDigit ('.' :: cs) := noDigit_cons rfl
  have noLetter (cs : List Char) : NoDigit ('e' :: cs) := noDigit_cons rfl
  rw [withSign_append]
  match ds, numeral with
  | [], numeral => exact absurd rfl numeral.nonempty
  | [d], numeral =>
    have fraction (cs : List Char) : readFraction ('e' :: cs) = ([], 'e' :: cs) := rfl
    rw [show scientific [d] point ++ rest =
      [d] ++ 'e' :: (FloatStyle.exponentText (point - 1) ++ rest) from rfl]
    rw [readNumber?_withSign negative (readWhole?_numeral numeral (noLetter _)) (fraction _)
      (readExponent_exponentText _ h.noDigit)]
    simp
  | d :: e :: ds, numeral =>
    have whole : IsNumeral [d] :=
      IsNumeral.of_append (show IsNumeral ([d] ++ e :: ds) from numeral) (List.cons_ne_nil d [])
    have fraction : ∀ c ∈ e :: ds, c.isDigit := fun c hc => numeral.digits c (.tail d hc)
    rw [show scientific (d :: e :: ds) point ++ rest =
      [d] ++ '.' :: (e :: ds ++ 'e' :: (FloatStyle.exponentText (point - 1) ++ rest)) from by
        simp [scientific]]
    rw [readNumber?_fraction negative (readWhole?_numeral whole (noPoint _))
      (readFraction_point fraction (List.cons_ne_nil e ds) (noLetter _))
      (readExponent_exponentText _ h.noDigit) (List.cons_ne_nil e ds)]
    congr 4
    simp
    omega

end Layouts

/-! ## Numbers -/

section Numbers

variable {rest : List Char}

theorem toList_intText (i : Int) :
    (intText i).toList = withSign (decide (i < 0)) (decimalDigits i.natAbs) := by
  rw [intText, String.toList_ofList, withSign]
  simp only [decide_eq_true_eq]

/-- **An integer is read back.** -/
theorem readNumber?_intText (i : Int) (h : EndsNumber rest) :
    readNumber? ((intText i).toList ++ rest) = some (.int i, rest) := by
  have whole : readWhole? (decimalDigits i.natAbs ++ rest) =
      some (decimalDigits i.natAbs, rest) := by
    rcases Nat.eq_zero_or_pos i.natAbs with zero | pos
    · rw [zero]
      exact readWhole?_zero rest
    · exact readWhole?_numeral (isNumeral_decimalDigits pos) h.noDigit
  rw [toList_intText, withSign_append, readNumber?_integral _ whole h, natOfDigits_decimalDigits]
  congr 3
  split
  case isTrue negative =>
    have := of_decide_eq_true negative
    omega
  case isFalse positive =>
    have : ¬i < 0 := fun negative => positive (decide_eq_true negative)
    omega

/-- **A finite floating-point number is read back.** -/
theorem readNumber?_floatText (negative : Bool) (r : Fin Binary64.magnitudes)
    (h : EndsNumber rest) :
    readNumber? ((FloatStyle.json.text (.finite negative r)).toList ++ rest) =
      some (.float (.finite negative r), rest) := by
  rw [FloatStyle.text, String.toList_ofList]
  change readNumber? (withSign negative (FloatStyle.json.magnitudeText r) ++ rest) = _
  rcases Nat.eq_zero_or_pos r.val with zero | pos
  · obtain rfl : r = ⟨0, by decide⟩ := Fin.ext zero
    rw [show FloatStyle.json.magnitudeText ⟨0, by decide⟩ = ['0', '.', '0'] from rfl,
      withSign_append, show ['0', '.', '0'] ++ rest = '0' :: '.' :: (['0'] ++ rest) from rfl]
    rw [readNumber?_fraction negative (readWhole?_zero _)
      (readFraction_point (List.forall_mem_singleton.2 rfl) (List.cons_ne_nil '0' []) h.noDigit)
      (readExponent_end h) (List.cons_ne_nil _ _)]
    rw [show natOfDigits (['0'] ++ ['0']) = 0 from rfl, Binary64.toBinary_zero]
  · have numeral := FloatStyle.isNumeral_significant (Binary64.shortest_digits_pos pos)
    have value := FloatStyle.toBinary_significant negative (Binary64.shortest_digits_pos pos)
    rw [Binary64.toBinary_shortest] at value
    rcases FloatStyle.magnitudeText_json r with positional | scientific
    · rw [positional, readNumber?_positional negative numeral _ h, value]
    · rw [scientific, readNumber?_scientific negative numeral _ h, value]

end Numbers

end Json

end Questline

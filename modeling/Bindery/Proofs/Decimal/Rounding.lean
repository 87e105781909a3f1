import Bindery.Decimal.Shortest
import Mathlib.Algebra.Order.Field.Power
import Mathlib.Algebra.Order.Ring.Cast
import Mathlib.Data.Rat.Cast.Order
import Mathlib.Order.Compare
import Mathlib.Tactic.FieldSimp
import Mathlib.Tactic.Linarith
import Mathlib.Tactic.NormNum
import Mathlib.Tactic.Positivity
import Mathlib.Tactic.Ring

/-!
# The shortest digits identify a value

The shortest decimal of a finite binary64 value lies in the interval of the reals that round to this
value. The intervals of different values have nothing in common, so no two values have the same
shortest decimal.
-/

namespace Bindery.Decimal

/-! ## Words -/

namespace Binary64

/-- The significands and exponents that words have: all 53 bits are used, unless the exponent is
already the least one. -/
def Canonical (significand : Nat) (exponent : Int) : Prop :=
  minExponent ≤ exponent ∧ significand < 2 * fullSignificand ∧
    (fullSignificand ≤ significand ∨ exponent = minExponent)

/-- A finite word is found again from its parts: a significand that uses all bits carries into the
exponent field by itself. -/
theorem ofBits_eq_finite {word : UInt64} {negative : Bool} {significand : Nat} {exponent : Int}
    (h : ofBits word = .finite negative significand exponent) :
    Canonical significand exponent ∧ word.toNat = (if negative then 2 ^ 63 else 0) +
      ((exponent - minExponent).toNat * fullSignificand + significand) := by
  have hword := word.toNat_lt
  have hsign : (word >>> 63 == 1) = decide (word.toNat / 2 ^ 63 = 1) := by
    rw [Bool.eq_iff_iff]
    simp [← UInt64.toNat_inj, Nat.shiftRight_eq_div_pow]
  have hfield : ((word >>> 52) &&& 0x7FF).toNat = word.toNat / 2 ^ 52 % 2 ^ 11 := by
    rw [UInt64.toNat_and, UInt64.toNat_shiftRight, ← Nat.and_two_pow_sub_one_eq_mod,
      ← Nat.shiftRight_eq_div_pow]
    rfl
  have hfraction : (word &&& 0xFFFFFFFFFFFFF).toNat = word.toNat % 2 ^ 52 := by
    rw [UInt64.toNat_and, ← Nat.and_two_pow_sub_one_eq_mod]
    rfl
  simp only [ofBits, hsign, hfield, hfraction] at h
  simp only [Canonical, fullSignificand, minExponent] at h ⊢
  split at h
  · split at h <;> simp at h
  · split at h
    · obtain ⟨rfl, rfl, rfl⟩ := Binary64.finite.inj h
      refine ⟨⟨le_rfl, by omega, .inr rfl⟩, ?_⟩
      simp only [decide_eq_true_eq]
      split <;> omega
    · obtain ⟨rfl, rfl, rfl⟩ := Binary64.finite.inj h
      refine ⟨⟨by omega, by omega, .inl (by omega)⟩, ?_⟩
      simp only [decide_eq_true_eq]
      split <;> omega

/-- Finite words with the same parts are the same. -/
theorem eq_of_ofBits_eq_finite {word other : UInt64} {negative : Bool} {significand : Nat}
    {exponent : Int} (h : ofBits word = .finite negative significand exponent)
    (h' : ofBits other = .finite negative significand exponent) : word = other := by
  rw [← UInt64.toNat_inj, (ofBits_eq_finite h).2, (ofBits_eq_finite h').2]

end Binary64

/-! ## Decimals -/

/-- The number that a decimal stands for. -/
def Scientific.value (decimal : Scientific) : ℚ := decimal.digits * 10 ^ decimal.exponent

/-- Removing zeros at the end does not change the number. -/
theorem Scientific.value_stripZeros (fuel : Nat) (decimal : Scientific) :
    (decimal.stripZeros fuel).value = decimal.value := by
  induction fuel generalizing decimal with
  | zero => rfl
  | succ fuel ih =>
    rw [stripZeros]
    split
    · next h =>
      have hdigits : decimal.digits = decimal.digits / 10 * 10 := by omega
      rw [ih, value, value]
      conv_rhs => rw [hdigits]
      rw [zpow_add_one₀ (by norm_num)]
      push_cast
      ring
    · rfl

/-- Multiplying by a power with the opposite exponent leaves a natural exponent. -/
theorem zpow_mul_pow_toNat (base : ℚ) (hbase : base ≠ 0) (exponent : Int) :
    base ^ exponent * base ^ (-exponent).toNat = base ^ exponent.toNat := by
  rw [← zpow_natCast, ← zpow_natCast, ← zpow_add₀ hbase]
  congr 1
  omega

namespace Interval

/-- Comparing by cross-multiplication is comparing the numbers. -/
theorem compareDecimal_eq (decimal : Scientific) (n : Nat) (unit : Int) :
    compareDecimal decimal n unit = cmp decimal.value (n * 2 ^ unit) := by
  let scale : ℚ := 10 ^ (-decimal.exponent).toNat * 2 ^ (-unit).toNat
  have hscale : 0 < scale := by positivity
  have hleft : decimal.value * scale =
      ((decimal.digits * 10 ^ decimal.exponent.toNat * 2 ^ (-unit).toNat : Nat) : ℚ) := by
    have hten := zpow_mul_pow_toNat 10 (by norm_num) decimal.exponent
    push_cast
    rw [← hten, Scientific.value]
    ring
  have hright : (n * 2 ^ unit : ℚ) * scale =
      ((n * 10 ^ (-decimal.exponent).toNat * 2 ^ unit.toNat : Nat) : ℚ) := by
    have htwo := zpow_mul_pow_toNat 2 (by norm_num) unit
    push_cast
    rw [← htwo]
    ring
  rw [← cmp_mul_pos_right hscale, hleft, hright, Nat.strictMono_cast.cmp_map_eq, cmp_eq_compare]
  simp [compareDecimal, Binary64.divideByPower]

/-- Whether a number rounds to the value of the interval. -/
structure Holds (interval : Interval) (x : ℚ) : Prop where
  lower : interval.lower * 2 ^ interval.unit ≤ x
  upper : x ≤ interval.upper * 2 ^ interval.unit
  ends : interval.closed ∨
    interval.lower * 2 ^ interval.unit < x ∧ x < interval.upper * 2 ^ interval.unit

/-- A decimal that is found to read back does so. -/
theorem holds_of_contains {interval : Interval} {decimal : Scientific}
    (h : interval.contains decimal) : interval.Holds decimal.value := by
  simp only [contains, Bool.and_eq_true, Bool.or_eq_true, beq_iff_eq] at h
  rw [compareDecimal_eq, compareDecimal_eq, cmp_eq_gt_iff, cmp_eq_eq_iff, cmp_eq_lt_iff,
    cmp_eq_eq_iff] at h
  obtain ⟨hlow, hhigh⟩ := h
  constructor
  · rcases hlow with hlow | ⟨-, hlow⟩ <;> linarith
  · rcases hhigh with hhigh | ⟨-, hhigh⟩ <;> linarith
  · rcases hlow with hlow | ⟨hclosed, -⟩
    · rcases hhigh with hhigh | ⟨hclosed, -⟩
      · exact .inr ⟨hlow, hhigh⟩
      · exact .inl hclosed
    · exact .inl hclosed

/-- What is found on a grid reads back. -/
theorem contains_of_closestOnGrid {tie : TieRule} {interval : Interval} {exponent : Int}
    {decimal : Scientific} (h : interval.closestOnGrid tie exponent = some decimal) :
    interval.contains decimal := by
  simp only [closestOnGrid] at h
  split at h
  · simp at h
  · next hdown _ => rwa [← Option.some.inj h]
  · next _ hup => rwa [← Option.some.inj h]
  · next hdown hup =>
    split at h
    · rwa [← Option.some.inj h]
    · rwa [← Option.some.inj h]
    · split at h
      · rwa [← Option.some.inj h]
      · split at h <;> rwa [← Option.some.inj h]

/-- The value with all its digits is the middle. -/
theorem value_exact (interval : Interval) :
    interval.exact.value = interval.middle * 2 ^ interval.unit := by
  have htwo := zpow_mul_pow_toNat 2 (by norm_num) interval.unit
  have hten : (10 : ℚ) ^ (-((-interval.unit).toNat : Int)) =
      (2 ^ (-interval.unit).toNat)⁻¹ * (5 ^ (-interval.unit).toNat)⁻¹ := by
    rw [zpow_neg, zpow_natCast, ← mul_inv, ← mul_pow]
    norm_num
  simp only [exact, Scientific.value, Nat.pow_eq]
  push_cast
  rw [hten, ← htwo]
  field_simp

end Interval

/-! ## Rounding intervals -/

namespace Interval

variable {significand significand' : Nat} {exponent exponent' : Int}

/-- Between the upper end of an interval and the lower end of one for a greater value there is no
room, and one of two intervals with a common end does not contain it. -/
theorem upper_le_lower (hcanonical : Binary64.Canonical significand exponent)
    (hcanonical' : Binary64.Canonical significand' exponent')
    (h : exponent < exponent' ∨ exponent = exponent' ∧ significand < significand') :
    (around significand exponent).upper ≤
        (around significand' exponent').lower * 2 ^ (exponent' - exponent).toNat ∧
      ((around significand exponent).upper =
          (around significand' exponent').lower * 2 ^ (exponent' - exponent).toNat →
        ¬((around significand exponent).closed ∧ (around significand' exponent').closed)) := by
  have hlower : (around significand' exponent').lower = 4 * significand' - 1 ∧
        significand' = Binary64.fullSignificand ∨
      (around significand' exponent').lower = 4 * significand' - 2 ∧
        ¬(significand' = Binary64.fullSignificand ∧ Binary64.minExponent < exponent') := by
    simp only [around]
    split
    · next hfull => exact .inl ⟨rfl, hfull.1⟩
    · next hother => exact .inr ⟨rfl, hother⟩
  generalize (around significand' exponent').lower = lower at hlower ⊢
  simp only [Binary64.Canonical, Binary64.fullSignificand] at hcanonical hcanonical' hlower
  simp only [around, beq_iff_eq]
  rcases h with h | ⟨rfl, h⟩
  · have hpow : 2 ^ 1 ≤ 2 ^ (exponent' - exponent).toNat :=
      Nat.pow_le_pow_right (by decide) (by omega)
    have hmore := Nat.mul_le_mul_left lower hpow
    omega
  · simp only [sub_self, Int.toNat_zero, pow_zero, mul_one]
    omega

/-- No number rounds to two values. -/
theorem not_holds_of_lt (hcanonical : Binary64.Canonical significand exponent)
    (hcanonical' : Binary64.Canonical significand' exponent')
    (h : exponent < exponent' ∨ exponent = exponent' ∧ significand < significand') {x : ℚ}
    (hx : (around significand exponent).Holds x) : ¬(around significand' exponent').Holds x := by
  intro hx'
  obtain ⟨hle, hparity⟩ := upper_le_lower hcanonical hcanonical' h
  have hscale : ((around significand' exponent').lower : ℚ) *
        2 ^ (around significand' exponent').unit =
      ((around significand' exponent').lower * 2 ^ (exponent' - exponent).toNat : Nat) *
        2 ^ (around significand exponent).unit := by
    have hpow : (2 : ℚ) ^ (exponent' - 2) =
        2 ^ (exponent' - exponent).toNat * 2 ^ (exponent - 2) := by
      rw [← zpow_natCast, ← zpow_add₀ (by norm_num)]
      congr 1
      omega
    simp only [around, hpow]
    push_cast
    ring
  have hunit : (0 : ℚ) < 2 ^ (around significand exponent).unit := by positivity
  have hlower := hx'.lower
  rw [hscale] at hlower
  -- The intervals do not overlap, so a common number is an end of both, and both are closed.
  have hends : ((around significand exponent).upper : ℚ) =
      ((around significand' exponent').lower * 2 ^ (exponent' - exponent).toNat : Nat) := by
    refine le_antisymm (by exact_mod_cast hle) ?_
    exact le_of_mul_le_mul_right (hlower.trans hx.upper) hunit
  have hclosed : (around significand exponent).closed := by
    rcases hx.ends with hclosed | ⟨-, hlt⟩
    · exact hclosed
    · rw [hends] at hlt
      exact absurd hlower (not_le.mpr hlt)
  have hclosed' : (around significand' exponent').closed := by
    rcases hx'.ends with hclosed | ⟨hlt, -⟩
    · exact hclosed
    · rw [hscale, ← hends] at hlt
      exact absurd hx.upper (not_le.mpr hlt)
  exact hparity (by exact_mod_cast hends) ⟨hclosed, hclosed'⟩

/-- A number rounds to one value at most. -/
theorem eq_of_holds (hcanonical : Binary64.Canonical significand exponent)
    (hcanonical' : Binary64.Canonical significand' exponent') {x : ℚ}
    (hx : (around significand exponent).Holds x)
    (hx' : (around significand' exponent').Holds x) :
    significand = significand' ∧ exponent = exponent' := by
  rcases lt_trichotomy exponent exponent' with hlt | heq | hgt
  · exact absurd hx' (not_holds_of_lt hcanonical hcanonical' (.inl hlt) hx)
  · rcases lt_trichotomy significand significand' with hlt | hsame | hgt
    · exact absurd hx' (not_holds_of_lt hcanonical hcanonical' (.inr ⟨heq, hlt⟩) hx)
    · exact ⟨hsame, heq⟩
    · exact absurd hx (not_holds_of_lt hcanonical' hcanonical (.inr ⟨heq.symm, hgt⟩) hx')
  · exact absurd hx (not_holds_of_lt hcanonical' hcanonical (.inl hgt) hx')

end Interval

/-- The shortest decimal of a value rounds to it. -/
theorem holds_shortest (tie : TieRule) {significand : Nat} (hpos : 0 < significand)
    (exponent : Int) :
    (Interval.around significand exponent).Holds (shortest tie significand exponent).value := by
  simp only [shortest, Scientific.value_stripZeros]
  cases hfound : (List.range 17).findSome? fun n =>
      (Interval.around significand exponent).closestOnGrid tie
        ((Interval.around significand exponent).decimalLength - (n + 1 : Nat)) with
  | some decimal =>
    obtain ⟨n, -, hgrid⟩ := List.exists_of_findSome?_eq_some hfound
    exact Interval.holds_of_contains (Interval.contains_of_closestOnGrid hgrid)
  | none =>
    have hunit : (0 : ℚ) < 2 ^ (Interval.around significand exponent).unit := by positivity
    have hlower : ((Interval.around significand exponent).lower : ℚ) <
        (Interval.around significand exponent).middle := by
      simp only [Interval.around]
      exact_mod_cast (by split <;> omega)
    have hupper : ((Interval.around significand exponent).middle : ℚ) <
        (Interval.around significand exponent).upper := by
      simp only [Interval.around]
      exact_mod_cast (by omega)
    rw [Option.getD_none, Interval.value_exact]
    have hlt := mul_lt_mul_of_pos_right hlower hunit
    have hgt := mul_lt_mul_of_pos_right hupper hunit
    exact ⟨hlt.le, hgt.le, .inr ⟨hlt, hgt⟩⟩

/-- The shortest decimal of a positive value is positive. -/
theorem value_shortest_pos (tie : TieRule) {significand : Nat} (hpos : 0 < significand)
    (exponent : Int) : 0 < (shortest tie significand exponent).value := by
  have hunit : (0 : ℚ) < 2 ^ (Interval.around significand exponent).unit := by positivity
  have hlower : 0 < ((Interval.around significand exponent).lower : ℚ) := by
    simp only [Interval.around]
    exact_mod_cast (by split <;> omega)
  exact (mul_pos hlower hunit).trans_le (holds_shortest tie hpos exponent).lower

/-- **The shortest decimal identifies the value.** -/
theorem eq_of_value_shortest_eq {tie : TieRule} {significand significand' : Nat}
    {exponent exponent' : Int} (hpos : 0 < significand) (hpos' : 0 < significand')
    (hcanonical : Binary64.Canonical significand exponent)
    (hcanonical' : Binary64.Canonical significand' exponent')
    (h : (shortest tie significand exponent).value = (shortest tie significand' exponent').value) :
    significand = significand' ∧ exponent = exponent' := by
  have hx := holds_shortest tie hpos exponent
  rw [h] at hx
  exact Interval.eq_of_holds hcanonical hcanonical' hx (holds_shortest tie hpos' exponent')

end Bindery.Decimal

import Mathlib.Data.Nat.Digits.Defs
import Mathlib.Data.ZMod.Basic
import Mathlib.Tactic.LinearCombination

/-!
# Montgomery reduction

A reduction step adds the multiple of the modulus that clears the lowest digit
and drops that digit, so it divides by the base modulo the modulus.  A product
is accumulated digit by digit with one reduction step after each digit.  All of
it is over any base and any modulus for which the clearing factor exists.
-/

namespace Foundation
namespace Montgomery

variable (base modulus inverse : Nat)

/-- The multiple of the modulus that clears the lowest digit. -/
def factor (value : Nat) : Nat :=
  value * inverse % base

/-- The lowest digit is cleared and dropped. -/
def step (value : Nat) : Nat :=
  (value + factor base inverse value * modulus) / base

/-- The accumulator after one more digit of the multiplier. -/
def row (multiplicand accumulator digit : Nat) : Nat :=
  step base modulus inverse (accumulator + digit * multiplicand)

/-- The accumulator after all digits of the multiplier. -/
def product (multiplicand : Nat) (digits : List Nat) : Nat :=
  digits.foldl (row base modulus inverse multiplicand) 0

/-! ## One reduction step -/

section Reduction

variable {base modulus inverse}

theorem factor_lt
    (positive : 0 < base)
    (value : Nat) : factor base inverse value < base :=
  Nat.mod_lt _ positive

/-- The cleared digit is a digit zero. -/
theorem dvd_add_factor_mul
    (clears : base ∣ inverse * modulus + 1)
    (value : Nat) :
    base ∣ value + factor base inverse value * modulus := by
  have whole : base ∣ value + value * inverse * modulus := by
    have multiple := clears.mul_left value
    rwa [show value * (inverse * modulus + 1) =
      value + value * inverse * modulus by ring] at multiple
  have congruent :
      value + factor base inverse value * modulus ≡
        value + value * inverse * modulus [MOD base] :=
    Nat.ModEq.add_left _ ((Nat.mod_modEq _ _).mul_right _)
  exact (congruent.dvd_iff dvd_rfl).mpr whole

/-- Dropping the cleared digit is exact. -/
theorem base_mul_step
    (clears : base ∣ inverse * modulus + 1)
    (value : Nat) :
    base * step base modulus inverse value =
      value + factor base inverse value * modulus :=
  Nat.mul_div_cancel' (dvd_add_factor_mul clears value)

theorem step_lt
    (clears : base ∣ inverse * modulus + 1)
    (positive : 0 < base)
    {value limit : Nat}
    (bound : value < base * limit) :
    step base modulus inverse value < limit + modulus := by
  have equation := base_mul_step clears value
  have multiple : factor base inverse value * modulus ≤ base * modulus :=
    Nat.mul_le_mul_right _ (factor_lt positive value).le
  refine Nat.lt_of_mul_lt_mul_left (a := base) ?_
  rw [equation, Nat.mul_add]
  omega

/-- Some steps divide by the power of the base, up to a multiple of the
modulus. -/
theorem pow_mul_iterate_step
    (clears : base ∣ inverse * modulus + 1)
    (positive : 0 < base)
    (count value : Nat) :
    ∃ multiple < base ^ count,
      base ^ count * (step base modulus inverse)^[count] value =
        value + multiple * modulus := by
  induction count with
  | zero => exact ⟨0, by simp, by simp⟩
  | succ count inductionHypothesis =>
      obtain ⟨multiple, multipleBound, equation⟩ := inductionHypothesis
      have last := base_mul_step clears
        ((step base modulus inverse)^[count] value)
      have factorBound : factor base inverse
          ((step base modulus inverse)^[count] value) < base :=
        factor_lt positive _
      rw [Function.iterate_succ_apply']
      refine ⟨multiple + base ^ count * factor base inverse
        ((step base modulus inverse)^[count] value), ?_, ?_⟩
      · have scaled := Nat.mul_le_mul_left (base ^ count) factorBound
        rw [Nat.mul_succ] at scaled
        rw [Nat.pow_succ]
        omega
      · rw [Nat.pow_succ]
        linear_combination base ^ count * last + equation

/-- Four steps divide by the fourth power of the base. -/
theorem pow_mul_four_steps
    (clears : base ∣ inverse * modulus + 1)
    (positive : 0 < base)
    (value : Nat) :
    ∃ multiple,
      base ^ 4 * step base modulus inverse (step base modulus inverse
        (step base modulus inverse (step base modulus inverse value))) =
          value + multiple * modulus := by
  obtain ⟨multiple, -, equation⟩ :=
    pow_mul_iterate_step clears positive 4 value
  exact ⟨multiple, equation⟩

/-! ## A product -/

/-- The rows of a product with four digits. -/
theorem product_four (multiplicand first second third fourth : Nat) :
    product base modulus inverse multiplicand [first, second, third, fourth] =
      row base modulus inverse multiplicand
        (row base modulus inverse multiplicand
          (row base modulus inverse multiplicand
            (row base modulus inverse multiplicand 0 first) second)
          third)
        fourth := rfl

theorem row_lt
    (clears : base ∣ inverse * modulus + 1)
    {multiplicand accumulator digit : Nat}
    (multiplicandBound : multiplicand < modulus)
    (accumulatorBound : accumulator < 2 * modulus)
    (digitBound : digit < base) :
    row base modulus inverse multiplicand accumulator digit < 2 * modulus := by
  have equation := base_mul_step clears (accumulator + digit * multiplicand)
  have factorBound :
      factor base inverse (accumulator + digit * multiplicand) < base :=
    factor_lt (by omega) _
  have product : digit * multiplicand ≤ (base - 1) * modulus :=
    Nat.mul_le_mul (by omega) multiplicandBound.le
  have multiple : factor base inverse (accumulator + digit * multiplicand) *
      modulus ≤ (base - 1) * modulus :=
    Nat.mul_le_mul_right _ (by omega)
  refine Nat.lt_of_mul_lt_mul_left (a := base) ?_
  rw [row, equation]
  calc accumulator + digit * multiplicand +
        factor base inverse (accumulator + digit * multiplicand) * modulus
      < 2 * modulus + (base - 1) * modulus + (base - 1) * modulus := by omega
    _ = 2 * (base - 1 + 1) * modulus := by ring
    _ = base * (2 * modulus) := by
        rw [Nat.sub_add_cancel (by omega : 1 ≤ base)]
        ring

/-- The rows divide the product by the power of the base, up to a multiple of
the modulus, and stay below twice the modulus. -/
theorem product_spec
    (clears : base ∣ inverse * modulus + 1)
    {multiplicand : Nat}
    (multiplicandBound : multiplicand < modulus)
    (digits : List Nat)
    (digitBounds : ∀ digit ∈ digits, digit < base) :
    product base modulus inverse multiplicand digits < 2 * modulus ∧
      ∃ multiple,
        base ^ digits.length *
            product base modulus inverse multiplicand digits =
          Nat.ofDigits base digits * multiplicand + multiple * modulus := by
  induction digits using List.reverseRecOn with
  | nil => exact ⟨by simp only [product, List.foldl_nil]; omega, 0, by simp [product]⟩
  | append_singleton digits digit inductionHypothesis =>
      obtain ⟨bound, multiple, equation⟩ := inductionHypothesis
        fun earlier member => digitBounds earlier (by simp [member])
      have last : product base modulus inverse multiplicand
          (digits ++ [digit]) =
        row base modulus inverse multiplicand
          (product base modulus inverse multiplicand digits) digit := by
        simp [product]
      have lastEquation := base_mul_step clears
        (product base modulus inverse multiplicand digits +
          digit * multiplicand)
      rw [last]
      refine ⟨row_lt clears multiplicandBound bound (digitBounds digit (by simp)),
        multiple + base ^ digits.length * factor base inverse
          (product base modulus inverse multiplicand digits +
            digit * multiplicand), ?_⟩
      rw [Nat.ofDigits_append, Nat.ofDigits_singleton, List.length_append,
        List.length_singleton, Nat.pow_succ, row]
      linear_combination base ^ digits.length * lastEquation + equation

end Reduction

end Montgomery
end Foundation

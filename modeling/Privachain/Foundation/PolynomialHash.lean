import Mathlib.Data.Nat.Digits.Defs
import Mathlib.Data.ZMod.Basic
import Mathlib.Tactic.LinearCombination

/-!
# Polynomial hashes

A hash that multiplies by a base and adds the next digit reads its digits as a
number in that base.  Modulo a number every residue is a hash, and a suffix moves
the hashes by an affine map.
-/

namespace Foundation

universe u

variable {R : Type u} [CommRing R]

/-- Multiply by the base and add the digit. -/
def hashDigit (base hash : R) (digit : Nat) : R := base * hash + digit

/-- The hash of the digits, which starts from zero. -/
def polynomialHash (base : R) (digits : List Nat) : R :=
  digits.foldl (hashDigit base) 0

theorem foldl_hashDigit
    (base start : R)
    (digits : List Nat) :
    digits.foldl (hashDigit base) start =
      base ^ digits.length * start + polynomialHash base digits := by
  induction digits generalizing start with
  | nil => simp [polynomialHash]
  | cons digit rest inductionHypothesis =>
      rw [polynomialHash, List.foldl_cons, List.foldl_cons, inductionHypothesis,
        inductionHypothesis (hashDigit base 0 digit), List.length_cons, pow_succ,
        hashDigit, hashDigit]
      ring

/-- The factor by which a suffix multiplies the hash of what is before it. -/
def hashSlope (base : R) (suffix : List Nat) : R := base ^ suffix.length

/-- The hash of two parts is an affine map of the hash of the first one. -/
theorem polynomialHash_append
    (base : R)
    (first second : List Nat) :
    polynomialHash base (first ++ second) =
      hashSlope base second * polynomialHash base first +
        polynomialHash base second := by
  rw [polynomialHash, List.foldl_append, ← polynomialHash, foldl_hashDigit,
    hashSlope]

/-- The digits of a number, the last one first, hash to the number. -/
theorem polynomialHash_reverse (base : Nat) (digits : List Nat) :
    polynomialHash (base : R) digits.reverse =
      ((Nat.ofDigits base digits : Nat) : R) := by
  rw [polynomialHash, List.foldl_reverse, Nat.coe_ofDigits,
    Nat.ofDigits_eq_foldr]
  congr 1
  funext digit hash
  exact add_comm _ _

/-- Every residue is the hash of digits of the base. -/
theorem exists_polynomialHash
    {base modulus : Nat} [NeZero modulus]
    (proper : 1 < base)
    (hash : ZMod modulus) :
    ∃ digits, (∀ digit ∈ digits, digit < base) ∧
      polynomialHash (base : ZMod modulus) digits = hash := by
  refine ⟨(Nat.digits base hash.val).reverse, ?_, ?_⟩
  · intro digit member
    exact Nat.digits_lt_base proper (List.mem_reverse.mp member)
  · rw [polynomialHash_reverse, Nat.ofDigits_digits, ZMod.natCast_zmod_val]

/-! ## Hashes up to their sign -/

/-- Twice the offsets of two affine maps, each scaled by the other slope, are the
same. -/
def SameCentre (slope otherSlope offset otherOffset : R) : Prop :=
  otherSlope * (offset + offset) = slope * (otherOffset + otherOffset)

/-- Two points that an affine map sends to the same value up to the sign are the
same or opposite around its centre. -/
theorem affine_eq_or_eq_neg_iff
    {slope : R}
    (isUnit : IsUnit slope)
    (offset point other : R) :
    slope * other + offset = slope * point + offset ∨
        slope * other + offset = -(slope * point + offset) ↔
      other = point ∨ slope * (other + point) = -(2 * offset) := by
  have same : slope * other + offset = slope * point + offset ↔
      other = point := by
    rw [add_left_inj, isUnit.mul_right_inj]
  have opposite : slope * other + offset = -(slope * point + offset) ↔
      slope * (other + point) = -(2 * offset) := by
    constructor
    · intro negated
      linear_combination negated
    · intro centred
      linear_combination centred
  rw [same, opposite]

/-- Two affine maps send the same points to the value at one point, up to the
sign, exactly when they have the same centre. -/
theorem affine_agree_iff
    {slope otherSlope : R}
    (isUnit : IsUnit slope)
    (otherIsUnit : IsUnit otherSlope)
    (offset otherOffset point : R) :
    (∀ x,
      (slope * x + offset = slope * point + offset ∨
          slope * x + offset = -(slope * point + offset)) ↔
        (otherSlope * x + otherOffset = otherSlope * point + otherOffset ∨
          otherSlope * x + otherOffset =
            -(otherSlope * point + otherOffset))) ↔
      SameCentre slope otherSlope offset otherOffset := by
  unfold SameCentre
  simp only [affine_eq_or_eq_neg_iff isUnit, affine_eq_or_eq_neg_iff otherIsUnit]
  obtain ⟨inverse, isInverse⟩ := isUnit.exists_right_inv
  obtain ⟨otherInverse, isOtherInverse⟩ := otherIsUnit.exists_right_inv
  constructor
  · intro agree
    -- the opposite point of either map is one of the two points of the other
    have opposite := (agree (-point - inverse * (2 * offset))).mp
      (.inr (by linear_combination (-(2 * offset)) * isInverse))
    rcases opposite with samePoint | centred
    · have back := (agree (-point - otherInverse * (2 * otherOffset))).mpr
        (.inr (by linear_combination (-(2 * otherOffset)) * isOtherInverse))
      rcases back with alsoSame | centred
      · have shift : inverse * (2 * offset) = otherInverse * (2 * otherOffset) := by
          linear_combination alsoSame - samePoint
        linear_combination (slope * otherSlope) * shift -
          (2 * otherSlope * offset) * isInverse +
          (2 * slope * otherOffset) * isOtherInverse
      · linear_combination otherSlope * centred +
          (2 * slope * otherOffset) * isOtherInverse
    · linear_combination (-slope) * centred -
        (2 * otherSlope * offset) * isInverse
  · intro offsets x
    refine or_congr_right ?_
    constructor
    · intro centred
      have scaled : slope * (otherSlope * (x + point)) =
          slope * -(2 * otherOffset) := by
        linear_combination otherSlope * centred - offsets
      exact isUnit.mul_left_cancel scaled
    · intro centred
      have scaled : otherSlope * (slope * (x + point)) =
          otherSlope * -(2 * offset) := by
        linear_combination slope * centred + offsets
      exact otherIsUnit.mul_left_cancel scaled

end Foundation

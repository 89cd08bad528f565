import Mathlib.Data.Nat.Digits.Defs
import Mathlib.Tactic.LinearCombination

/-!
# Machine words and limbs

Words of a fixed width with the carries and borrows of a processor.  A number
of several words is a list of limbs with the least significant one first.  The
carry chains over limbs are exact once the last carry is counted in.
-/

namespace Foundation

variable {width : Nat}

/-! ## Words -/

/-- The sum of two words and a carry, with the carry out. -/
def addWithCarry
    (carry : Bool)
    (left right : BitVec width) : BitVec width × Bool :=
  let total := left.toNat + right.toNat + carry.toNat
  (BitVec.ofNat width total, decide (2 ^ width ≤ total))

/-- The difference of two words and a borrow, with the borrow out. -/
def subWithBorrow
    (borrow : Bool)
    (left right : BitVec width) : BitVec width × Bool :=
  let difference : Int := left.toNat - right.toNat - borrow.toNat
  (BitVec.ofInt width difference, decide (difference < 0))

/-- The high and the low word of a product. -/
def wideProduct (left right : BitVec width) : BitVec width × BitVec width :=
  let product := left.toNat * right.toNat
  (BitVec.ofNat width (product / 2 ^ width), BitVec.ofNat width product)

/-- The carry out completes the sum. -/
theorem addWithCarry_toNat
    (carry : Bool)
    (left right : BitVec width) :
    (addWithCarry carry left right).1.toNat +
        2 ^ width * (addWithCarry carry left right).2.toNat =
      left.toNat + right.toNat + carry.toNat := by
  have leftBound := left.isLt
  have rightBound := right.isLt
  have carryBound := carry.toNat_le
  simp only [addWithCarry, BitVec.toNat_ofNat]
  by_cases overflow :
      2 ^ width ≤ left.toNat + right.toNat + carry.toNat
  · have remainder : (left.toNat + right.toNat + carry.toNat) % 2 ^ width =
        left.toNat + right.toNat + carry.toNat - 2 ^ width := by
      rw [Nat.mod_eq_sub_mod overflow]
      exact Nat.mod_eq_of_lt (by omega)
    rw [remainder, decide_eq_true overflow, Bool.toNat_true]
    omega
  · rw [Nat.mod_eq_of_lt (by omega), decide_eq_false overflow,
      Bool.toNat_false]
    omega

/-- The borrow out completes the difference. -/
theorem subWithBorrow_toNat
    (borrow : Bool)
    (left right : BitVec width) :
    (subWithBorrow borrow left right).1.toNat +
        (right.toNat + borrow.toNat) =
      left.toNat + 2 ^ width * (subWithBorrow borrow left right).2.toNat := by
  have leftBound := left.isLt
  have rightBound := right.isLt
  have borrowBound := borrow.toNat_le
  simp only [subWithBorrow, BitVec.toNat_ofInt]
  generalize (2 ^ width : Nat) = radix at *
  by_cases underflow :
      (left.toNat - right.toNat - borrow.toNat : Int) < 0
  · have remainder :
        (left.toNat - right.toNat - borrow.toNat : Int) % (radix : Nat) =
          left.toNat - right.toNat - borrow.toNat + (radix : Nat) := by
      rw [← Int.add_emod_right]
      exact Int.emod_eq_of_lt (by omega) (by omega)
    rw [remainder, decide_eq_true underflow, Bool.toNat_true]
    omega
  · rw [Int.emod_eq_of_lt (by omega) (by omega), decide_eq_false underflow,
      Bool.toNat_false]
    omega

/-- Both words together are the product. -/
theorem wideProduct_toNat (left right : BitVec width) :
    (wideProduct left right).2.toNat +
        2 ^ width * (wideProduct left right).1.toNat =
      left.toNat * right.toNat := by
  have leftBound := left.isLt
  have rightBound := right.isLt
  have product : left.toNat * right.toNat < 2 ^ width * 2 ^ width :=
    Nat.mul_lt_mul'' leftBound rightBound
  simp only [wideProduct, BitVec.toNat_ofNat]
  rw [Nat.mod_eq_of_lt (Nat.div_lt_of_lt_mul product)]
  exact Nat.mod_add_div _ _

/-! ## Limbs -/

/-- The number with the given limbs, the least significant one first. -/
def limbsToNat (limbs : List (BitVec width)) : Nat :=
  Nat.ofDigits (2 ^ width) (limbs.map BitVec.toNat)

@[simp] theorem limbsToNat_nil :
    limbsToNat ([] : List (BitVec width)) = 0 := rfl

@[simp] theorem limbsToNat_cons
    (limb : BitVec width)
    (limbs : List (BitVec width)) :
    limbsToNat (limb :: limbs) =
      limb.toNat + 2 ^ width * limbsToNat limbs := by
  simp [limbsToNat, Nat.ofDigits_cons]

theorem limbsToNat_concat
    (limbs : List (BitVec width))
    (limb : BitVec width) :
    limbsToNat (limbs ++ [limb]) =
      limbsToNat limbs + (2 ^ width) ^ limbs.length * limb.toNat := by
  simp [limbsToNat, Nat.ofDigits_append]

theorem limbsToNat_lt (limbs : List (BitVec width)) :
    limbsToNat limbs < (2 ^ width) ^ limbs.length := by
  induction limbs with
  | nil => simp
  | cons limb limbs inductionHypothesis =>
      have bound := limb.isLt
      rw [limbsToNat_cons, List.length_cons, Nat.pow_succ']
      calc limb.toNat + 2 ^ width * limbsToNat limbs
          < 2 ^ width * (limbsToNat limbs + 1) := by
            rw [Nat.mul_add_one]
            omega
        _ ≤ 2 ^ width * (2 ^ width) ^ limbs.length :=
            Nat.mul_le_mul_left _ inductionHypothesis

/-- Addition limb by limb, with the carry handed on. -/
def addLimbs
    (carry : Bool) :
    List (BitVec width) -> List (BitVec width) -> List (BitVec width) × Bool
  | left :: lefts, right :: rights =>
      let sum := addWithCarry carry left right
      let rest := addLimbs sum.2 lefts rights
      (sum.1 :: rest.1, rest.2)
  | _, _ => ([], carry)

/-- Subtraction limb by limb, with the borrow handed on. -/
def subLimbs
    (borrow : Bool) :
    List (BitVec width) -> List (BitVec width) -> List (BitVec width) × Bool
  | left :: lefts, right :: rights =>
      let difference := subWithBorrow borrow left right
      let rest := subLimbs difference.2 lefts rights
      (difference.1 :: rest.1, rest.2)
  | _, _ => ([], borrow)

/-- The last carry completes the sum of two numbers of equally many limbs. -/
theorem addLimbs_toNat
    (carry : Bool)
    (lefts rights : List (BitVec width))
    (lengths : lefts.length = rights.length) :
    limbsToNat (addLimbs carry lefts rights).1 +
        (2 ^ width) ^ lefts.length * (addLimbs carry lefts rights).2.toNat =
      limbsToNat lefts + limbsToNat rights + carry.toNat := by
  induction lefts generalizing carry rights with
  | nil =>
      cases List.length_eq_zero_iff.mp lengths.symm
      simp [addLimbs]
  | cons left lefts inductionHypothesis =>
      obtain - | ⟨right, rights⟩ := rights
      · cases lengths
      · have head := addWithCarry_toNat carry left right
        have tail := inductionHypothesis (addWithCarry carry left right).2
          rights (Nat.succ.inj lengths)
        simp only [addLimbs, limbsToNat_cons, List.length_cons, Nat.pow_succ']
        linear_combination head + 2 ^ width * tail

/-- The last borrow completes the difference of two numbers of equally many
limbs. -/
theorem subLimbs_toNat
    (borrow : Bool)
    (lefts rights : List (BitVec width))
    (lengths : lefts.length = rights.length) :
    limbsToNat (subLimbs borrow lefts rights).1 +
        (limbsToNat rights + borrow.toNat) =
      limbsToNat lefts +
        (2 ^ width) ^ lefts.length * (subLimbs borrow lefts rights).2.toNat := by
  induction lefts generalizing borrow rights with
  | nil =>
      cases List.length_eq_zero_iff.mp lengths.symm
      simp [subLimbs]
  | cons left lefts inductionHypothesis =>
      obtain - | ⟨right, rights⟩ := rights
      · cases lengths
      · have head := subWithBorrow_toNat borrow left right
        have tail := inductionHypothesis (subWithBorrow borrow left right).2
          rights (Nat.succ.inj lengths)
        simp only [subLimbs, limbsToNat_cons, List.length_cons, Nat.pow_succ']
        linear_combination head + 2 ^ width * tail

/-- Comparison of limbs with the most significant ones first. -/
def belowFromTop : List (BitVec width) -> List (BitVec width) -> Bool
  | left :: lefts, right :: rights =>
      if left < right then true
      else if left ≠ right then false
      else belowFromTop lefts rights
  | _, _ => false

/-- The comparison from the top is the comparison of the numbers. -/
theorem belowFromTop_iff
    (lefts rights : List (BitVec width))
    (lengths : lefts.length = rights.length) :
    belowFromTop lefts rights = true ↔
      limbsToNat lefts.reverse < limbsToNat rights.reverse := by
  induction lefts generalizing rights with
  | nil =>
      cases List.length_eq_zero_iff.mp lengths.symm
      simp [belowFromTop]
  | cons left lefts inductionHypothesis =>
      obtain - | ⟨right, rights⟩ := rights
      · cases lengths
      · have sameLength := Nat.succ.inj lengths
        have leftBound := limbsToNat_lt lefts.reverse
        have rightBound := limbsToNat_lt rights.reverse
        rw [List.length_reverse] at leftBound rightBound
        rw [← sameLength] at rightBound
        simp only [belowFromTop, List.reverse_cons, limbsToNat_concat,
          List.length_reverse, ← sameLength]
        generalize (2 ^ width) ^ lefts.length = weight at *
        by_cases below : left < right
        · have step : left.toNat + 1 ≤ right.toNat := below
          have scaled := Nat.mul_le_mul_left weight step
          rw [if_pos below, Nat.mul_add_one] at *
          simp only [true_iff]
          omega
        · rw [if_neg below]
          by_cases equal : left = right
          · subst equal
            simp only [ne_eq, not_true_eq_false, if_false,
              Nat.add_lt_add_iff_right]
            exact inductionHypothesis rights sameLength
          · have step : right.toNat + 1 ≤ left.toNat := by
              have distinct := mt BitVec.eq_of_toNat_eq equal
              have notBelow := mt BitVec.lt_def.mpr below
              omega
            have scaled := Nat.mul_le_mul_left weight step
            rw [if_pos equal]
            rw [Nat.mul_add_one] at scaled
            simp only [Bool.false_eq_true, false_iff]
            omega

end Foundation

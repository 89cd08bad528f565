import Privachain.Generator.Representation

/-!
# Comparisons of the witness generator

The order of the comparisons is that of the signed representatives, where the
upper half of the field is negative.  Truth is being different from zero.
-/

namespace Privachain
namespace Generator

open Foundation Circuit
open RawElement (residue Canonical)

/-! ## Signed representatives -/

/-- A small integer is the signed representative of its residue. -/
theorem valMinAbs_intCast
    {integer : Int}
    (lower : -2 ^ 63 ≤ integer)
    (upper : integer < 2 ^ 63) : ((integer : Fr)).valMinAbs = integer := by
  have limit := two_pow_64_lt_fieldSize
  have wide : (2 ^ 64 : Int) < fieldSize := by exact_mod_cast limit
  rw [ZMod.valMinAbs_spec]
  exact ⟨rfl, by constructor <;> omega⟩

/-- The signed representative from the limbs. -/
theorem valMinAbs_of_holds
    {element : RawElement}
    {value : Fr}
    (holds : Holds element value) :
    value.valMinAbs =
      if half.toNat < element.toNat then (element.toNat : Int) - fieldSize
      else element.toNat := by
  have canonical := holds.1.toNat_eq_val
  rw [holds.2] at canonical
  have halves : half.toNat = fieldSize / 2 := by
    rw [half_toNat]
    decide
  rw [ZMod.valMinAbs_def_pos, canonical, halves]
  by_cases upper : value.val ≤ fieldSize / 2
  · rw [if_pos upper, if_neg (by omega)]
  · rw [if_neg upper, if_pos (by omega)]

/-- Limbs above `half` are negative. -/
theorem below_half_iff
    {element : RawElement}
    {value : Fr}
    (holds : Holds element value) :
    below half element = true ↔ value.valMinAbs < 0 := by
  have bound : element.toNat < fieldSize := holds.1
  rw [below_iff, valMinAbs_of_holds holds]
  split <;> omega

namespace FrElement

section Comparisons

variable {a b : FrElement} {first second : Fr}

theorem compared_holds (represents : Represents a first) :
    Holds (compared a).longVal first := by
  unfold compared
  cases isLong : a.isLong
  · simp only [Bool.false_eq_true, if_false]
    exact toLongNormal_holds slot represents
  · cases hasForm : a.isMontgomery
    · simp only [Bool.false_eq_true, if_false, if_true]
      exact represents.limbs isLong hasForm
    · simp only [toNormal, isLong, hasForm, Bool.not_true,
        Bool.false_eq_true, if_false, if_true]
      exact rawFromMontgomery_form (represents.form hasForm)

theorem signed_eq
    (represents : Represents a first)
    (isShort : a.isLong = false) : first.valMinAbs = a.shortVal.toInt := by
  have bounds := shortVal_bounds a
  rw [← represents.signed isShort, valMinAbs_intCast (by omega) (by omega)]

/-- `rltL1L2` compares the signed representatives. -/
theorem rltL1L2_iff
    (left : Holds a.longVal first)
    (right : Holds b.longVal second) :
    rltL1L2 a b = true ↔ first.valMinAbs < second.valMinAbs := by
  have leftSign := below_half_iff left
  have rightSign := below_half_iff right
  have leftBound : a.longVal.toNat < fieldSize := left.1
  have rightBound : b.longVal.toNat < fieldSize := right.1
  have leftValue := valMinAbs_of_holds left
  have rightValue := valMinAbs_of_holds right
  rw [below_iff] at leftSign rightSign
  simp only [rltL1L2, rltRawL1L2, below_iff]
  split at leftValue <;> split at rightValue <;> rename_i leftHalf rightHalf <;>
    simp only [below_iff, leftHalf, rightHalf, if_true, if_false,
      Bool.false_eq_true, true_iff, false_iff] <;> omega

/-- `rgtL1L2` is `rltL1L2` with the operands exchanged. -/
theorem rgtL1L2_eq (a b : FrElement) : rgtL1L2 a b = rltL1L2 b a := by
  unfold rgtL1L2 rltL1L2 rltRawL1L2
  cases below half a.longVal <;> cases below half b.longVal <;> rfl

/-- `Fr_rlt` compares the signed representatives. -/
theorem rlt_iff
    (left : Represents a first)
    (right : Represents b second) :
    rlt a b = true ↔ first.valMinAbs < second.valMinAbs := by
  unfold rlt
  by_cases shorts : (!a.isLong && !b.isLong) = true
  · rw [if_pos shorts]
    simp only [Bool.and_eq_true, Bool.not_eq_true'] at shorts
    rw [BitVec.slt_iff_toInt_lt, signed_eq left shorts.1,
      signed_eq right shorts.2]
  · rw [if_neg shorts]
    exact rltL1L2_iff (compared_holds left) (compared_holds right)

/-- `Fr_rgt` compares the signed representatives. -/
theorem rgt_iff
    (left : Represents a first)
    (right : Represents b second) :
    rgt a b = true ↔ second.valMinAbs < first.valMinAbs := by
  unfold rgt
  by_cases shorts : (!a.isLong && !b.isLong) = true
  · rw [if_pos shorts]
    simp only [Bool.and_eq_true, Bool.not_eq_true'] at shorts
    rw [BitVec.slt_iff_toInt_lt, signed_eq left shorts.1,
      signed_eq right shorts.2]
  · rw [if_neg shorts, rgtL1L2_eq]
    exact rltL1L2_iff (compared_holds right) (compared_holds left)

/-- Limbs below `q` are equal exactly when their residues are. -/
theorem reqL1L2_iff
    (left : Holds a.longVal first)
    (right : Holds b.longVal second) :
    reqL1L2 a b = true ↔ first = second := by
  have equal := rawIsEq_iff a.longVal b.longVal
  rw [rawIsEq] at equal
  rw [reqL1L2, equal]
  constructor
  · intro same
    rw [← left.2, ← right.2, same]
  · intro same
    exact left.1.eq_of_residue_eq right.1 (by rw [left.2, right.2, same])

theorem mul_radix_injective
    {x y : Fr} : x * radix = y * radix ↔ x = y := by
  constructor
  · intro equal
    rw [← mul_radix_mul_inv x, equal, mul_radix_mul_inv]
  · rintro rfl
    rfl

/-- `Fr_req` compares the values in every combination of forms. -/
theorem req_iff
    (left : Represents a first)
    (right : Represents b second) : req a b = true ↔ first = second := by
  have leftForm := toMontgomery_holds slot left
  have rightForm := toMontgomery_holds slot right
  unfold req
  cases isLong : a.isLong <;> cases otherLong : b.isLong
  · rw [decide_eq_true_iff, ← BitVec.toInt_inj, ← signed_eq left isLong,
      ← signed_eq right otherLong]
    exact ZMod.valMinAbs_inj
  · cases otherForm : b.isMontgomery
    · exact reqL1L2_iff (toLongNormal_holds slot left)
        (right.limbs otherLong otherForm)
    · exact (reqL1L2_iff leftForm (right.form otherForm)).trans
        mul_radix_injective
  · cases hasForm : a.isMontgomery
    · exact reqL1L2_iff (left.limbs isLong hasForm)
        (toLongNormal_holds slot right)
    · exact (reqL1L2_iff (left.form hasForm) rightForm).trans
        mul_radix_injective
  · cases hasForm : a.isMontgomery <;> cases otherForm : b.isMontgomery
    · exact reqL1L2_iff (left.limbs isLong hasForm)
        (right.limbs otherLong otherForm)
    · exact (reqL1L2_iff leftForm (right.form otherForm)).trans
        mul_radix_injective
    · exact (reqL1L2_iff (left.form hasForm) rightForm).trans
        mul_radix_injective
    · exact (reqL1L2_iff (left.form hasForm)
        (right.form otherForm)).trans mul_radix_injective

/-! ## Truth -/

theorem holds_isZero_iff
    {element : RawElement}
    {value : Fr}
    (holds : Holds element value) :
    rawIsZero element = true ↔ value = 0 := by
  rw [rawIsZero_iff, holds.1.toNat_eq_val, holds.2, ZMod.val_eq_zero]

/-- `Fr_isTrue` tests for a value that is not zero. -/
theorem isTrue_iff (represents : Represents a first) :
    isTrue a = true ↔ first ≠ 0 := by
  unfold isTrue
  cases isLong : a.isLong
  · have zero : first = 0 ↔ a.shortVal = 0 := by
      rw [← BitVec.toInt_inj, ← signed_eq represents isLong]
      exact (ZMod.valMinAbs_eq_zero first).symm
    simp only [Bool.false_eq_true, if_false, decide_eq_true_iff]
    rw [Ne, Ne, zero]
  · have nonzero : rawIsZero a.longVal = true ↔ first = 0 := by
      cases hasForm : a.isMontgomery
      · exact holds_isZero_iff (represents.limbs isLong hasForm)
      · have zero : first * radix = 0 * radix ↔ first = 0 := mul_radix_injective
        rw [zero_mul] at zero
        rw [holds_isZero_iff (represents.form hasForm), zero]
    simp only [if_true, Bool.not_eq_true']
    rw [Ne, ← nonzero, Bool.not_eq_true]

/-- A written truth value is zero or one. -/
theorem writeBool_represents (r : FrElement) (value : Bool) :
    Represents (r.writeBool value) (if value then 1 else 0) := by
  cases value
  · exact represents_writeShort r (by simp)
  · apply represents_writeShort r
    simp

/-- A written truth value is true exactly when it was. -/
theorem isTrue_writeBool (r : FrElement) (value : Bool) :
    isTrue (r.writeBool value) = value := by
  cases value <;> simp [isTrue, isLong, writeBool, writeShort, shortType]

/-! ## Integers -/

theorem shift_eq_zero_iff (word : Word) :
    word >>> 31 = 0 ↔ word.toNat < 2 ^ 31 := by
  have zero : (0 : Word).toNat = 0 := rfl
  rw [← BitVec.toNat_inj, BitVec.toNat_ushiftRight, Nat.shiftRight_eq_div_pow,
    zero]
  omega

/-- The test for a small integer. -/
theorem isSmall_iff (long : RawElement) :
    (long.at0 >>> 31 = 0 ∧ long.at8 = 0 ∧ long.at16 = 0 ∧ long.at24 = 0) ↔
      long.toNat < 2 ^ 31 := by
  have zero : (0 : Word).toNat = 0 := rfl
  rw [shift_eq_zero_iff, RawElement.toNat_eq]
  simp only [← BitVec.toNat_inj, zero]
  omega

/-- The test for a small negative integer. -/
theorem sshiftRight_eq_iff (word : Word) :
    word.sshiftRight 31 + 1 = 0 ↔
      -2 ^ 31 ≤ word.toInt ∧ word.toInt < 0 := by
  have ones : (0 - 1 : Word).toInt = -1 := rfl
  rw [← BitVec.eq_sub_iff_add_eq, ← BitVec.toInt_inj, BitVec.toInt_sshiftRight,
    Int.shiftRight_eq_div_pow, ones]
  omega

/-- The difference of the lowest limbs at `Fr_longNeg`. -/
def lowestDifference (long : RawElement) : Int :=
  (long.at0.toNat : Int) - q.at0.toNat

theorem lowestDifference_toInt
    {long : RawElement}
    (negative : lowestDifference long < 0) :
    (subWithBorrow false long.at0 q.at0).1.toInt = lowestDifference long := by
  have limb : q.at0.toNat < 2 ^ 63 := by decide
  unfold lowestDifference at negative ⊢
  apply toInt_of_ofInt
  · rw [subWithBorrow, Bool.toNat_false, Nat.cast_zero, sub_zero]
  · omega
  · omega

/-- No higher limb is above the one of `q`. -/
def HigherLimbsBelow (long : RawElement) : Prop :=
  long.at8.toNat ≤ q.at8.toNat ∧ long.at16.toNat ≤ q.at16.toNat ∧
    long.at24.toNat ≤ q.at24.toNat

instance (long : RawElement) : Decidable (HigherLimbsBelow long) :=
  inferInstanceAs (Decidable (_ ∧ _ ∧ _))

/-- What is read at `Fr_longNeg`. -/
theorem longNormal_of_large
    {long : RawElement}
    (large : ¬ long.toNat < 2 ^ 31) :
    longNormal long =
      if lowestDifference long < 0 ∧ HigherLimbsBelow long ∧
          -2 ^ 31 ≤ lowestDifference long then
        some (subWithBorrow false long.at0 q.at0).1
      else none := by
  have borrow (carry : Bool) (left right : Word) :
      (subWithBorrow carry left right).2 =
        decide ((left.toNat : Int) - right.toNat - carry.toNat < 0) := rfl
  rw [longNormal, if_neg (mt (isSmall_iff long).mp large)]
  by_cases negative : lowestDifference long < 0
  · have low : (subWithBorrow false long.at0 q.at0).2 = true := by
      rw [borrow, decide_eq_true_iff]
      unfold lowestDifference at negative
      simpa using negative
    have shift := sshiftRight_eq_iff (subWithBorrow false long.at0 q.at0).1
    rw [lowestDifference_toInt negative] at shift
    have handedOn (left right : Word) :
        ((left.toNat : Int) - right.toNat - (true.toNat : Nat) < 0) ↔
          left.toNat ≤ right.toNat := by
      rw [Bool.toNat_true]
      omega
    simp only [low, borrow, Bool.not_true, Bool.false_eq_true, if_false,
      negative, true_and, ne_eq, shift, and_true, handedOn]
    by_cases limb8 : long.at8.toNat ≤ q.at8.toNat
    · simp only [limb8, decide_true, Bool.not_true, Bool.false_eq_true,
        if_false, handedOn]
      by_cases limb16 : long.at16.toNat ≤ q.at16.toNat
      · simp only [limb16, decide_true, Bool.not_true, Bool.false_eq_true,
          if_false, handedOn]
        by_cases limb24 : long.at24.toNat ≤ q.at24.toNat <;>
          simp only [limb8, limb16, limb24, HigherLimbsBelow, decide_true,
            decide_false, Bool.not_true, Bool.not_false, Bool.false_eq_true,
            if_false, if_true, true_and, and_true, and_false, false_and,
            ite_not]
      · simp only [limb16, HigherLimbsBelow, decide_false, Bool.not_false,
          if_true, false_and, and_false, if_false]
    · simp only [limb8, HigherLimbsBelow, decide_false, Bool.not_false, if_true,
        false_and, if_false]
  · have low : (subWithBorrow false long.at0 q.at0).2 = false := by
      rw [borrow, decide_eq_false_iff_not]
      unfold lowestDifference at negative
      simpa using negative
    rw [if_neg (fun both => negative both.1)]
    simp only [low, Bool.not_false, if_true]

/-- What `Fr_longNormal` reads: an integer, or the distance of the lowest limb
to the one of `q`. -/
theorem longNormal_eq_some
    {long : RawElement}
    {word : Word}
    (read : longNormal long = some word) :
    (-2 ^ 31 ≤ word.toInt ∧ word.toInt < 2 ^ 31) ∧
      (word.toInt = long.toNat ∨
        word.toInt = lowestDifference long ∧ HigherLimbsBelow long) := by
  by_cases small : long.toNat < 2 ^ 31
  · rw [longNormal, if_pos ((isSmall_iff long).mpr small)] at read
    cases read
    have value : long.at0.toInt = long.toNat := by
      obtain ⟨-, limb8, limb16, limb24⟩ := (isSmall_iff long).mpr small
      have zero : (0 : Word).toNat = 0 := rfl
      have exact : long.toNat = long.at0.toNat := by
        rw [RawElement.toNat_eq, limb8, limb16, limb24, zero]
        omega
      rw [exact, BitVec.toInt_eq_toNat_of_lt (by omega)]
    exact ⟨by omega, Or.inl value⟩
  · rw [longNormal_of_large small] at read
    split at read
    · rename_i taken
      cases read
      have value := lowestDifference_toInt taken.1
      exact ⟨by omega, Or.inr ⟨value, taken.2.1⟩⟩
    · cases read

/-- A number just below `q` differs from it in the lowest limb alone. -/
theorem limbs_of_close
    {long : RawElement}
    {distance : Nat}
    (close : long.toNat + distance = fieldSize)
    (positive : 0 < distance)
    (small : distance ≤ 2 ^ 31) :
    lowestDifference long = -distance ∧ HigherLimbsBelow long := by
  have limb : 2 ^ 31 < q.at0.toNat := by decide
  have bounds := And.intro long.at0.isLt
    (And.intro long.at8.isLt long.at16.isLt)
  have otherBounds := And.intro q.at0.isLt
    (And.intro q.at8.isLt q.at16.isLt)
  rw [← q_toNat, RawElement.toNat_eq, RawElement.toNat_eq] at close
  unfold lowestDifference HigherLimbsBelow
  omega

/-- An element within the integers is read as its signed representative. -/
theorem longNormal_of_small
    {long : RawElement}
    {value : Fr}
    (holds : Holds long value)
    (lower : -2 ^ 31 ≤ value.valMinAbs)
    (upper : value.valMinAbs < 2 ^ 31) :
    ∃ word, longNormal long = some word ∧ word.toInt = value.valMinAbs := by
  have bound : long.toNat < fieldSize := holds.1
  have wide : 2 ^ 64 < fieldSize := two_pow_64_lt_fieldSize
  have signed := valMinAbs_of_holds holds
  by_cases small : long.toNat < 2 ^ 31
  · have notHalf : ¬ half.toNat < long.toNat := by
      have large : 2 ^ 31 < half.toNat := by
        rw [half_toNat]
        decide
      omega
    rw [if_neg notHalf] at signed
    refine ⟨long.at0, ?_, ?_⟩
    · rw [longNormal, if_pos ((isSmall_iff long).mpr small)]
    · obtain ⟨-, limb8, limb16, limb24⟩ := (isSmall_iff long).mpr small
      have zero : (0 : Word).toNat = 0 := rfl
      have exact : long.toNat = long.at0.toNat := by
        rw [RawElement.toNat_eq, limb8, limb16, limb24, zero]
        omega
      rw [signed, exact, BitVec.toInt_eq_toNat_of_lt (by omega)]
  · have isHalf : half.toNat < long.toNat := by
      by_contra notHalf
      rw [if_neg notHalf] at signed
      omega
    rw [if_pos isHalf] at signed
    obtain ⟨difference, higher⟩ := @limbs_of_close long (fieldSize - long.toNat)
      (by omega) (by omega) (by omega)
    refine ⟨(subWithBorrow false long.at0 q.at0).1, ?_, ?_⟩
    · rw [longNormal_of_large small,
        if_pos ⟨by omega, higher, by omega⟩]
    · rw [lowestDifference_toInt (by omega)]
      omega

/-- The limbs that `Fr_toInt` reads of a long element. -/
theorem toInt_of_long
    (represents : Represents a first)
    (isLong : a.isLong = true) :
    ∃ long, Holds long first ∧ toInt a = longNormal long := by
  cases hasForm : a.isMontgomery
  · refine ⟨a.longVal, represents.limbs isLong hasForm, ?_⟩
    simp only [toInt, isLong, hasForm, Bool.not_true, Bool.false_eq_true,
      if_false]
  · refine ⟨rawFromMontgomery a.longVal,
      rawFromMontgomery_form (represents.form hasForm), ?_⟩
    simp only [toInt, toNormal, isLong, hasForm, Bool.not_true,
      Bool.false_eq_true, if_false, if_true]

/-- The signed representative fits in an `int`. -/
def FitsInt (value : Fr) : Prop :=
  -2 ^ 31 ≤ value.valMinAbs ∧ value.valMinAbs < 2 ^ 31

/-- The lowest limb is just below the one of `q`, and no higher limb is above
the one of `q`. -/
def LooksNegative (value : Fr) : Prop :=
  let long := RawElement.ofNat value.val
  lowestDifference long < 0 ∧ HigherLimbsBelow long ∧
    -2 ^ 31 ≤ lowestDifference long

theorem holds_eq_ofNat
    {long : RawElement}
    {value : Fr}
    (holds : Holds long value) : RawElement.ofNat value.val = long := by
  have bound := two_mul_fieldSize_lt
  have small := ZMod.val_lt value
  apply RawElement.toNat_injective
  rw [RawElement.toNat_ofNat (by omega), holds.1.toNat_eq_val, holds.2]

/-- What `Fr_toInt` reads is an `int`. -/
theorem toInt_range
    (represents : Represents a first)
    {word : Word}
    (read : toInt a = some word) :
    -2 ^ 31 ≤ word.toInt ∧ word.toInt < 2 ^ 31 := by
  cases isLong : a.isLong
  · simp only [toInt, isLong, Bool.not_false, if_true] at read
    cases read
    rw [signExtended_toInt]
    exact shortVal_bounds a
  · obtain ⟨long, -, reads⟩ := toInt_of_long represents isLong
    rw [reads] at read
    exact (longNormal_eq_some read).1

/-- `Fr_toInt` reads every element that fits in an `int`. -/
theorem toInt_of_fitsInt
    (represents : Represents a first)
    (fits : FitsInt first) :
    ∃ word, toInt a = some word ∧ word.toInt = first.valMinAbs := by
  cases isLong : a.isLong
  · refine ⟨a.signExtended, ?_, ?_⟩
    · simp only [toInt, isLong, Bool.not_false, if_true]
    · rw [signExtended_toInt, signed_eq represents isLong]
  · obtain ⟨long, holds, reads⟩ := toInt_of_long represents isLong
    rw [reads]
    exact longNormal_of_small holds fits.1 fits.2

theorem fitsInt_of_short
    (represents : Represents a first)
    (isShort : a.isLong = false) : FitsInt first := by
  rw [FitsInt, signed_eq represents isShort]
  exact shortVal_bounds a

/-- An element that does not fit in an `int` is read exactly when it looks
negative. -/
theorem toInt_of_not_fitsInt
    (represents : Represents a first)
    (tooLarge : ¬ FitsInt first) :
    (∃ word, toInt a = some word) ↔ LooksNegative first := by
  cases isLong : a.isLong
  · exact absurd (fitsInt_of_short represents isLong) tooLarge
  · obtain ⟨long, holds, reads⟩ := toInt_of_long represents isLong
    have large : ¬ long.toNat < 2 ^ 31 := by
      intro small
      have signed := valMinAbs_of_holds holds
      have wide : 2 ^ 31 < half.toNat := by
        rw [half_toNat]
        decide
      rw [if_neg (by omega)] at signed
      exact tooLarge ⟨by omega, by omega⟩
    simp only [LooksNegative, holds_eq_ofNat holds]
    rw [reads, longNormal_of_large large]
    constructor
    · rintro ⟨word, read⟩
      by_contra notTaken
      rw [if_neg notTaken] at read
      cases read
    · intro taken
      exact ⟨_, if_pos taken⟩

/-- `Fr_toInt` reads the signed representative of what fits in an `int`.  It
reads a wrong integer, and does not fail, exactly where an element that does
not fit looks negative. -/
theorem toInt_spec (represents : Represents a first) :
    (FitsInt first ->
      ∃ word, toInt a = some word ∧ word.toInt = first.valMinAbs) ∧
    ((∃ word, toInt a = some word ∧ word.toInt ≠ first.valMinAbs) ↔
      ¬ FitsInt first ∧ LooksNegative first) := by
  refine ⟨toInt_of_fitsInt represents, ?_⟩
  constructor
  · rintro ⟨word, read, wrong⟩
    have tooLarge : ¬ FitsInt first := by
      intro fits
      obtain ⟨right, alsoRead, value⟩ := toInt_of_fitsInt represents fits
      rw [read, Option.some_inj] at alsoRead
      exact wrong (alsoRead ▸ value)
    exact ⟨tooLarge, (toInt_of_not_fitsInt represents tooLarge).mp ⟨word, read⟩⟩
  · rintro ⟨tooLarge, looks⟩
    obtain ⟨word, read⟩ := (toInt_of_not_fitsInt represents tooLarge).mpr looks
    refine ⟨word, read, ?_⟩
    intro right
    rw [FitsInt, ← right] at tooLarge
    exact tooLarge (toInt_range represents read)

end Comparisons

end FrElement

end Generator
end Privachain

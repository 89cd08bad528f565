import Privachain.Generator.RawField
import Mathlib.Algebra.Field.ZMod

/-!
# Sums and differences of raw elements

Each routine is exact on four limbs and brings its result below `q`, so on
elements below `q` it computes in the field.
-/

namespace Privachain
namespace Generator

open Foundation Circuit

/-! ## Numbers of four limbs -/

namespace RawElement

theorem toNat_eq (element : RawElement) :
    element.toNat =
      element.at0.toNat + 2 ^ 64 * (element.at8.toNat +
        2 ^ 64 * (element.at16.toNat + 2 ^ 64 * element.at24.toNat)) := by
  simp [toNat, limbs]

theorem toNat_lt (element : RawElement) : element.toNat < 2 ^ 256 := by
  have bound := limbsToNat_lt element.limbs
  rwa [show element.limbs.length = 4 from rfl, ← pow_mul] at bound

/-- The field element with this number. -/
def residue (element : RawElement) : Fr := (element.toNat : Fr)

/-- The element is the representative below `q`. -/
def Canonical (element : RawElement) : Prop := element.toNat < fieldSize

instance (element : RawElement) : Decidable element.Canonical :=
  inferInstanceAs (Decidable (_ < _))

@[simp] theorem toNat_ofWord (word : Word) :
    (ofWord word).toNat = word.toNat := by
  simp [toNat_eq, ofWord]

theorem toNat_ofNat
    {value : Nat}
    (bound : value < 2 ^ 256) : (ofNat value).toNat = value := by
  simp only [toNat_eq, ofNat, BitVec.toNat_ofNat]
  omega

/-- Four limbs determine the element. -/
theorem toNat_injective
    {left right : RawElement}
    (equal : left.toNat = right.toNat) : left = right := by
  rw [toNat_eq, toNat_eq] at equal
  have bounds := And.intro left.at0.isLt (And.intro left.at8.isLt left.at16.isLt)
  have rightBounds :=
    And.intro right.at0.isLt (And.intro right.at8.isLt right.at16.isLt)
  ext1 <;> apply BitVec.eq_of_toNat_eq <;> omega

/-- A field element has one representative below `q`. -/
theorem Canonical.eq_of_residue_eq
    {left right : RawElement}
    (leftCanonical : left.Canonical)
    (rightCanonical : right.Canonical)
    (equal : left.residue = right.residue) : left = right := by
  apply toNat_injective
  have congruent := (ZMod.natCast_eq_natCast_iff' _ _ _).mp equal
  rwa [Nat.mod_eq_of_lt leftCanonical,
    Nat.mod_eq_of_lt rightCanonical] at congruent

/-- The representative below `q` is the value of the field element. -/
theorem Canonical.toNat_eq_val
    {element : RawElement}
    (canonical : element.Canonical) : element.toNat = element.residue.val := by
  rw [residue, ZMod.val_natCast, Nat.mod_eq_of_lt canonical]

end RawElement

open RawElement (residue Canonical)

/-! ## Constants -/

@[simp] theorem q_toNat : q.toNat = fieldSize := by
  rw [RawElement.toNat_eq]
  rfl

theorem half_toNat : half.toNat = (fieldSize - 1) / 2 := by
  rw [RawElement.toNat_eq]
  rfl

theorem R2_toNat : R2.toNat = 2 ^ 256 * 2 ^ 256 % fieldSize := by
  rw [RawElement.toNat_eq]
  decide

theorem R3_toNat : R3.toNat = R2.toNat * 2 ^ 256 % fieldSize := by
  rw [RawElement.toNat_eq, RawElement.toNat_eq]
  decide

/-- `np` is the inverse of `-q` modulo the base. -/
theorem base_dvd_np_mul : 2 ^ 64 ∣ np.toNat * fieldSize + 1 := by
  decide

/-! ## Carry chains -/

theorem addWords_limbs (left right : RawElement) :
    addLimbs false left.limbs right.limbs =
      ((addWords left right).1.limbs, (addWords left right).2) := rfl

theorem subWords_limbs (left right : RawElement) :
    subLimbs false left.limbs right.limbs =
      ((subWords left right).1.limbs, (subWords left right).2) := rfl

theorem addWords_toNat (left right : RawElement) :
    (addWords left right).1.toNat +
        2 ^ 256 * (addWords left right).2.toNat =
      left.toNat + right.toNat := by
  have chain := addLimbs_toNat false left.limbs right.limbs rfl
  rw [addWords_limbs, show left.limbs.length = 4 from rfl, ← pow_mul,
    Bool.toNat_false, add_zero] at chain
  exact chain

theorem subWords_toNat (left right : RawElement) :
    (subWords left right).1.toNat + right.toNat =
      left.toNat + 2 ^ 256 * (subWords left right).2.toNat := by
  have chain := subLimbs_toNat false left.limbs right.limbs rfl
  rw [subWords_limbs, show left.limbs.length = 4 from rfl, ← pow_mul,
    Bool.toNat_false, add_zero] at chain
  exact chain

/-- The comparison from the top compares the numbers. -/
theorem below_iff (left right : RawElement) :
    below left right = true ↔ left.toNat < right.toNat := by
  have chain := belowFromTop_iff left.limbs.reverse right.limbs.reverse rfl
  rw [List.reverse_reverse, List.reverse_reverse] at chain
  refine Iff.trans (iff_of_eq ?_) chain
  simp [below, belowFromTop, RawElement.limbs]

theorem two_mul_fieldSize_lt : 2 * fieldSize < 2 ^ 256 := by
  decide

theorem two_pow_64_lt_fieldSize : 2 ^ 64 < fieldSize := by
  decide

/-! ## The ends of the routines -/

/-- What is below `2 * q` is brought below `q`. -/
theorem subtractOnce_toNat
    {sum : RawElement × Bool}
    {total : Nat}
    (exact : sum.1.toNat + 2 ^ 256 * sum.2.toNat = total)
    (bound : total < 2 * fieldSize) :
    (subtractOnce sum).toNat = total % fieldSize := by
  have limit := two_mul_fieldSize_lt
  have difference := subWords_toNat sum.1 q
  have differenceBound := (subWords sum.1 q).1.toNat_lt
  have comparison := below_iff sum.1 q
  rw [q_toNat] at difference comparison
  have noCarry : sum.2 = false := by
    cases carry : sum.2
    · rfl
    · rw [carry, Bool.toNat_true] at exact
      omega
  rw [noCarry, Bool.toNat_false] at exact
  rw [subtractOnce, noCarry, if_neg Bool.false_ne_true]
  split
  · rename_i isBelow
    rw [Nat.mod_eq_of_lt (by have := comparison.mp isBelow; omega)]
    omega
  · rename_i notBelow
    have atLeast : fieldSize ≤ total := by
      have := mt comparison.mpr notBelow
      omega
    rw [Nat.mod_eq_sub_mod atLeast, Nat.mod_eq_of_lt (by omega)]
    cases borrow : (subWords sum.1 q).2 <;>
      rw [borrow] at difference <;>
      simp only [Bool.toNat_true, Bool.toNat_false] at difference <;> omega

/-- A borrow of at most `q` is made good by adding `q`. -/
theorem addAfterBorrow_toNat
    {difference : RawElement × Bool}
    {left right : Nat}
    (exact :
      difference.1.toNat + right = left + 2 ^ 256 * difference.2.toNat)
    (rightBound : right ≤ left + fieldSize) :
    (addAfterBorrow difference).toNat + right =
      if left < right then left + fieldSize else left := by
  have limit := two_mul_fieldSize_lt
  have sum := addWords_toNat difference.1 q
  have sumBound := (addWords difference.1 q).1.toNat_lt
  have differenceBound := difference.1.toNat_lt
  rw [q_toNat] at sum
  unfold addAfterBorrow
  cases borrow : difference.2
  · rw [borrow, Bool.toNat_false] at exact
    rw [if_neg Bool.false_ne_true, if_neg (by omega)]
    omega
  · rw [borrow, Bool.toNat_true] at exact
    rw [if_pos rfl, if_pos (by omega)]
    cases carry : (addWords difference.1 q).2 <;>
      rw [carry] at sum <;>
      simp only [Bool.toNat_true, Bool.toNat_false] at sum <;> omega

/-! ## The routines -/

/-- A number that is the sum of two others up to `q` stands for the difference
of the residues. -/
theorem cast_eq_sub
    {result left right : Nat}
    (exact : result + right =
      if left < right then left + fieldSize else left) :
    (result : Fr) = left - right := by
  rw [eq_sub_iff_add_eq, ← Nat.cast_add, exact]
  split
  · rw [Nat.cast_add, ZMod.natCast_self, add_zero]
  · rfl

theorem rawAddLL_toNat
    {left right : RawElement}
    (leftCanonical : left.Canonical)
    (rightCanonical : right.Canonical) :
    (rawAddLL left right).toNat =
      (left.toNat + right.toNat) % fieldSize := by
  refine subtractOnce_toNat (addWords_toNat left right) ?_
  unfold Canonical at leftCanonical rightCanonical
  omega

theorem rawAddLS_toNat
    {left : RawElement}
    (leftCanonical : left.Canonical)
    (value : Word) :
    (rawAddLS left value).toNat = (left.toNat + value.toNat) % fieldSize := by
  have bound := value.isLt
  have limit := two_pow_64_lt_fieldSize
  unfold Canonical at leftCanonical
  have exact := addWords_toNat (.ofWord value) left
  rw [RawElement.toNat_ofWord] at exact
  rw [rawAddLS, subtractOnce_toNat exact (by omega), Nat.add_comm]

theorem rawSubLL_toNat
    {left right : RawElement}
    (rightCanonical : right.Canonical) :
    (rawSubLL left right).toNat + right.toNat =
      if left.toNat < right.toNat then left.toNat + fieldSize
      else left.toNat := by
  unfold Canonical at rightCanonical
  exact addAfterBorrow_toNat (subWords_toNat left right) (by omega)

theorem rawSubLS_toNat (left : RawElement) (value : Word) :
    (rawSubLS left value).toNat + value.toNat =
      if left.toNat < value.toNat then left.toNat + fieldSize
      else left.toNat := by
  have bound := value.isLt
  have limit := two_pow_64_lt_fieldSize
  have exact := subWords_toNat left (.ofWord value)
  rw [RawElement.toNat_ofWord] at exact
  exact addAfterBorrow_toNat exact (by omega)

theorem rawSubSL_toNat
    (value : Word)
    {right : RawElement}
    (rightCanonical : right.Canonical) :
    (rawSubSL value right).toNat + right.toNat =
      if value.toNat < right.toNat then value.toNat + fieldSize
      else value.toNat := by
  have bound := value.isLt
  unfold Canonical at rightCanonical
  have exact := subWords_toNat (.ofWord value) right
  rw [RawElement.toNat_ofWord] at exact
  exact addAfterBorrow_toNat exact (by omega)

/-- A positive value and an element are both taken from `q`, which is added
again where that borrows. -/
theorem rawNegLS_toNat
    {element : RawElement}
    (canonical : element.Canonical)
    (value : Word) :
    (rawNegLS element value).toNat + (element.toNat + value.toNat) =
      if fieldSize < element.toNat + value.toNat then 2 * fieldSize
      else fieldSize := by
  have bound := value.isLt
  have limit := two_pow_64_lt_fieldSize
  have wide := two_mul_fieldSize_lt
  unfold Canonical at canonical
  have first := subWords_toNat q (.ofWord value)
  rw [RawElement.toNat_ofWord, q_toNat] at first
  have second := subWords_toNat (subWords q (.ofWord value)).1 element
  have sum := addWords_toNat
    (subWords (subWords q (.ofWord value)).1 element).1 q
  have firstBound := (subWords q (.ofWord value)).1.toNat_lt
  have secondBound :=
    (subWords (subWords q (.ofWord value)).1 element).1.toNat_lt
  have sumBound := (addWords
    (subWords (subWords q (.ofWord value)).1 element).1 q).1.toNat_lt
  rw [q_toNat] at sum
  have noBorrow : (subWords q (.ofWord value)).2 = false := by
    cases borrow : (subWords q (.ofWord value)).2
    · rfl
    · rw [borrow, Bool.toNat_true] at first
      omega
  rw [noBorrow, Bool.toNat_false] at first
  rw [rawNegLS]
  simp only [noBorrow, Bool.false_or]
  cases borrow : (subWords (subWords q (.ofWord value)).1 element).2
  · rw [borrow, Bool.toNat_false] at second
    rw [if_neg Bool.false_ne_true, if_neg (by omega)]
    omega
  · rw [borrow, Bool.toNat_true] at second
    rw [if_pos rfl, if_pos (by omega)]
    cases carry : (addWords
        (subWords (subWords q (.ofWord value)).1 element).1 q).2 <;>
      rw [carry] at sum <;>
      simp only [Bool.toNat_true, Bool.toNat_false] at sum <;> omega

theorem rawIsZero_iff (element : RawElement) :
    rawIsZero element = true ↔ element.toNat = 0 := by
  rw [rawIsZero, decide_eq_true_iff, RawElement.toNat_eq]
  simp only [← BitVec.toNat_inj, BitVec.ofNat_eq_ofNat, BitVec.toNat_ofNat]
  omega

theorem rawIsEq_iff (left right : RawElement) :
    rawIsEq left right = true ↔ left = right := by
  rw [rawIsEq, decide_eq_true_iff, RawElement.ext_iff]

theorem rawNegL_toNat
    {element : RawElement}
    (canonical : element.Canonical) :
    (rawNegL element).toNat = (fieldSize - element.toNat) % fieldSize := by
  have isZero := rawIsZero_iff element
  rw [rawIsZero, decide_eq_true_iff] at isZero
  have difference := subWords_toNat q element
  have differenceBound := (subWords q element).1.toNat_lt
  unfold Canonical at canonical
  rw [q_toNat] at difference
  unfold rawNegL
  split
  · rename_i zero
    rw [isZero.mp zero, Nat.sub_zero, Nat.mod_self, RawElement.toNat_eq]
    rfl
  · rename_i nonzero
    have positive := mt isZero.mpr nonzero
    rw [Nat.mod_eq_of_lt (by omega)]
    cases borrow : (subWords q element).2 <;>
      rw [borrow] at difference <;>
      simp only [Bool.toNat_true, Bool.toNat_false] at difference <;> omega

/-! ## The field operations -/

theorem residue_of_toNat
    {element : RawElement}
    {value : Nat}
    (equal : element.toNat = value % fieldSize) :
    element.residue = value := by
  rw [residue, equal, ZMod.natCast_mod]

theorem canonical_of_toNat
    {element : RawElement}
    {value : Nat}
    (equal : element.toNat = value % fieldSize) : element.Canonical := by
  rw [Canonical, equal]
  exact Nat.mod_lt _ (by decide)

/-- What the end of a subtraction leaves is below `q`. -/
theorem canonical_of_borrow
    {element : RawElement}
    {left right : Nat}
    (leftBound : left < fieldSize)
    (exact : element.toNat + right =
      if left < right then left + fieldSize else left) :
    element.Canonical := by
  unfold Canonical
  split at exact <;> omega

/-- An element below `q` that stands for a field element. -/
def Holds (element : RawElement) (value : Fr) : Prop :=
  element.Canonical ∧ element.residue = value

theorem holds_of_toNat
    {element : RawElement}
    {value : Nat}
    (equal : element.toNat = value % fieldSize) : Holds element value :=
  ⟨canonical_of_toNat equal, residue_of_toNat equal⟩

section Signed

variable {left right : RawElement} {first second : Fr}

theorem rawAddLL_holds
    (leftHolds : Holds left first)
    (rightHolds : Holds right second) :
    Holds (rawAddLL left right) (first + second) := by
  have sum := holds_of_toNat (rawAddLL_toNat leftHolds.1 rightHolds.1)
  rwa [Nat.cast_add, ← residue, ← residue, leftHolds.2, rightHolds.2] at sum

theorem rawSubLL_holds
    (leftHolds : Holds left first)
    (rightHolds : Holds right second) :
    Holds (rawSubLL left right) (first - second) := by
  have exact := @rawSubLL_toNat left right rightHolds.1
  refine ⟨canonical_of_borrow leftHolds.1 exact, ?_⟩
  rw [residue, cast_eq_sub exact, ← residue, ← residue, leftHolds.2,
    rightHolds.2]

theorem rawNegL_holds (leftHolds : Holds left first) :
    Holds (rawNegL left) (-first) := by
  have negated := holds_of_toNat (rawNegL_toNat leftHolds.1)
  rwa [Nat.cast_sub leftHolds.1.le, ZMod.natCast_self, zero_sub, ← residue,
    leftHolds.2] at negated

/-- A quad word that is not negative is its own magnitude. -/
theorem cast_toNat_of_not_msb
    {value : Word}
    (sign : value.msb = false) : (value.toNat : Fr) = (value.toInt : Fr) := by
  rw [BitVec.toInt_eq_msb_cond, sign, if_neg Bool.false_ne_true,
    Int.cast_natCast]

/-- The magnitude of a negative quad word. -/
theorem toNat_neg_of_msb
    {value : Word}
    (sign : value.msb = true) :
    ((-value).toNat : Int) = -value.toInt := by
  have bound := value.isLt
  have large := (BitVec.msb_eq_true_iff_two_mul_ge).mp sign
  rw [BitVec.toInt_eq_msb_cond, sign, if_pos rfl, BitVec.toNat_neg,
    Nat.mod_eq_of_lt (by omega), Nat.cast_sub bound.le]
  push_cast
  ring

theorem cast_toNat_neg_of_msb
    {value : Word}
    (sign : value.msb = true) :
    ((-value).toNat : Fr) = -(value.toInt : Fr) := by
  have cast := congrArg (Int.cast (R := Fr)) (toNat_neg_of_msb sign)
  rwa [Int.cast_natCast, Int.cast_neg] at cast

theorem rawAddLS_holds
    (leftHolds : Holds left first)
    (value : Word) : Holds (rawAddLS left value) (first + value.toNat) := by
  have sum := holds_of_toNat (rawAddLS_toNat leftHolds.1 value)
  rwa [Nat.cast_add, ← residue, leftHolds.2] at sum

theorem rawSubLS_holds
    (leftHolds : Holds left first)
    (value : Word) : Holds (rawSubLS left value) (first - value.toNat) := by
  have exact := rawSubLS_toNat left value
  refine ⟨canonical_of_borrow leftHolds.1 exact, ?_⟩
  rw [residue, cast_eq_sub exact, ← residue, leftHolds.2]

theorem rawSubSL_holds
    (value : Word)
    (rightHolds : Holds right second) :
    Holds (rawSubSL value right) (value.toNat - second) := by
  have bound := value.isLt
  have limit := two_pow_64_lt_fieldSize
  have exact := rawSubSL_toNat value rightHolds.1
  refine ⟨canonical_of_borrow (by omega) exact, ?_⟩
  rw [residue, cast_eq_sub exact, ← residue, rightHolds.2]

/-- With a positive value the sum taken from `q` is never `q` itself. -/
theorem rawNegLS_holds
    (leftHolds : Holds left first)
    {value : Word}
    (positive : 0 < value.toNat) :
    Holds (rawNegLS left value) (-first - value.toNat) := by
  have bound := value.isLt
  have limit := two_pow_64_lt_fieldSize
  have below : left.toNat < fieldSize := leftHolds.1
  have exact := rawNegLS_toNat leftHolds.1 value
  have multiple : ((rawNegLS left value).toNat +
      (left.toNat + value.toNat) : Nat) = (0 : Fr) := by
    rw [exact]
    split
    · rw [Nat.cast_mul, ZMod.natCast_self, mul_zero]
    · exact ZMod.natCast_self _
  constructor
  · unfold Canonical
    split at exact <;> omega
  · rw [Nat.cast_add, Nat.cast_add, ← residue, ← residue,
      leftHolds.2] at multiple
    linear_combination multiple

theorem addSigned_holds
    (leftHolds : Holds left first)
    (value : Word) :
    Holds (addSigned left value) (first + value.toInt) := by
  unfold addSigned
  cases sign : value.msb
  · rw [if_neg Bool.false_ne_true, ← cast_toNat_of_not_msb sign]
    exact rawAddLS_holds leftHolds value
  · rw [if_pos rfl]
    have difference := rawSubLS_holds leftHolds (-value)
    rwa [cast_toNat_neg_of_msb sign, sub_neg_eq_add] at difference

theorem subSigned_holds
    (leftHolds : Holds left first)
    (value : Word) :
    Holds (subSigned left value) (first - value.toInt) := by
  unfold subSigned
  cases sign : value.msb
  · rw [if_neg Bool.false_ne_true, ← cast_toNat_of_not_msb sign]
    exact rawSubLS_holds leftHolds value
  · rw [if_pos rfl]
    have sum := rawAddLS_holds leftHolds (-value)
    rwa [cast_toNat_neg_of_msb sign, ← sub_eq_add_neg] at sum

/-- The limbs of a signed quad word. -/
theorem signedLimbs_holds (value : Word) :
    Holds (signedLimbs value) value.toInt := by
  have bound := value.isLt
  have limit := two_pow_64_lt_fieldSize
  unfold signedLimbs
  cases sign : value.msb
  · rw [if_neg Bool.false_ne_true, ← cast_toNat_of_not_msb sign]
    refine ⟨?_, ?_⟩
    · rw [Canonical, RawElement.toNat_ofWord]
      omega
    · rw [residue, RawElement.toNat_ofWord]
  · have large := (BitVec.msb_eq_true_iff_two_mul_ge).mp sign
    have wide := two_mul_fieldSize_lt
    have sum := addWords_toNat ⟨value, -1, -1, -1⟩ q
    have sumBound := (addWords ⟨value, -1, -1, -1⟩ q).1.toNat_lt
    have extended : (RawElement.mk value (-1) (-1) (-1)).toNat + 2 ^ 64 =
        value.toNat + 2 ^ 256 := by
      have ones : (-1 : Word).toNat = 2 ^ 64 - 1 := rfl
      rw [RawElement.toNat_eq]
      simp only [ones]
      omega
    rw [q_toNat] at sum
    have result : (addWords ⟨value, -1, -1, -1⟩ q).1.toNat + 2 ^ 64 =
        fieldSize + value.toNat := by
      cases carry : (addWords ⟨value, -1, -1, -1⟩ q).2 <;>
        rw [carry] at sum <;>
        simp only [Bool.toNat_true, Bool.toNat_false] at sum <;> omega
    rw [if_pos rfl]
    refine ⟨by unfold Canonical; omega, ?_⟩
    have cast := congrArg (Nat.cast (R := Fr)) result
    rw [Nat.cast_add, Nat.cast_add, ZMod.natCast_self, zero_add] at cast
    rw [residue, BitVec.toInt_eq_msb_cond, sign, if_pos rfl, Int.cast_sub,
      Int.cast_natCast, ← cast]
    push_cast
    ring

end Signed

end Generator
end Privachain

import Privachain.Generator.Element
import Privachain.Generator.RawMultiplication
import Mathlib.Data.ZMod.ValMinAbs

/-!
# What the elements of the witness generator represent

Each form of an element represents one field element.  The operations meet the
field operations on every pair of forms.
-/

namespace Privachain
namespace Generator

open Foundation Circuit
open RawElement (residue Canonical)

namespace FrElement

/-- The field element that an element represents in its form. -/
inductive Represents (element : FrElement) (value : Fr) : Prop
  | short
      (isShort : element.isLong = false)
      (isNormal : element.isMontgomery = false)
      (signed : (element.shortVal.toInt : Fr) = value)
  | shortMontgomery
      (isShort : element.isLong = false)
      (hasForm : element.isMontgomery = true)
      (signed : (element.shortVal.toInt : Fr) = value)
      (form : Holds element.longVal (value * radix))
  | long
      (isLong : element.isLong = true)
      (isNormal : element.isMontgomery = false)
      (limbs : Holds element.longVal value)
  | longMontgomery
      (isLong : element.isLong = true)
      (hasForm : element.isMontgomery = true)
      (form : Holds element.longVal (value * radix))

namespace Represents

variable {element : FrElement} {value : Fr}

theorem signed
    (represents : Represents element value)
    (isShort : element.isLong = false) :
    (element.shortVal.toInt : Fr) = value := by
  cases represents with
  | short _ _ signed => exact signed
  | shortMontgomery _ _ signed _ => exact signed
  | long isLong _ _ => simp [isShort] at isLong
  | longMontgomery isLong _ _ => simp [isShort] at isLong

theorem limbs
    (represents : Represents element value)
    (isLong : element.isLong = true)
    (isNormal : element.isMontgomery = false) :
    Holds element.longVal value := by
  cases represents with
  | short isShort _ _ => simp [isLong] at isShort
  | shortMontgomery isShort _ _ _ => simp [isLong] at isShort
  | long _ _ limbs => exact limbs
  | longMontgomery _ hasForm _ => simp [isNormal] at hasForm

theorem form
    (represents : Represents element value)
    (hasForm : element.isMontgomery = true) :
    Holds element.longVal (value * radix) := by
  cases represents with
  | short _ isNormal _ => simp [hasForm] at isNormal
  | shortMontgomery _ _ _ form => exact form
  | long _ isNormal _ => simp [hasForm] at isNormal
  | longMontgomery _ _ form => exact form

/-- An element represents at most one value. -/
theorem unique
    {other : Fr}
    (represents : Represents element value)
    (alsoRepresents : Represents element other) : value = other := by
  cases represents with
  | short isShort _ signed => exact signed ▸ alsoRepresents.signed isShort
  | shortMontgomery isShort _ signed _ =>
      exact signed ▸ alsoRepresents.signed isShort
  | long isLong isNormal limbs =>
      exact limbs.2.symm.trans (alsoRepresents.limbs isLong isNormal).2
  | longMontgomery _ hasForm form =>
      have equal := form.2.symm.trans (alsoRepresents.form hasForm).2
      rw [← mul_radix_mul_inv value, equal, mul_radix_mul_inv]

end Represents

/-! ## Written results -/

/-- The bits of the types that are written. -/
theorem type_bits :
    (longType.getLsbD 31 = true ∧ longType.getLsbD 30 = false) ∧
      (longMontgomeryType.getLsbD 31 = true ∧
        longMontgomeryType.getLsbD 30 = true) ∧
      (shortType.getLsbD 31 = false ∧ shortType.getLsbD 30 = false) ∧
      shortMontgomeryType.getLsbD 31 = false ∧
        shortMontgomeryType.getLsbD 30 = true := by
  decide

section Written

variable {value : Fr}

theorem represents_writeLong
    (r : FrElement)
    {longVal : RawElement}
    (limbs : Holds longVal value) :
    Represents (r.writeLong longType longVal) value :=
  .long type_bits.1.1 type_bits.1.2 limbs

theorem represents_writeShort
    (r : FrElement)
    {shortVal : BitVec 32}
    (signed : (shortVal.toInt : Fr) = value) :
    Represents (r.writeShort shortVal) value :=
  .short type_bits.2.2.1.1 type_bits.2.2.1.2 signed

theorem represents_shortMontgomery
    {shortVal : BitVec 32}
    {longVal : RawElement}
    (signed : (shortVal.toInt : Fr) = value)
    (form : Holds longVal (value * radix)) :
    Represents ⟨shortVal, shortMontgomeryType, longVal⟩ value :=
  .shortMontgomery type_bits.2.2.2.1 type_bits.2.2.2.2 signed form

theorem represents_longMontgomery
    (shortVal : BitVec 32)
    {longVal : RawElement}
    (form : Holds longVal (value * radix)) :
    Represents ⟨shortVal, longMontgomeryType, longVal⟩ value :=
  .longMontgomery type_bits.2.1.1 type_bits.2.1.2 form

theorem represents_rawCopyS2L
    {word : Word}
    (signed : (word.toInt : Fr) = value) :
    Represents (rawCopyS2L word) value :=
  .long type_bits.1.1 type_bits.1.2 (signed ▸ signedLimbs_holds word)

end Written

/-! ## Signed words -/

/-- Sign extension keeps the integer. -/
theorem signExtended_toInt (element : FrElement) :
    element.signExtended.toInt = element.shortVal.toInt :=
  BitVec.toInt_signExtend_of_le (by decide)

theorem shortVal_bounds (element : FrElement) :
    -2 ^ 31 ≤ element.shortVal.toInt ∧ element.shortVal.toInt < 2 ^ 31 :=
  ⟨element.shortVal.le_toInt, element.shortVal.toInt_lt⟩

/-- A quad word that is a small integer has that integer as its value. -/
theorem toInt_of_ofInt
    {word : Word}
    {integer : Int}
    (equal : word = BitVec.ofInt 64 integer)
    (lower : -2 ^ 63 ≤ integer)
    (upper : integer < 2 ^ 63) : word.toInt = integer := by
  rw [equal, BitVec.toInt_ofInt_eq_self (by decide)]
  · simpa using lower
  · simpa using upper

/-! ## Conversions -/

section Conversions

variable {a : FrElement} {value : Fr}

/-- The limbs of a converted short element. -/
theorem signedMMul1_R2_holds (element : FrElement) :
    Holds (signedMMul1 R2 element.signExtended)
      ((element.shortVal.toInt : Fr) * radix) := by
  have product := signedMMul1_holds R2_holds element.signExtended
  rwa [signExtended_toInt, mul_assoc radix, mul_comm radix,
    mul_comm radix, mul_radix_mul_inv] at product

theorem toMontgomery_holds
    (r : FrElement)
    (represents : Represents a value) :
    Holds (toMontgomery r a).longVal (value * radix) := by
  cases hasForm : a.isMontgomery
  · cases isLong : a.isLong
    · simp only [toMontgomery, isLong, hasForm, Bool.false_eq_true, if_false]
      exact represents.signed isLong ▸ signedMMul1_R2_holds a
    · have converted := rawToMontgomery_holds a.longVal
      rw [(represents.limbs isLong hasForm).2, rawToMontgomery] at converted
      simp only [toMontgomery, isLong, hasForm, Bool.false_eq_true, if_false,
        if_true]
      exact converted
  · simp only [toMontgomery, hasForm, if_true]
    exact represents.form hasForm

/-- `Fr_toMontgomery` represents the same value with Montgomery limbs. -/
theorem toMontgomery_represents
    (r : FrElement)
    (represents : Represents a value) :
    Represents (toMontgomery r a) value ∧
      (toMontgomery r a).isMontgomery = true := by
  have limbs := toMontgomery_holds r represents
  cases hasForm : a.isMontgomery
  · cases isLong : a.isLong
    · simp only [toMontgomery, isLong, hasForm, Bool.false_eq_true,
        if_false] at limbs ⊢
      exact ⟨represents_shortMontgomery (represents.signed isLong) limbs,
        type_bits.2.2.2.2⟩
    · simp only [toMontgomery, isLong, hasForm, Bool.false_eq_true, if_false,
        if_true] at limbs ⊢
      exact ⟨represents_longMontgomery _ limbs, type_bits.2.1.2⟩
  · simp only [toMontgomery, hasForm, if_true]
    exact ⟨represents, trivial⟩

theorem rawFromMontgomery_form
    {element : RawElement}
    (form : Holds element (value * radix)) :
    Holds (rawFromMontgomery element) value := by
  have reduced := rawFromMontgomery_holds element
  rwa [form.2, mul_radix_mul_inv] at reduced

/-- `Fr_toNormal` represents the same value; only a short element stays in
Montgomery form. -/
theorem toNormal_represents
    (r : FrElement)
    (represents : Represents a value) :
    Represents (toNormal r a) value ∧
      ((toNormal r a).isLong = true -> (toNormal r a).isMontgomery = false) := by
  cases hasForm : a.isMontgomery
  · simp only [toNormal, hasForm, Bool.not_false, if_true]
    exact ⟨represents, fun _ => trivial⟩
  · cases isLong : a.isLong
    · simp only [toNormal, isLong, hasForm, Bool.not_true, Bool.not_false,
        Bool.false_eq_true, if_false, if_true]
      exact ⟨represents, fun isTrue => isTrue.elim⟩
    · simp only [toNormal, isLong, hasForm, Bool.not_true,
        Bool.false_eq_true, if_false]
      exact ⟨represents_writeLong r
        (rawFromMontgomery_form (represents.form hasForm)),
          fun _ => type_bits.1.2⟩

/-- `Fr_toLongNormal` leaves the value in the limbs. -/
theorem toLongNormal_holds
    (r : FrElement)
    (represents : Represents a value) :
    Holds (toLongNormal r a).longVal value := by
  cases isLong : a.isLong
  · simp only [toLongNormal, isLong, Bool.false_eq_true, if_false]
    rw [← represents.signed isLong, ← signExtended_toInt]
    exact signedLimbs_holds a.signExtended
  · cases hasForm : a.isMontgomery
    · simp only [toLongNormal, isLong, hasForm, Bool.false_eq_true, if_false,
        if_true]
      exact represents.limbs isLong hasForm
    · simp only [toLongNormal, isLong, hasForm, if_true]
      exact rawFromMontgomery_form (represents.form hasForm)

end Conversions

/-! ## Addition -/

section Operations

variable {a b : FrElement} {first second : Fr}

/-- Short operands are added in the word or, after an overflow, in limbs. -/
theorem add_short
    (r : FrElement)
    (signed : (a.shortVal.toInt : Fr) = first)
    (otherSigned : (b.shortVal.toInt : Fr) = second)
    (isShort : a.isLong = false)
    (otherShort : b.isLong = false) :
    Represents (add r a b) (first + second) := by
  simp only [add, isShort, otherShort]
  rw [← signed, ← otherSigned, ← Int.cast_add]
  split
  · apply represents_rawCopyS2L
    have bounds := shortVal_bounds a
    have otherBounds := shortVal_bounds b
    rw [@toInt_of_ofInt _ (a.shortVal.toInt + b.shortVal.toInt) _
      (by omega) (by omega)]
    rw [BitVec.ofInt_add, ← signExtended_toInt, ← signExtended_toInt,
      BitVec.ofInt_toInt, BitVec.ofInt_toInt]
  · rename_i noOverflow
    apply represents_writeShort
    rw [BitVec.toInt_add_of_not_saddOverflow noOverflow]

/-- `Fr_add` adds the values in every combination of forms. -/
theorem add_represents
    (r : FrElement)
    (left : Represents a first)
    (right : Represents b second) :
    Represents (add r a b) (first + second) := by
  have leftForm := toMontgomery_holds slot left
  have rightForm := toMontgomery_holds slot right
  have inForm {x y : RawElement}
      (xForm : Holds x (first * radix))
      (yForm : Holds y (second * radix)) :
      Represents (r.writeLong longMontgomeryType (rawAddLL x y))
        (first + second) := by
    apply represents_longMontgomery
    rw [add_mul]
    exact rawAddLL_holds xForm yForm
  cases isLong : a.isLong <;> cases otherLong : b.isLong
  · exact add_short r (left.signed isLong) (right.signed otherLong) isLong
      otherLong
  · cases otherForm : b.isMontgomery
    · simp only [add, isLong, otherLong, otherForm]
      rw [add_comm, ← left.signed isLong, ← signExtended_toInt]
      exact represents_writeLong r
        (addSigned_holds (right.limbs otherLong otherForm) _)
    · cases hasForm : a.isMontgomery <;>
        simp only [add, isLong, otherLong, otherForm, hasForm]
      · exact inForm leftForm (right.form otherForm)
      · exact inForm (left.form hasForm) (right.form otherForm)
  · cases hasForm : a.isMontgomery
    · simp only [add, isLong, otherLong, hasForm]
      rw [← right.signed otherLong, ← signExtended_toInt]
      exact represents_writeLong r
        (addSigned_holds (left.limbs isLong hasForm) _)
    · cases otherForm : b.isMontgomery <;>
        simp only [add, isLong, otherLong, otherForm, hasForm]
      · exact inForm (left.form hasForm) rightForm
      · exact inForm (left.form hasForm) (right.form otherForm)
  · cases hasForm : a.isMontgomery <;> cases otherForm : b.isMontgomery <;>
      simp only [add, isLong, otherLong, otherForm, hasForm]
    · exact represents_writeLong r (rawAddLL_holds
        (left.limbs isLong hasForm) (right.limbs otherLong otherForm))
    · exact inForm leftForm (right.form otherForm)
    · exact inForm (left.form hasForm) rightForm
    · exact inForm (left.form hasForm) (right.form otherForm)

/-! ## Subtraction -/

theorem sub_short
    (r : FrElement)
    (signed : (a.shortVal.toInt : Fr) = first)
    (otherSigned : (b.shortVal.toInt : Fr) = second)
    (isShort : a.isLong = false)
    (otherShort : b.isLong = false) :
    Represents (sub r a b) (first - second) := by
  simp only [sub, isShort, otherShort]
  rw [← signed, ← otherSigned, ← Int.cast_sub]
  split
  · apply represents_rawCopyS2L
    have bounds := shortVal_bounds a
    have otherBounds := shortVal_bounds b
    rw [@toInt_of_ofInt _ (a.shortVal.toInt - b.shortVal.toInt) _
      (by omega) (by omega)]
    rw [Int.sub_eq_add_neg, BitVec.ofInt_add, BitVec.ofInt_neg,
      ← signExtended_toInt, ← signExtended_toInt, BitVec.ofInt_toInt,
      BitVec.ofInt_toInt, BitVec.sub_eq_add_neg]
  · rename_i noOverflow
    apply represents_writeShort
    rw [BitVec.toInt_sub_of_not_ssubOverflow noOverflow]

/-- The sign of a short value is the sign of its extension. -/
theorem signExtended_msb (element : FrElement) :
    element.signExtended.msb = element.shortVal.msb := by
  rw [BitVec.msb_eq_toInt, BitVec.msb_eq_toInt, signExtended_toInt]

/-- A short value minus limbs. -/
theorem shortMinusLong_holds
    {long : RawElement}
    (limbs : Holds long second) :
    Holds
      (if a.shortVal.msb then rawNegLS long (-a.signExtended)
        else rawSubSL a.signExtended long)
      ((a.shortVal.toInt : Fr) - second) := by
  rw [← signExtended_msb, ← signExtended_toInt]
  cases sign : a.signExtended.msb
  · rw [if_neg Bool.false_ne_true, ← cast_toNat_of_not_msb sign]
    exact rawSubSL_holds a.signExtended limbs
  · rw [if_pos rfl]
    have magnitude := toNat_neg_of_msb sign
    have negative := BitVec.msb_eq_toInt (x := a.signExtended)
    rw [sign, eq_comm, decide_eq_true_iff] at negative
    have positive : 0 < (-a.signExtended).toNat := by omega
    have negated := rawNegLS_holds limbs positive
    rwa [cast_toNat_neg_of_msb sign, sub_neg_eq_add, neg_add_eq_sub] at negated

/-- `Fr_sub` subtracts the values. -/
theorem sub_represents
    (r : FrElement)
    (left : Represents a first)
    (right : Represents b second) :
    Represents (sub r a b) (first - second) := by
  have leftForm := toMontgomery_holds slot left
  have rightForm := toMontgomery_holds slot right
  have inForm {x y : RawElement}
      (xForm : Holds x (first * radix))
      (yForm : Holds y (second * radix)) :
      Represents (r.writeLong longMontgomeryType (rawSubLL x y))
        (first - second) := by
    apply represents_longMontgomery
    rw [sub_mul]
    exact rawSubLL_holds xForm yForm
  cases isLong : a.isLong <;> cases otherLong : b.isLong
  · exact sub_short r (left.signed isLong) (right.signed otherLong) isLong
      otherLong
  · cases otherForm : b.isMontgomery
    · simp only [sub, isLong, otherLong, otherForm]
      rw [← left.signed isLong]
      exact represents_writeLong r
        (shortMinusLong_holds (right.limbs otherLong otherForm))
    · cases hasForm : a.isMontgomery <;>
        simp only [sub, isLong, otherLong, otherForm, hasForm]
      · exact inForm leftForm (right.form otherForm)
      · exact inForm (left.form hasForm) (right.form otherForm)
  · cases hasForm : a.isMontgomery
    · simp only [sub, isLong, otherLong, hasForm]
      rw [← right.signed otherLong, ← signExtended_toInt]
      exact represents_writeLong r
        (subSigned_holds (left.limbs isLong hasForm) _)
    · cases otherForm : b.isMontgomery <;>
        simp only [sub, isLong, otherLong, otherForm, hasForm]
      · exact inForm (left.form hasForm) rightForm
      · exact inForm (left.form hasForm) (right.form otherForm)
  · cases hasForm : a.isMontgomery <;> cases otherForm : b.isMontgomery <;>
      simp only [sub, isLong, otherLong, otherForm, hasForm]
    · exact represents_writeLong r (rawSubLL_holds
        (left.limbs isLong hasForm) (right.limbs otherLong otherForm))
    · exact inForm leftForm (right.form otherForm)
    · exact inForm (left.form hasForm) rightForm
    · exact inForm (left.form hasForm) (right.form otherForm)

/-- `Fr_neg` negates the value. -/
theorem neg_represents
    (r : FrElement)
    (represents : Represents a first) : Represents (neg r a) (-first) := by
  cases isLong : a.isLong
  · simp only [neg, isLong, Bool.false_eq_true, if_false]
    rw [← represents.signed isLong, ← Int.cast_neg]
    split
    · rename_i overflow
      have smallest : a.shortVal = BitVec.intMin 32 := by
        rw [BitVec.negOverflow_eq] at overflow
        simpa using overflow
      apply represents_rawCopyS2L
      rw [smallest]
      rfl
    · rename_i noOverflow
      apply represents_writeShort
      rw [BitVec.toInt_neg_of_not_negOverflow noOverflow]
  · simp only [neg, isLong, if_true]
    cases hasForm : a.isMontgomery
    · exact .long isLong hasForm
        (rawNegL_holds (represents.limbs isLong hasForm))
    · refine .longMontgomery isLong hasForm ?_
      rw [neg_mul]
      exact rawNegL_holds (represents.form hasForm)

/-! ## Multiplication -/

theorem mul_short
    (signed : (a.shortVal.toInt : Fr) = first)
    (otherSigned : (b.shortVal.toInt : Fr) = second) :
    Represents (rawCopyS2L (a.signExtended * b.signExtended))
      (first * second) := by
  rw [← signed, ← otherSigned, ← Int.cast_mul]
  apply represents_rawCopyS2L
  have bounds := shortVal_bounds a
  have otherBounds := shortVal_bounds b
  have magnitude : |a.shortVal.toInt * b.shortVal.toInt| ≤ 2 ^ 31 * 2 ^ 31 := by
    rw [abs_mul]
    exact mul_le_mul (abs_le.mpr ⟨bounds.1, bounds.2.le⟩)
      (abs_le.mpr ⟨otherBounds.1, otherBounds.2.le⟩) (abs_nonneg _) (by decide)
  have range := abs_le.mp magnitude
  rw [@toInt_of_ofInt _ (a.shortVal.toInt * b.shortVal.toInt) _
    (by omega) (by omega)]
  rw [BitVec.ofInt_mul, ← signExtended_toInt, ← signExtended_toInt,
    BitVec.ofInt_toInt, BitVec.ofInt_toInt]

/-- A Montgomery form times limbs is a normal product. -/
theorem rawMMul_form_limbs
    {x y : RawElement}
    (form : Holds x (first * radix))
    (limbs : Holds y second) : Holds (rawMMul x y) (first * second) := by
  have product := rawMMul_holds x limbs
  rwa [form.2, mul_right_comm first, mul_radix_mul_inv] at product

/-- Limbs times a Montgomery form are a normal product. -/
theorem rawMMul_limbs_form
    {x y : RawElement}
    (limbs : Holds x first)
    (form : Holds y (second * radix)) : Holds (rawMMul x y) (first * second) := by
  have product := rawMMul_holds x form
  rwa [limbs.2, ← mul_assoc, mul_radix_mul_inv] at product

/-- The product of two Montgomery forms is one again. -/
theorem rawMMul_forms
    {x y : RawElement}
    (form : Holds x (first * radix))
    (otherForm : Holds y (second * radix)) :
    Holds (rawMMul x y) (first * second * radix) := by
  have product := rawMMul_holds x otherForm
  rwa [form.2, mul_radix_mul_radix] at product

/-- A product divided by the radix is a Montgomery form after `R3`. -/
theorem rawMMul_R3
    {x : RawElement}
    (divided : Holds x (first * radix⁻¹)) :
    Holds (rawMMul x R3) (first * radix) := by
  have product := rawMMul_holds x R3_holds
  rwa [divided.2, mul_radix_cubed] at product

/-- A signed quad word times a Montgomery form is a normal product. -/
theorem signedMMul1_form
    {x : RawElement}
    (form : Holds x (first * radix))
    (word : Word) : Holds (signedMMul1 x word) (first * word.toInt) := by
  have product := signedMMul1_holds form word
  rwa [mul_right_comm first, mul_radix_mul_inv] at product

/-- `Fr_mul` multiplies the values in every combination of forms. -/
theorem mul_represents
    (r : FrElement)
    (left : Represents a first)
    (right : Represents b second) :
    Represents (mul r a b) (first * second) := by
  cases isLong : a.isLong <;> cases otherLong : b.isLong
  · simp only [mul, isLong, otherLong]
    exact mul_short (left.signed isLong) (right.signed otherLong)
  · cases hasForm : a.isMontgomery <;> cases otherForm : b.isMontgomery <;>
      simp only [mul, isLong, otherLong, otherForm, hasForm]
    · apply represents_longMontgomery
      apply rawMMul_R3
      rw [mul_comm first, ← left.signed isLong, ← signExtended_toInt]
      exact signedMMul1_holds (right.limbs otherLong otherForm) _
    · rw [mul_comm first, ← left.signed isLong, ← signExtended_toInt]
      exact represents_writeLong r (signedMMul1_form (right.form otherForm) _)
    · exact represents_writeLong r (rawMMul_form_limbs (left.form hasForm)
        (right.limbs otherLong otherForm))
    · exact represents_longMontgomery _ (rawMMul_forms (left.form hasForm)
        (right.form otherForm))
  · cases hasForm : a.isMontgomery <;> cases otherForm : b.isMontgomery <;>
      simp only [mul, isLong, otherLong, otherForm, hasForm]
    · apply represents_longMontgomery
      apply rawMMul_R3
      rw [← right.signed otherLong, ← signExtended_toInt]
      exact signedMMul1_holds (left.limbs isLong hasForm) _
    · exact represents_writeLong r (rawMMul_limbs_form
        (left.limbs isLong hasForm) (right.form otherForm))
    · rw [← right.signed otherLong, ← signExtended_toInt]
      exact represents_writeLong r (signedMMul1_form (left.form hasForm) _)
    · exact represents_longMontgomery _ (rawMMul_forms (left.form hasForm)
        (right.form otherForm))
  · cases hasForm : a.isMontgomery <;> cases otherForm : b.isMontgomery <;>
      simp only [mul, isLong, otherLong, otherForm, hasForm]
    · apply represents_longMontgomery
      apply rawMMul_R3
      have product := rawMMul_holds a.longVal (right.limbs otherLong otherForm)
      rwa [(left.limbs isLong hasForm).2] at product
    · exact represents_writeLong r (rawMMul_limbs_form
        (left.limbs isLong hasForm) (right.form otherForm))
    · exact represents_writeLong r (rawMMul_form_limbs (left.form hasForm)
        (right.limbs otherLong otherForm))
    · exact represents_longMontgomery _ (rawMMul_forms (left.form hasForm)
        (right.form otherForm))

/-- `Fr_square` represents the product of the value with itself. -/
theorem square_represents
    (r : FrElement)
    (represents : Represents a first) :
    Represents (square r a) (first * first) := by
  cases isLong : a.isLong
  · simp only [square, isLong, Bool.not_false, if_true]
    exact mul_short (represents.signed isLong) (represents.signed isLong)
  · cases hasForm : a.isMontgomery <;>
      simp only [square, isLong, hasForm, rawMSquare_eq, Bool.not_true,
        Bool.not_false, Bool.false_eq_true, if_false, if_true]
    · apply represents_longMontgomery
      apply rawMMul_R3
      have limbs := represents.limbs isLong hasForm
      have product := rawMMul_holds a.longVal limbs
      rwa [limbs.2] at product
    · exact represents_longMontgomery _ (rawMMul_forms
        (represents.form hasForm) (represents.form hasForm))

end Operations

end FrElement

end Generator
end Privachain

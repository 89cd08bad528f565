import Privachain.Generator.Comparison

/-!
# The field operations of the witness generator

The results that the programs above rely on, for every form of the operands:
Montgomery multiplication on limbs, arithmetic, comparison and logic.
-/

namespace Privachain
namespace Generator

open Foundation Circuit

/-- `Fr_rawMMul`, `Fr_rawMMul1`, `Fr_rawMSquare`, `Fr_rawFromMontgomery` and
`Fr_rawToMontgomery` compute the canonical limbs of the exact products.  Of the two
factors only the second has to be canonical. -/
theorem rawMontgomery_exact
    (left : RawElement)
    {right : RawElement}
    (canonical : right.Canonical)
    (value : Word) :
    ((rawMMul left right).Canonical ∧
      2 ^ 256 * (rawMMul left right).toNat ≡ left.toNat * right.toNat
        [MOD fieldSize]) ∧
    ((rawMMul1 right value).Canonical ∧
      2 ^ 256 * (rawMMul1 right value).toNat ≡ right.toNat * value.toNat
        [MOD fieldSize]) ∧
    ((rawMSquare right).Canonical ∧
      2 ^ 256 * (rawMSquare right).toNat ≡ right.toNat * right.toNat
        [MOD fieldSize]) ∧
    ((rawFromMontgomery left).Canonical ∧
      2 ^ 256 * (rawFromMontgomery left).toNat ≡ left.toNat [MOD fieldSize]) ∧
    (rawToMontgomery left).Canonical ∧
      (rawToMontgomery left).toNat ≡ 2 ^ 256 * left.toNat [MOD fieldSize] := by
  have own : Holds right right.residue := ⟨canonical, rfl⟩
  have exact {result : RawElement} {product : Fr} {total : Nat}
      (holds : Holds result (product * radix⁻¹))
      (isProduct : product = (total : Fr)) :
      result.Canonical ∧ 2 ^ 256 * result.toNat ≡ total [MOD fieldSize] := by
    refine ⟨holds.1, ?_⟩
    rw [← ZMod.natCast_eq_natCast_iff, Nat.cast_mul, ← isProduct]
    have residue : (result.toNat : Fr) = product * radix⁻¹ := holds.2
    rw [residue, ← radix, mul_left_comm, radix_mul_inv, mul_one]
  refine ⟨exact (rawMMul_holds left own) ?_, exact (rawMMul1_holds own value) ?_,
    exact (rawMMul_holds right own) ?_, exact (rawFromMontgomery_holds left) rfl,
    (rawToMontgomery_holds left).1, ?_⟩
  · rw [Nat.cast_mul]
    rfl
  · rw [Nat.cast_mul]
    rfl
  · rw [Nat.cast_mul]
    rfl
  · rw [← ZMod.natCast_eq_natCast_iff, Nat.cast_mul, mul_comm]
    exact (rawToMontgomery_holds left).2

theorem rawMontgomery_exact_R3 :
    (rawMMul ⟨0, 0, 0, 0⟩ R3).Canonical ∧ (rawMMul1 R3 7).Canonical := by
  have exact := rawMontgomery_exact ⟨0, 0, 0, 0⟩ R3_holds.1 7
  exact ⟨exact.1.1, exact.2.1.1⟩

namespace FrElement

variable {a b : FrElement} {first second : Fr}

/-- Sums, products, squares and negatives are those of the field, and the
conversions keep the value, for operands in every form. -/
theorem arithmetic_represents
    (r : FrElement)
    (left : Represents a first)
    (right : Represents b second) :
    Represents (add r a b) (first + second) ∧
      Represents (mul r a b) (first * second) ∧
      Represents (square r a) (first * first) ∧
      Represents (neg r a) (-first) ∧
      Represents (toMontgomery r a) first ∧
      Represents (toNormal r a) first ∧
      Holds (toLongNormal r a).longVal first :=
  ⟨add_represents r left right, mul_represents r left right,
    square_represents r left, neg_represents r left,
    (toMontgomery_represents r left).1, (toNormal_represents r left).1,
    toLongNormal_holds r left⟩

/-- `Fr_sub` is the subtraction of the field for operands in every form, and
`Fr_eq` finds it equal to the sum with the negative. -/
theorem subtraction_represents
    (r : FrElement)
    (left : Represents a first)
    (right : Represents b second) :
    Represents (sub r a b) (first - second) ∧
      ∀ sum negative, req (sub r a b) (add sum a (neg negative b)) = true := by
  have difference := sub_represents r left right
  refine ⟨difference, fun sum negative => ?_⟩
  have negated := add_represents sum left (neg_represents negative right)
  rw [req_iff difference negated, sub_eq_add_neg]

/-- The comparisons are those of the values and of their signed representatives,
and the logical operations those of the values that are not zero. -/
theorem comparisons_represent
    (r : FrElement)
    (left : Represents a first)
    (right : Represents b second) :
    Represents (eq r a b) (if first = second then 1 else 0) ∧
      Represents (neq r a b) (if first ≠ second then 1 else 0) ∧
      Represents (lt r a b)
        (if first.valMinAbs < second.valMinAbs then 1 else 0) ∧
      Represents (gt r a b)
        (if second.valMinAbs < first.valMinAbs then 1 else 0) ∧
      Represents (leq r a b)
        (if first.valMinAbs ≤ second.valMinAbs then 1 else 0) ∧
      Represents (geq r a b)
        (if second.valMinAbs ≤ first.valMinAbs then 1 else 0) ∧
      Represents (land r a b) (if first ≠ 0 ∧ second ≠ 0 then 1 else 0) ∧
      Represents (lor r a b) (if first ≠ 0 ∨ second ≠ 0 then 1 else 0) ∧
      Represents (lnot r a) (if first = 0 then 1 else 0) := by
  have written {value : Bool} {statement : Prop} [Decidable statement]
      (iff : value = true ↔ statement) :
      Represents (r.writeBool value) (if statement then 1 else 0) := by
    have represents := writeBool_represents r value
    simpa only [iff] using represents
  have equal := req_iff left right
  have less := rlt_iff left right
  have greater := rgt_iff left right
  have isTrue := isTrue_iff left
  have alsoTrue := isTrue_iff right
  refine ⟨written equal, written ?_, written less, written greater, written ?_,
    written ?_, written ?_, written ?_, written ?_⟩
  · rw [Bool.not_eq_true', ← Bool.not_eq_true, equal]
  · rw [Bool.not_eq_true', ← Bool.not_eq_true, greater, not_lt]
  · rw [Bool.not_eq_true', ← Bool.not_eq_true, less, not_lt]
  · rw [Bool.and_eq_true, isTrue, alsoTrue]
  · rw [Bool.or_eq_true, isTrue, alsoTrue]
  · rw [Bool.not_eq_true', ← Bool.not_eq_true, isTrue, not_not]

/-! ## Operands in different forms -/

/-- Minus five as a short element. -/
def minusFive : FrElement := ⟨-5, shortType, ⟨0, 0, 0, 0⟩⟩

/-- The radix in long Montgomery form. -/
def longRadix : FrElement := ⟨0, longMontgomeryType, R2⟩

theorem minusFive_represents : Represents minusFive (-5) :=
  .short rfl rfl (by
    have signed : minusFive.shortVal.toInt = -5 := rfl
    rw [signed]
    norm_num)

theorem longRadix_represents : Represents longRadix radix :=
  .longMontgomery rfl rfl R2_holds

theorem minusFive_add_longRadix :
    Represents (add slot minusFive longRadix) (-5 + radix) :=
  (arithmetic_represents slot minusFive_represents longRadix_represents).1

theorem minusFive_sub_longRadix :
    Represents (sub slot minusFive longRadix) (-5 - radix) :=
  (subtraction_represents slot minusFive_represents longRadix_represents).1

theorem toInt_minusFive :
    ∃ word, toInt minusFive = some word ∧ word.toInt = (-5 : Fr).valMinAbs :=
  (toInt_spec minusFive_represents).1 (fitsInt_of_short minusFive_represents rfl)

theorem minusFive_neq_longRadix :
    Represents (neq slot minusFive longRadix)
      (if (-5 : Fr) ≠ radix then 1 else 0) :=
  (comparisons_represent slot minusFive_represents longRadix_represents).2.1

end FrElement

end Generator
end Privachain

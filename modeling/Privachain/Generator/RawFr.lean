import Privachain.Generator.BigIntegers
import Mathlib.Data.Nat.Bitwise
import Mathlib.Data.Nat.Digits.Defs

/-!
# The class `RawFr`

Elements of the class are limbs in Montgomery form.  The power reads the bytes
of its exponent from the highest bit on, and squares only after the first bit
that is set.
-/

namespace Privachain
namespace Generator

open Foundation Circuit

namespace RawFr

/-- The limbs of an element hold the Montgomery form of a value. -/
def HasForm (element : RawElement) (value : Fr) : Prop :=
  Holds element (value * radix)

/-- `RawFr::set` -/
def set (value : BitVec 32) : RawElement :=
  let mr := if value.toInt < 0 then value.toInt + q.toNat else value.toInt
  rawToMontgomery (.ofNat mr.natAbs)

/-- `RawFr::fromUI` -/
def fromUI (v : Word) : RawElement := rawToMontgomery (.ofNat v.toNat)

/-- `RawFr::fromString` -/
def fromString (s : List Char) (radix : Nat) : RawElement :=
  rawToMontgomery (.ofNat (FrElement.mpzInitSetStr radix s % q.toNat).natAbs)

/-- `RawFr::toString` in decimal -/
def toString (a : RawElement) : String := (rawFromMontgomery a).toNat.repr

/-- `RawFr::inv` -/
def inv (undefined : Int -> Int) (a : RawElement) : RawElement :=
  rawMMul (.ofNat (FrElement.mpzInvert undefined a.toNat).natAbs) R3

/-- `RawFr::div` -/
def div (undefined : Int -> Int) (a b : RawElement) : RawElement :=
  rawMMul a (inv undefined b)

/-- `BIT_IS_SET` -/
def bitIsSet (scalar : List (BitVec 8)) (p : Nat) : Bool :=
  (scalar.getD (p / 8) 0).getLsbD (p % 8)

/-- The loop of `RawFr::exp` over the bits below an index. -/
def expLoop
    (scalar : List (BitVec 8))
    (copyBase : RawElement) : Nat -> Bool × RawElement -> Bool × RawElement
  | 0, state => state
  | i + 1, (oneFound, r) =>
      expLoop scalar copyBase i
        (if !oneFound then
          if !bitIsSet scalar i then (oneFound, r) else (true, copyBase)
        else if bitIsSet scalar i then
          (oneFound, rawMMul (rawMSquare r) copyBase)
        else (oneFound, rawMSquare r))

/-- `RawFr::exp` -/
def exp (r base : RawElement) (scalar : List (BitVec 8)) : RawElement :=
  let (oneFound, r) := expLoop scalar base (scalar.length * 8) (false, r)
  if !oneFound then set 1 else r

/-! ## Conversions -/

/-- An integer below the field size is written and converted. -/
theorem rawToMontgomery_ofNat
    {v : Int}
    (nonnegative : 0 ≤ v)
    (small : v < fieldSize) :
    HasForm (rawToMontgomery (.ofNat v.natAbs)) (v : Fr) := by
  have width := two_mul_fieldSize_lt
  have exact : (RawElement.ofNat v.natAbs).toNat = v.natAbs % fieldSize := by
    rw [RawElement.toNat_ofNat (by omega), Nat.mod_eq_of_lt (by omega)]
  have limbs := holds_of_toNat exact
  have form := rawToMontgomery_holds (RawElement.ofNat v.natAbs)
  rwa [limbs.2, ← Int.cast_natCast, Int.natAbs_of_nonneg nonnegative] at form

/-- `RawFr::set` takes the residue of every `int`. -/
theorem set_hasForm (value : BitVec 32) :
    HasForm (set value) (value.toInt : Fr) := by
  have lower := value.le_toInt
  have upper := value.toInt_lt
  have wide : ((2 ^ 64 : Nat) : Int) < fieldSize := by
    exact_mod_cast two_pow_64_lt_fieldSize
  unfold set
  rw [q_toNat]
  by_cases negative : value.toInt < 0
  · simp only [negative, if_true]
    have form := rawToMontgomery_ofNat (v := value.toInt + fieldSize) (by omega)
      (by omega)
    rwa [Int.cast_add, Int.cast_natCast, ZMod.natCast_self, add_zero] at form
  · simp only [negative, if_false]
    exact rawToMontgomery_ofNat (by omega) (by omega)

/-- `RawFr::fromUI` takes the residue of every unsigned integer. -/
theorem fromUI_hasForm (v : Word) : HasForm (fromUI v) (v.toNat : Fr) := by
  have small := lt_trans v.isLt two_pow_64_lt_fieldSize
  have form := rawToMontgomery_ofNat (Int.natCast_nonneg v.toNat)
    (by exact_mod_cast small)
  rwa [Int.cast_natCast] at form

/-- `RawFr::fromString` takes the residue of the integer of a text. -/
theorem fromString_hasForm (s : List Char) (radix : Nat) :
    HasForm (fromString s radix) (FrElement.mpzInitSetStr radix s : Int) := by
  have positive : (0 : Int) < fieldSize := by
    exact_mod_cast Nat.pos_of_ne_zero (NeZero.ne fieldSize)
  have form := rawToMontgomery_ofNat
    (Int.emod_nonneg (FrElement.mpzInitSetStr radix s) positive.ne')
    (Int.emod_lt_of_pos _ positive)
  rw [ZMod.intCast_mod] at form
  rw [fromString, q_toNat]
  exact form

section Values

variable {a b : RawElement} {first second : Fr}

/-- `RawFr::toString` writes the representative below the field size. -/
theorem toString_eq (form : HasForm a first) : toString a = first.val.repr := by
  have limbs := FrElement.rawFromMontgomery_form form
  rw [toString, limbs.1.toNat_eq_val, limbs.2]

/-- **Round trip.**  The text of an element is read back as its value. -/
theorem fromString_toString (form : HasForm a first) :
    HasForm (fromString (toString a).toList 10) first := by
  rw [toString_eq form]
  have read := fromString_hasForm first.val.repr.toList 10
  rwa [FrElement.mpzInitSetStr_repr, Int.cast_natCast,
    ZMod.natCast_zmod_val] at read

theorem fromString_toString_set :
    HasForm (fromString (toString (set 7)).toList 10)
      ((7 : BitVec 32).toInt : Fr) :=
  fromString_toString (set_hasForm 7)

/-! ## Powers -/

/-- The exponent that the bytes stand for, the lowest byte first. -/
def scalarValue (scalar : List (BitVec 8)) : Nat :=
  scalar.foldr (fun byte rest => 2 ^ 8 * rest + byte.toNat) 0

/-- `BIT_IS_SET` reads the bits of the exponent. -/
theorem bitIsSet_eq (scalar : List (BitVec 8)) (p : Nat) :
    bitIsSet scalar p = (scalarValue scalar).testBit p := by
  induction scalar generalizing p with
  | nil => simp [bitIsSet, scalarValue]
  | cons byte scalar inductionHypothesis =>
      have small : byte.toNat < 2 ^ 8 := byte.isLt
      rw [scalarValue, List.foldr_cons, Nat.testBit_two_pow_mul_add _ small]
      by_cases low : p < 8
      · rw [if_pos low, bitIsSet, Nat.div_eq_of_lt low, Nat.mod_eq_of_lt low]
        rfl
      · have next := inductionHypothesis (p - 8)
        have quotient : p / 8 = (p - 8) / 8 + 1 := by omega
        have remainder : p % 8 = (p - 8) % 8 := by omega
        rw [if_neg low]
        rw [bitIsSet, quotient, remainder]
        exact next

theorem scalarValue_lt (scalar : List (BitVec 8)) :
    scalarValue scalar < 2 ^ (scalar.length * 8) := by
  induction scalar with
  | nil => decide
  | cons byte scalar inductionHypothesis =>
      have small : byte.toNat < 2 ^ 8 := byte.isLt
      have split : 2 ^ ((byte :: scalar).length * 8) =
          2 ^ 8 * 2 ^ (scalar.length * 8) := by
        rw [List.length_cons, Nat.succ_mul, Nat.pow_add, Nat.mul_comm]
      rw [split, scalarValue, List.foldr_cons]
      change 2 ^ 8 * scalarValue scalar + byte.toNat < _
      omega

/-- What the loop of `exp` has computed from the bits from an index on. -/
def ExpInvariant
    (value : Fr)
    (exponent i : Nat)
    (state : Bool × RawElement) : Prop :=
  if state.1 then HasForm state.2 (value ^ (exponent / 2 ^ i))
  else exponent / 2 ^ i = 0

/-- A bit doubles the exponent and adds itself. -/
theorem div_two_pow (exponent i : Nat) :
    exponent / 2 ^ i =
      2 * (exponent / 2 ^ (i + 1)) + (exponent.testBit i).toNat := by
  have half : exponent / 2 ^ (i + 1) = exponent / 2 ^ i / 2 := by
    rw [Nat.pow_succ, Nat.div_div_eq_div_mul]
  rw [half, Nat.toNat_testBit]
  omega

theorem rawMMul_hasForm
    (left : HasForm a first)
    (right : HasForm b second) : HasForm (rawMMul a b) (first * second) :=
  FrElement.rawMMul_forms left right

theorem rawMSquare_hasForm (form : HasForm a first) :
    HasForm (rawMSquare a) (first * first) := by
  rw [rawMSquare_eq]
  exact rawMMul_hasForm form form

/-- The loop of `exp` raises the base to the bits of the exponent. -/
theorem expLoop_invariant
    {scalar : List (BitVec 8)}
    {base : RawElement}
    {value : Fr}
    (form : HasForm base value)
    (i : Nat)
    {state : Bool × RawElement}
    (invariant : ExpInvariant value (scalarValue scalar) i state) :
    ExpInvariant value (scalarValue scalar) 0
      (expLoop scalar base i state) := by
  induction i generalizing state with
  | zero => exact invariant
  | succ i inductionHypothesis =>
      obtain ⟨oneFound, r⟩ := state
      apply inductionHypothesis
      have doubled := div_two_pow (scalarValue scalar) i
      rw [← bitIsSet_eq] at doubled
      cases oneFound with
      | false =>
          have zero : scalarValue scalar / 2 ^ (i + 1) = 0 := by
            simpa [ExpInvariant] using invariant
          rw [zero] at doubled
          cases bit : bitIsSet scalar i with
          | false => simpa [ExpInvariant, bit] using doubled
          | true =>
              rw [bit] at doubled
              simpa [ExpInvariant, doubled] using form
      | true =>
          have power : HasForm r (value ^ (scalarValue scalar / 2 ^ (i + 1))) := by
            simpa [ExpInvariant] using invariant
          have squared := rawMSquare_hasForm power
          rw [← pow_add, ← two_mul] at squared
          cases bit : bitIsSet scalar i with
          | false =>
              rw [bit] at doubled
              simpa [ExpInvariant, doubled] using squared
          | true =>
              rw [bit] at doubled
              have multiplied := rawMMul_hasForm squared form
              rw [← pow_succ] at multiplied
              simpa [ExpInvariant, doubled] using multiplied

/-- `RawFr::exp` raises a value to the exponent that the bytes stand for. -/
theorem exp_hasForm
    (r : RawElement)
    (form : HasForm a first)
    (scalar : List (BitVec 8)) :
    HasForm (exp r a scalar) (first ^ scalarValue scalar) := by
  have start : ExpInvariant first (scalarValue scalar) (scalar.length * 8)
      (false, r) := by
    simpa [ExpInvariant] using scalarValue_lt scalar
  have final := expLoop_invariant form _ start
  rw [ExpInvariant, Nat.pow_zero, Nat.div_one] at final
  unfold exp
  cases found : (expLoop scalar a (scalar.length * 8) (false, r)).1 with
  | false =>
      rw [found, if_neg Bool.false_ne_true] at final
      have one := set_hasForm 1
      rw [final, pow_zero]
      simpa [found] using one
  | true =>
      rw [found, if_pos rfl] at final
      simpa [found] using final

theorem exp_three :
    HasForm (exp R3 (set 3) [10, 1]) ((3 : Fr) ^ 266) := by
  have raised := exp_hasForm R3 (set_hasForm 3) [10, 1]
  have signed : (3 : BitVec 32).toInt = 3 := rfl
  rwa [signed, Int.cast_ofNat] at raised

/-- `RawFr::inv` inverts every value that has an inverse. -/
theorem inv_hasForm
    (undefined : Int -> Int)
    (form : HasForm a first)
    (coprime : Nat.Coprime first.val fieldSize) :
    HasForm (inv undefined a) first⁻¹ := by
  have residue : (a.toNat : Fr) = first * radix := form.2
  have firstUnit : IsUnit first := by
    have unit := (ZMod.isUnit_iff_coprime first.val fieldSize).mpr coprime
    rwa [ZMod.natCast_zmod_val] at unit
  have radixUnit : IsUnit radix := IsUnit.of_mul_eq_one _ radix_mul_inv
  have unit : IsUnit (a.toNat : Fr) := residue ▸ firstUnit.mul radixUnit
  have invertible : Nat.Coprime (a.toNat : Int).natAbs q.toNat := by
    rw [q_toNat, Int.natAbs_natCast]
    exact (ZMod.isUnit_iff_coprime a.toNat fieldSize).mp unit
  let inverse := (a.toNat : Fr)⁻¹
  have width := two_mul_fieldSize_lt
  have small := ZMod.val_lt inverse
  have limbs : (RawElement.ofNat inverse.val).residue = inverse := by
    rw [RawElement.residue, RawElement.toNat_ofNat (by omega),
      ZMod.natCast_zmod_val]
  have product := rawMMul_holds (RawElement.ofNat inverse.val) R3_holds
  have value : inverse * (radix * radix * radix) * radix⁻¹ =
      first⁻¹ * radix := by
    have undone := ZMod.mul_inv_of_unit _ unit
    have firstUndone := ZMod.mul_inv_of_unit _ firstUnit
    have radixUndone := radix_mul_inv
    rw [residue] at undone
    have unfolded : inverse = (first * radix)⁻¹ := by
      unfold inverse
      rw [residue]
    rw [unfolded]
    linear_combination (first * radix)⁻¹ * radix ^ 2 * radixUndone -
      (first * radix)⁻¹ * radix ^ 2 * firstUndone + first⁻¹ * radix * undone
  rw [limbs, value] at product
  rw [inv, FrElement.mpzInvert, if_pos invertible, Int.natAbs_natCast,
    Int.cast_natCast]
  exact product

/-- `RawFr::div` divides by every value that has an inverse. -/
theorem div_hasForm
    (undefined : Int -> Int)
    (left : HasForm a first)
    (right : HasForm b second)
    (coprime : Nat.Coprime second.val fieldSize) :
    HasForm (div undefined a b) (first * second⁻¹) :=
  rawMMul_hasForm left (inv_hasForm undefined right coprime)

theorem div_six :
    HasForm (div id (set 6) (set 3))
      (((6 : BitVec 32).toInt : Fr) * ((3 : BitVec 32).toInt : Fr)⁻¹) :=
  div_hasForm id (set_hasForm 6) (set_hasForm 3) (by decide)

end Values

end RawFr

end Generator
end Privachain

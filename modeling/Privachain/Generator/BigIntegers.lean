import Privachain.Foundation.JavaScript
import Privachain.Generator.FieldOperations

/-!
# Elements and big integers

The operations of `fr.cpp` go through integers of any size.  An integer that
fits in an `int` becomes a short element, so the text of a number decides the
form of the element that is read from it.
-/

namespace Privachain
namespace Generator

open Foundation Circuit
open Foundation.JavaScript (parseDigits)

namespace FrElement

/-! ## Conversions -/

/-- `Fr_toMpz` -/
def toMpz (pE : FrElement) : Int :=
  let tmp := toNormal slot pE
  if !tmp.isLong then
    if tmp.shortVal.toInt < 0 then tmp.shortVal.toInt + q.toNat
    else tmp.shortVal.toInt
  else tmp.longVal.toNat

/-- `Fr_fromMpz` -/
def fromMpz (pE : FrElement) (v : Int) : FrElement :=
  if -2 ^ 31 ≤ v ∧ v < 2 ^ 31 then pE.writeShort (BitVec.ofInt 32 v)
  else pE.writeLong longType (.ofNat v.natAbs)

/-- `mpz_init_set_str` on texts without white space: zero where there is no
number. -/
def mpzInitSetStr (base : Nat) : List Char -> Int
  | '-' :: digits => -((parseDigits base digits).getD 0 : Nat)
  | digits => ((parseDigits base digits).getD 0 : Nat)

/-- `Fr_str2element` -/
def str2element (pE : FrElement) (s : List Char) (base : Nat) : FrElement :=
  fromMpz pE (mpzInitSetStr base s % q.toNat)

/-- `Fr_element2str` -/
def element2str (pE : FrElement) : String :=
  if !pE.isLong then
    if 0 ≤ pE.shortVal.toInt then pE.shortVal.toInt.repr
    else (pE.shortVal.toInt + q.toNat).repr
  else (toNormal slot pE).longVal.toNat.repr

/-- `Fr_idiv`, with no result for a division by zero. -/
def idiv (r a b : FrElement) : Option FrElement :=
  if toMpz b = 0 then none else some (fromMpz r (toMpz a / toMpz b))

/-- `Fr_mod`, with no result for a division by zero. -/
def mod (r a b : FrElement) : Option FrElement :=
  if toMpz b = 0 then none else some (fromMpz r (toMpz a % toMpz b))

/-- `Fr_pow` -/
def pow (r a b : FrElement) : FrElement :=
  fromMpz r (toMpz a ^ (toMpz b).toNat % q.toNat)

/-- `mpz_invert` with the field size.  Without an inverse its result is
undefined, and the callers do not look at what it returns. -/
def mpzInvert (undefined : Int -> Int) (op1 : Int) : Int :=
  if Nat.Coprime op1.natAbs q.toNat then ((op1 : Fr)⁻¹).val
  else undefined op1

/-- `Fr_inv` -/
def inv (undefined : Int -> Int) (r a : FrElement) : FrElement :=
  fromMpz r (mpzInvert undefined (toMpz a))

/-- `Fr_div` -/
def div (undefined : Int -> Int) (r a b : FrElement) : FrElement :=
  mul r a (inv undefined slot b)

/-! ## What they represent -/

section Values

variable {a b : FrElement} {first second : Fr}

/-- The integer of a short value is its residue below the field size. -/
theorem short_toMpz
    {shortVal : BitVec 32}
    (signed : first.valMinAbs = shortVal.toInt) :
    (if shortVal.toInt < 0 then shortVal.toInt + q.toNat else shortVal.toInt) =
      (first.val : Int) := by
  rw [← signed, q_toNat, ZMod.valMinAbs_def_pos]
  have bound := ZMod.val_lt first
  split <;> split <;> omega

/-- `Fr_toMpz` gives the representative below the field size. -/
theorem toMpz_eq (represents : Represents a first) : toMpz a = first.val := by
  cases isLong : a.isLong
  · have same : toNormal slot a = a := by
      cases hasForm : a.isMontgomery <;> simp [toNormal, isLong, hasForm]
    simp only [toMpz, same, isLong, Bool.not_false, if_true]
    exact short_toMpz (signed_eq represents isLong)
  · have limbs : Holds (toNormal slot a).longVal first := by
      cases hasForm : a.isMontgomery
      · simp only [toNormal, hasForm, Bool.not_false, if_true]
        exact represents.limbs isLong hasForm
      · simp only [toNormal, hasForm, isLong, Bool.not_true,
          Bool.false_eq_true, if_false]
        exact rawFromMontgomery_form (represents.form hasForm)
    have stays : (toNormal slot a).isLong = true := by
      cases hasForm : a.isMontgomery
      · simp only [toNormal, hasForm, Bool.not_false, if_true, isLong]
      · simp only [toNormal, hasForm, isLong, Bool.not_true,
          Bool.false_eq_true, if_false]
        exact type_bits.1.1
    simp only [toMpz, stays, Bool.not_true, Bool.false_eq_true, if_false]
    rw [limbs.1.toNat_eq_val, limbs.2]

/-- `Fr_fromMpz` represents every integer below the field size, in a plain
element exactly if it fits in an `int`. -/
theorem fromMpz_represents
    (pE : FrElement)
    {v : Int}
    (nonnegative : 0 ≤ v)
    (small : v < fieldSize) :
    Represents (fromMpz pE v) (v : Fr) ∧
      ((fromMpz pE v).isLong = false ↔ v < 2 ^ 31) ∧
      (fromMpz pE v).isMontgomery = false := by
  unfold fromMpz
  by_cases fits : -2 ^ 31 ≤ v ∧ v < 2 ^ 31
  · rw [if_pos fits]
    have signed : (BitVec.ofInt 32 v).toInt = v := by
      rw [BitVec.toInt_ofInt_eq_self (by decide)]
      · simpa using fits.1
      · simpa using fits.2
    exact ⟨represents_writeShort pE (by rw [signed]),
      iff_of_true type_bits.2.2.1.1 fits.2, type_bits.2.2.1.2⟩
  · rw [if_neg fits]
    have width := two_mul_fieldSize_lt
    have exact : (RawElement.ofNat v.natAbs).toNat = v.natAbs % fieldSize := by
      rw [RawElement.toNat_ofNat (by omega), Nat.mod_eq_of_lt (by omega)]
    have limbs := holds_of_toNat exact
    have value : ((v.natAbs : Nat) : Fr) = (v : Fr) := by
      rw [← Int.cast_natCast, Int.natAbs_of_nonneg nonnegative]
    rw [value] at limbs
    refine ⟨represents_writeLong pE limbs, iff_of_false ?_ ?_,
      type_bits.1.2⟩
    · rw [Bool.not_eq_false]
      exact type_bits.1.1
    · intro upper
      exact fits ⟨by omega, upper⟩

/-- `Fr_str2element` represents the integer that the text stands for, in a
plain element exactly if its residue fits in an `int`. -/
theorem str2element_represents
    (pE : FrElement)
    (s : List Char)
    (base : Nat) :
    Represents (str2element pE s base) (mpzInitSetStr base s : Int) ∧
      ((str2element pE s base).isLong = false ↔
        mpzInitSetStr base s % fieldSize < 2 ^ 31) ∧
      (str2element pE s base).isMontgomery = false := by
  have positive : (0 : Int) < fieldSize := by
    exact_mod_cast Nat.pos_of_ne_zero (NeZero.ne fieldSize)
  have read := fromMpz_represents pE
    (Int.emod_nonneg (mpzInitSetStr base s) positive.ne')
    (Int.emod_lt_of_pos _ positive)
  rw [ZMod.intCast_mod] at read
  rw [str2element, q_toNat]
  exact read

/-- `Fr_element2str` writes the representative below the field size. -/
theorem element2str_eq (represents : Represents a first) :
    element2str a = first.val.repr := by
  have value := toMpz_eq represents
  cases isLong : a.isLong
  · have short := short_toMpz (signed_eq represents isLong)
    simp only [element2str, isLong, Bool.not_false, if_true]
    by_cases negative : a.shortVal.toInt < 0
    · rw [if_pos negative] at short
      rw [if_neg (by omega), short]
      rfl
    · rw [if_neg negative] at short
      rw [if_pos (by omega), short]
      rfl
  · have stays : (toNormal slot a).isLong = true := by
      cases hasForm : a.isMontgomery
      · simp only [toNormal, hasForm, Bool.not_false, if_true, isLong]
      · simp only [toNormal, hasForm, isLong, Bool.not_true,
          Bool.false_eq_true, if_false]
        exact type_bits.1.1
    simp only [toMpz, stays, Bool.not_true, Bool.false_eq_true, if_false,
      Nat.cast_inj] at value
    simp only [element2str, isLong, Bool.not_true, Bool.false_eq_true,
      if_false, value]

/-- A text without a sign is read as its digits. -/
theorem mpzInitSetStr_of_unsigned
    {text : List Char}
    (unsigned : '-' ∉ text)
    (base : Nat) :
    mpzInitSetStr base text = ((parseDigits base text).getD 0 : Nat) := by
  unfold mpzInitSetStr
  split
  · exact absurd List.mem_cons_self unsigned
  · rfl

/-- The decimal text of a number is read back. -/
theorem mpzInitSetStr_repr (n : Nat) : mpzInitSetStr 10 n.repr.toList = n := by
  have unsigned : '-' ∉ Nat.toDigits 10 n := by
    intro member
    have digit := Nat.isDigit_of_mem_toDigits (by decide) (by decide) member
    simp at digit
  rw [Nat.toList_repr, mpzInitSetStr_of_unsigned unsigned,
    JavaScript.parseDigits_toDigits]
  rfl

/-- **Round trip.**  The text of an element in any form is read back as its
value, and a number that was read is written as its residue. -/
theorem str2element_element2str
    (pE : FrElement)
    (represents : Represents a first)
    (n : Nat) :
    Represents (str2element pE (element2str a).toList 10) first ∧
      element2str (str2element pE n.repr.toList 10) = (n % fieldSize).repr := by
  constructor
  · rw [element2str_eq represents]
    have read := (str2element_represents pE first.val.repr.toList 10).1
    rwa [mpzInitSetStr_repr, Int.cast_natCast, ZMod.natCast_zmod_val] at read
  · have read := (str2element_represents pE n.repr.toList 10).1
    rw [mpzInitSetStr_repr, Int.cast_natCast] at read
    rw [element2str_eq read, ZMod.val_natCast]

theorem minusFive_readBack :
    Represents (str2element slot (element2str minusFive).toList 10) (-5) :=
  (str2element_element2str slot minusFive_represents 0).1

/-- The integer division has no result exactly for a zero divisor, and
otherwise represents the quotient and the remainder of the representatives. -/
theorem idiv_mod_represent
    (r : FrElement)
    (left : Represents a first)
    (right : Represents b second) :
    (second = 0 -> idiv r a b = none ∧ mod r a b = none) ∧
    (second ≠ 0 ->
      (∃ quotient, idiv r a b = some quotient ∧
        Represents quotient ((first.val / second.val : Nat) : Fr)) ∧
      ∃ remainder, mod r a b = some remainder ∧
        Represents remainder ((first.val % second.val : Nat) : Fr)) := by
  have dividend := toMpz_eq left
  have divisor := toMpz_eq right
  have bound := ZMod.val_lt first
  have isZero : toMpz b = 0 ↔ second = 0 := by
    rw [divisor, Nat.cast_eq_zero, ZMod.val_eq_zero]
  have represents {n : Nat} (small : n < fieldSize) :
      Represents (fromMpz r n) (n : Fr) := by
    have read := (fromMpz_represents r (Int.natCast_nonneg n)
      (by exact_mod_cast small)).1
    rwa [Int.cast_natCast] at read
  refine ⟨fun zero => ?_, fun nonzero => ?_⟩
  · rw [idiv, mod, if_pos (isZero.mpr zero), if_pos (isZero.mpr zero)]
    exact ⟨rfl, rfl⟩
  · have smaller : first.val / second.val ≤ first.val := Nat.div_le_self _ _
    have remainder : first.val % second.val ≤ first.val := Nat.mod_le _ _
    rw [idiv, mod, if_neg (mt isZero.mp nonzero), if_neg (mt isZero.mp nonzero),
      dividend, divisor]
    exact ⟨⟨_, rfl, represents (lt_of_le_of_lt smaller bound)⟩,
      ⟨_, rfl, represents (lt_of_le_of_lt remainder bound)⟩⟩

theorem longRadix_idiv_minusFive :
    ∃ quotient, idiv slot longRadix minusFive = some quotient ∧
      Represents quotient ((radix.val / (-5 : Fr).val : Nat) : Fr) := by
  have divided := idiv_mod_represent slot longRadix_represents
    minusFive_represents
  refine (divided.2 ?_).1
  intro zero
  have value := congrArg ZMod.val zero
  revert value
  decide

/-- `Fr_pow` raises to the representative of the exponent. -/
theorem pow_represents
    (r : FrElement)
    (left : Represents a first)
    (right : Represents b second) :
    Represents (pow r a b) (first ^ second.val) := by
  have positive : (0 : Int) < fieldSize := by
    exact_mod_cast Nat.pos_of_ne_zero (NeZero.ne fieldSize)
  have read := (fromMpz_represents r
    (Int.emod_nonneg ((first.val : Int) ^ second.val) positive.ne')
    (Int.emod_lt_of_pos _ positive)).1
  rw [ZMod.intCast_mod, Int.cast_pow, Int.cast_natCast,
    ZMod.natCast_zmod_val] at read
  rw [pow, toMpz_eq left, toMpz_eq right, Int.toNat_natCast, q_toNat]
  exact read

theorem longRadix_pow_minusFive :
    Represents (pow slot longRadix minusFive) (radix ^ (-5 : Fr).val) :=
  pow_represents slot longRadix_represents minusFive_represents

/-- `Fr_inv` inverts every value that has an inverse. -/
theorem inv_represents
    (undefined : Int -> Int)
    (r : FrElement)
    (represents : Represents a first)
    (coprime : Nat.Coprime first.val fieldSize) :
    Represents (inv undefined r a) first⁻¹ := by
  have inverse := (fromMpz_represents r (Int.natCast_nonneg (first⁻¹).val)
    (by exact_mod_cast ZMod.val_lt (first⁻¹))).1
  rw [Int.cast_natCast, ZMod.natCast_zmod_val] at inverse
  rw [inv, mpzInvert, toMpz_eq represents, Int.natAbs_natCast, q_toNat,
    if_pos coprime, Int.cast_natCast, ZMod.natCast_zmod_val]
  exact inverse

/-- `Fr_div` multiplies with the inverse of every divisor that has one, and the
product with the divisor is the dividend again. -/
theorem div_represents
    (undefined : Int -> Int)
    (r : FrElement)
    (left : Represents a first)
    (right : Represents b second)
    (coprime : Nat.Coprime second.val fieldSize) :
    Represents (div undefined r a b) (first * second⁻¹) ∧
      ∀ product, Represents (mul product (div undefined r a b) b) first := by
  have quotient : Represents (div undefined r a b) (first * second⁻¹) :=
    mul_represents r left (inv_represents undefined slot right coprime)
  have cancels : second⁻¹ * second = 1 := by
    have unit := ZMod.coe_mul_inv_eq_one second.val coprime
    rwa [ZMod.natCast_zmod_val, mul_comm] at unit
  refine ⟨quotient, fun product => ?_⟩
  have back := mul_represents product quotient right
  rwa [mul_assoc, cancels, mul_one] at back

theorem longRadix_div_minusFive :
    Represents (mul slot (div id slot longRadix minusFive) minusFive) radix :=
  (div_represents id slot longRadix_represents minusFive_represents
    (by decide +kernel)).2 slot

end Values

end FrElement

end Generator
end Privachain

import Privachain.Generator.RawField

/-!
# The field elements of the witness generator

An `FrElement` holds a signed double word or four limbs, and either of them in
Montgomery form.  Two bits of its type say which.  An operation writes only some
fields of its result, so the old result is an argument of it.
-/

namespace Privachain
namespace Generator

open Foundation

/-- `FrElement` -/
@[ext] structure FrElement where
  shortVal : BitVec 32
  type : BitVec 32
  longVal : RawElement
  deriving DecidableEq

namespace FrElement

/-- `Fr_SHORT` -/
def shortType : BitVec 32 := 0x00000000

/-- `Fr_LONG` -/
def longType : BitVec 32 := 0x80000000

/-- `Fr_LONGMONTGOMERY` -/
def longMontgomeryType : BitVec 32 := 0xC0000000

/-- The type of a short element whose limbs hold its Montgomery form. -/
def shortMontgomeryType : BitVec 32 := 0x40000000

/-- `bt rax, 63` on the first quad word -/
def isLong (element : FrElement) : Bool := element.type.getLsbD 31

/-- `bt rax, 62` on the first quad word -/
def isMontgomery (element : FrElement) : Bool := element.type.getLsbD 30

/-- `movsx` of the short value -/
def signExtended (element : FrElement) : Word :=
  element.shortVal.signExtend 64

/-- Forty bytes of the stack, whose fields are written before they are read. -/
def slot : FrElement := ⟨0, 0, ⟨0, 0, 0, 0⟩⟩

/-! ## Conversions -/

/-- `rawCopyS2L` -/
def rawCopyS2L (value : Word) : FrElement :=
  ⟨0, longType, signedLimbs value⟩

/-- `Fr_toMontgomery` -/
def toMontgomery (_r a : FrElement) : FrElement :=
  if a.isMontgomery then a
  else if a.isLong then
    ⟨a.shortVal, longMontgomeryType, rawMMul a.longVal R2⟩
  else ⟨a.shortVal, shortMontgomeryType, signedMMul1 R2 a.signExtended⟩

/-- `Fr_toNormal` -/
def toNormal (r a : FrElement) : FrElement :=
  if !a.isMontgomery then a
  else if !a.isLong then a
  else { r with type := longType, longVal := rawFromMontgomery a.longVal }

/-- `Fr_toLongNormal` -/
def toLongNormal (r a : FrElement) : FrElement :=
  if a.isLong then
    if a.isMontgomery then
      { r with type := longType, longVal := rawFromMontgomery a.longVal }
    else a
  else rawCopyS2L a.signExtended

/-- `Fr_longNormal`, with no result where `Fr_fail` is called.  At
`Fr_longNeg` every limb of the difference has to borrow, but only the lowest
limb is looked at. -/
def longNormal (long : RawElement) : Option Word :=
  if long.at0 >>> 31 = 0 ∧ long.at8 = 0 ∧ long.at16 = 0 ∧ long.at24 = 0 then
    some long.at0
  else
    let (rax, cf) := subWithBorrow false long.at0 q.at0
    if !cf then none
    else
      let (_, cf) := subWithBorrow cf long.at8 q.at8
      if !cf then none
      else
        let (_, cf) := subWithBorrow cf long.at16 q.at16
        if !cf then none
        else
          let (_, cf) := subWithBorrow cf long.at24 q.at24
          if !cf then none
          else if rax.sshiftRight 31 + 1 ≠ 0 then none
          else some rax

/-- `Fr_toInt` -/
def toInt (a : FrElement) : Option Word :=
  if !a.isLong then some a.signExtended
  else if a.isMontgomery then longNormal (toNormal slot a).longVal
  else longNormal a.longVal

/-! ## Addition -/

/-- The result with a type and limbs written. -/
def writeLong
    (r : FrElement)
    (type : BitVec 32)
    (longVal : RawElement) : FrElement :=
  { r with type := type, longVal := longVal }

/-- The result with a short value written. -/
def writeShort (r : FrElement) (shortVal : BitVec 32) : FrElement :=
  { r with shortVal := shortVal, type := shortType }

/-- `Fr_add` -/
def add (r a b : FrElement) : FrElement :=
  match a.isLong, b.isLong with
  | false, false =>
      if a.shortVal.saddOverflow b.shortVal then
        rawCopyS2L (a.signExtended + b.signExtended)
      else r.writeShort (a.shortVal + b.shortVal)
  | true, false =>
      match a.isMontgomery, b.isMontgomery with
      | false, _ =>
          r.writeLong longType (addSigned a.longVal b.signExtended)
      | true, false =>
          r.writeLong longMontgomeryType
            (rawAddLL a.longVal (toMontgomery slot b).longVal)
      | true, true =>
          r.writeLong longMontgomeryType (rawAddLL a.longVal b.longVal)
  | false, true =>
      match b.isMontgomery, a.isMontgomery with
      | false, _ =>
          r.writeLong longType (addSigned b.longVal a.signExtended)
      | true, false =>
          r.writeLong longMontgomeryType
            (rawAddLL (toMontgomery slot a).longVal b.longVal)
      | true, true =>
          r.writeLong longMontgomeryType (rawAddLL a.longVal b.longVal)
  | true, true =>
      match a.isMontgomery, b.isMontgomery with
      | false, false => r.writeLong longType (rawAddLL a.longVal b.longVal)
      | false, true =>
          r.writeLong longMontgomeryType
            (rawAddLL (toMontgomery slot a).longVal b.longVal)
      | true, false =>
          r.writeLong longMontgomeryType
            (rawAddLL a.longVal (toMontgomery slot b).longVal)
      | true, true =>
          r.writeLong longMontgomeryType (rawAddLL a.longVal b.longVal)

/-! ## Subtraction -/

/-- `Fr_sub` -/
def sub (r a b : FrElement) : FrElement :=
  match a.isLong, b.isLong with
  | false, false =>
      if a.shortVal.ssubOverflow b.shortVal then
        rawCopyS2L (a.signExtended - b.signExtended)
      else r.writeShort (a.shortVal - b.shortVal)
  | true, false =>
      match a.isMontgomery, b.isMontgomery with
      | false, _ =>
          r.writeLong longType (subSigned a.longVal b.signExtended)
      | true, false =>
          r.writeLong longMontgomeryType
            (rawSubLL a.longVal (toMontgomery slot b).longVal)
      | true, true =>
          r.writeLong longMontgomeryType (rawSubLL a.longVal b.longVal)
  | false, true =>
      match b.isMontgomery, a.isMontgomery with
      | false, _ =>
          r.writeLong longType
            (if a.shortVal.msb then rawNegLS b.longVal (-a.signExtended)
              else rawSubSL a.signExtended b.longVal)
      | true, false =>
          r.writeLong longMontgomeryType
            (rawSubLL (toMontgomery slot a).longVal b.longVal)
      | true, true =>
          r.writeLong longMontgomeryType (rawSubLL a.longVal b.longVal)
  | true, true =>
      match a.isMontgomery, b.isMontgomery with
      | false, false => r.writeLong longType (rawSubLL a.longVal b.longVal)
      | false, true =>
          r.writeLong longMontgomeryType
            (rawSubLL (toMontgomery slot a).longVal b.longVal)
      | true, false =>
          r.writeLong longMontgomeryType
            (rawSubLL a.longVal (toMontgomery slot b).longVal)
      | true, true =>
          r.writeLong longMontgomeryType (rawSubLL a.longVal b.longVal)

/-- `Fr_neg` -/
def neg (r a : FrElement) : FrElement :=
  if a.isLong then ⟨a.shortVal, a.type, rawNegL a.longVal⟩
  else
    let eax := -a.shortVal
    if a.shortVal.negOverflow then rawCopyS2L (-(eax.signExtend 64))
    else r.writeShort eax

/-! ## Multiplication -/

/-- `Fr_mul`.  No `ret` follows the store of a short product, so both paths of
two short operands end with the store of a long one. -/
def mul (r a b : FrElement) : FrElement :=
  match a.isLong, b.isLong with
  | false, false => rawCopyS2L (a.signExtended * b.signExtended)
  | true, false =>
      match a.isMontgomery, b.isMontgomery with
      | false, false =>
          r.writeLong longMontgomeryType
            (rawMMul (signedMMul1 a.longVal b.signExtended) R3)
      | false, true => r.writeLong longType (rawMMul a.longVal b.longVal)
      | true, false =>
          r.writeLong longType (signedMMul1 a.longVal b.signExtended)
      | true, true =>
          r.writeLong longMontgomeryType (rawMMul a.longVal b.longVal)
  | false, true =>
      match a.isMontgomery, b.isMontgomery with
      | false, false =>
          r.writeLong longMontgomeryType
            (rawMMul (signedMMul1 b.longVal a.signExtended) R3)
      | false, true =>
          r.writeLong longType (signedMMul1 b.longVal a.signExtended)
      | true, false => r.writeLong longType (rawMMul a.longVal b.longVal)
      | true, true =>
          r.writeLong longMontgomeryType (rawMMul a.longVal b.longVal)
  | true, true =>
      match a.isMontgomery, b.isMontgomery with
      | false, false =>
          r.writeLong longMontgomeryType
            (rawMMul (rawMMul a.longVal b.longVal) R3)
      | false, true => r.writeLong longType (rawMMul a.longVal b.longVal)
      | true, false => r.writeLong longType (rawMMul a.longVal b.longVal)
      | true, true =>
          r.writeLong longMontgomeryType (rawMMul a.longVal b.longVal)

/-- `Fr_square`, which goes on after the store of a short product as `Fr_mul`
does. -/
def square (r a : FrElement) : FrElement :=
  if !a.isLong then rawCopyS2L (a.signExtended * a.signExtended)
  else if !a.isMontgomery then
    r.writeLong longMontgomeryType (rawMMul (rawMSquare a.longVal) R3)
  else r.writeLong longMontgomeryType (rawMSquare a.longVal)

/-! ## Comparison -/

/-- `reqL1L2` -/
def reqL1L2 (a b : FrElement) : Bool :=
  a.longVal.at0 = b.longVal.at0 ∧ a.longVal.at8 = b.longVal.at8 ∧
    a.longVal.at16 = b.longVal.at16 ∧ a.longVal.at24 = b.longVal.at24

/-- `Fr_req` -/
def req (a b : FrElement) : Bool :=
  match a.isLong, b.isLong with
  | false, false => a.shortVal = b.shortVal
  | true, false =>
      if a.isMontgomery then reqL1L2 a (toMontgomery slot b)
      else reqL1L2 a (toLongNormal slot b)
  | false, true =>
      if b.isMontgomery then reqL1L2 (toMontgomery slot a) b
      else reqL1L2 (toLongNormal slot a) b
  | true, true =>
      match a.isMontgomery, b.isMontgomery with
      | false, false => reqL1L2 a b
      | false, true => reqL1L2 (toMontgomery slot a) b
      | true, false => reqL1L2 a (toMontgomery slot b)
      | true, true => reqL1L2 a b

/-- The conversions at the start of `Fr_rgt` and `Fr_rlt` once an operand is
long: a short one becomes long and a long one normal. -/
def compared (a : FrElement) : FrElement :=
  if a.isLong then if a.isMontgomery then toNormal slot a else a
  else toLongNormal slot a

/-- `rgtL1L2`: what is above `half` is negative. -/
def rgtL1L2 (a b : FrElement) : Bool :=
  if below half a.longVal then
    if below half b.longVal then below b.longVal a.longVal else false
  else if below half b.longVal then true
  else below b.longVal a.longVal

/-- `Fr_rgt` -/
def rgt (a b : FrElement) : Bool :=
  if !a.isLong && !b.isLong then b.shortVal.slt a.shortVal
  else rgtL1L2 (compared a) (compared b)

/-- `rltRawL1L2` -/
def rltRawL1L2 (a b : FrElement) : Bool :=
  below a.longVal b.longVal

/-- `rltL1L2` -/
def rltL1L2 (a b : FrElement) : Bool :=
  if below half a.longVal then
    if below half b.longVal then rltRawL1L2 a b else true
  else if below half b.longVal then false
  else rltRawL1L2 a b

/-- `Fr_rlt` -/
def rlt (a b : FrElement) : Bool :=
  if !a.isLong && !b.isLong then a.shortVal.slt b.shortVal
  else rltL1L2 (compared a) (compared b)

/-- `mov [rdi], rax` with a truth value in `rax` -/
def writeBool (r : FrElement) (value : Bool) : FrElement :=
  r.writeShort (if value then 1 else 0)

/-- `Fr_gt` -/
def gt (r a b : FrElement) : FrElement := r.writeBool (rgt a b)

/-- `Fr_lt` -/
def lt (r a b : FrElement) : FrElement := r.writeBool (rlt a b)

/-- `Fr_eq` -/
def eq (r a b : FrElement) : FrElement := r.writeBool (req a b)

/-- `Fr_neq` -/
def neq (r a b : FrElement) : FrElement := r.writeBool (!req a b)

/-- `Fr_geq` -/
def geq (r a b : FrElement) : FrElement := r.writeBool (!rlt a b)

/-- `Fr_leq` -/
def leq (r a b : FrElement) : FrElement := r.writeBool (!rgt a b)

/-! ## Logic -/

/-- `Fr_isTrue` -/
def isTrue (a : FrElement) : Bool :=
  if a.isLong then !rawIsZero a.longVal else a.shortVal ≠ 0

/-- `Fr_land` -/
def land (r a b : FrElement) : FrElement :=
  r.writeBool (isTrue a && isTrue b)

/-- `Fr_lor` -/
def lor (r a b : FrElement) : FrElement :=
  r.writeBool (isTrue a || isTrue b)

/-- `Fr_lnot` -/
def lnot (r a : FrElement) : FrElement := r.writeBool (!isTrue a)

end FrElement

end Generator
end Privachain

import Privachain.Circuit.Field
import Privachain.Foundation.MachineWords

/-!
# The raw field arithmetic of the witness generator

The routines of `fr.asm` on four limbs.  Every instruction is one line and
every register a variable under its own name, so that a register that is
written again shadows its earlier value.  The carry flag is `cf` and the
overflow flag `ovf`.  Operands and results are values: the generated circuit
never writes a result over an operand.
-/

namespace Privachain
namespace Generator

open Foundation

/-- A quad word. -/
abbrev Word := BitVec 64

/-- `typedef uint64_t FrRawElement[Fr_N64]`, with a field for each offset. -/
@[ext] structure RawElement where
  at0 : Word
  at8 : Word
  at16 : Word
  at24 : Word
  deriving DecidableEq

namespace RawElement

/-- The limbs, the least significant one first. -/
def limbs (element : RawElement) : List Word :=
  [element.at0, element.at8, element.at16, element.at24]

/-- The number with these limbs. -/
def toNat (element : RawElement) : Nat :=
  limbsToNat element.limbs

/-- The element with the limbs of a number below `2 ^ 256`. -/
def ofNat (value : Nat) : RawElement where
  at0 := BitVec.ofNat 64 value
  at8 := BitVec.ofNat 64 (value / 2 ^ 64)
  at16 := BitVec.ofNat 64 (value / 2 ^ 128)
  at24 := BitVec.ofNat 64 (value / 2 ^ 192)

end RawElement

/-! ## The data section -/

/-- `q` -/
def q : RawElement :=
  ⟨0x43e1f593f0000001, 0x2833e84879b97091,
    0xb85045b68181585d, 0x30644e72e131a029⟩

/-- `half` -/
def half : RawElement :=
  ⟨0xa1f0fac9f8000000, 0x9419f4243cdcb848,
    0xdc2822db40c0ac2e, 0x183227397098d014⟩

/-- `R2` -/
def R2 : RawElement :=
  ⟨0x1bb8e645ae216da7, 0x53fe3ab1e35c59e3,
    0x8c49833d53bb8085, 0x0216d0b17f4e44a5⟩

/-- `R3` -/
def R3 : RawElement :=
  ⟨0x5e94d8e1b4bf0040, 0x2a489cbe1cfbb6b8,
    0x893cc664a19fcfed, 0x0cf8594b7fcc657c⟩

/-- `np` -/
def np : Word := 0xc2e1f593efffffff

/-! ## Instructions -/

/-- `mulx high,low,source` with the other factor in `rdx` -/
def mulx (rdx source : Word) : Word × Word :=
  wideProduct rdx source

/-- `adcx` and `adox`: the sum with one flag, which is written again. -/
def adcx (flag : Bool) (destination source : Word) : Word × Bool :=
  addWithCarry flag destination source

/-! ## Comparison -/

/-- The limbs are compared from the top: `jc` where the first operand is
smaller, `jnz` where it is greater, and the next limbs where both are equal. -/
def below (left right : RawElement) : Bool :=
  if left.at24 < right.at24 then true
  else if left.at24 ≠ right.at24 then false
  else if left.at16 < right.at16 then true
  else if left.at16 ≠ right.at16 then false
  else if left.at8 < right.at8 then true
  else if left.at8 ≠ right.at8 then false
  else if left.at0 < right.at0 then true
  else false

/-! ## Addition and subtraction -/

/-- Four limbs added with the carry handed on. -/
def addWords (left right : RawElement) : RawElement × Bool :=
  let (r0, cf) := addWithCarry false left.at0 right.at0
  let (r8, cf) := addWithCarry cf left.at8 right.at8
  let (r16, cf) := addWithCarry cf left.at16 right.at16
  let (r24, cf) := addWithCarry cf left.at24 right.at24
  (⟨r0, r8, r16, r24⟩, cf)

/-- Four limbs subtracted with the borrow handed on. -/
def subWords (left right : RawElement) : RawElement × Bool :=
  let (r0, cf) := subWithBorrow false left.at0 right.at0
  let (r8, cf) := subWithBorrow cf left.at8 right.at8
  let (r16, cf) := subWithBorrow cf left.at16 right.at16
  let (r24, cf) := subWithBorrow cf left.at24 right.at24
  (⟨r0, r8, r16, r24⟩, cf)

/-- A quad word as four limbs. -/
def RawElement.ofWord (word : Word) : RawElement :=
  ⟨word, 0, 0, 0⟩

/-- The end of the additions: `q` is subtracted after a carry out, and where
the sum is not below it. -/
def subtractOnce (sum : RawElement × Bool) : RawElement :=
  if sum.2 then (subWords sum.1 q).1
  else if below sum.1 q then sum.1
  else (subWords sum.1 q).1

/-- The end of the subtractions: `q` is added after a borrow. -/
def addAfterBorrow (difference : RawElement × Bool) : RawElement :=
  if difference.2 then (addWords difference.1 q).1
  else difference.1

/-- `rawAddLL`, which is `Fr_rawAdd` -/
def rawAddLL (left right : RawElement) : RawElement :=
  subtractOnce (addWords left right)

/-- `rawAddLS` -/
def rawAddLS (left : RawElement) (value : Word) : RawElement :=
  subtractOnce (addWords (.ofWord value) left)

/-- `rawSubLS` -/
def rawSubLS (left : RawElement) (value : Word) : RawElement :=
  addAfterBorrow (subWords left (.ofWord value))

/-- `rawSubSL` -/
def rawSubSL (value : Word) (right : RawElement) : RawElement :=
  addAfterBorrow (subWords (.ofWord value) right)

/-- `rawSubLL`, which is `Fr_rawSub` -/
def rawSubLL (left right : RawElement) : RawElement :=
  addAfterBorrow (subWords left right)

/-- `rawNegLS` -/
def rawNegLS (element : RawElement) (value : Word) : RawElement :=
  let first := subWords q (.ofWord value)
  let second := subWords first.1 element
  if first.2 || second.2 then (addWords second.1 q).1 else second.1

/-- `rawNegL`, which is `Fr_rawNeg` -/
def rawNegL (element : RawElement) : RawElement :=
  if element.at0 = 0 ∧ element.at8 = 0 ∧ element.at16 = 0 ∧ element.at24 = 0
  then ⟨0, 0, 0, 0⟩
  else (subWords q element).1

/-- The limbs that `rawCopyS2L` writes for a signed quad word: a negative one
is added to `q` with every higher limb of it all ones. -/
def signedLimbs (value : Word) : RawElement :=
  if value.msb then (addWords ⟨value, -1, -1, -1⟩ q).1
  else .ofWord value

/-- A signed quad word added to limbs. -/
def addSigned (long : RawElement) (value : Word) : RawElement :=
  if value.msb then rawSubLS long (-value) else rawAddLS long value

/-- A signed quad word subtracted from limbs. -/
def subSigned (long : RawElement) (value : Word) : RawElement :=
  if value.msb then rawAddLS long (-value) else rawSubLS long value

/-- `Fr_rawIsEq` -/
def rawIsEq (left right : RawElement) : Bool :=
  left.at0 = right.at0 ∧ left.at8 = right.at8 ∧ left.at16 = right.at16 ∧
    left.at24 = right.at24

/-- `Fr_rawIsZero` -/
def rawIsZero (element : RawElement) : Bool :=
  element.at0 = 0 ∧ element.at8 = 0 ∧ element.at16 = 0 ∧ element.at24 = 0

/-! ## Multiplication -/

/-- The registers that the blocks of a multiplication hand on. -/
@[ext] structure Accumulator where
  r11 : Word
  r12 : Word
  r13 : Word
  r14 : Word
  r15 : Word
  cf : Bool
  ovf : Bool

/-- The first block named `FirstLoop`: a limb in `rdx` times four limbs. -/
def firstLoop (rdx : Word) (source : RawElement) : Accumulator :=
  let r10 : Word := 0
  let cf := false
  let ovf := false
  let (rax, r11) := mulx rdx source.at0
  let (r8, r12) := mulx rdx source.at8
  let (r12, cf) := adcx cf r12 rax
  let (rax, r13) := mulx rdx source.at16
  let (r13, cf) := adcx cf r13 r8
  let (r8, r14) := mulx rdx source.at24
  let (r14, cf) := adcx cf r14 rax
  let r15 := r10
  let (r15, cf) := adcx cf r15 r8
  ⟨r11, r12, r13, r14, r15, cf, ovf⟩

/-- The later blocks named `FirstLoop`: a limb in `rdx` times four limbs is
added to the registers, the low words with `cf` and the high ones with `ovf`. -/
def nextFirstLoop
    (rdx : Word)
    (source : RawElement)
    (state : Accumulator) : Accumulator :=
  let ⟨r11, r12, r13, r14, _, cf, ovf⟩ := state
  let r10 : Word := 0
  let r15 := r10
  let (r8, rax) := mulx rdx source.at0
  let (r11, cf) := adcx cf r11 rax
  let (r12, ovf) := adcx ovf r12 r8
  let (r8, rax) := mulx rdx source.at8
  let (r12, cf) := adcx cf r12 rax
  let (r13, ovf) := adcx ovf r13 r8
  let (r8, rax) := mulx rdx source.at16
  let (r13, cf) := adcx cf r13 rax
  let (r14, ovf) := adcx ovf r14 r8
  let (r8, rax) := mulx rdx source.at24
  let (r14, cf) := adcx cf r14 rax
  let (r15, ovf) := adcx ovf r15 r8
  let (r15, cf) := adcx cf r15 r10
  ⟨r11, r12, r13, r14, r15, cf, ovf⟩

/-- The blocks named `SecondLoop`: a multiple of `q` clears `r11`, and the
registers move down by one. -/
def secondLoop (state : Accumulator) : Accumulator :=
  let ⟨r11, r12, r13, r14, r15, cf, ovf⟩ := state
  let r9 := np
  let r10 : Word := 0
  let rdx := r9
  let (_, rdx) := mulx rdx r11
  let (r8, rax) := mulx rdx q.at0
  let (_, cf) := adcx cf rax r11
  let (rax, r11) := mulx rdx q.at8
  let (r11, cf) := adcx cf r11 r8
  let (r11, ovf) := adcx ovf r11 r12
  let (r8, r12) := mulx rdx q.at16
  let (r12, cf) := adcx cf r12 rax
  let (r12, ovf) := adcx ovf r12 r13
  let (rax, r13) := mulx rdx q.at24
  let (r13, cf) := adcx cf r13 r8
  let (r13, ovf) := adcx ovf r13 r14
  let r14 := r10
  let (r14, cf) := adcx cf r14 rax
  let (r14, ovf) := adcx ovf r14 r15
  ⟨r11, r12, r13, r14, r15, cf, ovf⟩

/-- The comparison at the end of a multiplication, and `q` subtracted from the
registers that are not below it. -/
def finish (state : Accumulator) : RawElement :=
  let result : RawElement := ⟨state.r11, state.r12, state.r13, state.r14⟩
  if below result q then result else (subWords result q).1

/-- `mov r15,r10` between two blocks named `SecondLoop`. -/
def clearTop (state : Accumulator) : Accumulator :=
  { state with r15 := 0 }

/-- `Fr_rawMMul` -/
def rawMMul (left right : RawElement) : RawElement :=
  let state := secondLoop (firstLoop left.at0 right)
  let state := secondLoop (nextFirstLoop left.at8 right state)
  let state := secondLoop (nextFirstLoop left.at16 right state)
  let state := secondLoop (nextFirstLoop left.at24 right state)
  finish state

/-- `Fr_rawMSquare` reads both factors from the one operand. -/
def rawMSquare (element : RawElement) : RawElement :=
  let state := secondLoop (firstLoop element.at0 element)
  let state := secondLoop (nextFirstLoop element.at8 element state)
  let state := secondLoop (nextFirstLoop element.at16 element state)
  let state := secondLoop (nextFirstLoop element.at24 element state)
  finish state

/-- `Fr_rawMMul1` multiplies by one limb and reduces four times. -/
def rawMMul1 (element : RawElement) (value : Word) : RawElement :=
  let state := secondLoop (firstLoop value element)
  let state := secondLoop (clearTop state)
  let state := secondLoop (clearTop state)
  let state := secondLoop (clearTop state)
  finish state

/-- The registers loaded with an element and both flags cleared. -/
def loadElement (element : RawElement) : Accumulator :=
  ⟨element.at0, element.at8, element.at16, element.at24, 0, false, false⟩

/-- `Fr_rawFromMontgomery` -/
def rawFromMontgomery (element : RawElement) : RawElement :=
  let state := secondLoop (loadElement element)
  let state := secondLoop (clearTop state)
  let state := secondLoop (clearTop state)
  let state := secondLoop (clearTop state)
  finish state

/-- `Fr_rawToMontgomery` -/
def rawToMontgomery (element : RawElement) : RawElement :=
  rawMMul element R2

/-- A signed quad word through a routine for the magnitude, with the result
negated for a negative one. -/
def signedMMul1 (element : RawElement) (value : Word) : RawElement :=
  if value.msb then rawNegL (rawMMul1 element (-value))
  else rawMMul1 element value

end Generator
end Privachain

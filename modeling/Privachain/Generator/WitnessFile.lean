import Privachain.Foundation.LittleEndian
import Privachain.Generator.SignalTable
import Mathlib.Data.Nat.Digits.Lemmas

/-!
# The witness file

The generator and the calculator in JavaScript write the same format: a header
with the field and the number of signals, and the representatives of the signals
as records of 32 bytes.  The bytes do not depend on the forms of the elements,
and they determine the values.
-/

namespace Privachain
namespace Generator

open Foundation Circuit
open FrElement (Represents toLongNormal)

/-! ## The format -/

/-- What stands before the values: the field and the number of signals. -/
def witnessHeader (size : Nat) : List (BitVec 8) :=
  bytes "wtns" ++ littleEndian 4 2 ++ littleEndian 4 2 ++ littleEndian 4 1 ++
    littleEndian 8 40 ++ littleEndian 4 32 ++ littleEndian 32 fieldSize ++
    littleEndian 4 size ++ (littleEndian 4 2 ++ littleEndian 8 (32 * size))

/-- The file of a list of field elements. -/
def witnessFile (values : List Fr) : List (BitVec 8) :=
  witnessHeader values.length ++ values.flatMap fun value =>
    littleEndian 32 value.val

/-- The representative of an element fits in its record. -/
theorem val_lt_record (value : Fr) : value.val < 2 ^ (8 * 32) :=
  lt_trans (ZMod.val_lt value) (by decide)

/-- A header tells the number of signals. -/
theorem witnessHeader_injective
    {first second : Nat}
    (firstSmall : first < 2 ^ 32)
    (secondSmall : second < 2 ^ 32)
    (equal : witnessHeader first = witnessHeader second) : first = second := by
  unfold witnessHeader at equal
  have fields := (List.append_inj' equal (by simp)).1
  have sizes := (List.append_inj fields rfl).2
  exact littleEndian_injective firstSmall secondSmall sizes

/-- A file tells the values. -/
theorem witnessFile_injective
    {first second : List Fr}
    (firstSmall : first.length < 2 ^ 32)
    (secondSmall : second.length < 2 ^ 32)
    (equal : witnessFile first = witnessFile second) : first = second := by
  have lengths (size : Nat) : (witnessHeader size).length = 76 := by
    simp [witnessHeader, bytes]
  obtain ⟨headers, records⟩ := List.append_inj equal
    ((lengths _).trans (lengths _).symm)
  have same := witnessHeader_injective firstSmall secondSmall headers
  have read := flatMap_injective_of_length
    (fun value : Fr => length_littleEndian 32 value.val) same records
  refine List.map_injective_iff.mpr ?_ read
  intro value other bytes
  exact ZMod.val_injective fieldSize
    (littleEndian_injective (val_lt_record value) (val_lt_record other) bytes)

/-! ## The generator -/

/-- `fwrite(longVal, Fr_N64*8, 1, write_ptr)` -/
def writeLimbs (longVal : RawElement) : List (BitVec 8) :=
  longVal.limbs.flatMap fun limb => littleEndian 8 limb.toNat

/-- `writeBinWitness`, where `witness` is what `getWitness` copies for the
indices below `get_size_of_witness()`. -/
def writeBinWitness (witness : List FrElement) : List (BitVec 8) :=
  let n8 := 4 * 8
  bytes "wtns" ++ littleEndian 4 2 ++ littleEndian 4 2 ++ littleEndian 4 1 ++
    littleEndian 8 (8 + n8) ++ littleEndian 4 n8 ++ writeLimbs q ++
    littleEndian 4 witness.length ++ littleEndian 4 2 ++
    littleEndian 8 (n8 * witness.length) ++
    witness.flatMap fun v => writeLimbs (toLongNormal v v).longVal

/-- The bytes of limbs are those of their number. -/
theorem writeLimbs_eq (longVal : RawElement) :
    writeLimbs longVal = littleEndian 32 longVal.toNat := by
  have small : ∀ word ∈ longVal.limbs.map BitVec.toNat, word < 2 ^ (8 * 8) := by
    intro word member
    obtain ⟨limb, -, rfl⟩ := List.mem_map.mp member
    exact limb.isLt
  have written := flatMap_littleEndian small
  rw [List.flatMap_map] at written
  exact written

/-- The written file is that of the values. -/
theorem writeBinWitness_eq
    {witness : List FrElement}
    {values : List Fr}
    (represents : List.Forall₂ Represents witness values) :
    writeBinWitness witness = witnessFile values := by
  have records : (witness.flatMap fun v => writeLimbs (toLongNormal v v).longVal) =
      values.flatMap fun value => littleEndian 32 value.val := by
    induction represents with
    | nil => rfl
    | @cons v value _ _ first _ inductionHypothesis =>
        have limbs := FrElement.toLongNormal_holds v first
        rw [List.flatMap_cons, List.flatMap_cons, inductionHypothesis,
          writeLimbs_eq, limbs.1.toNat_eq_val, limbs.2]
  unfold writeBinWitness witnessFile witnessHeader
  rw [records, represents.length_eq, writeLimbs_eq, q_toNat]
  simp only [List.append_assoc]

/-- **Faithful files.**  Two runs write the same file exactly if their signals
have the same values, whatever the forms of the elements. -/
theorem writeBinWitness_eq_iff
    {witness others : List FrElement}
    {values otherValues : List Fr}
    (represents : List.Forall₂ Represents witness values)
    (othersRepresent : List.Forall₂ Represents others otherValues)
    (size : witness.length < 2 ^ 32)
    (othersSize : others.length < 2 ^ 32) :
    writeBinWitness witness = writeBinWitness others ↔ values = otherValues := by
  rw [represents.length_eq] at size
  rw [othersRepresent.length_eq] at othersSize
  rw [writeBinWitness_eq represents, writeBinWitness_eq othersRepresent]
  constructor
  · exact witnessFile_injective size othersSize
  · exact congrArg witnessFile

theorem minusFive_file :
    writeBinWitness [FrElement.minusFive] =
        writeBinWitness [FrElement.longRadix] ↔
      [(-5 : Fr)] = [radix] :=
  writeBinWitness_eq_iff (.cons FrElement.minusFive_represents .nil)
    (.cons FrElement.longRadix_represents .nil) (by decide) (by decide)

/-! ## The calculator in JavaScript -/

/-- What the exports of the instance answer: the memory after `getRawPrime` and
after each `getWitness`, read in words of 32 bits. -/
structure WitnessCalculator where
  n32 : Nat
  rawPrime : Nat -> BitVec 32
  witness : List (Nat -> BitVec 32)

/-- `for (let j=0; j<this.n32; j++) readSharedRWMemory(j)` -/
def readSharedRWMemory
    (n32 : Nat)
    (memory : Nat -> BitVec 32) : List Nat :=
  ((List.range n32).map memory).map BitVec.toNat

/-- `parseInt(length.toString(16).slice(start, start + 8), 16)`, where the empty
text is not a number and stored as zero. -/
def parseSlice (length start : Nat) : Nat :=
  let hex := (Nat.digits 16 length).reverse
  Nat.ofDigits 16 ((hex.drop start).take 8).reverse

/-- `calculateWTNSBin` after `_doCalculateWitness` -/
def calculateWTNSBin (calculator : WitnessCalculator) : List (BitVec 8) :=
  let n32 := calculator.n32
  let witnessSize := calculator.witness.length
  let n8 := n32 * 4
  let idSection1length := 8 + n8
  let idSection2length := n8 * witnessSize
  let buff32 :=
    [2, 2, 1, parseSlice idSection1length 0, parseSlice idSection1length 8, n8] ++
      readSharedRWMemory n32 calculator.rawPrime ++
      [witnessSize, 2, parseSlice idSection2length 0,
        parseSlice idSection2length 8] ++
      calculator.witness.flatMap (readSharedRWMemory n32)
  bytes "wtns" ++ buff32.flatMap (littleEndian 4)

/-- The number in the memory. -/
def sharedNumber (memory : Nat -> BitVec 32) : Nat :=
  limbsToNat ((List.range 8).map memory)

/-- Eight words of the memory are the bytes of their number. -/
theorem readSharedRWMemory_bytes (memory : Nat -> BitVec 32) :
    (readSharedRWMemory 8 memory).flatMap (littleEndian 4) =
      littleEndian 32 (sharedNumber memory) := by
  have small : ∀ word ∈ readSharedRWMemory 8 memory, word < 2 ^ (8 * 4) := by
    intro word member
    obtain ⟨limb, -, rfl⟩ := List.mem_map.mp member
    exact limb.isLt
  exact flatMap_littleEndian small

/-- The memories of all signals are the records of their values. -/
theorem sharedMemory_bytes
    {witness : List (Nat -> BitVec 32)}
    {values : List Fr}
    (representatives : List.Forall₂
      (fun memory (value : Fr) => sharedNumber memory = value.val)
      witness values) :
    (witness.flatMap (readSharedRWMemory 8)).flatMap (littleEndian 4) =
      values.flatMap fun value => littleEndian 32 value.val := by
  induction representatives with
  | nil => rfl
  | cons first _ inductionHypothesis =>
      rw [List.flatMap_cons, List.flatMap_append, List.flatMap_cons,
        inductionHypothesis, readSharedRWMemory_bytes, first]

/-- The two slices are the words of a length of at most eight digits. -/
theorem parseSlice_bytes
    {length : Nat}
    (short : length < 2 ^ 32) :
    littleEndian 4 (parseSlice length 0) ++ littleEndian 4 (parseSlice length 8) =
      littleEndian 8 length := by
  have digits : (Nat.digits 16 length).length ≤ 8 :=
    (Nat.digits_length_le_iff (by decide) length).mpr short
  have low : parseSlice length 0 = length := by
    rw [parseSlice, List.drop_zero, List.take_of_length_le (by simpa using digits),
      List.reverse_reverse, Nat.ofDigits_digits]
  have high : parseSlice length 8 = 0 := by
    rw [parseSlice, List.drop_of_length_le (by simpa using digits)]
    rfl
  have joined := @littleEndian_add 4 length short 4 0
  rw [low, high]
  exact joined.symm

/-- The file of the calculator is that of the numbers in its memory. -/
theorem calculateWTNSBin_eq
    {calculator : WitnessCalculator}
    {values : List Fr}
    (words : calculator.n32 = 8)
    (prime : sharedNumber calculator.rawPrime = fieldSize)
    (representatives : List.Forall₂
      (fun memory (value : Fr) => sharedNumber memory = value.val)
      calculator.witness values)
    (short : 32 * values.length < 2 ^ 32) :
    calculateWTNSBin calculator = witnessFile values := by
  have records := sharedMemory_bytes representatives
  have header : littleEndian 4 (parseSlice 40 0) ++
      littleEndian 4 (parseSlice 40 8) = littleEndian 8 40 :=
    parseSlice_bytes (by decide)
  have body := parseSlice_bytes short
  unfold calculateWTNSBin witnessFile witnessHeader
  simp only [words, representatives.length_eq, List.flatMap_append,
    List.flatMap_cons, List.flatMap_nil, List.append_nil, records,
    readSharedRWMemory_bytes, prime, ← header, ← body, List.append_assoc]

/-- **The writers agree.**  The generator and the calculator in JavaScript write
the same bytes for the same signals, as long as the length of the section has at
most eight digits. -/
theorem calculateWTNSBin_eq_writeBinWitness
    {calculator : WitnessCalculator}
    {witness : List FrElement}
    {values : List Fr}
    (words : calculator.n32 = 8)
    (prime : sharedNumber calculator.rawPrime = fieldSize)
    (representatives : List.Forall₂
      (fun memory (value : Fr) => sharedNumber memory = value.val)
      calculator.witness values)
    (represents : List.Forall₂ Represents witness values)
    (short : 32 * witness.length < 2 ^ 32) :
    calculateWTNSBin calculator = writeBinWitness witness := by
  rw [represents.length_eq] at short
  rw [writeBinWitness_eq represents]
  exact calculateWTNSBin_eq words prime representatives short

/-- The words of a number. -/
def wordsOf (number : Nat) : Nat -> BitVec 32 :=
  fun index => BitVec.ofNat 32 (number / 2 ^ (32 * index))

theorem minusFive_writers_agree :
    calculateWTNSBin ⟨8, wordsOf fieldSize, [wordsOf (fieldSize - 5)]⟩ =
      writeBinWitness [FrElement.minusFive] := by
  have value : (-5 : Fr).val = fieldSize - 5 := by decide +kernel
  have representative : sharedNumber (wordsOf (fieldSize - 5)) = (-5 : Fr).val := by
    rw [value]
    decide +kernel
  exact calculateWTNSBin_eq_writeBinWitness rfl (by decide +kernel)
    (.cons representative .nil) (.cons FrElement.minusFive_represents .nil)
    (by decide)

end Generator
end Privachain

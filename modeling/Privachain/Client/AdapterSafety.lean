import Privachain.Client.CircuitAdapter
import Mathlib.Algebra.Order.BigOperators.Group.List
import Mathlib.Algebra.Order.Ring.Int

/-!
# The values of accepted transfers

The adapter compares two sums of big integers and checks nothing else about the
amounts.  A transfer that it accepts is safe exactly when its amounts are field
elements and no input note is spent twice; negative, oversized and repeated
amounts cancel in the sums.
-/

namespace Privachain
namespace Client

open Circuit
open Foundation
open Foundation.JavaScript

/-! ## Amounts as field elements -/

/-- The decimal text of an amount denotes the same number as a field
element. -/
def DenotesItself (amount : Int) : Prop :=
  ∃ entry : Fr, readField (bigIntToString amount) = some entry ∧
    (entry.val : Int) = amount

/-- The amounts that denote themselves are those below the field size. -/
theorem denotesItself_iff (amount : Int) :
    DenotesItself amount ↔ 0 ≤ amount ∧ amount < fieldSize := by
  have residue : DenotesItself amount ↔ amount % fieldSize = amount := by
    unfold DenotesItself
    simp only [readField_bigIntToString, Option.some.injEq]
    rw [exists_eq_left', ZMod.val_intCast]
  have positive : (0 : Int) < fieldSize := by decide
  rw [residue]
  constructor
  · intro reduced
    rw [← reduced]
    exact ⟨Int.emod_nonneg _ positive.ne', Int.emod_lt_of_pos _ positive⟩
  · rintro ⟨nonnegative, below⟩
    exact Int.emod_eq_of_lt nonnegative below

/-! ## Safe transfers -/

/-- The parts of a note that determine its commitment and its nullifier. -/
def ApplicationNote.opening (note : ApplicationNote) : Int × Int × Int :=
  (note.amount, note.secret, note.recipient)

section Transfers

variable
  (circuit : CircuitInterface)
  (inputNotes outputNotes : List ApplicationNote)
  (merkleProofs : List MerkleProofData)

/-- All amounts lie between zero and the largest field element. -/
def AmountsInField : Prop :=
  ∀ note ∈ inputNotes ++ outputNotes,
    0 ≤ note.amount ∧ note.amount < fieldSize

/-- No input note occurs twice. -/
def DistinctNotes : Prop :=
  (inputNotes.map ApplicationNote.opening).Nodup

/-- A value-safe transfer. -/
structure ValueSafe : Prop where
  inField : AmountsInField inputNotes outputNotes
  denotes : ∀ note ∈ inputNotes ++ outputNotes, DenotesItself note.amount
  covered : ∀ output ∈ outputNotes, output.amount ≤ sumAmounts inputNotes
  distinct : DistinctNotes inputNotes

/-- What the adapter checks: the numbers of notes and proofs, the balance, and
that every hash is computed. -/
structure AdapterChecks : Prop where
  inputs : 0 < inputNotes.length ∧ inputNotes.length ≤ maxInputs
  outputs : 0 < outputNotes.length ∧ outputNotes.length ≤ maxOutputs
  proofs : merkleProofs.length = inputNotes.length
  balanced : sumAmounts inputNotes = sumAmounts outputNotes
  nullifiers : ∀ input ∈ inputNotes,
    ∃ nullifier, inputNullifier circuit input = .ok nullifier
  outCommitments : ∀ output ∈ outputNotes,
    ∃ commitment, outputCommitment circuit output = .ok commitment

variable {inputNotes outputNotes}

/-- Without negative amounts an output of a balanced transfer is covered by the
inputs. -/
theorem AmountsInField.covered
    (inField : AmountsInField inputNotes outputNotes)
    (balanced : sumAmounts inputNotes = sumAmounts outputNotes)
    {output : ApplicationNote}
    (member : output ∈ outputNotes) :
    output.amount ≤ sumAmounts inputNotes := by
  rw [balanced, sumAmounts_eq_sum]
  refine List.single_le_sum ?_ _ (List.mem_map_of_mem member)
  intro amount isAmount
  obtain ⟨note, isOutput, rfl⟩ := List.mem_map.mp isAmount
  exact (inField note (List.mem_append_right _ isOutput)).1

/-- A balanced transfer is safe exactly when its amounts are field elements and
its inputs are distinct. -/
theorem valueSafe_iff
    (balanced : sumAmounts inputNotes = sumAmounts outputNotes) :
    ValueSafe inputNotes outputNotes ↔
      AmountsInField inputNotes outputNotes ∧ DistinctNotes inputNotes := by
  constructor
  · intro safe
    exact ⟨safe.inField, safe.distinct⟩
  · rintro ⟨inField, distinct⟩
    exact {
      inField := inField
      denotes := fun note member =>
        (denotesItself_iff note.amount).mpr (inField note member)
      covered := fun _ member => inField.covered balanced member
      distinct := distinct }

variable (inputNotes outputNotes)

/-- The adapter returns exactly for the transfers that pass its checks. -/
theorem prepareCircuitInput_returns_iff :
    (∃ result, prepareCircuitInput circuit inputNotes outputNotes
      merkleProofs = .ok result) ↔
      AdapterChecks circuit inputNotes outputNotes merkleProofs := by
  simp only [prepareCircuitInput_eq_ok_iff]
  constructor
  · rintro ⟨_, inputs, outputs, proofs, balanced, nullifiers, outCommitments, _,
      nullifiersReturn, commitmentsReturn, _⟩
    exact {
      inputs := inputs
      outputs := outputs
      proofs := proofs
      balanced := balanced
      nullifiers := returns_of_mapM nullifiersReturn
      outCommitments := returns_of_mapM commitmentsReturn }
  · intro checks
    obtain ⟨nullifiers, nullifiersReturn⟩ := mapM_returns checks.nullifiers
    obtain ⟨outCommitments, commitmentsReturn⟩ :=
      mapM_returns checks.outCommitments
    obtain ⟨first, rest, rfl⟩ : ∃ first rest, merkleProofs = first :: rest := by
      apply List.exists_cons_of_length_pos
      rw [checks.proofs]
      exact checks.inputs.1
    exact ⟨_, checks.inputs, checks.outputs, checks.proofs, checks.balanced,
      nullifiers, outCommitments, first, nullifiersReturn, commitmentsReturn,
      rfl, rfl⟩

/-- **The transfers that the adapter accepts are value-safe exactly where its
checks leave only field elements and distinct inputs.** -/
theorem prepareCircuitInput_valueSafe_iff :
    (∀ result, prepareCircuitInput circuit inputNotes outputNotes
        merkleProofs = .ok result ->
      ValueSafe inputNotes outputNotes) ↔
      (AdapterChecks circuit inputNotes outputNotes merkleProofs ->
        AmountsInField inputNotes outputNotes ∧ DistinctNotes inputNotes) := by
  constructor
  · intro safe checks
    obtain ⟨result, returns⟩ := (prepareCircuitInput_returns_iff circuit
      inputNotes outputNotes merkleProofs).mpr checks
    exact (valueSafe_iff checks.balanced).mp (safe result returns)
  · intro safe result returns
    have checks := (prepareCircuitInput_returns_iff circuit inputNotes
      outputNotes merkleProofs).mp ⟨result, returns⟩
    exact (valueSafe_iff checks.balanced).mpr (safe checks)

end Transfers

/-! ## A minted note -/

/-- A note of the given amount with a secret. -/
def noteOf (amount secret : Int) : ApplicationNote where
  amount := amount
  secret := secret
  recipient := 1

/-- A note of fifteen units comes out of one of ten units, next to a note of
minus five. -/
theorem prepareCircuitInput_mints :
    ¬∀ (circuit : CircuitInterface)
        (inputNotes outputNotes : List ApplicationNote)
        (merkleProofs : List MerkleProofData)
        (result : PreparedInput),
      prepareCircuitInput circuit inputNotes outputNotes merkleProofs =
        .ok result ->
      ValueSafe inputNotes outputNotes := by
  intro safe
  have checks : AdapterChecks (initialized List.sum) [noteOf 10 1]
      [noteOf (-5) 2, noteOf 15 3]
      [{ root := "0", pathElements := [], pathIndices := [] }] := {
    inputs := by decide
    outputs := by decide
    proofs := rfl
    balanced := rfl
    nullifiers := by
      intro input member
      obtain rfl := List.mem_singleton.mp member
      let commitment : Fr := [10, 1, 1].sum
      have reads := readField_fieldToString commitment
      exact ⟨_, (bind_eq_ok_iff _ _ _).mpr ⟨fieldToString commitment, rfl,
        (computeNullifier_eq_ok_iff _ _ _ _).mpr ⟨_, reads, rfl⟩⟩⟩
    outCommitments := fun _ _ => ⟨_, rfl⟩ }
  obtain ⟨result, returns⟩ :=
    (prepareCircuitInput_returns_iff _ _ _ _).mpr checks
  have covered := (safe _ _ _ _ result returns).covered (noteOf 15 3)
    (by decide)
  exact absurd covered (by decide)

end Client
end Privachain

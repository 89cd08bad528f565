import Privachain.Client.Prover
import Mathlib.Algebra.BigOperators.Group.List.Basic
import Mathlib.Algebra.Ring.Int.Defs

/-!
# The circuit input adapter

`prepareCircuitInput` checks the sizes and the balance of a transfer, hashes
its notes, and pads every signal array to the sizes of the main circuit.
-/

namespace Privachain
namespace Client

open Foundation
open Foundation.JavaScript

/-! ## `CIRCUIT_CONSTANTS` -/

/-- `MAX_INPUTS` -/
def maxInputs : Nat := 4

/-- `MAX_OUTPUTS` -/
def maxOutputs : Nat := 4

/-- `MERKLE_TREE_DEPTH` -/
def merkleTreeDepth : Nat := 20

/-! ## The data passed to the adapter -/

/-- `interface ApplicationNote` -/
structure ApplicationNote where
  amount : Int
  secret : Int
  recipient : Int
  leafIndex : Option Int := none
  commitment : Option String := none
  deriving DecidableEq

/-- `interface MerkleProofData` -/
structure MerkleProofData where
  root : String
  pathElements : List String
  pathIndices : List Int
  deriving DecidableEq

/-- `circuitInput`, keyed by the signal names of the main circuit. -/
structure CircuitInput where
  root : String
  nullifierHashes : List String
  outCommitments : List String
  inAmount : List String
  inSecret : List String
  inRecipient : List String
  inPathElements : List (List String)
  inPathIndices : List (List Int)
  outAmount : List String
  outSecret : List String
  outRecipient : List String
  deriving DecidableEq

/-- The result of `prepareCircuitInput`. -/
structure PreparedInput where
  circuitInput : CircuitInput
  nullifiers : List String
  outCommitments : List String
  deriving DecidableEq

/-! ## Padding -/

/-- `padArray`: append the default value until the array has the size. -/
def padArray {α : Type} (arr : List α) (size : Nat) (defaultValue : α) :
    List α :=
  if arr.length < size then
    padArray (arr ++ [defaultValue]) size defaultValue
  else arr
termination_by size - arr.length
decreasing_by
  simp only [List.length_append, List.length_singleton]
  omega

/-- Padding appends one copy of the default value for each missing entry. -/
theorem padArray_eq_append_replicate
    {α : Type}
    (arr : List α)
    (size : Nat)
    (defaultValue : α) :
    padArray arr size defaultValue =
      arr ++ List.replicate (size - arr.length) defaultValue := by
  fun_induction padArray arr size defaultValue with
  | case1 arr short inductionHypothesis =>
      have missing : size - arr.length =
          size - (arr ++ [defaultValue]).length + 1 := by
        simp only [List.length_append, List.length_singleton]
        omega
      rw [inductionHypothesis, missing,
        List.replicate_succ, List.append_assoc]
      rfl
  | case2 arr full =>
      have missing : size - arr.length = 0 := by omega
      rw [missing, List.replicate_zero,
        List.append_nil]

/-- Padding up to a size that is not exceeded reaches the size. -/
theorem length_padArray
    {α : Type}
    (arr : List α)
    (size : Nat)
    (defaultValue : α)
    (fits : arr.length ≤ size) :
    (padArray arr size defaultValue).length = size := by
  rw [padArray_eq_append_replicate, List.length_append, List.length_replicate]
  omega

/-! ## `prepareCircuitInput` -/

/-- `notes.reduce((s, i) => s + i.amount, 0n)` -/
def sumAmounts (notes : List ApplicationNote) : Int :=
  notes.foldl (fun s note => s + note.amount) 0

/-- The adapter compares the integer sums. -/
theorem sumAmounts_eq_sum (notes : List ApplicationNote) :
    sumAmounts notes = (notes.map (·.amount)).sum := by
  rw [sumAmounts, List.sum_eq_foldl, List.foldl_map]

/-- `input.commitment || computeCommitment(...)`: an absent or empty string is
falsy. -/
def inputCommitment
    (circuit : CircuitInterface)
    (input : ApplicationNote) : Except Exception String :=
  match input.commitment with
  | some commitment =>
      if commitment = "" then
        computeCommitment circuit input.amount input.secret input.recipient
      else .ok commitment
  | none =>
      computeCommitment circuit input.amount input.secret input.recipient

/-- The nullifier that the adapter computes for an input note. -/
def inputNullifier
    (circuit : CircuitInterface)
    (input : ApplicationNote) : Except Exception String := do
  let commitment ← inputCommitment circuit input
  computeNullifier circuit commitment input.secret

/-- The commitment that the adapter computes for an output note. -/
def outputCommitment
    (circuit : CircuitInterface)
    (output : ApplicationNote) : Except Exception String :=
  computeCommitment circuit output.amount output.secret output.recipient

/-- `emptyPath` -/
def emptyPath : List String := List.replicate merkleTreeDepth "0"

/-- `emptyIndices` -/
def emptyIndices : List Int := List.replicate merkleTreeDepth 0

/-- The padded arrays of `circuitInput`. -/
def paddedCircuitInput
    (root : String)
    (inputNotes outputNotes : List ApplicationNote)
    (merkleProofs : List MerkleProofData)
    (nullifiers outCommitments : List String) : CircuitInput where
  root := root
  nullifierHashes := padArray nullifiers maxInputs "0"
  outCommitments := padArray outCommitments maxOutputs "0"
  inAmount := padArray (inputNotes.map fun i => bigIntToString i.amount)
    maxInputs "0"
  inSecret := padArray (inputNotes.map fun i => bigIntToString i.secret)
    maxInputs "0"
  inRecipient := padArray
    (inputNotes.map fun i => bigIntToString i.recipient) maxInputs "0"
  inPathElements := padArray (merkleProofs.map fun p => p.pathElements)
    maxInputs emptyPath
  inPathIndices := padArray (merkleProofs.map fun p => p.pathIndices)
    maxInputs emptyIndices
  outAmount := padArray (outputNotes.map fun o => bigIntToString o.amount)
    maxOutputs "0"
  outSecret := padArray (outputNotes.map fun o => bigIntToString o.secret)
    maxOutputs "0"
  outRecipient := padArray
    (outputNotes.map fun o => bigIntToString o.recipient) maxOutputs "0"

/-- `prepareCircuitInput(inputNotes, outputNotes, merkleProofs)` -/
def prepareCircuitInput
    (circuit : CircuitInterface)
    (inputNotes outputNotes : List ApplicationNote)
    (merkleProofs : List MerkleProofData) :
    Except Exception PreparedInput := do
  throwIf (inputNotes.length = 0 ∨ inputNotes.length > maxInputs)
    (.error s!"Must have 1-{maxInputs} input notes")
  throwIf (outputNotes.length = 0 ∨ outputNotes.length > maxOutputs)
    (.error s!"Must have 1-{maxOutputs} output notes")
  throwIf (merkleProofs.length ≠ inputNotes.length)
    (.error "Must provide Merkle proof for each input note")
  let sumIn := sumAmounts inputNotes
  let sumOut := sumAmounts outputNotes
  throwIf (sumIn ≠ sumOut)
    (.error s!"Input sum ({sumIn}) must equal output sum ({sumOut})")
  let nullifiers ← inputNotes.mapM (inputNullifier circuit)
  let outCommitments ← outputNotes.mapM (outputCommitment circuit)
  match merkleProofs with
  | [] =>
      throw (.typeError
        "Cannot read properties of undefined (reading 'root')")
  | first :: _ =>
      return {
        circuitInput := paddedCircuitInput first.root inputNotes outputNotes
          merkleProofs nullifiers outCommitments
        nullifiers := nullifiers.take inputNotes.length
        outCommitments := outCommitments.take outputNotes.length }

/-- The adapter returns exactly when its checks pass and every hash is
computed; then the circuit input consists of the padded arrays. -/
theorem prepareCircuitInput_eq_ok_iff
    (circuit : CircuitInterface)
    (inputNotes outputNotes : List ApplicationNote)
    (merkleProofs : List MerkleProofData)
    (result : PreparedInput) :
    prepareCircuitInput circuit inputNotes outputNotes merkleProofs =
        .ok result ↔
      (0 < inputNotes.length ∧ inputNotes.length ≤ maxInputs) ∧
      (0 < outputNotes.length ∧ outputNotes.length ≤ maxOutputs) ∧
      merkleProofs.length = inputNotes.length ∧
      sumAmounts inputNotes = sumAmounts outputNotes ∧
      ∃ nullifiers outCommitments first,
        inputNotes.mapM (inputNullifier circuit) = .ok nullifiers ∧
        outputNotes.mapM (outputCommitment circuit) = .ok outCommitments ∧
        merkleProofs.head? = some first ∧
        result =
          { circuitInput := paddedCircuitInput first.root inputNotes
              outputNotes merkleProofs nullifiers outCommitments
            nullifiers := nullifiers.take inputNotes.length
            outCommitments := outCommitments.take outputNotes.length } := by
  have positive : ∀ size bound : Nat,
      ¬(size = 0 ∨ size > bound) ↔ 0 < size ∧ size ≤ bound := by
    intro size bound
    omega
  unfold prepareCircuitInput
  simp only [bind_eq_ok_iff, throwIf_eq_ok_iff, exists_const, positive,
    not_not]
  refine and_congr_right fun _ => and_congr_right fun _ =>
    and_congr_right fun _ => and_congr_right fun _ => ?_
  constructor
  · rintro ⟨nullifiers, nullifiersReturn, outCommitments, commitmentsReturn,
      rest⟩
    cases merkleProofs with
    | nil => exact absurd rest (by simp [throw, throwThe, MonadExceptOf.throw])
    | cons first tail =>
        exact ⟨nullifiers, outCommitments, first, nullifiersReturn,
          commitmentsReturn, rfl, (returned_eq_ok_iff _ _).mp rest⟩
  · rintro ⟨nullifiers, outCommitments, first, nullifiersReturn,
      commitmentsReturn, atHead, rfl⟩
    refine ⟨nullifiers, nullifiersReturn, outCommitments, commitmentsReturn, ?_⟩
    cases merkleProofs with
    | nil => exact absurd atHead (by simp)
    | cons head tail =>
        obtain rfl : head = first := Option.some.inj atHead
        rfl

end Client
end Privachain

import Privachain.Circuit.MerkleProof
import Mathlib.Algebra.BigOperators.Fin

/-!
# The `Transaction(nInputs, nOutputs, levels)` template

The main circuit hashes every input note, checks its nullifier and its Merkle
path, hashes every output note, checks its commitment, and compares the two
sums.  As for the Merkle template, the input signals determine every other
signal; what the constraints check is a condition on the input signals alone.
-/

namespace Privachain
namespace Circuit

universe u

/-- The input signals of `Transaction(nInputs, nOutputs, levels)`. -/
@[ext] structure TransactionInputs
    (F : Type u) (nInputs nOutputs levels : Nat) where
  /-- `signal input root`, public -/
  root : F
  /-- `signal input nullifierHashes[nInputs]`, public -/
  nullifierHashes : Fin nInputs -> F
  /-- `signal input outCommitments[nOutputs]`, public -/
  outCommitments : Fin nOutputs -> F
  /-- `signal input inAmount[nInputs]` -/
  inAmount : Fin nInputs -> F
  /-- `signal input inSecret[nInputs]` -/
  inSecret : Fin nInputs -> F
  /-- `signal input inRecipient[nInputs]` -/
  inRecipient : Fin nInputs -> F
  /-- `signal input inPathElements[nInputs][levels]` -/
  inPathElements : Fin nInputs -> Fin levels -> F
  /-- `signal input inPathIndices[nInputs][levels]` -/
  inPathIndices : Fin nInputs -> Fin levels -> F
  /-- `signal input outAmount[nOutputs]` -/
  outAmount : Fin nOutputs -> F
  /-- `signal input outSecret[nOutputs]` -/
  outSecret : Fin nOutputs -> F
  /-- `signal input outRecipient[nOutputs]` -/
  outRecipient : Fin nOutputs -> F

/-- All signals of `Transaction(nInputs, nOutputs, levels)`. -/
structure Transaction
    (F : Type u) (nInputs nOutputs levels : Nat) extends
    TransactionInputs F nInputs nOutputs levels where
  /-- `component inCommitmentHasher[nInputs]` -/
  inCommitmentHasher : Fin nInputs -> Poseidon F 3
  /-- `component inNullifierHasher[nInputs]` -/
  inNullifierHasher : Fin nInputs -> Poseidon F 2
  /-- `component inTree[nInputs]` -/
  inTree : Fin nInputs -> MerkleProof F levels
  /-- `component outCommitmentHasher[nOutputs]` -/
  outCommitmentHasher : Fin nOutputs -> Poseidon F 3

namespace TransactionInputs

variable {F : Type u} {nInputs nOutputs levels : Nat}

/-- The three inputs of the commitment hash of an input note. -/
def inNote
    (inputs : TransactionInputs F nInputs nOutputs levels)
    (i : Fin nInputs) : List F :=
  [inputs.inAmount i, inputs.inSecret i, inputs.inRecipient i]

/-- The three inputs of the commitment hash of an output note. -/
def outNote
    (inputs : TransactionInputs F nInputs nOutputs levels)
    (i : Fin nOutputs) : List F :=
  [inputs.outAmount i, inputs.outSecret i, inputs.outRecipient i]

/-- The commitment computed for an input note. -/
def inCommitment
    (poseidon : List F -> F)
    (inputs : TransactionInputs F nInputs nOutputs levels)
    (i : Fin nInputs) : F :=
  poseidon (inputs.inNote i)

/-- The two inputs of the nullifier hash of an input note. -/
def nullifierPreimage
    (poseidon : List F -> F)
    (inputs : TransactionInputs F nInputs nOutputs levels)
    (i : Fin nInputs) : List F :=
  [inputs.inCommitment poseidon i, inputs.inSecret i]

variable [CommRing F]

/-- `sumIns` after the input loop. -/
def sumIns (inputs : TransactionInputs F nInputs nOutputs levels) : F :=
  ∑ i, inputs.inAmount i

/-- `sumOuts` after the output loop. -/
def sumOuts (inputs : TransactionInputs F nInputs nOutputs levels) : F :=
  ∑ i, inputs.outAmount i

/-- What the circuit checks about its input signals. -/
structure Checks
    (poseidon : List F -> F)
    (inputs : TransactionInputs F nInputs nOutputs levels) : Prop where
  /-- Every public nullifier is the one of its input note. -/
  nullifier : ∀ i,
    poseidon (inputs.nullifierPreimage poseidon i) = inputs.nullifierHashes i
  /-- Every input note's path ends at the public root. -/
  merkleRoot : ∀ i,
    MerkleProof.pathRoot poseidon (inputs.inCommitment poseidon i)
      (inputs.inPathElements i) (inputs.inPathIndices i) = inputs.root
  /-- Every public output commitment is the one of its output note. -/
  outCommitment : ∀ i,
    poseidon (inputs.outNote i) = inputs.outCommitments i
  /-- The two sums agree in the field. -/
  balance : inputs.sumIns = inputs.sumOuts

end TransactionInputs

namespace Transaction

variable {F : Type u} [CommRing F] {nInputs nOutputs levels : Nat}

/-- The constraints of the template, in source order. -/
structure Constraints
    (poseidon : List F -> F)
    (t : Transaction F nInputs nOutputs levels) : Prop where
  /-- `inCommitmentHasher[i] = Poseidon(3)` -/
  inCommitmentHasher_constraints : ∀ i,
    (t.inCommitmentHasher i).Constraints poseidon
  /-- `inCommitmentHasher[i].inputs[0] <== inAmount[i]` -/
  inCommitmentHasher_zero : ∀ i,
    (t.inCommitmentHasher i).inputs 0 = t.inAmount i
  /-- `inCommitmentHasher[i].inputs[1] <== inSecret[i]` -/
  inCommitmentHasher_one : ∀ i,
    (t.inCommitmentHasher i).inputs 1 = t.inSecret i
  /-- `inCommitmentHasher[i].inputs[2] <== inRecipient[i]` -/
  inCommitmentHasher_two : ∀ i,
    (t.inCommitmentHasher i).inputs 2 = t.inRecipient i
  /-- `inNullifierHasher[i] = Poseidon(2)` -/
  inNullifierHasher_constraints : ∀ i,
    (t.inNullifierHasher i).Constraints poseidon
  /-- `inNullifierHasher[i].inputs[0] <== inCommitmentHasher[i].out` -/
  inNullifierHasher_zero : ∀ i,
    (t.inNullifierHasher i).inputs 0 = (t.inCommitmentHasher i).out
  /-- `inNullifierHasher[i].inputs[1] <== inSecret[i]` -/
  inNullifierHasher_one : ∀ i,
    (t.inNullifierHasher i).inputs 1 = t.inSecret i
  /-- `inNullifierHasher[i].out === nullifierHashes[i]` -/
  inNullifierHasher_out : ∀ i,
    (t.inNullifierHasher i).out = t.nullifierHashes i
  /-- `inTree[i] = MerkleProof(levels)` -/
  inTree_constraints : ∀ i, (t.inTree i).Constraints poseidon
  /-- `inTree[i].leaf <== inCommitmentHasher[i].out` -/
  inTree_leaf : ∀ i, (t.inTree i).leaf = (t.inCommitmentHasher i).out
  /-- `inTree[i].pathElements[j] <== inPathElements[i][j]` -/
  inTree_pathElements : ∀ i j,
    (t.inTree i).pathElements j = t.inPathElements i j
  /-- `inTree[i].pathIndices[j] <== inPathIndices[i][j]` -/
  inTree_pathIndices : ∀ i j,
    (t.inTree i).pathIndices j = t.inPathIndices i j
  /-- `inTree[i].root === root` -/
  inTree_root : ∀ i, (t.inTree i).root = t.root
  /-- `outCommitmentHasher[i] = Poseidon(3)` -/
  outCommitmentHasher_constraints : ∀ i,
    (t.outCommitmentHasher i).Constraints poseidon
  /-- `outCommitmentHasher[i].inputs[0] <== outAmount[i]` -/
  outCommitmentHasher_zero : ∀ i,
    (t.outCommitmentHasher i).inputs 0 = t.outAmount i
  /-- `outCommitmentHasher[i].inputs[1] <== outSecret[i]` -/
  outCommitmentHasher_one : ∀ i,
    (t.outCommitmentHasher i).inputs 1 = t.outSecret i
  /-- `outCommitmentHasher[i].inputs[2] <== outRecipient[i]` -/
  outCommitmentHasher_two : ∀ i,
    (t.outCommitmentHasher i).inputs 2 = t.outRecipient i
  /-- `outCommitmentHasher[i].out === outCommitments[i]` -/
  outCommitmentHasher_out : ∀ i,
    (t.outCommitmentHasher i).out = t.outCommitments i
  /-- `sumIns === sumOuts` -/
  balance : t.sumIns = t.sumOuts

/-- The assignment that the input signals determine. -/
def ofInputs
    (poseidon : List F -> F)
    (inputs : TransactionInputs F nInputs nOutputs levels) :
    Transaction F nInputs nOutputs levels :=
  { inputs with
    inCommitmentHasher := fun i => Poseidon.ofInputs poseidon
      ![inputs.inAmount i, inputs.inSecret i, inputs.inRecipient i]
    inNullifierHasher := fun i => Poseidon.ofInputs poseidon
      ![inputs.inCommitment poseidon i, inputs.inSecret i]
    inTree := fun i => MerkleProof.ofInputs poseidon
      (inputs.inCommitment poseidon i) (inputs.inPathElements i)
      (inputs.inPathIndices i)
    outCommitmentHasher := fun i => Poseidon.ofInputs poseidon
      ![inputs.outAmount i, inputs.outSecret i, inputs.outRecipient i] }

/-! ## What the constraints force -/

section Forced

variable {poseidon : List F -> F}
variable {t : Transaction F nInputs nOutputs levels}

/-- Every input commitment hasher outputs the commitment of its note. -/
theorem Constraints.inCommitmentHasher_out
    (constraints : t.Constraints poseidon)
    (i : Fin nInputs) :
    (t.inCommitmentHasher i).out = t.inCommitment poseidon i := by
  rw [constraints.inCommitmentHasher_constraints i]
  simp [List.ofFn_succ, constraints.inCommitmentHasher_zero,
    constraints.inCommitmentHasher_one, constraints.inCommitmentHasher_two,
    TransactionInputs.inCommitment, TransactionInputs.inNote]

/-- Every public nullifier is the hash of its preimage. -/
theorem Constraints.nullifierHashes_eq
    (constraints : t.Constraints poseidon)
    (i : Fin nInputs) :
    poseidon (t.nullifierPreimage poseidon i) = t.nullifierHashes i := by
  rw [← constraints.inNullifierHasher_out i,
    constraints.inNullifierHasher_constraints i]
  simp [List.ofFn_succ, constraints.inNullifierHasher_zero,
    constraints.inNullifierHasher_one, constraints.inCommitmentHasher_out,
    TransactionInputs.nullifierPreimage]

/-- Every Merkle component computes the path of its note. -/
theorem Constraints.inTree_eq
    (constraints : t.Constraints poseidon)
    (i : Fin nInputs) :
    t.inTree i = MerkleProof.ofInputs poseidon (t.inCommitment poseidon i)
      (t.inPathElements i) (t.inPathIndices i) := by
  rw [← constraints.inCommitmentHasher_out i, ← constraints.inTree_leaf i,
    ← funext (constraints.inTree_pathElements i),
    ← funext (constraints.inTree_pathIndices i)]
  exact (MerkleProof.constraints_iff _ _).mp (constraints.inTree_constraints i)

/-- Every path ends at the public root. -/
theorem Constraints.pathRoot_eq
    (constraints : t.Constraints poseidon)
    (i : Fin nInputs) :
    MerkleProof.pathRoot poseidon (t.inCommitment poseidon i)
      (t.inPathElements i) (t.inPathIndices i) = t.root := by
  rw [← constraints.inTree_root i, constraints.inTree_eq i,
    MerkleProof.ofInputs_root]

/-- Every public output commitment is the hash of its note. -/
theorem Constraints.outCommitments_eq
    (constraints : t.Constraints poseidon)
    (i : Fin nOutputs) :
    poseidon (t.outNote i) = t.outCommitments i := by
  rw [← constraints.outCommitmentHasher_out i,
    constraints.outCommitmentHasher_constraints i]
  simp [List.ofFn_succ, constraints.outCommitmentHasher_zero,
    constraints.outCommitmentHasher_one, constraints.outCommitmentHasher_two,
    TransactionInputs.outNote]

/-- A satisfying assignment passes every check on its input signals. -/
theorem Constraints.checks
    (constraints : t.Constraints poseidon) :
    t.toTransactionInputs.Checks poseidon where
  nullifier := constraints.nullifierHashes_eq
  merkleRoot := constraints.pathRoot_eq
  outCommitment := constraints.outCommitments_eq
  balance := constraints.balance

end Forced

/-- Input signals that pass the checks extend to a satisfying assignment. -/
theorem ofInputs_constraints
    {poseidon : List F -> F}
    {inputs : TransactionInputs F nInputs nOutputs levels}
    (checks : inputs.Checks poseidon) :
    (ofInputs poseidon inputs).Constraints poseidon where
  inCommitmentHasher_constraints := fun _ => rfl
  inCommitmentHasher_zero := fun _ => rfl
  inCommitmentHasher_one := fun _ => rfl
  inCommitmentHasher_two := fun _ => rfl
  inNullifierHasher_constraints := fun _ => rfl
  inNullifierHasher_zero := fun _ => rfl
  inNullifierHasher_one := fun _ => rfl
  inNullifierHasher_out := checks.nullifier
  inTree_constraints := fun _ => MerkleProof.ofInputs_constraints _ _ _ _
  inTree_leaf := fun _ => rfl
  inTree_pathElements := fun _ _ => rfl
  inTree_pathIndices := fun _ _ => rfl
  inTree_root := checks.merkleRoot
  outCommitmentHasher_constraints := fun _ => rfl
  outCommitmentHasher_zero := fun _ => rfl
  outCommitmentHasher_one := fun _ => rfl
  outCommitmentHasher_two := fun _ => rfl
  outCommitmentHasher_out := checks.outCommitment
  balance := checks.balance

/-- Input signals are satisfiable exactly when they pass the checks. -/
theorem satisfiable_iff
    (poseidon : List F -> F)
    (inputs : TransactionInputs F nInputs nOutputs levels) :
    (∃ t : Transaction F nInputs nOutputs levels,
      t.toTransactionInputs = inputs ∧ t.Constraints poseidon) ↔
      inputs.Checks poseidon := by
  constructor
  · rintro ⟨t, rfl, constraints⟩
    exact constraints.checks
  · intro checks
    exact ⟨ofInputs poseidon inputs, rfl, ofInputs_constraints checks⟩

end Transaction

end Circuit
end Privachain

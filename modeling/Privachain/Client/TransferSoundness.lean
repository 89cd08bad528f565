import Privachain.Client.TransferProver

/-!
# What the transfer prover checks

The prover checks sizes, the Merkle proof of every claimed commitment and the
balance of the claimed values.  It does not open the claimed commitments,
compare them with each other or look at the signs of the values.
-/

namespace Privachain
namespace Client
namespace ZKProver

open Foundation
open Foundation.JavaScript

/-! ## Values -/

/-- The texts are read as these numbers. -/
def ReadAs (texts : List String) (numbers : List Int) : Prop :=
  List.Forall₂ (fun text number => stringToBigInt text = some number) texts
    numbers

/-- Every text of a list that is read has a number. -/
theorem ReadAs.exists_of_mem
    {texts : List String}
    {numbers : List Int}
    (reads : ReadAs texts numbers)
    {text : String}
    (member : text ∈ texts) :
    ∃ number, stringToBigInt text = some number := by
  obtain ⟨number, _, isNumber⟩ := exists_related_of_mem reads member
  exact ⟨number, isNumber⟩

/-- `BigInt(text)` returns what the text is read as. -/
theorem bigIntOfString_eq_ok_iff (text : String) (number : Int) :
    bigIntOfString text = .ok number ↔ stringToBigInt text = some number := by
  unfold bigIntOfString
  cases stringToBigInt text with
  | some value => simp
  | none => simp

/-- The sum is the one of the numbers that the texts are read as. -/
theorem sumValues_eq_ok_iff (texts : List String) (sum : Int) :
    sumValues texts = .ok sum ↔
      ∃ numbers, ReadAs texts numbers ∧ sum = numbers.sum := by
  unfold sumValues ReadAs
  rw [bind_eq_ok_iff]
  refine exists_congr fun numbers => and_congr ?_ (returned_eq_ok_iff _ _)
  rw [mapM_eq_ok_iff]
  simp only [bigIntOfString_eq_ok_iff]

/-- A commitment is computed exactly for a value that is read. -/
theorem computeCommitment_eq_ok_iff
    (crypto : UtilCrypto)
    (value secret recipient commitment : String) :
    computeCommitment crypto value secret recipient = .ok commitment ↔
      ∃ number, stringToBigInt value = some number ∧
        commitment = crypto.u8aToHex (poseidonHash crypto
          (bigIntBytes crypto number ++ crypto.hexToU8a secret ++
            crypto.hexToU8a recipient)) := by
  unfold computeCommitment commitmentPreimage toBigIntBytes
  simp only [bind_eq_ok_iff, returned_eq_ok_iff, bigIntOfString_eq_ok_iff]
  constructor
  · rintro ⟨_, ⟨_, ⟨number, reads, rfl⟩, rfl⟩, rfl⟩
    exact ⟨number, reads, rfl⟩
  · rintro ⟨number, reads, rfl⟩
    exact ⟨_, ⟨_, ⟨number, reads, rfl⟩, rfl⟩, rfl⟩

/-! ## The checks -/

/-- The claimed values balance. -/
def Balanced (inputs : TransferProofInputs) : Prop :=
  ∃ inputValues outputValues publicAmount,
    ReadAs (inputs.inputs.map fun i => i.value) inputValues ∧
    ReadAs (inputs.outputs.map fun o => o.value) outputValues ∧
    stringToBigInt (publicAmountOf inputs.publicAmount) = some publicAmount ∧
    inputValues.sum = outputValues.sum + publicAmount

/-- What the prover checks about a transfer. -/
structure PassesChecks
    (crypto : UtilCrypto)
    (inputs : TransferProofInputs) : Prop where
  someInput : inputs.inputs.length ≠ 0
  someOutput : ¬(inputs.outputs.length = 0 ∧
    NoPublicAmount inputs.publicAmount)
  hasRoot : inputs.merkleRoot ≠ ""
  merkleProofs : ∀ input ∈ inputs.inputs,
    verifyMerkleProof crypto input.commitment input.merkleProof
      inputs.merkleRoot input.leafIndex = true
  balanced : Balanced inputs

/-- The initialized prover resolves exactly for the transfers that pass its
checks. -/
theorem generateTransferProof_returns_iff
    (crypto : UtilCrypto)
    (provingKey : Uint8Array)
    (inputs : TransferProofInputs) :
    (∃ result, generateTransferProof crypto { provingKey := some provingKey }
      inputs = .ok result) ↔
      PassesChecks crypto inputs := by
  unfold generateTransferProof validateInputs
  simp only [bind_eq_ok_iff, throwIf_eq_ok_iff, returned_eq_ok_iff,
    sumValues_eq_ok_iff, bigIntOfString_eq_ok_iff, exists_const]
  constructor
  · rintro ⟨_, _, ⟨someInput, someOutput, hasRoot⟩, newCommitments, _,
      merkleProofs, _, ⟨inputValues, inputsRead, rfl⟩, _,
      ⟨outputValues, outputsRead, rfl⟩, publicAmount, amountRead, balance, _⟩
    exact {
      someInput := someInput
      someOutput := someOutput
      hasRoot := hasRoot
      merkleProofs := fun input member => by
        by_contra invalid
        exact merkleProofs ⟨input, member, Bool.eq_false_iff.mpr invalid⟩
      balanced := ⟨inputValues, outputValues, publicAmount, inputsRead,
        outputsRead, amountRead, not_not.mp balance⟩ }
  · intro passes
    obtain ⟨inputValues, outputValues, publicAmount, inputsRead, outputsRead,
      amountRead, balance⟩ := passes.balanced
    obtain ⟨newCommitments, commitmentsReturn⟩ : ∃ newCommitments,
        inputs.outputs.mapM (fun out =>
          computeCommitment crypto out.value out.secret out.recipient) =
            .ok newCommitments := by
      apply mapM_returns
      intro out member
      obtain ⟨number, reads⟩ := outputsRead.exists_of_mem
        (List.mem_map_of_mem member)
      exact ⟨_, (computeCommitment_eq_ok_iff _ _ _ _ _).mpr
        ⟨number, reads, rfl⟩⟩
    refine ⟨_, by simp, ⟨passes.someInput, passes.someOutput, passes.hasRoot⟩,
      newCommitments, commitmentsReturn, ?_, _, ⟨inputValues, inputsRead, rfl⟩,
      _, ⟨outputValues, outputsRead, rfl⟩, publicAmount, amountRead,
      not_not.mpr balance, rfl⟩
    rintro ⟨input, member, invalid⟩
    rw [passes.merkleProofs input member] at invalid
    cases invalid

/-! ## Soundness -/

/-- Every claimed commitment opens to the fields of its input, no commitment is
claimed twice, and no value is negative. -/
structure HonestClaims
    (crypto : UtilCrypto)
    (inputs : TransferProofInputs) : Prop where
  opens : ∀ input ∈ inputs.inputs,
    computeCommitment crypto input.value input.secret input.recipient =
      .ok input.commitment
  distinct : (inputs.inputs.map fun input => input.commitment).Nodup
  nonnegative : ∀ text,
    (text ∈ inputs.inputs.map (fun i => i.value) ∨
      text ∈ inputs.outputs.map (fun o => o.value) ∨
      text = publicAmountOf inputs.publicAmount) ->
    ∀ number, stringToBigInt text = some number -> 0 ≤ number

/-- A sound transfer: its claims are honest and its values balance. -/
structure SoundTransfer
    (crypto : UtilCrypto)
    (inputs : TransferProofInputs) : Prop extends
    HonestClaims crypto inputs where
  balanced : Balanced inputs

/-- **The prover is sound exactly where its checks leave no dishonest claim.** -/
theorem generateTransferProof_sound_iff
    (crypto : UtilCrypto)
    (provingKey : Uint8Array)
    (inputs : TransferProofInputs) :
    (∀ result, generateTransferProof crypto
        { provingKey := some provingKey } inputs = .ok result ->
      SoundTransfer crypto inputs) ↔
      (PassesChecks crypto inputs -> HonestClaims crypto inputs) := by
  rw [← generateTransferProof_returns_iff crypto provingKey inputs]
  constructor
  · rintro sound ⟨result, returns⟩
    exact (sound result returns).toHonestClaims
  · intro honest result returns
    have passes := (generateTransferProof_returns_iff crypto provingKey
      inputs).mp ⟨result, returns⟩
    exact {
      toHonestClaims := honest ⟨result, returns⟩
      balanced := passes.balanced }

/-- A withdrawal of five units whose commitment is the root itself. -/
def mintedWithdrawal : TransferProofInputs where
  inputs :=
    [{ commitment := sampleCrypto.u8aToHex (sampleKey 9)
       value := "5"
       secret := sampleCrypto.u8aToHex (sampleKey 1)
       recipient := sampleCrypto.u8aToHex (sampleKey 2)
       merkleProof := []
       leafIndex := 0 }]
  outputs := []
  merkleRoot := sampleCrypto.u8aToHex (sampleKey 9)
  publicAmount := some "5"

/-- A withdrawal passes whose commitment is no hash of its fields. -/
theorem generateTransferProof_mints :
    ¬∀ (crypto : UtilCrypto) (provingKey : Uint8Array)
        (inputs : TransferProofInputs) (result : ZKProof),
      generateTransferProof crypto { provingKey := some provingKey } inputs =
        .ok result ->
      SoundTransfer crypto inputs := by
  intro sound
  have five : stringToBigInt "5" = some 5 := by decide
  have passes : PassesChecks sampleCrypto mintedWithdrawal := {
    someInput := by simp [mintedWithdrawal]
    someOutput := by simp [mintedWithdrawal, NoPublicAmount, publicAmountOf]
    hasRoot := by decide
    merkleProofs := by
      intro input member
      obtain rfl := List.mem_singleton.mp member
      change (sampleCrypto.u8aToHex (sampleCrypto.hexToU8a
        (sampleCrypto.u8aToHex (sampleKey 9))) == _) = true
      rw [sampleCrypto_hexRoundTrips]
      exact beq_self_eq_true _
    balanced := ⟨[5], [], 5, .cons five .nil, .nil, five, rfl⟩ }
  obtain ⟨result, returns⟩ :=
    (generateTransferProof_returns_iff sampleCrypto [] mintedWithdrawal).mpr
      passes
  have opens := (sound sampleCrypto [] mintedWithdrawal result returns).opens _
    List.mem_cons_self
  obtain ⟨number, reads, hashed⟩ :=
    (computeCommitment_eq_ok_iff _ _ _ _ _).mp opens
  have bytes := sampleCrypto_hexRoundTrips.u8aToHex_inj.mp hashed
  rw [sampleCrypto_hexRoundTrips (sampleKey 2), poseidonHash,
    sampleCrypto_blake2AsU8a_append _ rfl] at bytes
  exact absurd bytes (by decide)

end ZKProver
end Client
end Privachain

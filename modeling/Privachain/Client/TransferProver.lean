import Privachain.Client.UtilCrypto
import Mathlib.Algebra.BigOperators.Group.List.Basic
import Mathlib.Algebra.Ring.Int.Defs

/-!
# The transfer prover

The prover of `createZKProver` works on byte strings: it hashes commitments,
nullifiers and Merkle nodes with the library, checks a transfer, and serializes
the public inputs of its proof.  The proof itself is a placeholder.
-/

namespace Privachain
namespace Client
namespace ZKProver

open Foundation
open Foundation.JavaScript

universe u

/-! ## Data -/

/-- `interface CommitmentInput` -/
structure CommitmentInput where
  commitment : String
  value : String
  secret : String
  recipient : String
  merkleProof : List String
  leafIndex : Int

/-- `interface CommitmentOutput` -/
structure CommitmentOutput where
  value : String
  secret : String
  recipient : String

/-- `interface ZKProof` -/
structure ZKProof where
  proof : Uint8Array
  publicInputs : Uint8Array

/-- `interface TransferProofInputs` -/
structure TransferProofInputs where
  inputs : List CommitmentInput
  outputs : List CommitmentOutput
  merkleRoot : String
  publicAmount : Option String := none

/-- `provingKey`, absent before `initialize`. -/
structure Prover where
  provingKey : Option Uint8Array := none

/-- The prover after `initialize()`. -/
def initialized : Prover where
  provingKey := some (List.replicate 1024 0)

/-! ## Hashing -/

section Hashing

variable (crypto : UtilCrypto)

/-- `poseidonHash(data)` -/
def poseidonHash (data : Uint8Array) : Uint8Array :=
  crypto.blake2AsU8a data

/-- `bigInt.toString(16)` -/
def toHexString (bigInt : Int) : List Char :=
  if bigInt < 0 then '-' :: Nat.toDigits 16 bigInt.natAbs
  else Nat.toDigits 16 bigInt.natAbs

/-- `text.padStart(length, fill)` -/
def padStart (text : List Char) (length : Nat) (fill : Char) : List Char :=
  List.replicate (length - text.length) fill ++ text

/-- `'0x' + hex` -/
def withPrefix (hex : List Char) : String :=
  String.ofList ('0' :: 'x' :: hex)

/-- The bytes of a big integer: at least 64 hex digits are read. -/
def bigIntBytes (bigInt : Int) : Uint8Array :=
  crypto.hexToU8a (withPrefix (padStart (toHexString bigInt) 64 '0'))

/-- `toBigIntBytes(value)` -/
def toBigIntBytes (value : String) : Except Exception Uint8Array := do
  let bigInt ← bigIntOfString value
  return bigIntBytes crypto bigInt

/-- `hashPair(left, right)` -/
def hashPair (left right : Uint8Array) : Uint8Array :=
  poseidonHash crypto (left ++ right)

/-- The loop of `verifyMerkleProof` over the bytes of the siblings. -/
def merkleLoop {α : Type u} (hashPair : α -> α -> α) :
    (currentHash : α) -> (proof : List α) -> (index : Int) -> α
  | currentHash, [], _ => currentHash
  | currentHash, siblingBytes :: proof, index =>
      merkleLoop hashPair
        (if index % 2 = 0 then hashPair currentHash siblingBytes
          else hashPair siblingBytes currentHash)
        proof (index / 2)

/-- `verifyMerkleProof(leaf, proof, root, leafIndex)` -/
def verifyMerkleProof
    (leaf : String)
    (proof : List String)
    (root : String)
    (leafIndex : Int) : Bool :=
  crypto.u8aToHex (merkleLoop (hashPair crypto) (crypto.hexToU8a leaf)
    (proof.map crypto.hexToU8a) leafIndex) == root

/-- The bytes that `computeCommitment` hashes. -/
def commitmentPreimage
    (value secret recipient : String) : Except Exception Uint8Array := do
  let valueBytes ← toBigIntBytes crypto value
  return valueBytes ++ crypto.hexToU8a secret ++ crypto.hexToU8a recipient

/-- `computeCommitment(value, secret, recipient)` -/
def computeCommitment
    (value secret recipient : String) : Except Exception String := do
  let data ← commitmentPreimage crypto value secret recipient
  return crypto.u8aToHex (poseidonHash crypto data)

/-- `computeNullifier(secret, commitment)` -/
def computeNullifier (secret commitment : String) : String :=
  crypto.u8aToHex (poseidonHash crypto
    (crypto.hexToU8a secret ++ crypto.hexToU8a commitment))

end Hashing

/-! ## Public inputs -/

/-- A property of the object given to `serializePublicInputs`. -/
inductive PublicInput
  | list (values : List String)
  | text (value : String)

/-- `serializePublicInputs(inputs)`, on the entries of the object. -/
def serializePublicInputs
    (crypto : UtilCrypto)
    (inputs : List (String × PublicInput)) : Uint8Array :=
  inputs.flatMap fun entry =>
    match entry.2 with
    | .list values => values.flatMap crypto.hexToU8a
    | .text value => crypto.hexToU8a value

/-! ## Proofs -/

/-- `inputs.publicAmount || '0'` -/
def publicAmountOf (publicAmount : Option String) : String :=
  match publicAmount with
  | some amount => if amount = "" then "0" else amount
  | none => "0"

/-- `!inputs.publicAmount || inputs.publicAmount === '0'` -/
def NoPublicAmount (publicAmount : Option String) : Prop :=
  publicAmountOf publicAmount = "0"

instance (publicAmount : Option String) :
    Decidable (NoPublicAmount publicAmount) :=
  inferInstanceAs (Decidable (_ = _))

/-- `validateInputs(inputs)` -/
def validateInputs (inputs : TransferProofInputs) : Except Exception Unit := do
  throwIf (inputs.inputs.length = 0)
    (.error "No input commitments provided")
  throwIf (inputs.outputs.length = 0 ∧ NoPublicAmount inputs.publicAmount)
    (.error "No outputs and no public amount")
  throwIf (inputs.merkleRoot = "") (.error "Merkle root not provided")

/-- `values.reduce((sum, value) => sum + BigInt(value), BigInt(0))` -/
def sumValues (values : List String) : Except Exception Int := do
  let bigInts ← values.mapM bigIntOfString
  return bigInts.sum

/-- `generateGroth16Proof(inputs)` -/
def generateGroth16Proof : Uint8Array := List.replicate 256 0

/-- `generateTransferProof(inputs)` -/
def generateTransferProof
    (crypto : UtilCrypto)
    (prover : Prover)
    (inputs : TransferProofInputs) : Except Exception ZKProof := do
  throwIf (prover.provingKey = none) (.error "Prover not initialized")
  validateInputs inputs
  let nullifiers := inputs.inputs.map fun inp =>
    computeNullifier crypto inp.secret inp.commitment
  let newCommitments ← inputs.outputs.mapM fun out =>
    computeCommitment crypto out.value out.secret out.recipient
  throwIf
    (∃ input ∈ inputs.inputs,
      verifyMerkleProof crypto input.commitment input.merkleProof
        inputs.merkleRoot input.leafIndex = false)
    (.error "Invalid Merkle proof")
  let inputSum ← sumValues (inputs.inputs.map fun i => i.value)
  let outputSum ← sumValues (inputs.outputs.map fun o => o.value)
  let publicAmount ← bigIntOfString (publicAmountOf inputs.publicAmount)
  throwIf (inputSum ≠ outputSum + publicAmount)
    (.error "Input and output values do not balance")
  return {
    proof := generateGroth16Proof
    publicInputs := serializePublicInputs crypto
      [("merkleRoot", .text inputs.merkleRoot),
        ("nullifiers", .list nullifiers),
        ("commitments", .list newCommitments),
        ("publicAmount", .text (publicAmountOf inputs.publicAmount))] }

/-- `generateDepositProof(value, secret, recipient)` -/
def generateDepositProof
    (crypto : UtilCrypto)
    (value secret recipient : String) : Except Exception ZKProof := do
  let commitment ← computeCommitment crypto value secret recipient
  return {
    proof := generateGroth16Proof
    publicInputs := serializePublicInputs crypto
      [("commitment", .text commitment), ("value", .text value)] }

/-- `generateWithdrawProof(input, recipient, merkleRoot)` -/
def generateWithdrawProof
    (crypto : UtilCrypto)
    (prover : Prover)
    (input : CommitmentInput)
    (_recipient : String)
    (merkleRoot : String) : Except Exception ZKProof :=
  generateTransferProof crypto prover
    { inputs := [input]
      outputs := []
      merkleRoot := merkleRoot
      publicAmount := some input.value }

end ZKProver
end Client
end Privachain

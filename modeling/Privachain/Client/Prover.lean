import Privachain.Circuit.Field
import Privachain.Foundation.JavaScript

/-!
# Hashing in the client

The client hashes with the circuit's Poseidon function.  Inputs are big
integers, numbers or strings; each is converted by `BigInt` and reduced into
the field, and the hash is returned as the decimal string of its canonical
representative.
-/

namespace Privachain
namespace Client

open Circuit
open Foundation
open Foundation.JavaScript

/-- The part of `CircuitInterface` that hashing reads: the Poseidon function,
absent before `initializeProver`. -/
structure CircuitInterface where
  poseidon : Option (List Fr -> Fr)

/-- `bigint | number | string`; numbers are safe integers. -/
inductive HashInput
  | bigint (value : Int)
  | number (value : Int)
  | string (text : String)
  deriving DecidableEq

/-- The conversion of one input by `hash`. -/
def HashInput.toBigInt : HashInput -> Except Exception Int
  | .bigint value => .ok value
  | .number value => .ok value
  | .string text => bigIntOfString text

/-- `F.toString`: the canonical representative in decimal. -/
def fieldToString (value : Fr) : String :=
  bigIntToString value.val

/-- `hash(...inputs)` -/
def hash
    (circuit : CircuitInterface)
    (inputs : List HashInput) : Except Exception String :=
  match circuit.poseidon with
  | none => .error (.error
      "Prover not initialized. Call initializeProver() first.")
  | some poseidon => do
      let bigInts ← inputs.mapM HashInput.toBigInt
      .ok (fieldToString (poseidon (bigInts.map Int.cast)))

/-- `computeCommitment(amount, secret, recipient)` -/
def computeCommitment
    (circuit : CircuitInterface)
    (amount secret recipient : Int) : Except Exception String :=
  hash circuit [.bigint amount, .bigint secret, .bigint recipient]

/-- `computeNullifier(commitment, secret)` -/
def computeNullifier
    (circuit : CircuitInterface)
    (commitment : String)
    (secret : Int) : Except Exception String :=
  hash circuit [.string commitment, .bigint secret]

/-! ## Strings read as field elements -/

/-- A string read as a field element, as the witness calculator normalizes its
inputs. -/
def readField (text : String) : Option Fr :=
  (stringToBigInt text).map Int.cast

/-- A decimal integer reads as its residue. -/
@[simp] theorem readField_bigIntToString (value : Int) :
    readField (bigIntToString value) = some (value : Fr) := by
  rw [readField, stringToBigInt_bigIntToString]
  rfl

/-- A printed field element reads as itself. -/
@[simp] theorem readField_fieldToString (value : Fr) :
    readField (fieldToString value) = some value := by
  rw [fieldToString, readField_bigIntToString, Int.cast_natCast,
    ZMod.natCast_zmod_val]

/-- Different field elements print differently. -/
theorem fieldToString_inj (value other : Fr) :
    fieldToString value = fieldToString other ↔ value = other := by
  refine ⟨fun same => ?_, congrArg fieldToString⟩
  simpa using congrArg readField same

@[simp] theorem readField_zero : readField "0" = some 0 := by
  decide

/-! ## The hashes of an initialized prover -/

/-- The prover after `initializeProver`. -/
def initialized (poseidon : List Fr -> Fr) : CircuitInterface where
  poseidon := some poseidon

/-- A nullifier is computed exactly from the commitments that `BigInt`
accepts. -/
theorem computeNullifier_eq_ok_iff
    (poseidon : List Fr -> Fr)
    (commitment : String)
    (secret : Int)
    (nullifier : String) :
    computeNullifier (initialized poseidon) commitment secret =
        .ok nullifier ↔
      ∃ value : Fr, readField commitment = some value ∧
        nullifier = fieldToString (poseidon [value, (secret : Fr)]) := by
  rw [readField]
  cases parsed : stringToBigInt commitment with
  | none =>
      have thrown : computeNullifier (initialized poseidon) commitment secret =
          .error (.syntaxError s!"Cannot convert {commitment} to a BigInt") := by
        simp [computeNullifier, hash, initialized, List.mapM_cons,
          HashInput.toBigInt, bigIntOfString, parsed, bind, Except.bind]
      simp [thrown]
  | some value =>
      have returned : computeNullifier (initialized poseidon) commitment
          secret = .ok (fieldToString
            (poseidon [(value : Fr), (secret : Fr)])) := by
        simp [computeNullifier, hash, initialized, List.mapM_cons,
          HashInput.toBigInt, bigIntOfString, parsed, bind, Except.bind,
          pure, Except.pure]
      simp [returned, eq_comm]

end Client
end Privachain

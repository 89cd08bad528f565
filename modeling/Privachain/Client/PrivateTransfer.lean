import Privachain.Client.CoinSelection
import Privachain.Client.InputValidation
import Privachain.Client.Submission

/-!
# Private transfers

`executePrivateTransfer` selects inputs, creates outputs, proves the transfer
and submits it.  Its segments between two awaits are definitions of their own;
only the first one reads the wallet, and only the callback writes it.
-/

namespace Privachain
namespace Client

open Foundation
open Foundation.JavaScript

/-! ## Proofs -/

/-- The coordinates of a Groth16 proof that are formatted for the chain. -/
structure Groth16Proof where
  piA : String × String
  piB : (String × String) × (String × String)
  piC : String × String
  deriving DecidableEq

/-- The result of `generateProof`. -/
structure GeneratedProof where
  proof : Groth16Proof
  publicSignals : List String
  deriving DecidableEq

/-- `snarkjs.groth16`, with the keys that `initializeProver` may have loaded. -/
structure ProofSystem where
  zkeyBuffer : Option (List UInt8)
  vKey : Option String
  fullProve : CircuitInput -> List UInt8 -> Except Exception GeneratedProof
  verify : String -> List String -> Groth16Proof -> Except Exception Bool

/-- `generateProof(circuitInput)` -/
def generateProof
    (proofSystem : ProofSystem)
    (circuitInput : CircuitInput) : Except Exception GeneratedProof :=
  match proofSystem.zkeyBuffer with
  | none =>
      .error (.error "Proving key not loaded. Run trusted setup first.")
  | some zkeyBuffer => proofSystem.fullProve circuitInput zkeyBuffer

/-- `verifyProof(proof, publicSignals)`: true without a verification key, false
when the verification throws. -/
def verifyProof
    (proofSystem : ProofSystem)
    (proof : Groth16Proof)
    (publicSignals : List String) : Bool :=
  match proofSystem.vKey with
  | none => true
  | some vKey =>
      match proofSystem.verify vKey publicSignals proof with
      | .ok isValid => isValid
      | .error _ => false

/-- `getMerkleProof(api, commitment, leafIndex)`: the mock data of the
source. -/
def getMerkleProof (_commitment : String) (_leafIndex : Optional Int) :
    MerkleProofData where
  root := "0"
  pathElements := List.replicate 20 "0"
  pathIndices := List.replicate 20 0

/-- `interface ProofData` -/
structure ProofData where
  a : String × String
  b : (String × String) × (String × String)
  c : String × String
  deriving DecidableEq

/-- `proofForChain` -/
def proofForChain (proof : Groth16Proof) : ProofData where
  a := proof.piA
  b := proof.piB
  c := proof.piC

/-! ## `executePrivateTransfer` -/

/-- The parameters of a transfer that are not handles to the chain. -/
structure TransferParams where
  recipientPubkey : Int
  amount : Int
  myPubkey : Int
  deriving DecidableEq

/-- What a transfer uses outside of the wallet: the prover and the draws for its
two outputs. -/
structure TransferEnvironment where
  circuit : CircuitInterface
  proofSystem : ProofSystem
  paymentPlatform : Platform
  changePlatform : Platform

/-- The input notes and the output notes of a transfer. -/
structure TransferNotes where
  selectedNotes : List Note
  outputNotes : List Note
  deriving DecidableEq

/-- Steps 1 and 2: select the inputs and create the outputs. -/
def chooseNotes
    (environment : TransferEnvironment)
    (params : TransferParams)
    (storage : LocalStorage) : Except Exception TransferNotes := do
  let selection ← selectNotesForTransfer storage params.amount 4
  let payment ← createNote environment.circuit environment.paymentPlatform
    params.amount params.recipientPubkey
  if selection.changeAmount > 0 then
    let change ← createNote environment.circuit environment.changePlatform
      selection.changeAmount params.myPubkey
    return {
      selectedNotes := selection.selectedNotes
      outputNotes := [payment, change] }
  else
    return {
      selectedNotes := selection.selectedNotes
      outputNotes := [payment] }

/-- A selected note as the adapter gets it. -/
def inputApplicationNote (note : Note) : ApplicationNote where
  amount := note.amount
  secret := note.secret
  recipient := note.recipient
  leafIndex :=
    match note.leafIndex with
    | .value leafIndex => some leafIndex
    | _ => none
  commitment := some note.commitment

/-- An output note as the adapter gets it. -/
def outputApplicationNote (note : Note) : ApplicationNote where
  amount := note.amount
  secret := note.secret
  recipient := note.recipient

/-- Steps 4 and 5, after the Merkle proofs: prepare and validate the circuit
input. -/
def prepareTransfer
    (environment : TransferEnvironment)
    (notes : TransferNotes)
    (merkleProofs : List MerkleProofData) : Except Exception PreparedInput := do
  let prepared ← prepareCircuitInput environment.circuit
    (notes.selectedNotes.map inputApplicationNote)
    (notes.outputNotes.map outputApplicationNote)
    merkleProofs
  let validation := validateCircuitInput prepared.circuitInput.toValue
  throwIf (validation.valid = false)
    (.error ("Invalid circuit input: " ++
      String.intercalate ", " validation.errors))
  return prepared

/-- `api.tx.zkPrivacy.privateTransfer({ .. })` -/
structure PrivateTransferCall where
  nullifiers : List String
  commitments : List String
  proof : ProofData
  publicSignals : List String
  deriving DecidableEq

/-- A submitted transfer, and the notes that its callback closes over. -/
structure PendingTransfer where
  notes : TransferNotes
  tx : PrivateTransferCall
  deriving DecidableEq

/-- Steps 7 to 9, after the local verification: format the proof and submit. -/
def submitTransfer
    (notes : TransferNotes)
    (prepared : PreparedInput)
    (generated : GeneratedProof)
    (isValid : Bool) : Except Exception PendingTransfer := do
  throwIf (isValid = false) (.error "Local proof verification failed")
  return {
    notes := notes
    tx :=
      { nullifiers := prepared.nullifiers
        commitments := prepared.outCommitments
        proof := proofForChain generated.proof
        publicSignals := generated.publicSignals } }

/-- `executePrivateTransfer(params)`, up to `signAndSend`, with its segments in
their order. -/
def executePrivateTransfer
    (environment : TransferEnvironment)
    (params : TransferParams)
    (storage : LocalStorage) : Except Exception PendingTransfer := do
  let notes ← chooseNotes environment params storage
  let merkleProofs := notes.selectedNotes.map fun note =>
    getMerkleProof note.commitment note.leafIndex
  let prepared ← prepareTransfer environment notes merkleProofs
  let generated ← generateProof environment.proofSystem prepared.circuitInput
  let isValid := verifyProof environment.proofSystem generated.proof
    generated.publicSignals
  submitTransfer notes prepared generated isValid

/-- An entry of `newNotes`: an output note without its time. -/
def newNote (note : Note) : Note where
  commitment := note.commitment
  amount := note.amount
  secret := note.secret
  recipient := note.recipient
  leafIndex := .undefined
  spent := false

/-- The commitments of the inputs. -/
def TransferNotes.inputCommitments (notes : TransferNotes) : List String :=
  notes.selectedNotes.map Note.commitment

/-- What the callback does with the stored notes when the transfer is in a
block. -/
def TransferNotes.onInBlock (notes : TransferNotes) (storage : LocalStorage) :
    LocalStorage :=
  addReceivedNotes (notes.outputNotes.map newNote)
    (markNotesSpent notes.inputCommitments storage)

/-- The wallet after the events of the transfer. -/
def PendingTransfer.follow
    (pending : PendingTransfer)
    (storage : LocalStorage)
    (events : List ClientEvent) : Subscription :=
  Subscription.follow pending.notes.onInBlock storage events

/-! ## What is submitted -/

/-- The chosen notes: a selection, a payment and, for a positive change, a
change note. -/
theorem chooseNotes_eq_ok_iff
    (environment : TransferEnvironment)
    (params : TransferParams)
    (storage : LocalStorage)
    (notes : TransferNotes) :
    chooseNotes environment params storage = .ok notes ↔
      ∃ selection payment,
        selectNotesForTransfer storage params.amount 4 = .ok selection ∧
        createNote environment.circuit environment.paymentPlatform
          params.amount params.recipientPubkey = .ok payment ∧
        notes.selectedNotes = selection.selectedNotes ∧
        ((selection.changeAmount ≤ 0 ∧ notes.outputNotes = [payment]) ∨
          0 < selection.changeAmount ∧ ∃ change,
            createNote environment.circuit environment.changePlatform
              selection.changeAmount params.myPubkey = .ok change ∧
            notes.outputNotes = [payment, change]) := by
  unfold chooseNotes
  simp only [bind_eq_ok_iff]
  constructor
  · rintro ⟨selection, selects, payment, pays, returned⟩
    refine ⟨selection, payment, selects, pays, ?_⟩
    by_cases positive : selection.changeAmount > 0
    · rw [if_pos positive, bind_eq_ok_iff] at returned
      obtain ⟨change, changes, returned⟩ := returned
      cases returned
      exact ⟨rfl, .inr ⟨positive, change, changes, rfl⟩⟩
    · rw [if_neg positive] at returned
      cases returned
      exact ⟨rfl, .inl ⟨Int.not_lt.mp positive, rfl⟩⟩
  · obtain ⟨selectedNotes, outputNotes⟩ := notes
    rintro ⟨selection, payment, selects, pays, rfl, noChange | withChange⟩
    · obtain ⟨notPositive, rfl⟩ := noChange
      refine ⟨selection, selects, payment, pays, ?_⟩
      rw [if_neg (Int.not_lt.mpr notPositive)]
      rfl
    · obtain ⟨positive, change, changes, rfl⟩ := withChange
      refine ⟨selection, selects, payment, pays, ?_⟩
      rw [if_pos positive, bind_eq_ok_iff]
      exact ⟨change, changes, rfl⟩

/-- The prepared input is the adapter's, when it is valid. -/
theorem prepareTransfer_eq_ok_iff
    (environment : TransferEnvironment)
    (notes : TransferNotes)
    (merkleProofs : List MerkleProofData)
    (prepared : PreparedInput) :
    prepareTransfer environment notes merkleProofs = .ok prepared ↔
      prepareCircuitInput environment.circuit
        (notes.selectedNotes.map inputApplicationNote)
        (notes.outputNotes.map outputApplicationNote) merkleProofs =
          .ok prepared ∧
      (validateCircuitInput prepared.circuitInput.toValue).valid = true := by
  unfold prepareTransfer
  simp only [bind_eq_ok_iff, throwIf_eq_ok_iff, Bool.not_eq_false,
    exists_const]
  constructor
  · rintro ⟨_, prepares, valid, ⟨⟩⟩
    exact ⟨prepares, valid⟩
  · rintro ⟨prepares, valid⟩
    exact ⟨prepared, prepares, valid, rfl⟩

/-- A transfer is submitted exactly when each of its segments returns. -/
theorem executePrivateTransfer_eq_ok_iff
    (environment : TransferEnvironment)
    (params : TransferParams)
    (storage : LocalStorage)
    (pending : PendingTransfer) :
    executePrivateTransfer environment params storage = .ok pending ↔
      ∃ notes prepared generated,
        chooseNotes environment params storage = .ok notes ∧
        prepareTransfer environment notes (notes.selectedNotes.map fun note =>
          getMerkleProof note.commitment note.leafIndex) = .ok prepared ∧
        generateProof environment.proofSystem prepared.circuitInput =
          .ok generated ∧
        submitTransfer notes prepared generated
          (verifyProof environment.proofSystem generated.proof
            generated.publicSignals) = .ok pending := by
  unfold executePrivateTransfer
  simp only [bind_eq_ok_iff]
  constructor
  · rintro ⟨notes, chosen, prepared, prepares, generated, proves, submits⟩
    exact ⟨notes, prepared, generated, chosen, prepares, proves, submits⟩
  · rintro ⟨notes, prepared, generated, chosen, prepares, proves, submits⟩
    exact ⟨notes, chosen, prepared, prepares, generated, proves, submits⟩

/-- A verified proof is submitted with the chosen notes. -/
theorem submitTransfer_eq_ok_iff
    (notes : TransferNotes)
    (prepared : PreparedInput)
    (generated : GeneratedProof)
    (isValid : Bool)
    (pending : PendingTransfer) :
    submitTransfer notes prepared generated isValid = .ok pending ↔
      isValid = true ∧
      pending =
        { notes := notes
          tx :=
            { nullifiers := prepared.nullifiers
              commitments := prepared.outCommitments
              proof := proofForChain generated.proof
              publicSignals := generated.publicSignals } } := by
  unfold submitTransfer
  simp only [bind_eq_ok_iff, throwIf_eq_ok_iff, Bool.not_eq_false,
    exists_const]
  exact and_congr_right fun _ => returned_eq_ok_iff _ _

/-- The notes of a submitted transfer are chosen from the wallet. -/
theorem chooseNotes_of_executePrivateTransfer
    {environment : TransferEnvironment}
    {params : TransferParams}
    {storage : LocalStorage}
    {pending : PendingTransfer}
    (submits : executePrivateTransfer environment params storage =
      .ok pending) :
    chooseNotes environment params storage = .ok pending.notes := by
  obtain ⟨notes, prepared, generated, chosen, _, _, submitted⟩ :=
    (executePrivateTransfer_eq_ok_iff _ _ _ _).mp submits
  obtain ⟨_, rfl⟩ := (submitTransfer_eq_ok_iff _ _ _ _ _).mp submitted
  exact chosen

/-- The payment is the first output note. -/
theorem chooseNotes_payment
    {environment : TransferEnvironment}
    {params : TransferParams}
    {storage : LocalStorage}
    {notes : TransferNotes}
    (chosen : chooseNotes environment params storage = .ok notes) :
    ∃ payment ∈ notes.outputNotes, payment.recipient = params.recipientPubkey ∧
      payment.amount = params.amount := by
  obtain ⟨_, payment, _, pays, _, outputs⟩ :=
    (chooseNotes_eq_ok_iff _ _ _ _).mp chosen
  obtain ⟨_, _, rfl⟩ := (createNote_eq_ok_iff _ _ _ _ _ _).mp pays
  rcases outputs with ⟨_, outputs⟩ | ⟨_, _, _, outputs⟩
  · exact ⟨_, by rw [outputs]; exact List.mem_cons_self, rfl, rfl⟩
  · exact ⟨_, by rw [outputs]; exact List.mem_cons_self, rfl, rfl⟩

/-! ## Transfers that are submitted -/

/-- A prover with its keys that accepts every circuit input. -/
structure ProofSystem.Accepting (proofSystem : ProofSystem) : Prop where
  generates : ∀ circuitInput, ∃ generated,
    generateProof proofSystem circuitInput = .ok generated ∧
    verifyProof proofSystem generated.proof generated.publicSignals = true

/-- An initialized prover computes every commitment. -/
theorem computeCommitment_returns
    (poseidon : List Circuit.Fr -> Circuit.Fr)
    (amount secret recipient : Int) :
    ∃ commitment,
      computeCommitment (initialized poseidon) amount secret recipient =
        .ok commitment :=
  ⟨_, rfl⟩

/-- An initialized prover creates every note. -/
theorem createNote_returns
    (poseidon : List Circuit.Fr -> Circuit.Fr)
    (platform : Platform)
    (amount recipient : Int)
    (secret : Option Int) :
    ∃ note, createNote (initialized poseidon) platform amount recipient secret =
      .ok note := by
  obtain ⟨commitment, computes⟩ := computeCommitment_returns poseidon amount
    (noteSecret platform secret) recipient
  exact ⟨_, (createNote_eq_ok_iff _ _ _ _ _ _).mpr ⟨commitment, computes, rfl⟩⟩

/-- The inputs and the outputs of the chosen notes have the same sum. -/
theorem chooseNotes_balanced
    {environment : TransferEnvironment}
    {params : TransferParams}
    {storage : LocalStorage}
    {notes : TransferNotes}
    (positive : 0 < params.amount)
    (chosen : chooseNotes environment params storage = .ok notes) :
    totalAmountOf notes.selectedNotes = totalAmountOf notes.outputNotes := by
  obtain ⟨selection, payment, selects, pays, selected, outputs⟩ :=
    (chooseNotes_eq_ok_iff _ _ _ _).mp chosen
  obtain ⟨_, _, _, total, change, enough, _⟩ :=
    selectNotesForTransfer_takes_prefix positive selects
  obtain ⟨_, _, rfl⟩ := (createNote_eq_ok_iff _ _ _ _ _ _).mp pays
  rw [selected, ← total]
  rcases outputs with ⟨noChange, outputs⟩ | ⟨_, _, changes, outputs⟩
  · rw [outputs, totalAmountOf_cons, totalAmountOf_nil]
    dsimp only
    omega
  · obtain ⟨_, _, rfl⟩ := (createNote_eq_ok_iff _ _ _ _ _ _).mp changes
    rw [outputs, totalAmountOf_cons, totalAmountOf_cons, totalAmountOf_nil]
    dsimp only
    omega

/-- At least one note is selected, and at most four. -/
theorem chooseNotes_selected_length
    {environment : TransferEnvironment}
    {params : TransferParams}
    {storage : LocalStorage}
    {notes : TransferNotes}
    (positive : 0 < params.amount)
    (chosen : chooseNotes environment params storage = .ok notes) :
    0 < notes.selectedNotes.length ∧ notes.selectedNotes.length ≤ 4 := by
  obtain ⟨selection, _, selects, _, selected, _⟩ :=
    (chooseNotes_eq_ok_iff _ _ _ _).mp chosen
  obtain ⟨size, fits, takes, total, _, enough, few, _⟩ :=
    selectNotesForTransfer_takes_prefix positive selects
  have counted : notes.selectedNotes.length = size := by
    rw [selected, takes, List.length_take, Nat.min_eq_left fits]
  rw [counted]
  refine ⟨Nat.pos_of_ne_zero ?_, by omega⟩
  rintro rfl
  rw [takes, List.take_zero, totalAmountOf_nil] at total
  omega

/-- One or two notes are created. -/
theorem chooseNotes_output_length
    {environment : TransferEnvironment}
    {params : TransferParams}
    {storage : LocalStorage}
    {notes : TransferNotes}
    (chosen : chooseNotes environment params storage = .ok notes) :
    0 < notes.outputNotes.length ∧ notes.outputNotes.length ≤ 2 := by
  obtain ⟨_, _, _, _, _, outputs⟩ := (chooseNotes_eq_ok_iff _ _ _ _).mp chosen
  rcases outputs with ⟨_, outputs⟩ | ⟨_, _, _, outputs⟩
  · simp [outputs]
  · simp [outputs]

/-- The sum that the adapter computes. -/
theorem sumAmounts_map
    (notes : List Note)
    (toApplicationNote : Note -> ApplicationNote)
    (sameAmount : ∀ note, (toApplicationNote note).amount = note.amount) :
    sumAmounts (notes.map toApplicationNote) = totalAmountOf notes := by
  have amounts : (notes.map toApplicationNote).map (·.amount) =
      notes.map Note.amount := by
    rw [List.map_map]
    exact List.map_congr_left fun note _ => sameAmount note
  rw [sumAmounts_eq_sum, amounts]
  rfl

/-- The nullifiers of notes with numerals as commitments are computed. -/
theorem inputNullifiers_return
    {poseidon : List Circuit.Fr -> Circuit.Fr}
    {circuit : CircuitInterface}
    (prover : circuit = initialized poseidon)
    {selectedNotes : List Note}
    (numerals : ∀ note ∈ selectedNotes, note.commitment ≠ "" ∧
      ∃ value, readField note.commitment = some value) :
    ∃ nullifiers,
      (selectedNotes.map inputApplicationNote).mapM (inputNullifier circuit) =
        .ok nullifiers := by
  apply mapM_returns
  intro input member
  obtain ⟨note, isSelected, rfl⟩ := List.mem_map.mp member
  obtain ⟨notEmpty, value, reads⟩ := numerals note isSelected
  obtain ⟨nullifier, computes⟩ : ∃ nullifier,
      computeNullifier circuit note.commitment note.secret = .ok nullifier := by
    rw [prover]
    exact ⟨_, (computeNullifier_eq_ok_iff _ _ _ _).mpr ⟨value, reads, rfl⟩⟩
  have stored : inputCommitment circuit (inputApplicationNote note) =
      .ok note.commitment := by
    simp [inputCommitment, inputApplicationNote, notEmpty]
  exact ⟨nullifier, (bind_eq_ok_iff _ _ _).mpr
    ⟨note.commitment, stored, computes⟩⟩

/-- The commitments of the output notes are computed. -/
theorem outputCommitments_return
    {poseidon : List Circuit.Fr -> Circuit.Fr}
    {circuit : CircuitInterface}
    (prover : circuit = initialized poseidon)
    (outputNotes : List Note) :
    ∃ outCommitments,
      (outputNotes.map outputApplicationNote).mapM (outputCommitment circuit) =
        .ok outCommitments := by
  apply mapM_returns
  intro output _
  rw [outputCommitment, prover]
  exact computeCommitment_returns poseidon _ _ _

/-- Chosen notes with numerals as commitments are prepared for the prover. -/
theorem prepareTransfer_returns
    {poseidon : List Circuit.Fr -> Circuit.Fr}
    {environment : TransferEnvironment}
    (prover : environment.circuit = initialized poseidon)
    {params : TransferParams}
    (positive : 0 < params.amount)
    {storage : LocalStorage}
    {notes : TransferNotes}
    (chosen : chooseNotes environment params storage = .ok notes)
    (numerals : ∀ note ∈ notes.selectedNotes, note.commitment ≠ "" ∧
      ∃ value, readField note.commitment = some value) :
    ∃ prepared,
      prepareTransfer environment notes (notes.selectedNotes.map fun note =>
        getMerkleProof note.commitment note.leafIndex) = .ok prepared := by
  obtain ⟨someInput, fewInputs⟩ := chooseNotes_selected_length positive chosen
  obtain ⟨someOutput, fewOutputs⟩ := chooseNotes_output_length chosen
  obtain ⟨nullifiers, nullifiersReturn⟩ := inputNullifiers_return prover numerals
  obtain ⟨outCommitments, commitmentsReturn⟩ :=
    outputCommitments_return prover notes.outputNotes
  have balanced :
      sumAmounts (notes.selectedNotes.map inputApplicationNote) =
        sumAmounts (notes.outputNotes.map outputApplicationNote) := by
    rw [sumAmounts_map _ _ fun _ => rfl, sumAmounts_map _ _ fun _ => rfl]
    exact chooseNotes_balanced positive chosen
  obtain ⟨first, atHead⟩ : ∃ first,
      (notes.selectedNotes.map fun note =>
        getMerkleProof note.commitment note.leafIndex).head? = some first := by
    cases selected : notes.selectedNotes with
    | nil => simp [selected] at someInput
    | cons note rest => exact ⟨_, rfl⟩
  have prepares := (prepareCircuitInput_eq_ok_iff environment.circuit
    (notes.selectedNotes.map inputApplicationNote)
    (notes.outputNotes.map outputApplicationNote)
    (notes.selectedNotes.map fun note =>
      getMerkleProof note.commitment note.leafIndex) _).mpr
    ⟨⟨by rwa [List.length_map], by rwa [List.length_map]⟩,
      ⟨by rwa [List.length_map], by
        rw [List.length_map]
        exact fewOutputs.trans (by decide)⟩,
      by rw [List.length_map, List.length_map], balanced,
      nullifiers, outCommitments, first, nullifiersReturn, commitmentsReturn,
      atHead, rfl⟩
  refine ⟨_, (prepareTransfer_eq_ok_iff _ _ _ _).mpr ⟨prepares, ?_⟩⟩
  rw [validateCircuitInput_paddedCircuitInput]
  · rwa [List.length_map]
  · rw [List.length_map]
    exact fewOutputs.trans (by decide)
  · rwa [List.length_map]
  · intro merkleProof member
    obtain ⟨note, _, rfl⟩ := List.mem_map.mp member
    exact List.length_replicate

/-- An initialized wallet with an accepting prover submits every transfer that
it can select inputs for, when their commitments are numerals. -/
theorem executePrivateTransfer_returns
    {poseidon : List Circuit.Fr -> Circuit.Fr}
    {environment : TransferEnvironment}
    (prover : environment.circuit = initialized poseidon)
    (accepting : environment.proofSystem.Accepting)
    {params : TransferParams}
    (positive : 0 < params.amount)
    {storage : LocalStorage}
    {selection : Selection}
    (selects : selectNotesForTransfer storage params.amount 4 = .ok selection)
    (numerals : ∀ note ∈ selection.selectedNotes, note.commitment ≠ "" ∧
      ∃ value, readField note.commitment = some value) :
    ∃ pending,
      executePrivateTransfer environment params storage = .ok pending := by
  obtain ⟨notes, chosen, selected⟩ : ∃ notes,
      chooseNotes environment params storage = .ok notes ∧
      notes.selectedNotes = selection.selectedNotes := by
    obtain ⟨payment, pays⟩ := createNote_returns poseidon
      environment.paymentPlatform params.amount params.recipientPubkey none
    obtain ⟨change, changes⟩ := createNote_returns poseidon
      environment.changePlatform selection.changeAmount params.myPubkey none
    rw [← prover] at pays changes
    by_cases isPositive : selection.changeAmount > 0
    · exact ⟨⟨selection.selectedNotes, [payment, change]⟩,
        (chooseNotes_eq_ok_iff _ _ _ _).mpr ⟨selection, payment, selects, pays,
          rfl, .inr ⟨isPositive, change, changes, rfl⟩⟩, rfl⟩
    · exact ⟨⟨selection.selectedNotes, [payment]⟩,
        (chooseNotes_eq_ok_iff _ _ _ _).mpr ⟨selection, payment, selects, pays,
          rfl, .inl ⟨Int.not_lt.mp isPositive, rfl⟩⟩, rfl⟩
  obtain ⟨prepared, prepares⟩ := prepareTransfer_returns prover positive chosen
    (by rwa [selected])
  obtain ⟨generated, proves, verifies⟩ :=
    accepting.generates prepared.circuitInput
  exact ⟨_, (executePrivateTransfer_eq_ok_iff _ _ _ _).mpr
    ⟨notes, prepared, generated, chosen, prepares, proves,
      (submitTransfer_eq_ok_iff _ _ _ _ _).mpr ⟨verifies, rfl⟩⟩⟩

end Client
end Privachain

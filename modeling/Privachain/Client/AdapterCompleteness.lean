import Privachain.Client.AdapterSatisfaction

/-!
# When the adapter's output satisfies the circuit

Every slot of the padded arrays holds the signals of a note: an original one or
the empty note.  An empty slot carries the public value `0`, which is not the
hash of the empty note, so the circuit accepts full arrays only.
-/

namespace Privachain
namespace Client

open Circuit
open Foundation
open Foundation.JavaScript

/-! ## The slots of the padded arrays -/

/-- A padded array of note fields reads as the field of the note in each
slot. -/
theorem readsArray_field_iff
    {size : Nat}
    {notes : List ApplicationNote}
    {entries : Fin size -> Fr}
    (field : ApplicationNote -> Int)
    (emptyField : field emptyNote = 0)
    (bounded : notes.length ≤ size) :
    ReadsArray ReadsString
        (padArray (notes.map fun note => bigIntToString (field note)) size "0")
        entries ↔
      ∀ i : Fin size, (field (notes.getD i emptyNote) : Fr) = entries i := by
  have emptyText : "0" = bigIntToString (field emptyNote) := by
    rw [emptyField]
    decide
  rw [readsArray_padArray_iff (by simpa using bounded)]
  refine forall_congr' fun i => ?_
  rw [emptyText, List.getD_map, ReadsString, readField_bigIntToString,
    Option.some.injEq]

/-- The padded arrays of the three note fields read as the notes of the
slots. -/
theorem readsArray_fields_iff
    {size : Nat}
    {notes : List ApplicationNote}
    {amounts secrets recipients : Fin size -> Fr}
    (bounded : notes.length ≤ size) :
    (ReadsArray ReadsString
        (padArray (notes.map fun note => bigIntToString note.amount) size "0")
        amounts ∧
      ReadsArray ReadsString
        (padArray (notes.map fun note => bigIntToString note.secret) size "0")
        secrets ∧
      ReadsArray ReadsString
        (padArray (notes.map fun note => bigIntToString note.recipient) size
          "0") recipients) ↔
      ∀ i : Fin size, (notes.getD i emptyNote).fields =
        [amounts i, secrets i, recipients i] := by
  rw [readsArray_field_iff (·.amount) rfl bounded,
    readsArray_field_iff (·.secret) rfl bounded,
    readsArray_field_iff (·.recipient) rfl bounded, ← forall_and, ← forall_and]
  refine forall_congr' fun i => ?_
  simp only [ApplicationNote.fields, List.cons.injEq, and_true]

/-- The slots of the circuit input hold the notes, their public values and
their paths. -/
structure HoldsSlots
    (inputNotes outputNotes : List ApplicationNote)
    (merkleProofs : List MerkleProofData)
    (nullifiers outCommitments : List String)
    (signals : MainInputs) : Prop where
  nullifierHashes : ∀ i : Fin maxInputs,
    readField (nullifiers.getD i "0") = some (signals.nullifierHashes i)
  outCommitments : ∀ i : Fin maxOutputs,
    readField (outCommitments.getD i "0") = some (signals.outCommitments i)
  inNote : ∀ i : Fin maxInputs,
    (inputNotes.getD i emptyNote).fields = signals.inNote i
  inPathElements : ∀ i : Fin maxInputs,
    ReadsArray ReadsString
      ((merkleProofs.map fun p => p.pathElements).getD i emptyPath)
      (signals.inPathElements i)
  inPathIndices : ∀ i : Fin maxInputs,
    ReadsArray ReadsNumber
      ((merkleProofs.map fun p => p.pathIndices).getD i emptyIndices)
      (signals.inPathIndices i)
  outNote : ∀ i : Fin maxOutputs,
    (outputNotes.getD i emptyNote).fields = signals.outNote i

/-- Reading the padded arrays is reading the root and every slot. -/
theorem readsAs_paddedCircuitInput_iff
    {root : String}
    {inputNotes outputNotes : List ApplicationNote}
    {merkleProofs : List MerkleProofData}
    {nullifiers outCommitments : List String}
    {signals : MainInputs}
    (inputsBounded : inputNotes.length ≤ maxInputs)
    (outputsBounded : outputNotes.length ≤ maxOutputs)
    (proofsBounded : merkleProofs.length ≤ maxInputs)
    (nullifiersBounded : nullifiers.length ≤ maxInputs)
    (commitmentsBounded : outCommitments.length ≤ maxOutputs) :
    ReadsAs (paddedCircuitInput root inputNotes outputNotes merkleProofs
        nullifiers outCommitments) signals ↔
      readField root = some signals.root ∧
        HoldsSlots inputNotes outputNotes merkleProofs nullifiers
          outCommitments signals := by
  have elementsBounded :
      (merkleProofs.map fun p => p.pathElements).length ≤ maxInputs := by
    simpa using proofsBounded
  have indicesBounded :
      (merkleProofs.map fun p => p.pathIndices).length ≤ maxInputs := by
    simpa using proofsBounded
  constructor
  · intro readsAs
    exact ⟨readsAs.root, {
      nullifierHashes := (readsArray_padArray_iff nullifiersBounded).mp
        readsAs.nullifierHashes
      outCommitments := (readsArray_padArray_iff commitmentsBounded).mp
        readsAs.outCommitments
      inNote := (readsArray_fields_iff inputsBounded).mp
        ⟨readsAs.inAmount, readsAs.inSecret, readsAs.inRecipient⟩
      inPathElements := (readsArray_padArray_iff elementsBounded).mp
        readsAs.inPathElements
      inPathIndices := (readsArray_padArray_iff indicesBounded).mp
        readsAs.inPathIndices
      outNote := (readsArray_fields_iff outputsBounded).mp
        ⟨readsAs.outAmount, readsAs.outSecret, readsAs.outRecipient⟩ }⟩
  · rintro ⟨rootReads, slots⟩
    obtain ⟨inAmount, inSecret, inRecipient⟩ :=
      (readsArray_fields_iff inputsBounded).mpr slots.inNote
    obtain ⟨outAmount, outSecret, outRecipient⟩ :=
      (readsArray_fields_iff outputsBounded).mpr slots.outNote
    exact {
      root := rootReads
      nullifierHashes := (readsArray_padArray_iff nullifiersBounded).mpr
        slots.nullifierHashes
      outCommitments := (readsArray_padArray_iff commitmentsBounded).mpr
        slots.outCommitments
      inAmount := inAmount
      inSecret := inSecret
      inRecipient := inRecipient
      inPathElements := (readsArray_padArray_iff elementsBounded).mpr
        slots.inPathElements
      inPathIndices := (readsArray_padArray_iff indicesBounded).mpr
        slots.inPathIndices
      outAmount := outAmount
      outSecret := outSecret
      outRecipient := outRecipient }

/-! ## What full slots check -/

section Slots

variable {poseidon : List Fr -> Fr} {commonRoot : Fr}
variable {inputNotes outputNotes : List ApplicationNote}
variable {merkleProofs : List MerkleProofData}
variable {nullifiers outCommitments : List String}
variable {signals : MainInputs}

/-- The nullifier that the circuit recomputes in a slot is the one of its
note. -/
theorem HoldsSlots.nullifier_eq
    (slots : HoldsSlots inputNotes outputNotes merkleProofs nullifiers
      outCommitments signals)
    (poseidon : List Fr -> Fr)
    (i : Fin maxInputs) :
    poseidon (signals.nullifierPreimage poseidon i) =
      (inputNotes.getD i emptyNote).nullifier poseidon := by
  have note := slots.inNote i
  have secret : ((inputNotes.getD i emptyNote).secret : Fr) =
      signals.inSecret i := by
    simp only [ApplicationNote.fields, TransactionInputs.inNote,
      List.cons.injEq] at note
    exact note.2.1
  rw [ApplicationNote.nullifier, note, secret]
  rfl

/-- The circuit accepts no padded input slot: its public nullifier is `0`. -/
theorem HoldsSlots.inputs_full
    (slots : HoldsSlots inputNotes outputNotes merkleProofs nullifiers
      outCommitments signals)
    (checks : signals.Checks poseidon)
    (bounded : inputNotes.length ≤ maxInputs)
    (nullifiersLength : nullifiers.length = inputNotes.length)
    (emptyNullifier : poseidon [poseidon [0, 0, 0], 0] ≠ 0) :
    inputNotes.length = maxInputs := by
  by_contra notFull
  have padded : inputNotes.length < maxInputs := by omega
  let slot : Fin maxInputs := ⟨inputNotes.length, padded⟩
  have publicZero : signals.nullifierHashes slot = 0 := by
    have reads := slots.nullifierHashes slot
    rw [List.getD_eq_default _ _ nullifiersLength.le, readField_zero] at reads
    exact (Option.some.inj reads).symm
  apply emptyNullifier
  calc
    poseidon [poseidon [0, 0, 0], 0] = emptyNote.nullifier poseidon := by
      simp [ApplicationNote.nullifier, ApplicationNote.fields, emptyNote]
    _ = (inputNotes.getD slot emptyNote).nullifier poseidon := by
      rw [List.getD_eq_default _ _ le_rfl]
    _ = poseidon (signals.nullifierPreimage poseidon slot) :=
      (slots.nullifier_eq poseidon slot).symm
    _ = signals.nullifierHashes slot := checks.nullifier slot
    _ = 0 := publicZero

/-- The circuit accepts no padded output slot: its public commitment is
`0`. -/
theorem HoldsSlots.outputs_full
    (slots : HoldsSlots inputNotes outputNotes merkleProofs nullifiers
      outCommitments signals)
    (checks : signals.Checks poseidon)
    (bounded : outputNotes.length ≤ maxOutputs)
    (commitmentsLength : outCommitments.length = outputNotes.length)
    (emptyCommitment : poseidon [0, 0, 0] ≠ 0) :
    outputNotes.length = maxOutputs := by
  by_contra notFull
  have padded : outputNotes.length < maxOutputs := by omega
  let slot : Fin maxOutputs := ⟨outputNotes.length, padded⟩
  have publicZero : signals.outCommitments slot = 0 := by
    have reads := slots.outCommitments slot
    rw [List.getD_eq_default _ _ commitmentsLength.le, readField_zero] at reads
    exact (Option.some.inj reads).symm
  apply emptyCommitment
  calc
    poseidon [0, 0, 0] = poseidon emptyNote.fields := by
      simp [ApplicationNote.fields, emptyNote]
    _ = poseidon (outputNotes.getD slot emptyNote).fields := by
      rw [List.getD_eq_default _ _ le_rfl]
    _ = poseidon (signals.outNote slot) := by rw [slots.outNote slot]
    _ = signals.outCommitments slot := checks.outCommitment slot
    _ = 0 := publicZero

/-- In a slot that holds a note with its Merkle proof the circuit computes the
root that the proof opens to. -/
theorem HoldsSlots.pathRoot_eq
    (slots : HoldsSlots inputNotes outputNotes merkleProofs nullifiers
      outCommitments signals)
    (opened : List.Forall₂ (OpensTo poseidon commonRoot) inputNotes
      merkleProofs)
    (i : Fin maxInputs)
    (original : i.val < inputNotes.length) :
    MerkleProof.pathRoot poseidon (signals.inCommitment poseidon i)
      (signals.inPathElements i) (signals.inPathIndices i) = commonRoot := by
  have proofAt : i.val < merkleProofs.length := by
    rw [← opened.length_eq]
    exact original
  have elements := slots.inPathElements i
  have indices := slots.inPathIndices i
  rw [List.getD_eq_getElem _ _ (by simpa using proofAt),
    List.getElem_map] at elements indices
  obtain ⟨pathElements, pathIndices, elementsRead, indicesRead, folds⟩ :=
    (opened.get original proofAt).exists_pathRoot_eq
  rw [ReadsArray.unique ReadsString.unique elements elementsRead,
    ReadsArray.unique ReadsNumber.unique indices indicesRead,
    TransactionInputs.inCommitment, ← slots.inNote i,
    List.getD_eq_getElem _ _ original]
  exact folds

end Slots

/-- The amounts in full slots sum to the integer sum. -/
theorem sum_amount_getD
    {size : Nat}
    {notes : List ApplicationNote}
    (full : notes.length = size) :
    ∑ i : Fin size, ((notes.getD i emptyNote).amount : Fr) =
      ((notes.map (·.amount)).sum : Int) := by
  subst full
  have original : ∀ i : Fin notes.length,
      ((notes.getD i emptyNote).amount : Fr) = (notes[i].amount : Fr) := by
    intro i
    rw [List.getD_eq_getElem _ _ i.isLt]
    rfl
  simp only [original]
  rw [← Int.cast_sum, ← List.sum_ofFn]
  congr 2
  exact List.ofFn_getElem_eq_map notes ApplicationNote.amount

/-! ## When the output satisfies the circuit -/

/-- A transfer fills every slot, carries the common root in its first proof,
and stores only commitments that agree with its notes. -/
structure FitsCircuit
    (poseidon : List Fr -> Fr)
    (commonRoot : Fr)
    (inputNotes outputNotes : List ApplicationNote)
    (merkleProofs : List MerkleProofData) : Prop where
  inputsFull : inputNotes.length = maxInputs
  outputsFull : outputNotes.length = maxOutputs
  firstRoot : ∀ first ∈ merkleProofs.head?,
    readField first.root = some commonRoot
  storedCommitments : ∀ note ∈ inputNotes, note.StoredCommitmentAgrees poseidon

section Transfer

variable {poseidon : List Fr -> Fr} {commonRoot : Fr}
variable {inputNotes outputNotes : List ApplicationNote}
variable {merkleProofs : List MerkleProofData}

/-- The nullifiers that the adapter prints. -/
def printedNullifiers
    (poseidon : List Fr -> Fr)
    (inputNotes : List ApplicationNote) : List String :=
  inputNotes.map fun note => fieldToString (note.nullifier poseidon)

/-- The output commitments that the adapter prints. -/
def printedCommitments
    (poseidon : List Fr -> Fr)
    (outputNotes : List ApplicationNote) : List String :=
  outputNotes.map fun note => fieldToString (poseidon note.fields)

/-- A printed array reads entry by entry. -/
theorem readField_map_getD
    {notes : List ApplicationNote}
    (value : ApplicationNote -> Fr)
    {i : Nat}
    (original : i < notes.length) :
    readField ((notes.map fun note => fieldToString (value note)).getD i "0") =
      some (value (notes.getD i emptyNote)) := by
  have printed : i < (notes.map fun note => fieldToString (value note)).length := by
    rw [List.length_map]
    exact original
  rw [List.getD_eq_getElem _ _ printed, List.getElem_map,
    readField_fieldToString, List.getD_eq_getElem _ _ original]

/-- The path of a proof that opens to the root reads as signals. -/
theorem reads_paths
    (opened : List.Forall₂ (OpensTo poseidon commonRoot) inputNotes
      merkleProofs)
    {i : Nat}
    (original : i < inputNotes.length) :
    ∃ pathElements pathIndices : Fin merkleTreeDepth -> Fr,
      ReadsArray ReadsString
        ((merkleProofs.map fun p => p.pathElements).getD i emptyPath)
        pathElements ∧
      ReadsArray ReadsNumber
        ((merkleProofs.map fun p => p.pathIndices).getD i emptyIndices)
        pathIndices := by
  have proofAt : i < merkleProofs.length := by
    rw [← opened.length_eq]
    exact original
  obtain ⟨pathElements, pathIndices, elements, indices, _⟩ :=
    (opened.get original proofAt).exists_pathRoot_eq
  refine ⟨pathElements, pathIndices, ?_, ?_⟩
  · rw [List.getD_eq_getElem _ _ (by simpa using proofAt), List.getElem_map]
    exact elements
  · rw [List.getD_eq_getElem _ _ (by simpa using proofAt), List.getElem_map]
    exact indices

/-- Signals in every slot of a transfer that fits the circuit pass its
checks. -/
theorem FitsCircuit.exists_signals
    (fits : FitsCircuit poseidon commonRoot inputNotes outputNotes merkleProofs)
    (sameSum : (inputNotes.map (·.amount)).sum =
      (outputNotes.map (·.amount)).sum)
    (opened : List.Forall₂ (OpensTo poseidon commonRoot) inputNotes
      merkleProofs) :
    ∃ signals : MainInputs, signals.root = commonRoot ∧
      HoldsSlots inputNotes outputNotes merkleProofs
        (printedNullifiers poseidon inputNotes)
        (printedCommitments poseidon outputNotes) signals ∧
      signals.Checks poseidon := by
  have noteAt : ∀ i : Fin maxInputs, i.val < inputNotes.length := by
    intro i
    rw [fits.inputsFull]
    exact i.isLt
  have outputAt : ∀ i : Fin maxOutputs, i.val < outputNotes.length := by
    intro i
    rw [fits.outputsFull]
    exact i.isLt
  choose pathElements pathIndices elements indices using
    fun i : Fin maxInputs => reads_paths opened (noteAt i)
  let signals : MainInputs :=
    { root := commonRoot
      nullifierHashes := fun i =>
        (inputNotes.getD i emptyNote).nullifier poseidon
      outCommitments := fun i =>
        poseidon (outputNotes.getD i emptyNote).fields
      inAmount := fun i => (inputNotes.getD i emptyNote).amount
      inSecret := fun i => (inputNotes.getD i emptyNote).secret
      inRecipient := fun i => (inputNotes.getD i emptyNote).recipient
      inPathElements := pathElements
      inPathIndices := pathIndices
      outAmount := fun i => (outputNotes.getD i emptyNote).amount
      outSecret := fun i => (outputNotes.getD i emptyNote).secret
      outRecipient := fun i => (outputNotes.getD i emptyNote).recipient }
  have slots : HoldsSlots inputNotes outputNotes merkleProofs
      (printedNullifiers poseidon inputNotes)
      (printedCommitments poseidon outputNotes) signals := {
    nullifierHashes := fun i => readField_map_getD _ (noteAt i)
    outCommitments := fun i =>
      readField_map_getD (fun note => poseidon note.fields) (outputAt i)
    inNote := fun _ => rfl
    inPathElements := elements
    inPathIndices := indices
    outNote := fun _ => rfl }
  refine ⟨signals, rfl, slots, ?_⟩
  exact {
    nullifier := slots.nullifier_eq poseidon
    merkleRoot := fun i => slots.pathRoot_eq opened i (noteAt i)
    outCommitment := fun _ => rfl
    balance := by
      change ∑ i : Fin maxInputs, ((inputNotes.getD i emptyNote).amount : Fr) =
        ∑ i : Fin maxOutputs, ((outputNotes.getD i emptyNote).amount : Fr)
      rw [sum_amount_getD fits.inputsFull, sum_amount_getD fits.outputsFull,
        sameSum] }

/-- The adapter accepts a transfer that fits the circuit, and its output
satisfies the constraints. -/
theorem FitsCircuit.satisfies
    (fits : FitsCircuit poseidon commonRoot inputNotes outputNotes merkleProofs)
    (sameSum : (inputNotes.map (·.amount)).sum =
      (outputNotes.map (·.amount)).sum)
    (opened : List.Forall₂ (OpensTo poseidon commonRoot) inputNotes
      merkleProofs) :
    ∃ result,
      prepareCircuitInput (initialized poseidon) inputNotes outputNotes
        merkleProofs = .ok result ∧
      SatisfiesCircuit poseidon result.circuitInput := by
  have nullifiersReturn :
      inputNotes.mapM (inputNullifier (initialized poseidon)) =
        .ok (printedNullifiers poseidon inputNotes) := by
    rw [mapM_eq_ok_iff, printedNullifiers, List.forall₂_map_right_iff,
      List.forall₂_same]
    intro note member
    exact (inputNullifier_eq_nullifier_iff _ _).mpr
      (fits.storedCommitments note member)
  have commitmentsReturn :
      outputNotes.mapM (outputCommitment (initialized poseidon)) =
        .ok (printedCommitments poseidon outputNotes) := by
    rw [mapM_eq_ok_iff, printedCommitments, List.forall₂_map_right_iff,
      List.forall₂_same]
    intro note member
    rfl
  have proofsFull : merkleProofs.length = maxInputs := by
    rw [← opened.length_eq, fits.inputsFull]
  obtain ⟨first, tail, rfl⟩ : ∃ first tail, merkleProofs = first :: tail :=
    List.exists_cons_of_length_pos (by rw [proofsFull]; decide)
  obtain ⟨signals, root, slots, checks⟩ := fits.exists_signals sameSum opened
  refine ⟨_, (prepareCircuitInput_eq_ok_iff _ _ _ _ _).mpr ⟨?_, ?_, ?_, ?_,
    _, _, first, nullifiersReturn, commitmentsReturn, rfl, rfl⟩,
    (satisfiesCircuit_iff _ _).mpr ⟨signals, ?_, checks⟩⟩
  · rw [fits.inputsFull]
    decide
  · rw [fits.outputsFull]
    decide
  · exact opened.length_eq.symm
  · rw [sumAmounts_eq_sum, sumAmounts_eq_sum, sameSum]
  · refine (readsAs_paddedCircuitInput_iff fits.inputsFull.le
      fits.outputsFull.le proofsFull.le ?_ ?_).mpr ⟨?_, slots⟩
    · simp [printedNullifiers, fits.inputsFull]
    · simp [printedCommitments, fits.outputsFull]
    · rw [root]
      exact fits.firstRoot first rfl

/-- A transfer whose circuit input satisfies the constraints fits the
circuit. -/
theorem fitsCircuit_of_satisfies
    (opened : List.Forall₂ (OpensTo poseidon commonRoot) inputNotes
      merkleProofs)
    (emptyCommitment : poseidon [0, 0, 0] ≠ 0)
    (emptyNullifier : poseidon [poseidon [0, 0, 0], 0] ≠ 0)
    {result : PreparedInput}
    (returns : prepareCircuitInput (initialized poseidon) inputNotes outputNotes
      merkleProofs = .ok result)
    (satisfies : SatisfiesCircuit poseidon result.circuitInput) :
    FitsCircuit poseidon commonRoot inputNotes outputNotes merkleProofs := by
  obtain ⟨⟨notEmpty, inputsBounded⟩, ⟨_, outputsBounded⟩, proofsLength, _,
    nullifiers, outCommitments, first, nullifiersReturn, commitmentsReturn,
    atHead, rfl⟩ := (prepareCircuitInput_eq_ok_iff _ _ _ _ _).mp returns
  obtain ⟨signals, readsAs, checks⟩ := (satisfiesCircuit_iff _ _).mp satisfies
  have nullifiersComputed := (mapM_eq_ok_iff _ _ _).mp nullifiersReturn
  have commitmentsComputed := (mapM_eq_ok_iff _ _ _).mp commitmentsReturn
  have nullifiersLength : nullifiers.length = inputNotes.length :=
    nullifiersComputed.length_eq.symm
  have commitmentsLength : outCommitments.length = outputNotes.length :=
    commitmentsComputed.length_eq.symm
  obtain ⟨rootReads, slots⟩ := (readsAs_paddedCircuitInput_iff inputsBounded
    outputsBounded (proofsLength.le.trans inputsBounded)
    (nullifiersLength.le.trans inputsBounded)
    (commitmentsLength.le.trans outputsBounded)).mp readsAs
  refine {
    inputsFull := slots.inputs_full checks inputsBounded nullifiersLength
      emptyNullifier
    outputsFull := slots.outputs_full checks outputsBounded commitmentsLength
      emptyCommitment
    firstRoot := ?_
    storedCommitments := ?_ }
  · intro other otherHead
    obtain rfl := Option.some.inj (atHead.symm.trans otherHead)
    rw [rootReads, ← checks.merkleRoot ⟨0, by decide⟩,
      slots.pathRoot_eq opened ⟨0, by decide⟩ notEmpty]
  · intro note member
    obtain ⟨k, inside, rfl⟩ := List.getElem_of_mem member
    let slot : Fin maxInputs := ⟨k, inside.trans_le inputsBounded⟩
    have nullifierAt : k < nullifiers.length := by omega
    have agrees : inputNotes[k].nullifier poseidon =
        signals.nullifierHashes slot := by
      rw [← checks.nullifier slot, slots.nullifier_eq poseidon slot,
        List.getD_eq_getElem _ _ inside]
    refine storedCommitmentAgrees_of_reads
      (nullifiersComputed.get inside nullifierAt) ?_
    have reads := slots.nullifierHashes slot
    rw [List.getD_eq_getElem _ _ nullifierAt, ← agrees] at reads
    exact reads

/-- For notes that open to one common root and have equal sums, the adapter
returns a satisfying circuit input exactly when the transfer fits the
circuit. -/
theorem prepareCircuitInput_satisfies_iff
    (poseidon : List Fr -> Fr)
    (commonRoot : Fr)
    (inputNotes outputNotes : List ApplicationNote)
    (merkleProofs : List MerkleProofData)
    (sameSum : (inputNotes.map (·.amount)).sum =
      (outputNotes.map (·.amount)).sum)
    (opened : List.Forall₂ (OpensTo poseidon commonRoot) inputNotes
      merkleProofs)
    (emptyCommitment : poseidon [0, 0, 0] ≠ 0)
    (emptyNullifier : poseidon [poseidon [0, 0, 0], 0] ≠ 0) :
    (∃ result,
      prepareCircuitInput (initialized poseidon) inputNotes outputNotes
        merkleProofs = .ok result ∧
      SatisfiesCircuit poseidon result.circuitInput) ↔
      FitsCircuit poseidon commonRoot inputNotes outputNotes merkleProofs := by
  constructor
  · rintro ⟨result, returns, satisfies⟩
    exact fitsCircuit_of_satisfies opened emptyCommitment emptyNullifier
      returns satisfies
  · intro fits
    exact fits.satisfies sameSum opened

end Transfer

/-! ## Full and padded transfers of one note -/

/-- A hash that is not `0` on the empty note. -/
def shiftedSum (inputs : List Fr) : Fr := inputs.sum + 1

/-- A note of amount `1`. -/
def unitNote : ApplicationNote where
  amount := 1
  secret := 0
  recipient := 0

/-- The zero path from the note to its root under the shifted sum. -/
def unitProof : MerkleProofData where
  root := fieldToString 22
  pathElements := List.ofFn fun _ : Fin merkleTreeDepth => "0"
  pathIndices := List.ofFn fun _ : Fin merkleTreeDepth => 0

/-- A list of readable entries reads as their values. -/
theorem readsArray_ofFn
    {α β : Type}
    {reads : α -> β -> Prop}
    {size : Nat}
    {values : Fin size -> α}
    {entries : Fin size -> β}
    (readable : ∀ i, reads (values i) (entries i)) :
    ReadsArray reads (List.ofFn values) entries := by
  refine ⟨List.length_ofFn, fun i => ⟨values i, ?_, readable i⟩⟩
  rw [List.getElem?_ofFn, dif_pos i.isLt]

theorem unitProof_opensTo : OpensTo shiftedSum 22 unitNote unitProof := by
  refine ⟨fun _ => 0, fun _ => 0, readsArray_ofFn fun _ => readField_zero,
    readsArray_ofFn fun _ => rfl, fun _ => Or.inl rfl, ?_⟩
  decide

/-- Four notes in and four notes out satisfy the circuit. -/
theorem four_unitNotes_satisfy :
    ([unitNote, unitNote, unitNote, unitNote].map (·.amount)).sum =
      ([unitNote, unitNote, unitNote, unitNote].map (·.amount)).sum ∧
    List.Forall₂ (OpensTo shiftedSum 22)
      [unitNote, unitNote, unitNote, unitNote]
      [unitProof, unitProof, unitProof, unitProof] ∧
    shiftedSum [0, 0, 0] ≠ 0 ∧
    shiftedSum [shiftedSum [0, 0, 0], 0] ≠ 0 ∧
    ((∃ result,
        prepareCircuitInput (initialized shiftedSum)
          [unitNote, unitNote, unitNote, unitNote]
          [unitNote, unitNote, unitNote, unitNote]
          [unitProof, unitProof, unitProof, unitProof] = .ok result ∧
        SatisfiesCircuit shiftedSum result.circuitInput) ↔
      FitsCircuit shiftedSum 22 [unitNote, unitNote, unitNote, unitNote]
        [unitNote, unitNote, unitNote, unitNote]
        [unitProof, unitProof, unitProof, unitProof]) := by
  have opened : List.Forall₂ (OpensTo shiftedSum 22)
      [unitNote, unitNote, unitNote, unitNote]
      [unitProof, unitProof, unitProof, unitProof] := by
    simp only [List.forall₂_cons, unitProof_opensTo, List.Forall₂.nil,
      and_self]
  have emptyCommitment : shiftedSum [0, 0, 0] ≠ 0 := by decide
  have emptyNullifier : shiftedSum [shiftedSum [0, 0, 0], 0] ≠ 0 := by decide
  exact ⟨rfl, opened, emptyCommitment, emptyNullifier,
    prepareCircuitInput_satisfies_iff shiftedSum 22 _ _ _ rfl opened
      emptyCommitment emptyNullifier⟩

/-- One note in and one note out are rejected: the padded slots are. -/
theorem single_unitNote_rejected :
    ¬∀ (poseidon : List Fr -> Fr)
        (commonRoot : Fr)
        (inputNotes outputNotes : List ApplicationNote)
        (merkleProofs : List MerkleProofData),
      1 ≤ inputNotes.length -> inputNotes.length ≤ 4 ->
      1 ≤ outputNotes.length -> outputNotes.length ≤ 4 ->
      (∀ note ∈ inputNotes ++ outputNotes,
        0 ≤ note.amount ∧ note.amount < fieldSize) ->
      (inputNotes.map (·.amount)).sum = (outputNotes.map (·.amount)).sum ->
      List.Forall₂ (OpensTo poseidon commonRoot) inputNotes merkleProofs ->
      poseidon [0, 0, 0] ≠ 0 ->
      poseidon [poseidon [0, 0, 0], 0] ≠ 0 ->
      ∃ result,
        prepareCircuitInput (initialized poseidon) inputNotes outputNotes
          merkleProofs = .ok result ∧
        SatisfiesCircuit poseidon result.circuitInput := by
  intro accepted
  have opened : List.Forall₂ (OpensTo shiftedSum 22) [unitNote]
      [unitProof] := .cons unitProof_opensTo .nil
  have emptyCommitment : shiftedSum [0, 0, 0] ≠ 0 := by decide
  have emptyNullifier : shiftedSum [shiftedSum [0, 0, 0], 0] ≠ 0 := by decide
  obtain ⟨result, returns, satisfies⟩ := accepted shiftedSum 22 [unitNote]
    [unitNote] [unitProof] (by decide) (by decide) (by decide) (by decide)
    (by decide) rfl opened emptyCommitment emptyNullifier
  have fits := fitsCircuit_of_satisfies opened emptyCommitment emptyNullifier
    returns satisfies
  exact absurd fits.inputsFull (by decide)

end Client
end Privachain

import Privachain.Client.CircuitAdapter
import Privachain.Circuit.Transaction
import Mathlib.Data.List.GetD

/-!
# The adapter's output against the circuit's constraints

The padded arrays read as the signals of a list of notes padded with empty
notes.  The circuit hashes the empty notes as well, while the adapter puts `0`
in their public slots, so its output satisfies the constraints only when no
slot is padded.
-/

namespace Privachain
namespace Client

open Circuit
open Foundation
open Foundation.JavaScript

/-! ## Arrays read as signal arrays -/

/-- A list reads as a signal array of its own length, entry by entry. -/
def ReadsArray
    {α β : Type}
    (reads : α -> β -> Prop)
    {size : Nat}
    (values : List α)
    (entries : Fin size -> β) : Prop :=
  values.length = size ∧
    ∀ i : Fin size, ∃ value, values[i.val]? = some value ∧
      reads value (entries i)

/-- A string reads as a field element. -/
def ReadsString (text : String) (entry : Fr) : Prop :=
  readField text = some entry

/-- A number reads as its residue. -/
def ReadsNumber (value : Int) (entry : Fr) : Prop :=
  (value : Fr) = entry

/-- The signals of the main circuit, `Transaction(4, 4, 20)`. -/
abbrev MainInputs :=
  TransactionInputs Fr maxInputs maxOutputs merkleTreeDepth

/-- What is read is determined by the list. -/
theorem ReadsArray.unique
    {α β : Type}
    {reads : α -> β -> Prop}
    (functional : ∀ value entry other,
      reads value entry -> reads value other -> entry = other)
    {size : Nat}
    {values : List α}
    {entries others : Fin size -> β}
    (readsEntries : ReadsArray reads values entries)
    (readsOthers : ReadsArray reads values others) :
    entries = others := by
  funext i
  obtain ⟨value, atSlot, entry⟩ := readsEntries.2 i
  obtain ⟨sameValue, atSameSlot, other⟩ := readsOthers.2 i
  obtain rfl := Option.some.inj (atSlot.symm.trans atSameSlot)
  exact functional value _ _ entry other

theorem ReadsString.unique
    (text : String)
    (entry other : Fr)
    (readsEntry : ReadsString text entry)
    (readsOther : ReadsString text other) :
    entry = other :=
  Option.some.inj (readsEntry.symm.trans readsOther)

theorem ReadsNumber.unique
    (value : Int)
    (entry other : Fr)
    (readsEntry : ReadsNumber value entry)
    (readsOther : ReadsNumber value other) :
    entry = other :=
  readsEntry.symm.trans readsOther

/-- A circuit input reads, signal by signal, as the input signals of the main
circuit. -/
structure ReadsAs (input : CircuitInput) (signals : MainInputs) : Prop where
  root : ReadsString input.root signals.root
  nullifierHashes :
    ReadsArray ReadsString input.nullifierHashes signals.nullifierHashes
  outCommitments :
    ReadsArray ReadsString input.outCommitments signals.outCommitments
  inAmount : ReadsArray ReadsString input.inAmount signals.inAmount
  inSecret : ReadsArray ReadsString input.inSecret signals.inSecret
  inRecipient : ReadsArray ReadsString input.inRecipient signals.inRecipient
  inPathElements : ReadsArray (ReadsArray ReadsString) input.inPathElements
    signals.inPathElements
  inPathIndices : ReadsArray (ReadsArray ReadsNumber) input.inPathIndices
    signals.inPathIndices
  outAmount : ReadsArray ReadsString input.outAmount signals.outAmount
  outSecret : ReadsArray ReadsString input.outSecret signals.outSecret
  outRecipient : ReadsArray ReadsString input.outRecipient signals.outRecipient

/-- A circuit input, read as field elements, satisfies every constraint of the
main circuit. -/
def SatisfiesCircuit
    (poseidon : List Fr -> Fr)
    (input : CircuitInput) : Prop :=
  ∃ t : Transaction Fr maxInputs maxOutputs merkleTreeDepth,
    ReadsAs input t.toTransactionInputs ∧ t.Constraints poseidon

/-- Satisfaction is a condition on the signals that the input reads as. -/
theorem satisfiesCircuit_iff
    (poseidon : List Fr -> Fr)
    (input : CircuitInput) :
    SatisfiesCircuit poseidon input ↔
      ∃ signals : MainInputs, ReadsAs input signals ∧
        signals.Checks poseidon := by
  constructor
  · rintro ⟨t, readsAs, constraints⟩
    have checks := (Transaction.satisfiable_iff poseidon _).mp
      ⟨t, rfl, constraints⟩
    exact ⟨t.toTransactionInputs, readsAs, checks⟩
  · rintro ⟨signals, readsAs, checks⟩
    obtain ⟨t, rfl, constraints⟩ :=
      (Transaction.satisfiable_iff poseidon signals).mpr checks
    exact ⟨t, readsAs, constraints⟩

/-- A padded array reads entry by entry, with the default value behind its
original entries. -/
theorem readsArray_padArray_iff
    {α β : Type}
    {reads : α -> β -> Prop}
    {size : Nat}
    {values : List α}
    {defaultValue : α}
    {entries : Fin size -> β}
    (bounded : values.length ≤ size) :
    ReadsArray reads (padArray values size defaultValue) entries ↔
      ∀ i : Fin size, reads (values.getD i defaultValue) (entries i) := by
  have paddedLength := length_padArray values size defaultValue bounded
  have paddedEntry : ∀ i : Fin size,
      (padArray values size defaultValue)[i.val]? =
        some (values.getD i defaultValue) := by
    intro i
    rw [padArray_eq_append_replicate]
    by_cases original : i.val < values.length
    · rw [List.getElem?_append_left original,
        List.getElem?_eq_getElem original, List.getD_eq_getElem _ _ original]
    · have behind : values.length ≤ i.val := by omega
      have inside : i.val - values.length < size - values.length := by omega
      rw [List.getElem?_append_right behind, List.getElem?_replicate,
        if_pos inside, List.getD_eq_default _ _ behind]
  rw [ReadsArray]
  simp only [paddedLength, true_and, paddedEntry, Option.some.injEq,
    exists_eq_left']

/-! ## Notes and slots -/

/-- The note of a padded slot. -/
def emptyNote : ApplicationNote where
  amount := 0
  secret := 0
  recipient := 0

namespace ApplicationNote

/-- The inputs of the commitment hash of a note. -/
def fields (note : ApplicationNote) : List Fr :=
  [(note.amount : Fr), (note.secret : Fr), (note.recipient : Fr)]

/-- The nullifier that the circuit recomputes for a note. -/
def nullifier (poseidon : List Fr -> Fr) (note : ApplicationNote) : Fr :=
  poseidon [poseidon note.fields, (note.secret : Fr)]

/-- A stored commitment, when there is one, is readable and gives the nullifier
of the note. -/
def StoredCommitmentAgrees
    (poseidon : List Fr -> Fr)
    (note : ApplicationNote) : Prop :=
  ∀ commitment, note.commitment = some commitment -> commitment ≠ "" ->
    ∃ value, readField commitment = some value ∧
      poseidon [value, (note.secret : Fr)] = note.nullifier poseidon

end ApplicationNote

/-- The commitment that the adapter hashes is the stored one, or the computed
one when the stored one is falsy. -/
theorem inputCommitment_initialized
    (poseidon : List Fr -> Fr)
    (note : ApplicationNote) :
    inputCommitment (initialized poseidon) note =
      .ok (match note.commitment with
        | some commitment =>
            if commitment = "" then fieldToString (poseidon note.fields)
            else commitment
        | none => fieldToString (poseidon note.fields)) := by
  unfold inputCommitment
  cases note.commitment with
  | none => rfl
  | some commitment =>
      by_cases empty : commitment = ""
      · simp only [if_pos empty]
        rfl
      · simp only [if_neg empty]

/-- The adapter's nullifier of a note is a printed field element. -/
theorem inputNullifier_eq_ok_iff
    (poseidon : List Fr -> Fr)
    (note : ApplicationNote)
    (nullifier : String) :
    inputNullifier (initialized poseidon) note = .ok nullifier ↔
      ∃ commitment value,
        inputCommitment (initialized poseidon) note = .ok commitment ∧
        readField commitment = some value ∧
        nullifier = fieldToString (poseidon [value, (note.secret : Fr)]) := by
  unfold inputNullifier
  simp only [bind_eq_ok_iff, computeNullifier_eq_ok_iff, exists_and_left]

/-- The adapter's nullifier of a note is the circuit's exactly when the stored
commitment agrees. -/
theorem inputNullifier_eq_nullifier_iff
    (poseidon : List Fr -> Fr)
    (note : ApplicationNote) :
    inputNullifier (initialized poseidon) note =
        .ok (fieldToString (note.nullifier poseidon)) ↔
      note.StoredCommitmentAgrees poseidon := by
  simp only [inputNullifier_eq_ok_iff, inputCommitment_initialized,
    Except.ok.injEq, fieldToString_inj]
  unfold ApplicationNote.StoredCommitmentAgrees
  cases note.commitment with
  | none => simp [ApplicationNote.nullifier]
  | some commitment =>
      by_cases empty : commitment = ""
      · simp [empty, ApplicationNote.nullifier]
      · simp [empty, eq_comm]

/-- A nullifier that reads as the circuit's comes from an agreeing
commitment. -/
theorem storedCommitmentAgrees_of_reads
    {poseidon : List Fr -> Fr}
    {note : ApplicationNote}
    {nullifier : String}
    (returns : inputNullifier (initialized poseidon) note = .ok nullifier)
    (reads : readField nullifier = some (note.nullifier poseidon)) :
    note.StoredCommitmentAgrees poseidon := by
  obtain ⟨commitment, value, _, _, rfl⟩ :=
    (inputNullifier_eq_ok_iff _ _ _).mp returns
  rw [readField_fieldToString] at reads
  rw [Option.some.inj reads] at returns
  exact (inputNullifier_eq_nullifier_iff _ _).mp returns

/-! ## Honest paths -/

/-- The root of an honest path: an index `1` puts the path element on the
left. -/
def foldRoot
    {levels : Nat}
    (poseidon : List Fr -> Fr)
    (leaf : Fr)
    (pathElements : Fin levels -> Fr)
    (pathIndices : Fin levels -> Int) : Fr :=
  Fin.foldl levels
    (fun current i =>
      if pathIndices i = 1 then poseidon [pathElements i, current]
      else poseidon [current, pathElements i])
    leaf

/-- The circuit computes the root of an honest path. -/
theorem pathRoot_eq_foldRoot
    {levels : Nat}
    (poseidon : List Fr -> Fr)
    (leaf : Fr)
    (pathElements : Fin levels -> Fr)
    (pathIndices : Fin levels -> Int)
    (boolean : ∀ i, pathIndices i = 0 ∨ pathIndices i = 1) :
    MerkleProof.pathRoot poseidon leaf pathElements
        (fun i => (pathIndices i : Fr)) =
      foldRoot poseidon leaf pathElements pathIndices := by
  have prefixes : ∀ level : Fin (levels + 1),
      MerkleProof.runningHashes poseidon leaf pathElements
          (fun i => (pathIndices i : Fr)) level =
        foldRoot poseidon leaf
          (fun i : Fin level.val => pathElements (i.castLE level.is_le))
          (fun i => pathIndices (i.castLE level.is_le)) := by
    intro level
    induction level using Fin.induction with
    | zero => simp [foldRoot]
    | succ i inductionHypothesis =>
        have atLevel : (Fin.last i.val).castLE i.succ.is_le = i := rfl
        rw [MerkleProof.runningHashes_succ, inductionHypothesis]
        simp only [foldRoot, Fin.val_succ, Fin.foldl_succ_last, atLevel]
        cases boolean i with
        | inl zero =>
            simp only [zero, Int.cast_zero, MerkleProof.hashedPair_zero]
            rfl
        | inr one =>
            simp only [one, Int.cast_one, MerkleProof.hashedPair_one]
            rfl
  exact prefixes (Fin.last levels)

/-- A Merkle proof with twenty readable path elements and twenty indices in
`{0, 1}` folds from the commitment of a note to a root. -/
def OpensTo
    (poseidon : List Fr -> Fr)
    (root : Fr)
    (note : ApplicationNote)
    (proof : MerkleProofData) : Prop :=
  ∃ (pathElements : Fin merkleTreeDepth -> Fr)
    (pathIndices : Fin merkleTreeDepth -> Int),
    ReadsArray ReadsString proof.pathElements pathElements ∧
    ReadsArray Eq proof.pathIndices pathIndices ∧
    (∀ i, pathIndices i = 0 ∨ pathIndices i = 1) ∧
    foldRoot poseidon (poseidon note.fields) pathElements pathIndices = root

/-- The signals read from an opening make the circuit compute its root. -/
theorem OpensTo.exists_pathRoot_eq
    {poseidon : List Fr -> Fr}
    {root : Fr}
    {note : ApplicationNote}
    {proof : MerkleProofData}
    (opens : OpensTo poseidon root note proof) :
    ∃ pathElements pathIndices : Fin merkleTreeDepth -> Fr,
      ReadsArray ReadsString proof.pathElements pathElements ∧
      ReadsArray ReadsNumber proof.pathIndices pathIndices ∧
      MerkleProof.pathRoot poseidon (poseidon note.fields)
        pathElements pathIndices = root := by
  obtain ⟨pathElements, pathIndices, elements, indices, boolean, folds⟩ := opens
  refine ⟨pathElements, fun i => (pathIndices i : Fr), elements,
    ⟨indices.1, ?_⟩, ?_⟩
  · intro i
    obtain ⟨index, atLevel, rfl⟩ := indices.2 i
    exact ⟨pathIndices i, atLevel, rfl⟩
  · rw [pathRoot_eq_foldRoot _ _ _ _ boolean, folds]

end Client
end Privachain

import Privachain.Client.Prover
import Mathlib.Data.List.Sort

/-!
# The notes of the wallet

The wallet keeps its notes as one JSON list in `localStorage`.  Every operation
loads the list, changes it and saves it whole; big integers are stored as
decimal strings.
-/

namespace Privachain
namespace Client

open Foundation
open Foundation.JavaScript

/-! ## Notes -/

/-- `interface Note` -/
structure Note where
  commitment : String
  amount : Int
  secret : Int
  recipient : Int
  leafIndex : Optional Int := .undefined
  spent : Bool
  timestamp : Option Int := none
  deriving DecidableEq

/-- What one call of `createNote` reads from the platform: the draw of
`randomField()` and the time of `Date.now()`. -/
structure Platform where
  randomField : Int
  dateNow : Int

/-- `secret || randomField()`: an absent secret and `0n` are falsy. -/
def noteSecret (platform : Platform) : Option Int -> Int
  | some secret => if secret = 0 then platform.randomField else secret
  | none => platform.randomField

/-- `createNote(amount, recipient, secret?)` -/
def createNote
    (circuit : CircuitInterface)
    (platform : Platform)
    (amount recipient : Int)
    (secret : Option Int := none) : Except Exception Note := do
  let noteSecret := noteSecret platform secret
  let commitment ← computeCommitment circuit amount noteSecret recipient
  return {
    commitment := commitment
    amount := amount
    secret := noteSecret
    recipient := recipient
    spent := false
    timestamp := some platform.dateNow }

/-- A created note holds its arguments and the commitment that they open. -/
theorem createNote_eq_ok_iff
    (circuit : CircuitInterface)
    (platform : Platform)
    (amount recipient : Int)
    (secret : Option Int)
    (note : Note) :
    createNote circuit platform amount recipient secret = .ok note ↔
      ∃ commitment,
        computeCommitment circuit amount (noteSecret platform secret)
          recipient = .ok commitment ∧
        note =
          { commitment := commitment
            amount := amount
            secret := noteSecret platform secret
            recipient := recipient
            spent := false
            timestamp := some platform.dateNow } := by
  unfold createNote
  rw [bind_eq_ok_iff]
  refine exists_congr fun commitment => and_congr_right fun _ => ?_
  exact returned_eq_ok_iff _ _

/-! ## The stored list -/

/-- An entry of the stored list: a note with its big integers as strings. -/
structure NoteEntry where
  commitment : String
  amount : String
  secret : String
  recipient : String
  leafIndex : Optional Int
  spent : Bool
  timestamp : Option Int
  deriving DecidableEq

/-- The item of `localStorage` under `STORAGE_KEY`. -/
structure LocalStorage where
  zkNotes : Option (JsonText (List NoteEntry))

/-- The replacer of `serializeNotes`, on the fields of one note. -/
def serializeNote (note : Note) : NoteEntry where
  commitment := note.commitment
  amount := bigIntToString note.amount
  secret := bigIntToString note.secret
  recipient := bigIntToString note.recipient
  leafIndex := note.leafIndex
  spent := note.spent
  timestamp := note.timestamp

/-- `serializeNotes(notes)` -/
def serializeNotes (notes : List Note) : JsonText (List NoteEntry) :=
  JSON.stringify (notes.map serializeNote)

/-- The conversion of one entry by `deserializeNotes`. -/
def deserializeNote (entry : NoteEntry) : Except Exception Note := do
  let amount ← bigIntOfString entry.amount
  let secret ← bigIntOfString entry.secret
  let recipient ← bigIntOfString entry.recipient
  return {
    commitment := entry.commitment
    amount := amount
    secret := secret
    recipient := recipient
    leafIndex := entry.leafIndex
    spent := entry.spent
    timestamp := entry.timestamp }

/-- `deserializeNotes(json)` -/
def deserializeNotes
    (json : JsonText (List NoteEntry)) : Except Exception (List Note) := do
  let parsed ← JSON.parse json
  parsed.mapM deserializeNote

/-- `saveNotes(notes)` -/
def saveNotes (notes : List Note) (storage : LocalStorage) : LocalStorage :=
  { storage with zkNotes := some (serializeNotes notes) }

/-- `loadNotes()`: a list that cannot be read counts as empty. -/
def loadNotes (storage : LocalStorage) : List Note :=
  match storage.zkNotes with
  | none => []
  | some stored =>
      match deserializeNotes stored with
      | .ok notes => notes
      | .error _ => []

/-- An entry reads back as its note. -/
@[simp] theorem deserializeNote_serializeNote (note : Note) :
    deserializeNote (serializeNote note) = .ok note := by
  simp only [deserializeNote, serializeNote, bigIntOfString,
    stringToBigInt_bigIntToString]
  rfl

/-- **Round trip.**  A serialized list reads back as itself. -/
@[simp] theorem deserializeNotes_serializeNotes (notes : List Note) :
    deserializeNotes (serializeNotes notes) = .ok notes := by
  rw [deserializeNotes, serializeNotes, JSON.parse_stringify]
  change (notes.map serializeNote).mapM deserializeNote = .ok notes
  rw [mapM_eq_ok_iff, List.forall₂_map_left_iff, List.forall₂_same]
  intro note _
  exact deserializeNote_serializeNote note

/-- Saved notes are loaded back. -/
@[simp] theorem loadNotes_saveNotes
    (notes : List Note)
    (storage : LocalStorage) :
    loadNotes (saveNotes notes storage) = notes := by
  simp [loadNotes, saveNotes]

/-- Storage that was never written holds no notes. -/
def emptyStorage : LocalStorage where
  zkNotes := none

/-! ## Changes of the list -/

/-- `markNotesSpent(commitments)`, on one note. -/
def markSpent (commitments : List String) (note : Note) : Note :=
  if note.commitment ∈ commitments ∧ note.spent = false then
    { note with spent := true }
  else note

/-- `markNotesSpent(commitments)` -/
def markNotesSpent
    (commitments : List String)
    (storage : LocalStorage) : LocalStorage :=
  saveNotes ((loadNotes storage).map (markSpent commitments)) storage

/-- `addReceivedNotes(newNotes)` -/
def addReceivedNotes
    (newNotes : List Note)
    (storage : LocalStorage) : LocalStorage :=
  saveNotes (loadNotes storage ++ newNotes) storage

/-- `updateNoteLeafIndex(commitment, leafIndex)`, on one note. -/
def setLeafIndex (commitment : String) (leafIndex : Int) (note : Note) : Note :=
  if note.commitment = commitment then
    { note with leafIndex := .value leafIndex }
  else note

/-- `updateNoteLeafIndex(commitment, leafIndex)` -/
def updateNoteLeafIndex
    (commitment : String)
    (leafIndex : Int)
    (storage : LocalStorage) : LocalStorage :=
  saveNotes ((loadNotes storage).map (setLeafIndex commitment leafIndex)) storage

@[simp] theorem loadNotes_markNotesSpent
    (commitments : List String)
    (storage : LocalStorage) :
    loadNotes (markNotesSpent commitments storage) =
      (loadNotes storage).map (markSpent commitments) :=
  loadNotes_saveNotes _ _

@[simp] theorem loadNotes_addReceivedNotes
    (newNotes : List Note)
    (storage : LocalStorage) :
    loadNotes (addReceivedNotes newNotes storage) =
      loadNotes storage ++ newNotes :=
  loadNotes_saveNotes _ _

@[simp] theorem loadNotes_updateNoteLeafIndex
    (commitment : String)
    (leafIndex : Int)
    (storage : LocalStorage) :
    loadNotes (updateNoteLeafIndex commitment leafIndex storage) =
      (loadNotes storage).map (setLeafIndex commitment leafIndex) :=
  loadNotes_saveNotes _ _

/-! ## Spendable notes -/

/-- An unspent note with a leaf index. -/
def Note.Spendable (note : Note) : Prop :=
  note.spent = false ∧ note.leafIndex ≠ .undefined ∧ note.leafIndex ≠ .null

instance (note : Note) : Decidable note.Spendable :=
  inferInstanceAs (Decidable (_ ∧ _))

/-- The comparison of `getSpendableNotes`: the larger amount comes first. -/
def amountDescending (a b : Note) : Prop := b.amount ≤ a.amount

instance : DecidableRel amountDescending :=
  fun a b => inferInstanceAs (Decidable (b.amount ≤ a.amount))

/-- `getSpendableNotes(minAmount?)`; insertion sort is stable, as
`Array.prototype.sort` is. -/
def getSpendableNotes
    (storage : LocalStorage)
    (minAmount : Option Int := none) : List Note :=
  let filtered := (loadNotes storage).filter fun note => note.Spendable
  let filtered :=
    match minAmount with
    | none => filtered
    | some minAmount => filtered.filter fun note => note.amount ≥ minAmount
  filtered.insertionSort amountDescending

/-- `notes.reduce((sum, note) => sum + note.amount, 0n)` -/
def totalAmountOf (notes : List Note) : Int :=
  (notes.map Note.amount).sum

@[simp] theorem totalAmountOf_nil : totalAmountOf [] = 0 := rfl

@[simp] theorem totalAmountOf_cons (note : Note) (notes : List Note) :
    totalAmountOf (note :: notes) = note.amount + totalAmountOf notes := by
  simp [totalAmountOf]

@[simp] theorem totalAmountOf_append (earlier later : List Note) :
    totalAmountOf (earlier ++ later) =
      totalAmountOf earlier + totalAmountOf later := by
  simp [totalAmountOf]

/-- `getTotalBalance()` -/
def getTotalBalance (storage : LocalStorage) : Int :=
  totalAmountOf (getSpendableNotes storage)

/-- The result of `getNoteStats`. -/
structure NoteStats where
  total : Nat
  spendable : Nat
  spent : Nat
  pending : Nat
  totalBalance : Int
  deriving DecidableEq

/-- `getNoteStats()` -/
def getNoteStats (storage : LocalStorage) : NoteStats :=
  let notes := loadNotes storage
  let spendable := notes.filter fun note =>
    note.spent = false ∧ note.leafIndex ≠ .undefined
  let spent := notes.filter fun note => note.spent
  let pending := notes.filter fun note =>
    note.spent = false ∧ note.leafIndex = .undefined
  { total := notes.length
    spendable := spendable.length
    spent := spent.length
    pending := pending.length
    totalBalance := totalAmountOf spendable }

/-! ## Coin selection -/

/-- The result of `selectNotesForTransfer`. -/
structure Selection where
  selectedNotes : List Note
  totalAmount : Int
  changeAmount : Int
  deriving DecidableEq

/-- The loop of `selectNotesForTransfer`, with `selected` and `totalAmount` as
accumulators. -/
def selectGreedily
    (targetAmount maxNotes : Int) :
    List Note -> List Note -> Int -> List Note × Int
  | [], selected, totalAmount => (selected, totalAmount)
  | note :: rest, selected, totalAmount =>
      if (selected.length : Int) ≥ maxNotes then (selected, totalAmount)
      else if totalAmount + note.amount ≥ targetAmount then
        (selected ++ [note], totalAmount + note.amount)
      else
        selectGreedily targetAmount maxNotes rest (selected ++ [note])
          (totalAmount + note.amount)

/-- `selectNotesForTransfer(targetAmount, maxNotes)` -/
def selectNotesForTransfer
    (storage : LocalStorage)
    (targetAmount : Int)
    (maxNotes : Int := 4) : Except Exception Selection := do
  let spendableNotes := getSpendableNotes storage
  throwIf (spendableNotes.length = 0) (.error "No spendable notes available")
  let (selected, totalAmount) :=
    selectGreedily targetAmount maxNotes spendableNotes [] 0
  throwIf (totalAmount < targetAmount)
    (.error (s!"Insufficient balance. Need {targetAmount}, have {totalAmount} " ++
      s!"(in {spendableNotes.length} notes)"))
  return {
    selectedNotes := selected
    totalAmount := totalAmount
    changeAmount := totalAmount - targetAmount }

end Client
end Privachain

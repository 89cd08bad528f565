import Privachain.Client.Database
import Privachain.Foundation.ReadModifyWrite

/-!
# Concurrent changes of the database

The functions that change a list await its read before they write it.  Calls
that are issued together may therefore write lists that were read before other
calls wrote theirs.
-/

namespace Privachain
namespace Client

open Foundation
open Foundation.JavaScript

/-! ## Calls as accesses to the storage -/

/-- The items of `AsyncStorage` under `KEYS.COMMITMENTS` and
`KEYS.TRANSACTIONS`. -/
structure AsyncStorage where
  commitments : Option (JsonText (List StoredCommitment)) := none
  transactions : Option (JsonText (List StoredTransaction)) := none

/-- A call of a function that changes one of the lists. -/
inductive DatabaseCall
  | commitment (call : CommitmentCall)
  | transaction (call : TransactionCall)

/-- The list that a call has read. -/
inductive DatabaseSnapshot
  | commitments (existing : List StoredCommitment)
  | transactions (existing : List StoredTransaction)

/-- The read and the write of each call. -/
def databaseMutator :
    Mutator AsyncStorage DatabaseSnapshot DatabaseCall where
  read call storage :=
    match call with
    | .commitment _ => .commitments (getCommitments (.ok storage.commitments))
    | .transaction _ =>
        .transactions (getTransactions (.ok storage.transactions))
  write call snapshot storage :=
    match call, snapshot with
    | .commitment call, .commitments existing =>
        { storage with
          commitments := some (JSON.stringify (call.updated existing)) }
    | .transaction call, .transactions existing =>
        { storage with
          transactions := some (JSON.stringify (call.updated existing)) }
    | .commitment _, .transactions _ => storage
    | .transaction _, .commitments _ => storage

/-- The list of commitments that a reader gets. -/
def AsyncStorage.commitmentList
    (storage : AsyncStorage) : List StoredCommitment :=
  getCommitments (.ok storage.commitments)

/-- The effect of an uninterrupted call on the list of commitments. -/
def DatabaseCall.updatedCommitments
    (commitments : List StoredCommitment)
    (call : DatabaseCall) : List StoredCommitment :=
  match call with
  | .commitment call => call.updated commitments
  | .transaction _ => commitments

/-- Uninterrupted calls change the list of commitments one after the other. -/
theorem commitmentList_run
    (initial : AsyncStorage)
    (order : List DatabaseCall) :
    (run databaseMutator.execute initial order).commitmentList =
      run DatabaseCall.updatedCommitments initial.commitmentList order := by
  refine run_view AsyncStorage.commitmentList (fun storage call => ?_) initial
    order
  cases call with
  | commitment call => rfl
  | transaction call => rfl

/-! ## What serial calls keep -/

/-- The list holds the commitment, perhaps marked as spent. -/
def Present
    (entry : StoredCommitment)
    (commitments : List StoredCommitment) : Prop :=
  entry ∈ commitments ∨ { entry with spent := true } ∈ commitments

/-- Only its deletion removes a commitment from the list. -/
theorem Present.updated
    {entry : StoredCommitment}
    {commitments : List StoredCommitment}
    (present : Present entry commitments)
    {call : CommitmentCall}
    (notDeleted : call ≠ .deleteCommitment entry.id) :
    Present entry (call.updated commitments) := by
  cases call with
  | saveCommitment commitment =>
      exact present.imp (List.mem_append_left _) (List.mem_append_left _)
  | markCommitmentSpent commitmentHash =>
      by_cases hash : entry.commitment = commitmentHash
      · right
        rcases present with member | member
        · exact List.mem_map.mpr ⟨entry, member, if_pos hash⟩
        · exact List.mem_map.mpr ⟨_, member, if_pos hash⟩
      · refine present.imp (fun member => ?_) fun member => ?_
        · exact List.mem_map.mpr ⟨entry, member, if_neg hash⟩
        · exact List.mem_map.mpr ⟨_, member, if_neg hash⟩
  | deleteCommitment id =>
      have other : entry.id ≠ id := by
        rintro rfl
        exact notDeleted rfl
      refine present.imp (fun member => ?_) fun member => ?_
      · exact List.mem_filter.mpr ⟨member, decide_eq_true other⟩
      · exact List.mem_filter.mpr ⟨member, decide_eq_true other⟩

/-- Marking its commitment hash marks a commitment of the list. -/
theorem Present.marked
    {entry : StoredCommitment}
    {commitments : List StoredCommitment}
    (present : Present entry commitments) :
    { entry with spent := true } ∈
      (CommitmentCall.markCommitmentSpent entry.commitment).updated
        commitments := by
  rcases present with member | member
  · exact List.mem_map.mpr ⟨entry, member, if_pos rfl⟩
  · exact List.mem_map.mpr ⟨_, member, if_pos rfl⟩

/-- Calls without its deletion keep a commitment in the list. -/
theorem Present.run
    {entry : StoredCommitment}
    {commitments : List StoredCommitment}
    (present : Present entry commitments)
    {order : List DatabaseCall}
    (notDeleted : .commitment (.deleteCommitment entry.id) ∉ order) :
    Present entry (run DatabaseCall.updatedCommitments commitments order) := by
  have allowedRun : Allowed DatabaseCall.updatedCommitments
      (fun _ call => call ≠ .commitment (.deleteCommitment entry.id))
      commitments order := by
    refine allowed_of_forall (fun _ call member => ?_) _
    rintro rfl
    exact notDeleted member
  refine run_invariant (Present entry) (fun list call other listed => ?_)
    present allowedRun
  cases call with
  | commitment call => exact listed.updated fun same => other (same ▸ rfl)
  | transaction call => exact listed

/-- Among serial calls a saved commitment that none of them deletes is in the
list in the end. -/
theorem present_of_saved
    {commitment : StoredCommitment}
    {order : List DatabaseCall}
    (saved : .commitment (.saveCommitment commitment) ∈ order)
    (notDeleted : .commitment (.deleteCommitment commitment.id) ∉ order)
    (commitments : List StoredCommitment) :
    Present commitment
      (run DatabaseCall.updatedCommitments commitments order) := by
  obtain ⟨earlier, later, rfl⟩ := List.append_of_mem saved
  rw [run_append, run_cons]
  refine Present.run (.inl ?_) fun member => notDeleted ?_
  · exact List.mem_append_right _ List.mem_cons_self
  · exact List.mem_append_right _ (List.mem_cons_of_mem _ member)

/-- Among serial calls a marked commitment of the list that none of them deletes
is marked in the end. -/
theorem marked_of_marked
    {entry : StoredCommitment}
    {commitments : List StoredCommitment}
    (member : entry ∈ commitments)
    {order : List DatabaseCall}
    (marked : .commitment (.markCommitmentSpent entry.commitment) ∈ order)
    (notDeleted : .commitment (.deleteCommitment entry.id) ∉ order) :
    { entry with spent := true } ∈
      run DatabaseCall.updatedCommitments commitments order := by
  obtain ⟨earlier, later, rfl⟩ := List.append_of_mem marked
  have present : Present entry
      (run DatabaseCall.updatedCommitments commitments earlier) :=
    Present.run (.inl member) fun deleted =>
      notDeleted (List.mem_append_left _ deleted)
  rw [run_append, run_cons]
  -- a marked commitment is its own marked version
  have kept : Present { entry with spent := true }
      (run DatabaseCall.updatedCommitments
        (DatabaseCall.updatedCommitments
          (run DatabaseCall.updatedCommitments commitments earlier)
          (.commitment (.markCommitmentSpent entry.commitment))) later) :=
    Present.run (.inl present.marked) fun deleted =>
      notDeleted (List.mem_append_right _ (List.mem_cons_of_mem _ deleted))
  exact kept.elim id id

/-! ## Interleaved calls -/

section Interleaving

variable (calls : List DatabaseCall)

/-- The storage and the calls after some of their accesses. -/
abbrev DatabaseProgress :=
  Mutator.Progress AsyncStorage DatabaseSnapshot calls.length

/-- The accesses of the calls, from the storage in which they are issued. -/
def interleave
    (initial : AsyncStorage)
    (accesses : List (Mutator.Access calls.length)) : DatabaseProgress calls :=
  run (databaseMutator.access calls) (.start initial calls.length) accesses

/-- Nothing is lost: the storage is the one after the same calls in some order,
saved commitments are listed and marks are kept unless a call deletes them. -/
structure NoLostUpdate (initial final : AsyncStorage) : Prop where
  serial : ∃ order : List DatabaseCall, order.Perm calls ∧
    final = run databaseMutator.execute initial order
  saved : ∀ commitment, .commitment (.saveCommitment commitment) ∈ calls ->
    .commitment (.deleteCommitment commitment.id) ∉ calls ->
    Present commitment final.commitmentList
  marked : ∀ entry ∈ initial.commitmentList,
    .commitment (.markCommitmentSpent entry.commitment) ∈ calls ->
    .commitment (.deleteCommitment entry.id) ∉ calls ->
    { entry with spent := true } ∈ final.commitmentList

variable {calls}

/-- Calls that ran one after the other in some order lose nothing. -/
theorem noLostUpdate_of_serial
    {initial : AsyncStorage}
    {order : List DatabaseCall}
    (perm : order.Perm calls) :
    NoLostUpdate calls initial
      (run databaseMutator.execute initial order) where
  serial := ⟨order, perm, rfl⟩
  saved commitment saved notDeleted := by
    rw [commitmentList_run]
    exact present_of_saved (perm.mem_iff.mpr saved)
      (mt perm.mem_iff.mp notDeleted) _
  marked entry member marked notDeleted := by
    rw [commitmentList_run]
    exact marked_of_marked member (perm.mem_iff.mpr marked)
      (mt perm.mem_iff.mp notDeleted)

end Interleaving

/-- **No lost update.**  In an interleaving in which every call writes while the
list is still the one that it has read, the storage is always the one after the
calls that have written, in the order of their writes, and no update is lost
when all calls have written. -/
theorem databaseCalls_noLostUpdate
    (calls : List DatabaseCall)
    (initial : AsyncStorage)
    (accesses : List (Mutator.Access calls.length))
    (fresh : Allowed (databaseMutator.access calls)
      (databaseMutator.Fresh calls) (.start initial calls.length) accesses) :
    (interleave calls initial accesses).store =
        run databaseMutator.execute initial
          ((databaseMutator.writeOrder calls (.start initial calls.length)
            accesses).map calls.get) ∧
      ((∀ index, (interleave calls initial accesses).phase index = .written) ->
        NoLostUpdate calls initial
          (interleave calls initial accesses).store) := by
  have serial := Mutator.serial_run fresh
  refine ⟨serial.store_eq, fun complete => ?_⟩
  rw [interleave, serial.store_eq]
  exact noLostUpdate_of_serial (serial.perm complete)

/-- A commitment with the given identifier. -/
def sampleCommitment (id : String) : StoredCommitment where
  id := id
  commitment := "0x" ++ id
  amount := "5"
  secret := "0x01"
  recipient := "0x02"
  spent := false
  blockNumber := 1
  transactionHash := "0x03"
  timestamp := 0

/-- Two commitments that are saved together. -/
def sampleSaves : List DatabaseCall :=
  [.commitment (.saveCommitment (sampleCommitment "1")),
    .commitment (.saveCommitment (sampleCommitment "2"))]

/-- The first of the two calls. -/
def firstSave : Fin sampleSaves.length := ⟨0, Nat.zero_lt_two⟩

/-- The second of the two calls. -/
def secondSave : Fin sampleSaves.length := ⟨1, Nat.one_lt_two⟩

/-- The second call reads after the first one has written. -/
def inTurn : List (Mutator.Access sampleSaves.length) :=
  [.read firstSave, .write firstSave, .read secondSave, .write secondSave]

/-- Both calls read before one of them has written. -/
def together : List (Mutator.Access sampleSaves.length) :=
  [.read firstSave, .read secondSave, .write firstSave, .write secondSave]

/-- Saving them one after the other loses nothing. -/
theorem inTurn_noLostUpdate :
    (interleave sampleSaves {} inTurn).store =
        run databaseMutator.execute {}
          ((databaseMutator.writeOrder sampleSaves (.start {} sampleSaves.length)
            inTurn).map sampleSaves.get) ∧
      ((∀ index, (interleave sampleSaves {} inTurn).phase index = .written) ->
        NoLostUpdate sampleSaves {} (interleave sampleSaves {} inTurn).store) :=
  databaseCalls_noLostUpdate sampleSaves {} inTurn
    ((allowed_append _ _ _ (inTurn.take 2) (inTurn.drop 2)).mpr
      ⟨Mutator.fresh_read_write rfl, Mutator.fresh_read_write rfl⟩)

/-- When both are saved from the same list, the first one is lost. -/
theorem together_loses_commitment :
    (interleave sampleSaves {} together).store.commitmentList =
        [sampleCommitment "2"] ∧
      ¬∀ (calls : List DatabaseCall) (initial : AsyncStorage)
          (accesses : List (Mutator.Access calls.length)),
        (∀ index, (interleave calls initial accesses).phase index = .written) ->
          NoLostUpdate calls initial
            (interleave calls initial accesses).store := by
  have listed : (interleave sampleSaves {} together).store.commitmentList =
      [sampleCommitment "2"] := rfl
  refine ⟨listed, fun always => ?_⟩
  have complete : ∀ index,
      (interleave sampleSaves {} together).phase index = .written := by
    intro index
    match index with
    | ⟨0, _⟩ => rfl
    | ⟨1, _⟩ => rfl
  have present := (always sampleSaves {} together complete).saved
    (sampleCommitment "1") List.mem_cons_self (by simp [sampleSaves])
  rw [listed, Present] at present
  exact absurd present (by decide)

end Client
end Privachain

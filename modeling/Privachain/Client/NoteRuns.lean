import Privachain.Client.CoinSelection
import Privachain.Foundation.Runs

/-!
# Runs of the note storage

The commitments of the stored notes serve as their keys, but received notes are
appended without a look at the stored ones.  Every commitment is counted once,
and a spent note stays spent, exactly in the runs that add only notes with new
commitments.
-/

namespace Privachain
namespace Client

open Foundation
open Foundation.JavaScript

/-! ## Calls -/

/-- A call that changes the stored notes. -/
inductive NoteCall
  | addReceivedNotes (newNotes : List Note)
  | markNotesSpent (commitments : List String)
  | updateNoteLeafIndex (commitment : String) (leafIndex : Int)

/-- The storage after a call. -/
def NoteCall.apply (storage : LocalStorage) : NoteCall -> LocalStorage
  | .addReceivedNotes newNotes => Client.addReceivedNotes newNotes storage
  | .markNotesSpent commitments => Client.markNotesSpent commitments storage
  | .updateNoteLeafIndex commitment leafIndex =>
      Client.updateNoteLeafIndex commitment leafIndex storage

/-- The wallet after a list of calls, which starts without notes. -/
def walletAfter (calls : List NoteCall) : LocalStorage :=
  run NoteCall.apply emptyStorage calls

/-- The commitments of the stored notes. -/
def storedCommitments (storage : LocalStorage) : List String :=
  (loadNotes storage).map Note.commitment

/-! ## Counting once -/

/-- No reading for a transfer includes a note with the commitment. -/
structure NeverOffered
    (commitment : String)
    (storage : LocalStorage) : Prop where
  spendable : ∀ minAmount, ∀ note ∈ getSpendableNotes storage minAmount,
    note.commitment ≠ commitment
  balance : getTotalBalance storage =
    totalAmountOf ((spendableNotes storage).filter fun note =>
      note.commitment ≠ commitment)
  selected : ∀ targetAmount maxNotes selection,
    selectNotesForTransfer storage targetAmount maxNotes = .ok selection ->
    ∀ note ∈ selection.selectedNotes, note.commitment ≠ commitment

/-- At every moment no commitment is stored twice, and what was stored when it
was marked spent is never offered again. -/
structure CountedOnce (calls : List NoteCall) : Prop where
  distinct : ∀ earlier later, calls = earlier ++ later ->
    (storedCommitments (walletAfter earlier)).Nodup
  spent : ∀ earlier commitments between later,
    calls = earlier ++ .markNotesSpent commitments :: (between ++ later) ->
    ∀ commitment ∈ commitments,
      commitment ∈ storedCommitments (walletAfter earlier) ->
      NeverOffered commitment
        (walletAfter (earlier ++ .markNotesSpent commitments :: between))

/-- A call adds only notes with commitments that are different and new. -/
def AddsFresh (storage : LocalStorage) : NoteCall -> Prop
  | .addReceivedNotes newNotes =>
      (newNotes.map Note.commitment).Nodup ∧
        ∀ note ∈ newNotes, note.commitment ∉ storedCommitments storage
  | .markNotesSpent _ => True
  | .updateNoteLeafIndex _ _ => True

/-! ## Readings -/

/-- A commitment is never offered exactly when no spendable note has it. -/
theorem neverOffered_iff (commitment : String) (storage : LocalStorage) :
    NeverOffered commitment storage ↔
      ∀ note ∈ loadNotes storage, note.commitment = commitment ->
        ¬note.Spendable := by
  constructor
  · intro never note member same spendable
    exact never.spendable none note
      ((mem_getSpendableNotes storage note).mpr ⟨member, spendable⟩) same
  · intro unspendable
    have offered : ∀ note ∈ getSpendableNotes storage,
        note.commitment ≠ commitment := by
      intro note member same
      obtain ⟨stored, spendable⟩ := (mem_getSpendableNotes storage note).mp member
      exact unspendable note stored same spendable
    refine {
      spendable := fun minAmount note member =>
        offered note (getSpendableNotes_subset storage minAmount member)
      balance := ?_
      selected := fun _ _ _ selects note member =>
        offered note (selectNotesForTransfer_subset selects member) }
    have others : (spendableNotes storage).filter (fun note =>
        note.commitment ≠ commitment) = spendableNotes storage := by
      rw [List.filter_eq_self]
      intro note member
      rw [← (getSpendableNotes_perm storage).mem_iff] at member
      exact decide_eq_true (offered note member)
    rw [others]
    exact ((getSpendableNotes_perm storage).map Note.amount).sum_eq

/-! ## One call -/

/-- Marking notes keeps their commitments. -/
theorem commitment_markSpent (commitments : List String) (note : Note) :
    (markSpent commitments note).commitment = note.commitment := by
  unfold markSpent
  split
  · rfl
  · rfl

/-- A leaf index keeps the commitment. -/
theorem commitment_setLeafIndex
    (commitment : String)
    (leafIndex : Int)
    (note : Note) :
    (setLeafIndex commitment leafIndex note).commitment = note.commitment := by
  unfold setLeafIndex
  split
  · rfl
  · rfl

/-- **Step lemma.**  A call keeps the stored commitments and appends those that
it adds. -/
theorem storedCommitments_apply (storage : LocalStorage) (call : NoteCall) :
    storedCommitments (call.apply storage) =
      storedCommitments storage ++
        match call with
        | .addReceivedNotes newNotes => newNotes.map Note.commitment
        | _ => [] := by
  cases call with
  | addReceivedNotes newNotes =>
      simp only [storedCommitments, NoteCall.apply, loadNotes_addReceivedNotes,
        List.map_append]
  | markNotesSpent commitments =>
      simp only [storedCommitments, NoteCall.apply, loadNotes_markNotesSpent,
        List.map_map, List.append_nil]
      exact List.map_congr_left fun note _ => commitment_markSpent _ note
  | updateNoteLeafIndex commitment leafIndex =>
      simp only [storedCommitments, NoteCall.apply,
        loadNotes_updateNoteLeafIndex, List.map_map, List.append_nil]
      exact List.map_congr_left fun note _ => commitment_setLeafIndex _ _ note

/-- After a call the commitments are distinct exactly when they were before and
the call adds only new ones. -/
theorem nodup_storedCommitments_apply_iff
    (storage : LocalStorage)
    (call : NoteCall) :
    (storedCommitments (call.apply storage)).Nodup ↔
      (storedCommitments storage).Nodup ∧ AddsFresh storage call := by
  rw [storedCommitments_apply]
  cases call with
  | addReceivedNotes newNotes =>
      simp only [List.nodup_append', AddsFresh, List.disjoint_right,
        List.forall_mem_map]
  | markNotesSpent commitments => simp [AddsFresh]
  | updateNoteLeafIndex commitment leafIndex => simp [AddsFresh]

/-- A stored commitment whose notes are all spent. -/
def Withdrawn (commitment : String) (storage : LocalStorage) : Prop :=
  commitment ∈ storedCommitments storage ∧
    ∀ note ∈ loadNotes storage, note.commitment = commitment ->
      note.spent = true

/-- Marking a stored commitment withdraws it. -/
theorem withdrawn_markNotesSpent
    {commitments : List String}
    {commitment : String}
    {storage : LocalStorage}
    (marked : commitment ∈ commitments)
    (stored : commitment ∈ storedCommitments storage) :
    Withdrawn commitment
      (NoteCall.apply storage (.markNotesSpent commitments)) := by
  constructor
  · rw [storedCommitments_apply]
    exact List.mem_append_left _ stored
  · intro note member same
    rw [NoteCall.apply, loadNotes_markNotesSpent] at member
    obtain ⟨note, _, rfl⟩ := List.mem_map.mp member
    rw [commitment_markSpent] at same
    unfold markSpent
    split
    · rfl
    · rename_i unmarked
      rw [same, not_and, Bool.not_eq_false] at unmarked
      exact unmarked marked

/-- **Step lemma.**  A withdrawn commitment stays withdrawn as long as calls add
only new commitments. -/
theorem Withdrawn.apply
    {commitment : String}
    {storage : LocalStorage}
    {call : NoteCall}
    (withdrawn : Withdrawn commitment storage)
    (fresh : AddsFresh storage call) :
    Withdrawn commitment (call.apply storage) := by
  obtain ⟨stored, spent⟩ := withdrawn
  refine ⟨?_, ?_⟩
  · rw [storedCommitments_apply]
    exact List.mem_append_left _ stored
  · intro note member same
    cases call with
    | addReceivedNotes newNotes =>
        rw [NoteCall.apply, loadNotes_addReceivedNotes] at member
        rcases List.mem_append.mp member with old | new
        · exact spent note old same
        · rw [← same] at stored
          exact absurd stored (fresh.2 note new)
    | markNotesSpent commitments =>
        rw [NoteCall.apply, loadNotes_markNotesSpent] at member
        obtain ⟨note, old, rfl⟩ := List.mem_map.mp member
        rw [commitment_markSpent] at same
        unfold markSpent
        split
        · rfl
        · exact spent note old same
    | updateNoteLeafIndex updated leafIndex =>
        rw [NoteCall.apply, loadNotes_updateNoteLeafIndex] at member
        obtain ⟨note, old, rfl⟩ := List.mem_map.mp member
        rw [commitment_setLeafIndex] at same
        unfold setLeafIndex
        split
        · exact spent note old same
        · exact spent note old same

/-- A withdrawn commitment is not offered. -/
theorem Withdrawn.neverOffered
    {commitment : String}
    {storage : LocalStorage}
    (withdrawn : Withdrawn commitment storage) :
    NeverOffered commitment storage := by
  rw [neverOffered_iff]
  intro note member same spendable
  rw [Note.Spendable, withdrawn.2 note member same] at spendable
  exact absurd spendable.1 (by decide)

/-! ## Runs -/

/-- The commitments are distinct after exactly the runs that add only new
ones. -/
theorem nodup_storedCommitments_walletAfter_iff (calls : List NoteCall) :
    (storedCommitments (walletAfter calls)).Nodup ↔
      Allowed NoteCall.apply AddsFresh emptyStorage calls := by
  have nothingStored : (storedCommitments emptyStorage).Nodup :=
    List.nodup_nil
  exact run_invariant_iff (fun storage => (storedCommitments storage).Nodup)
    nodup_storedCommitments_apply_iff nothingStored calls

/-- **Every commitment is counted once exactly in the runs that add only notes
with new commitments.** -/
theorem countedOnce_iff (calls : List NoteCall) :
    CountedOnce calls ↔
      Allowed NoteCall.apply AddsFresh emptyStorage calls := by
  constructor
  · intro counted
    rw [← nodup_storedCommitments_walletAfter_iff]
    exact counted.distinct calls [] (List.append_nil calls).symm
  · intro fresh
    refine {
      distinct := ?_
      spent := ?_ }
    · rintro earlier later rfl
      rw [nodup_storedCommitments_walletAfter_iff]
      exact ((allowed_append _ _ _ _ _).mp fresh).1
    · rintro earlier commitments between later rfl commitment marked stored
      obtain ⟨-, -, rest⟩ := (allowed_append _ _ _ _ _).mp fresh
      obtain ⟨betweenFresh, -⟩ := (allowed_append _ _ _ _ _).mp rest
      have withdrawn := run_invariant (Withdrawn commitment)
        (fun _ _ nextFresh holds => holds.apply nextFresh)
        (withdrawn_markNotesSpent marked stored) betweenFresh
      rw [walletAfter, run_append, run_cons]
      exact withdrawn.neverOffered

/-- A note of ten units. -/
def tenUnits : Note where
  commitment := "1"
  amount := 10
  secret := 2
  recipient := 3
  leafIndex := .value 0
  spent := false

/-- A spent note that is received again is offered again. -/
theorem receivedAgain_not_countedOnce :
    ¬∀ calls : List NoteCall, CountedOnce calls := by
  intro counted
  have never := (counted [.addReceivedNotes [tenUnits], .markNotesSpent ["1"],
    .addReceivedNotes [tenUnits]]).spent [.addReceivedNotes [tenUnits]] ["1"]
    [.addReceivedNotes [tenUnits]] [] rfl "1" (by decide)
    (by
      rw [walletAfter, run_cons, run_nil, storedCommitments_apply]
      exact List.mem_append_right _ List.mem_cons_self)
  have stored : tenUnits ∈ loadNotes (walletAfter
      ([.addReceivedNotes [tenUnits]] ++ .markNotesSpent ["1"] ::
        [.addReceivedNotes [tenUnits]])) := by
    rw [walletAfter, run_append, run_cons, run_cons, run_nil,
      NoteCall.apply, loadNotes_addReceivedNotes]
    exact List.mem_append_right _ List.mem_cons_self
  exact (neverOffered_iff _ _).mp never tenUnits stored rfl (by decide)

end Client
end Privachain

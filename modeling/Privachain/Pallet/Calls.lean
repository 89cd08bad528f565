import Privachain.Pallet.Defs

/-!
# What the calls do

For each call: exactly when it returns and the storage that it returns in.
Everything later is derived from these equivalences.
-/

namespace Privachain
namespace Pallet

open Foundation
open Foundation.StatefulCall

variable {T : Config}

namespace Storage

@[simp] theorem insertNullifier_nullifierSet
    (s : Storage T) (nullifierHash : T.Hash) (currentBlock : T.BlockNumber) :
    (s.insertNullifier nullifierHash currentBlock).nullifierSet =
      Function.update s.nullifierSet nullifierHash (some currentBlock) := rfl

@[simp] theorem insertNullifier_nextLeafIndex
    (s : Storage T) (nullifierHash : T.Hash) (currentBlock : T.BlockNumber) :
    (s.insertNullifier nullifierHash currentBlock).nextLeafIndex =
      s.nextLeafIndex := rfl

@[simp] theorem insertNullifier_ledger
    (s : Storage T) (nullifierHash : T.Hash) (currentBlock : T.BlockNumber) :
    (s.insertNullifier nullifierHash currentBlock).ledger = s.ledger := rfl

@[simp] theorem insertNullifier_events
    (s : Storage T) (nullifierHash : T.Hash) (currentBlock : T.BlockNumber) :
    (s.insertNullifier nullifierHash currentBlock).events = s.events := rfl

@[simp] theorem deposit_events (s : Storage T) (events : List (Event T)) :
    (s.deposit events).events = s.events ++ events := rfl

@[simp] theorem deposit_nullifierSet
    (s : Storage T) (events : List (Event T)) :
    (s.deposit events).nullifierSet = s.nullifierSet := rfl

@[simp] theorem deposit_nextLeafIndex
    (s : Storage T) (events : List (Event T)) :
    (s.deposit events).nextLeafIndex = s.nextLeafIndex := rfl

@[simp] theorem deposit_ledger (s : Storage T) (events : List (Event T)) :
    (s.deposit events).ledger = s.ledger := rfl

end Storage

/-! ## The steps of the bodies -/

/-- Only signed origins pass, and the storage is unchanged. -/
theorem ensureSigned_eq_ok_iff
    (origin : RawOrigin T.AccountId)
    (who : T.AccountId)
    (s s' : Storage T) :
    ensureSigned T origin s = .ok who s' ↔ origin = .signed who ∧ s' = s := by
  cases origin with
  | root => simp [ensureSigned, throw_ne_ok]
  | signed account => simp [ensureSigned, pure_eq_ok_iff, eq_comm]
  | none => simp [ensureSigned, throw_ne_ok]

theorem depositEvent_eq_ok_iff
    (event : Event T)
    (value : Unit)
    (s s' : Storage T) :
    depositEvent T event s = .ok value s' ↔ s' = s.deposit [event] :=
  modify_eq_ok_iff _ _ _ _

/-- A transfer changes the ledger only. -/
theorem transfer_eq_ok_iff
    (source dest : T.AccountId)
    (amount : Nat)
    (existenceRequirement : ExistenceRequirement)
    (value : Unit)
    (s s' : Storage T) :
    transfer T source dest amount existenceRequirement s = .ok value s' ↔
      ∃ ledger,
        T.currency.transfer source dest amount existenceRequirement s.ledger =
          .ok () ledger ∧
        s' = { s with ledger := ledger } := by
  unfold transfer
  cases T.currency.transfer source dest amount existenceRequirement s.ledger with
  | ok _ ledger => simp [eq_comm]
  | error error ledger => simp

/-- A nullifier is recorded exactly when its hash is new. -/
theorem recordNullifier_eq_ok_iff
    (nullifierHash : T.Hash)
    (currentBlock : T.BlockNumber)
    (value : Unit)
    (s s' : Storage T) :
    recordNullifier T nullifierHash currentBlock s = .ok value s' ↔
      s.nullifierSet nullifierHash = none ∧
        s' = s.insertNullifier nullifierHash currentBlock := by
  unfold recordNullifier
  rw [get_bind_eq]
  by_cases fresh : s.nullifierSet nullifierHash = none
  · rw [if_pos fresh, modify_eq_ok_iff]
    simp [fresh]
  · rw [if_neg fresh]
    simp [fresh, throw_ne_ok]

/-! ## The loop over new commitments -/

/-- The index after a number of saturating increments. -/
def Config.advance (T : Config)
    (index : T.CommitmentIndexType) (count : Nat) : T.CommitmentIndexType :=
  ⟨min (index.val + count) T.maxIndex, by omega⟩

@[simp] theorem Config.advance_val
    (index : T.CommitmentIndexType) (count : Nat) :
    (T.advance index count).val = min (index.val + count) T.maxIndex := rfl

/-- Below saturation the index advances by the whole count. -/
theorem Config.advance_val_of_le
    {index : T.CommitmentIndexType}
    {count : Nat}
    (room : index.val + count ≤ T.maxIndex) :
    (T.advance index count).val = index.val + count :=
  Nat.min_eq_left room

@[simp] theorem Config.advance_zero (index : T.CommitmentIndexType) :
    T.advance index 0 = index := by
  apply Fin.ext
  have bound := index.is_le
  rw [Config.advance_val]
  omega

theorem Config.advance_advance
    (index : T.CommitmentIndexType) (first second : Nat) :
    T.advance (T.advance index first) second =
      T.advance index (first + second) := by
  apply Fin.ext
  simp only [Config.advance_val]
  omega

/-- The events of the loop over pairs of a commitment and its note. -/
def commitmentEvents (T : Config) (currentBlock : T.BlockNumber) :
    T.CommitmentIndexType -> List (List UInt8 × T.Hash) -> List (Event T)
  | _, [] => []
  | index, (commitment, encrNote) :: pairs =>
      .commitmentAdded commitment index currentBlock encrNote ::
        commitmentEvents T currentBlock (T.advance index 1) pairs

/-- The storage after the loop. -/
def Storage.addCommitments (s : Storage T)
    (currentBlock : T.BlockNumber)
    (pairs : List (List UInt8 × T.Hash)) : Storage T :=
  { s with
    nextLeafIndex := T.advance s.nextLeafIndex pairs.length
    events :=
      s.events ++ commitmentEvents T currentBlock s.nextLeafIndex pairs }

/-- One round of the loop. -/
theorem addCommitment_eq
    (currentBlock : T.BlockNumber)
    (commitment : List UInt8)
    (encrNote : T.Hash)
    (s : Storage T) :
    addCommitment T currentBlock commitment encrNote s =
      .ok () (s.addCommitments currentBlock [(commitment, encrNote)]) := rfl

/-- The loop over a list of pairs continues the one over its first pair. -/
theorem Storage.addCommitments_cons
    (currentBlock : T.BlockNumber)
    (pair : List UInt8 × T.Hash)
    (pairs : List (List UInt8 × T.Hash))
    (s : Storage T) :
    (s.addCommitments currentBlock [pair]).addCommitments currentBlock pairs =
      s.addCommitments currentBlock (pair :: pairs) := by
  simp [Storage.addCommitments, Config.advance_advance, commitmentEvents,
    Nat.add_comm 1]

/-- The loop returns for every list of pairs. -/
theorem addCommitments_eq
    (currentBlock : T.BlockNumber)
    (pairs : List (List UInt8 × T.Hash))
    (s : Storage T) :
    (forM pairs fun (commitment, encrNote) =>
        addCommitment T currentBlock commitment encrNote) s =
      EStateM.Result.ok () (s.addCommitments currentBlock pairs) := by
  induction pairs generalizing s with
  | nil =>
      have unchanged : s.addCommitments currentBlock [] = s := by
        simp [Storage.addCommitments, commitmentEvents]
      rw [unchanged]
      rfl
  | cons pair pairs inductionHypothesis =>
      rw [List.forM_cons, call_bind_eq_ok_iff]
      refine ⟨(), s.addCommitments currentBlock [pair],
        addCommitment_eq currentBlock pair.1 pair.2 s, ?_⟩
      rw [← Storage.addCommitments_cons currentBlock pair pairs s]
      exact inductionHypothesis _

/-! ## The calls -/

/-- The storage after a successful `shield`. -/
def Storage.afterShield (s : Storage T)
    (commitment : List UInt8)
    (encryptedNote : T.Hash)
    (ledger : T.currency.Ledger) : Storage T :=
  ({ s with ledger := ledger } : Storage T).deposit
    [.commitmentAdded commitment s.nextLeafIndex s.blockNumber encryptedNote]

/-- `shield` returns exactly when the transfer into the pool does; it emits the
next leaf index and leaves it as it is. -/
theorem shield_eq_ok_iff
    (origin : RawOrigin T.AccountId)
    (amount : Nat)
    (commitment : List UInt8)
    (encryptedNote : T.Hash)
    (s s' : Storage T) :
    shield T origin amount commitment encryptedNote s = .ok () s' ↔
      ∃ who ledger, origin = .signed who ∧
        T.currency.transfer who (accountId T) amount .keepAlive s.ledger =
          .ok () ledger ∧
        s' = s.afterShield commitment encryptedNote ledger := by
  unfold shield
  simp only [call_bind_eq_ok_iff, get_bind_eq, ensureSigned_eq_ok_iff,
    transfer_eq_ok_iff, depositEvent_eq_ok_iff]
  constructor
  · rintro ⟨who, _, ⟨rfl, rfl⟩, _, _, ⟨ledger, moved, rfl⟩, rfl⟩
    exact ⟨who, ledger, rfl, moved, rfl⟩
  · rintro ⟨who, ledger, rfl, moved, rfl⟩
    exact ⟨who, s, ⟨rfl, rfl⟩, (), _, ⟨ledger, moved, rfl⟩, rfl⟩

/-- The storage after a successful `private_transfer`. -/
def Storage.afterPrivateTransfer (s : Storage T)
    (nullifier : List UInt8)
    (newCommitments : List (List UInt8))
    (encryptedNotes : List T.Hash) : Storage T :=
  ((s.insertNullifier (T.hashing nullifier) s.blockNumber).addCommitments
    s.blockNumber (newCommitments.zip encryptedNotes)).deposit
      [.nullifierRevealed nullifier s.blockNumber]

/-- `private_transfer` returns exactly when its guards pass and the nullifier
is new. -/
theorem privateTransfer_eq_ok_iff
    (origin : RawOrigin T.AccountId)
    (nullifier : List UInt8)
    (newCommitments : List (List UInt8))
    (encryptedNotes : List T.Hash)
    (s s' : Storage T) :
    privateTransfer T origin nullifier newCommitments encryptedNotes s =
        .ok () s' ↔
      (∃ who, origin = .signed who) ∧
      (nullifier = [] ∧ newCommitments = [] ∧ encryptedNotes = []) ∧
      newCommitments.length = encryptedNotes.length ∧
      s.nullifierSet (T.hashing nullifier) = none ∧
      s' = s.afterPrivateTransfer nullifier newCommitments encryptedNotes := by
  unfold privateTransfer
  simp only [call_bind_eq_ok_iff, get_bind_eq, ensureSigned_eq_ok_iff,
    ensure_eq_ok_iff, recordNullifier_eq_ok_iff, addCommitments_eq,
    depositEvent_eq_ok_iff]
  constructor
  · rintro ⟨who, _, ⟨rfl, rfl⟩, _, _, ⟨empty, rfl⟩, _, _, ⟨sameLength, rfl⟩,
      _, _, ⟨fresh, rfl⟩, _, _, added, rfl⟩
    cases added
    exact ⟨⟨who, rfl⟩, empty, sameLength, fresh, rfl⟩
  · rintro ⟨⟨who, rfl⟩, empty, sameLength, fresh, rfl⟩
    exact ⟨who, s, ⟨rfl, rfl⟩, ⟨⟩, s, ⟨empty, rfl⟩, ⟨⟩, s, ⟨sameLength, rfl⟩,
      (), _, ⟨fresh, rfl⟩, (), _, rfl, rfl⟩

/-- The storage after a successful `unshield`. -/
def Storage.afterUnshield (s : Storage T)
    (nullifier : List UInt8)
    (ledger : T.currency.Ledger) : Storage T :=
  ({ s.insertNullifier (T.hashing nullifier) s.blockNumber with
      ledger := ledger } : Storage T).deposit
        [.nullifierRevealed nullifier s.blockNumber]

/-- `unshield` returns exactly when its guard passes, the nullifier is new and
the transfer out of the pool returns. -/
theorem unshield_eq_ok_iff
    (origin : RawOrigin T.AccountId)
    (amount : Nat)
    (nullifier : List UInt8)
    (s s' : Storage T) :
    unshield T origin amount nullifier s = .ok () s' ↔
      ∃ who ledger, origin = .signed who ∧ nullifier = [] ∧
        s.nullifierSet (T.hashing nullifier) = none ∧
        T.currency.transfer (accountId T) who amount .keepAlive s.ledger =
          .ok () ledger ∧
        s' = s.afterUnshield nullifier ledger := by
  unfold unshield
  simp only [call_bind_eq_ok_iff, get_bind_eq, ensureSigned_eq_ok_iff,
    ensure_eq_ok_iff, recordNullifier_eq_ok_iff, transfer_eq_ok_iff,
    depositEvent_eq_ok_iff]
  constructor
  · rintro ⟨who, _, ⟨rfl, rfl⟩, _, _, ⟨empty, rfl⟩, _, _, ⟨fresh, rfl⟩, _, _,
      ⟨ledger, moved, rfl⟩, rfl⟩
    exact ⟨who, ledger, rfl, empty, fresh, moved, rfl⟩
  · rintro ⟨who, ledger, rfl, empty, fresh, moved, rfl⟩
    exact ⟨who, s, ⟨rfl, rfl⟩, ⟨⟩, s, ⟨empty, rfl⟩, (), _, ⟨fresh, rfl⟩, (), _,
      ⟨ledger, moved, rfl⟩, rfl⟩

end Pallet
end Privachain

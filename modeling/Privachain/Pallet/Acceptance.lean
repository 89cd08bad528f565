import Privachain.Pallet.Calls
import Privachain.Pallet.Currency

/-!
# Acceptance and effect of the spending calls

What a private transfer and a withdrawal should accept and do, and when the
calls meet it.  The guards of both calls test the emptiness of their arguments
the other way around, so they refuse the well-formed calls and accept empty
ones.
-/

namespace Privachain
namespace Pallet

open Foundation
open Foundation.StatefulCall

variable {T : Config}

/-- The hash of a nullifier is in `NullifierSet`. -/
def Storage.Spent (s : Storage T) (nullifier : List UInt8) : Prop :=
  s.nullifierSet (T.hashing nullifier) ≠ none

/-! ## `private_transfer` -/

/-- A nullifier, and one encrypted note for each of at least one commitment. -/
def WellFormedTransfer
    (nullifier : List UInt8)
    (newCommitments : List (List UInt8))
    (encryptedNotes : List T.Hash) : Prop :=
  nullifier ≠ [] ∧ newCommitments ≠ [] ∧
    newCommitments.length = encryptedNotes.length

/-- The expected event for the commitment at a position of the list. -/
def expectedEvent (s : Storage T) (position : Nat)
    (pair : List UInt8 × T.Hash) : Event T :=
  .commitmentAdded pair.1
    (Fin.ofNat (T.maxIndex + 1) (s.nextLeafIndex.val + position))
    s.blockNumber pair.2

/-- The effect of a private transfer: one event for each commitment with its
own consecutive index and the note at its position, one revealed nullifier, and
one new entry of `NullifierSet`. -/
structure TransferEffect
    (nullifier : List UInt8)
    (newCommitments : List (List UInt8))
    (encryptedNotes : List T.Hash)
    (s s' : Storage T) : Prop where
  events : s'.events =
    s.events ++ (newCommitments.zip encryptedNotes).mapIdx (expectedEvent s) ++
      [.nullifierRevealed nullifier s.blockNumber]
  nextLeafIndex :
    s'.nextLeafIndex.val = s.nextLeafIndex.val + newCommitments.length
  nullifierSet : s'.nullifierSet =
    Function.update s.nullifierSet (T.hashing nullifier) (some s.blockNumber)

/-- A private transfer of a signed origin succeeds exactly when it is well
formed and unspent, and then has its effect unless the counter saturates. -/
def PrivateTransferCorrect
    (who : T.AccountId)
    (nullifier : List UInt8)
    (newCommitments : List (List UInt8))
    (encryptedNotes : List T.Hash)
    (s : Storage T) : Prop :=
  (Succeeds (privateTransfer T (.signed who) nullifier newCommitments
        encryptedNotes) s ↔
      WellFormedTransfer nullifier newCommitments encryptedNotes ∧
        ¬s.Spent nullifier) ∧
    ∀ s', privateTransfer T (.signed who) nullifier newCommitments
        encryptedNotes s = .ok () s' ->
      s.nextLeafIndex.val + newCommitments.length ≤ T.maxIndex ->
      TransferEffect nullifier newCommitments encryptedNotes s s'

/-- Below saturation the loop emits consecutive indices. -/
theorem commitmentEvents_eq_mapIdx
    (currentBlock : T.BlockNumber)
    (index : T.CommitmentIndexType)
    (pairs : List (List UInt8 × T.Hash))
    (room : index.val + pairs.length ≤ T.maxIndex) :
    commitmentEvents T currentBlock index pairs =
      pairs.mapIdx fun position pair =>
        .commitmentAdded pair.1
          (Fin.ofNat (T.maxIndex + 1) (index.val + position))
          currentBlock pair.2 := by
  induction pairs generalizing index with
  | nil => rfl
  | cons pair pairs inductionHypothesis =>
      rw [List.length_cons] at room
      have next : (T.advance index 1).val = index.val + 1 :=
        Config.advance_val_of_le (by omega)
      have first : Fin.ofNat (T.maxIndex + 1) (index.val + 0) = index := by
        apply Fin.ext
        simp only [Fin.val_ofNat, Nat.add_zero]
        exact Nat.mod_eq_of_lt index.isLt
      rw [commitmentEvents, List.mapIdx_cons, first,
        inductionHypothesis (T.advance index 1) (by omega)]
      simp only [next, Nat.add_assoc, Nat.add_comm 1]

/-- Below saturation a successful private transfer has its effect. -/
theorem privateTransfer_effect
    {origin : RawOrigin T.AccountId}
    {nullifier : List UInt8}
    {newCommitments : List (List UInt8)}
    {encryptedNotes : List T.Hash}
    {s s' : Storage T}
    (returns : privateTransfer T origin nullifier newCommitments
      encryptedNotes s = .ok () s')
    (room : s.nextLeafIndex.val + newCommitments.length ≤ T.maxIndex) :
    TransferEffect nullifier newCommitments encryptedNotes s s' := by
  obtain ⟨_, _, sameLength, _, rfl⟩ :=
    (privateTransfer_eq_ok_iff _ _ _ _ _ _).mp returns
  have pairsLength : (newCommitments.zip encryptedNotes).length =
      newCommitments.length := by
    rw [List.length_zip, ← sameLength, Nat.min_self]
  refine ⟨?_, ?_, rfl⟩
  · simp only [Storage.afterPrivateTransfer, Storage.addCommitments,
      Storage.deposit_events, Storage.insertNullifier_events,
      Storage.insertNullifier_nextLeafIndex]
    rw [commitmentEvents_eq_mapIdx _ _ _ (by rw [pairsLength]; exact room)]
    rfl
  · simp only [Storage.afterPrivateTransfer, Storage.addCommitments,
      Storage.deposit_nextLeafIndex, Storage.insertNullifier_nextLeafIndex,
      Config.advance_val, pairsLength]
    omega

/-- `private_transfer` succeeds exactly on empty arguments whose nullifier is
unspent. -/
theorem privateTransfer_succeeds_iff
    (who : T.AccountId)
    (nullifier : List UInt8)
    (newCommitments : List (List UInt8))
    (encryptedNotes : List T.Hash)
    (s : Storage T) :
    Succeeds (privateTransfer T (.signed who) nullifier newCommitments
        encryptedNotes) s ↔
      (nullifier = [] ∧ newCommitments = [] ∧ encryptedNotes = []) ∧
        ¬s.Spent nullifier := by
  constructor
  · rintro ⟨_, s', returns⟩
    obtain ⟨_, empty, _, fresh, _⟩ :=
      (privateTransfer_eq_ok_iff _ _ _ _ _ _).mp returns
    exact ⟨empty, not_not.mpr fresh⟩
  · rintro ⟨empty, fresh⟩
    have sameLength : newCommitments.length = encryptedNotes.length := by
      rw [empty.2.1, empty.2.2, List.length_nil, List.length_nil]
    exact ⟨(), _, (privateTransfer_eq_ok_iff _ _ _ _ _ _).mpr
      ⟨⟨who, rfl⟩, empty, sameLength, not_not.mp fresh, rfl⟩⟩

/-- `private_transfer` is correct exactly when the nullifier is spent already
or the arguments are neither all empty nor well formed. -/
theorem privateTransfer_correct_iff
    (T : Config)
    (who : T.AccountId)
    (nullifier : List UInt8)
    (newCommitments : List (List UInt8))
    (encryptedNotes : List T.Hash)
    (s : Storage T) :
    PrivateTransferCorrect who nullifier newCommitments encryptedNotes s ↔
      s.Spent nullifier ∨
      (nullifier = [] ∧ (newCommitments ≠ [] ∨ encryptedNotes ≠ [])) ∨
      (nullifier ≠ [] ∧ (newCommitments = [] ∨
        newCommitments.length ≠ encryptedNotes.length)) := by
  unfold PrivateTransferCorrect WellFormedTransfer
  rw [privateTransfer_succeeds_iff]
  have effect : ∀ s', privateTransfer T (.signed who) nullifier newCommitments
        encryptedNotes s = .ok () s' ->
      s.nextLeafIndex.val + newCommitments.length ≤ T.maxIndex ->
      TransferEffect nullifier newCommitments encryptedNotes s s' :=
    fun _ returns room => privateTransfer_effect returns room
  tauto

/-- A well-formed transfer on the genesis state is refused. -/
theorem privateTransfer_refuses_well_formed :
    ¬∀ (T : Config)
        (who : T.AccountId)
        (nullifier : List UInt8)
        (newCommitments : List (List UInt8))
        (encryptedNotes : List T.Hash)
        (s : Storage T),
      PrivateTransferCorrect who nullifier newCommitments encryptedNotes s := by
  intro correct
  obtain ⟨accepts, _⟩ := correct threeAccounts .depositor [1] [[2]] [[3]]
    (genesis threeAccounts (sampleBalances 0 100 0) 1)
  have wellFormed : @WellFormedTransfer threeAccounts [1] [[2]] [[3]] :=
    ⟨by decide, by decide, rfl⟩
  have refused := (privateTransfer_succeeds_iff _ _ _ _ _).mp
    (accepts.mpr ⟨wellFormed, fun spent => spent rfl⟩)
  exact absurd refused.1.1 (by decide)

/-! ## `unshield` -/

/-- The transfer out of the pool returns. -/
def PoolPays (s : Storage T) (who : T.AccountId) (amount : Nat) : Prop :=
  ∃ ledger,
    T.currency.transfer (accountId T) who amount .keepAlive s.ledger =
      .ok () ledger

/-- The effect of a withdrawal: the amount moves out of the pool, the nullifier
is recorded and revealed, and nothing else changes. -/
structure UnshieldEffect
    (who : T.AccountId)
    (amount : Nat)
    (nullifier : List UInt8)
    (s s' : Storage T) : Prop where
  balances : T.currency.Moved (accountId T) who amount s.ledger s'.ledger
  nullifierSet : s'.nullifierSet =
    Function.update s.nullifierSet (T.hashing nullifier) (some s.blockNumber)
  nextLeafIndex : s'.nextLeafIndex = s.nextLeafIndex
  events :
    s'.events = s.events ++ [.nullifierRevealed nullifier s.blockNumber]

/-- A withdrawal of a signed origin succeeds exactly when its nullifier is
non-empty and unspent and the pool pays, and then has its effect. -/
def UnshieldCorrect
    (who : T.AccountId)
    (amount : Nat)
    (nullifier : List UInt8)
    (s : Storage T) : Prop :=
  (Succeeds (unshield T (.signed who) amount nullifier) s ↔
      nullifier ≠ [] ∧ ¬s.Spent nullifier ∧ PoolPays s who amount) ∧
    ∀ s', unshield T (.signed who) amount nullifier s = .ok () s' ->
      UnshieldEffect who amount nullifier s s'

/-- `unshield` succeeds exactly with an empty unspent nullifier when the pool
pays. -/
theorem unshield_succeeds_iff
    (who : T.AccountId)
    (amount : Nat)
    (nullifier : List UInt8)
    (s : Storage T) :
    Succeeds (unshield T (.signed who) amount nullifier) s ↔
      nullifier = [] ∧ ¬s.Spent nullifier ∧ PoolPays s who amount := by
  constructor
  · rintro ⟨_, s', returns⟩
    obtain ⟨_, ledger, same, empty, fresh, pays, _⟩ :=
      (unshield_eq_ok_iff _ _ _ _ _).mp returns
    cases same
    exact ⟨empty, not_not.mpr fresh, ledger, pays⟩
  · rintro ⟨empty, fresh, ledger, pays⟩
    exact ⟨(), _, (unshield_eq_ok_iff _ _ _ _ _).mpr
      ⟨who, ledger, rfl, empty, not_not.mp fresh, pays, rfl⟩⟩

/-- A successful withdrawal has its effect. -/
theorem unshield_effect
    (laws : T.currency.MovesExactly)
    {who : T.AccountId}
    (notPool : who ≠ accountId T)
    {amount : Nat}
    {nullifier : List UInt8}
    {s s' : Storage T}
    (returns : unshield T (.signed who) amount nullifier s = .ok () s') :
    UnshieldEffect who amount nullifier s s' := by
  obtain ⟨_, ledger, same, _, _, pays, rfl⟩ :=
    (unshield_eq_ok_iff _ _ _ _ _).mp returns
  cases same
  exact {
    balances := laws _ _ _ _ _ notPool.symm pays
    nullifierSet := rfl
    nextLeafIndex := rfl
    events := rfl }

/-- `unshield` is correct exactly when its nullifier is spent already or the
pool does not pay. -/
theorem unshield_correct_iff
    (T : Config)
    (laws : T.currency.MovesExactly)
    (who : T.AccountId)
    (notPool : who ≠ accountId T)
    (amount : Nat)
    (nullifier : List UInt8)
    (s : Storage T) :
    UnshieldCorrect who amount nullifier s ↔
      s.Spent nullifier ∨ ¬PoolPays s who amount := by
  unfold UnshieldCorrect
  rw [unshield_succeeds_iff]
  have effect : ∀ s', unshield T (.signed who) amount nullifier s =
        .ok () s' ->
      UnshieldEffect who amount nullifier s s' :=
    fun _ returns => unshield_effect laws notPool returns
  tauto

/-- A pool of `100` and an account of `50`, before any call. -/
def fundedPool : Storage threeAccounts :=
  genesis threeAccounts (sampleBalances 100 50 0) 1

/-- The account withdraws `5` from the funded pool. -/
theorem fundedPool_unshield_correct_iff :
    threeAccounts.currency.MovesExactly ∧
    SampleAccount.depositor ≠ accountId threeAccounts ∧
    (@UnshieldCorrect threeAccounts .depositor 5 [7] fundedPool ↔
      fundedPool.Spent [7] ∨ ¬PoolPays fundedPool .depositor 5) :=
  ⟨threeAccounts_movesExactly, by decide,
    unshield_correct_iff threeAccounts threeAccounts_movesExactly .depositor
      (by decide) 5 [7] fundedPool⟩

/-- A withdrawal with a non-empty nullifier from the funded pool is refused. -/
theorem unshield_refuses_nullifier :
    ¬∀ (T : Config),
      T.currency.MovesExactly ->
      ∀ who : T.AccountId, who ≠ accountId T ->
      ∀ (amount : Nat) (nullifier : List UInt8) (s : Storage T),
        UnshieldCorrect who amount nullifier s := by
  intro correct
  obtain ⟨accepts, _⟩ := correct threeAccounts threeAccounts_movesExactly .depositor
    (by decide) 5 [7] fundedPool
  have pays : PoolPays fundedPool .depositor 5 :=
    threeAccounts_keepsAlive.ok _ _ _ _ (by decide) (by decide) (by decide)
  have refused := (unshield_succeeds_iff _ _ _ _).mp
    (accepts.mpr ⟨by decide, fun spent => spent rfl, pays⟩)
  exact absurd refused.1 (by decide)

end Pallet
end Privachain

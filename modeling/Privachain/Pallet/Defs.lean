import Privachain.Foundation.StatefulCall
import Mathlib.Logic.Function.Basic

/-!
# The `zk_privacy` pallet

The storage of the pallet, its events and errors, and its three calls.  A call
body runs on the storage and keeps the writes made before an error; the
dispatcher of the runtime rolls these back.
-/

namespace Privachain
namespace Pallet

open Foundation
open Foundation.StatefulCall

/-! ## Errors and origins -/

/-- `Error<T>` -/
inductive Error
  /-- Invalid txn -/
  | invalidTransaction
  /-- Mismatch in lengths of new commitments and encrypted notes -/
  | commitmentEncryptedNoteLengthMismatch
  /-- The nullifier has already been revealed (double spend attempt) -/
  | nullifierAlreadyRevealed
  /-- Commitment verification failed -/
  | commitmentVerificationFailed
  deriving DecidableEq

/-- `TokenError`, the errors of a currency. -/
inductive TokenError
  | fundsUnavailable
  | notExpendable
  | belowMinimum
  deriving DecidableEq

/-- `DispatchError` -/
inductive DispatchError
  | other (message : String)
  | badOrigin
  | module (error : Error)
  | token (error : TokenError)
  deriving DecidableEq

/-- `RawOrigin<AccountId>` -/
inductive RawOrigin (AccountId : Type)
  | root
  | signed (who : AccountId)
  | none
  deriving DecidableEq

/-! ## Configuration -/

/-- `ExistenceRequirement` -/
inductive ExistenceRequirement
  | keepAlive
  | allowDeath
  deriving DecidableEq

/-- `Currency<AccountId>`: the balances it shows and the transfer that the
pallet calls, on the currency's own storage. -/
structure Currency (AccountId : Type) where
  Ledger : Type
  balance : Ledger -> AccountId -> Nat
  transfer : AccountId -> AccountId -> Nat -> ExistenceRequirement ->
    EStateM DispatchError Ledger Unit

/-- `trait Config`.  The commitment indices are the integers up to `maxIndex`;
`From<u32>` makes every `u32` one of them. -/
structure Config where
  AccountId : Type
  Hash : Type
  BlockNumber : Type
  hashDecidableEq : DecidableEq Hash
  currency : Currency AccountId
  /-- `PalletId::get().into_account_truncating()` -/
  palletAccount : AccountId
  /-- `T::Hashing::hash` -/
  hashing : List UInt8 -> Hash
  maxIndex : Nat
  u32_le_maxIndex : UInt32.size ≤ maxIndex + 1

attribute [instance] Config.hashDecidableEq

namespace Config

/-- `CommitmentIndexType` -/
abbrev CommitmentIndexType (T : Config) : Type := Fin (T.maxIndex + 1)

/-- `From<u32>` -/
def fromU32 (T : Config) (value : UInt32) : T.CommitmentIndexType :=
  ⟨value.toNat, by
    have bound := value.toNat_lt
    have enough := T.u32_le_maxIndex
    exact Nat.lt_of_lt_of_le bound enough⟩

/-- `index.saturating_add(increment)` -/
def saturatingAdd (T : Config)
    (index increment : T.CommitmentIndexType) : T.CommitmentIndexType :=
  ⟨min (index.val + increment.val) T.maxIndex, by omega⟩

end Config

/-! ## Events and storage -/

/-- `Event<T>` -/
inductive Event (T : Config)
  | commitmentAdded
      (commitment : List UInt8)
      (index : T.CommitmentIndexType)
      (timestamp : T.BlockNumber)
      (encryptedNote : T.Hash)
  | nullifierRevealed
      (nullifier : List UInt8)
      (timestamp : T.BlockNumber)

/-- The storage that the calls read and write: the pallet's own items, the
ledger of the currency, and the events and the block number of the system. -/
structure Storage (T : Config) where
  /-- `NextLeafIndex` -/
  nextLeafIndex : T.CommitmentIndexType
  /-- `NullifierSet` -/
  nullifierSet : T.Hash -> Option T.BlockNumber
  ledger : T.currency.Ledger
  events : List (Event T)
  blockNumber : T.BlockNumber

namespace Storage

variable {T : Config}

/-- `NullifierSet::insert` -/
def insertNullifier (s : Storage T)
    (nullifierHash : T.Hash) (currentBlock : T.BlockNumber) : Storage T :=
  { s with
    nullifierSet :=
      Function.update s.nullifierSet nullifierHash (some currentBlock) }

/-- Append events to the log. -/
def deposit (s : Storage T) (events : List (Event T)) : Storage T :=
  { s with events := s.events ++ events }

end Storage

/-- A call body. -/
abbrev PalletM (T : Config) := EStateM DispatchError (Storage T)

variable (T : Config)

/-- `Pallet::<T>::account_id()` -/
def accountId : T.AccountId := T.palletAccount

/-- `ensure_signed(origin)` -/
def ensureSigned : RawOrigin T.AccountId -> PalletM T T.AccountId
  | .signed who => pure who
  | .root => throw .badOrigin
  | .none => throw .badOrigin

/-- `deposit_event` -/
def depositEvent (event : Event T) : PalletM T Unit :=
  modify fun s => s.deposit [event]

/-- `T::Currency::transfer`, on the ledger of the storage. -/
def transfer
    (source dest : T.AccountId)
    (amount : Nat)
    (existenceRequirement : ExistenceRequirement) : PalletM T Unit := fun s =>
  match T.currency.transfer source dest amount existenceRequirement s.ledger with
  | .ok _ ledger => .ok () { s with ledger := ledger }
  | .error error ledger => .error error { s with ledger := ledger }

/-- `if !contains_key { insert } else { return Err(NullifierAlreadyRevealed) }`,
in both spending calls. -/
def recordNullifier
    (nullifierHash : T.Hash)
    (currentBlock : T.BlockNumber) : PalletM T Unit := do
  if (← get).nullifierSet nullifierHash = none then
    modify fun s => s.insertNullifier nullifierHash currentBlock
  else
    throw (.module .nullifierAlreadyRevealed)

/-- The body of the loop of `private_transfer`. -/
def addCommitment
    (currentBlock : T.BlockNumber)
    (commitment : List UInt8)
    (encrNote : T.Hash) : PalletM T Unit := do
  depositEvent T (.commitmentAdded commitment (← get).nextLeafIndex
    currentBlock encrNote)
  modify fun s =>
    { s with nextLeafIndex := T.saturatingAdd s.nextLeafIndex (T.fromU32 1) }

/-! ## The calls -/

/-- `shield(origin, amount, commitment, encrypted_note)` -/
def shield
    (origin : RawOrigin T.AccountId)
    (amount : Nat)
    (commitment : List UInt8)
    (encryptedNote : T.Hash) : PalletM T Unit := do
  let who ← ensureSigned T origin
  let currentBlock := (← get).blockNumber
  transfer T who (accountId T) amount .keepAlive
  depositEvent T (.commitmentAdded commitment (← get).nextLeafIndex
    currentBlock encryptedNote)

/-- `private_transfer(origin, nullifier, new_commitments, encrypted_notes)` -/
def privateTransfer
    (origin : RawOrigin T.AccountId)
    (nullifier : List UInt8)
    (newCommitments : List (List UInt8))
    (encryptedNotes : List T.Hash) : PalletM T Unit := do
  let _ ← ensureSigned T origin
  ensure (nullifier = [] ∧ newCommitments = [] ∧ encryptedNotes = [])
    (.module .invalidTransaction)
  ensure (newCommitments.length = encryptedNotes.length)
    (.module .commitmentEncryptedNoteLengthMismatch)
  let currentBlock := (← get).blockNumber
  recordNullifier T (T.hashing nullifier) currentBlock
  forM (newCommitments.zip encryptedNotes) fun (commitment, encrNote) =>
    addCommitment T currentBlock commitment encrNote
  depositEvent T (.nullifierRevealed nullifier currentBlock)

/-- `unshield(origin, amount, nullifier)` -/
def unshield
    (origin : RawOrigin T.AccountId)
    (amount : Nat)
    (nullifier : List UInt8) : PalletM T Unit := do
  let who ← ensureSigned T origin
  ensure (nullifier = []) (.module .invalidTransaction)
  let currentBlock := (← get).blockNumber
  recordNullifier T (T.hashing nullifier) currentBlock
  transfer T (accountId T) who amount .keepAlive
  depositEvent T (.nullifierRevealed nullifier currentBlock)

/-! ## Dispatched extrinsics -/

/-- `Call<T>` -/
inductive Call
  | shield
      (amount : Nat)
      (commitment : List UInt8)
      (encryptedNote : T.Hash)
  | privateTransfer
      (nullifier : List UInt8)
      (newCommitments : List (List UInt8))
      (encryptedNotes : List T.Hash)
  | unshield
      (amount : Nat)
      (nullifier : List UInt8)

variable {T}

/-- The body that a call dispatches to. -/
def Call.body (origin : RawOrigin T.AccountId) : Call T -> PalletM T Unit
  | .shield amount commitment encryptedNote =>
      Pallet.shield T origin amount commitment encryptedNote
  | .privateTransfer nullifier newCommitments encryptedNotes =>
      Pallet.privateTransfer T origin nullifier newCommitments encryptedNotes
  | .unshield amount nullifier =>
      Pallet.unshield T origin amount nullifier

variable (T)

/-- A call from an origin, in a block of the chain. -/
structure Extrinsic where
  blockNumber : T.BlockNumber
  origin : RawOrigin T.AccountId
  call : Call T

variable {T}

namespace Extrinsic

/-- The storage in which the call of an extrinsic starts. -/
def start (x : Extrinsic T) (s : Storage T) : Storage T :=
  { s with blockNumber := x.blockNumber }

/-- The call of the extrinsic succeeds. -/
def Succeeds (x : Extrinsic T) (s : Storage T) : Prop :=
  StatefulCall.Succeeds (x.call.body x.origin) (x.start s)

instance decidableSucceeds (x : Extrinsic T) (s : Storage T) :
    Decidable (x.Succeeds s) :=
  StatefulCall.decidableSucceeds _ _

/-- Apply an extrinsic: a call that fails changes nothing. -/
def apply (s : Storage T) (x : Extrinsic T) : Storage T :=
  dispatch (x.call.body x.origin) (x.start s)

end Extrinsic

variable (T)

/-- The genesis storage of the pallet over a ledger. -/
def genesis (ledger : T.currency.Ledger) (blockNumber : T.BlockNumber) :
    Storage T where
  nextLeafIndex := T.fromU32 0
  nullifierSet := fun _ => none
  ledger := ledger
  events := []
  blockNumber := blockNumber

end Pallet
end Privachain

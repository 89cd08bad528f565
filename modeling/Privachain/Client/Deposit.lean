import Privachain.Client.Submission

/-!
# Deposits into the private pool

`depositToPrivatePool` creates a note and submits its commitment.  When the
extrinsic is in a block, the callback updates the leaf index of the stored note
with this commitment; the note itself was never stored, so that its secret is
lost with the call.
-/

namespace Privachain
namespace Client

open Foundation
open Foundation.JavaScript

/-! ## `depositToPrivatePool` -/

/-- `api.tx.zkPrivacy.deposit(amount, commitment)` -/
structure DepositCall where
  amount : String
  commitment : String
  deriving DecidableEq

/-- A submitted deposit, and the note that its callback closes over. -/
structure PendingDeposit where
  note : Note
  tx : DepositCall
  deriving DecidableEq

/-- `depositToPrivatePool({ amount, recipientPubkey, .. })`, up to
`signAndSend`. -/
def depositToPrivatePool
    (circuit : CircuitInterface)
    (platform : Platform)
    (amount recipientPubkey : Int) : Except Exception PendingDeposit := do
  let note ← createNote circuit platform amount recipientPubkey
  return {
    note := note
    tx := { amount := bigIntToString amount, commitment := note.commitment } }

namespace PendingDeposit

/-- What the callback does with the notes when the deposit is in a block. -/
def onInBlock (pending : PendingDeposit) (storage : LocalStorage) :
    LocalStorage :=
  let leafIndex := 0 -- the placeholder of the source
  updateNoteLeafIndex pending.note.commitment leafIndex storage

/-- The wallet after the events of the deposit. -/
def follow
    (pending : PendingDeposit)
    (storage : LocalStorage)
    (events : List ClientEvent) : Subscription :=
  Subscription.follow pending.onInBlock storage events

end PendingDeposit

/-! ## Confirmed deposits -/

/-- The wallet holds what it held and one new unspent note that opens the
submitted commitment. -/
structure DepositRecovered
    (circuit : CircuitInterface)
    (tx : DepositCall)
    (before after : List Note)
    (note : Note) : Prop where
  stored : after.Perm (note :: before)
  unspent : note.spent = false
  submitted : note.commitment = tx.commitment
  opens : computeCommitment circuit note.amount note.secret note.recipient =
    .ok tx.commitment

/-- The deposit is submitted, and its promise is fulfilled by the events. -/
def DepositConfirmed
    (circuit : CircuitInterface)
    (platform : Platform)
    (amount recipientPubkey : Int)
    (storage : LocalStorage)
    (events : List ClientEvent)
    (pending : PendingDeposit) : Prop :=
  depositToPrivatePool circuit platform amount recipientPubkey =
      .ok pending ∧
    ∃ blockHash,
      (pending.follow storage events).promise = .fulfilled blockHash

/-- Once the deposit is confirmed, its note is in the wallet. -/
def DepositNeverLost
    (circuit : CircuitInterface)
    (platform : Platform)
    (amount recipientPubkey : Int)
    (storage : LocalStorage)
    (events : List ClientEvent) : Prop :=
  ∀ pending,
    DepositConfirmed circuit platform amount recipientPubkey storage events
      pending ->
    ∃ note, DepositRecovered circuit pending.tx (loadNotes storage)
      (loadNotes (pending.follow storage events).storage) note

/-- The events of a deposit add no note. -/
theorem PendingDeposit.length_loadNotes_follow
    (pending : PendingDeposit)
    (storage : LocalStorage)
    (events : List ClientEvent) :
    (loadNotes (pending.follow storage events).storage).length =
      (loadNotes storage).length := by
  have anyCount : ∀ count : Nat,
      (loadNotes (pending.onInBlock^[count] storage)).length =
        (loadNotes storage).length := by
    intro count
    induction count with
    | zero => rfl
    | succ count inductionHypothesis =>
        rw [Function.iterate_succ_apply', PendingDeposit.onInBlock,
          loadNotes_updateNoteLeafIndex, List.length_map, inductionHypothesis]
  rw [PendingDeposit.follow, Subscription.follow_storage]
  exact anyCount _

/-- No event of a deposit brings its note into the wallet. -/
theorem PendingDeposit.not_recovered
    (circuit : CircuitInterface)
    (pending : PendingDeposit)
    (storage : LocalStorage)
    (events : List ClientEvent)
    (note : Note) :
    ¬DepositRecovered circuit pending.tx (loadNotes storage)
      (loadNotes (pending.follow storage events).storage) note := by
  intro recovered
  have oneMore := recovered.stored.length_eq
  rw [PendingDeposit.length_loadNotes_follow, List.length_cons] at oneMore
  omega

/-- A confirmed deposit is always lost: nothing is lost only when nothing is
confirmed. -/
theorem depositToPrivatePool_neverLost_iff
    (circuit : CircuitInterface)
    (platform : Platform)
    (amount recipientPubkey : Int)
    (storage : LocalStorage)
    (events : List ClientEvent) :
    DepositNeverLost circuit platform amount recipientPubkey storage events ↔
      ∀ pending, ¬DepositConfirmed circuit platform amount recipientPubkey
        storage events pending := by
  constructor
  · intro neverLost pending confirmed
    obtain ⟨note, recovered⟩ := neverLost pending confirmed
    exact pending.not_recovered circuit storage events note recovered
  · intro unconfirmed pending confirmed
    exact absurd confirmed (unconfirmed pending)

/-- Every deposit of an initialized wallet is confirmed by its first in-block
success. -/
theorem depositToPrivatePool_confirmed
    (poseidon : List Circuit.Fr -> Circuit.Fr)
    (platform : Platform)
    (amount recipientPubkey : Int)
    (storage : LocalStorage)
    (blockHash : String) :
    ∃ pending,
      DepositConfirmed (initialized poseidon) platform amount recipientPubkey
        storage [.status ⟨.inBlock blockHash, none⟩] pending :=
  ⟨_, rfl, blockHash, rfl⟩

/-- A deposit of `5` into an empty wallet is in a block, and its note is
lost. -/
theorem depositToPrivatePool_loses_note :
    ¬∀ (circuit : CircuitInterface) (platform : Platform)
        (amount recipientPubkey : Int) (storage : LocalStorage)
        (events : List ClientEvent),
      DepositNeverLost circuit platform amount recipientPubkey storage
        events := by
  intro neverLost
  obtain ⟨pending, confirmed⟩ := depositToPrivatePool_confirmed
    (fun inputs => inputs.sum) ⟨3, 0⟩ 5 7 emptyStorage "0x01"
  obtain ⟨note, recovered⟩ := neverLost _ _ _ _ _ _ pending confirmed
  exact pending.not_recovered _ _ _ note recovered

end Client
end Privachain

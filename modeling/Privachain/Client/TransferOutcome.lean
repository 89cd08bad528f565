import Privachain.Client.PrivateTransfer

/-!
# The wallet after a private transfer

The callback of a transfer marks the inputs spent and appends every output,
once for every in-block success.  The payment is appended with the change, so
the sender keeps what was sent; and the notes follow the in-block successes,
whatever the final outcome is.
-/

namespace Privachain
namespace Client

open Foundation
open Foundation.JavaScript

/-! ## The stored notes -/

/-- The wallet with the inputs marked spent and each output added once. -/
def TransferNotes.settle (notes : TransferNotes) (before : List Note) :
    List Note :=
  before.map (markSpent notes.inputCommitments) ++
    notes.outputNotes.map newNote

theorem TransferNotes.loadNotes_onInBlock
    (notes : TransferNotes)
    (storage : LocalStorage) :
    loadNotes (notes.onInBlock storage) = notes.settle (loadNotes storage) := by
  rw [TransferNotes.onInBlock, loadNotes_addReceivedNotes,
    loadNotes_markNotesSpent, TransferNotes.settle]

/-- The notes are settled once for every in-block success. -/
theorem PendingTransfer.loadNotes_follow
    (pending : PendingTransfer)
    (storage : LocalStorage)
    (events : List ClientEvent) :
    loadNotes (pending.follow storage events).storage =
      pending.notes.settle^[inBlockCount events] (loadNotes storage) := by
  have anyCount : ∀ count : Nat,
      loadNotes (pending.notes.onInBlock^[count] storage) =
        pending.notes.settle^[count] (loadNotes storage) := by
    intro count
    induction count with
    | zero => rfl
    | succ count inductionHypothesis =>
        rw [Function.iterate_succ_apply', Function.iterate_succ_apply',
          TransferNotes.loadNotes_onInBlock, inductionHypothesis]
  rw [PendingTransfer.follow, Subscription.follow_storage]
  exact anyCount _

/-- Every settlement appends the outputs again. -/
theorem TransferNotes.length_iterate_settle
    (notes : TransferNotes)
    (before : List Note)
    (count : Nat) :
    (notes.settle^[count] before).length =
      before.length + count * notes.outputNotes.length := by
  induction count with
  | zero => simp
  | succ count inductionHypothesis =>
      rw [Function.iterate_succ_apply', TransferNotes.settle,
        List.length_append, List.length_map, List.length_map,
        inductionHypothesis, Nat.succ_mul, Nat.add_assoc]

/-! ## The cost of a transfer -/

/-- The sum of the unspent notes, spendable or pending. -/
def unspentAmount (notes : List Note) : Int :=
  totalAmountOf (notes.filter fun note => note.spent = false)

/-- The wallet pays the amount and nothing else: of the notes it had, the inputs
are now spent and the others are unchanged, and it gained its change alone. -/
structure CostsExactly
    (params : TransferParams)
    (notes : TransferNotes)
    (before kept added : List Note) : Prop where
  cost : unspentAmount (kept ++ added) + params.amount = unspentAmount before
  kept : List.Forall₂ (fun note now =>
      if note.commitment ∈ notes.inputCommitments then
        now = { note with spent := true }
      else now = note)
    before kept
  changeOnce : ∀ output ∈ notes.outputNotes,
    output.recipient = params.myPubkey -> added.count (newNote output) = 1
  ownNotes : ∀ note ∈ added, note.recipient = params.myPubkey

/-- The transfer is submitted, and resolves after one in-block success. -/
def TransferResolved
    (environment : TransferEnvironment)
    (params : TransferParams)
    (storage : LocalStorage)
    (events : List ClientEvent)
    (pending : PendingTransfer) : Prop :=
  executePrivateTransfer environment params storage = .ok pending ∧
    inBlockCount events = 1 ∧
    ∃ blockHash,
      (pending.follow storage events).promise = .fulfilled blockHash

/-- A resolved transfer costs the sender the amount. -/
def TransferCostsExactly
    (environment : TransferEnvironment)
    (params : TransferParams)
    (storage : LocalStorage)
    (events : List ClientEvent) : Prop :=
  ∀ pending, TransferResolved environment params storage events pending ->
    ∃ kept added,
      loadNotes (pending.follow storage events).storage = kept ++ added ∧
      CostsExactly params pending.notes (loadNotes storage) kept added

/-- After a resolved transfer to another key, the payment is in the sender's
own wallet. -/
theorem TransferResolved.not_costsExactly
    {environment : TransferEnvironment}
    {params : TransferParams}
    {storage : LocalStorage}
    {events : List ClientEvent}
    {pending : PendingTransfer}
    (foreign : params.recipientPubkey ≠ params.myPubkey)
    (resolved : TransferResolved environment params storage events pending)
    {kept added : List Note}
    (stored : loadNotes (pending.follow storage events).storage =
      kept ++ added) :
    ¬CostsExactly params pending.notes (loadNotes storage) kept added := by
  obtain ⟨submits, once, _⟩ := resolved
  intro costs
  rw [PendingTransfer.loadNotes_follow, once, Function.iterate_one,
    TransferNotes.settle] at stored
  have sameLength : ((loadNotes storage).map
      (markSpent pending.notes.inputCommitments)).length = kept.length := by
    rw [List.length_map]
    exact costs.kept.length_eq
  obtain ⟨_, rfl⟩ := List.append_inj stored sameLength
  obtain ⟨payment, isOutput, recipient, _⟩ := chooseNotes_payment
    (chooseNotes_of_executePrivateTransfer submits)
  have own := costs.ownNotes (newNote payment) (List.mem_map_of_mem isOutput)
  exact foreign (recipient.symm.trans own)

/-- No resolved transfer to another key costs the sender the amount: the cost
is right only when nothing resolves. -/
theorem executePrivateTransfer_costsExactly_iff
    (environment : TransferEnvironment)
    (params : TransferParams)
    (foreign : params.recipientPubkey ≠ params.myPubkey)
    (storage : LocalStorage)
    (events : List ClientEvent) :
    TransferCostsExactly environment params storage events ↔
      ∀ pending,
        ¬TransferResolved environment params storage events pending := by
  constructor
  · intro costsExactly pending resolved
    obtain ⟨kept, added, stored, costs⟩ := costsExactly pending resolved
    exact resolved.not_costsExactly foreign stored costs
  · intro unresolved pending resolved
    exact absurd resolved (unresolved pending)

/-! ## The outcome of a transfer -/

/-- Some event reports the extrinsic finalized without a dispatch error. -/
def finalizedSuccessfully (events : List ClientEvent) : Prop :=
  ∃ event ∈ events, event.finalizedSuccess = true

instance (events : List ClientEvent) :
    Decidable (finalizedSuccessfully events) :=
  inferInstanceAs (Decidable (∃ event ∈ events, event.finalizedSuccess = true))

/-- After the last event, the wallet is settled once when the extrinsic was
finalized successfully, and unchanged otherwise. -/
def FollowsOutcome
    (pending : PendingTransfer)
    (storage : LocalStorage)
    (events : List ClientEvent) : Prop :=
  loadNotes (pending.follow storage events).storage =
    if finalizedSuccessfully events then
      pending.notes.settle (loadNotes storage)
    else loadNotes storage

/-- Settling twice, or without need, shows in the number of notes. -/
theorem TransferNotes.iterate_settle_eq_iff
    (notes : TransferNotes)
    (someOutput : 0 < notes.outputNotes.length)
    (before : List Note)
    (count expected : Nat) :
    notes.settle^[count] before = notes.settle^[expected] before ↔
      count = expected := by
  constructor
  · intro same
    have sameLength := congrArg List.length same
    rw [TransferNotes.length_iterate_settle,
      TransferNotes.length_iterate_settle] at sameLength
    exact Nat.eq_of_mul_eq_mul_right someOutput
      (Nat.add_left_cancel sameLength)
  · rintro rfl
    rfl

/-- The wallet follows the outcome exactly when the in-block successes number
one for a successful finalization and none otherwise. -/
theorem executePrivateTransfer_followsOutcome_iff
    {environment : TransferEnvironment}
    {params : TransferParams}
    {storage : LocalStorage}
    {pending : PendingTransfer}
    (submits : executePrivateTransfer environment params storage =
      .ok pending)
    (events : List ClientEvent) :
    FollowsOutcome pending storage events ↔
      inBlockCount events = if finalizedSuccessfully events then 1 else 0 := by
  have someOutput := (chooseNotes_output_length
    (chooseNotes_of_executePrivateTransfer submits)).1
  rw [FollowsOutcome, PendingTransfer.loadNotes_follow]
  by_cases success : finalizedSuccessfully events
  · rw [if_pos success, if_pos success]
    exact pending.notes.iterate_settle_eq_iff someOutput _ _ 1
  · rw [if_neg success, if_neg success]
    exact pending.notes.iterate_settle_eq_iff someOutput _ _ 0

/-! ## A sample transfer -/

/-- A prover with keys that returns one proof. -/
def sampleProofSystem : ProofSystem where
  zkeyBuffer := some []
  vKey := none
  fullProve := fun _ _ => .ok
    { proof := ⟨("1", "2"), (("3", "4"), ("5", "6")), ("7", "8")⟩
      publicSignals := [] }
  verify := fun _ _ _ => .ok true

theorem sampleProofSystem_accepting : sampleProofSystem.Accepting where
  generates := fun _ => ⟨_, rfl, rfl⟩

/-- An initialized prover with the sum as its hash function. -/
def sampleEnvironment : TransferEnvironment where
  circuit := initialized fun inputs => inputs.sum
  proofSystem := sampleProofSystem
  paymentPlatform := ⟨3, 0⟩
  changePlatform := ⟨4, 0⟩

/-- A payment of `12` from the key `1` to the key `2`. -/
def sampleParams : TransferParams where
  recipientPubkey := 2
  amount := 12
  myPubkey := 1

/-- The sample wallet submits the payment. -/
theorem sampleStorage_submits :
    ∃ pending,
      executePrivateTransfer sampleEnvironment sampleParams sampleStorage =
        .ok pending := by
  have stored : loadNotes sampleStorage =
      [sampleNote "11" 3, sampleNote "12" 8, sampleNote "13" 5] :=
    loadNotes_saveNotes _ _
  have spendable : spendableNotes sampleStorage = loadNotes sampleStorage := by
    rw [spendableNotes, stored]
    decide
  have reaches : ReachesTarget (spendableNotes sampleStorage) 12 4
      (spendableNotes sampleStorage) := by
    refine ⟨List.Subperm.refl _, ?_, ?_⟩ <;> rw [spendable, stored] <;> decide
  have positive : 0 < sampleParams.amount := by decide
  obtain ⟨selection, selects⟩ := selectNotesForTransfer_returns positive reaches
  apply executePrivateTransfer_returns rfl sampleProofSystem_accepting positive
    selects
  intro note isSelected
  have member := (selectNotesForTransfer_minimal positive
    selects).reaches.choice.subset isSelected
  have parsed : ∀ note ∈ loadNotes sampleStorage, note.commitment ≠ "" ∧
      stringToBigInt note.commitment ≠ none := by
    rw [stored]
    decide
  obtain ⟨notEmpty, isNumeral⟩ := parsed note (spendable ▸ member)
  obtain ⟨value, reads⟩ := Option.ne_none_iff_exists'.mp isNumeral
  exact ⟨notEmpty, (value : Circuit.Fr), by rw [readField, reads]; rfl⟩

/-- The payment resolves when it is in a block. -/
theorem sampleStorage_resolves :
    ∃ pending, TransferResolved sampleEnvironment sampleParams sampleStorage
      [.status ⟨.inBlock "0x01", none⟩] pending := by
  obtain ⟨pending, submits⟩ := sampleStorage_submits
  exact ⟨pending, submits, rfl, "0x01", rfl⟩

/-- The sample payment in a block. -/
theorem sampleStorage_costsExactly_iff :
    sampleParams.recipientPubkey ≠ sampleParams.myPubkey ∧
    (TransferCostsExactly sampleEnvironment sampleParams sampleStorage
        [.status ⟨.inBlock "0x01", none⟩] ↔
      ∀ pending,
        ¬TransferResolved sampleEnvironment sampleParams sampleStorage
          [.status ⟨.inBlock "0x01", none⟩] pending) :=
  ⟨by decide, executePrivateTransfer_costsExactly_iff sampleEnvironment
    sampleParams (by decide) sampleStorage _⟩

/-- The sender of a payment keeps it. -/
theorem executePrivateTransfer_keeps_payment :
    ¬∀ (environment : TransferEnvironment) (params : TransferParams)
        (storage : LocalStorage) (events : List ClientEvent),
      0 < params.amount -> params.recipientPubkey ≠ params.myPubkey ->
      TransferCostsExactly environment params storage events := by
  intro costsExactly
  obtain ⟨pending, resolved⟩ := sampleStorage_resolves
  obtain ⟨kept, added, stored, costs⟩ := costsExactly sampleEnvironment
    sampleParams sampleStorage _ (by decide) (by decide) pending resolved
  exact resolved.not_costsExactly (by decide) stored costs

/-- A payment that is in a block, retracted, in a block again and finalized. -/
def reincluded : List ClientEvent :=
  [.status ⟨.inBlock "0x01", none⟩, .status ⟨.retracted "0x01", none⟩,
    .status ⟨.inBlock "0x02", none⟩, .status ⟨.finalized "0x02", none⟩]

/-- The sample payment is included again after a retraction. -/
theorem sampleStorage_followsOutcome_iff :
    ∃ pending,
      executePrivateTransfer sampleEnvironment sampleParams sampleStorage =
        .ok pending ∧
      (FollowsOutcome pending sampleStorage reincluded ↔
        inBlockCount reincluded =
          if finalizedSuccessfully reincluded then 1 else 0) := by
  obtain ⟨pending, submits⟩ := sampleStorage_submits
  exact ⟨pending, submits,
    executePrivateTransfer_followsOutcome_iff submits reincluded⟩

/-- A payment that is included twice is settled twice. -/
theorem executePrivateTransfer_settles_twice :
    ¬∀ (environment : TransferEnvironment) (params : TransferParams)
        (storage : LocalStorage) (pending : PendingTransfer)
        (events : List ClientEvent),
      executePrivateTransfer environment params storage = .ok pending ->
      FollowsOutcome pending storage events := by
  intro follows
  obtain ⟨pending, submits⟩ := sampleStorage_submits
  have outcome := follows _ _ _ _ reincluded submits
  have twice : inBlockCount reincluded = 2 := by decide
  have success : finalizedSuccessfully reincluded := by decide
  rw [FollowsOutcome, PendingTransfer.loadNotes_follow, if_pos success] at outcome
  have someOutput := (chooseNotes_output_length
    (chooseNotes_of_executePrivateTransfer submits)).1
  have once := (pending.notes.iterate_settle_eq_iff someOutput _ _ 1).mp outcome
  rw [twice] at once
  exact absurd once (by decide)

end Client
end Privachain

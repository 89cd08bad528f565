import Privachain.Client.Submission

/-!
# Transactions of the chain API

Each transaction is a promise that the callback of `signAndSend` resolves when the
extrinsic is finalized.  The handle that ends the subscription arrives in a promise
of its own, before or after the results of the extrinsic.
-/

namespace Privachain
namespace Client

open Foundation
open Foundation.JavaScript

/-! ## Submitting -/

structure TransactionResult where
  blockHash : String
  txHash : String
  success : Bool
  events : List Value
  error : Option String := none

/-- A status result with its events, as `toHuman()` shows them. -/
structure StatusResult extends SubmittableResult where
  events : List Value

/-- The message of a failed transaction. -/
def DispatchError.message : DispatchError -> String
  | .module sectionName name docs =>
      s!"{sectionName}.{name}: " ++ String.intercalate " " docs
  | .other text => text

/-- What reaches a submitted transaction: a status result, the handle that ends
the subscription, or the rejection of the submission. -/
inductive TransactionEvent
  | status (result : StatusResult)
  | handle
  | failed (error : String)

/-- A submitted transaction: its promise, how often that was resolved or rejected,
whether the handle has arrived, and how often it was called. -/
structure SubmittedTransaction where
  promise : Promise TransactionResult := .pending
  settlements : Nat := 0
  unsubscribe : Bool := false
  releases : Nat := 0

namespace SubmittedTransaction

variable
  (failure txHash : String)
  (transaction : SubmittedTransaction)

/-- `resolve(result)` -/
def resolve (result : TransactionResult) : SubmittedTransaction :=
  { transaction with
    promise := transaction.promise.resolve result
    settlements := transaction.settlements + 1 }

/-- `if (unsubscribe) unsubscribe()` -/
def release : SubmittedTransaction :=
  if transaction.unsubscribe then
    { transaction with releases := transaction.releases + 1 }
  else transaction

/-- The callback of `signAndSend`. -/
def onStatus (result : StatusResult) : SubmittedTransaction :=
  match result.status with
  | .finalized blockHash =>
      match result.dispatchError with
      | some dispatchError =>
          transaction.release.resolve
            { blockHash := blockHash
              txHash := txHash
              success := false
              events := result.events
              error := some dispatchError.message }
      | none =>
          transaction.release.resolve
            { blockHash := blockHash
              txHash := txHash
              success := true
              events := result.events }
  -- an extrinsic in a block is only logged
  | _ => transaction

/-- One event, with the `then` and `catch` of the submission. -/
def deliver : TransactionEvent -> SubmittedTransaction
  | .status result => transaction.onStatus txHash result
  | .handle => { transaction with unsubscribe := true }
  | .failed error =>
      { transaction with
        promise := transaction.promise.reject (.error s!"{failure}: {error}")
        settlements := transaction.settlements + 1 }

/-- The transaction after some events. -/
def follow (events : List TransactionEvent) : SubmittedTransaction :=
  run (deliver failure txHash) {} events

end SubmittedTransaction

/-- `deposit(params, signer)`, with the hash of its extrinsic. -/
def deposit (txHash : String) : List TransactionEvent -> SubmittedTransaction :=
  SubmittedTransaction.follow "Failed to submit deposit" txHash

/-- `privateTransfer(params, signer)` -/
def privateTransfer (txHash : String) :
    List TransactionEvent -> SubmittedTransaction :=
  SubmittedTransaction.follow "Failed to submit private transfer" txHash

/-- `withdraw(params, signer)` -/
def withdraw (txHash : String) : List TransactionEvent -> SubmittedTransaction :=
  SubmittedTransaction.follow "Failed to submit withdraw" txHash

/-- The transactions of the chain API. -/
inductive Transaction
  | deposit
  | privateTransfer
  | withdraw
  deriving DecidableEq

/-- The transaction submitted by its function. -/
def Transaction.submit :
    Transaction -> String -> List TransactionEvent -> SubmittedTransaction
  | .deposit => Client.deposit
  | .privateTransfer => Client.privateTransfer
  | .withdraw => Client.withdraw

/-! ## Sequences of results -/

/-- No status follows: the extrinsic is finalized, or an error ends it. -/
def ExtrinsicStatus.isTerminal : ExtrinsicStatus -> Bool
  | .finalized _ => true
  | .finalityTimeout _ => true
  | .usurped => true
  | .dropped => true
  | .invalid => true
  | .future => false
  | .ready => false
  | .broadcast => false
  | .inBlock _ => false
  | .retracted _ => false

/-- A sequence of status results that ends in a terminal status. -/
structure StatusSequence where
  progress : List StatusResult
  last : StatusResult
  inProgress : ∀ result ∈ progress, result.status.isTerminal = false
  terminal : last.status.isTerminal = true

/-- The events of a sequence when the handle arrives after some of its
results. -/
def StatusSequence.events
    (sequence : StatusSequence)
    (arrival : Nat) : List TransactionEvent :=
  let results := sequence.progress ++ [sequence.last]
  (results.take arrival).map .status ++
    .handle :: (results.drop arrival).map .status

/-- The last status is finalized without a dispatch error. -/
def StatusSequence.Succeeds (sequence : StatusSequence) : Prop :=
  sequence.last.dispatchError = none ∧
    ∃ blockHash, sequence.last.status = .finalized blockHash

/-- A transaction was settled once, with a success exactly when it is one, and its
subscription was released. -/
structure ReportsOutcome
    (sequence : StatusSequence)
    (transaction : SubmittedTransaction) : Prop where
  settledOnce : transaction.settlements = 1
  success : sequence.Succeeds ->
    ∃ result, transaction.promise = .fulfilled result ∧ result.success = true
  failure : ¬sequence.Succeeds ->
    (∃ result, transaction.promise = .fulfilled result ∧ result.success = false) ∨
      ∃ reason, transaction.promise = .rejected reason
  released : 0 < transaction.releases

/-! ## The outcome of a sequence -/

section Outcome

variable
  {failure txHash : String}
  {transaction : SubmittedTransaction}

/-- Only a finalized extrinsic changes the transaction. -/
theorem SubmittedTransaction.onStatus_of_not_finalized
    {result : StatusResult}
    (notFinalized : ∀ blockHash, result.status ≠ .finalized blockHash) :
    transaction.onStatus txHash result = transaction := by
  unfold onStatus
  split
  next blockHash finalized => exact absurd finalized (notFinalized blockHash)
  next => rfl

/-- **Run.**  Results in progress change nothing. -/
theorem SubmittedTransaction.run_progress
    {results : List StatusResult}
    (inProgress : ∀ result ∈ results, result.status.isTerminal = false) :
    run (deliver failure txHash) transaction (results.map .status) =
      transaction := by
  induction results with
  | nil => rfl
  | cons first rest inductionHypothesis =>
      obtain ⟨firstInProgress, restInProgress⟩ := List.forall_mem_cons.mp inProgress
      have unchanged : transaction.onStatus txHash first = transaction := by
        apply onStatus_of_not_finalized
        intro blockHash finalized
        rw [finalized] at firstInProgress
        cases firstInProgress
      rw [List.map_cons, run_cons, deliver, unchanged]
      exact inductionHypothesis restInProgress

/-- When the handle arrives before the last result, that is delivered with the
handle. -/
theorem SubmittedTransaction.follow_events_of_le
    (sequence : StatusSequence)
    {arrival : Nat}
    (before : arrival ≤ sequence.progress.length) :
    follow failure txHash (sequence.events arrival) =
      onStatus txHash { unsubscribe := true } sequence.last := by
  have firstInProgress : ∀ result ∈ sequence.progress.take arrival,
      result.status.isTerminal = false :=
    fun result member => sequence.inProgress result (List.mem_of_mem_take member)
  have restInProgress : ∀ result ∈ sequence.progress.drop arrival,
      result.status.isTerminal = false :=
    fun result member => sequence.inProgress result (List.mem_of_mem_drop member)
  rw [follow, StatusSequence.events, List.take_append_of_le_length before,
    List.drop_append_of_le_length before, run_append, run_progress firstInProgress,
    run_cons, List.map_append, run_append, run_progress restInProgress]
  rfl

/-- When it arrives later, the last result is delivered without it. -/
theorem SubmittedTransaction.follow_events_of_lt
    (sequence : StatusSequence)
    {arrival : Nat}
    (after : sequence.progress.length < arrival) :
    follow failure txHash (sequence.events arrival) =
      { onStatus txHash {} sequence.last with unsubscribe := true } := by
  have all : (sequence.progress ++ [sequence.last]).length ≤ arrival := by
    rw [List.length_append, List.length_singleton]
    exact after
  rw [follow, StatusSequence.events, List.take_of_length_le all,
    List.drop_of_length_le all, run_append, List.map_append, run_append,
    run_progress sequence.inProgress]
  rfl

/-- The last result reports the outcome when the extrinsic is finalized and the
handle is there. -/
theorem SubmittedTransaction.onStatus_finalized
    {sequence : StatusSequence}
    {blockHash : String}
    (finalized : sequence.last.status = .finalized blockHash) :
    ReportsOutcome sequence (onStatus txHash { unsubscribe := true } sequence.last) := by
  cases failed : sequence.last.dispatchError with
  | some dispatchError =>
      have fails : ¬sequence.Succeeds := by
        rintro ⟨succeeded, _⟩
        rw [failed] at succeeded
        cases succeeded
      simp only [onStatus, finalized, failed]
      exact ⟨rfl, fun succeeds => absurd succeeds fails, fun _ => .inl ⟨_, rfl, rfl⟩,
        Nat.one_pos⟩
  | none =>
      simp only [onStatus, finalized, failed]
      exact ⟨rfl, fun _ => ⟨_, rfl, rfl⟩,
        fun fails => absurd ⟨failed, blockHash, finalized⟩ fails, Nat.one_pos⟩

/-- Without the handle nothing is released. -/
theorem SubmittedTransaction.onStatus_releases (result : StatusResult) :
    (onStatus txHash {} result).releases = 0 := by
  unfold onStatus
  split
  · split <;> rfl
  · rfl

/-- A followed transaction reports its outcome exactly when the handle arrives
before the last result and that is finalized. -/
theorem SubmittedTransaction.reportsOutcome_follow_iff
    (sequence : StatusSequence)
    (arrival : Nat) :
    ReportsOutcome sequence (follow failure txHash (sequence.events arrival)) ↔
      arrival ≤ sequence.progress.length ∧
        ∃ blockHash, sequence.last.status = .finalized blockHash := by
  by_cases before : arrival ≤ sequence.progress.length
  · rw [follow_events_of_le sequence before, and_iff_right before]
    constructor
    · intro reports
      by_contra notFinalized
      rw [not_exists] at notFinalized
      have settled := reports.settledOnce
      rw [onStatus_of_not_finalized notFinalized] at settled
      cases settled
    · rintro ⟨blockHash, finalized⟩
      exact onStatus_finalized finalized
  · rw [follow_events_of_lt sequence (Nat.not_le.mp before)]
    refine iff_of_false (fun reports => ?_) fun reports => before reports.1
    have released := reports.released
    rw [show _ = 0 from onStatus_releases sequence.last] at released
    exact Nat.lt_irrefl 0 released

end Outcome

/-- **Outcomes.**  A transaction reports its outcome exactly when it is finalized
and the handle of its subscription arrives before that. -/
theorem reportsOutcome_iff
    (transaction : Transaction)
    (txHash : String)
    (sequence : StatusSequence)
    (arrival : Nat) :
    ReportsOutcome sequence
        (transaction.submit txHash (sequence.events arrival)) ↔
      arrival ≤ sequence.progress.length ∧
        ∃ blockHash, sequence.last.status = .finalized blockHash := by
  cases transaction with
  | deposit => exact SubmittedTransaction.reportsOutcome_follow_iff sequence arrival
  | privateTransfer =>
      exact SubmittedTransaction.reportsOutcome_follow_iff sequence arrival
  | withdraw => exact SubmittedTransaction.reportsOutcome_follow_iff sequence arrival

/-- An extrinsic that the pool drops. -/
def droppedSequence : StatusSequence where
  progress := [⟨⟨.ready, none⟩, []⟩]
  last := ⟨⟨.dropped, none⟩, []⟩
  inProgress := by decide
  terminal := rfl

/-- The promise of a dropped deposit is never settled. -/
theorem dropped_deposit_stays_pending :
    ¬ReportsOutcome droppedSequence
      (Transaction.deposit.submit "0x01" (droppedSequence.events 0)) := by
  intro reports
  cases reports.settledOnce

end Client
end Privachain

import Privachain.Client.Notes
import Privachain.Foundation.Runs
import Mathlib.Logic.Function.Iterate

/-!
# Submitted extrinsics

The chain client reports the progress of an extrinsic to the callback given to
`signAndSend`.  The callbacks of the wallet differ only in what they do with the
stored notes when the extrinsic is in a block.
-/

namespace Privachain
namespace Client

open Foundation
open Foundation.JavaScript

/-! ## Status results -/

/-- `ExtrinsicStatus`, with the block hashes as strings. -/
inductive ExtrinsicStatus
  | future
  | ready
  | broadcast
  | inBlock (blockHash : String)
  | retracted (blockHash : String)
  | finalityTimeout (blockHash : String)
  | finalized (blockHash : String)
  | usurped
  | dropped
  | invalid
  deriving DecidableEq

/-- `dispatchError`: a module error as `findMetaError` decodes it, or another
one by its text. -/
inductive DispatchError
  | module (sectionName name : String) (docs : List String)
  | other (text : String)
  deriving DecidableEq

/-- The error that the callbacks reject with. -/
def DispatchError.toException : DispatchError -> Exception
  | .module sectionName name docs =>
      .error (s!"{sectionName}.{name}: " ++ String.intercalate " " docs)
  | .other text => .error text

/-- The part of `ISubmittableResult` that the callbacks read. -/
structure SubmittableResult where
  status : ExtrinsicStatus
  dispatchError : Option DispatchError
  deriving DecidableEq

/-- What reaches the wallet after `signAndSend`: a status result, or the
rejection of the submission itself. -/
inductive ClientEvent
  | status (result : SubmittableResult)
  | sendFailed (reason : Exception)
  deriving DecidableEq

namespace ClientEvent

/-- The extrinsic is in a block and did not fail. -/
def inBlockSuccess : ClientEvent -> Bool
  | .status ⟨.inBlock _, none⟩ => true
  | _ => false

/-- The extrinsic is finalized and did not fail. -/
def finalizedSuccess : ClientEvent -> Bool
  | .status ⟨.finalized _, none⟩ => true
  | _ => false

end ClientEvent

/-! ## The callbacks -/

/-- The wallet while it follows an extrinsic: its notes and the promise that the
caller holds. -/
structure Subscription where
  storage : LocalStorage
  promise : Promise String

/-- The state when `signAndSend` is called. -/
def Subscription.start (storage : LocalStorage) : Subscription where
  storage := storage
  promise := .pending

/-- The callback of `signAndSend`, with what it does to the notes when the
extrinsic is in a block. -/
def Subscription.onStatus
    (onInBlock : LocalStorage -> LocalStorage)
    (subscription : Subscription)
    (result : SubmittableResult) : Subscription :=
  match result.dispatchError with
  | some dispatchError =>
      { subscription with
        promise := subscription.promise.reject dispatchError.toException }
  | none =>
      match result.status with
      | .inBlock blockHash =>
          { storage := onInBlock subscription.storage
            promise := subscription.promise.resolve blockHash }
      -- a finalized extrinsic is only logged
      | _ => subscription

/-- One event of the chain client, with `.catch(reject)`. -/
def Subscription.deliver
    (onInBlock : LocalStorage -> LocalStorage)
    (subscription : Subscription) : ClientEvent -> Subscription
  | .status result => subscription.onStatus onInBlock result
  | .sendFailed reason =>
      { subscription with promise := subscription.promise.reject reason }

/-- The state after the events of one extrinsic. -/
def Subscription.follow
    (onInBlock : LocalStorage -> LocalStorage)
    (storage : LocalStorage)
    (events : List ClientEvent) : Subscription :=
  run (Subscription.deliver onInBlock) (Subscription.start storage) events

/-! ## The notes after a sequence of events -/

/-- One event changes the notes exactly when it is an in-block success. -/
theorem Subscription.deliver_storage
    (onInBlock : LocalStorage -> LocalStorage)
    (subscription : Subscription)
    (event : ClientEvent) :
    (subscription.deliver onInBlock event).storage =
      if event.inBlockSuccess then onInBlock subscription.storage
      else subscription.storage := by
  cases event with
  | sendFailed reason => rfl
  | status result =>
      obtain ⟨status, dispatchError⟩ := result
      cases dispatchError with
      | some error => cases status <;> rfl
      | none => cases status <;> rfl

/-- The number of in-block successes in a sequence of events. -/
def inBlockCount (events : List ClientEvent) : Nat :=
  events.countP ClientEvent.inBlockSuccess

@[simp] theorem inBlockCount_nil : inBlockCount [] = 0 := rfl

@[simp] theorem inBlockCount_cons
    (event : ClientEvent)
    (events : List ClientEvent) :
    inBlockCount (event :: events) =
      inBlockCount events + if event.inBlockSuccess then 1 else 0 :=
  List.countP_cons

/-- The update of the notes runs once for every in-block success. -/
theorem Subscription.run_storage
    (onInBlock : LocalStorage -> LocalStorage)
    (subscription : Subscription)
    (events : List ClientEvent) :
    (run (Subscription.deliver onInBlock) subscription events).storage =
      onInBlock^[inBlockCount events] subscription.storage := by
  induction events generalizing subscription with
  | nil => rfl
  | cons event events inductionHypothesis =>
      rw [run_cons, inductionHypothesis, Subscription.deliver_storage,
        inBlockCount_cons]
      cases event.inBlockSuccess with
      | true => rfl
      | false => rfl

theorem Subscription.follow_storage
    (onInBlock : LocalStorage -> LocalStorage)
    (storage : LocalStorage)
    (events : List ClientEvent) :
    (Subscription.follow onInBlock storage events).storage =
      onInBlock^[inBlockCount events] storage :=
  Subscription.run_storage onInBlock (Subscription.start storage) events

end Client
end Privachain

import Privachain.Foundation.JavaScript

/-!
# The database of the wallet

`AsyncStorage` holds the commitments and the transactions as one JSON list each.
Every function that changes a list reads it whole and writes it whole.
-/

namespace Privachain
namespace Client

open Foundation
open Foundation.JavaScript

/-! ## Commitments -/

/-- `interface StoredCommitment` -/
structure StoredCommitment where
  id : String
  commitment : String
  amount : String
  secret : String
  recipient : String
  spent : Bool
  blockNumber : Int
  transactionHash : String
  timestamp : Int
  note : Option String := none
  deriving DecidableEq

/-- The list that a stored item is read as: no item, a failed read and a text
that is not JSON all give the empty list. -/
def readList {α : Type}
    (getItem : Except Exception (Option (JsonText (List α)))) : List α :=
  match getItem with
  | .ok (some data) =>
      match JSON.parse data with
      | .ok items => items
      | .error _ => []
  | .ok none => []
  | .error _ => []

/-- `getCommitments()`, on the outcome of its read. -/
def getCommitments
    (getItem : Except Exception (Option (JsonText (List StoredCommitment)))) :
    List StoredCommitment :=
  readList getItem

/-- The functions that change the list of commitments. -/
inductive CommitmentCall
  | saveCommitment (commitment : StoredCommitment)
  | markCommitmentSpent (commitmentHash : String)
  | deleteCommitment (id : String)
  deriving DecidableEq

/-- The list that the function writes for the list it has read. -/
def CommitmentCall.updated
    (call : CommitmentCall)
    (commitments : List StoredCommitment) : List StoredCommitment :=
  match call with
  | .saveCommitment commitment => commitments ++ [commitment]
  | .markCommitmentSpent commitmentHash =>
      commitments.map fun c =>
        if c.commitment = commitmentHash then { c with spent := true } else c
  | .deleteCommitment id => commitments.filter fun c => c.id ≠ id

/-! ## Transactions -/

/-- The `type` of a transaction. -/
inductive TransactionType
  | deposit
  | privateTransfer
  | withdraw
  deriving DecidableEq

/-- The `status` of a transaction. -/
inductive TransactionStatus
  | pending
  | confirmed
  | failed
  deriving DecidableEq

/-- `interface StoredTransaction`; `fromAddress` and `toAddress` are its `from`
and `to`. -/
structure StoredTransaction where
  id : String
  type : TransactionType
  status : TransactionStatus
  amount : String
  fromAddress : Option String := none
  toAddress : Option String := none
  blockNumber : Option Int := none
  blockHash : Option String := none
  transactionHash : Option String := none
  timestamp : Int
  error : Option String := none
  metadata : Value := .undefined

/-- `Partial<StoredTransaction>`: the properties that are present. -/
structure TransactionUpdates where
  id : Option String := none
  type : Option TransactionType := none
  status : Option TransactionStatus := none
  amount : Option String := none
  fromAddress : Option (Option String) := none
  toAddress : Option (Option String) := none
  blockNumber : Option (Option Int) := none
  blockHash : Option (Option String) := none
  transactionHash : Option (Option String) := none
  timestamp : Option Int := none
  error : Option (Option String) := none
  metadata : Option Value := none

/-- `{ ...t, ...updates }` -/
def StoredTransaction.spread
    (t : StoredTransaction)
    (updates : TransactionUpdates) : StoredTransaction where
  id := updates.id.getD t.id
  type := updates.type.getD t.type
  status := updates.status.getD t.status
  amount := updates.amount.getD t.amount
  fromAddress := updates.fromAddress.getD t.fromAddress
  toAddress := updates.toAddress.getD t.toAddress
  blockNumber := updates.blockNumber.getD t.blockNumber
  blockHash := updates.blockHash.getD t.blockHash
  transactionHash := updates.transactionHash.getD t.transactionHash
  timestamp := updates.timestamp.getD t.timestamp
  error := updates.error.getD t.error
  metadata := updates.metadata.getD t.metadata

/-- `getTransactions()`, on the outcome of its read. -/
def getTransactions
    (getItem : Except Exception (Option (JsonText (List StoredTransaction)))) :
    List StoredTransaction :=
  readList getItem

/-- The functions that change the list of transactions. -/
inductive TransactionCall
  | saveTransaction (transaction : StoredTransaction)
  | updateTransactionStatus
      (id : String)
      (status : TransactionStatus)
      (updates : TransactionUpdates)
  | deleteTransaction (id : String)

/-- The list that the function writes for the list it has read; a saved
transaction comes first. -/
def TransactionCall.updated
    (call : TransactionCall)
    (transactions : List StoredTransaction) : List StoredTransaction :=
  match call with
  | .saveTransaction transaction => transaction :: transactions
  | .updateTransactionStatus id status updates =>
      transactions.map fun t =>
        if t.id = id then { t with status := status }.spread updates else t
  | .deleteTransaction id => transactions.filter fun t => t.id ≠ id

end Client
end Privachain

import Privachain.Foundation.Batches
import Privachain.Foundation.JavaScript

/-!
# The indexer

The indexer serves the history of the chain over HTTP.  A request is rejected on
a network error; otherwise there is a response, whose status need not be a
success and whose body need not be JSON.
-/

namespace Privachain
namespace Client

open Foundation
open Foundation.JavaScript

/-! ## Records and events -/

structure IndexerConfig where
  endpoint : String
  fallbackToChain : Option Bool := none
  deriving DecidableEq

/-- A commitment with its leaf index; a scan copies both from the data of an event
as they are. -/
structure CommitmentRecord where
  commitment : Value
  index : Value
  blockNumber : Int
  transactionHash : String
  timestamp : Int

structure NullifierRecord where
  nullifier : Value
  blockNumber : Int
  transactionHash : String
  timestamp : Int

/-- The types of transfer events. -/
inductive EventType
  | deposit
  | privateTransfer
  | withdraw
  deriving DecidableEq

/-- An event with the properties of its `data`, an object of any shape. -/
structure TransferEvent where
  type : EventType
  blockNumber : Int
  blockHash : String
  transactionHash : String
  timestamp : Int
  data : List (String × Value)

/-- `event.data[name]` -/
def TransferEvent.dataOf (event : TransferEvent) (name : String) : Value :=
  (event.data.lookup name).getD .undefined

/-! ## Requests -/

/-- A response: its status and what `json()` makes of its body. -/
structure Response (α : Type) where
  status : Nat
  json : Except Exception α

/-- `response.ok` -/
def Response.ok {α : Type} (response : Response α) : Bool :=
  decide (200 ≤ response.status) && decide (response.status ≤ 299)

/-- What `fetch` gives: a response, or a rejection when there is none. -/
abbrev Fetched (α : Type) := Except Exception (Response α)

/-- How an indexer answers the requests of the client. -/
structure Indexer where
  health : Fetched Unit
  commitment : (index : Int) -> Fetched (Option CommitmentRecord)
  commitments : (startIndex endIndex : Int) -> Fetched (List CommitmentRecord)
  nullifier : (nullifier : String) -> Fetched NullifierRecord
  events : (startBlock endBlock : Int) -> Option EventType ->
    Fetched (List TransferEvent)

section Queries

variable
  (indexerConfig : Option IndexerConfig)
  (indexer : Indexer)

/-- `isIndexerAvailable()` -/
def isIndexerAvailable : Bool :=
  match indexerConfig with
  | none => false
  | some _ =>
      match indexer.health with
      | .ok response => response.ok
      | .error _ => false

/-- `fetchWithFallback(indexerFn, chainFallbackFn)` -/
def fetchWithFallback
    {α : Type}
    (indexerFn chainFallbackFn : Except Exception α) : Except Exception α :=
  -- without an answer the fallback is asked, unless it is disabled
  let fallback : Except Exception α :=
    if (indexerConfig.bind IndexerConfig.fallbackToChain).getD false then
      chainFallbackFn
    else .error (.error "Indexer unavailable and fallback disabled")
  if isIndexerAvailable indexerConfig indexer then
    match indexerFn with
    | .ok result => .ok result
    | .error _ => fallback
  else fallback

/-- `if (!response.ok) return empty; return await response.json()` -/
def jsonOr
    {α : Type}
    (empty : α)
    (fetched : Fetched α) : Except Exception α := do
  let response ← fetched
  if response.ok then response.json else return empty

/-- `isNullifierSpentIndexer(nullifier)` -/
def isNullifierSpentIndexer (nullifier : String) : Bool :=
  match indexerConfig with
  | none => false
  | some _ =>
      match indexer.nullifier nullifier with
      | .ok response => response.ok
      | .error _ => false

/-- `getEventsInRange(startBlock, endBlock, eventType)` -/
def getEventsInRange
    (startBlock endBlock : Int)
    (eventType : Option EventType) : Except Exception (List TransferEvent) :=
  match indexerConfig with
  | none => .ok []
  | some _ =>
      match jsonOr [] (indexer.events startBlock endBlock eventType) with
      | .ok events => .ok events
      | .error _ => .ok []

/-- The events of the range are fetched: the indexer is configured and answers
with a success and a readable body. -/
def EventsFetched (startBlock endBlock : Int) : Prop :=
  indexerConfig.isSome ∧
    ∃ response, indexer.events startBlock endBlock none = .ok response ∧
      response.ok = true ∧ ∃ events, response.json = .ok events

end Queries

/-! ## What an indexer holds -/

/-- The events of the blocks of a range, in the order of the chain. -/
def eventsIn
    (held : Int -> List TransferEvent)
    (startBlock endBlock : Int) : List TransferEvent :=
  (interval startBlock endBlock).flatMap held

/-- The events that a successful answer brings are those of the requested
blocks. -/
def Indexer.Serves
    (indexer : Indexer)
    (held : Int -> List TransferEvent) : Prop :=
  ∀ startBlock endBlock response events,
    indexer.events startBlock endBlock none = .ok response ->
    response.ok = true -> response.json = .ok events ->
    events = eventsIn held startBlock endBlock

/-- Every request for events is answered with those of the requested blocks. -/
def Indexer.Reliable
    (indexer : Indexer)
    (held : Int -> List TransferEvent) : Prop :=
  ∀ startBlock endBlock, ∃ response,
    indexer.events startBlock endBlock none = .ok response ∧
      response.ok = true ∧
      response.json = .ok (eventsIn held startBlock endBlock)

end Client
end Privachain

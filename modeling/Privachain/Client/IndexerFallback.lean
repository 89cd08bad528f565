import Privachain.Client.Indexer

/-!
# Falling back to the chain

When the indexer is unavailable or a query fails, the chain is asked.  A response
that is no success is not a failure to the query functions: they take it for the
absence of what was asked for.
-/

namespace Privachain
namespace Client

open Foundation
open Foundation.JavaScript

/-! ## The chain -/

/-- The commitments and nullifiers of the simulated chain. -/
structure MockState where
  commitments : List (Int × String) := []
  nullifiers : List String := []

namespace MockState

variable (chain : MockState)

/-- `getCommitment(index)`: an empty text is no commitment. -/
def getCommitment (index : Int) : Option String :=
  (chain.commitments.lookup index).filter fun commitment => commitment != ""

/-- `getCommitmentsBatch(indices)` -/
def getCommitmentsBatch (indices : List Int) : List (Option String) :=
  indices.map chain.getCommitment

/-- `isNullifierSpent(nullifier)` -/
def isNullifierSpent (nullifier : String) : Bool :=
  chain.nullifiers.contains nullifier

end MockState

/-! ## The queries -/

/-- A record without the metadata of the indexer. -/
def minimalRecord (dateNow index : Int) (commitment : String) :
    CommitmentRecord where
  commitment := .string commitment
  index := .number index
  blockNumber := 0
  transactionHash := "0x"
  timestamp := dateNow

/-- `Array.from({ length }, (_, i) => element(i))` -/
def arrayFrom
    {α : Type}
    (length : Int)
    (element : Nat -> α) : Except Exception (List α) :=
  if 4294967295 < length then .error (.rangeError "Invalid array length")
  else .ok ((List.range length.toNat).map element)

section Queries

variable
  (indexerConfig : Option IndexerConfig)
  (indexer : Indexer)
  (chain : MockState)
  (dateNow : Int)

/-- `getCommitmentByIndex(index)` -/
def getCommitmentByIndex (index : Int) :
    Except Exception (Option CommitmentRecord) :=
  fetchWithFallback indexerConfig indexer
    (jsonOr none (indexer.commitment index))
    (.ok ((chain.getCommitment index).map (minimalRecord dateNow index)))

/-- `getCommitmentsInRange(startIndex, endIndex)` -/
def getCommitmentsInRange (startIndex endIndex : Int) :
    Except Exception (List CommitmentRecord) :=
  fetchWithFallback indexerConfig indexer
    (jsonOr [] (indexer.commitments startIndex endIndex))
    (do
      let indices ← arrayFrom (endIndex - startIndex + 1) fun i => startIndex + i
      let commitments := chain.getCommitmentsBatch indices
      let records := commitments.mapIdx fun i commitment =>
        commitment.map (minimalRecord dateNow (startIndex + i))
      return records.filterMap id)

end Queries

/-! ## Answers -/

section Answers

variable
  (indexerConfig : Option IndexerConfig)
  (indexer : Indexer)
  {α : Type}
  (fetched : Fetched α)

/-- The indexer answered a query: with a success and a readable body, or that it
does not know what was asked for. -/
def Answered : Prop :=
  isIndexerAvailable indexerConfig indexer = true ∧
    ∃ response, fetched = .ok response ∧
      (response.status = 404 ∨
        response.ok = true ∧ ∃ value, response.json = .ok value)

/-- The indexer refused a query: it is available, and responds with another status
that is no success. -/
def Refused : Prop :=
  isIndexerAvailable indexerConfig indexer = true ∧
    ∃ response, fetched = .ok response ∧
      response.status ≠ 404 ∧ response.ok = false

end Answers

/-- What the chain holds under an index. -/
def heldAt (chain : MockState) (dateNow index : Int) : Option CommitmentRecord :=
  (chain.getCommitment index).map (minimalRecord dateNow index)

/-- What the chain holds under the indices of a range. -/
def heldInRange
    (chain : MockState)
    (dateNow startIndex endIndex : Int) : List CommitmentRecord :=
  (interval startIndex endIndex).filterMap (heldAt chain dateNow)

/-- Without an answer of the indexer the queries give what the chain holds, and a
revealed nullifier is unspent only by an answer of the indexer. -/
structure NeverAbsent
    (indexerConfig : Option IndexerConfig)
    (indexer : Indexer)
    (chain : MockState)
    (dateNow index startIndex endIndex : Int)
    (nullifier : String) : Prop where
  byIndex : ¬Answered indexerConfig indexer (indexer.commitment index) ->
    getCommitmentByIndex indexerConfig indexer chain dateNow index =
      .ok (heldAt chain dateNow index)
  inRange :
    ¬Answered indexerConfig indexer (indexer.commitments startIndex endIndex) ->
    getCommitmentsInRange indexerConfig indexer chain dateNow startIndex endIndex =
      .ok (heldInRange chain dateNow startIndex endIndex)
  nullifier : chain.isNullifierSpent nullifier = true ->
    isNullifierSpentIndexer indexerConfig indexer nullifier = false ->
    ∃ response, indexer.nullifier nullifier = .ok response ∧
      response.status = 404

/-- What a query needs to give what the chain holds: where it was refused there is
nothing, and otherwise the chain can be asked. -/
structure FallsBackWell
    (indexerConfig : Option IndexerConfig)
    (indexer : Indexer)
    (chain : MockState)
    (index startIndex endIndex : Int)
    (nullifier : String) : Prop where
  byIndex : Refused indexerConfig indexer (indexer.commitment index) ->
    chain.getCommitment index = none
  inRange :
    Refused indexerConfig indexer (indexer.commitments startIndex endIndex) ->
    ∀ position, startIndex ≤ position -> position ≤ endIndex ->
      chain.getCommitment position = none
  length :
    ¬Answered indexerConfig indexer (indexer.commitments startIndex endIndex) ->
    ¬Refused indexerConfig indexer (indexer.commitments startIndex endIndex) ->
    endIndex - startIndex + 1 ≤ 4294967295
  nullifier : chain.isNullifierSpent nullifier = true ->
    ∃ response, indexer.nullifier nullifier = .ok response ∧
      (response.status = 404 ∨ response.ok = true)

/-! ## When the chain is asked -/

section Fallback

variable
  {config : IndexerConfig}
  {indexer : Indexer}
  {α : Type}
  {fetched : Fetched α}
  (empty : α)
  (fromChain : Except Exception α)

/-- A refused query gives the empty value. -/
theorem fetchWithFallback_of_refused
    (refused : Refused (some config) indexer fetched) :
    fetchWithFallback (some config) indexer (jsonOr empty fetched) fromChain =
      .ok empty := by
  obtain ⟨available, response, responded, _, notOk⟩ := refused
  have isEmpty : jsonOr empty fetched = .ok empty := by
    rw [responded]
    simp only [jsonOr, bind, Except.bind, notOk]
    rfl
  simp only [fetchWithFallback, available, isEmpty, if_true]

/-- A query that is neither answered nor refused gives what the chain gives. -/
theorem fetchWithFallback_of_failed
    (enabled : config.fallbackToChain = some true)
    (unanswered : ¬Answered (some config) indexer fetched)
    (notRefused : ¬Refused (some config) indexer fetched) :
    fetchWithFallback (some config) indexer (jsonOr empty fetched) fromChain =
      fromChain := by
  cases available : isIndexerAvailable (some config) indexer with
  | false => simp [fetchWithFallback, available, enabled]
  | true =>
      have failed : ∃ reason, jsonOr empty fetched = .error reason := by
        cases fetched with
        | error reason => exact ⟨reason, rfl⟩
        | ok response =>
            cases isOk : response.ok with
            | false =>
                by_cases unknown : response.status = 404
                · exact absurd ⟨available, response, rfl, .inl unknown⟩ unanswered
                · exact absurd ⟨available, response, rfl, unknown, isOk⟩ notRefused
            | true =>
                cases body : response.json with
                | error reason =>
                    refine ⟨reason, ?_⟩
                    simp only [jsonOr, bind, Except.bind, isOk, if_true, body]
                | ok value =>
                    exact absurd
                      ⟨available, response, rfl, .inr ⟨isOk, value, body⟩⟩
                      unanswered
      obtain ⟨reason, isError⟩ := failed
      simp [fetchWithFallback, available, isError, enabled]

/-- A query that is refused is not answered. -/
theorem not_answered_of_refused
    {indexerConfig : Option IndexerConfig}
    (refused : Refused indexerConfig indexer fetched) :
    ¬Answered indexerConfig indexer fetched := by
  obtain ⟨_, response, responded, notUnknown, notOk⟩ := refused
  rintro ⟨_, other, otherResponded, unknown | ⟨isOk, _⟩⟩
  · rw [responded] at otherResponded
    exact notUnknown (Except.ok.inj otherResponded ▸ unknown)
  · rw [responded] at otherResponded
    rw [← Except.ok.inj otherResponded, notOk] at isOk
    cases isOk

end Fallback

section Chain

variable
  (chain : MockState)
  (dateNow : Int)

/-- There is nothing in a range exactly when there is nothing under each of its
indices. -/
theorem heldInRange_eq_nil_iff (startIndex endIndex : Int) :
    heldInRange chain dateNow startIndex endIndex = [] ↔
      ∀ position, startIndex ≤ position -> position ≤ endIndex ->
        chain.getCommitment position = none := by
  simp only [heldInRange, List.filterMap_eq_nil_iff, heldAt, Option.map_eq_none_iff,
    mem_interval, and_imp]

/-- The records of the chain are what it holds, position by position. -/
theorem filterMap_getCommitmentsBatch (startIndex endIndex : Int) :
    ((chain.getCommitmentsBatch
        ((List.range (endIndex - startIndex + 1).toNat).map
          fun i : Nat => startIndex + i)).mapIdx fun i commitment =>
      commitment.map (minimalRecord dateNow (startIndex + i))).filterMap id =
        heldInRange chain dateNow startIndex endIndex := by
  have length : endIndex + 1 - startIndex = endIndex - startIndex + 1 := by omega
  rw [heldInRange, interval, length, MockState.getCommitmentsBatch]
  have positions : ((((List.range (endIndex - startIndex + 1).toNat).map
      fun i : Nat => startIndex + i).map chain.getCommitment).mapIdx
        fun i commitment =>
          commitment.map (minimalRecord dateNow (startIndex + i))) =
      ((List.range (endIndex - startIndex + 1).toNat).map
        fun i : Nat => startIndex + i).map (heldAt chain dateNow) := by
    refine List.ext_getElem (by simp) fun i _ _ => ?_
    simp [heldAt]
  rw [positions, List.filterMap_map]
  rfl

end Chain

/-! ## When absence is reported -/

section Absence

variable
  {config : IndexerConfig}
  (enabled : config.fallbackToChain = some true)
  (indexer : Indexer)
  (chain : MockState)
  (dateNow : Int)

include enabled

theorem getCommitmentByIndex_iff (index : Int) :
    (¬Answered (some config) indexer (indexer.commitment index) ->
      getCommitmentByIndex (some config) indexer chain dateNow index =
        .ok (heldAt chain dateNow index)) ↔
    (Refused (some config) indexer (indexer.commitment index) ->
      chain.getCommitment index = none) := by
  unfold getCommitmentByIndex
  by_cases refused : Refused (some config) indexer (indexer.commitment index)
  · rw [fetchWithFallback_of_refused _ _ refused, Except.ok.injEq, heldAt, eq_comm,
      Option.map_eq_none_iff]
    simp only [not_answered_of_refused refused, refused, not_false_eq_true,
      true_imp_iff]
  · refine iff_of_true (fun unanswered => ?_) fun isRefused => absurd isRefused refused
    rw [fetchWithFallback_of_failed _ _ enabled unanswered refused]
    rfl

theorem getCommitmentsInRange_iff (startIndex endIndex : Int) :
    (¬Answered (some config) indexer (indexer.commitments startIndex endIndex) ->
      getCommitmentsInRange (some config) indexer chain dateNow startIndex endIndex =
        .ok (heldInRange chain dateNow startIndex endIndex)) ↔
    (Refused (some config) indexer (indexer.commitments startIndex endIndex) ->
      ∀ position, startIndex ≤ position -> position ≤ endIndex ->
        chain.getCommitment position = none) ∧
    (¬Answered (some config) indexer (indexer.commitments startIndex endIndex) ->
      ¬Refused (some config) indexer (indexer.commitments startIndex endIndex) ->
      endIndex - startIndex + 1 ≤ 4294967295) := by
  unfold getCommitmentsInRange
  by_cases refused :
    Refused (some config) indexer (indexer.commitments startIndex endIndex)
  · rw [fetchWithFallback_of_refused _ _ refused, Except.ok.injEq, eq_comm,
      heldInRange_eq_nil_iff]
    simp only [not_answered_of_refused refused, refused, not_false_eq_true,
      true_imp_iff, not_true_eq_false, false_imp_iff, and_true]
  · by_cases answered :
      Answered (some config) indexer (indexer.commitments startIndex endIndex)
    · simp only [answered, refused, not_true_eq_false, false_imp_iff, and_self]
    · rw [fetchWithFallback_of_failed _ _ enabled answered refused]
      simp only [answered, refused, not_false_eq_true, true_imp_iff, false_imp_iff,
        true_and]
      by_cases tooLong : 4294967295 < endIndex - startIndex + 1
      · simp only [arrayFrom, tooLong, if_true, bind, Except.bind]
        exact iff_of_false (fun same => by cases same) (by omega)
      · simp only [arrayFrom, tooLong, if_false, bind, Except.bind, pure, Except.pure]
        rw [filterMap_getCommitmentsBatch]
        exact iff_of_true rfl (by omega)

omit enabled

theorem isNullifierSpentIndexer_iff (nullifier : String) :
    (chain.isNullifierSpent nullifier = true ->
      isNullifierSpentIndexer (some config) indexer nullifier = false ->
      ∃ response, indexer.nullifier nullifier = .ok response ∧
        response.status = 404) ↔
    (chain.isNullifierSpent nullifier = true ->
      ∃ response, indexer.nullifier nullifier = .ok response ∧
        (response.status = 404 ∨ response.ok = true)) := by
  refine imp_congr_right fun _ => ?_
  unfold isNullifierSpentIndexer
  cases indexer.nullifier nullifier with
  | error reason => simp
  | ok response =>
      cases isOk : response.ok with
      | false => simp [isOk]
      | true => simp [isOk]

/-- **Absence.**  Failures of the indexer are never reported as absence exactly
when the queries fall back well. -/
theorem neverAbsent_iff
    (endpoint : String)
    (index startIndex endIndex : Int)
    (nullifier : String) :
    NeverAbsent (some { endpoint, fallbackToChain := some true }) indexer chain
        dateNow index startIndex endIndex nullifier ↔
      FallsBackWell (some { endpoint, fallbackToChain := some true }) indexer chain
        index startIndex endIndex nullifier := by
  have byIndex := @getCommitmentByIndex_iff
    { endpoint, fallbackToChain := some true } rfl indexer chain dateNow index
  have inRange := @getCommitmentsInRange_iff
    { endpoint, fallbackToChain := some true } rfl indexer chain dateNow startIndex
    endIndex
  have spent := @isNullifierSpentIndexer_iff
    { endpoint, fallbackToChain := some true } indexer chain nullifier
  constructor
  · intro never
    obtain ⟨nothing, length⟩ := inRange.mp never.inRange
    exact ⟨byIndex.mp never.byIndex, nothing, length, spent.mp never.nullifier⟩
  · intro well
    exact ⟨byIndex.mpr well.byIndex, inRange.mpr ⟨well.inRange, well.length⟩,
      spent.mpr well.nullifier⟩

end Absence

/-- A healthy indexer whose queries fail. -/
def overloadedIndexer : Indexer where
  health := .ok { status := 200, json := .ok () }
  commitment := fun _ => .ok { status := 503, json := .error (.syntaxError "") }
  commitments := fun _ _ => .ok { status := 503, json := .error (.syntaxError "") }
  nullifier := fun _ => .ok { status := 503, json := .error (.syntaxError "") }
  events := fun _ _ _ => .ok { status := 503, json := .error (.syntaxError "") }

/-- A revealed nullifier is unspent when the indexer is overloaded. -/
theorem revealed_reported_unspent :
    ¬NeverAbsent
      (some { endpoint := "http://localhost:3000", fallbackToChain := some true })
      overloadedIndexer
      { commitments := [(0, "0xc0")], nullifiers := ["0xaa"] } 1700000000000 0 0 0
      "0xaa" := by
  intro never
  obtain ⟨response, responded, unknown⟩ := never.nullifier (by decide) (by decide)
  cases responded
  cases unknown

end Client
end Privachain

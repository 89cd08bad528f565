import Privachain.Client.PrivateBalance

/-!
# The private balance of a text

The balance is calculated from whatever `getCommitments` returns.  After a run of
calls from an empty database it is the balance of the typed commitments.
-/

namespace Privachain
namespace Client
namespace DatabaseTexts

open Foundation
open Foundation.JavaScript
open Foundation.StatefulCall
open Foundation.StoredItem

/-! ## The balance -/

/-- `getUnspentCommitments()`; an element without properties throws. -/
def getUnspentCommitments
    (read : Except Exception (Option String)) :
    Except Exception (List Value) := do
  let commitments ← elementsFor "filter" (getCommitments read)
  let _ ← commitments.mapM fun c => readProperty c "spent"
  return commitments.filter fun c => !(propertyOf c "spent").truthy

/-- `calculatePrivateBalance()` -/
def calculatePrivateBalance
    (read : Except Exception (Option String)) : Except Exception String := do
  let unspent ← getUnspentCommitments read
  let total ← unspent.foldlM
    (fun sum c => do return sum + (← bigIntOf (propertyOf c "amount"))) 0
  return bigIntToString total

/-- Every property of a held record can be read. -/
theorem Holds.readProperty
    {item : Value}
    {fields : List (String × Value)}
    (holds : Holds item fields)
    (name : String) :
    JavaScript.readProperty item name = .ok (propertyOf item name) := by
  rw [holds.isObject]
  rfl

/-- The items that hold records can be traversed. -/
theorem exists_mapM_readProperty
    {items : List Value}
    {commitments : List StoredCommitment}
    (holds : List.Forall₂
      (fun item c => Holds item (commitmentFields c)) items commitments)
    (name : String) :
    ∃ properties, (items.mapM fun c => readProperty c name) = .ok properties := by
  apply mapM_returns
  intro item member
  obtain ⟨c, _, held⟩ := exists_related_of_mem holds member
  exact ⟨_, held.readProperty name⟩

/-- **Refinement.**  The balance of a value that holds commitments is theirs. -/
theorem calculatePrivateBalance_refines
    {read : Except Exception (Option String)}
    {commitments : List StoredCommitment}
    (holdsAll : HoldsAll commitmentFields (getCommitments read) commitments) :
    calculatePrivateBalance read =
      Client.calculatePrivateBalance commitments := by
  obtain ⟨items, isArray, holds⟩ := holdsAll
  obtain ⟨properties, reads⟩ := exists_mapM_readProperty holds "spent"
  have unspent : List.Forall₂ (fun item c => Holds item (commitmentFields c))
      (items.filter fun c => !(propertyOf c "spent").truthy)
      (unspentOf commitments) := by
    refine List.rel_filter ?_ holds
    intro item c held
    change (!(propertyOf item "spent").truthy) = true ↔ (!c.spent) = true
    rw [held.properties "spent"]
    rfl
  have amounts := mapM_eq_of_forall₂ (unspent.imp fun item c held =>
    (by
      rw [held.properties "amount"]
      rfl :
      bigIntOf (propertyOf item "amount") = bigIntOfString c.amount))
  have filtered : getUnspentCommitments read =
      .ok (items.filter fun c => !(propertyOf c "spent").truthy) := by
    rw [getUnspentCommitments, isArray]
    change ((items.mapM fun c => readProperty c "spent") >>= fun _ => _) = _
    rw [reads]
    rfl
  rw [calculatePrivateBalance, filtered, Client.calculatePrivateBalance]
  simp only [foldlM_add_eq, ← amounts]
  rfl

/-! ## Runs -/

/-- The array of records that a caller passes. -/
def recordsValue {Record : Type}
    (fieldsOf : Record -> List (String × Value))
    (records : List Record) : Value :=
  .array (records.map fun record => .object (fieldsOf record))

/-- The argument of `importData` as a value. -/
def importedData (data : ImportedLists) : ImportedData where
  commitments :=
    (data.commitments.map (recordsValue commitmentFields)).getD .undefined
  transactions :=
    (data.transactions.map (recordsValue transactionFields)).getD .undefined
  settings := data.settings

/-- A typed call on the items, whose accesses are all granted. -/
def performStoreCall : StoreCall -> ItemsCall PUnit
  | .commitment call => onCommitments (perform {} (commitmentOperation call))
  | .importData data => importData {} (importedData data)

/-- The items after a typed call. -/
def applyStoreCall (items : Items) (call : StoreCall) : Items :=
  stateAfter (performStoreCall call) items

/-- A typed call on an array of commitments has a text to write. -/
theorem exists_changed_of_holdsAll
    {content : Value}
    {commitments : List StoredCommitment}
    (holdsAll : HoldsAll commitmentFields content commitments)
    (call : CommitmentCall) :
    ∃ written, changed content (commitmentOperation call) = .ok written ∧
      JSON.hasBigInt written = false := by
  obtain ⟨items, rfl, holds⟩ := holdsAll
  have held : ∀ item ∈ items,
      JSON.IsJson item ∧ item = .object (ownFields item) := by
    intro item member
    obtain ⟨c, _, held⟩ := exists_related_of_mem holds member
    exact ⟨held.isJson, held.isObject⟩
  have isParsed : JSON.IsParsed (.array items) :=
    (JSON.areData_iff items).mpr fun item member =>
      JSON.isParsed_of_isJson item (held item member).1
  have noNull : .null ∉ items := by
    intro member
    cases (held _ member).2
  have written : ∀ operation, Takes (.array items) operation ->
      ¬CannotWrite (some (.array items)) operation ->
      ∃ written, changed (gotten (.array items) operation) operation =
          .ok written ∧
        JSON.hasBigInt written = false :=
    fun _ takes canWrite => exists_written isParsed takes canWrite
  cases call with
  | saveCommitment commitment =>
      exact written (.saveCommitment commitment) ⟨items, rfl⟩ id
  | markCommitmentSpent commitmentHash =>
      exact written (.markCommitmentSpent commitmentHash) ⟨items, rfl⟩ noNull
  | deleteCommitment id =>
      exact written (.deleteCommitment id) ⟨items, rfl⟩ noNull

/-- A typed call on an array of commitments returns. -/
theorem commitmentCall_returns
    {item : Option String}
    {commitments : List StoredCommitment}
    (holdsAll : HoldsAll commitmentFields (getCommitments (.ok item)) commitments)
    (call : CommitmentCall) :
    reportsFailure (perform {} (commitmentOperation call)) item = false := by
  rw [perform_eq_rewriteItem, reportsFailure_rewriteItem_eq_false_iff]
  refine ⟨rfl, ?_⟩
  obtain ⟨written, changes, noBigInt⟩ := exists_changed_of_holdsAll holdsAll call
  refine ⟨_, (replacementFor_eq_ok_iff _ _ _).mpr
    ⟨written, ?_, noBigInt, rfl⟩⟩
  cases call with
  | saveCommitment commitment => exact changes
  | markCommitmentSpent commitmentHash => exact changes
  | deleteCommitment id => exact changes

/-- What a call on one item leaves of it. -/
theorem commitments_stateAfter
    (call : ItemCall PUnit)
    (items : Items) :
    (stateAfter (onCommitments call) items).commitments =
      itemAfter call items.commitments := by
  rw [onCommitments, stateAfter_onPart, stateAfter_eq_itemAfter]

theorem commitments_onTransactions
    (call : ItemCall PUnit)
    (items : Items) :
    (stateAfter (onTransactions call) items).commitments =
      items.commitments := by
  rw [onTransactions, stateAfter_onPart]

theorem commitments_onSettings
    (call : ItemCall PUnit)
    (items : Items) :
    (stateAfter (onSettings call) items).commitments = items.commitments := by
  rw [onSettings, stateAfter_onPart]

/-- A passed array is written and holds its records. -/
theorem holdsAll_jsonData_recordsValue
    (commitments : List StoredCommitment) :
    HoldsAll commitmentFields
      (JSON.jsonData (recordsValue commitmentFields commitments)) commitments := by
  rw [recordsValue, JSON.jsonData, elementData_eq_map]
  refine ⟨_, rfl, ?_⟩
  rw [List.map_map, List.forall₂_map_left_iff, List.forall₂_same]
  intro c _
  exact holds_jsonData (isOwn_commitmentFields c)

/-- The first statement of an import writes the commitments, and the others leave
them. -/
theorem commitments_importData (data : ImportedData) (items : Items) :
    (stateAfter (importData {} data) items).commitments =
      (stateAfter (importList onCommitments {} data.commitments)
        items).commitments := by
  unfold importData
  refine view_stateAfter_bind (fun _ before => ?_) items
  refine Eq.trans (view_stateAfter_bind (fun _ between => ?_) before) ?_
  · cases data.settings with
    | some settings => exact commitments_onSettings _ between
    | none => rfl
  · unfold importList
    split
    · exact commitments_onTransactions _ before
    · rfl

/-- An import writes the commitments that it is passed. -/
theorem holdsAll_importData
    {items : Items}
    {commitments : List StoredCommitment}
    (holdsAll : HoldsAll commitmentFields
      (getCommitments (.ok items.commitments)) commitments)
    (data : ImportedLists) :
    HoldsAll commitmentFields
      (getCommitments
        (.ok (stateAfter (importData {} (importedData data)) items).commitments))
      (data.commitments.getD commitments) := by
  rw [commitments_importData, importedData]
  cases data.commitments with
  | none => exact holdsAll
  | some imported =>
      have noBigInt : JSON.hasBigInt (recordsValue commitmentFields imported) =
          false := by
        apply hasBigInt_array
        intro item member
        obtain ⟨c, _, rfl⟩ := List.mem_map.mp member
        exact hasBigInt_commitmentFields c
      have text : JSON.stringifyValue (recordsValue commitmentFields imported) =
          .ok (JSON.stringifyReplaced (recordsValue commitmentFields imported)) := by
        rw [JSON.stringifyValue, noBigInt]
        rfl
      change HoldsAll commitmentFields (getCommitments (.ok (stateAfter
        (onCommitments (writeValue {} (recordsValue commitmentFields imported)))
        items).commitments)) imported
      rw [commitments_stateAfter, writeValue,
        itemAfter_rewriteItem_of_granted _ _ _ rfl text, getCommitments, getStored,
        readContent_stringifyReplaced]
      exact holdsAll_jsonData_recordsValue imported

/-- **Refinement.**  After every run of typed calls the item holds the typed
commitments. -/
theorem storeAfter_refines (calls : List StoreCall) :
    HoldsAll commitmentFields
        (getCommitments (.ok (run applyStoreCall {} calls).commitments))
        (storeAfter calls).commitments := by
  refine @run_simulation _ _ _ applyStoreCall StoreCall.apply
    (fun items store => HoldsAll commitmentFields
      (getCommitments (.ok items.commitments)) store.commitments) ?_ {} {}
    ⟨[], rfl, .nil⟩ calls
  intro items store call holdsAll
  cases call with
  | commitment call =>
      rw [applyStoreCall, performStoreCall, commitments_stateAfter]
      exact getCommitments_refines holdsAll call
        (commitmentCall_returns holdsAll call)
  | importData data => exact holdsAll_importData holdsAll data

/-- After every run of typed calls the balance of the item is that of the typed
commitments. -/
theorem calculatePrivateBalance_storeAfter (calls : List StoreCall) :
    calculatePrivateBalance
        (.ok (run applyStoreCall {} calls).commitments) =
      Client.calculatePrivateBalance (storeAfter calls).commitments :=
  calculatePrivateBalance_refines (storeAfter_refines calls)

end DatabaseTexts
end Client
end Privachain

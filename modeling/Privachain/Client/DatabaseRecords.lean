import Privachain.Client.DatabaseTexts

/-!
# The texts of the database as lists of records

A text that an operation has written holds the list of records that the typed
operation makes of the records read.
-/

namespace Privachain
namespace Client
namespace DatabaseTexts

open Foundation
open Foundation.JavaScript
open Foundation.StoredItem

/-! ## Values that hold records -/

/-- A stored value has the properties of a record, as they are written. -/
structure Holds (value : Value) (fields : List (String × Value)) : Prop where
  isJson : JSON.IsJson value
  isObject : value = .object (ownFields value)
  properties : ∀ name,
    propertyOf value name = writtenProperty (propertyOf (.object fields) name)

/-- A record is written as a value that holds it. -/
theorem holds_jsonData
    {fields : List (String × Value)}
    (own : JSON.IsOwn fields) :
    Holds (JSON.jsonData (.object fields)) fields where
  isJson := JSON.isJson_jsonData _
  isObject := rfl
  properties := propertyOf_jsonData own

/-- A value that holds a record holds it when it is written again. -/
theorem Holds.jsonData
    {value : Value}
    {fields : List (String × Value)}
    (holds : Holds value fields) :
    Holds (JSON.jsonData value) fields := by
  rw [JSON.jsonData_of_isJson value holds.isJson]
  exact holds

/-- Spreading updates over a value spreads them over its record. -/
theorem Holds.spread
    {value : Value}
    {fields updated : List (String × Value)}
    (holds : Holds value fields)
    {updates : List (String × Value)}
    (record : ∀ name, propertyOf (.object updated) name =
      propertyOf (.object (spread fields updates)) name) :
    Holds
      (JSON.jsonData (.object (JavaScript.spread (ownFields value) updates)))
      updated where
  isJson := JSON.isJson_jsonData _
  isObject := rfl
  properties name := by
    have before := holds.properties name
    rw [holds.isObject] at before
    rw [propertyOf_jsonData (isOwn_spread (isOwn_ownFields holds.isJson) updates),
      record, propertyOf_spread, propertyOf_spread, before]
    cases updates.reverse.lookup name with
    | none => exact writtenProperty_writtenProperty _
    | some value => rfl

section Lists

variable {Record : Type} (fieldsOf : Record -> List (String × Value))

/-- A stored array holds the records. -/
def HoldsAll (value : Value) (records : List Record) : Prop :=
  ∃ items, value = .array items ∧
    List.Forall₂ (fun item record => Holds item (fieldsOf record)) items records

variable {fieldsOf}

/-- The property of an item is the text of its record. -/
theorem Holds.isText_iff
    {item : Value}
    {fields : List (String × Value)}
    (holds : Holds item fields)
    {name key : String}
    (isKey : propertyOf (.object fields) name = .string key)
    (text : String) :
    isText (propertyOf item name) text = true ↔ key = text := by
  rw [holds.properties, isKey]
  exact beq_iff_eq

variable {name : String} {key : Record -> String}

/-- An updated array holds the updated records. -/
theorem holdsAll_updateWhere
    (isKey : ∀ record,
      propertyOf (.object (fieldsOf record)) name = .string (key record))
    {content written : Value}
    {records : List Record}
    (holdsAll : HoldsAll fieldsOf content records)
    {text : String}
    {updates : List (String × Value)}
    (updated : updateWhere name text updates content = .ok written)
    {change : Record -> Record}
    (changes : ∀ record other,
      propertyOf (.object (fieldsOf (change record))) other =
        propertyOf (.object (spread (fieldsOf record) updates)) other) :
    HoldsAll fieldsOf (JSON.jsonData written)
      (records.map fun record =>
        if key record = text then change record else record) := by
  obtain ⟨items, rfl, holds⟩ := holdsAll
  obtain ⟨_, ⟨⟩, _, rfl⟩ := (updateWhere_eq_ok_iff _ _ _ _ _).mp updated
  rw [JSON.jsonData, elementData_eq_map]
  refine ⟨_, rfl, ?_⟩
  rw [List.forall₂_map_left_iff, List.forall₂_map_left_iff,
    List.forall₂_map_right_iff]
  refine holds.imp fun item record first => ?_
  rw [updatedRecord]
  by_cases selected : key record = text
  · rw [if_pos ((first.isText_iff (isKey record) text).mpr selected),
      if_pos selected]
    exact first.spread (changes record)
  · rw [if_neg (mt (first.isText_iff (isKey record) text).mp selected),
      if_neg selected]
    exact first.jsonData

/-- An array holds the remaining records after a deletion. -/
theorem holdsAll_deleteWhere
    (isKey : ∀ record,
      propertyOf (.object (fieldsOf record)) "id" = .string (key record))
    {content written : Value}
    {records : List Record}
    (holdsAll : HoldsAll fieldsOf content records)
    {id : String}
    (deleted : deleteWhere id content = .ok written) :
    HoldsAll fieldsOf (JSON.jsonData written)
      (records.filter fun record => key record ≠ id) := by
  obtain ⟨items, rfl, holds⟩ := holdsAll
  obtain ⟨_, ⟨⟩, _, rfl⟩ := (deleteWhere_eq_ok_iff _ _ _).mp deleted
  rw [JSON.jsonData, elementData_eq_map]
  refine ⟨_, rfl, ?_⟩
  rw [List.forall₂_map_left_iff]
  have agree : ∀ item record, Holds item (fieldsOf record) ->
      ((!isText (propertyOf item "id") id) = true ↔
        decide (key record ≠ id) = true) := by
    intro item record first
    rw [Bool.not_eq_true', ← Bool.not_eq_true,
      first.isText_iff (isKey record) id, decide_eq_true_iff]
  have remaining := List.rel_filter (fun item record => agree item record) holds
  exact remaining.imp fun _ _ first => first.jsonData

end Lists

/-! ## Transactions -/

/-- The properties of `updates`. -/
def updateEntries (updates : TransactionUpdates) :
    List (String × Option Value) :=
  [("id", updates.id.map Value.string),
    ("type", updates.type.map fun type => .string (typeText type)),
    ("status", updates.status.map fun status => .string (statusText status)),
    ("amount", updates.amount.map Value.string),
    ("from", updates.fromAddress.map (optionalValue .string)),
    ("to", updates.toAddress.map (optionalValue .string)),
    ("blockNumber", updates.blockNumber.map (optionalValue .ofInt)),
    ("blockHash", updates.blockHash.map (optionalValue .string)),
    ("transactionHash", updates.transactionHash.map (optionalValue .string)),
    ("timestamp", updates.timestamp.map Value.ofInt),
    ("error", updates.error.map (optionalValue .string)),
    ("metadata", updates.metadata)]

theorem isOwn_updateEntries (updates : TransactionUpdates) :
    JSON.IsOwn (updateEntries updates) :=
  JSON.isOwn_of_names ["id", "type", "status", "amount", "from", "to",
    "blockNumber", "blockHash", "transactionHash", "timestamp", "error",
    "metadata"] rfl (by decide +kernel)

/-- `Partial<StoredTransaction>` as an object. -/
def updateProperties (updates : TransactionUpdates) : Properties where
  fields := presentFields (updateEntries updates)
  own := List.Pairwise.sublist (map_fst_presentFields_sublist _)
    (isOwn_updateEntries updates)

/-- An updated property is the update, or else the earlier one. -/
theorem wrap_getD {α : Type} (wrap : α -> Value) (update : Option α) (old : α) :
    some (wrap (update.getD old)) = (update.map wrap).or (some (wrap old)) := by
  cases update with
  | none => rfl
  | some value => rfl

/-- The properties of a transaction after typed updates. -/
theorem lookup_transactionFields_spread
    (t : StoredTransaction)
    (updates : TransactionUpdates)
    (name : String) :
    (transactionFields (t.spread updates)).lookup name =
      ((updateEntries updates).lookup name).join.or
        ((transactionFields t).lookup name) := by
  simp only [transactionFields, updateEntries, List.lookup_cons,
    StoredTransaction.spread]
  split
  · exact wrap_getD .string _ _
  split
  · exact wrap_getD (fun type => .string (typeText type)) _ _
  split
  · exact wrap_getD (fun status => .string (statusText status)) _ _
  split
  · exact wrap_getD .string _ _
  split
  · exact wrap_getD (optionalValue .string) _ _
  split
  · exact wrap_getD (optionalValue .string) _ _
  split
  · exact wrap_getD (optionalValue .ofInt) _ _
  split
  · exact wrap_getD (optionalValue .string) _ _
  split
  · exact wrap_getD (optionalValue .string) _ _
  split
  · exact wrap_getD .ofInt _ _
  split
  · exact wrap_getD (optionalValue .string) _ _
  split
  · cases updates.metadata with
    | none => rfl
    | some metadata => rfl
  · rfl

/-- `{ ...t, status, ...updates }` has the properties of the updated
transaction. -/
theorem propertyOf_updatedTransaction
    (t : StoredTransaction)
    (status : TransactionStatus)
    (updates : TransactionUpdates)
    (name : String) :
    propertyOf
        (.object (transactionFields ({ t with status := status }.spread updates)))
        name =
      propertyOf
        (.object (spread (transactionFields t)
          (("status", .string (statusText status)) ::
            (updateProperties updates).fields))) name := by
  have withStatus : transactionFields { t with status := status } =
      JSON.assign (transactionFields t)
        ("status", .string (statusText status)) := by
    simp [transactionFields, JSON.assign]
  have names := (isOwn_updateEntries updates).nodup
  have spreads := lookup_spread_of_nodup
    (JSON.assign (transactionFields t) ("status", .string (statusText status)))
    (updateProperties updates).own.nodup name
  rw [← withStatus, updateProperties, lookup_presentFields names,
    ← lookup_transactionFields_spread] at spreads
  unfold propertyOf Value.property
  dsimp only
  rw [← spreads, withStatus]
  rfl

/-! ## The typed calls -/

/-- The operation of a typed call on the commitments. -/
def commitmentOperation : CommitmentCall -> DatabaseOperation
  | .saveCommitment commitment => .saveCommitment commitment
  | .markCommitmentSpent commitmentHash => .markCommitmentSpent commitmentHash
  | .deleteCommitment id => .deleteCommitment id

/-- The operation of a typed call on the transactions. -/
def transactionOperation : TransactionCall -> DatabaseOperation
  | .saveTransaction transaction => .saveTransaction transaction
  | .updateTransactionStatus id status updates =>
      .updateTransactionStatus id status (updateProperties updates)
  | .deleteTransaction id => .deleteTransaction id

/-- What a call makes of an array that holds commitments holds the changed
commitments. -/
theorem holdsAll_commitmentCall
    {content written : Value}
    {commitments : List StoredCommitment}
    (holdsAll : HoldsAll commitmentFields content commitments)
    (call : CommitmentCall)
    (changes : changed content (commitmentOperation call) = .ok written) :
    HoldsAll commitmentFields (JSON.jsonData written)
      (call.updated commitments) := by
  cases call with
  | saveCommitment commitment =>
      obtain ⟨items, rfl, holds⟩ := holdsAll
      cases changes
      rw [JSON.jsonData, elementData_eq_map, List.map_append]
      refine ⟨_, rfl, List.rel_append ?_ ?_⟩
      · rw [List.forall₂_map_left_iff]
        exact holds.imp fun _ _ first => first.jsonData
      · exact .cons (holds_jsonData (isOwn_commitmentFields commitment)) .nil
  | markCommitmentSpent commitmentHash =>
      apply holdsAll_updateWhere (fun _ => rfl) holdsAll changes
      intro commitment name
      have spent : commitmentFields { commitment with spent := true } =
          spread (commitmentFields commitment) [("spent", .boolean true)] := by
        simp [commitmentFields, spread, JSON.assign]
      rw [spent]
  | deleteCommitment id =>
      exact holdsAll_deleteWhere (fun _ => rfl) holdsAll changes

/-- What a call makes of an array that holds transactions holds the changed
transactions. -/
theorem holdsAll_transactionCall
    {content written : Value}
    {transactions : List StoredTransaction}
    (holdsAll : HoldsAll transactionFields content transactions)
    (call : TransactionCall)
    (changes : changed content (transactionOperation call) = .ok written) :
    HoldsAll transactionFields (JSON.jsonData written)
      (call.updated transactions) := by
  cases call with
  | saveTransaction transaction =>
      obtain ⟨items, rfl, holds⟩ := holdsAll
      cases changes
      rw [JSON.jsonData, elementData_eq_map, List.map_cons]
      refine ⟨_, rfl, .cons (holds_jsonData (isOwn_transactionFields transaction)) ?_⟩
      rw [List.forall₂_map_left_iff]
      exact holds.imp fun _ _ first => first.jsonData
  | updateTransactionStatus id status updates =>
      exact holdsAll_updateWhere (fun _ => rfl) holdsAll changes
        fun t name => propertyOf_updatedTransaction t status updates name
  | deleteTransaction id =>
      exact holdsAll_deleteWhere (fun _ => rfl) holdsAll changes

/-- An operation that returns has written what it made of its item. -/
theorem readContent_of_returns
    {refusal : Option Exception}
    {operation : DatabaseOperation}
    {item : Option String}
    (returns : reportsFailure (perform { setItem := refusal } operation) item =
      false) :
    ∃ written,
      changed (getStored (defaultContent operation)
        (fun content => gotten content operation) (.ok item)) operation =
          .ok written ∧
      readContent
          (.ok (itemAfter (perform { setItem := refusal } operation) item)) =
        .ok (some (JSON.jsonData written)) := by
  rw [perform_eq_rewriteItem] at returns ⊢
  obtain ⟨granted, text, replaced⟩ :=
    (reportsFailure_rewriteItem_eq_false_iff _ _ _).mp returns
  rw [itemAfter_rewriteItem_of_granted _ _ _ granted replaced]
  obtain ⟨written, changes, _, rfl⟩ := (replacementFor_eq_ok_iff _ _ _).mp replaced
  exact ⟨written, changes, readContent_stringifyReplaced written⟩

/-- **Refinement.**  When a call on the commitments returns, its item holds what
the typed call makes of them. -/
theorem getCommitments_refines
    {refusal : Option Exception}
    {item : Option String}
    {commitments : List StoredCommitment}
    (holdsAll : HoldsAll commitmentFields (getCommitments (.ok item)) commitments)
    (call : CommitmentCall)
    (returns : reportsFailure
      (perform { setItem := refusal } (commitmentOperation call)) item = false) :
    HoldsAll commitmentFields
      (getCommitments (.ok (itemAfter
        (perform { setItem := refusal } (commitmentOperation call)) item)))
      (call.updated commitments) := by
  obtain ⟨written, changes, reads⟩ := readContent_of_returns returns
  have gets : getStored (defaultContent (commitmentOperation call))
      (fun content => gotten content (commitmentOperation call)) (.ok item) =
        getCommitments (.ok item) := by
    cases call with
    | saveCommitment commitment => rfl
    | markCommitmentSpent commitmentHash => rfl
    | deleteCommitment id => rfl
  rw [gets] at changes
  rw [getCommitments, getStored, reads]
  exact holdsAll_commitmentCall holdsAll call changes

/-- **Refinement.**  When a call on the transactions returns, its item holds what
the typed call makes of them. -/
theorem getTransactions_refines
    {refusal : Option Exception}
    {item : Option String}
    {transactions : List StoredTransaction}
    (holdsAll : HoldsAll transactionFields (getTransactions (.ok item))
      transactions)
    (call : TransactionCall)
    (returns : reportsFailure
      (perform { setItem := refusal } (transactionOperation call)) item =
        false) :
    HoldsAll transactionFields
      (getTransactions (.ok (itemAfter
        (perform { setItem := refusal } (transactionOperation call)) item)))
      (call.updated transactions) := by
  obtain ⟨written, changes, reads⟩ := readContent_of_returns returns
  have gets : getStored (defaultContent (transactionOperation call))
      (fun content => gotten content (transactionOperation call)) (.ok item) =
        getTransactions (.ok item) := by
    cases call with
    | saveTransaction transaction => rfl
    | updateTransactionStatus id status updates => rfl
    | deleteTransaction id => rfl
  rw [gets] at changes
  rw [getTransactions, getStored, reads]
  exact holdsAll_transactionCall holdsAll call changes

end DatabaseTexts
end Client
end Privachain

import Privachain.Client.Database
import Privachain.Foundation.Objects
import Privachain.Foundation.StoredItem

/-!
# The texts of the database

The items of `AsyncStorage` are texts, and each access to one may fail.  A
getter answers a failed read with its default, over which the functions that
change an item then write.
-/

namespace Privachain
namespace Client
namespace DatabaseTexts

open Foundation
open Foundation.JavaScript
open Foundation.StoredItem

/-! ## Records -/

/-- The own properties of an object argument. -/
structure Properties where
  fields : List (String × Value)
  own : JSON.IsOwn fields

/-- The properties of a commitment. -/
def commitmentFields (commitment : StoredCommitment) : List (String × Value) :=
  [("id", .string commitment.id), ("commitment", .string commitment.commitment),
    ("amount", .string commitment.amount), ("secret", .string commitment.secret),
    ("recipient", .string commitment.recipient),
    ("spent", .boolean commitment.spent),
    ("blockNumber", .ofInt commitment.blockNumber),
    ("transactionHash", .string commitment.transactionHash),
    ("timestamp", .ofInt commitment.timestamp),
    ("note", optionalValue .string commitment.note)]

/-- The text of a `type`. -/
def typeText : TransactionType -> String
  | .deposit => "deposit"
  | .privateTransfer => "private_transfer"
  | .withdraw => "withdraw"

/-- The text of a `status`. -/
def statusText : TransactionStatus -> String
  | .pending => "pending"
  | .confirmed => "confirmed"
  | .failed => "failed"

/-- The properties of a transaction. -/
def transactionFields (transaction : StoredTransaction) :
    List (String × Value) :=
  [("id", .string transaction.id), ("type", .string (typeText transaction.type)),
    ("status", .string (statusText transaction.status)),
    ("amount", .string transaction.amount),
    ("from", optionalValue .string transaction.fromAddress),
    ("to", optionalValue .string transaction.toAddress),
    ("blockNumber", optionalValue .ofInt transaction.blockNumber),
    ("blockHash", optionalValue .string transaction.blockHash),
    ("transactionHash", optionalValue .string transaction.transactionHash),
    ("timestamp", .ofInt transaction.timestamp),
    ("error", optionalValue .string transaction.error),
    ("metadata", transaction.metadata)]

theorem isOwn_commitmentFields (commitment : StoredCommitment) :
    JSON.IsOwn (commitmentFields commitment) :=
  JSON.isOwn_of_names ["id", "commitment", "amount", "secret", "recipient",
    "spent", "blockNumber", "transactionHash", "timestamp", "note"] rfl
    (by decide +kernel)

theorem isOwn_transactionFields (transaction : StoredTransaction) :
    JSON.IsOwn (transactionFields transaction) :=
  JSON.isOwn_of_names ["id", "type", "status", "amount", "from", "to",
    "blockNumber", "blockHash", "transactionHash", "timestamp", "error",
    "metadata"] rfl (by decide +kernel)

/-- `DEFAULT_SETTINGS` -/
def defaultSettings : List (String × Value) :=
  [("autoLock", .boolean true), ("autoLockTimeout", .number 5),
    ("biometricEnabled", .boolean false), ("pinEnabled", .boolean false),
    ("showBalance", .boolean true),
    ("defaultEndpoint", .string "ws://127.0.0.1:9944"),
    ("currency", .string "USD"), ("theme", .string "auto")]

/-- The sync state of an absent item. -/
def initialSyncState : List (String × Value) :=
  [("lastSyncBlock", .number 0), ("lastSyncTimestamp", .number 0),
    ("syncing", .boolean false)]

/-! ## Getters -/

/-- What a text holds, on the outcome of its read; absent and empty items hold
nothing. -/
def readContent
    (read : Except Exception (Option String)) :
    Except Exception (Option Value) := do
  match ← read with
  | none => return none
  | some data =>
      if data = "" then return none
      else return some (← JSON.parseText data)

/-- A getter converts what the item holds; nothing and a failed read give the
default. -/
def getStored
    (default : Value)
    (convert : Value -> Value)
    (read : Except Exception (Option String)) : Value :=
  match readContent read with
  | .ok (some parsed) => convert parsed
  | .ok none => default
  | .error _ => default

/-- `getCommitments()` -/
def getCommitments : Except Exception (Option String) -> Value :=
  getStored (.array []) id

/-- `getTransactions()` -/
def getTransactions : Except Exception (Option String) -> Value :=
  getStored (.array []) id

/-- `getSettings()` -/
def getSettings : Except Exception (Option String) -> Value :=
  getStored (.object defaultSettings) fun parsed =>
    .object (spread defaultSettings (ownFields parsed))

/-- `getSyncState()` -/
def getSyncState : Except Exception (Option String) -> Value :=
  getStored (.object initialSyncState) id

/-! ## Changes -/

/-- The code points of a string: the halves of a surrogate pair are one. -/
def codePoints : List Char -> List (List Char)
  | [] => []
  | [c] => [[c]]
  | c :: next :: text =>
      if isHighSurrogate c && isLowSurrogate next then
        [c, next] :: codePoints text
      else [c] :: codePoints (next :: text)

/-- The elements of `[...value]`: only arrays and strings are iterable. -/
def iterate : Value -> Except Exception (List Value)
  | .array items => .ok items
  | .string text =>
      .ok ((codePoints text.toList).map fun point => .string (String.ofList point))
  | _ => .error (.typeError "Invalid attempt to spread non-iterable instance")

/-- The elements that an array method runs over. -/
def elementsFor (method : String) : Value -> Except Exception (List Value)
  | .array items => .ok items
  | .undefined => .error (.typeError
      ("Cannot read properties of undefined (reading '" ++ method ++ "')"))
  | .null => .error (.typeError
      ("Cannot read properties of null (reading '" ++ method ++ "')"))
  | _ => .error (.typeError (method ++ " is not a function"))

/-- `value.map((c) => c[name] === text ? { ...c, ...updates } : c)` -/
def updateWhere
    (name text : String)
    (updates : List (String × Value))
    (value : Value) : Except Exception Value := do
  let items ← elementsFor "map" value
  let updated ← items.mapM fun c => do
    if isText (← readProperty c name) text then
      return .object (spread (ownFields c) updates)
    else return c
  return .array updated

/-- `value.filter((c) => c.id !== id)`; an element without properties throws. -/
def deleteWhere (id : String) (value : Value) : Except Exception Value := do
  let items ← elementsFor "filter" value
  let _ ← items.mapM fun c => readProperty c "id"
  return .array (items.filter fun c => !isText (propertyOf c "id") id)

section Operations

variable (access : Access)

/-- A function that gets a value, changes it and writes it. -/
def mutate
    (get : Except Exception (Option String) -> Value)
    (change : Value -> Except Exception Value) : ItemCall PUnit :=
  rewriteItem access fun read => do
    let updated ← change (get read)
    JSON.stringifyValue updated

/-- `saveCommitment(commitment)` -/
def saveCommitment (commitment : StoredCommitment) : ItemCall PUnit :=
  mutate access getCommitments fun existing => do
    return .array
      ((← iterate existing) ++ [.object (commitmentFields commitment)])

/-- `markCommitmentSpent(commitmentHash)` -/
def markCommitmentSpent (commitmentHash : String) : ItemCall PUnit :=
  mutate access getCommitments
    (updateWhere "commitment" commitmentHash [("spent", .boolean true)])

/-- `deleteCommitment(id)` -/
def deleteCommitment (id : String) : ItemCall PUnit :=
  mutate access getCommitments (deleteWhere id)

/-- `saveTransaction(transaction)` -/
def saveTransaction (transaction : StoredTransaction) : ItemCall PUnit :=
  mutate access getTransactions fun existing => do
    return .array
      (.object (transactionFields transaction) :: (← iterate existing))

/-- `updateTransactionStatus(id, status, updates?)`; absent updates have no
properties. -/
def updateTransactionStatus
    (id : String)
    (status : TransactionStatus)
    (updates : Properties) : ItemCall PUnit :=
  mutate access getTransactions
    (updateWhere "id" id
      (("status", .string (statusText status)) :: updates.fields))

/-- `deleteTransaction(id)` -/
def deleteTransaction (id : String) : ItemCall PUnit :=
  mutate access getTransactions (deleteWhere id)

/-- `saveSettings(settings)` -/
def saveSettings (settings : Properties) : ItemCall PUnit :=
  mutate access getSettings fun current =>
    return .object (spread (ownFields current) settings.fields)

/-- `updateSyncState(state)` -/
def updateSyncState (state : Properties) : ItemCall PUnit :=
  mutate access getSyncState fun current =>
    return .object (spread (ownFields current) state.fields)

/-- The functions that change an item. -/
inductive DatabaseOperation
  | saveCommitment (commitment : StoredCommitment)
  | markCommitmentSpent (commitmentHash : String)
  | deleteCommitment (id : String)
  | saveTransaction (transaction : StoredTransaction)
  | updateTransactionStatus
      (id : String)
      (status : TransactionStatus)
      (updates : Properties)
  | deleteTransaction (id : String)
  | saveSettings (settings : Properties)
  | updateSyncState (state : Properties)

/-- One of the functions. -/
def perform : DatabaseOperation -> ItemCall PUnit
  | .saveCommitment commitment => saveCommitment access commitment
  | .markCommitmentSpent commitmentHash =>
      markCommitmentSpent access commitmentHash
  | .deleteCommitment id => deleteCommitment access id
  | .saveTransaction transaction => saveTransaction access transaction
  | .updateTransactionStatus id status updates =>
      updateTransactionStatus access id status updates
  | .deleteTransaction id => deleteTransaction access id
  | .saveSettings settings => saveSettings access settings
  | .updateSyncState state => updateSyncState access state

end Operations

/-! ## Safety of an operation -/

/-- The records of a list item, and what a string in its place iterates over. -/
def records : Option Value -> List Value
  | some value => (iterate value).toOption.getD []
  | none => []

/-- The properties of an object item. -/
def properties : Option Value -> List (String × Value)
  | some value => ownFields value
  | none => []

/-- The records that have another text under the name are kept, in their
order. -/
def KeepsOtherRecords (name text : String) (before after : Option Value) : Prop :=
  ((records before).filter fun c => !isText (propertyOf c name) text).Sublist
    (records after)

/-- The properties that are not named keep their values. -/
def KeepsOtherProperties
    (named : Properties)
    (before after : Option Value) : Prop :=
  ∀ name value, name ∉ named.fields.map Prod.fst ->
    (properties before).lookup name = some value ->
    (properties after).lookup name = some value

/-- What the operation does not target is kept. -/
def KeepsOthers (before after : Option Value) : DatabaseOperation -> Prop
  | .saveCommitment _ => (records before).Sublist (records after)
  | .markCommitmentSpent commitmentHash =>
      KeepsOtherRecords "commitment" commitmentHash before after
  | .deleteCommitment id => KeepsOtherRecords "id" id before after
  | .saveTransaction _ => (records before).Sublist (records after)
  | .updateTransactionStatus id _ _ => KeepsOtherRecords "id" id before after
  | .deleteTransaction id => KeepsOtherRecords "id" id before after
  | .saveSettings settings => KeepsOtherProperties settings before after
  | .updateSyncState state => KeepsOtherProperties state before after

/-- A failed read never destroys the item: the operation leaves it and throws.
After a read that succeeds everything that is not targeted is kept. -/
structure Safe
    (access : Access)
    (operation : DatabaseOperation)
    (item : Option String) : Prop where
  failedRead : ∀ error, readContent (access.read item) = .error error ->
    itemAfter (perform access operation) item = item ∧
      reportsFailure (perform access operation) item = true
  keepsOthers : ∀ before, readContent (access.read item) = .ok before ->
    ∃ after,
      readContent (.ok (itemAfter (perform access operation) item)) =
        .ok after ∧
      KeepsOthers before after operation

/-! ## What an operation writes -/

/-- What the operation gets when there is nothing to read. -/
def defaultContent : DatabaseOperation -> Value
  | .saveSettings _ => .object defaultSettings
  | .updateSyncState _ => .object initialSyncState
  | _ => .array []

/-- What the operation gets for the content of its item. -/
def gotten (content : Value) : DatabaseOperation -> Value
  | .saveSettings _ => .object (spread defaultSettings (ownFields content))
  | _ => content

/-- What the operation makes of what it gets. -/
def changed (value : Value) : DatabaseOperation -> Except Exception Value
  | .saveCommitment commitment => do
      return .array ((← iterate value) ++ [.object (commitmentFields commitment)])
  | .markCommitmentSpent commitmentHash =>
      updateWhere "commitment" commitmentHash [("spent", .boolean true)] value
  | .deleteCommitment id => deleteWhere id value
  | .saveTransaction transaction => do
      return .array (.object (transactionFields transaction) :: (← iterate value))
  | .updateTransactionStatus id status updates =>
      updateWhere "id" id
        (("status", .string (statusText status)) :: updates.fields) value
  | .deleteTransaction id => deleteWhere id value
  | .saveSettings settings =>
      return .object (spread (ownFields value) settings.fields)
  | .updateSyncState state =>
      return .object (spread (ownFields value) state.fields)

/-- Every operation gets a value, changes it and writes it. -/
theorem perform_eq_mutate (access : Access) (operation : DatabaseOperation) :
    perform access operation =
      mutate access
        (getStored (defaultContent operation) fun content =>
          gotten content operation)
        fun value => changed value operation := by
  cases operation with
  | saveCommitment commitment => rfl
  | markCommitmentSpent commitmentHash => rfl
  | deleteCommitment id => rfl
  | saveTransaction transaction => rfl
  | updateTransactionStatus id status updates => rfl
  | deleteTransaction id => rfl
  | saveSettings settings => rfl
  | updateSyncState state => rfl

/-! ## What an operation keeps -/

/-- Only arrays have the array methods. -/
theorem elementsFor_eq_ok_iff
    (method : String)
    (value : Value)
    (items : List Value) :
    elementsFor method value = .ok items ↔ value = .array items := by
  cases value with
  | array actual => simp [elementsFor]
  | _ => simp [elementsFor]

/-- A record after an update: only those with the text get the updates. -/
def updatedRecord
    (name text : String)
    (updates : List (String × Value))
    (c : Value) : Value :=
  if isText (propertyOf c name) text then .object (spread (ownFields c) updates)
  else c

/-- The records of an array are updated if none of them is nullish. -/
theorem updateWhere_eq_ok_iff
    (name text : String)
    (updates : List (String × Value))
    (content written : Value) :
    updateWhere name text updates content = .ok written ↔
      ∃ items, content = .array items ∧
        (∀ c ∈ items, isNullish c = false) ∧
        written = .array (items.map (updatedRecord name text updates)) := by
  have each : ∀ c result,
      (do
        if isText (← readProperty c name) text then
          return .object (spread (ownFields c) updates)
        else return c : Except Exception Value) = .ok result ↔
      isNullish c = false ∧ result = updatedRecord name text updates c := by
    intro c result
    simp only [bind_eq_ok_iff, readProperty_eq_ok_iff, and_assoc,
      exists_and_left, exists_eq_left, updatedRecord]
    split
    · rw [returned_eq_ok_iff]
    · rw [returned_eq_ok_iff]
  unfold updateWhere
  simp only [bind_eq_ok_iff, elementsFor_eq_ok_iff, returned_eq_ok_iff,
    mapM_eq_ok_iff_of_iff each, and_assoc, exists_and_left, exists_eq_left]

/-- The records of an array are deleted or kept if none of them is nullish. -/
theorem deleteWhere_eq_ok_iff
    (id : String)
    (content written : Value) :
    deleteWhere id content = .ok written ↔
      ∃ items, content = .array items ∧
        (∀ c ∈ items, isNullish c = false) ∧
        written = .array
          (items.filter fun c => !isText (propertyOf c "id") id) := by
  have each : ∀ c property, readProperty c "id" = .ok property ↔
      isNullish c = false ∧ property = propertyOf c "id" :=
    fun c property => readProperty_eq_ok_iff c property "id"
  unfold deleteWhere
  simp only [bind_eq_ok_iff, elementsFor_eq_ok_iff, returned_eq_ok_iff,
    mapM_eq_ok_iff_of_iff each, and_assoc, exists_and_left, exists_eq_left]

/-- The records of a value of a text are values of the text. -/
theorem isData_of_mem_records
    {numbers : Number -> Prop}
    {content : Value}
    (isData : JSON.IsData numbers content)
    {record : Value}
    (member : record ∈ records (some content)) :
    JSON.IsData numbers record := by
  cases content with
  | array items => exact (JSON.areData_iff items).mp isData record member
  | string text =>
      obtain ⟨point, _, rfl⟩ := List.mem_map.mp member
      trivial
  | _ => cases member

/-- Only arrays have records that are no strings. -/
theorem exists_array_of_mem_records
    {content : Value}
    {record : Value}
    (member : record ∈ records (some content))
    (noString : ∀ text, record ≠ .string text) :
    ∃ items, content = .array items := by
  cases content with
  | array items => exact ⟨items, rfl⟩
  | string text =>
      obtain ⟨point, _, rfl⟩ := List.mem_map.mp member
      exact absurd rfl (noString _)
  | _ => cases member

/-- JSON values are written as they are. -/
theorem map_jsonData_of_areJson
    {items : List Value}
    (areJson : ∀ item ∈ items, JSON.IsJson item) :
    items.map JSON.jsonData = items := by
  rw [List.map_congr_left fun item member =>
    JSON.jsonData_of_isJson item (areJson item member)]
  exact List.map_id' items

/-- The records of an array that is written. -/
theorem records_jsonData_array (items : List Value) :
    records (some (JSON.jsonData (.array items))) = items.map JSON.jsonData := by
  rw [JSON.jsonData, elementData_eq_map]
  rfl

/-- Updating some records keeps the others, if they are written as they are. -/
theorem keepsOtherRecords_updateWhere
    {content written : Value}
    {name text : String}
    {updates : List (String × Value)}
    (areJson : ∀ c ∈ (records (some content)).filter
      (fun c => !isText (propertyOf c name) text), JSON.IsJson c)
    (updated : updateWhere name text updates content = .ok written) :
    KeepsOtherRecords name text (some content)
      (some (JSON.jsonData written)) := by
  obtain ⟨items, rfl, _, rfl⟩ := (updateWhere_eq_ok_iff _ _ _ _ _).mp updated
  rw [KeepsOtherRecords, records_jsonData_array, List.map_map]
  apply filter_sublist_map
  intro c member isOther
  have isJson := areJson c (List.mem_filter.mpr ⟨member, isOther⟩)
  rw [Bool.not_eq_true'] at isOther
  rw [Function.comp_apply, updatedRecord, isOther]
  exact JSON.jsonData_of_isJson c isJson

/-- Deleting some records keeps the others, if they are written as they are. -/
theorem keepsOtherRecords_deleteWhere
    {content written : Value}
    {id : String}
    (areJson : ∀ c ∈ (records (some content)).filter
      (fun c => !isText (propertyOf c "id") id), JSON.IsJson c)
    (deleted : deleteWhere id content = .ok written) :
    KeepsOtherRecords "id" id (some content) (some (JSON.jsonData written)) := by
  obtain ⟨items, rfl, _, rfl⟩ := (deleteWhere_eq_ok_iff _ _ _).mp deleted
  rw [KeepsOtherRecords, records_jsonData_array]
  exact (map_jsonData_of_areJson areJson).symm ▸ List.Sublist.refl _

/-- Spreading keeps the properties that are not named, if they are written as they
are. -/
theorem keepsOtherProperties_spread
    {content : Value}
    {fields : List (String × Value)}
    (own : JSON.IsOwn fields)
    (named : Properties)
    (areJson : ∀ field ∈ ownFields content,
      field.1 ∉ named.fields.map Prod.fst -> JSON.IsJson field.2)
    (holds : ∀ name value, (ownFields content).lookup name = some value ->
      fields.lookup name = some value) :
    KeepsOtherProperties named (some content)
      (some (JSON.jsonData (.object (spread fields named.fields)))) := by
  intro name value notNamed found
  have isJson := areJson (name, value) (mem_of_lookup found) notNamed
  have kept : (spread fields named.fields).lookup name = some value := by
    rw [lookup_spread_of_notMem fields named.fields notNamed]
    exact holds name value found
  have spreadOwn := isOwn_spread own named.fields
  rw [jsonData_object spreadOwn]
  change (((spread fields named.fields).filter isDefined).map fun field =>
    (field.1, JSON.jsonData field.2)).lookup name = _
  rw [lookup_map_values, lookup_filter_isDefined spreadOwn.nodup kept
    (isDefined_of_isData isJson), Option.map_some,
    JSON.jsonData_of_isJson value isJson]

/-- The values of the properties that are not named. -/
def untargetedProperties
    (named : Properties)
    (content : Option Value) : List Value :=
  ((properties content).filter fun field =>
    field.1 ∉ named.fields.map Prod.fst).map Prod.snd

theorem mem_untargetedProperties
    {named : Properties}
    {content : Value}
    {field : String × Value}
    (member : field ∈ ownFields content)
    (notNamed : field.1 ∉ named.fields.map Prod.fst) :
    field.2 ∈ untargetedProperties named (some content) :=
  List.mem_map_of_mem
    (List.mem_filter.mpr ⟨member, decide_eq_true notNamed⟩)

theorem isOwn_defaultSettings : JSON.IsOwn defaultSettings :=
  JSON.isOwn_of_names ["autoLock", "autoLockTimeout", "biometricEnabled",
    "pinEnabled", "showBalance", "defaultEndpoint", "currency", "theme"] rfl
    (by decide +kernel)

theorem isOwn_initialSyncState : JSON.IsOwn initialSyncState :=
  JSON.isOwn_of_names ["lastSyncBlock", "lastSyncTimestamp", "syncing"] rfl
    (by decide +kernel)

/-- What the operation does not target in the content of its item. -/
def untargeted (content : Option Value) : DatabaseOperation -> List Value
  | .saveCommitment _ => records content
  | .markCommitmentSpent commitmentHash =>
      (records content).filter fun c =>
        !isText (propertyOf c "commitment") commitmentHash
  | .deleteCommitment id =>
      (records content).filter fun c => !isText (propertyOf c "id") id
  | .saveTransaction _ => records content
  | .updateTransactionStatus id _ _ =>
      (records content).filter fun c => !isText (propertyOf c "id") id
  | .deleteTransaction id =>
      (records content).filter fun c => !isText (propertyOf c "id") id
  | .saveSettings settings => untargetedProperties settings content
  | .updateSyncState state => untargetedProperties state content

theorem untargeted_none (operation : DatabaseOperation) :
    untargeted none operation = [] := by
  cases operation with
  | _ => rfl

/-- What is not targeted is kept in what an operation makes of the content, if it
is written as it is. -/
theorem keepsOthers_changed
    {content written : Value}
    (isParsed : JSON.IsParsed content)
    {operation : DatabaseOperation}
    (areJson : ∀ value ∈ untargeted (some content) operation, JSON.IsJson value)
    (changes : changed (gotten content operation) operation = .ok written) :
    KeepsOthers (some content) (some (JSON.jsonData written)) operation := by
  cases operation with
  | saveCommitment commitment =>
      obtain ⟨items, iterates, ⟨⟩⟩ := (bind_eq_ok_iff _ _ _).mp changes
      have isRecords : records (some content) = items := by
        rw [records, show iterate content = .ok items from iterates]
        rfl
      rw [KeepsOthers, records_jsonData_array, List.map_append,
        map_jsonData_of_areJson (isRecords ▸ areJson), isRecords]
      exact List.sublist_append_left _ _
  | markCommitmentSpent commitmentHash =>
      exact keepsOtherRecords_updateWhere areJson changes
  | deleteCommitment id => exact keepsOtherRecords_deleteWhere areJson changes
  | saveTransaction transaction =>
      obtain ⟨items, iterates, ⟨⟩⟩ := (bind_eq_ok_iff _ _ _).mp changes
      have isRecords : records (some content) = items := by
        rw [records, show iterate content = .ok items from iterates]
        rfl
      rw [KeepsOthers, records_jsonData_array, List.map_cons,
        map_jsonData_of_areJson (isRecords ▸ areJson), isRecords]
      exact List.sublist_cons_self _ _
  | updateTransactionStatus id status updates =>
      exact keepsOtherRecords_updateWhere areJson changes
  | deleteTransaction id => exact keepsOtherRecords_deleteWhere areJson changes
  | saveSettings settings =>
      cases changes
      apply keepsOtherProperties_spread
        (isOwn_spread isOwn_defaultSettings (ownFields content)) settings
        fun field member notNamed =>
          areJson _ (mem_untargetedProperties member notNamed)
      intro name value found
      exact lookup_spread_of_mem (isOwn_ownFields isParsed).nodup
        (mem_of_lookup found)
  | updateSyncState state =>
      cases changes
      exact keepsOtherProperties_spread (isOwn_ownFields isParsed) state
        (fun field member notNamed =>
          areJson _ (mem_untargetedProperties member notNamed))
        fun _ _ found => found

/-- What is kept in a written content is written as it is. -/
theorem isJson_of_keepsOthers
    {before : Option Value}
    (distinct : ((properties before).map Prod.fst).Nodup)
    {written : Value}
    {operation : DatabaseOperation}
    (keeps : KeepsOthers before (some (JSON.jsonData written)) operation)
    {value : Value}
    (member : value ∈ untargeted before operation) :
    JSON.IsJson value := by
  have ofRecord : value ∈ records (some (JSON.jsonData written)) ->
      JSON.IsJson value :=
    isData_of_mem_records (JSON.isJson_jsonData written)
  have ofProperty : ∀ named : Properties,
      KeepsOtherProperties named before (some (JSON.jsonData written)) ->
      value ∈ untargetedProperties named before -> JSON.IsJson value := by
    intro named keepsOthers isProperty
    obtain ⟨⟨name, _⟩, isField, rfl⟩ := List.mem_map.mp isProperty
    obtain ⟨isOwn, notNamed⟩ := List.mem_filter.mp isField
    have found := lookup_of_mem distinct isOwn
    have kept := keepsOthers name _ (of_decide_eq_true notNamed) found
    exact isData_of_mem_ownFields (JSON.isJson_jsonData written)
      (mem_of_lookup kept)
  cases operation with
  | saveCommitment commitment => exact ofRecord (keeps.subset member)
  | markCommitmentSpent commitmentHash => exact ofRecord (keeps.subset member)
  | deleteCommitment id => exact ofRecord (keeps.subset member)
  | saveTransaction transaction => exact ofRecord (keeps.subset member)
  | updateTransactionStatus id status updates =>
      exact ofRecord (keeps.subset member)
  | deleteTransaction id => exact ofRecord (keeps.subset member)
  | saveSettings settings => exact ofProperty settings keeps member
  | updateSyncState state => exact ofProperty state keeps member

/-- An operation that writes nothing keeps everything. -/
theorem keepsOthers_refl
    (content : Option Value)
    (operation : DatabaseOperation) :
    KeepsOthers content content operation := by
  cases operation with
  | saveCommitment commitment => exact List.Sublist.refl _
  | markCommitmentSpent commitmentHash => exact List.filter_sublist
  | deleteCommitment id => exact List.filter_sublist
  | saveTransaction transaction => exact List.Sublist.refl _
  | updateTransactionStatus id status updates => exact List.filter_sublist
  | deleteTransaction id => exact List.filter_sublist
  | saveSettings settings => exact fun _ _ _ found => found
  | updateSyncState state => exact fun _ _ _ found => found

/-- An item that holds nothing has nothing to keep. -/
theorem keepsOthers_none
    (after : Option Value)
    (operation : DatabaseOperation) :
    KeepsOthers none after operation := by
  cases operation with
  | saveCommitment commitment => exact List.nil_sublist _
  | markCommitmentSpent commitmentHash => exact List.nil_sublist _
  | deleteCommitment id => exact List.nil_sublist _
  | saveTransaction transaction => exact List.nil_sublist _
  | updateTransactionStatus id status updates => exact List.nil_sublist _
  | deleteTransaction id => exact List.nil_sublist _
  | saveSettings settings => rintro _ _ _ ⟨⟩
  | updateSyncState state => rintro _ _ _ ⟨⟩

/-! ## What is written is read back -/

/-- The text of a written value is read back as what was written. -/
theorem readContent_stringifyReplaced (written : Value) :
    readContent (.ok (some (JSON.stringifyReplaced written))) =
      .ok (some (JSON.jsonData written)) := by
  have parses := JSON.parseText_stringifyReplaced written
  have notEmpty : JSON.stringifyReplaced written ≠ "" := by
    intro empty
    rw [empty] at parses
    cases parses
  change (if JSON.stringifyReplaced written = "" then return none
    else return some (← JSON.parseText _) : Except Exception (Option Value)) = _
  rw [if_neg notEmpty, parses]
  rfl

/-- What an item holds is a value of a text. -/
theorem isParsed_of_readContent
    {read : Except Exception (Option String)}
    {content : Value}
    (reads : readContent read = .ok (some content)) :
    JSON.IsParsed content := by
  obtain ⟨item, _, holds⟩ := (bind_eq_ok_iff _ _ _).mp reads
  cases item with
  | none => cases holds
  | some data =>
      dsimp only at holds
      split at holds
      · cases holds
      · obtain ⟨parsed, parses, ⟨⟩⟩ := (bind_eq_ok_iff _ _ _).mp holds
        exact JSON.isParsed_of_parseText parses

/-- The properties of what an item holds have different names. -/
theorem nodup_properties_of_readContent
    {read : Except Exception (Option String)}
    {before : Option Value}
    (reads : readContent read = .ok before) :
    ((properties before).map Prod.fst).Nodup := by
  cases before with
  | none => exact List.nodup_nil
  | some content => exact (isOwn_ownFields (isParsed_of_readContent reads)).nodup

/-! ## Operations that cannot write -/

/-- The operation throws before it writes: it reads a property of a record that is
`null`, or there would be a big integer in what it writes. -/
def CannotWrite (before : Option Value) : DatabaseOperation -> Prop
  | .saveCommitment _ => False
  | .markCommitmentSpent _ => .null ∈ records before
  | .deleteCommitment _ => .null ∈ records before
  | .saveTransaction transaction =>
      JSON.hasBigInt (.object (transactionFields transaction)) = true
  | .updateTransactionStatus id _ updates =>
      .null ∈ records before ∨
        JSON.hasBigInt (.object updates.fields) = true ∧
          ∃ t ∈ records before, isText (propertyOf t "id") id = true
  | .deleteTransaction _ => .null ∈ records before
  | .saveSettings settings => JSON.hasBigInt (.object settings.fields) = true
  | .updateSyncState state => JSON.hasBigInt (.object state.fields) = true

/-- A big integer among the updates of a record is one of what is written. -/
theorem hasBigInt_updatedRecord
    {name text : String}
    (update : String × Value)
    {updates : List (String × Value)}
    (distinct : (updates.map Prod.fst).Nodup)
    (isBigInt : JSON.hasBigInt (.object updates) = true)
    {c : Value}
    (selected : isText (propertyOf c name) text = true) :
    JSON.hasBigInt (updatedRecord name text (update :: updates) c) = true := by
  rw [updatedRecord, if_pos selected]
  exact hasBigInt_spread_of_updates (JSON.assign (ownFields c) update) distinct
    isBigInt

/-- An operation that cannot write throws, or a big integer is in its way. -/
theorem CannotWrite.hasBigInt
    {content written : Value}
    {operation : DatabaseOperation}
    (cannotWrite : CannotWrite (some content) operation)
    (changes : changed (gotten content operation) operation = .ok written) :
    JSON.hasBigInt written = true := by
  have notNull : ∀ items : List Value, (∀ c ∈ items, isNullish c = false) ->
      .null ∉ items := by
    intro items readable isNull
    cases readable _ isNull
  cases operation with
  | saveCommitment commitment => exact cannotWrite.elim
  | markCommitmentSpent commitmentHash =>
      obtain ⟨items, rfl, readable, _⟩ := (updateWhere_eq_ok_iff _ _ _ _ _).mp changes
      exact absurd cannotWrite (notNull items readable)
  | deleteCommitment id =>
      obtain ⟨items, rfl, readable, _⟩ := (deleteWhere_eq_ok_iff _ _ _).mp changes
      exact absurd cannotWrite (notNull items readable)
  | saveTransaction transaction =>
      obtain ⟨items, _, ⟨⟩⟩ := (bind_eq_ok_iff _ _ _).mp changes
      exact (hasBigInt_array_iff _).mpr ⟨_, List.mem_cons_self, cannotWrite⟩
  | updateTransactionStatus id status updates =>
      obtain ⟨items, rfl, readable, rfl⟩ :=
        (updateWhere_eq_ok_iff _ _ _ _ _).mp changes
      rcases cannotWrite with isNull | ⟨isBigInt, t, member, selected⟩
      · exact absurd isNull (notNull items readable)
      · exact (hasBigInt_array_iff _).mpr ⟨_, List.mem_map_of_mem member,
          hasBigInt_updatedRecord _ updates.own.nodup isBigInt selected⟩
  | deleteTransaction id =>
      obtain ⟨items, rfl, readable, _⟩ := (deleteWhere_eq_ok_iff _ _ _).mp changes
      exact absurd cannotWrite (notNull items readable)
  | saveSettings settings =>
      cases changes
      exact hasBigInt_spread_of_updates _ settings.own.nodup cannotWrite
  | updateSyncState state =>
      cases changes
      exact hasBigInt_spread_of_updates _ state.own.nodup cannotWrite

/-- The operation takes the content of its item: a list is an array. -/
def Takes (content : Value) : DatabaseOperation -> Prop
  | .saveSettings _ => True
  | .updateSyncState _ => True
  | _ => ∃ items, content = .array items

theorem takes_defaultContent (operation : DatabaseOperation) :
    Takes (defaultContent operation) operation := by
  cases operation with
  | saveSettings settings => trivial
  | updateSyncState state => trivial
  | _ => exact ⟨[], rfl⟩

/-- Only arrays have records that are not written as they are. -/
theorem takes_of_mem_untargeted
    {content value : Value}
    {operation : DatabaseOperation}
    (member : value ∈ untargeted (some content) operation)
    (notJson : ¬JSON.IsJson value) :
    Takes content operation := by
  have ofRecord : value ∈ records (some content) ->
      ∃ items, content = .array items := by
    intro isRecord
    apply exists_array_of_mem_records isRecord
    rintro text rfl
    exact notJson trivial
  cases operation with
  | saveCommitment commitment => exact ofRecord member
  | markCommitmentSpent commitmentHash =>
      exact ofRecord (List.mem_of_mem_filter member)
  | deleteCommitment id => exact ofRecord (List.mem_of_mem_filter member)
  | saveTransaction transaction => exact ofRecord member
  | updateTransactionStatus id status updates =>
      exact ofRecord (List.mem_of_mem_filter member)
  | deleteTransaction id => exact ofRecord (List.mem_of_mem_filter member)
  | saveSettings settings => trivial
  | updateSyncState state => trivial

/-- Records of a text that are no `null` have properties. -/
theorem isNullish_of_isParsed
    {items : List Value}
    (areParsed : ∀ item ∈ items, JSON.IsParsed item)
    (noNull : .null ∉ items) :
    ∀ c ∈ items, isNullish c = false := by
  intro c member
  cases c with
  | undefined => exact (areParsed _ member).elim
  | null => exact absurd member noNull
  | _ => rfl

/-- Records that are no `null` can be updated. -/
theorem exists_written_updateWhere
    {items : List Value}
    (areParsed : ∀ item ∈ items, JSON.IsParsed item)
    (noNull : .null ∉ items)
    (name text : String)
    {updates : List (String × Value)}
    (noBigInt : ∀ c ∈ items, isText (propertyOf c name) text = true ->
      JSON.hasBigInt (.object (spread (ownFields c) updates)) = false) :
    ∃ written, updateWhere name text updates (.array items) = .ok written ∧
      JSON.hasBigInt written = false := by
  refine ⟨_, (updateWhere_eq_ok_iff _ _ _ _ _).mpr
    ⟨items, rfl, isNullish_of_isParsed areParsed noNull, rfl⟩, ?_⟩
  refine hasBigInt_array (List.forall_mem_map.mpr fun c member => ?_)
  rw [updatedRecord]
  split
  · rename_i selected
    exact noBigInt c member selected
  · exact JSON.hasBigInt_of_isParsed c (areParsed c member)

/-- Records that are no `null` can be deleted. -/
theorem exists_written_deleteWhere
    {items : List Value}
    (areParsed : ∀ item ∈ items, JSON.IsParsed item)
    (noNull : .null ∉ items)
    (id : String) :
    ∃ written, deleteWhere id (.array items) = .ok written ∧
      JSON.hasBigInt written = false :=
  ⟨_, (deleteWhere_eq_ok_iff _ _ _).mpr
      ⟨items, rfl, isNullish_of_isParsed areParsed noNull, rfl⟩,
    hasBigInt_array fun item member => JSON.hasBigInt_of_isParsed item
      (areParsed item (List.mem_of_mem_filter member))⟩

/-- A commitment has no big integer. -/
theorem hasBigInt_commitmentFields (commitment : StoredCommitment) :
    JSON.hasBigInt (.object (commitmentFields commitment)) = false := by
  cases note : commitment.note with
  | none => simp [commitmentFields, note, optionalValue, Value.ofInt,
      JSON.hasBigInt, JSON.memberHasBigInt]
  | some text => simp [commitmentFields, note, optionalValue, Value.ofInt,
      JSON.hasBigInt, JSON.memberHasBigInt]

/-- An operation that takes the content of its item and can write has a value to
write. -/
theorem exists_written
    {content : Value}
    (isParsed : JSON.IsParsed content)
    {operation : DatabaseOperation}
    (takes : Takes content operation)
    (canWrite : ¬CannotWrite (some content) operation) :
    ∃ written, changed (gotten content operation) operation = .ok written ∧
      JSON.hasBigInt written = false := by
  have parsedItems : ∀ items, content = .array items ->
      ∀ item ∈ items, JSON.IsParsed item := by
    rintro items rfl
    exact (JSON.areData_iff items).mp isParsed
  have noBigInt := hasBigInt_ownFields isParsed
  cases operation with
  | saveCommitment commitment =>
      obtain ⟨items, rfl⟩ := takes
      refine ⟨_, rfl, hasBigInt_array ?_⟩
      rw [List.forall_mem_append, List.forall_mem_singleton]
      exact ⟨fun item member => JSON.hasBigInt_of_isParsed item
          (parsedItems items rfl item member),
        hasBigInt_commitmentFields commitment⟩
  | markCommitmentSpent commitmentHash =>
      obtain ⟨items, rfl⟩ := takes
      exact exists_written_updateWhere (parsedItems items rfl) canWrite _ _
        fun c member _ => hasBigInt_spread_of_none
          (hasBigInt_ownFields (parsedItems items rfl c member)) rfl
  | deleteCommitment id =>
      obtain ⟨items, rfl⟩ := takes
      exact exists_written_deleteWhere (parsedItems items rfl) canWrite id
  | saveTransaction transaction =>
      obtain ⟨items, rfl⟩ := takes
      refine ⟨_, rfl, hasBigInt_array (List.forall_mem_cons.mpr ⟨?_, ?_⟩)⟩
      · exact Bool.eq_false_of_not_eq_true canWrite
      · exact fun item member => JSON.hasBigInt_of_isParsed item
          (parsedItems items rfl item member)
  | updateTransactionStatus id status updates =>
      obtain ⟨items, rfl⟩ := takes
      obtain ⟨noNull, noUpdate⟩ := not_or.mp canWrite
      refine exists_written_updateWhere (parsedItems items rfl) noNull _ _
        fun c member selected => ?_
      have noStatus := hasBigInt_spread_of_none
        (hasBigInt_ownFields (parsedItems items rfl c member))
        (show JSON.hasBigInt (.object
          [("status", .string (statusText status))]) = false from rfl)
      have noUpdates : JSON.hasBigInt (.object updates.fields) = false := by
        rw [← Bool.not_eq_true]
        exact fun isBigInt => noUpdate ⟨isBigInt, c, member, selected⟩
      -- the status is the first of the updates
      have noneWritten := hasBigInt_spread_of_none noStatus noUpdates
      exact noneWritten
  | deleteTransaction id =>
      obtain ⟨items, rfl⟩ := takes
      exact exists_written_deleteWhere (parsedItems items rfl) canWrite id
  | saveSettings settings =>
      refine ⟨_, rfl, ?_⟩
      exact hasBigInt_spread_of_none (hasBigInt_spread_of_none rfl noBigInt)
        (Bool.eq_false_of_not_eq_true canWrite)
  | updateSyncState state =>
      refine ⟨_, rfl, ?_⟩
      exact hasBigInt_spread_of_none noBigInt
        (Bool.eq_false_of_not_eq_true canWrite)

/-- What an operation makes a text of. -/
def replacementFor
    (operation : DatabaseOperation)
    (read : Except Exception (Option String)) : Except Exception String := do
  let updated ← changed
    (getStored (defaultContent operation)
      (fun content => gotten content operation) read) operation
  JSON.stringifyValue updated

/-- Every operation rewrites its item. -/
theorem perform_eq_rewriteItem (access : Access) (operation : DatabaseOperation) :
    perform access operation =
      rewriteItem access (replacementFor operation) := by
  rw [perform_eq_mutate]
  rfl

/-- There is a text to write for a value without big integers. -/
theorem replacementFor_eq_ok_iff
    (operation : DatabaseOperation)
    (read : Except Exception (Option String))
    (text : String) :
    replacementFor operation read = .ok text ↔
      ∃ written, changed (getStored (defaultContent operation)
          (fun content => gotten content operation) read) operation =
            .ok written ∧
        JSON.hasBigInt written = false ∧
        text = JSON.stringifyReplaced written := by
  rw [replacementFor, bind_eq_ok_iff]
  refine exists_congr fun written => and_congr_right fun _ => ?_
  rw [JSON.stringifyValue]
  cases JSON.hasBigInt written with
  | true => simp
  | false => simp [eq_comm]

/-- The default counts as the content of an item that holds nothing. -/
theorem gotten_defaultContent (operation : DatabaseOperation) :
    gotten (defaultContent operation) operation = defaultContent operation := by
  cases operation with
  | saveSettings settings => rfl
  | _ => rfl

theorem cannotWrite_defaultContent_iff (operation : DatabaseOperation) :
    CannotWrite (some (defaultContent operation)) operation ↔
      CannotWrite none operation := by
  cases operation with
  | _ => rfl

theorem isParsed_defaultSettings : JSON.IsParsed (.object defaultSettings) :=
  ⟨isOwn_defaultSettings, trivial, (by decide +kernel : Number.IsDouble 5),
    trivial, trivial, trivial, trivial, trivial, trivial, trivial⟩

theorem isParsed_defaultContent (operation : DatabaseOperation) :
    JSON.IsParsed (defaultContent operation) := by
  cases operation with
  | saveSettings settings => exact isParsed_defaultSettings
  | updateSyncState state =>
      exact ⟨isOwn_initialSyncState, (by decide +kernel : Number.IsDouble 0),
        (by decide +kernel : Number.IsDouble 0), trivial, trivial⟩
  | _ => trivial

/-- An operation that gets a content which it takes has a text to write exactly
when it can write. -/
theorem exists_replacementFor_iff
    {operation : DatabaseOperation}
    {read : Except Exception (Option String)}
    {content : Value}
    (gets : getStored (defaultContent operation)
      (fun content => gotten content operation) read = gotten content operation)
    (isParsed : JSON.IsParsed content)
    (takes : Takes content operation) :
    (∃ text, replacementFor operation read = .ok text) ↔
      ¬CannotWrite (some content) operation := by
  simp only [replacementFor_eq_ok_iff, gets]
  constructor
  · rintro ⟨_, written, changes, noBigInt, _⟩ cannotWrite
    rw [cannotWrite.hasBigInt changes] at noBigInt
    cases noBigInt
  · intro canWrite
    obtain ⟨written, changes, noBigInt⟩ := exists_written isParsed takes canWrite
    exact ⟨_, written, changes, noBigInt, rfl⟩

/-- After a failed read there is a text to write exactly when the operation can
write over an item that holds nothing. -/
theorem exists_replacementFor_of_failedRead
    {read : Except Exception (Option String)}
    {error : Exception}
    (failed : readContent read = .error error)
    (operation : DatabaseOperation) :
    (∃ text, replacementFor operation read = .ok text) ↔
      ¬CannotWrite none operation := by
  rw [← cannotWrite_defaultContent_iff]
  apply exists_replacementFor_iff
  · rw [getStored, failed, gotten_defaultContent]
  · exact isParsed_defaultContent operation
  · exact takes_defaultContent operation

/-! ## Outcomes -/

/-- Only a granted getter reads the item. -/
theorem read_eq_of_readContent
    {access : Access}
    {item : Option String}
    {before : Option Value}
    (reads : readContent (access.read item) = .ok before) :
    access.read item = .ok item := by
  unfold Access.read at reads ⊢
  split at reads
  · cases reads
  · rfl

/-- After a read that succeeds an operation without a text to write is safe. -/
theorem safe_of_unchanged
    {access : Access}
    {item : Option String}
    {before : Option Value}
    (reads : readContent (access.read item) = .ok before)
    {operation : DatabaseOperation}
    (unchanged : itemAfter (perform access operation) item = item) :
    Safe access operation item := by
  constructor
  · intro error failed
    rw [reads] at failed
    cases failed
  · intro content readsContent
    obtain rfl := Except.ok.inj (reads.symm.trans readsContent)
    rw [unchanged, ← read_eq_of_readContent reads]
    exact ⟨before, reads, keepsOthers_refl before operation⟩

/-- After a read that succeeds an operation is safe if what it does not target is
written as it is. -/
theorem safe_of_areJson
    {access : Access}
    {item : Option String}
    {before : Option Value}
    (reads : readContent (access.read item) = .ok before)
    {operation : DatabaseOperation}
    (areJson : ∀ value ∈ untargeted before operation, JSON.IsJson value) :
    Safe access operation item := by
  have call := perform_eq_rewriteItem access operation
  rcases itemAfter_rewriteItem_cases access (replacementFor operation) item with
    unchanged | ⟨text, replaced, written⟩
  · exact safe_of_unchanged reads (call ▸ unchanged)
  · constructor
    · intro error failed
      rw [reads] at failed
      cases failed
    · intro content readsContent
      obtain rfl := Except.ok.inj (reads.symm.trans readsContent)
      obtain ⟨value, changes, _, rfl⟩ :=
        (replacementFor_eq_ok_iff _ _ _).mp replaced
      rw [call, written, readContent_stringifyReplaced]
      refine ⟨_, rfl, ?_⟩
      cases before with
      | none => exact keepsOthers_none _ operation
      | some content =>
          rw [getStored, reads] at changes
          exact keepsOthers_changed (isParsed_of_readContent reads) areJson changes

/-- After a read that succeeds an operation that throws before the write is
safe. -/
theorem safe_of_cannotWrite
    {access : Access}
    {item : Option String}
    {before : Option Value}
    (reads : readContent (access.read item) = .ok before)
    {operation : DatabaseOperation}
    (cannotWrite : CannotWrite before operation) :
    Safe access operation item := by
  have call := perform_eq_rewriteItem access operation
  rcases itemAfter_rewriteItem_cases access (replacementFor operation) item
    with unchanged | ⟨text, replaced, _⟩
  · exact safe_of_unchanged reads (call ▸ unchanged)
  · obtain ⟨written, changes, noBigInt, _⟩ :=
      (replacementFor_eq_ok_iff _ _ _).mp replaced
    have isBigInt : JSON.hasBigInt written = true := by
      cases before with
      | none =>
          rw [getStored, reads, ← gotten_defaultContent] at changes
          exact ((cannotWrite_defaultContent_iff operation).mpr
            cannotWrite).hasBigInt changes
      | some content =>
          rw [getStored, reads] at changes
          exact cannotWrite.hasBigInt changes
    rw [isBigInt] at noBigInt
    cases noBigInt

/-- What a safe operation that writes does not target is written as it is. -/
theorem Safe.isJson_of_untargeted
    {access : Access}
    {operation : DatabaseOperation}
    {item : Option String}
    (safe : Safe access operation item)
    {before : Option Value}
    (reads : readContent (access.read item) = .ok before)
    (granted : access.setItem = none)
    (canWrite : ¬CannotWrite before operation)
    {value : Value}
    (member : value ∈ untargeted before operation) :
    JSON.IsJson value := by
  cases before with
  | none =>
      rw [untargeted_none] at member
      cases member
  | some content =>
      by_contra notJson
      have isParsed := isParsed_of_readContent reads
      have gets : getStored (defaultContent operation)
          (fun content => gotten content operation) (access.read item) =
            gotten content operation := by
        rw [getStored, reads]
      obtain ⟨text, replaced⟩ := (exists_replacementFor_iff gets isParsed
        (takes_of_mem_untargeted member notJson)).mpr canWrite
      obtain ⟨after, readsAfter, keeps⟩ := safe.keepsOthers _ reads
      obtain ⟨written, _, _, rfl⟩ := (replacementFor_eq_ok_iff _ _ _).mp replaced
      rw [perform_eq_rewriteItem,
        itemAfter_rewriteItem_of_granted _ _ _ granted replaced,
        readContent_stringifyReplaced] at readsAfter
      cases readsAfter
      exact notJson (isJson_of_keepsOthers
        (nodup_properties_of_readContent reads) keeps member)

/-- After a read that succeeds an operation is safe exactly when it writes
nothing, or what it does not target is written as it is. -/
theorem safe_iff_of_read
    {access : Access}
    {item : Option String}
    {before : Option Value}
    (reads : readContent (access.read item) = .ok before)
    (operation : DatabaseOperation) :
    Safe access operation item ↔
      access.setItem ≠ none ∨ CannotWrite before operation ∨
        ∀ value ∈ untargeted before operation, JSON.IsJson value := by
  constructor
  · intro safe
    by_cases granted : access.setItem = none
    · by_cases canWrite : CannotWrite before operation
      · exact .inr (.inl canWrite)
      · exact .inr (.inr fun _ member =>
          safe.isJson_of_untargeted reads granted canWrite member)
    · exact .inl granted
  · rintro (refused | cannotWrite | areJson)
    · apply safe_of_unchanged reads
      rw [perform_eq_rewriteItem]
      exact itemAfter_rewriteItem_of_refused _ _ _ refused
    · exact safe_of_cannotWrite reads cannotWrite
    · exact safe_of_areJson reads areJson

/-- After a failed read an operation is safe exactly when it writes nothing. -/
theorem safe_iff_of_failedRead
    {access : Access}
    {item : Option String}
    {error : Exception}
    (failed : readContent (access.read item) = .error error)
    (operation : DatabaseOperation) :
    Safe access operation item ↔
      access.setItem ≠ none ∨ CannotWrite none operation := by
  have writes := exists_replacementFor_of_failedRead failed operation
  have returns := reportsFailure_rewriteItem_eq_false_iff access
    (replacementFor operation) item
  rw [writes] at returns
  constructor
  · intro safe
    obtain ⟨_, reports⟩ := safe.failedRead error failed
    rw [perform_eq_rewriteItem] at reports
    by_contra neither
    rw [not_or, not_ne_iff, ← returns, reports] at neither
    cases neither
  · intro writesNothing
    have reports : reportsFailure
        (rewriteItem access (replacementFor operation)) item = true := by
      rw [← Bool.not_eq_false, returns, not_and_or, not_not]
      exact writesNothing
    have unchanged : itemAfter
        (rewriteItem access (replacementFor operation)) item = item := by
      rcases writesNothing with refused | cannotWrite
      · exact itemAfter_rewriteItem_of_refused _ _ _ refused
      · rcases itemAfter_rewriteItem_cases access (replacementFor operation)
          item with unchanged | ⟨text, replaced, _⟩
        · exact unchanged
        · exact absurd cannotWrite (writes.mp ⟨text, replaced⟩)
    constructor
    · intro _ _
      rw [perform_eq_rewriteItem]
      exact ⟨unchanged, reports⟩
    · intro before reads
      rw [failed] at reads
      cases reads

/-- **Safe operations.**  An operation is safe exactly when its write is refused,
when it cannot write, or when its read succeeds and no infinite number, which JSON
writes as `null`, is in what it does not target. -/
theorem safe_iff
    (access : Access)
    (operation : DatabaseOperation)
    (item : Option String) :
    Safe access operation item ↔
      access.setItem ≠ none ∨
        match readContent (access.read item) with
        | .error _ => CannotWrite none operation
        | .ok before => CannotWrite before operation ∨
            ∀ value ∈ untargeted before operation, JSON.IsJson value := by
  cases reads : readContent (access.read item) with
  | ok before => exact safe_iff_of_read reads operation
  | error error => exact safe_iff_of_failedRead reads operation

/-- A read that is rejected once, before a write that is not. -/
def rejectedRead : Access where
  getItem := some (.error "Failed to read from storage")

/-- Deleting one commitment after a rejected read deletes all of them. -/
theorem deleteCommitment_destroys_list :
    ¬ ∀ access operation item, Safe access operation item := by
  intro safe
  have written : itemAfter (perform rejectedRead (.deleteCommitment "b"))
      (some "[\x7b\"id\":\"a\"\x7d]") = some "[]" := by
    decide +kernel
  have unchanged := ((safe rejectedRead (.deleteCommitment "b")
    (some "[\x7b\"id\":\"a\"\x7d]")).failedRead _ rfl).1
  rw [written] at unchanged
  exact absurd unchanged (by decide)

end DatabaseTexts
end Client
end Privachain

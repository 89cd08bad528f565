import Privachain.Client.BalanceTexts

/-!
# The integrity of the stored transactions

Transactions are addressed by their ids, which nothing keeps distinct, and an update
spreads its argument over the record after the id and the status.  A run keeps the
list in order exactly when every call saves a new id, updates neither of the two to
something else, and imports a list that is in order.
-/

namespace Privachain
namespace Client
namespace DatabaseTexts

open Foundation
open Foundation.JavaScript
open Foundation.StatefulCall
open Foundation.StoredItem

/-! ## Statistics -/

/-- What `getDatabaseStats` returns. -/
structure DatabaseStats where
  totalCommitments : Nat
  unspentCommitments : Nat
  spentCommitments : Int
  totalTransactions : Nat
  pendingTransactions : Nat
  confirmedTransactions : Nat
  failedTransactions : Nat
  deriving DecidableEq

/-- `t.status === status` -/
def hasStatus (status : TransactionStatus) (t : Value) : Bool :=
  isText (propertyOf t "status") (statusText status)

/-- The list whose statuses are counted; its length is read first. -/
def countedTransactions : Value -> Except Exception (List Value)
  | .null => .error (.typeError "Cannot read properties of null (reading 'length')")
  | transactions => elementsFor "filter" transactions

/-- `getDatabaseStats()` -/
def getDatabaseStats
    (accesses : ItemAccesses)
    (items : Items) : Except Exception DatabaseStats := do
  let read := accesses.commitments.read items.commitments
  let unspent ← getUnspentCommitments read
  -- the unspent ones were filtered from the same array
  let commitments ← elementsFor "filter" (getCommitments read)
  let transactions ← countedTransactions
    (getTransactions (accesses.transactions.read items.transactions))
  let _ ← transactions.mapM fun t => readProperty t "status"
  return {
    totalCommitments := commitments.length
    unspentCommitments := unspent.length
    spentCommitments := (commitments.length : Int) - (unspent.length : Int)
    totalTransactions := transactions.length
    pendingTransactions := (transactions.filter (hasStatus .pending)).length
    confirmedTransactions := (transactions.filter (hasStatus .confirmed)).length
    failedTransactions := (transactions.filter (hasStatus .failed)).length }

/-- The count of a status. -/
def DatabaseStats.countOf (stats : DatabaseStats) : TransactionStatus -> Nat
  | .pending => stats.pendingTransactions
  | .confirmed => stats.confirmedTransactions
  | .failed => stats.failedTransactions

/-! ## Calls -/

/-- A call that changes the stored transactions; what is imported was exported from
a database. -/
inductive TransactionStoreCall
  | saveTransaction (transaction : StoredTransaction)
  | updateTransactionStatus
      (id : String)
      (status : TransactionStatus)
      (updates : Properties)
  | deleteTransaction (id : String)
  | importData (dateNow : Int) (source : Items)

/-- A call on the items, whose accesses are all granted. -/
def performTransactionStoreCall : TransactionStoreCall -> ItemsCall PUnit
  | .saveTransaction transaction =>
      onTransactions (saveTransaction {} transaction)
  | .updateTransactionStatus id status updates =>
      onTransactions (updateTransactionStatus {} id status updates)
  | .deleteTransaction id => onTransactions (deleteTransaction {} id)
  | .importData dateNow source =>
      importData {} (exportData {} dateNow source).toImported

/-- The items after a call. -/
def applyTransactionStoreCall
    (items : Items)
    (call : TransactionStoreCall) : Items :=
  stateAfter (performTransactionStoreCall call) items

/-- What `getTransactions` returns. -/
def transactionsOf (items : Items) : Value :=
  getTransactions (.ok items.transactions)

/-! ## Integrity -/

/-- The stored transactions are a list with different ids. -/
def DistinctIds (items : Items) : Prop :=
  ∃ ts, transactionsOf items = .array ts ∧
    (ts.map fun t => propertyOf t "id").Nodup

/-- The three counts are the numbers of transactions with the status, and sum to
the total. -/
def CountsStatuses (items : Items) : Prop :=
  ∃ stats ts, getDatabaseStats {} items = .ok stats ∧
    transactionsOf items = .array ts ∧
    (∀ status, stats.countOf status = ts.countP (hasStatus status)) ∧
    stats.pendingTransactions + stats.confirmedTransactions +
      stats.failedTransactions = stats.totalTransactions

/-- The transactions are distinct and counted by their statuses. -/
structure Intact (items : Items) : Prop where
  distinctIds : DistinctIds items
  countsStatuses : CountsStatuses items

/-- The transaction with the id keeps the id and has the status, and another one is
unchanged. -/
def Becomes
    (id : String)
    (status : TransactionStatus)
    (t t' : Value) : Prop :=
  if isText (propertyOf t "id") id then
    isText (propertyOf t' "id") id = true ∧ hasStatus status t' = true
  else t' = t

/-- The list is the same in its order, but for the transaction with the id. -/
def UpdatesOnly
    (id : String)
    (status : TransactionStatus)
    (before after : Value) : Prop :=
  ∃ ts updated, before = .array ts ∧ after = .array updated ∧
    List.Forall₂ (Becomes id status) ts updated

/-- What the call is to do with the list that it finds. -/
def HasEffect (items : Items) : TransactionStoreCall -> Prop
  | .updateTransactionStatus id status updates =>
      UpdatesOnly id status (transactionsOf items)
        (transactionsOf (applyTransactionStoreCall items
          (.updateTransactionStatus id status updates)))
  | _ => True

/-! ## Calls that keep the integrity -/

/-- A list with different ids and a status each. -/
def InOrder (transactions : Value) : Prop :=
  ∃ ts, transactions = .array ts ∧
    (ts.map fun t => propertyOf t "id").Nodup ∧
    ∀ t ∈ ts, ∃ status, hasStatus status t = true

/-- The unspent ones of some commitments can be found. -/
def Readable (commitments : Value) : Prop :=
  ∃ items, commitments = .array items ∧ ∀ c ∈ items, isNullish c = false

/-- The updates name neither another id nor another status. -/
def Properties.KeepsStatus
    (updates : Properties)
    (id : String)
    (status : TransactionStatus) : Prop :=
  (∀ value, updates.fields.lookup "id" = some value -> isText value id = true) ∧
    ∀ value, updates.fields.lookup "status" = some value ->
      isText value (statusText status) = true

/-- The call saves a new id, or a record that no text can be made of; updates no stored
transaction to another id or status, and with updates that no text can be made
of only one that has the status; and imports transactions that are in order with
commitments that can be read, as they are written. -/
def KeepsOrder (items : Items) : TransactionStoreCall -> Prop
  | .saveTransaction transaction =>
      JSON.hasBigInt transaction.metadata = true ∨
        ∀ t ∈ records (some (transactionsOf items)),
          isText (propertyOf t "id") transaction.id = false
  | .updateTransactionStatus id status updates =>
      ∀ t ∈ records (some (transactionsOf items)),
        isText (propertyOf t "id") id = true ->
          if JSON.hasBigInt (.object updates.fields) then
            hasStatus status t = true
          else updates.KeepsStatus id status
  | .deleteTransaction _ => True
  | .importData _ source =>
      ((transactionsOf source).truthy = true ->
          InOrder (JSON.jsonData (transactionsOf source))) ∧
        ((getCommitments (.ok source.commitments)).truthy = true ->
          Readable (JSON.jsonData (getCommitments (.ok source.commitments))))

/-! ## Counting the statuses -/

/-- A transaction has one status at most. -/
theorem hasStatus_unique
    {first second : TransactionStatus}
    {t : Value}
    (hasFirst : hasStatus first t = true)
    (hasSecond : hasStatus second t = true) :
    first = second := by
  unfold hasStatus isText at hasFirst hasSecond
  cases property : propertyOf t "status" with
  | string text =>
      rw [property] at hasFirst hasSecond
      have sameText : statusText first = statusText second :=
        (beq_iff_eq.mp hasFirst).symm.trans (beq_iff_eq.mp hasSecond)
      revert sameText
      cases first <;> cases second <;> decide
  | _ =>
      rw [property] at hasFirst
      cases hasFirst

/-- The counts of one transaction sum to one if it has a status, and else to
zero. -/
theorem statusCounts_singleton (t : Value) :
    (∃ status, hasStatus status t = true) ∧
        [t].countP (hasStatus .pending) + [t].countP (hasStatus .confirmed) +
          [t].countP (hasStatus .failed) = 1 ∨
      (¬∃ status, hasStatus status t = true) ∧
        [t].countP (hasStatus .pending) + [t].countP (hasStatus .confirmed) +
          [t].countP (hasStatus .failed) = 0 := by
  by_cases has : ∃ status, hasStatus status t = true
  · refine .inl ⟨has, ?_⟩
    obtain ⟨status, hasIt⟩ := has
    have others : ∀ other, other ≠ status -> hasStatus other t = false := by
      intro other different
      rw [← Bool.not_eq_true]
      exact fun hasOther => different (hasStatus_unique hasOther hasIt)
    cases status with
    | pending =>
        simp [hasIt, others .confirmed (by decide), others .failed (by decide)]
    | confirmed =>
        simp [hasIt, others .pending (by decide), others .failed (by decide)]
    | failed =>
        simp [hasIt, others .pending (by decide), others .confirmed (by decide)]
  · refine .inr ⟨has, ?_⟩
    simp only [not_exists, Bool.not_eq_true] at has
    simp [has]

/-- The counts sum to at most the length, and to the length exactly when every
transaction has a status. -/
theorem statusCounts_le_and_eq_iff (ts : List Value) :
    ts.countP (hasStatus .pending) + ts.countP (hasStatus .confirmed) +
        ts.countP (hasStatus .failed) ≤ ts.length ∧
      (ts.countP (hasStatus .pending) + ts.countP (hasStatus .confirmed) +
          ts.countP (hasStatus .failed) = ts.length ↔
        ∀ t ∈ ts, ∃ status, hasStatus status t = true) := by
  induction ts with
  | nil => simp
  | cons t ts inductionHypothesis =>
      obtain ⟨atMost, equal_iff⟩ := inductionHypothesis
      have split : ∀ status, (t :: ts).countP (hasStatus status) =
          [t].countP (hasStatus status) + ts.countP (hasStatus status) := by
        intro status
        rw [← List.countP_append, List.singleton_append]
      rw [split, split, split, List.length_cons, List.forall_mem_cons, ← equal_iff]
      rcases statusCounts_singleton t with ⟨has, one⟩ | ⟨hasNot, zero⟩
      · rw [and_iff_right has]
        omega
      · have notBoth : ¬((∃ status, hasStatus status t = true) ∧
            ts.countP (hasStatus .pending) + ts.countP (hasStatus .confirmed) +
              ts.countP (hasStatus .failed) = ts.length) :=
          fun both => hasNot both.1
        exact ⟨by omega, iff_of_false (by omega) notBoth⟩

/-! ## Lists in order -/

/-- A value with a text property is an object. -/
theorem exists_eq_object_of_isText
    {t : Value}
    {name text : String}
    (isIt : isText (propertyOf t name) text = true) :
    ∃ fields, t = .object fields := by
  cases t with
  | object fields => exact ⟨fields, rfl⟩
  | _ => cases isIt

/-- The transactions that have a status are objects. -/
theorem exists_eq_object_of_hasStatus
    {t : Value}
    (has : ∃ status, hasStatus status t = true) :
    ∃ fields, t = .object fields := by
  obtain ⟨status, hasIt⟩ := has
  exact exists_eq_object_of_isText hasIt

/-- A text is that of one string only. -/
theorem eq_string_of_isText
    {value : Value}
    {text : String}
    (isIt : isText value text = true) :
    value = .string text := by
  cases value with
  | string actual => rw [beq_iff_eq.mp isIt]
  | _ => cases isIt

/-- The properties of objects can be read. -/
theorem isNullish_of_objects
    {ts : List Value}
    (areObjects : ∀ t ∈ ts, ∃ fields, t = Value.object fields) :
    ∀ t ∈ ts, isNullish t = false := by
  intro t member
  obtain ⟨fields, rfl⟩ := areObjects t member
  rfl

/-- The unspent commitments are found where the commitments can be read. -/
theorem getUnspentCommitments_eq_ok_iff
    (read : Except Exception (Option String))
    (unspent : List Value) :
    getUnspentCommitments read = .ok unspent ↔
      ∃ commitments, getCommitments read = .array commitments ∧
        (∀ c ∈ commitments, isNullish c = false) ∧
        unspent = commitments.filter fun c => !(propertyOf c "spent").truthy := by
  have each : ∀ c property, readProperty c "spent" = .ok property ↔
      isNullish c = false ∧ property = propertyOf c "spent" :=
    fun c property => readProperty_eq_ok_iff c property "spent"
  unfold getUnspentCommitments
  simp only [bind_eq_ok_iff, elementsFor_eq_ok_iff, returned_eq_ok_iff,
    mapM_eq_ok_iff_of_iff each, and_assoc, exists_and_left, exists_eq_left]

/-- The statistics of a list. -/
theorem getDatabaseStats_eq_ok_iff
    (items : Items)
    (stats : DatabaseStats) :
    getDatabaseStats {} items = .ok stats ↔
      ∃ unspent commitments ts,
        getUnspentCommitments (.ok items.commitments) = .ok unspent ∧
        getCommitments (.ok items.commitments) = .array commitments ∧
        transactionsOf items = .array ts ∧
        (∀ t ∈ ts, isNullish t = false) ∧
        stats =
          { totalCommitments := commitments.length
            unspentCommitments := unspent.length
            spentCommitments :=
              (commitments.length : Int) - (unspent.length : Int)
            totalTransactions := ts.length
            pendingTransactions := ts.countP (hasStatus .pending)
            confirmedTransactions := ts.countP (hasStatus .confirmed)
            failedTransactions := ts.countP (hasStatus .failed) } := by
  have counted : ∀ value ts, countedTransactions value = .ok ts ↔
      value = .array ts := by
    intro value ts
    unfold countedTransactions
    split
    · simp
    · exact elementsFor_eq_ok_iff "filter" _ ts
  have each : ∀ t property, readProperty t "status" = .ok property ↔
      isNullish t = false ∧ property = propertyOf t "status" :=
    fun t property => readProperty_eq_ok_iff t property "status"
  unfold getDatabaseStats
  simp only [bind_eq_ok_iff, elementsFor_eq_ok_iff, counted, returned_eq_ok_iff,
    mapM_eq_ok_iff_of_iff each, and_assoc, exists_and_left, exists_eq_left,
    ← List.countP_eq_length_filter]
  constructor
  · rintro ⟨unspent, filters, commitments, isArray, ts, areArray, readable, rfl⟩
    exact ⟨unspent, filters, commitments, isArray, ts, areArray, readable, rfl⟩
  · rintro ⟨unspent, filters, commitments, isArray, ts, areArray, readable, rfl⟩
    exact ⟨unspent, filters, commitments, isArray, ts, areArray, readable, rfl⟩

/-- The store is intact exactly when its list is in order and its commitments can be
read. -/
theorem intact_iff (items : Items) :
    Intact items ↔
      InOrder (transactionsOf items) ∧
        Readable (getCommitments (.ok items.commitments)) := by
  constructor
  · rintro ⟨⟨ts, isArray, distinct⟩, stats, _, computes, _, _, sums⟩
    obtain ⟨unspent, _, listed, filters, _, isListed, _, rfl⟩ :=
      (getDatabaseStats_eq_ok_iff items stats).mp computes
    obtain rfl := Value.array.inj (isArray.symm.trans isListed)
    have haveStatus := (statusCounts_le_and_eq_iff ts).2.mp sums
    obtain ⟨commitments, areArray, readable, _⟩ :=
      (getUnspentCommitments_eq_ok_iff _ _).mp filters
    exact ⟨⟨ts, isArray, distinct, haveStatus⟩, commitments, areArray, readable⟩
  · rintro ⟨⟨ts, isArray, distinct, haveStatus⟩, commitments, areArray, readable⟩
    have filters := (getUnspentCommitments_eq_ok_iff _ _).mpr
      ⟨commitments, areArray, readable, rfl⟩
    have listed := isNullish_of_objects
      fun t member => exists_eq_object_of_hasStatus (haveStatus t member)
    have computes := (getDatabaseStats_eq_ok_iff items _).mpr
      ⟨_, commitments, ts, filters, areArray, isArray, listed, rfl⟩
    refine ⟨⟨ts, isArray, distinct⟩, _, ts, computes, isArray, ?_,
      (statusCounts_le_and_eq_iff ts).2.mpr haveStatus⟩
    intro status
    cases status with
    | pending => rfl
    | confirmed => rfl
    | failed => rfl

/-! ## What a call leaves -/

/-- An operation on the transactions leaves what it made of the list, or the list where
no text can be made of that. -/
theorem transactionsOf_onTransactions
    {operation : DatabaseOperation}
    (gets : ∀ read, getStored (defaultContent operation)
      (fun content => gotten content operation) read = getTransactions read)
    (items : Items)
    {written : Value}
    (changes : changed (transactionsOf items) operation = .ok written) :
    transactionsOf (stateAfter (onTransactions (perform {} operation)) items) =
      if JSON.hasBigInt written then transactionsOf items
      else JSON.jsonData written := by
  have left : (stateAfter (onTransactions (perform {} operation))
      items).transactions =
        itemAfter (perform {} operation) items.transactions := by
    rw [onTransactions, stateAfter_onPart, stateAfter_eq_itemAfter]
  have texts := replacementFor_eq_ok_iff operation (.ok items.transactions)
  simp only [gets] at texts
  rw [transactionsOf, left, perform_eq_rewriteItem]
  cases replaced : replacementFor operation (.ok items.transactions) with
  | error error =>
      have hasBigInt : JSON.hasBigInt written = true := by
        by_contra none
        rw [Bool.not_eq_true] at none
        have text := (texts _).mpr ⟨written, changes, none, rfl⟩
        cases replaced.symm.trans text
      rw [itemAfter_rewriteItem_of_error _ _ _ replaced, if_pos hasBigInt]
      rfl
  | ok text =>
      obtain ⟨value, changesTo, none, rfl⟩ := (texts text).mp replaced
      obtain rfl := Except.ok.inj (changes.symm.trans changesTo)
      rw [itemAfter_rewriteItem_of_granted _ _ _ rfl replaced, none,
        getTransactions, getStored, readContent_stringifyReplaced]
      rfl

/-- The stored transactions are written as they are. -/
def IsWritten (items : Items) : Prop :=
  JSON.IsJson (transactionsOf items)

theorem IsWritten.areJson
    {items : Items}
    (isWritten : IsWritten items)
    {ts : List Value}
    (isArray : transactionsOf items = .array ts) :
    ∀ t ∈ ts, JSON.IsJson t := by
  rw [IsWritten, isArray] at isWritten
  exact (JSON.areData_iff ts).mp isWritten

/-- An operation leaves a list that is written as it is. -/
theorem isWritten_onTransactions
    {items : Items}
    (isWritten : IsWritten items)
    (operation : DatabaseOperation) :
    IsWritten (stateAfter (onTransactions (perform {} operation)) items) := by
  have left : (stateAfter (onTransactions (perform {} operation))
      items).transactions =
        itemAfter (perform {} operation) items.transactions := by
    rw [onTransactions, stateAfter_onPart, stateAfter_eq_itemAfter]
  rw [IsWritten, transactionsOf, left, perform_eq_rewriteItem]
  rcases itemAfter_rewriteItem_cases {} (replacementFor operation)
    items.transactions with unchanged | ⟨text, replaced, written⟩
  · rw [unchanged]
    exact isWritten
  · obtain ⟨value, _, _, rfl⟩ := (replacementFor_eq_ok_iff _ _ _).mp replaced
    rw [written, getTransactions, getStored, readContent_stringifyReplaced]
    exact JSON.isJson_jsonData value

/-- The call leaves a list in order with the same commitments. -/
theorem intact_onTransactions_iff
    {items : Items}
    (intact : Intact items)
    (call : ItemCall PUnit) :
    Intact (stateAfter (onTransactions call) items) ↔
      InOrder (transactionsOf (stateAfter (onTransactions call) items)) := by
  rw [intact_iff, commitments_onTransactions]
  exact and_iff_left ((intact_iff items).mp intact).2

/-! ### Saving -/

/-- A transaction holds a big integer in its metadata only. -/
theorem hasBigInt_transactionFields (transaction : StoredTransaction) :
    JSON.hasBigInt (.object (transactionFields transaction)) =
      JSON.hasBigInt transaction.metadata := by
  have text : ∀ value : Option String,
      JSON.hasBigInt (optionalValue .string value) = false := by
    intro value
    cases value with
    | none => rfl
    | some text => rfl
  have number : ∀ value : Option Int,
      JSON.hasBigInt (optionalValue .ofInt value) = false := by
    intro value
    cases value with
    | none => rfl
    | some number => rfl
  simp [transactionFields, Value.ofInt, JSON.hasBigInt, JSON.memberHasBigInt,
    text, number]

/-- An id is not among those of the transactions when no text is the id. -/
theorem notMem_ids_iff (id : String) (ts : List Value) :
    Value.string id ∉ ts.map (fun t => propertyOf t "id") ↔
      ∀ t ∈ ts, isText (propertyOf t "id") id = false := by
  rw [List.mem_map, not_exists]
  refine forall_congr' fun t => ?_
  rw [not_and, ← Bool.not_eq_true]
  refine imp_congr_right fun _ => not_congr ⟨?_, eq_string_of_isText⟩
  intro same
  rw [same]
  exact beq_self_eq_true _

/-- A transaction in front of a list in order keeps the order exactly when its id
is new. -/
theorem inOrder_cons_iff
    {t : Value}
    {id : String}
    {status : TransactionStatus}
    {ts : List Value}
    (hasId : propertyOf t "id" = .string id)
    (hasIts : hasStatus status t = true)
    (inOrder : InOrder (.array ts)) :
    InOrder (.array (t :: ts)) ↔
      ∀ t ∈ ts, isText (propertyOf t "id") id = false := by
  rw [← notMem_ids_iff]
  constructor
  · rintro ⟨_, ⟨⟩, allDistinct, _⟩
    rw [List.map_cons, hasId, List.nodup_cons] at allDistinct
    exact allDistinct.1
  · intro notStored
    obtain ⟨_, ⟨⟩, distinct, haveStatus⟩ := inOrder
    refine ⟨_, rfl, ?_, ?_⟩
    · rw [List.map_cons, hasId, List.nodup_cons]
      exact ⟨notStored, distinct⟩
    · rw [List.forall_mem_cons]
      exact ⟨⟨_, hasIts⟩, haveStatus⟩

/-- A saved list has a big integer exactly when the new metadata has one. -/
theorem hasBigInt_saved
    {ts : List Value}
    (areJson : ∀ t ∈ ts, JSON.IsJson t)
    (transaction : StoredTransaction) :
    JSON.hasBigInt (.array (.object (transactionFields transaction) :: ts)) =
      JSON.hasBigInt transaction.metadata := by
  have noneStored : JSON.hasBigInt (.array ts) = false :=
    hasBigInt_array fun t member => JSON.hasBigInt_of_isJson t (areJson t member)
  rw [JSON.hasBigInt] at noneStored
  rw [JSON.hasBigInt, JSON.anyHasBigInt, noneStored, Bool.or_false,
    hasBigInt_transactionFields]

/-- Saving keeps the list in order exactly when the id is new or nothing is
written. -/
theorem intact_saveTransaction_iff
    {items : Items}
    (isWritten : IsWritten items)
    (intact : Intact items)
    (transaction : StoredTransaction) :
    Intact (applyTransactionStoreCall items (.saveTransaction transaction)) ↔
      KeepsOrder items (.saveTransaction transaction) := by
  have inOrder := ((intact_iff items).mp intact).1
  have ⟨ts, isArray, _⟩ := inOrder
  rw [isArray] at inOrder
  have areJson := isWritten.areJson isArray
  have changes : changed (transactionsOf items) (.saveTransaction transaction) =
      .ok (.array (.object (transactionFields transaction) :: ts)) := by
    rw [isArray]
    rfl
  have leaves := @transactionsOf_onTransactions (.saveTransaction transaction)
    (fun _ => rfl) items _ changes
  rw [hasBigInt_saved areJson] at leaves
  refine (intact_onTransactions_iff intact _).trans ?_
  change InOrder (transactionsOf (stateAfter (onTransactions
    (perform {} (.saveTransaction transaction))) items)) ↔
      JSON.hasBigInt transaction.metadata = true ∨
        ∀ t ∈ records (some (transactionsOf items)),
          isText (propertyOf t "id") transaction.id = false
  rw [leaves, isArray]
  cases JSON.hasBigInt transaction.metadata with
  | true => exact iff_of_true inOrder (.inl rfl)
  | false =>
      have holds : Holds (JSON.jsonData (.object (transactionFields transaction)))
          (transactionFields transaction) :=
        holds_jsonData (isOwn_transactionFields transaction)
      have hasIts : hasStatus transaction.status (JSON.jsonData
          (.object (transactionFields transaction))) = true := by
        rw [hasStatus, holds.properties "status"]
        exact beq_self_eq_true _
      have written : JSON.jsonData
          (.array (.object (transactionFields transaction) :: ts)) =
            .array (JSON.jsonData (.object (transactionFields transaction)) ::
              ts) := by
        rw [JSON.jsonData, elementData_eq_map, List.map_cons,
          map_jsonData_of_areJson areJson]
      rw [if_neg (by decide), written, or_iff_right (by decide)]
      exact inOrder_cons_iff (holds.properties "id") hasIts inOrder

/-! ### Deleting -/

/-- Deleting keeps the list in order. -/
theorem intact_deleteTransaction
    {items : Items}
    (isWritten : IsWritten items)
    (intact : Intact items)
    (id : String) :
    Intact (applyTransactionStoreCall items (.deleteTransaction id)) := by
  obtain ⟨ts, isArray, distinct, haveStatus⟩ := ((intact_iff items).mp intact).1
  let kept := ts.filter fun t => !isText (propertyOf t "id") id
  have areJson : ∀ t ∈ kept, JSON.IsJson t := fun t member =>
    isWritten.areJson isArray t (List.mem_of_mem_filter member)
  have readable := isNullish_of_objects
    fun t member => exists_eq_object_of_hasStatus (haveStatus t member)
  have changes : changed (transactionsOf items) (.deleteTransaction id) =
      .ok (.array kept) :=
    (deleteWhere_eq_ok_iff _ _ _).mpr ⟨ts, isArray, readable, rfl⟩
  have leaves := @transactionsOf_onTransactions (.deleteTransaction id)
    (fun _ => rfl) items _ changes
  rw [hasBigInt_array fun t member => JSON.hasBigInt_of_isJson t (areJson t member),
    JSON.jsonData, elementData_eq_map, map_jsonData_of_areJson areJson] at leaves
  refine (intact_onTransactions_iff intact _).mpr ?_
  change InOrder (transactionsOf (stateAfter (onTransactions
    (perform {} (.deleteTransaction id))) items))
  rw [leaves]
  refine ⟨kept, rfl, distinct.sublist (List.filter_sublist.map _), ?_⟩
  intro t member
  exact haveStatus t (List.mem_of_mem_filter member)

/-! ### Updating -/

/-- A property of an updated record as it is read back: the update, or else the
status, or else the earlier property. -/
theorem propertyOf_updated
    {fields : List (String × Value)}
    (own : JSON.IsOwn fields)
    (status : Value)
    (updates : Properties)
    (name : String) :
    propertyOf (JSON.jsonData
        (.object (spread fields (("status", status) :: updates.fields)))) name =
      writtenProperty ((updates.fields.lookup name).getD
        (if name = "status" then status
          else propertyOf (.object fields) name)) := by
  have statusFirst : spread fields (("status", status) :: updates.fields) =
      spread (JSON.assign fields ("status", status)) updates.fields := rfl
  rw [propertyOf_jsonData (isOwn_spread own _), statusFirst, propertyOf,
    Value.property, lookup_spread_of_nodup _ updates.own.nodup, lookup_assign]
  congr 1
  cases updates.fields.lookup name with
  | some value => rfl
  | none =>
      rw [Option.none_or]
      split
      · rfl
      · rfl

/-- A property that an update or the earlier record gives is a text exactly when the
update, if there is one, is. -/
theorem isText_getD_iff
    {update : Option Value}
    (none : ∀ value, update = some value -> JSON.hasBigInt value = false)
    {old : Value}
    {text : String}
    (isIt : isText old text = true) :
    isText (writtenProperty (update.getD old)) text = true ↔
      ∀ value, update = some value -> isText value text = true := by
  cases update with
  | none =>
      rw [Option.getD_none, eq_string_of_isText isIt]
      exact iff_of_true (beq_self_eq_true text) fun _ absent => nomatch absent
  | some value =>
      rw [Option.getD_some, isText_writtenProperty (none value rfl)]
      simp

/-- The updated record has the id and the status exactly when the updates keep
them. -/
theorem updated_iff_keepsStatus
    {fields : List (String × Value)}
    (own : JSON.IsOwn fields)
    {id : String}
    (hasId : isText (propertyOf (.object fields) "id") id = true)
    (status : TransactionStatus)
    {updates : Properties}
    (none : JSON.hasBigInt (.object updates.fields) = false) :
    (isText (propertyOf (JSON.jsonData (.object (spread fields
          (("status", .string (statusText status)) :: updates.fields)))) "id") id =
        true ∧
      hasStatus status (JSON.jsonData (.object (spread fields
        (("status", .string (statusText status)) :: updates.fields)))) = true) ↔
      updates.KeepsStatus id status := by
  unfold hasStatus Properties.KeepsStatus
  rw [propertyOf_updated own, propertyOf_updated own, if_neg (by decide),
    if_pos rfl]
  refine and_congr ?_ ?_
  · exact isText_getD_iff (fun _ found => hasBigInt_of_lookup none found) hasId
  · exact isText_getD_iff (fun _ found => hasBigInt_of_lookup none found)
      (beq_self_eq_true (statusText status))

/-- What is only updated stays in order. -/
theorem UpdatesOnly.inOrder
    {id : String}
    {status : TransactionStatus}
    {before after : Value}
    (updatesOnly : UpdatesOnly id status before after)
    (inOrder : InOrder before) :
    InOrder after := by
  obtain ⟨ts, isArray, distinct, haveStatus⟩ := inOrder
  obtain ⟨_, updated, isBefore, isAfter, related⟩ := updatesOnly
  obtain rfl := Value.array.inj (isArray.symm.trans isBefore)
  have sameIds : ts.map (fun t => propertyOf t "id") =
      updated.map fun t => propertyOf t "id" := by
    rw [← List.forall₂_eq_eq_eq, List.forall₂_map_left_iff,
      List.forall₂_map_right_iff]
    refine related.imp fun t t' becomes => ?_
    unfold Becomes at becomes
    split at becomes
    · rename_i hasId
      rw [eq_string_of_isText hasId, eq_string_of_isText becomes.1]
    · rw [becomes]
  refine ⟨updated, isAfter, sameIds ▸ distinct, ?_⟩
  intro t' member
  obtain ⟨t, isOld, becomes⟩ := exists_related_of_mem related.flip member
  change Becomes id status t t' at becomes
  unfold Becomes at becomes
  split at becomes
  · exact ⟨status, becomes.2⟩
  · rw [becomes]
    exact haveStatus t isOld

/-- Where a function of the records is mapped over the list, every record is to become
what it should. -/
theorem updatesOnly_map_iff
    (id : String)
    (status : TransactionStatus)
    (ts : List Value)
    (change : Value -> Value) :
    UpdatesOnly id status (.array ts) (.array (ts.map change)) ↔
      ∀ t ∈ ts, Becomes id status t (change t) := by
  constructor
  · rintro ⟨_, _, ⟨⟩, ⟨⟩, related⟩
    exact List.forall₂_same.mp (List.forall₂_map_right_iff.mp related)
  · intro becomes
    have related := List.forall₂_map_right_iff.mpr (List.forall₂_same.mpr becomes)
    exact ⟨ts, ts.map change, rfl, rfl, related⟩

section Update

variable
  (id : String)
  (status : TransactionStatus)
  (updates : Properties)

/-- `t.id === id ? { ...t, status, ...updates } : t` -/
def updatedTransaction : Value -> Value :=
  updatedRecord "id" id (("status", .string (statusText status)) :: updates.fields)

/-- Only the updates of the record with the id hold big integers. -/
theorem hasBigInt_updatedTransaction
    {t : Value}
    (isJson : JSON.IsJson t) :
    JSON.hasBigInt (updatedTransaction id status updates t) =
      (isText (propertyOf t "id") id &&
        JSON.hasBigInt (.object updates.fields)) := by
  unfold updatedTransaction updatedRecord
  cases hasId : isText (propertyOf t "id") id with
  | false => exact JSON.hasBigInt_of_isJson t isJson
  | true =>
      obtain ⟨fields, rfl⟩ := exists_eq_object_of_isText hasId
      have withStatus : JSON.IsJson (.object
          (spread fields [("status", .string (statusText status))])) := by
        apply isData_spread isJson
        rw [List.forall_mem_singleton]
        trivial
      have none := JSON.hasBigInt_of_isJson _ withStatus
      have updated := hasBigInt_spread none updates.own.nodup
      exact updated

/-- The updated list has a big integer when the updates have one and are spread. -/
theorem hasBigInt_map_updatedTransaction_iff
    {ts : List Value}
    (areJson : ∀ t ∈ ts, JSON.IsJson t) :
    JSON.hasBigInt (.array (ts.map (updatedTransaction id status updates))) = true ↔
      JSON.hasBigInt (.object updates.fields) = true ∧
        ∃ t ∈ ts, isText (propertyOf t "id") id = true := by
  rw [hasBigInt_array_iff]
  constructor
  · rintro ⟨_, isUpdated, isBigInt⟩
    obtain ⟨t, member, rfl⟩ := List.mem_map.mp isUpdated
    rw [hasBigInt_updatedTransaction id status updates (areJson t member),
      Bool.and_eq_true] at isBigInt
    exact ⟨isBigInt.2, t, member, isBigInt.1⟩
  · rintro ⟨isBigInt, t, member, hasId⟩
    refine ⟨_, List.mem_map_of_mem member, ?_⟩
    rw [hasBigInt_updatedTransaction id status updates (areJson t member), hasId,
      isBigInt]
    rfl

/-- A record becomes what it should exactly when the updates keep the id and the
status, or it has another id. -/
theorem becomes_updatedTransaction_iff
    {t : Value}
    (isJson : JSON.IsJson t)
    (noBigInt : isText (propertyOf t "id") id = true ->
      JSON.hasBigInt (.object updates.fields) = false) :
    Becomes id status t (JSON.jsonData (updatedTransaction id status updates t)) ↔
      (isText (propertyOf t "id") id = true -> updates.KeepsStatus id status) := by
  unfold Becomes updatedTransaction updatedRecord
  by_cases hasId : isText (propertyOf t "id") id = true
  · obtain ⟨fields, rfl⟩ := exists_eq_object_of_isText hasId
    rw [if_pos hasId, if_pos hasId, forall_prop_of_true hasId]
    exact updated_iff_keepsStatus isJson.1 hasId status (noBigInt hasId)
  · rw [if_neg hasId, if_neg hasId]
    exact iff_of_true (JSON.jsonData_of_isJson t isJson) fun has => absurd has hasId

/-- An unchanged record is what it should become exactly when it has the status or
another id. -/
theorem becomes_self_iff (t : Value) :
    Becomes id status t t ↔
      (isText (propertyOf t "id") id = true -> hasStatus status t = true) := by
  unfold Becomes
  by_cases hasId : isText (propertyOf t "id") id = true
  · rw [if_pos hasId, forall_prop_of_true hasId, and_iff_right hasId]
  · rw [if_neg hasId]
    exact iff_of_true rfl fun has => absurd has hasId

/-- An update has its effect on an intact store exactly when it keeps the id and the
status of what is stored. -/
theorem updateTransactionStatus_iff
    {items : Items}
    (isWritten : IsWritten items)
    (intact : Intact items) :
    UpdatesOnly id status (transactionsOf items)
        (transactionsOf (applyTransactionStoreCall items
          (.updateTransactionStatus id status updates))) ↔
      KeepsOrder items (.updateTransactionStatus id status updates) := by
  obtain ⟨ts, isArray, distinct, haveStatus⟩ := ((intact_iff items).mp intact).1
  have areJson := isWritten.areJson isArray
  have changes : changed (transactionsOf items)
      (.updateTransactionStatus id status updates) =
        .ok (.array (ts.map (updatedTransaction id status updates))) := by
    have readable := isNullish_of_objects
      fun t member => exists_eq_object_of_hasStatus (haveStatus t member)
    exact (updateWhere_eq_ok_iff _ _ _ _ _).mpr ⟨ts, isArray, readable, rfl⟩
  have bigInts := hasBigInt_map_updatedTransaction_iff id status updates areJson
  have leaves := @transactionsOf_onTransactions
    (.updateTransactionStatus id status updates) (fun _ => rfl) items _ changes
  change UpdatesOnly id status (transactionsOf items) (transactionsOf (stateAfter
    (onTransactions (perform {} (.updateTransactionStatus id status updates)))
      items)) ↔
    ∀ t ∈ records (some (transactionsOf items)),
      isText (propertyOf t "id") id = true ->
        if JSON.hasBigInt (.object updates.fields) then hasStatus status t = true
        else updates.KeepsStatus id status
  rw [leaves, isArray]
  change _ ↔ ∀ t ∈ ts, isText (propertyOf t "id") id = true -> _
  by_cases rejected : JSON.hasBigInt
      (.array (ts.map (updatedTransaction id status updates))) = true
  · have unchanged := updatesOnly_map_iff id status ts fun t => t
    rw [List.map_id'] at unchanged
    rw [if_pos rejected, unchanged, (bigInts.mp rejected).1]
    exact forall₂_congr fun t _ => becomes_self_iff id status t
  · have noBigInt : ∀ t ∈ ts, isText (propertyOf t "id") id = true ->
        JSON.hasBigInt (.object updates.fields) = false := by
      intro t member hasId
      rw [← Bool.not_eq_true]
      exact fun isBigInt => rejected (bigInts.mpr ⟨isBigInt, t, member, hasId⟩)
    rw [if_neg rejected, JSON.jsonData, elementData_eq_map, List.map_map,
      updatesOnly_map_iff]
    refine forall₂_congr fun t member => ?_
    refine (becomes_updatedTransaction_iff id status updates (areJson t member)
      (noBigInt t member)).trans ?_
    refine forall_congr' fun hasId => ?_
    rw [noBigInt t member hasId]
    rfl

end Update

/-! ### Importing -/

/-- An import of exported data writes the lists of the source, unless they are
falsy. -/
theorem importData_leaves
    (dateNow : Int)
    (source items : Items) :
    let after := applyTransactionStoreCall items (.importData dateNow source)
    (transactionsOf after = if (transactionsOf source).truthy
        then JSON.jsonData (transactionsOf source) else transactionsOf items) ∧
      (getCommitments (.ok after.commitments) =
        if (getCommitments (.ok source.commitments)).truthy
          then JSON.jsonData (getCommitments (.ok source.commitments))
          else getCommitments (.ok items.commitments)) := by
  have areParsed : ∀ setting ∈ (exportData {} dateNow source).settings.fields,
      JSON.IsParsed setting.2 :=
    (JSON.membersAreData_iff _).mp (isSettings_settingsOf _).isParsed.2
  have outcome := (importData_cases (isParsed_getList (.ok source.commitments))
    (isParsed_getList (.ok source.transactions)) areParsed {} items
    (· = imported {} (exportData {} dateNow source) items)
    (· = imported {} (exportData {} dateNow source) items)).mpr
  rw [if_neg fun fails => fails.2 rfl, if_neg fun fails => fails.2 rfl] at outcome
  have leaves : stateAfter (importData {} (exportData {} dateNow source).toImported)
      items = imported {} (exportData {} dateNow source) items :=
    @stateAfter_of_outcome _ _ _ _ _
      (· = imported {} (exportData {} dateNow source) items) (outcome rfl)
  change (transactionsOf (stateAfter (importData {}
      (exportData {} dateNow source).toImported) items) = _) ∧
    (getCommitments (.ok (stateAfter (importData {}
      (exportData {} dateNow source).toImported) items).commitments) = _)
  rw [leaves]
  exact ⟨getList_written _, getList_written _⟩

/-- An import keeps the store intact exactly when what it writes is in order. -/
theorem intact_importData_iff
    {items : Items}
    (intact : Intact items)
    (dateNow : Int)
    (source : Items) :
    Intact (applyTransactionStoreCall items (.importData dateNow source)) ↔
      KeepsOrder items (.importData dateNow source) := by
  obtain ⟨transactions, commitments⟩ := importData_leaves dateNow source items
  obtain ⟨inOrder, readable⟩ := (intact_iff items).mp intact
  rw [intact_iff, transactions, commitments]
  refine and_congr ?_ ?_
  · split
    · rename_i isWritten
      rw [forall_prop_of_true isWritten]
    · rename_i notWritten
      exact iff_of_true inOrder fun isWritten => absurd isWritten notWritten
  · split
    · rename_i isWritten
      rw [forall_prop_of_true isWritten]
    · rename_i notWritten
      exact iff_of_true readable fun isWritten => absurd isWritten notWritten

/-! ## Runs -/

/-- **Step.**  A call leaves transactions that are written as they are. -/
theorem isWritten_apply
    {items : Items}
    (isWritten : IsWritten items)
    (call : TransactionStoreCall) :
    IsWritten (applyTransactionStoreCall items call) := by
  cases call with
  | saveTransaction transaction =>
      exact isWritten_onTransactions isWritten (.saveTransaction transaction)
  | updateTransactionStatus id status updates =>
      exact isWritten_onTransactions isWritten
        (.updateTransactionStatus id status updates)
  | deleteTransaction id =>
      exact isWritten_onTransactions isWritten (.deleteTransaction id)
  | importData dateNow source =>
      rw [IsWritten, (importData_leaves dateNow source items).1]
      split
      · exact JSON.isJson_jsonData _
      · exact isWritten

/-- **One call.**  A call leaves an intact store intact and has its effect exactly when
it keeps the order. -/
theorem intact_and_hasEffect_iff
    {items : Items}
    (isWritten : IsWritten items)
    (intact : Intact items)
    (call : TransactionStoreCall) :
    Intact (applyTransactionStoreCall items call) ∧ HasEffect items call ↔
      KeepsOrder items call := by
  cases call with
  | saveTransaction transaction =>
      exact (and_iff_left trivial).trans
        (intact_saveTransaction_iff isWritten intact transaction)
  | updateTransactionStatus id status updates =>
      have effect := updateTransactionStatus_iff id status updates isWritten intact
      refine Iff.trans (and_iff_right_of_imp ?_) effect
      intro updatesOnly
      refine (intact_onTransactions_iff intact _).mpr ?_
      exact updatesOnly.inOrder ((intact_iff items).mp intact).1
  | deleteTransaction id =>
      exact iff_of_true ⟨intact_deleteTransaction isWritten intact id, trivial⟩
        trivial
  | importData dateNow source =>
      exact (and_iff_left trivial).trans
        (intact_importData_iff intact dateNow source)

theorem isWritten_empty : IsWritten {} := trivial

/-- The empty store is intact. -/
theorem intact_empty : Intact {} :=
  (intact_iff {}).mpr
    ⟨⟨[], rfl, List.nodup_nil, fun _ absent => nomatch absent⟩, [], rfl,
      fun _ absent => nomatch absent⟩

/-- The items after a list of calls, which start empty. -/
def itemsAfter (calls : List TransactionStoreCall) : Items :=
  run applyTransactionStoreCall {} calls

theorem itemsAfter_concat
    (calls : List TransactionStoreCall)
    (call : TransactionStoreCall) :
    itemsAfter (calls ++ [call]) =
      applyTransactionStoreCall (itemsAfter calls) call := by
  rw [itemsAfter, run_append, run_cons, run_nil, itemsAfter]

/-- **Transaction store.**  The store is intact in every state of a run and every update
has its effect exactly when every call keeps the order. -/
theorem transactionStoreIntact_iff (calls : List TransactionStoreCall) :
    ((∀ earlier later, calls = earlier ++ later -> Intact (itemsAfter earlier)) ∧
      ∀ earlier call later, calls = earlier ++ call :: later ->
        HasEffect (itemsAfter earlier) call) ↔
      Allowed applyTransactionStoreCall KeepsOrder {} calls := by
  have written : ∀ earlier, IsWritten (itemsAfter earlier) :=
    run_invariant_of_preserved IsWritten
      (fun _ call isWritten => isWritten_apply isWritten call) isWritten_empty
  let Holds := fun items => IsWritten items ∧ Intact items
  have throughout : (∀ earlier later, calls = earlier ++ later ->
        Intact (itemsAfter earlier)) ↔
      Throughout applyTransactionStoreCall Holds {} calls := by
    rw [throughout_iff_forall_split]
    exact forall₂_congr fun earlier later => imp_congr_right fun _ =>
      (and_iff_right (written earlier)).symm
  rw [throughout]
  unfold itemsAfter
  rw [← allowed_iff_forall_split]
  refine throughout_and_allowed_iff ?_ ⟨isWritten_empty, intact_empty⟩ calls
  rintro items call ⟨isWritten, intact⟩
  rw [← intact_and_hasEffect_iff isWritten intact call]
  exact and_congr_left fun _ => and_iff_right (isWritten_apply isWritten call)

/-- A pending deposit. -/
def pendingDeposit : StoredTransaction where
  id := "t1"
  type := .deposit
  status := .pending
  amount := "5"
  timestamp := 0

/-- Updates that name a status. -/
def failedUpdates : Properties where
  fields := [("status", .string "failed")]
  own := List.pairwise_singleton _ _

/-- The run that saves a deposit and confirms it with updates of another status. -/
def confirmedWithFailure : List TransactionStoreCall :=
  [.saveTransaction pendingDeposit,
    .updateTransactionStatus "t1" .confirmed failedUpdates]

/-- The run that saves a deposit twice. -/
def savedTwice : List TransactionStoreCall :=
  [.saveTransaction pendingDeposit, .saveTransaction pendingDeposit]

/-- The store after a deposit is saved is intact and holds it. -/
theorem intact_pendingDeposit :
    Intact (itemsAfter [.saveTransaction pendingDeposit]) ∧
      JSON.jsonData (.object (transactionFields pendingDeposit)) ∈
        records (some (transactionsOf
          (itemsAfter [.saveTransaction pendingDeposit]))) := by
  have empty : transactionsOf {} = .array [] := rfl
  have changes : changed (transactionsOf {}) (.saveTransaction pendingDeposit) =
      .ok (.array [.object (transactionFields pendingDeposit)]) := by
    rw [empty]
    rfl
  have none : JSON.hasBigInt (.array
      [.object (transactionFields pendingDeposit)]) = false := by
    decide
  have leaves := @transactionsOf_onTransactions (.saveTransaction pendingDeposit)
    (fun _ => rfl) {} _ changes
  rw [none, if_neg (by decide), JSON.jsonData, elementData_eq_map] at leaves
  have keeps : KeepsOrder {} (.saveTransaction pendingDeposit) := by
    refine .inr ?_
    rw [empty]
    exact fun _ absent => nomatch absent
  rw [← List.nil_append [TransactionStoreCall.saveTransaction pendingDeposit],
    itemsAfter_concat]
  refine ⟨(intact_saveTransaction_iff isWritten_empty intact_empty
    pendingDeposit).mpr keeps, ?_⟩
  rw [itemsAfter, run_nil, applyTransactionStoreCall, performTransactionStoreCall]
  change _ ∈ records (some (transactionsOf (stateAfter (onTransactions
    (perform {} (.saveTransaction pendingDeposit))) {})))
  rw [leaves]
  exact List.mem_singleton.mpr rfl

/-- The confirmed deposit has failed, and the one that is saved twice is stored
twice. -/
theorem transactionStore_breaks :
    (¬∀ earlier call later, confirmedWithFailure = earlier ++ call :: later ->
      HasEffect (itemsAfter earlier) call) ∧
    ¬∀ earlier later, savedTwice = earlier ++ later ->
      Intact (itemsAfter earlier) := by
  obtain ⟨intact, stored⟩ := intact_pendingDeposit
  have isWritten : IsWritten (itemsAfter [.saveTransaction pendingDeposit]) :=
    isWritten_apply isWritten_empty (.saveTransaction pendingDeposit)
  have hasId : isText (propertyOf
      (JSON.jsonData (.object (transactionFields pendingDeposit))) "id") "t1" =
        true := by
    decide
  constructor
  · intro everywhere
    have updated := everywhere [.saveTransaction pendingDeposit] _ [] rfl
    have keeps := (updateTransactionStatus_iff "t1" .confirmed failedUpdates
      isWritten intact).mp updated
    have keepsStatus : failedUpdates.KeepsStatus "t1" .confirmed :=
      keeps _ stored hasId
    exact absurd (keepsStatus.2 (.string "failed") rfl) (by decide)
  · intro everywhere
    have twice := everywhere ([.saveTransaction pendingDeposit] ++
      [.saveTransaction pendingDeposit]) [] rfl
    rw [itemsAfter_concat] at twice
    rcases (intact_saveTransaction_iff isWritten intact
      pendingDeposit).mp twice with
      hasBigInt | isNew
    · cases hasBigInt
    · have notStored := isNew _ stored
      rw [show pendingDeposit.id = "t1" from rfl, hasId] at notStored
      cases notStored

end DatabaseTexts
end Client
end Privachain

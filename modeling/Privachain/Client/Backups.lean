import Privachain.Client.Settings

/-!
# Backups of the database

`exportData` returns what the getters read.  `importData` writes the commitments,
the transactions and the settings one after the other; a rejected write stops it
between them, and the settings are merged into the ones of the target.
-/

namespace Privachain
namespace Client
namespace DatabaseTexts

open Foundation
open Foundation.JavaScript
open Foundation.StatefulCall
open Foundation.StoredItem

/-! ## Exporting and importing -/

/-- The items of `AsyncStorage` that a backup covers. -/
structure Items where
  commitments : Option String := none
  transactions : Option String := none
  settings : Option String := none
  deriving DecidableEq

/-- How the storage answers the accesses to each of the items. -/
structure ItemAccesses where
  commitments : Access := {}
  transactions : Access := {}
  settings : Access := {}

/-- A call on the items of the database. -/
abbrev ItemsCall (α : Type) := EStateM Exception Items α

/-- What `exportData` returns. -/
structure ExportedData where
  commitments : Value
  transactions : Value
  settings : Properties
  timestamp : Int

/-- The settings as the object that `getSettings` returns. -/
def exportedSettings (read : Except Exception (Option String)) : Properties where
  fields := settingsOf read
  own := (isSettings_settingsOf read).isParsed.1

/-- `exportData()`, where the storage answers its three reads. -/
def exportData
    (accesses : ItemAccesses)
    (dateNow : Int)
    (source : Items) : ExportedData where
  commitments := getCommitments (accesses.commitments.read source.commitments)
  transactions := getTransactions (accesses.transactions.read source.transactions)
  settings := exportedSettings (accesses.settings.read source.settings)
  timestamp := dateNow

/-- The argument of `importData`; an absent property is `undefined`. -/
structure ImportedData where
  commitments : Value := .undefined
  transactions : Value := .undefined
  settings : Option Properties := none

/-- The backup as an argument of `importData`, which does not look at the
timestamp. -/
def ExportedData.toImported (data : ExportedData) : ImportedData where
  commitments := data.commitments
  transactions := data.transactions
  settings := some data.settings

/-- `AsyncStorage.setItem(key, JSON.stringify(value))` -/
def writeValue (access : Access) (value : Value) : ItemCall PUnit :=
  rewriteItem access fun _ => JSON.stringifyValue value

/-- A call on `KEYS.COMMITMENTS`. -/
def onCommitments (call : ItemCall PUnit) : ItemsCall PUnit :=
  onPart Items.commitments
    (fun commitments items => { items with commitments := commitments }) call

/-- A call on `KEYS.TRANSACTIONS`. -/
def onTransactions (call : ItemCall PUnit) : ItemsCall PUnit :=
  onPart Items.transactions
    (fun transactions items => { items with transactions := transactions }) call

/-- A call on `KEYS.SETTINGS`. -/
def onSettings (call : ItemCall PUnit) : ItemsCall PUnit :=
  onPart Items.settings
    (fun settings items => { items with settings := settings }) call

/-- The statement of `importData` that writes a list, unless it is falsy. -/
def importList
    (onItem : ItemCall PUnit -> ItemsCall PUnit)
    (access : Access)
    (list : Value) : ItemsCall PUnit :=
  if list.truthy then onItem (writeValue access list) else return ⟨⟩

/-- `importData(data)` -/
def importData
    (accesses : ItemAccesses)
    (data : ImportedData) : ItemsCall PUnit := do
  importList onCommitments accesses.commitments data.commitments
  importList onTransactions accesses.transactions data.transactions
  match data.settings with
  | some settings => onSettings (saveSettings accesses.settings settings)
  | none => return ⟨⟩

/-! ## All or nothing -/

/-- The three getters return the exported values; settings are compared property
by property. -/
structure Restored (data : ExportedData) (after : Items) : Prop where
  commitments : getCommitments (.ok after.commitments) = data.commitments
  transactions : getTransactions (.ok after.transactions) = data.transactions
  settings : ∀ name,
    (settingsOf (.ok after.settings)).lookup name =
      data.settings.fields.lookup name

/-- The three getters return what they did. -/
structure Unchanged (before after : Items) : Prop where
  commitments : getCommitments (.ok after.commitments) =
    getCommitments (.ok before.commitments)
  transactions : getTransactions (.ok after.transactions) =
    getTransactions (.ok before.transactions)
  settings : ∀ name,
    (settingsOf (.ok after.settings)).lookup name =
      (settingsOf (.ok before.settings)).lookup name

/-- An import that resolves restores the backup, and one that throws changes
nothing. -/
def ImportsWhole
    (accesses : ItemAccesses)
    (data : ExportedData)
    (target : Items) : Prop :=
  Outcome (importData accesses data.toImported) target (Restored data)
    (Unchanged target)

/-- A list is to be written and its write is rejected. -/
def WriteFails (access : Access) (list : Value) : Prop :=
  list.truthy = true ∧ access.setItem ≠ none

instance (access : Access) (list : Value) : Decidable (WriteFails access list) :=
  inferInstanceAs (Decidable (_ ∧ _))

/-- The getter returns on the target what is written for the commitments of the
backup. -/
def SameCommitments (data : ExportedData) (target : Items) : Prop :=
  getCommitments (.ok target.commitments) = JSON.jsonData data.commitments

/-- The getter returns on the target what is written for the transactions of the
backup. -/
def SameTransactions (data : ExportedData) (target : Items) : Prop :=
  getTransactions (.ok target.transactions) = JSON.jsonData data.transactions

/-- The getters return the backup after an import whose writes are granted: what is
written of it has no infinite number, which JSON writes as `null`, the target has a
list that is not written, and its settings have no property that the backup
lacks. -/
structure RestoresBackup
    (access : Access)
    (data : ExportedData)
    (target : Items) : Prop where
  commitments :
    if data.commitments.truthy then JSON.IsJson data.commitments
    else getCommitments (.ok target.commitments) = data.commitments
  transactions :
    if data.transactions.truthy then JSON.IsJson data.transactions
    else getTransactions (.ok target.transactions) = data.transactions
  settings : ∀ setting ∈ data.settings.fields, JSON.IsJson setting.2
  noOthers : ∀ name, data.settings.fields.lookup name = none ->
    (settingsOf (access.read target.settings)).lookup name = none

/-- The first write that is made is rejected; or a later one is, and the target
already has the lists written before it; or none is, and the backup is restored. -/
def SafeImport
    (accesses : ItemAccesses)
    (data : ExportedData)
    (target : Items) : Prop :=
  if WriteFails accesses.commitments data.commitments then True
  else if WriteFails accesses.transactions data.transactions then
    data.commitments.truthy = true -> SameCommitments data target
  else match accesses.settings.setItem with
    | some _ =>
        (data.commitments.truthy = true -> SameCommitments data target) ∧
          (data.transactions.truthy = true -> SameTransactions data target)
    | none => RestoresBackup accesses.settings data target

/-! ## Writing a list -/

/-- What the getters of the lists return is a value of a text. -/
theorem isParsed_getList (read : Except Exception (Option String)) :
    JSON.IsParsed (getStored (.array []) id read) := by
  unfold getStored
  split
  · rename_i parsed reads
    exact isParsed_of_readContent reads
  · trivial
  · trivial

/-- The item after a granted write, which is not made for a falsy list. -/
def written (list : Value) (item : Option String) : Option String :=
  if list.truthy then some (JSON.stringifyReplaced list) else item

section Lists

variable
  {list : Value}
  (isParsed : JSON.IsParsed list)

include isParsed

theorem writeValue_eq (access : Access) (item : Option String) :
    writeValue access list item =
      match access.setItem with
      | some refusal => .error refusal item
      | none => .ok ⟨⟩ (some (JSON.stringifyReplaced list)) := by
  rw [writeValue, rewriteItem_eq, JSON.stringifyValue_of_isParsed isParsed]
  cases access.setItem with
  | none => rfl
  | some refusal => rfl

omit isParsed in
/-- What is written for a list is read back. -/
theorem getList_written (item : Option String) :
    getStored (.array []) id (.ok (written list item)) =
      if list.truthy then JSON.jsonData list
      else getStored (.array []) id (.ok item) := by
  unfold written
  by_cases isWritten : list.truthy = true
  · rw [if_pos isWritten, if_pos isWritten, getStored,
      readContent_stringifyReplaced]
    rfl
  · rw [if_neg isWritten, if_neg isWritten]

variable
  {part : Items -> Option String}
  {update : Option String -> Items -> Items}
  (restores : ∀ items, update (part items) items = items)
  {access : Access}

include restores

/-- A rejected write changes nothing, and a granted one the item. -/
theorem importList_cases (items : Items) :
    if WriteFails access list then
      ∃ reason, importList (onPart part update) access list items =
        .error reason items
    else
      importList (onPart part update) access list items =
        .ok ⟨⟩ (update (written list (part items)) items) := by
  have writes := writeValue_eq isParsed access (part items)
  unfold importList written
  by_cases isWritten : list.truthy = true
  · rw [if_pos isWritten, if_pos isWritten]
    cases answer : access.setItem with
    | some reason =>
        rw [answer] at writes
        have fails : WriteFails access list := ⟨isWritten, by simp [answer]⟩
        rw [if_pos fails, onPart_of_error writes, restores]
        exact ⟨reason, rfl⟩
    | none =>
        rw [answer] at writes
        have granted : ¬WriteFails access list := fun fails => fails.2 answer
        rw [if_neg granted, onPart_of_ok writes]
  · have skipped : ¬WriteFails access list := fun fails => isWritten fails.1
    rw [if_neg isWritten, if_neg isWritten, if_neg skipped, restores]
    rfl

end Lists

/-! ## The import of a backup -/

theorem unchanged_refl (items : Items) : Unchanged items items :=
  ⟨rfl, rfl, fun _ => rfl⟩

/-- A list is unchanged exactly when the target had what is written for it. -/
theorem getList_written_eq_iff
    (list : Value)
    (item : Option String) :
    getStored (.array []) id (.ok (written list item)) =
        getStored (.array []) id (.ok item) ↔
      (list.truthy = true ->
        getStored (.array []) id (.ok item) = JSON.jsonData list) := by
  rw [getList_written]
  by_cases isWritten : list.truthy = true
  · rw [if_pos isWritten, forall_prop_of_true isWritten, eq_comm]
  · rw [if_neg isWritten]
    exact iff_of_true rfl fun impossible => absurd impossible isWritten

/-- A list is restored exactly when it is written as it is, or is the one of the
target. -/
theorem getList_written_eq_list_iff
    (list : Value)
    (item : Option String) :
    getStored (.array []) id (.ok (written list item)) = list ↔
      if list.truthy then JSON.IsJson list
      else getStored (.array []) id (.ok item) = list := by
  rw [getList_written]
  by_cases isWritten : list.truthy = true
  · rw [if_pos isWritten, if_pos isWritten, JSON.jsonData_eq_self_iff]
  · rw [if_neg isWritten, if_neg isWritten]

/-- Settings are restored exactly when they are written as they are, and those of
the target have no other properties. -/
theorem lookup_or_eq_iff
    {exported : List (String × Value)}
    (distinct : (exported.map Prod.fst).Nodup)
    (current : List (String × Value)) :
    (∀ name, ((exported.lookup name).or (current.lookup name)).map
        JSON.jsonData = exported.lookup name) ↔
      (∀ setting ∈ exported, JSON.IsJson setting.2) ∧
        ∀ name, exported.lookup name = none -> current.lookup name = none := by
  constructor
  · intro restored
    constructor
    · intro setting member
      have same := restored setting.1
      rw [lookup_of_mem distinct member, Option.some_or, Option.map_some,
        Option.some.injEq] at same
      exact (JSON.jsonData_eq_self_iff _).mp same
    · intro name absent
      have same := restored name
      rw [absent, Option.none_or, Option.map_eq_none_iff] at same
      exact same
  · rintro ⟨areJson, noOthers⟩ name
    cases found : exported.lookup name with
    | none =>
        rw [noOthers name found]
        rfl
    | some value =>
        rw [Option.some_or, Option.map_some,
          JSON.jsonData_of_isJson value (areJson _ (mem_of_lookup found))]

/-- The items after the lists were imported. -/
def importedLists (data : ExportedData) (target : Items) : Items :=
  { target with
    commitments := written data.commitments target.commitments
    transactions := written data.transactions target.transactions }

/-- The items after an import whose writes were not rejected. -/
def imported
    (access : Access)
    (data : ExportedData)
    (target : Items) : Items :=
  { importedLists data target with
    settings := some (JSON.stringifyReplaced (.object
      (updatedSettings data.settings (access.read target.settings)))) }

/-- Granted writes restore the backup exactly when it is written as it is, the
target has the lists that are not written, and no other settings. -/
theorem restored_imported_iff
    {data : ExportedData}
    (areParsed : ∀ setting ∈ data.settings.fields, JSON.IsParsed setting.2)
    (access : Access)
    (target : Items) :
    Restored data (imported access data target) ↔
      RestoresBackup access data target := by
  have restoresCommitments := getList_written_eq_list_iff data.commitments
    target.commitments
  have restoresTransactions := getList_written_eq_list_iff data.transactions
    target.transactions
  have readBack := lookup_settingsOf_updatedSettings areParsed
    (access.read target.settings)
  have restoresSettings := lookup_or_eq_iff data.settings.own.nodup
    (settingsOf (access.read target.settings))
  simp only [← readBack] at restoresSettings
  constructor
  · intro restored
    obtain ⟨areJson, noOthers⟩ := restoresSettings.mp restored.settings
    exact ⟨restoresCommitments.mp restored.commitments,
      restoresTransactions.mp restored.transactions, areJson, noOthers⟩
  · rintro ⟨commitments, transactions, areJson, noOthers⟩
    exact ⟨restoresCommitments.mpr commitments,
      restoresTransactions.mpr transactions,
      restoresSettings.mpr ⟨areJson, noOthers⟩⟩

/-- The writes decide what an import does. -/
theorem importData_cases
    {data : ExportedData}
    (commitmentsAreParsed : JSON.IsParsed data.commitments)
    (transactionsAreParsed : JSON.IsParsed data.transactions)
    (areParsed : ∀ setting ∈ data.settings.fields, JSON.IsParsed setting.2)
    (accesses : ItemAccesses)
    (target : Items)
    (returned failed : Items -> Prop) :
    Outcome (importData accesses data.toImported) target returned failed ↔
      if WriteFails accesses.commitments data.commitments then failed target
      else if WriteFails accesses.transactions data.transactions then
        failed { target with
          commitments := written data.commitments target.commitments }
      else match accesses.settings.setItem with
        | some _ => failed (importedLists data target)
        | none => returned (imported accesses.settings data target) := by
  unfold importData
  have first : if WriteFails accesses.commitments data.commitments then
      ∃ reason, importList onCommitments accesses.commitments
        data.toImported.commitments target = .error reason target
    else importList onCommitments accesses.commitments
        data.toImported.commitments target =
      .ok ⟨⟩ { target with
        commitments := written data.commitments target.commitments } :=
    importList_cases commitmentsAreParsed (fun _ => rfl) target
  have second : ∀ items : Items,
      if WriteFails accesses.transactions data.transactions then
        ∃ reason, importList onTransactions accesses.transactions
          data.toImported.transactions items = .error reason items
      else importList onTransactions accesses.transactions
          data.toImported.transactions items =
        .ok ⟨⟩ { items with
          transactions := written data.transactions items.transactions } :=
    importList_cases transactionsAreParsed fun _ => rfl
  by_cases firstFails : WriteFails accesses.commitments data.commitments
  · rw [if_pos firstFails] at first ⊢
    obtain ⟨reason, stops⟩ := first
    exact outcome_bind_of_error stops _ _ _
  rw [if_neg firstFails] at first ⊢
  rw [outcome_bind_of_ok first]
  by_cases secondFails : WriteFails accesses.transactions data.transactions
  · simp only [if_pos secondFails] at second ⊢
    obtain ⟨reason, stops⟩ := second _
    exact outcome_bind_of_error stops _ _ _
  simp only [if_neg secondFails] at second ⊢
  rw [outcome_bind_of_ok (second _)]
  have saved := saveSettings_eq areParsed accesses.settings
    (importedLists data target).settings
  cases granted : accesses.settings.setItem with
  | some refusal =>
      rw [granted] at saved
      have stops : onSettings (saveSettings accesses.settings data.settings)
          (importedLists data target) =
          .error refusal (importedLists data target) := onPart_of_error saved _
      exact outcome_of_error stops _ _
  | none =>
      rw [granted] at saved
      have returns : onSettings (saveSettings accesses.settings data.settings)
          (importedLists data target) =
          .ok ⟨⟩ (imported accesses.settings data target) := onPart_of_ok saved _
      exact outcome_of_ok returns _ _

/-- **Backups.**  For every source, target and answers of the storage, importing
the exported backup is all or nothing exactly when it is safe. -/
theorem importsWhole_iff
    (sourceAccesses : ItemAccesses)
    (dateNow : Int)
    (source : Items)
    (accesses : ItemAccesses)
    (target : Items) :
    ImportsWhole accesses (exportData sourceAccesses dateNow source) target ↔
      SafeImport accesses (exportData sourceAccesses dateNow source) target := by
  have commitmentsAreParsed : JSON.IsParsed
      (exportData sourceAccesses dateNow source).commitments := isParsed_getList _
  have transactionsAreParsed : JSON.IsParsed
      (exportData sourceAccesses dateNow source).transactions :=
    isParsed_getList _
  have areParsed : ∀ setting ∈
      (exportData sourceAccesses dateNow source).settings.fields,
      JSON.IsParsed setting.2 :=
    (JSON.membersAreData_iff _).mp (isSettings_settingsOf _).isParsed.2
  generalize exportData sourceAccesses dateNow source = data at *
  rw [ImportsWhole, importData_cases commitmentsAreParsed transactionsAreParsed
    areParsed, SafeImport]
  have keepsCommitments := getList_written_eq_iff data.commitments
    target.commitments
  have keepsTransactions := getList_written_eq_iff data.transactions
    target.transactions
  split
  · exact iff_of_true (unchanged_refl target) trivial
  split
  · constructor
    · intro unchanged
      exact keepsCommitments.mp unchanged.commitments
    · intro same
      exact ⟨keepsCommitments.mpr same, rfl, fun _ => rfl⟩
  split
  · constructor
    · intro unchanged
      exact ⟨keepsCommitments.mp unchanged.commitments,
        keepsTransactions.mp unchanged.transactions⟩
    · rintro ⟨sameCommitments, sameTransactions⟩
      exact ⟨keepsCommitments.mpr sameCommitments,
        keepsTransactions.mpr sameTransactions, fun _ => rfl⟩
  · exact restored_imported_iff areParsed accesses.settings target

/-- An import whose second write is rejected throws and has replaced the
commitments. -/
theorem importData_destroys_commitments :
    ¬ImportsWhole { transactions := { setItem := some (.error "disk full") } }
      (exportData {} 0 {}) { commitments := some "[1]" } := by
  intro whole
  have thrown : importData
      { transactions := { setItem := some (.error "disk full") } }
      (exportData {} 0 {}).toImported { commitments := some "[1]" } =
        .error (.error "disk full") { commitments := some "[]" } := by
    rfl
  rw [ImportsWhole, outcome_of_error thrown] at whole
  have counts := congrArg (fun list => (records (some list)).length)
    whole.commitments
  revert counts
  decide +kernel

end DatabaseTexts
end Client
end Privachain

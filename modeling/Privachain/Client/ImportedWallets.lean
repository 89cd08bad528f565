import Privachain.Client.NoteHistory
import Privachain.Client.AdapterSatisfaction

/-!
# Imported wallets

`importNotes` saves whatever deserializes.  A stored commitment is trusted from
then on, so the notes of the wallet stay spendable as stored exactly when the
backup and the received notes carry the commitments of their own numbers.
-/

namespace Privachain
namespace Client
namespace NoteTexts

open Circuit
open Foundation
open Foundation.JavaScript
open Foundation.StoredItem

/-! ## Backups -/

/-- `exportNotes()` -/
def exportNotes (read : Except Exception (Option String)) : String :=
  serializeNotes (loadNotes read)

/-- `importNotes(json)` -/
def importNotes (access : Access) (json : String) : ItemCall PUnit :=
  match deserializeNotes json with
  | .ok notes => saveNotes access notes
  | .error error => throw error

/-- `clearAllNotes()` -/
def clearAllNotes : ItemCall PUnit :=
  set (none : Option String)

/-- A call that writes or removes the item of the notes. -/
inductive WalletCall
  | note (call : NoteCall)
  | importNotes (json : String)
  | clearAllNotes

/-- A call with the answers of the storage. -/
structure WalletStep where
  call : WalletCall
  access : Access := {}

/-- The call of a step. -/
def WalletStep.perform (step : WalletStep) : ItemCall PUnit :=
  match step.call with
  | .note call => NoteTexts.perform step.access call
  | .importNotes json => NoteTexts.importNotes step.access json
  | .clearAllNotes => NoteTexts.clearAllNotes

/-- The item after a step. -/
def WalletStep.apply (item : Option String) (step : WalletStep) :
    Option String :=
  itemAfter step.perform item

theorem WalletStep.apply_note
    (item : Option String)
    (call : NoteCall)
    (access : Access) :
    WalletStep.apply item { call := .note call, access := access } =
      itemAfter (NoteTexts.perform access call) item := rfl

theorem WalletStep.apply_importNotes
    (item : Option String)
    (json : String)
    (access : Access) :
    WalletStep.apply item { call := .importNotes json, access := access } =
      itemAfter (NoteTexts.importNotes access json) item := rfl

theorem WalletStep.apply_clearAllNotes
    (item : Option String)
    (access : Access) :
    WalletStep.apply item { call := .clearAllNotes, access := access } =
      none := rfl

/-- An import writes the item again, or throws before. -/
theorem importNotes_eq_rewriteItem (access : Access) (json : String) :
    importNotes access json =
      rewriteItem access fun _ => (deserializeNotes json).map serializeNotes := by
  unfold importNotes rewriteItem
  cases deserializeNotes json with
  | ok notes => rfl
  | error error => rfl

/-! ## Notes that are spendable as stored -/

/-- A stored note as an input of `prepareCircuitInput`. -/
def applicationNote (note : Value) : ApplicationNote where
  amount := bigIntProperty note "amount"
  secret := bigIntProperty note "secret"
  recipient := bigIntProperty note "recipient"
  commitment :=
    match propertyOf note "commitment" with
    | .string commitment => some commitment
    | _ => none

/-- The stored commitment opens to the numbers of the note, `spent` is a boolean,
and the nullifier from the stored commitment is the one of the circuit. -/
structure SpendableAsStored
    (poseidon : List Fr -> Fr)
    (note : Value) : Prop where
  commitment : ∃ commitment,
    computeCommitment (initialized poseidon) (applicationNote note).amount
        (applicationNote note).secret (applicationNote note).recipient =
      .ok commitment ∧
    propertyOf note "commitment" = .string commitment
  spent : ∃ spent, propertyOf note "spent" = .boolean spent
  nullifier :
    inputNullifier (initialized poseidon) (applicationNote note) =
      .ok (fieldToString ((applicationNote note).nullifier poseidon))

/-- The text of a commitment to three numbers. -/
def commitmentText
    (poseidon : List Fr -> Fr)
    (amount secret recipient : Int) : String :=
  fieldToString (poseidon [(amount : Fr), (secret : Fr), (recipient : Fr)])

/-- The commitment of an initialized prover. -/
theorem computeCommitment_initialized
    (poseidon : List Fr -> Fr)
    (amount secret recipient : Int) :
    computeCommitment (initialized poseidon) amount secret recipient =
      .ok (commitmentText poseidon amount secret recipient) := by
  rfl

/-- A note with the commitment of its own numbers has the circuit's
nullifier. -/
theorem spendableAsStored_iff
    (poseidon : List Fr -> Fr)
    (note : Value) :
    SpendableAsStored poseidon note ↔
      propertyOf note "commitment" = .string
          (commitmentText poseidon (bigIntProperty note "amount")
            (bigIntProperty note "secret")
            (bigIntProperty note "recipient")) ∧
        ∃ spent, propertyOf note "spent" = .boolean spent := by
  constructor
  · rintro ⟨⟨commitment, computed, stored⟩, spent, _⟩
    rw [computeCommitment_initialized, Except.ok.injEq] at computed
    rw [stored, ← computed]
    exact ⟨rfl, spent⟩
  · rintro ⟨stored, spent⟩
    refine ⟨⟨_, computeCommitment_initialized _ _ _ _, stored⟩, spent, ?_⟩
    rw [inputNullifier_eq_nullifier_iff]
    intro commitment isCommitment _
    have same : commitment = commitmentText poseidon
        (bigIntProperty note "amount") (bigIntProperty note "secret")
        (bigIntProperty note "recipient") := by
      rw [applicationNote, stored] at isCommitment
      exact (Option.some.inj isCommitment).symm
    rw [same, commitmentText]
    exact ⟨_, readField_fieldToString _, rfl⟩

/-- Marks that leave the numbers, the commitment and a boolean `spent` leave a
note spendable. -/
theorem SetsOnly.spendable
    {poseidon : List Fr -> Fr}
    {field : String × Value}
    {selected : Bool}
    {before after : Value}
    (sets : SetsOnly field selected before after)
    (notLasting : field.1 ∉ lastingNames)
    (setsSpent : field.1 = "spent" -> ∃ spent, field.2 = .boolean spent)
    (spendable : SpendableAsStored poseidon before) :
    SpendableAsStored poseidon after := by
  have kept : ∀ name ∈ lastingNames,
      propertyOf after name = propertyOf before name :=
    fun name member => sets.kept (ne_of_mem_of_not_mem member notLasting)
  have number : ∀ name ∈ lastingNames,
      bigIntProperty after name = bigIntProperty before name := by
    intro name member
    rw [bigIntProperty, kept name member]
    rfl
  rw [spendableAsStored_iff] at spendable ⊢
  obtain ⟨commitment, spent⟩ := spendable
  constructor
  · rw [kept "commitment" (by simp [lastingNames]),
      number "amount" (by simp [lastingNames]),
      number "secret" (by simp [lastingNames]),
      number "recipient" (by simp [lastingNames])]
    exact commitment
  · rcases sets.spent with same | ⟨isSpent, isSet⟩
    · rw [same]
      exact spent
    · rw [isSet]
      exact setsSpent isSpent

/-- A property with a text, a boolean or a big integer is read back as it is, and
no other one is read back as such. -/
theorem storedValue_eq_iff
    {value expected : Value}
    (isPlain : (∃ text, expected = .string text) ∨
      (∃ boolean, expected = .boolean boolean) ∨
      ∃ number, expected = .bigint number) :
    storedValue value = expected ↔ value = expected := by
  have ofNumber : ∀ number, JSON.numberData number = .null ∨
      ∃ rounded, JSON.numberData number = .number rounded := by
    intro number
    unfold JSON.numberData
    split
    · split
      · exact .inr ⟨_, rfl⟩
      · exact .inl rfl
    · exact .inl rfl
  cases value with
  | number number =>
      change JSON.numberData number = expected ↔ _
      rcases ofNumber number with isNull | ⟨rounded, isNumber⟩
      · rw [isNull]
        rcases isPlain with ⟨_, rfl⟩ | ⟨_, rfl⟩ | ⟨_, rfl⟩ <;> simp
      · rw [isNumber]
        rcases isPlain with ⟨_, rfl⟩ | ⟨_, rfl⟩ | ⟨_, rfl⟩ <;> simp
  | _ =>
      rcases isPlain with ⟨_, rfl⟩ | ⟨_, rfl⟩ | ⟨_, rfl⟩ <;>
        simp [storedValue, writtenProperty, JSON.jsonData]

/-- A note is spendable as stored exactly when it is as it is read back. -/
theorem spendableAsStored_readBack_iff
    {note : Value}
    (isNote : IsNoteObject note)
    (poseidon : List Fr -> Fr) :
    SpendableAsStored poseidon (readBack note) ↔
      SpendableAsStored poseidon note := by
  have number : ∀ name,
      bigIntProperty (readBack note) name = bigIntProperty note name := by
    intro name
    have same : ∀ value, propertyOf (readBack note) name = .bigint value ↔
        propertyOf note name = .bigint value := by
      intro value
      rw [propertyOf_readBack isNote]
      exact storedValue_eq_iff (.inr (.inr ⟨value, rfl⟩))
    unfold bigIntProperty
    split
    · rename_i value held
      rw [(same value).mp held]
    · rename_i notHeld
      split
      · rename_i value held
        exact absurd ((same value).mpr held) (notHeld value)
      · rfl
  rw [spendableAsStored_iff, spendableAsStored_iff, number, number, number,
    propertyOf_readBack isNote, propertyOf_readBack isNote,
    storedValue_eq_iff (.inl ⟨_, rfl⟩)]
  refine and_congr_right fun _ => exists_congr fun spent => ?_
  exact storedValue_eq_iff (.inr (.inl ⟨spent, rfl⟩))

/-! ## Honest additions -/

/-- An entry of a backup with the commitment of its own numbers and a boolean
`spent`. -/
def HonestEntry (poseidon : List Fr -> Fr) (entry : Value) : Prop :=
  ∃ amount secret recipient,
    bigIntOf (propertyOf entry "amount") = .ok amount ∧
    bigIntOf (propertyOf entry "secret") = .ok secret ∧
    bigIntOf (propertyOf entry "recipient") = .ok recipient ∧
    propertyOf entry "commitment" =
      .string (commitmentText poseidon amount secret recipient) ∧
    ∃ spent, propertyOf entry "spent" = .boolean spent

/-- If the backup deserializes, all its entries are honest. -/
def HonestBackup (poseidon : List Fr -> Fr) (json : String) : Prop :=
  ∀ entries notes, JSON.parseText json = .ok (.array entries) ->
    deserializeNotes json = .ok notes ->
    ∀ entry ∈ entries, HonestEntry poseidon entry

/-- What the step writes is honest: the notes that it receives and the backup
that it imports. -/
def WalletStep.AddsHonest
    (poseidon : List Fr -> Fr)
    (step : WalletStep) : Prop :=
  step.access.setItem = none ->
    match step.call with
    | .note (.addReceivedNotes newNotes) =>
        ∀ note ∈ newNotes, note.commitment =
          commitmentText poseidon note.amount note.secret note.recipient
    | .note _ => True
    | .importNotes json => HonestBackup poseidon json
    | .clearAllNotes => True

/-- A converted entry is spendable exactly when the entry is honest. -/
theorem honestEntry_iff
    {poseidon : List Fr -> Fr}
    {entry note : Value}
    (converts : deserializeNote entry = .ok note) :
    HonestEntry poseidon entry ↔ SpendableAsStored poseidon note := by
  obtain ⟨fields, amount, secret, recipient, rfl, isAmount, isSecret,
    isRecipient, rfl⟩ := (deserializeNote_eq_ok_iff _ _).mp converts
  have property := propertyOf_spread fields (bigIntFields amount secret recipient)
  have commitment := property "commitment"
  have spent := property "spent"
  have amountProperty : bigIntProperty (.object (spread fields
      (bigIntFields amount secret recipient))) "amount" = amount := by
    rw [bigIntProperty, property]
    rfl
  have secretProperty : bigIntProperty (.object (spread fields
      (bigIntFields amount secret recipient))) "secret" = secret := by
    rw [bigIntProperty, property]
    rfl
  have recipientProperty : bigIntProperty (.object (spread fields
      (bigIntFields amount secret recipient))) "recipient" = recipient := by
    rw [bigIntProperty, property]
    rfl
  rw [spendableAsStored_iff, amountProperty, secretProperty,
    recipientProperty, commitment, spent]
  constructor
  · rintro ⟨amount', secret', recipient', isAmount', isSecret', isRecipient',
      stored⟩
    obtain rfl := Except.ok.inj (isAmount.symm.trans isAmount')
    obtain rfl := Except.ok.inj (isSecret.symm.trans isSecret')
    obtain rfl := Except.ok.inj (isRecipient.symm.trans isRecipient')
    exact stored
  · intro stored
    exact ⟨amount, secret, recipient, isAmount, isSecret, isRecipient, stored⟩

/-- A received note is spendable exactly when it has its own commitment. -/
theorem Matches.spendable_iff
    {poseidon : List Fr -> Fr}
    {value : Value}
    {note : Note}
    (matched : Matches value note) :
    SpendableAsStored poseidon value ↔
      note.commitment =
        commitmentText poseidon note.amount note.secret note.recipient := by
  have commitment : propertyOf value "commitment" = .string note.commitment :=
    matched.properties "commitment"
  have amount : propertyOf value "amount" = .bigint note.amount :=
    matched.properties "amount"
  have secret : propertyOf value "secret" = .bigint note.secret :=
    matched.properties "secret"
  have recipient : propertyOf value "recipient" = .bigint note.recipient :=
    matched.properties "recipient"
  have spent : propertyOf value "spent" = .boolean note.spent :=
    matched.properties "spent"
  rw [spendableAsStored_iff, commitment, spent]
  simp only [bigIntProperty, amount, secret, recipient, Value.string.injEq,
    Value.boolean.injEq, exists_eq', and_true]

/-- The notes that are stored after an import that writes. -/
theorem storedNotes_importNotes
    {access : Access}
    (granted : access.setItem = none)
    {json : String}
    {notes : List Value}
    (reads : deserializeNotes json = .ok notes)
    (item : Option String) :
    storedNotes (itemAfter (importNotes access json) item) =
      notes.map readBack := by
  have replaced : (deserializeNotes json).map serializeNotes =
      .ok (serializeNotes notes) := by
    rw [reads]
    rfl
  rw [storedNotes, importNotes_eq_rewriteItem,
    itemAfter_rewriteItem_of_granted _ _ _ granted replaced]
  exact loadNotes_of_deserializeNotes (deserializeNotes_serializeNotes
    fun note member => (isLoaded_of_mem reads member).isNoteObject)

/-- What an import saves are notes of the wallet. -/
theorem isOfWallet_importNotes
    {access : Access}
    (granted : access.setItem = none)
    {json : String}
    {notes : List Value}
    (reads : deserializeNotes json = .ok notes)
    (item : Option String) :
    IsOfWallet (itemAfter (importNotes access json) item) := by
  unfold IsOfWallet
  rw [storedNotes_importNotes granted reads, List.forall_mem_map]
  exact fun note member =>
    isSaved_readBack (isLoaded_of_mem reads member).isNoteObject

/-! ## Runs after an import -/

/-- Every stored note is spendable as stored. -/
def AllSpendable (poseidon : List Fr -> Fr) (item : Option String) : Prop :=
  ∀ note ∈ storedNotes item, SpendableAsStored poseidon note

/-- What a call loads is stored. -/
theorem mem_storedNotes
    {access : Access}
    {item : Option String}
    {note : Value}
    (member : note ∈ loadNotes (access.read item)) :
    note ∈ storedNotes item := by
  unfold Access.read at member
  cases refused : access.getItem with
  | none =>
      rw [refused] at member
      exact member
  | some refusal =>
      rw [refused] at member
      cases member

/-- An honest backup gives spendable notes, and no other does. -/
theorem allSpendable_importNotes_iff
    {poseidon : List Fr -> Fr}
    {access : Access}
    (granted : access.setItem = none)
    {json : String}
    {notes : List Value}
    (reads : deserializeNotes json = .ok notes)
    (item : Option String) :
    AllSpendable poseidon (itemAfter (importNotes access json) item) ↔
      HonestBackup poseidon json := by
  obtain ⟨parsed, isParsed, converts⟩ := (bind_eq_ok_iff _ _ _).mp reads
  cases parsed with
  | array entries =>
      have converted := (mapM_eq_ok_iff _ _ _).mp converts
      have sameEntries : (∀ entry ∈ entries, HonestEntry poseidon entry) ↔
          ∀ note ∈ notes, SpendableAsStored poseidon note :=
        forall_mem_iff_of_forall₂
          (fun _ _ convertsEntry => honestEntry_iff convertsEntry) converted
      have sameNotes : (∀ note ∈ notes,
            SpendableAsStored poseidon (readBack note)) ↔
          ∀ note ∈ notes, SpendableAsStored poseidon note :=
        forall₂_congr fun note member => spendableAsStored_readBack_iff
          (isLoaded_of_mem reads member).isNoteObject poseidon
      rw [AllSpendable, storedNotes_importNotes granted reads,
        List.forall_mem_map, sameNotes, ← sameEntries]
      constructor
      · intro honest entries' notes' isParsed' _
        rw [isParsed, Except.ok.injEq, Value.array.injEq] at isParsed'
        rw [← isParsed']
        exact honest
      · intro honest
        exact honest entries notes isParsed reads
  | _ => cases converts

/-- A granted note call keeps the notes spendable exactly when it adds honest
ones. -/
theorem allSpendable_perform_iff
    {poseidon : List Fr -> Fr}
    {access : Access}
    (granted : access.setItem = none)
    {item : Option String}
    (isOfWallet : IsOfWallet item)
    (spendable : AllSpendable poseidon item)
    (call : NoteCall) :
    AllSpendable poseidon (itemAfter (perform access call) item) ↔
      WalletStep.AddsHonest poseidon { call := .note call, access := access } := by
  have loaded : ∀ note ∈ loadNotes (access.read item),
      SpendableAsStored poseidon note :=
    fun note member => spendable note (mem_storedNotes member)
  have effect := effect_itemAfter granted
    (fun note member => isOfWallet note (mem_storedNotes member)) call
  rw [WalletStep.AddsHonest, forall_prop_of_true granted]
  cases call with
  | addReceivedNotes newNotes =>
      obtain ⟨added, after, matched⟩ := effect
      rw [AllSpendable, after, List.forall_mem_append, and_iff_right loaded]
      exact forall_mem_iff_of_forall₂
        (fun _ _ matchedNote => Matches.spendable_iff matchedNote) matched
  | markNotesSpent commitments =>
      refine iff_of_true (fun note member => ?_) trivial
      obtain ⟨earlier, isEarlier, sets⟩ :=
        exists_related_of_mem (List.Forall₂.flip effect) member
      exact SetsOnly.spendable sets (by simp [lastingNames])
        (fun _ => ⟨true, rfl⟩) (loaded earlier isEarlier)
  | updateNoteLeafIndex commitment leafIndex =>
      refine iff_of_true (fun note member => ?_) trivial
      obtain ⟨earlier, isEarlier, sets⟩ :=
        exists_related_of_mem (List.Forall₂.flip effect) member
      exact SetsOnly.spendable sets (by simp [lastingNames]) (by simp)
        (loaded earlier isEarlier)

/-- A step that writes nothing leaves the item, or removes it. -/
theorem apply_of_refused
    {step : WalletStep}
    (refused : step.access.setItem ≠ none)
    (item : Option String) :
    step.apply item = item ∨ step.apply item = none := by
  obtain ⟨call, access⟩ := step
  cases call with
  | note call =>
      left
      rw [WalletStep.apply_note, perform_eq_rewriteItem]
      exact itemAfter_rewriteItem_of_refused _ _ _ refused
  | importNotes json =>
      left
      rw [WalletStep.apply_importNotes, importNotes_eq_rewriteItem]
      exact itemAfter_rewriteItem_of_refused _ _ _ refused
  | clearAllNotes => exact .inr (WalletStep.apply_clearAllNotes item access)

/-- An import throws before it writes when the backup does not deserialize. -/
theorem apply_importNotes_of_error
    {json : String}
    {error : Exception}
    (fails : deserializeNotes json = .error error)
    (access : Access)
    (item : Option String) :
    WalletStep.apply item { call := .importNotes json, access := access } =
      item := by
  have failed : (deserializeNotes json).map serializeNotes = .error error := by
    rw [fails]
    rfl
  rw [WalletStep.apply_importNotes, importNotes_eq_rewriteItem]
  exact itemAfter_rewriteItem_of_error _ _ _ failed

/-- An absent item has only notes of the wallet. -/
theorem isOfWallet_none : IsOfWallet none :=
  fun _ member => absurd member List.not_mem_nil

/-- **Step.**  The stored notes stay those of the wallet. -/
theorem isOfWallet_apply
    {item : Option String}
    (isOfWallet : IsOfWallet item)
    (step : WalletStep) :
    IsOfWallet (step.apply item) := by
  by_cases granted : step.access.setItem = none
  · obtain ⟨call, access⟩ := step
    cases call with
    | note call => exact isOfWallet_itemAfter granted item call
    | importNotes json =>
        cases reads : deserializeNotes json with
        | ok notes => exact isOfWallet_importNotes granted reads item
        | error error =>
            rw [apply_importNotes_of_error reads]
            exact isOfWallet
    | clearAllNotes => exact isOfWallet_none
  · rcases apply_of_refused granted item with unchanged | removed
    · rw [unchanged]
      exact isOfWallet
    · rw [removed]
      exact isOfWallet_none

/-- **Step.**  A step keeps the notes spendable exactly when what it writes is
honest. -/
theorem allSpendable_apply_iff
    {poseidon : List Fr -> Fr}
    {item : Option String}
    (isOfWallet : IsOfWallet item)
    (spendable : AllSpendable poseidon item)
    (step : WalletStep) :
    AllSpendable poseidon (step.apply item) ↔ step.AddsHonest poseidon := by
  by_cases granted : step.access.setItem = none
  · obtain ⟨call, access⟩ := step
    cases call with
    | note call =>
        exact allSpendable_perform_iff granted isOfWallet spendable call
    | importNotes json =>
        rw [WalletStep.AddsHonest, forall_prop_of_true granted]
        cases reads : deserializeNotes json with
        | ok notes => exact allSpendable_importNotes_iff granted reads item
        | error error =>
            rw [apply_importNotes_of_error reads]
            refine iff_of_true spendable fun _ _ _ impossible => ?_
            rw [reads] at impossible
            cases impossible
    | clearAllNotes =>
        rw [WalletStep.apply_clearAllNotes]
        exact iff_of_true (List.forall_mem_nil _) fun _ => trivial
  · refine iff_of_true ?_ fun impossible => absurd impossible granted
    rcases apply_of_refused granted item with unchanged | removed
    · rw [unchanged]
      exact spendable
    · rw [removed]
      exact List.forall_mem_nil _

/-- The wallet after an import: in every state that it reaches all notes are
spendable as stored, and importing its own backup gives the same notes. -/
structure SpendableWallet
    (poseidon : List Fr -> Fr)
    (imported : Option String)
    (steps : List WalletStep) : Prop where
  spendable : ∀ earlier later, steps = earlier ++ later ->
    ∀ note ∈ storedNotes (run WalletStep.apply imported earlier),
      SpendableAsStored poseidon note
  roundTrip : ∀ earlier later, steps = earlier ++ later ->
    ∀ item, item = run WalletStep.apply imported earlier ->
      reportsFailure (importNotes {} (exportNotes (.ok item))) item = false ∧
        storedNotes (itemAfter (importNotes {} (exportNotes (.ok item))) item) =
          storedNotes item

/-- An import returns exactly when the backup deserializes and the write is
granted. -/
theorem importNotes_returns_iff
    (access : Access)
    (json : String)
    (item : Option String) :
    reportsFailure (importNotes access json) item = false ↔
      access.setItem = none ∧ ∃ notes, deserializeNotes json = .ok notes := by
  rw [importNotes_eq_rewriteItem, reportsFailure_rewriteItem_eq_false_iff]
  cases deserializeNotes json with
  | ok notes => simp [Except.map]
  | error error => simp [Except.map]

/-- An own backup deserializes to the stored notes, as they are read back. -/
theorem deserializeNotes_exportNotes (read : Except Exception (Option String)) :
    deserializeNotes (exportNotes read) =
      .ok ((loadNotes read).map readBack) :=
  deserializeNotes_serializeNotes fun _ member =>
    (isLoaded_of_mem_loadNotes member).isNoteObject

/-- **Round trip.**  Importing its own backup leaves a wallet as it is. -/
theorem importNotes_exportNotes
    {item : Option String}
    (isOfWallet : IsOfWallet item) :
    reportsFailure (importNotes {} (exportNotes (.ok item))) item = false ∧
      storedNotes (itemAfter (importNotes {} (exportNotes (.ok item))) item) =
        storedNotes item := by
  have same : (storedNotes item).map readBack = storedNotes item :=
    (List.map_congr_left fun note member =>
      (isOfWallet note member).readBack_eq).trans (List.map_id' _)
  have backup := deserializeNotes_exportNotes (.ok item)
  rw [show (loadNotes (.ok item)).map readBack = storedNotes item from same]
    at backup
  constructor
  · exact (importNotes_returns_iff _ _ _).mpr ⟨rfl, _, backup⟩
  · rw [storedNotes_importNotes rfl backup, same]

/-- **Imported wallets.**  After an import that returns, the wallet stays
spendable through a run exactly when the backup and everything written
afterwards is honest. -/
theorem spendableWallet_iff
    (poseidon : List Fr -> Fr)
    (access : Access)
    (json : String)
    (item : Option String)
    (returns : reportsFailure (importNotes access json) item = false)
    (steps : List WalletStep) :
    SpendableWallet poseidon (itemAfter (importNotes access json) item) steps ↔
      HonestBackup poseidon json ∧ ∀ step ∈ steps, step.AddsHonest poseidon := by
  obtain ⟨granted, notes, reads⟩ := (importNotes_returns_iff _ _ _).mp returns
  have imported := isOfWallet_importNotes granted reads item
  let Holds := fun item => IsOfWallet item ∧ AllSpendable poseidon item
  have throughout : SpendableWallet poseidon
        (itemAfter (importNotes access json) item) steps ↔
      Throughout WalletStep.apply Holds
        (itemAfter (importNotes access json) item) steps := by
    have reached : ∀ earlier, IsOfWallet (run WalletStep.apply
        (itemAfter (importNotes access json) item) earlier) :=
      run_invariant_of_preserved IsOfWallet
        (fun _ step isOfWallet => isOfWallet_apply isOfWallet step) imported
    rw [throughout_iff_forall_split]
    constructor
    · exact fun wallet earlier later split =>
        ⟨reached earlier, wallet.spendable earlier later split⟩
    · intro holds
      refine ⟨fun earlier later split => (holds earlier later split).2, ?_⟩
      rintro earlier later split _ rfl
      exact importNotes_exportNotes (reached earlier)
  have stepwise : ∀ item step, Holds item ->
      (Holds (WalletStep.apply item step) ↔ step.AddsHonest poseidon) := by
    rintro item step ⟨isOfWallet, spendable⟩
    rw [← allSpendable_apply_iff isOfWallet spendable step]
    exact and_iff_right (isOfWallet_apply isOfWallet step)
  rw [throughout, ← allSpendable_importNotes_iff granted reads item]
  constructor
  · intro holds
    have initially := holds.initially
    refine ⟨initially.2, ?_⟩
    rw [throughout_iff_allowed stepwise initially, allowed_iff_forall_mem] at holds
    exact holds
  · rintro ⟨initially, honest⟩
    rw [throughout_iff_allowed stepwise ⟨imported, initially⟩,
      allowed_iff_forall_mem]
    exact honest

/-- A backup of one unspent note with the commitment `21`, the sum of its
numbers. -/
def honestBackup : String :=
  "[\x7b\"commitment\":\"21\",\"amount\":\"5\",\"secret\":\"7\"," ++
    "\"recipient\":\"9\",\"spent\":false\x7d]"

/-- A backup of the same note with another commitment. -/
def otherCommitment : String :=
  "[\x7b\"commitment\":\"22\",\"amount\":\"5\",\"secret\":\"7\"," ++
    "\"recipient\":\"9\",\"spent\":false\x7d]"

/-- The hypothesis holds of a backup that is imported into an empty wallet. -/
theorem spendableWallet_honestBackup_iff :
    SpendableWallet List.sum (itemAfter (importNotes {} honestBackup) none)
        [{ call := .note (.markNotesSpent ["21"]) }] ↔
      HonestBackup List.sum honestBackup ∧
        ∀ step ∈ [({ call := .note (.markNotesSpent ["21"]) } : WalletStep)],
          step.AddsHonest List.sum :=
  spendableWallet_iff List.sum {} honestBackup none (by decide +kernel) _

/-- The import accepts the other commitment, and the nullifier is not the one of
the circuit. -/
theorem importNotes_unspendable :
    reportsFailure (importNotes {} otherCommitment) none = false ∧
      ¬ SpendableWallet List.sum
        (itemAfter (importNotes {} otherCommitment) none) [] := by
  refine ⟨by decide +kernel, fun wallet => ?_⟩
  have stored : (storedNotes
      (itemAfter (importNotes {} otherCommitment) none)).any (fun note =>
        isText (propertyOf note "commitment") "22" &&
          (bigIntProperty note "amount" == 5 &&
            (bigIntProperty note "secret" == 7 &&
              bigIntProperty note "recipient" == 9))) = true := by
    decide +kernel
  obtain ⟨note, member, holds⟩ := List.any_eq_true.mp stored
  simp only [Bool.and_eq_true, beq_iff_eq] at holds
  obtain ⟨isCommitment, amount, secret, recipient⟩ := holds
  have spendable := wallet.spendable [] [] rfl note member
  rw [spendableAsStored_iff, amount, secret, recipient] at spendable
  rw [spendable.1] at isCommitment
  have different : isText (.string (commitmentText List.sum 5 7 9)) "22" =
      false := by
    decide +kernel
  rw [different] at isCommitment
  cases isCommitment

end NoteTexts
end Client
end Privachain

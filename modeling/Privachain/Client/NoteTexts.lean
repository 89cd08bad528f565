import Privachain.Client.NoteRuns
import Privachain.Foundation.Objects
import Privachain.Foundation.StoredItem

/-!
# The text of the stored notes

The item under the notes key is any text.  A text that cannot be deserialized
counts as an empty list, which the next change then writes over it; every other
text keeps its notes.
-/

namespace Privachain
namespace Client
namespace NoteTexts

open Foundation
open Foundation.JavaScript
open Foundation.StoredItem

/-! ## Reading and writing the item -/

/-- The conversion of one entry by `deserializeNotes`. -/
def deserializeNote (note : Value) : Except Exception Value := do
  let amount ← bigIntOf (← readProperty note "amount")
  let secret ← bigIntOf (← readProperty note "secret")
  let recipient ← bigIntOf (← readProperty note "recipient")
  return .object (spread (ownFields note)
    [("amount", .bigint amount), ("secret", .bigint secret),
      ("recipient", .bigint recipient)])

/-- `parsed.map(...)`: only arrays have the method. -/
def deserializeParsed (parsed : Value) : Except Exception (List Value) :=
  match parsed with
  | .array notes => notes.mapM deserializeNote
  | .null => throw (.typeError
      "Cannot read properties of null (reading 'map')")
  | _ => throw (.typeError "parsed.map is not a function")

/-- `deserializeNotes(json)` -/
def deserializeNotes (json : String) : Except Exception (List Value) :=
  JSON.parseText json >>= deserializeParsed

/-- `serializeNotes(notes)` -/
def serializeNotes (notes : List Value) : String :=
  JSON.stringifyReplaced (.array notes)

/-- `loadNotes()`, on the outcome of its read: what cannot be read counts as an
empty list. -/
def loadNotes (read : Except Exception (Option String)) : List Value :=
  let notes : Except Exception (List Value) := do
    match ← read with
    | none => return []
    | some stored => if stored = "" then return [] else deserializeNotes stored
  match notes with
  | .ok notes => notes
  | .error _ => []

/-! ## Changes of the item -/

/-- `commitmentSet.has(value)` -/
def isOneOf (commitments : List String) (value : Value) : Bool :=
  commitments.any fun commitment => isText value commitment

/-- `markNotesSpent(commitments)`, on one note. -/
def markSpent (commitments : List String) (note : Value) : Value :=
  if isOneOf commitments (propertyOf note "commitment") &&
      !(propertyOf note "spent").truthy then
    .object (JSON.assign (ownFields note) ("spent", .boolean true))
  else note

/-- `updateNoteLeafIndex(commitment, leafIndex)`, on one note. -/
def setLeafIndex (commitment : String) (leafIndex : Int) (note : Value) :
    Value :=
  if isText (propertyOf note "commitment") commitment then
    .object (JSON.assign (ownFields note) ("leafIndex", .ofInt leafIndex))
  else note

/-- A leaf index as the value of its property. -/
def leafIndexValue : Optional Int -> Value
  | .undefined => .undefined
  | .null => .null
  | .value leafIndex => .ofInt leafIndex

/-- The properties of a note. -/
def noteFields (note : Note) : List (String × Value) :=
  [("commitment", .string note.commitment), ("amount", .bigint note.amount),
    ("secret", .bigint note.secret), ("recipient", .bigint note.recipient),
    ("leafIndex", leafIndexValue note.leafIndex),
    ("spent", .boolean note.spent),
    ("timestamp", optionalValue .ofInt note.timestamp)]

section Calls

variable (access : Access)

/-- `saveNotes(notes)` -/
def saveNotes (notes : List Value) : ItemCall PUnit :=
  access.write (serializeNotes notes)

/-- `markNotesSpent(commitments)` -/
def markNotesSpent (commitments : List String) : ItemCall PUnit := do
  let notes := loadNotes (access.read (← get))
  saveNotes access (notes.map (markSpent commitments))

/-- `addReceivedNotes(newNotes)` -/
def addReceivedNotes (newNotes : List Note) : ItemCall PUnit := do
  let existing := loadNotes (access.read (← get))
  saveNotes access
    (existing ++ newNotes.map fun note => .object (noteFields note))

/-- `updateNoteLeafIndex(commitment, leafIndex)` -/
def updateNoteLeafIndex
    (commitment : String)
    (leafIndex : Int) : ItemCall PUnit := do
  let notes := loadNotes (access.read (← get))
  saveNotes access (notes.map (setLeafIndex commitment leafIndex))

/-- One of the calls. -/
def perform : NoteCall -> ItemCall PUnit
  | .addReceivedNotes newNotes => addReceivedNotes access newNotes
  | .markNotesSpent commitments => markNotesSpent access commitments
  | .updateNoteLeafIndex commitment leafIndex =>
      updateNoteLeafIndex access commitment leafIndex

end Calls

/-- The list that a call saves for the list that it has loaded. -/
def changed (notes : List Value) : NoteCall -> List Value
  | .addReceivedNotes newNotes =>
      notes ++ newNotes.map fun note => .object (noteFields note)
  | .markNotesSpent commitments => notes.map (markSpent commitments)
  | .updateNoteLeafIndex commitment leafIndex =>
      notes.map (setLeafIndex commitment leafIndex)

/-- Every call loads the list, changes it and saves it. -/
theorem perform_eq_rewriteItem (access : Access) (call : NoteCall) :
    perform access call =
      rewriteItem access fun read =>
        .ok (serializeNotes (changed (loadNotes read) call)) := by
  cases call with
  | addReceivedNotes newNotes => rfl
  | markNotesSpent commitments => rfl
  | updateNoteLeafIndex commitment leafIndex => rfl

/-- What the storage holds after a call that it lets write. -/
theorem itemAfter_perform
    (call : NoteCall)
    (item : Option String) :
    itemAfter (perform {} call) item =
      some (serializeNotes (changed (loadNotes (.ok item)) call)) := by
  rw [perform_eq_rewriteItem]
  exact itemAfter_rewriteItem_of_granted _ _ _ rfl rfl

/-! ## Notes in memory -/

/-- The properties of a note that the program works on: big integers in their
places, and what is read from a text elsewhere. -/
structure IsNote (fields : List (String × Value)) : Prop where
  own : JSON.IsOwn fields
  amount : ∃ amount, fields.lookup "amount" = some (.bigint amount)
  secret : ∃ secret, fields.lookup "secret" = some (.bigint secret)
  recipient : ∃ recipient, fields.lookup "recipient" = some (.bigint recipient)
  others : ∀ field ∈ fields, field.1 ∉ ["amount", "secret", "recipient"] ->
    isDefined field = true -> JSON.IsParsed field.2

/-- A note that is read from a text: every property is defined. -/
structure IsLoaded (note : Value) : Prop where
  isNote : IsNote (ownFields note)
  isObject : note = .object (ownFields note)
  defined : (ownFields note).filter isDefined = ownFields note

/-- The three big integers of a note. -/
def bigIntFields (amount secret recipient : Int) : List (String × Value) :=
  [("amount", .bigint amount), ("secret", .bigint secret),
    ("recipient", .bigint recipient)]

/-- A conversion returns exactly for objects with three convertible
properties. -/
theorem deserializeNote_eq_ok_iff (note result : Value) :
    deserializeNote note = .ok result ↔
      ∃ fields amount secret recipient,
        note = .object fields ∧
        bigIntOf (propertyOf note "amount") = .ok amount ∧
        bigIntOf (propertyOf note "secret") = .ok secret ∧
        bigIntOf (propertyOf note "recipient") = .ok recipient ∧
        result = .object
          (spread fields (bigIntFields amount secret recipient)) := by
  have noProperty : ∀ amount, bigIntOf .undefined ≠ .ok amount := by
    rintro amount ⟨⟩
  unfold deserializeNote
  simp only [bind_eq_ok_iff, returned_eq_ok_iff]
  constructor
  · rintro ⟨_, reads, amount, isAmount, _, readsSecret, secret, isSecret, _,
      readsRecipient, recipient, isRecipient, rfl⟩
    cases note with
    | object fields =>
        cases reads
        cases readsSecret
        cases readsRecipient
        exact ⟨fields, amount, secret, recipient, rfl, isAmount, isSecret,
          isRecipient, rfl⟩
    | undefined => cases reads
    | null => cases reads
    | _ =>
        cases reads
        exact absurd isAmount (noProperty amount)
  · rintro ⟨fields, amount, secret, recipient, rfl, isAmount, isSecret,
      isRecipient, rfl⟩
    exact ⟨_, rfl, amount, isAmount, _, rfl, secret, isSecret, _, rfl,
      recipient, isRecipient, rfl⟩

/-! ## Notes that are read back -/

/-- A note of the memory. -/
def IsNoteObject (note : Value) : Prop :=
  ∃ fields, note = .object fields ∧ IsNote fields

theorem IsLoaded.isNoteObject {note : Value} (isLoaded : IsLoaded note) :
    IsNoteObject note :=
  ⟨ownFields note, isLoaded.isObject, isLoaded.isNote⟩

/-- A property of a note as it is read back: `undefined` is not written, and big
integers are converted back. -/
def storedValue : Value -> Value
  | .bigint value => .bigint value
  | value => writtenProperty value

/-- A JSON value is read back. -/
theorem storedValue_of_isJson
    {value : Value}
    (isJson : JSON.IsJson value) :
    storedValue value = value := by
  have same := writtenProperty_of_isJson isJson
  cases value with
  | bigint value => rfl
  | _ => exact same

/-- A value of a text is read back as what is written for it. -/
theorem jsonData_eq_storedValue
    {value : Value}
    (isParsed : JSON.IsParsed value) :
    JSON.jsonData value = storedValue value := by
  cases value with
  | undefined => exact isParsed.elim
  | bigint value => exact isParsed.elim
  | _ => rfl

/-- The note as it is read back. -/
def readBack (note : Value) : Value :=
  .object (((ownFields note).filter isDefined).map fun field =>
    (field.1, storedValue field.2))

/-- The big integers of a note are read back. -/
theorem lookup_readBack
    {fields : List (String × Value)}
    (distinct : (fields.map Prod.fst).Nodup)
    {name : String}
    {value : Int}
    (found : fields.lookup name = some (.bigint value)) :
    ((fields.filter isDefined).map fun field =>
        (field.1, storedValue field.2)).lookup name = some (.bigint value) := by
  rw [lookup_map_values, lookup_filter_isDefined distinct found rfl]
  rfl

/-- What is written for a note is read back as the note. -/
theorem deserializeNote_jsonData
    {fields : List (String × Value)}
    (isNote : IsNote fields) :
    deserializeNote (JSON.jsonData (.object fields)) =
      .ok (readBack (.object fields)) := by
  obtain ⟨amount, hasAmount⟩ := isNote.amount
  obtain ⟨secret, hasSecret⟩ := isNote.secret
  obtain ⟨recipient, hasRecipient⟩ := isNote.recipient
  have distinct := isNote.own.nodup
  rw [jsonData_object isNote.own, deserializeNote_eq_ok_iff]
  have converted : ∀ name value,
      fields.lookup name = some (.bigint value) ->
      bigIntOf (propertyOf
        (.object ((fields.filter isDefined).map fun field =>
          (field.1, JSON.jsonData field.2))) name) = .ok value := by
    intro name value found
    rw [propertyOf, Value.property, lookup_map_values,
      lookup_filter_isDefined distinct found rfl]
    exact bigIntOf_bigIntToString value
  have restores : ∀ update ∈ bigIntFields amount secret recipient,
      ((fields.filter isDefined).lookup update.1).map storedValue =
        some update.2 := by
    have restored : ∀ name value, fields.lookup name = some (.bigint value) ->
        ((fields.filter isDefined).lookup name).map storedValue =
          some (.bigint value) := by
      intro name value found
      rw [lookup_filter_isDefined distinct found rfl]
      rfl
    simp only [bigIntFields, List.forall_mem_cons]
    exact ⟨restored _ _ hasAmount, restored _ _ hasSecret,
      restored _ _ hasRecipient, by simp⟩
  have restored := spread_map_values_eq
    (distinct.sublist ((List.filter_sublist (p := isDefined)).map Prod.fst))
    (by simp [bigIntFields]) restores fun field member notBigInt =>
      jsonData_eq_storedValue (isNote.others field (List.mem_of_mem_filter member)
        notBigInt (List.mem_filter.mp member).2)
  exact ⟨_, amount, secret, recipient, rfl, converted _ _ hasAmount,
    converted _ _ hasSecret, converted _ _ hasRecipient,
    congrArg Value.object restored.symm⟩

/-- Reading a property of a note that is read back. -/
theorem propertyOf_readBack
    {note : Value}
    (isNote : IsNoteObject note)
    (name : String) :
    propertyOf (readBack note) name = storedValue (propertyOf note name) := by
  obtain ⟨fields, rfl, isNote⟩ := isNote
  rw [← propertyOf_filter_isDefined isNote.own.nodup]
  unfold readBack propertyOf Value.property
  dsimp only [ownFields]
  rw [lookup_map_values]
  cases (fields.filter isDefined).lookup name with
  | none => rfl
  | some value => rfl

/-- A note that is read from a text has all properties defined. -/
theorem isLoaded_of_deserializeNote
    {entry note : Value}
    (isParsed : JSON.IsParsed entry)
    (reads : deserializeNote entry = .ok note) :
    IsLoaded note := by
  obtain ⟨fields, amount, secret, recipient, rfl, _, _, _, rfl⟩ :=
    (deserializeNote_eq_ok_iff _ _).mp reads
  have isMember : ∀ field ∈ spread fields (bigIntFields amount secret recipient),
      field ∈ bigIntFields amount secret recipient ∨ field ∈ fields := by
    intro field member
    exact mem_spread member
  have others : ∀ field ∈ fields, JSON.IsParsed field.2 :=
    (JSON.membersAreData_iff fields).mp isParsed.2
  constructor
  · constructor
    · exact isOwn_spread isParsed.1 _
    · exact ⟨amount, by rw [ownFields, lookup_spread]; rfl⟩
    · exact ⟨secret, by rw [ownFields, lookup_spread]; rfl⟩
    · exact ⟨recipient, by rw [ownFields, lookup_spread]; rfl⟩
    · intro field member notBigInt _
      rcases isMember field member with converted | earlier
      · exact absurd (List.mem_map_of_mem converted) notBigInt
      · exact others field earlier
  · rfl
  · rw [List.filter_eq_self]
    intro field member
    rcases isMember field member with converted | earlier
    · simp only [bigIntFields, List.mem_cons, List.not_mem_nil, or_false]
        at converted
      rcases converted with rfl | rfl | rfl
      · rfl
      · rfl
      · rfl
    · exact isDefined_of_isData (others field earlier)

/-- Setting another property keeps a note a note. -/
theorem IsNote.assign
    {fields : List (String × Value)}
    (isNote : IsNote fields)
    {field : String × Value}
    (notBigInt : field.1 ∉ ["amount", "secret", "recipient"])
    (isParsed : JSON.IsParsed field.2) :
    IsNote (JSON.assign fields field) := by
  have kept : ∀ name ∈ ["amount", "secret", "recipient"],
      (JSON.assign fields field).lookup name = fields.lookup name := by
    intro name member
    rw [lookup_assign, if_neg]
    rintro rfl
    exact notBigInt member
  constructor
  · exact isNote.own.assign field
  · rw [kept "amount" (by decide)]
    exact isNote.amount
  · rw [kept "secret" (by decide)]
    exact isNote.secret
  · rw [kept "recipient" (by decide)]
    exact isNote.recipient
  · intro other member otherName defined
    rcases JSON.mem_assign member with rfl | earlier
    · exact isParsed
    · exact isNote.others other earlier otherName defined

/-- A new note has finite numbers. -/
theorem isJson_of_mem_noteFields
    (note : Note)
    {field : String × Value}
    (member : field ∈ noteFields note)
    (notBigInt : field.1 ∉ ["amount", "secret", "recipient"])
    (defined : isDefined field = true) :
    JSON.IsJson field.2 := by
  simp only [noteFields, List.mem_cons, List.not_mem_nil, or_false] at member
  rcases member with rfl | rfl | rfl | rfl | rfl | rfl | rfl
  · trivial
  · exact absurd (by simp) notBigInt
  · exact absurd (by simp) notBigInt
  · exact absurd (by simp) notBigInt
  · cases leafIndex : note.leafIndex with
    | undefined => simp [leafIndexValue, leafIndex, isDefined] at defined
    | null => exact trivial
    | value index => exact JSON.isJson_ofInt index
  · trivial
  · cases timestamp : note.timestamp with
    | none => simp [optionalValue, timestamp, isDefined] at defined
    | some time => exact JSON.isJson_ofInt time

/-- A new note is a note. -/
theorem isNote_noteFields (note : Note) : IsNote (noteFields note) := by
  constructor
  · exact JSON.isOwn_of_names ["commitment", "amount", "secret", "recipient",
      "leafIndex", "spent", "timestamp"] rfl (by decide +kernel)
  · exact ⟨note.amount, rfl⟩
  · exact ⟨note.secret, rfl⟩
  · exact ⟨note.recipient, rfl⟩
  · intro field member notBigInt defined
    exact JSON.isParsed_of_isJson _
      (isJson_of_mem_noteFields note member notBigInt defined)

/-- The numbers in the properties of a note are finite, but for the properties
with some names. -/
def HasFiniteNumbers (others : List String) (note : Value) : Prop :=
  ∀ field ∈ ownFields note, field.1 ∉ others ->
    field.1 ∉ ["amount", "secret", "recipient"] -> JSON.IsJson field.2

/-- A note that is read from a text of the wallet. -/
structure IsSaved (note : Value) : Prop where
  isLoaded : IsLoaded note
  hasFiniteNumbers : HasFiniteNumbers [] note

theorem IsSaved.isNoteObject {note : Value} (isSaved : IsSaved note) :
    IsNoteObject note :=
  isSaved.isLoaded.isNoteObject

/-- A big integer of a note is one of its three. -/
theorem IsNote.lookup_bigInt
    {fields : List (String × Value)}
    (isNote : IsNote fields)
    {name : String}
    (isBigInt : name ∈ ["amount", "secret", "recipient"]) :
    ∃ value, fields.lookup name = some (.bigint value) := by
  simp only [List.mem_cons, List.not_mem_nil, or_false] at isBigInt
  rcases isBigInt with rfl | rfl | rfl
  · exact isNote.amount
  · exact isNote.secret
  · exact isNote.recipient

/-- What is read back for a note is one of the wallet. -/
theorem isSaved_readBack
    {note : Value}
    (isNote : IsNoteObject note) :
    IsSaved (readBack note) := by
  obtain ⟨fields, rfl, isNote⟩ := isNote
  have distinct := isNote.own.nodup
  obtain ⟨amount, hasAmount⟩ := isNote.amount
  obtain ⟨secret, hasSecret⟩ := isNote.secret
  obtain ⟨recipient, hasRecipient⟩ := isNote.recipient
  have finite : ∀ field ∈ ownFields (readBack (.object fields)),
      field.1 ∉ ["amount", "secret", "recipient"] -> JSON.IsJson field.2 := by
    intro field member notBigInt
    obtain ⟨original, isOriginal, rfl⟩ := List.mem_map.mp member
    have isParsed := isNote.others original (List.mem_of_mem_filter isOriginal)
      notBigInt (List.mem_filter.mp isOriginal).2
    rw [← jsonData_eq_storedValue isParsed]
    exact JSON.isJson_jsonData original.2
  refine ⟨⟨⟨?_, ?_, ?_, ?_, ?_⟩, rfl, ?_⟩, fun field member _ =>
    finite field member⟩
  · unfold JSON.IsOwn readBack ownFields
    rw [List.map_map]
    exact isNote.own.sublist List.filter_sublist
  · exact ⟨amount, lookup_readBack distinct hasAmount⟩
  · exact ⟨secret, lookup_readBack distinct hasSecret⟩
  · exact ⟨recipient, lookup_readBack distinct hasRecipient⟩
  · intro field member notBigInt _
    exact JSON.isParsed_of_isJson _ (finite field member notBigInt)
  · rw [List.filter_eq_self]
    intro field member
    by_cases isBigInt : field.1 ∈ ["amount", "secret", "recipient"]
    · obtain ⟨original, isOriginal, rfl⟩ := List.mem_map.mp member
      obtain ⟨value, found⟩ := isNote.lookup_bigInt isBigInt
      have held := lookup_of_mem distinct (List.mem_of_mem_filter isOriginal)
      rw [found, Option.some.injEq] at held
      rw [← held]
      rfl
    · exact isDefined_of_isData (finite field member isBigInt)

/-- With finite numbers a property is read back. -/
theorem IsLoaded.storedValue_propertyOf
    {note : Value}
    (isLoaded : IsLoaded note)
    {others : List String}
    (finite : HasFiniteNumbers others note)
    {name : String}
    (notOther : name ∉ others) :
    storedValue (propertyOf note name) = propertyOf note name := by
  rw [isLoaded.isObject]
  unfold propertyOf Value.property
  dsimp only
  by_cases isBigInt : name ∈ ["amount", "secret", "recipient"]
  · obtain ⟨value, found⟩ := isLoaded.isNote.lookup_bigInt isBigInt
    rw [found]
    rfl
  · cases found : (ownFields note).lookup name with
    | none => rfl
    | some value =>
        exact storedValue_of_isJson
          (finite (name, value) (mem_of_lookup found) notOther isBigInt)

/-- A note of the wallet is read back as itself. -/
theorem IsSaved.readBack_eq {note : Value} (isSaved : IsSaved note) :
    readBack note = note := by
  have isLoaded := isSaved.isLoaded
  have same : (ownFields note).map (fun field =>
      (field.1, storedValue field.2)) = ownFields note := by
    refine (List.map_congr_left fun field member => ?_).trans (List.map_id' _)
    have kept := isLoaded.storedValue_propertyOf isSaved.hasFiniteNumbers
      (List.not_mem_nil (a := field.1))
    have held := lookup_of_mem isLoaded.isNote.own.nodup member
    rw [isLoaded.isObject, propertyOf, Value.property] at kept
    rw [held] at kept
    exact Prod.ext rfl kept
  rw [readBack, isLoaded.defined, same]
  exact isLoaded.isObject.symm

/-- **Round trip.**  A saved list of notes is read back. -/
theorem deserializeNotes_serializeNotes
    {notes : List Value}
    (areNotes : ∀ note ∈ notes, IsNoteObject note) :
    deserializeNotes (serializeNotes notes) =
      .ok (notes.map readBack) := by
  rw [deserializeNotes, serializeNotes, JSON.parseText_stringifyReplaced,
    JSON.jsonData, elementData_eq_map]
  change (notes.map JSON.jsonData).mapM deserializeNote = _
  rw [mapM_eq_ok_iff, List.forall₂_map_left_iff, List.forall₂_map_right_iff,
    List.forall₂_same]
  intro note member
  obtain ⟨fields, rfl, isNote⟩ := areNotes note member
  exact deserializeNote_jsonData isNote

/-- A text that deserializes is loaded. -/
theorem loadNotes_of_deserializeNotes
    {text : String}
    {notes : List Value}
    (reads : deserializeNotes text = .ok notes) :
    loadNotes (.ok (some text)) = notes := by
  have notEmpty : text ≠ "" := by
    rintro rfl
    cases reads
  have read : (do
      match ← (.ok (some text) : Except Exception (Option String)) with
      | none => return []
      | some stored =>
          if stored = "" then return [] else deserializeNotes stored) =
      (.ok notes : Except Exception (List Value)) := by
    change (if text = "" then _ else deserializeNotes text) = _
    rw [if_neg notEmpty, reads]
  unfold loadNotes
  rw [read]

/-- What is loaded is empty, unless the item deserializes. -/
theorem loadNotes_eq_nil_or (read : Except Exception (Option String)) :
    loadNotes read = [] ∨
      ∃ text, deserializeNotes text = .ok (loadNotes read) := by
  cases read with
  | error error => exact .inl rfl
  | ok item =>
      cases item with
      | none => exact .inl rfl
      | some text =>
          by_cases empty : text = ""
          · subst empty
            exact .inl rfl
          cases reads : deserializeNotes text with
          | ok notes =>
              right
              rw [loadNotes_of_deserializeNotes reads]
              exact ⟨text, reads⟩
          | error error =>
              left
              unfold loadNotes
              change (match (if text = "" then _ else deserializeNotes text) with
                | .ok notes => notes
                | .error _ => []) = []
              rw [if_neg empty, reads]

/-- What a text deserializes to is a list of notes with all properties
defined. -/
theorem isLoaded_of_mem
    {text : String}
    {notes : List Value}
    (reads : deserializeNotes text = .ok notes)
    {note : Value}
    (member : note ∈ notes) :
    IsLoaded note := by
  obtain ⟨parsed, parses, converts⟩ := (bind_eq_ok_iff _ _ _).mp reads
  have isParsed := JSON.isParsed_of_parseText parses
  cases parsed with
  | array entries =>
      obtain ⟨entry, isEntry, convertsEntry⟩ := exists_related_of_mem
        ((mapM_eq_ok_iff _ _ _).mp converts).flip member
      exact isLoaded_of_deserializeNote
        ((JSON.areData_iff entries).mp isParsed entry isEntry) convertsEntry
  | _ => cases converts

/-- What is loaded is a list of notes with all properties defined. -/
theorem isLoaded_of_mem_loadNotes
    {read : Except Exception (Option String)}
    {note : Value}
    (member : note ∈ loadNotes read) :
    IsLoaded note := by
  rcases loadNotes_eq_nil_or read with empty | ⟨text, reads⟩
  · rw [empty] at member
    cases member
  · exact isLoaded_of_mem reads member

/-! ## What a call keeps -/

/-- The properties that a call sets on stored notes. -/
def marks : NoteCall -> List String
  | .addReceivedNotes _ => []
  | .markNotesSpent _ => ["spent"]
  | .updateNoteLeafIndex _ _ => ["leafIndex"]

/-- The note is still there, perhaps with other marks. -/
def KeepsNote (marks : List String) (before after : Value) : Prop :=
  ∀ name, name ∉ marks -> propertyOf after name = propertyOf before name

/-- Setting a property on some notes gives notes. -/
theorem IsNoteObject.set
    {note : Value}
    (isNote : IsNoteObject note)
    (field : String × Value)
    (notBigInt : field.1 ∉ ["amount", "secret", "recipient"])
    (isParsed : JSON.IsParsed field.2)
    (selected : Bool) :
    IsNoteObject
      (if selected then .object (JSON.assign (ownFields note) field)
        else note) := by
  cases selected with
  | false => exact isNote
  | true =>
      obtain ⟨fields, rfl, isNote⟩ := isNote
      exact ⟨_, rfl, isNote.assign notBigInt isParsed⟩

/-- Setting a property on some notes keeps the others. -/
theorem propertyOf_set
    {note : Value}
    (isNote : IsNoteObject note)
    (field : String × Value)
    (selected : Bool)
    (name : String) :
    propertyOf
        (if selected then .object (JSON.assign (ownFields note) field) else note)
        name =
      if selected = true ∧ name = field.1 then field.2
      else propertyOf note name := by
  cases selected with
  | false => simp
  | true =>
      obtain ⟨fields, rfl, _⟩ := isNote
      rw [if_pos rfl, ownFields, propertyOf_assign]
      by_cases same : name = field.1
      · simp [same]
      · simp [same]

theorem IsNoteObject.markSpent
    {note : Value}
    (isNote : IsNoteObject note)
    (commitments : List String) :
    IsNoteObject (markSpent commitments note) :=
  isNote.set ("spent", .boolean true) (by simp) trivial _

theorem IsNoteObject.setLeafIndex
    {note : Value}
    (isNote : IsNoteObject note)
    (commitment : String)
    (leafIndex : Int) :
    IsNoteObject (setLeafIndex commitment leafIndex note) :=
  isNote.set ("leafIndex", .ofInt leafIndex) (by simp)
    (JSON.isParsed_of_isJson _ (JSON.isJson_ofInt leafIndex)) _

/-- Marking sets `spent` only. -/
theorem propertyOf_markSpent
    {note : Value}
    (isNote : IsNoteObject note)
    (commitments : List String)
    {name : String}
    (otherName : name ≠ "spent") :
    propertyOf (markSpent commitments note) name = propertyOf note name :=
  (propertyOf_set isNote ("spent", .boolean true) _ name).trans
    (if_neg fun same => otherName same.2)

/-- Setting the leaf index sets `leafIndex` only. -/
theorem propertyOf_setLeafIndex
    {note : Value}
    (isNote : IsNoteObject note)
    (commitment : String)
    (leafIndex : Int)
    {name : String}
    (otherName : name ≠ "leafIndex") :
    propertyOf (setLeafIndex commitment leafIndex note) name =
      propertyOf note name :=
  (propertyOf_set isNote ("leafIndex", .ofInt leafIndex) _ name).trans
    (if_neg fun same => otherName same.2)

/-- Every call saves notes. -/
theorem isNoteObject_of_mem_changed
    {notes : List Value}
    (areNotes : ∀ note ∈ notes, IsNoteObject note)
    (call : NoteCall)
    {note : Value}
    (member : note ∈ changed notes call) :
    IsNoteObject note := by
  cases call with
  | addReceivedNotes newNotes =>
      rcases List.mem_append.mp member with earlier | added
      · exact areNotes note earlier
      · obtain ⟨new, _, rfl⟩ := List.mem_map.mp added
        exact ⟨_, rfl, isNote_noteFields new⟩
  | markNotesSpent commitments =>
      obtain ⟨earlier, isEarlier, rfl⟩ := List.mem_map.mp member
      exact (areNotes earlier isEarlier).markSpent commitments
  | updateNoteLeafIndex commitment leafIndex =>
      obtain ⟨earlier, isEarlier, rfl⟩ := List.mem_map.mp member
      exact (areNotes earlier isEarlier).setLeafIndex commitment leafIndex

/-- Among the notes that are read back after a call are all loaded ones, in their
order. -/
theorem exists_kept
    {notes : List Value}
    (call : NoteCall)
    (areLoaded : ∀ note ∈ notes, IsLoaded note)
    (finite : ∀ note ∈ notes, HasFiniteNumbers (marks call) note) :
    ∃ kept, kept.Sublist ((changed notes call).map readBack) ∧
      List.Forall₂ (KeepsNote (marks call)) notes kept := by
  have keepsAll : ∀ (change : Value -> Value),
      (∀ note ∈ notes, IsNoteObject (change note) ∧
        ∀ name ∉ marks call,
          propertyOf (change note) name = propertyOf note name) ->
      List.Forall₂ (KeepsNote (marks call)) notes
        ((notes.map change).map readBack) := by
    intro change keeps
    rw [List.map_map, List.forall₂_map_right_iff, List.forall₂_same]
    intro note member name notMarked
    obtain ⟨isNote, same⟩ := keeps note member
    rw [Function.comp_apply, propertyOf_readBack isNote, same name notMarked]
    exact (areLoaded note member).storedValue_propertyOf (finite note member)
      notMarked
  cases call with
  | addReceivedNotes newNotes =>
      refine ⟨(notes.map id).map readBack, ?_, keepsAll id ?_⟩
      · rw [List.map_id, changed, List.map_append]
        exact List.sublist_append_left _ _
      · intro note member
        exact ⟨(areLoaded note member).isNoteObject, fun _ _ => rfl⟩
  | markNotesSpent commitments =>
      refine ⟨_, List.Sublist.refl _, keepsAll (markSpent commitments) ?_⟩
      intro note member
      have isNote := (areLoaded note member).isNoteObject
      exact ⟨isNote.markSpent commitments, fun name notMarked =>
        propertyOf_markSpent isNote commitments
          (List.ne_of_not_mem_cons notMarked)⟩
  | updateNoteLeafIndex commitment leafIndex =>
      refine ⟨_, List.Sublist.refl _,
        keepsAll (setLeafIndex commitment leafIndex) ?_⟩
      intro note member
      have isNote := (areLoaded note member).isNoteObject
      exact ⟨isNote.setLeafIndex commitment leafIndex, fun name notMarked =>
        propertyOf_setLeafIndex isNote commitment leafIndex
          (List.ne_of_not_mem_cons notMarked)⟩

/-- A note that is kept in a text of the wallet has finite numbers. -/
theorem KeepsNote.hasFiniteNumbers
    {marks : List String}
    {before after : Value}
    (keeps : KeepsNote marks before after)
    (isLoaded : IsLoaded before)
    (isSaved : IsSaved after) :
    HasFiniteNumbers marks before := by
  rintro ⟨name, value⟩ member notMarked notBigInt
  have kept := keeps name notMarked
  rw [isLoaded.isObject, isSaved.isLoaded.isObject] at kept
  unfold propertyOf Value.property at kept
  dsimp only at kept
  rw [lookup_of_mem isLoaded.isNote.own.nodup member] at kept
  cases found : (ownFields after).lookup name with
  | none =>
      -- only an undefined property could be missing
      rw [found] at kept
      have defined := isLoaded.defined ▸ member
      rw [← (show Value.undefined = value from kept)] at defined
      cases (List.mem_filter.mp defined).2
  | some held =>
      rw [found] at kept
      rw [← (show held = value from kept)]
      exact isSaved.hasFiniteNumbers (name, held) (mem_of_lookup found)
        List.not_mem_nil notBigInt

/-! ## Texts that cannot be deserialized -/

/-- The notes of a text that can be read, entry by entry. -/
def readableNotes (text : String) : List Value :=
  match JSON.parseText text with
  | .ok (.array entries) =>
      entries.filterMap fun entry => (deserializeNote entry).toOption
  | _ => []

/-- A call never loses notes: it leaves the text or writes a list with every
readable note, and it leaves a text that cannot be deserialized. -/
structure NeverLoses
    (access : Access)
    (call : NoteCall)
    (text : String) : Prop where
  keeps : itemAfter (perform access call) (some text) = some text ∨
    ∃ written kept,
      itemAfter (perform access call) (some text) = some written ∧
      kept.Sublist (readableNotes written) ∧
      List.Forall₂ (KeepsNote (marks call)) (readableNotes text) kept
  neverOverwritten : (∀ notes, deserializeNotes text ≠ .ok notes) ->
    itemAfter (perform access call) (some text) = some text

/-- All notes of a text that deserializes are readable. -/
theorem readableNotes_of_deserializeNotes
    {text : String}
    {notes : List Value}
    (reads : deserializeNotes text = .ok notes) :
    readableNotes text = notes := by
  obtain ⟨parsed, isParsed, converts⟩ := (bind_eq_ok_iff _ _ _).mp reads
  unfold readableNotes
  rw [isParsed]
  cases parsed with
  | array entries => exact filterMap_of_mapM converts
  | _ => cases converts

/-- **Texts of the wallet.**  What a call saves deserializes. -/
theorem deserializeNotes_saved
    (read : Except Exception (Option String))
    (call : NoteCall) :
    deserializeNotes (serializeNotes (changed (loadNotes read) call)) =
      .ok ((changed (loadNotes read) call).map readBack) :=
  deserializeNotes_serializeNotes fun _ member =>
    isNoteObject_of_mem_changed
      (fun _ loaded => (isLoaded_of_mem_loadNotes loaded).isNoteObject) call
      member

/-- A refused write changes nothing. -/
theorem neverLoses_of_refused
    (refusal : Exception)
    (call : NoteCall)
    (text : String) :
    NeverLoses { setItem := some refusal } call text := by
  have unchanged :
      itemAfter (perform { setItem := some refusal } call) (some text) =
        some text := by
    rw [perform_eq_rewriteItem]
    exact itemAfter_rewriteItem_of_refused _ _ _ (Option.some_ne_none refusal)
  exact ⟨.inl unchanged, fun _ => unchanged⟩

/-- What a call has saved are notes of the wallet. -/
theorem isSaved_of_mem_saved
    {read : Except Exception (Option String)}
    {call : NoteCall}
    {notes : List Value}
    (reads : deserializeNotes
      (serializeNotes (changed (loadNotes read) call)) = .ok notes)
    {note : Value}
    (member : note ∈ notes) :
    IsSaved note := by
  rw [deserializeNotes_saved, Except.ok.injEq] at reads
  rw [← reads] at member
  obtain ⟨saved, isSaved, rfl⟩ := List.mem_map.mp member
  exact isSaved_readBack (isNoteObject_of_mem_changed
    (fun _ loaded => (isLoaded_of_mem_loadNotes loaded).isNoteObject) call
    isSaved)

/-- A call on a text that deserializes to notes with finite numbers keeps
them. -/
theorem neverLoses_of_deserializeNotes
    {text : String}
    {notes : List Value}
    (reads : deserializeNotes text = .ok notes)
    (call : NoteCall)
    (finite : ∀ note ∈ notes, HasFiniteNumbers (marks call) note) :
    NeverLoses {} call text := by
  have written := itemAfter_perform call (some text)
  have saved := deserializeNotes_saved (.ok (some text)) call
  rw [loadNotes_of_deserializeNotes reads] at written saved
  obtain ⟨kept, sublist, keeps⟩ := exists_kept call
    (fun _ loaded => isLoaded_of_mem reads loaded) finite
  refine ⟨.inr ⟨_, kept, written, ?_, ?_⟩, fun unreadable =>
    absurd reads (unreadable notes)⟩
  · rw [readableNotes_of_deserializeNotes saved]
    exact sublist
  · rw [readableNotes_of_deserializeNotes reads]
    exact keeps

/-- A text that is never lost deserializes. -/
theorem NeverLoses.deserializes
    {call : NoteCall}
    {text : String}
    (never : NeverLoses {} call text) :
    ∃ notes, deserializeNotes text = .ok notes := by
  by_contra none
  -- the call saves a text that deserializes, which is another one
  have unchanged := never.neverOverwritten fun notes reads => none ⟨notes, reads⟩
  rw [itemAfter_perform, Option.some.injEq] at unchanged
  apply none
  rw [← unchanged]
  exact ⟨_, deserializeNotes_saved _ call⟩

/-- The notes of a text that is never lost have finite numbers. -/
theorem NeverLoses.hasFiniteNumbers
    {call : NoteCall}
    {text : String}
    (never : NeverLoses {} call text)
    {notes : List Value}
    (reads : deserializeNotes text = .ok notes)
    {note : Value}
    (member : note ∈ notes) :
    HasFiniteNumbers (marks call) note := by
  rcases never.keeps with unchanged | ⟨written, kept, isWritten, sublist, keeps⟩
  · rw [itemAfter_perform, Option.some.injEq] at unchanged
    rw [← unchanged] at reads
    intro field isField _ notBigInt
    exact (isSaved_of_mem_saved reads member).hasFiniteNumbers field isField
      List.not_mem_nil notBigInt
  · rw [itemAfter_perform, Option.some.injEq] at isWritten
    rw [← isWritten,
      readableNotes_of_deserializeNotes (deserializeNotes_saved _ call)] at sublist
    rw [readableNotes_of_deserializeNotes reads] at keeps
    obtain ⟨after, isKept, keepsNote⟩ := exists_related_of_mem keeps member
    exact keepsNote.hasFiniteNumbers (isLoaded_of_mem reads member)
      (isSaved_of_mem_saved (deserializeNotes_saved _ call) (sublist.subset isKept))

/-- A stored list with a note that reads and an entry whose amount `BigInt`
rejects. -/
def oneBadEntry : String :=
  "[\x7b\"amount\":\"5\",\"secret\":\"7\",\"recipient\":\"9\"\x7d," ++
    "\x7b\"amount\":\"1.5\"\x7d]"

/-- A loaded value has the properties of the note. -/
structure Matches (value : Value) (note : Note) : Prop where
  isLoaded : IsLoaded value
  properties : ∀ name,
    propertyOf value name = propertyOf (.object (noteFields note)) name

/-- The text loads as the notes of the storage. -/
def Represents (item : Option String) (storage : LocalStorage) : Prop :=
  List.Forall₂ Matches (loadNotes (.ok item)) (Client.loadNotes storage)

/-- A loaded value of a note has its finite numbers. -/
theorem Matches.isSaved
    {value : Value}
    {note : Note}
    (matched : Matches value note) :
    IsSaved value := by
  have isLoaded := matched.isLoaded
  refine ⟨isLoaded, ?_⟩
  rintro ⟨name, held⟩ member - notBigInt
  have property := matched.properties name
  rw [isLoaded.isObject] at property
  unfold propertyOf Value.property at property
  dsimp only at property
  rw [lookup_of_mem isLoaded.isNote.own.nodup member] at property
  have defined := (List.mem_filter.mp (isLoaded.defined ▸ member)).2
  cases found : (noteFields note).lookup name with
  | none =>
      rw [found] at property
      rw [show held = .undefined from property] at defined
      cases defined
  | some other =>
      rw [found] at property
      obtain rfl : held = other := property
      exact isJson_of_mem_noteFields note (mem_of_lookup found) notBigInt defined

/-- A new note is read back as itself. -/
theorem matches_noteFields (note : Note) :
    Matches (readBack (.object (noteFields note))) note := by
  have isNote : IsNoteObject (.object (noteFields note)) :=
    ⟨_, rfl, isNote_noteFields note⟩
  refine ⟨(isSaved_readBack isNote).isLoaded, fun name => ?_⟩
  rw [propertyOf_readBack isNote]
  unfold propertyOf Value.property
  dsimp only
  by_cases isBigInt : name ∈ ["amount", "secret", "recipient"]
  · obtain ⟨value, found⟩ := (isNote_noteFields note).lookup_bigInt isBigInt
    rw [found]
    rfl
  · cases found : (noteFields note).lookup name with
    | none => rfl
    | some value =>
        by_cases defined : isDefined (name, value) = true
        · exact storedValue_of_isJson
            (isJson_of_mem_noteFields note (mem_of_lookup found) isBigInt defined)
        · cases value with
          | undefined => rfl
          | _ => exact absurd rfl defined

/-- The commitment of a note is its text. -/
theorem Matches.isText_commitment
    {value : Value}
    {note : Note}
    (matched : Matches value note)
    (commitment : String) :
    isText (propertyOf value "commitment") commitment = true ↔
      note.commitment = commitment := by
  have property : propertyOf value "commitment" = .string note.commitment :=
    matched.properties "commitment"
  rw [property, isText, beq_iff_eq]

/-- Setting a property of a value sets it in its note. -/
theorem Matches.set
    {value : Value}
    {note changed : Note}
    (matched : Matches value note)
    (field : String × Value)
    (notBigInt : field.1 ∉ ["amount", "secret", "recipient"])
    (isJson : JSON.IsJson field.2)
    {selected : Bool}
    (fields : noteFields changed =
      if selected then JSON.assign (noteFields note) field
      else noteFields note) :
    Matches
      (readBack
        (if selected then .object (JSON.assign (ownFields value) field)
          else value))
      changed := by
  have isNote := matched.isLoaded.isNoteObject
  have isSet := isNote.set field notBigInt (JSON.isParsed_of_isJson _ isJson)
    selected
  refine ⟨(isSaved_readBack isSet).isLoaded, fun name => ?_⟩
  have kept := matched.isLoaded.storedValue_propertyOf
    matched.isSaved.hasFiniteNumbers (List.not_mem_nil (a := name))
  rw [propertyOf_readBack isSet, propertyOf_set isNote, fields]
  cases selected with
  | false =>
      rw [if_neg (by simp), kept, matched.properties name]
      rfl
  | true =>
      rw [if_pos rfl, propertyOf_assign, ← matched.properties name]
      by_cases same : name = field.1
      · rw [if_pos ⟨rfl, same⟩, if_pos same]
        exact storedValue_of_isJson isJson
      · rw [if_neg fun both => same both.2, if_neg same]
        exact kept

/-- Marking a note as spent. -/
theorem Matches.markSpent
    {value : Value}
    {note : Note}
    (matched : Matches value note)
    (commitments : List String) :
    Matches (readBack (markSpent commitments value))
      (Client.markSpent commitments note) := by
  have spent : propertyOf value "spent" = .boolean note.spent :=
    matched.properties "spent"
  have selected : (isOneOf commitments (propertyOf value "commitment") &&
      !(propertyOf value "spent").truthy) = true ↔
        note.commitment ∈ commitments ∧ note.spent = false := by
    rw [Bool.and_eq_true, isOneOf, List.any_eq_true, spent]
    simp only [matched.isText_commitment]
    simp [Value.truthy]
  refine matched.set ("spent", .boolean true) (by simp) trivial ?_
  rw [Client.markSpent]
  by_cases isMarked : note.commitment ∈ commitments ∧ note.spent = false
  · rw [if_pos isMarked, if_pos (selected.mpr isMarked)]
    simp [noteFields, JSON.assign]
  · rw [if_neg isMarked, if_neg (mt selected.mp isMarked)]

/-- Setting the leaf index of a note. -/
theorem Matches.setLeafIndex
    {value : Value}
    {note : Note}
    (matched : Matches value note)
    (commitment : String)
    (leafIndex : Int) :
    Matches (readBack (setLeafIndex commitment leafIndex value))
      (Client.setLeafIndex commitment leafIndex note) := by
  have selected := matched.isText_commitment commitment
  refine matched.set ("leafIndex", .ofInt leafIndex) (by simp)
    (JSON.isJson_ofInt leafIndex) ?_
  rw [Client.setLeafIndex]
  by_cases isSelected : note.commitment = commitment
  · rw [if_pos isSelected, if_pos (selected.mpr isSelected)]
    simp [noteFields, JSON.assign, leafIndexValue]
  · rw [if_neg isSelected, if_neg (mt selected.mp isSelected)]

/-- **Simulation.**  A call on the text does what the call on the storage does. -/
theorem Represents.perform
    {item : Option String}
    {storage : LocalStorage}
    (represents : Represents item storage)
    (call : NoteCall) :
    Represents (itemAfter (perform {} call) item) (call.apply storage) := by
  unfold Represents
  rw [itemAfter_perform,
    loadNotes_of_deserializeNotes (deserializeNotes_saved (.ok item) call)]
  cases call with
  | addReceivedNotes newNotes =>
      rw [NoteCall.apply, loadNotes_addReceivedNotes, changed, List.map_append]
      apply List.rel_append
      · rw [List.forall₂_map_left_iff]
        exact represents.imp fun _ _ matched => by
          rwa [matched.isSaved.readBack_eq]
      · rw [List.map_map, List.forall₂_map_left_iff, List.forall₂_same]
        intro note _
        exact matches_noteFields note
  | markNotesSpent commitments =>
      rw [NoteCall.apply, loadNotes_markNotesSpent, changed, List.map_map,
        List.forall₂_map_left_iff, List.forall₂_map_right_iff]
      exact represents.imp fun _ _ matched => matched.markSpent commitments
  | updateNoteLeafIndex commitment leafIndex =>
      rw [NoteCall.apply, loadNotes_updateNoteLeafIndex, changed, List.map_map,
        List.forall₂_map_left_iff, List.forall₂_map_right_iff]
      exact represents.imp fun _ _ matched =>
        matched.setLeafIndex commitment leafIndex

/-- The item after a list of calls, which starts without one. -/
def itemAfterCalls (calls : List NoteCall) : Option String :=
  run (fun item call => itemAfter (perform {} call) item) none calls

/-- **Run.**  The text of a wallet is the text of its notes. -/
theorem represents_itemAfterCalls (calls : List NoteCall) :
    Represents (itemAfterCalls calls) (walletAfter calls) := by
  have initially : Represents none emptyStorage := List.Forall₂.nil
  refine run_simulation ?_ initially calls
  intro item storage call represents
  exact represents.perform call

/-- **Run.**  The texts that the calls write never lose notes. -/
theorem neverLoses_itemAfterCalls
    (calls : List NoteCall)
    {text : String}
    (written : itemAfterCalls calls = some text)
    (call : NoteCall) :
    NeverLoses {} call text := by
  rcases calls.eq_nil_or_concat with rfl | ⟨earlier, last, rfl⟩
  · cases written
  · rw [itemAfterCalls, List.concat_eq_append, run_append, run_cons, run_nil,
      itemAfter_perform, Option.some.injEq] at written
    rw [← written]
    refine neverLoses_of_deserializeNotes (deserializeNotes_saved _ last) call ?_
    intro note member field isField _ notBigInt
    exact (isSaved_of_mem_saved (deserializeNotes_saved _ last)
      member).hasFiniteNumbers field isField List.not_mem_nil notBigInt

end NoteTexts
end Client
end Privachain

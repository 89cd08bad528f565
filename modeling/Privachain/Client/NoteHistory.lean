import Privachain.Client.NoteTexts

/-!
# The history of the stored notes

A wallet that starts without an item only grows.  Every call writes the whole
list again, or leaves the item when the storage refuses the write; in both cases
the stored notes keep their positions and all that identifies them.
-/

namespace Privachain
namespace Client
namespace NoteTexts

open Foundation
open Foundation.JavaScript
open Foundation.StoredItem

/-! ## Attempted calls -/

/-- A call, with the exception of its `setItem` when that throws. -/
structure Attempt where
  call : NoteCall
  refusal : Option Exception := none

/-- The item after an attempted call. -/
def Attempt.apply (item : Option String) (attempt : Attempt) : Option String :=
  itemAfter (perform { setItem := attempt.refusal } attempt.call) item

/-- The item after a list of attempted calls, which starts without one. -/
def itemAfterAttempts (attempts : List Attempt) : Option String :=
  run Attempt.apply none attempts

/-- The notes of an item. -/
def storedNotes (item : Option String) : List Value :=
  loadNotes (.ok item)

/-! ## What lasts -/

/-- The properties of a note that no call changes. -/
def lastingNames : List String :=
  ["commitment", "amount", "secret", "recipient", "timestamp"]

/-- The later note is the earlier one, perhaps with another leaf index or spent
since. -/
structure Lasts (earlier later : Value) : Prop where
  properties : ∀ name ∈ lastingNames,
    propertyOf later name = propertyOf earlier name
  spent : propertyOf earlier "spent" = .boolean true ->
    propertyOf later "spent" = .boolean true

/-- Every note of the earlier list is at the same position of the later one. -/
def Extends (earlier later : List Value) : Prop :=
  ∀ (position : Nat) (note : Value), earlier[position]? = some note ->
    ∃ lasting, later[position]? = some lasting ∧ Lasts note lasting

/-- One property is set when the note is selected, and nothing else changes. -/
def SetsOnly
    (field : String × Value)
    (selected : Bool)
    (before after : Value) : Prop :=
  if selected then
    KeepsNote [field.1] before after ∧ propertyOf after field.1 = field.2
  else after = before

/-- How a call that writes changes the stored notes. -/
def Effect (before after : List Value) : NoteCall -> Prop
  | .addReceivedNotes newNotes =>
      ∃ added, after = before ++ added ∧ List.Forall₂ Matches added newNotes
  | .markNotesSpent commitments =>
      List.Forall₂ (fun note marked =>
        SetsOnly ("spent", .boolean true)
          (isOneOf commitments (propertyOf note "commitment") &&
            !(propertyOf note "spent").truthy) note marked) before after
  | .updateNoteLeafIndex commitment leafIndex =>
      List.Forall₂ (fun note updated =>
        SetsOnly ("leafIndex", .ofInt leafIndex)
          (isText (propertyOf note "commitment") commitment) note updated)
        before after

theorem Lasts.refl (note : Value) : Lasts note note :=
  ⟨fun _ _ => rfl, id⟩

theorem Lasts.trans
    {first second third : Value}
    (earlier : Lasts first second)
    (later : Lasts second third) :
    Lasts first third :=
  ⟨fun name member =>
      (later.properties name member).trans (earlier.properties name member),
    fun spent => later.spent (earlier.spent spent)⟩

theorem Extends.refl (notes : List Value) : Extends notes notes :=
  fun _ note isNote => ⟨note, isNote, Lasts.refl note⟩

theorem Extends.trans
    {first second third : List Value}
    (earlier : Extends first second)
    (later : Extends second third) :
    Extends first third := by
  intro position note isNote
  obtain ⟨middle, isMiddle, lasts⟩ := earlier position note isNote
  obtain ⟨lasting, isLasting, lastsLater⟩ := later position middle isMiddle
  exact ⟨lasting, isLasting, lasts.trans lastsLater⟩

/-- Notes that last one by one extend the list. -/
theorem extends_of_forall₂
    {earlier later : List Value}
    (lasts : List.Forall₂ Lasts earlier later) :
    Extends earlier later := by
  intro position note isNote
  have bound : position < earlier.length :=
    (List.getElem?_eq_some_iff.mp isNote).1
  have laterBound : position < later.length := lasts.length_eq ▸ bound
  refine ⟨later[position], List.getElem?_eq_getElem laterBound, ?_⟩
  rw [List.getElem?_eq_getElem bound, Option.some.injEq] at isNote
  rw [← isNote]
  exact lasts.get bound laterBound

/-! ## One call -/

/-- The notes that a call saves, as they are read back. -/
theorem storedNotes_itemAfter
    {access : Access}
    (granted : access.setItem = none)
    (item : Option String)
    (call : NoteCall) :
    storedNotes (itemAfter (perform access call) item) =
      (changed (loadNotes (access.read item)) call).map readBack := by
  rw [storedNotes, perform_eq_rewriteItem,
    itemAfter_rewriteItem_of_granted _ _ _ granted rfl]
  exact loadNotes_of_deserializeNotes (deserializeNotes_saved _ call)

/-- All stored notes are written as they are. -/
def IsOfWallet (item : Option String) : Prop :=
  ∀ note ∈ storedNotes item, IsSaved note

/-- What a call saves are notes of the wallet. -/
theorem isOfWallet_itemAfter
    {access : Access}
    (granted : access.setItem = none)
    (item : Option String)
    (call : NoteCall) :
    IsOfWallet (itemAfter (perform access call) item) := by
  unfold IsOfWallet
  rw [storedNotes_itemAfter granted, List.forall_mem_map]
  intro note member
  exact isSaved_readBack (isNoteObject_of_mem_changed
    (fun _ loaded => (isLoaded_of_mem_loadNotes loaded).isNoteObject) call member)

/-- Setting a property of a stored note sets that property only. -/
theorem setsOnly_set
    {note : Value}
    (isSaved : IsSaved note)
    (field : String × Value)
    (notBigInt : field.1 ∉ ["amount", "secret", "recipient"])
    (isJson : JSON.IsJson field.2)
    (selected : Bool) :
    SetsOnly field selected note
      (readBack
        (if selected then .object (JSON.assign (ownFields note) field)
          else note)) := by
  have isNote := isSaved.isNoteObject
  have isSet := isNote.set field notBigInt (JSON.isParsed_of_isJson _ isJson)
    selected
  have properties := propertyOf_set isNote field selected
  cases selected with
  | false => exact isSaved.readBack_eq
  | true =>
      constructor
      · intro name otherName
        rw [propertyOf_readBack isSet, properties,
          if_neg fun same => List.ne_of_not_mem_cons otherName same.2]
        exact isSaved.isLoaded.storedValue_propertyOf isSaved.hasFiniteNumbers
          List.not_mem_nil
      · rw [propertyOf_readBack isSet, properties, if_pos ⟨rfl, rfl⟩]
        exact storedValue_of_isJson isJson

/-- A call that writes has its effect. -/
theorem effect_itemAfter
    {access : Access}
    (granted : access.setItem = none)
    {item : Option String}
    (areSaved : ∀ note ∈ loadNotes (access.read item), IsSaved note)
    (call : NoteCall) :
    Effect (loadNotes (access.read item))
      (storedNotes (itemAfter (perform access call) item)) call := by
  rw [storedNotes_itemAfter granted]
  cases call with
  | addReceivedNotes newNotes =>
      refine ⟨(newNotes.map fun note => .object (noteFields note)).map
        readBack, ?_, ?_⟩
      · rw [changed, List.map_append, List.map_congr_left fun note member =>
          (areSaved note member).readBack_eq, List.map_id']
      · rw [List.map_map, List.forall₂_map_left_iff, List.forall₂_same]
        exact fun note _ => matches_noteFields note
  | markNotesSpent commitments =>
      rw [Effect, changed, List.map_map, List.forall₂_map_right_iff,
        List.forall₂_same]
      exact fun note member => setsOnly_set (areSaved note member)
        ("spent", .boolean true) (by simp) trivial _
  | updateNoteLeafIndex commitment leafIndex =>
      rw [Effect, changed, List.map_map, List.forall₂_map_right_iff,
        List.forall₂_same]
      exact fun note member => setsOnly_set (areSaved note member)
        ("leafIndex", .ofInt leafIndex) (by simp) (JSON.isJson_ofInt leafIndex) _

/-- Other properties than the one that is set are kept. -/
theorem SetsOnly.kept
    {field : String × Value}
    {selected : Bool}
    {before after : Value}
    (sets : SetsOnly field selected before after)
    {name : String}
    (otherName : name ≠ field.1) :
    propertyOf after name = propertyOf before name := by
  cases selected with
  | false =>
      obtain rfl : after = before := sets
      rfl
  | true => exact sets.1 name (mt List.mem_singleton.mp otherName)

/-- `spent` is what it was or what it is set to. -/
theorem SetsOnly.spent
    {field : String × Value}
    {selected : Bool}
    {before after : Value}
    (sets : SetsOnly field selected before after) :
    propertyOf after "spent" = propertyOf before "spent" ∨
      field.1 = "spent" ∧ propertyOf after "spent" = field.2 := by
  cases selected with
  | false =>
      obtain rfl : after = before := sets
      exact .inl rfl
  | true =>
      by_cases same : "spent" = field.1
      · right
        exact ⟨same.symm, by rw [same, sets.2]⟩
      · exact .inl (sets.kept same)

/-- A note lasts when no property that identifies it is set, and `spent` only to
`true`. -/
theorem SetsOnly.lasts
    {field : String × Value}
    {selected : Bool}
    {before after : Value}
    (sets : SetsOnly field selected before after)
    (notLasting : field.1 ∉ lastingNames)
    (setsSpent : field.1 = "spent" -> field.2 = .boolean true) :
    Lasts before after := by
  constructor
  · intro name member
    exact sets.kept (ne_of_mem_of_not_mem member notLasting)
  · intro spent
    rcases sets.spent with same | ⟨isSpent, isSet⟩
    · rw [same, spent]
    · rw [isSet, setsSpent isSpent]

/-- Every effect extends the list. -/
theorem Effect.extends
    {before after : List Value}
    {call : NoteCall}
    (effect : Effect before after call) :
    Extends before after := by
  cases call with
  | addReceivedNotes newNotes =>
      obtain ⟨added, rfl, _⟩ := effect
      intro position note isNote
      refine ⟨note, ?_, Lasts.refl note⟩
      rw [List.getElem?_append_left (List.getElem?_eq_some_iff.mp isNote).1]
      exact isNote
  | markNotesSpent commitments =>
      exact extends_of_forall₂ (List.Forall₂.imp (fun _ _ sets =>
        sets.lasts (by simp [lastingNames]) fun _ => rfl) effect)
  | updateNoteLeafIndex commitment leafIndex =>
      exact extends_of_forall₂ (List.Forall₂.imp (fun _ _ sets =>
        sets.lasts (by simp [lastingNames]) (by simp)) effect)

/-- **Step.**  An attempted call keeps the notes those of the wallet, and extends
them. -/
theorem extends_apply
    {item : Option String}
    (isOfWallet : IsOfWallet item)
    (attempt : Attempt) :
    IsOfWallet (attempt.apply item) ∧
      Extends (storedNotes item) (storedNotes (attempt.apply item)) := by
  obtain ⟨call, refusal⟩ := attempt
  cases refusal with
  | some refusal =>
      rw [Attempt.apply, perform_eq_rewriteItem,
        itemAfter_rewriteItem_of_refused _ _ _ (Option.some_ne_none refusal)]
      exact ⟨isOfWallet, Extends.refl _⟩
  | none =>
      have effect := @effect_itemAfter {} rfl item isOfWallet call
      exact ⟨isOfWallet_itemAfter rfl item call, effect.extends⟩

/-! ## Runs -/

/-- **Run.**  The stored notes are those of the wallet. -/
theorem isOfWallet_itemAfterAttempts (attempts : List Attempt) :
    IsOfWallet (itemAfterAttempts attempts) :=
  run_invariant_of_preserved IsOfWallet
    (fun _ attempt isOfWallet => (extends_apply isOfWallet attempt).1)
    (fun _ member => absurd member List.not_mem_nil) attempts

/-- **Run.**  Further attempts extend the stored notes. -/
theorem extends_itemAfterAttempts (earlier later : List Attempt) :
    Extends (storedNotes (itemAfterAttempts earlier))
      (storedNotes (itemAfterAttempts (earlier ++ later))) := by
  -- the relation carries the invariant that the step lemma needs
  have related := @run_related _ _ Attempt.apply
    (fun before after => IsOfWallet before ->
      IsOfWallet after ∧ Extends (storedNotes before) (storedNotes after))
    (fun _ isOfWallet => ⟨isOfWallet, Extends.refl _⟩)
    (fun first second isOfWallet =>
      have middle := first isOfWallet
      have last := second middle.1
      ⟨last.1, middle.2.trans last.2⟩)
    (fun _ attempt isOfWallet => extends_apply isOfWallet attempt)
    (itemAfterAttempts earlier) later
  rw [itemAfterAttempts, itemAfterAttempts, run_append]
  exact (related (isOfWallet_itemAfterAttempts earlier)).2

/-- **Run.**  What the attempts leave deserializes. -/
theorem deserializes_itemAfterAttempts
    (attempts : List Attempt)
    {text : String}
    (stored : itemAfterAttempts attempts = some text) :
    deserializeNotes text = .ok (storedNotes (some text)) := by
  have readable : ∀ item attempt,
      (∀ text, item = some text -> ∃ notes, deserializeNotes text = .ok notes) ->
      ∀ text, Attempt.apply item attempt = some text ->
        ∃ notes, deserializeNotes text = .ok notes := by
    rintro item ⟨call, refusal⟩ earlier text after
    cases refusal with
    | some refusal =>
        rw [Attempt.apply, perform_eq_rewriteItem,
          itemAfter_rewriteItem_of_refused _ _ _ (Option.some_ne_none refusal)]
          at after
        exact earlier text after
    | none =>
        rw [Attempt.apply, itemAfter_perform, Option.some.injEq] at after
        rw [← after]
        exact ⟨_, deserializeNotes_saved _ call⟩
  obtain ⟨notes, reads⟩ := run_invariant_of_preserved
    (fun item => ∀ text, item = some text ->
      ∃ notes, deserializeNotes text = .ok notes)
    readable (by simp) attempts text stored
  rw [storedNotes, loadNotes_of_deserializeNotes reads, reads]

/-- The wallet after every list of attempts: what is stored reads as the stored
notes, these are extended by all later attempts, and one attempt has the effect
of its call or none. -/
structure AppendOnly (earlier : List Attempt) : Prop where
  readable : ∀ text, itemAfterAttempts earlier = some text ->
    deserializeNotes text = .ok (storedNotes (some text))
  lasting : ∀ later,
    Extends (storedNotes (itemAfterAttempts earlier))
      (storedNotes (itemAfterAttempts (earlier ++ later)))
  granted : ∀ call,
    reportsFailure (perform {} call) (itemAfterAttempts earlier) = false ∧
      Effect (storedNotes (itemAfterAttempts earlier))
        (storedNotes (itemAfterAttempts (earlier ++ [{ call := call }]))) call
  refused : ∀ call refusal,
    reportsFailure (perform { setItem := some refusal } call)
        (itemAfterAttempts earlier) = true ∧
      itemAfterAttempts
          (earlier ++ [{ call := call, refusal := some refusal }]) =
        itemAfterAttempts earlier

/-- **Append-only wallet.**  Every wallet that starts without an item is
append-only. -/
theorem appendOnly_of_attempts (attempts : List Attempt) :
    AppendOnly attempts := by
  have last : ∀ attempt, itemAfterAttempts (attempts ++ [attempt]) =
      attempt.apply (itemAfterAttempts attempts) := by
    intro attempt
    rw [itemAfterAttempts, run_append]
    rfl
  constructor
  · exact fun text => deserializes_itemAfterAttempts attempts
  · exact extends_itemAfterAttempts attempts
  · intro call
    constructor
    · rw [perform_eq_rewriteItem, reportsFailure_rewriteItem_eq_false_iff]
      exact ⟨rfl, _, rfl⟩
    · rw [last]
      exact @effect_itemAfter {} rfl _
        (isOfWallet_itemAfterAttempts attempts) call
  · intro call refusal
    constructor
    · rw [← Bool.not_eq_false, perform_eq_rewriteItem,
        reportsFailure_rewriteItem_eq_false_iff]
      exact fun returns => Option.some_ne_none refusal returns.1
    · rw [last, Attempt.apply, perform_eq_rewriteItem]
      exact itemAfter_rewriteItem_of_refused _ _ _
        (Option.some_ne_none refusal)

end NoteTexts
end Client
end Privachain

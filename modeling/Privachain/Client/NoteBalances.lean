import Privachain.Client.NoteTexts

/-!
# The two balances of the notes

`getTotalBalance` sums the notes of `getSpendableNotes`, and `getNoteStats`
filters the loaded list itself.  Only the first filter looks for a leaf index
that is `null`, so the two agree exactly when no unspent note has one.
-/

namespace Privachain
namespace Client
namespace NoteTexts

open Foundation
open Foundation.JavaScript

/-! ## Readings of the stored list -/

/-- `note.amount`, which is a big integer once the note is loaded. -/
def amountOf (note : Value) : Int :=
  bigIntProperty note "amount"

/-- `notes.reduce((sum, note) => sum + note.amount, 0n)` -/
def sumOfAmounts (notes : List Value) : Int :=
  (notes.map amountOf).sum

/-- The filter of `getSpendableNotes`. -/
def isSpendable (note : Value) : Bool :=
  !(propertyOf note "spent").truthy &&
    !isUndefined (propertyOf note "leafIndex") &&
    !isNull (propertyOf note "leafIndex")

/-- `getSpendableNotes(minAmount?)`; insertion sort is stable, as
`Array.prototype.sort` is. -/
def getSpendableNotes
    (read : Except Exception (Option String))
    (minAmount : Option Int := none) : List Value :=
  let filtered := (loadNotes read).filter isSpendable
  let filtered :=
    match minAmount with
    | none => filtered
    | some minAmount => filtered.filter fun note => amountOf note ≥ minAmount
  filtered.insertionSort fun a b => amountOf b ≤ amountOf a

/-- `getTotalBalance()` -/
def getTotalBalance (read : Except Exception (Option String)) : Int :=
  sumOfAmounts (getSpendableNotes read)

/-- The classes that `getNoteStats` counts. -/
inductive NoteClass
  | spendable
  | spent
  | pending
  deriving DecidableEq

/-- The filters of `getNoteStats`. -/
def isOfClass : NoteClass -> Value -> Bool
  | .spendable, note =>
      !(propertyOf note "spent").truthy &&
        !isUndefined (propertyOf note "leafIndex")
  | .spent, note => (propertyOf note "spent").truthy
  | .pending, note =>
      !(propertyOf note "spent").truthy &&
        isUndefined (propertyOf note "leafIndex")

/-- `getNoteStats()` -/
def getNoteStats (read : Except Exception (Option String)) : NoteStats :=
  let notes := loadNotes read
  let spendable := notes.filter (isOfClass .spendable)
  let spent := notes.filter (isOfClass .spent)
  let pending := notes.filter (isOfClass .pending)
  { total := notes.length
    spendable := spendable.length
    spent := spent.length
    pending := pending.length
    totalBalance := sumOfAmounts spendable }

/-! ## Classes -/

/-- The class of a note. -/
def classOf (note : Value) : NoteClass :=
  if (propertyOf note "spent").truthy then .spent
  else if isUndefined (propertyOf note "leafIndex") then .pending
  else .spendable

/-- A note passes the filter of its class and no other. -/
theorem isOfClass_eq (noteClass : NoteClass) (note : Value) :
    isOfClass noteClass note = decide (classOf note = noteClass) := by
  unfold classOf
  cases noteClass with
  | spendable =>
      rw [isOfClass]
      cases (propertyOf note "spent").truthy <;>
        cases isUndefined (propertyOf note "leafIndex") <;> rfl
  | spent =>
      rw [isOfClass]
      cases (propertyOf note "spent").truthy <;>
        cases isUndefined (propertyOf note "leafIndex") <;> rfl
  | pending =>
      rw [isOfClass]
      cases (propertyOf note "spent").truthy <;>
        cases isUndefined (propertyOf note "leafIndex") <;> rfl

/-- Every note is in exactly one class. -/
theorem existsUnique_isOfClass (note : Value) :
    ∃! noteClass, isOfClass noteClass note = true := by
  refine ⟨classOf note, ?_, ?_⟩
  · simp [isOfClass_eq]
  · intro noteClass isOther
    simpa [isOfClass_eq, eq_comm] using isOther

/-- The classes count every note once. -/
theorem length_eq_sum_of_classes (notes : List Value) :
    notes.length =
      (notes.filter (isOfClass .spendable)).length +
        (notes.filter (isOfClass .spent)).length +
        (notes.filter (isOfClass .pending)).length := by
  induction notes with
  | nil => rfl
  | cons note notes inductionHypothesis =>
      simp only [List.filter_cons, isOfClass_eq, List.length_cons]
        at inductionHypothesis ⊢
      cases classOf note with
      | spendable =>
          simp
          omega
      | spent =>
          simp
          omega
      | pending =>
          simp
          omega

/-- The spendable notes are those of the class without a leaf index `null`. -/
theorem filter_isSpendable (notes : List Value) :
    notes.filter isSpendable =
      (notes.filter (isOfClass .spendable)).filter fun note =>
        !isNull (propertyOf note "leafIndex") := by
  rw [List.filter_filter]
  apply List.filter_congr
  intro note _
  rw [isSpendable, isOfClass, Bool.and_comm]

/-! ## Agreement -/

/-- The two balance paths agree on what is stored, and the classes of the second
one are a partition. -/
structure BalancesAgree (read : Except Exception (Option String)) : Prop where
  spendable : (getNoteStats read).spendable = (getSpendableNotes read).length
  totalBalance : (getNoteStats read).totalBalance = getTotalBalance read
  total : (getNoteStats read).total =
    (getNoteStats read).spendable + (getNoteStats read).spent +
      (getNoteStats read).pending
  classes : ∀ note ∈ loadNotes read,
    ∃! noteClass, isOfClass noteClass note = true

/-- A note that only one of the two paths counts as spendable. -/
def IsDisputed (note : Value) : Prop :=
  (propertyOf note "spent").truthy = false ∧
    propertyOf note "leafIndex" = .null

theorem getSpendableNotes_perm (read : Except Exception (Option String)) :
    (getSpendableNotes read).Perm ((loadNotes read).filter isSpendable) :=
  List.perm_insertionSort _ _

theorem isNull_iff (value : Value) : isNull value = true ↔ value = .null := by
  cases value <;> simp [isNull]

/-- A disputed note is one of the class that the other filter leaves out. -/
theorem isDisputed_iff (note : Value) :
    IsDisputed note ↔
      isOfClass .spendable note = true ∧
        isNull (propertyOf note "leafIndex") = true := by
  rw [IsDisputed, isNull_iff, isOfClass]
  constructor
  · rintro ⟨unspent, leafIndex⟩
    simp [unspent, leafIndex, isUndefined]
  · rintro ⟨ofClass, leafIndex⟩
    rw [Bool.and_eq_true, Bool.not_eq_true'] at ofClass
    exact ⟨ofClass.1, leafIndex⟩

/-- **Balances.**  The two balance paths agree exactly when no unspent note has
the leaf index `null`. -/
theorem balancesAgree_iff (read : Except Exception (Option String)) :
    BalancesAgree read ↔ ∀ note ∈ loadNotes read, ¬ IsDisputed note := by
  have sameClass : (∀ note ∈ loadNotes read, ¬ IsDisputed note) ↔
      ∀ note ∈ (loadNotes read).filter (isOfClass .spendable),
        (!isNull (propertyOf note "leafIndex")) = true := by
    simp only [isDisputed_iff, List.mem_filter, not_and, Bool.not_eq_true,
      Bool.not_eq_true', and_imp]
  rw [sameClass]
  constructor
  · intro agree
    -- the sublist has the length of the list, so nothing is left out
    rw [← List.length_filter_eq_length_iff, ← filter_isSpendable,
      ← (getSpendableNotes_perm read).length_eq]
    exact agree.spendable.symm
  · intro nothingDisputed
    have spendable : (getSpendableNotes read).Perm
        ((loadNotes read).filter (isOfClass .spendable)) := by
      have perm := getSpendableNotes_perm read
      rw [filter_isSpendable, List.filter_eq_self.mpr nothingDisputed] at perm
      exact perm
    constructor
    · exact spendable.length_eq.symm
    · exact ((spendable.map amountOf).sum_eq).symm
    · exact length_eq_sum_of_classes _
    · exact fun note _ => existsUnique_isOfClass note

/-- A stored list with an unspent note whose leaf index is `null`. -/
def nullLeafIndex : String :=
  "[\x7b\"commitment\":\"1\",\"amount\":\"5\",\"secret\":\"7\"," ++
    "\"recipient\":\"9\",\"leafIndex\":null,\"spent\":false\x7d]"

/-- The statistics count the note, and no transfer would select it. -/
theorem balances_differ : ¬ BalancesAgree (.ok (some nullLeafIndex)) := by
  intro agree
  have counted : (getNoteStats (.ok (some nullLeafIndex))).spendable = 1 := by
    decide +kernel
  have selected : (getSpendableNotes (.ok (some nullLeafIndex))).length = 0 := by
    decide +kernel
  have same := agree.spendable
  rw [counted, selected] at same
  exact Nat.one_ne_zero same

/-! ## The balances of the records -/

/-- A filter that reads values as it reads their notes keeps the matches. -/
theorem matches_filter
    {values : List Value}
    {notes : List Note}
    (matched : List.Forall₂ Matches values notes)
    {onValue : Value -> Bool}
    {onNote : Note -> Bool}
    (same : ∀ value note, Matches value note -> onValue value = onNote note) :
    List.Forall₂ Matches (values.filter onValue) (notes.filter onNote) := by
  refine List.rel_filter ?_ matched
  intro value note isNote
  exact iff_of_eq (congrArg (· = true) (same value note isNote))

theorem sumOfAmounts_eq
    {values : List Value}
    {notes : List Note}
    (matched : List.Forall₂ Matches values notes) :
    sumOfAmounts values = totalAmountOf notes := by
  have sameAmount : ∀ value note, Matches value note ->
      amountOf value = note.amount := by
    intro value note isNote
    rw [amountOf, bigIntProperty, isNote.properties "amount"]
    rfl
  have amounts : List.Forall₂ Eq (values.map amountOf)
      (notes.map Note.amount) := by
    rw [List.forall₂_map_left_iff, List.forall₂_map_right_iff]
    exact matched.imp sameAmount
  rw [List.forall₂_eq_eq_eq] at amounts
  rw [sumOfAmounts, totalAmountOf, amounts]

/-- The flags of a value are those of its note. -/
theorem Matches.flags
    {value : Value}
    {note : Note}
    (matched : Matches value note) :
    (propertyOf value "spent").truthy = note.spent ∧
      isUndefined (propertyOf value "leafIndex") =
        decide (note.leafIndex = .undefined) ∧
      isNull (propertyOf value "leafIndex") =
        decide (note.leafIndex = .null) := by
  have spent : propertyOf value "spent" = .boolean note.spent :=
    matched.properties "spent"
  have leafIndex : propertyOf value "leafIndex" =
      leafIndexValue note.leafIndex := matched.properties "leafIndex"
  rw [spent, leafIndex]
  refine ⟨rfl, ?_⟩
  cases note.leafIndex with
  | undefined => exact ⟨rfl, rfl⟩
  | null => exact ⟨rfl, rfl⟩
  | value index => exact ⟨rfl, rfl⟩

/-- **Refinement.**  The statistics of a text are those of its notes. -/
theorem getNoteStats_refines
    {item : Option String}
    {storage : LocalStorage}
    (represents : Represents item storage) :
    getNoteStats (.ok item) = Client.getNoteStats storage := by
  have spendable : List.Forall₂ Matches
      ((loadNotes (.ok item)).filter (isOfClass .spendable))
      ((Client.loadNotes storage).filter fun note =>
        note.spent = false ∧ note.leafIndex ≠ .undefined) :=
    matches_filter represents fun value note matched => by
      obtain ⟨spent, leafIndex, _⟩ := matched.flags
      simp [isOfClass, spent, leafIndex]
  have spent : List.Forall₂ Matches
      ((loadNotes (.ok item)).filter (isOfClass .spent))
      ((Client.loadNotes storage).filter fun note => note.spent) :=
    matches_filter represents fun value note matched => matched.flags.1
  have pending : List.Forall₂ Matches
      ((loadNotes (.ok item)).filter (isOfClass .pending))
      ((Client.loadNotes storage).filter fun note =>
        note.spent = false ∧ note.leafIndex = .undefined) :=
    matches_filter represents fun value note matched => by
      obtain ⟨spent, leafIndex, _⟩ := matched.flags
      simp [isOfClass, spent, leafIndex]
  rw [getNoteStats, Client.getNoteStats, List.Forall₂.length_eq represents,
    spendable.length_eq, spent.length_eq, pending.length_eq,
    sumOfAmounts_eq spendable]

/-- **Refinement.**  The balance of a text is that of its notes. -/
theorem getTotalBalance_refines
    {item : Option String}
    {storage : LocalStorage}
    (represents : Represents item storage) :
    getTotalBalance (.ok item) = Client.getTotalBalance storage := by
  have spendable : List.Forall₂ Matches
      ((loadNotes (.ok item)).filter isSpendable)
      ((Client.loadNotes storage).filter fun note => note.Spendable) :=
    matches_filter represents fun value note matched => by
      obtain ⟨spent, undefined, null⟩ := matched.flags
      rw [Bool.eq_iff_iff, decide_eq_true_eq]
      simp [isSpendable, Note.Spendable, spent, undefined, null, and_assoc]
  calc getTotalBalance (.ok item)
      = sumOfAmounts ((loadNotes (.ok item)).filter isSpendable) :=
        ((getSpendableNotes_perm _).map amountOf).sum_eq
    _ = totalAmountOf ((Client.loadNotes storage).filter fun note =>
          note.Spendable) := sumOfAmounts_eq spendable
    _ = Client.getTotalBalance storage :=
        (((List.perm_insertionSort _ _).map Note.amount).sum_eq).symm

end NoteTexts
end Client
end Privachain

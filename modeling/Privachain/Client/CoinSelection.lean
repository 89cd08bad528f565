import Privachain.Client.Notes
import Privachain.Foundation.Greedy

/-!
# Coin selection

The greedy loop of `selectNotesForTransfer` takes a prefix of the spendable
notes in descending order.  The prefix is the shortest one that reaches the
target, so the selection exists whenever some choice of notes does, and no
smaller choice replaces it.
-/

namespace Privachain
namespace Client

open Foundation
open Foundation.JavaScript
open Foundation.Greedy

/-! ## What a selection should be -/

/-- The stored notes that may be spent, in their stored order. -/
def spendableNotes (storage : LocalStorage) : List Note :=
  (loadNotes storage).filter fun note => note.Spendable

/-- A choice of notes, each entry at most once, that reaches the target. -/
structure ReachesTarget
    (notes : List Note)
    (targetAmount maxNotes : Int)
    (chosen : List Note) : Prop where
  choice : chosen.Subperm notes
  few : (chosen.length : Int) ≤ maxNotes
  enough : targetAmount ≤ totalAmountOf chosen

/-- A selection with its sum and its change, of which no note is superfluous
and which no smaller choice replaces. -/
structure MinimalSelection
    (notes : List Note)
    (targetAmount maxNotes : Int)
    (selection : Selection) : Prop where
  reaches : ReachesTarget notes targetAmount maxNotes selection.selectedNotes
  total : selection.totalAmount = totalAmountOf selection.selectedNotes
  change : selection.changeAmount = selection.totalAmount - targetAmount
  changeNonnegative : 0 ≤ selection.changeAmount
  changeSmaller : ∀ note ∈ selection.selectedNotes,
    selection.changeAmount < note.amount
  fewest : ∀ chosen : List Note, chosen.Subperm notes ->
    chosen.length < selection.selectedNotes.length ->
    totalAmountOf chosen < targetAmount

/-! ## The sorted list -/

theorem getSpendableNotes_perm (storage : LocalStorage) :
    (getSpendableNotes storage).Perm (spendableNotes storage) :=
  List.perm_insertionSort _ _

theorem mem_getSpendableNotes
    (storage : LocalStorage)
    (note : Note) :
    note ∈ getSpendableNotes storage ↔
      note ∈ loadNotes storage ∧ note.Spendable := by
  rw [(getSpendableNotes_perm storage).mem_iff, spendableNotes,
    List.mem_filter, decide_eq_true_eq]

/-- A smallest amount only leaves out notes. -/
theorem getSpendableNotes_subset
    (storage : LocalStorage)
    (minAmount : Option Int) :
    getSpendableNotes storage minAmount ⊆ getSpendableNotes storage := by
  intro note member
  unfold getSpendableNotes at member ⊢
  rw [List.mem_insertionSort] at member ⊢
  cases minAmount with
  | none => exact member
  | some minAmount => exact (List.mem_filter.mp member).1

instance : Std.Total amountDescending where
  total := fun a b => Int.le_total b.amount a.amount

instance : IsTrans Note amountDescending where
  trans := fun _ _ _ first second => Int.le_trans second first

/-- The spendable notes come in descending order of their amounts. -/
theorem getSpendableNotes_descending (storage : LocalStorage) :
    Descending Note.amount (getSpendableNotes storage) :=
  List.pairwise_insertionSort amountDescending _

/-! ## The loop -/

/-- The loop takes a prefix of the remaining notes: every shorter prefix misses
the target, and it stops at the target, at the end or at the limit. -/
theorem selectGreedily_eq_take
    (targetAmount maxNotes : Int)
    (remaining selected : List Note)
    (totalAmount : Int)
    (missing : totalAmount < targetAmount) :
    ∃ size ≤ remaining.length,
      selectGreedily targetAmount maxNotes remaining selected totalAmount =
        (selected ++ remaining.take size,
          totalAmount + totalAmountOf (remaining.take size)) ∧
      (∀ shorter < size,
        totalAmount + totalAmountOf (remaining.take shorter) < targetAmount) ∧
      (size = 0 ∨ ((selected.length + size : Nat) : Int) ≤ maxNotes) ∧
      (targetAmount ≤ totalAmount + totalAmountOf (remaining.take size) ∨
        size = remaining.length ∨
        maxNotes ≤ ((selected.length + size : Nat) : Int)) := by
  induction remaining generalizing selected totalAmount with
  | nil =>
      refine ⟨0, le_rfl, ?_, ?_, .inl rfl, .inr (.inl rfl)⟩
      · simp [selectGreedily]
      · intro shorter impossible
        omega
  | cons note remaining inductionHypothesis =>
      by_cases full : (selected.length : Int) ≥ maxNotes
      · refine ⟨0, Nat.zero_le _, ?_, ?_, .inl rfl, .inr (.inr full)⟩
        · simp [selectGreedily, full]
        · intro shorter impossible
          omega
      · by_cases reached : totalAmount + note.amount ≥ targetAmount
        · refine ⟨1, by simp, ?_, ?_, .inr ?_, .inl ?_⟩
          · simp [selectGreedily, full, reached]
          · intro shorter zero
            obtain rfl : shorter = 0 := Nat.lt_one_iff.mp zero
            simpa using missing
          · push Not at full
            push_cast
            omega
          · simpa using reached
        · push Not at full reached
          obtain ⟨size, fits, selects, shorterMisses, few, stops⟩ :=
            inductionHypothesis (selected ++ [note])
              (totalAmount + note.amount) reached
          have taken : ∀ count,
              totalAmount + totalAmountOf ((note :: remaining).take (count + 1)) =
                totalAmount + note.amount +
                  totalAmountOf (remaining.take count) := by
            intro count
            simp [Int.add_assoc]
          have counted : (selected ++ [note]).length + size =
              selected.length + (size + 1) := by
            rw [List.length_append, List.length_singleton]
            omega
          rw [counted] at few stops
          refine ⟨size + 1, Nat.succ_le_succ fits, ?_, ?_, ?_, ?_⟩
          · rw [selectGreedily, if_neg (by omega), if_neg (by omega), selects,
              taken, List.take_succ_cons, List.append_assoc]
            rfl
          · intro shorter isShorter
            cases shorter with
            | zero => simpa using missing
            | succ shorter =>
                rw [taken]
                exact shorterMisses shorter (Nat.lt_of_succ_lt_succ isShorter)
          · rcases few with rfl | few
            · exact .inr (by push_cast; omega)
            · exact .inr few
          · rw [taken, List.length_cons, Nat.add_right_cancel_iff]
            exact stops

/-! ## The selection -/

/-- The selection returns exactly when there are spendable notes and the greedy
sum reaches the target. -/
theorem selectNotesForTransfer_eq_ok_iff
    (storage : LocalStorage)
    (targetAmount maxNotes : Int)
    (selection : Selection) :
    selectNotesForTransfer storage targetAmount maxNotes = .ok selection ↔
      getSpendableNotes storage ≠ [] ∧
      ∃ selected totalAmount,
        selectGreedily targetAmount maxNotes (getSpendableNotes storage) [] 0 =
          (selected, totalAmount) ∧
        targetAmount ≤ totalAmount ∧
        selection =
          { selectedNotes := selected
            totalAmount := totalAmount
            changeAmount := totalAmount - targetAmount } := by
  obtain ⟨selected, totalAmount, selects⟩ : ∃ selected totalAmount,
      selectGreedily targetAmount maxNotes (getSpendableNotes storage) [] 0 =
        (selected, totalAmount) := ⟨_, _, rfl⟩
  unfold selectNotesForTransfer
  simp only [bind_eq_ok_iff, throwIf_eq_ok_iff, selects, exists_const,
    List.length_eq_zero_iff]
  refine and_congr_right fun _ => ?_
  constructor
  · rintro ⟨enough, returned⟩
    exact ⟨selected, totalAmount, rfl, Int.not_lt.mp enough,
      (returned_eq_ok_iff _ _).mp returned⟩
  · rintro ⟨_, _, ⟨⟩, enough, rfl⟩
    exact ⟨Int.not_lt.mpr enough, rfl⟩

/-- The selected notes are the shortest prefix of the descending list that
reaches the target. -/
theorem selectNotesForTransfer_takes_prefix
    {storage : LocalStorage}
    {targetAmount maxNotes : Int}
    (positive : 0 < targetAmount)
    {selection : Selection}
    (selects : selectNotesForTransfer storage targetAmount maxNotes =
      .ok selection) :
    ∃ size ≤ (getSpendableNotes storage).length,
      selection.selectedNotes = (getSpendableNotes storage).take size ∧
      selection.totalAmount = totalAmountOf selection.selectedNotes ∧
      selection.changeAmount = selection.totalAmount - targetAmount ∧
      targetAmount ≤ selection.totalAmount ∧
      (size : Int) ≤ maxNotes ∧
      ∀ shorter < size,
        totalAmountOf ((getSpendableNotes storage).take shorter) <
          targetAmount := by
  obtain ⟨_, selected, totalAmount, greedy, enough, rfl⟩ :=
    (selectNotesForTransfer_eq_ok_iff _ _ _ _).mp selects
  obtain ⟨size, fits, takes, shorterMisses, few, _⟩ :=
    selectGreedily_eq_take targetAmount maxNotes (getSpendableNotes storage) []
      0 positive
  rw [greedy] at takes
  obtain ⟨rfl, rfl⟩ := Prod.mk.inj takes
  simp only [Int.zero_add, List.length_nil, Nat.zero_add] at shorterMisses few
  refine ⟨size, fits, rfl, Int.zero_add _, rfl, enough, ?_, shorterMisses⟩
  rcases few with rfl | few
  · rw [List.take_zero, totalAmountOf_nil] at enough
    omega
  · exact few

/-- For every target, the selected notes are spendable, and the first spendable
note is one of them. -/
theorem selectNotesForTransfer_takes_first
    {storage : LocalStorage}
    {targetAmount maxNotes : Int}
    (someNotes : 0 < maxNotes)
    {selection : Selection}
    (selects : selectNotesForTransfer storage targetAmount maxNotes =
      .ok selection) :
    selection.selectedNotes ⊆ getSpendableNotes storage ∧
      ∃ first ∈ selection.selectedNotes,
        (getSpendableNotes storage).head? = some first := by
  obtain ⟨someSpendable, selected, totalAmount, greedy, _, rfl⟩ :=
    (selectNotesForTransfer_eq_ok_iff _ _ _ _).mp selects
  cases spendable : getSpendableNotes storage with
  | nil => exact absurd spendable someSpendable
  | cons first rest =>
      rw [spendable, selectGreedily, List.length_nil,
        if_neg (by simpa using someNotes)] at greedy
      have startsWithFirst : ∃ taken, selected = first :: taken ∧
          taken ⊆ rest := by
        by_cases reached : 0 + first.amount ≥ targetAmount
        · rw [if_pos reached] at greedy
          cases greedy
          exact ⟨[], rfl, List.nil_subset _⟩
        · rw [if_neg reached] at greedy
          obtain ⟨size, _, takes, _⟩ := selectGreedily_eq_take targetAmount
            maxNotes rest [first] (0 + first.amount) (Int.not_le.mp reached)
          rw [List.nil_append, takes] at greedy
          cases greedy
          exact ⟨rest.take size, rfl, List.take_subset _ _⟩
      obtain ⟨taken, rfl, fromRest⟩ := startsWithFirst
      exact ⟨List.cons_subset_cons first fromRest, first, List.mem_cons_self,
        rfl⟩

/-- For every target and limit, the selected notes are spendable. -/
theorem selectNotesForTransfer_subset
    {storage : LocalStorage}
    {targetAmount maxNotes : Int}
    {selection : Selection}
    (selects : selectNotesForTransfer storage targetAmount maxNotes =
      .ok selection) :
    selection.selectedNotes ⊆ getSpendableNotes storage := by
  by_cases someNotes : 0 < maxNotes
  · exact (selectNotesForTransfer_takes_first someNotes selects).1
  · obtain ⟨someSpendable, selected, totalAmount, greedy, -, rfl⟩ :=
      (selectNotesForTransfer_eq_ok_iff _ _ _ _).mp selects
    cases spendable : getSpendableNotes storage with
    | nil => exact absurd spendable someSpendable
    | cons first rest =>
        -- no note fits below the limit
        rw [spendable, selectGreedily, List.length_nil,
          if_pos (by simpa using someNotes)] at greedy
        cases greedy
        exact List.nil_subset _

/-- The note that completes the shortest prefix is needed: without it, the sum
misses the target. -/
theorem change_lt_amount_of_shortest_prefix
    {notes : List Note}
    {targetAmount : Int}
    (descending : Descending Note.amount notes)
    {size : Nat}
    (fits : size ≤ notes.length)
    (shorterMisses : ∀ shorter < size,
      totalAmountOf (notes.take shorter) < targetAmount) :
    ∀ note ∈ notes.take size,
      totalAmountOf (notes.take size) - targetAmount < note.amount := by
  intro note selected
  cases size with
  | zero => simp at selected
  | succ size =>
      have within : size < notes.length := fits
      have split : notes.take (size + 1) = notes.take size ++ [notes[size]] :=
        List.take_succ_eq_append_getElem within
      have lastSmallest : notes[size].amount ≤ note.amount := by
        rw [split] at selected
        rcases List.mem_append.mp selected with earlier | last
        · have sorted : Descending Note.amount (notes.take (size + 1)) :=
            List.Pairwise.sublist (List.take_sublist _ _) descending
          rw [split] at sorted
          exact (List.pairwise_append.mp sorted).2.2 note earlier _
            List.mem_cons_self
        · rw [List.mem_singleton.mp last]
      have misses := shorterMisses size (Nat.lt_succ_self size)
      have total : totalAmountOf (notes.take (size + 1)) =
          totalAmountOf (notes.take size) + notes[size].amount := by
        rw [split, totalAmountOf_append, totalAmountOf_cons, totalAmountOf_nil,
          Int.add_zero]
      omega

/-- When some choice reaches the target, so does the selection. -/
theorem selectNotesForTransfer_returns
    {storage : LocalStorage}
    {targetAmount maxNotes : Int}
    (positive : 0 < targetAmount)
    {chosen : List Note}
    (reaches : ReachesTarget (spendableNotes storage) targetAmount maxNotes
      chosen) :
    ∃ selection,
      selectNotesForTransfer storage targetAmount maxNotes = .ok selection := by
  obtain ⟨size, fits, takes, shorterMisses, _, stops⟩ :=
    selectGreedily_eq_take targetAmount maxNotes (getSpendableNotes storage) []
      0 positive
  simp only [Int.zero_add, List.nil_append, List.length_nil, Nat.zero_add]
    at takes shorterMisses stops
  have choice : chosen.Subperm (getSpendableNotes storage) :=
    reaches.choice.trans (getSpendableNotes_perm storage).symm.subperm
  -- the prefix of the size of the choice reaches the target as well
  have prefixEnough : targetAmount ≤
      totalAmountOf ((getSpendableNotes storage).take chosen.length) :=
    reaches.enough.trans
      (subperm_totalWeight_le_take choice (getSpendableNotes_descending storage))
  have notShorter : size ≤ chosen.length := by
    by_contra shorter
    have misses := shorterMisses chosen.length (Nat.lt_of_not_le shorter)
    omega
  have enough : targetAmount ≤
      totalAmountOf ((getSpendableNotes storage).take size) := by
    rcases stops with enough | atEnd | atLimit
    · exact enough
    · have sameSize : chosen.length = size := by
        have := choice.length_le
        omega
      rwa [sameSize] at prefixEnough
    · have sameSize : chosen.length = size := by
        have := reaches.few
        omega
      rwa [sameSize] at prefixEnough
  have someSpendable : getSpendableNotes storage ≠ [] := by
    intro none
    rw [none, List.take_nil, totalAmountOf_nil] at enough
    omega
  exact ⟨_, (selectNotesForTransfer_eq_ok_iff _ _ _ _).mpr
    ⟨someSpendable, _, _, takes, enough, rfl⟩⟩

/-- A selection that is returned is minimal. -/
theorem selectNotesForTransfer_minimal
    {storage : LocalStorage}
    {targetAmount maxNotes : Int}
    (positive : 0 < targetAmount)
    {selection : Selection}
    (selects : selectNotesForTransfer storage targetAmount maxNotes =
      .ok selection) :
    MinimalSelection (spendableNotes storage) targetAmount maxNotes
      selection := by
  obtain ⟨size, fits, selected, total, change, enough, few, shorterMisses⟩ :=
    selectNotesForTransfer_takes_prefix positive selects
  have selectedLength : selection.selectedNotes.length = size := by
    rw [selected, List.length_take, Nat.min_eq_left fits]
  refine
    { reaches := ⟨?_, ?_, ?_⟩
      total := total
      change := change
      changeNonnegative := ?_
      changeSmaller := ?_
      fewest := ?_ }
  · rw [selected]
    exact (List.take_sublist _ _).subperm.trans
      (getSpendableNotes_perm storage).subperm
  · rwa [selectedLength]
  · rwa [← total]
  · omega
  · intro note member
    rw [selected] at member
    have smaller := change_lt_amount_of_shortest_prefix
      (getSpendableNotes_descending storage) fits shorterMisses note member
    rwa [← selected, ← total, ← change] at smaller
  · intro chosen choice fewer
    have prefixMisses := shorterMisses chosen.length (selectedLength ▸ fewer)
    have lighter := subperm_totalWeight_le_take
      (choice.trans (getSpendableNotes_perm storage).symm.subperm)
      (getSpendableNotes_descending storage)
    exact lighter.trans_lt prefixMisses

/-- **Coin selection is sound, complete and minimal.** -/
theorem selectNotesForTransfer_sound_complete_minimal
    (storage : LocalStorage)
    (targetAmount maxNotes : Int)
    (positive : 0 < targetAmount) :
    ((∃ selection, selectNotesForTransfer storage targetAmount maxNotes =
        .ok selection) ↔
      ∃ chosen, ReachesTarget (spendableNotes storage) targetAmount maxNotes
        chosen) ∧
    ∀ selection,
      selectNotesForTransfer storage targetAmount maxNotes = .ok selection ->
      MinimalSelection (spendableNotes storage) targetAmount maxNotes
        selection := by
  refine ⟨⟨?_, ?_⟩, ?_⟩
  · rintro ⟨selection, selects⟩
    exact ⟨selection.selectedNotes,
      (selectNotesForTransfer_minimal positive selects).reaches⟩
  · rintro ⟨chosen, reaches⟩
    exact selectNotesForTransfer_returns positive reaches
  · intro selection selects
    exact selectNotesForTransfer_minimal positive selects

/-- A spendable note of an amount, with its commitment. -/
def sampleNote (commitment : String) (amount : Int) : Note where
  commitment := commitment
  amount := amount
  secret := 1
  recipient := 1
  leafIndex := .value 0
  spent := false

/-- Storage with spendable notes of the amounts `3`, `8` and `5`. -/
def sampleStorage : LocalStorage :=
  saveNotes [sampleNote "11" 3, sampleNote "12" 8, sampleNote "13" 5]
    emptyStorage

/-- A target of `12` is selected from the sample. -/
theorem sampleStorage_sound_complete_minimal :
    0 < (12 : Int) ∧
    ((∃ selection, selectNotesForTransfer sampleStorage 12 4 =
        .ok selection) ↔
      ∃ chosen, ReachesTarget (spendableNotes sampleStorage) 12 4 chosen) ∧
    ∀ selection, selectNotesForTransfer sampleStorage 12 4 = .ok selection ->
      MinimalSelection (spendableNotes sampleStorage) 12 4 selection :=
  ⟨by decide,
    selectNotesForTransfer_sound_complete_minimal sampleStorage 12 4
      (by decide)⟩

end Client
end Privachain

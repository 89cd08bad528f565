import Privachain.Circuit.Field
import Privachain.Circuit.Transaction
import Mathlib.Algebra.Order.BigOperators.Group.Finset

/-!
# Value and spending soundness of the main circuit

The balance check compares two sums modulo the field order and no constraint
bounds an amount, so the integer sums agree exactly when the output sum does
not wrap around.  No constraint relates two input slots either, so one note may
fill several of them; different notes reveal different nullifiers up to a
collision.
-/

namespace Privachain
namespace Circuit

universe u

namespace TransactionInputs

variable {F : Type u} {nInputs nOutputs levels : Nat}

/-- Two input slots hash two different lists to one value, either as
commitments or as nullifiers. -/
def HashCollision
    (poseidon : List F -> F)
    (inputs : TransactionInputs F nInputs nOutputs levels)
    (i j : Fin nInputs) : Prop :=
  (inputs.inNote i ≠ inputs.inNote j ∧
      poseidon (inputs.inNote i) = poseidon (inputs.inNote j)) ∨
    (inputs.nullifierPreimage poseidon i ≠
        inputs.nullifierPreimage poseidon j ∧
      poseidon (inputs.nullifierPreimage poseidon i) =
        poseidon (inputs.nullifierPreimage poseidon j))

/-- Slots with one note hash the same lists, so they show no collision. -/
theorem not_hashCollision_of_same_note
    {poseidon : List F -> F}
    {inputs : TransactionInputs F nInputs nOutputs levels}
    {i j : Fin nInputs}
    (sameNote : inputs.inNote i = inputs.inNote j) :
    ¬inputs.HashCollision poseidon i j := by
  have sameSecret : inputs.inSecret i = inputs.inSecret j := by
    simp only [inNote, List.cons.injEq] at sameNote
    exact sameNote.2.1
  have samePreimage : inputs.nullifierPreimage poseidon i =
      inputs.nullifierPreimage poseidon j := by
    simp only [nullifierPreimage, inCommitment, sameNote, sameSecret]
  rintro (⟨different, _⟩ | ⟨different, _⟩)
  · exact different sameNote
  · exact different samePreimage

variable [CommRing F]

/-- Different notes reveal different nullifiers, up to a collision. -/
theorem Checks.nullifierHashes_ne_or_hashCollision
    {poseidon : List F -> F}
    {inputs : TransactionInputs F nInputs nOutputs levels}
    (checks : inputs.Checks poseidon)
    {i j : Fin nInputs}
    (differentNotes : inputs.inNote i ≠ inputs.inNote j) :
    inputs.nullifierHashes i ≠ inputs.nullifierHashes j ∨
      inputs.HashCollision poseidon i j := by
  rw [or_iff_not_imp_right]
  intro noCollision sameNullifier
  have differentCommitments : inputs.inCommitment poseidon i ≠
      inputs.inCommitment poseidon j := fun same =>
    noCollision (Or.inl ⟨differentNotes, same⟩)
  have differentPreimages : inputs.nullifierPreimage poseidon i ≠
      inputs.nullifierPreimage poseidon j := by
    intro same
    simp only [nullifierPreimage, List.cons.injEq] at same
    exact differentCommitments same.1
  apply noCollision
  refine Or.inr ⟨differentPreimages, ?_⟩
  rw [checks.nullifier i, checks.nullifier j, sameNullifier]

/-! ## One note in every input slot -/

/-- Every input slot spends one and the same note along the zero path. -/
def repeatedNote
    (poseidon : List F -> F)
    (amount secret recipient : F)
    (outAmount : Fin nOutputs -> F) :
    TransactionInputs F nInputs nOutputs levels :=
  let commitment := poseidon [amount, secret, recipient]
  { root := MerkleProof.pathRoot poseidon commitment
      (fun _ : Fin levels => 0) (fun _ => 0)
    nullifierHashes := fun _ => poseidon [commitment, secret]
    outCommitments := fun i => poseidon [outAmount i, 0, 0]
    inAmount := fun _ => amount
    inSecret := fun _ => secret
    inRecipient := fun _ => recipient
    inPathElements := fun _ _ => 0
    inPathIndices := fun _ _ => 0
    outAmount := outAmount
    outSecret := fun _ => 0
    outRecipient := fun _ => 0 }

/-- The circuit accepts one note in every input slot, counted once for each
slot. -/
theorem repeatedNote_checks
    (poseidon : List F -> F)
    (amount secret recipient : F)
    (outAmount : Fin nOutputs -> F)
    (balanced : nInputs * amount = ∑ i, outAmount i) :
    (repeatedNote poseidon amount secret recipient outAmount :
      TransactionInputs F nInputs nOutputs levels).Checks poseidon where
  nullifier := fun _ => rfl
  merkleRoot := fun _ => rfl
  outCommitment := fun _ => rfl
  balance := by
    rw [sumIns, sumOuts]
    simpa [repeatedNote] using balanced

end TransactionInputs

/-! ## Integer value conservation -/

/-- Integer sums of canonical representatives, read in the field. -/
theorem natCast_sum_val {n : Nat} (amount : Fin n -> Fr) :
    ((∑ i, (amount i).val : Nat) : Fr) = ∑ i, amount i := by
  rw [Nat.cast_sum]
  exact Finset.sum_congr rfl fun i _ => ZMod.natCast_zmod_val (amount i)

/-- The balance check makes the integer sums congruent. -/
theorem TransactionInputs.Checks.sum_val_modEq
    {poseidon : List Fr -> Fr}
    {nInputs nOutputs levels : Nat}
    {inputs : TransactionInputs Fr nInputs nOutputs levels}
    (checks : inputs.Checks poseidon) :
    ∑ i, (inputs.outAmount i).val ≡ ∑ i, (inputs.inAmount i).val
      [MOD fieldSize] := by
  rw [← ZMod.natCast_eq_natCast_iff, natCast_sum_val, natCast_sum_val]
  exact checks.balance.symm

/-- In a satisfying assignment whose input amounts do not wrap around, value is
conserved exactly when the output amounts do not wrap around either. -/
theorem transaction_conserves_value_iff
    (poseidon : List Fr -> Fr)
    (nInputs nOutputs levels : Nat)
    (t : Transaction Fr nInputs nOutputs levels)
    (constraints : t.Constraints poseidon)
    (inputsFit : ∑ i, (t.inAmount i).val < fieldSize) :
    (∑ i, (t.outAmount i).val = ∑ i, (t.inAmount i).val ∧
        ∀ j, (t.outAmount j).val ≤ ∑ i, (t.inAmount i).val) ↔
      ∑ i, (t.outAmount i).val < fieldSize := by
  constructor
  · rintro ⟨sameSum, _⟩
    rwa [sameSum]
  · intro outputsFit
    have sameSum : ∑ i, (t.outAmount i).val = ∑ i, (t.inAmount i).val :=
      constraints.checks.sum_val_modEq.eq_of_lt_of_lt outputsFit inputsFit
    refine ⟨sameSum, fun j => ?_⟩
    rw [← sameSum]
    exact Finset.single_le_sum (f := fun i => (t.outAmount i).val)
      (fun i _ => Nat.zero_le _) (Finset.mem_univ j)

/-- Two notes at the two leaves of a tree of depth one, spent together into one
output note, under the sum as hash. -/
def twoNotes : TransactionInputs Fr 2 1 1 where
  root := 3
  nullifierHashes := ![1, 2]
  outCommitments := ![3]
  inAmount := ![1, 2]
  inSecret := ![0, 0]
  inRecipient := ![0, 0]
  inPathElements := ![![2], ![1]]
  inPathIndices := ![![0], ![1]]
  outAmount := ![3]
  outSecret := ![0]
  outRecipient := ![0]

theorem twoNotes_checks : twoNotes.Checks List.sum where
  nullifier := by decide
  merkleRoot := by decide
  outCommitment := by decide
  balance := by decide

/-- Spending both notes conserves their value. -/
theorem twoNotes_conserves_value :
    ∑ i, (twoNotes.inAmount i).val < fieldSize ∧
      ((∑ i, (twoNotes.outAmount i).val = ∑ i, (twoNotes.inAmount i).val ∧
          ∀ j, (twoNotes.outAmount j).val ≤
            ∑ i, (twoNotes.inAmount i).val) ↔
        ∑ i, (twoNotes.outAmount i).val < fieldSize) :=
  ⟨by decide,
    transaction_conserves_value_iff List.sum 2 1 1
      (Transaction.ofInputs List.sum twoNotes)
      (Transaction.ofInputs_constraints twoNotes_checks) (by decide)⟩

/-- Four empty notes buy an output of `1` and one of the field order minus
`1`. -/
theorem transaction_mints_value :
    ¬∀ (poseidon : List Fr -> Fr)
        (nInputs nOutputs levels : Nat)
        (t : Transaction Fr nInputs nOutputs levels),
      t.Constraints poseidon ->
      (∀ i, (t.inAmount i).val < 2 ^ 128) ->
      ∑ i, (t.inAmount i).val < fieldSize ->
      ∑ i, (t.outAmount i).val = ∑ i, (t.inAmount i).val ∧
        ∀ j, (t.outAmount j).val ≤ ∑ i, (t.inAmount i).val := by
  intro conserved
  let outAmount : Fin 4 -> Fr := ![1, -1, 0, 0]
  let inputs : TransactionInputs Fr 4 4 20 :=
    .repeatedNote List.sum 0 0 0 outAmount
  have checks : inputs.Checks List.sum :=
    TransactionInputs.repeatedNote_checks _ _ _ _ _ (by decide)
  have sameSum := (conserved List.sum 4 4 20
    (Transaction.ofInputs List.sum inputs)
    (Transaction.ofInputs_constraints checks)
    (by decide) (by decide)).1
  have outputSum : ∑ i, (outAmount i).val = fieldSize := by decide
  have inputSum : ∑ i, (inputs.inAmount i).val = 0 := by decide
  exact absurd (outputSum.symm.trans (sameSum.trans inputSum)) (by decide)

/-! ## One note in several slots -/

/-- In a satisfying assignment the slots with non-zero amounts carry different
notes and nullifiers, up to a collision, exactly when their notes differ. -/
theorem transaction_spends_distinct_notes_iff
    (poseidon : List Fr -> Fr)
    (nInputs nOutputs levels : Nat)
    (t : Transaction Fr nInputs nOutputs levels)
    (constraints : t.Constraints poseidon) :
    (∀ i j, i ≠ j -> t.inAmount i ≠ 0 -> t.inAmount j ≠ 0 ->
        (t.inNote i ≠ t.inNote j ∧
            t.nullifierHashes i ≠ t.nullifierHashes j) ∨
          t.HashCollision poseidon i j) ↔
      ∀ i j, i ≠ j -> t.inAmount i ≠ 0 -> t.inAmount j ≠ 0 ->
        t.inNote i ≠ t.inNote j := by
  constructor
  · intro distinct i j differentSlots iNotZero jNotZero sameNote
    rcases distinct i j differentSlots iNotZero jNotZero with
      ⟨differentNotes, _⟩ | collision
    · exact differentNotes sameNote
    · exact TransactionInputs.not_hashCollision_of_same_note sameNote collision
  · intro differentNotes i j differentSlots iNotZero jNotZero
    have notes := differentNotes i j differentSlots iNotZero jNotZero
    exact (constraints.checks.nullifierHashes_ne_or_hashCollision notes).imp
      (fun nullifiers => ⟨notes, nullifiers⟩) id

/-- Both notes of the sample transaction reveal their own nullifier. -/
theorem twoNotes_spends_distinct_notes :
    (∀ i j, i ≠ j -> twoNotes.inAmount i ≠ 0 -> twoNotes.inAmount j ≠ 0 ->
        (twoNotes.inNote i ≠ twoNotes.inNote j ∧
            twoNotes.nullifierHashes i ≠ twoNotes.nullifierHashes j) ∨
          twoNotes.HashCollision List.sum i j) ↔
      ∀ i j, i ≠ j -> twoNotes.inAmount i ≠ 0 -> twoNotes.inAmount j ≠ 0 ->
        twoNotes.inNote i ≠ twoNotes.inNote j :=
  transaction_spends_distinct_notes_iff List.sum 2 1 1
    (Transaction.ofInputs List.sum twoNotes)
    (Transaction.ofInputs_constraints twoNotes_checks)

/-- One note of amount `1` fills all four input slots and pays `4`. -/
theorem transaction_counts_note_four_times :
    ¬∀ (poseidon : List Fr -> Fr)
        (nInputs nOutputs levels : Nat)
        (t : Transaction Fr nInputs nOutputs levels),
      t.Constraints poseidon ->
      ∀ i j, i ≠ j -> t.inAmount i ≠ 0 -> t.inAmount j ≠ 0 ->
        (t.inNote i ≠ t.inNote j ∧
            t.nullifierHashes i ≠ t.nullifierHashes j) ∨
          t.HashCollision poseidon i j := by
  intro distinct
  let outAmount : Fin 4 -> Fr := ![4, 0, 0, 0]
  let inputs : TransactionInputs Fr 4 4 20 :=
    .repeatedNote List.sum 1 0 0 outAmount
  have checks : inputs.Checks List.sum :=
    TransactionInputs.repeatedNote_checks _ _ _ _ _ (by decide)
  rcases distinct List.sum 4 4 20 (Transaction.ofInputs List.sum inputs)
    (Transaction.ofInputs_constraints checks) 0 1 (by decide) (by decide)
    (by decide) with ⟨differentNotes, _⟩ | collision
  · exact differentNotes rfl
  · exact TransactionInputs.not_hashCollision_of_same_note rfl collision

end Circuit
end Privachain

import Privachain.Generator.PoseidonSemantics
import Privachain.Generator.TransactionSemantics

/-!
# The generated program against the circuit

The generated program has a result exactly for satisfiable input signals, and its
signals are those of the satisfying assignment, whatever the forms of its input
elements.
-/

namespace Privachain
namespace Generator

open Foundation Circuit
open FrElement (Represents slot)

section Program

variable {poseidon : List FrElement -> Option FrElement}
variable {poseidonField : List Fr -> Fr}
variable {inputs : TransactionInputs FrElement 4 4 20}
variable {values : TransactionInputs Fr 4 4 20}

/-- A run has a result exactly for satisfiable input signals, and then every
signal represents the satisfying assignment. -/
theorem transactionRun_iff_satisfiable
    (hashesTo : HashesTo poseidon poseidonField)
    (represents : InputsRepresent inputs values) :
    ((∃ t, transactionRun poseidon inputs = some t) ↔
      ∃ signals : Transaction Fr 4 4 20,
        signals.toTransactionInputs = values ∧
          signals.Constraints poseidonField) ∧
    ∀ t, transactionRun poseidon inputs = some t ->
      ∃ signals : Transaction Fr 4 4 20,
        signals.toTransactionInputs = values ∧
          signals.Constraints poseidonField ∧ TransactionRepresents t signals := by
  have spec := transactionRun_spec hashesTo represents
  rw [Transaction.satisfiable_iff]
  by_cases checks : values.Checks poseidonField
  · obtain ⟨t, ran, signals⟩ := spec.1 checks
    refine ⟨⟨fun _ => checks, fun _ => ⟨t, ran⟩⟩, ?_⟩
    intro result alsoRan
    rw [ran, Option.some_inj] at alsoRan
    exact ⟨_, rfl, Transaction.ofInputs_constraints checks, alsoRan ▸ signals⟩
  · have refused := spec.2 checks
    refine ⟨⟨?_, fun passes => absurd passes checks⟩, ?_⟩
    · rintro ⟨t, ran⟩
      simp [refused] at ran
    · intro result ran
      simp [refused] at ran

end Program

/-! ## The whole program -/

/-- The generated program with its Poseidon components, for any tables of
constants: a run has a result exactly for input signals that satisfy the circuit,
and then every signal represents the satisfying assignment. -/
theorem generatedProgram_iff_satisfiable
    {tables : Nat -> PoseidonTables FrElement}
    {constants : Nat -> PoseidonTables Fr}
    {inputs : TransactionInputs FrElement 4 4 20}
    {values : TransactionInputs Fr 4 4 20}
    (table : ∀ t, TablesRepresent (tables t) (constants t))
    (represents : InputsRepresent inputs values) :
    ((∃ t, transactionRun (poseidonComponents tables) inputs = some t) ↔
      ∃ signals : Transaction Fr 4 4 20,
        signals.toTransactionInputs = values ∧
          signals.Constraints (poseidonHash constants)) ∧
    ∀ t, transactionRun (poseidonComponents tables) inputs = some t ->
      ∃ signals : Transaction Fr 4 4 20,
        signals.toTransactionInputs = values ∧
          signals.Constraints (poseidonHash constants) ∧
          TransactionRepresents t signals :=
  transactionRun_iff_satisfiable (poseidonComponents_hashesTo table) represents

/-- Zero in long Montgomery form. -/
def longZero : FrElement :=
  ⟨0, FrElement.longMontgomeryType, ⟨0, 0, 0, 0⟩⟩

theorem longZero_represents : Represents longZero 0 := by
  have form : Holds ⟨0, 0, 0, 0⟩ ((0 : Nat) : Fr) :=
    holds_of_toNat (by rw [RawElement.toNat_eq]; decide)
  apply FrElement.represents_longMontgomery
  rwa [Nat.cast_zero, ← zero_mul radix] at form

/-- Tables of zeros, under which every hash is zero. -/
def zeroTables {R : Type} (zero : R) (_t : Nat) : PoseidonTables R where
  C := fun _ => zero
  S := fun _ => zero
  M := fun _ _ => zero
  P := fun _ _ => zero

theorem poseidonHash_zeroTables (list : List Fr) :
    poseidonHash (zeroTables 0) list = 0 := by
  have combination {t : Nat} (state : Fin t -> Fr) :
      PoseidonTables.combination (fun _ => 0) state = 0 := by
    simp [PoseidonTables.combination]
  unfold poseidonHash
  split
  · exact combination _
  · exact combination _
  · rfl

theorem slot_represents : Represents slot 0 :=
  .short rfl rfl (by rw [slot]; simp)

theorem one_represents : Represents (circuitConstants 90) 1 := by
  have represents := represents_one
  rwa [Nat.cast_one] at represents

/-- Four notes of value one that are paid back to four outputs, under a hash
that is always zero. -/
def sampleTransaction {R : Type} (zero one : R) : TransactionInputs R 4 4 20 where
  root := zero
  nullifierHashes := fun _ => zero
  outCommitments := fun _ => zero
  inAmount := fun _ => one
  inSecret := fun _ => zero
  inRecipient := fun _ => zero
  inPathElements := fun _ _ => zero
  inPathIndices := fun _ _ => zero
  outAmount := fun _ => one
  outSecret := fun _ => zero
  outRecipient := fun _ => zero

theorem sampleTransaction_represents :
    InputsRepresent (sampleTransaction slot (circuitConstants 90))
      (sampleTransaction 0 1) where
  root := slot_represents
  nullifierHashes := fun _ => slot_represents
  outCommitments := fun _ => slot_represents
  inAmount := fun _ => one_represents
  inSecret := fun _ => slot_represents
  inRecipient := fun _ => slot_represents
  inPathElements := fun _ _ => slot_represents
  inPathIndices := fun _ _ => slot_represents
  outAmount := fun _ => one_represents
  outSecret := fun _ => slot_represents
  outRecipient := fun _ => slot_represents

theorem sampleTransaction_satisfiable :
    ∃ signals : Transaction Fr 4 4 20,
      signals.toTransactionInputs = sampleTransaction 0 1 ∧
        signals.Constraints (poseidonHash (zeroTables 0)) := by
  rw [Transaction.satisfiable_iff]
  exact
    { nullifier := fun _ => poseidonHash_zeroTables _
      merkleRoot := by
        intro i
        rw [MerkleProof.pathRoot, ← Fin.succ_last,
          MerkleProof.runningHashes_succ]
        exact poseidonHash_zeroTables _
      outCommitment := fun _ => poseidonHash_zeroTables _
      balance := rfl }

theorem zeroTables_represent (t : Nat) :
    TablesRepresent (zeroTables longZero t) (zeroTables 0 t) where
  C := fun _ => longZero_represents
  S := fun _ => longZero_represents
  M := fun _ _ => longZero_represents
  P := fun _ _ => longZero_represents

theorem generatedProgram_pays_back :
    ∃ t, transactionRun (poseidonComponents (zeroTables longZero))
      (sampleTransaction slot (circuitConstants 90)) = some t :=
  (generatedProgram_iff_satisfiable zeroTables_represent
    sampleTransaction_represents).1.mpr sampleTransaction_satisfiable

end Generator
end Privachain

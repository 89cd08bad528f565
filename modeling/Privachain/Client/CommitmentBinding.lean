import Privachain.Client.Notes
import Mathlib.Data.ZMod.Basic

/-!
# Binding of note commitments

A commitment hashes the residues of its three numbers.  Two notes with one
commitment therefore hold congruent numbers, or their residues are a collision
of Poseidon.  Nothing restricts the numbers to canonical residues, so the
integers themselves may differ.
-/

namespace Privachain
namespace Client

open Circuit
open Foundation.JavaScript

/-! ## The residues of a note -/

/-- Amount, secret and recipient as the commitment hashes them. -/
def Note.residues (note : Note) : List Fr :=
  [(note.amount : Fr), (note.secret : Fr), (note.recipient : Fr)]

/-- The numbers of two notes are congruent modulo the field order. -/
def Note.Congruent (left right : Note) : Prop :=
  left.amount ≡ right.amount [ZMOD fieldSize] ∧
    left.secret ≡ right.secret [ZMOD fieldSize] ∧
    left.recipient ≡ right.recipient [ZMOD fieldSize]

/-- The residues of two notes are different and have the same hash. -/
def Note.Collide (poseidon : List Fr -> Fr) (left right : Note) : Prop :=
  left.residues ≠ right.residues ∧
    poseidon left.residues = poseidon right.residues

/-- The numbers of a note are canonical residues. -/
def Note.Canonical (note : Note) : Prop :=
  (0 ≤ note.amount ∧ note.amount < fieldSize) ∧
    (0 ≤ note.secret ∧ note.secret < fieldSize) ∧
    (0 ≤ note.recipient ∧ note.recipient < fieldSize)

theorem Note.residues_eq_iff
    (left right : Note) :
    left.residues = right.residues ↔ left.Congruent right := by
  simp [residues, Congruent, ZMod.intCast_eq_intCast_iff]

/-- Congruent canonical numbers are the same numbers. -/
theorem Note.Congruent.eq_of_canonical
    {left right : Note}
    (congruent : left.Congruent right)
    (leftCanonical : left.Canonical)
    (rightCanonical : right.Canonical) :
    left.amount = right.amount ∧ left.secret = right.secret ∧
      left.recipient = right.recipient := by
  obtain ⟨leftAmount, leftSecret, leftRecipient⟩ := leftCanonical
  obtain ⟨rightAmount, rightSecret, rightRecipient⟩ := rightCanonical
  obtain ⟨amount, secret, recipient⟩ := congruent
  rw [Int.ModEq, Int.emod_eq_of_lt leftAmount.1 leftAmount.2,
    Int.emod_eq_of_lt rightAmount.1 rightAmount.2] at amount
  rw [Int.ModEq, Int.emod_eq_of_lt leftSecret.1 leftSecret.2,
    Int.emod_eq_of_lt rightSecret.1 rightSecret.2] at secret
  rw [Int.ModEq, Int.emod_eq_of_lt leftRecipient.1 leftRecipient.2,
    Int.emod_eq_of_lt rightRecipient.1 rightRecipient.2] at recipient
  exact ⟨amount, secret, recipient⟩

/-! ## Commitments -/

/-- A commitment is the printed hash of the residues, and there is none before
the prover is initialized. -/
theorem computeCommitment_eq_ok_iff
    (circuit : CircuitInterface)
    (amount secret recipient : Int)
    (commitment : String) :
    computeCommitment circuit amount secret recipient = .ok commitment ↔
      ∃ poseidon, circuit.poseidon = some poseidon ∧
        commitment = fieldToString
          (poseidon [(amount : Fr), (secret : Fr), (recipient : Fr)]) := by
  unfold computeCommitment hash
  cases circuit.poseidon with
  | none => simp
  | some poseidon =>
      simp [List.mapM_cons, HashInput.toBigInt, bind, Except.bind, pure,
        Except.pure, eq_comm]

/-- The commitment of a created note is the printed hash of its residues. -/
theorem commitment_of_createNote
    {circuit : CircuitInterface}
    {platform : Platform}
    {amount recipient : Int}
    {secret : Option Int}
    {note : Note}
    (created : createNote circuit platform amount recipient secret = .ok note) :
    ∃ poseidon, circuit.poseidon = some poseidon ∧
      note.commitment = fieldToString (poseidon note.residues) := by
  obtain ⟨commitment, computed, rfl⟩ :=
    (createNote_eq_ok_iff _ _ _ _ _ _).mp created
  exact (computeCommitment_eq_ok_iff _ _ _ _ _).mp computed

/-- A note created with an explicit non-zero secret holds its arguments. -/
theorem numbers_of_createNote
    {circuit : CircuitInterface}
    {platform : Platform}
    {amount recipient secret : Int}
    {note : Note}
    (nonzero : secret ≠ 0)
    (created : createNote circuit platform amount recipient (some secret) =
      .ok note) :
    note.amount = amount ∧ note.secret = secret ∧
      note.recipient = recipient := by
  obtain ⟨_, _, rfl⟩ := (createNote_eq_ok_iff _ _ _ _ _ _).mp created
  exact ⟨rfl, if_neg nonzero, rfl⟩

/-- Two created notes have one commitment exactly when their numbers are
congruent or collide. -/
theorem commitment_eq_iff_of_createNote
    {circuit : CircuitInterface}
    {poseidon : List Fr -> Fr}
    {platform otherPlatform : Platform}
    {amount recipient amount' recipient' : Int}
    {secret secret' : Option Int}
    {note note' : Note}
    (ready : circuit.poseidon = some poseidon)
    (created : createNote circuit platform amount recipient secret = .ok note)
    (created' : createNote circuit otherPlatform amount' recipient' secret' =
      .ok note') :
    note.commitment = note'.commitment ↔
      note.Congruent note' ∨ note.Collide poseidon note' := by
  obtain ⟨_, same, commitment⟩ := commitment_of_createNote created
  obtain ⟨_, same', commitment'⟩ := commitment_of_createNote created'
  obtain rfl := Option.some.inj (ready.symm.trans same)
  obtain rfl := Option.some.inj (ready.symm.trans same')
  rw [commitment, commitment', fieldToString_inj, ← Note.residues_eq_iff,
    Note.Collide]
  constructor
  · intro sameHash
    by_cases sameResidues : note.residues = note'.residues
    · exact .inl sameResidues
    · exact .inr ⟨sameResidues, sameHash⟩
  · rintro (sameResidues | ⟨_, sameHash⟩)
    · rw [sameResidues]
    · exact sameHash

/-- **Binding.**  Two notes with one commitment, each created with an explicit
non-zero secret, were created from congruent numbers, or their residues are a
collision of Poseidon. -/
theorem congruent_or_collide_of_commitment_eq
    (circuit : CircuitInterface)
    (platform platform' : Platform)
    (amount recipient secret amount' recipient' secret' : Int)
    (nonzero : secret ≠ 0)
    (nonzero' : secret' ≠ 0)
    (note note' : Note)
    (created : createNote circuit platform amount recipient (some secret) =
      .ok note)
    (created' : createNote circuit platform' amount' recipient'
      (some secret') = .ok note')
    (same : note.commitment = note'.commitment) :
    (amount ≡ amount' [ZMOD fieldSize] ∧
        secret ≡ secret' [ZMOD fieldSize] ∧
        recipient ≡ recipient' [ZMOD fieldSize]) ∨
      ∃ poseidon, circuit.poseidon = some poseidon ∧
        [(amount : Fr), (secret : Fr), (recipient : Fr)] ≠
          [(amount' : Fr), (secret' : Fr), (recipient' : Fr)] ∧
        poseidon [(amount : Fr), (secret : Fr), (recipient : Fr)] =
          poseidon [(amount' : Fr), (secret' : Fr), (recipient' : Fr)] := by
  obtain ⟨poseidon, ready, _⟩ := commitment_of_createNote created
  obtain ⟨rfl, rfl, rfl⟩ := numbers_of_createNote nonzero created
  obtain ⟨rfl, rfl, rfl⟩ := numbers_of_createNote nonzero' created'
  cases (commitment_eq_iff_of_createNote ready created created').mp same with
  | inl congruent => exact .inl congruent
  | inr collide => exact .inr ⟨poseidon, ready, collide⟩

/-- The numbers `1` and `1 + p` have one residue. -/
theorem residue_one_add : ((1 : Int) : Fr) = ((1 + fieldSize : Int) : Fr) := by
  simp

/-- The hypotheses hold of notes with the amounts `1` and `1 + p`. -/
theorem congruent_or_collide_of_commitment_eq_amounts :
    ((1 : Int) ≡ 1 + fieldSize [ZMOD fieldSize] ∧
        (3 : Int) ≡ 3 [ZMOD fieldSize] ∧ (2 : Int) ≡ 2 [ZMOD fieldSize]) ∨
      ∃ poseidon, (initialized List.sum).poseidon = some poseidon ∧
        [((1 : Int) : Fr), ((3 : Int) : Fr), ((2 : Int) : Fr)] ≠
          [((1 + fieldSize : Int) : Fr), ((3 : Int) : Fr), ((2 : Int) : Fr)] ∧
        poseidon [((1 : Int) : Fr), ((3 : Int) : Fr), ((2 : Int) : Fr)] =
          poseidon
            [((1 + fieldSize : Int) : Fr), ((3 : Int) : Fr), ((2 : Int) : Fr)] := by
  refine congruent_or_collide_of_commitment_eq (initialized List.sum) ⟨0, 0⟩
    ⟨0, 0⟩ 1 2 3 (1 + fieldSize) 2 3 (by decide) (by decide) _ _ rfl rfl ?_
  change fieldToString
      (List.sum [((1 : Int) : Fr), ((3 : Int) : Fr), ((2 : Int) : Fr)]) =
    fieldToString (List.sum
      [((1 + fieldSize : Int) : Fr), ((3 : Int) : Fr), ((2 : Int) : Fr)])
  rw [residue_one_add]

/-- Amounts `1` and `1 + p` give one commitment, from the same residues. -/
theorem createNote_congruent_amounts :
    ∃ note note' : Note,
      createNote (initialized List.sum) ⟨0, 0⟩ 1 2 (some 3) = .ok note ∧
      createNote (initialized List.sum) ⟨0, 0⟩ (1 + fieldSize) 2 (some 3) =
        .ok note' ∧
      note.commitment = note'.commitment ∧
      (note.amount, note.secret, note.recipient) ≠
        (note'.amount, note'.secret, note'.recipient) ∧
      ¬ note.Collide List.sum note' := by
  refine ⟨_, _, rfl, rfl, ?_, ?_, ?_⟩
  · change fieldToString
        (List.sum [((1 : Int) : Fr), ((3 : Int) : Fr), ((2 : Int) : Fr)]) =
      fieldToString (List.sum
        [((1 + fieldSize : Int) : Fr), ((3 : Int) : Fr), ((2 : Int) : Fr)])
    rw [residue_one_add]
  · intro sameNumbers
    exact absurd (congrArg Prod.fst sameNumbers) (by decide)
  · rintro ⟨different, _⟩
    exact different (by simp only [Note.residues, residue_one_add])

/-- On canonical residues one commitment means the same numbers or a
collision. -/
theorem eq_or_collide_of_canonical
    {circuit : CircuitInterface}
    {poseidon : List Fr -> Fr}
    {platform platform' : Platform}
    {amount recipient amount' recipient' : Int}
    {secret secret' : Option Int}
    {note note' : Note}
    (ready : circuit.poseidon = some poseidon)
    (created : createNote circuit platform amount recipient secret = .ok note)
    (created' : createNote circuit platform' amount' recipient' secret' =
      .ok note')
    (canonical : note.Canonical)
    (canonical' : note'.Canonical)
    (same : note.commitment = note'.commitment) :
    (note.amount = note'.amount ∧ note.secret = note'.secret ∧
        note.recipient = note'.recipient) ∨
      note.Collide poseidon note' :=
  ((commitment_eq_iff_of_createNote ready created created').mp same).imp_left
    fun congruent => congruent.eq_of_canonical canonical canonical'

end Client
end Privachain

import Privachain.Circuit.MerkleSoundness
import Privachain.Circuit.Transaction
import Privachain.Foundation.MerklePath

/-!
# Honest spends

The owner of notes in a tree assigns the sibling path and the binary digits of
each position to the circuit.  On binary digits the template climbs the path of
the position, so it outputs the root of the tree.
-/

namespace Privachain
namespace Circuit

open Foundation

universe u

/-! ## Binary digits as selectors -/

section Digits

variable {F : Type u} [CommRing F] {levels : Nat}

/-- A binary digit of a position, the least significant one first. -/
def binaryDigit (position level : Nat) : F :=
  ((position / 2 ^ level % 2 : Nat) : F)

/-- A binary digit selects its side. -/
theorem binaryDigit_eq (position level : Nat) :
    (binaryDigit position level : F) =
      if position.testBit level then 1 else 0 := by
  rw [binaryDigit, Nat.testBit_eq_decide_div_mod_eq]
  rcases Nat.mod_two_eq_zero_or_one (position / 2 ^ level) with even | odd
  · simp [even]
  · simp [odd]

/-- A selector `0` or `1` hashes the pair of its side. -/
theorem hashedPair_of_side (current sibling : F) (side : Bool) :
    MerkleProof.hashedPair current sibling (if side then 1 else 0) =
      levelPair current (side, sibling) := by
  cases side with
  | true => exact MerkleProof.hashedPair_one current sibling
  | false => exact MerkleProof.hashedPair_zero current sibling

/-- With sides as selectors the template climbs the path. -/
theorem pathRoot_eq_climb
    (poseidon : List F -> F)
    (leaf : F)
    (pathElements : Fin levels -> F)
    (side : Fin levels -> Bool) :
    MerkleProof.pathRoot poseidon leaf pathElements
        (fun i => if side i then 1 else 0) =
      climb (pairHash poseidon) leaf
        (List.ofFn fun i => (side i, pathElements i)) := by
  induction levels with
  | zero => rfl
  | succ levels inductionHypothesis =>
      rw [MerkleProof.pathRoot, ← Fin.succ_last,
        MerkleProof.runningHashes_succ, MerkleProof.runningHashes_castSucc,
        List.ofFn_succ', climb_concat,
        ← inductionHypothesis (fun i => pathElements i.castSucc)
          fun i => side i.castSucc]
      rw [hashedPair_of_side]
      rfl

/-- With the digits of a position as selectors the template climbs the path of
the position. -/
theorem pathRoot_binaryDigit
    (poseidon : List F -> F)
    (leaf : F)
    (pathElements : Fin levels -> F)
    (position : Nat) :
    MerkleProof.pathRoot poseidon leaf pathElements
        (fun i => binaryDigit position i) =
      climb (pairHash poseidon) leaf (List.ofFn fun i =>
        (PerfectTree.sidesOf levels position i, pathElements i)) := by
  simp only [binaryDigit_eq]
  exact pathRoot_eq_climb poseidon leaf pathElements
    (PerfectTree.sidesOf levels position)

/-- The sibling path of a position leads to the root of the tree. -/
theorem pathRoot_siblings
    (poseidon : List F -> F)
    (tree : PerfectTree F levels)
    {position : Nat}
    {leaf : F}
    (atPosition : tree.leaves[position]? = some leaf) :
    MerkleProof.pathRoot poseidon leaf
        (tree.siblings (pairHash poseidon)
          (PerfectTree.sidesOf levels position))
        (fun i => binaryDigit position i) =
      tree.root (pairHash poseidon) := by
  have within : position < 2 ^ levels := by
    obtain ⟨within, -⟩ := List.getElem?_eq_some_iff.mp atPosition
    rwa [tree.length_leaves] at within
  obtain rfl : tree.leafAt (PerfectTree.sidesOf levels position) = leaf :=
    Option.some.inj ((tree.leaves_getElem? within).symm.trans atPosition)
  rw [pathRoot_binaryDigit]
  exact tree.climb_path (pairHash poseidon) _

end Digits

/-! ## The assignment of an honest spender -/

section Spend

variable {F : Type u} [CommRing F] {nInputs nOutputs levels : Nat}

/-- A note: the amount, the secret and the recipient. -/
structure NoteOpening (F : Type u) where
  amount : F
  secret : F
  recipient : F

/-- The hash of the three parts of a note. -/
def NoteOpening.commitment
    (poseidon : List F -> F)
    (note : NoteOpening F) : F :=
  poseidon [note.amount, note.secret, note.recipient]

/-- The signals that an honest spender assigns: the root of the tree, the
nullifiers, the notes, and for every input the sibling path and the digits of
its position. -/
def honestInputs
    (poseidon : List F -> F)
    (tree : PerfectTree F levels)
    (position : Fin nInputs -> Nat)
    (input : Fin nInputs -> NoteOpening F)
    (output : Fin nOutputs -> NoteOpening F) :
    TransactionInputs F nInputs nOutputs levels where
  root := tree.root (pairHash poseidon)
  nullifierHashes i :=
    poseidon [(input i).commitment poseidon, (input i).secret]
  outCommitments i := (output i).commitment poseidon
  inAmount i := (input i).amount
  inSecret i := (input i).secret
  inRecipient i := (input i).recipient
  inPathElements i := tree.siblings (pairHash poseidon)
    (PerfectTree.sidesOf levels (position i))
  inPathIndices i level := binaryDigit (position i) level
  outAmount i := (output i).amount
  outSecret i := (output i).secret
  outRecipient i := (output i).recipient

/-- **Honest spends satisfy the circuit.**  Notes at positions of a tree can be
spent to any outputs of the same sum, and on the sibling path and the digits of
a position the Merkle template outputs the root of the tree. -/
theorem honestSpend_satisfies
    (poseidon : List F -> F)
    (tree : PerfectTree F levels)
    (position : Fin nInputs -> Nat)
    (input : Fin nInputs -> NoteOpening F)
    (output : Fin nOutputs -> NoteOpening F)
    (atPosition : ∀ i, tree.leaves[position i]? =
      some ((input i).commitment poseidon))
    (balanced : ∑ i, (input i).amount = ∑ i, (output i).amount) :
    (∃ t : Transaction F nInputs nOutputs levels,
      t.toTransactionInputs =
          honestInputs poseidon tree position input output ∧
        t.Constraints poseidon) ∧
    ∀ proof : MerkleProof F levels, proof.Constraints poseidon ->
      ∀ position : Nat, tree.leaves[position]? = some proof.leaf ->
        proof.pathElements = tree.siblings (pairHash poseidon)
          (PerfectTree.sidesOf levels position) ->
        (∀ level, proof.pathIndices level = binaryDigit position level) ->
        proof.root = tree.root (pairHash poseidon) := by
  constructor
  · rw [Transaction.satisfiable_iff]
    exact {
      nullifier := fun _ => rfl
      merkleRoot := fun i => pathRoot_siblings poseidon tree (atPosition i)
      outCommitment := fun _ => rfl
      balance := balanced }
  · intro proof constraints position atLeaf elements indices
    rw [constraints.root_eq_pathRoot, elements, funext indices]
    exact pathRoot_siblings poseidon tree atLeaf

end Spend

/-! ## A sample spend -/

/-- A hash of two or three inputs that is no sum. -/
def sampleHash : List Int -> Int
  | [left, right] => 3 * left + 5 * right + 1
  | [amount, secret, recipient] => amount + 7 * secret + 11 * recipient
  | _ => 0

/-- Two notes in a tree of depth one. -/
def sampleNotes : Fin 2 -> NoteOpening Int :=
  ![{ amount := 4, secret := 1, recipient := 2 },
    { amount := 6, secret := 3, recipient := 2 }]

/-- The tree of the sample notes. -/
def sampleTree : PerfectTree Int 1 :=
  .node (.leaf ((sampleNotes ⟨0, Nat.zero_lt_two⟩).commitment sampleHash))
    (.leaf ((sampleNotes ⟨1, Nat.one_lt_two⟩).commitment sampleHash))

/-- Both sample notes are spent to one note. -/
theorem sampleNotes_satisfy :
    ∃ t : Transaction Int 2 1 1, t.Constraints sampleHash := by
  obtain ⟨⟨t, _, constraints⟩, _⟩ := honestSpend_satisfies sampleHash sampleTree
    (fun i => i.val) sampleNotes
    (fun _ : Fin 1 => { amount := 10, secret := 5, recipient := 9 })
    (by decide) (by decide)
  exact ⟨t, constraints⟩

end Circuit
end Privachain

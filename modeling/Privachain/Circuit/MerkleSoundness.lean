import Privachain.Circuit.Field
import Privachain.Circuit.MerkleProof

/-!
# Membership soundness of the Merkle template

With selectors in `{0, 1}` a satisfying assignment is a hash chain whose sides
are the selectors, and the binding theorem of Merkle trees applies.  The
template leaves the selectors free.  A selector outside `{0, 1}` splits any pair
with the sum of the running hash and the path element, which opens a foreign
leaf against some tree without any collision.
-/

namespace Privachain
namespace Circuit

open Foundation

universe u

/-- `Poseidon(2)` as a function of two arguments. -/
def pairHash {F : Type u} (poseidon : List F -> F) (left right : F) : F :=
  poseidon [left, right]

namespace MerkleProof

variable {F : Type u} {levels : Nat}

/-- The input pairs of the hashers, from the leaf upwards. -/
def inputPair (proof : MerkleProof F levels) (i : Fin levels) : F × F :=
  (proof.hashers i).inputPair

/-- The list of all input pairs of the hashers. -/
def hashedPairs (proof : MerkleProof F levels) : List (F × F) :=
  List.ofFn proof.inputPair

/-- Membership soundness of an assignment against a tree with its root: the
leaf is one of the tree's leaves, or the assignment and the tree contain two
different input pairs with one hash. -/
def BindsLeaf
    (poseidon : List F -> F)
    (proof : MerkleProof F levels)
    (tree : PerfectTree F levels) : Prop :=
  proof.leaf ∈ tree.leaves ∨
    Collides (pairHash poseidon)
      (proof.hashedPairs ++ tree.hashedPairs (pairHash poseidon))

variable [CommRing F]

/-- The hashed pair of a level is the interpolated pair. -/
theorem Constraints.inputPair_eq
    {poseidon : List F -> F}
    {proof : MerkleProof F levels}
    (constraints : proof.Constraints poseidon)
    (i : Fin levels) :
    proof.inputPair i =
      hashedPair (proof.hashes i.castSucc) (proof.pathElements i)
        (proof.pathIndices i) := by
  rw [inputPair, constraints.hashers_eq i, constraints.mux_eq i]
  rfl

/-- The running hashes form a hash chain. -/
theorem Constraints.isHashChain
    {poseidon : List F -> F}
    {proof : MerkleProof F levels}
    (constraints : proof.Constraints poseidon) :
    IsHashChain (pairHash poseidon) proof.hashes proof.inputPair := by
  intro i
  rw [constraints.hashes_succ_eq i, constraints.inputPair_eq i]
  rfl

/-! ## Boolean selectors -/

section Boolean

variable [DecidableEq F]

/-- The sides that a vector of selectors selects. -/
def sides (pathIndices : Fin levels -> F) (i : Fin levels) : Bool :=
  decide (pathIndices i = 1)

/-- With boolean selectors the running hash is on the selected side. -/
theorem Constraints.onSide
    {poseidon : List F -> F}
    {proof : MerkleProof F levels}
    (constraints : proof.Constraints poseidon)
    (boolean : ∀ i, proof.pathIndices i = 0 ∨ proof.pathIndices i = 1) :
    OnSide (sides proof.pathIndices) proof.hashes proof.inputPair := by
  intro i
  rw [constraints.inputPair_eq i]
  by_cases unit : proof.pathIndices i = 1
  · simp [sides, unit, hashedPair_one]
  · have zero : proof.pathIndices i = 0 := (boolean i).resolve_right unit
    rw [zero] at unit ⊢
    simp [sides, zero, unit, hashedPair_zero]

/-- With boolean selectors the leaf is the tree's leaf on the selected sides,
up to a collision. -/
theorem Constraints.leafAt_or_collides
    {poseidon : List F -> F}
    {proof : MerkleProof F levels}
    (constraints : proof.Constraints poseidon)
    (boolean : ∀ i, proof.pathIndices i = 0 ∨ proof.pathIndices i = 1)
    (tree : PerfectTree F levels)
    (sameRoot : tree.root (pairHash poseidon) = proof.root) :
    proof.leaf = tree.leafAt (sides proof.pathIndices) ∨
      Collides (pairHash poseidon)
        (proof.hashedPairs ++ tree.hashedPairs (pairHash poseidon)) := by
  rw [← constraints.hashes_zero]
  apply Foundation.leafAt_or_collides tree constraints.isHashChain
    (constraints.onSide boolean)
  rw [← constraints.root_eq, sameRoot]

/-- Boolean selectors make the template sound. -/
theorem Constraints.bindsLeaf_of_boolean
    {poseidon : List F -> F}
    {proof : MerkleProof F levels}
    (constraints : proof.Constraints poseidon)
    (boolean : ∀ i, proof.pathIndices i = 0 ∨ proof.pathIndices i = 1)
    (tree : PerfectTree F levels)
    (sameRoot : tree.root (pairHash poseidon) = proof.root) :
    proof.BindsLeaf poseidon tree := by
  refine (constraints.leafAt_or_collides boolean tree sameRoot).imp ?_ id
  intro leafEquality
  rw [leafEquality]
  exact tree.leafAt_mem_leaves _

end Boolean

/-! ## Opening a foreign leaf through a free selector -/

/-- A hash that returns its first input. -/
def firstInput : List F -> F
  | [] => 0
  | first :: _ => first

/-- The running hashes below the top depend on the lower inputs only. -/
theorem runningHashes_castSucc
    (poseidon : List F -> F)
    (leaf : F)
    (pathElements pathIndices : Fin (levels + 1) -> F)
    (i : Fin (levels + 1)) :
    runningHashes poseidon leaf pathElements pathIndices i.castSucc =
      runningHashes poseidon leaf (Fin.init pathElements)
        (Fin.init pathIndices) i := by
  induction i using Fin.induction with
  | zero => rfl
  | succ i inductionHypothesis =>
      rw [← Fin.succ_castSucc, runningHashes_succ, runningHashes_succ,
        inductionHypothesis]
      rfl

/-- Zero siblings keep a zero leaf at zero on every level. -/
theorem runningHashes_firstInput_zero
    (pathIndices : Fin levels -> F)
    (i : Fin (levels + 1)) :
    runningHashes firstInput 0 (fun _ => 0) pathIndices i = 0 := by
  induction i using Fin.induction with
  | zero => rfl
  | succ i inductionHypothesis =>
      rw [runningHashes_succ, inductionHypothesis]
      simp [hashedPair, firstInput]

/-- Pairs over a value and its complement, and the zero pair. -/
def attackPairs (value : F) : List (F × F) :=
  [(0, 0), (value, 1 - value), (1 - value, value)]

/-- A boolean selector keeps complementary inputs complementary. -/
theorem hashedPair_complement
    {value current selector : F}
    (complementary : current = value ∨ current = 1 - value)
    (boolean : selector = 0 ∨ selector = 1) :
    hashedPair current (1 - current) selector = (value, 1 - value) ∨
      hashedPair current (1 - current) selector = (1 - value, value) := by
  rcases boolean with rfl | rfl <;> rcases complementary with rfl | rfl <;>
    simp [hashedPair_zero, hashedPair_one]

/-- Path elements that take the zero leaf to a value or its complement and hash
attack pairs only. -/
structure Attacks
    (pathIndices : Fin levels -> F)
    (value : F)
    (pathElements : Fin levels -> F) : Prop where
  notZero : value ≠ 0
  notOne : value ≠ 1
  rootValue :
    pathRoot firstInput 0 pathElements pathIndices = value ∨
      pathRoot firstInput 0 pathElements pathIndices = 1 - value
  pairs : ∀ i,
    hashedPair (runningHashes firstInput 0 pathElements pathIndices i.castSucc)
      (pathElements i) (pathIndices i) ∈ attackPairs value

/-- At a free top selector: zeros below, and the top splits the pair
`(selector, 1 - selector)`. -/
theorem attacks_of_topFree
    (pathIndices : Fin (levels + 1) -> F)
    (notZero : pathIndices (Fin.last levels) ≠ 0)
    (notOne : pathIndices (Fin.last levels) ≠ 1) :
    Attacks pathIndices (pathIndices (Fin.last levels))
      (Fin.snoc (fun _ => 0) 1) := by
  let selector := pathIndices (Fin.last levels)
  let pathElements : Fin (levels + 1) -> F := Fin.snoc (fun _ => 0) 1
  have below : ∀ i, runningHashes firstInput 0 pathElements pathIndices
      (Fin.castSucc i) = 0 := by
    intro i
    rw [runningHashes_castSucc, Fin.init_snoc]
    exact runningHashes_firstInput_zero _ i
  have topElement : pathElements (Fin.last levels) = 1 := Fin.snoc_last _ _
  have split : hashedPair (0 : F) 1 selector = (selector, 1 - selector) := by
    simp [hashedPair, sub_eq_neg_add]
  refine ⟨notZero, notOne, Or.inl ?_, ?_⟩
  · change pathRoot firstInput 0 pathElements pathIndices = selector
    rw [pathRoot, ← Fin.succ_last, runningHashes_succ, below, topElement]
    exact congrArg Prod.fst split
  · intro i
    change hashedPair
      (runningHashes firstInput 0 pathElements pathIndices i.castSucc)
      (pathElements i) (pathIndices i) ∈ attackPairs selector
    refine i.lastCases ?_ fun j => ?_
    · rw [below, topElement]
      change hashedPair (0 : F) 1 selector ∈ _
      simp [split, attackPairs]
    · rw [below]
      have element : pathElements j.castSucc = 0 := Fin.snoc_castSucc _ _ _
      simp [element, hashedPair, attackPairs]

/-- A boolean level above an attack stays on its pair. -/
theorem Attacks.above
    {pathIndices : Fin (levels + 1) -> F}
    {value : F}
    {lower : Fin levels -> F}
    (attacks : Attacks (Fin.init pathIndices) value lower)
    (boolean : pathIndices (Fin.last levels) = 0 ∨
      pathIndices (Fin.last levels) = 1) :
    Attacks pathIndices value (Fin.snoc lower
      (1 - pathRoot firstInput 0 lower (Fin.init pathIndices))) := by
  let top := pathRoot firstInput 0 lower (Fin.init pathIndices)
  let pathElements : Fin (levels + 1) -> F := Fin.snoc lower (1 - top)
  have lowerElements : Fin.init pathElements = lower := Fin.init_snoc _ _
  have topElement : pathElements (Fin.last levels) = 1 - top :=
    Fin.snoc_last _ _
  have below : ∀ i, runningHashes firstInput 0 pathElements pathIndices
      (Fin.castSucc i) =
        runningHashes firstInput 0 lower (Fin.init pathIndices) i := by
    intro i
    rw [runningHashes_castSucc, lowerElements]
  have topPair := hashedPair_complement attacks.rootValue boolean
  refine ⟨attacks.notZero, attacks.notOne, ?_, ?_⟩
  · change pathRoot firstInput 0 pathElements pathIndices = value ∨
      pathRoot firstInput 0 pathElements pathIndices = 1 - value
    rw [pathRoot, ← Fin.succ_last, runningHashes_succ, below, topElement]
    exact topPair.imp (congrArg Prod.fst) (congrArg Prod.fst)
  · intro i
    change hashedPair
      (runningHashes firstInput 0 pathElements pathIndices i.castSucc)
      (pathElements i) (pathIndices i) ∈ attackPairs value
    refine i.lastCases ?_ fun j => ?_
    · rw [below, topElement]
      change hashedPair top (1 - top) _ ∈ attackPairs value
      cases topPair with
      | inl equal =>
          rw [equal]
          simp [attackPairs]
      | inr equal =>
          rw [equal]
          simp [attackPairs]
    · rw [below]
      exact lowerElements ▸ attacks.pairs j

/-- An attack exists whenever some selector is free: it starts at the highest
free one. -/
theorem exists_attacks
    (pathIndices : Fin levels -> F)
    (free : ∃ i, pathIndices i ≠ 0 ∧ pathIndices i ≠ 1) :
    ∃ value pathElements, Attacks pathIndices value pathElements := by
  induction levels with
  | zero => exact free.choose.elim0
  | succ levels inductionHypothesis =>
      by_cases topBoolean :
          pathIndices (Fin.last levels) = 0 ∨ pathIndices (Fin.last levels) = 1
      · have lowerFree : ∃ i, Fin.init pathIndices i ≠ 0 ∧
            Fin.init pathIndices i ≠ 1 := by
          obtain ⟨i, notZero, notOne⟩ := free
          refine i.lastCases ?_ ?_ notZero notOne
          · intro topNotZero topNotOne
            exact (topBoolean.elim topNotZero topNotOne).elim
          · intro j lowerNotZero lowerNotOne
            exact ⟨j, lowerNotZero, lowerNotOne⟩
        obtain ⟨value, lower, attacks⟩ :=
          inductionHypothesis (Fin.init pathIndices) lowerFree
        exact ⟨value, _, attacks.above topBoolean⟩
      · obtain ⟨notZero, notOne⟩ := not_or.mp topBoolean
        exact ⟨_, _, attacks_of_topFree pathIndices notZero notOne⟩

/-- A perfect tree whose siblings always carry two complementary roots under
the first-input hash. -/
def alternating (first second : F) : (depth : Nat) -> PerfectTree F depth
  | 0 => .leaf first
  | depth + 1 =>
      .node (alternating first second depth) (alternating second first depth)

@[simp] theorem alternating_root (first second : F) (depth : Nat) :
    (alternating first second depth).root (pairHash firstInput) = first := by
  induction depth generalizing first second with
  | zero => rfl
  | succ depth inductionHypothesis =>
      rw [alternating, PerfectTree.root_node, inductionHypothesis]
      rfl

omit [CommRing F] in
/-- The leaves of an alternating tree are its two values. -/
theorem mem_alternating_leaves
    {first second leaf : F}
    {depth : Nat}
    (member : leaf ∈ (alternating first second depth).leaves) :
    leaf = first ∨ leaf = second := by
  induction depth generalizing first second with
  | zero => exact Or.inl (List.mem_singleton.mp member)
  | succ depth inductionHypothesis =>
      rw [alternating, PerfectTree.leaves_node, List.mem_append] at member
      rcases member with inLeft | inRight
      · exact inductionHypothesis inLeft
      · exact (inductionHypothesis inRight).symm

/-- An alternating tree hashes its two values in both orders only. -/
theorem mem_alternating_hashedPairs
    {first second : F}
    {pair : F × F}
    {depth : Nat}
    (member : pair ∈
      (alternating first second depth).hashedPairs (pairHash firstInput)) :
    pair = (first, second) ∨ pair = (second, first) := by
  induction depth generalizing first second with
  | zero => exact absurd member List.not_mem_nil
  | succ depth inductionHypothesis =>
      rw [alternating, PerfectTree.hashedPairs_node, List.mem_cons,
        List.mem_append, alternating_root, alternating_root] at member
      rcases member with atRoot | inLeft | inRight
      · exact Or.inl atRoot
      · exact inductionHypothesis inLeft
      · exact (inductionHypothesis inRight).symm

/-- A pair of an attack is the zero pair, or a non-zero input with its
complement. -/
theorem attackPairs_shape
    {value : F}
    (notZero : value ≠ 0)
    (notOne : value ≠ 1) :
    ∀ pair ∈ attackPairs value,
      pair = (0, 0) ∨ pair.1 ≠ 0 ∧ pair.2 = 1 - pair.1 := by
  have complementNotZero : 1 - value ≠ 0 := fun zero =>
    notOne (sub_eq_zero.mp zero).symm
  intro pair member
  simp only [attackPairs, List.mem_cons, List.not_mem_nil, or_false] at member
  rcases member with rfl | rfl | rfl
  · exact Or.inl rfl
  · exact Or.inr ⟨notZero, rfl⟩
  · exact Or.inr ⟨complementNotZero, by simp⟩

/-- The first-input hash is injective on the pairs of an attack. -/
theorem attackPairs_injective
    {value : F}
    (notZero : value ≠ 0)
    (notOne : value ≠ 1) :
    ∀ first ∈ attackPairs value, ∀ second ∈ attackPairs value,
      pairHash firstInput first.1 first.2 =
        pairHash firstInput second.1 second.2 -> first = second := by
  intro first firstMember second secondMember
  change first.1 = second.1 -> first = second
  intro equal
  have shape := attackPairs_shape notZero notOne
  rcases shape first firstMember with firstZero | ⟨firstNotZero, firstSecond⟩ <;>
    rcases shape second secondMember with secondZero | ⟨secondNotZero, secondSecond⟩
  · rw [firstZero, secondZero]
  · rw [firstZero] at equal
    exact absurd equal.symm secondNotZero
  · rw [secondZero] at equal
    exact absurd equal firstNotZero
  · exact Prod.ext equal (by rw [firstSecond, secondSecond, equal])

/-- A free selector opens a leaf that the tree does not have, without any
collision. -/
theorem exists_not_bindsLeaf
    (pathIndices : Fin levels -> F)
    (free : ∃ i, pathIndices i ≠ 0 ∧ pathIndices i ≠ 1) :
    ∃ (pathElements : Fin levels -> F) (tree : PerfectTree F levels),
      let proof := ofInputs firstInput 0 pathElements pathIndices
      tree.root (pairHash firstInput) = proof.root ∧
        ¬proof.BindsLeaf firstInput tree := by
  obtain ⟨value, pathElements, notZero, notOne, rootValue, pairs⟩ :=
    exists_attacks pathIndices free
  let root := pathRoot firstInput 0 pathElements pathIndices
  let tree := alternating root (1 - root) levels
  have complementNotZero : 1 - value ≠ 0 := fun zero =>
    notOne (sub_eq_zero.mp zero).symm
  have rootNotZero : root ≠ 0 := by
    rcases rootValue with equal | equal <;> rw [show root = _ from equal]
    · exact notZero
    · exact complementNotZero
  have complementRootNotZero : 1 - root ≠ 0 := by
    rcases rootValue with equal | equal <;> rw [show root = _ from equal]
    · exact complementNotZero
    · simpa using notZero
  refine ⟨pathElements, tree, alternating_root _ _ _, ?_⟩
  rintro (leafMember | collides)
  · rcases mem_alternating_leaves leafMember with equal | equal
    · exact rootNotZero equal.symm
    · exact complementRootNotZero equal.symm
  · refine not_collides_of_injOn (attackPairs_injective notZero notOne)
      (collides.mono ?_)
    intro pair member
    rcases List.mem_append.mp member with inProof | inTree
    · obtain ⟨i, rfl⟩ := List.mem_ofFn.mp inProof
      rw [(ofInputs_constraints firstInput 0 pathElements
        pathIndices).inputPair_eq i]
      exact pairs i
    · rcases mem_alternating_hashedPairs inTree with rfl | rfl <;>
        rcases rootValue with equal | equal <;>
        simp [attackPairs, show root = _ from equal]

end MerkleProof

/-! ## The exact condition -/

/-- `MerkleProof(levels)` is sound for a vector of path indices exactly when
all of them are boolean, which the template does not impose. -/
theorem merkleProof_sound_iff_pathIndices_boolean
    (levels : Nat)
    (pathIndices : Fin levels -> Fr) :
    (∀ (poseidon : List Fr -> Fr)
        (proof : MerkleProof Fr levels)
        (tree : PerfectTree Fr levels),
      proof.pathIndices = pathIndices ->
      proof.Constraints poseidon ->
      tree.root (pairHash poseidon) = proof.root ->
      proof.leaf ∈ tree.leaves ∨
        Collides (pairHash poseidon)
          (proof.hashedPairs ++ tree.hashedPairs (pairHash poseidon))) ↔
      ∀ i, pathIndices i = 0 ∨ pathIndices i = 1 := by
  constructor
  · intro sound
    by_contra notBoolean
    push Not at notBoolean
    obtain ⟨pathElements, tree, sameRoot, unbound⟩ :=
      MerkleProof.exists_not_bindsLeaf pathIndices notBoolean
    exact unbound (sound MerkleProof.firstInput
      (MerkleProof.ofInputs MerkleProof.firstInput 0 pathElements pathIndices)
      tree rfl (MerkleProof.ofInputs_constraints _ _ _ _) sameRoot)
  · rintro boolean poseidon proof tree rfl constraints sameRoot
    exact constraints.bindsLeaf_of_boolean boolean tree sameRoot

/-- With one level, path element `1` and path index `2`, the leaf `0` opens
the tree with the leaves `2` and `-1`. -/
theorem merkleProof_opens_foreign_leaf :
    ¬∀ (poseidon : List Fr -> Fr) (levels : Nat),
      1 ≤ levels ->
      ∀ (proof : MerkleProof Fr levels) (tree : PerfectTree Fr levels),
        proof.Constraints poseidon ->
        tree.root (pairHash poseidon) = proof.root ->
        proof.leaf ∈ tree.leaves ∨
          Collides (pairHash poseidon)
            (proof.hashedPairs ++ tree.hashedPairs (pairHash poseidon)) := by
  intro sound
  let poseidon : List Fr -> Fr := List.sum
  let proof : MerkleProof Fr 1 :=
    MerkleProof.ofInputs poseidon 0 ![1] ![2]
  let tree : PerfectTree Fr 1 := .node (.leaf 2) (.leaf (-1))
  rcases sound poseidon 1 le_rfl proof tree
    (MerkleProof.ofInputs_constraints _ _ _ _) (by decide) with member | collides
  · revert member
    decide
  · refine not_collides_of_injOn ?_ collides
    intro first firstMember second secondMember _
    have only : proof.hashedPairs ++ tree.hashedPairs (pairHash poseidon) =
        [(2, -1), (2, -1)] := by decide
    rw [only] at firstMember secondMember
    simp only [List.mem_cons, List.not_mem_nil, or_false, or_self]
      at firstMember secondMember
    rw [firstMember, secondMember]

end Circuit
end Privachain

import Privachain.Client.TransferProver
import Privachain.Circuit.HonestSpend

/-!
# Checking Merkle proofs in the client

The loop of `verifyMerkleProof` climbs the path that the index selects.  It
agrees with the Merkle template of the circuit, and it binds the position of a
leaf as long as the proof has the depth of the tree and the index is one of its
positions.
-/

namespace Privachain
namespace Client
namespace ZKProver

open Circuit
open Foundation
open Foundation.JavaScript

universe u

/-- The loop climbs the levels of the index. -/
theorem merkleLoop_eq_climb
    {α : Type u}
    (hash : α -> α -> α)
    (currentHash : α)
    (proof : List α)
    (index : Int) :
    merkleLoop hash currentHash proof index =
      climb hash currentHash (PerfectTree.indexLevels index proof) := by
  induction proof generalizing currentHash index with
  | nil => rfl
  | cons siblingBytes proof inductionHypothesis =>
      rw [merkleLoop, PerfectTree.indexLevels, climb_cons, inductionHypothesis]
      congr 1
      by_cases even : index % 2 = 0
      · simp [climbLevel, levelPair, even]
      · simp [climbLevel, levelPair, even]

/-! ## The client and the circuit -/

/-- **The two Merkle path computations agree** on the digits of every index, and
the check accepts the sibling path of every leaf at its position. -/
theorem merkleLoop_agrees
    {F : Type u} [CommRing F]
    (poseidon : List F -> F)
    {crypto : UtilCrypto}
    (hex : crypto.HexRoundTrips) :
    (∀ (n : Nat) (leaf : F) (sibling : Fin n -> F) (index : Int),
      0 ≤ index ->
      ∀ proof : MerkleProof F n, proof.Constraints poseidon ->
        proof.leaf = leaf -> proof.pathElements = sibling ->
        (∀ level, proof.pathIndices level = binaryDigit index.toNat level) ->
        merkleLoop (pairHash poseidon) leaf (List.ofFn sibling) index =
          proof.root) ∧
    ∀ (depth : Nat) (tree : PerfectTree Uint8Array depth) (position : Nat)
      (leaf : Uint8Array), tree.leaves[position]? = some leaf ->
      verifyMerkleProof crypto (crypto.u8aToHex leaf)
        ((List.ofFn (tree.siblings (hashPair crypto)
          (PerfectTree.sidesOf depth position))).map crypto.u8aToHex)
        (crypto.u8aToHex (tree.root (hashPair crypto))) position = true := by
  constructor
  · intro n leaf sibling index nonnegative proof constraints isLeaf elements
      indices
    obtain ⟨position, rfl⟩ := Int.eq_ofNat_of_zero_le nonnegative
    rw [constraints.root_eq_pathRoot, isLeaf, elements, funext indices,
      Int.toNat_natCast, pathRoot_binaryDigit, merkleLoop_eq_climb,
      PerfectTree.indexLevels_ofFn]
  · intro depth tree position leaf atPosition
    have within : position < 2 ^ depth := by
      obtain ⟨within, -⟩ := List.getElem?_eq_some_iff.mp atPosition
      rwa [tree.length_leaves] at within
    obtain rfl : tree.leafAt (PerfectTree.sidesOf depth position) = leaf :=
      Option.some.inj ((tree.leaves_getElem? within).symm.trans atPosition)
    have decoded : ∀ bytes : List Uint8Array,
        (bytes.map crypto.u8aToHex).map crypto.hexToU8a = bytes := by
      intro bytes
      rw [List.map_map]
      exact List.map_id'' hex bytes
    rw [verifyMerkleProof, decoded, hex, merkleLoop_eq_climb,
      PerfectTree.indexLevels_ofFn]
    exact beq_iff_eq.mpr
      (congrArg crypto.u8aToHex (tree.climb_path (hashPair crypto) _))

/-- A tree of two sample keys. -/
def sampleKeyTree : PerfectTree Uint8Array 1 :=
  .node (.leaf (sampleKey 1)) (.leaf (sampleKey 2))

/-- The check of the sample library accepts the second sample key. -/
theorem sampleKeys_merkleLoop_agrees :
    sampleCrypto.HexRoundTrips ∧
    verifyMerkleProof sampleCrypto (sampleCrypto.u8aToHex (sampleKey 2))
      ((List.ofFn (sampleKeyTree.siblings (hashPair sampleCrypto)
        (PerfectTree.sidesOf 1 1))).map sampleCrypto.u8aToHex)
      (sampleCrypto.u8aToHex (sampleKeyTree.root (hashPair sampleCrypto)))
      1 = true :=
  ⟨sampleCrypto_hexRoundTrips,
    (merkleLoop_agrees sampleHash sampleCrypto_hexRoundTrips).2 1 sampleKeyTree
      1 (sampleKey 2) rfl⟩

/-! ## Position binding -/

section Binding

variable {crypto : UtilCrypto}

/-- Two different byte strings of a list have one hash. -/
def CollidesIn (crypto : UtilCrypto) (hashed : List Uint8Array) : Prop :=
  ∃ first ∈ hashed, ∃ second ∈ hashed, crypto.Collision first second

/-- The byte strings hashed for pairs of nodes. -/
def hashedStrings
    (pairs : List (Uint8Array × Uint8Array)) : List Uint8Array :=
  pairs.map fun pair => pair.1 ++ pair.2

/-- The proof has the depth of the tree, the index is one of its positions and
the leaf is the leaf there; or a collision occurs among the strings hashed by
the check and in the tree. -/
def BindsPosition
    (crypto : UtilCrypto)
    {depth : Nat}
    (tree : PerfectTree Uint8Array depth)
    (leaf : String)
    (proof : List String)
    (leafIndex : Int) : Prop :=
  (proof.length = depth ∧ 0 ≤ leafIndex ∧ leafIndex < 2 ^ depth ∧
    tree.leaves[leafIndex.toNat]? = some (crypto.hexToU8a leaf)) ∨
  CollidesIn crypto (hashedStrings
    (climbedPairs (hashPair crypto) (crypto.hexToU8a leaf)
        (PerfectTree.indexLevels leafIndex (proof.map crypto.hexToU8a)) ++
      tree.hashedPairs (hashPair crypto)))

/-- Both parts of a pair have the length of a digest. -/
def DigestPair (pair : Uint8Array × Uint8Array) : Prop :=
  pair.1.length = 32 ∧ pair.2.length = 32

/-- The root of a tree of digests is a digest. -/
theorem length_root
    (digests : crypto.DigestsHave32Bytes)
    {depth : Nat}
    (tree : PerfectTree Uint8Array depth)
    (leaves : ∀ leaf ∈ tree.leaves, leaf.length = 32) :
    (tree.root (hashPair crypto)).length = 32 := by
  cases tree with
  | leaf value => exact leaves value (by simp)
  | node left right => exact digests _

/-- A tree of digests hashes pairs of digests. -/
theorem digestPair_of_mem_hashedPairs
    (digests : crypto.DigestsHave32Bytes)
    {depth : Nat}
    {tree : PerfectTree Uint8Array depth}
    (leaves : ∀ leaf ∈ tree.leaves, leaf.length = 32)
    {pair : Uint8Array × Uint8Array}
    (hashed : pair ∈ tree.hashedPairs (hashPair crypto)) :
    DigestPair pair := by
  induction tree with
  | leaf value => cases hashed
  | node left right leftHypothesis rightHypothesis =>
      have inLeft : ∀ leaf ∈ left.leaves, leaf.length = 32 := fun leaf member =>
        leaves leaf (List.mem_append_left _ member)
      have inRight : ∀ leaf ∈ right.leaves, leaf.length = 32 :=
        fun leaf member => leaves leaf (List.mem_append_right _ member)
      rw [PerfectTree.hashedPairs_node, List.mem_cons, List.mem_append] at hashed
      rcases hashed with rfl | below | below
      · exact ⟨length_root digests left inLeft,
          length_root digests right inRight⟩
      · exact leftHypothesis inLeft below
      · exact rightHypothesis inRight below

/-- Above a digest only pairs of digests are hashed. -/
theorem digestPair_of_mem_climbedPairs
    (digests : crypto.DigestsHave32Bytes)
    {current : Uint8Array}
    (isDigest : current.length = 32)
    {levels : List (Bool × Uint8Array)}
    (siblings : ∀ level ∈ levels, level.2.length = 32)
    {pair : Uint8Array × Uint8Array}
    (hashed : pair ∈ climbedPairs (hashPair crypto) current levels) :
    DigestPair pair := by
  induction levels generalizing current with
  | nil => cases hashed
  | cons level levels inductionHypothesis =>
      rcases List.mem_cons.mp hashed with rfl | above
      · have sibling := siblings level List.mem_cons_self
        obtain ⟨side, bytes⟩ := level
        cases side with
        | true => exact ⟨sibling, isDigest⟩
        | false => exact ⟨isDigest, sibling⟩
      · exact inductionHypothesis (digests _)
          (fun other member => siblings other (List.mem_cons_of_mem _ member))
          above

/-- The first pair of a path is the one hashed with the leaf; above it only
pairs of digests are hashed. -/
theorem first_or_digestPair
    (digests : crypto.DigestsHave32Bytes)
    {leaf : Uint8Array}
    {level : Bool × Uint8Array}
    {levels : List (Bool × Uint8Array)}
    (siblings : ∀ other ∈ level :: levels, other.2.length = 32)
    {pair : Uint8Array × Uint8Array}
    (hashed : pair ∈ climbedPairs (hashPair crypto) leaf (level :: levels)) :
    pair = levelPair leaf level ∨ DigestPair pair := by
  refine (List.mem_cons.mp hashed).imp id ?_
  exact digestPair_of_mem_climbedPairs digests (digests _)
    fun other member => siblings other (List.mem_cons_of_mem _ member)

/-- A pair with a digest in it and a pair of digests are equal when their
strings are. -/
theorem eq_of_append_eq
    {first second : Uint8Array × Uint8Array}
    (hasDigest : first.1.length = 32 ∨ first.2.length = 32)
    (isDigestPair : DigestPair second)
    (same : first.1 ++ first.2 = second.1 ++ second.2) :
    first = second := by
  have total := congrArg List.length same
  rw [List.length_append, List.length_append, isDigestPair.1,
    isDigestPair.2] at total
  have split : first.1.length = second.1.length := by
    rw [isDigestPair.1]
    omega
  obtain ⟨left, right⟩ := List.append_inj same split
  exact Prod.ext left right

/-- Different pairs hashed by the check or in the tree are different strings. -/
theorem CollidesIn.of_collides
    (digests : crypto.DigestsHave32Bytes)
    {depth : Nat}
    {tree : PerfectTree Uint8Array depth}
    (leaves : ∀ leaf ∈ tree.leaves, leaf.length = 32)
    {leaf : Uint8Array}
    {levels : List (Bool × Uint8Array)}
    (siblings : ∀ level ∈ levels, level.2.length = 32)
    (collides : Collides (hashPair crypto)
      (climbedPairs (hashPair crypto) leaf levels ++
        tree.hashedPairs (hashPair crypto))) :
    CollidesIn crypto (hashedStrings
      (climbedPairs (hashPair crypto) leaf levels ++
        tree.hashedPairs (hashPair crypto))) := by
  obtain ⟨first, firstHashed, second, secondHashed, different, sameHash⟩ :=
    collides
  refine ⟨_, List.mem_map_of_mem firstHashed, _,
    List.mem_map_of_mem secondHashed, ?_, sameHash⟩
  intro same
  apply different
  -- only the first pair of the check may contain something else than a digest
  cases levels with
  | nil =>
      rw [climbedPairs, List.nil_append] at firstHashed secondHashed
      exact eq_of_append_eq
        (.inl (digestPair_of_mem_hashedPairs digests leaves firstHashed).1)
        (digestPair_of_mem_hashedPairs digests leaves secondHashed) same
  | cons level levels =>
      have hasDigest : (levelPair leaf level).1.length = 32 ∨
          (levelPair leaf level).2.length = 32 := by
        have sibling := siblings level List.mem_cons_self
        obtain ⟨side, bytes⟩ := level
        cases side with
        | true => exact .inl sibling
        | false => exact .inr sibling
      have either : ∀ {pair},
          pair ∈ climbedPairs (hashPair crypto) leaf (level :: levels) ++
            tree.hashedPairs (hashPair crypto) ->
          pair = levelPair leaf level ∨ DigestPair pair := by
        intro pair hashed
        rcases List.mem_append.mp hashed with climbed | inTree
        · exact first_or_digestPair digests siblings climbed
        · exact .inr (digestPair_of_mem_hashedPairs digests leaves inTree)
      rcases either firstHashed with rfl | firstDigests
      · rcases either secondHashed with rfl | secondDigests
        · rfl
        · exact eq_of_append_eq hasDigest secondDigests same
      · rcases either secondHashed with rfl | secondDigests
        · exact (eq_of_append_eq hasDigest firstDigests same.symm).symm
        · exact eq_of_append_eq (.inl firstDigests.1) secondDigests same

/-- A proof of the depth of the tree binds the position. -/
theorem bindsPosition_of_within
    (hex : crypto.HexRoundTrips)
    (digests : crypto.DigestsHave32Bytes)
    {depth : Nat}
    {tree : PerfectTree Uint8Array depth}
    (leaves : ∀ leaf ∈ tree.leaves, leaf.length = 32)
    {leaf : String}
    {proof : List String}
    (siblings : ∀ sibling ∈ proof, (crypto.hexToU8a sibling).length = 32)
    {leafIndex : Int}
    (full : proof.length = depth)
    (nonnegative : 0 ≤ leafIndex)
    (within : leafIndex < 2 ^ depth)
    (accepted : verifyMerkleProof crypto leaf proof
      (crypto.u8aToHex (tree.root (hashPair crypto))) leafIndex = true) :
    BindsPosition crypto tree leaf proof leafIndex := by
  subst full
  obtain ⟨position, rfl⟩ := Int.eq_ofNat_of_zero_le nonnegative
  have positionWithin : position < 2 ^ proof.length := by exact_mod_cast within
  have decoded : proof.map crypto.hexToU8a =
      List.ofFn fun i : Fin proof.length => crypto.hexToU8a proof[i] := by
    rw [← List.ofFn_getElem_eq_map]
    rfl
  have climbed : climb (hashPair crypto) (crypto.hexToU8a leaf)
      (List.ofFn fun i : Fin proof.length =>
        (PerfectTree.sidesOf proof.length position i,
          crypto.hexToU8a proof[i])) = tree.root (hashPair crypto) := by
    rw [← PerfectTree.indexLevels_ofFn, ← decoded, ← merkleLoop_eq_climb]
    exact hex.u8aToHex_inj.mp (beq_iff_eq.mp accepted)
  rw [BindsPosition, decoded, PerfectTree.indexLevels_ofFn]
  refine (leafAt_or_collides_of_climb tree climbed).imp ?_ ?_
  · intro atSide
    refine ⟨rfl, nonnegative, within, ?_⟩
    rw [Int.toNat_natCast, tree.leaves_getElem? positionWithin, ← atSide]
  · apply CollidesIn.of_collides digests leaves
    intro level member
    obtain ⟨i, rfl⟩ := List.mem_ofFn.mp member
    exact siblings _ (List.getElem_mem _)

end Binding

/-! ## Proofs that do not fit the tree -/

/-- A library whose digests are all the same. -/
def constantCrypto : UtilCrypto :=
  { sampleCrypto with blake2AsU8a := fun _ => sampleKey 0 }

/-- A tree with the constant digest at every leaf. -/
def constantTree : (depth : Nat) -> PerfectTree Uint8Array depth
  | 0 => .leaf (sampleKey 0)
  | depth + 1 => .node (constantTree depth) (constantTree depth)

/-- All leaves are the constant digest. -/
theorem eq_of_mem_leaves_constantTree
    {depth : Nat}
    {leaf : Uint8Array}
    (member : leaf ∈ (constantTree depth).leaves) :
    leaf = sampleKey 0 := by
  induction depth with
  | zero => exact List.mem_singleton.mp member
  | succ depth inductionHypothesis =>
      rcases List.mem_append.mp member with inLeft | inRight
      · exact inductionHypothesis inLeft
      · exact inductionHypothesis inRight

/-- The root is the constant digest. -/
theorem root_constantTree (depth : Nat) :
    (constantTree depth).root (hashPair constantCrypto) = sampleKey 0 := by
  cases depth with
  | zero => rfl
  | succ depth => rfl

/-- All pairs hashed in the tree are the same. -/
theorem eq_of_mem_hashedPairs_constantTree
    {depth : Nat}
    {pair : Uint8Array × Uint8Array}
    (hashed : pair ∈ (constantTree depth).hashedPairs
      (hashPair constantCrypto)) :
    pair = (sampleKey 0, sampleKey 0) := by
  induction depth with
  | zero => cases hashed
  | succ depth inductionHypothesis =>
      rw [constantTree, PerfectTree.hashedPairs_node, List.mem_cons,
        List.mem_append] at hashed
      rcases hashed with rfl | inLeft | inRight
      · rw [root_constantTree]
      · exact inductionHypothesis inLeft
      · exact inductionHypothesis inRight

/-- From the constant digest every path hashes the same pair. -/
theorem eq_of_mem_climbedPairs_constant
    {levels : List (Bool × Uint8Array)}
    (siblings : ∀ level ∈ levels, level.2 = sampleKey 0)
    {pair : Uint8Array × Uint8Array}
    (hashed : pair ∈
      climbedPairs (hashPair constantCrypto) (sampleKey 0) levels) :
    pair = (sampleKey 0, sampleKey 0) := by
  induction levels with
  | nil => cases hashed
  | cons level levels inductionHypothesis =>
      rcases List.mem_cons.mp hashed with rfl | above
      · have sibling := siblings level List.mem_cons_self
        obtain ⟨side, bytes⟩ := level
        obtain rfl : bytes = sampleKey 0 := sibling
        cases side with
        | true => rfl
        | false => rfl
      · exact inductionHypothesis
          (fun other member => siblings other (List.mem_cons_of_mem _ member))
          above

/-- From the constant digest every path leads to the constant digest. -/
theorem climb_constant (levels : List (Bool × Uint8Array)) :
    climb (hashPair constantCrypto) (sampleKey 0) levels = sampleKey 0 := by
  induction levels with
  | nil => rfl
  | cons level levels inductionHypothesis => exact inductionHypothesis

/-- The text of the constant digest. -/
def constantText : String := constantCrypto.u8aToHex (sampleKey 0)

/-- The siblings of an index are those of the proof. -/
theorem snd_mem_of_mem_indexLevels
    {index : Int}
    {siblings : List Uint8Array}
    {level : Bool × Uint8Array}
    (member : level ∈ PerfectTree.indexLevels index siblings) :
    level.2 ∈ siblings := by
  induction siblings generalizing index with
  | nil => cases member
  | cons sibling siblings inductionHypothesis =>
      rcases List.mem_cons.mp member with rfl | above
      · exact List.mem_cons_self
      · exact List.mem_cons_of_mem _ (inductionHypothesis above)

/-- Every proof of constant texts is accepted, and binds only a position of the
tree with a proof of its depth. -/
theorem constantTree_accepts
    (depth size : Nat)
    (leafIndex : Int) :
    verifyMerkleProof constantCrypto constantText
        (List.replicate size constantText)
        (constantCrypto.u8aToHex
          ((constantTree depth).root (hashPair constantCrypto)))
        leafIndex = true ∧
      (BindsPosition constantCrypto (constantTree depth) constantText
          (List.replicate size constantText) leafIndex ->
        size = depth ∧ 0 ≤ leafIndex ∧ leafIndex < 2 ^ depth) := by
  have decoded : constantCrypto.hexToU8a constantText = sampleKey 0 :=
    sampleCrypto_hexRoundTrips _
  constructor
  · rw [verifyMerkleProof, merkleLoop_eq_climb, decoded, climb_constant,
      root_constantTree]
    exact beq_self_eq_true _
  · rintro (⟨full, nonnegative, within, _⟩ | collides)
    · rw [List.length_replicate] at full
      exact ⟨full, nonnegative, within⟩
    · -- all hashed strings are the same
      have same : ∀ {text}, text ∈ hashedStrings
          (climbedPairs (hashPair constantCrypto)
              (constantCrypto.hexToU8a constantText)
              (PerfectTree.indexLevels leafIndex
                ((List.replicate size constantText).map
                  constantCrypto.hexToU8a)) ++
            (constantTree depth).hashedPairs (hashPair constantCrypto)) ->
          text = sampleKey 0 ++ sampleKey 0 := by
        intro text member
        obtain ⟨pair, hashed, rfl⟩ := List.mem_map.mp member
        have constant : pair = (sampleKey 0, sampleKey 0) := by
          rcases List.mem_append.mp hashed with climbed | inTree
          · rw [decoded] at climbed
            refine eq_of_mem_climbedPairs_constant ?_ climbed
            intro level isLevel
            have sibling := snd_mem_of_mem_indexLevels isLevel
            rw [List.map_replicate, decoded] at sibling
            exact List.eq_of_mem_replicate sibling
          · exact eq_of_mem_hashedPairs_constantTree inTree
        rw [constant]
      obtain ⟨first, firstHashed, second, secondHashed, different, _⟩ :=
        collides
      exact absurd ((same firstHashed).trans (same secondHashed).symm) different

/-- **The check binds the position of a leaf exactly for proofs of the depth of
the tree at positions of the tree.** -/
theorem verifyMerkleProof_binds_iff (depth size : Nat) (leafIndex : Int) :
    (∀ crypto : UtilCrypto, crypto.HexRoundTrips ->
      crypto.DigestsHave32Bytes ->
      ∀ tree : PerfectTree Uint8Array depth,
        (∀ leaf ∈ tree.leaves, leaf.length = 32) ->
      ∀ (leaf : String) (proof : List String), proof.length = size ->
        (∀ sibling ∈ proof, (crypto.hexToU8a sibling).length = 32) ->
        verifyMerkleProof crypto leaf proof
          (crypto.u8aToHex (tree.root (hashPair crypto))) leafIndex = true ->
        BindsPosition crypto tree leaf proof leafIndex) ↔
      size = depth ∧ 0 ≤ leafIndex ∧ leafIndex < 2 ^ depth := by
  constructor
  · intro binds
    obtain ⟨accepted, onlyWithin⟩ := constantTree_accepts depth size leafIndex
    apply onlyWithin
    apply binds constantCrypto sampleCrypto_hexRoundTrips fun _ => rfl
    · intro leaf member
      rw [eq_of_mem_leaves_constantTree member]
      rfl
    · exact List.length_replicate
    · intro sibling member
      rw [List.eq_of_mem_replicate member]
      exact congrArg List.length (sampleCrypto_hexRoundTrips (sampleKey 0))
    · exact accepted
  · rintro ⟨rfl, nonnegative, within⟩ crypto hex digests tree leaves leaf proof
      full siblings accepted
    exact bindsPosition_of_within hex digests leaves siblings full nonnegative
      within accepted

/-- The root of a tree passes as a leaf. -/
theorem verifyMerkleProof_accepts_root :
    ¬∀ (crypto : UtilCrypto), crypto.HexRoundTrips ->
      crypto.DigestsHave32Bytes ->
      ∀ (depth : Nat) (tree : PerfectTree Uint8Array depth),
        (∀ leaf ∈ tree.leaves, leaf.length = 32) ->
      ∀ (leaf : String) (proof : List String) (leafIndex : Int),
        (∀ sibling ∈ proof, (crypto.hexToU8a sibling).length = 32) ->
        verifyMerkleProof crypto leaf proof
          (crypto.u8aToHex (tree.root (hashPair crypto))) leafIndex = true ->
        BindsPosition crypto tree leaf proof leafIndex := by
  intro binds
  have bound := binds sampleCrypto sampleCrypto_hexRoundTrips
    sampleCrypto_digestsHave32Bytes 1 sampleKeyTree
    (by simp [sampleKeyTree, sampleKey])
    (sampleCrypto.u8aToHex (sampleKeyTree.root (hashPair sampleCrypto))) [] 0
    (by simp) (by
      rw [verifyMerkleProof, List.map_nil, merkleLoop,
        sampleCrypto_hexRoundTrips]
      exact beq_self_eq_true _)
  rcases bound with ⟨full, _⟩ | ⟨first, firstHashed, second, secondHashed,
    different, _⟩
  · cases full
  · -- the tree hashes one pair, and the check none
    have same : ∀ {text}, text ∈ hashedStrings (climbedPairs
        (hashPair sampleCrypto) (sampleCrypto.hexToU8a (sampleCrypto.u8aToHex
          (sampleKeyTree.root (hashPair sampleCrypto)))) [] ++
        sampleKeyTree.hashedPairs (hashPair sampleCrypto)) ->
        text = sampleKey 1 ++ sampleKey 2 := by
      intro text member
      exact List.mem_singleton.mp member
    exact different ((same firstHashed).trans (same secondHashed).symm)

end ZKProver
end Client
end Privachain

import Mathlib.Data.Fin.Tuple.Basic
import Mathlib.Data.List.OfFn

/-!
# Perfect Merkle trees and chains of hashed pairs

A perfect binary tree is hashed from its leaves to one root by an arbitrary
two-argument function.  A hash chain is the prover's side of a membership
argument: one running node for each level and the argument pair hashed at that
level.  The binding theorem compares a chain with a tree of the same root: the
chain starts at the leaf its sides select, or two different argument pairs with
one hash occur among the pairs hashed by the chain and by the tree.
-/

namespace Foundation

universe u

/-- A perfect binary tree whose leaves all lie at the given depth. -/
inductive PerfectTree (α : Type u) : Nat -> Type u
  | leaf (value : α) : PerfectTree α 0
  | node {depth : Nat}
      (left right : PerfectTree α depth) : PerfectTree α (depth + 1)

namespace PerfectTree

variable {α : Type u} {depth : Nat}

/-- The leaves from left to right. -/
def leaves : {depth : Nat} -> PerfectTree α depth -> List α
  | _, .leaf value => [value]
  | _, .node left right => left.leaves ++ right.leaves

@[simp] theorem leaves_leaf (value : α) :
    (leaf value).leaves = [value] := rfl

@[simp] theorem leaves_node (left right : PerfectTree α depth) :
    (node left right).leaves = left.leaves ++ right.leaves := rfl

/-- The root obtained by hashing the two children of every inner node. -/
def root (hash : α -> α -> α) :
    {depth : Nat} -> PerfectTree α depth -> α
  | _, .leaf value => value
  | _, .node left right => hash (left.root hash) (right.root hash)

@[simp] theorem root_leaf (hash : α -> α -> α) (value : α) :
    (leaf value).root hash = value := rfl

@[simp] theorem root_node
    (hash : α -> α -> α)
    (left right : PerfectTree α depth) :
    (node left right).root hash =
      hash (left.root hash) (right.root hash) := rfl

/-- The argument pairs hashed while the root is computed. -/
def hashedPairs (hash : α -> α -> α) :
    {depth : Nat} -> PerfectTree α depth -> List (α × α)
  | _, .leaf _ => []
  | _, .node left right =>
      (left.root hash, right.root hash) ::
        (left.hashedPairs hash ++ right.hashedPairs hash)

@[simp] theorem hashedPairs_leaf (hash : α -> α -> α) (value : α) :
    (leaf value).hashedPairs hash = [] := rfl

@[simp] theorem hashedPairs_node
    (hash : α -> α -> α)
    (left right : PerfectTree α depth) :
    (node left right).hashedPairs hash =
      (left.root hash, right.root hash) ::
        (left.hashedPairs hash ++ right.hashedPairs hash) := rfl

/-- The leaf reached by taking, at every level, the right child exactly when
the side of that level is set.  Level zero is the level above the leaves. -/
def leafAt :
    {depth : Nat} -> PerfectTree α depth -> (Fin depth -> Bool) -> α
  | _, .leaf value, _ => value
  | depth + 1, .node left right, side =>
      if side (Fin.last depth) then right.leafAt (Fin.init side)
      else left.leafAt (Fin.init side)

@[simp] theorem leafAt_leaf (value : α) (side : Fin 0 -> Bool) :
    (leaf value).leafAt side = value := rfl

theorem leafAt_node
    (left right : PerfectTree α depth)
    (side : Fin (depth + 1) -> Bool) :
    (node left right).leafAt side =
      if side (Fin.last depth) then right.leafAt (Fin.init side)
      else left.leafAt (Fin.init side) := rfl

/-- A selected leaf is a leaf. -/
theorem leafAt_mem_leaves
    (tree : PerfectTree α depth)
    (side : Fin depth -> Bool) :
    tree.leafAt side ∈ tree.leaves := by
  induction tree with
  | leaf value => simp
  | node left right leftHypothesis rightHypothesis =>
      rw [leafAt_node, leaves_node, List.mem_append]
      split
      · exact Or.inr (rightHypothesis _)
      · exact Or.inl (leftHypothesis _)

end PerfectTree

/-! ## Collisions -/

section Collision

variable {α : Type u}

/-- Two different argument pairs of the list have the same hash. -/
def Collides (hash : α -> α -> α) (pairs : List (α × α)) : Prop :=
  ∃ first ∈ pairs, ∃ second ∈ pairs,
    first ≠ second ∧ hash first.1 first.2 = hash second.1 second.2

/-- A collision among some pairs is one among more pairs. -/
theorem Collides.mono
    {hash : α -> α -> α}
    {smaller larger : List (α × α)}
    (collides : Collides hash smaller)
    (subset : smaller ⊆ larger) :
    Collides hash larger := by
  obtain ⟨first, firstMember, second, secondMember, different, equal⟩ :=
    collides
  exact ⟨first, subset firstMember, second, subset secondMember,
    different, equal⟩

/-- A hash that is injective on the listed pairs has no collision there. -/
theorem not_collides_of_injOn
    {hash : α -> α -> α}
    {pairs : List (α × α)}
    (injective : ∀ first ∈ pairs, ∀ second ∈ pairs,
      hash first.1 first.2 = hash second.1 second.2 -> first = second) :
    ¬Collides hash pairs := by
  rintro ⟨first, firstMember, second, secondMember, different, equal⟩
  exact different (injective first firstMember second secondMember equal)

end Collision

/-! ## Hash chains -/

section Chain

variable {α : Type u} {depth : Nat}

/-- Every running node above the first is the hash of the pair below it. -/
def IsHashChain
    (hash : α -> α -> α)
    (node : Fin (depth + 1) -> α)
    (pair : Fin depth -> α × α) : Prop :=
  ∀ level, node level.succ = hash (pair level).1 (pair level).2

/-- The running node of every level is the component of the pair that the
side of that level selects. -/
def OnSide
    (side : Fin depth -> Bool)
    (node : Fin (depth + 1) -> α)
    (pair : Fin depth -> α × α) : Prop :=
  ∀ level, node level.castSucc =
    if side level then (pair level).2 else (pair level).1

/-- The lower levels of a chain form a chain. -/
theorem IsHashChain.init
    {hash : α -> α -> α}
    {node : Fin (depth + 2) -> α}
    {pair : Fin (depth + 1) -> α × α}
    (chain : IsHashChain hash node pair) :
    IsHashChain hash (Fin.init node) (Fin.init pair) := by
  intro level
  exact chain level.castSucc

/-- The lower levels of a chain stay on their sides. -/
theorem OnSide.init
    {side : Fin (depth + 1) -> Bool}
    {node : Fin (depth + 2) -> α}
    {pair : Fin (depth + 1) -> α × α}
    (onSide : OnSide side node pair) :
    OnSide (Fin.init side) (Fin.init node) (Fin.init pair) := by
  intro level
  exact onSide level.castSucc

/-- The pairs of the lower levels are pairs of the whole chain. -/
theorem ofFn_init_subset (pair : Fin (depth + 1) -> α × α) :
    List.ofFn (Fin.init pair) ⊆ List.ofFn pair := by
  intro element member
  obtain ⟨level, rfl⟩ := List.mem_ofFn.mp member
  exact List.mem_ofFn.mpr ⟨level.castSucc, rfl⟩

/-- A collision among the lower levels and a subtree is one of the whole chain
and the tree. -/
theorem Collides.extend
    {hash : α -> α -> α}
    {pair : Fin (depth + 1) -> α × α}
    {lower upper : List (α × α)}
    (collides : Collides hash (List.ofFn (Fin.init pair) ++ lower))
    (subset : lower ⊆ upper) :
    Collides hash (List.ofFn pair ++ upper) := by
  apply collides.mono
  intro element member
  rw [List.mem_append] at member ⊢
  exact member.imp (fun inChain => ofFn_init_subset pair inChain)
    fun inTree => subset inTree

/-- **Binding.**  A chain on given sides that ends at the root of a tree starts
at the leaf those sides select, unless two different pairs hashed by the chain
or by the tree collide. -/
theorem leafAt_or_collides
    {hash : α -> α -> α}
    (tree : PerfectTree α depth)
    {side : Fin depth -> Bool}
    {node : Fin (depth + 1) -> α}
    {pair : Fin depth -> α × α}
    (chain : IsHashChain hash node pair)
    (onSide : OnSide side node pair)
    (sameRoot : node (Fin.last depth) = tree.root hash) :
    node 0 = tree.leafAt side ∨
      Collides hash (List.ofFn pair ++ tree.hashedPairs hash) := by
  classical
  induction tree with
  | leaf value => exact Or.inl sameRoot
  | @node depth left right leftHypothesis rightHypothesis =>
      let top := pair (Fin.last depth)
      let children := (left.root hash, right.root hash)
      have topEquality : hash top.1 top.2 = hash children.1 children.2 := by
        rw [← chain (Fin.last depth), Fin.succ_last, sameRoot]
        rfl
      by_cases samePair : top = children
      · -- The top pairs agree, so the chain continues below the selected child.
        have below : Fin.init node (Fin.last depth) =
            if side (Fin.last depth) then right.root hash
            else left.root hash := by
          have selected := onSide (Fin.last depth)
          change node (Fin.last depth).castSucc =
            if side (Fin.last depth) then top.2 else top.1 at selected
          rw [samePair] at selected
          exact selected
        rw [PerfectTree.leafAt_node, PerfectTree.hashedPairs_node]
        cases selected : side (Fin.last depth) with
        | true =>
            rw [selected] at below
            refine (rightHypothesis chain.init onSide.init below).imp id ?_
            intro collides
            apply collides.extend
            exact List.subset_cons_of_subset _ (List.subset_append_right _ _)
        | false =>
            rw [selected] at below
            refine (leftHypothesis chain.init onSide.init below).imp id ?_
            intro collides
            apply collides.extend
            exact List.subset_cons_of_subset _ (List.subset_append_left _ _)
      · refine Or.inr ⟨top, ?_, children, ?_, samePair, topEquality⟩
        · exact List.mem_append_left _
            (List.mem_ofFn.mpr ⟨Fin.last depth, rfl⟩)
        · exact List.mem_append_right _ (by simp [children])

end Chain

end Foundation

import Privachain.Foundation.MerkleTree
import Mathlib.Data.Nat.Bitwise

/-!
# Merkle paths

A path lists, from the leaf upwards, the side of the running node and its
sibling on every level.  Climbing the path of a leaf ends at the root of its
tree.  A climb is a hash chain, so the binding theorem of Merkle trees applies
to it.
-/

namespace Foundation

universe u

/-! ## Climbing -/

section Climb

variable {α : Type u}

/-- The pair hashed on a level: on a set side the running node is on the
right. -/
def levelPair (current : α) (level : Bool × α) : α × α :=
  if level.1 then (level.2, current) else (current, level.2)

/-- The running node above a level. -/
def climbLevel
    (hash : α -> α -> α)
    (current : α)
    (level : Bool × α) : α :=
  hash (levelPair current level).1 (levelPair current level).2

/-- The node that a path leads to. -/
def climb
    (hash : α -> α -> α)
    (leaf : α)
    (levels : List (Bool × α)) : α :=
  levels.foldl (climbLevel hash) leaf

/-- The pairs hashed along a path. -/
def climbedPairs (hash : α -> α -> α) : α -> List (Bool × α) -> List (α × α)
  | _, [] => []
  | current, level :: levels =>
      levelPair current level ::
        climbedPairs hash (climbLevel hash current level) levels

@[simp] theorem climb_nil (hash : α -> α -> α) (leaf : α) :
    climb hash leaf [] = leaf := rfl

@[simp] theorem climb_cons
    (hash : α -> α -> α)
    (leaf : α)
    (level : Bool × α)
    (levels : List (Bool × α)) :
    climb hash leaf (level :: levels) =
      climb hash (climbLevel hash leaf level) levels := rfl

/-- The last level of a path is climbed last. -/
theorem climb_concat
    (hash : α -> α -> α)
    (leaf : α)
    (levels : List (Bool × α))
    (level : Bool × α) :
    climb hash leaf (levels.concat level) =
      climbLevel hash (climb hash leaf levels) level := by
  rw [climb, List.concat_eq_append, List.foldl_append]
  rfl

/-- The pair of every level is hashed. -/
theorem levelPair_mem_climbedPairs
    (hash : α -> α -> α)
    (leaf : α)
    {levels : List (Bool × α)}
    {i : Nat}
    (within : i < levels.length) :
    levelPair (climb hash leaf (levels.take i)) levels[i] ∈
      climbedPairs hash leaf levels := by
  induction levels generalizing leaf i with
  | nil => exact absurd within (Nat.not_lt_zero i)
  | cons level levels inductionHypothesis =>
      cases i with
      | zero => exact List.mem_cons_self
      | succ i =>
          apply List.mem_cons_of_mem
          exact inductionHypothesis _ (Nat.lt_of_succ_lt_succ within)

/-- One more level of a path is climbed. -/
theorem climb_take_succ
    (hash : α -> α -> α)
    (leaf : α)
    {levels : List (Bool × α)}
    {i : Nat}
    (within : i < levels.length) :
    climb hash leaf (levels.take (i + 1)) =
      climbLevel hash (climb hash leaf (levels.take i)) levels[i] := by
  rw [List.take_succ_eq_append_getElem within, ← List.concat_eq_append,
    climb_concat]

/-- **Binding of paths.**  A path on given sides that leads to the root of a
tree starts at the leaf those sides select, unless two different pairs hashed
along the path or in the tree collide. -/
theorem leafAt_or_collides_of_climb
    {hash : α -> α -> α}
    {depth : Nat}
    (tree : PerfectTree α depth)
    {leaf : α}
    {side : Fin depth -> Bool}
    {sibling : Fin depth -> α}
    (sameRoot : climb hash leaf (List.ofFn fun i => (side i, sibling i)) =
      tree.root hash) :
    leaf = tree.leafAt side ∨
      Collides hash
        (climbedPairs hash leaf (List.ofFn fun i => (side i, sibling i)) ++
          tree.hashedPairs hash) := by
  generalize path : (List.ofFn fun i => (side i, sibling i)) = levels at *
  have full : levels.length = depth := by
    rw [← path, List.length_ofFn]
  have level : ∀ i : Fin depth, ∃ within : i.val < levels.length,
      levels[i.val] = (side i, sibling i) := by
    intro i
    refine ⟨by omega, ?_⟩
    simp [← path]
  let node : Fin (depth + 1) -> α := fun i => climb hash leaf (levels.take i)
  let pair : Fin depth -> α × α := fun i =>
    levelPair (node i.castSucc) (side i, sibling i)
  have chain : IsHashChain hash node pair := by
    intro i
    obtain ⟨within, entry⟩ := level i
    change climb hash leaf (levels.take (i.val + 1)) = _
    rw [climb_take_succ hash leaf within, entry]
    rfl
  have onSide : OnSide side node pair := by
    intro i
    cases selected : side i with
    | true => simp [pair, levelPair, selected]
    | false => simp [pair, levelPair, selected]
  have top : node (Fin.last depth) = tree.root hash := by
    rw [← sameRoot]
    change climb hash leaf (levels.take depth) = _
    rw [List.take_of_length_le full.le]
  refine (leafAt_or_collides tree chain onSide top).imp id ?_
  intro collides
  apply collides.mono
  intro hashed member
  rw [List.mem_append] at member ⊢
  refine member.imp (fun inChain => ?_) id
  obtain ⟨i, rfl⟩ := List.mem_ofFn.mp inChain
  obtain ⟨within, entry⟩ := level i
  have climbed := levelPair_mem_climbedPairs hash leaf within
  rwa [entry] at climbed

end Climb

/-! ## The path of a leaf -/

namespace PerfectTree

variable {α : Type u} {depth : Nat}

/-- The siblings on the way from the selected leaf to the root. -/
def siblings (hash : α -> α -> α) :
    {depth : Nat} -> PerfectTree α depth -> (Fin depth -> Bool) ->
      Fin depth -> α
  | _, .leaf _, _ => Fin.elim0
  | depth + 1, .node left right, side =>
      if side (Fin.last depth) then
        @Fin.snoc depth (fun _ => α) (right.siblings hash (Fin.init side))
          (left.root hash)
      else
        @Fin.snoc depth (fun _ => α) (left.siblings hash (Fin.init side))
          (right.root hash)

/-- The levels on the way from the selected leaf to the root. -/
def path
    (hash : α -> α -> α)
    (tree : PerfectTree α depth)
    (side : Fin depth -> Bool) : List (Bool × α) :=
  List.ofFn fun i => (side i, tree.siblings hash side i)

/-- A path through an inner node ends with the other child. -/
theorem path_node
    (hash : α -> α -> α)
    (left right : PerfectTree α depth)
    (side : Fin (depth + 1) -> Bool) :
    (node left right).path hash side =
      if side (Fin.last depth) then
        (right.path hash (Fin.init side)).concat (true, left.root hash)
      else (left.path hash (Fin.init side)).concat (false, right.root hash) := by
  rw [path, List.ofFn_succ']
  cases selected : side (Fin.last depth) with
  | true => simp [siblings, path, selected, Fin.init]
  | false => simp [siblings, path, selected, Fin.init]

/-- **Completeness of paths.**  The path of a leaf leads from the leaf to the
root. -/
theorem climb_path
    (hash : α -> α -> α)
    (tree : PerfectTree α depth)
    (side : Fin depth -> Bool) :
    climb hash (tree.leafAt side) (tree.path hash side) = tree.root hash := by
  induction tree with
  | leaf value => rfl
  | node left right leftHypothesis rightHypothesis =>
      rw [path_node, leafAt_node]
      cases side (Fin.last _) with
      | true =>
          rw [if_pos rfl, if_pos rfl, climb_concat, rightHypothesis]
          rfl
      | false =>
          rw [if_neg Bool.false_ne_true, if_neg Bool.false_ne_true,
            climb_concat, leftHypothesis]
          rfl

/-! ## Positions -/

/-- The sides that the binary digits of a position select. -/
def sidesOf (depth position : Nat) (level : Fin depth) : Bool :=
  position.testBit level

/-- The levels of a list of siblings: the parity of the index selects the side,
and halving it leads to the next level. -/
def indexLevels {α : Type u} : Int -> List α -> List (Bool × α)
  | _, [] => []
  | index, sibling :: siblings =>
      (decide (index % 2 ≠ 0), sibling) :: indexLevels (index / 2) siblings

/-- Halving a position reads its binary digits. -/
theorem indexLevels_ofFn (position : Nat) (sibling : Fin depth -> α) :
    indexLevels position (List.ofFn sibling) =
      List.ofFn fun i => (sidesOf depth position i, sibling i) := by
  induction depth generalizing position with
  | zero => rfl
  | succ depth inductionHypothesis =>
      have digit : decide ((position : Int) % 2 ≠ 0) = position.testBit 0 := by
        rw [Nat.testBit_zero, decide_eq_decide]
        omega
      have half : (position : Int) / 2 = (position / 2 : Nat) := by omega
      have above : ∀ i : Fin depth,
          sidesOf (depth + 1) position i.succ = sidesOf depth (position / 2) i :=
        fun i => Nat.testBit_succ position i
      rw [List.ofFn_succ, indexLevels, digit, half, inductionHypothesis,
        List.ofFn_succ]
      simp only [above]
      rfl

/-- A tree has one leaf for each position. -/
@[simp] theorem length_leaves (tree : PerfectTree α depth) :
    tree.leaves.length = 2 ^ depth := by
  induction tree with
  | leaf value => rfl
  | node left right leftHypothesis rightHypothesis =>
      rw [leaves_node, List.length_append, leftHypothesis, rightHypothesis]
      omega

/-- The digits of a position select the leaf at the position. -/
theorem leaves_getElem?
    (tree : PerfectTree α depth)
    {position : Nat}
    (within : position < 2 ^ depth) :
    tree.leaves[position]? = some (tree.leafAt (sidesOf depth position)) := by
  induction tree generalizing position with
  | leaf value =>
      obtain rfl : position = 0 := Nat.lt_one_iff.mp within
      rfl
  | @node depth left right leftHypothesis rightHypothesis =>
      rw [leaves_node, leafAt_node]
      by_cases inLeft : position < 2 ^ depth
      · have side : sidesOf (depth + 1) position (Fin.last depth) = false :=
          Nat.testBit_lt_two_pow inLeft
        rw [side, List.getElem?_append_left (by rwa [length_leaves]),
          leftHypothesis inLeft]
        rfl
      · obtain ⟨rest, rfl⟩ := Nat.exists_eq_add_of_le (Nat.not_lt.mp inLeft)
        have inRight : rest < 2 ^ depth := by omega
        have side : sidesOf (depth + 1) (2 ^ depth + rest) (Fin.last depth) =
            true := by
          rw [sidesOf, Fin.val_last, Nat.testBit_two_pow_add_eq,
            Nat.testBit_lt_two_pow inRight]
          rfl
        have below : Fin.init (sidesOf (depth + 1) (2 ^ depth + rest)) =
            sidesOf depth rest := by
          funext level
          exact Nat.testBit_two_pow_add_gt level.isLt rest
        rw [side, below, List.getElem?_append_right (by simp), length_leaves,
          Nat.add_sub_cancel_left, rightHypothesis inRight]
        rfl

end PerfectTree
end Foundation

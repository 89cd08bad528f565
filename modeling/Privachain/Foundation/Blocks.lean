import Mathlib.Data.List.Basic
import Mathlib.Data.List.Perm.Basic

/-!
# Concatenations read back

A concatenation of parts does not show where a part ends.  Two concatenations
agree exactly when the parts do or a string moves across a boundary; for blocks
of one size in front of a tail, whole blocks move into the tail.  Parts of two kinds
of elements are read back from any permutation.
-/

namespace Foundation

universe u

variable {α : Type u}

/-- The second division into two parts arises from the first one by moving a
string across the boundary. -/
def MovesBoundary (first second first' second' : List α) : Prop :=
  ∃ moved, moved ≠ [] ∧
    ((first' = first ++ moved ∧ second = moved ++ second') ∨
      (first = first' ++ moved ∧ second' = moved ++ second))

/-- Two divisions belong to one list exactly when they are the same or the
boundary moves. -/
theorem append_eq_append_iff_movesBoundary
    (first second first' second' : List α) :
    first ++ second = first' ++ second' ↔
      (first = first' ∧ second = second') ∨
        MovesBoundary first second first' second' := by
  rw [List.append_eq_append_iff]
  constructor
  · rintro (⟨moved, parts⟩ | ⟨moved, parts⟩)
    · by_cases nothing : moved = []
      · left
        subst nothing
        simpa [eq_comm] using parts
      · exact .inr ⟨moved, nothing, .inl parts⟩
    · by_cases nothing : moved = []
      · left
        subst nothing
        simpa [eq_comm] using parts
      · exact .inr ⟨moved, nothing, .inr parts⟩
  · rintro (⟨rfl, rfl⟩ | ⟨moved, -, parts | parts⟩)
    · exact .inl ⟨[], by simp⟩
    · exact .inl ⟨moved, parts⟩
    · exact .inr ⟨moved, parts⟩

/-- A boundary that moves changes the first part. -/
theorem MovesBoundary.first_ne
    {first second first' second' : List α}
    (moves : MovesBoundary first second first' second') :
    first ≠ first' := by
  obtain ⟨moved, something, ⟨rfl, -⟩ | ⟨rfl, -⟩⟩ := moves
  · simpa using something
  · simpa using something

/-- More blocks follow in the second list, and the first tail starts with
them. -/
def ContinuesBlocks
    (blocks : List (List α))
    (tail : List α)
    (blocks' : List (List α))
    (tail' : List α) : Prop :=
  ∃ rest, rest ≠ [] ∧ blocks' = blocks ++ rest ∧ tail = rest.flatten ++ tail'

/-- A list of blocks that continues another one is longer. -/
theorem ContinuesBlocks.length_lt
    {blocks blocks' : List (List α)}
    {tail tail' : List α}
    (continues : ContinuesBlocks blocks tail blocks' tail') :
    blocks.length < blocks'.length := by
  obtain ⟨rest, something, rfl, -⟩ := continues
  rw [List.length_append]
  exact Nat.lt_add_of_pos_right (List.length_pos_iff.mpr something)

/-- Two lists of blocks with tails agree exactly when they are the same or one
continues the other. -/
theorem flatten_append_eq_iff
    {size : Nat}
    {blocks blocks' : List (List α)}
    (sized : ∀ block ∈ blocks, block.length = size)
    (sized' : ∀ block ∈ blocks', block.length = size)
    (tail tail' : List α) :
    blocks.flatten ++ tail = blocks'.flatten ++ tail' ↔
      (blocks = blocks' ∧ tail = tail') ∨
        ContinuesBlocks blocks tail blocks' tail' ∨
        ContinuesBlocks blocks' tail' blocks tail := by
  constructor
  · intro same
    induction blocks generalizing blocks' with
    | nil =>
        cases blocks' with
        | nil => exact .inl ⟨rfl, same⟩
        | cons block' blocks' =>
            exact .inr (.inl ⟨block' :: blocks', List.cons_ne_nil _ _, rfl, same⟩)
    | cons block blocks inductionHypothesis =>
        cases blocks' with
        | nil =>
            exact .inr (.inr
              ⟨block :: blocks, List.cons_ne_nil _ _, rfl, same.symm⟩)
        | cons block' blocks' =>
            rw [List.flatten_cons, List.flatten_cons, List.append_assoc,
              List.append_assoc] at same
            have sameLength : block.length = block'.length := by
              rw [sized block List.mem_cons_self,
                sized' block' List.mem_cons_self]
            obtain ⟨rfl, rest⟩ := List.append_inj same sameLength
            rcases inductionHypothesis
              (fun other member => sized other (List.mem_cons_of_mem _ member))
              (fun other member => sized' other (List.mem_cons_of_mem _ member))
              rest with ⟨rfl, tails⟩ | ⟨more, something, rfl, tails⟩ |
                ⟨more, something, rfl, tails⟩
            · exact .inl ⟨rfl, tails⟩
            · exact .inr (.inl ⟨more, something, rfl, tails⟩)
            · exact .inr (.inr ⟨more, something, rfl, tails⟩)
  · rintro (⟨rfl, rfl⟩ | ⟨rest, -, rfl, rfl⟩ | ⟨rest, -, rfl, rfl⟩)
    · rfl
    · rw [List.flatten_append, List.append_assoc]
    · rw [List.flatten_append, List.append_assoc]

section Kinds

variable
  {isFirst : α -> Bool}
  {first second first' second' : List α}

/-- Both parts of a concatenation are filtered out by the kind of their
elements. -/
theorem filter_append_kinds
    (areFirst : ∀ element ∈ first, isFirst element = true)
    (areSecond : ∀ element ∈ second, isFirst element = false) :
    (first ++ second).filter isFirst = first ∧
      (first ++ second).filter (fun element => !isFirst element) = second := by
  have noSecond : second.filter isFirst = [] :=
    List.filter_eq_nil_iff.mpr (by simpa using areSecond)
  have noFirst : first.filter (fun element => !isFirst element) = [] :=
    List.filter_eq_nil_iff.mpr (by simpa using areFirst)
  constructor
  · rw [List.filter_append, List.filter_eq_self.mpr areFirst, noSecond,
      List.append_nil]
  · rw [List.filter_append, noFirst, List.nil_append]
    exact List.filter_eq_self.mpr (by simpa using areSecond)

/-- Concatenations of two kinds of elements are permuted exactly when both parts
are. -/
theorem perm_append_iff_kinds
    (areFirst : ∀ element ∈ first, isFirst element = true)
    (areSecond : ∀ element ∈ second, isFirst element = false)
    (areFirst' : ∀ element ∈ first', isFirst element = true)
    (areSecond' : ∀ element ∈ second', isFirst element = false) :
    (first ++ second).Perm (first' ++ second') ↔
      first.Perm first' ∧ second.Perm second' := by
  constructor
  · intro permuted
    obtain ⟨firstKept, secondKept⟩ := filter_append_kinds areFirst areSecond
    obtain ⟨firstKept', secondKept'⟩ := filter_append_kinds areFirst' areSecond'
    have firsts := permuted.filter isFirst
    have seconds := permuted.filter fun element => !isFirst element
    rw [firstKept, firstKept'] at firsts
    rw [secondKept, secondKept'] at seconds
    exact ⟨firsts, seconds⟩
  · rintro ⟨firsts, seconds⟩
    exact firsts.append seconds

end Kinds

end Foundation

import Mathlib.Algebra.Order.BigOperators.Group.List
import Mathlib.Data.List.Basic
import Mathlib.Data.List.Perm.Subperm

/-!
# Choices from a descending list

A choice takes entries of a list, each at most once.  Among the choices of one
size from a list in descending order of weight, the prefix weighs most.
-/

namespace Foundation
namespace Greedy

universe u v

variable {α : Type u} {Weight : Type v} [AddCommMonoid Weight]
variable (weight : α -> Weight)

/-- The sum of the weights of a list. -/
def totalWeight (items : List α) : Weight := (items.map weight).sum

@[simp] theorem totalWeight_nil : totalWeight weight [] = 0 := rfl

@[simp] theorem totalWeight_cons (first : α) (rest : List α) :
    totalWeight weight (first :: rest) =
      weight first + totalWeight weight rest := by
  simp [totalWeight]

@[simp] theorem totalWeight_append (earlier later : List α) :
    totalWeight weight (earlier ++ later) =
      totalWeight weight earlier + totalWeight weight later := by
  simp [totalWeight]

/-- The weight does not depend on the order. -/
theorem totalWeight_perm {items others : List α} (perm : items.Perm others) :
    totalWeight weight items = totalWeight weight others :=
  (perm.map weight).sum_eq

/-- Every entry weighs at least as much as the entries after it. -/
def Descending
    {α : Type u} {Weight : Type v} [LE Weight]
    (weight : α -> Weight)
    (items : List α) : Prop :=
  items.Pairwise fun earlier later => weight later ≤ weight earlier

variable {weight} [PartialOrder Weight] [IsOrderedAddMonoid Weight]

/-- A heavier first entry makes a heavier prefix of the same size. -/
theorem totalWeight_take_le_take_cons
    {first : α}
    {rest : List α}
    (descending : Descending weight (first :: rest))
    {size : Nat}
    (fits : size ≤ rest.length) :
    totalWeight weight (rest.take size) ≤
      totalWeight weight ((first :: rest).take size) := by
  induction rest generalizing first size with
  | nil =>
      obtain rfl : size = 0 := Nat.le_zero.mp fits
      simp
  | cons second rest inductionHypothesis =>
      cases size with
      | zero => simp
      | succ size =>
          obtain ⟨heaviest, restDescending⟩ := List.pairwise_cons.mp descending
          rw [List.take_succ_cons, List.take_succ_cons, totalWeight_cons,
            totalWeight_cons]
          apply add_le_add
          · exact heaviest second List.mem_cons_self
          · exact inductionHypothesis restDescending
              (Nat.le_of_succ_le_succ fits)

/-- No sublist of a descending list outweighs the prefix of its size. -/
theorem sublist_totalWeight_le_take
    {chosen items : List α}
    (sublist : chosen.Sublist items)
    (descending : Descending weight items) :
    totalWeight weight chosen ≤
      totalWeight weight (items.take chosen.length) := by
  induction sublist with
  | slnil => simp
  | cons first sublist inductionHypothesis =>
      have restDescending := (List.pairwise_cons.mp descending).2
      calc
        _ ≤ _ := inductionHypothesis restDescending
        _ ≤ _ := totalWeight_take_le_take_cons descending sublist.length_le
  | cons_cons first sublist inductionHypothesis =>
      have restDescending := (List.pairwise_cons.mp descending).2
      rw [List.length_cons, List.take_succ_cons, totalWeight_cons,
        totalWeight_cons]
      exact add_le_add_right (inductionHypothesis restDescending) _

/-- **Exchange.**  No choice from a descending list outweighs the prefix of its
size. -/
theorem subperm_totalWeight_le_take
    {chosen items : List α}
    (choice : chosen.Subperm items)
    (descending : Descending weight items) :
    totalWeight weight chosen ≤
      totalWeight weight (items.take chosen.length) := by
  obtain ⟨ordered, perm, sublist⟩ := choice
  rw [← totalWeight_perm weight perm, ← perm.length_eq]
  exact sublist_totalWeight_le_take sublist descending

end Greedy
end Foundation

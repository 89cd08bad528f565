import Mathlib.Data.List.Nodup

/-!
# Entries of lists

Lists with one more entry, or with another entry at a position.
-/

namespace Foundation

universe u

variable {α : Type u} {items : List α}

theorem getElem?_concat_eq_some_iff
    (item other : α)
    (index : Nat) :
    (items ++ [item])[index]? = some other ↔
      items[index]? = some other ∨ index = items.length ∧ other = item := by
  rw [List.getElem?_append]
  split
  · rename_i inside
    exact (or_iff_left fun atEnd => absurd atEnd.1 (Nat.ne_of_lt inside)).symm
  · rename_i outside
    have absent : items[index]? = none :=
      List.getElem?_eq_none (Nat.le_of_not_lt outside)
    rw [absent, List.getElem?_singleton]
    split
    · rename_i atEnd
      have isEnd : index = items.length := by omega
      simp [isEnd, eq_comm]
    · rename_i beyond
      have notEnd : index ≠ items.length := by omega
      simp [notEnd]

theorem getElem?_set_eq_some_iff
    {position : Nat}
    {old : α}
    (found : items[position]? = some old)
    (item other : α)
    (index : Nat) :
    (items.set position item)[index]? = some other ↔
      index = position ∧ other = item ∨
        index ≠ position ∧ items[index]? = some other := by
  have inside : position < items.length :=
    (List.getElem?_eq_some_iff.mp found).1
  rw [List.getElem?_set]
  split
  · rename_i same
    subst same
    simp [inside, eq_comm]
  · rename_i different
    simp [Ne.symm different]

theorem mem_set_iff_of_ne
    {position : Nat}
    {old : α}
    (found : items[position]? = some old)
    {item other : α}
    (notOld : other ≠ old)
    (notNew : other ≠ item) :
    other ∈ items.set position item ↔ other ∈ items := by
  simp only [List.mem_iff_getElem?, getElem?_set_eq_some_iff found]
  constructor
  · rintro ⟨index, ⟨-, isNew⟩ | ⟨-, atIndex⟩⟩
    · exact absurd isNew notNew
    · exact ⟨index, atIndex⟩
  · rintro ⟨index, atIndex⟩
    refine ⟨index, .inr ⟨?_, atIndex⟩⟩
    rintro rfl
    exact notOld (Option.some.inj (atIndex.symm.trans found))

/-- A list of equal entries without repetition has at most one. -/
theorem length_le_one_of_nodup
    (distinct : items.Nodup)
    (equal : ∀ item ∈ items, ∀ other ∈ items, item = other) :
    items.length ≤ 1 := by
  cases items with
  | nil => exact Nat.zero_le 1
  | cons first rest =>
      cases rest with
      | nil => exact Nat.le_refl 1
      | cons second rest =>
          have same := equal first List.mem_cons_self second (by simp)
          rw [same] at distinct
          exact absurd List.mem_cons_self (List.nodup_cons.mp distinct).1

end Foundation

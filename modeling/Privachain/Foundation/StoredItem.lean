import Privachain.Foundation.JavaScript
import Privachain.Foundation.StatefulCall

/-!
# Items of a key-value storage

A function that reads the text under its key, makes another text of what it
read and writes that.  Each of the two accesses may be refused by the storage.
-/

namespace Foundation
namespace StoredItem

open JavaScript
open StatefulCall

/-- How the storage answers the accesses of one call: with an exception, or
`none` when it grants the access. -/
structure Access where
  getItem : Option Exception := none
  setItem : Option Exception := none

/-- A call on the item under one key. -/
abbrev ItemCall (α : Type) := EStateM Exception (Option String) α

/-- The outcome of `getItem(key)`; `none` is an absent item. -/
def Access.read
    (access : Access)
    (item : Option String) : Except Exception (Option String) :=
  match access.getItem with
  | some error => .error error
  | none => .ok item

/-- `setItem(key, value)` -/
def Access.write (access : Access) (value : String) : ItemCall PUnit :=
  match access.setItem with
  | some error => throw error
  | none => set (some value)

/-- Reads the item, makes a text of the outcome and writes it. -/
def rewriteItem
    (access : Access)
    (replacement : Except Exception (Option String) -> Except Exception String) :
    ItemCall PUnit := do
  let item ← get
  match replacement (access.read item) with
  | .ok value => access.write value
  | .error error => throw error

/-- The item that a call leaves. -/
def itemAfter (call : ItemCall PUnit) (item : Option String) : Option String :=
  match call item with
  | .ok _ after => after
  | .error _ after => after

/-- The item is the state of the call. -/
theorem stateAfter_eq_itemAfter
    (call : ItemCall PUnit)
    (item : Option String) :
    stateAfter call item = itemAfter call item := by
  unfold stateAfter itemAfter
  cases call item with
  | ok value after => rfl
  | error error after => rfl

/-- Whether a call throws. -/
def reportsFailure (call : ItemCall PUnit) (item : Option String) : Bool :=
  match call item with
  | .ok _ _ => false
  | .error _ _ => true

section Outcomes

variable
  (access : Access)
  (replacement : Except Exception (Option String) -> Except Exception String)
  (item : Option String)

/-- The item changes only when there is a text to write and the write is
granted; the call throws otherwise. -/
theorem rewriteItem_eq :
    rewriteItem access replacement item =
      match replacement (access.read item), access.setItem with
      | .error error, _ => .error error item
      | .ok _, some refusal => .error refusal item
      | .ok value, none => .ok ⟨⟩ (some value) := by
  have call : rewriteItem access replacement item =
      (match replacement (access.read item) with
        | .ok value => access.write value
        | .error error => throw error : ItemCall PUnit) item := rfl
  rw [call]
  unfold Access.write
  cases replacement (access.read item) with
  | error error => rfl
  | ok value =>
      cases access.setItem with
      | none => rfl
      | some refusal => rfl

/-- The text is written. -/
theorem itemAfter_rewriteItem_of_granted
    (granted : access.setItem = none)
    {value : String}
    (replaced : replacement (access.read item) = .ok value) :
    itemAfter (rewriteItem access replacement) item = some value := by
  rw [itemAfter, rewriteItem_eq, replaced, granted]

/-- A call whose write is refused leaves the item as it is. -/
theorem itemAfter_rewriteItem_of_refused
    (refused : access.setItem ≠ none) :
    itemAfter (rewriteItem access replacement) item = item := by
  obtain ⟨refusal, isRefused⟩ := Option.ne_none_iff_exists'.mp refused
  rw [itemAfter, rewriteItem_eq, isRefused]
  cases replacement (access.read item) with
  | error error => rfl
  | ok value => rfl

/-- A call without a text to write leaves the item as it is. -/
theorem itemAfter_rewriteItem_of_error
    {error : Exception}
    (failed : replacement (access.read item) = .error error) :
    itemAfter (rewriteItem access replacement) item = item := by
  rw [itemAfter, rewriteItem_eq, failed]

/-- A call leaves the item or writes its text. -/
theorem itemAfter_rewriteItem_cases :
    itemAfter (rewriteItem access replacement) item = item ∨
      ∃ value, replacement (access.read item) = .ok value ∧
        itemAfter (rewriteItem access replacement) item = some value := by
  cases replaced : replacement (access.read item) with
  | error error =>
      exact .inl (itemAfter_rewriteItem_of_error _ _ _ replaced)
  | ok value =>
      by_cases granted : access.setItem = none
      · right
        exact ⟨value, rfl,
          itemAfter_rewriteItem_of_granted _ _ _ granted replaced⟩
      · exact .inl (itemAfter_rewriteItem_of_refused _ _ _ granted)

/-- A call returns exactly when there is a text to write and the write is
granted. -/
theorem reportsFailure_rewriteItem_eq_false_iff :
    reportsFailure (rewriteItem access replacement) item = false ↔
      access.setItem = none ∧
        ∃ value, replacement (access.read item) = .ok value := by
  rw [reportsFailure, rewriteItem_eq]
  cases replacement (access.read item) with
  | error error => simp
  | ok value =>
      cases access.setItem with
      | none => simp
      | some refusal => simp

end Outcomes

end StoredItem
end Foundation

import Mathlib.Algebra.Group.Fin.Basic
import Mathlib.Algebra.GroupWithZero.Nat

/-!
# Tables with linear probing

A search starts in the home slot of a key and goes on to the next slot.  It ends
at the key, at a vacant slot, or where it began.  Where every key that is in the
table is in its home slot the search looks at no other slot.
-/

namespace Foundation

namespace OpenAddressing

variable {size : Nat} [NeZero size]

/-- One slot less lies between the next slot and the start. -/
theorem distance_succ_lt
    {start pos : Fin size}
    (apart : pos ≠ start) : (start - (pos + 1)).val < (start - pos).val := by
  have positive : start - pos ≠ 0 := fun zero => apart (sub_eq_zero.mp zero).symm
  rw [← sub_sub]
  cases size with
  | zero => exact start.elim0
  | succ last =>
    exact Fin.sub_one_lt_iff.mpr (Fin.pos_iff_ne_zero.mpr positive)

/-- Where a search ends without the key. -/
inductive Absence
  | vacantSlot
  | fullCircle
  deriving DecidableEq

/-- The search from a slot on. -/
def probe
    (isKey isVacant : Fin size -> Bool)
    (start pos : Fin size) : Except Absence (Fin size) :=
  if pos = start then .error .fullCircle
  else if isKey pos then .ok pos
  else if isVacant pos then .error .vacantSlot
  else probe isKey isVacant start (pos + 1)
termination_by (start - pos).val
decreasing_by exact distance_succ_lt ‹_›

/-- The search for a key. -/
def search
    (isKey isVacant : Fin size -> Bool)
    (home : Fin size) : Except Absence (Fin size) :=
  if isKey home then .ok home
  else probe isKey isVacant home (home + 1)

/-- A search that goes on ends at the key. -/
theorem probe_isKey
    {isKey isVacant : Fin size -> Bool}
    {start pos found : Fin size}
    (ends : probe isKey isVacant start pos = .ok found) :
    isKey found = true := by
  fun_induction probe isKey isVacant start pos with
  | case1 => cases ends
  | case2 pos _ isKey => exact Except.ok.inj ends ▸ isKey
  | case3 => cases ends
  | case4 pos _ _ _ inductionHypothesis => exact inductionHypothesis ends

/-- A key that is in its home slot, if it is in any, is found only there. -/
theorem search_eq_ok_iff
    {isKey : Fin size -> Bool}
    {home : Fin size}
    (atHome : ∀ pos, isKey pos = true -> isKey home = true)
    (isVacant : Fin size -> Bool)
    (found : Fin size) :
    search isKey isVacant home = .ok found ↔
      isKey home = true ∧ found = home := by
  unfold search
  by_cases here : isKey home = true
  · simp [here, eq_comm]
  · rw [if_neg here]
    refine iff_of_false ?_ fun both => here both.1
    intro ends
    exact here (atHome found (probe_isKey ends))

end OpenAddressing

end Foundation

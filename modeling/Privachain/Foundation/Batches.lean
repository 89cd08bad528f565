import Mathlib.Data.List.Basic

/-!
# Batches of an interval

A closed interval of integers is cut into batches of a fixed size, of which the
last one may be shorter.  The batches follow each other without gaps, so what is
done batch by batch is done once with every integer of the interval.
-/

namespace Foundation

/-! ## Intervals -/

/-- The integers from the first to the last, in order. -/
def interval (first last : Int) : List Int :=
  (List.range (last + 1 - first).toNat).map fun offset : Nat => first + offset

theorem mem_interval {first last value : Int} :
    value ∈ interval first last ↔ first ≤ value ∧ value ≤ last := by
  rw [interval, List.mem_map]
  constructor
  · rintro ⟨offset, member, rfl⟩
    rw [List.mem_range] at member
    omega
  · rintro ⟨notBefore, notAfter⟩
    refine ⟨(value - first).toNat, List.mem_range.mpr ?_, ?_⟩
    · omega
    · omega

theorem interval_of_lt {first last : Int} (empty : last < first) :
    interval first last = [] := by
  have none : (last + 1 - first).toNat = 0 := by omega
  rw [interval, none]
  rfl

/-- Adjacent intervals are one. -/
theorem interval_append
    {first middle last : Int}
    (start : first ≤ middle + 1)
    (stop : middle ≤ last) :
    interval first middle ++ interval (middle + 1) last =
      interval first last := by
  have lengths : (last + 1 - first).toNat =
      (middle + 1 - first).toNat + (last + 1 - (middle + 1)).toNat := by
    omega
  unfold interval
  rw [lengths, List.range_add, List.map_append, List.map_map]
  refine congrArg _ (List.map_congr_left fun offset _ => ?_)
  change middle + 1 + (offset : Int) =
    first + (((middle + 1 - first).toNat + offset : Nat) : Int)
  omega

/-! ## Batches -/

/-- A batch by its first and its last integer. -/
structure Batch where
  first : Int
  last : Int
  deriving DecidableEq

/-- The integers of a batch. -/
def Batch.members (batch : Batch) : List Int := interval batch.first batch.last

/-- The batches of a closed interval. -/
def batches (size : Nat) (positive : 0 < size) (first last : Int) : List Batch :=
  if first ≤ last then
    ⟨first, min (first + size - 1) last⟩ ::
      batches size positive (min (first + size - 1) last + 1) last
  else []
termination_by (last + 1 - first).toNat
decreasing_by omega

section Batches

variable
  {size : Nat}
  {positive : 0 < size}

theorem batches_of_le
    {first last : Int}
    (nonempty : first ≤ last) :
    batches size positive first last =
      ⟨first, min (first + size - 1) last⟩ ::
        batches size positive (min (first + size - 1) last + 1) last := by
  rw [batches, if_pos nonempty]

theorem batches_of_lt
    {first last : Int}
    (empty : last < first) :
    batches size positive first last = [] := by
  rw [batches, if_neg (Int.not_le.mpr empty)]

/-- A batch is not empty and within the interval. -/
theorem bounds_of_mem_batches
    {first last : Int}
    {batch : Batch}
    (member : batch ∈ batches size positive first last) :
    first ≤ batch.first ∧ batch.first ≤ batch.last ∧ batch.last ≤ last := by
  induction first using batches.induct size positive last with
  | case1 first nonempty inductionHypothesis =>
      rw [batches_of_le nonempty] at member
      rcases List.mem_cons.mp member with rfl | later
      · dsimp only
        omega
      · have bounds := inductionHypothesis later
        omega
  | case2 first empty =>
      rw [batches_of_lt (Int.not_le.mp empty)] at member
      cases member

/-- **Covering.**  The batches are the interval, in its order. -/
theorem flatMap_members_batches (first last : Int) :
    (batches size positive first last).flatMap Batch.members =
      interval first last := by
  induction first using batches.induct size positive last with
  | case1 first nonempty inductionHypothesis =>
      rw [batches_of_le nonempty, List.flatMap_cons, inductionHypothesis]
      change interval first (min (first + size - 1) last) ++ _ = _
      exact interval_append (by omega) (by omega)
  | case2 first empty =>
      have isEmpty := Int.not_le.mp empty
      rw [batches_of_lt isEmpty, interval_of_lt isEmpty]
      rfl

/-- An integer is in some batch exactly when it is in the interval. -/
theorem exists_batch_iff {first last value : Int} :
    (∃ batch ∈ batches size positive first last,
      batch.first ≤ value ∧ value ≤ batch.last) ↔
      first ≤ value ∧ value ≤ last := by
  rw [← mem_interval, ← @flatMap_members_batches size positive,
    List.mem_flatMap]
  simp only [Batch.members, mem_interval]

/-- Every batch ends before the next one starts. -/
theorem pairwise_batches (first last : Int) :
    (batches size positive first last).Pairwise fun earlier later =>
      earlier.last < later.first := by
  induction first using batches.induct size positive last with
  | case1 first nonempty inductionHypothesis =>
      rw [batches_of_le nonempty, List.pairwise_cons]
      refine ⟨fun later member => ?_, inductionHypothesis⟩
      have bounds := bounds_of_mem_batches member
      dsimp only
      omega
  | case2 first empty =>
      rw [batches_of_lt (Int.not_le.mp empty)]
      exact List.Pairwise.nil

/-- The ends of the batches ascend. -/
theorem pairwise_map_last (first last : Int) :
    ((batches size positive first last).map Batch.last).Pairwise (· < ·) := by
  rw [List.pairwise_map]
  refine (pairwise_batches first last).imp_of_mem ?_
  intro earlier later _ member before
  have bounds := bounds_of_mem_batches member
  omega

/-- The last batch ends with the interval. -/
theorem getLast?_batches
    {first last : Int}
    (nonempty : first ≤ last) :
    (batches size positive first last).getLast?.map Batch.last = some last := by
  induction first using batches.induct size positive last with
  | case1 first _ inductionHypothesis =>
      rw [batches_of_le nonempty]
      by_cases more : min (first + size - 1) last + 1 ≤ last
      · have rest := inductionHypothesis more
        rw [batches_of_le more] at rest ⊢
        rw [List.getLast?_cons_cons]
        exact rest
      · rw [batches_of_lt (Int.not_le.mp more)]
        rw [List.getLast?_singleton, Option.map_some, Option.some.injEq]
        dsimp only
        omega
  | case2 first empty => exact absurd nonempty empty

end Batches

end Foundation

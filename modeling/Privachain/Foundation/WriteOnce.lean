import Mathlib.Algebra.Order.BigOperators.Group.Finset
import Mathlib.Data.Nat.SuccPred

/-!
# Cells that are written once

A fixed number of cells is filled one by one.  A cell that has been written
refuses another value.  When the last one is written a job takes over all
values, and no further write is accepted.  Whatever the order of the writes, the
job runs exactly when every cell is written once.
-/

namespace Foundation

universe u v

/-- Cells together with the number of those that are still to be written, and
the result of the job once it ran. -/
structure WriteOnce (Value : Type u) (Result : Type v) where
  assigned : Nat -> Bool
  remaining : Nat
  values : Nat -> Value
  result : Option Result

namespace WriteOnce

variable {Value : Type u} {Result : Type v}

/-- Write one cell, and run the job after the last one. -/
def write
    (job : (Nat -> Value) -> Option Result)
    (cells : WriteOnce Value Result)
    (index : Nat)
    (value : Value) : Option (WriteOnce Value Result) :=
  if cells.remaining = 0 then none
  else if cells.assigned index then none
  else
    let assigned := Function.update cells.assigned index true
    let values := Function.update cells.values index value
    if cells.remaining - 1 = 0 then
      (job values).map fun result => ⟨assigned, 0, values, some result⟩
    else some ⟨assigned, cells.remaining - 1, values, cells.result⟩

/-- Write several cells in order. -/
def writeAll
    (job : (Nat -> Value) -> Option Result) :
    WriteOnce Value Result -> List (Nat × Value) ->
      Option (WriteOnce Value Result)
  | cells, [] => some cells
  | cells, (index, value) :: writes => do
      let cells <- write job cells index value
      writeAll job cells writes

/-- Writes are done one part after the other. -/
theorem writeAll_append
    (job : (Nat -> Value) -> Option Result)
    (cells : WriteOnce Value Result)
    (first second : List (Nat × Value)) :
    writeAll job cells (first ++ second) =
      (writeAll job cells first).bind fun cells => writeAll job cells second := by
  induction first generalizing cells with
  | nil => rfl
  | cons next first inductionHypothesis =>
      simp only [List.cons_append, writeAll, Option.bind_eq_bind,
        inductionHypothesis, Option.bind_assoc]

/-- The result once no cell remains. -/
def finished (cells : WriteOnce Value Result) : Option Result :=
  if cells.remaining = 0 then cells.result else none

/-- What the cells hold after some writes. -/
def contents
    (initial : Nat -> Value)
    (writes : List (Nat × Value)) : Nat -> Value :=
  fun index => (writes.lookup index).getD (initial index)

theorem contents_concat
    (initial : Nat -> Value)
    {writes : List (Nat × Value)}
    {index : Nat}
    (fresh : index ∉ writes.map Prod.fst)
    (value : Value) :
    contents initial (writes ++ [(index, value)]) =
      Function.update (contents initial writes) index value := by
  have absent : writes.lookup index = none := by
    rw [List.lookup_eq_none_iff]
    intro write member
    simp only [bne_iff_ne, ne_eq]
    rintro rfl
    exact fresh (List.mem_map_of_mem member)
  funext other
  by_cases same : other = index
  · subst same
    simp [contents, List.lookup_append, absent]
  · have later : List.lookup other [(index, value)] = none := by
      rw [List.lookup_eq_none_iff]
      simpa using same
    simp [contents, List.lookup_append, later, same]

/-- The written value of a cell that is written once. -/
theorem contents_of_mem
    (initial : Nat -> Value)
    {writes : List (Nat × Value)}
    (distinct : (writes.map Prod.fst).Nodup)
    {write : Nat × Value}
    (member : write ∈ writes) : contents initial writes write.1 = write.2 := by
  induction writes with
  | nil => cases member
  | cons first writes inductionHypothesis =>
      obtain ⟨fresh, rest⟩ := List.nodup_cons.mp distinct
      rw [contents, List.lookup_cons]
      rcases List.mem_cons.mp member with rfl | later
      · simp
      · have other : write.1 ≠ first.1 := by
          intro same
          exact fresh (same ▸ List.mem_map_of_mem later)
        rw [beq_eq_false_iff_ne.mpr other]
        exact inductionHypothesis rest later

/-! ## Whole runs -/

/-- The cells after the writes so far, of which none was the last one. -/
structure After
    (initial : Nat -> Value)
    (total : Nat)
    (writes : List (Nat × Value))
    (cells : WriteOnce Value Result) : Prop where
  distinct : (writes.map Prod.fst).Nodup
  assigned : ∀ index,
    cells.assigned index = true ↔ index ∈ writes.map Prod.fst
  remaining : cells.remaining + writes.length = total
  some_remains : cells.remaining ≠ 0
  values : cells.values = contents initial writes

section Runs

variable {job : (Nat -> Value) -> Option Result}
variable {initial : Nat -> Value}
variable {total : Nat}

/-- A write to a fresh cell that is not the last. -/
theorem After.step
    {writes : List (Nat × Value)}
    {cells : WriteOnce Value Result}
    (after : After initial total writes cells)
    {index : Nat}
    (value : Value)
    (fresh : index ∉ writes.map Prod.fst)
    (more : cells.remaining - 1 ≠ 0) :
    ∃ next, write job cells index value = some next ∧
      After initial total (writes ++ [(index, value)]) next := by
  have unassigned : ¬ cells.assigned index = true := by
    rwa [after.assigned]
  refine ⟨⟨Function.update cells.assigned index true, cells.remaining - 1,
    Function.update cells.values index value, cells.result⟩, ?_, ?_⟩
  · rw [write, if_neg after.some_remains, if_neg unassigned, if_neg more]
  · have remaining := after.remaining
    exact
      { distinct := by
          rw [List.map_append, List.map_singleton, List.nodup_append]
          refine ⟨after.distinct, List.nodup_singleton _, ?_⟩
          intro other member next isNext same
          rw [same, List.mem_singleton.mp isNext] at member
          exact fresh member
        assigned := by
          intro other
          by_cases same : other = index
          · subst same
            simp
          · simp [same, after.assigned]
        remaining := by
          rw [List.length_append, List.length_singleton]
          have some_remains := after.some_remains
          change cells.remaining - 1 + (writes.length + 1) = total
          omega
        some_remains := more
        values := by
          rw [contents_concat initial fresh, after.values] }

/-- The run of the job on what all writes left in the cells. -/
theorem writeAll_of_after
    {written : List (Nat × Value)}
    {cells : WriteOnce Value Result}
    (after : After initial total written cells)
    (writes : List (Nat × Value)) :
    (writeAll job cells writes).bind finished =
      if ((written ++ writes).map Prod.fst).Nodup ∧
          (written ++ writes).length = total then
        job (contents initial (written ++ writes))
      else none := by
  induction writes generalizing written cells with
  | nil =>
      have incomplete : (written ++ []).length ≠ total := by
        have remaining := after.remaining
        have some_remains := after.some_remains
        rw [List.append_nil]
        omega
      rw [if_neg fun both => incomplete both.2]
      simp [writeAll, finished, after.some_remains]
  | cons next writes inductionHypothesis =>
      obtain ⟨index, value⟩ := next
      rw [List.append_cons]
      by_cases fresh : index ∈ written.map Prod.fst
      · -- The cell refuses its second value.
        have twice :
            ¬ ((written ++ [(index, value)] ++ writes).map Prod.fst).Nodup := by
          rw [List.map_append, List.map_append, List.map_singleton]
          intro distinct
          have both := (List.nodup_append.mp distinct).1
          exact (List.nodup_append.mp both).2.2 index fresh index
            (List.mem_singleton_self index) rfl
        have assigned : cells.assigned index = true := (after.assigned index).mpr fresh
        rw [if_neg fun both => twice both.1]
        simp [writeAll, WriteOnce.write, after.some_remains, assigned]
      · by_cases more : cells.remaining - 1 = 0
        · have unassigned : ¬ cells.assigned index = true := by
            rwa [after.assigned]
          have length : written.length + 1 = total := by
            have remaining := after.remaining
            have some_remains := after.some_remains
            omega
          have distinct :
              ((written ++ [(index, value)]).map Prod.fst).Nodup := by
            rw [List.map_append, List.map_singleton, List.nodup_append]
            refine ⟨after.distinct, List.nodup_singleton _, ?_⟩
            intro other member next isNext same
            rw [same, List.mem_singleton.mp isNext] at member
            exact fresh member
          have values :
              Function.update cells.values index value =
                contents initial (written ++ [(index, value)]) := by
            rw [contents_concat initial fresh, after.values]
          rw [writeAll, WriteOnce.write, if_neg after.some_remains,
            if_neg unassigned, if_pos more, values]
          cases writes with
          | nil =>
              have complete : (written ++ [(index, value)] ++ []).length = total := by
                simpa using length
              rw [if_pos ⟨by simpa using distinct, complete⟩, List.append_nil]
              cases result : job (contents initial (written ++ [(index, value)])) with
              | none => rfl
              | some result => simp [writeAll, finished]
          | cons later writes =>
              have long :
                  (written ++ [(index, value)] ++ later :: writes).length ≠ total := by
                simp only [List.length_append, List.length_cons, List.length_nil]
                omega
              rw [if_neg fun both => long both.2]
              cases result : job (contents initial (written ++ [(index, value)])) with
              | none => rfl
              | some result => simp [writeAll, WriteOnce.write]
        · obtain ⟨cells', accepted, after'⟩ :=
            @After.step Value Result job initial total _ _ after index value fresh more
          rw [writeAll, accepted]
          exact inductionHypothesis after'

/--
Writes in any order run the job exactly when they reach as many different cells
as there are, and the job sees the written values.
-/
theorem writeAll_fresh
    (some_cells : total ≠ 0)
    (writes : List (Nat × Value)) :
    (writeAll job ⟨fun _ => false, total, initial, none⟩ writes).bind finished =
      if (writes.map Prod.fst).Nodup ∧ writes.length = total then
        job (contents initial writes)
      else none :=
  @writeAll_of_after Value Result job initial total []
    ⟨fun _ => false, total, initial, none⟩
    { distinct := List.nodup_nil
      assigned := by simp
      remaining := rfl
      some_remains := some_cells
      values := rfl } writes

end Runs

/-! ## Blocks -/

/-- The writes of values to cells in a row. -/
def block (start : Nat) (values : List Value) : List (Nat × Value) :=
  (List.range' start values.length).zip values

@[simp] theorem block_nil (start : Nat) :
    block start ([] : List Value) = [] := rfl

@[simp] theorem block_cons
    (start : Nat)
    (value : Value)
    (values : List Value) :
    block start (value :: values) = (start, value) :: block (start + 1) values := by
  rw [block, List.length_cons, List.range'_succ, List.zip_cons_cons, block]

@[simp] theorem length_block (start : Nat) (values : List Value) :
    (block start values).length = values.length := by
  simp [block]

@[simp] theorem map_fst_block (start : Nat) (values : List Value) :
    (block start values).map Prod.fst = List.range' start values.length :=
  List.map_fst_zip (by simp)

/-- The writes of a block are those of its values. -/
theorem mem_block_ofFn
    {n : Nat}
    (start : Nat)
    (values : Fin n -> Value)
    (i : Fin n) :
    (start + i.val, values i) ∈ block start (List.ofFn values) := by
  induction n generalizing start with
  | zero => exact i.elim0
  | succ n inductionHypothesis =>
      rw [List.ofFn_succ, block_cons]
      cases i using Fin.cases with
      | zero => exact List.mem_cons_self
      | succ i =>
          have later := inductionHypothesis (start + 1) (fun i => values i.succ) i
          rw [Nat.add_assoc, Nat.add_comm 1] at later
          exact List.mem_cons_of_mem _ later

section Regions

variable {Region : Type v} {start size : Region -> Nat}

/-- Regions that do not overlap are written once exactly when no region with
cells comes twice. -/
theorem nodup_regions_iff
    (disjoint : ∀ first second, first ≠ second ->
      (List.range' (start first) (size first)).Disjoint
        (List.range' (start second) (size second)))
    (regions : List Region) :
    (regions.flatMap fun region =>
        List.range' (start region) (size region)).Nodup ↔
      (regions.filter fun region => 0 < size region).Nodup := by
  rw [List.nodup_flatMap]
  unfold List.Nodup
  rw [List.pairwise_filter]
  constructor
  · rintro ⟨-, apart⟩
    refine apart.imp ?_
    rintro first second separate some_cells - rfl
    have member : start first ∈ List.range' (start first) (size first) := by
      rw [List.mem_range'_1]
      simpa using some_cells
    exact separate member member
  · intro apart
    refine ⟨fun _ _ => List.nodup_range', apart.imp ?_⟩
    intro first second differ
    by_cases same : first = second
    · subst same
      have empty : size first = 0 := by
        by_contra some_cells
        have positive : decide (0 < size first) = true := by
          rw [decide_eq_true_iff]
          omega
        exact differ positive positive rfl
      simp [Function.onFun, empty]
    · exact disjoint first second same

/-- Regions that are written once have as many cells as all regions together
exactly when every region with cells is among them. -/
theorem covers_iff
    [DecidableEq Region]
    {regions all : List Region}
    (allDistinct : all.Nodup)
    (all_iff : ∀ region, region ∈ all ↔ 0 < size region) :
    (regions.filter fun region => 0 < size region).Nodup ∧
        (regions.map size).sum = (all.map size).sum ↔
      (regions.filter fun region => 0 < size region).Perm all := by
  have withCells : (regions.map size).sum =
      ((regions.filter fun region => 0 < size region).map size).sum := by
    induction regions with
    | nil => rfl
    | cons region regions inductionHypothesis =>
        by_cases some_cells : 0 < size region
        · simp [some_cells, inductionHypothesis]
        · have empty : size region = 0 := by omega
          simp [empty, inductionHypothesis]
  rw [withCells]
  constructor
  · rintro ⟨distinct, sum⟩
    rw [List.perm_ext_iff_of_nodup distinct allDistinct]
    have subset : (regions.filter fun region => 0 < size region).toFinset ⊆
        all.toFinset := by
      intro region member
      rw [List.mem_toFinset, List.mem_filter] at member
      rw [List.mem_toFinset, all_iff]
      simpa using member.2
    intro region
    rw [← List.mem_toFinset, ← List.mem_toFinset]
    refine ⟨fun member => subset member, fun member => ?_⟩
    by_contra missing
    have positive := (all_iff region).mp (List.mem_toFinset.mp member)
    have smaller := Finset.sum_lt_sum_of_subset subset member missing positive
      fun _ _ _ => Nat.zero_le _
    rw [List.sum_toFinset size distinct, List.sum_toFinset size allDistinct]
      at smaller
    omega
  · intro perm
    exact ⟨perm.nodup_iff.mpr allDistinct, (perm.map size).sum_eq⟩

end Regions

end WriteOnce

end Foundation

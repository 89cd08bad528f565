import Privachain.Generator.InputLoading

/-!
# What the loading of a document amounts to

The loops over entries and values are a list of writes to the cells of the
calculator, and by the rule of such cells their order does not matter.
-/

namespace Privachain
namespace Generator

open Foundation Circuit
open WriteOnce (writeAll block contents)

/-- A sequence of computations without the reasons of failures. -/
theorem toOption_bind
    {ε α β : Type}
    (first : Except ε α)
    (next : α -> Except ε β) :
    (first >>= next).toOption = first.toOption.bind fun a => (next a).toOption := by
  cases first with
  | error => rfl
  | ok => rfl

/-- A traversal returns the list of the results of its elements. -/
theorem mapM_eq_some_iff
    {α β : Type}
    (function : α -> Option β)
    (inputs : List α)
    (results : List β) :
    inputs.mapM function = some results ↔
      List.Forall₂ (fun input result => function input = some result)
        inputs results := by
  induction inputs generalizing results with
  | nil => simp [eq_comm]
  | cons input inputs inductionHypothesis =>
      rw [List.mapM_cons, List.forall₂_cons_left_iff, Option.bind_eq_bind,
        Option.bind_eq_some_iff]
      constructor
      · rintro ⟨head, headReturns, rest⟩
        obtain ⟨tail, tailReturns, equal⟩ := Option.bind_eq_some_iff.mp rest
        exact ⟨head, tail, headReturns, (inductionHypothesis tail).mp tailReturns,
          (Option.some.inj equal).symm⟩
      · rintro ⟨head, tail, headReturns, tailReturns, rfl⟩
        refine ⟨head, headReturns, Option.bind_eq_some_iff.mpr ⟨tail, ?_, rfl⟩⟩
        exact (inductionHypothesis tail).mpr tailReturns

/-- What an entry sets: the slot of its signal and as many values as that has. -/
def setting (entry : Bytes × Json) : Option (Fin 256 × List FrElement) := do
  let v <- (json2FrElements entry.2).toOption
  let pos <- (getInputSignalHashPosition (fnv1a entry.1)).toOption
  if v.length = (inputHashMap pos).signalsize then some (pos, v) else none

/-- The writes of all entries in order. -/
def settingWrites
    (settings : List (Fin 256 × List FrElement)) : List (Nat × FrElement) :=
  settings.flatMap fun setting => block (firstCell setting.1) setting.2

section Loading

variable {poseidon : List FrElement -> Option FrElement}

/-- The values of an entry are a block of writes. -/
theorem setValues_cells
    (key : Bytes)
    {h : Word}
    {pos : Fin 256}
    (found : getInputSignalHashPosition h = .ok pos)
    (v : List FrElement)
    {i : Nat}
    (within : i + v.length ≤ (inputHashMap pos).signalsize)
    (ctx : CalcWit) :
    (setValues poseidon key h i v ctx).toOption.map CalcWit.cells =
      writeAll (job poseidon) ctx.cells (block (firstCell pos + i) v) := by
  induction v generalizing i ctx with
  | nil => rfl
  | cons value v inductionHypothesis =>
      rw [List.length_cons] at within
      have written := @setInputSignal_cells poseidon ctx h pos found i (by omega)
        value
      rw [WriteOnce.block_cons, writeAll, ← written]
      unfold setValues
      cases result : setInputSignal poseidon ctx h i value with
      | ok ctx => exact inductionHypothesis (by omega) ctx
      | error failure =>
          cases failure with
          | runtimeError => rfl
          | aborted => rfl
          | refused => rfl

/-- An entry is read, found in the table, and has as many values as it needs. -/
theorem setting_eq_some_iff
    (entry : Bytes × Json)
    (pos : Fin 256)
    (v : List FrElement) :
    setting entry = some (pos, v) ↔
      json2FrElements entry.2 = .ok v ∧
        getInputSignalHashPosition (fnv1a entry.1) = .ok pos ∧
        v.length = (inputHashMap pos).signalsize := by
  unfold setting
  cases json2FrElements entry.2 with
  | error => simp [Except.toOption]
  | ok values =>
      cases getInputSignalHashPosition (fnv1a entry.1) with
      | error => simp [Except.toOption]
      | ok found =>
          by_cases fits : values.length = (inputHashMap found).signalsize
          · simp only [Except.toOption, Option.bind_eq_bind, Option.bind_some,
              fits, if_true, Option.some.injEq, Prod.mk.injEq, Except.ok.injEq]
            constructor
            · rintro ⟨rfl, rfl⟩
              exact ⟨rfl, rfl, fits⟩
            · rintro ⟨rfl, rfl, -⟩
              exact ⟨rfl, rfl⟩
          · simp only [Except.toOption, Option.bind_eq_bind, Option.bind_some,
              fits, if_false, Except.ok.injEq, reduceCtorEq, false_iff]
            rintro ⟨rfl, rfl, same⟩
            exact fits same

/-- An entry is loaded if it sets something. -/
theorem loadEntries_cons
    (key : Bytes)
    (value : Json)
    (entries : List (Bytes × Json))
    (ctx : CalcWit) :
    (loadEntries poseidon ((key, value) :: entries) ctx).toOption =
      (setting (key, value)).bind fun set =>
        (setValues poseidon key (fnv1a key) 0 set.2 ctx).toOption.bind
          fun ctx => (loadEntries poseidon entries ctx).toOption := by
  rw [loadEntries]
  unfold setting getInputSignalSize
  dsimp only
  cases json2FrElements value with
  | error => rfl
  | ok v =>
      cases getInputSignalHashPosition (fnv1a key) with
      | error => rfl
      | ok pos =>
          simp only [Except.toOption, Option.bind_eq_bind, Option.bind_some]
          rcases lt_trichotomy v.length (inputHashMap pos).signalsize with
            few | same | many
          · rw [if_neg few.ne]
            change (Except.toOption (if _ then _ else _)) = _
            rw [if_pos few]
            rfl
          · rw [if_pos same]
            change (Except.toOption (if _ then _ else if _ then _ else _)) = _
            rw [if_neg same.not_lt, if_neg same.not_gt]
            exact toOption_bind _ _
          · rw [if_neg many.ne']
            change (Except.toOption (if _ then _ else if _ then _ else _)) = _
            rw [if_neg (by omega), if_pos many]
            rfl

/-- The entries are the writes of what they set. -/
theorem loadEntries_cells
    (entries : List (Bytes × Json))
    (ctx : CalcWit) :
    (loadEntries poseidon entries ctx).toOption.map CalcWit.cells =
      (entries.mapM setting).bind fun settings =>
        writeAll (job poseidon) ctx.cells (settingWrites settings) := by
  induction entries generalizing ctx with
  | nil => rfl
  | cons entry entries inductionHypothesis =>
      obtain ⟨key, value⟩ := entry
      rw [List.mapM_cons, loadEntries_cons]
      cases set : setting (key, value) with
      | none => rfl
      | some first =>
          obtain ⟨pos, v⟩ := first
          obtain ⟨-, found, fits⟩ := (setting_eq_some_iff _ pos v).mp set
          have written := @setValues_cells poseidon key _ _ found v 0
            (by omega) ctx
          simp only [Option.bind_eq_bind, Option.bind_some, Option.pure_def,
            Option.bind_assoc, settingWrites, List.flatMap_cons,
            WriteOnce.writeAll_append]
          rw [← Nat.add_zero (firstCell pos), ← written]
          cases result : setValues poseidon key (fnv1a key) 0 v ctx with
          | error => simp [Except.toOption]
          | ok ctx => exact inductionHypothesis ctx

/-- The document is loaded into a calculator without a signal. -/
theorem loadJson_new
    (memory : Nat -> FrElement)
    (jin : Json) :
    (loadJson poseidon (CalcWit.new memory) jin).toOption =
      (qualifyInput [] jin []).toOption.bind fun j =>
        (loadEntries poseidon j (CalcWit.new memory)).toOption := by
  have waits : tryRunCircuit poseidon (CalcWit.new memory) =
      .ok (CalcWit.new memory) :=
    if_neg (show ¬ getMainInputSignalNo = 0 by decide)
  unfold loadJson
  rw [toOption_bind]
  congr 1
  funext j
  rw [waits, ite_self]
  rfl

/-- The signals after the check are the result of the finished cells. -/
theorem checkComplete_signals (ctx : CalcWit) :
    (checkComplete ctx).toOption.bind CalcWit.signals = ctx.cells.finished := by
  unfold checkComplete WriteOnce.finished CalcWit.cells
  by_cases waits : ctx.inputSignalAssignedCounter = 0
  · rw [if_neg (not_not.mpr waits), if_pos waits]
    rfl
  · rw [if_pos waits, if_neg waits]
    rfl

/-- A run of the generator is that of the cells it starts from. -/
theorem generate_cells
    (memory : Nat -> FrElement)
    (jin : Json) :
    (generate poseidon memory jin).toOption.bind CalcWit.signals =
      ((qualifyInput [] jin []).toOption.bind (List.mapM setting)).bind
        fun settings =>
          (writeAll (job poseidon) (CalcWit.new memory).cells
            (settingWrites settings)).bind WriteOnce.finished := by
  unfold generate
  rw [toOption_bind, loadJson_new]
  rw [Option.bind_assoc, Option.bind_assoc, Option.bind_assoc]
  congr 1
  funext j
  rw [← Option.bind_assoc]
  have loaded := @loadEntries_cells poseidon j (CalcWit.new memory)
  calc
    ((loadEntries poseidon j (CalcWit.new memory)).toOption.bind
        fun ctx => (checkComplete ctx).toOption).bind CalcWit.signals =
      ((loadEntries poseidon j (CalcWit.new memory)).toOption.map
        CalcWit.cells).bind WriteOnce.finished := by
        rw [Option.bind_assoc, Option.bind_map]
        congr 1
        funext ctx
        exact checkComplete_signals ctx
    _ = _ := by rw [loaded, Option.bind_assoc]

/-! ## Complete documents -/

/-- The cells that are written belong to the slots that are set. -/
theorem map_fst_settingWrites
    {settings : List (Fin 256 × List FrElement)}
    (fit : ∀ set ∈ settings, set.2.length = (inputHashMap set.1).signalsize) :
    (settingWrites settings).map Prod.fst =
      (settings.map Prod.fst).flatMap fun pos =>
        List.range' (firstCell pos) (inputHashMap pos).signalsize := by
  rw [settingWrites, List.map_flatMap, List.flatMap_map]
  apply List.flatMap_congr
  intro set member
  rw [WriteOnce.map_fst_block, fit set member]

/-- Every value is written. -/
theorem length_settingWrites
    {settings : List (Fin 256 × List FrElement)}
    (fit : ∀ set ∈ settings, set.2.length = (inputHashMap set.1).signalsize) :
    (settingWrites settings).length =
      ((settings.map Prod.fst).map fun pos =>
        (inputHashMap pos).signalsize).sum := by
  have lengths : (settingWrites settings).length =
      ((settingWrites settings).map Prod.fst).length := by
    rw [List.length_map]
  rw [lengths, map_fst_settingWrites fit, List.length_flatMap]
  simp only [List.length_range']

/-- The settings fill every cell once exactly if every input signal is set
once. -/
theorem fill_iff
    {settings : List (Fin 256 × List FrElement)}
    (fit : ∀ set ∈ settings, set.2.length = (inputHashMap set.1).signalsize) :
    ((settingWrites settings).map Prod.fst).Nodup ∧
        (settingWrites settings).length = getMainInputSignalNo ↔
      ((settings.map Prod.fst).filter fun pos =>
        0 < (inputHashMap pos).signalsize).Perm signalSlots := by
  rw [map_fst_settingWrites fit, length_settingWrites fit,
    WriteOnce.nodup_regions_iff cells_disjoint, ← signalSizes_sum]
  exact WriteOnce.covers_iff signalSlots_nodup mem_signalSlots_iff

/-- The settings of entries fit. -/
theorem settings_fit
    {j : List (Bytes × Json)}
    {settings : List (Fin 256 × List FrElement)}
    (read : j.mapM setting = some settings) :
    ∀ set ∈ settings, set.2.length = (inputHashMap set.1).signalsize := by
  intro set member
  obtain ⟨entry, -, isSetting⟩ := exists_related_of_mem
    ((mapM_eq_some_iff _ _ _).mp read).flip member
  exact ((setting_eq_some_iff entry set.1 set.2).mp isSetting).2.2

/-- The slots that are set are the home slots of the hashes of the names. -/
theorem slots_of_settings
    {j : List (Bytes × Json)}
    {settings : List (Fin 256 × List FrElement)}
    (read : j.mapM setting = some settings) :
    settings.map Prod.fst = (j.map fun entry => fnv1a entry.1).map homeSlot ∧
      ∀ h ∈ j.map fun entry => fnv1a entry.1,
        (inputHashMap (homeSlot h)).hash = h := by
  induction (mapM_eq_some_iff _ _ _).mp read with
  | nil => simp
  | @cons entry set _ _ first rest inductionHypothesis =>
      obtain ⟨-, found, -⟩ := (setting_eq_some_iff entry set.1 set.2).mp first
      obtain ⟨hash, home⟩ := (getInputSignalHashPosition_eq_ok_iff _ _).mp found
      obtain ⟨slots, hashes⟩ :=
        inductionHypothesis ((mapM_eq_some_iff _ _ _).mpr rest)
      simp only [List.map_cons, List.forall_mem_cons]
      exact ⟨by rw [slots, home], hash, hashes⟩

/-- An entry with values is one with a hash. -/
theorem inputHashMap_values_iff :
    ∀ pos, 0 < (inputHashMap pos).signalsize ↔ (inputHashMap pos).hash ≠ 0 := by
  decide +kernel

/-- Every input signal is set once exactly if the hashes of the names are those
of the input signals, up to empty entries whose names hash to zero. -/
theorem slots_perm_iff
    {j : List (Bytes × Json)}
    {settings : List (Fin 256 × List FrElement)}
    (read : j.mapM setting = some settings) :
    ((settings.map Prod.fst).filter fun pos =>
        0 < (inputHashMap pos).signalsize).Perm signalSlots ↔
      ((j.map fun entry => fnv1a entry.1).filter (· ≠ 0)).Perm
        (signalNames.map fun name => fnv1a (bytes name)) := by
  obtain ⟨slots, hashes⟩ := slots_of_settings read
  have counted : (settings.map Prod.fst).filter
        (fun pos => 0 < (inputHashMap pos).signalsize) =
      ((j.map fun entry => fnv1a entry.1).filter (· ≠ 0)).map homeSlot := by
    rw [slots, List.filter_map]
    congr 1
    apply List.filter_congr
    intro h member
    simp only [Function.comp_apply, inputHashMap_values_iff, hashes h member]
  rw [counted, inputHashMap_names]
  constructor
  · intro perm
    have hashed := perm.map fun pos => (inputHashMap pos).hash
    rw [List.map_map] at hashed
    refine (List.Perm.of_eq ?_).trans hashed
    rw [List.map_congr_left (g := id), List.map_id]
    intro h member
    exact hashes h (List.mem_filter.mp member).1
  · intro perm
    have homes := perm.map homeSlot
    refine homes.trans (List.Perm.of_eq ?_)
    decide +kernel

/-! ## Results -/

/-- The input signals that the settings leave in the cells. -/
def settingInputs
    (settings : List (Fin 256 × List FrElement)) :
    TransactionInputs FrElement 4 4 20 :=
  inputsAt (contents (fun _ => FrElement.slot) (settingWrites settings)) 0

/-- The cells of the input signals follow one another. -/
theorem signalSlots_cells :
    signalSlots.flatMap (fun pos =>
        List.range' (firstCell pos) (inputHashMap pos).signalsize) =
      List.range getMainInputSignalNo := by
  decide +kernel

/-- Every cell of an input signal belongs to an entry of the table. -/
theorem cells_covered
    {index : Nat}
    (within : index < getMainInputSignalNo) :
    ∃ pos ∈ signalSlots,
      index ∈ List.range' (firstCell pos) (inputHashMap pos).signalsize := by
  rw [← List.mem_flatMap, signalSlots_cells]
  exact List.mem_range.mpr within

/-- Only the cells of the input signals are read. -/
theorem inputsAt_congr
    {F : Type}
    {first second : Nat -> F}
    (agree : ∀ index < getMainInputSignalNo, first index = second index) :
    inputsAt first 0 = inputsAt second 0 := by
  have offset {width : Nat} (start : Nat) (within : start + width ≤ 193)
      (i : Fin width) : first (0 + (start + i.val)) = second (0 + (start + i.val)) :=
    agree _ (lt_of_lt_of_le (by omega) within)
  have cell (start : Nat) (within : start + 80 ≤ 193) (i : Fin 4) (j : Fin 20) :
      first (0 + (start + (20 * i.val + j.val))) =
        second (0 + (start + (20 * i.val + j.val))) :=
    agree _ (lt_of_lt_of_le (by omega) within)
  unfold inputsAt
  simp only [agree 0 (by decide), offset 1, offset 5, offset 9, offset 13,
    offset 17, cell 21, cell 101, offset 181, offset 185, offset 189,
    Nat.reduceAdd, Nat.reduceLeDiff]

/-- The input signals do not depend on what the memory held. -/
theorem inputsAt_contents
    {settings : List (Fin 256 × List FrElement)}
    (fit : ∀ set ∈ settings, set.2.length = (inputHashMap set.1).signalsize)
    (perm : ((settings.map Prod.fst).filter fun pos =>
      0 < (inputHashMap pos).signalsize).Perm signalSlots)
    (initial : Nat -> FrElement) :
    inputsAt (contents initial (settingWrites settings)) 0 =
      settingInputs settings := by
  apply inputsAt_congr
  intro index within
  obtain ⟨pos, isSlot, inside⟩ := cells_covered within
  have isSet := (List.mem_filter.mp (perm.mem_iff.mpr isSlot)).1
  have written : index ∈ (settingWrites settings).map Prod.fst := by
    rw [map_fst_settingWrites fit, List.mem_flatMap]
    exact ⟨pos, isSet, inside⟩
  obtain ⟨write, member, rfl⟩ := List.mem_map.mp written
  have distinct := ((fill_iff fit).mpr perm).1
  rw [WriteOnce.contents_of_mem initial distinct member,
    WriteOnce.contents_of_mem _ distinct member]

/-- A run of the generator is the program on the input signals, if each is set
once. -/
theorem generate_eq
    (memory : Nat -> FrElement)
    (jin : Json) :
    (generate poseidon memory jin).toOption.bind CalcWit.signals =
      ((qualifyInput [] jin []).toOption.bind (List.mapM setting)).bind
        fun settings =>
          if ((settings.map Prod.fst).filter fun pos =>
              0 < (inputHashMap pos).signalsize).Perm signalSlots then
            transactionRun poseidon (settingInputs settings)
          else none := by
  rw [generate_cells, Option.bind_assoc, Option.bind_assoc]
  congr 1
  funext j
  cases read : j.mapM setting with
  | none => rfl
  | some settings =>
      have fit := settings_fit read
      have filled := @WriteOnce.writeAll_fresh FrElement
        (Transaction FrElement 4 4 20) (job poseidon)
        (CalcWit.new memory).cells.values getMainInputSignalNo (by decide)
        (settingWrites settings)
      rw [Option.bind_some, Option.bind_some]
      refine filled.trans ?_
      by_cases perm : ((settings.map Prod.fst).filter fun pos =>
          0 < (inputHashMap pos).signalsize).Perm signalSlots
      · rw [if_pos ((fill_iff fit).mpr perm), if_pos perm, job,
          inputsAt_contents fit perm]
      · rw [if_neg (mt (fill_iff fit).mp perm), if_neg perm]

/-- A document has a result exactly if the entries that it is flattened into
are read, have as many values as their signals, and hash to the names of all
input signals, each once, and if the program has that result on their values.
Nothing else counts but entries without values whose names hash to zero: not the
order of the entries, nor what the memory held. -/
theorem generate_result_iff
    (memory : Nat -> FrElement)
    (jin : Json)
    (t : Transaction FrElement 4 4 20) :
    (∃ ctx, generate poseidon memory jin = .ok ctx ∧ ctx.signals = some t) ↔
      ∃ j settings, qualifyInput [] jin [] = .ok j ∧
        j.mapM setting = some settings ∧
        ((j.map fun entry => fnv1a entry.1).filter (· ≠ 0)).Perm
          (signalNames.map fun name => fnv1a (bytes name)) ∧
        transactionRun poseidon (settingInputs settings) = some t := by
  have result : (∃ ctx, generate poseidon memory jin = .ok ctx ∧
        ctx.signals = some t) ↔
      (generate poseidon memory jin).toOption.bind CalcWit.signals = some t := by
    cases generate poseidon memory jin with
    | error => simp [Except.toOption]
    | ok ctx => simp [Except.toOption]
  rw [result, generate_eq]
  cases qualifyInput [] jin [] with
  | error => simp [Except.toOption]
  | ok j =>
      cases read : j.mapM setting with
      | none =>
          refine iff_of_false (by simp [Except.toOption, read]) ?_
          rintro ⟨other, settings, same, set, -⟩
          rw [← Except.ok.inj same, read] at set
          cases set
      | some settings =>
          simp only [Except.toOption, Option.bind_some, read,
            Option.ite_none_right_eq_some, slots_perm_iff read]
          constructor
          · rintro ⟨perm, ran⟩
            exact ⟨j, settings, rfl, read, perm, ran⟩
          · rintro ⟨other, others, same, set, perm, ran⟩
            obtain rfl := Except.ok.inj same
            rw [read] at set
            obtain rfl := Option.some.inj set
            exact ⟨perm, ran⟩

end Loading

end Generator
end Privachain

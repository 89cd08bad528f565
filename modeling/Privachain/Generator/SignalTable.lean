import Privachain.Foundation.OpenAddressing
import Privachain.Foundation.WriteOnce
import Privachain.Generator.BigIntegers
import Privachain.Generator.Program

/-!
# The input signals of the witness calculator

The main input signals are found by the hashes of their names and set one by
one, each of them once.  The last one starts the program.  The order in which
they are set does not matter.
-/

namespace Privachain
namespace Generator

open Foundation Circuit
open FrElement (slot str2element)

/-! ## Names and their hashes -/

/-- `std::string`, whose characters are bytes. -/
abbrev Bytes := List (BitVec 8)

/-- A literal of the source. -/
def bytes (literal : String) : Bytes :=
  literal.toList.map fun c => BitVec.ofNat 8 c.toNat

/-- `fnv1a`, where `u64(c)` keeps the sign of a character. -/
def fnv1a (s : Bytes) : Word :=
  s.foldl (fun hash c => (hash ^^^ c.signExtend 64) * 0x100000001B3)
    0xCBF29CE484222325

/-- What ends the program without a witness: an exception, an `assert` after a
message, or an `assert` of the generated program. -/
inductive Failure
  | runtimeError (what : Bytes)
  | aborted (message : Bytes)
  | refused
  deriving DecidableEq

/-- `HashSignalInfo` -/
structure HashSignalInfo where
  hash : Word
  signalid : Nat
  signalsize : Nat
  deriving DecidableEq

/-- `InputHashMap` as `circuit.dat` has it. -/
def inputHashMap : Fin 256 -> HashSignalInfo
  | 11 => ⟨0x72862e2853b34c0b, 182, 4⟩
  | 22 => ⟨0x997416dedc615f16, 14, 4⟩
  | 57 => ⟨0xc61bf3d7d89cfa39, 2, 4⟩
  | 98 => ⟨0xd058e9ada315a362, 102, 80⟩
  | 114 => ⟨0xf6d8fe7b20453272, 190, 4⟩
  | 130 => ⟨0xe02665ebd7759282, 10, 4⟩
  | 151 => ⟨0xd6cc518fcff0b197, 186, 4⟩
  | 197 => ⟨0xa354fd1ff0c467c5, 1, 1⟩
  | 221 => ⟨0xb22951ba16ab8bdd, 18, 4⟩
  | 252 => ⟨0x07cfddc76e65c0fc, 22, 80⟩
  | 255 => ⟨0x707d57b7f13e90ff, 6, 4⟩
  | _ => ⟨0, 0, 0⟩

/-- The slots of the input signals, in the order of their addresses. -/
def signalSlots : List (Fin 256) :=
  [197, 57, 255, 130, 22, 221, 252, 98, 11, 151, 114]

/-- The names of the input signals in the same order. -/
def signalNames : List String :=
  ["root", "nullifierHashes", "outCommitments", "inAmount", "inSecret",
    "inRecipient", "inPathElements", "inPathIndices", "outAmount", "outSecret",
    "outRecipient"]

/-- `get_main_input_signal_start` -/
def getMainInputSignalStart : Nat := 1

/-- `get_main_input_signal_no` -/
def getMainInputSignalNo : Nat := 193

/-- `h % (u64)n` -/
def homeSlot (h : Word) : Fin 256 := Fin.ofNat 256 h.toNat

/-- `Circom_CalcWit::getInputSignalHashPosition` -/
def getInputSignalHashPosition (h : Word) : Except Failure (Fin 256) :=
  match OpenAddressing.search (fun pos => (inputHashMap pos).hash = h)
      (fun pos => (inputHashMap pos).signalid = 0) (homeSlot h) with
  | .ok pos => .ok pos
  | .error .vacantSlot => .error (.aborted (bytes "Signal not found\n"))
  | .error .fullCircle => .error (.aborted (bytes "Signals not found\n"))

/-- `Circom_CalcWit::getInputSignalSize` -/
def getInputSignalSize (h : Word) : Except Failure Nat := do
  let pos <- getInputSignalHashPosition h
  return (inputHashMap pos).signalsize

/-! ## The calculator -/

/-- `Circom_CalcWit`, where `signals` is what the program has written. -/
structure CalcWit where
  inputSignalAssigned : Nat -> Bool
  inputSignalAssignedCounter : Nat
  signalValues : Nat -> FrElement
  signals : Option (Transaction FrElement 4 4 20)

/-- `Circom_CalcWit::Circom_CalcWit` on uninitialised memory -/
def CalcWit.new (memory : Nat -> FrElement) : CalcWit where
  inputSignalAssigned := fun _ => false
  inputSignalAssignedCounter := getMainInputSignalNo
  signalValues := Function.update memory 0
    (str2element (memory 0) (bytes "1" |>.map fun c => Char.ofNat c.toNat) 10)
  signals := none

/-- The main inputs at their addresses, from a start on. -/
def inputsAt
    {F : Type}
    (signalValues : Nat -> F)
    (start : Nat) : TransactionInputs F 4 4 20 where
  root := signalValues start
  nullifierHashes := fun i => signalValues (start + (1 + i.val))
  outCommitments := fun i => signalValues (start + (5 + i.val))
  inAmount := fun i => signalValues (start + (9 + i.val))
  inSecret := fun i => signalValues (start + (13 + i.val))
  inRecipient := fun i => signalValues (start + (17 + i.val))
  inPathElements := fun i j => signalValues (start + (21 + (20 * i.val + j.val)))
  inPathIndices := fun i j => signalValues (start + (101 + (20 * i.val + j.val)))
  outAmount := fun i => signalValues (start + (181 + i.val))
  outSecret := fun i => signalValues (start + (185 + i.val))
  outRecipient := fun i => signalValues (start + (189 + i.val))

section Setting

variable (poseidon : List FrElement -> Option FrElement)

/-- `run`, which creates and runs the main component. -/
def run (signalValues : Nat -> FrElement) :
    Option (Transaction FrElement 4 4 20) :=
  transactionRun poseidon (inputsAt signalValues getMainInputSignalStart)

/-- `Circom_CalcWit::tryRunCircuit` -/
def tryRunCircuit (ctx : CalcWit) : Except Failure CalcWit :=
  if ctx.inputSignalAssignedCounter = 0 then
    match run poseidon ctx.signalValues with
    | some signals => .ok { ctx with signals := some signals }
    | none => .error .refused
  else .ok ctx

/-- `Circom_CalcWit::setInputSignal` -/
def setInputSignal
    (ctx : CalcWit)
    (h : Word)
    (i : Nat)
    (val : FrElement) : Except Failure CalcWit :=
  if ctx.inputSignalAssignedCounter = 0 then
    .error (.aborted (bytes "No more signals to be assigned\n"))
  else do
    let pos <- getInputSignalHashPosition h
    if i ≥ (inputHashMap pos).signalsize then
      .error (.aborted (bytes "Input signal array access exceeds the size\n"))
    else
      let si := (inputHashMap pos).signalid + i
      if ctx.inputSignalAssigned (si - getMainInputSignalStart) then
        .error (.aborted
          (bytes "Signal assigned twice: " ++ bytes si.repr ++ bytes "\n"))
      else
        tryRunCircuit poseidon
          { ctx with
            signalValues := Function.update ctx.signalValues si val
            inputSignalAssigned := Function.update ctx.inputSignalAssigned
              (si - getMainInputSignalStart) true
            inputSignalAssignedCounter := ctx.inputSignalAssignedCounter - 1 }

end Setting

/-! ## The table -/

/-- Every entry is in its home slot. -/
theorem inputHashMap_atHome :
    ∀ pos, (inputHashMap pos).hash ≠ 0 ->
      homeSlot (inputHashMap pos).hash = pos := by
  decide +kernel

/-- The names of the input signals hash to their entries. -/
theorem inputHashMap_names :
    signalNames.map (fun name => fnv1a (bytes name)) =
      signalSlots.map fun pos => (inputHashMap pos).hash := by
  decide +kernel

/-- A hash is found exactly if it is that of its home slot. -/
theorem getInputSignalHashPosition_eq_ok_iff
    (h : Word)
    (pos : Fin 256) :
    getInputSignalHashPosition h = .ok pos ↔
      (inputHashMap (homeSlot h)).hash = h ∧ pos = homeSlot h := by
  have atHome : ∀ other, decide ((inputHashMap other).hash = h) = true ->
      decide ((inputHashMap (homeSlot h)).hash = h) = true := by
    intro other isKey
    rw [decide_eq_true_iff] at isKey ⊢
    by_cases zero : h = 0
    · subst zero
      rfl
    · have own := inputHashMap_atHome other (isKey ▸ zero)
      rw [isKey] at own
      rw [own, isKey]
  have found := OpenAddressing.search_eq_ok_iff atHome
    (fun pos => (inputHashMap pos).signalid = 0) pos
  rw [decide_eq_true_iff] at found
  rw [← found, getInputSignalHashPosition]
  split
  · rename_i ends
    rw [ends]
    simp
  · rename_i ends
    rw [ends]
    simp
  · rename_i ends
    rw [ends]
    simp

/-- The address of the first cell of an entry. -/
def firstCell (pos : Fin 256) : Nat :=
  (inputHashMap pos).signalid - getMainInputSignalStart

theorem signalSlots_nodup : signalSlots.Nodup := by decide

/-- The entries with values are those of the input signals. -/
theorem mem_signalSlots_iff :
    ∀ pos, pos ∈ signalSlots ↔ 0 < (inputHashMap pos).signalsize := by
  decide +kernel

/-- All values of the input signals together. -/
theorem signalSizes_sum :
    (signalSlots.map fun pos => (inputHashMap pos).signalsize).sum =
      getMainInputSignalNo := by
  decide

theorem signalSlots_apart :
    ∀ first ∈ signalSlots, ∀ second ∈ signalSlots, first ≠ second ->
      firstCell first + (inputHashMap first).signalsize ≤ firstCell second ∨
        firstCell second + (inputHashMap second).signalsize ≤
          firstCell first := by
  decide +kernel

/-- The cells of different entries do not overlap. -/
theorem cells_disjoint
    (first second : Fin 256)
    (differ : first ≠ second) :
    (List.range' (firstCell first) (inputHashMap first).signalsize).Disjoint
      (List.range' (firstCell second) (inputHashMap second).signalsize) := by
  intro index inFirst inSecond
  rw [List.mem_range'_1] at inFirst inSecond
  have apart := signalSlots_apart first
    ((mem_signalSlots_iff first).mpr (by omega)) second
    ((mem_signalSlots_iff second).mpr (by omega)) differ
  omega

/-- The first cell of an entry with values is at its address. -/
theorem firstCell_add :
    ∀ pos, 0 < (inputHashMap pos).signalsize ->
      firstCell pos + getMainInputSignalStart = (inputHashMap pos).signalid := by
  decide +kernel

/-! ## The calculator as cells -/

/-- The input signals of the calculator as cells that are written once. -/
def CalcWit.cells (ctx : CalcWit) :
    WriteOnce FrElement (Transaction FrElement 4 4 20) where
  assigned := ctx.inputSignalAssigned
  remaining := ctx.inputSignalAssignedCounter
  values := fun index => ctx.signalValues (index + getMainInputSignalStart)
  result := ctx.signals

section Refinement

variable {poseidon : List FrElement -> Option FrElement}

/-- The program on the cells -/
def job
    (poseidon : List FrElement -> Option FrElement)
    (values : Nat -> FrElement) : Option (Transaction FrElement 4 4 20) :=
  transactionRun poseidon (inputsAt values 0)

theorem run_eq (signalValues : Nat -> FrElement) :
    run poseidon signalValues =
      job poseidon fun index =>
        signalValues (index + getMainInputSignalStart) := by
  simp only [run, job, inputsAt, getMainInputSignalStart, Nat.zero_add,
    Nat.add_comm 1]

/-- Setting a signal writes its cell. -/
theorem setInputSignal_cells
    (ctx : CalcWit)
    {h : Word}
    {pos : Fin 256}
    (found : getInputSignalHashPosition h = .ok pos)
    {i : Nat}
    (within : i < (inputHashMap pos).signalsize)
    (val : FrElement) :
    (setInputSignal poseidon ctx h i val).toOption.map CalcWit.cells =
      WriteOnce.write (job poseidon) ctx.cells (firstCell pos + i) val := by
  have address := firstCell_add pos (by omega)
  have index : (inputHashMap pos).signalid + i - getMainInputSignalStart =
      firstCell pos + i := by omega
  have written (index : Nat) :
      Function.update ctx.signalValues ((inputHashMap pos).signalid + i) val
          (index + getMainInputSignalStart) =
        Function.update ctx.cells.values (firstCell pos + i) val index := by
    by_cases same : index = firstCell pos + i
    · have atAddress : index + getMainInputSignalStart =
          (inputHashMap pos).signalid + i := by omega
      rw [atAddress, same, Function.update_self, Function.update_self]
    · have elsewhere : index + getMainInputSignalStart ≠
          (inputHashMap pos).signalid + i := by omega
      rw [Function.update_of_ne elsewhere, Function.update_of_ne same]
      rfl
  unfold setInputSignal WriteOnce.write
  by_cases full : ctx.inputSignalAssignedCounter = 0
  · rw [if_pos full, if_pos (show ctx.cells.remaining = 0 from full)]
    rfl
  · rw [if_neg full, if_neg (show ¬ ctx.cells.remaining = 0 from full), found]
    change Option.map CalcWit.cells (Except.toOption (if _ then _ else _)) = _
    rw [if_neg (by omega)]
    simp only [index]
    by_cases twice : ctx.inputSignalAssigned (firstCell pos + i) = true
    · rw [if_pos twice,
        if_pos (show ctx.cells.assigned (firstCell pos + i) = true from twice)]
      rfl
    · rw [if_neg twice,
        if_neg (show ¬ ctx.cells.assigned (firstCell pos + i) = true from twice)]
      unfold tryRunCircuit
      by_cases last : ctx.inputSignalAssignedCounter - 1 = 0
      · rw [if_pos last, if_pos (show ctx.cells.remaining - 1 = 0 from last),
          run_eq]
        simp only [written]
        cases job poseidon
            (Function.update ctx.cells.values (firstCell pos + i) val) with
        | none => rfl
        | some signals =>
            simp only [Except.toOption, Option.map_some, CalcWit.cells, written,
              last]
      · rw [if_neg last, if_neg (show ¬ ctx.cells.remaining - 1 = 0 from last)]
        simp only [Except.toOption, Option.map_some, CalcWit.cells, written]

end Refinement

end Generator
end Privachain

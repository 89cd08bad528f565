import Privachain.Foundation.PoseidonPermutation
import Privachain.Generator.Program
import Mathlib.Data.Fin.Tuple.Basic

/-!
# The generated Poseidon components

`Poseidon_69` hashes three inputs and `Poseidon_139` two.  Both run one
`PoseidonEx` component, whose rounds are spread over `Ark`, `Sigma`, `Mix`,
`MixS` and `MixLast` components.  Loops that only hand signals on from one
component to the next are left out, and so are the signals inside.
-/

namespace Privachain
namespace Generator

open Foundation
open FrElement (slot)

/-- The signals between two components of a width. -/
abbrev Signals (t : Nat) := Fin t -> FrElement

/-- The bounds of the loops of one `PoseidonEx` template. -/
structure PoseidonBounds where
  /-- `t` -/
  width : FrElement
  /-- `nRoundsP` -/
  partialRounds : FrElement

section Components

variable (bounds : PoseidonBounds)
variable {t : Nat}

/-- `Sigma_1_run` -/
def sigmaRun (input : FrElement) : FrElement :=
  let in2 := FrElement.mul slot input input
  let in4 := FrElement.mul slot in2 in2
  FrElement.mul slot in4 input

/-- `out[i] <== in[i] + C[i + r]`: the runs of the `Ark` templates -/
def arkRun
    (C : Nat -> FrElement)
    (r : Nat)
    (inputs : Signals t) : Option (Signals t) :=
  whileBelow bounds.width t
    (fun index out =>
      if within : index < t then
        some (Function.update out ⟨index, within⟩
          (FrElement.add slot (inputs ⟨index, within⟩) (C (index + r))))
      else none)
    fun _ => slot

/-- `lc += coefficients[j] * in[j]`: the inner loop of the `Mix` templates -/
def combinationRun
    (coefficients : Nat -> FrElement)
    (inputs : Signals t) : Option FrElement :=
  whileBelow bounds.width t
    (fun index lc =>
      if within : index < t then
        some (FrElement.add slot lc
          (FrElement.mul slot (coefficients index) (inputs ⟨index, within⟩)))
      else none)
    (circuitConstants 88)

/-- `Mix_3_run`, `Mix_7_run`, `Mix_72_run` and `Mix_76_run` -/
def mixRun
    (M : Nat -> Nat -> FrElement)
    (inputs : Signals t) : Option (Signals t) :=
  whileBelow bounds.width t
    (fun index out =>
      if within : index < t then do
        let lc <- combinationRun bounds (fun j => M j index) inputs
        some (Function.update out ⟨index, within⟩ lc)
      else none)
    fun _ => slot

/-- `MixLast_67_run` and `MixLast_137_run` -/
def mixLastRun
    (M : Nat -> Nat -> FrElement)
    (inputs : Signals t) : Option FrElement :=
  combinationRun bounds (fun j => M j 0) inputs

/-- `out[i] <== in[i] + in[0] * S[row + t + i - 1]`: one round of the second
loop of the `MixS` templates -/
def mixSBody
    (S : Nat -> FrElement)
    (row : Nat)
    (inputs : Signals (t + 1))
    (index : Nat)
    (out : Signals (t + 1)) : Option (Signals (t + 1)) :=
  if within : index < t + 1 then
    some (Function.update out ⟨index, within⟩
      (FrElement.add slot (inputs ⟨index, within⟩)
        (FrElement.mul slot (inputs ⟨0, Nat.succ_pos t⟩)
          (S (row + (t + 1) + index - 1)))))
  else none

/-- The runs of the `MixS` templates, whose second loop starts at one. -/
def mixSRun
    (S : Nat -> FrElement)
    (r : Nat)
    (inputs : Signals (t + 1)) : Option (Signals (t + 1)) := do
  let row := ((t + 1) * 2 - 1) * r
  let lc <- combinationRun bounds (fun i => S (row + i)) inputs
  countingLoop (counterOperations bounds.width) (mixSBody S row inputs) (t + 1)
    (circuitConstants 90)
    (Function.update (fun _ => slot) ⟨0, Nat.succ_pos t⟩ lc)

/-! ## Rounds -/

/- `tables` are what `POSEIDON_C_0`, `POSEIDON_S_1`, `POSEIDON_M_2` and
`POSEIDON_P_3` return for one width. -/
variable (tables : PoseidonTables FrElement)

/-- `sigmaF`, `ark` and `mix` of one full round. -/
def fullRoundRun
    (r : Nat)
    (M : Nat -> Nat -> FrElement)
    (inputs : Signals t) : Option (Signals t) := do
  let ark <- arkRun bounds tables.C r fun j => sigmaRun (inputs j)
  mixRun bounds M ark

/-- `sigmaP` and `mixS` of one partial round. -/
def partialRoundRun
    (nRoundsF : Nat)
    (index : Nat)
    (inputs : Signals (t + 1)) :
    Option (Signals (t + 1)) :=
  let first : Fin (t + 1) := ⟨0, Nat.succ_pos t⟩
  mixSRun bounds tables.S index
    (Function.update inputs first
      (FrElement.add slot (sigmaRun (inputs first))
        (tables.C ((nRoundsF / 2 + 1) * (t + 1) + index))))

/-- `PoseidonEx_68_run` and `PoseidonEx_138_run` with one output. -/
def poseidonExRun
    (nRoundsP : Nat)
    (inputs : Signals t)
    (initialState : FrElement) : Option FrElement := do
  let nRoundsF := 8
  let t := t + 1
  let ark <- arkRun bounds tables.C 0 (Fin.cons initialState inputs)
  let state <- whileBelow (circuitConstants 460) 3
    (fun r => fullRoundRun bounds tables ((r + 1) * t) tables.M) ark
  let state <- fullRoundRun bounds tables (nRoundsF / 2 * t) tables.P state
  let state <- whileBelow bounds.partialRounds nRoundsP
    (partialRoundRun bounds tables nRoundsF) state
  let state <- whileBelow (circuitConstants 460) 3
    (fun r => fullRoundRun bounds tables
      ((nRoundsF / 2 + 1) * t + nRoundsP + r * t) tables.M) state
  mixLastRun bounds tables.M fun j => sigmaRun (state j)

end Components

/-- `Poseidon_69_run` for three inputs and `Poseidon_139_run` for two, with the
tables of their widths. -/
def poseidonComponents
    (tables : Nat -> PoseidonTables FrElement) :
    List FrElement -> Option FrElement
  | [first, second] =>
      poseidonExRun ⟨circuitConstants 460, circuitConstants 603⟩ (tables 3) 57
        ![first, second] (circuitConstants 88)
  | [first, second, third] =>
      poseidonExRun ⟨circuitConstants 89, circuitConstants 473⟩ (tables 4) 56
        ![first, second, third] (circuitConstants 88)
  | _ => none

end Generator
end Privachain

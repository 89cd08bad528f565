import Mathlib.Data.Fin.VecNotation
import Mathlib.Data.List.OfFn
import Mathlib.Algebra.Ring.Basic
import Mathlib.Tactic.Ring

/-!
# The circomlib components

The circuit instantiates two circomlib templates.  `Poseidon(n)` is a fixed
function of its inputs; the function itself is a parameter of the development.
`MultiMux1(2)` interpolates linearly between two columns and does not constrain
its selector.
-/

namespace Privachain
namespace Circuit

universe u

/-- The signals of one `Poseidon(nInputs)` component. -/
@[ext] structure Poseidon (F : Type u) (nInputs : Nat) where
  /-- `signal input inputs[nInputs]` -/
  inputs : Fin nInputs -> F
  /-- `signal output out` -/
  out : F

namespace Poseidon

variable {F : Type u} {nInputs : Nat}

/-- The output is the fixed hash of the inputs. -/
def Constraints
    (poseidon : List F -> F)
    (component : Poseidon F nInputs) : Prop :=
  component.out = poseidon (List.ofFn component.inputs)

/-- Both inputs of a component of two. -/
def inputPair (component : Poseidon F 2) : F × F :=
  (component.inputs 0, component.inputs 1)

/-- The component computed from its inputs. -/
def ofInputs
    (poseidon : List F -> F)
    (inputs : Fin nInputs -> F) : Poseidon F nInputs where
  inputs := inputs
  out := poseidon (List.ofFn inputs)

@[simp] theorem ofInputs_inputs
    (poseidon : List F -> F)
    (inputs : Fin nInputs -> F) :
    (ofInputs poseidon inputs).inputs = inputs := rfl

@[simp] theorem ofInputs_out
    (poseidon : List F -> F)
    (inputs : Fin nInputs -> F) :
    (ofInputs poseidon inputs).out = poseidon (List.ofFn inputs) := rfl

/-- A component satisfies its constraints exactly when it is the one computed
from its inputs. -/
theorem constraints_iff
    (poseidon : List F -> F)
    (component : Poseidon F nInputs) :
    component.Constraints poseidon ↔
      component = ofInputs poseidon component.inputs := by
  constructor
  · intro constraints
    exact Poseidon.ext rfl constraints
  · intro computed
    exact congrArg out computed

end Poseidon

/-- The signals of one `MultiMux1(n)` component. -/
@[ext] structure MultiMux1 (F : Type u) (n : Nat) where
  /-- `signal input c[n][2]` -/
  c : Fin n -> Fin 2 -> F
  /-- `signal input s` -/
  s : F
  /-- `signal output out[n]` -/
  out : Fin n -> F

namespace MultiMux1

variable {F : Type u} [CommRing F] {n : Nat}

/-- `out[k] <== (c[k][1] - c[k][0]) * s + c[k][0]`, with `s` left free. -/
def Constraints (component : MultiMux1 F n) : Prop :=
  ∀ k, component.out k =
    (component.c k 1 - component.c k 0) * component.s + component.c k 0

/-- The component computed from its inputs. -/
def ofInputs (c : Fin n -> Fin 2 -> F) (s : F) : MultiMux1 F n where
  c := c
  s := s
  out := fun k => (c k 1 - c k 0) * s + c k 0

/-- A component satisfies its constraints exactly when it is the one computed
from its inputs. -/
theorem constraints_iff (component : MultiMux1 F n) :
    component.Constraints ↔
      component = ofInputs component.c component.s := by
  constructor
  · intro constraints
    exact MultiMux1.ext rfl rfl (funext constraints)
  · intro computed k
    exact congrFun (congrArg out computed) k

end MultiMux1

end Circuit
end Privachain

import Mathlib.Data.ZMod.Basic

/-!
# The scalar field of the circuit

circom compiles the circuit over the scalar field of BN254.  The client keeps
the same order in `FIELD_SIZE`.  Only the ring structure of the residues and
their canonical representatives are used, so the order need not be known to be
prime here.
-/

namespace Privachain
namespace Circuit

/-- `FIELD_SIZE`: the order of the scalar field of BN254. -/
def fieldSize : Nat :=
  21888242871839275222246405745257275088548364400416034343698204186575808495617

instance : NeZero fieldSize := ⟨by decide⟩

/-- Field elements of the circuit. -/
abbrev Fr := ZMod fieldSize

end Circuit
end Privachain

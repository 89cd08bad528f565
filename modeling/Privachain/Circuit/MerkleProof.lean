import Privachain.Circuit.Components
import Privachain.Foundation.MerkleTree
import Mathlib.Data.Fintype.Basic
import Mathlib.Tactic.FinCases

/-!
# The `MerkleProof(levels)` template

The template carries one running hash for each level.  A multiplexer places it
and the path element of the level as the two inputs of the next hash.  Every
signal is determined by the leaf, the path elements and the path indices, so a
satisfying assignment is the one computed from these inputs.
-/

namespace Privachain
namespace Circuit

open Foundation

universe u

/-- The signals of `MerkleProof(levels)`. -/
@[ext] structure MerkleProof (F : Type u) (levels : Nat) where
  /-- `signal input leaf` -/
  leaf : F
  /-- `signal input pathElements[levels]` -/
  pathElements : Fin levels -> F
  /-- `signal input pathIndices[levels]` -/
  pathIndices : Fin levels -> F
  /-- `signal output root` -/
  root : F
  /-- `component hashers[levels]` -/
  hashers : Fin levels -> Poseidon F 2
  /-- `component mux[levels]` -/
  mux : Fin levels -> MultiMux1 F 2
  /-- `signal hashes[levels + 1]` -/
  hashes : Fin (levels + 1) -> F

namespace MerkleProof

variable {F : Type u} [CommRing F] {levels : Nat}

/-- The constraints of the template, in source order. -/
structure Constraints
    (poseidon : List F -> F)
    (proof : MerkleProof F levels) : Prop where
  /-- `hashes[0] <== leaf` -/
  hashes_zero : proof.hashes 0 = proof.leaf
  /-- `mux[i] = MultiMux1(2)` -/
  mux_constraints : ∀ i, (proof.mux i).Constraints
  /-- `mux[i].c[0][0] <== hashes[i]` -/
  mux_c_zero_zero : ∀ i, (proof.mux i).c 0 0 = proof.hashes i.castSucc
  /-- `mux[i].c[0][1] <== pathElements[i]` -/
  mux_c_zero_one : ∀ i, (proof.mux i).c 0 1 = proof.pathElements i
  /-- `mux[i].c[1][0] <== pathElements[i]` -/
  mux_c_one_zero : ∀ i, (proof.mux i).c 1 0 = proof.pathElements i
  /-- `mux[i].c[1][1] <== hashes[i]` -/
  mux_c_one_one : ∀ i, (proof.mux i).c 1 1 = proof.hashes i.castSucc
  /-- `mux[i].s <== pathIndices[i]` -/
  mux_s : ∀ i, (proof.mux i).s = proof.pathIndices i
  /-- `hashers[i] = Poseidon(2)` -/
  hashers_constraints : ∀ i, (proof.hashers i).Constraints poseidon
  /-- `hashers[i].inputs[0] <== mux[i].out[0]` -/
  hashers_zero : ∀ i, (proof.hashers i).inputs 0 = (proof.mux i).out 0
  /-- `hashers[i].inputs[1] <== mux[i].out[1]` -/
  hashers_one : ∀ i, (proof.hashers i).inputs 1 = (proof.mux i).out 1
  /-- `hashes[i + 1] <== hashers[i].out` -/
  hashes_succ : ∀ i, proof.hashes i.succ = (proof.hashers i).out
  /-- `root <== hashes[levels]` -/
  root_eq : proof.root = proof.hashes (Fin.last levels)

/-! ## The computed assignment -/

/-- The two columns that one level offers to its multiplexer. -/
def columns (current sibling : F) : Fin 2 -> Fin 2 -> F :=
  ![![current, sibling], ![sibling, current]]

/-- The pair hashed at one level: the linear interpolation between the two
orders of the running hash and the path element. -/
def hashedPair (current sibling selector : F) : F × F :=
  ((sibling - current) * selector + current,
    (current - sibling) * selector + sibling)

/-- A zero selector keeps the order of the two inputs. -/
theorem hashedPair_zero (current sibling : F) :
    hashedPair current sibling 0 = (current, sibling) := by
  simp [hashedPair]

/-- A unit selector exchanges the two inputs. -/
theorem hashedPair_one (current sibling : F) :
    hashedPair current sibling 1 = (sibling, current) := by
  simp [hashedPair]

/-- The running hashes from the leaf upwards. -/
def runningHashes
    (poseidon : List F -> F)
    (leaf : F)
    (pathElements pathIndices : Fin levels -> F) :
    Fin (levels + 1) -> F :=
  Fin.induction leaf fun i current =>
    let pair := hashedPair current (pathElements i) (pathIndices i)
    poseidon [pair.1, pair.2]

@[simp] theorem runningHashes_zero
    (poseidon : List F -> F)
    (leaf : F)
    (pathElements pathIndices : Fin levels -> F) :
    runningHashes poseidon leaf pathElements pathIndices 0 = leaf := rfl

theorem runningHashes_succ
    (poseidon : List F -> F)
    (leaf : F)
    (pathElements pathIndices : Fin levels -> F)
    (i : Fin levels) :
    runningHashes poseidon leaf pathElements pathIndices i.succ =
      let pair := hashedPair
        (runningHashes poseidon leaf pathElements pathIndices i.castSucc)
        (pathElements i) (pathIndices i)
      poseidon [pair.1, pair.2] := rfl

/-- The assignment that the inputs of the template determine. -/
def ofInputs
    (poseidon : List F -> F)
    (leaf : F)
    (pathElements pathIndices : Fin levels -> F) : MerkleProof F levels :=
  let hashes := runningHashes poseidon leaf pathElements pathIndices
  let mux := fun i => MultiMux1.ofInputs
    (columns (hashes (Fin.castSucc i)) (pathElements i)) (pathIndices i)
  { leaf := leaf
    pathElements := pathElements
    pathIndices := pathIndices
    root := hashes (Fin.last levels)
    hashers := fun i => Poseidon.ofInputs poseidon (mux i).out
    mux := mux
    hashes := hashes }

/-- The output root as a function of the inputs. -/
def pathRoot
    (poseidon : List F -> F)
    (leaf : F)
    (pathElements pathIndices : Fin levels -> F) : F :=
  runningHashes poseidon leaf pathElements pathIndices (Fin.last levels)

@[simp] theorem ofInputs_root
    (poseidon : List F -> F)
    (leaf : F)
    (pathElements pathIndices : Fin levels -> F) :
    (ofInputs poseidon leaf pathElements pathIndices).root =
      pathRoot poseidon leaf pathElements pathIndices := rfl

/-- Both outputs of a multiplexer over the columns form the hashed pair. -/
theorem ofFn_mux_out (current sibling selector : F) :
    List.ofFn (MultiMux1.ofInputs (columns current sibling) selector).out =
      [(hashedPair current sibling selector).1,
        (hashedPair current sibling selector).2] := by
  simp [List.ofFn_succ, MultiMux1.ofInputs, columns, hashedPair]

/-- The computed assignment satisfies every constraint. -/
theorem ofInputs_constraints
    (poseidon : List F -> F)
    (leaf : F)
    (pathElements pathIndices : Fin levels -> F) :
    (ofInputs poseidon leaf pathElements pathIndices).Constraints
      poseidon where
  hashes_zero := rfl
  mux_constraints := fun _ _ => rfl
  mux_c_zero_zero := fun _ => rfl
  mux_c_zero_one := fun _ => rfl
  mux_c_one_zero := fun _ => rfl
  mux_c_one_one := fun _ => rfl
  mux_s := fun _ => rfl
  hashers_constraints := fun _ => rfl
  hashers_zero := fun _ => rfl
  hashers_one := fun _ => rfl
  hashes_succ := by
    intro i
    change runningHashes poseidon leaf pathElements pathIndices i.succ =
      poseidon (List.ofFn (MultiMux1.ofInputs (columns _ _) _).out)
    rw [ofFn_mux_out, runningHashes_succ]
  root_eq := rfl

/-! ## What the constraints force -/

section Forced

variable {poseidon : List F -> F} {proof : MerkleProof F levels}

/-- The columns of every multiplexer are forced. -/
theorem Constraints.mux_c
    (constraints : proof.Constraints poseidon)
    (i : Fin levels) :
    (proof.mux i).c =
      columns (proof.hashes i.castSucc) (proof.pathElements i) := by
  funext row column
  fin_cases row <;> fin_cases column
  · exact constraints.mux_c_zero_zero i
  · exact constraints.mux_c_zero_one i
  · exact constraints.mux_c_one_zero i
  · exact constraints.mux_c_one_one i

/-- Every multiplexer is the one computed from the signals of its level. -/
theorem Constraints.mux_eq
    (constraints : proof.Constraints poseidon)
    (i : Fin levels) :
    proof.mux i = MultiMux1.ofInputs
      (columns (proof.hashes i.castSucc) (proof.pathElements i))
      (proof.pathIndices i) := by
  rw [← constraints.mux_c i, ← constraints.mux_s i]
  exact (MultiMux1.constraints_iff _).mp (constraints.mux_constraints i)

/-- Every hasher is the one computed from its multiplexer. -/
theorem Constraints.hashers_eq
    (constraints : proof.Constraints poseidon)
    (i : Fin levels) :
    proof.hashers i = Poseidon.ofInputs poseidon (proof.mux i).out := by
  have inputs : (proof.hashers i).inputs = (proof.mux i).out := by
    funext k
    fin_cases k
    · exact constraints.hashers_zero i
    · exact constraints.hashers_one i
  rw [← inputs]
  exact (Poseidon.constraints_iff _ _).mp (constraints.hashers_constraints i)

/-- The running hash of a level is the hash of the interpolated pair. -/
theorem Constraints.hashes_succ_eq
    (constraints : proof.Constraints poseidon)
    (i : Fin levels) :
    proof.hashes i.succ =
      let pair := hashedPair (proof.hashes i.castSucc)
        (proof.pathElements i) (proof.pathIndices i)
      poseidon [pair.1, pair.2] := by
  rw [constraints.hashes_succ i, constraints.hashers_eq i,
    constraints.mux_eq i, Poseidon.ofInputs_out, ofFn_mux_out]

/-- The running hashes are the computed ones. -/
theorem Constraints.hashes_eq
    (constraints : proof.Constraints poseidon) :
    proof.hashes =
      runningHashes poseidon proof.leaf proof.pathElements
        proof.pathIndices := by
  funext level
  induction level using Fin.induction with
  | zero => exact constraints.hashes_zero
  | succ i inductionHypothesis =>
      rw [constraints.hashes_succ_eq i, inductionHypothesis,
        runningHashes_succ]

/-- The output root is the root of the path. -/
theorem Constraints.root_eq_pathRoot
    (constraints : proof.Constraints poseidon) :
    proof.root =
      pathRoot poseidon proof.leaf proof.pathElements proof.pathIndices := by
  rw [constraints.root_eq, constraints.hashes_eq]
  rfl

end Forced

/-- The satisfying assignments are exactly the computed ones. -/
theorem constraints_iff
    (poseidon : List F -> F)
    (proof : MerkleProof F levels) :
    proof.Constraints poseidon ↔
      proof = ofInputs poseidon proof.leaf proof.pathElements
        proof.pathIndices := by
  constructor
  · intro constraints
    have hashes := constraints.hashes_eq
    have mux := constraints.mux_eq
    rw [hashes] at mux
    apply MerkleProof.ext
    · rfl
    · rfl
    · rfl
    · exact constraints.root_eq_pathRoot
    · funext i
      rw [constraints.hashers_eq i, mux i]
      rfl
    · exact funext mux
    · exact hashes
  · intro computed
    rw [computed]
    exact ofInputs_constraints poseidon _ _ _

end MerkleProof

end Circuit
end Privachain

import Mathlib.Algebra.BigOperators.Fin

/-!
# The Poseidon permutation

The permutation in its optimised form over a commutative semiring.  A full
round raises every entry of the state to the fifth power, a partial round only
the first one.  Full rounds mix with a matrix and partial rounds with a sparse
one, which a table holds row by row.
-/

namespace Foundation

universe u

/-- The constants of one width: what the rounds add, the sparse matrices, the
mixing matrix, and the one before the partial rounds. -/
structure PoseidonTables (R : Type u) where
  C : Nat -> R
  S : Nat -> R
  M : Nat -> Nat -> R
  P : Nat -> Nat -> R

/-- The state after the first rounds. -/
def afterRounds
    {State : Type u}
    (round : Nat -> State -> State)
    (state : State) : Nat -> State
  | 0 => state
  | count + 1 => round count (afterRounds round state count)

namespace PoseidonTables

variable {R : Type u} [CommSemiring R] {t : Nat}

/-- The state with the constants from an offset on added. -/
def addConstants
    (C : Nat -> R)
    (offset : Nat)
    (state : Fin t -> R) : Fin t -> R :=
  fun i => state i + C (i + offset)

/-- A linear combination of the state. -/
def combination
    (coefficients : Nat -> R)
    (state : Fin t -> R) : R :=
  ∑ j : Fin t, coefficients j * state j

/-- The product of the state with a matrix. -/
def mix
    (M : Nat -> Nat -> R)
    (state : Fin t -> R) : Fin t -> R :=
  fun i => combination (fun j => M j i) state

/-- Where the sparse matrix of a round begins in its table. -/
def sparseRow (t round : Nat) : Nat := (t * 2 - 1) * round

/-- The product of the state with a sparse matrix: only the first entry
combines all entries, and it is added to the others. -/
def mixSparse
    (S : Nat -> R)
    (round : Nat)
    (state : Fin (t + 1) -> R) : Fin (t + 1) -> R :=
  fun i =>
    if i = 0 then
      combination (fun j => S (sparseRow (t + 1) round + j)) state
    else
      state i + state 0 * S (sparseRow (t + 1) round + (t + 1) + i - 1)

/-- One full round with the constants from an offset on. -/
def fullRound
    (C : Nat -> R)
    (offset : Nat)
    (M : Nat -> Nat -> R)
    (state : Fin t -> R) : Fin t -> R :=
  mix M (addConstants C offset fun j => state j ^ 5)

/-- One partial round. -/
def partialRound
    (tables : PoseidonTables R)
    (offset round : Nat)
    (state : Fin (t + 1) -> R) : Fin (t + 1) -> R :=
  mixSparse tables.S round
    (Function.update state 0 (state 0 ^ 5 + tables.C (offset + round)))

/-- The hash of the inputs after an initial entry, with eight full rounds. -/
def hash
    (tables : PoseidonTables R)
    (partialRounds : Nat)
    (inputs : Fin t -> R)
    (initial : R) : R :=
  let width := t + 1
  let state := addConstants tables.C 0 (Fin.cons initial inputs : Fin (t + 1) -> R)
  let state := afterRounds
    (fun r => fullRound tables.C ((r + 1) * width) tables.M) state 3
  let state := fullRound tables.C (4 * width) tables.P state
  let state := afterRounds (partialRound tables (5 * width)) state partialRounds
  let state := afterRounds
    (fun r => fullRound tables.C (5 * width + partialRounds + r * width)
      tables.M) state 3
  combination (fun j => tables.M j 0) fun j => state j ^ 5

end PoseidonTables

end Foundation

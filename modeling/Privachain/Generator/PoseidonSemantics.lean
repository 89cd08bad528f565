import Privachain.Generator.PathSemantics
import Privachain.Generator.PoseidonProgram

/-!
# The generated Poseidon components hash

The signals of every component represent what the permutation computes on the
represented values.  So the generated components compute the Poseidon hash of the
field for any tables of constants.
-/

namespace Privachain
namespace Generator

open Foundation Circuit
open FrElement (Represents slot)

/-- `Sigma_1_run` raises to the fifth power. -/
theorem sigmaRun_represents
    {element : FrElement}
    {value : Fr}
    (represents : Represents element value) :
    Represents (sigmaRun element) (value ^ 5) := by
  have in2 := FrElement.mul_represents slot represents represents
  have in4 := FrElement.mul_represents slot in2 in2
  have out := FrElement.mul_represents slot in4 represents
  have power : value * value * (value * value) * value = value ^ 5 := by ring
  exact power ▸ out

/-! ## Components -/

section Components

variable {bounds : PoseidonBounds}
variable {t : Nat}

/-- The signals between two components represent a state. -/
def StateRepresents (signals : Signals t) (state : Fin t -> Fr) : Prop :=
  ∀ i, Represents (signals i) (state i)

/-- The signals below an index represent a state. -/
def Written (state : Fin t -> Fr) (count : Nat) (signals : Signals t) : Prop :=
  ∀ i : Fin t, i.val < count -> Represents (signals i) (state i)

theorem written_zero (state : Fin t -> Fr) (signals : Signals t) :
    Written state 0 signals :=
  fun i low => absurd low i.val.not_lt_zero

theorem Written.all
    {state : Fin t -> Fr}
    {signals : Signals t}
    (written : Written state t signals) : StateRepresents signals state :=
  fun i => written i i.isLt

/-- The `Ark` components add constants. -/
theorem arkRun_represents
    {C : Nat -> FrElement}
    {constants : Nat -> Fr}
    {inputs : Signals t}
    {state : Fin t -> Fr}
    (width : Represents bounds.width (t : Fr))
    (small : t < 2 ^ 31)
    (table : ∀ r, Represents (C r) (constants r))
    (represents : StateRepresents inputs state)
    (r : Nat) :
    ∃ out, arkRun bounds C r inputs = some out ∧
      StateRepresents out (PoseidonTables.addConstants constants r state) := by
  have loop : ∃ out, arkRun bounds C r inputs = some out ∧
      Written (PoseidonTables.addConstants constants r state) t out := by
    apply whileBelow_accepts _ width small
    · intro count out within before
      exact ⟨_, dif_pos within, filled_update Represents within before
        (FrElement.add_represents slot (represents _) (table _))⟩
    · exact written_zero _ _
  obtain ⟨out, ran, written⟩ := loop
  exact ⟨out, ran, written.all⟩

/-- The first terms of a linear combination. -/
def partialCombination
    (coefficients : Nat -> Fr)
    (state : Fin t -> Fr)
    (count : Nat) : Fr :=
  ((List.ofFn fun j : Fin t => coefficients j * state j).take count).sum

theorem partialCombination_succ
    (coefficients : Nat -> Fr)
    (state : Fin t -> Fr)
    {count : Nat}
    (within : count < t) :
    partialCombination coefficients state (count + 1) =
      partialCombination coefficients state count +
        coefficients count * state ⟨count, within⟩ := by
  rw [partialCombination, List.sum_take_succ _ _ (by simpa using within),
    List.getElem_ofFn]
  rfl

theorem partialCombination_all
    (coefficients : Nat -> Fr)
    (state : Fin t -> Fr) :
    partialCombination coefficients state t =
      PoseidonTables.combination coefficients state := by
  rw [partialCombination, List.take_of_length_le (by simp), List.sum_ofFn]
  rfl

/-- The inner loops of the `Mix` components combine the state. -/
theorem combinationRun_represents
    {coefficients : Nat -> FrElement}
    {constants : Nat -> Fr}
    {inputs : Signals t}
    {state : Fin t -> Fr}
    (width : Represents bounds.width (t : Fr))
    (small : t < 2 ^ 31)
    (table : ∀ j, Represents (coefficients j) (constants j))
    (represents : StateRepresents inputs state) :
    ∃ out, combinationRun bounds coefficients inputs = some out ∧
      Represents out (PoseidonTables.combination constants state) := by
  have loop : ∃ out, combinationRun bounds coefficients inputs = some out ∧
      Represents out (partialCombination constants state t) := by
    apply whileBelow_accepts
      (fun count lc =>
        Represents lc (partialCombination constants state count)) width small
    · intro count lc within before
      have next := FrElement.add_represents slot before
        (FrElement.mul_represents slot (table count)
          (represents ⟨count, within⟩))
      rw [← partialCombination_succ] at next
      exact ⟨_, dif_pos within, next⟩
    · exact represents_zero
  obtain ⟨out, ran, combined⟩ := loop
  exact ⟨out, ran, partialCombination_all constants state ▸ combined⟩

/-- The `Mix` components multiply the state with a matrix. -/
theorem mixRun_represents
    {M : Nat -> Nat -> FrElement}
    {matrix : Nat -> Nat -> Fr}
    {inputs : Signals t}
    {state : Fin t -> Fr}
    (width : Represents bounds.width (t : Fr))
    (small : t < 2 ^ 31)
    (table : ∀ j i, Represents (M j i) (matrix j i))
    (represents : StateRepresents inputs state) :
    ∃ out, mixRun bounds M inputs = some out ∧
      StateRepresents out (PoseidonTables.mix matrix state) := by
  have loop : ∃ out, mixRun bounds M inputs = some out ∧
      Written (PoseidonTables.mix matrix state) t out := by
    apply whileBelow_accepts _ width small
    · intro count out within before
      obtain ⟨lc, ran, combined⟩ := combinationRun_represents width small
        (fun j => table j count) represents
      refine ⟨Function.update out ⟨count, within⟩ lc, ?_,
        filled_update Represents within before combined⟩
      rw [dif_pos within, Option.bind_eq_bind, ran, Option.bind_some]
    · exact written_zero _ _
  obtain ⟨out, ran, written⟩ := loop
  exact ⟨out, ran, written.all⟩

/-- The `MixS` components multiply the state with a sparse matrix. -/
theorem mixSRun_represents
    {S : Nat -> FrElement}
    {sparse : Nat -> Fr}
    {inputs : Signals (t + 1)}
    {state : Fin (t + 1) -> Fr}
    (width : Represents bounds.width ((t + 1 : Nat) : Fr))
    (small : t + 1 < 2 ^ 31)
    (table : ∀ j, Represents (S j) (sparse j))
    (represents : StateRepresents inputs state)
    (r : Nat) :
    ∃ out, mixSRun bounds S r inputs = some out ∧
      StateRepresents out (PoseidonTables.mixSparse sparse r state) := by
  let row := PoseidonTables.sparseRow (t + 1) r
  obtain ⟨lc, combinationRan, combined⟩ := combinationRun_represents width small
    (fun i => table (row + i)) represents
  have rounds : RoundSpec (mixSBody S row inputs) (t + 1)
      (fun count out => 0 < count ∧
        Written (PoseidonTables.mixSparse sparse r state) count out)
      fun _ => True :=
    { accepts := by
        rintro count out within ⟨positive, before⟩ -
        have entry := FrElement.add_represents slot (represents ⟨count, within⟩)
          (FrElement.mul_represents slot (represents 0)
            (table (row + (t + 1) + count - 1)))
        have notFirst : (⟨count, within⟩ : Fin (t + 1)) ≠ 0 :=
          fun zero => positive.ne' (congrArg Fin.val zero)
        refine ⟨_, dif_pos within, Nat.succ_pos count,
          filled_update Represents within before ?_⟩
        rw [PoseidonTables.mixSparse, if_neg notFirst]
        exact entry
      rejects := fun _ _ rejected => absurd trivial rejected }
  have first : Written (PoseidonTables.mixSparse sparse r state) 1
      (Function.update (fun _ => slot) 0 lc) := by
    intro i low
    have isZero : i = 0 := Fin.ext (Nat.lt_one_iff.mp low)
    rw [isZero, Function.update_self, PoseidonTables.mixSparse, if_pos rfl]
    exact combined
  obtain ⟨out, ran, -, written⟩ := (countingLoop_from (counts width small)
    rounds (t + 1) represents_one (Nat.succ_pos t) (by omega)
    ⟨Nat.one_pos, first⟩).1 fun _ _ _ => trivial
  refine ⟨out, ?_, written.all⟩
  change (combinationRun bounds (fun i => S (row + i)) inputs).bind _ = _
  rw [combinationRan]
  exact ran

/-! ## Rounds -/

/-- The tables of the program represent the constants. -/
structure TablesRepresent
    (tables : PoseidonTables FrElement)
    (constants : PoseidonTables Fr) : Prop where
  C : ∀ i, Represents (tables.C i) (constants.C i)
  S : ∀ i, Represents (tables.S i) (constants.S i)
  M : ∀ i j, Represents (tables.M i j) (constants.M i j)
  P : ∀ i j, Represents (tables.P i j) (constants.P i j)

variable {tables : PoseidonTables FrElement}
variable {constants : PoseidonTables Fr}

/-- A full round of the program is one of the permutation. -/
theorem fullRoundRun_represents
    {M : Nat -> Nat -> FrElement}
    {matrix : Nat -> Nat -> Fr}
    {inputs : Signals t}
    {state : Fin t -> Fr}
    (width : Represents bounds.width (t : Fr))
    (small : t < 2 ^ 31)
    (table : TablesRepresent tables constants)
    (matrixTable : ∀ j i, Represents (M j i) (matrix j i))
    (represents : StateRepresents inputs state)
    (r : Nat) :
    ∃ out, fullRoundRun bounds tables r M inputs = some out ∧
      StateRepresents out
        (PoseidonTables.fullRound constants.C r matrix state) := by
  obtain ⟨ark, arkRan, arkRepresents⟩ := arkRun_represents width small table.C
    (fun j => sigmaRun_represents (represents j)) r
  obtain ⟨out, mixRan, outRepresents⟩ :=
    mixRun_represents width small matrixTable arkRepresents
  refine ⟨out, ?_, outRepresents⟩
  rw [fullRoundRun, Option.bind_eq_bind, arkRan, Option.bind_some, mixRan]

/-- A partial round of the program is one of the permutation. -/
theorem partialRoundRun_represents
    {inputs : Signals (t + 1)}
    {state : Fin (t + 1) -> Fr}
    (width : Represents bounds.width ((t + 1 : Nat) : Fr))
    (small : t + 1 < 2 ^ 31)
    (table : TablesRepresent tables constants)
    (represents : StateRepresents inputs state)
    (index : Nat) :
    ∃ out, partialRoundRun bounds tables 8 index inputs = some out ∧
      StateRepresents out
        (PoseidonTables.partialRound constants (5 * (t + 1)) index state) := by
  apply mixSRun_represents width small table.S
  intro i
  rw [Fin.zero_eta]
  have entry := FrElement.add_represents slot
    (sigmaRun_represents (represents 0)) (table.C (5 * (t + 1) + index))
  by_cases first : i = 0
  · subst first
    rw [Function.update_self, Function.update_self]
    exact entry
  · rw [Function.update_of_ne first, Function.update_of_ne first]
    exact represents i

/-- A loop over rounds computes the state after them. -/
theorem roundLoop_represents
    {bound : FrElement}
    {limit : Nat}
    {round : Nat -> Signals t -> Option (Signals t)}
    {fieldRound : Nat -> (Fin t -> Fr) -> Fin t -> Fr}
    {inputs : Signals t}
    {state : Fin t -> Fr}
    (counted : Represents bound (limit : Fr))
    (small : limit < 2 ^ 31)
    (step : ∀ r {signals current}, StateRepresents signals current ->
      ∃ out, round r signals = some out ∧
        StateRepresents out (fieldRound r current))
    (represents : StateRepresents inputs state) :
    ∃ out, whileBelow bound limit round inputs = some out ∧
      StateRepresents out (afterRounds fieldRound state limit) := by
  apply whileBelow_accepts
    (fun count signals =>
      StateRepresents signals (afterRounds fieldRound state count))
    counted small
  · intro count signals _ before
    exact step count before
  · exact represents

/-- A `PoseidonEx` component hashes its inputs. -/
theorem poseidonExRun_represents
    {nRoundsP : Nat}
    {inputs : Signals t}
    {state : Fin t -> Fr}
    {initialState : FrElement}
    {initial : Fr}
    (width : Represents bounds.width ((t + 1 : Nat) : Fr))
    (small : t + 1 < 2 ^ 31)
    (partialRounds : Represents bounds.partialRounds (nRoundsP : Fr))
    (few : nRoundsP < 2 ^ 31)
    (table : TablesRepresent tables constants)
    (represents : StateRepresents inputs state)
    (start : Represents initialState initial) :
    ∃ hash, poseidonExRun bounds tables nRoundsP inputs initialState =
        some hash ∧
      Represents hash (constants.hash nRoundsP state initial) := by
  have three : 3 < 2 ^ 31 := by decide
  have inputSignals (i : Fin (t + 1)) :
      Represents ((Fin.cons initialState inputs : Signals (t + 1)) i)
        ((Fin.cons initial state : Fin (t + 1) -> Fr) i) := by
    cases i using Fin.cases with
    | zero => exact start
    | succ i => exact represents i
  obtain ⟨ark, arkRan, arkRepresents⟩ :=
    arkRun_represents width small table.C inputSignals 0
  obtain ⟨early, earlyRan, earlyRepresents⟩ := roundLoop_represents represents_three three
    (fun r _ _ before => fullRoundRun_represents width small table table.M before
      ((r + 1) * (t + 1))) arkRepresents
  obtain ⟨middle, middleRan, middleRepresents⟩ := fullRoundRun_represents width small
    table table.P earlyRepresents (4 * (t + 1))
  obtain ⟨mixed, mixedRan, mixedRepresents⟩ := roundLoop_represents partialRounds few
    (fun r _ _ before => partialRoundRun_represents width small table before r)
    middleRepresents
  obtain ⟨late, lateRan, lateRepresents⟩ := roundLoop_represents represents_three three
    (fun r _ _ before => fullRoundRun_represents width small table table.M before
      (5 * (t + 1) + nRoundsP + r * (t + 1))) mixedRepresents
  obtain ⟨hash, hashRan, hashed⟩ := combinationRun_represents width small
    (fun j => table.M j 0) (fun j => sigmaRun_represents (lateRepresents j))
  refine ⟨hash, ?_, hashed⟩
  simp only [poseidonExRun, Option.bind_eq_bind]
  rw [arkRan, Option.bind_some, earlyRan, Option.bind_some, middleRan,
    Option.bind_some, mixedRan, Option.bind_some, lateRan, Option.bind_some]
  exact hashRan

end Components

/-- The Poseidon hash of two and of three field elements. -/
def poseidonHash (constants : Nat -> PoseidonTables Fr) : List Fr -> Fr
  | [first, second] => (constants 3).hash 57 ![first, second] 0
  | [first, second, third] => (constants 4).hash 56 ![first, second, third] 0
  | _ => 0

/-- The generated components hash what their inputs represent. -/
theorem poseidonComponents_hashesTo
    {tables : Nat -> PoseidonTables FrElement}
    {constants : Nat -> PoseidonTables Fr}
    (table : ∀ t, TablesRepresent (tables t) (constants t)) :
    HashesTo (poseidonComponents tables) (poseidonHash constants) := by
  have zero : Represents (circuitConstants 88) (0 : Fr) := by
    have represents := represents_zero
    rwa [Nat.cast_zero] at represents
  intro elements values size represents
  match elements, values, represents with
  | [_, _], [_, _], .cons first (.cons second .nil) =>
      apply poseidonExRun_represents represents_three (by decide)
        represents_fiftySeven (by decide) (table 3)
      · intro i
        fin_cases i
        · exact first
        · exact second
      · exact zero
  | [_, _, _], [_, _, _], .cons first (.cons second (.cons third .nil)) =>
      apply poseidonExRun_represents represents_four (by decide)
        represents_fiftySix (by decide) (table 4)
      · intro i
        fin_cases i
        · exact first
        · exact second
        · exact third
      · exact zero
  | [], _, _ => simp at size
  | [_], _, _ => simp at size
  | _ :: _ :: _ :: _ :: _, _, _ => simp at size

end Generator
end Privachain

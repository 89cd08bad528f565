import Privachain.Generator.PathSemantics

/-!
# The main component of the generated program

A run of the main component checks what the template checks.  It has no result
where a check fails, and otherwise every signal represents the computed one.
-/

namespace Privachain
namespace Generator

open Foundation Circuit
open FrElement (Represents slot)

/-! ## Represented signals -/

/-- The input signals represent field elements. -/
structure InputsRepresent
    (inputs : TransactionInputs FrElement 4 4 20)
    (values : TransactionInputs Fr 4 4 20) : Prop where
  root : Represents inputs.root values.root
  nullifierHashes : ∀ i,
    Represents (inputs.nullifierHashes i) (values.nullifierHashes i)
  outCommitments : ∀ i,
    Represents (inputs.outCommitments i) (values.outCommitments i)
  inAmount : ∀ i, Represents (inputs.inAmount i) (values.inAmount i)
  inSecret : ∀ i, Represents (inputs.inSecret i) (values.inSecret i)
  inRecipient : ∀ i, Represents (inputs.inRecipient i) (values.inRecipient i)
  inPathElements : ∀ i j,
    Represents (inputs.inPathElements i j) (values.inPathElements i j)
  inPathIndices : ∀ i j,
    Represents (inputs.inPathIndices i j) (values.inPathIndices i j)
  outAmount : ∀ i, Represents (inputs.outAmount i) (values.outAmount i)
  outSecret : ∀ i, Represents (inputs.outSecret i) (values.outSecret i)
  outRecipient : ∀ i, Represents (inputs.outRecipient i) (values.outRecipient i)

/-- All signals represent field elements. -/
structure TransactionRepresents
    (component : Transaction FrElement 4 4 20)
    (values : Transaction Fr 4 4 20) : Prop where
  inputs : InputsRepresent component.toTransactionInputs
    values.toTransactionInputs
  inCommitmentHasher : ∀ i,
    PoseidonRepresents (component.inCommitmentHasher i)
      (values.inCommitmentHasher i)
  inNullifierHasher : ∀ i,
    PoseidonRepresents (component.inNullifierHasher i)
      (values.inNullifierHasher i)
  inTree : ∀ i, PathRepresents (component.inTree i) (values.inTree i)
  outCommitmentHasher : ∀ i,
    PoseidonRepresents (component.outCommitmentHasher i)
      (values.outCommitmentHasher i)

/-! ## What the generated program checks -/

/-- The checks of one round of the input loop. -/
def InputChecks
    (poseidonField : List Fr -> Fr)
    (values : TransactionInputs Fr 4 4 20)
    (i : Fin 4) : Prop :=
  poseidonField (values.nullifierPreimage poseidonField i) =
      values.nullifierHashes i ∧
    MerkleProof.pathRoot poseidonField (values.inCommitment poseidonField i)
      (values.inPathElements i) (values.inPathIndices i) = values.root

/-- An `assert` of an equality holds exactly for equal values. -/
theorem assertEq_eq
    {left right : FrElement}
    {first second : Fr}
    (leftRepresents : Represents left first)
    (rightRepresents : Represents right second) :
    assertEq left right = if first = second then some () else none := by
  rw [assertEq, FrElement.eq, FrElement.isTrue_writeBool]
  have equal := FrElement.req_iff leftRepresents rightRepresents
  by_cases same : first = second
  · rw [if_pos (equal.mpr same), if_pos same]
  · rw [if_neg (mt equal.mp same), if_neg same]

/-- A sum up to an index, with one more term. -/
theorem sum_take_succ
    (amounts : Fin 4 -> Fr)
    {count : Nat}
    (within : count < 4) :
    ((List.ofFn amounts).take (count + 1)).sum =
      ((List.ofFn amounts).take count).sum + amounts ⟨count, within⟩ := by
  rw [List.sum_take_succ _ _ (by simpa using within), List.getElem_ofFn]

theorem sum_take_all (amounts : Fin 4 -> Fr) :
    ((List.ofFn amounts).take 4).sum = ∑ i, amounts i := by
  rw [List.take_of_length_le (by simp), List.sum_ofFn]

section Rounds

variable {poseidon : List FrElement -> Option FrElement}
variable {poseidonField : List Fr -> Fr}
variable {inputs : TransactionInputs FrElement 4 4 20}
variable {values : TransactionInputs Fr 4 4 20}

/-- The main component with the input rounds below an index done. -/
structure InputsFilled
    (inputs : TransactionInputs FrElement 4 4 20)
    (values : Transaction Fr 4 4 20)
    (count : Nat)
    (state : MainState) : Prop where
  inputs : state.signals.toTransactionInputs = inputs
  inCommitmentHasher : ∀ i, i.val < count ->
    PoseidonRepresents (state.signals.inCommitmentHasher i)
      (values.inCommitmentHasher i)
  inNullifierHasher : ∀ i, i.val < count ->
    PoseidonRepresents (state.signals.inNullifierHasher i)
      (values.inNullifierHasher i)
  inTree : ∀ i, i.val < count ->
    PathRepresents (state.signals.inTree i) (values.inTree i)
  sumIns : Represents state.sumIns ((List.ofFn values.inAmount).take count).sum

/-- One round of the input loop. -/
theorem inputBody_represents
    {count : Nat}
    {state : MainState}
    (hashesTo : HashesTo poseidon poseidonField)
    (represents : InputsRepresent inputs values)
    (within : count < 4)
    (before : InputsFilled inputs (Transaction.ofInputs poseidonField values)
      count state) :
    (InputChecks poseidonField values ⟨count, within⟩ ->
      ∃ next, inputBody poseidon count state = some next ∧
        InputsFilled inputs (Transaction.ofInputs poseidonField values)
          (count + 1) next) ∧
    (¬ InputChecks poseidonField values ⟨count, within⟩ ->
      inputBody poseidon count state = none) := by
  obtain ⟨rfl, commitmentHashers, nullifierHashers, trees, sum⟩ := before
  let i : Fin 4 := ⟨count, within⟩
  let t := state.signals
  have noteInputs (j : Fin 3) :
      Represents (![t.inAmount i, t.inSecret i, t.inRecipient i] j)
        (![values.inAmount i, values.inSecret i, values.inRecipient i] j) := by
    fin_cases j
    · exact represents.inAmount i
    · exact represents.inSecret i
    · exact represents.inRecipient i
  obtain ⟨commitmentHasher, commitmentRan, commitment⟩ :=
    poseidonRun_represents
      { emptyPoseidon 3 with
        inputs := ![t.inAmount i, t.inSecret i, t.inRecipient i] }
      hashesTo (Or.inr rfl) noteInputs
  have nullifierInputs (j : Fin 2) :
      Represents (![commitmentHasher.out, t.inSecret i] j)
        (![values.inCommitment poseidonField i, values.inSecret i] j) := by
    fin_cases j
    · exact commitment.out
    · exact represents.inSecret i
  obtain ⟨nullifierHasher, nullifierRan, nullifier⟩ :=
    poseidonRun_represents
      { emptyPoseidon 2 with inputs := ![commitmentHasher.out, t.inSecret i] }
      hashesTo (Or.inl rfl) nullifierInputs
  obtain ⟨tree, treeRan, treeRepresents⟩ := merkleProofRun_represents hashesTo
    commitment.out (represents.inPathElements i) (represents.inPathIndices i)
  have nullifierCheck :
      assertEq nullifierHasher.out (t.nullifierHashes i) =
        if poseidonField (values.nullifierPreimage poseidonField i) =
          values.nullifierHashes i then some () else none :=
    assertEq_eq nullifier.out (represents.nullifierHashes i)
  have rootCheck :
      assertEq tree.root t.root =
        if MerkleProof.pathRoot poseidonField
            (values.inCommitment poseidonField i) (values.inPathElements i)
            (values.inPathIndices i) = values.root then some () else none :=
    assertEq_eq treeRepresents.root represents.root
  simp only [inputBody, dif_pos within, Option.bind_eq_bind]
  rw [commitmentRan, Option.bind_some, nullifierRan, Option.bind_some,
    nullifierCheck]
  by_cases nullifierPasses : poseidonField
      (values.nullifierPreimage poseidonField i) = values.nullifierHashes i
  · rw [if_pos nullifierPasses, Option.bind_some, treeRan, Option.bind_some,
      rootCheck]
    by_cases rootPasses : MerkleProof.pathRoot poseidonField
        (values.inCommitment poseidonField i) (values.inPathElements i)
        (values.inPathIndices i) = values.root
    · rw [if_pos rootPasses, Option.bind_some]
      refine ⟨fun _ => ⟨_, rfl, rfl, ?_, ?_, ?_, ?_⟩,
        fun fails => absurd ⟨nullifierPasses, rootPasses⟩ fails⟩
      · exact filled_update PoseidonRepresents within commitmentHashers commitment
      · exact filled_update PoseidonRepresents within nullifierHashers nullifier
      · exact filled_update PathRepresents within trees treeRepresents
      · rw [sum_take_succ _ within]
        exact FrElement.add_represents slot sum (represents.inAmount i)
    · rw [if_neg rootPasses, Option.bind_none]
      exact ⟨fun passes => absurd passes.2 rootPasses, fun _ => rfl⟩
  · rw [if_neg nullifierPasses, Option.bind_none]
    exact ⟨fun passes => absurd passes.1 nullifierPasses, fun _ => rfl⟩

/-- The main component after the input loop, with the output rounds below an
index done. -/
structure OutputsFilled
    (done : MainState)
    (values : Transaction Fr 4 4 20)
    (count : Nat)
    (state : MainState) : Prop where
  signals : state.signals =
    { done.signals with
      outCommitmentHasher := state.signals.outCommitmentHasher }
  sumIns : state.sumIns = done.sumIns
  outCommitmentHasher : ∀ i, i.val < count ->
    PoseidonRepresents (state.signals.outCommitmentHasher i)
      (values.outCommitmentHasher i)
  sumOuts : Represents state.sumOuts
    ((List.ofFn values.outAmount).take count).sum

/-- One round of the output loop. -/
theorem outputBody_represents
    {count : Nat}
    {done state : MainState}
    (hashesTo : HashesTo poseidon poseidonField)
    (represents : InputsRepresent done.signals.toTransactionInputs values)
    (within : count < 4)
    (before : OutputsFilled done (Transaction.ofInputs poseidonField values)
      count state) :
    (poseidonField (values.outNote ⟨count, within⟩) =
          values.outCommitments ⟨count, within⟩ ->
      ∃ next, outputBody poseidon count state = some next ∧
        OutputsFilled done (Transaction.ofInputs poseidonField values)
          (count + 1) next) ∧
    (poseidonField (values.outNote ⟨count, within⟩) ≠
          values.outCommitments ⟨count, within⟩ ->
      outputBody poseidon count state = none) := by
  let i : Fin 4 := ⟨count, within⟩
  let t := state.signals
  have inputs : InputsRepresent t.toTransactionInputs values := by
    have same := congrArg Transaction.toTransactionInputs before.signals
    change t.toTransactionInputs = done.signals.toTransactionInputs at same
    rwa [same]
  have noteInputs (j : Fin 3) :
      Represents (![t.outAmount i, t.outSecret i, t.outRecipient i] j)
        (![values.outAmount i, values.outSecret i, values.outRecipient i] j) := by
    fin_cases j
    · exact inputs.outAmount i
    · exact inputs.outSecret i
    · exact inputs.outRecipient i
  obtain ⟨commitmentHasher, commitmentRan, commitment⟩ :=
    poseidonRun_represents
      { emptyPoseidon 3 with
        inputs := ![t.outAmount i, t.outSecret i, t.outRecipient i] }
      hashesTo (Or.inr rfl) noteInputs
  have check :
      assertEq commitmentHasher.out (t.outCommitments i) =
        if poseidonField (values.outNote i) = values.outCommitments i then
          some () else none :=
    assertEq_eq commitment.out (inputs.outCommitments i)
  simp only [outputBody, dif_pos within, Option.bind_eq_bind]
  rw [commitmentRan, Option.bind_some, check]
  by_cases passes : poseidonField (values.outNote i) = values.outCommitments i
  · rw [if_pos passes, Option.bind_some]
    refine ⟨fun _ => ⟨_, rfl, ?_, before.sumIns, ?_, ?_⟩,
      fun fails => absurd passes fails⟩
    · exact congrArg
        (fun signals : Transaction FrElement 4 4 20 =>
          { signals with
            outCommitmentHasher :=
              Function.update t.outCommitmentHasher i commitmentHasher })
        before.signals
    · exact filled_update PoseidonRepresents within before.outCommitmentHasher
        commitment
    · rw [sum_take_succ _ within]
      exact FrElement.add_represents slot before.sumOuts (inputs.outAmount i)
  · rw [if_neg passes, Option.bind_none]
    exact ⟨fun equal => absurd equal passes, fun _ => rfl⟩

theorem unwritten {Property : Fin 4 -> Prop} :
    ∀ i : Fin 4, i.val < 0 -> Property i :=
  fun i low => absurd low i.val.not_lt_zero

/-- The input loop from the created component. -/
theorem inputLoop_spec
    (hashesTo : HashesTo poseidon poseidonField)
    (represents : InputsRepresent inputs values)
    (created : MainState)
    (start : created.signals.toTransactionInputs = inputs)
    (zero : created.sumIns = circuitConstants 88) :
    ((∀ i, InputChecks poseidonField values i) ->
      ∃ done, whileBelow (circuitConstants 89) 4 (inputBody poseidon) created =
          some done ∧
        InputsFilled inputs (Transaction.ofInputs poseidonField values) 4
          done) ∧
    (¬ (∀ i, InputChecks poseidonField values i) ->
      whileBelow (circuitConstants 89) 4 (inputBody poseidon) created =
        none) := by
  apply whileBelow_spec represents_four (by decide)
  · intro count state within before
    exact inputBody_represents hashesTo represents within before
  · refine ⟨start, unwritten, unwritten, unwritten, ?_⟩
    rw [zero]
    exact represents_zero

/-- The output loop after the input loop. -/
theorem outputLoop_spec
    (hashesTo : HashesTo poseidon poseidonField)
    (done : MainState)
    (represents : InputsRepresent done.signals.toTransactionInputs values)
    (zero : done.sumOuts = circuitConstants 88) :
    ((∀ i, poseidonField (values.outNote i) = values.outCommitments i) ->
      ∃ state, whileBelow (circuitConstants 89) 4 (outputBody poseidon) done =
          some state ∧
        OutputsFilled done (Transaction.ofInputs poseidonField values) 4
          state) ∧
    (¬ (∀ i, poseidonField (values.outNote i) = values.outCommitments i) ->
      whileBelow (circuitConstants 89) 4 (outputBody poseidon) done =
        none) := by
  apply whileBelow_spec represents_four (by decide)
  · intro count state within before
    exact outputBody_represents hashesTo represents within before
  · refine ⟨rfl, rfl, unwritten, ?_⟩
    rw [zero]
    exact represents_zero

/-- A run of the main component: it computes the signals of the circuit where
its checks pass, and has no result elsewhere. -/
theorem transactionRun_spec
    (hashesTo : HashesTo poseidon poseidonField)
    (represents : InputsRepresent inputs values) :
    (values.Checks poseidonField ->
      ∃ t, transactionRun poseidon inputs = some t ∧
        TransactionRepresents t (Transaction.ofInputs poseidonField values)) ∧
    (¬ values.Checks poseidonField ->
      transactionRun poseidon inputs = none) := by
  let created : MainState :=
    { signals := createTransaction inputs
      sumIns := circuitConstants 88
      sumOuts := slot }
  have inputLoop := inputLoop_spec hashesTo represents created rfl rfl
  simp only [transactionRun, Option.bind_eq_bind]
  by_cases inputsPass : ∀ i, InputChecks poseidonField values i
  · obtain ⟨done, inputsRan, filled⟩ := inputLoop.1 inputsPass
    have kept : InputsRepresent done.signals.toTransactionInputs values :=
      filled.inputs.symm ▸ represents
    have outputLoop := outputLoop_spec hashesTo
      { done with sumOuts := circuitConstants 88 } kept rfl
    rw [inputsRan, Option.bind_some]
    by_cases outputsPass : ∀ i,
        poseidonField (values.outNote i) = values.outCommitments i
    · obtain ⟨state, outputsRan, complete⟩ := outputLoop.1 outputsPass
      have sums : Represents state.sumIns values.sumIns := by
        rw [complete.sumIns, TransactionInputs.sumIns, ← sum_take_all]
        exact filled.sumIns
      have otherSums : Represents state.sumOuts values.sumOuts := by
        rw [TransactionInputs.sumOuts, ← sum_take_all]
        exact complete.sumOuts
      rw [outputsRan, Option.bind_some, assertEq_eq sums otherSums]
      by_cases balances : values.sumIns = values.sumOuts
      · rw [if_pos balances, Option.bind_some]
        refine ⟨fun _ => ⟨state.signals, rfl, ?_⟩,
          fun fails => absurd
            { nullifier := fun i => (inputsPass i).1
              merkleRoot := fun i => (inputsPass i).2
              outCommitment := outputsPass
              balance := balances } fails⟩
        rw [complete.signals]
        exact
          { inputs := kept
            inCommitmentHasher := fun i => filled.inCommitmentHasher i i.isLt
            inNullifierHasher := fun i => filled.inNullifierHasher i i.isLt
            inTree := fun i => filled.inTree i i.isLt
            outCommitmentHasher := fun i =>
              complete.outCommitmentHasher i i.isLt }
      · rw [if_neg balances, Option.bind_none]
        exact ⟨fun passes => absurd passes.balance balances, fun _ => rfl⟩
    · rw [outputLoop.2 outputsPass, Option.bind_none]
      exact ⟨fun passes => absurd passes.outCommitment outputsPass,
        fun _ => rfl⟩
  · rw [inputLoop.2 inputsPass, Option.bind_none]
    exact ⟨fun passes => absurd
      (fun i => ⟨passes.nullifier i, passes.merkleRoot i⟩) inputsPass,
      fun _ => rfl⟩

end Rounds

end Generator
end Privachain

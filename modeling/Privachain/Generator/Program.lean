import Privachain.Circuit.Transaction
import Privachain.Foundation.CountingLoops
import Privachain.Generator.Element
import Mathlib.Data.Fin.VecNotation

/-!
# The generated program

The templates of `circuit.cpp` on top of the Poseidon components, which are a
parameter.  Signals have the names of the circuit instead of their offsets in
the signal array, and a component runs where its last input has been set.  A
failed `assert` has no result.
-/

namespace Privachain
namespace Generator

open Foundation Circuit
open FrElement (slot)

/-! ## Constants and loops -/

/-- The entries of `circuitConstants` in `circuit.dat` that count and bound the
loops. -/
def circuitConstants : Nat -> FrElement
  | 88 => ⟨0, 0x40000000, ⟨0, 0, 0, 0⟩⟩
  | 89 => ⟨4, 0x40000000,
      ⟨0x6e76dadd4fffffeb, 0xb3bdf20e03c9c415,
        0xe16a48076063c05b, 0x07c5909386eddc93⟩⟩
  | 90 => ⟨1, 0x40000000,
      ⟨0xac96341c4ffffffb, 0x36fc76959f60cd29,
        0x666ea36f7879462e, 0x0e0a77c19a07df2f⟩⟩
  | 457 => ⟨2, 0x40000000,
      ⟨0x592c68389ffffff6, 0x6df8ed2b3ec19a53,
        0xccdd46def0f28c5c, 0x1c14ef83340fbe5e⟩⟩
  | 460 => ⟨3, 0x40000000,
      ⟨0x05c29c54effffff1, 0xa4f563c0de22677d,
        0x334bea4e696bd28a, 0x2a1f6744ce179d8e⟩⟩
  | 473 => ⟨56, 0x40000000,
      ⟨0x82bc0cf27ffffed8, 0x83fb6c334195d809,
        0xe32f64fa4271d449, 0x0c054b2b9e9ecfc2⟩⟩
  | 503 => ⟨20, 0x40000000,
      ⟨0x285246528fffff97, 0x82b5ba4612f0d46b,
        0x67136824e1f2c1ca, 0x26dbd2e1a2a54ee3⟩⟩
  | 603 => ⟨57, 0x40000000,
      ⟨0x2f52410ecffffed3, 0xbaf7e2c8e0f6a533,
        0x499e0869baeb1a77, 0x1a0fc2ed38a6aef2⟩⟩
  | _ => slot

/-- The counter of a `while` loop of the generated program, below a bound. -/
def counterOperations (bound : FrElement) : CounterOperations FrElement where
  continues counter := (FrElement.lt slot counter bound).isTrue
  index counter := counter.toInt.map fun word => word.toInt.toNat
  next counter := FrElement.add slot counter (circuitConstants 90)

/-- A loop from zero below a bound, with more rounds than the bound. -/
def whileBelow
    {State : Type}
    (bound : FrElement)
    (rounds : Nat)
    (body : Nat -> State -> Option State)
    (state : State) : Option State :=
  countingLoop (counterOperations bound) body (rounds + 1)
    (circuitConstants 88) state

/-- `assert(Fr_isTrue(&expaux[0]))` after `Fr_eq` -/
def assertEq (left right : FrElement) : Option Unit :=
  if (FrElement.eq slot left right).isTrue then some () else none

/-! ## Components -/

/-- A `MultiMux1(2)` component before its run. -/
def emptyMux : MultiMux1 FrElement 2 :=
  ⟨fun _ _ => slot, slot, fun _ => slot⟩

/-- A Poseidon component before its run. -/
def emptyPoseidon (nInputs : Nat) : Poseidon FrElement nInputs :=
  ⟨fun _ => slot, slot⟩

/-- `out[i] <== (c[i][1] - c[i][0]) * s + c[i][0]` -/
def muxOutput (first second selector : FrElement) : FrElement :=
  FrElement.add slot
    (FrElement.mul slot (FrElement.sub slot second first) selector) first

/-- One round of the loop of `MultiMux1_140_run` -/
def multiMux1Body
    (index : Nat)
    (mux : MultiMux1 FrElement 2) : Option (MultiMux1 FrElement 2) :=
  if within : index < 2 then
    let i : Fin 2 := ⟨index, within⟩
    some { mux with
      out := Function.update mux.out i
        (muxOutput (mux.c i ⟨0, Nat.two_pos⟩) (mux.c i ⟨1, Nat.one_lt_two⟩)
          mux.s) }
  else none

/-- `MultiMux1_140_run` -/
def multiMux1Run (mux : MultiMux1 FrElement 2) :
    Option (MultiMux1 FrElement 2) :=
  whileBelow (circuitConstants 457) 2 multiMux1Body mux

section Templates

variable (poseidon : List FrElement -> Option FrElement)

/-- `Poseidon_69_run` and `Poseidon_139_run` -/
def poseidonRun
    {nInputs : Nat}
    (component : Poseidon FrElement nInputs) :
    Option (Poseidon FrElement nInputs) := do
  let out <- poseidon (List.ofFn component.inputs)
  some { component with out := out }

/-- One round of the loop of `MerkleProof_141_run` -/
def merkleProofBody
    (index : Nat)
    (proof : MerkleProof FrElement 20) : Option (MerkleProof FrElement 20) := do
  if within : index < 20 then
    let i : Fin 20 := ⟨index, within⟩
    let hash := proof.hashes i.castSucc
    let sibling := proof.pathElements i
    let mux <- multiMux1Run
      { emptyMux with
        c := ![![hash, sibling], ![sibling, hash]]
        s := proof.pathIndices i }
    let hasher <- poseidonRun poseidon
      { emptyPoseidon 2 with inputs := mux.out }
    some { proof with
      mux := Function.update proof.mux i mux
      hashers := Function.update proof.hashers i hasher
      hashes := Function.update proof.hashes i.succ hasher.out }
  else none

/-- `MerkleProof_141_run` -/
def merkleProofRun
    (leaf : FrElement)
    (pathElements pathIndices : Fin 20 -> FrElement) :
    Option (MerkleProof FrElement 20) := do
  let created : MerkleProof FrElement 20 :=
    { leaf := leaf
      pathElements := pathElements
      pathIndices := pathIndices
      root := slot
      hashers := fun _ => emptyPoseidon 2
      mux := fun _ => emptyMux
      hashes := Function.update (fun _ => slot) 0 leaf }
  let proof <- whileBelow (circuitConstants 503) 20 (merkleProofBody poseidon)
    created
  some { proof with root := proof.hashes (Fin.last 20) }

/-- The signals of the main component and `lvar[3]` and `lvar[4]`. -/
structure MainState where
  signals : Transaction FrElement 4 4 20
  sumIns : FrElement
  sumOuts : FrElement

/-- One round of the first loop of `Transaction_142_run` -/
def inputBody (index : Nat) (state : MainState) : Option MainState := do
  if within : index < 4 then
    let i : Fin 4 := ⟨index, within⟩
    let t := state.signals
    let commitmentHasher <- poseidonRun poseidon
      { emptyPoseidon 3 with
        inputs := ![t.inAmount i, t.inSecret i, t.inRecipient i] }
    let nullifierHasher <- poseidonRun poseidon
      { emptyPoseidon 2 with inputs := ![commitmentHasher.out, t.inSecret i] }
    assertEq nullifierHasher.out (t.nullifierHashes i)
    let tree <- merkleProofRun poseidon commitmentHasher.out
      (t.inPathElements i) (t.inPathIndices i)
    assertEq tree.root t.root
    some { state with
      signals :=
        { t with
          inCommitmentHasher :=
            Function.update t.inCommitmentHasher i commitmentHasher
          inNullifierHasher :=
            Function.update t.inNullifierHasher i nullifierHasher
          inTree := Function.update t.inTree i tree }
      sumIns := FrElement.add slot state.sumIns (t.inAmount i) }
  else none

/-- One round of the second loop of `Transaction_142_run` -/
def outputBody (index : Nat) (state : MainState) : Option MainState := do
  if within : index < 4 then
    let i : Fin 4 := ⟨index, within⟩
    let t := state.signals
    let commitmentHasher <- poseidonRun poseidon
      { emptyPoseidon 3 with
        inputs := ![t.outAmount i, t.outSecret i, t.outRecipient i] }
    assertEq commitmentHasher.out (t.outCommitments i)
    some { state with
      signals :=
        { t with
          outCommitmentHasher :=
            Function.update t.outCommitmentHasher i commitmentHasher }
      sumOuts := FrElement.add slot state.sumOuts (t.outAmount i) }
  else none

/-- The main component before its run. -/
def createTransaction
    (inputs : TransactionInputs FrElement 4 4 20) :
    Transaction FrElement 4 4 20 :=
  { inputs with
    inCommitmentHasher := fun _ => emptyPoseidon 3
    inNullifierHasher := fun _ => emptyPoseidon 2
    inTree := fun _ =>
      { leaf := slot
        pathElements := fun _ => slot
        pathIndices := fun _ => slot
        root := slot
        hashers := fun _ => emptyPoseidon 2
        mux := fun _ => emptyMux
        hashes := fun _ => slot }
    outCommitmentHasher := fun _ => emptyPoseidon 3 }

/-- `Transaction_142_run`, which `run` calls on the created component. -/
def transactionRun
    (inputs : TransactionInputs FrElement 4 4 20) :
    Option (Transaction FrElement 4 4 20) := do
  let created : MainState :=
    { signals := createTransaction inputs
      sumIns := circuitConstants 88
      sumOuts := slot }
  let state <- whileBelow (circuitConstants 89) 4 (inputBody poseidon) created
  let state <- whileBelow (circuitConstants 89) 4 (outputBody poseidon)
    { state with sumOuts := circuitConstants 88 }
  assertEq state.sumIns state.sumOuts
  some state.signals

end Templates

end Generator
end Privachain

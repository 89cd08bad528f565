import Privachain.Generator.Comparison
import Privachain.Generator.Program

/-!
# The path components of the generated program

The loops of the generated program count as the template loops do, and the
components compute the signals of the templates, whatever the forms of their
inputs.
-/

namespace Privachain
namespace Generator

open Foundation Circuit
open FrElement (Represents slot)

/-! ## Loops -/

/-- A constant is a short value together with its Montgomery form. -/
theorem represents_constant
    {value : Nat}
    {shortVal : BitVec 32}
    {longVal : RawElement}
    (signed : shortVal.toInt = value)
    (form : longVal.toNat = value * 2 ^ 256 % fieldSize) :
    Represents ⟨shortVal, 0x40000000, longVal⟩ (value : Fr) := by
  apply FrElement.represents_shortMontgomery
  · rw [signed, Int.cast_natCast]
  · have holds := holds_of_toNat form
    rwa [Nat.cast_mul] at holds

theorem represents_zero : Represents (circuitConstants 88) ((0 : Nat) : Fr) :=
  represents_constant rfl (by rw [RawElement.toNat_eq]; decide)

theorem represents_three : Represents (circuitConstants 460) ((3 : Nat) : Fr) :=
  represents_constant rfl (by rw [RawElement.toNat_eq]; decide)

theorem represents_four : Represents (circuitConstants 89) ((4 : Nat) : Fr) :=
  represents_constant rfl (by rw [RawElement.toNat_eq]; decide)

theorem represents_one : Represents (circuitConstants 90) ((1 : Nat) : Fr) :=
  represents_constant rfl (by rw [RawElement.toNat_eq]; decide)

theorem represents_two : Represents (circuitConstants 457) ((2 : Nat) : Fr) :=
  represents_constant rfl (by rw [RawElement.toNat_eq]; decide)

theorem represents_twenty :
    Represents (circuitConstants 503) ((20 : Nat) : Fr) :=
  represents_constant rfl (by rw [RawElement.toNat_eq]; decide)

theorem represents_fiftySix :
    Represents (circuitConstants 473) ((56 : Nat) : Fr) :=
  represents_constant rfl (by rw [RawElement.toNat_eq]; decide)

theorem represents_fiftySeven :
    Represents (circuitConstants 603) ((57 : Nat) : Fr) :=
  represents_constant rfl (by rw [RawElement.toNat_eq]; decide)

/-- A small number is its own signed representative. -/
theorem valMinAbs_natCast
    {count : Nat}
    (small : count < 2 ^ 31) : (count : Fr).valMinAbs = count := by
  have lower : -2 ^ 63 ≤ (count : Int) := by omega
  have exact := valMinAbs_intCast lower (by omega)
  rwa [Int.cast_natCast] at exact

/-- The counters of the loops count up to their bound. -/
theorem counts
    {bound : FrElement}
    {limit : Nat}
    (represents : Represents bound (limit : Fr))
    (small : limit < 2 ^ 31) :
    CountsTo (counterOperations bound)
      (fun counter count => Represents counter (count : Fr)) limit where
  continues_iff := by
    intro counter count standsFor within
    change (FrElement.writeBool slot (FrElement.rlt counter bound)).isTrue = true ↔ _
    rw [FrElement.isTrue_writeBool, FrElement.rlt_iff standsFor represents,
      valMinAbs_natCast (by omega), valMinAbs_natCast small, Nat.cast_lt]
  index_eq := by
    intro counter count standsFor within
    have value : (count : Fr).valMinAbs = count := valMinAbs_natCast (by omega)
    obtain ⟨word, read, exact⟩ := FrElement.toInt_of_fitsInt standsFor
      (by rw [FrElement.FitsInt, value]; omega)
    change counter.toInt.map (fun word => word.toInt.toNat) = some count
    rw [read, Option.map_some, exact, value, Int.toNat_natCast]
  next_stands := by
    intro counter count standsFor _
    rw [Nat.cast_succ, ← Nat.cast_one]
    exact FrElement.add_represents slot standsFor represents_one

section Rounds

variable {State : Type}
variable {bound : FrElement}
variable {limit : Nat}
variable {body : Nat -> State -> Option State}
variable {invariant : Nat -> State -> Prop}
variable {state : State}

/-- A loop whose rounds check something reaches its end exactly when every
check passes. -/
theorem whileBelow_spec
    {checks : Fin limit -> Prop}
    (represents : Represents bound (limit : Fr))
    (small : limit < 2 ^ 31)
    (round : ∀ {count state} (within : count < limit), invariant count state ->
      (checks ⟨count, within⟩ ->
        ∃ next, body count state = some next ∧ invariant (count + 1) next) ∧
      (¬ checks ⟨count, within⟩ -> body count state = none))
    (holds : invariant 0 state) :
    ((∀ i, checks i) ->
      ∃ final, whileBelow bound limit body state = some final ∧
        invariant limit final) ∧
    (¬ (∀ i, checks i) -> whileBelow bound limit body state = none) := by
  have rounds : RoundSpec body limit invariant
      fun count => ∀ within : count < limit, checks ⟨count, within⟩ :=
    { accepts := fun within before accepted =>
        (round within before).1 (accepted within)
      rejects := fun within before rejected =>
        (round within before).2 fun passes => rejected fun _ => passes }
  constructor
  · intro all
    exact countingLoop_accepts (counts represents small) rounds represents_zero
      (Nat.lt_succ_self limit) holds fun _ _ _ => all _
  · intro notAll
    obtain ⟨i, fails⟩ := not_forall.mp notAll
    exact countingLoop_rejects (counts represents small) rounds represents_zero
      (Nat.lt_succ_self limit) holds i.isLt fun passes => fails (passes i.isLt)

/-- A loop without checks keeps its invariant to the end. -/
theorem whileBelow_accepts
    (invariant : Nat -> State -> Prop)
    (represents : Represents bound (limit : Fr))
    (small : limit < 2 ^ 31)
    (round : ∀ {count state}, count < limit -> invariant count state ->
      ∃ next, body count state = some next ∧ invariant (count + 1) next)
    (holds : invariant 0 state) :
    ∃ final, whileBelow bound limit body state = some final ∧
      invariant limit final := by
  have checked : ∀ {count state} (_ : count < limit), invariant count state ->
      (True ->
        ∃ next, body count state = some next ∧ invariant (count + 1) next) ∧
      (¬ True -> body count state = none) :=
    fun within before => ⟨fun _ => round within before,
      fun fails => absurd trivial fails⟩
  exact (whileBelow_spec represents small checked holds).1 fun _ => trivial

end Rounds

/-! ## Hashes -/

/-- What is relied on of the hash components: they hash elements in every form
as the field elements that these represent. -/
def HashesTo
    (poseidon : List FrElement -> Option FrElement)
    (poseidonField : List Fr -> Fr) : Prop :=
  ∀ {elements values}, elements.length = 2 ∨ elements.length = 3 ->
    List.Forall₂ Represents elements values ->
      ∃ hash, poseidon elements = some hash ∧
        Represents hash (poseidonField values)

/-- The signals of a hash component represent field elements. -/
structure PoseidonRepresents
    {nInputs : Nat}
    (component : Poseidon FrElement nInputs)
    (values : Poseidon Fr nInputs) : Prop where
  inputs : ∀ i, Represents (component.inputs i) (values.inputs i)
  out : Represents component.out values.out

/-- A hash component runs to the hash of the values. -/
theorem poseidonRun_represents
    {poseidon : List FrElement -> Option FrElement}
    {poseidonField : List Fr -> Fr}
    {nInputs : Nat}
    {inputs : Fin nInputs -> Fr}
    (component : Poseidon FrElement nInputs)
    (hashes : HashesTo poseidon poseidonField)
    (size : nInputs = 2 ∨ nInputs = 3)
    (represents : ∀ i, Represents (component.inputs i) (inputs i)) :
    ∃ hasher, poseidonRun poseidon component = some hasher ∧
      PoseidonRepresents hasher (Poseidon.ofInputs poseidonField inputs) := by
  have pairwise : List.Forall₂ Represents (List.ofFn component.inputs)
      (List.ofFn inputs) := by
    rw [List.forall₂_iff_get]
    exact ⟨by simp, fun i _ _ => by simpa using represents _⟩
  obtain ⟨hash, ran, hashed⟩ := hashes (by simpa using size) pairwise
  refine ⟨{ component with out := hash }, ?_, represents, hashed⟩
  simp [poseidonRun, ran]

/-! ## The multiplexer -/

/-- The signals of a multiplexer represent field elements. -/
structure MuxRepresents
    (component : MultiMux1 FrElement 2)
    (values : MultiMux1 Fr 2) : Prop where
  c : ∀ i j, Represents (component.c i j) (values.c i j)
  s : Represents component.s values.s
  out : ∀ i, Represents (component.out i) (values.out i)

section Mux

variable {hash pathElement pathIndex : FrElement}
variable {current sibling selector : Fr}

/-- An output of the multiplexer interpolates between the columns. -/
theorem muxOutput_represents
    {first second : FrElement}
    {firstValue secondValue : Fr}
    (left : Represents first firstValue)
    (right : Represents second secondValue)
    (selects : Represents pathIndex selector) :
    Represents (muxOutput first second pathIndex)
      ((secondValue - firstValue) * selector + firstValue) :=
  FrElement.add_represents slot
    (FrElement.mul_represents slot
      (FrElement.sub_represents slot right left) selects) left

/-- A multiplexer whose outputs below an index have been written. -/
structure MuxFilled
    (created : MultiMux1 FrElement 2)
    (outputs : Fin 2 -> Fr)
    (count : Nat)
    (mux : MultiMux1 FrElement 2) : Prop where
  c : mux.c = created.c
  s : mux.s = created.s
  out : ∀ i, i.val < count -> Represents (mux.out i) (outputs i)

/-- The loop of a multiplexer writes both outputs. -/
theorem multiMux1Run_filled
    {created : MultiMux1 FrElement 2}
    {outputs : Fin 2 -> Fr}
    (written : ∀ i, Represents
      (muxOutput (created.c i 0) (created.c i 1) created.s) (outputs i)) :
    ∃ mux, multiMux1Run created = some mux ∧
      MuxFilled created outputs 2 mux := by
  apply whileBelow_accepts _ represents_two (by decide)
  · intro count mux within before
    refine ⟨_, dif_pos within, before.c, before.s, ?_⟩
    have output := written ⟨count, within⟩
    rw [← before.c, ← before.s] at output
    exact filled_update Represents within before.out output
  · exact ⟨rfl, rfl, fun i low => absurd low i.val.not_lt_zero⟩

/-- The multiplexer of a level runs to the one of the template. -/
theorem multiMux1Run_represents
    (runs : Represents hash current)
    (offers : Represents pathElement sibling)
    (selects : Represents pathIndex selector) :
    ∃ mux, multiMux1Run
        { emptyMux with
          c := ![![hash, pathElement], ![pathElement, hash]]
          s := pathIndex } = some mux ∧
      MuxRepresents mux
        (MultiMux1.ofInputs (MerkleProof.columns current sibling) selector) := by
  let created : MultiMux1 FrElement 2 :=
    { emptyMux with
      c := ![![hash, pathElement], ![pathElement, hash]]
      s := pathIndex }
  let values := MultiMux1.ofInputs (MerkleProof.columns current sibling) selector
  have written (i : Fin 2) :
      Represents (muxOutput (created.c i 0) (created.c i 1) created.s)
        (values.out i) := by
    fin_cases i
    · exact muxOutput_represents runs offers selects
    · exact muxOutput_represents offers runs selects
  obtain ⟨mux, ran, filled⟩ := multiMux1Run_filled written
  refine ⟨mux, ran, ?_, filled.s ▸ selects, fun i => filled.out i i.isLt⟩
  intro i j
  rw [filled.c]
  fin_cases i <;> fin_cases j
  · exact runs
  · exact offers
  · exact offers
  · exact runs

end Mux

/-! ## The Merkle path -/

/-- The signals of a Merkle component represent field elements. -/
structure PathRepresents
    {levels : Nat}
    (component : MerkleProof FrElement levels)
    (values : MerkleProof Fr levels) : Prop where
  leaf : Represents component.leaf values.leaf
  pathElements : ∀ i,
    Represents (component.pathElements i) (values.pathElements i)
  pathIndices : ∀ i, Represents (component.pathIndices i) (values.pathIndices i)
  root : Represents component.root values.root
  hashers : ∀ i, PoseidonRepresents (component.hashers i) (values.hashers i)
  mux : ∀ i, MuxRepresents (component.mux i) (values.mux i)
  hashes : ∀ i, Represents (component.hashes i) (values.hashes i)

/-- A Merkle component whose levels below an index have been written. -/
structure PathFilled
    (created : MerkleProof FrElement 20)
    (values : MerkleProof Fr 20)
    (count : Nat)
    (proof : MerkleProof FrElement 20) : Prop where
  leaf : proof.leaf = created.leaf
  pathElements : proof.pathElements = created.pathElements
  pathIndices : proof.pathIndices = created.pathIndices
  hashers : ∀ i, i.val < count ->
    PoseidonRepresents (proof.hashers i) (values.hashers i)
  mux : ∀ i, i.val < count -> MuxRepresents (proof.mux i) (values.mux i)
  hashes : ∀ i, i.val < count + 1 ->
    Represents (proof.hashes i) (values.hashes i)

section Path

variable {poseidon : List FrElement -> Option FrElement}
variable {poseidonField : List Fr -> Fr}
variable {leafElement : FrElement}
variable {elements indices : Fin 20 -> FrElement}
variable {leaf : Fr}
variable {pathElements pathIndices : Fin 20 -> Fr}

/-- One level of the path. -/
theorem merkleProofBody_represents
    {created proof : MerkleProof FrElement 20}
    {count : Nat}
    (hashesTo : HashesTo poseidon poseidonField)
    (offers : ∀ i, Represents (created.pathElements i) (pathElements i))
    (selects : ∀ i, Represents (created.pathIndices i) (pathIndices i))
    (within : count < 20)
    (before : PathFilled created
      (MerkleProof.ofInputs poseidonField leaf pathElements pathIndices) count
      proof) :
    ∃ next, merkleProofBody poseidon count proof = some next ∧
      PathFilled created
        (MerkleProof.ofInputs poseidonField leaf pathElements pathIndices)
        (count + 1) next := by
  let i : Fin 20 := ⟨count, within⟩
  let values := MerkleProof.ofInputs poseidonField leaf pathElements pathIndices
  have runs := before.hashes i.castSucc (Nat.lt_succ_self count)
  obtain ⟨mux, muxRan, muxRepresents⟩ :=
    multiMux1Run_represents runs (offers i) (selects i)
  obtain ⟨hasher, hasherRan, hasherRepresents⟩ :=
    poseidonRun_represents
      { emptyPoseidon 2 with inputs := mux.out }
      hashesTo (Or.inl rfl) muxRepresents.out
  have handedOn : Represents hasher.out (values.hashes i.succ) := by
    have constraints := MerkleProof.ofInputs_constraints poseidonField leaf
      pathElements pathIndices
    rw [constraints.hashes_succ i]
    exact hasherRepresents.out
  refine ⟨{ proof with
    mux := Function.update proof.mux i mux
    hashers := Function.update proof.hashers i hasher
    hashes := Function.update proof.hashes i.succ hasher.out }, ?_,
    before.leaf, before.pathElements, before.pathIndices,
    filled_update PoseidonRepresents within before.hashers hasherRepresents,
    filled_update MuxRepresents within before.mux muxRepresents,
    filled_update Represents (Nat.succ_lt_succ within) before.hashes handedOn⟩
  rw [← before.pathElements, ← before.pathIndices] at muxRan
  simp only [merkleProofBody, dif_pos within, Option.bind_eq_bind]
  rw [muxRan, Option.bind_some, hasherRan, Option.bind_some]

/-- A Merkle component runs to the one of the template. -/
theorem merkleProofRun_represents
    (hashesTo : HashesTo poseidon poseidonField)
    (leafRepresents : Represents leafElement leaf)
    (offers : ∀ i, Represents (elements i) (pathElements i))
    (selects : ∀ i, Represents (indices i) (pathIndices i)) :
    ∃ proof, merkleProofRun poseidon leafElement elements indices = some proof ∧
      PathRepresents proof
        (MerkleProof.ofInputs poseidonField leaf pathElements pathIndices) := by
  let created : MerkleProof FrElement 20 :=
    { leaf := leafElement
      pathElements := elements
      pathIndices := indices
      root := slot
      hashers := fun _ => emptyPoseidon 2
      mux := fun _ => emptyMux
      hashes := Function.update (fun _ => slot) 0 leafElement }
  let values := MerkleProof.ofInputs poseidonField leaf pathElements pathIndices
  have start : PathFilled created values 0 created := by
    refine ⟨rfl, rfl, rfl, fun i low => absurd low i.val.not_lt_zero,
      fun i low => absurd low i.val.not_lt_zero, ?_⟩
    intro i low
    have isZero : i = 0 := Fin.ext (by simpa using low)
    rw [isZero]
    exact leafRepresents
  obtain ⟨proof, ran, filled⟩ := whileBelow_accepts _ represents_twenty
    (by decide)
    (fun within before => merkleProofBody_represents hashesTo offers selects
      within before) start
  refine ⟨{ proof with root := proof.hashes (Fin.last 20) }, ?_, ?_⟩
  · rw [merkleProofRun, ran]
    rfl
  · exact
      { leaf := filled.leaf ▸ leafRepresents
        pathElements := filled.pathElements ▸ offers
        pathIndices := filled.pathIndices ▸ selects
        root := filled.hashes (Fin.last 20) (by decide)
        hashers := fun i => filled.hashers i i.isLt
        mux := fun i => filled.mux i i.isLt
        hashes := fun i => filled.hashes i i.isLt }

end Path

end Generator
end Privachain

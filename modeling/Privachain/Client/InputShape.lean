import Privachain.Client.WitnessCalculator

/-!
# The shape of the circuit input

`Transaction(4, 4, 20)` declares eleven input signals of three shapes, and the
witness calculator counts the values of each.  `validateCircuitInput` looks for
all eleven but at the length of five only, and at a length that strings and
other objects have as well; it does not look for other keys, which the witness
calculator rejects.
-/

namespace Privachain
namespace Client

open Foundation
open Foundation.JavaScript

/-! ## The shape -/

/-- A value that fills one slot of a signal. -/
def isSingle : Value -> Bool
  | .boolean _ => true
  | .number _ => true
  | .bigint _ => true
  | .string _ => true
  | _ => false

/-- An array of a size, with a condition on its items. -/
def IsArrayOf (size : Nat) (item : Value -> Prop) (value : Value) : Prop :=
  ∃ items, value = .array items ∧ items.length = size ∧
    ∀ entry ∈ items, item entry

/-- An array with a condition on its items. -/
def IsListOf (item : Value -> Prop) (value : Value) : Prop :=
  ∃ items, value = .array items ∧ ∀ entry ∈ items, item entry

/-- The property is present and meets the condition. -/
def HasSignal
    (circuitInput : Value)
    (condition : Value -> Prop)
    (field : String) : Prop :=
  ∃ value, circuitInput.property field = some value ∧ condition value

/-- A value that fills one slot. -/
def IsSingle (value : Value) : Prop := isSingle value = true

/-- The paths of the inputs. -/
def IsPaths : Value -> Prop :=
  IsArrayOf maxInputs (IsArrayOf merkleTreeDepth IsSingle)

/-- The shape that `Transaction(4, 4, 20)` requires. -/
structure HasShape (circuitInput : Value) : Prop where
  root : HasSignal circuitInput IsSingle "root"
  inputs : ∀ field ∈ ["nullifierHashes", "inAmount", "inSecret", "inRecipient"],
    HasSignal circuitInput (IsArrayOf maxInputs IsSingle) field
  outputs :
    ∀ field ∈ ["outCommitments", "outAmount", "outSecret", "outRecipient"],
      HasSignal circuitInput (IsArrayOf maxOutputs IsSingle) field
  paths : ∀ field ∈ ["inPathElements", "inPathIndices"],
    HasSignal circuitInput IsPaths field

/-! ## Shapes pass the size checks -/

theorem flatArray_of_isSingle {value : Value} (single : IsSingle value) :
    flatArray value = [value] := by
  cases value with
  | array items => cases single
  | _ => rfl

/-- Items of one size are flattened to the product of the sizes. -/
theorem length_flatArrays
    {items : List Value}
    {size : Nat}
    (sized : ∀ item ∈ items, (flatArray item).length = size) :
    (flatArrays items).length = items.length * size := by
  induction items with
  | nil => exact (Nat.zero_mul size).symm
  | cons item items inductionHypothesis =>
      rw [List.forall_mem_cons] at sized
      rw [flatArrays, List.length_append, sized.1, inductionHypothesis sized.2,
        List.length_cons, Nat.succ_mul, Nat.add_comm]

theorem length_flatArray_of_isArrayOf
    {item : Value -> Prop}
    {size itemSize : Nat}
    (sized : ∀ value, item value -> (flatArray value).length = itemSize)
    {value : Value}
    (isArray : IsArrayOf size item value) :
    (flatArray value).length = size * itemSize := by
  obtain ⟨items, rfl, rfl, meets⟩ := isArray
  rw [flatArray]
  exact length_flatArrays fun entry member => sized entry (meets entry member)

/-- The items of the items are those inside. -/
theorem mem_flatArrays
    {items : List Value}
    {item : Value}
    (member : item ∈ flatArrays items) :
    ∃ entry ∈ items, item ∈ flatArray entry := by
  induction items with
  | nil => cases member
  | cons first items inductionHypothesis =>
      rw [flatArrays, List.mem_append] at member
      rcases member with here | later
      · exact ⟨first, List.mem_cons_self, here⟩
      · obtain ⟨entry, isEntry, within⟩ := inductionHypothesis later
        exact ⟨entry, List.mem_cons_of_mem _ isEntry, within⟩

theorem length_flatArray_of_isSingle (value : Value) (single : IsSingle value) :
    (flatArray value).length = 1 := by
  rw [flatArray_of_isSingle single, List.length_singleton]

theorem HasSignal.imp
    {circuitInput : Value}
    {condition weaker : Value -> Prop}
    {field : String}
    (present : HasSignal circuitInput condition field)
    (weakens : ∀ value, condition value -> weaker value) :
    HasSignal circuitInput weaker field := by
  obtain ⟨value, isValue, meets⟩ := present
  exact ⟨value, isValue, weakens value meets⟩

/-- There are no objects among the items of a value. -/
def IsPlain (value : Value) : Prop :=
  ∀ item ∈ flatArray value, typeOf item ≠ .object

theorem isPlain_of_isSingle (value : Value) (single : IsSingle value) :
    IsPlain value := by
  unfold IsPlain
  rw [flatArray_of_isSingle single, List.forall_mem_singleton]
  cases value with
  | null => cases single
  | array items => cases single
  | object fields => cases single
  | _ => exact TypeName.noConfusion

theorem isPlain_of_isArrayOf
    {item : Value -> Prop}
    {size : Nat}
    (plain : ∀ value, item value -> IsPlain value)
    {value : Value}
    (isArray : IsArrayOf size item value) :
    IsPlain value := by
  obtain ⟨items, rfl, _, meets⟩ := isArray
  intro inner member
  obtain ⟨entry, isEntry, within⟩ := mem_flatArrays member
  exact plain entry (meets entry isEntry) inner within

/-- Every signal of the shape has its number of values, none an object. -/
theorem HasShape.sized
    {circuitInput : Value}
    (shape : HasShape circuitInput) :
    ∀ signal ∈ inputSignalSizes,
      HasSignal circuitInput (fun value =>
        (flatArray value).length = signal.2 ∧ IsPlain value) signal.1 := by
  have array : ∀ {size : Nat} {field : String},
      HasSignal circuitInput (IsArrayOf size IsSingle) field ->
      HasSignal circuitInput (fun value =>
        (flatArray value).length = size ∧ IsPlain value) field := by
    intro size field present
    refine present.imp fun value isArray =>
      ⟨?_, isPlain_of_isArrayOf isPlain_of_isSingle isArray⟩
    rw [length_flatArray_of_isArrayOf length_flatArray_of_isSingle isArray,
      Nat.mul_one]
  have paths : ∀ {field : String}, HasSignal circuitInput IsPaths field ->
      HasSignal circuitInput (fun value =>
        (flatArray value).length = maxInputs * merkleTreeDepth ∧
          IsPlain value) field := by
    intro field present
    refine present.imp fun value isArray =>
      ⟨length_flatArray_of_isArrayOf (fun path isPath => ?_) isArray,
        isPlain_of_isArrayOf
          (fun _ => isPlain_of_isArrayOf isPlain_of_isSingle) isArray⟩
    rw [length_flatArray_of_isArrayOf length_flatArray_of_isSingle isPath,
      Nat.mul_one]
  have root : HasSignal circuitInput (fun value =>
      (flatArray value).length = 1 ∧ IsPlain value) "root" :=
    shape.root.imp fun value single =>
      ⟨length_flatArray_of_isSingle value single,
        isPlain_of_isSingle value single⟩
  have inputs := shape.inputs
  have outputs := shape.outputs
  have pathFields := shape.paths
  simp only [List.forall_mem_cons, List.not_mem_nil, false_implies,
    implies_true, and_true] at inputs outputs pathFields
  simp only [inputSignalSizes, List.forall_mem_cons, List.not_mem_nil,
    false_implies, implies_true, and_true]
  exact ⟨root, array inputs.1, array outputs.1, array inputs.2.1,
    array inputs.2.2.1, array inputs.2.2.2, paths pathFields.1,
    paths pathFields.2, array outputs.2.1, array outputs.2.2.1,
    array outputs.2.2.2⟩

/-- An input of the shape has a value for every signal. -/
theorem HasShape.hasAllSignals
    {fields : List (String × Value)}
    (shape : HasShape (.object fields)) :
    HasAllSignals (.object fields) := by
  intro entries qualified signal isSignal
  have ordinary : ∀ signal ∈ inputSignalSizes, signal.1 ≠ "__proto__" := by
    decide
  obtain ⟨value, found, _, plain⟩ := shape.sized signal isSignal
  exact mem_fst_qualifyFields (ordinary signal isSignal) found plain qualified

/-- An input of the shape with no other fields has only signals, if the values
of each are of one type. -/
theorem HasShape.onlySignals
    {fields : List (String × Value)}
    (shape : HasShape (.object fields))
    (distinct : (fields.map Prod.fst).Nodup)
    (declared : ∀ field ∈ fields, field.1 ∈ inputSignalSizes.map Prod.fst)
    (uniform : ∀ field ∈ fields, IsUniform field.2) :
    OnlySignals (.object fields) := by
  obtain ⟨entries, qualified, ofFields⟩ := qualifyFields_of_isUniform uniform []
  refine ⟨entries, qualified, fun entry member => ?_⟩
  have isField : entry ∈ fields := (ofFields entry member).resolve_left
    List.not_mem_nil
  obtain ⟨signal, isSignal, sameName⟩ :=
    List.mem_map.mp (declared entry isField)
  obtain ⟨value, found, sized, _⟩ := shape.sized signal isSignal
  have sameValue : entry.2 = value := by
    rw [Value.property, sameName,
      JavaScript.lookup_of_mem distinct isField] at found
    exact Option.some.inj found
  rw [IsSized, ← sameName, getInputSignalSize_of_mem signal isSignal, sameValue,
    sized]

/-! ## What the validation checks -/

/-- The fields are present, and the five lengths are right. -/
structure PassesChecks (circuitInput : Value) : Prop where
  present : ∀ field ∈ requiredFields,
    ∃ value, circuitInput.property field = some value
  inputs : ∀ field ∈ ["inAmount", "inSecret"],
    (signalOf circuitInput field).optionalLength.isNumber maxInputs = true
  outputs : ∀ field ∈ ["outAmount", "outSecret"],
    (signalOf circuitInput field).optionalLength.isNumber maxOutputs = true
  paths : (signalOf circuitInput "inPathElements").optionalLength.isNumber
    maxInputs = true
  depths : ∀ i < maxInputs,
    ((signalOf circuitInput "inPathElements").element i).optionalLength.isNumber
      merkleTreeDepth = true

/-- What the validation does not check: the values of the six other fields, and
that the five are arrays of single values. -/
structure UncheckedShape (circuitInput : Value) : Prop where
  root : IsSingle (signalOf circuitInput "root")
  inputs : ∀ field ∈ ["nullifierHashes", "inRecipient"],
    IsArrayOf maxInputs IsSingle (signalOf circuitInput field)
  outputs : ∀ field ∈ ["outCommitments", "outRecipient"],
    IsArrayOf maxOutputs IsSingle (signalOf circuitInput field)
  pathIndices : IsPaths (signalOf circuitInput "inPathIndices")
  lists : ∀ field ∈ ["inAmount", "inSecret", "outAmount", "outSecret"],
    IsListOf IsSingle (signalOf circuitInput field)
  pathElements : IsListOf (IsListOf IsSingle)
    (signalOf circuitInput "inPathElements")

theorem missingFieldErrors_eq_nil_iff (circuitInput : Value) :
    missingFieldErrors circuitInput = [] ↔
      ∀ field ∈ requiredFields,
        ∃ value, circuitInput.property field = some value := by
  rw [missingFieldErrors, List.filterMap_eq_nil_iff]
  refine forall_congr' fun field => forall_congr' fun _ => ?_
  cases circuitInput.property field with
  | none => simp
  | some value => simp

theorem lengthErrors_eq_nil_iff
    (value : Value)
    (field : String)
    (size : Nat) :
    lengthErrors value field size = [] ↔
      value.optionalLength.isNumber size = true := by
  rw [lengthErrors]
  cases value.optionalLength.isNumber size with
  | false => simp
  | true => simp

theorem pathErrors_eq_nil_iff (inPathElements : Value) :
    pathErrors inPathElements = [] ↔
      inPathElements.optionalLength.isNumber maxInputs = true ∧
        ∀ i < maxInputs,
          (inPathElements.element i).optionalLength.isNumber merkleTreeDepth =
            true := by
  rw [pathErrors]
  cases counted : inPathElements.optionalLength.isNumber maxInputs with
  | false =>
      rw [if_neg Bool.false_ne_true, lengthErrors_eq_nil_iff, counted]
      simp
  | true =>
      rw [if_pos rfl, List.flatMap_eq_nil_iff, and_iff_right rfl]
      simp only [List.mem_range, lengthErrors_eq_nil_iff]

/-- The validation accepts exactly what passes its checks. -/
theorem validateCircuitInput_valid_iff (circuitInput : Value) :
    (validateCircuitInput circuitInput).valid = true ↔
      PassesChecks circuitInput := by
  unfold validateCircuitInput
  dsimp only
  simp only [List.isEmpty_iff, List.append_eq_nil_iff,
    missingFieldErrors_eq_nil_iff, lengthErrors_eq_nil_iff,
    pathErrors_eq_nil_iff]
  constructor
  · rintro ⟨⟨⟨⟨⟨present, inAmount⟩, inSecret⟩, outAmount⟩, outSecret⟩, paths,
      depths⟩
    exact ⟨present, by simpa using ⟨inAmount, inSecret⟩,
      by simpa using ⟨outAmount, outSecret⟩, paths, depths⟩
  · rintro ⟨present, inputs, outputs, paths, depths⟩
    simp only [List.forall_mem_cons, List.not_mem_nil, false_implies,
      implies_true, and_true] at inputs outputs
    exact ⟨⟨⟨⟨⟨present, inputs.1⟩, inputs.2⟩, outputs.1⟩, outputs.2⟩, paths,
      depths⟩

/-! ## Validation against the shape -/

/-- An array of a size is an array with that length. -/
theorem isArrayOf_iff
    (size : Nat)
    (item : Value -> Prop)
    (value : Value) :
    IsArrayOf size item value ↔
      value.optionalLength.isNumber size = true ∧ IsListOf item value := by
  constructor
  · rintro ⟨items, rfl, rfl, meets⟩
    exact ⟨by simp [Value.optionalLength, Value.isNumber], items, rfl, meets⟩
  · rintro ⟨sized, items, rfl, meets⟩
    refine ⟨items, rfl, ?_, meets⟩
    simpa [Value.optionalLength, Value.isNumber] using sized

/-- The paths are lists of single values with the two lengths. -/
theorem isPaths_iff (value : Value) :
    IsPaths value ↔
      (value.optionalLength.isNumber maxInputs = true ∧
          ∀ i < maxInputs, (value.element i).optionalLength.isNumber
            merkleTreeDepth = true) ∧
        IsListOf (IsListOf IsSingle) value := by
  rw [IsPaths, isArrayOf_iff, and_assoc]
  refine and_congr_right fun sized => ?_
  constructor
  · rintro ⟨items, rfl, meets⟩
    refine ⟨fun i within => ?_, items, rfl, fun entry member =>
      ((isArrayOf_iff _ _ _).mp (meets entry member)).2⟩
    have bound : i < items.length := by
      simp only [Value.optionalLength, Value.isNumber, beq_iff_eq,
        Number.intCast_natCast, Number.natCast_inj] at sized
      omega
    have entry : (Value.array items).element i = items[i] := by
      simp [Value.element, bound]
    rw [entry]
    exact ((isArrayOf_iff _ _ _).mp
      (meets items[i] (List.getElem_mem bound))).1
  · rintro ⟨depths, items, rfl, meets⟩
    refine ⟨items, rfl, fun entry member => ?_⟩
    rw [isArrayOf_iff]
    refine ⟨?_, meets entry member⟩
    obtain ⟨i, bound, rfl⟩ := List.mem_iff_getElem.mp member
    have within : i < maxInputs := by
      simp only [Value.optionalLength, Value.isNumber, beq_iff_eq,
        Number.intCast_natCast, Number.natCast_inj] at sized
      omega
    simpa [Value.element, bound] using depths i within

/-- A present field is read. -/
theorem hasSignal_iff
    (circuitInput : Value)
    (condition : Value -> Prop)
    (field : String) :
    HasSignal circuitInput condition field ↔
      (∃ value, circuitInput.property field = some value) ∧
        condition (signalOf circuitInput field) := by
  unfold HasSignal signalOf
  cases circuitInput.property field with
  | none => simp
  | some value => simp

/-- The shape is what the validation checks and what it does not check. -/
theorem hasShape_iff (circuitInput : Value) :
    HasShape circuitInput ↔
      PassesChecks circuitInput ∧ UncheckedShape circuitInput := by
  constructor
  · rintro ⟨root, inputs, outputs, paths⟩
    simp only [List.forall_mem_cons, List.not_mem_nil, false_implies,
      implies_true, and_true, hasSignal_iff] at root inputs outputs paths
    obtain ⟨nullifierHashes, inAmount, inSecret, inRecipient⟩ := inputs
    obtain ⟨outCommitments, outAmount, outSecret, outRecipient⟩ := outputs
    obtain ⟨inPathElements, inPathIndices⟩ := paths
    have inAmounts := (isArrayOf_iff _ _ _).mp inAmount.2
    have inSecrets := (isArrayOf_iff _ _ _).mp inSecret.2
    have outAmounts := (isArrayOf_iff _ _ _).mp outAmount.2
    have outSecrets := (isArrayOf_iff _ _ _).mp outSecret.2
    have pathElements := (isPaths_iff _).mp inPathElements.2
    constructor
    · constructor
      · simp only [requiredFields, List.forall_mem_cons, List.not_mem_nil,
          false_implies, implies_true, and_true]
        exact ⟨root.1, nullifierHashes.1, outCommitments.1, inAmount.1,
          inSecret.1, inRecipient.1, inPathElements.1, inPathIndices.1,
          outAmount.1, outSecret.1, outRecipient.1⟩
      · simpa using ⟨inAmounts.1, inSecrets.1⟩
      · simpa using ⟨outAmounts.1, outSecrets.1⟩
      · exact pathElements.1.1
      · exact pathElements.1.2
    · constructor
      · exact root.2
      · simpa using ⟨nullifierHashes.2, inRecipient.2⟩
      · simpa using ⟨outCommitments.2, outRecipient.2⟩
      · exact inPathIndices.2
      · simpa using ⟨inAmounts.2, inSecrets.2, outAmounts.2, outSecrets.2⟩
      · exact pathElements.2
  · rintro ⟨⟨present, inputs, outputs, paths, depths⟩, root, uncheckedInputs,
      uncheckedOutputs, pathIndices, lists, pathElements⟩
    simp only [requiredFields, List.forall_mem_cons, List.not_mem_nil,
      false_implies, implies_true, and_true] at present inputs outputs lists
    simp only [List.forall_mem_cons, List.not_mem_nil, false_implies,
      implies_true, and_true] at uncheckedInputs uncheckedOutputs
    obtain ⟨hasRoot, nullifierHashes, outCommitments, inAmount, inSecret,
      inRecipient, inPathElements, inPathIndices, outAmount, outSecret,
      outRecipient⟩ := present
    constructor
    · exact (hasSignal_iff _ _ _).mpr ⟨hasRoot, root⟩
    · simp only [List.forall_mem_cons, List.not_mem_nil, false_implies,
        implies_true, and_true, hasSignal_iff]
      exact ⟨⟨nullifierHashes, uncheckedInputs.1⟩,
        ⟨inAmount, (isArrayOf_iff _ _ _).mpr ⟨inputs.1, lists.1⟩⟩,
        ⟨inSecret, (isArrayOf_iff _ _ _).mpr ⟨inputs.2, lists.2.1⟩⟩,
        ⟨inRecipient, uncheckedInputs.2⟩⟩
    · simp only [List.forall_mem_cons, List.not_mem_nil, false_implies,
        implies_true, and_true, hasSignal_iff]
      exact ⟨⟨outCommitments, uncheckedOutputs.1⟩,
        ⟨outAmount, (isArrayOf_iff _ _ _).mpr ⟨outputs.1, lists.2.2.1⟩⟩,
        ⟨outSecret, (isArrayOf_iff _ _ _).mpr ⟨outputs.2, lists.2.2.2⟩⟩,
        ⟨outRecipient, uncheckedOutputs.2⟩⟩
    · simp only [List.forall_mem_cons, List.not_mem_nil, false_implies,
        implies_true, and_true, hasSignal_iff]
      exact ⟨⟨inPathElements,
          (isPaths_iff _).mpr ⟨⟨paths, depths⟩, pathElements⟩⟩,
        ⟨inPathIndices, pathIndices⟩⟩

/-- The validation accepts the input exactly when it has the shape, and what it
accepts passes the size checks. -/
structure ValidatesShape (circuitInput : Value) : Prop where
  exact : (validateCircuitInput circuitInput).valid = true ↔
    HasShape circuitInput
  passes : (validateCircuitInput circuitInput).valid = true ->
    checkSizes circuitInput = .ok ⟨⟩

/-- `count` copies of a value. -/
def copies (count : Nat) (value : Value) : Value :=
  .array (List.replicate count value)

/-- An input of the shape, but for `nullifierHashes`. -/
def inputWithNullifiers (nullifierHashes : Value) : Value :=
  .object [
    ("root", .string "0"),
    ("nullifierHashes", nullifierHashes),
    ("outCommitments", copies 4 (.string "0")),
    ("inAmount", copies 4 (.string "0")),
    ("inSecret", copies 4 (.string "0")),
    ("inRecipient", copies 4 (.string "0")),
    ("inPathElements", copies 4 (copies 20 (.string "0"))),
    ("inPathIndices", copies 4 (copies 20 (.number 0))),
    ("outAmount", copies 4 (.string "0")),
    ("outSecret", copies 4 (.string "0")),
    ("outRecipient", copies 4 (.string "0"))]

end Client
end Privachain

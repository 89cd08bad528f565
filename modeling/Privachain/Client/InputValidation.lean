import Privachain.Client.CircuitAdapter

/-!
# Validation of the circuit input

`validateCircuitInput` checks the shape of an untyped object.  The inputs that
the adapter prepares pass when the paths of their proofs have the depth of the
tree.
-/

namespace Privachain
namespace Client

open Foundation.JavaScript

/-! ## `validateCircuitInput` -/

/-- The result of `validateCircuitInput`. -/
structure Validation where
  valid : Bool
  errors : List String
  deriving DecidableEq

/-- `requiredFields` -/
def requiredFields : List String :=
  ["root", "nullifierHashes", "outCommitments", "inAmount", "inSecret",
    "inRecipient", "inPathElements", "inPathIndices", "outAmount", "outSecret",
    "outRecipient"]

/-- The errors of the fields that are missing. -/
def missingFieldErrors (circuitInput : Value) : List String :=
  requiredFields.filterMap fun field =>
    match circuitInput.property field with
    | some _ => none
    | none => some s!"Missing required field: {field}"

/-- The error of a field that does not have the number of elements. -/
def lengthErrors (value : Value) (field : String) (size : Nat) : List String :=
  if value.optionalLength.isNumber size then []
  else [s!"{field} must have exactly {size} elements"]

/-- `circuitInput.field` -/
def signalOf (circuitInput : Value) (field : String) : Value :=
  (circuitInput.property field).getD .undefined

/-- The errors of the dimensions of `inPathElements`. -/
def pathErrors (inPathElements : Value) : List String :=
  if inPathElements.optionalLength.isNumber maxInputs then
    (List.range maxInputs).flatMap fun i =>
      lengthErrors (inPathElements.element i) s!"inPathElements[{i}]"
        merkleTreeDepth
  else lengthErrors inPathElements "inPathElements" maxInputs

/-- `validateCircuitInput(circuitInput)`, on an object. -/
def validateCircuitInput (circuitInput : Value) : Validation :=
  let errors :=
    missingFieldErrors circuitInput ++
    lengthErrors (signalOf circuitInput "inAmount") "inAmount" maxInputs ++
    lengthErrors (signalOf circuitInput "inSecret") "inSecret" maxInputs ++
    lengthErrors (signalOf circuitInput "outAmount") "outAmount" maxOutputs ++
    lengthErrors (signalOf circuitInput "outSecret") "outSecret" maxOutputs ++
    pathErrors (signalOf circuitInput "inPathElements")
  { valid := errors.isEmpty, errors := errors }

/-! ## Prepared inputs -/

/-- An array of strings as a dynamic value. -/
def stringsValue (texts : List String) : Value :=
  .array (texts.map Value.string)

/-- The circuit input as a dynamic object. -/
def CircuitInput.toValue (input : CircuitInput) : Value :=
  .object [
    ("root", .string input.root),
    ("nullifierHashes", stringsValue input.nullifierHashes),
    ("outCommitments", stringsValue input.outCommitments),
    ("inAmount", stringsValue input.inAmount),
    ("inSecret", stringsValue input.inSecret),
    ("inRecipient", stringsValue input.inRecipient),
    ("inPathElements", .array (input.inPathElements.map stringsValue)),
    ("inPathIndices", .array (input.inPathIndices.map fun indices =>
      .array (indices.map Value.number))),
    ("outAmount", stringsValue input.outAmount),
    ("outSecret", stringsValue input.outSecret),
    ("outRecipient", stringsValue input.outRecipient)]

/-- An array of the expected size has no length error. -/
theorem lengthErrors_array
    (items : List Value)
    (field : String)
    (size : Nat)
    (sized : items.length = size) :
    lengthErrors (.array items) field size = [] := by
  simp [lengthErrors, Value.optionalLength, Value.isNumber, sized]

theorem lengthErrors_strings
    (texts : List String)
    (field : String)
    (size : Nat)
    (sized : texts.length = size) :
    lengthErrors (stringsValue texts) field size = [] :=
  lengthErrors_array _ field size (by rwa [List.length_map])

/-- A path array of the dimensions of the tree has no errors. -/
theorem pathErrors_eq_nil
    (paths : List (List String))
    (sized : paths.length = maxInputs)
    (deep : ∀ path ∈ paths, path.length = merkleTreeDepth) :
    pathErrors (.array (paths.map stringsValue)) = [] := by
  have counted : (Value.array (paths.map stringsValue)).optionalLength.isNumber
      maxInputs = true := by
    simp [Value.optionalLength, Value.isNumber, sized]
  rw [pathErrors, if_pos counted, List.flatMap_eq_nil_iff]
  intro i within
  have bound : i < paths.length := by
    rw [sized]
    exact List.mem_range.mp within
  have path : (Value.array (paths.map stringsValue)).element i =
      stringsValue paths[i] := by
    simp [Value.element, bound]
  rw [path]
  exact lengthErrors_strings _ _ _ (deep _ (List.getElem_mem bound))

/-- **Prepared inputs are valid** when there are few enough notes and the
paths of the proofs have the depth of the tree. -/
theorem validateCircuitInput_paddedCircuitInput
    (root : String)
    (inputNotes outputNotes : List ApplicationNote)
    (merkleProofs : List MerkleProofData)
    (nullifiers outCommitments : List String)
    (fewInputs : inputNotes.length ≤ maxInputs)
    (fewOutputs : outputNotes.length ≤ maxOutputs)
    (fewProofs : merkleProofs.length ≤ maxInputs)
    (deep : ∀ merkleProof ∈ merkleProofs,
      merkleProof.pathElements.length = merkleTreeDepth) :
    validateCircuitInput (paddedCircuitInput root inputNotes outputNotes
        merkleProofs nullifiers outCommitments).toValue =
      { valid := true, errors := [] } := by
  have padded : ∀ {size : Nat} (notes : List ApplicationNote)
      (field : ApplicationNote -> String), notes.length ≤ size ->
      (padArray (notes.map field) size "0").length = size := by
    intro size notes field few
    exact length_padArray _ _ _ (by rwa [List.length_map])
  have noPathErrors : pathErrors (.array
      ((padArray (merkleProofs.map fun p => p.pathElements) maxInputs
        emptyPath).map stringsValue)) = [] := by
    apply pathErrors_eq_nil
    · exact length_padArray _ _ _ (by rwa [List.length_map])
    · intro path member
      rw [padArray_eq_append_replicate] at member
      rcases List.mem_append.mp member with given | added
      · obtain ⟨merkleProof, isProof, rfl⟩ := List.mem_map.mp given
        exact deep merkleProof isProof
      · rw [(List.mem_replicate.mp added).2]
        exact List.length_replicate
  have noErrors : missingFieldErrors (paddedCircuitInput root inputNotes
        outputNotes merkleProofs nullifiers outCommitments).toValue ++
      lengthErrors (stringsValue (padArray (inputNotes.map fun i =>
        bigIntToString i.amount) maxInputs "0")) "inAmount" maxInputs ++
      lengthErrors (stringsValue (padArray (inputNotes.map fun i =>
        bigIntToString i.secret) maxInputs "0")) "inSecret" maxInputs ++
      lengthErrors (stringsValue (padArray (outputNotes.map fun o =>
        bigIntToString o.amount) maxOutputs "0")) "outAmount" maxOutputs ++
      lengthErrors (stringsValue (padArray (outputNotes.map fun o =>
        bigIntToString o.secret) maxOutputs "0")) "outSecret" maxOutputs ++
      pathErrors (.array ((padArray (merkleProofs.map fun p => p.pathElements)
        maxInputs emptyPath).map stringsValue)) = [] := by
    rw [noPathErrors, lengthErrors_strings _ _ _ (padded inputNotes _ fewInputs),
      lengthErrors_strings _ _ _ (padded inputNotes _ fewInputs),
      lengthErrors_strings _ _ _ (padded outputNotes _ fewOutputs),
      lengthErrors_strings _ _ _ (padded outputNotes _ fewOutputs)]
    rfl
  change Validation.mk _ _ = _
  rw [Validation.mk.injEq]
  constructor
  · exact (congrArg List.isEmpty noErrors).trans rfl
  · exact noErrors

end Client
end Privachain

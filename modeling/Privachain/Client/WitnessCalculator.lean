import Privachain.Client.InputValidation
import Privachain.Foundation.Objects
import Mathlib.Algebra.Order.BigOperators.Group.List

/-!
# The size checks of the witness calculator

`witness_calculator.js` flattens an input object under qualified names, finds the
signal of each name by a hash, and compares the number of its values with the
size that `Transaction(4, 4, 20)` declares.  All names count, not only those of
the signals.
-/

namespace Privachain
namespace Client

open Foundation
open Foundation.JavaScript

/-! ## Qualified names -/

/-- The results of `typeof`. -/
inductive TypeName
  | undefined
  | object
  | boolean
  | number
  | bigint
  | string
  deriving DecidableEq

/-- `typeof value` -/
def typeOf : Value -> TypeName
  | .undefined => .undefined
  | .null => .object
  | .boolean _ => .boolean
  | .number _ => .number
  | .bigint _ => .bigint
  | .string _ => .string
  | .array _ => .object
  | .object _ => .object

mutual

/-- `flatArray(a)` -/
def flatArray : Value -> List Value
  | .array items => flatArrays items
  | value => [value]

@[inherit_doc flatArray]
def flatArrays : List Value -> List Value
  | [] => []
  | item :: items => flatArray item ++ flatArrays items

end

/-- `input1[prefix] = input`; under the name of the prototype no own property is
set. -/
def setInput
    (pre : String)
    (input : Value)
    (input1 : List (String × Value)) : List (String × Value) :=
  if pre = "__proto__" then input1 else JSON.assign input1 (pre, input)

mutual

/-- `qualify_input_list` and, where nothing is listed, `qualify_input`. -/
def qualify
    (listed : Bool)
    (pre : String) :
    Value -> List (String × Value) -> Except Exception (List (String × Value))
  | .array items, input1 =>
      if listed then qualifyItems pre 0 items input1
      else
        match flatArrays items with
        | [] => .ok (setInput pre (.array items) input1)
        | first :: rest =>
            if rest.any fun item => typeOf item ≠ typeOf first then
              .error (.error ("Types are not the same in the key " ++ pre))
            else if typeOf first = .object then qualifyItems pre 0 items input1
            else .ok (setInput pre (.array items) input1)
  | .object fields, input1 => qualifyFields pre fields input1
  | .null, _ =>
      .error (.typeError "Cannot convert undefined or null to object")
  | value, input1 => .ok (setInput pre value input1)

/-- The loop of `qualify_input_list` -/
def qualifyItems
    (pre : String)
    (i : Nat) :
    List Value -> List (String × Value) ->
      Except Exception (List (String × Value))
  | [], input1 => .ok input1
  | item :: items, input1 => do
      let newPrefix := pre ++ "[" ++ i.repr ++ "]"
      let input1 ← qualify true newPrefix item input1
      qualifyItems pre (i + 1) items input1

/-- The loop of `qualify_input` over the keys of an object. -/
def qualifyFields
    (pre : String) :
    List (String × Value) -> List (String × Value) ->
      Except Exception (List (String × Value))
  | [], input1 => .ok input1
  | (k, value) :: fields, input1 => do
      let newPrefix := if pre = "" then k else pre ++ "." ++ k
      let input1 ← qualify false newPrefix value input1
      qualifyFields pre fields input1

end

/-- `qualify_input("", input, new Object())` -/
def qualifyInput (input : Value) : Except Exception (List (String × Value)) :=
  qualify false "" input []

/-! ## Size checks -/

/-- The sizes of the input signals that the main circuit declares. -/
def inputSignalSizes : List (String × Nat) :=
  [("root", 1), ("nullifierHashes", maxInputs), ("outCommitments", maxOutputs),
    ("inAmount", maxInputs), ("inSecret", maxInputs),
    ("inRecipient", maxInputs),
    ("inPathElements", maxInputs * merkleTreeDepth),
    ("inPathIndices", maxInputs * merkleTreeDepth), ("outAmount", maxOutputs),
    ("outSecret", maxOutputs), ("outRecipient", maxOutputs)]

/-- `fnvHash(str)` -/
def fnvHash (str : String) : BitVec 64 :=
  (codeUnits str).foldl
    (fun hash unit => (hash ^^^ BitVec.ofNat 64 unit) * 0x100000001B3)
    0xCBF29CE484222325

/-- `getInputSignalSize(hMSB, hLSB)`, which finds a signal by its hash. -/
def getInputSignalSize (hash : BitVec 64) : Int :=
  match inputSignalSizes.find? fun signal => fnvHash signal.1 = hash with
  | some signal => signal.2
  | none => -1

/-- `getInputSize()` -/
def getInputSize : Nat := (inputSignalSizes.map Prod.snd).sum

/-- The checks of one key; the result is the number of values that are set. -/
def checkSignal (k : String) (value : Value) : Except Exception Nat := do
  let fArr := flatArray value
  let signalSize := getInputSignalSize (fnvHash k)
  throwIf (signalSize < 0) (.error ("Signal " ++ k ++ " not found\n"))
  throwIf (fArr.length < signalSize)
    (.error ("Not enough values for input signal " ++ k ++ "\n"))
  throwIf (fArr.length > signalSize)
    (.error ("Too many values for input signal " ++ k ++ "\n"))
  return fArr.length

/-- The loop over the keys, with `input_counter` as accumulator. -/
def checkSignals : List (String × Value) -> Nat -> Except Exception Nat
  | [], inputCounter => .ok inputCounter
  | (k, value) :: rest, inputCounter => do
      let values ← checkSignal k value
      checkSignals rest (inputCounter + values)

/-- `_doCalculateWitness` as far as names and sizes are concerned. -/
def checkSizes (inputOrig : Value) : Except Exception PUnit := do
  let input ← qualifyInput inputOrig
  let inputCounter ← checkSignals input 0
  throwIf (inputCounter < getInputSize)
    (.error (s!"Not all inputs have been set. Only {inputCounter} out of " ++
      s!"{getInputSize}"))

/-! ## Inputs that pass -/

/-- An entry has the number of values of its signal. -/
def IsSized (entry : String × Value) : Prop :=
  getInputSignalSize (fnvHash entry.1) = (flatArray entry.2).length

/-- The calculator knows the size of every declared signal. -/
theorem getInputSignalSize_of_mem :
    ∀ signal ∈ inputSignalSizes,
      getInputSignalSize (fnvHash signal.1) = signal.2 := by
  decide +kernel

/-- A key passes exactly with the number of values of its signal. -/
theorem checkSignal_eq_ok_iff (k : String) (value : Value) (values : Nat) :
    checkSignal k value = .ok values ↔
      IsSized (k, value) ∧ values = (flatArray value).length := by
  unfold checkSignal IsSized
  simp only [bind_eq_ok_iff, returned_eq_ok_iff, throwIf_eq_ok_iff,
    exists_const]
  constructor
  · rintro ⟨found, notFewer, notMore, rfl⟩
    exact ⟨by omega, rfl⟩
  · rintro ⟨sized, rfl⟩
    exact ⟨by omega, by omega, by omega, rfl⟩

/-- The loop passes exactly with the number of values of every signal. -/
theorem checkSignals_eq_ok_iff
    (entries : List (String × Value))
    (inputCounter total : Nat) :
    checkSignals entries inputCounter = .ok total ↔
      (∀ entry ∈ entries, IsSized entry) ∧
        total = inputCounter +
          (entries.map fun entry => (flatArray entry.2).length).sum := by
  induction entries generalizing inputCounter with
  | nil => simp [checkSignals, eq_comm]
  | cons entry entries inductionHypothesis =>
      obtain ⟨k, value⟩ := entry
      rw [checkSignals, bind_eq_ok_iff, List.forall_mem_cons, List.map_cons,
        List.sum_cons]
      simp only [checkSignal_eq_ok_iff, inductionHypothesis, Nat.add_assoc]
      constructor
      · rintro ⟨_, ⟨sized, rfl⟩, others, counted⟩
        exact ⟨⟨sized, others⟩, counted⟩
      · rintro ⟨⟨sized, others⟩, counted⟩
        exact ⟨_, ⟨sized, rfl⟩, others, counted⟩

/-- An input without mixed types, whose qualified names are those of signals
with their numbers of values. -/
def OnlySignals (input : Value) : Prop :=
  ∃ entries, qualifyInput input = .ok entries ∧ ∀ entry ∈ entries, IsSized entry

/-- Every declared signal has a value. -/
def HasAllSignals (input : Value) : Prop :=
  ∀ entries, qualifyInput input = .ok entries ->
    ∀ signal ∈ inputSignalSizes, signal.1 ∈ entries.map Prod.fst

/-- The values of the entries are at least those of the declared signals. -/
theorem getInputSize_le
    {entries : List (String × Value)}
    (sized : ∀ entry ∈ entries, IsSized entry)
    (complete : ∀ signal ∈ inputSignalSizes, signal.1 ∈ entries.map Prod.fst) :
    getInputSize ≤ (entries.map fun entry => (flatArray entry.2).length).sum := by
  have distinct : inputSignalSizes.Nodup := by decide
  have included : inputSignalSizes ⊆
      entries.map fun entry => (entry.1, (flatArray entry.2).length) := by
    intro signal isSignal
    obtain ⟨entry, member, sameName⟩ :=
      List.mem_map.mp (complete signal isSignal)
    have size := sized entry member
    rw [IsSized, sameName, getInputSignalSize_of_mem signal isSignal] at size
    exact List.mem_map.mpr ⟨entry, member,
      Prod.ext sameName (Int.natCast_inj.mp size).symm⟩
  obtain ⟨kept, perm, sublist⟩ := distinct.subperm included
  have counts := (sublist.map Prod.snd).sum_le_sum fun _ _ => Nat.zero_le _
  rw [(perm.map Prod.snd).sum_eq, List.map_map] at counts
  exact counts

/-- **Size checks.**  An input with a value for every signal passes exactly if it
has only signals with their numbers of values. -/
theorem checkSizes_eq_ok_iff
    {input : Value}
    (complete : HasAllSignals input) :
    checkSizes input = .ok ⟨⟩ ↔ OnlySignals input := by
  unfold checkSizes OnlySignals
  simp only [bind_eq_ok_iff, checkSignals_eq_ok_iff, throwIf_eq_ok_iff]
  refine exists_congr fun entries => and_congr_right fun qualified => ?_
  constructor
  · rintro ⟨_, ⟨sized, _⟩, _⟩
    exact sized
  · intro sized
    have enough := getInputSize_le sized (complete entries qualified)
    exact ⟨_, ⟨sized, rfl⟩, by omega⟩

/-! ## What the qualification keeps -/

/-- Setting a value keeps the names. -/
theorem mem_setInput
    {pre name : String}
    {input1 : List (String × Value)}
    (input : Value)
    (named : name ∈ input1.map Prod.fst) :
    name ∈ (setInput pre input input1).map Prod.fst := by
  unfold setInput
  split
  · exact named
  · exact JSON.mem_map_fst_assign_of_mem named _

mutual

/-- The qualification of a value keeps the names. -/
theorem mem_qualify
    {listed : Bool}
    {pre name : String}
    (value : Value)
    {input1 result : List (String × Value)}
    (qualified : qualify listed pre value input1 = .ok result)
    (named : name ∈ input1.map Prod.fst) :
    name ∈ result.map Prod.fst := by
  match value with
  | .array items =>
      rw [qualify] at qualified
      split at qualified
      · exact mem_qualifyItems items qualified named
      · split at qualified
        · cases qualified
          exact mem_setInput _ named
        · split at qualified
          · cases qualified
          · split at qualified
            · exact mem_qualifyItems items qualified named
            · cases qualified
              exact mem_setInput _ named
  | .object fields =>
      rw [qualify] at qualified
      exact mem_qualifyFields fields qualified named
  | .null => cases qualified
  | .undefined | .boolean _ | .number _ | .bigint _ | .string _ =>
      cases qualified
      exact mem_setInput _ named
termination_by structural value

/-- The qualification of the items of an array keeps the names. -/
theorem mem_qualifyItems
    {pre name : String}
    {i : Nat}
    (items : List Value)
    {input1 result : List (String × Value)}
    (qualified : qualifyItems pre i items input1 = .ok result)
    (named : name ∈ input1.map Prod.fst) :
    name ∈ result.map Prod.fst := by
  match items with
  | [] =>
      cases qualified
      exact named
  | item :: items =>
      obtain ⟨_, first, rest⟩ := (bind_eq_ok_iff _ _ _).mp qualified
      exact mem_qualifyItems items rest (mem_qualify item first named)
termination_by structural items

/-- The qualification of the fields of an object keeps the names. -/
theorem mem_qualifyFields
    {pre name : String}
    (fields : List (String × Value))
    {input1 result : List (String × Value)}
    (qualified : qualifyFields pre fields input1 = .ok result)
    (named : name ∈ input1.map Prod.fst) :
    name ∈ result.map Prod.fst := by
  match fields with
  | [] =>
      cases qualified
      exact named
  | (_, value) :: fields =>
      obtain ⟨_, first, rest⟩ := (bind_eq_ok_iff _ _ _).mp qualified
      exact mem_qualifyFields fields rest (mem_qualify value first named)
termination_by structural fields

end

/-- A value that is set gets its name. -/
theorem mem_fst_setInput
    {pre : String}
    (ordinary : pre ≠ "__proto__")
    (input : Value)
    (input1 : List (String × Value)) :
    pre ∈ (setInput pre input input1).map Prod.fst := by
  rw [setInput, if_neg ordinary]
  exact JSON.mem_map_fst_assign input1 (pre, input)

/-- The name of a value without objects inside is set. -/
theorem mem_fst_qualify
    {pre : String}
    (ordinary : pre ≠ "__proto__")
    {value : Value}
    (plain : ∀ item ∈ flatArray value, typeOf item ≠ .object)
    {input1 result : List (String × Value)}
    (qualified : qualify false pre value input1 = .ok result) :
    pre ∈ result.map Prod.fst := by
  cases value with
  | array items =>
      change ∀ item ∈ flatArrays items, typeOf item ≠ .object at plain
      rw [qualify, if_neg Bool.false_ne_true] at qualified
      cases flat : flatArrays items with
      | nil =>
          rw [flat] at qualified
          cases qualified
          exact mem_fst_setInput ordinary _ _
      | cons first rest =>
          have notListed := plain first (flat ▸ List.mem_cons_self)
          simp only [flat, notListed, if_false] at qualified
          split at qualified
          · cases qualified
          · cases qualified
            exact mem_fst_setInput ordinary _ _
  | null => exact absurd rfl (plain .null List.mem_cons_self)
  | object fields =>
      exact absurd rfl (plain (.object fields) List.mem_cons_self)
  | _ =>
      cases qualified
      exact mem_fst_setInput ordinary _ _

/-- The names of the fields without objects inside are set. -/
theorem mem_fst_qualifyFields
    {fields : List (String × Value)}
    {name : String}
    {value : Value}
    (ordinary : name ≠ "__proto__")
    (found : fields.lookup name = some value)
    (plain : ∀ item ∈ flatArray value, typeOf item ≠ .object)
    {input1 result : List (String × Value)}
    (qualified : qualifyFields "" fields input1 = .ok result) :
    name ∈ result.map Prod.fst := by
  induction fields generalizing input1 with
  | nil => cases found
  | cons field fields inductionHypothesis =>
      obtain ⟨k, other⟩ := field
      rw [qualifyFields, if_pos rfl] at qualified
      obtain ⟨_, first, rest⟩ := (bind_eq_ok_iff _ _ _).mp qualified
      by_cases same : name = k
      · subst same
        rw [List.lookup_cons_self] at found
        cases found
        exact mem_qualifyFields fields rest (mem_fst_qualify ordinary plain first)
      · rw [List.lookup_cons, beq_false_of_ne same] at found
        exact inductionHypothesis found rest

/-! ## Uniform values -/

/-- The values of a signal are of one type, which is not that of objects. -/
def IsUniform (value : Value) : Prop :=
  ∃ type, type ≠ TypeName.object ∧ ∀ item ∈ flatArray value, typeOf item = type

/-- A uniform value is set under its own name. -/
theorem qualify_of_isUniform
    {value : Value}
    (uniform : IsUniform value)
    (pre : String)
    (input1 : List (String × Value)) :
    qualify false pre value input1 = .ok (setInput pre value input1) := by
  obtain ⟨type, notObject, ofType⟩ := uniform
  cases value with
  | array items =>
      change ∀ item ∈ flatArrays items, typeOf item = type at ofType
      rw [qualify, if_neg Bool.false_ne_true]
      cases flat : flatArrays items with
      | nil => rfl
      | cons first rest =>
          rw [flat, List.forall_mem_cons] at ofType
          have same : ¬ (rest.any fun item => typeOf item ≠ typeOf first) := by
            simpa [ofType.1] using ofType.2
          have notListed : typeOf first ≠ .object := ofType.1.symm ▸ notObject
          exact (if_neg same).trans (if_neg notListed)
  | null => exact absurd (ofType .null List.mem_cons_self).symm notObject
  | object fields =>
      exact absurd (ofType (.object fields) List.mem_cons_self).symm notObject
  | _ => rfl

/-- The entries of fields with uniform values are among the fields. -/
theorem qualifyFields_of_isUniform
    {fields : List (String × Value)}
    (uniform : ∀ field ∈ fields, IsUniform field.2)
    (input1 : List (String × Value)) :
    ∃ result, qualifyFields "" fields input1 = .ok result ∧
      ∀ entry ∈ result, entry ∈ input1 ∨ entry ∈ fields := by
  induction fields generalizing input1 with
  | nil => exact ⟨input1, rfl, fun _ member => .inl member⟩
  | cons field fields inductionHypothesis =>
      obtain ⟨k, value⟩ := field
      rw [List.forall_mem_cons] at uniform
      obtain ⟨result, qualified, entries⟩ :=
        inductionHypothesis uniform.2 (setInput k value input1)
      refine ⟨result, ?_, fun entry member => ?_⟩
      · rw [qualifyFields, if_pos rfl, qualify_of_isUniform uniform.1]
        exact qualified
      · rcases entries entry member with earlier | later
        · unfold setInput at earlier
          split at earlier
          · exact .inl earlier
          · rcases JSON.mem_assign earlier with rfl | old
            · exact .inr List.mem_cons_self
            · exact .inl old
        · exact .inr (List.mem_cons_of_mem _ later)

end Client
end Privachain

import Privachain.Foundation.Numbers
import Privachain.Generator.SignalTable

/-!
# The input file of the witness generator

`main.cpp` flattens a document into entries with qualified names, reads the
numbers of every entry, and sets the input signals.  A result needs one entry
for every input signal, whatever their order, and no others but empty ones that
hash to zero.
-/

namespace Privachain
namespace Generator

open Foundation Circuit
open FrElement (slot str2element)

/-! ## Documents -/

/-- `nlohmann::json`, where the two types of integers are one. -/
inductive Json
  | null
  | boolean (value : Bool)
  | integer (value : Int)
  | float (value : Number)
  | string (text : Bytes)
  | array (items : List Json)
  | object (members : List (Bytes × Json))

/-- The types that `check_type` tells apart. -/
inductive ValueType
  | null
  | object
  | boolean
  | numberInteger
  | numberFloat
  deriving DecidableEq

/-- A text as `c_str()` ends it. -/
def cString (text : Bytes) : Bytes := text.takeWhile (· ≠ 0)

/-- The characters of a text. -/
def characters (text : Bytes) : List Char :=
  text.map fun c => Char.ofNat c.toNat

/-- `in1[prefix] = in` on a map, whose keys are in their order. -/
def assign
    (key : Bytes)
    (value : Json) : List (Bytes × Json) -> List (Bytes × Json)
  | [] => [(key, value)]
  | (other, old) :: entries =>
      if key = other then (key, value) :: entries
      else if key < other then (key, value) :: (other, old) :: entries
      else (other, old) :: assign key value entries

/-! ## Numbers -/

/-- `check_valid_number` -/
def checkValidNumber (s : Bytes) (base : Nat) : Bool :=
  if base = 16 then
    s.all fun c =>
      48 ≤ c.toInt && c.toInt ≤ 57 || 97 ≤ c.toInt && c.toInt ≤ 102 ||
        65 ≤ c.toInt && c.toInt ≤ 70
  else s.all fun c => 48 ≤ c.toInt && c.toInt < 48 + base

/-- The digits of a text and their base. -/
def splitPrefix (sAux : Bytes) : Bytes × Nat :=
  let possiblePrefix := sAux.take 2
  if possiblePrefix = bytes "0b" ∨ possiblePrefix = bytes "0B" then
    (sAux.drop 2, 2)
  else if possiblePrefix = bytes "0o" ∨ possiblePrefix = bytes "0O" then
    (sAux.drop 2, 8)
  else if possiblePrefix = bytes "0x" ∨ possiblePrefix = bytes "0X" then
    (sAux.drop 2, 16)
  else (sAux, 10)

/-- What `json2FrElements` makes of a text. -/
def readText (sAux : Bytes) : Except Failure FrElement :=
  let (s, base) := splitPrefix sAux
  if !checkValidNumber s base then
    .error (.runtimeError
      (bytes "Invalid number in JSON input: " ++ sAux ++ bytes "\n"))
  else .ok (str2element slot (characters s) base)

/-- A `double` in fixed notation without decimals. -/
def fixedText : Number -> List Char
  | .finite value =>
      (if value < 0 then ['-'] else []) ++
        (Number.roundTiesToEven |value|).natAbs.repr.toList
  | .infinite negative => (if negative then ['-'] else []) ++ "inf".toList
  | .notANumber => "nan".toList

mutual

/-- `json2FrElements` -/
def json2FrElements : Json -> Except Failure (List FrElement)
  | .array items => items2FrElements items
  | .string sAux => do
      let v <- readText sAux
      return [v]
  | .integer value =>
      .ok [str2element slot (fixedText (Number.ofRational value)) 10]
  | .float vd => .ok [str2element slot (fixedText vd) 10]
  | .null => .error (.runtimeError (bytes "Invalid JSON type\n"))
  | .boolean _ => .error (.runtimeError (bytes "Invalid JSON type\n"))
  | .object _ => .error (.runtimeError (bytes "Invalid JSON type\n"))

/-- The loop of `json2FrElements` over the items of an array. -/
def items2FrElements : List Json -> Except Failure (List FrElement)
  | [] => .ok []
  | item :: items => do
      let first <- json2FrElements item
      let rest <- items2FrElements items
      return first ++ rest

end

/-! ## Qualified names -/

mutual

/-- `check_type` -/
def checkType (pre : Bytes) : Json -> Except Failure ValueType
  | .array [] => .ok .null
  | .array (first :: rest) => do
      let t <- checkType pre first
      checkTypes pre t rest
  | .integer _ => .ok .numberInteger
  | .string _ => .ok .numberInteger
  | .float _ => .ok .numberFloat
  | .null => .ok .null
  | .boolean _ => .ok .boolean
  | .object _ => .ok .object

/-- The loop of `check_type` over the items after the first. -/
def checkTypes
    (pre : Bytes)
    (t : ValueType) : List Json -> Except Failure ValueType
  | [] => .ok t
  | item :: items => do
      let other <- checkType pre item
      if t ≠ other then
        .error (.aborted
          (bytes "Types are not the same in the key " ++ cString pre ++
            bytes "\n"))
      else checkTypes pre t items

end

mutual

/-- `qualify_input_list` and, where nothing is listed, `qualify_input`. -/
def qualify
    (listed : Bool)
    (pre : Bytes) : Json -> List (Bytes × Json) ->
      Except Failure (List (Bytes × Json))
  | .array items, in1 =>
      if listed then qualifyItems pre 0 items in1
      else if items.length > 0 then do
        let t <- checkType pre (.array items)
        if t = .object then qualifyItems pre 0 items in1
        else .ok (assign pre (.array items) in1)
      else .ok (assign pre (.array items) in1)
  | .object members, in1 => qualifyMembers pre members in1
  | .null, in1 => .ok (assign pre .null in1)
  | .boolean value, in1 => .ok (assign pre (.boolean value) in1)
  | .integer value, in1 => .ok (assign pre (.integer value) in1)
  | .float value, in1 => .ok (assign pre (.float value) in1)
  | .string text, in1 => .ok (assign pre (.string text) in1)

/-- The loop of `qualify_input_list` -/
def qualifyItems
    (pre : Bytes)
    (i : Nat) : List Json -> List (Bytes × Json) ->
      Except Failure (List (Bytes × Json))
  | [], in1 => .ok in1
  | item :: items, in1 => do
      let newPrefix := pre ++ bytes "[" ++ bytes i.repr ++ bytes "]"
      let in1 <- qualify true newPrefix item in1
      qualifyItems pre (i + 1) items in1

/-- The loop of `qualify_input` over the members of an object. -/
def qualifyMembers
    (pre : Bytes) : List (Bytes × Json) -> List (Bytes × Json) ->
      Except Failure (List (Bytes × Json))
  | [], in1 => .ok in1
  | (key, value) :: members, in1 => do
      let newPrefix := if pre.length = 0 then key else pre ++ bytes "." ++ key
      let in1 <- qualify false newPrefix value in1
      qualifyMembers pre members in1

end

/-- `qualify_input` -/
def qualifyInput (pre : Bytes) (input : Json) (in1 : List (Bytes × Json)) :
    Except Failure (List (Bytes × Json)) :=
  qualify false pre input in1

/-! ## Loading -/

section Setting

variable (poseidon : List FrElement -> Option FrElement)

/-- The loop of `loadJson` over the values of an entry, from an index on. -/
def setValues
    (key : Bytes)
    (h : Word) : Nat -> List FrElement -> CalcWit -> Except Failure CalcWit
  | _, [], ctx => .ok ctx
  | i, value :: v, ctx =>
      match setInputSignal poseidon ctx h i value with
      | .ok ctx => setValues key h (i + 1) v ctx
      | .error (.runtimeError what) =>
          .error (.runtimeError
            (bytes "Error setting signal: " ++ key ++ bytes "\n" ++ what))
      | .error failure => .error failure

/-- The loop of `loadJson` over the entries. -/
def loadEntries :
    List (Bytes × Json) -> CalcWit -> Except Failure CalcWit
  | [], ctx => .ok ctx
  | (key, value) :: entries, ctx => do
      let h := fnv1a key
      let v <- json2FrElements value
      let signalSize <- getInputSignalSize h
      if v.length < signalSize then
        .error (.runtimeError
          (bytes "Error loading signal " ++ key ++ bytes ": Not enough values\n"))
      else if v.length > signalSize then
        .error (.runtimeError
          (bytes "Error loading signal " ++ key ++ bytes ": Too many values\n"))
      else do
        let ctx <- setValues poseidon key h 0 v ctx
        loadEntries entries ctx

/-- `loadJson` on the document that was read. -/
def loadJson (ctx : CalcWit) (jin : Json) : Except Failure CalcWit := do
  let j <- qualifyInput [] jin []
  let ctx <- if j.length = 0 then tryRunCircuit poseidon ctx else .ok ctx
  loadEntries poseidon j ctx

/-- The check of `main` that every input has been set. -/
def checkComplete (ctx : CalcWit) : Except Failure CalcWit :=
  if ctx.inputSignalAssignedCounter ≠ 0 then
    .error (.aborted
      (bytes "Not all inputs have been set. Only " ++
        bytes (getMainInputSignalNo - ctx.inputSignalAssignedCounter).repr ++
        bytes " out of " ++ bytes getMainInputSignalNo.repr ++ bytes "\n"))
  else .ok ctx

/-- `main` from the loading of the document to the writing of the witness. -/
def generate
    (memory : Nat -> FrElement)
    (jin : Json) : Except Failure CalcWit := do
  let ctx <- loadJson poseidon (CalcWit.new memory) jin
  checkComplete ctx

end Setting

end Generator
end Privachain

import Privachain.Foundation.Doubles
import Mathlib.Data.List.Basic
import Mathlib.Data.List.Forall2
import Mathlib.Logic.Basic

/-!
# Fragments of the JavaScript language

Thrown errors, texts that hold JSON, the conversion `BigInt(string)` of the
language standard, and the decimal output of big integers, which that conversion
inverts.  Traversals that may throw are described by the relation between their
inputs and results.
-/

namespace Foundation

universe u v w

/-! ## Computations that may throw -/

section Traversal

variable {ε : Type u} {α : Type v} {β : Type u}

/-- A sequenced computation returns exactly when both of its steps do. -/
theorem bind_eq_ok_iff
    {α β : Type u}
    (first : Except ε α)
    (next : α -> Except ε β)
    (result : β) :
    first >>= next = .ok result ↔
      ∃ value, first = .ok value ∧ next value = .ok result := by
  cases first with
  | error message => simp [bind, Except.bind]
  | ok value => simp [bind, Except.bind]

/-- A returned value is the only result. -/
theorem returned_eq_ok_iff
    (returned result : α) :
    (pure returned : Except ε α) = .ok result ↔ result = returned := by
  change Except.ok returned = .ok result ↔ _
  rw [Except.ok.injEq, eq_comm]

/-- `if (condition) throw exception` -/
def throwIf
    (condition : Prop) [Decidable condition]
    (exception : ε) : Except ε Unit :=
  if condition then .error exception else .ok ()

/-- A guard returns exactly when its condition fails. -/
theorem throwIf_eq_ok_iff
    (condition : Prop) [Decidable condition]
    (exception : ε)
    (value : Unit) :
    throwIf condition exception = .ok value ↔ ¬condition := by
  by_cases holds : condition <;> simp [throwIf, holds]

/-- A traversal returns the list of the results of its elements. -/
theorem mapM_eq_ok_iff
    (function : α -> Except ε β)
    (inputs : List α)
    (results : List β) :
    inputs.mapM function = .ok results ↔
      List.Forall₂ (fun input result => function input = .ok result)
        inputs results := by
  induction inputs generalizing results with
  | nil => simp [pure, Except.pure, eq_comm]
  | cons input inputs inductionHypothesis =>
      rw [List.mapM_cons, bind_eq_ok_iff, List.forall₂_cons_left_iff]
      constructor
      · rintro ⟨head, headReturns, rest⟩
        obtain ⟨tail, tailReturns, equal⟩ := (bind_eq_ok_iff _ _ _).mp rest
        exact ⟨head, tail, headReturns, (inductionHypothesis tail).mp tailReturns,
          (returned_eq_ok_iff _ _).mp equal⟩
      · rintro ⟨head, tail, headReturns, tailReturns, rfl⟩
        refine ⟨head, headReturns, (bind_eq_ok_iff _ _ _).mpr ⟨tail, ?_, rfl⟩⟩
        exact (inductionHypothesis tail).mpr tailReturns

/-- Results that are values of their inputs. -/
theorem forall₂_value_iff
    (value : α -> β)
    (inputs : List α)
    (results : List β) :
    List.Forall₂ (fun input result => result = value input) inputs results ↔
      results = inputs.map value := by
  induction inputs generalizing results with
  | nil => simp
  | cons input inputs inductionHypothesis =>
      simp [List.forall₂_cons_left_iff, inductionHypothesis]

/-- A traversal whose elements have a value under a condition. -/
theorem mapM_eq_ok_iff_of_iff
    {function : α -> Except ε β}
    {condition : α -> Prop}
    {value : α -> β}
    (each : ∀ input result,
      function input = .ok result ↔ condition input ∧ result = value input)
    (inputs : List α)
    (results : List β) :
    inputs.mapM function = .ok results ↔
      (∀ input ∈ inputs, condition input) ∧ results = inputs.map value := by
  rw [mapM_eq_ok_iff]
  simp only [each, List.forall₂_and_left, forall₂_value_iff]

/-- Every element of a list is related to some element of the other. -/
theorem exists_related_of_mem
    {relation : α -> β -> Prop}
    {inputs : List α}
    {results : List β}
    (related : List.Forall₂ relation inputs results)
    {input : α}
    (member : input ∈ inputs) :
    ∃ result ∈ results, relation input result := by
  induction related with
  | nil => cases member
  | cons first _ inductionHypothesis =>
      rcases List.mem_cons.mp member with rfl | later
      · exact ⟨_, List.mem_cons_self, first⟩
      · obtain ⟨result, isResult, isRelated⟩ := inductionHypothesis later
        exact ⟨result, List.mem_cons_of_mem _ isResult, isRelated⟩

/-- A traversal that returns does so on every element. -/
theorem returns_of_mapM
    {function : α -> Except ε β}
    {inputs : List α}
    {results : List β}
    (returns : inputs.mapM function = .ok results) :
    ∀ input ∈ inputs, ∃ result, function input = .ok result := by
  intro input member
  obtain ⟨result, _, returnsResult⟩ :=
    exists_related_of_mem ((mapM_eq_ok_iff _ _ _).mp returns) member
  exact ⟨result, returnsResult⟩

/-- Conditions that agree on related elements hold of both lists or of
neither. -/
theorem forall_mem_iff_of_forall₂
    {relation : α -> β -> Prop}
    {onInput : α -> Prop}
    {onResult : β -> Prop}
    (agree : ∀ input result, relation input result ->
      (onInput input ↔ onResult result))
    {inputs : List α}
    {results : List β}
    (related : List.Forall₂ relation inputs results) :
    (∀ input ∈ inputs, onInput input) ↔
      ∀ result ∈ results, onResult result := by
  induction related with
  | nil => simp
  | cons first _ inductionHypothesis =>
      rw [List.forall_mem_cons, List.forall_mem_cons, agree _ _ first,
        inductionHypothesis]

/-- A traversal that returns has the results of its elements. -/
theorem filterMap_of_mapM
    {function : α -> Except ε β}
    {inputs : List α}
    {results : List β}
    (returns : inputs.mapM function = .ok results) :
    inputs.filterMap (fun input => (function input).toOption) = results := by
  induction (mapM_eq_ok_iff _ _ _).mp returns with
  | nil => rfl
  | cons first rest inductionHypothesis =>
      have found := inductionHypothesis ((mapM_eq_ok_iff _ _ _).mpr rest)
      rw [List.filterMap_cons, first, found]
      rfl

/-- Elements that a change keeps are among the changed ones, in their order. -/
theorem filter_sublist_map
    {keep : α -> Bool}
    {change : α -> α}
    {inputs : List α}
    (kept : ∀ input ∈ inputs, keep input = true -> change input = input) :
    (inputs.filter keep).Sublist (inputs.map change) := by
  have same : (inputs.filter keep).map change = inputs.filter keep := by
    rw [List.map_congr_left fun input member => kept input
      (List.mem_of_mem_filter member) (List.mem_filter.mp member).2]
    exact List.map_id' _
  rw [← same]
  exact List.filter_sublist.map change

/-- A traversal returns when it returns on every element. -/
theorem mapM_returns
    {function : α -> Except ε β}
    {inputs : List α}
    (returns : ∀ input ∈ inputs, ∃ result, function input = .ok result) :
    ∃ results, inputs.mapM function = .ok results := by
  induction inputs with
  | nil => exact ⟨[], rfl⟩
  | cons input inputs inductionHypothesis =>
      obtain ⟨head, headReturns⟩ := returns input List.mem_cons_self
      obtain ⟨tail, tailReturns⟩ := inductionHypothesis
        fun other member => returns other (List.mem_cons_of_mem input member)
      refine ⟨head :: tail, (mapM_eq_ok_iff _ _ _).mpr ?_⟩
      exact .cons headReturns ((mapM_eq_ok_iff _ _ _).mp tailReturns)

/-- Traversals of related lists return the same. -/
theorem mapM_eq_of_forall₂
    {γ : Type w}
    {function : α -> Except ε β}
    {other : γ -> Except ε β}
    {inputs : List α}
    {others : List γ}
    (same : List.Forall₂ (fun input counterpart =>
      function input = other counterpart) inputs others) :
    inputs.mapM function = others.mapM other := by
  induction same with
  | nil => rfl
  | cons first _ inductionHypothesis =>
      rw [List.mapM_cons, List.mapM_cons, first, inductionHypothesis]

end Traversal

namespace JavaScript

/-- The thrown values with their messages. -/
inductive Exception
  | error (message : String)
  | syntaxError (message : String)
  | typeError (message : String)
  | rangeError (message : String)
  deriving DecidableEq

/-! ## Optional properties and stored texts -/

/-- A property that is absent, `null` or a value. -/
inductive Optional (α : Type u)
  | undefined
  | null
  | value (present : α)
  deriving DecidableEq

/-- A text read as JSON, by what `JSON.parse` makes of it: a value, or a thrown
exception for a text that holds none. -/
abbrev JsonText (α : Type u) := Except Exception α

namespace JSON

variable {α : Type u}

/-- `JSON.stringify(value)` -/
def stringify (value : α) : JsonText α := .ok value

/-- `JSON.parse(text)` -/
def parse (text : JsonText α) : Except Exception α := text

@[simp] theorem parse_stringify (value : α) :
    parse (stringify value) = .ok value := rfl

end JSON

/-! ## Strings -/

/-- The character that stands for a code unit.  One half of a surrogate pair is no
character; the last 2048 private characters stand for the halves, and no text is
taken to hold these characters themselves. -/
def charOfUnit (unit : Nat) : Char :=
  if 0xD800 ≤ unit ∧ unit < 0xE000 then Char.ofNat (0x102000 + unit)
  else Char.ofNat unit

/-- The character stands for the first half of a surrogate pair. -/
def isHighSurrogate (c : Char) : Bool :=
  0x10F800 ≤ c.toNat && c.toNat < 0x10FC00

/-- The character stands for the second half of a surrogate pair. -/
def isLowSurrogate (c : Char) : Bool :=
  0x10FC00 ≤ c.toNat

/-- The character of a surrogate pair. -/
def pairedChar (high low : Char) : Char :=
  Char.ofNat
    (0x10000 + (high.toNat - 0x10F800) * 0x400 + (low.toNat - 0x10FC00))

/-- The code units of a character: the half that it stands for, its own one, or
those of its surrogate pair. -/
def unitsOf (c : Char) : List Nat :=
  if 0x10F800 ≤ c.toNat then [c.toNat - 0x102000]
  else if c.toNat < 0x10000 then [c.toNat]
  else
    [0xD800 + (c.toNat - 0x10000) / 0x400, 0xDC00 + (c.toNat - 0x10000) % 0x400]

/-- The UTF-16 code units of a text, which `charCodeAt` reads. -/
def codeUnits (text : String) : List Nat :=
  text.toList.flatMap unitsOf

/-! ## Dynamic values -/

/-- A value as code without static types sees it.  The finite numbers that a
program computes or reads are doubles.  The characters of a string stand for its
code units. -/
inductive Value
  | undefined
  | null
  | boolean (value : Bool)
  | number (value : Number)
  | bigint (value : Int)
  | string (text : String)
  | array (items : List Value)
  | object (fields : List (String × Value))

namespace Value

/-- The own property of an object, by its name. -/
def property (value : Value) (name : String) : Option Value :=
  match value with
  | .object fields => fields.lookup name
  | _ => none

/-- `value[index]`, on objects by the decimal name of the index. -/
def element (value : Value) (index : Nat) : Value :=
  match value with
  | .string text => (((codeUnits text)[index]?).map fun unit =>
      Value.string (String.singleton (charOfUnit unit))).getD .undefined
  | .array items => items[index]?.getD .undefined
  | .object fields => (fields.lookup (toString index)).getD .undefined
  | _ => .undefined

/-- `value?.length` -/
def optionalLength : Value -> Value
  | .string text => .number (codeUnits text).length
  | .array items => .number items.length
  | .object fields => (fields.lookup "length").getD .undefined
  | _ => .undefined

/-- `value === number` -/
def isNumber (value : Value) (expected : Int) : Bool :=
  match value with
  | .number actual => actual == expected
  | _ => false

/-- `ToBoolean(value)`: every object is truthy, an array too. -/
def truthy : Value -> Bool
  | .undefined => false
  | .null => false
  | .boolean value => value
  | .number value => value.truthy
  | .bigint value => value != 0
  | .string text => text != ""
  | .array _ => true
  | .object _ => true

/-- An integer as a number of the program: itself, if it is a double. -/
def ofInt (value : Int) : Value :=
  .number (.finite (Number.nearestFinite value))

@[simp] theorem truthy_object (fields : List (String × Value)) :
    (Value.object fields).truthy = true := rfl

end Value

/-! ## 32-bit integers -/

/-- `ToInt32(value)` on integers. -/
def toInt32 (value : Int) : Int := value.bmod 4294967296

/-! ## Promises -/

/-- The state of a promise. -/
inductive Promise (α : Type u)
  | pending
  | fulfilled (value : α)
  | rejected (reason : Exception)
  deriving DecidableEq

namespace Promise

variable {α : Type u}

/-- `resolve(value)`: only a pending promise is settled. -/
def resolve (value : α) : Promise α -> Promise α
  | .pending => .fulfilled value
  | .fulfilled earlier => .fulfilled earlier
  | .rejected reason => .rejected reason

/-- `reject(reason)`: only a pending promise is settled. -/
def reject (reason : Exception) : Promise α -> Promise α
  | .pending => .rejected reason
  | .fulfilled value => .fulfilled value
  | .rejected earlier => .rejected earlier

end Promise

/-! ## `BigInt(string)` -/

/-- White space and line terminators, as trimmed by `StringToBigInt`. -/
def isWhiteSpace (c : Char) : Bool :=
  [0x09, 0x0A, 0x0B, 0x0C, 0x0D, 0x20, 0xA0, 0x1680, 0x2028, 0x2029, 0x202F,
    0x205F, 0x3000, 0xFEFF].contains c.toNat ||
      (0x2000 ≤ c.toNat && c.toNat ≤ 0x200A)

/-- Remove white space at both ends. -/
def trim (text : List Char) : List Char :=
  ((text.dropWhile isWhiteSpace).reverse.dropWhile isWhiteSpace).reverse

/-- The value of a digit below the radix; letters stand for ten and above. -/
def digitValue (radix : Nat) (c : Char) : Option Nat :=
  if c.isDigit && c.toNat - 48 < radix then some (c.toNat - 48)
  else if 97 ≤ c.toNat && c.toNat - 87 < radix then some (c.toNat - 87)
  else if 65 ≤ c.toNat && c.toNat ≤ 90 && c.toNat - 55 < radix then
    some (c.toNat - 55)
  else none

/-- The value of a list of digits, read onto the value of the digits before. -/
def digitsValue (radix : Nat) : Nat -> List Char -> Option Nat
  | value, [] => some value
  | value, c :: text =>
      match digitValue radix c with
      | none => none
      | some digit => digitsValue radix (radix * value + digit) text

/-- A non-empty list of digits. -/
def parseDigits (radix : Nat) (text : List Char) : Option Nat :=
  if text.isEmpty then none else digitsValue radix 0 text

/-- `StringToBigInt` on trimmed text: the empty text is zero, a radix prefix
excludes a sign, and separators are not allowed. -/
def parseTrimmed : List Char -> Option Int
  | [] => some 0
  | '0' :: 'x' :: text => (parseDigits 16 text).map Int.ofNat
  | '0' :: 'X' :: text => (parseDigits 16 text).map Int.ofNat
  | '0' :: 'o' :: text => (parseDigits 8 text).map Int.ofNat
  | '0' :: 'O' :: text => (parseDigits 8 text).map Int.ofNat
  | '0' :: 'b' :: text => (parseDigits 2 text).map Int.ofNat
  | '0' :: 'B' :: text => (parseDigits 2 text).map Int.ofNat
  | '+' :: text => (parseDigits 10 text).map Int.ofNat
  | '-' :: text => (parseDigits 10 text).map fun value => -Int.ofNat value
  | text => (parseDigits 10 text).map Int.ofNat

/-- `StringToBigInt`; `none` where `BigInt(string)` throws. -/
def stringToBigInt (text : String) : Option Int :=
  parseTrimmed (trim text.toList)

/-- `BigInt(string)` -/
def bigIntOfString (text : String) : Except Exception Int :=
  match stringToBigInt text with
  | some value => .ok value
  | none => .error (.syntaxError s!"Cannot convert {text} to a BigInt")

/-- `BigInt.prototype.toString()` -/
def bigIntToString (value : Int) : String :=
  value.repr

example : stringToBigInt " 0x1F\n" = some 31 := by decide
example : stringToBigInt "-0x1" = none := by decide

/-! ## Decimal output is read back -/

/-- A decimal digit is not white space. -/
theorem isWhiteSpace_of_isDigit {c : Char} (digit : c.isDigit = true) :
    isWhiteSpace c = false := by
  have lower : 48 ≤ c.toNat := by
    simp only [Char.isDigit, Bool.and_eq_true, decide_eq_true_eq] at digit
    exact digit.1
  have upper : c.toNat ≤ 57 := by
    simp only [Char.isDigit, Bool.and_eq_true, decide_eq_true_eq] at digit
    exact digit.2
  simp only [isWhiteSpace, List.contains_cons, List.contains_nil,
    Bool.or_eq_false_iff, Bool.and_eq_false_iff, beq_eq_false_iff_ne,
    decide_eq_false_iff_not, and_true]
  omega

/-- Text without white space is its own trimming. -/
theorem trim_eq_self
    {text : List Char}
    (noWhiteSpace : ∀ c ∈ text, isWhiteSpace c = false) :
    trim text = text := by
  have dropWhile_eq_self : ∀ {text : List Char},
      (∀ c ∈ text, isWhiteSpace c = false) ->
        text.dropWhile isWhiteSpace = text := by
    intro text noWhiteSpace
    cases text with
    | nil => rfl
    | cons c text => simp [noWhiteSpace c]
  rw [trim, dropWhile_eq_self noWhiteSpace, dropWhile_eq_self,
    List.reverse_reverse]
  intro c member
  exact noWhiteSpace c (List.mem_reverse.mp member)

/-- Decimal digits are read as the language core reads them. -/
theorem digitsValue_ten
    {text : List Char}
    (digits : ∀ c ∈ text, c.isDigit = true)
    (value : Nat) :
    digitsValue 10 value text = some (Nat.ofDigitChars 10 text value) := by
  induction text generalizing value with
  | nil => rw [digitsValue, Nat.ofDigitChars_nil]
  | cons c text inductionHypothesis =>
      have digit : c.isDigit = true := digits c (by simp)
      have small : c.toNat - 48 < 10 := by
        simp only [Char.isDigit, Bool.and_eq_true, decide_eq_true_eq] at digit
        have upper : c.toNat ≤ 57 := digit.2
        omega
      have digitEquality : digitValue 10 c = some (c.toNat - 48) := by
        simp [digitValue, digit, small]
      rw [digitsValue, digitEquality, Nat.ofDigitChars_cons]
      exact inductionHypothesis (fun c member => digits c (by simp [member])) _

/-- The decimal digits of a number are read back. -/
theorem parseDigits_toDigits (n : Nat) :
    parseDigits 10 (Nat.toDigits 10 n) = some n := by
  have digits : ∀ c ∈ Nat.toDigits 10 n, c.isDigit = true := fun _ member =>
    Nat.isDigit_of_mem_toDigits (by decide) (by decide) member
  rw [parseDigits, digitsValue_ten digits, Nat.ofDigitChars_ten_toDigits]
  simp [Nat.toDigits_ne_nil]

/-- Text of decimal digits has neither a sign nor a radix prefix. -/
theorem parseTrimmed_of_digits
    {text : List Char}
    (digits : ∀ c ∈ text, c.isDigit = true)
    (nonempty : text ≠ []) :
    parseTrimmed text = (parseDigits 10 text).map Int.ofNat := by
  unfold parseTrimmed
  split
  · exact absurd rfl nonempty
  all_goals first
    | rfl
    | simp at digits

/-- Reading the decimal output of a natural number gives it back. -/
theorem stringToBigInt_repr (n : Nat) :
    stringToBigInt n.repr = some (n : Int) := by
  have digits : ∀ c ∈ Nat.toDigits 10 n, c.isDigit = true := fun _ member =>
    Nat.isDigit_of_mem_toDigits (by decide) (by decide) member
  rw [stringToBigInt, Nat.toList_repr,
    trim_eq_self fun c member => isWhiteSpace_of_isDigit (digits c member),
    parseTrimmed_of_digits digits Nat.toDigits_ne_nil, parseDigits_toDigits]
  rfl

/-- **Round trip.**  Reading the decimal output of an integer gives it back. -/
theorem stringToBigInt_bigIntToString (value : Int) :
    stringToBigInt (bigIntToString value) = some value := by
  cases value with
  | ofNat n => exact stringToBigInt_repr n
  | negSucc n =>
      have digits : ∀ c ∈ Nat.toDigits 10 (n + 1), c.isDigit = true :=
        fun _ member =>
          Nat.isDigit_of_mem_toDigits (by decide) (by decide) member
      have text : (bigIntToString (Int.negSucc n)).toList =
          '-' :: Nat.toDigits 10 (n + 1) := by
        simp [bigIntToString, Int.repr, String.toList_append]
      rw [stringToBigInt, text, trim_eq_self]
      · rw [parseTrimmed, parseDigits_toDigits]
        rfl
      · intro c member
        rcases List.mem_cons.mp member with rfl | isDigit
        · decide
        · exact isWhiteSpace_of_isDigit (digits c isDigit)

end JavaScript

end Foundation

import Privachain.Foundation.Doubles
import Privachain.Foundation.Objects

/-!
# Conversions to numbers

Texts and other values are converted to numbers of double precision.
-/

namespace Foundation
namespace JavaScript

/-! ## Texts -/

/-- The number behind the digits of a text; the rest of it is not read. -/
def leadingDigits (negative : Bool) (text : List Char) : Number :=
  let digits := text.takeWhile Char.isDigit
  let magnitude : ℚ := Nat.ofDigitChars 10 digits 0
  if digits = [] then .notANumber
  else .ofRational (if negative then -magnitude else magnitude)

/-- `parseInt(text, 10)` -/
def parseInt (text : String) : Number :=
  match text.toList.dropWhile isWhiteSpace with
  | '-' :: digits => leadingDigits true digits
  | '+' :: digits => leadingDigits false digits
  | digits => leadingDigits false digits

/-- `StrUnsignedDecimalLiteral`: digits with a point and an exponent. -/
def unsignedDecimal (text : List Char) : Option ℚ :=
  let whole := text.takeWhile Char.isDigit
  let (places, rest) :=
    match text.dropWhile Char.isDigit with
    | '.' :: rest => (rest.takeWhile Char.isDigit, rest.dropWhile Char.isDigit)
    | rest => ([], rest)
  if whole ++ places = [] then none
  else
    match JSON.readExponent rest with
    | some (exponent, []) =>
        some ((Nat.ofDigitChars 10 (whole ++ places) 0 : ℚ) *
          10 ^ (exponent - places.length))
    | _ => none

/-- A decimal literal without its sign; the only name in it is that of the
infinite number. -/
def decimalNumber (negative : Bool) (text : List Char) : Number :=
  if text = "Infinity".toList then .infinite negative
  else
    match unsignedDecimal text with
    | some magnitude =>
        .ofRational (if negative then -magnitude else magnitude)
    | none => .notANumber

/-- A literal with the digits of a radix. -/
def radixNumber (radix : Nat) (text : List Char) : Number :=
  match parseDigits radix text with
  | some value => .ofRational value
  | none => .notANumber

/-- `StringToNumber` on trimmed text. -/
def trimmedNumber : List Char -> Number
  | [] => .finite 0
  | '0' :: 'x' :: text => radixNumber 16 text
  | '0' :: 'X' :: text => radixNumber 16 text
  | '0' :: 'o' :: text => radixNumber 8 text
  | '0' :: 'O' :: text => radixNumber 8 text
  | '0' :: 'b' :: text => radixNumber 2 text
  | '0' :: 'B' :: text => radixNumber 2 text
  | '+' :: text => decimalNumber false text
  | '-' :: text => decimalNumber true text
  | text => decimalNumber false text

/-- `StringToNumber(text)` -/
def stringToNumber (text : String) : Number :=
  trimmedNumber (trim text.toList)

/-! ## Values -/

/-- The number of a value of the type Number. -/
def numericValue : Value -> Option Number
  | .number value => some value
  | _ => none

mutual

/-- `ToString` returns on the value: an object whose own `toString` is data
cannot be converted. -/
def hasText : Value -> Bool
  | .array items => allHaveText items
  | .object fields => (fields.lookup "toString").isNone
  | _ => true

@[inherit_doc hasText]
def allHaveText : List Value -> Bool
  | [] => true
  | item :: items => hasText item && allHaveText items

end

/-- `ToNumber(value)` -/
def numberOf : Value -> Except Exception Number
  | .undefined => .ok .notANumber
  | .null => .ok (.finite 0)
  | .boolean value => .ok (.finite (if value then 1 else 0))
  | .number value => .ok value
  | .bigint _ =>
      .error (.typeError "Cannot mix BigInt and other types")
  | .string text => .ok (stringToNumber text)
  | .array items =>
      if allHaveText items then
        .ok (stringToNumber (String.ofList (joinTexts items)))
      else .error (.typeError "Cannot convert object to primitive value")
  | .object fields =>
      if hasText (.object fields) then .ok .notANumber
      else .error (.typeError "Cannot convert object to primitive value")

/-- A value of the type Number is converted to its number. -/
theorem numberOf_of_numericValue
    {value : Value}
    {number : Number}
    (numeric : numericValue value = some number) :
    numberOf value = .ok number := by
  cases value with
  | number value =>
      obtain rfl := Option.some.inj numeric
      rfl
  | _ => cases numeric

/-- The number of a value that is read is not `NaN`, which JSON lacks. -/
theorem numericValue_ne_notANumber
    {value : Value}
    (isParsed : JSON.IsParsed value)
    {number : Number}
    (numeric : numericValue value = some number) :
    number ≠ .notANumber := by
  cases value with
  | number value =>
      obtain rfl := Option.some.inj numeric
      rintro rfl
      exact isParsed.elim
  | _ => cases numeric

end JavaScript
end Foundation

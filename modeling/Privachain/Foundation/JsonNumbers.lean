import Privachain.Foundation.JavaScript
import Mathlib.Algebra.Ring.Int.Defs
import Mathlib.Algebra.Ring.Nat
import Mathlib.Data.List.TakeWhile

/-!
# Numbers in JSON texts

The text that `Number::toString` gives a number, with the fewest digits that are
read as the number, and the grammar of numbers in JSON texts, which are rounded
to doubles.  Reading inverts writing.
-/

namespace Foundation
namespace JavaScript
namespace JSON

/-! ## Decimals -/

/-- The number `mantissa / 10 ^ places`. -/
def fraction (mantissa : Int) (places : Nat) : ℚ :=
  mantissa / 10 ^ places

/-- The number `mantissa * 10 ^ exponent`. -/
def scaled (mantissa exponent : Int) : ℚ :=
  mantissa * 10 ^ exponent

/-- A negative exponent counts places. -/
theorem scaled_neg (mantissa : Int) (places : Nat) :
    scaled mantissa (-places) = fraction mantissa places := by
  rw [scaled, fraction, zpow_neg, zpow_natCast, div_eq_mul_inv]

/-- Powers of ten move from the mantissa to the exponent. -/
theorem scaled_mul_pow (mantissa : Int) (zeros : Nat) (exponent : Int) :
    scaled (mantissa * 10 ^ zeros) exponent =
      scaled mantissa (zeros + exponent) := by
  rw [scaled, scaled, zpow_add₀ (by decide), zpow_natCast]
  push_cast
  rw [mul_assoc]

/-! ## Writing -/

/-- The digits without the zeros at their end. -/
def significant (digits : List Char) : List Char :=
  (digits.reverse.dropWhile (· == '0')).reverse

/-- The exponent of a number, with its sign. -/
def powerText (exponent : Int) : List Char :=
  'e' :: (if exponent < 0 then '-' else '+') ::
    Nat.toDigits 10 exponent.natAbs

/-- One digit in front of the point, and the exponent. -/
def exponential (digits : List Char) (exponent : Int) : List Char :=
  match digits with
  | first :: second :: others =>
      first :: '.' :: second :: others ++ powerText exponent
  | digits => digits ++ powerText exponent

/-- The digits with the point behind `point` of them, as `Number::toString`
prints a positive number. -/
def positional (digits : List Char) (point : Int) : List Char :=
  if digits.length ≤ point ∧ point ≤ 21 then
    digits ++ List.replicate (point - digits.length).toNat '0'
  else if 0 < point ∧ point ≤ 21 then
    digits.take point.toNat ++ '.' :: digits.drop point.toNat
  else if -6 < point ∧ point ≤ 0 then
    '0' :: '.' :: (List.replicate (-point).toNat '0' ++ digits)
  else exponential digits (point - 1)

/-- `mantissa / 10 ^ places` as `Number::toString` prints it. -/
def numberText (mantissa : Int) (places : Nat) : List Char :=
  let digits := Nat.toDigits 10 mantissa.natAbs
  let magnitude :=
    if mantissa = 0 then ['0']
    else positional (significant digits) (digits.length - places)
  if mantissa < 0 then '-' :: magnitude else magnitude

example : numberText (-125) 2 = "-1.25".toList := by decide
example : numberText 3 7 = "3e-7".toList := by decide

/-- The decimal with a number of digits that is read as the value: the nearest
one, or the one on the other side. -/
def decimalWith (value : ℚ) (digits : Nat) : Option (Int × Nat) :=
  let exponent := Int.log 10 |value| + 1 - digits
  let mantissa := value / 10 ^ exponent
  ([Number.roundTiesToEven mantissa, ⌊mantissa⌋, ⌊mantissa⌋ + 1].map
      fun mantissa => (mantissa * 10 ^ exponent.toNat, (-exponent).toNat)).find?
    fun decimal =>
      Number.ofRational (fraction decimal.1 decimal.2) = .finite value

/-- The shortest decimal that is read as the value, of 17 digits at most; all
digits of the value where there is none. -/
def shortestDecimal (value : ℚ) : Int × Nat :=
  ((List.range 17).findSome? fun digits => decimalWith value (digits + 1)).getD
    ((value * 10 ^ 1074).num, 1074)

/-- The text of a finite number. -/
def finiteText (value : ℚ) : List Char :=
  numberText (shortestDecimal value).1 (shortestDecimal value).2

/-- `Number::toString(number)` -/
def numberToString : Number -> List Char
  | .notANumber => "NaN".toList
  | .infinite false => "Infinity".toList
  | .infinite true => "-Infinity".toList
  | .finite value => finiteText value

example : finiteText (3602879701896397 / 36028797018963968) =
    "0.1".toList := by decide +kernel

/-! ## Reading -/

/-- Read the digits behind a point, if there is one. -/
def readFraction : List Char -> Option (List Char × List Char)
  | '.' :: text =>
      if text.takeWhile Char.isDigit = [] then none
      else some (text.takeWhile Char.isDigit, text.dropWhile Char.isDigit)
  | text => some ([], text)

/-- Read the digits of an exponent. -/
def readPower (negative : Bool) (text : List Char) :
    Option (Int × List Char) :=
  let digits := text.takeWhile Char.isDigit
  let magnitude := Int.ofNat (Nat.ofDigitChars 10 digits 0)
  if digits = [] then none
  else some (if negative then -magnitude else magnitude,
    text.dropWhile Char.isDigit)

/-- Read the sign and the digits of an exponent. -/
def readSignedPower : List Char -> Option (Int × List Char)
  | '-' :: text => readPower true text
  | '+' :: text => readPower false text
  | text => readPower false text

/-- Read an exponent, if there is one. -/
def readExponent : List Char -> Option (Int × List Char)
  | [] => some (0, [])
  | c :: text =>
      if c = 'e' ∨ c = 'E' then readSignedPower text else some (0, c :: text)

/-- Read a number without its sign: the digits, the power of ten, and the
rest. -/
def readMagnitude (text : List Char) : Option (Nat × Int × List Char) :=
  let whole := text.takeWhile Char.isDigit
  if whole = [] ∨ (whole.head? = some '0' ∧ 1 < whole.length) then none
  else do
    let (places, rest) ← readFraction (text.dropWhile Char.isDigit)
    let (exponent, rest) ← readExponent rest
    return (Nat.ofDigitChars 10 (whole ++ places) 0, exponent - places.length,
      rest)

/-- A decimal as a value of the type Number. -/
def roundedValue (mantissa exponent : Int) : Value :=
  .number (Number.ofRational (scaled mantissa exponent))

/-- Read a number. -/
def readNumber : List Char -> Option (Value × List Char)
  | '-' :: text => do
      let (mantissa, exponent, rest) ← readMagnitude text
      return (roundedValue (-mantissa) exponent, rest)
  | text => do
      let (mantissa, exponent, rest) ← readMagnitude text
      return (roundedValue mantissa exponent, rest)

/-! ## Reading inverts writing -/

/-- What follows a number does not continue it. -/
def EndsNumber (rest : List Char) : Prop :=
  ∀ c, rest.head? = some c ->
    c.isDigit = false ∧ c ≠ '.' ∧ c ≠ 'e' ∧ c ≠ 'E'

/-- Digits are taken off a text up to the first other character. -/
theorem span_digits
    {digits rest : List Char}
    (areDigits : ∀ c ∈ digits, c.isDigit = true)
    (ends : ∀ c, rest.head? = some c -> c.isDigit = false) :
    (digits ++ rest).takeWhile Char.isDigit = digits ∧
      (digits ++ rest).dropWhile Char.isDigit = rest := by
  rw [List.takeWhile_append_of_pos areDigits,
    List.dropWhile_append_of_pos areDigits]
  cases rest with
  | nil => simp
  | cons c rest =>
      have other := ends c rfl
      simp [other]

/-- Without a point there is no fraction. -/
theorem readFraction_of_ends
    {rest : List Char}
    (noPoint : rest.head? ≠ some '.') :
    readFraction rest = some ([], rest) := by
  unfold readFraction
  split
  · exact absurd rfl noPoint
  · rfl

/-- The digits behind a point are read up to what follows them. -/
theorem readFraction_point
    {digits rest : List Char}
    (areDigits : ∀ c ∈ digits, c.isDigit = true)
    (nonempty : digits ≠ [])
    (ends : ∀ c, rest.head? = some c -> c.isDigit = false) :
    readFraction ('.' :: (digits ++ rest)) = some (digits, rest) := by
  obtain ⟨taken, dropped⟩ := span_digits areDigits ends
  rw [readFraction, taken, dropped, if_neg nonempty]

/-- Without its letter there is no exponent. -/
theorem readExponent_of_ends
    {rest : List Char}
    (ends : EndsNumber rest) :
    readExponent rest = some (0, rest) := by
  cases rest with
  | nil => rfl
  | cons c rest =>
      obtain ⟨-, -, lower, upper⟩ := ends c rfl
      rw [readExponent, if_neg (not_or.mpr ⟨lower, upper⟩)]

/-- A printed exponent is read back. -/
theorem readExponent_power
    (exponent : Int)
    {rest : List Char}
    (ends : EndsNumber rest) :
    readExponent (powerText exponent ++ rest) = some (exponent, rest) := by
  have areDigits : ∀ c ∈ Nat.toDigits 10 exponent.natAbs, c.isDigit = true :=
    fun _ member =>
      Nat.isDigit_of_mem_toDigits (by decide) (by decide) member
  obtain ⟨taken, dropped⟩ := span_digits areDigits fun c head =>
    (ends c head).1
  have power : ∀ negative, readPower negative
      (Nat.toDigits 10 exponent.natAbs ++ rest) =
        some (if negative then -Int.ofNat exponent.natAbs
          else Int.ofNat exponent.natAbs, rest) := by
    intro negative
    rw [readPower, taken, dropped, if_neg Nat.toDigits_ne_nil,
      Nat.ofDigitChars_ten_toDigits]
  rw [powerText, List.cons_append, List.cons_append, readExponent,
    if_pos (.inl rfl)]
  by_cases negative : exponent < 0
  · have magnitude : -Int.ofNat exponent.natAbs = exponent := by
      rw [Int.ofNat_eq_natCast]
      omega
    rw [if_pos negative, readSignedPower, power, if_pos rfl, magnitude]
  · have magnitude : Int.ofNat exponent.natAbs = exponent := by
      rw [Int.ofNat_eq_natCast]
      omega
    rw [if_neg negative, readSignedPower, power, if_neg (by decide), magnitude]

/-- Digits without a leading zero are the whole part of a number. -/
theorem readMagnitude_append
    {whole rest : List Char}
    (areDigits : ∀ c ∈ whole, c.isDigit = true)
    (nonempty : whole ≠ [])
    (noLeadingZero : whole.head? ≠ some '0' ∨ whole = ['0'])
    (ends : ∀ c, rest.head? = some c -> c.isDigit = false) :
    readMagnitude (whole ++ rest) = (do
      let (places, rest) ← readFraction rest
      let (exponent, rest) ← readExponent rest
      return (Nat.ofDigitChars 10 (whole ++ places) 0,
        exponent - places.length, rest)) := by
  obtain ⟨taken, dropped⟩ := span_digits areDigits ends
  rw [readMagnitude, taken, dropped, if_neg]
  rintro (empty | ⟨leading, longer⟩)
  · exact nonempty empty
  · rcases noLeadingZero with other | rfl
    · exact other leading
    · exact absurd longer (by decide)

/-- The zeros of a text are digits. -/
theorem isDigit_of_mem_zeros
    {count : Nat}
    {c : Char}
    (member : c ∈ List.replicate count '0') :
    c.isDigit = true := by
  rw [List.eq_of_mem_replicate member]
  rfl

/-- A point is no digit. -/
theorem point_ends (text : List Char) :
    ∀ c, ('.' :: text).head? = some c -> c.isDigit = false := by
  rintro c ⟨⟩
  rfl

/-- An exponent starts with no digit. -/
theorem powerText_ends (exponent : Int) (text : List Char) :
    ∀ c, (powerText exponent ++ text).head? = some c ->
      c.isDigit = false := by
  rintro c ⟨⟩
  rfl

section Positional

variable
  {digits : List Char}
  (areDigits : ∀ c ∈ digits, c.isDigit = true)
  (nonempty : digits ≠ [])
  (noLeadingZero : digits.head? ≠ some '0')
  {rest : List Char}
  (ends : EndsNumber rest)

include areDigits nonempty noLeadingZero ends

/-- Digits with zeros behind them are a whole number. -/
theorem readMagnitude_zeros_behind (zeros : Nat) :
    readMagnitude (digits ++ List.replicate zeros '0' ++ rest) =
      some (Nat.ofDigitChars 10 digits 0 * 10 ^ zeros, 0, rest) := by
  have allDigits : ∀ c ∈ digits ++ List.replicate zeros '0',
      c.isDigit = true := by
    intro c member
    exact (List.mem_append.mp member).elim (areDigits c) isDigit_of_mem_zeros
  have leading : (digits ++ List.replicate zeros '0').head? ≠ some '0' := by
    rwa [List.head?_append_of_ne_nil _ nonempty]
  have noPoint : rest.head? ≠ some '.' :=
    fun head => (ends '.' head).2.1 rfl
  rw [readMagnitude_append allDigits (by simp [nonempty]) (.inl leading)
    fun c head => (ends c head).1, readFraction_of_ends noPoint]
  simp only [Option.bind_eq_bind, Option.bind_some, readExponent_of_ends ends]
  rw [List.append_nil, Nat.ofDigitChars_append,
    Nat.ofDigitChars_replicate_zero, Nat.mul_comm]
  rfl

/-- A point between the digits moves the power of ten. -/
theorem readMagnitude_point_within
    {before : Nat}
    (within : before + 1 < digits.length) :
    readMagnitude (digits.take (before + 1) ++
        '.' :: (digits.drop (before + 1) ++ rest)) =
      some (Nat.ofDigitChars 10 digits 0,
        -((digits.drop (before + 1)).length : Int), rest) := by
  have wholeDigits : ∀ c ∈ digits.take (before + 1), c.isDigit = true :=
    fun c member => areDigits c (List.mem_of_mem_take member)
  have placesDigits : ∀ c ∈ digits.drop (before + 1), c.isDigit = true :=
    fun c member => areDigits c (List.mem_of_mem_drop member)
  have somePlaces : digits.drop (before + 1) ≠ [] := by
    rw [Ne, List.drop_eq_nil_iff]
    omega
  have leading : (digits.take (before + 1)).head? ≠ some '0' := by
    rwa [List.head?_take, if_neg (Nat.succ_ne_zero before)]
  rw [readMagnitude_append wholeDigits (by simp [nonempty]) (.inl leading)
      (point_ends _),
    readFraction_point placesDigits somePlaces fun c head => (ends c head).1]
  simp only [Option.bind_eq_bind, Option.bind_some, readExponent_of_ends ends,
    List.take_append_drop, zero_sub]
  rfl

omit noLeadingZero in
/-- Zeros between the point and the digits move the power of ten. -/
theorem readMagnitude_zeros_within (zeros : Nat) :
    readMagnitude ('0' :: '.' ::
        (List.replicate zeros '0' ++ digits ++ rest)) =
      some (Nat.ofDigitChars 10 digits 0,
        -((zeros + digits.length : Nat) : Int), rest) := by
  have placesDigits : ∀ c ∈ List.replicate zeros '0' ++ digits,
      c.isDigit = true := by
    intro c member
    exact (List.mem_append.mp member).elim isDigit_of_mem_zeros (areDigits c)
  have zeroIsDigit : ∀ c ∈ ['0'], c.isDigit = true :=
    List.forall_mem_singleton.mpr (by decide)
  have number : Nat.ofDigitChars 10
      (['0'] ++ (List.replicate zeros '0' ++ digits)) 0 =
        Nat.ofDigitChars 10 digits 0 := by
    rw [Nat.ofDigitChars_append, Nat.ofDigitChars_append,
      Nat.ofDigitChars_replicate_zero]
    rfl
  change readMagnitude (['0'] ++ '.' :: _) = _
  rw [readMagnitude_append zeroIsDigit (by decide) (.inr rfl) (point_ends _),
    readFraction_point placesDigits (by simp [nonempty])
      fun c head => (ends c head).1]
  simp only [Option.bind_eq_bind, Option.bind_some, readExponent_of_ends ends,
    number, zero_sub, List.length_append, List.length_replicate]
  rfl

/-- One digit in front of the point and an exponent. -/
theorem readMagnitude_exponential (exponent : Int) :
    readMagnitude (exponential digits exponent ++ rest) =
      some (Nat.ofDigitChars 10 digits 0,
        exponent - (digits.length - 1 : Nat), rest) := by
  obtain ⟨first, others, rfl⟩ := List.exists_cons_of_ne_nil nonempty
  have firstDigit : ∀ c ∈ [first], c.isDigit = true := by
    intro c member
    obtain rfl := List.mem_singleton.mp member
    exact areDigits c List.mem_cons_self
  have leading : [first].head? ≠ some '0' := noLeadingZero
  cases others with
  | nil =>
      have text : exponential [first] exponent ++ rest =
          [first] ++ (powerText exponent ++ rest) := rfl
      have noPoint : (powerText exponent ++ rest).head? ≠ some '.' := by
        rw [powerText]
        simp
      rw [text, readMagnitude_append firstDigit (by simp) (.inl leading)
        (powerText_ends _ _), readFraction_of_ends noPoint]
      simp only [Option.bind_eq_bind, Option.bind_some,
        readExponent_power _ ends]
      rfl
  | cons second others =>
      have placesDigits : ∀ c ∈ second :: others, c.isDigit = true :=
        fun c member => areDigits c (List.mem_cons_of_mem _ member)
      have text : exponential (first :: second :: others) exponent ++ rest =
          [first] ++ '.' :: ((second :: others) ++
            (powerText exponent ++ rest)) := by
        simp [exponential]
      rw [text, readMagnitude_append firstDigit (by simp) (.inl leading)
          (point_ends _),
        readFraction_point placesDigits (by simp) (powerText_ends _ _)]
      simp only [Option.bind_eq_bind, Option.bind_some,
        readExponent_power _ ends]
      rfl

/-- **A positional text is read** as its digits, with the zeros that stand
between them and the point, and with the remaining power of ten. -/
theorem readMagnitude_positional (point : Int) :
    ∃ (zeros : Nat) (exponent : Int),
      readMagnitude (positional digits point ++ rest) =
        some (Nat.ofDigitChars 10 digits 0 * 10 ^ zeros, exponent, rest) ∧
      zeros + exponent = point - digits.length := by
  unfold positional
  split
  · exact ⟨_, 0, readMagnitude_zeros_behind areDigits nonempty noLeadingZero
      ends _, by omega⟩
  · split
    · obtain ⟨before, atPoint⟩ : ∃ before, point.toNat = before + 1 :=
        ⟨point.toNat - 1, by omega⟩
      rw [atPoint]
      refine ⟨0, -((digits.drop (before + 1)).length : Int), ?_, ?_⟩
      · rw [List.append_assoc, List.cons_append, Nat.pow_zero, Nat.mul_one]
        exact readMagnitude_point_within areDigits nonempty noLeadingZero ends
          (by omega)
      · rw [List.length_drop]
        omega
    · split
      · refine ⟨0, -(((-point).toNat + digits.length : Nat) : Int), ?_, ?_⟩
        · rw [Nat.pow_zero, Nat.mul_one]
          exact readMagnitude_zeros_within areDigits nonempty ends _
        · omega
      · refine ⟨0, point - 1 - (digits.length - 1 : Nat), ?_, ?_⟩
        · rw [Nat.pow_zero, Nat.mul_one]
          exact readMagnitude_exponential areDigits nonempty noLeadingZero ends
            _
        · have := List.length_pos_iff.mpr nonempty
          omega

end Positional

/-- The first digit of a positive number is not zero. -/
theorem head_toDigits_ne_zero
    {n : Nat}
    (positive : 0 < n) :
    (Nat.toDigits 10 n).head? ≠ some '0' := by
  induction n using Nat.strongRecOn with
  | ind n inductionHypothesis =>
      have notZero : ∀ digit : Fin 10, 0 < digit.val ->
          digit.val.digitChar ≠ '0' := by decide
      rw [Nat.toDigits_eq_if (by decide)]
      split
      · rename_i small
        intro head
        exact notZero ⟨n, small⟩ positive (Option.some.inj head)
      · rename_i large
        rw [List.head?_append_of_ne_nil _ Nat.toDigits_ne_nil]
        exact inductionHypothesis (n / 10) (by omega) (by omega)

/-- Digits are their significant ones followed by zeros. -/
theorem exists_significant_append (digits : List Char) :
    ∃ zeros, digits = significant digits ++ List.replicate zeros '0' := by
  have split := List.takeWhile_append_dropWhile
    (p := (· == '0')) (l := digits.reverse)
  have zeros : digits.reverse.takeWhile (· == '0') =
      List.replicate (digits.reverse.takeWhile (· == '0')).length '0' := by
    rw [List.eq_replicate_iff]
    refine ⟨rfl, fun c member => ?_⟩
    simpa using List.mem_takeWhile_imp member
  refine ⟨(digits.reverse.takeWhile (· == '0')).length, ?_⟩
  rw [significant, ← List.reverse_replicate, ← zeros, ← List.reverse_append,
    split, List.reverse_reverse]

/-- The text of a positive number is read as the number. -/
theorem readMagnitude_numberText
    {magnitude : Nat}
    (positive : 0 < magnitude)
    (places : Nat)
    {rest : List Char}
    (ends : EndsNumber rest) :
    ∃ (mantissa : Nat) (exponent : Int),
      readMagnitude (positional (significant (Nat.toDigits 10 magnitude))
          ((Nat.toDigits 10 magnitude).length - places) ++ rest) =
        some (mantissa, exponent, rest) ∧
      ∀ sign : Int, scaled (sign * mantissa) exponent =
        fraction (sign * magnitude) places := by
  obtain ⟨trailing, split⟩ :=
    exists_significant_append (Nat.toDigits 10 magnitude)
  have leading := head_toDigits_ne_zero positive
  have nonempty : significant (Nat.toDigits 10 magnitude) ≠ [] := by
    intro empty
    rw [empty, List.nil_append] at split
    cases trailing with
    | zero => exact Nat.toDigits_ne_nil split
    | succ trailing =>
        rw [split] at leading
        exact leading rfl
  have areDigits : ∀ c ∈ significant (Nat.toDigits 10 magnitude),
      c.isDigit = true := by
    intro c member
    have isDigit : c ∈ Nat.toDigits 10 magnitude := by
      rw [split]
      exact List.mem_append_left _ member
    exact Nat.isDigit_of_mem_toDigits (by decide) (by decide) isDigit
  rw [split, List.head?_append_of_ne_nil _ nonempty] at leading
  obtain ⟨zeros, exponent, read, power⟩ := readMagnitude_positional areDigits
    nonempty leading ends ((Nat.toDigits 10 magnitude).length - places)
  refine ⟨_, exponent, read, fun sign => ?_⟩
  have number := Nat.ofDigitChars_ten_toDigits (n := magnitude)
  rw [split, Nat.ofDigitChars_append, Nat.ofDigitChars_replicate_zero] at number
  have counted := congrArg List.length split
  rw [List.length_append, List.length_replicate] at counted
  have remaining : (zeros : Int) + exponent = trailing + -places := by
    omega
  generalize Nat.ofDigitChars 10 (significant (Nat.toDigits 10 magnitude)) 0 =
    kept at number ⊢
  calc scaled (sign * (kept * 10 ^ zeros : Nat)) exponent
      = scaled (sign * kept * 10 ^ zeros) exponent := by
        push_cast
        rw [mul_assoc]
    _ = scaled (sign * kept) (trailing + -places) := by
        rw [scaled_mul_pow, remaining]
    _ = scaled (sign * magnitude) (-places) := by
        rw [← scaled_mul_pow, ← number]
        push_cast
        rw [mul_assoc, mul_comm (10 ^ trailing : Int)]
    _ = fraction (sign * magnitude) places := scaled_neg _ _

/-- A number without a sign is its magnitude. -/
theorem readNumber_of_readMagnitude
    {text rest : List Char}
    {mantissa : Nat}
    {exponent : Int}
    (read : readMagnitude text = some (mantissa, exponent, rest)) :
    readNumber text = some (roundedValue mantissa exponent, rest) := by
  unfold readNumber
  split
  · -- a sign is no digit
    cases read
  · rw [read]
    rfl

/-- The text of a decimal is read as the nearest double. -/
theorem readNumber_numberText
    (mantissa : Int)
    (places : Nat)
    {rest : List Char}
    (ends : EndsNumber rest) :
    readNumber (numberText mantissa places ++ rest) =
      some (.number (Number.ofRational (fraction mantissa places)), rest) := by
  by_cases zero : mantissa = 0
  · subst zero
    have areDigits : ∀ c ∈ ['0'], c.isDigit = true :=
      List.forall_mem_singleton.mpr (by decide)
    have noPoint : rest.head? ≠ some '.' :=
      fun head => (ends '.' head).2.1 rfl
    have read : readMagnitude (['0'] ++ rest) = some (0, 0, rest) := by
      rw [readMagnitude_append areDigits (by decide) (.inr rfl)
        fun c head => (ends c head).1, readFraction_of_ends noPoint]
      simp only [Option.bind_eq_bind, Option.bind_some,
        readExponent_of_ends ends]
      rfl
    have number : scaled ((0 : Nat) : Int) 0 = fraction 0 places := by
      simp [scaled, fraction]
    rw [← number]
    exact readNumber_of_readMagnitude read
  · obtain ⟨kept, exponent, read, number⟩ := readMagnitude_numberText
      (Int.natAbs_pos.mpr zero) places ends
    by_cases negative : mantissa < 0
    · have magnitude : (-1 : Int) * mantissa.natAbs = mantissa := by omega
      have signed := number (-1)
      rw [magnitude, neg_one_mul] at signed
      rw [numberText, if_pos negative, if_neg zero, List.cons_append,
        readNumber, read, ← signed]
      rfl
    · have magnitude : (1 : Int) * mantissa.natAbs = mantissa := by omega
      have signed := number 1
      rw [magnitude, one_mul] at signed
      rw [numberText, if_neg negative, if_neg zero, ← signed]
      exact readNumber_of_readMagnitude read

/-! ## Texts of doubles -/

/-- A whole number of halves, quarters and so on has as many decimal places. -/
theorem fraction_num_eq
    {value : ℚ}
    {places : Nat}
    {whole : ℤ}
    (isWhole : value * 2 ^ places = whole) :
    fraction (value * 10 ^ places).num places = value := by
  have scaledUp : value * 10 ^ places = ((whole * 5 ^ places : ℤ) : ℚ) := by
    have ten : (10 : ℚ) = 2 * 5 := by norm_num
    push_cast
    rw [ten, mul_pow, ← mul_assoc, isWhole]
  have nonzero : (10 : ℚ) ^ places ≠ 0 := pow_ne_zero _ (by decide)
  rw [fraction, scaledUp, Rat.num_intCast, ← scaledUp, mul_div_assoc,
    div_self nonzero, mul_one]

/-- The decimal that is printed is read as the double. -/
theorem ofRational_shortestDecimal
    {value : ℚ}
    (isDouble : Number.IsDouble value) :
    Number.ofRational
        (fraction (shortestDecimal value).1 (shortestDecimal value).2) =
      .finite value := by
  unfold shortestDecimal
  cases found : (List.range 17).findSome? fun digits =>
      decimalWith value (digits + 1) with
  | some decimal =>
      obtain ⟨digits, _, isDecimal⟩ := List.exists_of_findSome?_eq_some found
      have reads := List.find?_some isDecimal
      exact of_decide_eq_true reads
  | none =>
      obtain ⟨whole, isWhole⟩ := Number.exists_eq_mul_pow isDouble
      have decimal := fraction_num_eq isWhole
      dsimp only [Option.getD_none]
      rw [decimal]
      exact isDouble

/-- **Round trip.**  The text of a double is read as the double. -/
theorem readNumber_finiteText
    {value : ℚ}
    (isDouble : Number.IsDouble value)
    {rest : List Char}
    (ends : EndsNumber rest) :
    readNumber (finiteText value ++ rest) =
      some (.number (.finite value), rest) := by
  rw [finiteText, readNumber_numberText _ _ ends,
    ofRational_shortestDecimal isDouble]

end JSON
end JavaScript
end Foundation

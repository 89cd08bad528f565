import Mathlib.Data.Int.Log
import Mathlib.Data.Rat.Floor
import Mathlib.Tactic.Linarith
import Mathlib.Tactic.Positivity

/-!
# Double-precision numbers

The nearest double of a rational, the doubles as the rationals that are their
own nearest double, and the arithmetic that rounds its results.  The two zeros
are one.
-/

namespace Foundation

/-- The numbers of double precision. -/
inductive Number
  | notANumber
  | infinite (negative : Bool)
  | finite (value : ℚ)
  deriving DecidableEq

namespace Number

/-! ## Rounding -/

/-- The nearest integer, and the even one where two are nearest. -/
def roundTiesToEven (value : ℚ) : ℤ :=
  let below := ⌊value⌋
  if value - below < 1 / 2 then below
  else if 1 / 2 < value - below then below + 1
  else if below % 2 = 0 then below
  else below + 1

/-- The exponent of the last place of the doubles around a value. -/
def lastPlace (value : ℚ) : ℤ :=
  max (Int.log 2 |value| - 52) (-1074)

/-- The distance between the doubles around a value. -/
def spacing (value : ℚ) : ℚ :=
  2 ^ lastPlace value

/-- The nearest double, if the exponents had no upper bound. -/
def nearest (value : ℚ) : ℚ :=
  roundTiesToEven (value / spacing value) * spacing value

/-- The nearest double. -/
def ofRational (value : ℚ) : Number :=
  if |nearest value| < 2 ^ 1024 then .finite (nearest value)
  else .infinite (decide (value < 0))

/-- A value is a double. -/
def IsDouble (value : ℚ) : Prop :=
  ofRational value = .finite value

instance (value : ℚ) : Decidable (IsDouble value) :=
  inferInstanceAs (Decidable (_ = _))

theorem isDouble_iff (value : ℚ) :
    IsDouble value ↔ nearest value = value ∧ |value| < 2 ^ 1024 := by
  unfold IsDouble ofRational
  constructor
  · intro same
    split at same
    · rename_i bounded
      have isNearest := Number.finite.inj same
      rw [isNearest] at bounded
      exact ⟨isNearest, bounded⟩
    · cases same
  · rintro ⟨isNearest, bounded⟩
    rw [isNearest, if_pos bounded]

/-! ## Integers are rounded to themselves -/

theorem roundTiesToEven_intCast (n : ℤ) : roundTiesToEven (n : ℚ) = n := by
  unfold roundTiesToEven
  dsimp only
  rw [Int.floor_intCast, sub_self]
  exact if_pos (by norm_num)

/-- Rounding does not pass an integer. -/
theorem le_roundTiesToEven
    {n : ℤ}
    {value : ℚ}
    (le : (n : ℚ) ≤ value) :
    n ≤ roundTiesToEven value := by
  have below : n ≤ ⌊value⌋ := Int.le_floor.mpr le
  unfold roundTiesToEven
  dsimp only
  split
  · exact below
  · split
    · omega
    · split
      · exact below
      · omega

@[inherit_doc le_roundTiesToEven]
theorem roundTiesToEven_le
    {n : ℤ}
    {value : ℚ}
    (le : value ≤ n) :
    roundTiesToEven value ≤ n := by
  rcases le.eq_or_lt with rfl | less
  · exact (roundTiesToEven_intCast n).le
  · have below : ⌊value⌋ < n := Int.floor_lt.mpr less
    unfold roundTiesToEven
    dsimp only
    split
    · omega
    · split
      · omega
      · split
        · omega
        · omega

theorem spacing_pos (value : ℚ) : 0 < spacing value :=
  zpow_pos two_pos _

/-- A multiple of the spacing is its own nearest double. -/
theorem nearest_eq_self
    {value : ℚ}
    {n : ℤ}
    (multiple : value = n * spacing value) :
    nearest value = value := by
  have quotient : value / spacing value = n := by
    rw [div_eq_iff (spacing_pos value).ne']
    exact multiple
  rw [nearest, quotient, roundTiesToEven_intCast]
  exact multiple.symm

/-- A power of two is a multiple of a smaller one. -/
theorem zpow_eq_mul
    {low high : ℤ}
    (le : low ≤ high) :
    (2 : ℚ) ^ high = ((2 ^ (high - low).toNat : ℤ) : ℚ) * 2 ^ low := by
  have split : high = ((high - low).toNat : ℤ) + low := by omega
  conv_lhs => rw [split, zpow_add₀ two_ne_zero, zpow_natCast]
  push_cast
  rfl

/-- The logarithm of a value below a power of two. -/
theorem log_lt
    {value : ℚ}
    {exponent : ℤ}
    (nonzero : value ≠ 0)
    (below : |value| < 2 ^ exponent) :
    Int.log 2 |value| < exponent :=
  (Int.lt_zpow_iff_log_lt (by decide) (abs_pos.mpr nonzero)).mp
    (by exact_mod_cast below)

/-- A significand of 53 bits over a power of two is its own nearest double. -/
theorem nearest_mul_zpow
    {significand exponent : ℤ}
    (bits : |significand| ≤ 2 ^ 53)
    (least : -1074 ≤ exponent) :
    nearest (significand * 2 ^ exponent) = significand * 2 ^ exponent := by
  have ofLess : ∀ {significand exponent : ℤ}, |significand| < 2 ^ 53 ->
      -1074 ≤ exponent ->
      nearest (significand * 2 ^ exponent) = significand * 2 ^ exponent := by
    intro significand exponent bits least
    by_cases zero : significand = 0
    · simp [zero, nearest, roundTiesToEven]
    · have powerPos : (0 : ℚ) < 2 ^ exponent := zpow_pos two_pos _
      have nonzero : (significand : ℚ) * 2 ^ exponent ≠ 0 :=
        mul_ne_zero (Int.cast_ne_zero.mpr zero) powerPos.ne'
      have below : |(significand : ℚ) * 2 ^ exponent| < 2 ^ (53 + exponent) := by
        rw [abs_mul, abs_of_pos powerPos, zpow_add₀ two_ne_zero]
        have bitsCast : |(significand : ℚ)| < 2 ^ (53 : ℤ) := by
          exact_mod_cast bits
        exact mul_lt_mul_of_pos_right bitsCast powerPos
      have place : lastPlace (significand * 2 ^ exponent) ≤ exponent := by
        have logarithm := log_lt nonzero below
        unfold lastPlace
        omega
      have multiple := zpow_eq_mul place
      refine nearest_eq_self (n := significand *
        2 ^ (exponent - lastPlace (significand * 2 ^ exponent)).toNat) ?_
      rw [spacing, Int.cast_mul, mul_assoc, ← multiple]
  rcases bits.lt_or_eq with less | equal
  · exact ofLess less least
  · -- the power of two has the significand `2 ^ 52` over the next exponent
    obtain ⟨half, isHalf, fewer⟩ :
        ∃ half : ℤ, significand = half * 2 ∧ |half| < 2 ^ 53 := by
      rcases abs_cases significand with ⟨same, _⟩ | ⟨same, _⟩
      · exact ⟨2 ^ 52, by omega, by decide⟩
      · exact ⟨-2 ^ 52, by omega, by decide⟩
    have next : (significand : ℚ) * 2 ^ exponent = half * 2 ^ (exponent + 1) := by
      rw [isHalf, zpow_add_one₀ two_ne_zero]
      push_cast
      ring
    rw [next]
    exact ofLess fewer (by omega)

/-- The nearest double has a significand of 53 bits. -/
theorem abs_roundTiesToEven_le (value : ℚ) :
    |roundTiesToEven (value / spacing value)| ≤ 2 ^ 53 := by
  have below : |value / spacing value| ≤ 2 ^ 53 := by
    rw [abs_div, abs_of_pos (spacing_pos value),
      div_le_iff₀ (spacing_pos value)]
    have logarithm : |value| < 2 ^ (Int.log 2 |value| + 1) := by
      exact_mod_cast Int.lt_zpow_succ_log_self (by decide : 1 < 2) |value|
    have places : Int.log 2 |value| + 1 ≤ 53 + lastPlace value := by
      unfold lastPlace
      omega
    calc |value| ≤ 2 ^ (Int.log 2 |value| + 1) := logarithm.le
      _ ≤ 2 ^ (53 + lastPlace value) := zpow_le_zpow_right₀ one_le_two places
      _ = 2 ^ 53 * spacing value := by
        rw [zpow_add₀ two_ne_zero]
        rfl
  rw [abs_le] at below ⊢
  constructor
  · exact le_roundTiesToEven (by exact_mod_cast below.1)
  · exact roundTiesToEven_le (by exact_mod_cast below.2)

/-- Rounding twice is rounding once. -/
theorem nearest_nearest (value : ℚ) : nearest (nearest value) = nearest value :=
  nearest_mul_zpow (abs_roundTiesToEven_le value) (le_max_right _ _)

/-- The result of a rounding is a double. -/
theorem isDouble_of_ofRational
    {value rounded : ℚ}
    (rounds : ofRational value = .finite rounded) :
    IsDouble rounded := by
  unfold ofRational at rounds
  split at rounds
  · rename_i bounded
    obtain rfl := Number.finite.inj rounds
    exact (isDouble_iff _).mpr ⟨nearest_nearest value, bounded⟩
  · cases rounds

/-- Rounding does not change a double. -/
theorem ofRational_eq_of_isDouble
    {value : ℚ}
    (isDouble : IsDouble value) :
    ofRational value = .finite value :=
  isDouble

/-- A double is a multiple of the smallest one. -/
theorem exists_eq_mul_pow
    {value : ℚ}
    (isDouble : IsDouble value) :
    ∃ whole : ℤ, value * 2 ^ 1074 = whole := by
  have isNearest := ((isDouble_iff value).mp isDouble).1
  have place : -1074 ≤ lastPlace value := le_max_right _ _
  refine ⟨roundTiesToEven (value / spacing value) *
    2 ^ (lastPlace value - -1074).toNat, ?_⟩
  have powers : spacing value * 2 ^ 1074 =
      ((2 ^ (lastPlace value - -1074).toNat : ℤ) : ℚ) := by
    have smallest : (2 : ℚ) ^ (-1074 : ℤ) * 2 ^ 1074 = 1 := by
      rw [zpow_neg, zpow_ofNat]
      exact inv_mul_cancel₀ (pow_ne_zero _ two_ne_zero)
    rw [spacing, zpow_eq_mul place, mul_assoc, smallest, mul_one]
  calc value * 2 ^ 1074
      = roundTiesToEven (value / spacing value) * spacing value * 2 ^ 1074 := by
        conv_lhs => rw [← isNearest, nearest]
    _ = _ := by
        rw [mul_assoc, powers, Int.cast_mul]

/-- The integers of 53 bits are doubles. -/
theorem isDouble_intCast
    {n : ℤ}
    (bits : |n| ≤ 2 ^ 53) :
    IsDouble n := by
  have isNearest : nearest (n * 2 ^ (0 : ℤ)) = n * 2 ^ (0 : ℤ) :=
    nearest_mul_zpow bits (by decide)
  rw [zpow_zero, mul_one] at isNearest
  refine (isDouble_iff _).mpr ⟨isNearest, ?_⟩
  calc |(n : ℚ)| ≤ 2 ^ 53 := by exact_mod_cast bits
    _ < 2 ^ 1024 := pow_lt_pow_right₀ one_lt_two (by decide)

/-! ## Finite numbers -/

/-- The largest double. -/
def largest : ℚ := (2 ^ 53 - 1) * 2 ^ 971

/-- The nearest finite double. -/
def nearestFinite (value : ℚ) : ℚ :=
  match ofRational value with
  | .finite rounded => rounded
  | .infinite true => -largest
  | _ => largest

theorem isDouble_nearestFinite (value : ℚ) : IsDouble (nearestFinite value) := by
  unfold nearestFinite
  split
  · rename_i rounds
    exact isDouble_of_ofRational rounds
  · decide +kernel
  · decide +kernel

/-! ## Sums of integers -/

/-- `left + right` on integers, where the sum is not infinite. -/
def addIntegers (left right : ℤ) : ℤ :=
  (nearest (left + right)).num

/-- Sums of 53 bits are exact. -/
theorem addIntegers_eq
    {left right : ℤ}
    (bits : |left + right| ≤ 2 ^ 53) :
    addIntegers left right = left + right := by
  have isNearest := ((isDouble_iff _).mp (isDouble_intCast bits)).1
  rw [Int.cast_add] at isNearest
  rw [addIntegers, isNearest, ← Int.cast_add, Rat.num_intCast]

/-- A sum beyond 53 bits stays beyond them. -/
theorem le_addIntegers
    (left right : ℤ)
    (beyond : 2 ^ 53 ≤ left + right) :
    2 ^ 53 ≤ addIntegers left right := by
  unfold addIntegers
  rw [← Int.cast_add]
  generalize left + right = sum at beyond ⊢
  have positive : 0 < |(sum : ℚ)| := by
    rw [abs_pos, Int.cast_ne_zero]
    omega
  have magnitude : |(sum : ℚ)| = sum := abs_of_nonneg (by
    rw [Int.cast_nonneg_iff]
    omega)
  have logarithm : 53 ≤ Int.log 2 |(sum : ℚ)| := by
    rw [← Int.zpow_le_iff_le_log (by decide) positive, magnitude]
    exact_mod_cast beyond
  have place : lastPlace sum = Int.log 2 |(sum : ℚ)| - 52 := by
    unfold lastPlace
    omega
  have digits : ((2 ^ 52 : ℤ) : ℚ) ≤ sum / spacing sum := by
    have least := Int.zpow_log_le_self (by decide : 1 < 2) positive
    have exponents : Int.log 2 |(sum : ℚ)| = 52 + lastPlace sum := by omega
    rw [exponents, Nat.cast_ofNat,
      zpow_add₀ two_ne_zero, magnitude] at least
    rw [le_div_iff₀ (spacing_pos _), spacing]
    exact_mod_cast least
  have rounded : 2 ^ 52 ≤ roundTiesToEven (sum / spacing sum) :=
    le_roundTiesToEven digits
  have whole : spacing sum = ((2 ^ (lastPlace sum).toNat : ℤ) : ℚ) := by
    have nonneg : 0 ≤ lastPlace sum := by omega
    rw [spacing, zpow_eq_mul nonneg, zpow_zero, mul_one, sub_zero]
  have doubled : (2 : ℤ) ≤ 2 ^ (lastPlace sum).toNat :=
    le_self_pow₀ (by decide) (by omega)
  rw [nearest, whole, ← Int.cast_mul, Rat.num_intCast, ← whole]
  calc (2 : ℤ) ^ 53 = 2 ^ 52 * 2 := by decide
    _ ≤ _ := mul_le_mul rounded doubled (by decide) (by omega)

/-! ## Numbers of integers -/

instance : IntCast Number := ⟨fun value => .finite value⟩

instance : NatCast Number := ⟨fun value => .finite value⟩

instance (value : Nat) : OfNat Number value := ⟨.finite (OfNat.ofNat value)⟩

@[simp] theorem intCast_inj (left right : ℤ) :
    (left : Number) = right ↔ left = right := by
  change Number.finite left = .finite right ↔ _
  rw [Number.finite.injEq, Int.cast_inj]

@[simp] theorem natCast_inj (left right : ℕ) :
    (left : Number) = right ↔ left = right := by
  change Number.finite left = .finite right ↔ _
  rw [Number.finite.injEq, Nat.cast_inj]

@[simp] theorem intCast_natCast (value : ℕ) :
    ((value : ℤ) : Number) = value := by
  change Number.finite ((value : ℤ) : ℚ) = .finite value
  rw [Int.cast_natCast]

/-- Zero and what is not a number are false. -/
def truthy : Number -> Bool
  | .notANumber => false
  | .infinite _ => true
  | .finite value => value != 0

theorem natCast_truthy (value : ℕ) :
    (value : Number).truthy = decide (value ≠ 0) := by
  change ((value : ℚ) != 0) = _
  rw [bne, beq_eq_decide, ← decide_not]
  exact decide_eq_decide.mpr (not_congr Nat.cast_eq_zero)

/-- The number is a double and finite. -/
def IsFinite : Number -> Prop
  | .finite value => IsDouble value
  | _ => False

/-- The number is a finite double, or infinite. -/
def IsRounded : Number -> Prop
  | .notANumber => False
  | .infinite _ => True
  | .finite value => IsDouble value

theorem isRounded_of_isFinite : (number : Number) -> IsFinite number ->
    IsRounded number
  | .finite _, isDouble => isDouble

/-- The result of a rounding is a double or infinite. -/
theorem isRounded_ofRational (value : ℚ) : IsRounded (ofRational value) := by
  cases rounds : ofRational value with
  | notANumber =>
      unfold ofRational at rounds
      split at rounds <;> cases rounds
  | infinite negative => trivial
  | finite rounded => exact isDouble_of_ofRational rounds

/-! ## Arithmetic -/

/-- `left - right` -/
def sub : Number -> Number -> Number
  | .finite left, .finite right => ofRational (left - right)
  | .finite _, .infinite negative => .infinite (!negative)
  | .infinite negative, .finite _ => .infinite negative
  | .infinite left, .infinite right =>
      if left = right then .notANumber else .infinite left
  | .notANumber, _ => .notANumber
  | _, .notANumber => .notANumber

/-- `left * right` -/
def mul : Number -> Number -> Number
  | .finite left, .finite right => ofRational (left * right)
  | .finite left, .infinite negative =>
      if left = 0 then .notANumber
      else .infinite (xor negative (decide (left < 0)))
  | .infinite negative, .finite right =>
      if right = 0 then .notANumber
      else .infinite (xor negative (decide (right < 0)))
  | .infinite left, .infinite right => .infinite (xor left right)
  | .notANumber, _ => .notANumber
  | _, .notANumber => .notANumber

/-- `left < right` -/
def less : Number -> Number -> Bool
  | .finite left, .finite right => decide (left < right)
  | .finite _, .infinite negative => !negative
  | .infinite negative, .finite _ => negative
  | .infinite left, .infinite right => left && !right
  | .notANumber, _ => false
  | _, .notANumber => false

theorem natCast_less (left right : ℕ) :
    (left : Number).less right = decide (left < right) :=
  decide_eq_decide.mpr Nat.cast_lt

/-- `left <= right` -/
def lessEq : Number -> Number -> Bool
  | .notANumber, _ => false
  | _, .notANumber => false
  | left, right => !right.less left

theorem ofRational_ne_notANumber (value : ℚ) :
    ofRational value ≠ .notANumber := by
  unfold ofRational
  split
  · exact nofun
  · exact nofun

/-- A difference to a finite number is a number. -/
theorem sub_ne_notANumber
    (left : ℚ)
    {right : Number}
    (isNumber : right ≠ .notANumber) :
    sub (.finite left) right ≠ .notANumber := by
  cases right with
  | notANumber => exact absurd rfl isNumber
  | infinite negative => exact nofun
  | finite right => exact ofRational_ne_notANumber _

/-- A product with a finite number that is not zero is a number. -/
theorem mul_ne_notANumber
    {left : Number}
    (isNumber : left ≠ .notANumber)
    {right : ℚ}
    (nonzero : right ≠ 0) :
    mul left (.finite right) ≠ .notANumber := by
  cases left with
  | notANumber => exact absurd rfl isNumber
  | infinite negative =>
      rw [mul, if_neg nonzero]
      exact nofun
  | finite left => exact ofRational_ne_notANumber _

/-- Of two numbers one is less, or the other is not greater. -/
theorem lessEq_iff_not_less
    {left right : Number}
    (leftIsNumber : left ≠ .notANumber)
    (rightIsNumber : right ≠ .notANumber) :
    left.lessEq right = true ↔ ¬right.less left = true := by
  have unfolded : left.lessEq right = !right.less left := by
    cases left with
    | notANumber => exact absurd rfl leftIsNumber
    | infinite negative =>
        cases right with
        | notANumber => exact absurd rfl rightIsNumber
        | _ => rfl
    | finite left =>
        cases right with
        | notANumber => exact absurd rfl rightIsNumber
        | _ => rfl
  rw [unfolded]
  cases right.less left with
  | true => simp
  | false => simp

/-- Nothing is compared with what is not a number. -/
theorem less_notANumber (left : Number) :
    left.less .notANumber = false := by
  cases left with
  | _ => rfl

@[simp] theorem sub_notANumber (left : Number) :
    left.sub .notANumber = .notANumber := by
  cases left with
  | _ => rfl

end Number
end Foundation

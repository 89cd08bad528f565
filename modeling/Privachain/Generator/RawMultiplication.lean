import Privachain.Generator.RawAddition
import Privachain.Foundation.Montgomery

/-!
# Products of raw elements

The blocks of the multiplications are the rows of a Montgomery product to the
base of a quad word.  Both flags are clear between two blocks, so that the two
carry chains of a block never meet those of the next one.
-/

namespace Privachain
namespace Generator

open Foundation Circuit
open RawElement (residue Canonical)

/-! ## Instructions -/

theorem mulx_spec (rdx source : Word) :
    ∃ high low, mulx rdx source = (high, low) ∧
      low.toNat + 2 ^ 64 * high.toNat = rdx.toNat * source.toNat :=
  ⟨_, _, rfl, wideProduct_toNat rdx source⟩

theorem adcx_spec (flag : Bool) (destination source : Word) :
    ∃ sum carry, adcx flag destination source = (sum, carry) ∧
      sum.toNat + 2 ^ 64 * carry.toNat =
        destination.toNat + source.toNat + flag.toNat :=
  ⟨_, _, rfl, addWithCarry_toNat flag destination source⟩

/-! ## Blocks -/

namespace Accumulator

/-- The number in the four lower registers. -/
def lower (state : Accumulator) : Nat :=
  (RawElement.mk state.r11 state.r12 state.r13 state.r14).toNat

/-- The number in all five registers. -/
def toNat (state : Accumulator) : Nat :=
  state.lower + 2 ^ 256 * state.r15.toNat

/-- Neither carry chain has a carry left. -/
def FlagsClear (state : Accumulator) : Prop :=
  state.cf = false ∧ state.ovf = false

theorem lower_lt (state : Accumulator) : state.lower < 2 ^ 256 :=
  RawElement.toNat_lt _

theorem lower_eq (state : Accumulator) :
    state.lower =
      state.r11.toNat + 2 ^ 64 * (state.r12.toNat +
        2 ^ 64 * (state.r13.toNat + 2 ^ 64 * state.r14.toNat)) :=
  RawElement.toNat_eq _

end Accumulator

/-- A quad word times four limbs, product by product. -/
theorem mul_toNat (word : Word) (element : RawElement) :
    word.toNat * element.toNat =
      word.toNat * element.at0.toNat +
        2 ^ 64 * (word.toNat * element.at8.toNat +
          2 ^ 64 * (word.toNat * element.at16.toNat +
            2 ^ 64 * (word.toNat * element.at24.toNat))) := by
  rw [RawElement.toNat_eq]
  ring

theorem mul_toNat_lt (word : Word) (element : RawElement) :
    word.toNat * element.toNat + 2 ^ 256 ≤ 2 ^ 256 * 2 ^ 64 := by
  calc word.toNat * element.toNat + 2 ^ 256
      ≤ (2 ^ 64 - 1) * 2 ^ 256 + 2 ^ 256 :=
        Nat.add_le_add_right
          (Nat.mul_le_mul (by have := word.isLt; omega) element.toNat_lt.le) _
    _ = 2 ^ 256 * 2 ^ 64 := by norm_num

/-- Carries out of five registers are clear when the number fits in them. -/
theorem flags_clear
    {value total : Nat}
    {cf ovf : Bool}
    (exact :
      value + 2 ^ 256 * (2 ^ 64 * (cf.toNat + ovf.toNat)) = total)
    (bound : total < 2 ^ 256 * 2 ^ 64) :
    (cf = false ∧ ovf = false) ∧ value = total := by
  cases cf <;> cases ovf <;>
    simp only [Bool.toNat_true, Bool.toNat_false] at exact <;>
    first
    | exact ⟨⟨rfl, rfl⟩, by omega⟩
    | omega

/-- The first block multiplies a word with an element. -/
theorem firstLoop_toNat (rdx : Word) (source : RawElement) :
    (firstLoop rdx source).FlagsClear ∧
      (firstLoop rdx source).toNat = rdx.toNat * source.toNat := by
  obtain ⟨high0, low0, product0, exact0⟩ := mulx_spec rdx source.at0
  obtain ⟨high8, low8, product8, exact8⟩ := mulx_spec rdx source.at8
  obtain ⟨high16, low16, product16, exact16⟩ := mulx_spec rdx source.at16
  obtain ⟨high24, low24, product24, exact24⟩ := mulx_spec rdx source.at24
  obtain ⟨r12, cf12, sum12, chain12⟩ := adcx_spec false low8 high0
  obtain ⟨r13, cf13, sum13, chain13⟩ := adcx_spec cf12 low16 high8
  obtain ⟨r14, cf14, sum14, chain14⟩ := adcx_spec cf13 low24 high16
  obtain ⟨r15, cf15, sum15, chain15⟩ := adcx_spec cf14 0 high24
  have whole := mul_toNat rdx source
  have bound := mul_toNat_lt rdx source
  have state : firstLoop rdx source =
      ⟨low0, r12, r13, r14, r15, cf15, false⟩ := by
    simp only [firstLoop, product0, product8, product16, product24,
      sum12, sum13, sum14, sum15]
  have zero : (0 : Word).toNat = 0 := rfl
  have clear : false.toNat = 0 := rfl
  rw [state]
  have value : (Accumulator.mk low0 r12 r13 r14 r15 cf15 false).toNat +
      2 ^ 256 * (2 ^ 64 * (cf15.toNat + false.toNat)) =
        rdx.toNat * source.toNat := by
    rw [whole]
    simp only [Accumulator.toNat, Accumulator.lower_eq]
    linear_combination exact0 + 2 ^ 64 * (exact8 + chain12) +
      2 ^ 128 * (exact16 + chain13) + 2 ^ 192 * (exact24 + chain14) +
      2 ^ 256 * (chain15 + zero) + (2 ^ 64 + 2 ^ 256 * 2 ^ 64) * clear
  exact flags_clear value (by omega)

/-- A later block adds a word times an element to the four lower registers. -/
theorem nextFirstLoop_toNat
    (rdx : Word)
    (source : RawElement)
    {state : Accumulator}
    (clear : state.FlagsClear) :
    (nextFirstLoop rdx source state).FlagsClear ∧
      (nextFirstLoop rdx source state).toNat =
        state.lower + rdx.toNat * source.toNat := by
  obtain ⟨r11, r12, r13, r14, r15, cf, ovf⟩ := state
  obtain ⟨rfl, rfl⟩ := clear
  obtain ⟨high0, low0, product0, exact0⟩ := mulx_spec rdx source.at0
  obtain ⟨high8, low8, product8, exact8⟩ := mulx_spec rdx source.at8
  obtain ⟨high16, low16, product16, exact16⟩ := mulx_spec rdx source.at16
  obtain ⟨high24, low24, product24, exact24⟩ := mulx_spec rdx source.at24
  obtain ⟨s11, cf11, sum11, chain11⟩ := adcx_spec false r11 low0
  obtain ⟨t12, of12, carry12, over12⟩ := adcx_spec false r12 high0
  obtain ⟨s12, cf12, sum12, chain12⟩ := adcx_spec cf11 t12 low8
  obtain ⟨t13, of13, carry13, over13⟩ := adcx_spec of12 r13 high8
  obtain ⟨s13, cf13, sum13, chain13⟩ := adcx_spec cf12 t13 low16
  obtain ⟨t14, of14, carry14, over14⟩ := adcx_spec of13 r14 high16
  obtain ⟨s14, cf14, sum14, chain14⟩ := adcx_spec cf13 t14 low24
  obtain ⟨t15, of15, carry15, over15⟩ := adcx_spec of14 0 high24
  obtain ⟨s15, cf15, sum15, chain15⟩ := adcx_spec cf14 t15 0
  have whole := mul_toNat rdx source
  have bound := mul_toNat_lt rdx source
  have reached : nextFirstLoop rdx source
      ⟨r11, r12, r13, r14, r15, false, false⟩ =
        ⟨s11, s12, s13, s14, s15, cf15, of15⟩ := by
    simp only [nextFirstLoop, product0, product8, product16, product24,
      sum11, carry12, sum12, carry13, sum13, carry14, sum14, carry15, sum15]
  have zero : (0 : Word).toNat = 0 := rfl
  have clear : false.toNat = 0 := rfl
  rw [reached]
  have lowerBound :=
    (Accumulator.mk r11 r12 r13 r14 r15 false false).lower_lt
  have value : (Accumulator.mk s11 s12 s13 s14 s15 cf15 of15).toNat +
      2 ^ 256 * (2 ^ 64 * (cf15.toNat + of15.toNat)) =
        (Accumulator.mk r11 r12 r13 r14 r15 false false).lower +
          rdx.toNat * source.toNat := by
    rw [whole]
    simp only [Accumulator.toNat, Accumulator.lower_eq]
    linear_combination exact0 + chain11 +
      2 ^ 64 * (exact8 + over12 + chain12) +
      2 ^ 128 * (exact16 + over13 + chain13) +
      2 ^ 192 * (exact24 + over14 + chain14) +
      2 ^ 256 * (over15 + chain15 + 2 * zero) + (1 + 2 ^ 64) * clear
  exact flags_clear value (by omega)

/-- The multiple of `q` comes from the lowest register alone. -/
theorem factor_eq
    (state : Accumulator)
    {high low : Word}
    (exact : low.toNat + 2 ^ 64 * high.toNat = np.toNat * state.r11.toNat) :
    Montgomery.factor (2 ^ 64) np.toNat state.toNat = low.toNat := by
  have lowBound := low.isLt
  have digit : state.toNat % 2 ^ 64 = state.r11.toNat := by
    have bound := state.r11.isLt
    rw [Accumulator.toNat, Accumulator.lower_eq]
    omega
  rw [Montgomery.factor, Nat.mul_mod, digit,
    Nat.mod_eq_of_lt np.isLt, Nat.mul_comm, ← exact,
    Nat.add_mul_mod_self_left, Nat.mod_eq_of_lt lowBound]

/-- A second block reduces the registers by one row. -/
theorem secondLoop_lower
    {state : Accumulator}
    (clear : state.FlagsClear)
    (bound : state.toNat + 2 ^ 64 * fieldSize ≤ 2 ^ 256 * 2 ^ 64) :
    (secondLoop state).FlagsClear ∧
      (secondLoop state).lower =
        Montgomery.step (2 ^ 64) fieldSize np.toNat state.toNat := by
  obtain ⟨r11, r12, r13, r14, r15, cf, ovf⟩ := state
  obtain ⟨rfl, rfl⟩ := clear
  obtain ⟨highM, m, productM, exactM⟩ := mulx_spec np r11
  obtain ⟨high0, low0, product0, exact0⟩ := mulx_spec m q.at0
  obtain ⟨high8, low8, product8, exact8⟩ := mulx_spec m q.at8
  obtain ⟨high16, low16, product16, exact16⟩ := mulx_spec m q.at16
  obtain ⟨high24, low24, product24, exact24⟩ := mulx_spec m q.at24
  obtain ⟨cleared, cf10, sum10, chain10⟩ := adcx_spec false low0 r11
  obtain ⟨t11, cf11, sum11, chain11⟩ := adcx_spec cf10 low8 high0
  obtain ⟨s11, of11, carry11, over11⟩ := adcx_spec false t11 r12
  obtain ⟨t12, cf12, sum12, chain12⟩ := adcx_spec cf11 low16 high8
  obtain ⟨s12, of12, carry12, over12⟩ := adcx_spec of11 t12 r13
  obtain ⟨t13, cf13, sum13, chain13⟩ := adcx_spec cf12 low24 high16
  obtain ⟨s13, of13, carry13, over13⟩ := adcx_spec of12 t13 r14
  obtain ⟨t14, cf14, sum14, chain14⟩ := adcx_spec cf13 0 high24
  obtain ⟨s14, of14, carry14, over14⟩ := adcx_spec of13 t14 r15
  have reached : secondLoop ⟨r11, r12, r13, r14, r15, false, false⟩ =
      ⟨s11, s12, s13, s14, r15, cf14, of14⟩ := by
    simp only [secondLoop, productM, product0, product8, product16, product24,
      sum10, sum11, carry11, sum12, carry12, sum13, carry13, sum14, carry14]
  have whole := mul_toNat m q
  have zero : (0 : Word).toNat = 0 := rfl
  have clear : false.toNat = 0 := rfl
  have start := factor_eq
    ⟨r11, r12, r13, r14, r15, false, false⟩ exactM
  have stepExact := Montgomery.base_mul_step base_dvd_np_mul
    (Accumulator.mk r11 r12 r13 r14 r15 false false).toNat
  have mBound := m.isLt
  have multiple : m.toNat * fieldSize < 2 ^ 64 * fieldSize :=
    Nat.mul_lt_mul_of_pos_right mBound (by decide)
  rw [reached]
  have value : cleared.toNat + 2 ^ 64 *
      (Accumulator.mk s11 s12 s13 s14 r15 cf14 of14).lower +
        2 ^ 256 * (2 ^ 64 * (cf14.toNat + of14.toNat)) =
      (Accumulator.mk r11 r12 r13 r14 r15 false false).toNat +
        m.toNat * fieldSize := by
    rw [← q_toNat, whole]
    simp only [Accumulator.toNat, Accumulator.lower_eq]
    linear_combination exact0 + chain10 +
      2 ^ 64 * (exact8 + chain11 + over11) +
      2 ^ 128 * (exact16 + chain12 + over12) +
      2 ^ 192 * (exact24 + chain13 + over13) +
      2 ^ 256 * (chain14 + over14 + zero) + (1 + 2 ^ 64) * clear
  obtain ⟨flags, exact⟩ := flags_clear value (by omega)
  rw [start, ← exact] at stepExact
  have clearedBound := cleared.isLt
  exact ⟨flags, by omega⟩

/-! ## Rows -/

/-- The rows of a product with `q` to the base of a quad word. -/
def row (multiplicand accumulator digit : Nat) : Nat :=
  Montgomery.row (2 ^ 64) fieldSize np.toNat multiplicand accumulator digit

/-- A reduction by one quad word. -/
def reduction (value : Nat) : Nat :=
  Montgomery.step (2 ^ 64) fieldSize np.toNat value

theorem two_pow_64_mul_fieldSize_lt :
    2 ^ 64 * fieldSize * 2 + 2 * fieldSize ≤ 2 ^ 256 * 2 ^ 64 := by
  decide

theorem word_mul_canonical_lt
    (word : Word)
    {element : RawElement}
    (canonical : element.Canonical) :
    word.toNat * element.toNat < 2 ^ 64 * fieldSize :=
  Nat.mul_lt_mul'' word.isLt canonical

theorem firstRow
    (rdx : Word)
    {source : RawElement}
    (canonical : source.Canonical) :
    (secondLoop (firstLoop rdx source)).FlagsClear ∧
      (secondLoop (firstLoop rdx source)).lower =
        reduction (rdx.toNat * source.toNat) := by
  obtain ⟨clear, value⟩ := firstLoop_toNat rdx source
  have product := word_mul_canonical_lt rdx canonical
  have limit := two_pow_64_mul_fieldSize_lt
  rw [← value]
  exact secondLoop_lower clear (by rw [value]; omega)

theorem nextRow
    (rdx : Word)
    {source : RawElement}
    {state : Accumulator}
    (canonical : source.Canonical)
    (clear : state.FlagsClear)
    (bound : state.lower < 2 * fieldSize) :
    (secondLoop (nextFirstLoop rdx source state)).FlagsClear ∧
      (secondLoop (nextFirstLoop rdx source state)).lower =
        row source.toNat state.lower rdx.toNat := by
  obtain ⟨nextClear, value⟩ := nextFirstLoop_toNat rdx source clear
  have product := word_mul_canonical_lt rdx canonical
  have limit := two_pow_64_mul_fieldSize_lt
  unfold row Montgomery.row
  rw [← value]
  exact secondLoop_lower nextClear (by rw [value]; omega)

theorem clearTop_row
    {state : Accumulator}
    (clear : state.FlagsClear)
    (bound : state.lower < 2 * fieldSize) :
    (secondLoop (clearTop state)).FlagsClear ∧
      (secondLoop (clearTop state)).lower = reduction state.lower := by
  have limit := two_pow_64_mul_fieldSize_lt
  have value : (clearTop state).toNat = state.lower := by
    simp [Accumulator.toNat, Accumulator.lower, clearTop]
  have positive : 0 < fieldSize := by decide
  rw [← value]
  exact secondLoop_lower clear (by rw [value]; omega)

theorem row_bound
    (word : Word)
    {element : RawElement}
    (canonical : element.Canonical)
    {accumulator : Nat}
    (bound : accumulator < 2 * fieldSize) :
    row element.toNat accumulator word.toNat < 2 * fieldSize :=
  Montgomery.row_lt base_dvd_np_mul canonical bound word.isLt

theorem reduction_bound
    {value : Nat}
    (bound : value < 2 ^ 64 * fieldSize) :
    reduction value < 2 * fieldSize := by
  have next := Montgomery.step_lt base_dvd_np_mul (by decide) bound
  rw [← Nat.two_mul] at next
  exact next

theorem finish_toNat
    {state : Accumulator}
    (bound : state.lower < 2 * fieldSize) :
    (finish state).toNat = state.lower % fieldSize := by
  have exact : (RawElement.mk state.r11 state.r12 state.r13 state.r14).toNat +
      2 ^ 256 * false.toNat = state.lower := by
    rw [Bool.toNat_false, Nat.mul_zero, Nat.add_zero, Accumulator.lower]
  have once := @subtractOnce_toNat (_, false) _ exact bound
  rw [subtractOnce, if_neg Bool.false_ne_true] at once
  exact once

/-! ## The routines -/

/-- The multiplication is the Montgomery product of the limbs. -/
theorem rawMMul_toNat
    (left : RawElement)
    {right : RawElement}
    (canonical : right.Canonical) :
    (rawMMul left right).toNat =
      Montgomery.product (2 ^ 64) fieldSize np.toNat right.toNat
        (left.limbs.map BitVec.toNat) % fieldSize := by
  have zero : 0 < 2 * fieldSize := by decide
  obtain ⟨clear0, lower0⟩ := firstRow left.at0 canonical
  have first : (secondLoop (firstLoop left.at0 right)).lower =
      row right.toNat 0 left.at0.toNat := by
    rw [lower0, row, Montgomery.row, Nat.zero_add, reduction]
  have bound0 := row_bound left.at0 canonical zero
  rw [← first] at bound0
  obtain ⟨clear8, lower8⟩ := nextRow left.at8 canonical clear0 bound0
  have bound8 := row_bound left.at8 canonical bound0
  rw [← lower8] at bound8
  obtain ⟨clear16, lower16⟩ := nextRow left.at16 canonical clear8 bound8
  have bound16 := row_bound left.at16 canonical bound8
  rw [← lower16] at bound16
  obtain ⟨-, lower24⟩ := nextRow left.at24 canonical clear16 bound16
  have bound24 := row_bound left.at24 canonical bound16
  rw [← lower24] at bound24
  have rows : Montgomery.product (2 ^ 64) fieldSize np.toNat right.toNat
      (left.limbs.map BitVec.toNat) =
    row right.toNat (row right.toNat (row right.toNat
      (row right.toNat 0 left.at0.toNat) left.at8.toNat) left.at16.toNat)
        left.at24.toNat := by
    rw [RawElement.limbs, List.map_cons, List.map_cons, List.map_cons,
      List.map_cons, List.map_nil, Montgomery.product_four]
    unfold row
    rfl
  rw [rawMMul, rows, finish_toNat bound24, lower24, lower16, lower8, first]

/-- A reduction by all four quad words. -/
def fourReductions (value : Nat) : Nat :=
  reduction (reduction (reduction (reduction value)))

/-- The reductions that follow the first one. -/
theorem clearTop_fourReductions
    {state : Accumulator}
    {value : Nat}
    (clear : state.FlagsClear)
    (lower : state.lower = reduction value)
    (bound : reduction value < 2 * fieldSize) :
    (finish (secondLoop (clearTop (secondLoop (clearTop
        (secondLoop (clearTop state))))))).toNat =
      fourReductions value % fieldSize := by
  have next {value : Nat} (small : value < 2 * fieldSize) :
      reduction value < 2 * fieldSize :=
    reduction_bound (small.trans_le (Nat.mul_le_mul_right _ (by decide)))
  rw [← lower] at bound
  obtain ⟨clear1, lower1⟩ := clearTop_row clear bound
  have bound1 := next bound
  rw [← lower1] at bound1
  obtain ⟨clear2, lower2⟩ := clearTop_row clear1 bound1
  have bound2 := next bound1
  rw [← lower2] at bound2
  obtain ⟨-, lower3⟩ := clearTop_row clear2 bound2
  have bound3 := next bound2
  rw [← lower3] at bound3
  rw [finish_toNat bound3, lower3, lower2, lower1, lower, fourReductions]

theorem rawMMul1_toNat
    {element : RawElement}
    (canonical : element.Canonical)
    (value : Word) :
    (rawMMul1 element value).toNat =
      fourReductions (value.toNat * element.toNat) % fieldSize := by
  obtain ⟨clear, lower⟩ := firstRow value canonical
  rw [rawMMul1]
  exact clearTop_fourReductions clear lower
    (reduction_bound (word_mul_canonical_lt value canonical))

theorem rawFromMontgomery_toNat (element : RawElement) :
    (rawFromMontgomery element).toNat =
      fourReductions element.toNat % fieldSize := by
  have loaded : (loadElement element).toNat = element.toNat := by
    simp [Accumulator.toNat, Accumulator.lower, loadElement]
  have bound := element.toNat_lt
  have limit : 2 ^ 256 < 2 ^ 64 * fieldSize := by decide
  obtain ⟨clear, lower⟩ := @secondLoop_lower
    (loadElement element) ⟨rfl, rfl⟩ (by
      have wide : 2 ^ 256 + 2 ^ 64 * fieldSize ≤ 2 ^ 256 * 2 ^ 64 := by decide
      rw [loaded]
      omega)
  rw [loaded] at lower
  rw [rawFromMontgomery]
  exact clearTop_fourReductions clear lower (reduction_bound (by omega))

/-! ## The field operations -/

/-- The radix of the Montgomery form. -/
def radix : Fr := ((2 ^ 256 : Nat) : Fr)

theorem radix_mul_inv : radix * radix⁻¹ = 1 :=
  ZMod.coe_mul_inv_eq_one _ (by decide)

/-- The radix can be divided out. -/
theorem eq_mul_radix_inv
    {result value : Fr}
    (exact : radix * result = value) : result = value * radix⁻¹ := by
  rw [← exact, mul_right_comm, radix_mul_inv, one_mul]

theorem radix_eq : (((2 ^ 64 : Nat) : Fr)) ^ 4 = radix := by
  rw [radix, ← Nat.cast_pow, ← pow_mul]

theorem cast_product
    (left : RawElement)
    {right : RawElement}
    (canonical : right.Canonical) :
    radix * (Montgomery.product (2 ^ 64) fieldSize np.toNat right.toNat
      (left.limbs.map BitVec.toNat) : Nat) = left.residue * right.residue := by
  obtain ⟨bound, multiple, equation⟩ := Montgomery.product_spec base_dvd_np_mul
    canonical (left.limbs.map BitVec.toNat) (by
      intro digit member
      obtain ⟨limb, -, rfl⟩ := List.mem_map.mp member
      exact limb.isLt)
  have cast := congrArg (Nat.cast (R := Fr)) equation
  rw [Nat.cast_mul, Nat.cast_pow, Nat.cast_add, Nat.cast_mul, Nat.cast_mul,
    ZMod.natCast_self, mul_zero, add_zero] at cast
  rw [← radix_eq]
  exact cast

/-- `Fr_rawMMul` multiplies and divides by the radix. -/
theorem rawMMul_holds
    (left : RawElement)
    {right : RawElement}
    {second : Fr}
    (rightHolds : Holds right second) :
    Holds (rawMMul left right) (left.residue * second * radix⁻¹) := by
  have product := holds_of_toNat (rawMMul_toNat left rightHolds.1)
  rwa [eq_mul_radix_inv (cast_product left rightHolds.1),
    rightHolds.2] at product

/-- `Fr_rawMSquare` is the multiplication of an element with itself. -/
theorem rawMSquare_eq (element : RawElement) :
    rawMSquare element = rawMMul element element := rfl

theorem cast_fourReductions (value : Nat) :
    (fourReductions value : Fr) = (value : Fr) * radix⁻¹ := by
  obtain ⟨multiple, equation⟩ :=
    Montgomery.pow_mul_four_steps base_dvd_np_mul (by decide) value
  have cast := congrArg (Nat.cast (R := Fr)) equation
  rw [Nat.cast_mul, Nat.cast_pow, Nat.cast_add, Nat.cast_mul,
    ZMod.natCast_self, mul_zero, add_zero] at cast
  apply eq_mul_radix_inv
  rw [← radix_eq]
  exact cast

/-- `Fr_rawMMul1` multiplies with a quad word and divides by the radix. -/
theorem rawMMul1_holds
    {element : RawElement}
    {first : Fr}
    (holds : Holds element first)
    (value : Word) :
    Holds (rawMMul1 element value) (first * value.toNat * radix⁻¹) := by
  have product := holds_of_toNat (rawMMul1_toNat holds.1 value)
  rwa [cast_fourReductions, Nat.cast_mul, ← residue, holds.2,
    mul_comm (value.toNat : Fr)] at product

/-- `Fr_rawFromMontgomery` divides by the radix. -/
theorem rawFromMontgomery_holds (element : RawElement) :
    Holds (rawFromMontgomery element) (element.residue * radix⁻¹) := by
  have reduced := holds_of_toNat (rawFromMontgomery_toNat element)
  rwa [cast_fourReductions, ← residue] at reduced

theorem R2_holds : Holds R2 (radix * radix) := by
  have holds := holds_of_toNat R2_toNat
  rw [Nat.cast_mul] at holds
  unfold radix
  exact holds

theorem R3_holds : Holds R3 (radix * radix * radix) := by
  have holds := holds_of_toNat R3_toNat
  have square := R2_holds.2
  rw [Nat.cast_mul, ← residue, square] at holds
  exact holds

/-- `Fr_rawToMontgomery` multiplies by the radix. -/
theorem rawToMontgomery_holds (element : RawElement) :
    Holds (rawToMontgomery element) (element.residue * radix) := by
  have product := rawMMul_holds element R2_holds
  rwa [← mul_assoc, mul_assoc _ _ radix⁻¹, radix_mul_inv, mul_one] at product

/-- A signed quad word is multiplied by its magnitude. -/
theorem signedMMul1_holds
    {element : RawElement}
    {first : Fr}
    (holds : Holds element first)
    (value : Word) :
    Holds (signedMMul1 element value) (first * value.toInt * radix⁻¹) := by
  unfold signedMMul1
  cases sign : value.msb
  · rw [if_neg Bool.false_ne_true, ← cast_toNat_of_not_msb sign]
    exact rawMMul1_holds holds value
  · rw [if_pos rfl]
    have product := rawNegL_holds (rawMMul1_holds holds (-value))
    rwa [cast_toNat_neg_of_msb sign, mul_neg, neg_mul, neg_neg] at product

/-! ## Forms -/

/-- What multiplies with a unit and its inverse cancels. -/
theorem cancel_units
    {R : Type*}
    [CommRing R]
    {unit inverse : R}
    (cancels : unit * inverse = 1)
    (first second : R) :
    first * inverse * (unit * unit * unit) * inverse = first * unit ∧
      first * unit * (second * unit) * inverse = first * second * unit ∧
      first * unit * inverse = first := by
  refine ⟨?_, ?_, ?_⟩
  · linear_combination (first * unit) * (unit * inverse + 1) * cancels
  · linear_combination (first * second * unit) * cancels
  · linear_combination first * cancels

/-- The third power of the radix restores a Montgomery form after two
divisions. -/
theorem mul_radix_cubed (value : Fr) :
    value * radix⁻¹ * (radix * radix * radix) * radix⁻¹ = value * radix :=
  (cancel_units radix_mul_inv value 0).1

/-- The product of two Montgomery forms is one again. -/
theorem mul_radix_mul_radix (first second : Fr) :
    first * radix * (second * radix) * radix⁻¹ = first * second * radix :=
  (cancel_units radix_mul_inv first second).2.1

theorem mul_radix_mul_inv (value : Fr) : value * radix * radix⁻¹ = value :=
  (cancel_units radix_mul_inv value 0).2.2

end Generator
end Privachain

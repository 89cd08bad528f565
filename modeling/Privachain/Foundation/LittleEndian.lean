import Mathlib.Data.Nat.Digits.Defs
import Mathlib.Tactic.Ring

/-!
# Numbers as bytes, the lowest byte first

A number below a power of the base is determined by its bytes, and the bytes of
a sequence of words are those of the number that has the words as its digits.
-/

namespace Foundation

/-- The lowest bytes of a number, the lowest one first. -/
def littleEndian : Nat -> Nat -> List (BitVec 8)
  | 0, _ => []
  | count + 1, value => BitVec.ofNat 8 value :: littleEndian count (value / 2 ^ 8)

@[simp] theorem length_littleEndian (count value : Nat) :
    (littleEndian count value).length = count := by
  induction count generalizing value with
  | zero => rfl
  | succ count inductionHypothesis =>
      rw [littleEndian, List.length_cons, inductionHypothesis]

/-- A low part and a high part are written one after the other. -/
theorem littleEndian_add
    {count low : Nat}
    (small : low < 2 ^ (8 * count))
    (rest high : Nat) :
    littleEndian (count + rest) (low + 2 ^ (8 * count) * high) =
      littleEndian count low ++ littleEndian rest high := by
  induction count generalizing low with
  | zero =>
      have isZero : low = 0 := Nat.lt_one_iff.mp small
      rw [isZero, Nat.zero_add, Nat.zero_add, Nat.mul_zero, Nat.pow_zero,
        Nat.one_mul]
      rfl
  | succ count inductionHypothesis =>
      have split : 2 ^ (8 * (count + 1)) = 2 ^ 8 * 2 ^ (8 * count) := by
        rw [← Nat.pow_add, Nat.mul_succ, Nat.add_comm]
      rw [split] at small
      have quotient : (low + 2 ^ (8 * (count + 1)) * high) / 2 ^ 8 =
          low / 2 ^ 8 + 2 ^ (8 * count) * high := by
        rw [split, Nat.mul_assoc, Nat.add_mul_div_left _ _ (by decide)]
      have lowest : BitVec.ofNat 8 (low + 2 ^ (8 * (count + 1)) * high) =
          BitVec.ofNat 8 low := by
        apply BitVec.eq_of_toNat_eq
        rw [BitVec.toNat_ofNat, BitVec.toNat_ofNat, split, Nat.mul_assoc,
          Nat.add_mul_mod_self_left]
      have next := inductionHypothesis (Nat.div_lt_of_lt_mul small)
      rw [Nat.add_right_comm, littleEndian, littleEndian, quotient, lowest, next,
        List.cons_append]

/-- The bytes of words are those of the number with these digits. -/
theorem flatMap_littleEndian
    {width : Nat}
    {words : List Nat}
    (small : ∀ word ∈ words, word < 2 ^ (8 * width)) :
    words.flatMap (littleEndian width) =
      littleEndian (width * words.length)
        (Nat.ofDigits (2 ^ (8 * width)) words) := by
  induction words with
  | nil => rfl
  | cons word words inductionHypothesis =>
      rw [List.forall_mem_cons] at small
      rw [List.flatMap_cons, inductionHypothesis small.2, Nat.ofDigits_cons,
        List.length_cons, Nat.mul_succ, Nat.add_comm (width * words.length),
        littleEndian_add small.1]

/-- Numbers in range with the same bytes are equal. -/
theorem littleEndian_injective
    {count first second : Nat}
    (firstSmall : first < 2 ^ (8 * count))
    (secondSmall : second < 2 ^ (8 * count))
    (equal : littleEndian count first = littleEndian count second) :
    first = second := by
  induction count generalizing first second with
  | zero =>
      rw [Nat.lt_one_iff.mp firstSmall, Nat.lt_one_iff.mp secondSmall]
  | succ count inductionHypothesis =>
      have split : 2 ^ (8 * (count + 1)) = 2 ^ 8 * 2 ^ (8 * count) := by
        rw [← Nat.pow_add, Nat.mul_succ, Nat.add_comm]
      rw [split] at firstSmall secondSmall
      obtain ⟨lowest, rest⟩ := List.cons.inj equal
      have higher := inductionHypothesis (Nat.div_lt_of_lt_mul firstSmall)
        (Nat.div_lt_of_lt_mul secondSmall) rest
      have lower : first % 2 ^ 8 = second % 2 ^ 8 := by
        simpa only [BitVec.toNat_ofNat] using congrArg BitVec.toNat lowest
      omega

/-- Records of one length are read back from their sequence. -/
theorem flatMap_injective_of_length
    {α β : Type}
    {record : α -> List β}
    {length : Nat}
    (lengths : ∀ a, (record a).length = length)
    {first second : List α}
    (same : first.length = second.length)
    (equal : first.flatMap record = second.flatMap record) :
    first.map record = second.map record := by
  induction first generalizing second with
  | nil =>
      rw [List.eq_nil_of_length_eq_zero same.symm]
  | cons head tail inductionHypothesis =>
      cases second with
      | nil => cases same
      | cons other others =>
          rw [List.flatMap_cons, List.flatMap_cons] at equal
          obtain ⟨heads, tails⟩ := List.append_inj equal
            ((lengths head).trans (lengths other).symm)
          rw [List.map_cons, List.map_cons, heads,
            inductionHypothesis (Nat.succ.inj same) tails]

end Foundation

import Privachain.Client.Authentication
import Privachain.Foundation.PolynomialHash

/-!
# The hash of a PIN

`hashPin` is a polynomial hash to the base 31 in 32 bits, and drops the sign of
the hash.  Every hash has strings under every salt, and two salts share the
strings of a hash only when they move the hashes alike.
-/

namespace Privachain
namespace Client

open Foundation
open Foundation.JavaScript

/-! ## Words -/

/-- The 32 bits of the hash of a text, before its sign is dropped. -/
def hashWord (text : String) : ZMod 4294967296 :=
  polynomialHash 31 (codeUnits text)

theorem codeUnits_append (first second : String) :
    codeUnits (first ++ second) = codeUnits first ++ codeUnits second := by
  rw [codeUnits, String.toList_append, List.flatMap_append]
  rfl

theorem hashWord_append (pin salt : String) :
    hashWord (pin ++ salt) =
      hashSlope 31 (codeUnits salt) * hashWord pin + hashWord salt := by
  rw [hashWord, codeUnits_append, polynomialHash_append]
  rfl

theorem cast_toInt32 (value : Int) :
    ((toInt32 value : Int) : ZMod 4294967296) = value := by
  rw [ZMod.intCast_eq_intCast_iff_dvd_sub]
  exact Int.dvd_self_sub_bmod

/-- A step of the loop is one of the polynomial hash. -/
theorem cast_hashStep (hash : Int) (char : Nat) :
    ((hashStep hash char : Int) : ZMod 4294967296) =
      hashDigit 31 (hash : ZMod 4294967296) char := by
  rw [hashStep, cast_toInt32, hashDigit]
  push_cast
  rw [cast_toInt32]
  push_cast
  ring

theorem cast_hash (text : String) :
    (((codeUnits text).foldl hashStep 0 : Int) : ZMod 4294967296) =
      hashWord text := by
  rw [hashWord, polynomialHash,
    ← List.foldl_hom (fun hash : Int => (hash : ZMod 4294967296))
      fun hash char => (cast_hashStep hash char).symm, Int.cast_zero]

/-- The loop stays within 32 bits. -/
theorem hash_bounds (units : List Nat) :
    -2147483648 ≤ units.foldl hashStep 0 ∧
      units.foldl hashStep 0 < 2147483648 := by
  induction units using List.reverseRecOn with
  | nil => decide
  | append_singleton earlier char _ =>
      rw [List.foldl_append]
      exact ⟨Int.le_bmod (by decide), Int.bmod_lt (by decide)⟩

/-! ## Equal hashes -/

theorem digitChar_inj :
    ∀ m < 16, ∀ n < 16, Nat.digitChar m = Nat.digitChar n -> m = n := by
  decide

theorem toDigits_ne_append
    {n : Nat}
    (oneDigit : n < 16)
    {quotient digit : Nat} :
    Nat.toDigits 16 n ≠ Nat.toDigits 16 quotient ++ [Nat.digitChar digit] := by
  intro same
  rw [Nat.toDigits_of_lt_base oneDigit] at same
  have lengths := congrArg List.length same
  have positive : 0 < (Nat.toDigits 16 quotient).length :=
    Nat.length_toDigits_pos
  simp only [List.length_append, List.length_singleton] at lengths
  omega

/-- A number is determined by its text to the base 16. -/
theorem toDigits_inj
    {m n : Nat}
    (same : Nat.toDigits 16 m = Nat.toDigits 16 n) :
    m = n := by
  have split : ∀ k, ¬k < 16 -> Nat.toDigits 16 k =
      Nat.toDigits 16 (k / 16) ++ [Nat.digitChar (k % 16)] :=
    fun k large => Nat.toDigits_of_base_le (by decide) (Nat.le_of_not_lt large)
  induction m using Nat.strongRecOn generalizing n with
  | ind m inductionHypothesis =>
      by_cases oneDigit : m < 16
      · by_cases oneDigitToo : n < 16
        · rw [Nat.toDigits_of_lt_base oneDigit,
            Nat.toDigits_of_lt_base oneDigitToo] at same
          exact digitChar_inj m oneDigit n oneDigitToo (List.singleton_inj.mp same)
        · rw [split n oneDigitToo] at same
          exact absurd same (toDigits_ne_append oneDigit)
      · rw [split m oneDigit] at same
        by_cases oneDigitToo : n < 16
        · exact absurd same.symm (toDigits_ne_append oneDigitToo)
        · rw [split n oneDigitToo] at same
          obtain ⟨sameFront, sameLast⟩ := List.append_inj' same rfl
          have quotients := inductionHypothesis (m / 16) (by omega) sameFront
          have remainders := digitChar_inj _ (Nat.mod_lt m (by decide)) _
            (Nat.mod_lt n (by decide)) (List.singleton_inj.mp sameLast)
          omega

/-- Two hashes are the same text when their words agree up to the sign. -/
theorem hashPin_eq_iff (pin salt other otherSalt : String) :
    hashPin pin salt = hashPin other otherSalt ↔
      hashWord (pin ++ salt) = hashWord (other ++ otherSalt) ∨
        hashWord (pin ++ salt) = -hashWord (other ++ otherSalt) := by
  have sameText : hashPin pin salt = hashPin other otherSalt ↔
      ((codeUnits (pin ++ salt)).foldl hashStep 0).natAbs =
        ((codeUnits (other ++ otherSalt)).foldl hashStep 0).natAbs := by
    constructor
    · intro same
      exact toDigits_inj (String.ofList_injective same)
    · intro same
      rw [hashPin, hashPin, same]
  rw [sameText, ← cast_hash, ← cast_hash]
  have bounds := hash_bounds (codeUnits (pin ++ salt))
  have otherBounds := hash_bounds (codeUnits (other ++ otherSalt))
  generalize (codeUnits (pin ++ salt)).foldl hashStep 0 = hash at bounds ⊢
  generalize (codeUnits (other ++ otherSalt)).foldl hashStep 0 = otherHash
    at otherBounds ⊢
  constructor
  · intro same
    rcases Int.natAbs_eq_natAbs_iff.mp same with rfl | rfl
    · exact .inl rfl
    · exact .inr (Int.cast_neg _)
  · rintro (same | opposite)
    · rw [ZMod.intCast_eq_intCast_iff_dvd_sub] at same
      omega
    · rw [← Int.cast_neg, ZMod.intCast_eq_intCast_iff_dvd_sub] at opposite
      omega

/-! ## Hashes of every salt -/

/-- The text with given code units below the base. -/
theorem codeUnits_ofList_map
    {digits : List Nat}
    (areDigits : ∀ digit ∈ digits, digit < 31) :
    codeUnits (String.ofList (digits.map Char.ofNat)) = digits := by
  rw [codeUnits, String.toList_ofList, List.flatMap_map]
  induction digits with
  | nil => rfl
  | cons digit rest inductionHypothesis =>
      rw [List.forall_mem_cons] at areDigits
      have unit : ∀ d < 31, unitsOf (Char.ofNat d) = [d] := by decide
      rw [List.flatMap_cons, inductionHypothesis areDigits.2,
        unit digit areDigits.1, List.singleton_append]

theorem exists_hashWord (word : ZMod 4294967296) :
    ∃ text, hashWord text = word := by
  obtain ⟨digits, areDigits, isHash⟩ :=
    exists_polynomialHash (by decide : 1 < 31) word
  refine ⟨String.ofList (digits.map Char.ofNat), ?_⟩
  rw [hashWord, codeUnits_ofList_map areDigits]
  exact isHash

theorem isUnit_slope (salt : String) :
    IsUnit (hashSlope (31 : ZMod 4294967296) (codeUnits salt)) := by
  have coprime : IsUnit ((31 : Nat) : ZMod 4294967296) :=
    (ZMod.isUnit_iff_coprime _ _).mpr (by decide +kernel)
  exact coprime.pow _

/-- Every hash has a string under every salt. -/
theorem exists_hashPin_eq (pin salt stored : String) :
    ∃ q, hashPin q stored = hashPin pin salt := by
  obtain ⟨inverse, isInverse⟩ := (isUnit_slope stored).exists_right_inv
  obtain ⟨q, isWord⟩ :=
    exists_hashWord (inverse * (hashWord (pin ++ salt) - hashWord stored))
  refine ⟨q, (hashPin_eq_iff _ _ _ _).mpr (.inl ?_)⟩
  rw [hashWord_append, isWord]
  linear_combination
    (hashWord (pin ++ salt) - hashWord stored) * isInverse

/-- Two salts map the words of the PINs with the same centre. -/
def SaltsAlike (salt stored : String) : Prop :=
  SameCentre (hashSlope 31 (codeUnits salt)) (hashSlope 31 (codeUnits stored))
    (hashWord salt) (hashWord stored)

/-- The strings with the hash of a PIN under one salt are those with its hash
under another one exactly when the salts are alike. -/
theorem sameHashes_iff (pin salt stored : String) :
    (∀ q, hashPin q salt = hashPin pin salt ↔
      hashPin q stored = hashPin pin stored) ↔
      SaltsAlike salt stored := by
  simp only [hashPin_eq_iff, hashWord_append]
  rw [SaltsAlike, ← affine_agree_iff (isUnit_slope salt) (isUnit_slope stored)
    (hashWord salt) (hashWord stored) (hashWord pin)]
  constructor
  · intro agree word
    obtain ⟨q, rfl⟩ := exists_hashWord word
    exact agree q
  · intro agree q
    exact agree (hashWord q)

end Client
end Privachain

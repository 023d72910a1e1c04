import Mathlib.Order.Monotone.Basic
import Mathlib.Tactic.Ring
import MappingSweep.Number.Binary64
import MappingSweep.Number.Numeral

/-!
# The order of binary64 values

The total order puts every pattern at a rank of its own, and a value that is less than another one
has the lower rank.  Leaving out the fraction keeps the order by value, so the whole part of the
greater one of two values is the greater one of their whole parts.
-/

namespace MappingSweep
namespace Number
namespace Binary64

variable {x y : Binary64}

theorem toNat_bits_lt (x : Binary64) : x.bits.toNat < 2 ^ 64 :=
  x.bits.toNat_lt

theorem isNegative_iff : x.isNegative = true ↔ 2 ^ 63 ≤ x.bits.toNat := by
  simp [isNegative]

theorem rank_of_negative (h : x.isNegative = true) : x.rank = 2 ^ 64 - 1 - x.bits.toNat := by
  rw [rank, if_pos h, Nat.pow_eq]

theorem rank_of_not_negative (h : x.isNegative = false) : x.rank = x.bits.toNat + 2 ^ 63 := by
  rw [rank, h, Nat.pow_eq]
  rfl

theorem rank_lt_iff : x.rank < 2 ^ 63 ↔ x.isNegative = true := by
  have hbits := x.toNat_bits_lt
  cases h : x.isNegative with
  | true =>
    have hneg := isNegative_iff.mp h
    rw [rank_of_negative h, eq_self, iff_true]
    omega
  | false =>
    rw [rank_of_not_negative h, Bool.false_eq_true, iff_false]
    omega

theorem rank_injective : Function.Injective rank := by
  intro x y h
  have hx := x.toNat_bits_lt
  have hy := y.toNat_bits_lt
  have hsign : x.isNegative = y.isNegative := by
    rw [Bool.eq_iff_iff, ← rank_lt_iff, ← rank_lt_iff, h]
  have hbits : x.bits.toNat = y.bits.toNat := by
    cases hneg : y.isNegative with
    | true =>
      rw [rank_of_negative hneg, rank_of_negative (hsign.trans hneg)] at h
      omega
    | false =>
      rw [rank_of_not_negative hneg, rank_of_not_negative (hsign.trans hneg)] at h
      omega
  cases x
  cases y
  exact congrArg mk (UInt64.toNat_inj.mp hbits)

theorem totalLE_iff : totalLE x y = true ↔ x.rank ≤ y.rank := by
  simp [totalLE]

/-- The pattern without its sign. -/
def unsignedBits (x : Binary64) : Nat :=
  x.bits.toNat % 2 ^ 63

/-- The magnitude that a pattern without a sign stands for. -/
def unitsOf (n : Nat) : Nat :=
  if n / 2 ^ 52 = 0 then n % 2 ^ 52 else (2 ^ 52 + n % 2 ^ 52) * 2 ^ (n / 2 ^ 52 - 1)

theorem unsignedBits_of_negative (h : x.isNegative = true) :
    x.bits.toNat = x.unsignedBits + 2 ^ 63 := by
  have hneg := isNegative_iff.mp h
  have hbits := x.toNat_bits_lt
  unfold unsignedBits
  omega

theorem unsignedBits_of_not_negative (h : x.isNegative = false) :
    x.bits.toNat = x.unsignedBits := by
  have hneg : ¬ 2 ^ 63 ≤ x.bits.toNat := fun hle => by simp [isNegative_iff.mpr hle] at h
  unfold unsignedBits
  omega

theorem biasedExponent_eq (x : Binary64) : x.biasedExponent = x.unsignedBits / 2 ^ 52 := by
  simp only [biasedExponent, unsignedBits, Nat.pow_eq]
  omega

theorem fraction_eq (x : Binary64) : x.fraction = x.unsignedBits % 2 ^ 52 := by
  simp only [fraction, unsignedBits, Nat.pow_eq]
  omega

theorem units_eq (x : Binary64) : x.units = unitsOf x.unsignedBits := by
  simp only [units, unitsOf, biasedExponent_eq, fraction_eq, Nat.pow_eq]

/-- The next pattern has a greater fraction, or the next exponent after all fractions. -/
theorem unitsOf_lt_succ (n : Nat) : unitsOf n < unitsOf (n + 1) := by
  have hfraction : n % 2 ^ 52 < 2 ^ 52 := Nat.mod_lt n (Nat.two_pow_pos 52)
  by_cases hlast : n % 2 ^ 52 + 1 = 2 ^ 52
  · have hexponent : (n + 1) / 2 ^ 52 = n / 2 ^ 52 + 1 := by omega
    have hzero : (n + 1) % 2 ^ 52 = 0 := by omega
    rw [unitsOf, unitsOf, hexponent, hzero, if_neg (Nat.succ_ne_zero _), Nat.add_sub_cancel]
    split
    · -- the first normal exponent has the scale of the subnormal values
      rename_i hsubnormal
      rw [hsubnormal]
      omega
    · rename_i hnormal
      obtain ⟨k, hk⟩ := Nat.exists_eq_succ_of_ne_zero hnormal
      have hpos : 0 < 2 ^ k := Nat.two_pow_pos k
      have hdouble : (2 ^ 52 + 0) * 2 ^ (k + 1) = (2 ^ 52 + 2 ^ 52) * 2 ^ k := by ring
      rw [hk, Nat.succ_eq_add_one, Nat.add_sub_cancel, hdouble]
      exact Nat.mul_lt_mul_of_pos_right (Nat.add_lt_add_left hfraction _) hpos
  · have hexponent : (n + 1) / 2 ^ 52 = n / 2 ^ 52 := by omega
    have hnext : (n + 1) % 2 ^ 52 = n % 2 ^ 52 + 1 := by omega
    rw [unitsOf, unitsOf, hexponent, hnext]
    split
    · exact Nat.lt_succ_self _
    · exact Nat.mul_lt_mul_of_pos_right (by omega) (Nat.two_pow_pos _)

theorem strictMono_unitsOf : StrictMono unitsOf :=
  strictMono_nat_of_lt_succ unitsOf_lt_succ

theorem units_lt_iff : x.units < y.units ↔ x.unsignedBits < y.unsignedBits := by
  rw [units_eq, units_eq, strictMono_unitsOf.lt_iff_lt]

theorem less_iff : x.less y = true ↔
    x.isNotANumber = false ∧ y.isNotANumber = false ∧ x.signedUnits < y.signedUnits := by
  simp [less, and_assoc]

/-- The total order agrees with the order by value, wherever that one tells two values apart. -/
theorem rank_lt_of_less (h : x.less y = true) : x.rank < y.rank := by
  obtain ⟨-, -, hlt⟩ := less_iff.mp h
  unfold signedUnits at hlt
  cases hx : x.isNegative with
  | true =>
    cases hy : y.isNegative with
    | true =>
      -- of two negative values the lesser one has the greater pattern, which the rank turns round
      have hunits : y.unsignedBits < x.unsignedBits := units_lt_iff.mp (by simpa [hx, hy] using hlt)
      have hbits := x.toNat_bits_lt
      rw [rank_of_negative hx, rank_of_negative hy, unsignedBits_of_negative hx,
        unsignedBits_of_negative hy]
      rw [unsignedBits_of_negative hx] at hbits
      omega
    | false =>
      have hrank := rank_lt_iff.mpr hx
      rw [rank_of_not_negative hy]
      omega
  | false =>
    cases hy : y.isNegative with
    | true =>
      simp only [hx, hy, Bool.false_eq_true, if_false, if_true] at hlt
      omega
    | false =>
      have hunits : x.unsignedBits < y.unsignedBits := units_lt_iff.mp (by simpa [hx, hy] using hlt)
      rw [rank_of_not_negative hx, rank_of_not_negative hy, unsignedBits_of_not_negative hx,
        unsignedBits_of_not_negative hy]
      omega

theorem floorScaled_eq (m : Nat) {q : Int} {k n : Nat} (h : q + k = n) :
    floorScaled m q = m * 2 ^ n / 2 ^ k := by
  unfold floorScaled
  split
  · rename_i d
    have hn : n = d + k := by
      simp only [Int.ofNat_eq_natCast] at h
      omega
    rw [hn, Nat.pow_add, ← Nat.mul_assoc, Nat.mul_div_cancel _ (Nat.two_pow_pos k), Nat.pow_eq]
  · rename_i d
    have hk : k = d + 1 + n := by omega
    rw [hk, Nat.pow_add, Nat.mul_div_mul_right _ _ (Nat.two_pow_pos n), Nat.pow_eq]

theorem units_of_normal (h : x.biasedExponent ≠ 0) :
    x.units = (2 ^ 52 + x.fraction) * 2 ^ (x.biasedExponent - 1) := by
  rw [units, if_neg h, Nat.pow_eq, Nat.pow_eq]

theorem floorScaled_eq_units {m : Nat} {q : Int} (h : x.magnitude = .finite m q) :
    floorScaled m q = x.units / 2 ^ 1074 := by
  unfold magnitude at h
  split at h
  · split at h <;> cases h
  · split at h
    · rename_i hzero
      cases h
      rw [floorScaled_eq (k := 1074) (n := 0) x.fraction rfl, units, if_pos hzero, Nat.pow_zero,
        Nat.mul_one]
    · rename_i hnormal
      cases h
      rw [floorScaled_eq (k := 1074) (n := x.biasedExponent - 1) _ (by omega),
        units_of_normal hnormal, Nat.pow_eq]

theorem units_div_of_exponent {k : Nat} (h : x.biasedExponent = k + 1075) :
    x.units / 2 ^ 1074 = (2 ^ 52 + x.fraction) * 2 ^ k := by
  have hnormal : x.biasedExponent ≠ 0 := by omega
  have hsplit : x.biasedExponent - 1 = k + 1074 := by omega
  rw [units_of_normal hnormal, hsplit, Nat.pow_add, ← Nat.mul_assoc,
    Nat.mul_div_cancel _ (Nat.two_pow_pos 1074)]

/-- Infinity is beyond the last word too. -/
theorem lastWord_le_units (h : x.magnitude = .infinite) : lastWord ≤ x.units / 2 ^ 1074 := by
  obtain ⟨k, hk, hexponent⟩ : ∃ k, 12 ≤ k ∧ x.biasedExponent = k + 1075 := by
    unfold magnitude at h
    split at h
    · exact ⟨972, by decide, by assumption⟩
    · split at h <;> cases h
  rw [units_div_of_exponent hexponent]
  calc lastWord ≤ 2 ^ 52 * 2 ^ 12 := by decide
    _ ≤ (2 ^ 52 + x.fraction) * 2 ^ k :=
      Nat.mul_le_mul (Nat.le_add_right _ _) (Nat.pow_le_pow_right Nat.two_pos hk)

/-- The value without its fraction, as far as words go.  Negative values and NaN count as zero. -/
def wholePart (x : Binary64) : Nat :=
  if x.isNegative || x.isNotANumber then 0 else min (x.units / 2 ^ 1074) lastWord

theorem toNat_toWord (x : Binary64) : x.toWord.toNat = x.wholePart := by
  have hlast : lastWord < 2 ^ 64 := by decide
  unfold toWord wholePart isNotANumber
  cases x.isNegative with
  | true => rfl
  | false =>
    cases hmagnitude : x.magnitude with
    | finite m q =>
      dsimp only
      rw [floorScaled_eq_units hmagnitude]
      exact UInt64.toNat_ofNat_of_lt' (lt_of_le_of_lt (Nat.min_le_right _ _) hlast)
    | infinite =>
      rw [Nat.min_eq_right (lastWord_le_units hmagnitude)]
      rfl
    | notANumber => rfl

theorem wholePart_of_notANumber (h : x.isNotANumber = true) : x.wholePart = 0 := by
  rw [wholePart, h, Bool.or_true, if_pos rfl]

theorem wholePart_le_of_signedUnits_le (hy : y.isNotANumber = false)
    (h : x.signedUnits ≤ y.signedUnits) : x.wholePart ≤ y.wholePart := by
  unfold signedUnits at h
  rw [wholePart, wholePart, hy, Bool.or_false]
  cases hsign : x.isNegative with
  | true =>
    rw [Bool.true_or, if_pos rfl]
    exact Nat.zero_le _
  | false =>
    split
    · exact Nat.zero_le _
    · cases hsign' : y.isNegative with
      | true =>
        simp only [hsign, hsign', Bool.false_eq_true, if_false, if_true] at h
        have hzero : x.units = 0 := by omega
        rw [hzero, Nat.zero_div, Nat.zero_min]
        exact Nat.zero_le _
      | false =>
        simp only [hsign, hsign', Bool.false_eq_true, if_false, Int.ofNat_le] at h
        rw [if_neg Bool.false_ne_true]
        exact min_le_min_right _ (Nat.div_le_div_right h)

/-- Taking the whole part goes with taking the greater one of two values. -/
theorem wholePart_maxNumber (x y : Binary64) :
    (x.maxNumber y).wholePart = Nat.max x.wholePart y.wholePart := by
  unfold maxNumber
  cases hx : x.isNotANumber with
  | true =>
    rw [wholePart_of_notANumber hx]
    exact (Nat.zero_max _).symm
  | false =>
    cases hless : x.less y with
    | true =>
      obtain ⟨-, hy, hlt⟩ := less_iff.mp hless
      exact (Nat.max_eq_right (wholePart_le_of_signedUnits_le hy (Int.le_of_lt hlt))).symm
    | false =>
      refine (Nat.max_eq_left ?_).symm
      cases hy : y.isNotANumber with
      | true =>
        rw [wholePart_of_notANumber hy]
        exact Nat.zero_le _
      | false =>
        refine wholePart_le_of_signedUnits_le hx (Int.not_lt.mp fun hlt => ?_)
        rw [less_iff.mpr ⟨hx, hy, hlt⟩] at hless
        cases hless

end Binary64
end Number
end MappingSweep

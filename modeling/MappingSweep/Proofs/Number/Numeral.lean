import MappingSweep.Number.Numeral

/-!
# Numerals that read back

The decimal numeral of a natural number consists of digits and reads as that number.  So different
numbers have different numerals.
-/

namespace MappingSweep
namespace Number

theorem digitValue_digitChar {d : Nat} (h : d < 10) : digitValue (digitChar d) = some d := by
  revert d
  decide

theorem isDigit_digitChar {d : Nat} (h : d < 10) : isDigit (digitChar d) = true := by
  revert d
  decide

theorem digitsOnto_of_pos {n : Nat} (h : 0 < n) (acc : List Char) :
    digitsOnto 10 n acc = digitsOnto 10 (n / 10) (digitChar (n % 10) :: acc) := by
  rw [digitsOnto, dif_pos ⟨by decide, h⟩]

theorem digitsOnto_zero (acc : List Char) : digitsOnto 10 0 acc = acc := by
  rw [digitsOnto, dif_neg (by simp)]

/-- The digits of a number lead from nothing to the number. -/
theorem readDigits_digitsOnto (n : Nat) (acc : List Char) :
    readDigits 10 0 (digitsOnto 10 n acc) = readDigits 10 n acc := by
  induction n using Nat.strongRecOn generalizing acc with
  | _ n ih =>
    rcases Nat.eq_zero_or_pos n with rfl | hpos
    · rw [digitsOnto_zero]
    · have hdigit : n % 10 < 10 := Nat.mod_lt n (by decide)
      have hsplit : 10 * (n / 10) + n % 10 = n := Nat.div_add_mod n 10
      rw [digitsOnto_of_pos hpos, ih (n / 10) (by omega)]
      simp only [readDigits, digitValue_digitChar hdigit, bind, Option.bind, if_pos hdigit, hsplit]

theorem isDigit_of_mem_digitsOnto (n : Nat) (acc : List Char) {c : Char}
    (h : c ∈ digitsOnto 10 n acc) : isDigit c = true ∨ c ∈ acc := by
  induction n using Nat.strongRecOn generalizing acc with
  | _ n ih =>
    rcases Nat.eq_zero_or_pos n with rfl | hpos
    · rw [digitsOnto_zero] at h
      exact .inr h
    · rw [digitsOnto_of_pos hpos] at h
      rcases ih (n / 10) (by omega) _ h with hdigit | hmem
      · exact .inl hdigit
      · rcases List.mem_cons.mp hmem with rfl | hmem
        · exact .inl (isDigit_digitChar (Nat.mod_lt n (by decide)))
        · exact .inr hmem

theorem readDigits_digits (n : Nat) : readDigits 10 0 (digits 10 n) = some n := by
  rw [digits]
  split
  · rename_i hzero
    subst hzero
    rfl
  · exact readDigits_digitsOnto n []

theorem isDigit_of_mem_digits {n : Nat} {c : Char} (h : c ∈ digits 10 n) : isDigit c = true := by
  rw [digits] at h
  split at h
  · rw [List.mem_singleton.mp h]
    rfl
  · rcases isDigit_of_mem_digitsOnto n [] h with hdigit | hnil
    · exact hdigit
    · exact absurd hnil List.not_mem_nil

theorem not_mem_decimal {c : Char} (h : isDigit c = false) (n : Nat) : c ∉ (decimal n).toList := by
  intro hc
  rw [decimal, String.toList_ofList] at hc
  rw [isDigit_of_mem_digits hc] at h
  cases h

theorem decimal_injective : Function.Injective decimal := by
  intro n k h
  have hdigits : digits 10 n = digits 10 k := by
    simpa only [decimal, String.toList_ofList] using congrArg String.toList h
  have hread := readDigits_digits n
  rw [hdigits, readDigits_digits] at hread
  exact (Option.some.inj hread).symm

end Number
end MappingSweep

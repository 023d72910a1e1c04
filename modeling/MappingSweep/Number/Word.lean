import MappingSweep.Number.Numeral

/-!
# Arithmetic of words

Operations on 64-bit words that give nothing where the result would be no word.
-/

namespace MappingSweep
namespace Number
namespace Word

variable {a b : UInt64}

def add? (a b : UInt64) : Option UInt64 :=
  if a.toNat + b.toNat < wordBound then some (a + b) else none

def mul? (a b : UInt64) : Option UInt64 :=
  if a.toNat * b.toNat < wordBound then some (a * b) else none

def div? (a b : UInt64) : Option UInt64 :=
  if b = 0 then none else some (a / b)

theorem add?_eq_some (h : a.toNat + b.toNat < wordBound) :
    ∃ c, add? a b = some c ∧ c.toNat = a.toNat + b.toNat :=
  ⟨a + b, if_pos h, (UInt64.toNat_add a b).trans (Nat.mod_eq_of_lt h)⟩

theorem mul?_eq_some (h : a.toNat * b.toNat < wordBound) :
    ∃ c, mul? a b = some c ∧ c.toNat = a.toNat * b.toNat :=
  ⟨a * b, if_pos h, (UInt64.toNat_mul a b).trans (Nat.mod_eq_of_lt h)⟩

theorem div?_eq_some (h : 0 < b.toNat) :
    ∃ c, div? a b = some c ∧ c.toNat = a.toNat / b.toNat := by
  have hb : b ≠ 0 := by
    rintro rfl
    exact absurd h (Nat.lt_irrefl 0)
  exact ⟨a / b, if_neg hb, UInt64.toNat_div a b⟩

end Word
end Number
end MappingSweep

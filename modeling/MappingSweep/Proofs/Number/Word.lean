import Mathlib.Data.Nat.Digits.Defs
import MappingSweep.Number.Numeral

/-!
# What numerals stand for

A numeral is read as the number that its decimal digits stand for, and as a word if the number is
one.
-/

namespace MappingSweep
namespace Number

variable {c : Char} {cs : List Char} {acc k : Nat}

theorem isDigit_iff : isDigit c = true ↔ 48 ≤ c.toNat ∧ c.toNat ≤ 57 := by
  simp [isDigit]

theorem digitValue_eq_some_iff {d : Nat} (hd : d < 10) :
    digitValue c = some d ↔ isDigit c = true ∧ c.toNat - 48 = d := by
  rw [isDigit_iff, digitValue]
  split
  · rename_i hdigit
    rw [Option.some_inj]
    exact (and_iff_right hdigit).symm
  · split
    · rw [Option.some_inj]
      omega
    · split
      · rw [Option.some_inj]
        omega
      · simp_all

/-- What decimal digits stand for, the most significant one being the first. -/
def decimalValue (ds : List Char) : Nat :=
  Nat.ofDigits 10 (ds.reverse.map fun d => d.toNat - 48)

theorem decimalValue_cons (c : Char) (cs : List Char) :
    decimalValue (c :: cs) = 10 ^ cs.length * (c.toNat - 48) + decimalValue cs := by
  simp only [decimalValue, List.reverse_cons, List.map_append, List.map_cons, List.map_nil,
    Nat.ofDigits_append, Nat.ofDigits_singleton, List.length_map, List.length_reverse]
  exact Nat.add_comm _ _

theorem readDigits_eq_some_iff :
    readDigits 10 acc cs = some k ↔
      (∀ c ∈ cs, isDigit c = true) ∧ 10 ^ cs.length * acc + decimalValue cs = k := by
  induction cs generalizing acc with
  | nil => simp [readDigits, decimalValue]
  | cons c cs ih =>
    have hvalue : 10 ^ (c :: cs).length * acc + decimalValue (c :: cs) =
        10 ^ cs.length * (10 * acc + (c.toNat - 48)) + decimalValue cs := by
      rw [decimalValue_cons, List.length_cons, pow_succ]
      ring
    rw [List.forall_mem_cons, hvalue, readDigits]
    cases hdigit : isDigit c with
    | true =>
      have hlt : c.toNat - 48 < 10 := by
        rw [isDigit_iff] at hdigit
        omega
      simp only [(digitValue_eq_some_iff hlt).mpr ⟨hdigit, rfl⟩, bind, Option.bind, if_pos hlt, ih,
        true_and]
    | false =>
      simp only [Bool.false_eq_true, false_and, iff_false]
      intro h
      obtain ⟨d, hd, hrest⟩ := Option.bind_eq_some_iff.mp h
      split at hrest
      · rename_i hlt
        rw [((digitValue_eq_some_iff hlt).mp hd).1] at hdigit
        cases hdigit
      · cases hrest

theorem readNat_eq_some_iff :
    readNat 10 cs = some k ↔ cs ≠ [] ∧ (∀ c ∈ cs, isDigit c = true) ∧ decimalValue cs = k := by
  cases cs with
  | nil => simp [readNat]
  | cons c cs => simp [readNat, readDigits_eq_some_iff]

/-- Decimal digits, behind a plus sign or not, that stand for the word. -/
def IsWord (cs : List Char) (n : UInt64) : Prop :=
  ∃ ds, (cs = ds ∨ cs = '+' :: ds) ∧ ds ≠ [] ∧ (∀ d ∈ ds, isDigit d = true) ∧
    decimalValue ds = n.toNat

theorem eq_stripPlus_iff {ds : List Char} (h : ∀ d ∈ ds, isDigit d = true) :
    ds = stripPlus cs ↔ cs = ds ∨ cs = '+' :: ds := by
  unfold stripPlus
  split
  · rename_i rest
    constructor
    · rintro rfl
      exact .inr rfl
    · rintro (rfl | heq)
      · exact absurd (h '+' List.mem_cons_self) (by decide)
      · exact (List.cons.inj heq).2.symm
  · rename_i hplus
    constructor
    · rintro rfl
      exact .inl rfl
    · rintro (rfl | rfl)
      · rfl
      · exact absurd rfl (hplus ds)

theorem readWord_eq_some_iff {n : UInt64} : readWord cs = some n ↔ IsWord cs n := by
  unfold readWord
  constructor
  · intro h
    obtain ⟨k, hk, hword⟩ := Option.bind_eq_some_iff.mp h
    obtain ⟨hne, hdigits, hvalue⟩ := readNat_eq_some_iff.mp hk
    split at hword
    · rename_i hlt
      refine ⟨stripPlus cs, (eq_stripPlus_iff hdigits).mp rfl, hne, hdigits, ?_⟩
      rw [hvalue, ← Option.some.inj hword, UInt64.toNat_ofNat_of_lt' hlt]
    · cases hword
  · rintro ⟨ds, hplus, hne, hdigits, hvalue⟩
    obtain rfl := (eq_stripPlus_iff hdigits).mpr hplus
    have hlt : n.toNat < wordBound := n.toNat_lt
    rw [readNat_eq_some_iff.mpr ⟨hne, hdigits, hvalue⟩]
    simp only [bind, Option.bind, if_pos hlt, UInt64.ofNat_toNat]

end Number
end MappingSweep

import Mathlib.Data.List.TakeWhile
import MappingSweep.Number.Decimal
import MappingSweep.Proofs.Number.Numeral
import MappingSweep.Proofs.Number.Word
import MappingSweep.Text.Blank

/-!
# Decimal text that reads as a number

Whatever number is written as text, the text has no blanks in it and reads as a number again.  Words
are written as digits, and other values as digits with an optional fraction, as infinity or as NaN.
-/

namespace MappingSweep
namespace Number

theorem isSome_readNat {cs : List Char} (hne : cs ≠ []) (h : ∀ c ∈ cs, isDigit c = true) :
    (readNat 10 cs).isSome = true :=
  Option.isSome_iff_exists.mpr ⟨_, readNat_eq_some_iff.mpr ⟨hne, h, rfl⟩⟩

/-- Digits, and more digits behind a point if there is one. -/
inductive IsDecimal : List Char → Prop
  | whole {ds : List Char} (hne : ds ≠ []) (hds : ∀ c ∈ ds, isDigit c = true) : IsDecimal ds
  | fraction {ds part : List Char} (hne : ds ≠ []) (hds : ∀ c ∈ ds, isDigit c = true)
      (hpart : ∀ c ∈ part, isDigit c = true) : IsDecimal (ds ++ '.' :: part)

theorem spanDigits_of_digits {ds : List Char} (h : ∀ c ∈ ds, isDigit c = true) :
    spanDigits ds = (ds, []) := by
  rw [spanDigits, List.takeWhile_eq_self_iff.mpr h, List.dropWhile_eq_nil_iff.mpr h]

theorem spanDigits_of_point {ds : List Char} (h : ∀ c ∈ ds, isDigit c = true)
    (part : List Char) : spanDigits (ds ++ '.' :: part) = (ds, '.' :: part) := by
  rw [spanDigits, List.takeWhile_append_of_pos h, List.dropWhile_append_of_pos h]
  simp [isDigit]

theorem isSome_readUnsigned {cs : List Char} (h : IsDecimal cs) :
    (readUnsigned cs).isSome = true := by
  cases h with
  | whole hne hds =>
    obtain ⟨n, hn⟩ := Option.isSome_iff_exists.mp (isSome_readNat hne hds)
    simp [readUnsigned, spanDigits_of_digits hds, readExponent, hn]
  | fraction hne hds hpart =>
    rename_i ds part
    have hall : ∀ c ∈ ds ++ part, isDigit c = true := by
      intro c hc
      exact (List.mem_append.mp hc).elim (hds c) (hpart c)
    obtain ⟨n, hn⟩ := Option.isSome_iff_exists.mp
      (isSome_readNat (List.append_ne_nil_of_left_ne_nil hne part) hall)
    simp [readUnsigned, spanDigits_of_point hds, spanDigits_of_digits hpart, readExponent, hn]

theorem isSome_readMagnitude {cs : List Char} (h : IsDecimal cs) :
    (readMagnitude cs).isSome = true := by
  unfold readMagnitude
  dsimp only
  split
  · rfl
  · split
    · rfl
    · exact isSome_readUnsigned h

theorem IsDecimal.exists_digit {cs : List Char} (h : IsDecimal cs) :
    ∃ c rest, cs = c :: rest ∧ isDigit c = true := by
  cases h with
  | whole hne hds =>
    obtain ⟨c, rest, rfl⟩ := List.exists_cons_of_ne_nil hne
    exact ⟨c, rest, rfl, hds c List.mem_cons_self⟩
  | fraction hne hds hpart =>
    obtain ⟨c, rest, rfl⟩ := List.exists_cons_of_ne_nil hne
    exact ⟨c, _, rfl, hds c List.mem_cons_self⟩

theorem stripPlus_of_isDecimal {cs : List Char} (h : IsDecimal cs) : stripPlus cs = cs := by
  obtain ⟨c, rest, rfl, hc⟩ := h.exists_digit
  unfold stripPlus
  split
  · rename_i heq
    rw [(List.cons.inj heq).1] at hc
    cases hc
  · rfl

theorem isSome_readBinary64 {cs : List Char} (h : IsDecimal cs) :
    (readBinary64 cs).isSome = true := by
  have hmagnitude := isSome_readMagnitude h
  have hplus := stripPlus_of_isDecimal h
  obtain ⟨c, rest, rfl, hc⟩ := h.exists_digit
  have hminus : c ≠ '-' := by
    rintro rfl
    cases hc
  unfold readBinary64
  split
  · rename_i heq
    exact absurd (List.cons.inj heq).1 hminus
  · rw [hplus]
    exact hmagnitude

/-- The text of a number, with no blank in it. -/
structure IsNumeral (s : String) : Prop where
  reads : (readBinary64 s.toList).isSome = true
  solid : ∀ c ∈ s.toList, Text.isBlank c = false

theorem isBlank_of_isDigit {c : Char} (h : isDigit c = true) : Text.isBlank c = false := by
  have hrange := isDigit_iff.mp h
  simp only [Text.isBlank, Bool.or_eq_false_iff, Bool.and_eq_false_iff, beq_eq_false_iff_ne,
    decide_eq_false_iff_not]
  omega

theorem IsDecimal.solid {cs : List Char} (h : IsDecimal cs) : ∀ c ∈ cs, Text.isBlank c = false := by
  intro c hc
  cases h with
  | whole hne hds => exact isBlank_of_isDigit (hds c hc)
  | fraction hne hds hpart =>
    rcases List.mem_append.mp hc with hc | hc
    · exact isBlank_of_isDigit (hds c hc)
    · rcases List.mem_cons.mp hc with rfl | hc
      · rfl
      · exact isBlank_of_isDigit (hpart c hc)

theorem isNumeral_signed (x : Binary64) {cs : List Char} (h : IsDecimal cs) :
    IsNumeral (x.signed cs) := by
  unfold Binary64.signed
  split
  · constructor
    · rw [String.toList_ofList, readBinary64, Option.isSome_map]
      exact isSome_readMagnitude h
    · rw [String.toList_ofList]
      intro c hc
      rcases List.mem_cons.mp hc with rfl | hc
      · rfl
      · exact h.solid c hc
  · constructor
    · rw [String.toList_ofList]
      exact isSome_readBinary64 h
    · rw [String.toList_ofList]
      exact h.solid

theorem digits_ne_nil (n : Nat) : digits 10 n ≠ [] := by
  intro h
  have hvalue := readDigits_digits n
  rw [h] at hvalue
  obtain rfl : 0 = n := Option.some.inj hvalue
  cases h

theorem isDecimal_digits (n : Nat) : IsDecimal (digits 10 n) :=
  .whole (digits_ne_nil n) fun _ => isDigit_of_mem_digits

theorem readNat_digits (n : Nat) : readNat 10 (digits 10 n) = some n := by
  obtain ⟨c, rest, heq⟩ := List.exists_cons_of_ne_nil (digits_ne_nil n)
  have hread := readDigits_digits n
  rw [heq] at hread ⊢
  exact hread

theorem readWord_digits (n : UInt64) : readWord (digits 10 n.toNat) = some n := by
  have hbound : n.toNat < wordBound := n.toNat_lt
  simp only [readWord, stripPlus_of_isDecimal (isDecimal_digits _), readNat_digits, bind,
    Option.bind, if_pos hbound, UInt64.ofNat_toNat]

theorem isDecimal_withPoint {ds : List Char} (hne : ds ≠ []) (h : ∀ c ∈ ds, isDigit c = true)
    (places : Nat) : IsDecimal (withPoint ds places) := by
  unfold withPoint
  split
  · exact .whole hne h
  · set padded := List.replicate (places + 1 - ds.length) '0' ++ ds with hpadded
    have hdigits : ∀ c ∈ padded, isDigit c = true := by
      intro c hc
      rcases List.mem_append.mp hc with hc | hc
      · rw [(List.mem_replicate.mp hc).2]
        rfl
      · exact h c hc
    have hlength : places < padded.length := by
      rw [hpadded, List.length_append, List.length_replicate]
      omega
    apply IsDecimal.fraction
    · intro hnil
      have htake := congrArg List.length hnil
      rw [List.length_take, List.length_nil] at htake
      omega
    · exact fun c hc => hdigits c (List.mem_of_mem_take hc)
    · exact fun c hc => hdigits c (List.mem_of_mem_drop hc)

theorem isDecimal_positional (d : Digits) : IsDecimal d.positional := by
  unfold Digits.positional
  split
  · apply IsDecimal.whole
    · exact List.append_ne_nil_of_left_ne_nil (digits_ne_nil _) _
    · intro c hc
      rcases List.mem_append.mp hc with hc | hc
      · exact isDigit_of_mem_digits hc
      · rw [(List.mem_replicate.mp hc).2]
        rfl
  · exact isDecimal_withPoint (digits_ne_nil _) (fun _ => isDigit_of_mem_digits) _

theorem isNumeral_decimal (n : Nat) : IsNumeral (decimal n) where
  reads := by
    rw [decimal, String.toList_ofList]
    exact isSome_readBinary64 (isDecimal_digits n)
  solid := by
    rw [decimal, String.toList_ofList]
    exact (isDecimal_digits n).solid

/-- A test that looks at the characters of the text only. -/
theorem solid_of_all {s : String} (h : (s.toList.all fun c => !Text.isBlank c) = true) :
    ∀ c ∈ s.toList, Text.isBlank c = false := by
  simpa using h

theorem isNumeral_toText (x : Binary64) : IsNumeral x.toText := by
  unfold Binary64.toText
  split
  · exact ⟨by decide, solid_of_all (by decide)⟩
  · unfold Binary64.signed
    split
    · exact ⟨by decide, solid_of_all (by decide)⟩
    · exact ⟨by decide, solid_of_all (by decide)⟩
  · exact isNumeral_signed x (isDecimal_positional _)

theorem isNumeral_floatText (x : Float) : IsNumeral (floatText x) :=
  isNumeral_toText _

end Number
end MappingSweep

/-!
# The octets of a text

A text is kept as its octets.  Reading them back gives the text, octets join as the texts do, and an
octet below 128 stands for the character of that number and for no part of another one.
-/

namespace MappingSweep
namespace Text

/-- The octets of characters. -/
def octets (cs : List Char) : List UInt8 :=
  cs.flatMap String.utf8EncodeChar

@[simp] theorem octets_nil : octets [] = [] :=
  rfl

@[simp] theorem octets_cons (c : Char) (cs : List Char) :
    octets (c :: cs) = String.utf8EncodeChar c ++ octets cs :=
  rfl

@[simp] theorem octets_append (cs ds : List Char) : octets (cs ++ ds) = octets cs ++ octets ds :=
  List.flatMap_append

theorem toList_loop (bytes : ByteArray) (i : Nat) (read : List UInt8) :
    ByteArray.toList.loop bytes i read = read.reverse ++ bytes.data.toList.drop i := by
  fun_induction ByteArray.toList.loop bytes i read with
  | case1 i read hi ih =>
    have hlt : i < bytes.data.toList.length := by simpa using hi
    rw [ih, List.drop_eq_getElem_cons hlt]
    simp [ByteArray.get!, hi]
  | case2 i read hi =>
    rw [List.drop_eq_nil_of_le (by simpa using Nat.le_of_not_lt hi)]
    simp

theorem toList_eq (bytes : ByteArray) : bytes.toList = bytes.data.toList := by
  simp [ByteArray.toList, toList_loop]

theorem mk_toArray (bs : List UInt8) : ByteArray.mk bs.toArray = bs.toByteArray := by
  apply ByteArray.ext
  simp

theorem toByteArray_toList (bs : List UInt8) : bs.toByteArray.toList = bs := by
  simp [toList_eq]

theorem toByteArray_octets (s : String) : (octets s.toList).toByteArray = s.toUTF8 := by
  rw [String.toUTF8_eq_toByteArray, ← String.utf8Encode_toList]
  rfl

theorem toUTF8_toList (s : String) : s.toUTF8.toList = octets s.toList := by
  rw [← toByteArray_octets, toByteArray_toList]

theorem fromUTF8?_toUTF8 (s : String) : String.fromUTF8? s.toUTF8 = some s := by
  have hvalid : s.toByteArray.IsValidUTF8 := s.isValidUTF8
  simp [String.fromUTF8?, String.fromUTF8, hvalid]

theorem utf8EncodeChar_small {c : Char} (h : c.toNat < 128) :
    String.utf8EncodeChar c = [UInt8.ofNat c.toNat] := by
  have hc : c.val.toNat ≤ 0x7f := Nat.le_of_lt_succ h
  unfold String.utf8EncodeChar
  rw [if_pos hc]
  rfl

/-- Characters from 128 on have no octet below 128. -/
theorem le_of_mem_utf8EncodeChar {c : Char} (h : 128 ≤ c.toNat) {b : UInt8}
    (hb : b ∈ String.utf8EncodeChar c) : 128 ≤ b.toNat := by
  have hc : ¬ c.val.toNat ≤ 0x7f := Nat.not_le.mpr h
  unfold String.utf8EncodeChar at hb
  rw [if_neg hc] at hb
  split at hb
  · simp only [List.mem_cons, List.not_mem_nil, or_false] at hb
    rcases hb with rfl | rfl <;> simp only [UInt8.toNat_ofNat'] <;> omega
  · split at hb
    · simp only [List.mem_cons, List.not_mem_nil, or_false] at hb
      rcases hb with rfl | rfl | rfl <;> simp only [UInt8.toNat_ofNat'] <;> omega
    · simp only [List.mem_cons, List.not_mem_nil, or_false] at hb
      rcases hb with rfl | rfl | rfl | rfl <;> simp only [UInt8.toNat_ofNat'] <;> omega

theorem mem_utf8EncodeChar_iff {a c : Char} (ha : a.toNat < 128) :
    UInt8.ofNat a.toNat ∈ String.utf8EncodeChar c ↔ a = c := by
  constructor
  · intro hmem
    have hsmall : (UInt8.ofNat a.toNat).toNat = a.toNat := by
      simp only [UInt8.toNat_ofNat']
      omega
    rcases Nat.lt_or_ge c.toNat 128 with hc | hc
    · rw [utf8EncodeChar_small hc, List.mem_singleton] at hmem
      have heq : a.toNat = c.toNat := by
        have := congrArg UInt8.toNat hmem
        simp only [UInt8.toNat_ofNat'] at this
        omega
      exact Char.toNat_inj.mp heq
    · have := le_of_mem_utf8EncodeChar hc hmem
      omega
  · rintro rfl
    rw [utf8EncodeChar_small ha]
    exact List.mem_singleton_self _

theorem mem_octets_iff {a : Char} (ha : a.toNat < 128) (cs : List Char) :
    UInt8.ofNat a.toNat ∈ octets cs ↔ a ∈ cs := by
  simp only [octets, List.mem_flatMap, mem_utf8EncodeChar_iff ha, exists_eq_right']

end Text
end MappingSweep

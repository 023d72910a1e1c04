import MappingSweep.Proofs.Csv.Decoding

/-!
# What is wrong with a record

A record that cannot be read has another width than the header, or else its first field that is no
text is at fault.  Blanks around a field make it no better and no worse.  The header itself can only
be no text.
-/

namespace MappingSweep
namespace Csv

variable {width number : Nat} {raw : RawRecord} {f : Fault} {input : ByteArray}

theorem Partial.fields_ne_nil_of_outside {p q : Partial} {b : UInt8}
    (h : p.outside b = (q, some raw)) : raw.fields ≠ [] := by
  unfold Partial.outside at h
  split at h
  · cases h
  · split at h
    · cases h
      simp [Partial.closed]
    · cases h

theorem Partial.fields_ne_nil_of_atField {p q : Partial} {b : UInt8}
    (h : p.atField b = (q, some raw)) : raw.fields ≠ [] := by
  unfold Partial.atField at h
  split at h
  · cases h
  · exact fields_ne_nil_of_outside h

theorem Partial.fields_ne_nil_of_atRecord {p q : Partial} {b : UInt8}
    (h : p.atRecord b = (q, some raw)) : raw.fields ≠ [] := by
  unfold Partial.atRecord at h
  split at h
  · cases h
  · exact fields_ne_nil_of_atField h

theorem Partial.fields_ne_nil_of_step {p q : Partial} {b : UInt8}
    (h : p.step b = (q, some raw)) : raw.fields ≠ [] := by
  unfold Partial.step at h
  dsimp only at h
  split at h
  · exact fields_ne_nil_of_atRecord h
  · split at h
    · cases h
    · exact fields_ne_nil_of_atRecord h
  · exact fields_ne_nil_of_atField h
  · exact fields_ne_nil_of_outside h
  · split at h <;> cases h
  · split at h
    · cases h
    · exact fields_ne_nil_of_outside h

theorem fields_ne_nil_of_recordsFrom {p : Partial} {octets : List UInt8}
    (h : raw ∈ recordsFrom p octets) : raw.fields ≠ [] := by
  induction octets generalizing p with
  | nil =>
    have hend : p.atEnd = some raw := Option.mem_toList.mp h
    unfold Partial.atEnd at hend
    split at hend
    · cases hend
    · cases hend
    · cases hend
      simp [Partial.closed]
  | cons b octets ih =>
    cases hstep : p.step b with
    | mk q done =>
      rw [recordsFrom, hstep] at h
      rcases List.mem_append.mp h with hdone | hrest
      · rw [Option.mem_toList.mp hdone] at hstep
        exact Partial.fields_ne_nil_of_step hstep
      · exact ih hrest

theorem fields_ne_nil {octets : List UInt8} (h : raw ∈ rawRecords octets) : raw.fields ≠ [] := by
  unfold rawRecords at h
  split at h
  · exact fields_ne_nil_of_recordsFrom h
  · exact fields_ne_nil_of_recordsFrom h

theorem decodeFields_eq_error_iff {start : Position} {i : Nat} {fields : List (List UInt8)} :
    decodeFields number start i fields = .error f ↔ ∃ texts field after valid,
      fields = fieldOctets texts ++ field :: after ∧ decodeField field = .error valid ∧
        f = .encoding number start (i + texts.length) valid := by
  constructor
  · intro h
    induction fields generalizing i with
    | nil => cases h
    | cons field fields ih =>
      unfold decodeFields at h
      cases hfield : decodeField field with
      | error valid =>
        rw [hfield] at h
        exact ⟨[], field, fields, valid, rfl, hfield, (Except.error.inj h).symm⟩
      | ok s =>
        rw [hfield] at h
        cases hrest : decodeFields number start (i + 1) fields with
        | ok rest => rw [hrest] at h; cases h
        | error f' =>
          rw [hrest] at h
          obtain rfl : f' = f := Except.error.inj h
          obtain ⟨texts, bad, after, valid, rfl, hbad, rfl⟩ := ih hrest
          refine ⟨s :: texts, bad, after, valid, ?_, hbad, ?_⟩
          · rw [decodeField_eq_ok_iff.mp hfield]
            rfl
          · rw [List.length_cons, Nat.add_assoc, Nat.add_comm 1]
  · rintro ⟨texts, field, after, valid, rfl, hfield, rfl⟩
    induction texts generalizing i with
    | nil => simp [fieldOctets, decodeFields, hfield]
    | cons s texts ih =>
      have hrest := ih (i := i + 1)
      simp only [fieldOctets] at hrest
      simp only [fieldOctets, List.map_cons, List.cons_append, decodeFields, decodeField_octets,
        hrest, List.length_cons, Nat.add_assoc, Nat.add_comm 1]
      rfl

theorem decodeFields_trimBytes_eq_error_iff {start : Position} {fields : List (List UInt8)} :
    decodeFields number start 0 (fields.map trimBytes) = .error f ↔ ∃ texts field after valid,
      fields = fieldOctets texts ++ field :: after ∧
        decodeField (trimBytes field) = .error valid ∧
          f = .encoding number start texts.length valid := by
  rw [decodeFields_eq_error_iff]
  simp only [Nat.zero_add]
  constructor
  · rintro ⟨texts, field, after, valid, heq, hfield, rfl⟩
    obtain ⟨front, back, rfl, hfront, hback⟩ := List.map_eq_append_iff.mp heq
    obtain ⟨bad, rest, rfl, rfl, -⟩ := List.map_eq_cons_iff.mp hback
    obtain ⟨record, rfl, rfl⟩ := exists_fieldOctets_of_trimBytes hfront
    exact ⟨record, bad, rest, valid, rfl, hfield, by rw [List.length_map]⟩
  · rintro ⟨texts, field, after, valid, rfl, hfield, rfl⟩
    refine ⟨texts.map trimmedText, trimBytes field, after.map trimBytes, valid, ?_, hfield,
      by rw [List.length_map]⟩
    simp only [fieldOctets, List.map_append, List.map_cons, List.map_map, Function.comp_def,
      trimBytes_octets]

/-- Why the record with this number cannot be read under a header of this width. -/
inductive Faulty (width number : Nat) (raw : RawRecord) : Fault → Prop where
  | ragged (hwidth : raw.fields.length ≠ width) :
      Faulty width number raw (.width number raw.start raw.fields.length width)
  | notText {texts field after valid} (hwidth : raw.fields.length = width)
      (hfields : raw.fields = fieldOctets texts ++ field :: after)
      (hfield : decodeField (trimBytes field) = .error valid) :
      Faulty width number raw (.encoding number raw.start texts.length valid)

theorem readRow_eq_error_iff : readRow width number raw = .error f ↔ Faulty width number raw f := by
  unfold readRow
  by_cases hwidth : raw.fields.length = width
  · simp only [hwidth, ne_eq, not_true_eq_false, if_false]
    constructor
    · intro h
      cases hfields : decodeFields number raw.start 0 (raw.fields.map trimBytes) with
      | ok texts => rw [hfields] at h; cases h
      | error f' =>
        rw [hfields] at h
        obtain rfl : f' = f := Except.error.inj h
        obtain ⟨texts, field, after, valid, hraw, hfield, rfl⟩ :=
          decodeFields_trimBytes_eq_error_iff.mp hfields
        exact .notText hwidth hraw hfield
    · intro h
      cases h with
      | ragged hother => exact absurd hwidth hother
      | @notText texts field after valid _ hraw hfield =>
        rw [decodeFields_trimBytes_eq_error_iff.mpr ⟨texts, field, after, valid, hraw, hfield, rfl⟩]
        rfl
  · simp only [ne_eq, hwidth, not_false_eq_true, if_true]
    constructor
    · intro h
      cases h
      exact .ragged hwidth
    · intro h
      cases h with
      | ragged _ => rfl
      | notText hsame => exact absurd hsame hwidth

/-- A table without a header that is text is not read at all. -/
theorem readTable_eq_error_iff : readTable input = .error f ↔
    ∃ first raws texts field after valid, rawRecords input.toList = first :: raws ∧
      first.fields = fieldOctets texts ++ field :: after ∧ decodeField field = .error valid ∧
        f = .encoding 0 first.start texts.length valid := by
  cases hraws : rawRecords input.toList with
  | nil => simp [readTable_of_no_records hraws]
  | cons first raws =>
    have hread : readTable input = .error f ↔
        decodeFields 0 first.start 0 first.fields = .error f := by
      simp only [readTable, hraws]
      cases decodeFields 0 first.start 0 first.fields with
      | error f' => simp [bind, Except.bind]
      | ok texts => simp [bind, Except.bind, pure, Except.pure]
    rw [hread, decodeFields_eq_error_iff]
    simp only [Nat.zero_add]
    constructor
    · rintro ⟨texts, field, after, valid, h⟩
      exact ⟨first, raws, texts, field, after, valid, rfl, h⟩
    · rintro ⟨_, _, texts, field, after, valid, heq, h⟩
      cases heq
      exact ⟨texts, field, after, valid, h⟩

theorem exists_header_of_readTable {first : RawRecord} {raws : List RawRecord} {table : Table}
    (h : rawRecords input.toList = first :: raws) (htable : readTable input = .ok table) :
    ∃ header, first.fields = fieldOctets header := by
  simp only [readTable, h] at htable
  cases hfirst : decodeFields 0 first.start 0 first.fields with
  | error f => rw [hfirst] at htable; cases htable
  | ok header => exact ⟨header, decodeFields_eq_ok_iff.mp hfirst⟩

end Csv
end MappingSweep

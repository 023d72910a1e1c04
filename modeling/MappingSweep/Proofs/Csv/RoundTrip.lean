import MappingSweep.Proofs.Csv.Grammar

/-!
# Records survive being written

Written records read back as they were, field by field and in order, whatever characters are in
them: what is written for a record has this record's fields by the grammar.
-/

namespace MappingSweep
namespace Csv

open Text (octets)

theorem isField_encodeField (cs : List Char) : IsField (encodeField cs) cs := by
  by_cases hquotes : needsQuotes cs = true
  · have hfield : IsField ('"' :: (doubleQuotes cs ++ ['"'])) (cs ++ []) :=
      .quoted (by simp) (by simp [Unbroken])
    rw [List.append_nil] at hfield
    rwa [encodeField, if_pos hquotes]
  · rw [encodeField, if_neg hquotes]
    have hno : ∀ c ∈ cs, c ≠ ',' ∧ c ≠ '"' ∧ c ≠ '\r' ∧ c ≠ '\n' := by
      simpa [needsQuotes, and_assoc] using hquotes
    refine .bare (fun hhead => (hno _ (List.mem_of_head? hhead)).2.1 rfl) fun c hc => ?_
    obtain ⟨hcomma, -, hreturn, hfeed⟩ := hno c hc
    exact ⟨hcomma, not_or.mpr ⟨hreturn, hfeed⟩⟩

theorem isRecord_encodeFields {record : List (List Char)} (h : record ≠ []) :
    IsRecord (encodeFields record) record := by
  induction record with
  | nil => exact absurd rfl h
  | cons field more ih =>
    cases more with
    | nil => exact .last (isField_encodeField field)
    | cons second more => exact .comma (isField_encodeField field) (ih (List.cons_ne_nil _ _))

/-- What is read of a record: one without fields is written like one whose only field is empty. -/
def readBack (record : List (List Char)) : List (List UInt8) :=
  if record = [] then [[]] else record.map octets

theorem readBack_of_ne_nil {record : List (List Char)} (h : record ≠ []) :
    readBack record = record.map octets :=
  if_neg h

theorem encodeField_ne_nil {field : List Char} (h : field ≠ []) : encodeField field ≠ [] := by
  unfold encodeField
  split
  · exact List.cons_ne_nil _ _
  · exact h

/-- Only what is read as one empty field is written as nothing. -/
theorem readBack_of_encodeFields_eq_nil {record : List (List Char)}
    (h : encodeFields record = []) : readBack record = [[]] := by
  match record with
  | [] => rfl
  | [field] =>
    have hfield : field = [] := Decidable.byContradiction fun hne => encodeField_ne_nil hne h
    simp [readBack, hfield]
  | field :: second :: more => simp [encodeFields] at h

theorem areRecords_encodeChars (record : List (List Char)) {rest : List Char}
    {records : List (List (List Char))} (hrest : AreRecords rest records) :
    ∃ fields, fields.map octets = readBack record ∧
      AreRecords (encodeChars record ++ rest) (fields :: records) := by
  cases hcs : encodeFields record with
  | nil =>
    have hquotes : IsRecord ['"', '"'] [[]] :=
      .last (@IsField.quoted [] [] (by simp) (by simp [Unbroken]))
    refine ⟨[[]], (readBack_of_encodeFields_eq_nil hcs).symm, ?_⟩
    simp only [encodeChars, hcs]
    exact .record (List.cons_ne_nil _ _) hquotes (.inr rfl) hrest
  | cons c cs =>
    have hne : record ≠ [] := by
      rintro rfl
      simp [encodeFields] at hcs
    have hrecord := isRecord_encodeFields hne
    rw [hcs] at hrecord
    refine ⟨record, (readBack_of_ne_nil hne).symm, ?_⟩
    simp only [encodeChars, hcs, List.append_assoc, List.singleton_append]
    exact .record (List.cons_ne_nil _ _) hrecord (.inr rfl) hrest

theorem encodeAll_append (records more : List (List String)) :
    encodeAll (records ++ more) = encodeAll records ++ encodeAll more := by
  apply String.toList_inj.mp
  simp [encodeAll]

theorem encodeAll_singleton (record : List String) : encodeAll [record] = encode record := by
  apply String.toList_inj.mp
  simp [encodeAll]

theorem areRecords_encodeAll (records : List (List String)) :
    ∃ found, AreRecords (encodeAll records).toList found ∧
      found.map (List.map octets) =
        records.map fun record => readBack (record.map String.toList) := by
  induction records with
  | nil => exact ⟨[], .none, rfl⟩
  | cons record records ih =>
    obtain ⟨found, hfound, hmap⟩ := ih
    obtain ⟨fields, hfields, hall⟩ := areRecords_encodeChars (record.map String.toList) hfound
    have hsplit : (encodeAll (record :: records)).toList =
        encodeChars (record.map String.toList) ++ (encodeAll records).toList := by
      simp [encodeAll, encode]
    exact ⟨fields :: found, hsplit ▸ hall, by rw [List.map_cons, List.map_cons, hfields, hmap]⟩

theorem fieldsFrom_encodeAll (records : List (List String)) :
    fieldsFrom .betweenRecords [] [] (encodeAll records).toUTF8.toList =
      records.map fun record => readBack (record.map String.toList) := by
  obtain ⟨found, hfound, hmap⟩ := areRecords_encodeAll records
  rw [Text.toUTF8_toList, hfound.fieldsFrom_eq, hmap]

theorem readBack_eq_fieldOctets {record : List String} (h : record ≠ []) :
    readBack (record.map String.toList) = fieldOctets record := by
  rw [readBack_of_ne_nil (by simpa using h), List.map_map]
  rfl

theorem decodeField_octets (s : String) : decodeField (octets s.toList) = .ok s := by
  simp only [decodeField, Text.mk_toArray, Text.toByteArray_octets, Text.fromUTF8?_toUTF8]

theorem decodeFields_fieldOctets (number : Nat) (start : Position) (i : Nat)
    (record : List String) : decodeFields number start i (fieldOctets record) = .ok record := by
  induction record generalizing i with
  | nil => rfl
  | cons field record ih =>
    have hrest := ih (i + 1)
    simp only [fieldOctets] at hrest
    simp only [fieldOctets, List.map_cons, decodeFields, decodeField_octets, hrest]
    rfl

/-- The record is written with a byte order mark in front: its first field begins with U+FEFF and
stands without quotes. -/
def marked (record : List String) : Bool :=
  match record with
  | [] => false
  | first :: _ => first.toList.head? == some '\uFEFF' && !needsQuotes first.toList

theorem marked_of_encodeFields {record : List String} {cs : List Char}
    (h : encodeFields (record.map String.toList) = '\uFEFF' :: cs) : marked record = true := by
  match record with
  | [] => cases h
  | first :: columns =>
    obtain ⟨more, hmore, hsplit⟩ : ∃ more, (∀ c ∈ more.head?, c = ',') ∧
        encodeFields ((first :: columns).map String.toList) = encodeField first.toList ++ more := by
      cases columns with
      | nil => exact ⟨[], by simp, by simp [encodeFields]⟩
      | cons column columns => exact ⟨_, by simp, rfl⟩
    rw [hsplit] at h
    by_cases hquotes : needsQuotes first.toList = true
    · rw [encodeField, if_pos hquotes] at h
      exact absurd (List.cons.inj h).1 (by decide)
    · rw [encodeField, if_neg hquotes] at h
      cases hfirst : first.toList with
      | nil =>
        rw [hfirst, List.nil_append] at h
        exact absurd (hmore '\uFEFF' (by rw [h]; rfl)) (by decide)
      | cons c rest =>
        rw [hfirst] at h hquotes
        obtain rfl := (List.cons.inj h).1
        simp [marked, hfirst, hquotes]

theorem byteOrderMark_not_prefix {header : List String} (hmark : marked header = false)
    (records : List (List String)) :
    byteOrderMark.isPrefixOf (encodeAll (header :: records)).toUTF8.toList = false := by
  rw [← Bool.not_eq_true, List.isPrefixOf_iff_prefix, Text.toUTF8_toList]
  intro hprefix
  have hhead := head?_of_byteOrderMark hprefix
  have hsplit : (encodeAll (header :: records)).toList =
      encodeChars (header.map String.toList) ++ (encodeAll records).toList := by
    simp [encodeAll, encode]
  rw [hsplit] at hhead
  cases hcs : encodeFields (header.map String.toList) with
  | nil => simp [encodeChars, hcs] at hhead
  | cons c cs =>
    simp only [encodeChars, hcs, List.cons_append, List.head?_cons, Option.some_inj] at hhead
    rw [marked_of_encodeFields (hhead ▸ hcs)] at hmark
    cases hmark

/-- All written records are found again, each with all its fields. -/
theorem rawRecords_encodeAll {header : List String} (hmark : marked header = false)
    (records : List (List String)) :
    (rawRecords (encodeAll (header :: records)).toUTF8.toList).map (·.fields) =
      (header :: records).map fun record => readBack (record.map String.toList) := by
  simp only [rawRecords, byteOrderMark_not_prefix hmark, Bool.false_eq_true, if_false]
  exact fieldsFrom_encodeAll _

theorem readWholeFrom_eq {width : Nat} {raws : List RawRecord} {records : List (List String)}
    (hraws : raws.map (·.fields) = records.map fieldOctets)
    (hwidth : ∀ record ∈ records, record.length = width) (i : Nat) :
    readWholeFrom width i raws = .ok records := by
  induction records generalizing raws i with
  | nil =>
    rw [List.map_nil, List.map_eq_nil_iff] at hraws
    rw [hraws]
    rfl
  | cons record records ih =>
    obtain ⟨raw, rest, rfl, hraw, hrest⟩ := List.map_eq_cons_iff.mp hraws
    have hlength : (fieldOctets record).length = width := by
      rw [fieldOctets, List.length_map]
      exact hwidth record List.mem_cons_self
    have hone : readWhole width i raw = .ok record := by
      simp only [readWhole, hraw, hlength, ne_eq, not_true_eq_false, if_false,
        decodeFields_fieldOctets]
    rw [readWholeFrom, hone,
      ih hrest (fun other hother => hwidth other (List.mem_cons_of_mem record hother)) (i + 1)]
    rfl

theorem readBack_of_width {first : String} {columns : List String} {records : List (List String)}
    (hwidth : ∀ record ∈ records, record.length = (first :: columns).length) :
    ∀ record ∈ (first :: columns) :: records,
      readBack (record.map String.toList) = fieldOctets record := by
  intro record hrecord
  apply readBack_eq_fieldOctets
  rintro rfl
  rcases List.mem_cons.mp hrecord with h | h
  · cases h
  · cases hwidth [] h

/-- A written table is read as it was, unless its header would be taken for one behind a byte order
mark. -/
theorem readRecords_encodeAll {first : String} {columns : List String}
    (hmark : marked (first :: columns) = false) {records : List (List String)}
    (hwidth : ∀ record ∈ records, record.length = (first :: columns).length) :
    readRecords (encodeAll ((first :: columns) :: records)).toUTF8 =
      .ok ((first :: columns) :: records) := by
  have hraws := rawRecords_encodeAll hmark records
  rw [List.map_congr_left (readBack_of_width hwidth)] at hraws
  obtain ⟨raw, rest, heq, hraw, -⟩ := List.map_eq_cons_iff.mp hraws
  have hlength : raw.fields.length = (first :: columns).length := by
    rw [hraw, fieldOctets, List.length_map]
  rw [heq] at hraws
  simp only [readRecords, heq, hlength]
  apply readWholeFrom_eq hraws
  intro record hrecord
  rcases List.mem_cons.mp hrecord with rfl | h
  · rfl
  · exact hwidth record h

end Csv
end MappingSweep

import MappingSweep.Proofs.Csv.RoundTrip
import MappingSweep.Proofs.Text.Trimming

/-!
# What tables are read from

A field is read exactly when its octets are those of a text, and then as that text.  So a record
that was read tells its octets, and blanks make no difference: what is read with blanks taken off is
what is read as it stands, with each field trimmed.
-/

namespace MappingSweep
namespace Csv

open Text (octets octets_append strip)

theorem decodeField_eq_ok_iff {field : List UInt8} {s : String} :
    decodeField field = .ok s ↔ field = octets s.toList := by
  constructor
  · intro h
    simp only [decodeField, Text.mk_toArray, String.fromUTF8?] at h
    by_cases hvalid : field.toByteArray.IsValidUTF8
    · rw [dif_pos hvalid] at h
      cases h
      have hbytes : (String.fromUTF8 field.toByteArray hvalid).toUTF8 = field.toByteArray := rfl
      rw [← Text.toUTF8_toList, hbytes, Text.toByteArray_toList]
    · rw [dif_neg hvalid] at h
      cases h
  · rintro rfl
    exact decodeField_octets s

theorem decodeFields_eq_ok_iff {number i : Nat} {start : Position} {fields : List (List UInt8)}
    {record : List String} :
    decodeFields number start i fields = .ok record ↔ fields = fieldOctets record := by
  constructor
  · intro h
    induction fields generalizing i record with
    | nil =>
      cases h
      rfl
    | cons field fields ih =>
      unfold decodeFields at h
      cases hfield : decodeField field with
      | error valid => rw [hfield] at h; cases h
      | ok s =>
        rw [hfield] at h
        cases hrest : decodeFields number start (i + 1) fields with
        | error f => rw [hrest] at h; cases h
        | ok rest =>
          rw [hrest] at h
          cases h
          rw [decodeField_eq_ok_iff.mp hfield, ih hrest]
          rfl
  · rintro rfl
    exact decodeFields_fieldOctets number start i record

theorem octets_injective {s t : String} (h : octets s.toList = octets t.toList) : s = t :=
  Except.ok.inj ((decodeField_octets s).symm.trans (decodeField_eq_ok_iff.mpr h))

theorem fieldOctets_injective {record record' : List String}
    (h : fieldOctets record = fieldOctets record') : record = record' := by
  have hread := decodeFields_fieldOctets 0 {} 0 record'
  rw [← h, decodeFields_fieldOctets] at hread
  exact Except.ok.inj hread

/-- The characters that are taken off as octets. -/
def isTrimmed (c : Char) : Bool :=
  c == ' ' || c == '\t' || c == '\n' || c == '\x0c' || c == '\r'

theorem isAsciiBlank_of_mem {c : Char} {b : UInt8} (hb : b ∈ String.utf8EncodeChar c) :
    isAsciiBlank b = isTrimmed c := by
  rw [Bool.eq_iff_iff]
  simp only [isAsciiBlank, isTrimmed, Bool.or_eq_true, beq_iff_eq, or_assoc]
  constructor
  · rintro (rfl | rfl | rfl | rfl | rfl)
    · exact .inl ((Text.mem_utf8EncodeChar_iff (a := ' ') (by decide)).mp hb).symm
    · exact .inr (.inl ((Text.mem_utf8EncodeChar_iff (a := '\t') (by decide)).mp hb).symm)
    · exact .inr (.inr (.inl ((Text.mem_utf8EncodeChar_iff (a := '\n') (by decide)).mp hb).symm))
    · exact .inr (.inr (.inr (.inl
        ((Text.mem_utf8EncodeChar_iff (a := '\x0c') (by decide)).mp hb).symm)))
    · exact .inr (.inr (.inr (.inr
        ((Text.mem_utf8EncodeChar_iff (a := '\r') (by decide)).mp hb).symm)))
  · intro hc
    have hsmall : c.toNat < 128 := by
      rcases hc with rfl | rfl | rfl | rfl | rfl <;> decide
    rw [Text.utf8EncodeChar_small hsmall, List.mem_singleton] at hb
    subst hb
    rcases hc with rfl | rfl | rfl | rfl | rfl <;> decide

/-- Blanks in front of a text are the blanks in front of its octets, as long as all octets of a
character are blank when one is. -/
theorem dropWhile_flatMap {encode : Char → List UInt8} (hne : ∀ c, encode c ≠ [])
    (h : ∀ c, ∀ b ∈ encode c, isAsciiBlank b = isTrimmed c) (cs : List Char) :
    (cs.flatMap encode).dropWhile isAsciiBlank = (cs.dropWhile isTrimmed).flatMap encode := by
  induction cs with
  | nil => rfl
  | cons c cs ih =>
    rw [List.flatMap_cons, List.dropWhile_cons]
    split
    · rename_i hc
      rw [List.dropWhile_append_of_pos fun b hb => (h c b hb).trans hc, ih]
    · rename_i hc
      obtain ⟨b, rest, hb⟩ := List.exists_cons_of_ne_nil (hne c)
      have hsolid : ¬ isAsciiBlank b = true := by
        rwa [h c b (by rw [hb]; exact List.mem_cons_self)]
      rw [List.flatMap_cons, hb, List.cons_append, List.dropWhile_cons_of_neg hsolid]

/-- A text without the blanks around it that are octets. -/
def trimmedText (s : String) : String :=
  String.ofList (((s.toList.dropWhile isTrimmed).reverse.dropWhile isTrimmed).reverse)

theorem trimBytes_octets (s : String) :
    trimBytes (octets s.toList) = octets (trimmedText s).toList := by
  have hne : ∀ c, String.utf8EncodeChar c ≠ [] := by
    intro c hnil
    have hlength := String.length_utf8EncodeChar c
    rw [hnil, List.length_nil] at hlength
    exact absurd hlength (Nat.ne_of_lt (Char.utf8Size_pos c))
  have hback : ∀ c, ∀ b ∈ (String.utf8EncodeChar c).reverse, isAsciiBlank b = isTrimmed c :=
    fun c b hb => isAsciiBlank_of_mem (List.mem_reverse.mp hb)
  have hdrop := dropWhile_flatMap (fun c => List.reverse_ne_nil_iff.mpr (hne c)) hback
    (s.toList.dropWhile isTrimmed).reverse
  unfold trimBytes octets trimmedText
  rw [dropWhile_flatMap hne fun c b => isAsciiBlank_of_mem, List.reverse_flatMap]
  simp only [Function.comp_def, hdrop, List.reverse_flatMap, List.reverse_reverse,
    String.toList_ofList]

theorem isBlank_of_isTrimmed {c : Char} (h : isTrimmed c = true) : Text.isBlank c = true := by
  simp only [isTrimmed, Bool.or_eq_true, beq_iff_eq, or_assoc] at h
  rcases h with rfl | rfl | rfl | rfl | rfl <;> decide

theorem trim_trimmedText (s : String) : Text.trim (trimmedText s) = Text.trim s := by
  apply String.toList_inj.mp
  have hstrip : (trimmedText s).toList = strip isTrimmed s.toList := String.toList_ofList
  rw [Text.toList_trim, Text.toList_trim, hstrip, Text.strip_strip fun _ => isBlank_of_isTrimmed]

/-- Octets that are blanks are those of blank characters. -/
theorem exists_octets_of_blank {bs : List UInt8} (h : ∀ b ∈ bs, isAsciiBlank b = true) :
    ∃ cs, octets cs = bs ∧ ∀ c ∈ cs, isTrimmed c = true := by
  induction bs with
  | nil => exact ⟨[], rfl, by simp⟩
  | cons b bs ih =>
    obtain ⟨cs, rfl, hcs⟩ := ih fun x hx => h x (List.mem_cons_of_mem b hx)
    obtain ⟨c, hc, hencode⟩ : ∃ c, isTrimmed c = true ∧ String.utf8EncodeChar c = [b] := by
      have hb := h b List.mem_cons_self
      simp only [isAsciiBlank, Bool.or_eq_true, beq_iff_eq, or_assoc] at hb
      rcases hb with rfl | rfl | rfl | rfl | rfl
      · exact ⟨' ', by decide, by decide⟩
      · exact ⟨'\t', by decide, by decide⟩
      · exact ⟨'\n', by decide, by decide⟩
      · exact ⟨'\x0c', by decide, by decide⟩
      · exact ⟨'\r', by decide, by decide⟩
    refine ⟨c :: cs, by rw [Text.octets_cons, hencode]; rfl, ?_⟩
    exact List.forall_mem_cons.mpr ⟨hc, hcs⟩

/-- Octets that are text without the blanks around them are text with them. -/
theorem exists_octets_of_trimBytes {field : List UInt8} {t : String}
    (h : trimBytes field = octets t.toList) :
    ∃ s : String, field = octets s.toList ∧ trimmedText s = t := by
  obtain ⟨front, back, heq, hfront, hback⟩ := Text.exists_eq_append_strip isAsciiBlank field
  obtain ⟨before, rfl, -⟩ := exists_octets_of_blank hfront
  obtain ⟨behind, rfl, -⟩ := exists_octets_of_blank hback
  have hmiddle : strip isAsciiBlank field = octets t.toList := h
  have hfield : field = octets (String.ofList (before ++ t.toList ++ behind)).toList := by
    rw [heq, hmiddle, String.toList_ofList, octets_append, octets_append]
  refine ⟨_, hfield, octets_injective ?_⟩
  rw [← trimBytes_octets, ← hfield, h]

theorem exists_fieldOctets_of_trimBytes {fields : List (List UInt8)} {texts : List String}
    (h : fields.map trimBytes = fieldOctets texts) :
    ∃ record, fields = fieldOctets record ∧ record.map trimmedText = texts := by
  induction fields generalizing texts with
  | nil =>
    have hnil : texts = [] := List.map_eq_nil_iff.mp h.symm
    exact ⟨[], rfl, hnil.symm⟩
  | cons field fields ih =>
    obtain ⟨t, rest, rfl, hfield, hrest⟩ := List.map_eq_cons_iff.mp h.symm
    obtain ⟨s, rfl, rfl⟩ := exists_octets_of_trimBytes hfield.symm
    obtain ⟨record, rfl, rfl⟩ := ih hrest.symm
    exact ⟨s :: record, rfl, rfl⟩

/-! ## Records as they stand and trimmed -/

section Records

variable {width number : Nat} {raw : RawRecord} {raws : List RawRecord} {input : ByteArray}

theorem length_fieldOctets (record : List String) :
    (fieldOctets record).length = record.length :=
  List.length_map _

theorem readWhole_eq_ok_iff {record : List String} :
    readWhole width number raw = .ok record ↔
      raw.fields = fieldOctets record ∧ record.length = width := by
  unfold readWhole
  by_cases hwidth : raw.fields.length = width
  · simp only [hwidth, ne_eq, not_true_eq_false, if_false]
    refine decodeFields_eq_ok_iff.trans ⟨fun hfields => ⟨hfields, ?_⟩, And.left⟩
    rw [← hwidth, hfields, length_fieldOctets]
  · simp only [ne_eq, hwidth, not_false_eq_true, if_true]
    constructor
    · intro h
      cases h
    · rintro ⟨hfields, rfl⟩
      rw [hfields, length_fieldOctets] at hwidth
      exact absurd rfl hwidth

theorem readRow_eq_ok_iff {cells : List String} :
    readRow width number raw = .ok cells ↔
      ∃ record, raw.fields = fieldOctets record ∧ record.length = width ∧
        cells = record.map Text.trim := by
  unfold readRow
  constructor
  · intro h
    by_cases hwidth : raw.fields.length = width
    · simp only [hwidth, ne_eq, not_true_eq_false, if_false] at h
      cases hfields : decodeFields number raw.start 0 (raw.fields.map trimBytes) with
      | error f => rw [hfields] at h; cases h
      | ok texts =>
        rw [hfields] at h
        cases h
        obtain ⟨record, hrecord, rfl⟩ :=
          exists_fieldOctets_of_trimBytes (decodeFields_eq_ok_iff.mp hfields)
        refine ⟨record, hrecord, by rw [← hwidth, hrecord, length_fieldOctets], ?_⟩
        simp only [List.map_map, Function.comp_def, trim_trimmedText]
    · simp only [ne_eq, hwidth, not_false_eq_true, if_true] at h
      cases h
  · rintro ⟨record, hfields, rfl, rfl⟩
    have htrimmed : (fieldOctets record).map trimBytes = fieldOctets (record.map trimmedText) := by
      simp only [fieldOctets, List.map_map, Function.comp_def, trimBytes_octets]
    simp only [hfields, length_fieldOctets, ne_eq, not_true_eq_false, if_false, htrimmed,
      decodeFields_fieldOctets, bind, Except.bind, pure, Except.pure, List.map_map,
      Function.comp_def, trim_trimmedText]

/-- A record of text is refused only for its width. -/
theorem readRow_of_fieldOctets {record : List String} (h : raw.fields = fieldOctets record) :
    readRow width number raw =
      if record.length = width then .ok (record.map Text.trim)
      else .error (.width number raw.start record.length width) := by
  split
  · rename_i hwidth
    exact readRow_eq_ok_iff.mpr ⟨record, h, hwidth, rfl⟩
  · rename_i hwidth
    have hlength : raw.fields.length ≠ width := by
      rwa [h, length_fieldOctets]
    rw [readRow, if_pos hlength, h, length_fieldOctets]
    rfl

theorem readWholeFrom_eq_ok_iff {records : List (List String)} :
    readWholeFrom width number raws = .ok records ↔
      raws.map (·.fields) = records.map fieldOctets ∧
        ∀ record ∈ records, record.length = width := by
  refine ⟨fun h => ?_, fun h => readWholeFrom_eq h.1 h.2 number⟩
  induction raws generalizing number records with
  | nil =>
    cases h
    simp
  | cons raw raws ih =>
    unfold readWholeFrom at h
    cases hone : readWhole width number raw with
    | error f => rw [hone] at h; cases h
    | ok record =>
      rw [hone] at h
      cases hrest : readWholeFrom width (number + 1) raws with
      | error f => simp only [hrest, bind, Except.bind] at h; cases h
      | ok rest =>
        simp only [hrest, bind, Except.bind] at h
        cases h
        obtain ⟨hfields, hwidth⟩ := readWhole_eq_ok_iff.mp hone
        obtain ⟨hraws, hall⟩ := ih hrest
        exact ⟨by rw [List.map_cons, List.map_cons, hfields, hraws],
          List.forall_mem_cons.mpr ⟨hwidth, hall⟩⟩

/-- All rows are read exactly when they can be read as they stand, and then as those trimmed. -/
theorem readRows_eq_map_ok_iff {table : List (List String)} :
    readRows width number raws = table.map .ok ↔
      ∃ records : List (List String), raws.map (·.fields) = records.map fieldOctets ∧
        (∀ record ∈ records, record.length = width) ∧ table = records.map (List.map Text.trim) := by
  induction raws generalizing number table with
  | nil =>
    constructor
    · intro h
      exact ⟨[], rfl, by simp, List.map_eq_nil_iff.mp h.symm⟩
    · rintro ⟨records, hraws, -, rfl⟩
      rw [List.map_eq_nil_iff.mp hraws.symm]
      rfl
  | cons raw raws ih =>
    constructor
    · intro h
      obtain ⟨cells, rest, rfl, hcells, hrest⟩ := List.map_eq_cons_iff.mp h.symm
      obtain ⟨record, hfields, hwidth, rfl⟩ := readRow_eq_ok_iff.mp hcells.symm
      obtain ⟨records, hraws, hall, rfl⟩ := ih.mp hrest.symm
      exact ⟨record :: records, by rw [List.map_cons, List.map_cons, hfields, hraws],
        List.forall_mem_cons.mpr ⟨hwidth, hall⟩, rfl⟩
    · rintro ⟨records, hraws, hall, rfl⟩
      obtain ⟨record, rest, rfl, hfields, hrest⟩ := List.map_eq_cons_iff.mp hraws.symm
      obtain ⟨hwidth, hall⟩ := List.forall_mem_cons.mp hall
      rw [readRows, readRow_eq_ok_iff.mpr ⟨record, hfields.symm, hwidth, rfl⟩,
        ih.mpr ⟨rest, hrest.symm, hall, rfl⟩]
      rfl

theorem readRecords_eq_ok_iff {first : List String} {records : List (List String)} :
    readRecords input = .ok (first :: records) ↔
      (rawRecords input.toList).map (·.fields) = (first :: records).map fieldOctets ∧
        ∀ record ∈ records, record.length = first.length := by
  unfold readRecords
  cases hraws : rawRecords input.toList with
  | nil => simp
  | cons raw rest =>
    dsimp only
    rw [readWholeFrom_eq_ok_iff, List.map_cons, List.map_cons, List.cons.injEq,
      List.forall_mem_cons]
    constructor
    · rintro ⟨⟨hraw, hrest⟩, hfirst, hall⟩
      exact ⟨⟨hraw, hrest⟩, fun record hrecord => (hall record hrecord).trans hfirst.symm⟩
    · rintro ⟨⟨hraw, hrest⟩, hall⟩
      have hfirst : first.length = raw.fields.length := by rw [hraw, length_fieldOctets]
      exact ⟨⟨hraw, hrest⟩, hfirst, fun record hrecord => (hall record hrecord).trans hfirst⟩

/-- A table with a header is read exactly when its records can be read as they stand, and then as
those trimmed. -/
theorem readTable_eq_ok_iff {header : List String} (hheader : header ≠ [])
    {table : List (List String)} :
    readTable input = .ok ⟨header, table.map .ok⟩ ↔
      ∃ first records, readRecords input = .ok (first :: records) ∧
        header = first.map Text.trim ∧ table = records.map (List.map Text.trim) := by
  simp only [readRecords_eq_ok_iff]
  unfold readTable
  cases hraws : rawRecords input.toList with
  | nil =>
    constructor
    · intro h
      exact absurd (Table.mk.inj (Except.ok.inj h)).1.symm hheader
    · rintro ⟨first, records, ⟨h, -⟩, -⟩
      cases h
  | cons raw rest =>
    dsimp only
    constructor
    · intro h
      cases hfirst : decodeFields 0 raw.start 0 raw.fields with
      | error f => rw [hfirst] at h; cases h
      | ok first =>
        rw [hfirst] at h
        obtain ⟨rfl, hrows⟩ := Table.mk.inj (Except.ok.inj h)
        obtain ⟨records, hrest, hall, rfl⟩ := readRows_eq_map_ok_iff.mp hrows
        have hraw := decodeFields_eq_ok_iff.mp hfirst
        rw [hraw, length_fieldOctets] at hall
        exact ⟨first, records, ⟨by rw [List.map_cons, List.map_cons, hraw, hrest], hall⟩, rfl, rfl⟩
    · rintro ⟨first, records, ⟨hall, hwidth⟩, rfl, rfl⟩
      obtain ⟨hraw, hrest⟩ := List.cons.inj hall
      dsimp only at hraw
      have hrows : readRows first.length 1 rest = (records.map (List.map Text.trim)).map .ok :=
        readRows_eq_map_ok_iff.mpr ⟨records, hrest, hwidth, rfl⟩
      rw [hraw, decodeFields_fieldOctets, length_fieldOctets, hrows]
      rfl

theorem readTable_of_no_records (h : rawRecords input.toList = []) :
    readTable input = .ok ⟨[], []⟩ := by
  simp only [readTable, h]
  rfl

theorem readTable_of_header {first : RawRecord} {header : List String}
    (h : rawRecords input.toList = first :: raws)
    (hheader : first.fields = fieldOctets header) :
    readTable input = .ok ⟨header.map Text.trim, readRows header.length 1 raws⟩ := by
  simp only [readTable, h, hheader, decodeFields_fieldOctets, length_fieldOctets]
  rfl

end Records

theorem HasRecords.unique {text : String} {records records' : List (List String)}
    (h : HasRecords text records) (h' : HasRecords text records') : records = records' :=
  (List.map_inj_right fun _ _ => fieldOctets_injective).mp
    (h.rawRecords_eq.symm.trans h'.rawRecords_eq)

theorem HasRecords.readTable_of_nil {text : String} (h : HasRecords text []) :
    readTable text.toUTF8 = .ok ⟨[], []⟩ :=
  readTable_of_no_records (List.map_eq_nil_iff.mp h.rawRecords_eq)

/-- The header of a text can be read, whatever the other records are. -/
theorem HasRecords.exists_readTable {text : String} {header : List String}
    {rows : List (List String)} (h : HasRecords text (header :: rows)) :
    ∃ raws : List RawRecord, raws.map (·.fields) = rows.map fieldOctets ∧
      readTable text.toUTF8 =
        .ok ⟨header.map Text.trim, readRows header.length 1 raws⟩ := by
  obtain ⟨raw, raws, hraws, hraw, hrest⟩ := List.map_eq_cons_iff.mp h.rawRecords_eq
  exact ⟨raws, hrest, readTable_of_header hraws hraw⟩

/-- A written table is read with every field trimmed. -/
theorem readTable_encodeAll {first : String} {columns : List String}
    (hmark : marked (first :: columns) = false) {records : List (List String)}
    (hwidth : ∀ record ∈ records, record.length = (first :: columns).length) :
    readTable (encodeAll ((first :: columns) :: records)).toUTF8 =
      .ok ⟨(first :: columns).map Text.trim, (records.map (List.map Text.trim)).map .ok⟩ :=
  (readTable_eq_ok_iff (by simp)).mpr
    ⟨first :: columns, records, readRecords_encodeAll hmark hwidth, rfl, rfl⟩

end Csv
end MappingSweep

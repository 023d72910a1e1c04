import MappingSweep.Csv.Record
import MappingSweep.Proofs.Csv.Steps
import MappingSweep.Proofs.Text.Octets

/-!
# What records a text has

Every text has records, in exactly one way, and these are read.  Quotes open a field only at its
start, where a doubled quote inside stands for one; what stands behind the closing quote belongs to
the field as well.  A carriage return or a line feed ends a record, and an empty line is none.
-/

namespace MappingSweep
namespace Csv

open Text (octets octets_nil octets_cons octets_append)

def IsEnding (c : Char) : Prop :=
  c = '\r' ∨ c = '\n'

/-- Nothing in the text ends a field. -/
def Unbroken (cs : List Char) : Prop :=
  ∀ c ∈ cs, c ≠ ',' ∧ ¬ IsEnding c

/-- A field and what it is written as. -/
inductive IsField : List Char → List Char → Prop where
  | bare {cs} (hquote : cs.head? ≠ some '"') (h : Unbroken cs) : IsField cs cs
  | quoted {cs rest} (hquote : rest.head? ≠ some '"') (h : Unbroken rest) :
      IsField ('"' :: (doubleQuotes cs ++ '"' :: rest)) (cs ++ rest)

/-- The fields of a record and what they are written as. -/
inductive IsRecord : List Char → List (List Char) → Prop where
  | last {written field} (h : IsField written field) : IsRecord written [field]
  | comma {written field rest fields} (h : IsField written field) (hrest : IsRecord rest fields) :
      IsRecord (written ++ ',' :: rest) (field :: fields)

/-- The fields of a record at the end of a text whose last quotes are not closed. -/
inductive IsUnclosed : List Char → List (List Char) → Prop where
  | last (cs) : IsUnclosed ('"' :: doubleQuotes cs) [cs]
  | comma {written field rest fields} (h : IsField written field) (hrest : IsUnclosed rest fields) :
      IsUnclosed (written ++ ',' :: rest) (field :: fields)

/-- The records of a text.  Only the last one may have no ending. -/
inductive AreRecords : List Char → List (List (List Char)) → Prop where
  | none : AreRecords [] []
  | empty {c rest records} (hc : IsEnding c) (hrest : AreRecords rest records) :
      AreRecords (c :: rest) records
  | record {written fields c rest records} (hne : written ≠ []) (h : IsRecord written fields)
      (hc : IsEnding c) (hrest : AreRecords rest records) :
      AreRecords (written ++ c :: rest) (fields :: records)
  | last {written fields} (hne : written ≠ []) (h : IsRecord written fields) :
      AreRecords written [fields]
  | unclosed {written fields} (h : IsUnclosed written fields) : AreRecords written [fields]

/-- The records of a text, which may begin with a byte order mark. -/
inductive HasRecords (text : String) (records : List (List String)) : Prop where
  | marked {cs} (htext : text.toList = '\uFEFF' :: cs)
      (h : AreRecords cs (records.map (List.map String.toList)))
  | unmarked (htext : text.toList.head? ≠ some '\uFEFF')
      (h : AreRecords text.toList (records.map (List.map String.toList)))

variable {c : Char} {cs written field : List Char} {fields : List (List Char)}
  {records : List (List (List Char))}

/-- What stands behind a field, or the text is at its end. -/
def Bounded (rest : List Char) : Prop :=
  ∀ c ∈ rest.head?, c = ',' ∨ IsEnding c

theorem exists_unbroken (cs : List Char) :
    ∃ front rest, cs = front ++ rest ∧ Unbroken front ∧ Bounded rest := by
  induction cs with
  | nil => exact ⟨[], [], rfl, by simp [Unbroken], by simp [Bounded]⟩
  | cons c cs ih =>
    by_cases hc : c = ',' ∨ IsEnding c
    · exact ⟨[], c :: cs, rfl, by simp [Unbroken], by simpa [Bounded] using hc⟩
    · obtain ⟨front, rest, rfl, hfront, hrest⟩ := ih
      exact ⟨c :: front, rest, rfl, List.forall_mem_cons.mpr ⟨not_or.mp hc, hfront⟩, hrest⟩

theorem doubleQuotes_cons_of_ne (hc : c ≠ '"') (cs : List Char) :
    doubleQuotes (c :: cs) = c :: doubleQuotes cs := by
  rw [doubleQuotes, if_neg hc]

/-- Between quotes the text goes on to its end or to a quote that is not doubled. -/
theorem exists_doubleQuotes : ∀ cs : List Char, (∃ inner, cs = doubleQuotes inner) ∨
    ∃ inner rest, cs = doubleQuotes inner ++ '"' :: rest ∧ rest.head? ≠ some '"'
  | [] => .inl ⟨[], rfl⟩
  | [c] => by
    by_cases hc : c = '"'
    · exact .inr ⟨[], [], by rw [hc]; rfl, by simp⟩
    · exact .inl ⟨[c], (doubleQuotes_cons_of_ne hc []).symm⟩
  | c :: d :: cs => by
    by_cases hc : c = '"'
    · by_cases hd : d = '"'
      · subst hc hd
        rcases exists_doubleQuotes cs with ⟨inner, rfl⟩ | ⟨inner, rest, rfl, hrest⟩
        · exact .inl ⟨'"' :: inner, rfl⟩
        · exact .inr ⟨'"' :: inner, rest, rfl, hrest⟩
      · exact .inr ⟨[], d :: cs, by rw [hc]; rfl, by simpa using hd⟩
    · rcases exists_doubleQuotes (d :: cs) with ⟨inner, heq⟩ | ⟨inner, rest, heq, hrest⟩
      · exact .inl ⟨c :: inner, by rw [doubleQuotes_cons_of_ne hc, heq]⟩
      · exact .inr ⟨c :: inner, rest,
          by rw [doubleQuotes_cons_of_ne hc, heq, List.cons_append], hrest⟩

theorem exists_isField (cs : List Char) :
    (∃ written field rest, cs = written ++ rest ∧ IsField written field ∧ Bounded rest) ∨
      ∃ inner, cs = '"' :: doubleQuotes inner := by
  have hfront : ∀ {front rest : List Char}, (front ++ rest).head? ≠ some '"' →
      front.head? ≠ some '"' := by
    intro front rest h hhead
    rw [List.head?_append, hhead] at h
    exact h rfl
  by_cases hquote : cs.head? = some '"'
  · obtain ⟨more, rfl⟩ := List.head?_eq_some_iff.mp hquote
    rcases exists_doubleQuotes more with ⟨inner, rfl⟩ | ⟨inner, tail, rfl, htail⟩
    · exact .inr ⟨inner, rfl⟩
    · obtain ⟨behind, rest, rfl, hbehind, hrest⟩ := exists_unbroken tail
      exact .inl ⟨'"' :: (doubleQuotes inner ++ '"' :: behind), inner ++ behind, rest, by simp,
        .quoted (hfront htail) hbehind, hrest⟩
  · obtain ⟨bare, rest, rfl, hbare, hrest⟩ := exists_unbroken cs
    exact .inl ⟨bare, bare, rest, rfl, .bare (hfront hquote) hbare, hrest⟩

theorem exists_isRecord (cs : List Char) :
    (∃ written fields rest, cs = written ++ rest ∧ IsRecord written fields ∧
      ∀ c ∈ rest.head?, IsEnding c) ∨ ∃ fields, IsUnclosed cs fields := by
  induction hlength : cs.length using Nat.strongRecOn generalizing cs with
  | ind n ih =>
    rcases exists_isField cs with ⟨written, field, rest, rfl, hfield, hrest⟩ | ⟨inner, rfl⟩
    · by_cases hcomma : rest.head? = some ','
      · obtain ⟨more, rfl⟩ := List.head?_eq_some_iff.mp hcomma
        have hlt : more.length < n := by
          rw [← hlength, List.length_append, List.length_cons]
          omega
        rcases ih _ hlt more rfl with
          ⟨written', fields, rest, rfl, hrecord, hrest⟩ | ⟨fields, hopen⟩
        · exact .inl ⟨written ++ ',' :: written', field :: fields, rest, by simp,
            .comma hfield hrecord, hrest⟩
        · exact .inr ⟨field :: fields, .comma hfield hopen⟩
      · refine .inl ⟨written, [field], rest, rfl, .last hfield, fun c hc => ?_⟩
        exact (hrest c hc).resolve_left fun h => hcomma (h ▸ hc)
    · exact .inr ⟨[inner], .last inner⟩

theorem exists_areRecords (cs : List Char) : ∃ records, AreRecords cs records := by
  induction hlength : cs.length using Nat.strongRecOn generalizing cs with
  | ind n ih =>
    cases cs with
    | nil => exact ⟨[], .none⟩
    | cons c cs =>
      by_cases hc : IsEnding c
      · have hlt : cs.length < n := by
          rw [← hlength, List.length_cons]
          exact Nat.lt_succ_self _
        obtain ⟨records, hrecords⟩ := ih _ hlt cs rfl
        exact ⟨records, .empty hc hrecords⟩
      · rcases exists_isRecord (c :: cs) with ⟨written, fields, rest, heq, hrecord, hrest⟩ |
          ⟨fields, hopen⟩
        · have hne : written ≠ [] := by
            rintro rfl
            exact hc (hrest c (by rw [← List.nil_append rest, ← heq]; rfl))
          rw [heq] at hlength ⊢
          cases rest with
          | nil => exact ⟨[fields], by rw [List.append_nil]; exact .last hne hrecord⟩
          | cons d rest =>
            have hlt : rest.length < n := by
              rw [← hlength, List.length_append, List.length_cons]
              omega
            obtain ⟨records, hrecords⟩ := ih _ hlt rest rfl
            exact ⟨fields :: records, .record hne hrecord (hrest d rfl) hrecords⟩
        · exact ⟨[fields], .unclosed hopen⟩

/-! ## The records are read -/

theorem comma_octet : String.utf8EncodeChar ',' = [Partial.comma] := by
  decide

theorem quote_octet : String.utf8EncodeChar '"' = [Partial.quote] := by
  decide

theorem isEnding_octet (hc : IsEnding c) :
    ∃ b, String.utf8EncodeChar c = [b] ∧ Partial.isEnding b = true := by
  rcases hc with rfl | rfl
  · exact ⟨0x0D, by decide, rfl⟩
  · exact ⟨0x0A, by decide, rfl⟩

/-- The octets of a text that nothing ends a field in. -/
theorem Unbroken.octet {b : UInt8} (h : Unbroken cs) (hb : b ∈ octets cs) :
    b ≠ Partial.comma ∧ Partial.isEnding b = false := by
  have hne : ∀ a : Char, a.toNat < 128 → a ∉ cs → b ≠ UInt8.ofNat a.toNat := by
    rintro a ha hmem rfl
    exact hmem ((Text.mem_octets_iff ha cs).mp hb)
  have hcomma := hne ',' (by decide) fun hmem => (h _ hmem).1 rfl
  have hreturn := hne '\r' (by decide) fun hmem => (h _ hmem).2 (.inl rfl)
  have hfeed := hne '\n' (by decide) fun hmem => (h _ hmem).2 (.inr rfl)
  refine ⟨hcomma, ?_⟩
  simp only [Partial.isEnding, Bool.or_eq_false_iff, beq_eq_false_iff_ne]
  exact ⟨hfeed, hreturn⟩

variable {mode : Mode}

theorem fieldsFrom_bare {bs : List UInt8}
    (hbs : ∀ b ∈ bs, b ≠ Partial.comma ∧ Partial.isEnding b = false) (field : List UInt8)
    (fields : List (List UInt8)) (rest : List UInt8) :
    fieldsFrom .bare field fields (bs ++ rest) =
      fieldsFrom .bare (bs.reverse ++ field) fields rest := by
  induction bs generalizing field with
  | nil => rfl
  | cons b bs ih =>
    obtain ⟨⟨hcomma, hend⟩, hbs⟩ := List.forall_mem_cons.mp hbs
    rw [List.cons_append, fieldsFrom_push hcomma hend (by decide) fun h => absurd rfl h, ih hbs]
    simp

theorem fieldsFrom_inside {bs : List UInt8} (hbs : ∀ b ∈ bs, b ≠ Partial.quote)
    (field : List UInt8) (fields : List (List UInt8)) (rest : List UInt8) :
    fieldsFrom .quoted field fields (bs ++ rest) =
      fieldsFrom .quoted (bs.reverse ++ field) fields rest := by
  induction bs generalizing field with
  | nil => rfl
  | cons b bs ih =>
    rw [List.cons_append, fieldsFrom_quoted (hbs b List.mem_cons_self),
      ih fun x hx => hbs x (List.mem_cons_of_mem b hx)]
    simp

/-- Between quotes a doubled quote stands for one, and everything else for itself. -/
theorem fieldsFrom_doubleQuotes (cs : List Char) (field : List UInt8)
    (fields : List (List UInt8)) (rest : List UInt8) :
    fieldsFrom .quoted field fields (octets (doubleQuotes cs) ++ rest) =
      fieldsFrom .quoted ((octets cs).reverse ++ field) fields rest := by
  induction cs generalizing field with
  | nil => rfl
  | cons c cs ih =>
    by_cases hc : c = '"'
    · subst hc
      simp only [doubleQuotes, if_true, octets_cons, quote_octet, List.cons_append, List.nil_append]
      rw [fieldsFrom_closing, fieldsFrom_reopening, ih]
      simp
    · have hbs : ∀ b ∈ String.utf8EncodeChar c, b ≠ Partial.quote := by
        rintro b hb rfl
        exact hc ((Text.mem_utf8EncodeChar_iff (a := '"') (by decide)).mp hb).symm
      simp only [doubleQuotes, if_neg hc, octets_cons, List.append_assoc]
      rw [fieldsFrom_inside hbs, ih]
      simp

/-- Anything but an opening quote goes into the field. -/
theorem fieldsFrom_unbroken (hmode : mode ≠ .quoted) (hquote : cs.head? ≠ some '"')
    (h : Unbroken cs) (field : List UInt8) (fields : List (List UInt8)) (rest : List UInt8) :
    fieldsFrom mode field fields (octets cs ++ rest) =
      fieldsFrom (if cs = [] then mode else .bare) ((octets cs).reverse ++ field) fields rest := by
  cases cs with
  | nil => rfl
  | cons c cs =>
    obtain ⟨b, bs, hbs⟩ := List.exists_cons_of_ne_nil (String.utf8EncodeChar_ne_nil (c := c))
    have hb : b ≠ Partial.quote := by
      rintro rfl
      have hmem : Partial.quote ∈ String.utf8EncodeChar c := by
        rw [hbs]
        exact List.mem_cons_self
      exact hquote (by rw [← (Text.mem_utf8EncodeChar_iff (a := '"') (by decide)).mp hmem]; rfl)
    have hoctets : octets (c :: cs) = b :: (bs ++ octets cs) := by
      rw [octets_cons, hbs, List.cons_append]
    have hinner : ∀ x ∈ b :: (bs ++ octets cs), x ≠ Partial.comma ∧ Partial.isEnding x = false :=
      fun x hx => h.octet (hoctets ▸ hx)
    obtain ⟨⟨hcomma, hend⟩, hinner⟩ := List.forall_mem_cons.mp hinner
    rw [hoctets, List.cons_append, fieldsFrom_push hcomma hend hmode fun _ => hb,
      fieldsFrom_bare hinner]
    simp

/-- Behind a field the reader stands where a comma or the end of the record is understood. -/
theorem IsField.exists_mode (h : IsField written field) (hmode : mode.Starts) :
    ∃ next : Mode, next ≠ .quoted ∧ (mode = .fieldStart ∨ written ≠ [] → next.Closes) ∧
      ∀ fields rest, fieldsFrom mode [] fields (octets written ++ rest) =
        fieldsFrom next (octets field).reverse fields rest := by
  cases h with
  | bare hquote hfield =>
    refine ⟨if written = [] then mode else .bare, ?_, ?_, fun fields rest => ?_⟩
    · split
      · exact hmode.ne_quoted
      · decide
    · rintro (rfl | hne)
      · split
        · exact .inl rfl
        · exact .inr (.inl rfl)
      · rw [if_neg hne]
        exact .inr (.inl rfl)
    · rw [fieldsFrom_unbroken hmode.ne_quoted hquote hfield, List.append_nil]
  | @quoted inner tail hquote htail =>
    refine ⟨if tail = [] then .afterQuote else .bare, ?_, fun _ => ?_, fun fields rest => ?_⟩
    · split <;> decide
    · split
      · exact .inr (.inr rfl)
      · exact .inr (.inl rfl)
    · simp only [octets_cons, octets_append, quote_octet, List.append_assoc, List.cons_append,
        List.nil_append, List.reverse_append]
      rw [fieldsFrom_quote hmode, fieldsFrom_doubleQuotes, fieldsFrom_closing,
        fieldsFrom_unbroken (by decide) hquote htail, List.append_nil]

/-- Behind a record the reader stands where the end of the record is understood. -/
theorem IsRecord.exists_mode (h : IsRecord written fields) (hmode : mode.Starts)
    (hne : mode = .fieldStart ∨ written ≠ []) (before : List (List UInt8)) :
    ∃ (next : Mode) (last : List UInt8) (done : List (List UInt8)), next.Closes ∧
      (last.reverse :: done).reverse = before.reverse ++ fields.map octets ∧
      ∀ rest, fieldsFrom mode [] before (octets written ++ rest) =
        fieldsFrom next last done rest := by
  induction h generalizing mode before with
  | last hfield =>
    obtain ⟨next, -, hcloses, hread⟩ := hfield.exists_mode hmode
    exact ⟨next, _, before, hcloses hne, by simp, hread before⟩
  | @comma written field rest fields hfield _ ih =>
    obtain ⟨middle, hmiddle, -, hread⟩ := hfield.exists_mode hmode
    obtain ⟨next, last, done, hcloses, hdone, hrest⟩ :=
      ih (.inr rfl) (.inl rfl) (octets field :: before)
    refine ⟨next, last, done, hcloses, by rw [hdone]; simp, fun behind => ?_⟩
    have hsplit : octets (written ++ ',' :: rest) ++ behind =
        octets written ++ Partial.comma :: (octets rest ++ behind) := by
      simp [comma_octet]
    rw [hsplit, hread, fieldsFrom_comma hmiddle, List.reverse_reverse, hrest]

theorem IsUnclosed.fieldsFrom_eq (h : IsUnclosed written fields) (hmode : mode.Starts)
    (before : List (List UInt8)) :
    fieldsFrom mode [] before (octets written) = [before.reverse ++ fields.map octets] := by
  induction h generalizing mode before with
  | last cs =>
    have hread := fieldsFrom_doubleQuotes cs [] before []
    rw [List.append_nil] at hread
    rw [octets_cons, quote_octet, List.singleton_append, fieldsFrom_quote hmode, hread,
      fieldsFrom_nil (.inr rfl)]
    simp
  | @comma written field rest fields hfield _ ih =>
    obtain ⟨middle, hmiddle, -, hread⟩ := hfield.exists_mode hmode
    rw [octets_append, octets_cons, comma_octet, List.singleton_append, hread,
      fieldsFrom_comma hmiddle, List.reverse_reverse, ih (.inr rfl)]
    simp

theorem AreRecords.fieldsFrom_eq (h : AreRecords cs records) :
    fieldsFrom .betweenRecords [] [] (octets cs) = records.map (List.map octets) := by
  induction h with
  | none => rfl
  | empty hc _ ih =>
    obtain ⟨b, hb, hend⟩ := isEnding_octet hc
    rw [octets_cons, hb, List.singleton_append, fieldsFrom_blank hend, ih]
  | record hne hrecord hc _ ih =>
    obtain ⟨b, hb, hend⟩ := isEnding_octet hc
    obtain ⟨next, last, done, hcloses, hdone, hread⟩ :=
      hrecord.exists_mode (.inl rfl) (.inr hne) []
    rw [octets_append, octets_cons, hb, List.singleton_append, hread,
      fieldsFrom_ending hcloses hend, hdone, ih]
    rfl
  | last hne hrecord =>
    obtain ⟨next, last, done, hcloses, hdone, hread⟩ :=
      hrecord.exists_mode (.inl rfl) (.inr hne) []
    have hend := hread []
    rw [List.append_nil] at hend
    rw [hend, fieldsFrom_nil (.inl hcloses), hdone]
    rfl
  | unclosed hopen => exact hopen.fieldsFrom_eq (.inl rfl) []

/-- The octets of the fields of a record. -/
def fieldOctets (record : List String) : List (List UInt8) :=
  record.map fun field => octets field.toList

/-- The octets of a byte order mark are those of U+FEFF and of no other character. -/
theorem head?_of_byteOrderMark {cs : List Char} (h : byteOrderMark <+: octets cs) :
    cs.head? = some '\uFEFF' := by
  obtain ⟨rest, hrest⟩ := h
  cases cs with
  | nil => cases hrest
  | cons c cs =>
    have hmark : byteOrderMark.toByteArray = ['\uFEFF'].utf8Encode := by decide
    have hbytes : ['\uFEFF'].utf8Encode ++ rest.toByteArray = (c :: cs).utf8Encode := by
      rw [← hmark, ← List.toByteArray_append, hrest]
      rfl
    have hdecoded := congrArg (fun bytes => bytes.utf8DecodeChar? 0) hbytes
    rw [List.utf8DecodeChar?_utf8Encode_singleton_append,
      List.utf8DecodeChar?_utf8Encode_cons] at hdecoded
    exact hdecoded.symm

theorem exists_hasRecords (text : String) : ∃ records, HasRecords text records := by
  have hstrings : ∀ cs, ∃ records : List (List String),
      AreRecords cs (records.map (List.map String.toList)) := by
    intro cs
    obtain ⟨records, hrecords⟩ := exists_areRecords cs
    refine ⟨records.map (List.map String.ofList), ?_⟩
    simpa [Function.comp_def] using hrecords
  by_cases hmark : text.toList.head? = some '\uFEFF'
  · obtain ⟨cs, htext⟩ := List.head?_eq_some_iff.mp hmark
    obtain ⟨records, hrecords⟩ := hstrings cs
    exact ⟨records, .marked htext hrecords⟩
  · obtain ⟨records, hrecords⟩ := hstrings text.toList
    exact ⟨records, .unmarked hmark hrecords⟩

/-- The records of a text are found, each with all its fields. -/
theorem HasRecords.rawRecords_eq {text : String} {records : List (List String)}
    (h : HasRecords text records) :
    (rawRecords text.toUTF8.toList).map (·.fields) = records.map fieldOctets := by
  have hoctets : (records.map (List.map String.toList)).map (List.map octets) =
      records.map fieldOctets := by
    simp [fieldOctets, Function.comp_def]
  rw [Text.toUTF8_toList, ← hoctets]
  cases h with
  | @marked cs htext hrecords =>
    have hmark : octets text.toList = byteOrderMark ++ octets cs := by
      have hfeff : String.utf8EncodeChar '\uFEFF' = byteOrderMark := by decide
      rw [htext, octets_cons, hfeff]
    have hprefix : byteOrderMark.isPrefixOf (octets text.toList) = true := by
      rw [List.isPrefixOf_iff_prefix, hmark]
      exact List.prefix_append ..
    have hdrop : (byteOrderMark ++ octets cs).drop 3 = octets cs := List.drop_left' rfl
    have hsame : SameBut { here := ⟨3, 1⟩ } {} := ⟨rfl, rfl, rfl⟩
    rw [← hrecords.fieldsFrom_eq, rawRecords, if_pos hprefix, hmark, hdrop]
    exact hsame.recordsFrom _
  | unmarked hhead hrecords =>
    have hprefix : ¬ byteOrderMark.isPrefixOf (octets text.toList) = true := by
      rw [List.isPrefixOf_iff_prefix]
      exact fun hprefix => hhead (head?_of_byteOrderMark hprefix)
    rw [← hrecords.fieldsFrom_eq, rawRecords, if_neg hprefix]
    rfl

end Csv
end MappingSweep

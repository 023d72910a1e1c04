import MappingSweep.Csv.Reader

/-!
# The reader of records, octet by octet

What becomes of the octets of an input does not depend on positions, which are forgotten first.
Then each octet does one of a few things: it opens or closes quotes, goes into the field, or ends
the field or the record.
-/

namespace MappingSweep
namespace Csv

/-- The fields of all records from a state of the reader on. -/
def fieldsFrom (mode : Mode) (field : List UInt8) (fields : List (List UInt8))
    (input : List UInt8) : List (List (List UInt8)) :=
  (recordsFrom { mode, field, fields } input).map (·.fields)

/-- Two states of the reader that differ in their positions only. -/
def SameBut (p q : Partial) : Prop :=
  p.mode = q.mode ∧ p.field = q.field ∧ p.fields = q.fields

/-- Two results of a step that differ in positions only. -/
def Matched (r s : Partial × Option RawRecord) : Prop :=
  SameBut r.1 s.1 ∧ r.2.map (·.fields) = s.2.map (·.fields)

theorem SameBut.outside {p q : Partial} (h : SameBut p q) (b : UInt8) :
    Matched (p.outside b) (q.outside b) := by
  obtain ⟨hmode, hfield, hfields⟩ := h
  unfold Partial.outside
  by_cases hcomma : b = Partial.comma
  · rw [if_pos hcomma, if_pos hcomma]
    exact ⟨⟨rfl, rfl, by simp [Partial.nextField, hfield, hfields]⟩, rfl⟩
  · by_cases hend : Partial.isEnding b = true
    · rw [if_neg hcomma, if_neg hcomma, if_pos hend, if_pos hend]
      exact ⟨⟨rfl, rfl, rfl⟩, by simp [Partial.closed, hfield, hfields]⟩
    · rw [if_neg hcomma, if_neg hcomma, if_neg hend, if_neg hend]
      exact ⟨⟨rfl, by simp [Partial.push, hfield], hfields⟩, rfl⟩

theorem SameBut.atField {p q : Partial} (h : SameBut p q) (b : UInt8) :
    Matched (p.atField b) (q.atField b) := by
  unfold Partial.atField
  by_cases hquote : b = Partial.quote
  · rw [if_pos hquote, if_pos hquote]
    exact ⟨⟨rfl, h.2⟩, rfl⟩
  · rw [if_neg hquote, if_neg hquote]
    exact h.outside b

theorem SameBut.atRecord {p q : Partial} (h : SameBut p q) (b : UInt8) :
    Matched (p.atRecord b) (q.atRecord b) := by
  unfold Partial.atRecord
  by_cases hend : Partial.isEnding b = true
  · rw [if_pos hend, if_pos hend]
    exact ⟨⟨rfl, h.2⟩, rfl⟩
  · rw [if_neg hend, if_neg hend]
    exact h.atField b

theorem SameBut.step {p q : Partial} (h : SameBut p q) (b : UInt8) :
    Matched (p.step b) (q.step b) := by
  have hpass : SameBut (p.pass b) (q.pass b) := h
  have hmode : (p.pass b).mode = (q.pass b).mode := h.1
  unfold Partial.step
  dsimp only
  rw [hmode]
  cases (q.pass b).mode with
  | betweenRecords => exact hpass.atRecord b
  | afterReturn =>
    dsimp only
    by_cases hfeed : b = 0x0A
    · rw [if_pos hfeed, if_pos hfeed]
      exact ⟨⟨rfl, hpass.2⟩, rfl⟩
    · rw [if_neg hfeed, if_neg hfeed]
      exact hpass.atRecord b
  | fieldStart => exact hpass.atField b
  | bare => exact hpass.outside b
  | quoted =>
    dsimp only
    by_cases hquote : b = Partial.quote
    · rw [if_pos hquote, if_pos hquote]
      exact ⟨⟨rfl, hpass.2⟩, rfl⟩
    · rw [if_neg hquote, if_neg hquote]
      exact ⟨⟨rfl, congrArg (b :: ·) hpass.2.1, hpass.2.2⟩, rfl⟩
  | afterQuote =>
    dsimp only
    by_cases hquote : b = Partial.quote
    · rw [if_pos hquote, if_pos hquote]
      exact ⟨⟨rfl, congrArg (b :: ·) hpass.2.1, hpass.2.2⟩, rfl⟩
    · rw [if_neg hquote, if_neg hquote]
      exact hpass.outside b

theorem SameBut.atEnd {p q : Partial} (h : SameBut p q) :
    p.atEnd.map (·.fields) = q.atEnd.map (·.fields) := by
  obtain ⟨hmode, hfield, hfields⟩ := h
  unfold Partial.atEnd
  rw [hmode]
  cases q.mode <;> simp [Partial.closed, hfield, hfields]

theorem SameBut.recordsFrom {p q : Partial} (h : SameBut p q) (input : List UInt8) :
    (recordsFrom p input).map (·.fields) = (recordsFrom q input).map (·.fields) := by
  induction input generalizing p q with
  | nil =>
    have hrecord := congrArg Option.toList h.atEnd
    simp only [Option.toList_map] at hrecord
    exact hrecord
  | cons b rest ih =>
    obtain ⟨hstate, hdone⟩ := h.step b
    have hrecord := congrArg Option.toList hdone
    simp only [Option.toList_map] at hrecord
    simp only [Csv.recordsFrom, List.map_append, ih hstate, hrecord]

/-- The modes in which a field begins. -/
def Mode.Starts (mode : Mode) : Prop :=
  mode = .betweenRecords ∨ mode = .fieldStart

/-- The modes in which a record has begun and can end. -/
def Mode.Closes (mode : Mode) : Prop :=
  mode = .fieldStart ∨ mode = .bare ∨ mode = .afterQuote

section Steps

variable {mode next : Mode} {field field' : List UInt8} {fields fields' : List (List UInt8)}
  {b : UInt8} {rest : List UInt8}

theorem Mode.Starts.ne_quoted (h : mode.Starts) : mode ≠ .quoted := by
  rcases h with rfl | rfl <;> decide

/-- A step of the reader, seen without positions. -/
theorem fieldsFrom_step (done : Option RawRecord)
    (h : Matched (Partial.step { mode, field, fields } b)
      ({ mode := next, field := field', fields := fields' }, done)) :
    fieldsFrom mode field fields (b :: rest) =
      (done.map (·.fields)).toList ++ fieldsFrom next field' fields' rest := by
  obtain ⟨hstate, hdone⟩ := h
  have hrest := hstate.recordsFrom rest
  simp only [fieldsFrom, recordsFrom, List.map_append, hrest, ← Option.toList_map, hdone]

/-- Quotes matter only where a field begins and between quotes. -/
theorem fieldsFrom_push (hcomma : b ≠ Partial.comma) (hend : Partial.isEnding b = false)
    (hmode : mode ≠ .quoted) (hquote : mode ≠ .bare → b ≠ Partial.quote) :
    fieldsFrom mode field fields (b :: rest) = fieldsFrom .bare (b :: field) fields rest := by
  have hfeed : b ≠ 0x0A := by
    rintro rfl
    cases hend
  apply fieldsFrom_step none
  cases mode with
  | quoted => exact absurd rfl hmode
  | bare => simp [Matched, SameBut, Partial.step, Partial.pass, Partial.outside, Partial.push,
      hcomma, hend]
  | betweenRecords | afterReturn | fieldStart | afterQuote =>
    simp [Matched, SameBut, Partial.step, Partial.pass, Partial.atRecord, Partial.atField,
      Partial.outside, Partial.push, hcomma, hquote, hend, hfeed]

theorem fieldsFrom_comma (hmode : mode ≠ .quoted) :
    fieldsFrom mode field fields (Partial.comma :: rest) =
      fieldsFrom .fieldStart [] (field.reverse :: fields) rest := by
  apply fieldsFrom_step none
  have hend : Partial.isEnding Partial.comma = false := by decide
  have hquote : Partial.comma ≠ Partial.quote := by decide
  have hfeed : Partial.comma ≠ 0x0A := by decide
  cases mode with
  | quoted => exact absurd rfl hmode
  | betweenRecords | afterReturn | fieldStart | bare | afterQuote =>
    simp [Matched, SameBut, Partial.step, Partial.pass, Partial.atRecord, Partial.atField,
      Partial.outside, Partial.nextField, hend, hquote, hfeed]

theorem fieldsFrom_quote (hmode : mode.Starts) :
    fieldsFrom mode field fields (Partial.quote :: rest) =
      fieldsFrom .quoted field fields rest := by
  apply fieldsFrom_step none
  have hend : Partial.isEnding Partial.quote = false := by decide
  rcases hmode with rfl | rfl <;>
    simp [Matched, SameBut, Partial.step, Partial.pass, Partial.atRecord, Partial.atField, hend]

theorem fieldsFrom_quoted (hb : b ≠ Partial.quote) :
    fieldsFrom .quoted field fields (b :: rest) = fieldsFrom .quoted (b :: field) fields rest := by
  apply fieldsFrom_step none
  simp [Matched, SameBut, Partial.step, Partial.pass, Partial.push, hb]

theorem fieldsFrom_closing :
    fieldsFrom .quoted field fields (Partial.quote :: rest) =
      fieldsFrom .afterQuote field fields rest := by
  apply fieldsFrom_step none
  simp [Matched, SameBut, Partial.step, Partial.pass]

theorem fieldsFrom_reopening :
    fieldsFrom .afterQuote field fields (Partial.quote :: rest) =
      fieldsFrom .quoted (Partial.quote :: field) fields rest := by
  apply fieldsFrom_step none
  simp [Matched, SameBut, Partial.step, Partial.pass, Partial.push]

theorem fieldsFrom_blank (hend : Partial.isEnding b = true) :
    fieldsFrom .betweenRecords field fields (b :: rest) =
      fieldsFrom .betweenRecords field fields rest := by
  apply fieldsFrom_step none
  simp [Matched, SameBut, Partial.step, Partial.pass, Partial.atRecord, hend]

/-- A line feed behind a carriage return ends an empty line like any other. -/
theorem fieldsFrom_afterReturn (input : List UInt8) :
    fieldsFrom .afterReturn field fields input = fieldsFrom .betweenRecords field fields input := by
  cases input with
  | nil => rfl
  | cons b rest =>
    by_cases hfeed : b = 0x0A
    · subst hfeed
      rw [fieldsFrom_blank rfl]
      apply fieldsFrom_step none
      simp [Matched, SameBut, Partial.step, Partial.pass]
    · -- what begins a record does so in both modes
      simp only [fieldsFrom, recordsFrom, Partial.step, Partial.pass, if_neg hfeed]
      rfl

theorem fieldsFrom_ending (hmode : mode.Closes) (hend : Partial.isEnding b = true) :
    fieldsFrom mode field fields (b :: rest) =
      (field.reverse :: fields).reverse :: fieldsFrom .betweenRecords [] [] rest := by
  have hstep : ∀ {b}, Partial.isEnding b = true → b ≠ Partial.comma → b ≠ Partial.quote →
      fieldsFrom mode field fields (b :: rest) = (field.reverse :: fields).reverse ::
        fieldsFrom (if b = 0x0D then .afterReturn else .betweenRecords) [] [] rest := by
    intro b hend hcomma hquote
    apply fieldsFrom_step (some ⟨{}, (field.reverse :: fields).reverse⟩)
    rcases hmode with rfl | rfl | rfl <;>
      simp [Matched, SameBut, Partial.step, Partial.pass, Partial.atField, Partial.outside,
        Partial.afterRecord, Partial.closed, hend, hquote, hcomma]
  rw [Partial.isEnding, Bool.or_eq_true, beq_iff_eq, beq_iff_eq] at hend
  rcases hend with rfl | rfl
  · exact hstep rfl (by decide) (by decide)
  · rw [hstep rfl (by decide) (by decide), if_pos rfl, fieldsFrom_afterReturn]

theorem fieldsFrom_nil (hmode : mode.Closes ∨ mode = .quoted) :
    fieldsFrom mode field fields [] = [(field.reverse :: fields).reverse] := by
  rcases hmode with (rfl | rfl | rfl) | rfl <;> rfl

end Steps

end Csv
end MappingSweep

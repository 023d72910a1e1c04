import MappingSweep.Log.CommandCounts
import MappingSweep.Proofs.Keyed
import MappingSweep.Proofs.Number.Word
import MappingSweep.Proofs.Text.Lines
import MappingSweep.Proofs.Text.Pieces
import MappingSweep.Proofs.Text.Trimming
import MappingSweep.Proofs.Traversal

/-!
# What command count logs are read as

A log is read exactly if every line of it is an entry: a name and a word with a colon between them,
and blanks around each.  The counts are those of the last entries under each name, and the fault is
that of the first line which is no entry.
-/

namespace MappingSweep
namespace CommandCounts

open Number (IsWord)
open Text (Lines Trimmed)

/-- Between the blanks around it the line has exactly one colon, with these texts on both sides. -/
def Halves (line front back : List Char) : Prop :=
  Trimmed line (front ++ ':' :: back) ∧ ':' ∉ front ∧ ':' ∉ back

/-- The line gives the count under the name. -/
def IsEntry (line : List Char) (name : String) (n : UInt64) : Prop :=
  ∃ front back value, Halves line front back ∧ Trimmed front name.toList ∧ Trimmed back value ∧
    IsWord value n

theorem IsEntry.trim_name {line : List Char} {name : String} {n : UInt64}
    (h : IsEntry line name n) : Text.trim name = name := by
  obtain ⟨front, back, value, -, ⟨hedged, -⟩, -⟩ := h
  apply String.toList_inj.mp
  rw [Text.toList_trim, Text.strip_of_edged hedged]

/-- Why the line with this number is no entry: it does not have exactly one colon, or else what
stands behind the colon is no word. -/
inductive Offends (number : Nat) (line : List Char) : LogFault → Prop where
  | noCount {text} (htext : Trimmed line text) (hcolons : text.count ':' ≠ 1) :
      Offends number line (.noCount number)
  | badCount {front back value} (hhalves : Halves line front back) (hvalue : Trimmed back value)
      (hword : ∀ n, ¬ IsWord value n) :
      Offends number line (.badCount number (String.ofList value))

variable {number : Nat} {line front back value : List Char}

theorem halves_iff :
    Halves line front back ↔ Text.splitOn ':' (Text.trimChars line) = [front, back] := by
  rw [Halves, Text.trimmed_iff, Text.splitOn_eq_pair_iff]

theorem Halves.readLine_eq (h : Halves line front back) (hvalue : Trimmed back value) :
    readLine number line = match Number.readWord value with
      | some n => .ok (String.ofList (Text.trimChars front), n)
      | none => .error (.badCount number (String.ofList value)) := by
  obtain rfl := Text.trimmed_iff.mp hvalue
  cases hword : Number.readWord (Text.trimChars back) <;> simp [readLine, halves_iff.mp h, hword]

theorem readLine_of_not_halves (h : ∀ front back, ¬ Halves line front back) :
    readLine number line = .error (.noCount number) := by
  unfold readLine
  split
  · rename_i front back hsplit
    exact absurd (halves_iff.mpr hsplit) (h front back)
  · rfl

theorem exists_halves_iff {text : List Char} (h : Trimmed line text) :
    (∃ front back, Halves line front back) ↔ text.count ':' = 1 := by
  obtain rfl := Text.trimmed_iff.mp h
  simp only [halves_iff, Text.exists_pair_iff]

theorem readLine_eq_ok_iff (line : List Char) (number : Nat) (entry : String × UInt64) :
    readLine number line = .ok entry ↔ IsEntry line entry.1 entry.2 := by
  obtain ⟨name, n⟩ := entry
  constructor
  · intro h
    by_cases hhalves : ∃ front back, Halves line front back
    · obtain ⟨front, back, hhalves⟩ := hhalves
      have hvalue := Text.trimmed_trimChars back
      rw [hhalves.readLine_eq hvalue] at h
      split at h
      · rename_i n hword
        cases h
        refine ⟨front, back, _, hhalves, ?_, hvalue, Number.readWord_eq_some_iff.mp hword⟩
        rw [String.toList_ofList]
        exact Text.trimmed_trimChars front
      · cases h
    · rw [readLine_of_not_halves fun front back hfb => hhalves ⟨front, back, hfb⟩] at h
      cases h
  · rintro ⟨front, back, value, hhalves, hname, hvalue, hword⟩
    rw [hhalves.readLine_eq hvalue, Number.readWord_eq_some_iff.mpr hword,
      Text.trimmed_iff.mp hname]
    simp

theorem readLine_eq_error_iff {f : LogFault} :
    readLine number line = .error f ↔ Offends number line f := by
  constructor
  · intro h
    by_cases hhalves : ∃ front back, Halves line front back
    · obtain ⟨front, back, hhalves⟩ := hhalves
      have hvalue := Text.trimmed_trimChars back
      rw [hhalves.readLine_eq hvalue] at h
      split at h
      · cases h
      · rename_i hnone
        cases h
        refine .badCount hhalves hvalue fun n hword => ?_
        rw [Number.readWord_eq_some_iff.mpr hword] at hnone
        cases hnone
    · rw [readLine_of_not_halves fun front back hfb => hhalves ⟨front, back, hfb⟩] at h
      cases h
      have htext := Text.trimmed_trimChars line
      exact .noCount htext fun hcount => hhalves ((exists_halves_iff htext).mpr hcount)
  · rintro (⟨htext, hcolons⟩ | ⟨hhalves, hvalue, hword⟩)
    · exact readLine_of_not_halves fun front back hfb =>
        hcolons ((exists_halves_iff htext).mp ⟨front, back, hfb⟩)
    · have hnone := Option.eq_none_iff_forall_ne_some.mpr fun n hn =>
        hword n (Number.readWord_eq_some_iff.mp hn)
      rw [hhalves.readLine_eq hvalue, hnone]

/-- The fault tells the number of the line. -/
theorem Offends.message_eq {f : LogFault} (h : Offends number line f) :
    ∃ complaint, f.message = "line " ++ Number.decimal number ++ ": " ++ complaint := by
  cases h with
  | noCount =>
    refine ⟨"expected `name: count`", String.toList_inj.mp ?_⟩
    simp [LogFault.message]
  | @badCount _ _ value =>
    refine ⟨"`" ++ String.ofList value ++ "` is not a count", String.toList_inj.mp ?_⟩
    simp [LogFault.message]

/-! ## Logs -/

theorem readLines_eq_mapM (number : Nat) (lines : List (List Char)) :
    readLines number lines = (lines.zipIdx number).mapM fun p => readLine p.2 p.1 := by
  induction lines generalizing number with
  | nil => rfl
  | cons line lines ih => rw [readLines, ih, List.zipIdx_cons, List.mapM_cons]

/-- The entry on a line, if it is one. -/
def entryOf (line : List Char) : Option (String × UInt64) :=
  (readLine 0 line).toOption

theorem entryOf_eq_some_iff (line : List Char) (name : String) (n : UInt64) :
    entryOf line = some (name, n) ↔ IsEntry line name n := by
  rw [entryOf, ← readLine_eq_ok_iff line 0 (name, n)]
  cases readLine 0 line <;> simp [Except.toOption]

theorem filterMap_entryOf {lines : List (List Char)} {entries : List (String × UInt64)}
    (h : List.Forall₂ (fun line e => IsEntry line e.1 e.2) lines entries) :
    lines.filterMap entryOf = entries := by
  induction h with
  | nil => rfl
  | cons hline _ ih => rw [List.filterMap_cons_some ((entryOf_eq_some_iff _ _ _).mpr hline), ih]

/-- There is a count for each name that has an entry, which is that of the last one. -/
structure Counted (lines : List (List Char)) (counts : Keyed UInt64) : Prop where
  sorted : Keyed.Sorted counts
  keys : ∀ name, name ∈ Keyed.keys counts ↔ ∃ line ∈ lines, ∃ n, IsEntry line name n
  last : ∀ name n, Keyed.get? name counts = some n ↔ Keyed.LastTold IsEntry name n lines

theorem counted_ofList {lines : List (List Char)} {entries : List (String × UInt64)}
    (h : List.Forall₂ (fun line e => IsEntry line e.1 e.2) lines entries) :
    Counted lines (Keyed.ofList entries) where
  sorted := Keyed.sorted_ofList entries
  keys name := by
    rw [Keyed.mem_keys_ofList, ← filterMap_entryOf h]
    exact Keyed.mem_keys_filterMap_iff entryOf_eq_some_iff
  last name n := by
    rw [← filterMap_entryOf h]
    exact Keyed.get?_ofList_filterMap_iff entryOf_eq_some_iff

theorem parse_eq_ok_iff {text : String} {counts : Keyed UInt64} :
    parse text = .ok counts ↔ ∃ entries,
      List.Forall₂ (fun line e => IsEntry line e.1 e.2) (Text.splitLines text.toList) entries ∧
        counts = Keyed.ofList entries := by
  have hread : ∀ entries, readLines 1 (Text.splitLines text.toList) = .ok entries ↔
      List.Forall₂ (fun line e => IsEntry line e.1 e.2) (Text.splitLines text.toList) entries := by
    intro entries
    rw [readLines_eq_mapM]
    exact mapM_zipIdx_eq_ok_iff readLine_eq_ok_iff
  simp only [← hread]
  unfold parse
  cases readLines 1 (Text.splitLines text.toList) with
  | error f => simp [bind, Except.bind]
  | ok entries => simp [bind, Except.bind, pure, Except.pure, eq_comm]

theorem parse_eq_error_iff {text : String} {f : LogFault} :
    parse text = .error f ↔ ∃ before line after,
      Text.splitLines text.toList = before ++ line :: after ∧
        (∀ l ∈ before, ∃ name n, IsEntry l name n) ∧ Offends (before.length + 1) line f := by
  have hread : parse text = .error f ↔ readLines 1 (Text.splitLines text.toList) = .error f := by
    unfold parse
    cases readLines 1 (Text.splitLines text.toList) <;> simp [bind, Except.bind, pure, Except.pure]
  rw [hread, readLines_eq_mapM, mapM_zipIdx_eq_error_iff readLine_eq_ok_iff]
  simp only [readLine_eq_error_iff, Prod.exists]

theorem exists_parse_iff {text : String} : (∃ counts, parse text = .ok counts) ↔
    ∀ line ∈ Text.splitLines text.toList, ∃ name n, IsEntry line name n := by
  constructor
  · rintro ⟨counts, h⟩ line hline
    obtain ⟨entries, hall, -⟩ := parse_eq_ok_iff.mp h
    obtain ⟨i, hi, rfl⟩ := List.mem_iff_getElem.mp hline
    exact ⟨_, _, hall.get hi (hall.length_eq ▸ hi)⟩
  · intro hall
    cases hparse : parse text with
    | ok counts => exact ⟨counts, rfl⟩
    | error f =>
      obtain ⟨before, line, after, hlines, -, hoffends⟩ := parse_eq_error_iff.mp hparse
      obtain ⟨name, n, hentry⟩ := hall line (by rw [hlines]; simp)
      have hread := (readLine_eq_ok_iff line (before.length + 1) (name, n)).mpr hentry
      cases (readLine_eq_error_iff.mpr hoffends).symm.trans hread

theorem counted_of_parse {text : String} {counts : Keyed UInt64} (h : parse text = .ok counts) :
    Counted (Text.splitLines text.toList) counts := by
  obtain ⟨entries, hall, rfl⟩ := parse_eq_ok_iff.mp h
  exact counted_ofList hall

/-- Whatever the text is, it is read exactly if all of its lines are entries.  Then each name has
the count of its last entry; otherwise the first line that is no entry is at fault. -/
theorem counts_of_lines (text : String) :
    ∃ lines, Lines text.toList lines ∧
      ((∃ counts, parse text = .ok counts) ↔ ∀ line ∈ lines, ∃ name n, IsEntry line name n) ∧
      (∀ counts, parse text = .ok counts → Counted lines counts) ∧
      ∀ f, parse text = .error f →
        (∃ before line after, lines = before ++ line :: after ∧
          (∀ l ∈ before, ∃ name n, IsEntry l name n) ∧ Offends (before.length + 1) line f ∧
          ∃ complaint, f.message =
            "line " ++ Number.decimal (before.length + 1) ++ ": " ++ complaint) ∧
        ∀ fs p, fs.readText p = .ok text → read fs p = .error (.malformedLog p f) := by
  refine ⟨_, Text.lines_splitLines text.toList, exists_parse_iff, fun counts => counted_of_parse,
    fun f h => ⟨?_, fun fs p htext => ?_⟩⟩
  · obtain ⟨before, line, after, hlines, hbefore, hoffends⟩ := parse_eq_error_iff.mp h
    exact ⟨before, line, after, hlines, hbefore, hoffends, hoffends.message_eq⟩
  · rw [read, FileSystem.loadText, htext]
    simp only [Except.mapError, bind, Except.bind, h]

/-- One line ends with a carriage return and a line feed and one not at all; a count has a plus
sign, and a name has two counts. -/
def repeatingLog : String :=
  "ACT: 1\r\n PRE :+4\nACT:7"

/-- The third line counts too far, and the fourth has no colon. -/
def overflowingLog : String :=
  "ACT: 1\n:0\n PRE: 18446744073709551616\nRD\n"

def logFile (text : String) : FileSystem :=
  ⟨[(["counts.log"], .file text.toUTF8 false)]⟩

theorem counts_of_lines_overflowingLog :
    (∃ lines counts, Lines repeatingLog.toList lines ∧ lines.length = 3 ∧
      parse repeatingLog = .ok counts ∧ Counted lines counts ∧
      Keyed.LastTold IsEntry "ACT" 7 lines ∧ Keyed.LastTold IsEntry "PRE" 4 lines) ∧
    read (logFile overflowingLog) ⟨"counts.log"⟩ =
      .error (.malformedLog ⟨"counts.log"⟩ (.badCount 3 "18446744073709551616")) ∧
    (SweepError.malformedLog ⟨"counts.log"⟩ (.badCount 3 "18446744073709551616")).message =
      "malformed log \"counts.log\": line 3: `18446744073709551616` is not a count" ∧
    ∃ before line after, Lines overflowingLog.toList (before ++ line :: after) ∧
      Offends (before.length + 1) line (.badCount 3 "18446744073709551616") := by
  obtain ⟨lines, hlines, -, hok, -⟩ := counts_of_lines repeatingLog
  obtain ⟨_, hlines', _, _, herror⟩ := counts_of_lines overflowingLog
  have hparse : parse repeatingLog = .ok [("ACT", 7), ("PRE", 4)] := by decide +kernel
  have hfault : parse overflowingLog = .error (.badCount 3 "18446744073709551616") := by
    decide +kernel
  have hcounted := hok _ hparse
  obtain ⟨⟨before, line, after, rfl, -, hoffends, -⟩, hread⟩ := herror _ hfault
  refine ⟨⟨lines, _, hlines, ?_, hparse, hcounted, ?_, ?_⟩, ?_, ?_, before, line, after,
    hlines', hoffends⟩
  · rw [← hlines.splitLines_eq]
    decide +kernel
  · exact (hcounted.last "ACT" 7).mp (by decide +kernel)
  · exact (hcounted.last "PRE" 4).mp (by decide +kernel)
  · exact hread _ _ (by decide +kernel)
  · decide +kernel

end CommandCounts
end MappingSweep

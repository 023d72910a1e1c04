import MappingSweep.Log.CommandTrace
import MappingSweep.Proofs.Number.Word
import MappingSweep.Proofs.Text.Lines
import MappingSweep.Proofs.Text.Pieces
import MappingSweep.Proofs.Text.Trimming
import MappingSweep.Proofs.Traversal

/-!
# What command traces are read as

A trace is read exactly if every line of it that is not blank is an event: a word and a command as
the first two fields, with blanks around each.  The fault is that of the first other line.  Its
number counts the lines that are not blank, and so it is the place of the line in the text only if
no blank line stands above.
-/

namespace MappingSweep
namespace CommandTrace

open Number (IsWord)
open Text (FirstPiece Lines Trimmed)

def Blank (line : List Char) : Prop :=
  ∀ c ∈ line, Text.isBlank c = true

/-- The text stands between the first comma and the second one, or the end. -/
def SecondField (line field : List Char) : Prop :=
  ∃ first rest, line = first ++ ',' :: rest ∧ ',' ∉ first ∧ FirstPiece ',' field rest

/-- The line gives the clock and the command in its first two fields. -/
def IsEvent (line : List Char) (e : CommandEvent) : Prop :=
  (∃ first clock, FirstPiece ',' first line ∧ Trimmed first clock ∧ IsWord clock e.clock) ∧
    ∃ second, SecondField line second ∧ Trimmed second e.command.toList ∧ e.command ≠ ""

/-- Why the line with this number is no event: its first field is no word, or else it has no second
field with something in it. -/
inductive Offends (number : Nat) (line : List Char) : TraceFault → Prop where
  | noClock {first clock} (hfirst : FirstPiece ',' first line) (hclock : Trimmed first clock)
      (hword : ∀ n, ¬ IsWord clock n) : Offends number line (.noClock number (String.ofList line))
  | noCommand {first clock n} (hfirst : FirstPiece ',' first line) (hclock : Trimmed first clock)
      (hword : IsWord clock n) (hsecond : ∀ second, SecondField line second → Blank second) :
      Offends number line (.noCommand number (String.ofList line))

variable {number : Nat} {line first second : List Char} {more : List (List Char)}
  {e : CommandEvent} {f : TraceFault}

theorem secondField_iff (hsplit : Text.splitOn ',' line = first :: more) :
    SecondField line second ↔ ∃ rest, more = second :: rest := by
  constructor
  · rintro ⟨front, back, rfl, hfront, hsecond⟩
    obtain ⟨rest, hrest⟩ := Text.firstPiece_iff.mp hsecond
    rw [Text.splitOn_append_sep, Text.splitOn_of_not_mem hfront, hrest] at hsplit
    exact ⟨rest, (List.cons.inj hsplit).2.symm⟩
  · rintro ⟨rest, rfl⟩
    obtain ⟨hfirst, ⟨-, hnil⟩ | ⟨back, rfl, hback⟩⟩ := Text.splitOn_eq_cons_iff.mp hsplit
    · cases hnil
    · exact ⟨first, back, rfl, hfirst, Text.firstPiece_iff.mpr ⟨rest, hback⟩⟩

theorem firstField_iff (hsplit : Text.splitOn ',' line = first :: more) {field : List Char} :
    FirstPiece ',' field line ↔ field = first := by
  rw [Text.firstPiece_iff, hsplit]
  simp [eq_comm]

theorem isEvent_iff (hsplit : Text.splitOn ',' line = first :: more) :
    IsEvent line e ↔ Number.readWord (Text.trimChars first) = some e.clock ∧
      ∃ second rest, more = second :: rest ∧ Text.trimChars second = e.command.toList ∧
        e.command ≠ "" := by
  simp only [IsEvent, firstField_iff hsplit, secondField_iff hsplit, Text.trimmed_iff,
    Number.readWord_eq_some_iff]
  simp

theorem offends_iff (hsplit : Text.splitOn ',' line = first :: more) :
    Offends number line f ↔
      Number.readWord (Text.trimChars first) = none ∧ f = .noClock number (String.ofList line) ∨
      (∃ n, Number.readWord (Text.trimChars first) = some n) ∧
        (∀ second rest, more = second :: rest → Text.trimChars second = []) ∧
          f = .noCommand number (String.ofList line) := by
  constructor
  · rintro (⟨hfirst, hclock, hword⟩ | ⟨hfirst, hclock, hword, hsecond⟩)
    · obtain rfl := (firstField_iff hsplit).mp hfirst
      obtain rfl := Text.trimmed_iff.mp hclock
      refine .inl ⟨Option.eq_none_iff_forall_ne_some.mpr fun n hn => ?_, rfl⟩
      exact hword n (Number.readWord_eq_some_iff.mp hn)
    · obtain rfl := (firstField_iff hsplit).mp hfirst
      obtain rfl := Text.trimmed_iff.mp hclock
      refine .inr ⟨⟨_, Number.readWord_eq_some_iff.mpr hword⟩, fun second rest hmore => ?_, rfl⟩
      exact Text.trimChars_eq_nil_iff.mpr
        (hsecond second ((secondField_iff hsplit).mpr ⟨rest, hmore⟩))
  · have hfirst := (firstField_iff hsplit).mpr rfl
    have hclock := Text.trimmed_trimChars first
    rintro (⟨hnone, rfl⟩ | ⟨⟨n, hn⟩, hsecond, rfl⟩)
    · refine .noClock hfirst hclock fun n hn => ?_
      rw [Number.readWord_eq_some_iff.mpr hn] at hnone
      cases hnone
    · refine .noCommand hfirst hclock (Number.readWord_eq_some_iff.mp hn) fun second h => ?_
      obtain ⟨rest, hmore⟩ := (secondField_iff hsplit).mp h
      exact Text.trimChars_eq_nil_iff.mp (hsecond second rest hmore)

section Reading

variable (hsplit : Text.splitOn ',' line = first :: more) {n : UInt64}

include hsplit

theorem readLine_of_noClock (hword : Number.readWord (Text.trimChars first) = none) :
    readLine number line = .error (.noClock number (String.ofList line)) := by
  simp only [readLine, hsplit, List.map_cons, hword]

theorem readLine_of_noCommand (hword : Number.readWord (Text.trimChars first) = some n)
    (hsecond : ∀ second rest, more = second :: rest → Text.trimChars second = []) :
    readLine number line = .error (.noCommand number (String.ofList line)) := by
  cases more with
  | nil => simp only [readLine, hsplit, List.map_cons, List.map_nil, hword]
  | cons second rest =>
    simp only [readLine, hsplit, List.map_cons, hword, hsecond second rest rfl]

theorem readLine_of_command {rest : List (List Char)} {c : Char} {cs : List Char}
    (hword : Number.readWord (Text.trimChars first) = some n) (hmore : more = second :: rest)
    (hsecond : Text.trimChars second = c :: cs) :
    readLine number line = .ok ⟨n, String.ofList (c :: cs)⟩ := by
  subst hmore
  simp only [readLine, hsplit, List.map_cons, hword, hsecond]

end Reading

/-- A line is read as the event that it is, or refused for the reason why it is none. -/
theorem readLine_eq_iff (number : Nat) (line : List Char) :
    (∀ e, readLine number line = .ok e ↔ IsEvent line e) ∧
      ∀ f, readLine number line = .error f ↔ Offends number line f := by
  obtain ⟨first, more, hsplit⟩ := List.exists_cons_of_ne_nil (Text.splitOn_ne_nil ',' line)
  simp only [isEvent_iff hsplit, offends_iff hsplit]
  cases hword : Number.readWord (Text.trimChars first) with
  | none => simp [readLine_of_noClock hsplit hword, @eq_comm _ _ (TraceFault.noClock _ _)]
  | some n =>
    by_cases hsecond : ∀ second rest, more = second :: rest → Text.trimChars second = []
    · rw [readLine_of_noCommand hsplit hword hsecond]
      constructor
      · rintro ⟨clock, command⟩
        simp only [reduceCtorEq, false_iff, not_and, not_exists]
        rintro - second rest hmore htrim
        rw [hsecond second rest hmore] at htrim
        exact fun hne => hne (String.toList_eq_nil_iff.mp htrim.symm)
      · intro f
        simpa [@eq_comm _ _ (TraceFault.noCommand _ _)] using fun _ => hsecond
    · push Not at hsecond
      obtain ⟨second, rest, rfl, hne⟩ := hsecond
      obtain ⟨c, cs, htrim⟩ := List.exists_cons_of_ne_nil hne
      rw [readLine_of_command hsplit hword rfl htrim]
      constructor
      · rintro ⟨clock, command⟩
        have hcommand : String.ofList (c :: cs) = command ↔
            c :: cs = command.toList ∧ command ≠ "" := by
          rw [← String.toList_inj, String.toList_ofList]
          refine ⟨fun h => ⟨h, ?_⟩, And.left⟩
          rintro rfl
          cases h
        rw [Except.ok.injEq, CommandEvent.mk.injEq, hcommand]
        simp [htrim]
      · intro f
        simp [htrim]

/-- The fault tells the number of the line, and shows it. -/
theorem Offends.message_eq (h : Offends number line f) :
    ∃ complaint, f.message = "line " ++ Number.decimal number ++ ": " ++ complaint ++ " in `" ++
      String.ofList line ++ "`" := by
  cases h with
  | noClock =>
    refine ⟨"no clock", String.toList_inj.mp ?_⟩
    simp [TraceFault.message]
  | noCommand =>
    refine ⟨"no command", String.toList_inj.mp ?_⟩
    simp [TraceFault.message]

/-! ## Traces -/

/-- The lines that are not blank. -/
def written (lines : List (List Char)) : List (List Char) :=
  lines.filter fun line => !isBlankLine line

theorem isBlankLine_iff : isBlankLine line = true ↔ Blank line := by
  rw [isBlankLine, List.isEmpty_iff, Text.trimChars_eq_nil_iff, Blank]

theorem not_isBlankLine_iff : (!isBlankLine line) = true ↔ ¬ Blank line := by
  rw [← isBlankLine_iff, Bool.not_eq_true', Bool.not_eq_true]

theorem written_append (lines lines' : List (List Char)) :
    written (lines ++ lines') = written lines ++ written lines' :=
  List.filter_append ..

theorem written_cons_of_not_blank (h : ¬ Blank line) (lines : List (List Char)) :
    written (line :: lines) = line :: written lines :=
  List.filter_cons_of_pos (not_isBlankLine_iff.mpr h)

theorem mem_written_iff {lines : List (List Char)} :
    line ∈ written lines ↔ line ∈ lines ∧ ¬ Blank line := by
  rw [written, List.mem_filter, not_isBlankLine_iff]

theorem written_eq_nil_iff {lines : List (List Char)} :
    written lines = [] ↔ ∀ line ∈ lines, Blank line := by
  simp only [written, List.filter_eq_nil_iff, not_isBlankLine_iff, not_not]

theorem length_written_eq_iff {lines : List (List Char)} :
    (written lines).length = lines.length ↔ ∀ line ∈ lines, ¬ Blank line := by
  simp only [written, List.length_filter_eq_length_iff, not_isBlankLine_iff]

theorem readLines_eq_mapM (number : Nat) (lines : List (List Char)) :
    readLines number lines = (lines.zipIdx number).mapM fun p => readLine p.2 p.1 := by
  induction lines generalizing number with
  | nil => rfl
  | cons line lines ih => rw [readLines, ih, List.zipIdx_cons, List.mapM_cons]

theorem parse_eq_ok_iff {text : String} {events : List CommandEvent} :
    parse text = .ok events ↔
      List.Forall₂ IsEvent (written (Text.splitLines text.toList)) events := by
  rw [parse, readLines_eq_mapM]
  exact mapM_zipIdx_eq_ok_iff fun line number => (readLine_eq_iff number line).1

/-- The line comes right behind these lines, and is the first one that is neither blank nor an
event. -/
structure FirstOffender (lines before : List (List Char)) (line : List Char) (f : TraceFault) :
    Prop where
  lines_eq : ∃ after, lines = before ++ line :: after
  fine : ∀ l ∈ before, Blank l ∨ ∃ e, IsEvent l e
  not_blank : ¬ Blank line
  offends : Offends ((written before).length + 1) line f

theorem parse_eq_error_iff {text : String} : parse text = .error f ↔
    ∃ before line, FirstOffender (Text.splitLines text.toList) before line f := by
  rw [parse, readLines_eq_mapM,
    mapM_zipIdx_eq_error_iff fun line number => (readLine_eq_iff number line).1]
  simp only [(readLine_eq_iff _ _).2]
  constructor
  · rintro ⟨front, line, back, hwritten, hfront, hoffends⟩
    obtain ⟨before, rest, hlines, rfl, hrest⟩ := List.filter_eq_append_iff.mp hwritten
    obtain ⟨skipped, after, rfl, hskipped, hline, -⟩ := List.filter_eq_cons_iff.mp hrest
    have hblank : ∀ l ∈ skipped, Blank l := fun l hl =>
      not_not.mp fun hnot => hskipped l hl (not_isBlankLine_iff.mpr hnot)
    refine ⟨before ++ skipped, line, ⟨after, by simp [hlines]⟩, fun l hl => ?_,
      not_isBlankLine_iff.mp hline, ?_⟩
    · rcases List.mem_append.mp hl with hl | hl
      · exact or_iff_not_imp_left.mpr fun hnot => hfront l (mem_written_iff.mpr ⟨hl, hnot⟩)
      · exact .inl (hblank l hl)
    · rw [written_append, written_eq_nil_iff.mpr hblank, List.append_nil]
      exact hoffends
  · rintro ⟨before, line, ⟨after, hlines⟩, hfine, hblank, hoffends⟩
    refine ⟨written before, line, written after, ?_, fun l hl => ?_, hoffends⟩
    · change written (Text.splitLines text.toList) = _
      rw [hlines, written_append, written_cons_of_not_blank hblank]
    · obtain ⟨hmem, hnot⟩ := mem_written_iff.mp hl
      exact (hfine l hmem).resolve_left hnot

theorem exists_parse_iff {text : String} : (∃ events, parse text = .ok events) ↔
    ∀ line ∈ Text.splitLines text.toList, Blank line ∨ ∃ e, IsEvent line e := by
  constructor
  · rintro ⟨events, h⟩ line hline
    refine or_iff_not_imp_left.mpr fun hnot => ?_
    obtain ⟨i, hi, rfl⟩ := List.mem_iff_getElem.mp (mem_written_iff.mpr ⟨hline, hnot⟩)
    have hall := parse_eq_ok_iff.mp h
    exact ⟨_, hall.get hi (hall.length_eq ▸ hi)⟩
  · intro hall
    cases hparse : parse text with
    | ok events => exact ⟨events, rfl⟩
    | error f =>
      obtain ⟨before, line, ⟨after, hlines⟩, -, hblank, hoffends⟩ := parse_eq_error_iff.mp hparse
      obtain ⟨e, he⟩ := (hall line (by rw [hlines]; simp)).resolve_left hblank
      have hread := ((readLine_eq_iff ((written before).length + 1) line).1 e).mpr he
      cases (((readLine_eq_iff _ _).2 f).mpr hoffends).symm.trans hread

/-- Whatever the text is, it is read exactly if all of its lines that are not blank are events, and
gives these in their order.  Otherwise the first other line is at fault, under its number among the
lines that are not blank, which is its place in the text exactly if no line above it is blank. -/
theorem events_of_lines (text : String) :
    ∃ lines, Lines text.toList lines ∧
      ((∃ events, parse text = .ok events) ↔ ∀ line ∈ lines, Blank line ∨ ∃ e, IsEvent line e) ∧
      (∀ events, parse text = .ok events ↔ List.Forall₂ IsEvent (written lines) events) ∧
      ∀ f, parse text = .error f → ∃ before line, FirstOffender lines before line f ∧
        (∃ complaint, f.message = "line " ++ Number.decimal ((written before).length + 1) ++ ": " ++
          complaint ++ " in `" ++ String.ofList line ++ "`") ∧
        ((written before).length + 1 = before.length + 1 ↔ ∀ l ∈ before, ¬ Blank l) := by
  refine ⟨_, Text.lines_splitLines text.toList, exists_parse_iff, fun _ => parse_eq_ok_iff,
    fun f h => ?_⟩
  obtain ⟨before, line, hfirst⟩ := parse_eq_error_iff.mp h
  refine ⟨before, line, hfirst, hfirst.offends.message_eq, ?_⟩
  rw [Nat.add_right_cancel_iff, length_written_eq_iff]

/-- A blank line between the events, the first of which ends with a carriage return. -/
def spacedTrace : String :=
  "  10,    ACT,  0\r\n \n14,RD,0,5"

/-- The second line has no command. -/
def cutTrace : String :=
  "10,ACT\n 14, \nRD\n"

theorem events_of_lines_cutTrace :
    (∃ lines, Lines spacedTrace.toList lines ∧ lines.length = 3 ∧
      parse spacedTrace = .ok [⟨10, "ACT"⟩, ⟨14, "RD"⟩] ∧
      List.Forall₂ IsEvent (written lines) [⟨10, "ACT"⟩, ⟨14, "RD"⟩]) ∧
    parse cutTrace = .error (.noCommand 2 " 14, ") ∧
    (TraceFault.noCommand 2 " 14, ").message = "line 2: no command in ` 14, `" ∧
    ∃ lines before line, Lines cutTrace.toList lines ∧
      FirstOffender lines before line (.noCommand 2 " 14, ") := by
  obtain ⟨lines, hlines, -, hok, -⟩ := events_of_lines spacedTrace
  obtain ⟨_, hlines', -, -, herror⟩ := events_of_lines cutTrace
  have hparse : parse spacedTrace = .ok [⟨10, "ACT"⟩, ⟨14, "RD"⟩] := by decide +kernel
  have hfault : parse cutTrace = .error (.noCommand 2 " 14, ") := by decide +kernel
  obtain ⟨before, line, hfirst, -⟩ := herror _ hfault
  refine ⟨⟨lines, hlines, ?_, hparse, (hok _).mp hparse⟩, hfault, by decide +kernel, _, before,
    line, hlines', hfirst⟩
  rw [← hlines.splitLines_eq]
  decide +kernel

/-- The line at fault is the second one of the text, and is called the first. -/
theorem blank_line_uncounted :
    Lines "\nACT\n".toList [[], ['A', 'C', 'T']] ∧ Blank [] ∧ ¬ Blank ['A', 'C', 'T'] ∧
      (∀ e, ¬ IsEvent ['A', 'C', 'T'] e) ∧ parse "\nACT\n" = .error (.noClock 1 "ACT") ∧
      (TraceFault.noClock 1 "ACT").message = "line 1: no clock in `ACT`" := by
  refine ⟨Text.splitLines_eq_iff.mp (by decide +kernel), fun _ hc => (List.not_mem_nil hc).elim,
    ?_, fun e he => ?_, by decide +kernel, by decide +kernel⟩
  · rw [← isBlankLine_iff]
    decide +kernel
  · have hread := ((readLine_eq_iff 1 _).1 e).mpr he
    have hfault : readLine 1 ['A', 'C', 'T'] = .error (.noClock 1 "ACT") := by decide +kernel
    cases hfault.symm.trans hread

end CommandTrace
end MappingSweep

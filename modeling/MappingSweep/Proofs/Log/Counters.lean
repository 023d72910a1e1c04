import MappingSweep.Log.Counters
import MappingSweep.Proofs.Keyed
import MappingSweep.Proofs.Number.Word
import MappingSweep.Proofs.Text.Lines
import MappingSweep.Proofs.Text.Trimming

/-!
# What counters are read from an output

A line sets a counter by the leftmost place at which any of the known names is followed by a colon,
blanks and digits, if these digits are a word.  The last line that sets a counter counts, and all
other lines might as well not be there.
-/

namespace MappingSweep
namespace Counters

open Number (IsWord)
open Text (Lines)

/-- The text begins with a known name, a colon, blanks if any, and digits that go on as far as they
can. -/
structure Begins (cs : List Char) (name : String) (digits : List Char) : Prop where
  name_mem : name ∈ known
  digits_ne_nil : digits ≠ []
  isScriptDigit : ∀ d ∈ digits, Text.isScriptDigit d = true
  eq_append : ∃ blanks after, cs = name.toList ++ ':' :: (blanks ++ (digits ++ after)) ∧
    (∀ c ∈ blanks, Text.isBlank c = true) ∧ ∀ c ∈ after.head?, Text.isScriptDigit c = false

/-- The counter stands in the line behind the given text. -/
def Occurs (line before : List Char) (name : String) (digits : List Char) : Prop :=
  ∃ rest, line = before ++ rest ∧ Begins rest name digits

/-- No counter stands further to the left. -/
def First (line before : List Char) (name : String) (digits : List Char) : Prop :=
  Occurs line before name digits ∧ ∀ before' name' digits', Occurs line before' name' digits' →
    before.length ≤ before'.length

/-- The leftmost counter of the line has this name, and its digits are the word. -/
def Sets (line : List Char) (name : String) (n : UInt64) : Prop :=
  ∃ before digits, First line before name digits ∧ IsWord digits n

/-- No counter stands in the line, or the leftmost one has too many digits or foreign ones. -/
def Silent (line : List Char) : Prop :=
  ∀ name n, ¬ Sets line name n

variable {cs line before digits : List Char} {name : String} {n : UInt64} {c : Char}

theorem after?_eq_some_iff {ps rest : List Char} : after? ps cs = some rest ↔ cs = ps ++ rest := by
  fun_induction after? ps cs with
  | case1 cs => simp
  | case2 p ps => simp
  | case3 ps c cs ih => simp [ih]
  | case4 p ps c cs hne => simp [Ne.symm hne]

/-- The zeros of all scripts and the nine characters behind each. -/
theorem isScriptDigit_iff : Text.isScriptDigit c = true ↔
    ∃ first ∈ Text.scriptZeros, first ≤ c.toNat ∧ c.toNat ≤ first + 9 := by
  simp [Text.isScriptDigit]

theorem not_isBlank_of_isScriptDigit (h : Text.isScriptDigit c = true) :
    Text.isBlank c = false := by
  obtain ⟨first, hfirst, hle, hle'⟩ := isScriptDigit_iff.mp h
  have hruns : ∀ first ∈ Text.scriptZeros, ∀ k < 10,
      (Text.isBlank (Char.ofNat (first + k))) = false := by
    decide +kernel
  have hrun := hruns first hfirst (c.toNat - first) (by omega)
  rwa [Nat.add_sub_cancel' hle, Char.ofNat_toNat] at hrun

theorem digitsOf?_eq_some_iff (hname : name ∈ known) :
    digitsOf? name cs = some digits ↔ Begins cs name digits := by
  constructor
  · intro h
    obtain ⟨rest, hrest, hfound⟩ := Option.bind_eq_some_iff.mp h
    obtain rfl := after?_eq_some_iff.mp hrest
    split at hfound
    · cases hfound
    · rename_i hne
      cases hfound
      refine ⟨hname, fun hnil => hne hnil, fun d hd => List.mem_takeWhile_imp hd,
        rest.takeWhile Text.isBlank,
        (rest.dropWhile Text.isBlank).dropWhile Text.isScriptDigit, ?_,
        fun c hc => List.mem_takeWhile_imp hc, Text.head?_dropWhile _ _⟩
      simp
  · rintro ⟨-, hne, hdigits, blanks, after, rfl, hblanks, hafter⟩
    have hrest : after? (name.toList ++ [':']) (name.toList ++ ':' :: (blanks ++ (digits ++ after)))
        = some (blanks ++ (digits ++ after)) := by
      rw [after?_eq_some_iff, List.append_assoc, List.singleton_append]
    have hblank : (blanks ++ (digits ++ after)).dropWhile Text.isBlank = digits ++ after := by
      refine Text.dropWhile_append_of_head? hblanks fun d hd => ?_
      rw [List.head?_append_of_ne_nil _ hne] at hd
      exact not_isBlank_of_isScriptDigit (hdigits d (List.mem_of_head? hd))
    have hdigit := Text.takeWhile_append_of_head? hdigits hafter
    rw [digitsOf?, hrest]
    simp only [bind, Option.bind, hblank, hdigit]

theorem colon_not_mem (hname : name ∈ known) : ':' ∉ name.toList := by
  revert name
  decide

/-- The names have no colon in them, and so at most one of them can stand at a place. -/
theorem Begins.unique {name' : String} {digits' : List Char} (h : Begins cs name digits)
    (h' : Begins cs name' digits') : name = name' ∧ digits = digits' := by
  have htake : ∀ {name digits}, Begins cs name digits → cs.takeWhile (· != ':') = name.toList := by
    rintro name digits ⟨hname, -, -, blanks, after, rfl, -⟩
    refine Text.takeWhile_append_of_head? (fun c hc => ?_) (by simp)
    exact bne_iff_ne.mpr fun hcolon => colon_not_mem hname (hcolon ▸ hc)
  obtain rfl := String.toList_inj.mp ((htake h).symm.trans (htake h'))
  have hdigits := (digitsOf?_eq_some_iff h.name_mem).mpr h
  have hdigits' := (digitsOf?_eq_some_iff h.name_mem).mpr h'
  exact ⟨rfl, Option.some.inj (hdigits.symm.trans hdigits')⟩

theorem counterHere?_eq_some_iff :
    counterHere? cs = some (name, digits) ↔ Begins cs name digits := by
  constructor
  · intro h
    obtain ⟨name', hname, h⟩ := List.exists_of_findSome?_eq_some h
    obtain ⟨digits', hdigits, heq⟩ := Option.map_eq_some_iff.mp h
    cases heq
    exact (digitsOf?_eq_some_iff hname).mp hdigits
  · intro h
    cases hhere : counterHere? cs with
    | none =>
      have hnone := List.findSome?_eq_none_iff.mp hhere name h.name_mem
      rw [(digitsOf?_eq_some_iff h.name_mem).mpr h] at hnone
      cases hnone
    | some found =>
      obtain ⟨name', hname, hfound⟩ := List.exists_of_findSome?_eq_some hhere
      obtain ⟨digits', hdigits, rfl⟩ := Option.map_eq_some_iff.mp hfound
      obtain ⟨rfl, rfl⟩ := h.unique ((digitsOf?_eq_some_iff hname).mp hdigits)
      rfl

theorem not_occurs_nil : ¬ Occurs [] before name digits := by
  rintro ⟨rest, hrest, -, -, -, blanks, after, rfl, -⟩
  simp at hrest

/-- A counter stands at the very start or further behind. -/
theorem occurs_cons_iff : Occurs (c :: line) before name digits ↔
    before = [] ∧ Begins (c :: line) name digits ∨
      ∃ more, before = c :: more ∧ Occurs line more name digits := by
  constructor
  · rintro ⟨rest, hrest, hbegins⟩
    cases before with
    | nil => exact .inl ⟨rfl, hrest ▸ hbegins⟩
    | cons d more =>
      obtain ⟨rfl, rfl⟩ := List.cons.inj hrest
      exact .inr ⟨more, rfl, rest, rfl, hbegins⟩
  · rintro (⟨rfl, hbegins⟩ | ⟨more, rfl, rest, rfl, hbegins⟩)
    · exact ⟨_, rfl, hbegins⟩
    · exact ⟨rest, rfl, hbegins⟩

/-- Nothing stands further to the left than the start. -/
theorem first_cons_of_begins {name' : String} {digits' : List Char}
    (h : Begins (c :: line) name digits) :
    First (c :: line) before name' digits' ↔ before = [] ∧ name' = name ∧ digits' = digits := by
  constructor
  · rintro ⟨hoccurs, hleast⟩
    have hlength := hleast [] name digits ⟨_, rfl, h⟩
    obtain rfl := List.length_eq_zero_iff.mp (Nat.le_zero.mp hlength)
    obtain ⟨rest, hrest, hbegins⟩ := hoccurs
    obtain rfl : c :: line = rest := hrest
    exact ⟨rfl, hbegins.unique h⟩
  · rintro ⟨rfl, rfl, rfl⟩
    exact ⟨⟨_, rfl, h⟩, fun _ _ _ _ => Nat.zero_le _⟩

theorem first_cons_of_not_begins (h : ∀ name digits, ¬ Begins (c :: line) name digits) :
    First (c :: line) before name digits ↔
      ∃ more, before = c :: more ∧ First line more name digits := by
  have hoccurs : ∀ {before name digits}, Occurs (c :: line) before name digits ↔
      ∃ more, before = c :: more ∧ Occurs line more name digits := by
    intro before name digits
    rw [occurs_cons_iff, or_iff_right fun hbegins => h name digits hbegins.2]
  constructor
  · rintro ⟨hhere, hleast⟩
    obtain ⟨more, rfl, hmore⟩ := hoccurs.mp hhere
    refine ⟨more, rfl, hmore, fun before' name' digits' h' => ?_⟩
    exact Nat.le_of_succ_le_succ (hleast _ _ _ (hoccurs.mpr ⟨before', rfl, h'⟩))
  · rintro ⟨more, rfl, hmore, hleast⟩
    refine ⟨hoccurs.mpr ⟨more, rfl, hmore⟩, fun before' name' digits' h' => ?_⟩
    obtain ⟨more', rfl, hmore'⟩ := hoccurs.mp h'
    exact Nat.succ_le_succ (hleast _ _ _ hmore')

theorem leftmost?_eq_some_iff :
    leftmost? line = some (name, digits) ↔ ∃ before, First line before name digits := by
  induction line with
  | nil =>
    constructor
    · intro h
      cases h
    · rintro ⟨before, h, -⟩
      exact absurd h not_occurs_nil
  | cons c line ih =>
    rw [leftmost?]
    cases hhere : counterHere? (c :: line) with
    | some found =>
      simp only [first_cons_of_begins (counterHere?_eq_some_iff.mp hhere)]
      simp [Prod.ext_iff, eq_comm]
    | none =>
      have hnone : ∀ name digits, ¬ Begins (c :: line) name digits := fun name digits hbegins => by
        rw [counterHere?_eq_some_iff.mpr hbegins] at hhere
        cases hhere
      simp only [first_cons_of_not_begins hnone, ih]
      constructor
      · rintro ⟨more, hmore⟩
        exact ⟨c :: more, more, rfl, hmore⟩
      · rintro ⟨before, more, -, hmore⟩
        exact ⟨more, hmore⟩

theorem lineCounter?_eq_some_iff (line : List Char) (name : String) (n : UInt64) :
    lineCounter? line = some (name, n) ↔ Sets line name n := by
  constructor
  · intro h
    obtain ⟨⟨name', digits⟩, hfirst, hword⟩ := Option.bind_eq_some_iff.mp h
    obtain ⟨k, hk, heq⟩ := Option.bind_eq_some_iff.mp hword
    cases heq
    obtain ⟨before, hbefore⟩ := leftmost?_eq_some_iff.mp hfirst
    exact ⟨before, digits, hbefore, Number.readWord_eq_some_iff.mp hk⟩
  · rintro ⟨before, digits, hfirst, hword⟩
    rw [lineCounter?, leftmost?_eq_some_iff.mpr ⟨before, hfirst⟩]
    simp only [bind, Option.bind, Number.readWord_eq_some_iff.mpr hword]

/-- What is no digit does not count at the end of a text. -/
theorem begins_concat_iff (hc : Text.isScriptDigit c = false) :
    Begins (cs ++ [c]) name digits ↔ Begins cs name digits := by
  constructor
  · rintro ⟨hname, hne, hdigits, blanks, after, heq, hblanks, hafter⟩
    rcases List.eq_nil_or_concat after with rfl | ⟨after, d, rfl⟩
    · -- the last digit would be the last character
      obtain ⟨digits, d, rfl⟩ := (List.eq_nil_or_concat digits).resolve_left hne
      rw [List.concat_eq_append] at heq hdigits
      have hlast : cs ++ [c] = name.toList ++ ':' :: (blanks ++ digits) ++ [d] := by
        rw [heq]
        simp
      obtain rfl := List.singleton_inj.mp (List.append_inj' hlast rfl).2
      rw [hdigits c (by simp)] at hc
      cases hc
    · rw [List.concat_eq_append] at heq hafter
      have hlast : cs ++ [c] = name.toList ++ ':' :: (blanks ++ (digits ++ after)) ++ [d] := by
        rw [heq]
        simp
      refine ⟨hname, hne, hdigits, blanks, after, (List.append_inj' hlast rfl).1, hblanks,
        fun a ha => hafter a ?_⟩
      rw [List.head?_append, Option.mem_def.mp ha]
      rfl
  · rintro ⟨hname, hne, hdigits, blanks, after, rfl, hblanks, hafter⟩
    refine ⟨hname, hne, hdigits, blanks, after ++ [c], by simp, hblanks, fun d hd => ?_⟩
    cases after with
    | nil =>
      obtain rfl : c = d := Option.some.inj hd
      exact hc
    | cons a after => exact hafter d hd

theorem occurs_concat_iff (hc : Text.isScriptDigit c = false) :
    Occurs (line ++ [c]) before name digits ↔ Occurs line before name digits := by
  constructor
  · rintro ⟨rest, hrest, hbegins⟩
    rcases List.eq_nil_or_concat rest with rfl | ⟨rest, d, rfl⟩
    · have hnil : Occurs [] [] name digits := ⟨[], rfl, hbegins⟩
      exact absurd hnil not_occurs_nil
    · rw [List.concat_eq_append] at hbegins hrest
      rw [← List.append_assoc] at hrest
      obtain ⟨hline, hd⟩ := List.append_inj' hrest rfl
      obtain rfl := List.singleton_inj.mp hd
      exact ⟨rest, hline, (begins_concat_iff hc).mp hbegins⟩
  · rintro ⟨rest, rfl, hbegins⟩
    exact ⟨rest ++ [c], List.append_assoc .., (begins_concat_iff hc).mpr hbegins⟩

theorem lineCounter?_concat (line : List Char) (hc : Text.isScriptDigit c = false) :
    lineCounter? (line ++ [c]) = lineCounter? line := by
  apply Option.ext
  rintro ⟨name, n⟩
  rw [lineCounter?_eq_some_iff, lineCounter?_eq_some_iff]
  simp only [Sets, First, occurs_concat_iff hc]

/-! ## Outputs -/

/-- The counters on the lines of an output, line by line. -/
def recognised (text : String) : List (String × UInt64) :=
  (Text.splitLines text.toList).filterMap lineCounter?

theorem find_eq_ok_iff {text name : String} {n : UInt64} :
    find (parse text) name = .ok n ↔ Keyed.LastUnder name n (recognised text) := by
  rw [← Keyed.get?_ofList_eq_some_iff, find, parse, recognised]
  cases Keyed.get? name (Keyed.ofList ((Text.splitLines text.toList).filterMap lineCounter?)) with
  | none => simp
  | some k => simp

theorem parse_append (s t : String) :
    parse (s ++ "\n" ++ t) = Keyed.updated (parse s) (parse t) := by
  have hread : ∀ line, lineCounter? (line ++ ['\r']) = lineCounter? line := fun line =>
    lineCounter?_concat line (by decide +kernel)
  rw [parse, parse, parse, Keyed.updated_ofList, ← Text.filterMap_splitLines_append rfl hread]
  simp

theorem silent_iff : Silent line ↔ lineCounter? line = none := by
  simp only [Silent, ← lineCounter?_eq_some_iff, Option.eq_none_iff_forall_ne_some, Prod.forall]

theorem find_parse_eq_ok_iff {text : String} {lines : List (List Char)}
    (h : Lines text.toList lines) :
    find (parse text) name = .ok n ↔ Keyed.LastTold Sets name n lines := by
  rw [find_eq_ok_iff, recognised, h.splitLines_eq]
  exact Keyed.lastUnder_filterMap_iff lineCounter?_eq_some_iff

theorem mem_keys_parse_iff {text : String} {lines : List (List Char)}
    (h : Lines text.toList lines) :
    name ∈ Keyed.keys (parse text) ↔ ∃ line ∈ lines, ∃ n, Sets line name n := by
  rw [parse, h.splitLines_eq, Keyed.mem_keys_ofList]
  exact Keyed.mem_keys_filterMap_iff lineCounter?_eq_some_iff

theorem parse_eq_of_inserts {s t : String} {lines lines' : List (List Char)}
    (hs : Lines s.toList lines) (ht : Lines t.toList lines')
    (h : Text.Inserts Silent lines lines') : parse t = parse s := by
  rw [parse, parse, hs.splitLines_eq, ht.splitLines_eq, h.filterMap_eq fun line => silent_iff.mp]

/-- The last line that sets a counter counts.  So the later one of two outputs counts more, and
lines that set nothing might as well not be there. -/
theorem last_setting_line_counts :
    (∀ text : String, ∃ lines, Lines text.toList lines ∧
      (∀ name, name ∈ Keyed.keys (parse text) ↔ ∃ line ∈ lines, ∃ n, Sets line name n) ∧
      ∀ name n, find (parse text) name = .ok n ↔ Keyed.LastTold Sets name n lines) ∧
    (∀ s t : String, parse (s ++ "\n" ++ t) = Keyed.updated (parse s) (parse t)) ∧
    ∀ (s t : String) (lines lines' : List (List Char)), Lines s.toList lines →
      Lines t.toList lines' → Text.Inserts Silent lines lines' → parse t = parse s := by
  refine ⟨fun text => ?_, parse_append, fun s t lines lines' => parse_eq_of_inserts⟩
  have hlines := Text.lines_splitLines text.toList
  exact ⟨_, hlines, fun name => mem_keys_parse_iff hlines,
    fun name n => find_parse_eq_ok_iff hlines⟩

/-- Two outputs of a simulator, the second of which counts the cycles again. -/
def firstOutput : String :=
  "  total_num_read_requests: 100\r\n  memory_system_cycles: 1000"

def secondOutput : String :=
  "memory_system_cycles:\t7 cycles, total_num_write_requests: 9\n"

/-- The first output with a line of noise and a count of cycles that is no word. -/
def noisyOutput : String :=
  "  total_num_read_requests: 100\r\ngarbage\n  memory_system_cycles: 1000\n" ++
    "memory_system_cycles: 18446744073709551616"

theorem last_setting_line_counts_noisyOutput :
    (∃ lines, Lines noisyOutput.toList lines ∧ lines.length = 4 ∧
      Keyed.LastTold Sets memoryCycles 1000 lines) ∧
    parse noisyOutput = parse firstOutput ∧
    parse (firstOutput ++ "\n" ++ secondOutput) = Keyed.updated (parse firstOutput)
      (parse secondOutput) ∧
    parse (firstOutput ++ "\n" ++ secondOutput) =
      [("memory_system_cycles", 7), ("total_num_read_requests", 100)] := by
  obtain ⟨houtput, happend, hinserts⟩ := last_setting_line_counts
  obtain ⟨lines, hlines, -, hlast⟩ := houtput noisyOutput
  have hfirst : Lines firstOutput.toList
      ["  total_num_read_requests: 100".toList, "  memory_system_cycles: 1000".toList] :=
    Text.splitLines_eq_iff.mp (by decide +kernel)
  have hnoisy : Lines noisyOutput.toList
      ["  total_num_read_requests: 100".toList, "garbage".toList,
        "  memory_system_cycles: 1000".toList,
        "memory_system_cycles: 18446744073709551616".toList] :=
    Text.splitLines_eq_iff.mp (by decide +kernel)
  refine ⟨⟨lines, hlines, ?_, ?_⟩, ?_, happend _ _, by decide +kernel⟩
  · rw [← hlines.splitLines_eq, hnoisy.splitLines_eq]
    rfl
  · exact (hlast memoryCycles 1000).mp (by decide +kernel)
  · refine hinserts _ _ _ _ hfirst hnoisy (.keep (.insert ?_ (.keep (.insert ?_ .nil))))
    · exact silent_iff.mpr (by decide +kernel)
    · exact silent_iff.mpr (by decide +kernel)

end Counters
end MappingSweep

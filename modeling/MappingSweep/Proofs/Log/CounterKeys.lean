import MappingSweep.Proofs.Log.Counters

/-!
# Counters of other names

A line is about what stands before its first colon.  Counters are looked for anywhere in a line,
though, and so a line about something else has a say if, and only if, a counter stands in it behind
more than blanks.
-/

namespace MappingSweep
namespace Counters

open Number (IsWord)
open Text (Lines Trimmed)

/-- The key of the line is what stands before its first colon, without the blanks around it. -/
def HasKey (line : List Char) (key : String) : Prop :=
  ∃ front back, line = front ++ ':' :: back ∧ ':' ∉ front ∧ Trimmed front key.toList

/-- The line sets a counter that stands behind more than blanks. -/
def Embeds (line : List Char) : Prop :=
  ∃ before name digits n, First line before name digits ∧ IsWord digits n ∧
    ∃ c ∈ before, Text.isBlank c = false

variable {line before digits : List Char} {name key : String} {n : UInt64}

theorem HasKey.trimChars_takeWhile (h : HasKey line key) :
    Text.trimChars (line.takeWhile (· != ':')) = key.toList := by
  obtain ⟨front, back, rfl, hfront, hkey⟩ := h
  rw [Text.takeWhile_append_of_head? (fun c hc => ?_) (by simp)]
  · exact Text.trimmed_iff.mp hkey
  · exact bne_iff_ne.mpr fun hcolon => hfront (hcolon ▸ hc)

theorem not_isBlank_of_mem_known (hname : name ∈ known) :
    ∀ c ∈ name.toList, Text.isBlank c = false := by
  have hall : known.all (fun name => name.toList.all fun c => !Text.isBlank c) = true := by
    decide +kernel
  intro c hc
  simpa using List.all_eq_true.mp (List.all_eq_true.mp hall name hname) c hc

/-- What a counter behind blanks only is called is the key of the line. -/
theorem Occurs.hasKey (h : Occurs line before name digits)
    (hbefore : ∀ c ∈ before, Text.isBlank c = true) : HasKey line name := by
  obtain ⟨rest, rfl, hname, -, -, blanks, after, rfl, -⟩ := h
  have hcolon : ':' ∉ before ++ name.toList := by
    rw [List.mem_append, not_or]
    exact ⟨fun hmem => absurd (hbefore ':' hmem) (by decide), colon_not_mem hname⟩
  have htrimmed : Trimmed (before ++ name.toList) name.toList :=
    ⟨Text.edged_of_solid (not_isBlank_of_mem_known hname), before, [], (List.append_nil _).symm,
      hbefore, by simp⟩
  exact ⟨before ++ name.toList, _, (List.append_assoc ..).symm, hcolon, htrimmed⟩

theorem Embeds.not_silent (h : Embeds line) : ¬ Silent line := by
  obtain ⟨before, name, digits, n, hfirst, hword, -⟩ := h
  exact fun hsilent => hsilent name n ⟨before, digits, hfirst, hword⟩

theorem silent_of_not_embeds (hkey : ∀ name ∈ known, ¬ HasKey line name) (h : ¬ Embeds line) :
    Silent line := by
  rintro name n ⟨before, digits, hfirst, hword⟩
  have hblank : ∀ c ∈ before, Text.isBlank c = true := by
    intro c hc
    by_contra hne
    exact h ⟨before, name, digits, n, hfirst, hword, c, hc, Bool.eq_false_of_not_eq_true hne⟩
  obtain ⟨rest, -, hbegins⟩ := hfirst.1
  exact hkey name hbegins.name_mem (hfirst.1.hasKey hblank)

/-- A line whose key is no counter may be taken out of every output exactly if no counter stands in
it behind more than blanks. -/
theorem ignored_iff_not_embeds (line : List Char) (hfeed : '\n' ∉ line)
    (hkey : ∀ name ∈ known, ¬ HasKey line name) :
    (∀ (s t : String) (before after : List (List Char)), Lines s.toList (before ++ line :: after) →
      Lines t.toList (before ++ after) → parse t = parse s) ↔ ¬ Embeds line := by
  constructor
  · intro hignored hembeds
    apply hembeds.not_silent
    intro name n hsets
    have hne : line ≠ [] := by
      rintro rfl
      obtain ⟨before, digits, hfirst, -⟩ := hsets
      exact not_occurs_nil hfirst.1
    -- an output of this line alone
    have hline : Lines (String.ofList line).toList ([] ++ line :: []) := by
      rw [String.toList_ofList]
      exact .last hne hfeed
    have hfind := (find_parse_eq_ok_iff hline).mpr ⟨[], line, [], rfl, hsets, by simp⟩
    rw [← hignored _ "" [] [] hline .none] at hfind
    cases hfind
  · intro h s t before after hs ht
    have hsilent : ∀ l ∈ [line], Silent l := by
      simpa using silent_of_not_embeds hkey h
    exact (parse_eq_of_inserts ht hs (.between hsilent before after)).symm

/-- Another counter, whose name begins like that of the cycles. -/
def idlingLine : String :=
  "memory_system_cycles_idle: 7"

/-- Another counter, whose name ends like that of the cycles. -/
def idleLine : String :=
  "idle_memory_system_cycles: 7"

def cyclesLine : String :=
  "memory_system_cycles: 1000"

theorem not_hasKey_of_forall_ne
    (h : ∀ name ∈ known, Text.trimChars (line.takeWhile (· != ':')) ≠ name.toList) :
    ∀ name ∈ known, ¬ HasKey line name :=
  fun name hname hkey => h name hname hkey.trimChars_takeWhile

theorem ignored_iff_not_embeds_idlingLine :
    (∀ name ∈ known, ¬ HasKey idlingLine.toList name) ∧
    ¬ Embeds idlingLine.toList ∧
    ∀ (s t : String) (before after : List (List Char)),
      Lines s.toList (before ++ idlingLine.toList :: after) → Lines t.toList (before ++ after) →
        parse t = parse s := by
  have hkey : ∀ name ∈ known, ¬ HasKey idlingLine.toList name :=
    not_hasKey_of_forall_ne (by decide +kernel)
  have hembeds : ¬ Embeds idlingLine.toList := fun h =>
    h.not_silent (silent_iff.mpr (by decide +kernel))
  exact ⟨hkey, hembeds, (ignored_iff_not_embeds _ (by decide +kernel) hkey).mpr hembeds⟩

/-- The line of a longer name that ends in that of the cycles takes the place of the cycles. -/
theorem idle_cycles_counted :
    (∀ name ∈ known, ¬ HasKey idleLine.toList name) ∧
    ∃ s t : String, Lines s.toList [cyclesLine.toList, idleLine.toList] ∧
      Lines t.toList [cyclesLine.toList] ∧
      find (parse s) memoryCycles = .ok 7 ∧ find (parse t) memoryCycles = .ok 1000 := by
  refine ⟨not_hasKey_of_forall_ne (by decide +kernel),
    cyclesLine ++ "\n" ++ idleLine ++ "\n", cyclesLine ++ "\n", ?_, ?_, ?_, ?_⟩
  · exact Text.splitLines_eq_iff.mp (by decide +kernel)
  · exact Text.splitLines_eq_iff.mp (by decide +kernel)
  · decide +kernel
  · decide +kernel

end Counters
end MappingSweep

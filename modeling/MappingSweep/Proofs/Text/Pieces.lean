import Mathlib.Data.List.Basic
import MappingSweep.Text.Blank

/-!
# Pieces between separators

Splitting a text at a separator and joining the pieces with it undo each other, as long as no piece
has the separator in it.
-/

namespace MappingSweep
namespace Text

theorem splitOn_cons_sep (sep : Char) (cs : List Char) :
    splitOn sep (sep :: cs) = [] :: splitOn sep cs := by
  simp [splitOn]

theorem splitOn_append_sep (sep : Char) (cs ds : List Char) :
    splitOn sep (cs ++ sep :: ds) = splitOn sep cs ++ splitOn sep ds := by
  induction cs with
  | nil => rw [List.nil_append, splitOn_cons_sep]; rfl
  | cons c cs ih =>
    by_cases hc : c = sep
    · subst hc
      rw [List.cons_append, splitOn_cons_sep, splitOn_cons_sep, ih, List.cons_append]
    · simp only [List.cons_append, splitOn, if_neg hc, ih]
      cases hsplit : splitOn sep cs with
      | nil => exact absurd hsplit (splitOn_ne_nil sep cs)
      | cons piece more => rfl

theorem splitOn_of_not_mem {sep : Char} {cs : List Char} (h : sep ∉ cs) :
    splitOn sep cs = [cs] := by
  induction cs with
  | nil => rfl
  | cons c cs ih =>
    have hc : c ≠ sep := fun heq => h (heq ▸ List.mem_cons_self)
    have hcs : sep ∉ cs := fun hmem => h (List.mem_cons_of_mem c hmem)
    simp only [splitOn, if_neg hc, ih hcs]

theorem not_mem_of_mem_splitOn {sep : Char} {cs piece : List Char} (h : piece ∈ splitOn sep cs) :
    sep ∉ piece := by
  induction cs generalizing piece with
  | nil =>
    rw [splitOn, List.mem_singleton] at h
    simp [h]
  | cons c cs ih =>
    by_cases hc : c = sep
    · rw [splitOn, if_pos hc] at h
      rcases List.mem_cons.mp h with rfl | h
      · exact List.not_mem_nil
      · exact ih h
    · rw [splitOn, if_neg hc] at h
      cases hsplit : splitOn sep cs with
      | nil => exact absurd hsplit (splitOn_ne_nil sep cs)
      | cons first more =>
        rw [hsplit] at h ih
        rcases List.mem_cons.mp h with rfl | h
        · intro hmem
          rcases List.mem_cons.mp hmem with heq | hmem
          · exact hc heq.symm
          · exact ih List.mem_cons_self hmem
        · exact ih (List.mem_cons_of_mem first h)

theorem splitOn_intercalate {sep : Char} {pieces : List (List Char)} (hne : pieces ≠ [])
    (h : ∀ piece ∈ pieces, sep ∉ piece) : splitOn sep ([sep].intercalate pieces) = pieces := by
  induction pieces with
  | nil => exact absurd rfl hne
  | cons piece rest ih =>
    have hpiece : splitOn sep piece = [piece] := splitOn_of_not_mem (h piece List.mem_cons_self)
    cases rest with
    | nil => rw [List.intercalate_singleton, hpiece]
    | cons next more =>
      have hrest := ih (List.cons_ne_nil next more) fun q hq => h q (List.mem_cons_of_mem piece hq)
      rw [List.intercalate_cons_cons, List.append_assoc, List.singleton_append,
        splitOn_append_sep, hpiece, hrest]
      rfl

theorem intercalate_splitOn (sep : Char) (cs : List Char) :
    [sep].intercalate (splitOn sep cs) = cs := by
  induction cs with
  | nil => rfl
  | cons c cs ih =>
    by_cases hc : c = sep
    · subst hc
      obtain ⟨piece, more, hsplit⟩ := List.exists_cons_of_ne_nil (splitOn_ne_nil c cs)
      rw [splitOn_cons_sep, hsplit, List.intercalate_cons_cons, ← hsplit, ih]
      rfl
    · rw [splitOn, if_neg hc]
      cases hsplit : splitOn sep cs with
      | nil => exact absurd hsplit (splitOn_ne_nil sep cs)
      | cons piece more =>
        rw [hsplit] at ih
        cases more with
        | nil =>
          rw [List.intercalate_singleton] at ih ⊢
          rw [ih]
        | cons next more =>
          rw [List.intercalate_cons_cons] at ih ⊢
          rw [← ih]
          rfl

/-- There is one piece more than there are separators. -/
theorem length_splitOn (sep : Char) (cs : List Char) :
    (splitOn sep cs).length = cs.count sep + 1 := by
  induction cs with
  | nil => rfl
  | cons c cs ih =>
    by_cases hc : c = sep
    · subst hc
      rw [splitOn_cons_sep, List.length_cons, ih, List.count_cons_self]
    · rw [List.count_cons_of_ne hc, splitOn, if_neg hc, ← ih]
      cases hsplit : splitOn sep cs with
      | nil => exact absurd hsplit (splitOn_ne_nil sep cs)
      | cons piece more => rfl

theorem splitOn_eq_pair_iff {sep : Char} {cs front back : List Char} :
    splitOn sep cs = [front, back] ↔ cs = front ++ sep :: back ∧ sep ∉ front ∧ sep ∉ back := by
  constructor
  · intro h
    have hjoined := intercalate_splitOn sep cs
    rw [h, List.intercalate_cons_cons, List.intercalate_singleton, List.append_assoc] at hjoined
    have hfront : front ∈ splitOn sep cs := h ▸ List.mem_cons_self
    have hback : back ∈ splitOn sep cs := h ▸ List.mem_cons_of_mem _ List.mem_cons_self
    exact ⟨hjoined.symm, not_mem_of_mem_splitOn hfront, not_mem_of_mem_splitOn hback⟩
  · rintro ⟨rfl, hfront, hback⟩
    rw [splitOn_append_sep, splitOn_of_not_mem hfront, splitOn_of_not_mem hback]
    rfl

theorem splitOn_eq_cons_iff {sep : Char} {cs piece : List Char} {more : List (List Char)} :
    splitOn sep cs = piece :: more ↔ sep ∉ piece ∧
      (cs = piece ∧ more = [] ∨ ∃ rest, cs = piece ++ sep :: rest ∧ splitOn sep rest = more) := by
  constructor
  · intro h
    refine ⟨not_mem_of_mem_splitOn (h ▸ List.mem_cons_self), ?_⟩
    by_cases hsep : sep ∈ cs
    · obtain ⟨front, rest, rfl, hfront⟩ := List.eq_append_cons_of_mem hsep
      rw [splitOn_append_sep, splitOn_of_not_mem hfront, List.singleton_append] at h
      obtain ⟨rfl, hmore⟩ := List.cons.inj h
      exact .inr ⟨rest, rfl, hmore⟩
    · rw [splitOn_of_not_mem hsep] at h
      obtain ⟨rfl, rfl⟩ := List.cons.inj h
      exact .inl ⟨rfl, rfl⟩
  · rintro ⟨hpiece, ⟨rfl, rfl⟩ | ⟨rest, rfl, rfl⟩⟩
    · exact splitOn_of_not_mem hpiece
    · rw [splitOn_append_sep, splitOn_of_not_mem hpiece, List.singleton_append]

/-- The piece stands in front of the first separator, or is the whole text if there is none. -/
def FirstPiece (sep : Char) (piece cs : List Char) : Prop :=
  sep ∉ piece ∧ (cs = piece ∨ ∃ rest, cs = piece ++ sep :: rest)

theorem firstPiece_iff {sep : Char} {cs piece : List Char} :
    FirstPiece sep piece cs ↔ ∃ more, splitOn sep cs = piece :: more := by
  simp only [splitOn_eq_cons_iff, exists_and_left, FirstPiece]
  refine and_congr_right fun _ => ⟨?_, ?_⟩
  · rintro (rfl | ⟨rest, rfl⟩)
    · exact ⟨[], .inl ⟨rfl, rfl⟩⟩
    · exact ⟨_, .inr ⟨rest, rfl, rfl⟩⟩
  · rintro ⟨more, ⟨rfl, -⟩ | ⟨rest, rfl, -⟩⟩
    · exact .inl rfl
    · exact .inr ⟨rest, rfl⟩

/-- A text with exactly one separator has two pieces. -/
theorem exists_pair_iff {sep : Char} {cs : List Char} :
    (∃ front back, splitOn sep cs = [front, back]) ↔ cs.count sep = 1 := by
  rw [← List.length_eq_two, length_splitOn]
  omega

end Text
end MappingSweep

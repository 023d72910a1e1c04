import Mathlib.Data.List.TakeWhile
import MappingSweep.Text.Blank

/-!
# Trimming

Trimming finds what stands between the blanks around a text: the text divides into blanks, a part
that neither begins nor ends with one, and blanks.  Taking more off both ends leaves no trace of
what was taken off before.
-/

namespace MappingSweep
namespace Text

section Strip

variable {α : Type} {p q : α → Bool} {front l back : List α}

/-- The list from the first to the last element that does not have the property. -/
def strip (p : α → Bool) (l : List α) : List α :=
  ((l.dropWhile p).reverse.dropWhile p).reverse

/-- Neither the first nor the last element has the property. -/
def Edged (p : α → Bool) (l : List α) : Prop :=
  (∀ x ∈ l.head?, p x = false) ∧ ∀ x ∈ l.getLast?, p x = false

theorem dropWhile_of_head? (h : ∀ x ∈ l.head?, p x = false) : l.dropWhile p = l := by
  cases l with
  | nil => rfl
  | cons x l =>
    apply List.dropWhile_cons_of_neg
    rw [h x rfl]
    exact Bool.false_ne_true

theorem dropWhile_append_of_head? (hfront : ∀ x ∈ front, p x = true)
    (hback : ∀ x ∈ back.head?, p x = false) : (front ++ back).dropWhile p = back := by
  rw [List.dropWhile_append_of_pos hfront, dropWhile_of_head? hback]

theorem takeWhile_append_of_head? (hfront : ∀ x ∈ front, p x = true)
    (hback : ∀ x ∈ back.head?, p x = false) : (front ++ back).takeWhile p = front := by
  have hboth : (front ++ back).takeWhile p ++ (front ++ back).dropWhile p = front ++ back :=
    List.takeWhile_append_dropWhile
  rw [dropWhile_append_of_head? hfront hback] at hboth
  exact List.append_cancel_right hboth

theorem head?_dropWhile (p : α → Bool) (l : List α) :
    ∀ x ∈ (l.dropWhile p).head?, p x = false := by
  intro x hx
  have hfirst := List.head?_dropWhile_not p l
  rw [Option.mem_def.mp hx] at hfirst
  exact hfirst

theorem strip_of_edged (h : Edged p l) : strip p l = l := by
  rw [strip, dropWhile_of_head? h.1, dropWhile_of_head? (by rw [List.head?_reverse]; exact h.2),
    List.reverse_reverse]

theorem edged_strip (p : α → Bool) (l : List α) : Edged p (strip p l) := by
  constructor
  · -- what is left begins as it did before its back was taken off
    intro x hx
    have hprefix : strip p l <+: l.dropWhile p := by
      rw [← List.reverse_suffix, strip, List.reverse_reverse]
      exact List.dropWhile_suffix p
    obtain ⟨back, hback⟩ := hprefix
    apply head?_dropWhile p l
    rw [← hback, List.head?_append, Option.mem_def.mp hx]
    rfl
  · intro x hx
    rw [strip, List.getLast?_reverse] at hx
    exact head?_dropWhile p _ x hx

theorem edged_of_solid (h : ∀ x ∈ l, p x = false) : Edged p l :=
  ⟨fun x hx => h x (List.mem_of_head? hx), fun x hx => h x (List.mem_of_getLast? hx)⟩

theorem strip_of_solid (h : ∀ x ∈ l, p x = false) : strip p l = l :=
  strip_of_edged (edged_of_solid h)

theorem exists_eq_append_strip (p : α → Bool) (l : List α) :
    ∃ front back, l = front ++ strip p l ++ back ∧ (∀ x ∈ front, p x = true) ∧
      ∀ x ∈ back, p x = true := by
  refine ⟨l.takeWhile p, ((l.dropWhile p).reverse.takeWhile p).reverse, ?_,
    fun x hx => List.mem_takeWhile_imp hx,
    fun x hx => List.mem_takeWhile_imp (List.mem_reverse.mp hx)⟩
  have hback : strip p l ++ ((l.dropWhile p).reverse.takeWhile p).reverse = l.dropWhile p := by
    rw [strip, ← List.reverse_append, List.takeWhile_append_dropWhile, List.reverse_reverse]
  rw [List.append_assoc, hback, List.takeWhile_append_dropWhile]

theorem strip_append (hfront : ∀ x ∈ front, p x = true) (hback : ∀ x ∈ back, p x = true) :
    strip p (front ++ l ++ back) = strip p l := by
  rw [strip, strip, List.append_assoc, List.dropWhile_append_of_pos hfront, List.dropWhile_append]
  split
  · rename_i hnil
    rw [List.dropWhile_eq_nil_iff.mpr hback, List.isEmpty_iff.mp hnil]
  · rw [List.reverse_append,
      List.dropWhile_append_of_pos fun x hx => hback x (List.mem_reverse.mp hx)]

/-- Taking more off leaves no trace of what was taken off before. -/
theorem strip_strip (h : ∀ x, p x = true → q x = true) (l : List α) :
    strip q (strip p l) = strip q l := by
  obtain ⟨front, back, heq, hfront, hback⟩ := exists_eq_append_strip p l
  calc strip q (strip p l)
      = strip q (front ++ strip p l ++ back) :=
        (strip_append (fun x hx => h x (hfront x hx)) fun x hx => h x (hback x hx)).symm
    _ = strip q l := by rw [← heq]

end Strip

section Trim

variable {cs ds : List Char}

/-- There are only blanks around the second text in the first one, and it neither begins nor ends
with one. -/
def Trimmed (cs ds : List Char) : Prop :=
  Edged isBlank ds ∧ ∃ front back, cs = front ++ ds ++ back ∧
    (∀ c ∈ front, isBlank c = true) ∧ ∀ c ∈ back, isBlank c = true

theorem trimmed_iff : Trimmed cs ds ↔ trimChars cs = ds := by
  constructor
  · rintro ⟨hedged, front, back, rfl, hfront, hback⟩
    exact (strip_append hfront hback).trans (strip_of_edged hedged)
  · rintro rfl
    exact ⟨edged_strip isBlank cs, exists_eq_append_strip isBlank cs⟩

theorem trimmed_trimChars (cs : List Char) : Trimmed cs (trimChars cs) :=
  trimmed_iff.mpr rfl

theorem trimChars_eq_nil_iff : trimChars cs = [] ↔ ∀ c ∈ cs, isBlank c = true := by
  constructor
  · intro h
    obtain ⟨-, front, back, rfl, hfront, hback⟩ := trimmed_iff.mpr h
    rw [List.append_nil]
    exact fun c hc => (List.mem_append.mp hc).elim (hfront c) (hback c)
  · intro h
    rw [trimChars, List.dropWhile_eq_nil_iff.mpr h]
    rfl

theorem toList_trim (s : String) : (trim s).toList = strip isBlank s.toList :=
  String.toList_ofList

@[simp] theorem trim_trim (s : String) : trim (trim s) = trim s := by
  apply String.toList_inj.mp
  rw [toList_trim, toList_trim, strip_strip fun _ h => h]

theorem trimChars_of_solid (h : ∀ c ∈ cs, isBlank c = false) : trimChars cs = cs :=
  strip_of_solid h

theorem trim_of_solid {s : String} (h : ∀ c ∈ s.toList, isBlank c = false) : trim s = s := by
  rw [trim, trimChars_of_solid h, String.ofList_toList]

end Trim

end Text
end MappingSweep

import MappingSweep.Proofs.FileSystem.Path
import MappingSweep.Proofs.Text.Octets

/-!
# Paths of parents

The parent of a path has all components but the last, and begins where the path begins.  Its text
leaves out parts of the path's text and adds none, so no check of the text fails for the parent
alone.
-/

namespace MappingSweep
namespace Text

theorem intercalate_sublist {some all : List (List Char)} (h : some.Sublist all)
    (sep : List Char) : (sep.intercalate some).Sublist (sep.intercalate all) := by
  induction h with
  | slnil => exact List.Sublist.refl _
  | @cons some all piece hsome ih =>
    cases all with
    | nil =>
      rw [List.sublist_nil.mp hsome, List.intercalate_nil]
      exact List.nil_sublist _
    | cons next more =>
      rw [List.intercalate_cons_cons]
      exact ih.trans (List.sublist_append_right _ _)
  | @cons_cons some all piece hsome ih =>
    cases all with
    | nil =>
      obtain rfl := List.sublist_nil.mp hsome
      exact List.Sublist.refl _
    | cons next more =>
      rw [List.intercalate_cons_cons]
      cases some with
      | nil =>
        rw [List.intercalate_singleton, List.append_assoc]
        exact List.sublist_append_left _ _
      | cons first rest =>
        rw [List.intercalate_cons_cons]
        exact (List.Sublist.refl _).append ih

theorem utf8ByteSize_le {s t : String} (h : s.toList.Sublist t.toList) :
    s.utf8ByteSize ≤ t.utf8ByteSize := by
  have hsize : ∀ u : String, u.utf8ByteSize = (octets u.toList).length := by
    intro u
    rw [← toUTF8_toList, toList_eq, Array.length_toList]
    rfl
  have hoctets : (octets s.toList).Sublist (octets t.toList) := by
    generalize s.toList = cs at h
    generalize t.toList = ds at h
    induction h with
    | slnil => exact List.Sublist.refl _
    | cons c _ ih => exact ih.trans (List.sublist_append_right _ _)
    | cons_cons c _ ih => exact (List.Sublist.refl _).append ih
  rw [hsize s, hsize t]
  exact hoctets.length_le

end Text

namespace Path

variable {p parent : Path}

/-- A component as it stands in a path. -/
theorem of_mem_components {c : String} (h : c ∈ p.components) :
    c.toList ≠ [] ∧ c.toList ≠ ['.'] ∧ '/' ∉ c.toList := by
  obtain ⟨cs, hcs, rfl⟩ := List.mem_map.mp h
  obtain ⟨hwritten, hdot⟩ := List.mem_filter.mp hcs
  obtain ⟨hsplit, hne⟩ := List.mem_filter.mp hwritten
  rw [String.toList_ofList]
  exact ⟨by simpa using hne, by simpa using hdot, Text.not_mem_of_mem_splitOn hsplit⟩

theorem toList_ofComponents (absolute : Bool) (cs : List String) :
    (ofComponents absolute cs).text.toList =
      (if absolute then ['/'] else []) ++ ['/'].intercalate (cs.map String.toList) := by
  have hslash : "/".toList = ['/'] := rfl
  rw [ofComponents, String.toList_append, String.toList_intercalate, hslash]
  cases absolute <;> rfl

theorem written_intercalate {cs : List String}
    (h : ∀ c ∈ cs, c.toList ≠ [] ∧ c.toList ≠ ['.'] ∧ '/' ∉ c.toList) :
    written (['/'].intercalate (cs.map String.toList)) = cs.map String.toList := by
  by_cases hne : cs = []
  · subst hne
    rfl
  · have hmap : cs.map String.toList ≠ [] := by simpa using hne
    have hslash : ∀ piece ∈ cs.map String.toList, '/' ∉ piece := by
      intro piece hpiece
      obtain ⟨c, hc, rfl⟩ := List.mem_map.mp hpiece
      exact (h c hc).2.2
    rw [written, Text.splitOn_intercalate hmap hslash, List.filter_eq_self]
    intro piece hpiece
    obtain ⟨c, hc, rfl⟩ := List.mem_map.mp hpiece
    simp [(h c hc).1]

theorem written_ofComponents {absolute : Bool} {cs : List String}
    (h : ∀ c ∈ cs, c.toList ≠ [] ∧ c.toList ≠ ['.'] ∧ '/' ∉ c.toList) :
    written (ofComponents absolute cs).text.toList = cs.map String.toList := by
  rw [toList_ofComponents]
  cases absolute with
  | false => exact written_intercalate h
  | true =>
    have hroot := written_append_slash [] (['/'].intercalate (cs.map String.toList))
    rw [written_intercalate h] at hroot
    exact hroot

theorem components_ofComponents {absolute : Bool} {cs : List String}
    (h : ∀ c ∈ cs, c.toList ≠ [] ∧ c.toList ≠ ['.'] ∧ '/' ∉ c.toList) :
    (ofComponents absolute cs).components = cs := by
  have hback : String.ofList ∘ String.toList = id := by
    funext c
    exact String.ofList_toList
  have hkept : (cs.map String.toList).filter (· != ['.']) = cs.map String.toList := by
    rw [List.filter_eq_self]
    intro piece hpiece
    obtain ⟨c, hc, rfl⟩ := List.mem_map.mp hpiece
    simp [(h c hc).2.1]
  rw [components, written_ofComponents h, hkept, List.map_map, hback, List.map_id]

theorem endsWithDot_ofComponents {absolute : Bool} {cs : List String}
    (h : ∀ c ∈ cs, c.toList ≠ [] ∧ c.toList ≠ ['.'] ∧ '/' ∉ c.toList) :
    (ofComponents absolute cs).endsWithDot = false := by
  rw [endsWithDot, written_ofComponents h, beq_eq_false_iff_ne]
  intro hlast
  obtain ⟨c, hc, hdot⟩ := List.mem_map.mp (List.mem_of_getLast? hlast)
  exact (h c hc).2.1 hdot

theorem isAbsolute_ofComponents {absolute : Bool} {cs : List String}
    (h : ∀ c ∈ cs, c.toList ≠ [] ∧ c.toList ≠ ['.'] ∧ '/' ∉ c.toList) :
    (ofComponents absolute cs).isAbsolute = absolute := by
  unfold isAbsolute
  rw [toList_ofComponents]
  cases absolute with
  | true => rfl
  | false =>
    cases cs with
    | nil => rfl
    | cons c rest =>
      obtain ⟨hne, -, hslash⟩ := h c List.mem_cons_self
      obtain ⟨d, ds, hc⟩ := List.exists_cons_of_ne_nil hne
      have hd : d ≠ '/' := by
        rintro rfl
        exact hslash (hc ▸ List.mem_cons_self)
      cases rest with
      | nil => simp [hc, hd]
      | cons next more => simp [hc, hd]

theorem parent_eq_some (h : p.parent? = some parent) :
    p.components ≠ [] ∧ parent = ofComponents p.isAbsolute p.components.dropLast := by
  unfold parent? at h
  split at h
  · cases h
  · rename_i hne
    exact ⟨hne, (Option.some.inj h).symm⟩

theorem components_parent (h : p.parent? = some parent) :
    parent.components = p.components.dropLast := by
  obtain ⟨-, rfl⟩ := parent_eq_some h
  exact components_ofComponents fun c hc => of_mem_components (List.dropLast_subset _ hc)

theorem start_parent (h : p.parent? = some parent) : parent.start = p.start := by
  obtain ⟨-, rfl⟩ := parent_eq_some h
  rw [start, start, isAbsolute_ofComponents]
  exact fun c hc => of_mem_components (List.dropLast_subset _ hc)

theorem endsWithDot_parent (h : p.parent? = some parent) : parent.endsWithDot = false := by
  obtain ⟨-, rfl⟩ := parent_eq_some h
  exact endsWithDot_ofComponents fun c hc => of_mem_components (List.dropLast_subset _ hc)

theorem text_parent_sublist (h : p.parent? = some parent) :
    parent.text.toList.Sublist p.text.toList := by
  obtain ⟨-, rfl⟩ := parent_eq_some h
  have hback : String.toList ∘ String.ofList = id := by
    funext cs
    exact String.toList_ofList
  have hkept : (p.components.dropLast.map String.toList).Sublist
      ((Text.splitOn '/' p.text.toList).filter (!·.isEmpty)) := by
    rw [components, List.map_dropLast, List.map_map, hback, List.map_id]
    exact (List.dropLast_sublist _).trans List.filter_sublist
  rw [toList_ofComponents]
  cases habs : p.isAbsolute with
  | false =>
    have hall := Text.intercalate_sublist (hkept.trans List.filter_sublist) ['/']
    rwa [Text.intercalate_splitOn] at hall
  | true =>
    -- the first slash stays, and the pieces are those of the text behind it
    obtain ⟨cs, hcs⟩ : ∃ cs, p.text.toList = '/' :: cs := by
      apply List.head?_eq_some_iff.mp
      simpa [isAbsolute] using habs
    rw [hcs, Text.splitOn_cons_sep, List.filter_cons_of_neg (by decide)] at hkept
    have hall := Text.intercalate_sublist (hkept.trans List.filter_sublist) ['/']
    rw [Text.intercalate_splitOn] at hall
    rw [hcs]
    exact hall.cons_cons '/'

/-- A path adds the place where it ends to the stations of its parent. -/
theorem stations_eq_parent (h : p.parent? = some parent) :
    p.stations = parent.stations ++ [p.place] := by
  have hne := (parent_eq_some h).1
  have hsplit := List.dropLast_concat_getLast hne
  rw [stations, stations, place, components_parent h, start_parent h]
  conv => lhs; rw [← hsplit]
  conv => rhs; rw [← hsplit]
  rw [Place.passed_append, List.foldl_append, List.dropLast_concat]
  rfl

end Path
end MappingSweep

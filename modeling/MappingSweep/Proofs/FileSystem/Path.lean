import MappingSweep.FileSystem.Basic
import MappingSweep.Name
import MappingSweep.Proofs.Text.Pieces

/-!
# Where paths lead

A name adds one component to a path, and so one place to those that the path passes.  Where a path
leads in a file system, if it leads anywhere, its text alone says.
-/

namespace MappingSweep

/-- A text that leads one directory down. -/
def IsName (name : String) : Prop :=
  name ≠ "" ∧ name ≠ "." ∧ name ≠ ".." ∧ '/' ∉ name.toList

instance (name : String) : Decidable (IsName name) :=
  inferInstanceAs (Decidable (name ≠ "" ∧ name ≠ "." ∧ name ≠ ".." ∧ '/' ∉ name.toList))

/-- A name that holds no backslash and no zero character either. -/
def SafeName (name : String) : Prop :=
  IsName name ∧ '\\' ∉ name.toList ∧ '\x00' ∉ name.toList

theorem nameFault?_eq_none_iff {name : String} : nameFault? name = none ↔ SafeName name := by
  have hseparator : name.toList.any (fun c => c == '/' || c == '\\' || c == '\x00') = false ↔
      '/' ∉ name.toList ∧ '\\' ∉ name.toList ∧ '\x00' ∉ name.toList := by
    simp only [List.any_eq_false, Bool.or_eq_true, beq_iff_eq]
    grind
  unfold nameFault? SafeName IsName
  split
  · simp_all
  split
  · grind
  split
  · grind
  · grind

theorem isName_of_nameFault {name : String} (h : nameFault? name = none) : IsName name :=
  (nameFault?_eq_none_iff.mp h).1

theorem nul_not_mem_of_nameFault {name : String} (h : nameFault? name = none) :
    '\x00' ∉ name.toList :=
  (nameFault?_eq_none_iff.mp h).2.2

theorem Mapping.isName (m : Mapping) : IsName m.name :=
  isName_of_nameFault m.safe

theorem Pattern.isName (p : Pattern) : IsName p.name :=
  isName_of_nameFault p.safe

/-- A name with a longer ending is a name. -/
theorem IsName.append {name ending : String} (h : IsName name) (hlong : 2 ≤ ending.length)
    (hending : '/' ∉ ending.toList) : IsName (name ++ ending) := by
  obtain ⟨hempty, -, -, hslash⟩ := h
  have hpos : 0 < name.length := by
    rw [Nat.pos_iff_ne_zero]
    simpa using hempty
  have hlength : 3 ≤ (name ++ ending).length := by
    rw [String.length_append]
    omega
  have hne : ∀ short : String, short.length < 3 → name ++ ending ≠ short := by
    rintro short hshort rfl
    omega
  refine ⟨hne "" (by decide), hne "." (by decide), hne ".." (by decide), ?_⟩
  rw [String.toList_append, List.mem_append]
  rintro (hmem | hmem)
  · exact hslash hmem
  · exact hending hmem

namespace Path

theorem written_append_slash (cs ds : List Char) :
    written (cs ++ '/' :: ds) = written cs ++ written ds := by
  simp only [written, Text.splitOn_append_sep, List.filter_append]

@[simp] theorem written_nil : written [] = [] :=
  rfl

theorem written_name {name : String} (h : IsName name) : written name.toList = [name.toList] := by
  have hne : name.toList ≠ [] := by simpa using h.1
  simp [written, Text.splitOn_of_not_mem h.2.2.2, hne]

theorem toList_ne_dot {name : String} (h : IsName name) : name.toList ≠ ['.'] :=
  fun heq => h.2.1 (String.toList_inj.mp heq)

theorem text_join {p : Path} {name : String} (h : IsName name) :
    (p.join name).text = if p.text = "" then name
      else if p.endsWithSlash then p.text ++ name else p.text ++ "/" ++ name := by
  have hhead : name.toList.head? ≠ some '/' := by
    intro heq
    exact h.2.2.2 (List.mem_of_mem_head? heq)
  unfold join
  by_cases hempty : p.text = ""
  · simp [hempty]
  · simp only [hhead, String.isEmpty_iff, hempty, or_self, if_false]
    split <;> rfl

/-- A longer name leads to a longer text. -/
theorem text_join_append {p : Path} {name ending : String} (h : IsName name)
    (hlong : IsName (name ++ ending)) :
    (⟨(p.join name).text ++ ending⟩ : Path) = p.join (name ++ ending) := by
  have htext : (p.join name).text ++ ending = (p.join (name ++ ending)).text := by
    rw [text_join h, text_join hlong]
    split
    · rfl
    · split <;> simp [String.append_assoc]
  exact congrArg Path.mk htext

theorem written_join {p : Path} {name : String} (h : IsName name) :
    written (p.join name).text.toList = written p.text.toList ++ [name.toList] := by
  rw [text_join h]
  split
  · rename_i hempty
    simp [hempty, written_name h]
  · split
    · rename_i hslash
      obtain ⟨cs, hcs⟩ : ∃ cs, p.text.toList = cs ++ ['/'] := by
        apply List.getLast?_eq_some_iff.mp
        simpa [endsWithSlash] using hslash
      rw [String.toList_append, hcs, List.append_assoc, List.singleton_append,
        written_append_slash, written_append_slash, written_name h, written_nil, List.append_nil]
    · have hone : "/".toList = ['/'] := rfl
      rw [String.toList_append, String.toList_append, hone, List.append_assoc,
        List.singleton_append, written_append_slash, written_name h]

theorem components_join {p : Path} {name : String} (h : IsName name) :
    (p.join name).components = p.components ++ [name] := by
  rw [components, components, written_join h, List.filter_append, List.map_append]
  simp [toList_ne_dot h]

theorem endsWithDot_join {p : Path} {name : String} (h : IsName name) :
    (p.join name).endsWithDot = false := by
  rw [endsWithDot, written_join h, List.getLast?_concat]
  simpa using toList_ne_dot h

theorem isAbsolute_join {p : Path} {name : String} (h : IsName name) :
    (p.join name).isAbsolute = p.isAbsolute := by
  unfold isAbsolute
  rw [text_join h]
  split
  · rename_i hempty
    have hhead : name.toList.head? ≠ some '/' := fun heq => h.2.2.2 (List.mem_of_mem_head? heq)
    simp [hempty, hhead]
  · rename_i hempty
    have hne : p.text.toList ≠ [] := by simpa using hempty
    obtain ⟨c, cs, hcs⟩ := List.exists_cons_of_ne_nil hne
    split <;> simp [hcs]

theorem start_join {p : Path} {name : String} (h : IsName name) :
    (p.join name).start = p.start := by
  rw [start, start, isAbsolute_join h]

end Path

namespace Place

theorem enter_name (here : Place) {name : String} (h : IsName name) :
    here.enter name = here ++ [name] := by
  rw [enter, if_neg h.2.2.1]

theorem passed_append (here : Place) (cs : List String) (c : String) :
    passed here (cs ++ [c]) = passed here cs ++ [(cs.foldl enter here).enter c] := by
  induction cs generalizing here with
  | nil => rfl
  | cons d cs ih => simp only [List.cons_append, passed, ih, List.foldl_cons]

theorem foldl_enter_mem_passed (here : Place) (cs : List String) :
    cs.foldl enter here ∈ passed here cs := by
  induction cs generalizing here with
  | nil => exact List.mem_singleton_self here
  | cons c cs ih => exact List.mem_cons_of_mem here (ih (here.enter c))

end Place

namespace Path

@[simp] theorem place_join {p : Path} {name : String} (h : IsName name) :
    (p.join name).place = p.place ++ [name] := by
  rw [place, components_join h, start_join h, List.foldl_append]
  exact Place.enter_name _ h

@[simp] theorem stations_join {p : Path} {name : String} (h : IsName name) :
    (p.join name).stations = p.stations ++ [p.place ++ [name]] := by
  rw [stations, components_join h, start_join h, Place.passed_append, Place.enter_name _ h]
  rfl

theorem place_mem_stations (p : Path) : p.place ∈ p.stations :=
  Place.foldl_enter_mem_passed p.start p.components

end Path

namespace FileSystem

theorem descend_eq_ok {fs : FileSystem} {here place : Place} {c : String}
    (h : fs.descend here c = .ok place) : fs.isDirectory here = true ∧ place = here.enter c := by
  unfold descend at h
  split at h
  · cases h
  · rename_i hdir
    split at h
    · cases h
    · exact ⟨by simpa using hdir, (Except.ok.inj h).symm⟩

theorem foldlM_descend_eq_ok {fs : FileSystem} {here place : Place} {cs : List String}
    (h : cs.foldlM fs.descend here = .ok place) : place = cs.foldl Place.enter here := by
  induction cs generalizing here with
  | nil => exact (Except.ok.inj h).symm
  | cons c cs ih =>
    rw [List.foldlM_cons] at h
    cases hstep : fs.descend here c with
    | error e => rw [hstep] at h; cases h
    | ok next =>
      rw [hstep] at h
      rw [List.foldl_cons, ← (descend_eq_ok hstep).2]
      exact ih h

/-- The walk along a path that leads somewhere. -/
theorem walk_of_locate {fs : FileSystem} {p : Path} {place : Place}
    (h : fs.locate p = .ok place) :
    p.components.foldlM fs.descend p.start = .ok place ∧
      (p.endsWithDot = true → fs.entryAt place = some .directory) := by
  unfold locate at h
  split at h
  · cases h
  split at h
  · cases h
  split at h
  · cases h
  cases hwalk : p.components.foldlM fs.descend p.start with
  | error e => rw [hwalk] at h; cases h
  | ok last =>
    simp only [hwalk, bind, Except.bind] at h
    split at h
    · cases h
    · rename_i hend
      cases h
      exact ⟨rfl, fun hdot => by simpa [hdot, isDirectory] using hend⟩

theorem locate_eq_ok {fs : FileSystem} {p : Path} {place : Place} (h : fs.locate p = .ok place) :
    place = p.place :=
  foldlM_descend_eq_ok (walk_of_locate h).1

end FileSystem
end MappingSweep

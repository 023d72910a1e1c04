import MappingSweep.Name
import MappingSweep.Proofs.FileSystem.Walk

/-!
# Reaching what lies in an open directory

A path into a directory whose way is open leads to its end, as long as nothing in it is too long.
What an operation does there depends on nothing but the entry at the end.
-/

namespace MappingSweep

namespace Path

/-- The path is within the limits of a file system. -/
structure Short (p : Path) : Prop where
  text : p.text.utf8ByteSize ≤ FileSystem.pathBound
  components : FileSystem.ComponentsFit p.components

instance (p : Path) : Decidable p.Short :=
  decidable_of_iff (p.text.utf8ByteSize ≤ FileSystem.pathBound ∧
      ∀ c ∈ p.components, c ≠ ".." → c.utf8ByteSize ≤ FileSystem.componentBound)
    ⟨fun h => ⟨h.1, h.2⟩, fun h => ⟨h.text, h.components⟩⟩

def NulFree (p : Path) : Prop :=
  '\x00' ∉ p.text.toList

variable {p : Path} {name : String}

theorem Fit.nulFree (h : p.Fit) : p.NulFree := by
  simpa [NulFree] using h.noNul

theorem exists_text_join (p : Path) (h : IsName name) :
    ∃ front, (p.join name).text = front ++ name ∧ p.text.utf8ByteSize ≤ front.utf8ByteSize ∧
      (p.NulFree → '\x00' ∉ front.toList) := by
  rw [text_join h]
  split
  · rename_i hempty
    exact ⟨"", by simp, by simp [hempty], fun _ => by simp⟩
  · split
    · exact ⟨p.text, rfl, Nat.le_refl _, id⟩
    · refine ⟨p.text ++ "/", rfl, ?_, ?_⟩
      · rw [String.utf8ByteSize_append]
        exact Nat.le_add_right _ _
      · intro hfree
        rw [String.toList_append, List.mem_append]
        rintro (hmem | hmem)
        · exact hfree hmem
        · exact absurd hmem (by decide)

theorem NulFree.join (h : p.NulFree) (hname : IsName name) (hnul : '\x00' ∉ name.toList) :
    (p.join name).NulFree := by
  obtain ⟨front, htext, -, hfront⟩ := p.exists_text_join hname
  rw [NulFree, htext, String.toList_append, List.mem_append]
  rintro (hmem | hmem)
  · exact hfront h hmem
  · exact hnul hmem

theorem Short.of_join (h : (p.join name).Short) (hname : IsName name) : p.Short := by
  obtain ⟨front, htext, hsize, -⟩ := p.exists_text_join hname
  constructor
  · have hlong := h.text
    rw [htext, String.utf8ByteSize_append] at hlong
    omega
  · intro c hc
    apply h.components
    rw [components_join hname]
    exact List.mem_append_left _ hc

theorem fit_join (h : p.NulFree) (hname : IsName name) (hnul : '\x00' ∉ name.toList)
    (hshort : (p.join name).Short) : (p.join name).Fit := by
  refine ⟨?_, ?_, hshort.text⟩
  · obtain ⟨front, htext, -⟩ := p.exists_text_join hname
    rw [htext, String.isEmpty_eq_false_iff]
    simp [hname.1]
  · simpa [NulFree] using h.join hname hnul

theorem endsWithSlash_join (hname : IsName name) : (p.join name).endsWithSlash = false := by
  obtain ⟨front, htext, -⟩ := p.exists_text_join hname
  have hne : name.toList ≠ [] := by simpa using hname.1
  have hlast : name.toList.getLast hne ≠ '/' :=
    fun heq => hname.2.2.2 (heq ▸ List.getLast_mem hne)
  rw [endsWithSlash, htext, String.toList_append, List.getLast?_append,
    List.getLast?_eq_some_getLast hne, Option.some_or]
  simpa using hlast

end Path

namespace FileSystem

variable {fs : FileSystem} {p dir : Path} {name : String}

/-- A name in an open directory is reached. -/
theorem locate_join (hopen : fs.Open dir.stations) (hname : IsName name)
    (hnul : '\x00' ∉ name.toList) (hfree : dir.NulFree) (hshort : (dir.join name).Short) :
    fs.locate (dir.join name) = .ok (dir.join name).place := by
  refine locate_iff.mpr ⟨Path.fit_join hfree hname hnul hshort, hshort.components, ?_, ?_⟩
  · rwa [Path.stations_join hname, List.dropLast_concat]
  · intro hdot
    rw [Path.endsWithDot_join hname] at hdot
    cases hdot

theorem pathExists_of_missing (h : fs.entryAt p.place = none) : fs.pathExists p = false := by
  unfold pathExists
  cases hfind : fs.find p with
  | error e => rfl
  | ok found =>
    obtain ⟨place, entry⟩ := found
    obtain ⟨-, hentry⟩ := find_eq_ok hfind
    rw [h] at hentry
    cases hentry

theorem createDirectories_eq_ensure (hlocate : fs.locate p = .ok p.place) :
    fs.createDirectories p = Action.change (·.ensureDirectory p) fs :=
  makeDirectories_of_found _ (locate_iff.mp hlocate).1.nonempty (by rw [hlocate]; simp)

theorem createDirectories_of_missing (hlocate : fs.locate p = .ok p.place)
    (hentry : fs.entryAt p.place = none) :
    fs.createDirectories p = (.ok (), fs.set p.place .directory) := by
  rw [createDirectories_eq_ensure hlocate, Action.change, ensureDirectory_of_missing hlocate hentry]

theorem createDirectories_of_directory (hlocate : fs.locate p = .ok p.place)
    (hentry : fs.entryAt p.place = some .directory) : fs.createDirectories p = (.ok (), fs) := by
  rw [createDirectories_eq_ensure hlocate, Action.change,
    ensureDirectory_of_directory hlocate hentry]

theorem writeBytes_of_missing (content : ByteArray) (hlocate : fs.locate p = .ok p.place)
    (hslash : p.endsWithSlash = false) (hentry : fs.entryAt p.place = none) :
    fs.writeBytes p content = .ok (fs.set p.place (.file content false)) := by
  simp only [writeBytes, hlocate, bind, Except.bind, hentry, hslash]
  rfl

theorem createFile_of_missing (content : ByteArray) (hlocate : fs.locate p = .ok p.place)
    (hslash : p.endsWithSlash = false) (hentry : fs.entryAt p.place = none) :
    fs.createFile p content = .ok (fs.set p.place (.file content false)) := by
  rw [← writeBytes_of_missing content hlocate hslash hentry]
  simp only [createFile, hlocate, bind, Except.bind, hentry]
  rfl

/-- Nothing but a directory keeps a file from being deleted. -/
theorem exists_removeFile (hexists : fs.pathExists p = true)
    (hentry : fs.entryAt p.place ≠ some .directory) : ∃ fs', fs.removeFile p = .ok fs' := by
  unfold pathExists at hexists
  cases hfind : fs.find p with
  | error e =>
    rw [hfind] at hexists
    cases hexists
  | ok found =>
    obtain ⟨place, entry⟩ := found
    obtain ⟨-, hfound⟩ := find_eq_ok hfind
    cases entry with
    | directory => exact absurd hfound hentry
    | file content x =>
      refine ⟨⟨fs.entries.filter (·.1 ≠ place)⟩, ?_⟩
      rw [removeFile, hfind]
      rfl

end FileSystem
end MappingSweep

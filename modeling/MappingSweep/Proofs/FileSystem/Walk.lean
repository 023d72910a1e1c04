import MappingSweep.Proofs.FileSystem.Creation
import MappingSweep.Proofs.FileSystem.Reading

/-!
# Walks that reach their ends

A path that leads somewhere passes directories only, and every place above one of them is a
directory too.  Such a path goes on leading there while nothing on its way is taken away.
-/

namespace MappingSweep
namespace FileSystem

variable {fs fs' : FileSystem} {p : Path} {here place q r : Place} {cs : List String}
  {content : ByteArray} {inside : Place → Prop}

/-- Everything above the place is a directory. -/
def Grounded (fs : FileSystem) (q : Place) : Prop :=
  ∀ r, r <+: q → r ≠ q → fs.entryAt r = some .directory

theorem Grounded.entryAt_of_prefix (h : fs.Grounded q) (hq : fs.entryAt q = some .directory)
    (hr : r <+: q) : fs.entryAt r = some .directory := by
  by_cases hne : r = q
  · rw [hne]
    exact hq
  · exact h r hr hne

theorem grounded_of_ups (h : q.all (· == "..") = true) : fs.Grounded q := by
  intro r hr _
  apply entryAt_of_isRoot
  rw [isRoot, Bool.or_eq_true]
  right
  rw [List.all_eq_true] at h ⊢
  exact fun c hc => h c (hr.subset hc)

theorem grounded_start (p : Path) : fs.Grounded p.start := by
  intro r hr hne
  apply entryAt_of_isRoot
  unfold Path.start at hr hne
  split at hr
  · rename_i habsolute
    rw [if_pos habsolute] at hne
    rcases List.prefix_cons_iff.mp hr with rfl | ⟨rest, rfl, hrest⟩
    · rfl
    · rw [List.prefix_nil.mp hrest] at hne
      exact absurd rfl hne
  · rw [List.prefix_nil.mp hr]
    rfl

theorem Grounded.enter (h : fs.Grounded here) (hhere : fs.entryAt here = some .directory)
    (c : String) : fs.Grounded (here.enter c) := by
  unfold Place.enter
  split
  · split
    · rename_i hups
      apply grounded_of_ups
      rcases hups with hempty | hall
      · rw [List.isEmpty_iff.mp hempty]
        rfl
      · rw [List.all_cons, hall]
        rfl
    · split
      · exact h
      · intro r hr _
        exact h.entryAt_of_prefix hhere (hr.trans (List.dropLast_prefix here))
  · intro r hr hne
    rcases List.prefix_concat_iff.mp hr with heq | hprefix
    · exact absurd heq hne
    · exact h.entryAt_of_prefix hhere hprefix

theorem grounded_of_open (h : fs.Grounded here) (hopen : fs.Open (Place.passed here cs).dropLast) :
    ∀ q ∈ Place.passed here cs, fs.Grounded q := by
  induction cs generalizing here with
  | nil =>
    intro q hq
    rw [List.mem_singleton.mp hq]
    exact h
  | cons c cs ih =>
    rw [dropLast_passed_cons] at hopen
    have hhere := hopen here List.mem_cons_self
    intro q hq
    rcases List.mem_cons.mp hq with rfl | hq
    · exact h
    · exact ih (h.enter hhere c) (fun r hr => hopen r (List.mem_cons_of_mem here hr)) q hq

/-- No component is longer than the file system allows. -/
def ComponentsFit (cs : List String) : Prop :=
  ∀ c ∈ cs, c ≠ ".." → c.utf8ByteSize ≤ componentBound

theorem componentsFit_cons {c : String} :
    ComponentsFit (c :: cs) ↔
      ¬ (c ≠ ".." ∧ componentBound < c.utf8ByteSize) ∧ ComponentsFit cs := by
  simp only [ComponentsFit, List.forall_mem_cons, not_and, Nat.not_lt]

theorem foldlM_descend_iff : cs.foldlM fs.descend here = .ok (cs.foldl Place.enter here) ↔
    ComponentsFit cs ∧ fs.Open (Place.passed here cs).dropLast := by
  induction cs generalizing here with
  | nil => simp [ComponentsFit, Open, Place.passed, pure, Except.pure]
  | cons c cs ih =>
    rw [List.foldlM_cons, List.foldl_cons, dropLast_passed_cons, componentsFit_cons]
    by_cases hhere : fs.entryAt here = some .directory
    · rw [descend_of_directory hhere]
      by_cases hlong : c ≠ ".." ∧ componentBound < c.utf8ByteSize
      · rw [if_pos hlong]
        simp [hlong, bind, Except.bind]
      · rw [if_neg hlong]
        have hrest := @ih (here.enter c)
        simp only [bind, Except.bind, hrest, hlong, not_false_eq_true, true_and, Open,
          List.forall_mem_cons, hhere]
    · have hstep : ∃ e, fs.descend here c = .error e := by
        rw [descend, if_pos]
        · exact ⟨_, rfl⟩
        · simpa [isDirectory] using hhere
      obtain ⟨e, he⟩ := hstep
      rw [he]
      simp [bind, Except.bind, Open, hhere]

theorem fit_of_locate (h : fs.locate p = .ok place) : p.Fit := by
  unfold locate at h
  split at h
  · cases h
  rename_i hnul
  split at h
  · cases h
  rename_i hempty
  split at h
  · cases h
  rename_i hlong
  exact ⟨by simpa using hempty, by simpa using hnul, Nat.not_lt.mp hlong⟩

/-- A path leads to its end along directories, and to one if a single dot asks for it. -/
theorem locate_iff :
    fs.locate p = .ok p.place ↔ p.Fit ∧ ComponentsFit p.components ∧
      fs.Open p.stations.dropLast ∧
      (p.endsWithDot = true → fs.entryAt p.place = some .directory) := by
  constructor
  · intro h
    obtain ⟨hwalk, hend⟩ := walk_of_locate h
    obtain ⟨hshort, hopen⟩ := foldlM_descend_iff.mp hwalk
    exact ⟨fit_of_locate h, hshort, hopen, hend⟩
  · rintro ⟨hfit, hshort, hopen, hend⟩
    have hwalk : p.components.foldlM fs.descend p.start = .ok p.place :=
      foldlM_descend_iff.mpr ⟨hshort, hopen⟩
    have hdirectory : ¬ (p.endsWithDot = true ∧ ¬ fs.isDirectory p.place = true) := by
      rintro ⟨hdot, hnot⟩
      exact hnot (by simp [isDirectory, hend hdot])
    rw [locate, hfit.noNul, hfit.nonempty, if_neg (by simp), if_neg (by simp),
      if_neg (Nat.not_lt.mpr hfit.short), hwalk]
    simp only [bind, Except.bind, if_neg hdirectory]
    rfl

example : (FileSystem.mk [(["log"], .file .empty false)]).locate ⟨"log/."⟩ =
    .error .notADirectory := by
  decide

/-- Everything above a place that a leading path passes is a directory. -/
theorem grounded_of_locate (h : fs.locate p = .ok p.place) : ∀ q ∈ p.stations, fs.Grounded q :=
  grounded_of_open (grounded_start p) (locate_iff.mp h).2.2.1

theorem componentsFit_of_survey (h : fs.survey here cs = .ok ()) : ComponentsFit cs := by
  induction cs generalizing here with
  | nil => exact fun c hc => absurd hc List.not_mem_nil
  | cons c cs ih =>
    rw [survey_cons_of_not_file (not_isFile_of_survey h here List.mem_cons_self)] at h
    split at h
    · cases h
    · rename_i hshort
      exact componentsFit_cons.mpr ⟨hshort, ih h⟩

/-- The empty path leads to the working directory. -/
theorem nonempty_of_ne_directory (h : fs.entryAt p.place ≠ some .directory) :
    p.text.isEmpty = false := by
  rw [← Bool.not_eq_true, String.isEmpty_iff]
  intro hempty
  have hpath : p = ⟨""⟩ := congrArg Path.mk hempty
  rw [hpath] at h
  exact h (entryAt_of_isRoot rfl)

theorem fit_of_createDirectories (hnonempty : p.text.isEmpty = false)
    (h : (fs.createDirectories p).1 = .ok ()) : p.Fit := by
  by_cases hfit : p.Fit
  · exact hfit
  · obtain ⟨result, hempty, hresult⟩ := createDirectories_of_not_fit hfit
    rw [hresult] at h
    rw [hempty h] at hnonempty
    cases hnonempty

theorem pathExists_of_directory (h : fs.locate p = .ok p.place)
    (hentry : fs.entryAt p.place = some .directory) : fs.pathExists p = true := by
  simp only [pathExists, find, h, bind, Except.bind, hentry]
  rfl

theorem Grows.open {road : List Place} (h : Grows inside fs fs') (hopen : fs.Open road)
    (hout : ∀ q ∈ road, ¬ inside q) : fs'.Open road :=
  fun q hq => h.entryAt_eq (hout q hq) (hopen q hq)

theorem Grows.locate (h : Grows inside fs fs') (hlocate : fs.locate p = .ok p.place)
    (hout : ∀ q ∈ p.stations, ¬ inside q) : fs'.locate p = .ok p.place := by
  obtain ⟨hfit, hshort, hopen, hend⟩ := locate_iff.mp hlocate
  refine locate_iff.mpr ⟨hfit, hshort, h.open hopen fun q hq => ?_, fun hdot => ?_⟩
  · exact hout q (List.dropLast_subset _ hq)
  · exact h.entryAt_eq (hout _ p.place_mem_stations) (hend hdot)

/-- What can be read stays so when nothing on the way to it is touched. -/
theorem Grows.readBytes (h : Grows inside fs fs') (hread : fs.readBytes p = .ok content)
    (hout : ∀ q ∈ p.stations, ¬ inside q) : fs'.readBytes p = .ok content := by
  obtain ⟨hlocate, hslash, x, hx⟩ := readBytes_eq_ok_iff.mp hread
  exact readBytes_eq_ok_iff.mpr ⟨h.locate hlocate hout, hslash, x,
    h.entryAt_eq (hout _ p.place_mem_stations) hx⟩

/-- Nothing that can be read lies at or below a missing place. -/
theorem not_prefix_of_readBytes (hread : fs.readBytes p = .ok content)
    (hnone : fs.entryAt r = none) : ∀ q ∈ p.stations, ¬ r <+: q := by
  obtain ⟨hlocate, -, x, hx⟩ := readBytes_eq_ok_iff.mp hread
  intro q hq hprefix
  by_cases hne : r = q
  · subst hne
    rcases (mem_stations p r).mp hq with hq | rfl
    · rw [(locate_iff.mp hlocate).2.2.1 r hq] at hnone
      cases hnone
    · rw [hx] at hnone
      cases hnone
  · rw [grounded_of_locate hlocate q hq r hprefix hne] at hnone
    cases hnone

end FileSystem
end MappingSweep

import MappingSweep.Proofs.FileSystem.Frame

/-!
# The first obstacle on a way

What stands in the way of directories that are made with their parents: files, and components that
are too long.  A place where nothing is counts as a directory, so the survey of a way does not
change while directories are added.  A walk along the way meets the same obstacle, unless it comes
to a missing place before.
-/

namespace MappingSweep
namespace FileSystem

variable {fs fs' : FileSystem} {here place q : Place} {cs : List String} {e : OsError}
  {inside : Place → Prop}

def IsFile (fs : FileSystem) (q : Place) : Prop :=
  ∃ content x, fs.entryAt q = some (.file content x)

/-- Every place on the road is a directory. -/
def Open (fs : FileSystem) (road : List Place) : Prop :=
  ∀ q ∈ road, fs.entryAt q = some .directory

/-- No file stands behind a missing place. -/
def Clear (fs : FileSystem) (places : List Place) : Prop :=
  places.Pairwise fun q r => fs.entryAt q = none → ¬ fs.IsFile r

/-- The first obstacle on a way where missing directories are made. -/
def survey (fs : FileSystem) (here : Place) : List String → Except OsError Unit
  | [] =>
    match fs.entryAt here with
    | some (.file ..) => .error .fileExists
    | _ => .ok ()
  | c :: rest =>
    match fs.entryAt here with
    | some (.file ..) => .error .notADirectory
    | _ =>
      if c ≠ ".." ∧ componentBound < c.utf8ByteSize then .error .nameTooLong
      else survey fs (here.enter c) rest

theorem survey_cons_of_not_file {c : String} (h : ¬ fs.IsFile here) :
    fs.survey here (c :: cs) =
      if c ≠ ".." ∧ componentBound < c.utf8ByteSize then .error .nameTooLong
      else fs.survey (here.enter c) cs := by
  rw [survey]
  split
  · rename_i hentry
    exact absurd ⟨_, _, hentry⟩ h
  · rfl

theorem survey_nil_of_not_file (h : ¬ fs.IsFile here) : fs.survey here [] = .ok () := by
  rw [survey]
  split
  · rename_i hentry
    exact absurd ⟨_, _, hentry⟩ h
  · rfl

theorem survey_of_file (h : fs.IsFile here) :
    fs.survey here cs = .error (if cs.isEmpty then .fileExists else .notADirectory) := by
  obtain ⟨content, x, hentry⟩ := h
  cases cs <;> rw [survey, hentry] <;> rfl

/-- Only the place where the path ends makes the survey say that a file exists. -/
theorem isFile_of_survey (h : fs.survey here cs = .error .fileExists) :
    fs.IsFile (cs.foldl Place.enter here) := by
  induction cs generalizing here with
  | nil =>
    by_cases hfile : fs.IsFile here
    · exact hfile
    · rw [survey_nil_of_not_file hfile] at h
      cases h
  | cons c cs ih =>
    by_cases hfile : fs.IsFile here
    · rw [survey_of_file hfile] at h
      cases h
    · rw [survey_cons_of_not_file hfile] at h
      split at h
      · cases h
      · exact ih h

/-- A way without obstacles passes no file. -/
theorem not_isFile_of_survey (h : fs.survey here cs = .ok ()) :
    ∀ q ∈ Place.passed here cs, ¬ fs.IsFile q := by
  induction cs generalizing here with
  | nil =>
    intro q hq hfile
    rw [List.mem_singleton.mp hq] at hfile
    rw [survey_of_file hfile] at h
    cases h
  | cons c cs ih =>
    by_cases hfile : fs.IsFile here
    · rw [survey_of_file hfile] at h
      cases h
    · rw [survey_cons_of_not_file hfile] at h
      split at h
      · cases h
      · intro q hq
        rcases List.mem_cons.mp hq with rfl | hq
        · exact hfile
        · exact ih h q hq

theorem clear_of_survey (h : fs.survey here cs = .ok ()) : fs.Clear (Place.passed here cs) :=
  List.pairwise_of_forall_mem_list fun _ _ r hr _ => not_isFile_of_survey h r hr

/-- A failed survey of the parent fails for the path too. -/
theorem survey_concat_of_error {c : String} (h : fs.survey here cs = .error e)
    (he : e ≠ .fileExists) : fs.survey here (cs ++ [c]) = .error e := by
  induction cs generalizing here with
  | nil =>
    by_cases hfile : fs.IsFile here
    · rw [survey_of_file hfile] at h
      cases h
      exact absurd rfl he
    · rw [survey_nil_of_not_file hfile] at h
      cases h
  | cons d cs ih =>
    rw [List.cons_append]
    by_cases hfile : fs.IsFile here
    · rw [survey_of_file hfile] at h ⊢
      exact h
    · rw [survey_cons_of_not_file hfile] at h ⊢
      split at h
      · rename_i hlong
        rw [if_pos hlong]
        exact h
      · rename_i hshort
        rw [if_neg hshort]
        exact ih h

theorem Grows.isFile_iff (h : Grows inside fs fs') (hq : ¬ inside q) :
    fs'.IsFile q ↔ fs.IsFile q := by
  unfold IsFile
  rcases h q hq with hsame | ⟨hnone, hdir⟩
  · rw [hsame]
  · rw [hnone, hdir]
    simp

theorem Grows.survey_eq (h : Grows inside fs fs') (hout : ∀ q ∈ Place.passed here cs, ¬ inside q) :
    fs'.survey here cs = fs.survey here cs := by
  induction cs generalizing here with
  | nil =>
    have hiff := h.isFile_iff (hout here List.mem_cons_self)
    by_cases hfile : fs.IsFile here
    · rw [survey_of_file hfile, survey_of_file (hiff.mpr hfile)]
    · rw [survey_nil_of_not_file hfile, survey_nil_of_not_file fun hf => hfile (hiff.mp hf)]
  | cons c cs ih =>
    have hiff := h.isFile_iff (hout here List.mem_cons_self)
    by_cases hfile : fs.IsFile here
    · rw [survey_of_file hfile, survey_of_file (hiff.mpr hfile)]
    · rw [survey_cons_of_not_file hfile, survey_cons_of_not_file fun hf => hfile (hiff.mp hf)]
      rw [ih fun q hq => hout q (List.mem_cons_of_mem here hq)]

theorem Clear.of_grows {places : List Place} (h : fs.Clear places) (hgrows : Grows inside fs fs')
    (hout : ∀ q ∈ places, ¬ inside q) : fs'.Clear places := by
  refine List.Pairwise.imp_of_mem ?_ h
  intro q r hq hr hclear hnone hfile
  apply hclear
  · rcases hgrows q (hout q hq) with hsame | ⟨hnone', -⟩
    · rw [← hsame, hnone]
    · exact hnone'
  · exact (hgrows.isFile_iff (hout r hr)).mp hfile

theorem dropLast_passed_cons (here : Place) (c : String) (cs : List String) :
    (Place.passed here (c :: cs)).dropLast = here :: (Place.passed (here.enter c) cs).dropLast := by
  rw [Place.passed]
  exact List.dropLast_cons_of_ne_nil (List.ne_nil_of_mem (Place.foldl_enter_mem_passed _ cs))

theorem descend_of_directory {c : String} (h : fs.entryAt here = some .directory) :
    fs.descend here c =
      if c ≠ ".." ∧ componentBound < c.utf8ByteSize then .error .nameTooLong
      else .ok (here.enter c) := by
  rw [descend, if_neg]
  simp [isDirectory, h]

theorem not_isFile_of_directory (h : fs.entryAt q = some .directory) : ¬ fs.IsFile q := by
  rintro ⟨content, x, hfile⟩
  rw [h] at hfile
  cases hfile

theorem survey_of_walk (h : cs.foldlM fs.descend here = .ok place) :
    fs.survey here cs = fs.survey place [] ∧ fs.Open (Place.passed here cs).dropLast := by
  induction cs generalizing here with
  | nil =>
    cases h
    exact ⟨rfl, fun q hq => absurd hq List.not_mem_nil⟩
  | cons c cs ih =>
    rw [List.foldlM_cons] at h
    cases hstep : fs.descend here c with
    | error e => rw [hstep] at h; cases h
    | ok next =>
      rw [hstep] at h
      obtain ⟨hdir, rfl⟩ := descend_eq_ok hstep
      have hhere : fs.entryAt here = some .directory := by simpa [isDirectory] using hdir
      rw [descend_of_directory hhere] at hstep
      obtain ⟨hsurvey, hpassed⟩ := ih h
      constructor
      · rw [survey_cons_of_not_file (not_isFile_of_directory hhere)]
        split at hstep
        · cases hstep
        · rename_i hshort
          rw [if_neg hshort, hsurvey]
      · intro q hq
        rw [dropLast_passed_cons] at hq
        rcases List.mem_cons.mp hq with rfl | hq
        · exact hhere
        · exact hpassed q hq

/-- A walk that meets a missing place meets it before its end; any other obstacle is that of the
survey. -/
theorem survey_of_failed_walk (h : cs.foldlM fs.descend here = .error e) :
    (e = .notFound ∧ ∃ q ∈ (Place.passed here cs).dropLast, fs.entryAt q = none) ∨
      (e ≠ .notFound ∧ fs.survey here cs = .error e) := by
  induction cs generalizing here with
  | nil => cases h
  | cons c cs ih =>
    rw [List.foldlM_cons] at h
    rw [dropLast_passed_cons]
    cases hentry : fs.entryAt here with
    | none =>
      have hstep : fs.descend here c = .error .notFound := by
        simp [descend, notDirectory, isDirectory, hentry]
      rw [hstep] at h
      cases h
      exact .inl ⟨rfl, here, List.mem_cons_self, hentry⟩
    | some entry =>
      cases entry with
      | file content x =>
        have hstep : fs.descend here c = .error .notADirectory := by
          simp [descend, notDirectory, isDirectory, hentry]
        rw [hstep] at h
        cases h
        exact .inr ⟨by decide, survey_of_file ⟨content, x, hentry⟩⟩
      | directory =>
        rw [descend_of_directory hentry] at h
        rw [survey_cons_of_not_file (not_isFile_of_directory hentry)]
        split at h
        · rename_i hlong
          cases h
          rw [if_pos hlong]
          exact .inr ⟨by decide, rfl⟩
        · rename_i hshort
          rw [if_neg hshort]
          rcases ih h with ⟨he, q, hq, hnone⟩ | hother
          · exact .inl ⟨he, q, List.mem_cons_of_mem here hq, hnone⟩
          · exact .inr hother

theorem passed_eq_concat (here : Place) (cs : List String) :
    Place.passed here cs = (Place.passed here cs).dropLast ++ [cs.foldl Place.enter here] := by
  induction cs generalizing here with
  | nil => rfl
  | cons c cs ih =>
    rw [dropLast_passed_cons, List.cons_append, List.foldl_cons, ← ih]
    rfl

end FileSystem
end MappingSweep

import MappingSweep.Action
import MappingSweep.Proofs.FileSystem.Parent
import MappingSweep.Proofs.FileSystem.Survey

/-!
# Making directories with their parents

The answer is that of the survey of the way, and in the end every place on the way is a directory.
This needs that no file stands behind a missing place before the end, or the obstacle would be named
differently once the missing place is there.
-/

namespace MappingSweep

/-- The text can be that of a path. -/
structure Path.Fit (p : Path) : Prop where
  nonempty : p.text.isEmpty = false
  noNul : p.text.toList.contains '\x00' = false
  short : p.text.utf8ByteSize ≤ FileSystem.pathBound

theorem Path.Fit.parent {p parent : Path} (h : p.Fit) (hparent : p.parent? = some parent)
    (hnonempty : parent.text.isEmpty = false) : parent.Fit := by
  have hsublist := Path.text_parent_sublist hparent
  refine ⟨hnonempty, ?_, Nat.le_trans (Text.utf8ByteSize_le hsublist) h.short⟩
  have hnul := h.noNul
  rw [← Bool.not_eq_true, List.contains_iff_mem] at hnul ⊢
  exact fun hmem => hnul (hsublist.subset hmem)

namespace FileSystem

variable {fs fs' : FileSystem} {p parent : Path} {place q : Place} {e : OsError}
  {inside : Place → Prop}

theorem locate_of_fit (h : p.Fit) (hdot : p.endsWithDot = false) :
    fs.locate p = p.components.foldlM fs.descend p.start := by
  rw [locate, h.noNul, h.nonempty, if_neg (by simp), if_neg (by simp), if_neg, hdot]
  · simp
  · exact Nat.not_lt.mpr h.short

theorem ensureDirectory_of_failed (h : fs.locate p = .error e) :
    fs.ensureDirectory p = .error e := by
  have hmake : fs.makeDirectory p = .error e := by
    rw [makeDirectory, h]
    rfl
  have hdir : fs.pathIsDirectory p = false := by
    rw [pathIsDirectory, find, h]
    rfl
  rw [ensureDirectory, hmake]
  simp only [hdir, Bool.false_eq_true, if_false]

theorem ensureDirectory_of_missing (h : fs.locate p = .ok p.place)
    (hentry : fs.entryAt p.place = none) :
    fs.ensureDirectory p = .ok (fs.set p.place .directory) := by
  have hmake : fs.makeDirectory p = .ok (fs.set p.place .directory) := by
    simp only [makeDirectory, h, bind, Except.bind, hentry]
    rfl
  rw [ensureDirectory, hmake]

theorem ensureDirectory_of_directory (h : fs.locate p = .ok p.place)
    (hentry : fs.entryAt p.place = some .directory) : fs.ensureDirectory p = .ok fs := by
  have hmake : fs.makeDirectory p = .error .fileExists := by
    simp only [makeDirectory, h, bind, Except.bind, hentry]
    rfl
  have hdir : fs.pathIsDirectory p = true := by
    simp only [pathIsDirectory, find, h, bind, Except.bind, hentry]
    rfl
  rw [ensureDirectory, hmake]
  simp only [hdir, if_true]

theorem ensureDirectory_of_file (h : fs.locate p = .ok p.place) (hfile : fs.IsFile p.place) :
    fs.ensureDirectory p = .error .fileExists := by
  obtain ⟨content, x, hentry⟩ := hfile
  have hmake : fs.makeDirectory p = .error .fileExists := by
    simp only [makeDirectory, h, bind, Except.bind, hentry]
    rfl
  have hdir : fs.pathIsDirectory p = false := by
    simp only [pathIsDirectory, find, h, bind, Except.bind, hentry]
    cases p.endsWithSlash <;> rfl
  rw [ensureDirectory, hmake]
  simp only [hdir, Bool.false_eq_true, if_false]

/-- Without a missing place on the way no parent is made. -/
theorem makeDirectories_of_found (fuel : Nat) (hnonempty : p.text.isEmpty = false)
    (hfound : fs.locate p ≠ .error .notFound) :
    makeDirectories (fuel + 1) fs p = Action.change (·.ensureDirectory p) fs := by
  have hmake : fs.makeDirectory p ≠ .error .notFound := by
    unfold makeDirectory
    cases hlocate : fs.locate p with
    | error e =>
      rw [hlocate] at hfound
      simpa [bind, Except.bind] using hfound
    | ok place =>
      simp only [bind, Except.bind]
      split
      · simp [throw, throwThe, MonadExceptOf.throw]
      · simp [pure, Except.pure]
  rw [makeDirectories, if_neg (by simp [hnonempty])]
  simp only [Action.change, ensureDirectory]
  cases hresult : fs.makeDirectory p with
  | ok fs' => rfl
  | error e =>
    rw [hresult] at hmake
    cases e with
    | notFound => exact absurd rfl hmake
    | _ =>
      simp only
      split <;> rfl

theorem makeDirectory_of_missing (h : fs.locate p = .error .notFound) :
    fs.makeDirectory p = .error .notFound := by
  rw [makeDirectory, h]
  rfl

theorem makeDirectories_of_orphan (fuel : Nat) (hnonempty : p.text.isEmpty = false)
    (hmissing : fs.locate p = .error .notFound) (hparent : p.parent? = none) :
    makeDirectories (fuel + 1) fs p = (.error .notFound, fs) := by
  rw [makeDirectories, if_neg (by simp [hnonempty]), makeDirectory_of_missing hmissing]
  simp only [hparent]

/-- A missing place on the way is made with the parent. -/
theorem makeDirectories_of_missing (fuel : Nat)
    (hnonempty : p.text.isEmpty = false) (hmissing : fs.locate p = .error .notFound)
    (hparent : p.parent? = some parent) :
    makeDirectories (fuel + 1) fs p =
      Action.andThen (makeDirectories fuel · parent)
        (fun _ => Action.change (·.ensureDirectory p)) fs := by
  rw [makeDirectories, if_neg (by simp [hnonempty]), makeDirectory_of_missing hmissing]
  simp only [hparent, Action.andThen]
  cases makeDirectories fuel fs parent with
  | mk result fs' =>
    cases result with
    | error e => rfl
    | ok made =>
      simp only [Action.change]
      cases fs'.ensureDirectory p <;> rfl

/-- Other texts fail before any file is looked at, unless there is nothing to make. -/
theorem createDirectories_of_not_fit (h : ¬ p.Fit) :
    ∃ result, (result = .ok () → p.text.isEmpty = true) ∧
      ∀ fs : FileSystem, fs.createDirectories p = (result, fs) := by
  by_cases hempty : p.text.isEmpty = true
  · refine ⟨.ok (), fun _ => hempty, fun fs => ?_⟩
    rw [createDirectories, makeDirectories, if_pos hempty]
  · have hfault : ∃ e, e ≠ OsError.notFound ∧ ∀ fs : FileSystem, fs.locate p = .error e := by
      by_cases hnul : p.text.toList.contains '\x00' = true
      · exact ⟨.nulInPath, by decide, fun fs => by rw [locate, if_pos hnul]⟩
      · by_cases hlong : pathBound < p.text.utf8ByteSize
        · refine ⟨.nameTooLong, by decide, fun fs => ?_⟩
          rw [locate, if_neg hnul, if_neg hempty, if_pos hlong]
        · exact absurd ⟨by simpa using hempty, by simpa using hnul, Nat.not_lt.mp hlong⟩ h
    obtain ⟨e, he, hlocate⟩ := hfault
    refine ⟨.error e, (fun h => by cases h), fun fs => ?_⟩
    have hfound : fs.locate p ≠ .error .notFound := by
      rw [hlocate fs]
      exact fun heq => he (Except.error.inj heq)
    have hensure := ensureDirectory_of_failed (hlocate fs)
    rw [createDirectories, makeDirectories_of_found _ (by simpa using hempty) hfound]
    simp only [Action.change, hensure]

/-! ## The outcome -/

/-- The answer is that of the survey, and a directory that was made can be reached. -/
structure Surveyed (fs : FileSystem) (p : Path) (made : Except OsError Unit × FileSystem) :
    Prop where
  result : made.1 = fs.survey p.start p.components
  directories : made.1 = .ok () → made.2.Open p.stations

theorem mem_stations (p : Path) (q : Place) :
    q ∈ p.stations ↔ q ∈ p.stations.dropLast ∨ q = p.place := by
  have hsplit : p.stations = p.stations.dropLast ++ [p.place] := passed_eq_concat _ _
  rw [← List.mem_singleton, ← List.mem_append, ← hsplit]

/-- The last step on a path whose parent is there. -/
theorem surveyed_of_locate (hlocate : fs.locate p = .ok place) :
    Surveyed fs p (Action.change (·.ensureDirectory p) fs) := by
  obtain rfl := locate_eq_ok hlocate
  obtain ⟨hsurvey, hpassed⟩ := survey_of_walk (walk_of_locate hlocate).1
  cases hentry : fs.entryAt p.place with
  | none =>
    simp only [Action.change, ensureDirectory_of_missing hlocate hentry]
    have hself := entryAt_set_self fs .directory (isRoot_eq_false_of_none hentry)
    constructor
    · rw [hsurvey, survey, hentry]
    · intro _ q hq
      by_cases hne : p.place = q
      · rw [← hne, hself]
      · rw [entryAt_set_of_ne fs _ hne]
        rcases (mem_stations p q).mp hq with hq | rfl
        · exact hpassed q hq
        · exact absurd rfl hne
  | some entry =>
    cases entry with
    | directory =>
      simp only [Action.change, ensureDirectory_of_directory hlocate hentry]
      constructor
      · rw [hsurvey, survey, hentry]
      · intro _ q hq
        rcases (mem_stations p q).mp hq with hq | rfl
        · exact hpassed q hq
        · exact hentry
    | file content x =>
      simp only [Action.change, ensureDirectory_of_file hlocate ⟨content, x, hentry⟩]
      refine ⟨?_, fun h => by cases h⟩
      rw [hsurvey, survey, hentry]

theorem surveyed_ensureDirectory (hfit : p.Fit) (hdot : p.endsWithDot = false)
    (hfound : fs.locate p ≠ .error .notFound) :
    Surveyed fs p (Action.change (·.ensureDirectory p) fs) := by
  cases hlocate : fs.locate p with
  | ok place => exact surveyed_of_locate hlocate
  | error e =>
    have hwalk : fs.locate p = _ := locate_of_fit hfit hdot
    rw [hlocate] at hwalk
    simp only [Action.change, ensureDirectory_of_failed hlocate]
    rcases survey_of_failed_walk hwalk.symm with ⟨rfl, -⟩ | ⟨-, hsurvey⟩
    · exact absurd hlocate hfound
    · exact ⟨hsurvey.symm, fun h => by cases h⟩

theorem stations_parent (h : p.parent? = some parent) : parent.stations = p.stations.dropLast := by
  rw [Path.stations_eq_parent h, List.dropLast_concat]

/-- A parent with a missing place on its way is not the empty path. -/
theorem text_ne_of_missing (h : q ∈ parent.stations) (hq : fs.entryAt q = none) :
    parent.text.isEmpty = false := by
  rw [← Bool.not_eq_true, String.isEmpty_iff]
  intro hempty
  obtain ⟨text⟩ := parent
  cases hempty
  have hroot : q = [] := List.mem_singleton.mp h
  rw [hroot, entryAt_of_isRoot rfl] at hq
  cases hq

theorem not_isFile_place {places : List Place} (hclear : fs.Clear (places ++ [place]))
    (hq : q ∈ places ++ [place]) (hmissing : fs.entryAt q = none) : ¬ fs.IsFile place := by
  rcases List.mem_append.mp hq with hq | hq
  · have hlater := (List.pairwise_append.mp hclear).2.2
    exact hlater q hq place (List.mem_singleton_self place) hmissing
  · rw [← List.mem_singleton.mp hq]
    rintro ⟨content, x, hfile⟩
    rw [hmissing] at hfile
    cases hfile

theorem surveyed_makeDirectories {fuel : Nat} (hfuel : p.components.length < fuel) (hfit : p.Fit)
    (hdot : p.endsWithDot = false) (hclear : fs.Clear p.stations.dropLast) :
    Surveyed fs p (makeDirectories fuel fs p) := by
  induction fuel generalizing p with
  | zero => exact absurd hfuel (Nat.not_lt_zero _)
  | succ fuel ih =>
    by_cases hfound : fs.locate p = .error .notFound
    · have hwalk := hfound
      rw [locate_of_fit hfit hdot] at hwalk
      -- a place before the end is missing, so the path has a parent, and it is not empty
      obtain ⟨q, hq, hmissing⟩ : ∃ q ∈ p.stations.dropLast, fs.entryAt q = none := by
        rcases survey_of_failed_walk hwalk with ⟨-, hmissing⟩ | ⟨hne, -⟩
        · exact hmissing
        · exact absurd rfl hne
      obtain ⟨parent, hparent⟩ : ∃ parent, p.parent? = some parent := by
        unfold Path.parent?
        split
        · rename_i hnil
          rw [Path.stations, hnil] at hq
          exact absurd hq List.not_mem_nil
        · exact ⟨_, rfl⟩
      have hne := (Path.parent_eq_some hparent).1
      rw [← stations_parent hparent] at hq hclear
      have hsplit : parent.stations = parent.stations.dropLast ++ [parent.place] :=
        passed_eq_concat _ _
      have hparentFit := hfit.parent hparent (text_ne_of_missing hq hmissing)
      have hshort : parent.components.length < fuel := by
        rw [Path.components_parent hparent, List.length_dropLast]
        have hpos := List.length_pos_iff.mpr hne
        omega
      have hmade := ih hshort hparentFit (Path.endsWithDot_parent hparent)
        (hclear.sublist (List.dropLast_sublist _))
      have hcomponents : parent.components ++ [p.components.getLast hne] = p.components := by
        rw [Path.components_parent hparent]
        exact List.dropLast_concat_getLast hne
      have hgrows := grows_makeDirectories fuel fs parent
      simp only [makeDirectories_of_missing fuel hfit.nonempty hfound hparent, Action.andThen]
      cases hresult : makeDirectories fuel fs parent with
      | mk result fs₁ =>
        rw [hresult] at hmade hgrows
        cases result with
        | error e =>
          have hsurvey : fs.survey parent.start parent.components = .error e := hmade.result.symm
          have he : e ≠ .fileExists := by
            rintro rfl
            rw [hsplit] at hq hclear
            exact not_isFile_place hclear hq hmissing (isFile_of_survey hsurvey)
          refine ⟨?_, fun h => by cases h⟩
          rw [← hcomponents, ← Path.start_parent hparent]
          exact (survey_concat_of_error hsurvey he).symm
        | ok made =>
          cases made
          -- now that the parent is there, the last step is that of a path whose parent is there
          have hdirectories := hmade.directories rfl
          have hfound₁ : fs₁.locate p ≠ .error .notFound := by
            intro hlocate
            rw [locate_of_fit hfit hdot] at hlocate
            rcases survey_of_failed_walk hlocate with ⟨-, r, hr, hnone⟩ | ⟨hother, -⟩
            · rw [← Path.stations, ← stations_parent hparent] at hr
              rw [hdirectories r hr] at hnone
              cases hnone
            · exact hother rfl
          have hlast := surveyed_ensureDirectory hfit hdot hfound₁
          have hsame : fs₁.survey p.start p.components = fs.survey p.start p.components :=
            hgrows.survey_eq fun _ _ h => h
          exact ⟨hlast.result.trans hsame, hlast.directories⟩
    · rw [makeDirectories_of_found fuel hfit.nonempty hfound]
      exact surveyed_ensureDirectory hfit hdot hfound

theorem surveyed_createDirectories (hfit : p.Fit) (hdot : p.endsWithDot = false)
    (hclear : fs.Clear p.stations.dropLast) : Surveyed fs p (fs.createDirectories p) :=
  surveyed_makeDirectories (by omega) hfit hdot hclear

/-- Directories that were added elsewhere or on the way make no difference to the answer. -/
theorem Grows.createDirectories_eq (h : Grows inside fs fs') (hdot : p.endsWithDot = false)
    (hclear : fs.Clear p.stations.dropLast) (hout : ∀ q ∈ p.stations, ¬ inside q) :
    (fs'.createDirectories p).1 = (fs.createDirectories p).1 := by
  by_cases hfit : p.Fit
  · have hclear' := hclear.of_grows h fun q hq => hout q (List.dropLast_subset _ hq)
    rw [(surveyed_createDirectories hfit hdot hclear).result,
      (surveyed_createDirectories hfit hdot hclear').result]
    exact h.survey_eq hout
  · obtain ⟨result, -, hresult⟩ := createDirectories_of_not_fit hfit
    rw [hresult, hresult]

theorem entryAt_makeDirectory (h : fs.makeDirectory p = .ok fs') (hq : q ∉ p.stations) :
    fs'.entryAt q = fs.entryAt q := by
  obtain ⟨-, rfl⟩ := makeDirectory_eq_ok h
  apply entryAt_set_of_ne
  rintro rfl
  exact hq p.place_mem_stations

theorem entryAt_ensureDirectory (h : fs.ensureDirectory p = .ok fs') (hq : q ∉ p.stations) :
    fs'.entryAt q = fs.entryAt q := by
  unfold ensureDirectory at h
  split at h
  · rename_i hmake
    cases h
    exact entryAt_makeDirectory hmake hq
  · split at h
    · cases h
      rfl
    · cases h

theorem entryAt_makeDirectories (fuel : Nat) (fs : FileSystem) {p : Path} (hq : q ∉ p.stations) :
    (makeDirectories fuel fs p).2.entryAt q = fs.entryAt q := by
  induction fuel generalizing fs p with
  | zero => rfl
  | succ fuel ih =>
    unfold makeDirectories
    split
    · rfl
    · split
      · rename_i hmake
        exact entryAt_makeDirectory hmake hq
      · split
        · rfl
        · rename_i parent hparent
          have hout : q ∉ parent.stations := by
            rw [stations_parent hparent]
            exact fun hmem => hq (List.dropLast_subset _ hmem)
          have hsame := ih fs hout
          split
          · rename_i hfailed
            rwa [hfailed] at hsame
          · rename_i hmade
            rw [hmade] at hsame
            split
            · rename_i hensure
              exact (entryAt_ensureDirectory hensure hq).trans hsame
            · exact hsame
      · split <;> rfl

theorem entryAt_createDirectories (fs : FileSystem) (hq : q ∉ p.stations) :
    (fs.createDirectories p).2.entryAt q = fs.entryAt q :=
  entryAt_makeDirectories _ fs hq

/-! ## What a creation comes to -/

/-- The parents first, and then the directory itself, unless something has failed. -/
theorem makeDirectories_cases (fuel : Nat) (fs : FileSystem) (hnonempty : p.text.isEmpty = false) :
    ∃ fs₁, Grows (fun _ => False) fs fs₁ ∧
      (∀ q, q ∉ p.stations.dropLast → fs₁.entryAt q = fs.entryAt q) ∧
      ((∃ e, makeDirectories fuel fs p = (.error e, fs₁)) ∨
        ∃ fs', fs₁.ensureDirectory p = .ok fs' ∧ makeDirectories fuel fs p = (.ok (), fs')) := by
  cases fuel with
  | zero => exact ⟨fs, .refl _ fs, fun _ _ => rfl, .inl ⟨.notFound, rfl⟩⟩
  | succ fuel =>
    by_cases hmissing : fs.locate p = .error .notFound
    · cases hparent : p.parent? with
      | none =>
        exact ⟨fs, .refl _ fs, fun _ _ => rfl,
          .inl ⟨.notFound, makeDirectories_of_orphan fuel hnonempty hmissing hparent⟩⟩
      | some parent =>
        have hgrows := grows_makeDirectories fuel fs parent
        have hsame : ∀ q, q ∉ p.stations.dropLast →
            (makeDirectories fuel fs parent).2.entryAt q = fs.entryAt q := by
          intro q hq
          rw [← stations_parent hparent] at hq
          exact entryAt_makeDirectories fuel fs hq
        refine ⟨_, hgrows, hsame, ?_⟩
        simp only [makeDirectories_of_missing fuel hnonempty hmissing hparent, Action.andThen]
        cases makeDirectories fuel fs parent with
        | mk result fs₁ =>
          cases result with
          | error e => exact .inl ⟨e, rfl⟩
          | ok made =>
            simp only [Action.change]
            cases hensure : fs₁.ensureDirectory p with
            | error e => exact .inl ⟨e, rfl⟩
            | ok fs' => exact .inr ⟨fs', rfl, rfl⟩
    · refine ⟨fs, .refl _ fs, fun _ _ => rfl, ?_⟩
      rw [makeDirectories_of_found fuel hnonempty hmissing, Action.change]
      cases hensure : fs.ensureDirectory p with
      | error e => exact .inl ⟨e, rfl⟩
      | ok fs' => exact .inr ⟨fs', rfl, rfl⟩

/-- A failed creation changes nothing where the path ends. -/
theorem entryAt_of_failed (hnonempty : p.text.isEmpty = false)
    (h : (fs.createDirectories p).1 ≠ .ok ()) (hq : q ∉ p.stations.dropLast) :
    (fs.createDirectories p).2.entryAt q = fs.entryAt q := by
  obtain ⟨fs₁, -, hsame, ⟨e, hfailed⟩ | ⟨fs', -, hmade⟩⟩ :=
    makeDirectories_cases (p.components.length + 2) fs hnonempty
  · rw [createDirectories, hfailed]
    exact hsame q hq
  · rw [createDirectories, hmade] at h
    exact absurd rfl h

theorem surveyed_of_ensureDirectory (h : fs.ensureDirectory p = .ok fs') :
    Surveyed fs p (.ok (), fs') := by
  cases hlocate : fs.locate p with
  | error e =>
    rw [ensureDirectory_of_failed hlocate] at h
    cases h
  | ok place =>
    have hsurveyed := surveyed_of_locate hlocate
    rwa [Action.change, h] at hsurveyed

/-- The survey of a way on which a directory was made; the directory can be reached. -/
theorem surveyed_of_createDirectories (hnonempty : p.text.isEmpty = false)
    (h : (fs.createDirectories p).1 = .ok ()) : Surveyed fs p (fs.createDirectories p) := by
  obtain ⟨fs₁, hgrows, -, ⟨e, hfailed⟩ | ⟨fs', hensure, hmade⟩⟩ :=
    makeDirectories_cases (p.components.length + 2) fs hnonempty
  · rw [createDirectories, hfailed] at h
    cases h
  · have hlast := surveyed_of_ensureDirectory hensure
    rw [createDirectories, hmade]
    exact ⟨hlast.result.trans (hgrows.survey_eq fun _ _ h => h), hlast.directories⟩

theorem open_of_createDirectories (hnonempty : p.text.isEmpty = false)
    (h : (fs.createDirectories p).1 = .ok ()) : (fs.createDirectories p).2.Open p.stations :=
  (surveyed_of_createDirectories hnonempty h).directories h

/-- Whether the directory can be made is a matter of the survey alone. -/
theorem createDirectories_eq_ok_iff (hfit : p.Fit) (hdot : p.endsWithDot = false) :
    (fs.createDirectories p).1 = .ok () ↔ fs.survey p.start p.components = .ok () := by
  constructor
  · intro h
    rw [← (surveyed_of_createDirectories hfit.nonempty h).result, h]
  · intro h
    rw [(surveyed_createDirectories hfit hdot ((clear_of_survey h).sublist
      (List.dropLast_sublist _))).result, h]

theorem Grows.createDirectories_eq_ok_iff (h : Grows inside fs fs') (hdot : p.endsWithDot = false)
    (hout : ∀ q ∈ p.stations, ¬ inside q) :
    (fs'.createDirectories p).1 = .ok () ↔ (fs.createDirectories p).1 = .ok () := by
  by_cases hfit : p.Fit
  · rw [FileSystem.createDirectories_eq_ok_iff hfit hdot,
      FileSystem.createDirectories_eq_ok_iff hfit hdot, h.survey_eq hout]
  · obtain ⟨result, -, hresult⟩ := createDirectories_of_not_fit hfit
    rw [hresult, hresult]

end FileSystem
end MappingSweep
